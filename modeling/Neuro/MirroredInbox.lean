import Neuro.Lib.Register
import Neuro.RecentUsers

/-! The two inbox documents of a pair of users. Each is a register which every
send of the pair writes once; they agree unless commits overtake each other. -/
namespace Neuro.MirroredInbox
open Neuro.Lib ChatScreen RecentUsers

abbrev Last := Option String × Option String × Option String × Option Int

def last (doc : RecentUser) : Last := (doc.idFrom,doc.idTo,doc.content,doc.type)

def ownLast (x : Send) : Last :=
  (some x.sender,some x.peer,some x.message.content,some x.message.type)

def started (s : Inbox) (a b : String) : List Last :=
  (s.sends.filter fun x => x.between a b).map ownLast

/-- Both documents show the message started last, and none when there is none. -/
def Mirrored (s : Inbox) (a b : String) : Prop :=
  (s.docs (a,b)).map last = (started s a b).getLast? ∧
    (s.docs (b,a)).map last = (started s a b).getLast?

instance (s : Inbox) (a b : String) : Decidable (Mirrored s a b) :=
  inferInstanceAs (Decidable (_ ∧ _))

instance (s : Inbox) (a b : String) : Decidable (s.Quiet a b) :=
  inferInstanceAs (Decidable (∀ _ ∈ _, _))

def write (p : Path) (x : Send) : List (Last × Bool) :=
  if x.between p.1 p.2 then [(ownLast x,x.wrote p)] else []

def writes (p : Path) (sends : List Send) : List (Last × Bool) := sends.flatMap (write p)

def register (p : Path) (s : Inbox) : Register Last where
  value := (s.docs p).map last
  writes := writes p s.sends

def Late (s : Inbox) (i : Nat) (p : Path) : Prop :=
  Register.Overtaken (writes p (s.sends.drop (i + 1)))

/-- No transaction commits on a document after all the sends of the pair that were
started later, when there are any. -/
def InOrder (s : Inbox) : Action → Prop
  | .resume i .. => ∀ x ∈ s.sends[i]?, ∀ part ∈ x.stage.landing, ¬ Late s i (x.path part)
  | _ => True

instance (s : Inbox) (i : Nat) (p : Path) : Decidable (Late s i p) :=
  inferInstanceAs (Decidable (Register.Overtaken _))

instance : ∀ s a, Decidable (InOrder s a)
  | _, .resume .. => inferInstanceAs (Decidable (∀ _ ∈ _, ∀ _ ∈ _, ¬ _))
  | _, .openChat _ | _, .onSendMessage .. => inferInstanceAs (Decidable True)

/-- The maps of a send identify its message, an update it is about to commit finds
its document, and it has not failed. -/
structure Ready (docs : Store Path RecentUser) (x : Send) : Prop where
  other : last x.mapData = ownLast x
  me : x.stage = .getting .toMe ∨ x.stage.landing = some .toMe → last (x.map .toMe) = ownLast x
  found : ∀ part, x.stage = .updating part → docs (x.path part) ≠ none
  alive : ∀ part, x.stage ≠ .failed part

structure Sound (s : Inbox) : Prop where
  attached : s.Attached
  ready : ∀ x ∈ s.sends, Ready s.docs x

theorem last_merge {doc patch : RecentUser} {x : Send} (own : last patch = ownLast x) :
    last (doc.merge patch) = ownLast x := by
  simp only [last,ownLast,Prod.mk.injEq] at own
  obtain ⟨idFrom,idTo,content,type⟩ := own
  simp only [last,ownLast,RecentUser.merge,idFrom,idTo,content,type,Option.some_or]

theorem Ready.map {docs : Store Path RecentUser} {x : Send} (ready : Ready docs x) {part : Part}
    (landing : x.stage.landing = some part) : last (x.map part) = ownLast x := by
  cases part with
  | toOther => exact ready.other
  | toMe => exact ready.me (.inr landing)

theorem ready_started (docs : Store Path RecentUser) (index : Nat) (screen : Screen)
    (message : Message) (now nudgeNow : Int) :
    Ready docs (.started index screen message now nudgeNow) := by
  constructor
  · rfl
  all_goals simp only [Send.started,entry]; split <;> simp [Stage.landing]

theorem ready_advanced {s t : Inbox} {i : Nat} {x y : Send} {now nudgeNow : Int} (sound : Sound s)
    (found : s.sends[i]? = some x) (advanced : Advanced s i x now nudgeNow y t) :
    ∀ y ∈ t.sends, Ready t.docs y := by
  have own := sound.ready x (List.mem_of_getElem? found)
  have others : ∀ y ∈ s.sends, Ready t.docs y := fun y member =>
    let held := sound.ready y member
    ⟨held.other,held.me,fun part stage => advanced_docs advanced (held.found part stage),held.alive⟩
  cases advanced with
  | missing part awaited absent =>
    refine Pool.forall_set others ⟨own.other,?_,by simp [Send.toStage],by simp [Send.toStage]⟩
    rintro (again | landing)
    · simp [Send.toStage] at again
    · obtain rfl : part = .toMe := by simpa [Send.toStage,Stage.landing] using landing
      exact own.me (.inl awaited)
  | present part awaited exist =>
    refine Pool.forall_set others ⟨own.other,?_,?_,by simp [Send.toStage]⟩
    · rintro (again | landing)
      · simp [Send.toStage] at again
      · obtain rfl : part = .toMe := by simpa [Send.toStage,Stage.landing] using landing
        exact own.me (.inl awaited)
    · intro other stage
      obtain rfl : part = other := by simpa [Send.toStage] using stage
      exact exist
  | set part awaited =>
    exact Pool.forall_set others ⟨own.other,by simp [Send.toStage,Stage.landing],
      by simp [Send.toStage],by simp [Send.toStage]⟩
  | update part doc awaited exist =>
    exact Pool.forall_set others ⟨own.other,by simp [Send.toStage,Stage.landing],
      by simp [Send.toStage],by simp [Send.toStage]⟩
  | failed part awaited absent => exact absurd absent (own.found part awaited)
  | second screen awaited shown =>
    refine Pool.forall_set others ⟨own.other,fun _ => ?_,?_,?_⟩
    · obtain ⟨_,again,sender,peer⟩ := sound.attached x (List.mem_of_getElem? found)
      obtain rfl := Option.some.inj (shown.symm.trans again)
      simp only [Send.second,Send.map,Option.getD_some,last,mapDatatoFrom,ownLast,sender,peer]
    all_goals simp only [Send.second,entry]; split <;> simp
  | finished screen awaited shown =>
    exact Pool.forall_set others ⟨own.other,by simp [Send.toStage,Stage.landing],
      by simp [Send.toStage],by simp [Send.toStage]⟩

theorem sound_step {s t : Inbox} {a : Action} (sound : Sound s) (stepped : s.step a = some t) :
    Sound t := by
  refine ⟨attached_step sound.attached stepped,?_⟩
  rcases step_cases stepped with ⟨screen,_,rfl⟩ | ⟨index,message,_,_,screen,_,_,sent⟩ |
    ⟨i,x,_,_,_,rfl,found,advanced⟩
  · exact sound.ready
  · rcases sent with ⟨_,rfl⟩ | ⟨_,rfl⟩
    · exact sound.ready
    · exact Pool.forall_append sound.ready (ready_started ..)
  · exact ready_advanced sound found advanced

theorem sound_empty : Sound .empty :=
  ⟨by simp [Inbox.Attached,Inbox.empty],by simp [Inbox.empty]⟩

theorem sound_run {guard : Inbox → Action → Prop} {s : Inbox} {actions : List Action}
    (run : Run Inbox.step guard .empty actions s) : Sound s :=
  run.invariant Sound sound_empty fun _ _ _ sound _ stepped => sound_step sound stepped

theorem write_between {p : Path} {x : Send} (between : x.between p.1 p.2 = true) :
    write p x = [(ownLast x,x.wrote p)] := if_pos between

theorem between_iff {p : Path} {x : Send} :
    x.between p.1 p.2 = true ↔ x.path .toOther = p ∨ x.path .toMe = p := by
  simp only [Send.between,Send.path,Bool.or_eq_true,Bool.and_eq_true,decide_eq_true_eq,
    Prod.ext_iff,and_comm]

theorem write_moved {p : Path} {x y : Send} (moved : Moved x y) (wrote : y.wrote p = x.wrote p) :
    write p y = write p x := by
  have own : ownLast y = ownLast x := by
    simp only [ownLast,moved.sender,moved.peer,moved.message]
  rw [write,write,moved.between,own,wrote]

theorem path_between {x : Send} {part : Part} {p : Path} (on : x.path part = p) :
    x.between p.1 p.2 = true := by
  apply between_iff.mpr
  cases part with
  | toOther => exact .inl on
  | toMe => exact .inr on

theorem register_commit {s t : Inbox} {i : Nat} {x : Send} {p : Path} {part : Part}
    {requests : Prop} {admitted : List (Last × Bool) → Prop} (apart : p.1 ≠ p.2)
    (found : s.sends[i]? = some x) (on : x.path part = p) (landing : x.stage.landing = some part)
    (allowed : admitted (writes p (s.sends.drop (i + 1))))
    (docs : (t.docs p).map last = some (ownLast x))
    (sends : t.sends = s.sends.set i (x.toStage (.committed part))) :
    Register.Step requests admitted (register p s) (register p t) := by
  have fresh : x.wrote p = false := by
    rw [Send.wrote,(partOn_path x apart part).mpr on]
    exact landing_wrote landing
  have wrote : (x.toStage (.committed part)).wrote p = true :=
    (wrote_iff _ apart).mpr ⟨part,on,by cases part <;> rfl⟩
  obtain ⟨before,after⟩ := Pool.split found (x.toStage (.committed part))
  have left : writes p s.sends =
      writes p (s.sends.take i) ++ (ownLast x,false) :: writes p (s.sends.drop (i + 1)) := by
    conv_lhs => rw [before]
    simp [writes,write_between (path_between on),fresh]
  have right : writes p t.sends =
      writes p (s.sends.take i) ++ (ownLast x,true) :: writes p (s.sends.drop (i + 1)) := by
    rw [sends,after]
    simp only [writes,List.flatMap_append,List.flatMap_cons]
    rw [write_between (path_between (x := x.toStage (.committed part)) on),wrote]
    rfl
  simp only [register,left,right,docs]
  exact .commit _ _ _ _ allowed

def StartsNone (p : Path) (s : Inbox) : Action → Prop
  | .onSendMessage index .. => ∀ screen ∈ s.screens[index]?,
    (screen.id,screen.peerId) ≠ p ∧ (screen.peerId,screen.id) ≠ p
  | _ => True

/-- Every step of the inbox is, for each document, a step of its register or none:
a send of the pair is a request, and the commits are those of the inbox. -/
theorem register_step {s t : Inbox} {a : Action} {p : Path} (apart : p.1 ≠ p.2)
    {requests : Prop} {admitted : List (Last × Bool) → Prop} (sound : Sound s)
    (stepped : s.step a = some t) (asked : ¬ StartsNone p s a → requests)
    (allowed : ∀ i x part now nudgeNow, a = .resume i now nudgeNow → s.sends[i]? = some x →
      x.stage.landing = some part → x.path part = p → admitted (writes p (s.sends.drop (i + 1)))) :
    register p t = register p s ∨
      Register.Step requests admitted (register p s) (register p t) := by
  rcases step_cases stepped with ⟨screen,_,rfl⟩ | ⟨index,message,now,nudgeNow,screen,rfl,shown,sent⟩ |
    ⟨i,x,now,nudgeNow,y,rfl,found,advanced⟩
  · exact .inl rfl
  · rcases sent with ⟨_,rfl⟩ | ⟨_,rfl⟩
    · exact .inl rfl
    · by_cases between : (Send.started index screen message now nudgeNow).between p.1 p.2 = true
      · right
        simp only [register,writes,List.flatMap_append,List.flatMap_singleton,
          write_between between,started_wrote]
        refine .request _ _ _ (asked fun none => ?_)
        obtain ⟨forth,back⟩ := none screen shown
        rcases between_iff.mp between with same | same
        · exact forth same
        · exact back same
      · left
        simp [register,writes,write,between]
  · have own := sound.ready x (List.mem_of_getElem? found)
    obtain ⟨moved,sends⟩ := advanced_moved advanced
    cases advanced_seen advanced apart with
    | away docs wrote =>
      left
      obtain ⟨before,after⟩ := Pool.split found y
      have same : writes p t.sends = writes p s.sends := by
        conv_rhs => rw [before]
        rw [sends,after]
        simp only [writes,List.flatMap_append,List.flatMap_cons,write_moved moved wrote]
      simp only [register,docs,same]
    | set part on awaited docs next =>
      have landing : x.stage.landing = some part := by simp [awaited,Stage.landing]
      subst next
      refine .inr (register_commit apart found on landing ?_ ?_ sends)
      · exact allowed i x part now nudgeNow rfl found landing on
      · rw [docs,Option.map_some,own.map landing]
    | update part doc on awaited exist docs next =>
      have landing : x.stage.landing = some part := by simp [awaited,Stage.landing]
      subst next
      refine .inr (register_commit apart found on landing ?_ ?_ sends)
      · exact allowed i x part now nudgeNow rfl found landing on
      · rw [docs,Option.map_some,last_merge (own.map landing)]

structure Ordered (s : Inbox) : Prop where
  sound : Sound s
  inTime : ∀ p : Path, p.1 ≠ p.2 → (register p s).InTime

theorem ordered_step {s t : Inbox} {a : Action} (ordered : Ordered s) (inOrder : InOrder s a)
    (stepped : s.step a = some t) : Ordered t := by
  refine ⟨sound_step ordered.sound stepped,fun p apart => ?_⟩
  have step : register p t = register p s ∨
      Register.Step True (fun after => ¬ Register.Overtaken after) (register p s)
        (register p t) := by
    apply register_step apart ordered.sound stepped (fun _ => trivial)
    intro i x part _ _ action found landing on
    subst action
    exact on ▸ inOrder x found part landing
  rcases step with same | step
  · rw [same]
    exact ordered.inTime p apart
  · exact Register.inTime_step (ordered.inTime p apart) step

theorem ordered_run {s : Inbox} {actions : List Action}
    (run : Run Inbox.step InOrder .empty actions s) : Ordered s := by
  have start : Ordered .empty := ⟨sound_empty,fun _ _ => Register.inTime_empty⟩
  exact run.invariant Ordered start fun _ _ _ => ordered_step

theorem wrote_quiet {s : Inbox} (sound : Sound s) {a b : String} (apart : a ≠ b)
    (quiet : s.Quiet a b) : ∀ w ∈ writes (a,b) s.sends, w.2 = true := by
  intro w member
  obtain ⟨x,inside,written⟩ := List.mem_flatMap.mp member
  unfold write at written
  split at written
  next between =>
    obtain rfl := List.mem_singleton.mp written
    have ended := quiet x inside between
    cases stage : x.stage with
    | failed part => exact absurd stage ((sound.ready x inside).alive part)
    | finished => exact finished_wrote apart between stage
    | getting | setting | updating | committed => simp [stage,Stage.ended] at ended
  next => simp at written

theorem started_writes (s : Inbox) (a b : String) :
    started s a b = (writes (a,b) s.sends).map Prod.fst := by
  unfold started writes
  induction s.sends with
  | nil => rfl
  | cons x xs ih =>
    rw [List.flatMap_cons,List.map_append,← ih]
    cases between : x.between a b <;> simp [write,between]

theorem shown_quiet {s : Inbox} (sound : Sound s) {a b : String} (apart : a ≠ b)
    (inTime : (register (a,b) s).InTime) (quiet : s.Quiet a b) :
    (s.docs (a,b)).map last = (started s a b).getLast? := by
  have current := Register.current_of_inTime inTime (wrote_quiet sound apart quiet)
  rw [started_writes,List.getLast?_map]
  exact current

/-- In every run without late commits the two documents of a pair agree whenever
no send of the pair is in progress, and show the message started last. -/
theorem mirrored_when_ordered {s : Inbox} {actions : List Action}
    (run : Run Inbox.step InOrder .empty actions s) {a b : String} (apart : a ≠ b)
    (quiet : s.Quiet a b) : Mirrored s a b := by
  have ordered := ordered_run run
  have mirror : s.Quiet b a := fun x member between =>
    quiet x member ((between_comm x a b).trans between)
  have swapped : started s b a = started s a b := by
    simp only [started,between_comm _ b a]
  refine ⟨shown_quiet ordered.sound apart (ordered.inTime (a,b) apart) quiet,?_⟩
  rw [← swapped]
  exact shown_quiet ordered.sound apart.symm (ordered.inTime (b,a) apart.symm) mirror

theorem mirrored_when_ordered_apart : ∃ s, Run Inbox.step InOrder .empty
    [.openChat anna,.openChat ben,.onSendMessage 0 ⟨"hi",0⟩ 5 5,.onSendMessage 1 ⟨"hello",0⟩ 5 5,
      .resume 0 6 6,.resume 1 6 6,.resume 0 6 6,.resume 0 6 6,.resume 0 6 6,.resume 0 6 6,
      .resume 1 7 7,.resume 0 7 7,.resume 1 7 7,.resume 1 7 7,.resume 1 7 7,.resume 1 7 7] s ∧
      (started s "7" "12").length = 2 ∧ Mirrored s "7" "12" := by
  have computed : ∃ s, Run Inbox.step InOrder .empty
      [.openChat anna,.openChat ben,.onSendMessage 0 ⟨"hi",0⟩ 5 5,.onSendMessage 1 ⟨"hello",0⟩ 5 5,
        .resume 0 6 6,.resume 1 6 6,.resume 0 6 6,.resume 0 6 6,.resume 0 6 6,.resume 0 6 6,
        .resume 1 7 7,.resume 0 7 7,.resume 1 7 7,.resume 1 7 7,.resume 1 7 7,.resume 1 7 7] s ∧
        (started s "7" "12").length = 2 ∧ s.Quiet "7" "12" :=
    Run.exists_of_exec (by decide)
  obtain ⟨s,run,both,quiet⟩ := computed
  exact ⟨s,run,both,mirrored_when_ordered run (by decide) quiet⟩

/-- Both write their own inbox first and then that of the other: each document
shows what its owner received. -/
theorem documents_disagree : ¬ ∀ (actions : List Action) (s : Inbox) (a b : String),
    Run Inbox.step anyStep .empty actions s → a ≠ b → s.Quiet a b → Mirrored s a b := by
  intro claimed
  have computed : ∃ s, Run Inbox.step anyStep .empty
      [.openChat anna,.openChat ben,.onSendMessage 0 ⟨"hi",0⟩ 5 5,.onSendMessage 1 ⟨"hello",0⟩ 5 5,
        .resume 0 6 6,.resume 0 6 6,.resume 1 6 6,.resume 1 6 6,.resume 0 7 7,.resume 1 7 7,
        .resume 0 7 7,.resume 1 7 7,.resume 0 7 7,.resume 1 7 7,.resume 0 8 8,.resume 1 8 8] s ∧
        s.Quiet "7" "12" ∧ (s.docs ("7","12")).map last ≠ (s.docs ("12","7")).map last :=
    Run.exists_of_exec (by decide)
  obtain ⟨s,run,quiet,differ⟩ := computed
  obtain ⟨forth,back⟩ := claimed _ s "7" "12" run (by decide) quiet
  exact differ (forth.trans back.symm)

theorem landed {s t : Inbox} {i : Nat} {x y : Send} {now nudgeNow : Int} {part : Part}
    (sound : Sound s) (found : s.sends[i]? = some x) (landing : x.stage.landing = some part)
    (advanced : Advanced s i x now nudgeNow y t) :
    t.sends = s.sends.set i (x.toStage (.committed part)) ∧
      (t.docs (x.path part)).map last = some (ownLast x) := by
  have own := sound.ready x (List.mem_of_getElem? found)
  have map := own.map landing
  cases advanced with
  | set other awaited =>
    obtain rfl : other = part := by simpa [awaited,Stage.landing] using landing
    exact ⟨rfl,by simp [map]⟩
  | update other doc awaited exist =>
    obtain rfl : other = part := by simpa [awaited,Stage.landing] using landing
    exact ⟨rfl,by simp [last_merge map]⟩
  | failed other awaited absent => exact absurd absent (own.found other awaited)
  | missing _ awaited | present _ awaited | second _ awaited | finished _ awaited =>
    simp [awaited,Stage.landing] at landing

/-- The order is needed: after a late commit on a document it shows an earlier
message than the one started last, until another message of the pair is started. -/
theorem stale_after_late {s t u : Inbox} {actions more : List Action}
    {guard : Inbox → Action → Prop} {i : Nat} {x : Send} {now nudgeNow : Int} {part : Part}
    (run : Run Inbox.step guard .empty actions s) (found : s.sends[i]? = some x)
    (landing : x.stage.landing = some part) (apart : x.sender ≠ x.peer)
    (late : Late s i (x.path part)) (stepped : s.step (.resume i now nudgeNow) = some t)
    (rest : Run Inbox.step (StartsNone (x.path part)) t more u) :
    (register (x.path part) u).Stale := by
  have sound := sound_run run
  have different : (x.path part).1 ≠ (x.path part).2 := by
    cases part with
    | toOther => exact apart
    | toMe => exact apart.symm
  obtain ⟨y,advanced⟩ : ∃ y, Advanced s i x now nudgeNow y t := by
    rw [Inbox.step,found] at stepped
    exact advance_cases stepped
  obtain ⟨sends,docs⟩ := landed sound found landing advanced
  have commit : Register.Step False Register.Overtaken _ _ :=
    register_commit different found rfl landing late docs sends
  have start : Sound t ∧ (register (x.path part) t).Stale :=
    ⟨sound_step sound stepped,Register.stale_of_overtaken commit⟩
  have final : Sound u ∧ (register (x.path part) u).Stale := by
    induction rest with
    | nil => exact start
    | @snoc _ v _ w _ none next ih =>
      refine ⟨sound_step ih.1 next,?_⟩
      have step : register (x.path part) w = register (x.path part) v ∨
          Register.Step False (fun _ => True) (register (x.path part) v)
            (register (x.path part) w) :=
        register_step different ih.1 next (absurd none) fun _ _ _ _ _ _ _ _ _ => trivial
      rcases step with same | step
      · rw [same]
        exact ih.2
      · exact Register.stale_step ih.2 step
  exact final.2

end Neuro.MirroredInbox
