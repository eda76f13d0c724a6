import Neuro.RecentUsers

/-! The timer of a match: the first message stamps it into the two inbox documents
and the first answer takes it out of them. -/
namespace Neuro.MatchTimer
open Neuro.Lib ChatScreen RecentUsers

def timers (doc : RecentUser) : Option Int × Option Int := (doc.nudgeSender,doc.nudgeReceiver)

def pair (s : Inbox) (a b : String) : List Send := s.sends.filter fun x => x.between a b

/-- The first send by the user who did not start the conversation. -/
def answer : List Send → Option Send
  | [] => none
  | first :: rest => rest.find? fun x => x.sender ≠ first.sender

def stamp (first : Send) : Part → Option (Option Int × Option Int)
  | .toOther => first.mapData.nudgeSender.map fun now => (some now,none)
  | .toMe => (first.map .toMe).nudgeReceiver.map fun now => (none,some now)

def Carries (s : Inbox) (first : Send) (part : Part) : Prop :=
  (stamp first part).isSome = true ∧ (s.docs (first.path part)).map timers = stamp first part

def Cleared (s : Inbox) (p : Path) : Prop := (s.docs p).map timers = some (none,none)

/-- While only one user has sent, both documents carry the timers of the first
message; once the first message of each user is sent, none does. -/
def LifeCycle (s : Inbox) (a b : String) : Prop :=
  ∀ first ∈ (pair s a b).head?, first.stage.ended = true →
    (answer (pair s a b) = none → Carries s first .toOther ∧ Carries s first .toMe) ∧
    ∀ reply ∈ answer (pair s a b), reply.stage.ended = true → Cleared s (a,b) ∧ Cleared s (b,a)

/-- The screen a further message is sent from, given the messages of the pair so
far: the first one comes from a match, its send is through before any other
starts, and the first answer comes from a screen that replaces the documents. -/
structure Timely (earlier : List Send) (screen : Screen) : Prop where
  opens : earlier = [] → screen.matching = true
  follows : ∀ first ∈ earlier.head?, first.stage = .finished ∧ screen.matching = false ∧
    (answer earlier = none → (screen.replaces = true ↔ screen.id ≠ first.sender))

def Answering (s : Inbox) : Action → Prop
  | .onSendMessage index message .. => blank message.content = false →
    ∀ screen ∈ s.screens[index]?, Timely (pair s screen.id screen.peerId) screen
  | _ => True

instance (s : Inbox) (first : Send) (part : Part) : Decidable (Carries s first part) :=
  inferInstanceAs (Decidable (_ ∧ _))

instance (s : Inbox) (p : Path) : Decidable (Cleared s p) := inferInstanceAs (Decidable (_ = _))

instance (s : Inbox) (a b : String) : Decidable (LifeCycle s a b) :=
  inferInstanceAs (Decidable (∀ _ ∈ _, _ → (_ → _ ∧ _) ∧ ∀ _ ∈ _, _ → _ ∧ _))

instance (earlier : List Send) (screen : Screen) : Decidable (Timely earlier screen) :=
  decidable_of_iff ((earlier = [] → screen.matching = true) ∧
    ∀ first ∈ earlier.head?, first.stage = .finished ∧ screen.matching = false ∧
      (answer earlier = none → (screen.replaces = true ↔ screen.id ≠ first.sender)))
    ⟨fun ⟨opens,follows⟩ => ⟨opens,follows⟩,fun ⟨opens,follows⟩ => ⟨opens,follows⟩⟩

instance : ∀ s a, Decidable (Answering s a)
  | _, .onSendMessage .. => inferInstanceAs (Decidable (_ → ∀ _ ∈ _, _))
  | _, .openChat _ | _, .resume .. => inferInstanceAs (Decidable True)

theorem between_path {x z : Send} {a b : String} (first : x.between a b = true)
    (second : z.between a b = true) (part : Part) : ∃ other, x.path other = z.path part := by
  simp only [Send.between,Bool.or_eq_true,Bool.and_eq_true,decide_eq_true_eq] at first second
  rcases first with ⟨rfl,rfl⟩ | ⟨rfl,rfl⟩ <;> rcases second with ⟨sender,peer⟩ | ⟨sender,peer⟩ <;>
    cases part <;> simp only [Send.path,sender,peer] <;>
    first | exact ⟨.toOther,rfl⟩ | exact ⟨.toMe,rfl⟩

theorem exists_path {x : Send} {a b : String} (between : x.between a b = true) :
    (∃ part, x.path part = (a,b)) ∧ ∃ part, x.path part = (b,a) := by
  simp only [Send.between,Bool.or_eq_true,Bool.and_eq_true,decide_eq_true_eq] at between
  rcases between with ⟨rfl,rfl⟩ | ⟨rfl,rfl⟩
  · exact ⟨⟨.toOther,rfl⟩,⟨.toMe,rfl⟩⟩
  · exact ⟨⟨.toMe,rfl⟩,⟨.toOther,rfl⟩⟩

theorem path_cases {x : Send} {a b : String} (between : x.between a b = true) (part : Part) :
    x.path part = (a,b) ∨ x.path part = (b,a) := by
  simp only [Send.between,Bool.or_eq_true,Bool.and_eq_true,decide_eq_true_eq] at between
  rcases between with ⟨rfl,rfl⟩ | ⟨rfl,rfl⟩ <;> cases part <;> simp [Send.path]

theorem between_of_path {x : Send} {part : Part} {a b : String}
    (on : x.path part = (a,b) ∨ x.path part = (b,a)) : x.between a b = true := by
  simp only [Send.between,Bool.or_eq_true,Bool.and_eq_true,decide_eq_true_eq]
  cases part <;> simp only [Send.path,Prod.mk.injEq] at on <;> tauto

theorem between_apart {x : Send} {a b : String} (different : a ≠ b)
    (between : x.between a b = true) : x.sender ≠ x.peer := by
  simp only [Send.between,Bool.or_eq_true,Bool.and_eq_true,decide_eq_true_eq] at between
  rcases between with ⟨rfl,rfl⟩ | ⟨rfl,rfl⟩
  · exact different
  · exact different.symm

theorem mem_pair {s : Inbox} {a b : String} {x : Send} :
    x ∈ pair s a b ↔ x ∈ s.sends ∧ x.between a b = true := by
  simp only [pair,List.mem_filter]

theorem pair_between (s : Inbox) {x : Send} {a b : String} (between : x.between a b = true) :
    pair s x.sender x.peer = pair s a b := by
  simp only [Send.between,Bool.or_eq_true,Bool.and_eq_true,decide_eq_true_eq] at between
  rcases between with ⟨rfl,rfl⟩ | ⟨rfl,rfl⟩
  · rfl
  · simp only [pair,between_comm _ x.sender]

/-! The screens of a pair: their `nudgeReceiver` stays, their `isMatches` can only
be cleared. -/

theorem screens_advanced {s t : Inbox} {i : Nat} {x y : Send} {now nudgeNow : Int}
    (advanced : Advanced s i x now nudgeNow y t) {j : Nat} {screen : Screen}
    (shown : s.screens[j]? = some screen) : ∃ next, t.screens[j]? = some next ∧
      next.replaces = screen.replaces ∧ (screen.matching = false → next.matching = false) := by
  cases advanced with
  | finished own _ found =>
    by_cases same : x.screen = j
    · subst same
      obtain rfl : own = screen := Option.some.inj (found.symm.trans shown)
      obtain ⟨bound,_⟩ := List.getElem?_eq_some_iff.mp shown
      exact ⟨own.matched,by simp [bound],by simp,by simp⟩
    · exact ⟨screen,by simpa [same] using shown,rfl,id⟩
  | missing | present | failed | second => exact ⟨screen,shown,rfl,id⟩
  | set | update => exact ⟨screen,shown,rfl,id⟩

theorem screens_apart {s t : Inbox} (attached : s.Attached) {i : Nat} {x y z : Send}
    {now nudgeNow : Int} (found : s.sends[i]? = some x)
    (advanced : Advanced s i x now nudgeNow y t) (member : z ∈ s.sends) {a b : String}
    (apart : z.between a b ≠ x.between a b) {screen : Screen}
    (shown : s.screens[z.screen]? = some screen) : t.screens[z.screen]? = some screen := by
  cases advanced with
  | finished own _ _ =>
    have different : x.screen ≠ z.screen := by
      intro same
      obtain ⟨left,here,sender,peer⟩ := attached x (List.mem_of_getElem? found)
      obtain ⟨right,there,otherSender,otherPeer⟩ := attached z member
      obtain rfl : left = right := Option.some.inj (here.symm.trans (same ▸ there))
      apply apart
      simp only [Send.between,← sender,← peer,← otherSender,← otherPeer]
    simpa [different] using shown
  | missing | present | failed | second => exact shown
  | set | update => exact shown

/-- A message sent after the match: no map of it carries a timer. -/
structure Plain (s : Inbox) (x : Send) : Prop where
  other : timers x.mapData = (none,none)
  me : ∀ map ∈ x.mapDatatoFrom, timers map = (none,none)
  screen : ∃ screen, s.screens[x.screen]? = some screen ∧ screen.matching = false

def Replaces (s : Inbox) (x : Send) (value : Bool) : Prop :=
  ∃ screen, s.screens[x.screen]? = some screen ∧ screen.replaces = value

structure Merging (s : Inbox) (x : Send) : Prop where
  screen : Replaces s x false
  stage : ∀ part, x.stage ≠ .setting part

structure Replacing (s : Inbox) (x : Send) : Prop where
  screen : Replaces s x true
  stage : ∀ part, x.stage ≠ .getting part ∧ x.stage ≠ .updating part ∧ x.stage ≠ .failed part

section Advance
variable {s t : Inbox} {i : Nat} {x y z : Send} {now nudgeNow : Int}

theorem Plain.map (plain : Plain s x) (part : Part) : timers (x.map part) = (none,none) := by
  cases part with
  | toOther => exact plain.other
  | toMe =>
    cases built : x.mapDatatoFrom with
    | none => simp [Send.map,built,timers]
    | some map => simpa [Send.map,built] using plain.me map built

theorem plain_kept (advanced : Advanced s i x now nudgeNow y t) (plain : Plain s z) :
    Plain t z := by
  obtain ⟨screen,shown,matching⟩ := plain.screen
  obtain ⟨next,found,_,cleared⟩ := screens_advanced advanced shown
  exact ⟨plain.other,plain.me,next,found,cleared matching⟩

theorem plain_moved (advanced : Advanced s i x now nudgeNow y t) (plain : Plain s x) :
    Plain t y := by
  have moved := (advanced_moved advanced).1
  obtain ⟨screen,found,matching⟩ := (plain_kept advanced plain).screen
  refine ⟨moved.mapData ▸ plain.other,?_,screen,moved.screen ▸ found,matching⟩
  cases advanced with
  | second own _ shown =>
    obtain ⟨_,again,matching⟩ := plain.screen
    obtain rfl := Option.some.inj (shown.symm.trans again)
    simp [Send.second,mapDatatoFrom,timers,matching]
  | missing | present | failed | finished => exact plain.me
  | set | update => exact plain.me

theorem replaces_kept (advanced : Advanced s i x now nudgeNow y t) {value : Bool}
    (replaces : Replaces s z value) : Replaces t z value := by
  obtain ⟨screen,shown,same⟩ := replaces
  obtain ⟨next,found,kept,_⟩ := screens_advanced advanced shown
  exact ⟨next,found,kept.trans same⟩

theorem replaces_moved (advanced : Advanced s i x now nudgeNow y t) {value : Bool}
    (replaces : Replaces s x value) : Replaces t y value := by
  obtain ⟨screen,found,same⟩ := replaces_kept advanced replaces
  exact ⟨screen,(advanced_moved advanced).1.screen ▸ found,same⟩

theorem merging_moved (advanced : Advanced s i x now nudgeNow y t) (merging : Merging s x)
    (exist : ∀ part, s.docs (x.path part) ≠ none) : Merging t y := by
  refine ⟨replaces_moved advanced merging.screen,?_⟩
  cases advanced with
  | missing part _ absent => exact absurd absent (exist part)
  | second own _ shown =>
    obtain ⟨_,again,same⟩ := merging.screen
    obtain rfl := Option.some.inj (shown.symm.trans again)
    simp [Send.second,entry,same]
  | present | failed | finished => simp [Send.toStage]
  | set | update => simp [Send.toStage]

theorem replacing_moved (advanced : Advanced s i x now nudgeNow y t) (replacing : Replacing s x) :
    Replacing t y := by
  refine ⟨replaces_moved advanced replacing.screen,?_⟩
  cases advanced with
  | missing part awaited _ => exact absurd awaited (replacing.stage part).1
  | present part awaited _ => exact absurd awaited (replacing.stage part).1
  | update part _ awaited _ => exact absurd awaited (replacing.stage part).2.1
  | failed part awaited _ => exact absurd awaited (replacing.stage part).2.1
  | second own _ shown =>
    obtain ⟨_,again,same⟩ := replacing.screen
    obtain rfl := Option.some.inj (shown.symm.trans again)
    simp [Send.second,entry,same]
  | set | finished => simp [Send.toStage]

end Advance

/-- The first message of the pair: sent from a match, into documents that do not
exist yet. -/
structure Opening (s : Inbox) (first : Send) : Prop where
  other : ∃ now, timers first.mapData = (some now,none)
  me : ∀ map ∈ first.mapDatatoFrom, ∃ now, timers map = (none,some now)
  built : first.stage.wrote .toOther = true → first.stage ≠ .committed .toOther →
    first.mapDatatoFrom ≠ none
  screen : first.stage ≠ .finished →
    ∃ screen, s.screens[first.screen]? = some screen ∧ screen.matching = true
  absent : ∀ part, first.stage.wrote part = false → s.docs (first.path part) = none
  stage : ∀ part, first.stage ≠ .updating part ∧ first.stage ≠ .failed part

structure Timed (s : Inbox) (first : Send) (rest : List Send) : Prop where
  opening : Opening s first
  solo : first.stage ≠ .finished → rest = []
  plain : ∀ x ∈ rest, Plain s x
  waiting : answer (first :: rest) = none →
    (∀ part, first.stage.wrote part = true → Carries s first part) ∧ ∀ x ∈ rest, Merging s x
  answered : ∀ reply ∈ answer (first :: rest), Replacing s reply ∧
    ∀ part, reply.stage.wrote part = true → Cleared s (reply.path part)

structure Followed (s : Inbox) (a b : String) : Prop where
  absent : pair s a b = [] → s.docs (a,b) = none ∧ s.docs (b,a) = none
  timed : ∀ first rest, pair s a b = first :: rest → Timed s first rest

theorem Opening.stamp {s : Inbox} {first : Send} (opening : Opening s first) {part : Part}
    (landing : first.stage.landing = some part) :
    (stamp first part).isSome = true ∧ some (timers (first.map part)) = stamp first part := by
  cases part with
  | toOther =>
    obtain ⟨now,sent⟩ := opening.other
    obtain ⟨sender,receiver⟩ := Prod.mk.inj sent
    simp [MatchTimer.stamp,timers,Send.map,sender,receiver]
  | toMe =>
    have wrote : first.stage.wrote .toOther = true ∧ first.stage ≠ .committed .toOther := by
      cases stage : first.stage with
      | setting other | updating other =>
        obtain rfl : other = .toMe := by simpa [stage,Stage.landing] using landing
        exact ⟨rfl,by simp⟩
      | getting | committed | failed | finished => simp [stage,Stage.landing] at landing
    obtain ⟨map,built⟩ := Option.ne_none_iff_exists'.mp (opening.built wrote.1 wrote.2)
    obtain ⟨now,received⟩ := opening.me map built
    obtain ⟨sender,receiver⟩ := Prod.mk.inj received
    simp [MatchTimer.stamp,timers,Send.map,built,sender,receiver]

theorem Timed.frame {s t : Inbox} {first : Send} {rest : List Send} (timed : Timed s first rest)
    (docs : ∀ x ∈ first :: rest, ∀ part, t.docs (x.path part) = s.docs (x.path part))
    (screens : ∀ x ∈ first :: rest, ∀ screen, s.screens[x.screen]? = some screen →
      t.screens[x.screen]? = some screen) : Timed t first rest := by
  obtain ⟨⟨other,me,built,screen,absent,stage⟩,solo,plain,waiting,answered⟩ := timed
  have inside (x : Send) (member : x ∈ rest) : x ∈ first :: rest := List.mem_cons_of_mem _ member
  have replaces {x : Send} (member : x ∈ rest) {value : Bool} :
      Replaces s x value → Replaces t x value := fun ⟨screen,shown,same⟩ =>
    ⟨screen,screens x (inside x member) screen shown,same⟩
  constructor
  · refine ⟨other,me,built,fun unfinished => ?_,fun part unwritten => ?_,stage⟩
    · obtain ⟨shown,found,matching⟩ := screen unfinished
      exact ⟨shown,screens first (by simp) shown found,matching⟩
    · rw [docs first (by simp)]
      exact absent part unwritten
  · exact solo
  · intro x member
    obtain ⟨own,mine,shown,found,matching⟩ := plain x member
    exact ⟨own,mine,shown,screens x (inside x member) shown found,matching⟩
  · intro none
    obtain ⟨carried,merging⟩ := waiting none
    refine ⟨fun part wrote => ?_,fun x member => ?_⟩
    · rw [Carries,docs first (by simp)]
      exact carried part wrote
    · exact ⟨replaces member (merging x member).screen,(merging x member).stage⟩
  · intro reply found
    have member : reply ∈ rest := List.mem_of_find?_eq_some found
    obtain ⟨replacing,cleared⟩ := answered reply found
    refine ⟨⟨replaces member replacing.screen,replacing.stage⟩,fun part wrote => ?_⟩
    rw [Cleared,docs reply (inside reply member)]
    exact cleared part wrote

theorem timed_opened {s t : Inbox} {index : Nat} {screen : Screen} {message : Message}
    {now nudgeNow : Int} (shown : s.screens[index]? = some screen)
    (matching : screen.matching = true) (screens : t.screens = s.screens)
    (absent : ∀ part,
      t.docs ((Send.started index screen message now nudgeNow).path part) = none) :
    Timed t (.started index screen message now nudgeNow) [] := by
  constructor
  · constructor
    · exact ⟨nudgeNow,by simp [Send.started,mapData,timers,matching]⟩
    · simp [Send.started]
    · intro wrote
      simp [Send.started,entry_wrote] at wrote
    · exact fun _ => ⟨screen,screens ▸ shown,matching⟩
    · exact fun part _ => absent part
    · simp only [Send.started,entry]
      split <;> simp
  · simp
  · simp
  · refine fun _ => ⟨fun part wrote => ?_,by simp⟩
    simp [Send.started,entry_wrote] at wrote
  · simp [answer]

theorem timed_appended {s : Inbox} {first : Send} {rest : List Send} {index : Nat}
    {screen : Screen} {message : Message} {now nudgeNow : Int} (timed : Timed s first rest)
    (shown : s.screens[index]? = some screen) (timely : Timely (first :: rest) screen) :
    Timed s first (rest ++ [.started index screen message now nudgeNow]) := by
  obtain ⟨finished,matching,side⟩ := timely.follows first (by simp)
  have appended : answer (first :: (rest ++ [.started index screen message now nudgeNow])) =
      (answer (first :: rest)).or (if screen.id ≠ first.sender then
        some (.started index screen message now nudgeNow) else none) := by
    simp only [answer,List.find?_append,List.find?_singleton,Send.started,ne_eq,decide_not,
      Bool.not_eq_true',decide_eq_false_iff_not]
  have fresh (part : Part) :
      (Send.started index screen message now nudgeNow).stage.wrote part = false :=
    entry_wrote screen part
  refine ⟨timed.opening,fun unfinished => absurd finished unfinished,?_,?_,?_⟩
  · refine Pool.forall_append timed.plain ⟨?_,by simp [Send.started],screen,shown,matching⟩
    simp [Send.started,mapData,timers,matching]
  · intro none
    rw [appended,Option.or_eq_none_iff] at none
    obtain ⟨carried,merging⟩ := timed.waiting none.1
    have same : screen.id = first.sender := by
      by_contra different
      simp [different] at none
    have merges : screen.replaces = false := by
      apply Bool.eq_false_iff.mpr
      exact fun replaces => (side none.1).mp replaces same
    refine ⟨carried,Pool.forall_append merging ⟨⟨screen,shown,merges⟩,?_⟩⟩
    simp [Send.started,entry,merges]
  · intro reply found
    rw [appended] at found
    rcases Option.or_eq_some_iff.mp found with old | ⟨none,new⟩
    · exact timed.answered reply old
    · split at new
      next different =>
        obtain rfl := Option.some.inj new
        have replaces := (side none).mpr different
        refine ⟨⟨⟨screen,shown,replaces⟩,?_⟩,fun part wrote => ?_⟩
        · simp [Send.started,entry,replaces]
        · rw [fresh part] at wrote
          contradiction
      next => contradiction

section Advance
variable {s t : Inbox} {i : Nat} {x y : Send} {now nudgeNow : Int}

theorem path_apart (x : Send) (apart : x.sender ≠ x.peer) (part : Part) :
    (x.path part).1 ≠ (x.path part).2 := by
  cases part with
  | toOther => exact apart
  | toMe => exact apart.symm

theorem other_path (x : Send) (apart : x.sender ≠ x.peer) {part other : Part}
    (different : other ≠ part) : x.path other ≠ x.path part := by
  cases part <;> cases other <;> first | contradiction | simp [Send.path,apart,apart.symm]

/-- While the first message is on its way it is the only one of the pair. -/
theorem timed_first (apart : x.sender ≠ x.peer) (timed : Timed s x [])
    (advanced : Advanced s i x now nudgeNow y t) : Timed t y [] := by
  have opening := timed.opening
  obtain ⟨⟨other,me,built,screen,absent,stage⟩,_,_,waiting,_⟩ := timed
  obtain ⟨carried,_⟩ := waiting rfl
  suffices held : Opening t y ∧ ∀ part, y.stage.wrote part = true → Carries t y part from
    ⟨held.1,fun _ => rfl,by simp,fun _ => ⟨held.2,by simp⟩,by simp [answer]⟩
  cases advanced with
  | missing part awaited none =>
    have same (other : Part) : (Stage.setting part).wrote other = x.stage.wrote other := by
      rw [awaited,(awaiting_wrote part other).1]
    refine ⟨⟨other,me,?_,fun _ => screen (by simp [awaited]),?_,by simp [Send.toStage]⟩,?_⟩
    · intro wrote _
      exact built (same .toOther ▸ wrote) (by simp [awaited])
    · exact fun other unwritten => absent other (same other ▸ unwritten)
    · exact fun other wrote => carried other (same other ▸ wrote)
  | present part awaited exist => exact absurd (absent part (by simp [awaited,Stage.wrote])) exist
  | set part awaited =>
    have landing : x.stage.landing = some part := by simp [awaited,Stage.landing]
    obtain ⟨stamped,shows⟩ := opening.stamp landing
    have self : (Stage.committed part).wrote part = true := by cases part <;> rfl
    refine ⟨⟨other,me,?_,fun _ => screen (by simp [awaited]),?_,by simp [Send.toStage]⟩,?_⟩
    · intro _ further
      cases part with
      | toOther => exact absurd rfl further
      | toMe => exact built (by simp [awaited,Stage.wrote]) (by simp [awaited])
    · intro other unwritten
      have different : other ≠ part := by
        rintro rfl
        exact Bool.false_ne_true (unwritten.symm.trans self)
      have before := (committed_wrote landing different).symm.trans unwritten
      exact (Store.set_of_ne (other_path x apart different) _).trans (absent other before)
    · intro other wrote
      by_cases same : other = part
      · subst same
        exact ⟨stamped,(congrArg (Option.map timers) (Store.set_self _)).trans shows⟩
      · have before := (committed_wrote landing same).symm.trans wrote
        obtain ⟨stamped,shows⟩ := carried other before
        have kept : s.docs.set (x.path part) (x.map part) (x.path other) = s.docs (x.path other) :=
          Store.set_of_ne (other_path x apart same) _
        exact ⟨stamped,(congrArg (Option.map timers) kept).trans shows⟩
  | update part _ awaited _ => exact absurd awaited (stage part).1
  | failed part awaited _ => exact absurd awaited (stage part).1
  | second own awaited shown =>
    obtain ⟨_,again,matching⟩ := screen (by simp [awaited])
    obtain rfl := Option.some.inj (shown.symm.trans again)
    have same (other : Part) : (entry own .toMe).wrote other = x.stage.wrote other := by
      rw [awaited]
      unfold entry
      split <;> cases other <;> rfl
    refine ⟨⟨other,?_,by simp [Send.second],fun _ => ⟨own,shown,matching⟩,?_,?_⟩,?_⟩
    · simp [Send.second,mapDatatoFrom,timers,matching]
    · exact fun other unwritten => absent other (same other ▸ unwritten)
    · simp only [Send.second,entry]
      split <;> simp
    · intro other wrote
      have done : x.stage.wrote other = true := same other ▸ wrote
      cases other with
      | toOther => exact carried .toOther done
      | toMe => simp [awaited,Stage.wrote] at done
  | finished own awaited shown =>
    have done (other : Part) : x.stage.wrote other = true := by
      rw [awaited]
      cases other <;> rfl
    refine ⟨⟨other,me,fun wrote _ => built (done .toOther) (by simp [awaited]),?_,?_,?_⟩,?_⟩
    · exact fun unfinished => absurd rfl unfinished
    · intro other unwritten
      cases other <;> simp [Send.toStage,Stage.wrote] at unwritten
    · simp [Send.toStage]
    · exact fun other _ => carried other (done other)

theorem timers_merge {doc patch : RecentUser} (plain : timers patch = (none,none)) :
    timers (doc.merge patch) = timers doc := by
  obtain ⟨sender,receiver⟩ := Prod.mk.inj plain
  simp only [timers,RecentUser.merge,sender,receiver,Option.none_or]

theorem cleared_kept (advanced : Advanced s i x now nudgeNow y t) (plain : Plain s x) {p : Path}
    (apart : p.1 ≠ p.2) (cleared : Cleared s p) : Cleared t p := by
  cases advanced_seen advanced apart with
  | away docs _ => rwa [Cleared,docs]
  | set part _ _ docs _ => rw [Cleared,docs,Option.map_some,plain.map part]
  | update part doc _ _ exist docs _ =>
    rw [Cleared,exist] at cleared
    rwa [Cleared,docs,Option.map_some,timers_merge (plain.map part)]

theorem carries_kept (advanced : Advanced s i x now nudgeNow y t) (plain : Plain s x)
    (merging : Merging s x) {first : Send} (apart : first.sender ≠ first.peer) {part : Part}
    (carried : Carries s first part) : Carries t first part := by
  refine ⟨carried.1,Eq.trans ?_ carried.2⟩
  cases advanced_seen advanced (path_apart first apart part) with
  | away docs _ => rw [docs]
  | set other _ awaited _ _ => exact absurd awaited (merging.stage other)
  | update other doc _ _ exist docs _ =>
    rw [docs,exist,Option.map_some,Option.map_some,timers_merge (plain.map other)]

theorem cleared_moved (advanced : Advanced s i x now nudgeNow y t) (plain : Plain s x)
    (replacing : Replacing s x) (apart : x.sender ≠ x.peer)
    (cleared : ∀ part, x.stage.wrote part = true → Cleared s (x.path part)) :
    ∀ part, y.stage.wrote part = true → Cleared t (y.path part) := by
  intro part wrote
  have moved := (advanced_moved advanced).1
  rw [moved.path]
  cases advanced_seen advanced (path_apart x apart part) with
  | away docs same =>
    rw [← wrote_path y (by rwa [moved.sender,moved.peer]),moved.path,same,
      wrote_path x apart] at wrote
    rw [Cleared,docs]
    exact cleared part wrote
  | set other _ _ docs _ => rw [Cleared,docs,Option.map_some,plain.map other]
  | update other _ _ awaited _ _ _ => exact absurd awaited (replacing.stage other).2.1

theorem answer_moved (first : Send) (before after : List Send) (same : y.sender = x.sender) :
    (answer (first :: (before ++ x :: after)) = some x ∧
      answer (first :: (before ++ y :: after)) = some y) ∨
    answer (first :: (before ++ y :: after)) = answer (first :: (before ++ x :: after)) := by
  simp only [answer,List.find?_append,List.find?_cons,same]
  cases before.find? fun z => z.sender ≠ first.sender with
  | some z => exact .inr rfl
  | none =>
    cases side : decide (x.sender ≠ first.sender)
    · exact .inr rfl
    · exact .inl ⟨rfl,rfl⟩

theorem timed_rest {first : Send} {before after : List Send} {a b : String} (different : a ≠ b)
    (between : ∀ z ∈ first :: (before ++ x :: after), z.between a b = true)
    (timed : Timed s first (before ++ x :: after)) (advanced : Advanced s i x now nudgeNow y t) :
    Timed t first (before ++ y :: after) := by
  have finished : first.stage = .finished := by
    by_contra unfinished
    simpa using timed.solo unfinished
  have apart (z : Send) (member : z ∈ first :: (before ++ x :: after)) : z.sender ≠ z.peer :=
    between_apart different (between z member)
  have wrote (part : Part) : first.stage.wrote part = true := by
    rw [finished]
    cases part <;> rfl
  have moved := (advanced_moved advanced).1
  have plain : Plain s x := timed.plain x (by simp)
  constructor
  · obtain ⟨other,me,built,_,_,stage⟩ := timed.opening
    refine ⟨other,me,built,fun unfinished => absurd finished unfinished,?_,stage⟩
    intro part unwritten
    exact absurd (wrote part) (Bool.eq_false_iff.mp unwritten)
  · exact fun unfinished => absurd finished unfinished
  · exact Pool.forall_replace (fun z member => plain_kept advanced (timed.plain z member))
      (plain_moved advanced plain)
  · intro none
    have before_none : answer (first :: (before ++ x :: after)) = .none := by
      rcases answer_moved first before after moved.sender with ⟨_,some⟩ | same
      · exact absurd (some.symm.trans none) (by simp)
      · exact same.symm.trans none
    obtain ⟨carried,merging⟩ := timed.waiting before_none
    have own : Merging s x := merging x (by simp)
    have exist (part : Part) : s.docs (x.path part) ≠ .none := by
      obtain ⟨other,same⟩ : ∃ other, first.path other = x.path part :=
        between_path (between first (by simp)) (between x (by simp)) part
      have shows := carried other (wrote other)
      rw [← same]
      intro absent
      rw [Carries,absent,Option.map_none] at shows
      simp [← shows.2] at shows
    refine ⟨fun part done => ?_,?_⟩
    · exact carries_kept advanced plain own (apart first (by simp)) (carried part done)
    · apply Pool.forall_replace
      · intro z member
        exact ⟨replaces_kept advanced (merging z member).screen,(merging z member).stage⟩
      · exact merging_moved advanced own exist
  · intro reply found
    rcases answer_moved first before after moved.sender with ⟨old,new⟩ | same
    · obtain rfl : y = reply := Option.some.inj (new.symm.trans found)
      obtain ⟨replacing,cleared⟩ := timed.answered x old
      exact ⟨replacing_moved advanced replacing,
        cleared_moved advanced plain replacing (apart x (by simp)) cleared⟩
    · have old := same.symm.trans found
      have member : reply ∈ before ++ x :: after := List.mem_of_find?_eq_some old
      obtain ⟨replacing,cleared⟩ := timed.answered reply old
      refine ⟨⟨replaces_kept advanced replacing.screen,replacing.stage⟩,fun part done => ?_⟩
      have users := path_apart reply (apart reply (by simp [member])) part
      exact cleared_kept advanced plain users (cleared part done)

theorem docs_apart {a b : String} (different : a ≠ b) (advanced : Advanced s i x now nudgeNow y t)
    (between : x.between a b = false) {p : Path} (on : p = (a,b) ∨ p = (b,a)) :
    t.docs p = s.docs p := by
  have apart : p.1 ≠ p.2 := by
    rcases on with rfl | rfl
    · exact different
    · exact different.symm
  have off (part : Part) : x.path part ≠ p := by
    rintro rfl
    exact Bool.false_ne_true (between.symm.trans (between_of_path on))
  cases advanced_seen advanced apart with
  | away docs _ => exact docs
  | set part on => exact absurd on (off part)
  | update part _ on => exact absurd on (off part)

end Advance

theorem followed_frame {s t : Inbox} {a b : String} (followed : Followed s a b)
    (pairs : pair t a b = pair s a b) (forth : t.docs (a,b) = s.docs (a,b))
    (back : t.docs (b,a) = s.docs (b,a)) (screens : ∀ x ∈ pair s a b, ∀ screen,
      s.screens[x.screen]? = some screen → t.screens[x.screen]? = some screen) :
    Followed t a b := by
  refine ⟨?_,?_⟩
  · rw [pairs,forth,back]
    exact followed.absent
  · intro first rest listed
    rw [pairs] at listed
    apply (followed.timed first rest listed).frame
    · intro x member part
      have between : x.between a b = true := (mem_pair.mp (listed ▸ member)).2
      rcases path_cases between part with path | path <;> rw [path] <;> assumption
    · exact fun x member => screens x (listed ▸ member)

theorem followed_started {s : Inbox} {a b : String} (followed : Followed s a b) {index : Nat}
    {screen : Screen} {message : Message} {now nudgeNow : Int}
    (shown : s.screens[index]? = some screen)
    (timely : Timely (pair s screen.id screen.peerId) screen) :
    Followed {s with sends := s.sends ++ [.started index screen message now nudgeNow]} a b := by
  by_cases between : (Send.started index screen message now nudgeNow).between a b = true
  · have pairs : pair s screen.id screen.peerId = pair s a b := pair_between s between
    rw [pairs] at timely
    have appended : pair {s with sends := s.sends ++
        [.started index screen message now nudgeNow]} a b =
        pair s a b ++ [.started index screen message now nudgeNow] := by
      simp [pair,List.filter_append,between]
    refine ⟨by simp [appended],?_⟩
    intro first rest listed
    rw [appended] at listed
    cases earlier : pair s a b with
    | nil =>
      rw [earlier] at listed
      obtain ⟨rfl,rfl⟩ := List.cons_eq_cons.mp listed
      refine timed_opened shown (timely.opens earlier) rfl fun part => ?_
      obtain ⟨forth,back⟩ := followed.absent earlier
      rcases path_cases between part with path | path <;> rw [path] <;> assumption
    | cons opener later =>
      rw [earlier] at listed timely
      obtain ⟨rfl,rfl⟩ := List.cons_eq_cons.mp listed
      have timed : Timed s opener (later ++ [.started index screen message now nudgeNow]) :=
        timed_appended (followed.timed opener later earlier) shown timely
      exact timed.frame (fun _ _ _ => rfl) fun _ _ _ found => found
  · refine followed_frame followed ?_ rfl rfl fun _ _ _ found => found
    simp [pair,List.filter_append,between]

theorem followed_advanced {s t : Inbox} {a b : String} (different : a ≠ b)
    (attached : s.Attached) (followed : Followed s a b) {i : Nat} {x y : Send}
    {now nudgeNow : Int} (found : s.sends[i]? = some x)
    (advanced : Advanced s i x now nudgeNow y t) : Followed t a b := by
  obtain ⟨moved,sends⟩ := advanced_moved advanced
  cases between : x.between a b with
  | false =>
    have still : y.between a b = false := (moved.between a b).trans between
    have same : pair t a b = pair s a b := by
      rw [pair,sends]
      exact Pool.filter_set_other _ found between still
    apply followed_frame followed same
    · exact docs_apart different advanced between (.inl rfl)
    · exact docs_apart different advanced between (.inr rfl)
    · intro z member screen shown
      obtain ⟨inside,users⟩ := mem_pair.mp member
      have unlike : z.between a b ≠ x.between a b := by simp [users,between]
      exact screens_apart attached found advanced inside unlike shown
  | true =>
    have still : y.between a b = true := (moved.between a b).trans between
    obtain ⟨earlier,later,left,right⟩ :=
      Pool.filter_set (fun z => z.between a b) found between still
    rw [← sends] at right
    change pair s a b = _ at left
    change pair t a b = _ at right
    refine ⟨by simp [right],?_⟩
    intro first rest listed
    rw [right] at listed
    cases earlier with
    | nil =>
      rw [List.nil_append] at left listed
      obtain ⟨rfl,rfl⟩ := List.cons_eq_cons.mp listed
      have timed := followed.timed x _ left
      have unfinished : x.stage ≠ .finished := by
        cases advanced <;> simp [*]
      have alone := timed.solo unfinished
      rw [alone] at timed ⊢
      exact timed_first (between_apart different between) timed advanced
    | cons opener others =>
      rw [List.cons_append] at left listed
      obtain ⟨rfl,rfl⟩ := List.cons_eq_cons.mp listed
      apply timed_rest different _ (followed.timed _ _ left) advanced
      intro z member
      exact (mem_pair.mp (left ▸ member)).2

structure Kept (s : Inbox) : Prop where
  attached : s.Attached
  followed : ∀ a b : String, a ≠ b → Followed s a b

theorem kept_step {s t : Inbox} {a : Action} (kept : Kept s) (answering : Answering s a)
    (stepped : s.step a = some t) : Kept t := by
  refine ⟨attached_step kept.attached stepped,fun a b different => ?_⟩
  have followed := kept.followed a b different
  rcases step_cases stepped with ⟨screen,_,rfl⟩ |
    ⟨index,message,now,nudgeNow,screen,rfl,shown,sent⟩ | ⟨i,x,_,_,y,rfl,found,advanced⟩
  · refine followed_frame followed rfl rfl rfl fun x _ own found => ?_
    exact Pool.mem_appended.mpr (.inl found)
  · rcases sent with ⟨_,rfl⟩ | ⟨filled,rfl⟩
    · exact followed
    · exact followed_started followed shown (answering filled screen shown)
  · exact followed_advanced different kept.attached followed found advanced

theorem kept_run {s : Inbox} {actions : List Action}
    (run : Run Inbox.step Answering .empty actions s) : Kept s := by
  have start : Kept .empty := by
    refine ⟨by simp [Inbox.Attached,Inbox.empty],fun a b _ => ⟨fun _ => ⟨rfl,rfl⟩,?_⟩⟩
    simp [pair,Inbox.empty]
  exact run.invariant Kept start fun _ _ _ => kept_step

/-- In every run in which every message is sent from a timely screen, the timers of
each pair follow their life cycle in every state. -/
theorem timers_follow_messages {s : Inbox} {actions : List Action}
    (run : Run Inbox.step Answering .empty actions s) {a b : String} (different : a ≠ b) :
    LifeCycle s a b := by
  intro first opener ended
  obtain ⟨rest,listed⟩ : ∃ rest, pair s a b = first :: rest := List.head?_eq_some_iff.mp opener
  have timed := ((kept_run run).followed a b different).timed first rest listed
  rw [listed]
  refine ⟨fun none => ?_,fun reply found ended => ?_⟩
  · have finished : first.stage = .finished := by
      cases stage : first.stage with
      | finished => rfl
      | failed part => exact absurd stage (timed.opening.stage part).2
      | getting | setting | updating | committed => simp [stage,Stage.ended] at ended
    obtain ⟨carried,_⟩ := timed.waiting none
    exact ⟨carried .toOther (by rw [finished]; rfl),carried .toMe (by rw [finished]; rfl)⟩
  · obtain ⟨replacing,cleared⟩ := timed.answered reply found
    have wrote (part : Part) : reply.stage.wrote part = true := by
      cases stage : reply.stage with
      | finished => cases part <;> rfl
      | failed part => exact absurd stage (replacing.stage part).2.2
      | getting | setting | updating | committed => simp [stage,Stage.ended] at ended
    have member : reply ∈ rest := List.mem_of_find?_eq_some found
    have between : reply.between a b = true :=
      (mem_pair.mp (listed ▸ List.mem_cons_of_mem first member)).2
    obtain ⟨⟨forth,on⟩,⟨back,off⟩⟩ := exists_path between
    exact ⟨on ▸ cleared forth (wrote forth),off ▸ cleared back (wrote back)⟩

def annaMatch : Screen :=
  readLocal String.length ⟨"7","Anna","a.png"⟩ (.ofMatch "12" "b.png" "Ben")

def benRow : Screen := readLocal String.length ⟨"12","Ben","b.png"⟩
  (.ofInboxRow {id := "7",photoUrl := "a.png",nickname := "Anna",nudgeReceiver := some 20})

theorem timers_follow_messages_row : ∃ s, Run Inbox.step Answering .empty
    [.openChat annaMatch,.onSendMessage 0 ⟨"hi",0⟩ 5 5,.resume 0 6 6,.resume 0 6 6,.resume 0 6 6,
      .resume 0 6 6,.resume 0 6 6,.resume 0 6 6,.openChat benRow,.onSendMessage 1 ⟨"hello",0⟩ 8 8,
      .resume 1 9 9,.resume 1 9 9,.resume 1 9 9,.resume 1 9 9] s ∧
    (answer (pair s "7" "12")).any (fun reply => reply.stage.ended) = true ∧
    LifeCycle s "7" "12" := by
  have computed : ∃ s, Run Inbox.step Answering .empty
      [.openChat annaMatch,.onSendMessage 0 ⟨"hi",0⟩ 5 5,.resume 0 6 6,.resume 0 6 6,
        .resume 0 6 6,.resume 0 6 6,.resume 0 6 6,.resume 0 6 6,.openChat benRow,
        .onSendMessage 1 ⟨"hello",0⟩ 8 8,.resume 1 9 9,.resume 1 9 9,.resume 1 9 9,
        .resume 1 9 9] s ∧
      (answer (pair s "7" "12")).any (fun reply => reply.stage.ended) = true :=
    Run.exists_of_exec (by decide)
  obtain ⟨s,run,answered⟩ := computed
  exact ⟨s,run,answered,timers_follow_messages run (by decide)⟩

/-- Ben answers from a tapped notification, which knows of no timer: his message is
merged into the documents and leaves both timers in them. -/
theorem timer_survives_answer : ¬ ∀ (actions : List Action) (s : Inbox) (a b : String),
    Run Inbox.step anyStep .empty actions s → a ≠ b → LifeCycle s a b := by
  intro claimed
  have computed : ∃ s, Run Inbox.step anyStep .empty
      [.openChat annaMatch,.onSendMessage 0 ⟨"hi",0⟩ 5 5,.resume 0 6 6,.resume 0 6 6,
        .resume 0 6 6,.resume 0 6 6,.resume 0 6 6,.resume 0 6 6,.openChat ben,
        .onSendMessage 1 ⟨"hello",0⟩ 8 8,.resume 1 9 9,.resume 1 9 9,.resume 1 9 9,
        .resume 1 9 9,.resume 1 9 9,.resume 1 9 9] s ∧ ¬ LifeCycle s "7" "12" :=
    Run.exists_of_exec (by decide)
  obtain ⟨s,run,left⟩ := computed
  exact left (claimed _ s "7" "12" run (by decide))

end Neuro.MatchTimer
