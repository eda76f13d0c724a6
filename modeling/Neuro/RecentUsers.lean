import Neuro.ChatScreen
import Neuro.Lib.Pool
import Neuro.Lib.Run
import Neuro.Lib.Store

/-! The inbox half of the 1:1 `onSendMessage`: every send writes the document of
the sender's inbox and then, after further awaits, that of the peer's inbox. The
sends of all users interleave at every await. -/
namespace Neuro.RecentUsers
open Neuro.Lib ChatScreen

/-- The two comments of the source: the write under the sender (`toOther`) and
the write under the peer (`toMe`). -/
inductive Part
  | toOther
  | toMe
  deriving DecidableEq, Repr

/-- Where a send stands: awaiting the `get`, the transaction that sets or updates,
or, after that commit, its continuation. `failed` is an update of a document that
is not there. -/
inductive Stage
  | getting (part : Part)
  | setting (part : Part)
  | updating (part : Part)
  | committed (part : Part)
  | failed (part : Part)
  | finished
  deriving DecidableEq, Repr

abbrev Path := String × String

/-- One call of `onSendMessage` with its local maps; the second one is built only
when the first write is through. -/
structure Send where
  screen : Nat
  sender : String
  peer : String
  message : Message
  mapData : RecentUser
  mapDatatoFrom : Option RecentUser := none
  stage : Stage
  deriving DecidableEq, Repr

structure Inbox where
  docs : Store Path RecentUser
  screens : List Screen
  /-- In the order in which they were started. -/
  sends : List Send

inductive Action
  | openChat (screen : Screen)
  | onSendMessage (screen : Nat) (message : Message) (now nudgeNow : Int)
  /-- The next await of a send completes; the two readings are those of the maps
  built in its continuation. -/
  | resume (send : Nat) (now nudgeNow : Int)

namespace Send
variable (x : Send)

def path : Part → Path
  | .toOther => (x.sender,x.peer)
  | .toMe => (x.peer,x.sender)

def map : Part → RecentUser
  | .toOther => x.mapData
  | .toMe => x.mapDatatoFrom.getD {}

def toStage (stage : Stage) : Send := {x with stage := stage}

def between (a b : String) : Bool :=
  (x.sender = a && x.peer = b) || (x.sender = b && x.peer = a)

end Send

/-- The first await of a part: a screen with a receiver timer sets the document
without looking whether it exists. -/
def entry (screen : Screen) (part : Part) : Stage :=
  if screen.replaces then .setting part else .getting part

def Send.started (index : Nat) (screen : Screen) (message : Message) (now nudgeNow : Int) :
    Send where
  screen := index
  sender := screen.id
  peer := screen.peerId
  message := message
  mapData := ChatScreen.mapData screen message now nudgeNow
  stage := entry screen .toOther

def Send.second (x : Send) (screen : Screen) (now nudgeNow : Int) : Send := {x with
  mapDatatoFrom := some (ChatScreen.mapDatatoFrom screen x.message now nudgeNow)
  stage := entry screen .toMe}

namespace Inbox
variable (s : Inbox)

def empty : Inbox := ⟨fun _ => none,[],[]⟩

def onSendMessage (index : Nat) (message : Message) (now nudgeNow : Int) : Option Inbox :=
  s.screens[index]?.map fun screen =>
    if blank message.content then s
    else {s with sends := s.sends ++ [.started index screen message now nudgeNow]}

def put (i : Nat) (x : Send) : Inbox := {s with sends := s.sends.set i x}

/-- The continuation of the first write builds the second map and starts the
second part, the one of the second write clears `isMatches`. -/
def continued (i : Nat) (x : Send) (now nudgeNow : Int) : Part → Option Inbox
  | .toOther => s.screens[x.screen]?.map fun screen => s.put i (x.second screen now nudgeNow)
  | .toMe => s.screens[x.screen]?.map fun screen =>
    {s.put i (x.toStage .finished) with
      screens := s.screens.set x.screen screen.matched}

def advance (i : Nat) (x : Send) (now nudgeNow : Int) : Option Inbox :=
  match x.stage with
  | .getting part =>
    let exist := (s.docs (x.path part)).isSome
    some (s.put i (x.toStage (if exist then .updating part else .setting part)))
  | .setting part =>
    some {s.put i (x.toStage (.committed part)) with
      docs := s.docs.set (x.path part) (x.map part)}
  | .updating part =>
    match s.docs.update (x.path part) RecentUser.merge (x.map part) with
    | some docs => some {s.put i (x.toStage (.committed part)) with docs := docs}
    | none => some (s.put i (x.toStage (.failed part)))
  | .committed part => s.continued i x now nudgeNow part
  | .failed _ | .finished => none

def step : Action → Option Inbox
  | .openChat screen => some {s with screens := s.screens ++ [screen]}
  | .onSendMessage index message now nudgeNow => s.onSendMessage index message now nudgeNow
  | .resume i now nudgeNow => s.sends[i]?.bind fun x => s.advance i x now nudgeNow

end Inbox

def Stage.ended : Stage → Bool
  | .failed _ | .finished => true
  | _ => false

def Stage.wrote : Stage → Part → Bool
  | .committed .toMe, _ | .finished, _ => true
  | .committed .toOther, .toOther => true
  | .getting .toMe, .toOther | .setting .toMe, .toOther | .updating .toMe, .toOther
  | .failed .toMe, .toOther => true
  | _, _ => false

def Stage.landing : Stage → Option Part
  | .setting part | .updating part => some part
  | _ => none

def Send.partOn (x : Send) (p : Path) : Option Part :=
  if x.path .toOther = p then some .toOther else if x.path .toMe = p then some .toMe else none

def Send.wrote (x : Send) (p : Path) : Bool := (x.partOn p).any x.stage.wrote

/-- What one await of the send `x`, the `i`-th, can do: it becomes the send `y`. -/
inductive Advanced (s : Inbox) (i : Nat) (x : Send) (now nudgeNow : Int) :
    Send → Inbox → Prop
  | missing (part) (awaited : x.stage = .getting part) (absent : s.docs (x.path part) = none) :
      Advanced s i x now nudgeNow (x.toStage (.setting part))
        (s.put i (x.toStage (.setting part)))
  | present (part) (awaited : x.stage = .getting part) (exist : s.docs (x.path part) ≠ none) :
      Advanced s i x now nudgeNow (x.toStage (.updating part))
        (s.put i (x.toStage (.updating part)))
  | set (part) (awaited : x.stage = .setting part) :
      Advanced s i x now nudgeNow (x.toStage (.committed part))
        {s.put i (x.toStage (.committed part)) with
          docs := s.docs.set (x.path part) (x.map part)}
  | update (part doc) (awaited : x.stage = .updating part)
      (exist : s.docs (x.path part) = some doc) :
      Advanced s i x now nudgeNow (x.toStage (.committed part))
        {s.put i (x.toStage (.committed part)) with
          docs := s.docs.set (x.path part) (doc.merge (x.map part))}
  | failed (part) (awaited : x.stage = .updating part) (absent : s.docs (x.path part) = none) :
      Advanced s i x now nudgeNow (x.toStage (.failed part)) (s.put i (x.toStage (.failed part)))
  | second (screen) (awaited : x.stage = .committed .toOther)
      (shown : s.screens[x.screen]? = some screen) :
      Advanced s i x now nudgeNow (x.second screen now nudgeNow)
        (s.put i (x.second screen now nudgeNow))
  | finished (screen) (awaited : x.stage = .committed .toMe)
      (shown : s.screens[x.screen]? = some screen) :
      Advanced s i x now nudgeNow (x.toStage .finished)
        {s.put i (x.toStage .finished) with
          screens := s.screens.set x.screen screen.matched}

theorem advance_cases {s t : Inbox} {i : Nat} {x : Send} {now nudgeNow : Int}
    (stepped : s.advance i x now nudgeNow = some t) : ∃ y, Advanced s i x now nudgeNow y t := by
  unfold Inbox.advance at stepped
  cases stage : x.stage with
  | getting part =>
    simp only [stage,Option.some.injEq] at stepped
    subst stepped
    cases found : s.docs (x.path part) with
    | none => exact ⟨_,.missing part stage found⟩
    | some doc => exact ⟨_,.present part stage (by simp [found])⟩
  | setting part =>
    simp only [stage,Option.some.injEq] at stepped
    subst stepped
    exact ⟨_,.set part stage⟩
  | updating part =>
    cases found : s.docs (x.path part) with
    | none =>
      simp only [stage,Store.update,found,Option.map_none,Option.some.injEq] at stepped
      subst stepped
      exact ⟨_,.failed part stage found⟩
    | some doc =>
      simp only [stage,Store.update,found,Option.map_some,Option.some.injEq] at stepped
      subst stepped
      exact ⟨_,.update part doc stage found⟩
  | committed part =>
    simp only [stage] at stepped
    cases part with
    | toOther =>
      obtain ⟨screen,shown,rfl⟩ := Option.map_eq_some_iff.mp stepped
      exact ⟨_,.second screen stage shown⟩
    | toMe =>
      obtain ⟨screen,shown,rfl⟩ := Option.map_eq_some_iff.mp stepped
      exact ⟨_,.finished screen stage shown⟩
  | failed part => simp [stage] at stepped
  | finished => simp [stage] at stepped

theorem step_cases {s t : Inbox} {a : Action} (stepped : s.step a = some t) :
    (∃ screen, a = .openChat screen ∧ t = {s with screens := s.screens ++ [screen]}) ∨
    (∃ index message now nudgeNow screen, a = .onSendMessage index message now nudgeNow ∧
      s.screens[index]? = some screen ∧ (blank message.content = true ∧ t = s ∨
        blank message.content = false ∧
          t = {s with sends := s.sends ++ [.started index screen message now nudgeNow]})) ∨
    ∃ i x now nudgeNow y, a = .resume i now nudgeNow ∧ s.sends[i]? = some x ∧
      Advanced s i x now nudgeNow y t := by
  cases a with
  | openChat screen => exact .inl ⟨screen,rfl,(Option.some.inj stepped).symm⟩
  | onSendMessage index message now nudgeNow =>
    obtain ⟨screen,shown,rfl⟩ := Option.map_eq_some_iff.mp stepped
    refine .inr (.inl ⟨index,message,now,nudgeNow,screen,rfl,shown,?_⟩)
    cases empty : blank message.content
    · exact .inr ⟨rfl,rfl⟩
    · exact .inl ⟨rfl,rfl⟩
  | resume i now nudgeNow =>
    obtain ⟨x,found,advanced⟩ := Option.bind_eq_some_iff.mp stepped
    obtain ⟨y,advanced⟩ := advance_cases advanced
    exact .inr (.inr ⟨i,x,now,nudgeNow,y,rfl,found,advanced⟩)

/-! Which documents a send has written. -/

theorem partOn_path (x : Send) {p : Path} (apart : p.1 ≠ p.2) (part : Part) :
    x.partOn p = some part ↔ x.path part = p := by
  unfold Send.partOn
  split
  next other =>
    cases part with
    | toOther => simp [other]
    | toMe =>
      subst other
      simp only [Send.path] at apart ⊢
      simp [Prod.ext_iff,apart.symm]
  next other =>
    split
    next me => cases part <;> simp [other,me]
    next me => cases part <;> simp [other,me]

theorem wrote_iff (x : Send) {p : Path} (apart : p.1 ≠ p.2) :
    x.wrote p = true ↔ ∃ part, x.path part = p ∧ x.stage.wrote part = true := by
  simp only [Send.wrote,Option.any_eq_true,partOn_path x apart]

theorem wrote_path (x : Send) (apart : x.sender ≠ x.peer) (part : Part) :
    x.wrote (x.path part) = x.stage.wrote part := by
  have different : (x.path part).1 ≠ (x.path part).2 := by
    cases part with
    | toOther => exact apart
    | toMe => exact apart.symm
  rw [Send.wrote,(partOn_path x different part).mpr rfl,Option.any_some]

theorem wrote_eq (x y : Send) (sender : y.sender = x.sender) (peer : y.peer = x.peer) {p : Path}
    (same : ∀ part, x.partOn p = some part → y.stage.wrote part = x.stage.wrote part) :
    y.wrote p = x.wrote p := by
  have part : y.partOn p = x.partOn p := by
    cases x
    cases y
    cases sender
    cases peer
    rfl
  rw [Send.wrote,Send.wrote,part]
  cases on : x.partOn p with
  | none => rfl
  | some part => exact same part on

theorem awaiting_wrote (part other : Part) :
    (Stage.setting part).wrote other = (Stage.getting part).wrote other ∧
      (Stage.updating part).wrote other = (Stage.getting part).wrote other ∧
      (Stage.failed part).wrote other = (Stage.getting part).wrote other := by
  cases part <;> cases other <;> exact ⟨rfl,rfl,rfl⟩

theorem landing_wrote {stage : Stage} {part : Part} (landing : stage.landing = some part) :
    stage.wrote part = false := by
  cases stage <;> simp_all [Stage.landing] <;> cases part <;> rfl

theorem committed_wrote {stage : Stage} {part other : Part} (landing : stage.landing = some part)
    (different : other ≠ part) : (Stage.committed part).wrote other = stage.wrote other := by
  cases stage <;> simp_all [Stage.landing] <;> cases part <;> cases other <;>
    first | rfl | contradiction

structure Moved (x y : Send) : Prop where
  screen : y.screen = x.screen
  sender : y.sender = x.sender
  peer : y.peer = x.peer
  message : y.message = x.message
  mapData : y.mapData = x.mapData

theorem Moved.between {x y : Send} (moved : Moved x y) (a b : String) :
    y.between a b = x.between a b := by
  simp only [Send.between,moved.sender,moved.peer]

theorem Moved.path {x y : Send} (moved : Moved x y) (part : Part) : y.path part = x.path part := by
  cases part <;> simp only [Send.path,moved.sender,moved.peer]

theorem advanced_moved {s t : Inbox} {i : Nat} {x y : Send} {now nudgeNow : Int}
    (advanced : Advanced s i x now nudgeNow y t) : Moved x y ∧ t.sends = s.sends.set i y := by
  cases advanced <;> exact ⟨⟨rfl,rfl,rfl,rfl,rfl⟩,rfl⟩

/-- One await seen from one document: either it does not change and the send has
written it no more than before, or a part of the send commits on it. -/
inductive Seen (s : Inbox) (x : Send) (p : Path) (y : Send) (t : Inbox) : Prop
  | away (docs : t.docs p = s.docs p) (wrote : y.wrote p = x.wrote p)
  | set (part) (on : x.path part = p) (awaited : x.stage = .setting part)
      (docs : t.docs p = some (x.map part)) (next : y = x.toStage (.committed part))
  | update (part doc) (on : x.path part = p) (awaited : x.stage = .updating part)
      (exist : s.docs p = some doc) (docs : t.docs p = some (doc.merge (x.map part)))
      (next : y = x.toStage (.committed part))

theorem advanced_seen {s t : Inbox} {i : Nat} {x y : Send} {now nudgeNow : Int}
    (advanced : Advanced s i x now nudgeNow y t) {p : Path} (apart : p.1 ≠ p.2) :
    Seen s x p y t := by
  have waits (stage : Stage) (same : ∀ part, stage.wrote part = x.stage.wrote part) :
      (x.toStage stage).wrote p = x.wrote p :=
    wrote_eq x (x.toStage stage) rfl rfl fun part _ => same part
  -- a commit on another document
  have elsewhere (part : Part) (landing : x.stage.landing = some part) (off : x.path part ≠ p) :
      (x.toStage (.committed part)).wrote p = x.wrote p := by
    apply wrote_eq x (x.toStage (.committed part)) rfl rfl
    intro other on
    apply committed_wrote landing
    rintro rfl
    exact off ((partOn_path x apart _).mp on)
  cases advanced with
  | missing part awaited _ => exact .away rfl (waits _ (by simp [awaited,awaiting_wrote]))
  | present part awaited _ => exact .away rfl (waits _ (by simp [awaited,awaiting_wrote]))
  | failed part awaited _ => exact .away rfl (waits _ (by simp [awaited,awaiting_wrote]))
  | set part awaited =>
    by_cases on : x.path part = p
    · exact .set part on awaited (by simp [on]) rfl
    · exact .away (Store.set_of_ne (Ne.symm on) _)
        (elsewhere part (by simp [awaited,Stage.landing]) on)
  | update part doc awaited exist =>
    by_cases on : x.path part = p
    · exact .update part doc on awaited (on ▸ exist) (by simp [on]) rfl
    · exact .away (Store.set_of_ne (Ne.symm on) _)
        (elsewhere part (by simp [awaited,Stage.landing]) on)
  | second screen awaited _ =>
    refine .away rfl (wrote_eq x (x.second screen now nudgeNow) rfl rfl fun part _ => ?_)
    rw [awaited]
    change (entry screen .toMe).wrote part = _
    unfold entry
    split <;> cases part <;> rfl
  | finished screen awaited _ =>
    refine .away rfl (waits _ fun part => ?_)
    rw [awaited]
    cases part <;> rfl

theorem advanced_docs {s t : Inbox} {i : Nat} {x y : Send} {now nudgeNow : Int}
    (advanced : Advanced s i x now nudgeNow y t) {p : Path} (exist : s.docs p ≠ none) :
    t.docs p ≠ none := by
  have kept (q : Path) (doc : RecentUser) : s.docs.set q doc p ≠ none := by
    by_cases same : p = q
    · simp [same]
    · rwa [Store.set_of_ne same]
  cases advanced with
  | set part _ => exact kept _ _
  | update part doc _ _ => exact kept _ _
  | missing | present | failed | second | finished => exact exist

def Inbox.Attached (s : Inbox) : Prop := ∀ x ∈ s.sends,
  ∃ screen, s.screens[x.screen]? = some screen ∧ screen.id = x.sender ∧ screen.peerId = x.peer

theorem attached_append {s : Inbox} (attached : s.Attached) (screen : Screen) :
    ({s with screens := s.screens ++ [screen]} : Inbox).Attached := by
  intro x member
  obtain ⟨shown,found,users⟩ := attached x member
  exact ⟨shown,Pool.mem_appended.mpr (.inl found),users⟩

theorem attached_matched {s : Inbox} (attached : s.Attached) {i : Nat} {screen : Screen}
    (shown : s.screens[i]? = some screen) :
    ({s with screens := s.screens.set i screen.matched} : Inbox).Attached := by
  intro x member
  obtain ⟨own,found,sender,peer⟩ := attached x member
  by_cases same : i = x.screen
  · subst same
    obtain rfl : screen = own := Option.some.inj (shown.symm.trans found)
    obtain ⟨bound,_⟩ := List.getElem?_eq_some_iff.mp found
    exact ⟨screen.matched,by simp [bound],by simpa using sender,by simpa using peer⟩
  · exact ⟨own,by simpa [same] using found,sender,peer⟩

theorem attached_put {s : Inbox} (attached : s.Attached) {i : Nat} {x y : Send}
    (found : s.sends[i]? = some x) (screen : y.screen = x.screen) (sender : y.sender = x.sender)
    (peer : y.peer = x.peer) : (s.put i y).Attached := by
  apply Pool.forall_set attached
  rw [screen,sender,peer]
  exact attached x (List.mem_of_getElem? found)

theorem attached_step {s t : Inbox} {a : Action} (attached : s.Attached)
    (stepped : s.step a = some t) : t.Attached := by
  rcases step_cases stepped with ⟨screen,_,rfl⟩ | ⟨index,_,_,_,screen,_,shown,sent⟩ |
    ⟨i,x,_,_,_,_,found,advanced⟩
  · exact attached_append attached screen
  · rcases sent with ⟨_,rfl⟩ | ⟨_,rfl⟩
    · exact attached
    · exact Pool.forall_append attached ⟨screen,shown,rfl,rfl⟩
  · cases advanced with
    | missing | present | failed | second => exact attached_put attached found rfl rfl rfl
    | set | update => exact attached_put attached found rfl rfl rfl
    | finished screen _ shown =>
      have put := attached_put attached found (rfl : (x.toStage .finished).screen = x.screen) rfl rfl
      exact attached_matched put shown

theorem entry_wrote (screen : Screen) (part : Part) :
    (entry screen .toOther).wrote part = false := by
  unfold entry
  split <;> cases part <;> rfl

theorem started_wrote (screen : Screen) (index : Nat) (message : Message) (now nudgeNow : Int)
    (p : Path) : (Send.started index screen message now nudgeNow).wrote p = false := by
  unfold Send.wrote
  cases Send.partOn _ p with
  | none => rfl
  | some part => exact entry_wrote screen part

theorem finished_wrote {x : Send} {a b : String} (apart : a ≠ b) (between : x.between a b = true)
    (finished : x.stage = .finished) : x.wrote (a,b) = true := by
  simp only [Send.between,Bool.or_eq_true,Bool.and_eq_true,decide_eq_true_eq] at between
  apply (wrote_iff x apart).mpr
  rcases between with ⟨rfl,rfl⟩ | ⟨rfl,rfl⟩
  · exact ⟨.toOther,rfl,by rw [finished]; rfl⟩
  · exact ⟨.toMe,rfl,by rw [finished]; rfl⟩

theorem between_comm (x : Send) (a b : String) : x.between a b = x.between b a := by
  simp only [Send.between,Bool.or_comm]

def Inbox.Quiet (s : Inbox) (a b : String) : Prop :=
  ∀ x ∈ s.sends, x.between a b = true → x.stage.ended = true

end Neuro.RecentUsers
