import Neuro.RequestCall

/-! Controllers that each post what their own `sendData` holds when a call encodes it, at once or
when the length of a file has come. Requests are of several kinds, and of each kind one is posted
last. -/
namespace Neuro.LateRequests
open Neuro.Lib

inductive Stage (B : Type)
  | connecting
  | loadingPrefs
  | measuring (body : B)
  | posted
  | finished
  deriving DecidableEq, Repr

/-- A controller; `sendData` is empty until the first call. -/
structure Sender (B : Type) where
  sendData : Option B := none
  calls : List (Stage B) := []
  deriving DecidableEq, Repr

/-- All controllers there have been. `asked` is a history of what the calls were made with. -/
structure Senders (B : Type) where
  each : List (Sender B) := []
  asked : List B := []
  sent : List B := []
  deriving DecidableEq, Repr

inductive Resume
  | connected (value : Bool)
  | prefsLoaded
  | measured (value : Bool)
  | responded
  deriving DecidableEq, Repr

section Steps
variable {B : Type}

def Stage.unencoded : Stage B → Bool
  | .connecting | .loadingPrefs => true
  | .measuring _ | .posted | .finished => false

def Stage.body : Stage B → Option B
  | .measuring b => some b
  | .connecting | .loadingPrefs | .posted | .finished => none

/-- What the controller is still to post. -/
def Sender.held (sender : Sender B) : List B :=
  (if sender.calls.any Stage.unencoded then sender.sendData.toList else []) ++
    sender.calls.filterMap Stage.body

namespace Senders
variable (s : Senders B)

def opened : Senders B := {s with each := s.each ++ [{}]}

def call (k : Nat) (b : B) : Option (Senders B) := s.each[k]?.map fun sender => {s with
  each := s.each.set k {sendData := some b, calls := sender.calls ++ [.connecting]}
  asked := s.asked ++ [b]}

def put (k : Nat) (sender : Sender B) (i : Nat) (stage : Stage B) : Senders B :=
  {s with each := s.each.set k {sender with calls := sender.calls.set i stage}}

def post (k : Nat) (sender : Sender B) (i : Nat) (b : B) : Senders B :=
  {s.put k sender i .posted with sent := s.sent ++ [b]}

/-- A request with a file awaits the length of the file after it has been encoded. -/
def resume (measures : Bool) (k i : Nat) (r : Resume) : Option (Senders B) :=
  s.each[k]?.bind fun sender => sender.calls[i]?.bind fun stage => match r,stage with
    | .connected value,.connecting =>
      some (s.put k sender i (if value then .loadingPrefs else .finished))
    | .prefsLoaded,.loadingPrefs => sender.sendData.map fun b =>
      if measures then s.put k sender i (.measuring b) else s.post k sender i b
    | .measured value,.measuring b =>
      some (if value then s.post k sender i b else s.put k sender i .finished)
    | .responded,.posted => some (s.put k sender i .finished)
    | _,_ => none

def Quiet : Prop := ∀ sender ∈ s.each, sender.held = []

instance [DecidableEq B] : Decidable s.Quiet := inferInstanceAs (Decidable (∀ _ ∈ _, _ = _))

end Senders

variable {s t : Senders B} {k i : Nat} {measures : Bool} {r : Resume}

/-- What a resumed call does: it goes on, holding what it has held, or posts it, or ends. -/
inductive Resumed (measures : Bool) (s : Senders B) (k i : Nat) (sender : Sender B)
    (before : Stage B) : Resume → Senders B → Prop
  | connected : before = .connecting →
    Resumed measures s k i sender before (.connected true) (s.put k sender i .loadingPrefs)
  | offline : before = .connecting →
    Resumed measures s k i sender before (.connected false) (s.put k sender i .finished)
  | encoded (b : B) : measures = true → before = .loadingPrefs → sender.sendData = some b →
    Resumed measures s k i sender before .prefsLoaded (s.put k sender i (.measuring b))
  | posted (b : B) : before = .loadingPrefs → sender.sendData = some b →
    Resumed measures s k i sender before .prefsLoaded (s.post k sender i b)
  | measured (b : B) : before = .measuring b →
    Resumed measures s k i sender before (.measured true) (s.post k sender i b)
  | unreadable (b : B) : before = .measuring b →
    Resumed measures s k i sender before (.measured false) (s.put k sender i .finished)
  | responded : before = .posted →
    Resumed measures s k i sender before .responded (s.put k sender i .finished)

theorem resume_cases (resumed : s.resume measures k i r = some t) :
    ∃ sender before, s.each[k]? = some sender ∧ sender.calls[i]? = some before ∧
      Resumed measures s k i sender before r t := by
  obtain ⟨sender,found,resumed⟩ := Option.bind_eq_some_iff.mp resumed
  obtain ⟨before,awaited,taken⟩ := Option.bind_eq_some_iff.mp resumed
  refine ⟨sender,before,found,awaited,?_⟩
  cases r with
  | connected value =>
    cases before with
    | connecting =>
      rw [← Option.some.inj taken]
      cases value with
      | true => exact .connected rfl
      | false => exact .offline rfl
    | loadingPrefs | measuring | posted | finished => contradiction
  | prefsLoaded =>
    cases before with
    | loadingPrefs =>
      obtain ⟨b,data,rfl⟩ := Option.map_eq_some_iff.mp taken
      cases measures with
      | true => exact .encoded b rfl rfl data
      | false => exact .posted b rfl data
    | connecting | measuring | posted | finished => contradiction
  | measured value =>
    cases before with
    | measuring b =>
      rw [← Option.some.inj taken]
      cases value with
      | true => exact .measured b rfl
      | false => exact .unreadable b rfl
    | connecting | loadingPrefs | posted | finished => contradiction
  | responded =>
    cases before with
    | posted => exact Option.some.inj taken ▸ .responded rfl
    | connecting | loadingPrefs | measuring | finished => contradiction

end Steps

section Held
variable {B : Type} {s : Senders B} {k i : Nat} {sender : Sender B} {before after : Stage B} {d : B}

theorem mem_held : d ∈ sender.held ↔
    (∃ call ∈ sender.calls, call.unencoded = true) ∧ sender.sendData = some d ∨
      .measuring d ∈ sender.calls := by
  have bodies : d ∈ sender.calls.filterMap Stage.body ↔ .measuring d ∈ sender.calls := by
    rw [List.mem_filterMap]
    constructor
    · rintro ⟨call,member,body⟩
      cases call with
      | measuring b => exact Option.some.inj body ▸ member
      | connecting | loadingPrefs | posted | finished => contradiction
    · exact fun member => ⟨_,member,rfl⟩
  rw [Sender.held,List.mem_append,bodies,← List.any_eq_true]
  split <;> simp_all

theorem mem_set_cases {next c : Sender B} (found : s.each[k]? = some sender) :
    c ∈ s.each.set k next ↔ c = next ∨ c ∈ s.each.eraseIdx k := by
  obtain ⟨bound,_⟩ := List.getElem?_eq_some_iff.mp found
  exact (List.set_perm_cons_eraseIdx bound next).mem_iff.trans List.mem_cons

theorem held_of_set (held : d ∈ ({sender with calls := sender.calls.set i after} : Sender B).held) :
    d ∈ sender.held ∨ after.unencoded = true ∧ sender.sendData = some d ∨
      after = .measuring d := by
  rw [mem_held] at held ⊢
  rcases held with ⟨⟨call,member,late⟩,data⟩ | body
  · rcases List.mem_or_eq_of_mem_set member with old | rfl
    · exact .inl (.inl ⟨⟨call,old,late⟩,data⟩)
    · exact .inr (.inl ⟨late,data⟩)
  · rcases List.mem_or_eq_of_mem_set body with old | new
    · exact .inl (.inr old)
    · exact .inr (.inr new.symm)

variable (awaited : sender.calls[i]? = some before)
include awaited

theorem held_set (after : Stage B) (held : d ∈ sender.held) :
    d ∈ ({sender with calls := sender.calls.set i after} : Sender B).held ∨
      before.unencoded = true ∧ sender.sendData = some d ∨ before = .measuring d := by
  rw [mem_held] at held ⊢
  rcases held with ⟨⟨call,member,late⟩,data⟩ | body
  · rcases Pool.mem_set_of_mem awaited after member with rfl | still
    · exact .inr (.inl ⟨late,data⟩)
    · exact .inl (.inl ⟨⟨call,still,late⟩,data⟩)
  · rcases Pool.mem_set_of_mem awaited after body with same | still
    · exact .inr (.inr same.symm)
    · exact .inl (.inr still)

/-- The call itself is one that is still to encode what its controller has. -/
theorem held_unencoded (late : before.unencoded = true) (data : sender.sendData = some d) :
    d ∈ sender.held :=
  mem_held.mpr (.inl ⟨⟨before,List.mem_of_getElem? awaited,late⟩,data⟩)

theorem held_awaited (body : before = .measuring d) : d ∈ sender.held :=
  mem_held.mpr (.inr (body ▸ List.mem_of_getElem? awaited))

theorem mem_after : after ∈ sender.calls.set i after := by
  obtain ⟨bound,_⟩ := List.getElem?_eq_some_iff.mp awaited
  exact List.mem_set bound after

/-- A call that holds after its step what it held before leaves what the controller is to post. -/
theorem held_set_iff (after : Stage B) (same : after.unencoded = true ∧ sender.sendData = some d ∨
      after = .measuring d ↔ before.unencoded = true ∧ sender.sendData = some d ∨
        before = .measuring d) :
    d ∈ ({sender with calls := sender.calls.set i after} : Sender B).held ↔ d ∈ sender.held := by
  constructor
  · intro held
    rcases held_of_set held with old | own
    · exact old
    · rcases same.mp own with ⟨late,data⟩ | body
      · exact held_unencoded awaited late data
      · exact held_awaited awaited body
  · intro held
    rcases held_set awaited after held with still | own
    · exact still
    · rcases same.mpr own with ⟨late,data⟩ | body
      · exact mem_held.mpr (.inl ⟨⟨after,mem_after awaited,late⟩,data⟩)
      · exact mem_held.mpr (.inr (body ▸ mem_after awaited))

end Held

/-- What is posted or still to be posted has been asked for. -/
structure Asked {B : Type} (s : Senders B) : Prop where
  sent : ∀ b ∈ s.sent, b ∈ s.asked
  data : ∀ sender ∈ s.each, ∀ b ∈ sender.sendData, b ∈ s.asked
  held : ∀ sender ∈ s.each, ∀ b ∈ sender.held, b ∈ s.asked

section Asked
variable {B : Type} {s t : Senders B} {k i : Nat} {b : B} {measures : Bool} {r : Resume}
  {sender : Sender B} {before after : Stage B}

theorem asked_opened (asked : Asked s) : Asked s.opened :=
  ⟨asked.sent,Pool.forall_append asked.data (by simp),
    Pool.forall_append asked.held (by simp [Sender.held])⟩

theorem asked_call (asked : Asked s) (called : s.call k b = some t) : Asked t := by
  obtain ⟨sender,found,rfl⟩ := Option.map_eq_some_iff.mp called
  have new : b ∈ s.asked ++ [b] := List.mem_append_right _ (List.mem_singleton_self b)
  refine ⟨fun c member => List.mem_append_left _ (asked.sent c member),Pool.forall_set ?_ ?_,
    Pool.forall_set ?_ ?_⟩
  · exact fun c member d data => List.mem_append_left _ (asked.data c member d data)
  · exact fun d data => Option.some.inj data ▸ new
  · exact fun c member d held => List.mem_append_left _ (asked.held c member d held)
  · intro d held
    rcases mem_held.mp held with ⟨_,data⟩ | body
    · exact Option.some.inj data ▸ new
    · have old : .measuring d ∈ sender.calls := by simpa using body
      exact List.mem_append_left _ (asked.held sender (List.mem_of_getElem? found) d
        (mem_held.mpr (.inr old)))

theorem asked_put (asked : Asked s) (found : s.each[k]? = some sender)
    (body : ∀ d, after = .measuring d → sender.sendData = some d) :
    Asked (s.put k sender i after) := by
  have member := List.mem_of_getElem? found
  refine ⟨asked.sent,Pool.forall_set asked.data (asked.data sender member),
    Pool.forall_set asked.held fun d held => ?_⟩
  rcases held_of_set held with old | ⟨_,data⟩ | measures
  · exact asked.held sender member d old
  · exact asked.data sender member d data
  · exact asked.data sender member d (body d measures)

theorem asked_post (asked : Asked s) (found : s.each[k]? = some sender)
    (held : b ∈ sender.held) : Asked (s.post k sender i b) := by
  have put : Asked (s.put k sender i .posted) := asked_put asked found nofun
  refine ⟨fun c member => ?_,put.data,put.held⟩
  rcases List.mem_append.mp member with old | new
  · exact asked.sent c old
  · exact List.mem_singleton.mp new ▸ asked.held sender (List.mem_of_getElem? found) b held

theorem asked_resume (asked : Asked s) (resumed : s.resume measures k i r = some t) :
    Asked t := by
  obtain ⟨sender,before,found,awaited,done⟩ := resume_cases resumed
  cases done with
  | connected | offline | unreadable | responded => exact asked_put asked found nofun
  | encoded b _ _ data =>
    refine asked_put asked found fun d same => ?_
    rwa [← Stage.measuring.inj same]
  | posted b waits data =>
    exact asked_post asked found (held_unencoded awaited (waits ▸ rfl) data)
  | measured b waits => exact asked_post asked found (held_awaited awaited waits)

theorem asked_eq_of_resume (resumed : s.resume measures k i r = some t) : t.asked = s.asked := by
  obtain ⟨_,_,_,_,done⟩ := resume_cases resumed
  cases done <;> rfl

theorem sendData_of_resume (resumed : s.resume measures k i r = some t) :
    t.each.map Sender.sendData = s.each.map Sender.sendData := by
  obtain ⟨sender,_,found,_,done⟩ := resume_cases resumed
  have kept (stage : Stage B) : (s.put k sender i stage).each.map Sender.sendData =
      s.each.map Sender.sendData := Pool.map_set Sender.sendData found rfl
  cases done <;> exact kept _

theorem asked_eq_of_call (called : s.call k b = some t) : t.asked = s.asked ++ [b] := by
  obtain ⟨sender,_,rfl⟩ := Option.map_eq_some_iff.mp called
  rfl

end Asked

/-- No call awaits the length of a file. -/
def Plain {B : Type} (s : Senders B) : Prop :=
  ∀ sender ∈ s.each, ∀ call ∈ sender.calls, call.body = none

section Plain
variable {B : Type} {s t : Senders B} {k i : Nat} {b : B} {r : Resume}

theorem plain_opened (plain : Plain s) : Plain s.opened := Pool.forall_append plain (by simp)

theorem plain_call (plain : Plain s) (called : s.call k b = some t) : Plain t := by
  obtain ⟨sender,found,rfl⟩ := Option.map_eq_some_iff.mp called
  exact Pool.forall_set plain
    (Pool.forall_append (plain sender (List.mem_of_getElem? found)) rfl)

theorem plain_resume (plain : Plain s) (resumed : s.resume false k i r = some t) :
    Plain t ∧ r ≠ .measured false := by
  obtain ⟨sender,before,found,awaited,done⟩ := resume_cases resumed
  have own := plain sender (List.mem_of_getElem? found)
  have put {stage : Stage B} (bare : stage.body = none) : Plain (s.put k sender i stage) :=
    Pool.forall_set plain (Pool.forall_set own bare)
  cases done with
  | connected | offline | posted | responded => exact ⟨put rfl,nofun⟩
  | encoded => contradiction
  | measured b waits | unreadable b waits =>
    have bare := own before (List.mem_of_getElem? awaited)
    rw [waits] at bare
    contradiction

end Plain

section Kinds
variable {B K : Type} [DecidableEq K] (kind : B → K) (of : K)

def latestOf (l : List B) : Option B := (l.filter fun b => kind b = of).getLast?

/-- Until all requests of the kind have been posted, those that have not are the latest. -/
structure Late (s : Senders B) : Prop where
  held : ∀ sender ∈ s.each, ∀ b ∈ sender.held, kind b = of → latestOf kind of s.asked = some b
  settled : (∃ sender ∈ s.each, ∃ b ∈ sender.held, kind b = of) ∨
    latestOf kind of s.sent = latestOf kind of s.asked

/-- No other controller has still to post a request of this kind; this one has none of another
kind still to encode, and none of this kind already encoded. -/
def Alone (s : Senders B) (k : Nat) (b : B) : Prop :=
  (∀ other ∈ s.each.eraseIdx k, ∀ d ∈ other.held, kind d ≠ kind b) ∧
    ∀ sender ∈ s.each[k]?, (∀ d, .measuring d ∈ sender.calls → kind d ≠ kind b) ∧
      ∀ d ∈ sender.held, sender.sendData = some d → kind d = kind b

variable {kind of} {s t : Senders B} {k i : Nat} {b : B} {sender : Sender B}
  {before after : Stage B}

theorem latestOf_append_self {l : List B} (own : kind b = of) :
    latestOf kind of (l ++ [b]) = some b := by
  simp [latestOf,List.filter_append,own]

theorem latestOf_append_other {l : List B} (other : kind b ≠ of) :
    latestOf kind of (l ++ [b]) = latestOf kind of l := by
  simp [latestOf,List.filter_append,other]

theorem late_opened (late : Late kind of s) : Late kind of s.opened := by
  refine ⟨Pool.forall_append late.held (by simp [Sender.held]),late.settled.imp_left ?_⟩
  rintro ⟨sender,member,holds⟩
  exact ⟨sender,List.mem_append_left _ member,holds⟩

theorem held_called {d : B} :
    d ∈ (⟨some b,sender.calls ++ [.connecting]⟩ : Sender B).held ↔
      d = b ∨ .measuring d ∈ sender.calls := by
  rw [mem_held]
  have late : ∃ call ∈ sender.calls ++ [.connecting], Stage.unencoded call = true :=
    ⟨.connecting,by simp,rfl⟩
  constructor
  · rintro (⟨_,data⟩ | body)
    · exact .inl (Option.some.inj data).symm
    · exact .inr (by simpa using body)
  · rintro (rfl | body)
    · exact .inl ⟨late,rfl⟩
    · exact .inr (List.mem_append_left _ body)

theorem late_call (late : Late kind of s) (alone : Alone kind s k b)
    (called : s.call k b = some t) : Late kind of t := by
  obtain ⟨sender,found,rfl⟩ := Option.map_eq_some_iff.mp called
  obtain ⟨others,own⟩ := alone
  obtain ⟨unencoded,same⟩ := own sender found
  by_cases kinds : kind b = of
  · subst kinds
    refine ⟨fun c member d held equal => ?_,.inl ?_⟩
    · rw [latestOf_append_self rfl]
      rcases (mem_set_cases found).mp member with rfl | other
      · rcases held_called.mp held with rfl | body
        · rfl
        · exact absurd equal (unencoded d body)
      · exact absurd equal (others c other d held)
    · exact ⟨_,(mem_set_cases found).mpr (.inl rfl),b,held_called.mpr (.inl rfl),rfl⟩
  · refine ⟨fun c member d held equal => ?_,?_⟩
    · rw [latestOf_append_other kinds]
      rcases (mem_set_cases found).mp member with rfl | other
      · rcases held_called.mp held with rfl | body
        · exact absurd equal kinds
        · exact late.held sender (List.mem_of_getElem? found) d (mem_held.mpr (.inr body)) equal
      · exact late.held c (List.mem_of_mem_eraseIdx other) d held equal
    · rw [latestOf_append_other kinds]
      refine late.settled.imp_left ?_
      rintro ⟨c,member,d,held,equal⟩
      rcases (Pool.mem_resumed found).mp member with rfl | other
      · -- what this controller has still to encode is of the kind of `b`
        have body : .measuring d ∈ c.calls := (mem_held.mp held).resolve_left fun data =>
          kinds ((same d held data.2).symm.trans equal)
        exact ⟨_,(mem_set_cases found).mpr (.inl rfl),d,held_called.mpr (.inr body),equal⟩
      · exact ⟨c,(mem_set_cases found).mpr (.inr other),d,held,equal⟩

theorem late_put (late : Late kind of s) (found : s.each[k]? = some sender)
    (same : ∀ d, d ∈ ({sender with calls := sender.calls.set i after} : Sender B).held ↔
      d ∈ sender.held) : Late kind of (s.put k sender i after) := by
  refine ⟨fun c member d held equal => ?_,late.settled.imp_left ?_⟩
  · rcases (mem_set_cases found).mp member with rfl | other
    · exact late.held sender (List.mem_of_getElem? found) d ((same d).mp held) equal
    · exact late.held c (List.mem_of_mem_eraseIdx other) d held equal
  · rintro ⟨c,member,d,held,equal⟩
    rcases (Pool.mem_resumed found).mp member with rfl | other
    · exact ⟨_,(mem_set_cases found).mpr (.inl rfl),d,(same d).mpr held,equal⟩
    · exact ⟨c,(mem_set_cases found).mpr (.inr other),d,held,equal⟩

theorem late_post (late : Late kind of s) (found : s.each[k]? = some sender)
    (awaited : sender.calls[i]? = some before) (held : b ∈ sender.held)
    (only : ∀ d, before.unencoded = true ∧ sender.sendData = some d ∨ before = .measuring d →
      d = b) : Late kind of (s.post k sender i b) := by
  refine ⟨fun c member d holds equal => ?_,?_⟩
  · rcases (mem_set_cases found).mp member with rfl | other
    · rcases held_of_set holds with old | ⟨late,_⟩ | body
      · exact late.held sender (List.mem_of_getElem? found) d old equal
      · contradiction
      · contradiction
    · exact late.held c (List.mem_of_mem_eraseIdx other) d holds equal
  · by_cases kinds : kind b = of
    · have latest := late.held sender (List.mem_of_getElem? found) b held kinds
      exact .inr ((latestOf_append_self kinds).trans latest.symm)
    · have unchanged : latestOf kind of (s.sent ++ [b]) = latestOf kind of s.sent :=
        latestOf_append_other kinds
      rw [Senders.post,unchanged]
      refine late.settled.imp_left ?_
      rintro ⟨c,member,d,holds,equal⟩
      rcases (Pool.mem_resumed found).mp member with rfl | other
      · have still := (held_set awaited .posted holds).resolve_right fun own =>
          kinds (only d own ▸ equal)
        exact ⟨_,(mem_set_cases found).mpr (.inl rfl),d,still,equal⟩
      · exact ⟨c,(mem_set_cases found).mpr (.inr other),d,holds,equal⟩

theorem late_resume {measures : Bool} {r : Resume} (late : Late kind of s)
    (online : r ≠ .connected false) (readable : r ≠ .measured false)
    (resumed : s.resume measures k i r = some t) : Late kind of t := by
  obtain ⟨sender,before,found,awaited,done⟩ := resume_cases resumed
  cases done with
  | connected waits =>
    refine late_put late found fun d => held_set_iff awaited _ ?_
    simp [waits,Stage.unencoded]
  | offline => exact absurd rfl online
  | encoded b _ waits data =>
    refine late_put late found fun d => held_set_iff awaited _ ?_
    simp [waits,data,Stage.unencoded]
  | posted b waits data =>
    refine late_post late found awaited (held_unencoded awaited (waits ▸ rfl) data) ?_
    rintro d (⟨_,own⟩ | body)
    · exact Option.some.inj (own.symm.trans data)
    · exact absurd (waits.symm.trans body) nofun
  | measured b waits =>
    refine late_post late found awaited (held_awaited awaited waits) ?_
    rintro d (⟨unencoded,_⟩ | body)
    · simp [waits,Stage.unencoded] at unencoded
    · exact (Stage.measuring.inj (waits.symm.trans body)).symm
  | unreadable => exact absurd rfl readable
  | responded waits =>
    refine late_put late found fun d => held_set_iff awaited _ ?_
    simp [waits,Stage.unencoded]

/-- When nothing is still to be posted, what has been posted last was asked for last. -/
theorem latest_of_quiet (late : Late kind of s) (quiet : s.Quiet) :
    latestOf kind of s.sent = latestOf kind of s.asked := by
  refine late.settled.resolve_left ?_
  rintro ⟨sender,member,b,held,_⟩
  rw [quiet sender member] at held
  exact absurd held List.not_mem_nil

end Kinds

end Neuro.LateRequests
