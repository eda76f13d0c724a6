import Neuro.GroupDecision
import Neuro.Lib.Run
import Neuro.RequestCall
import Neuro.RequestRows

/-! The decisions on neuro requests. Both buttons of every row write into the one `sendData` of
the controller, which each call encodes after two awaits. -/
namespace Neuro.NeuroDecisions
open Neuro.Lib RequestCall
open GroupDecision (NeuroRequest Body NeuroRequest.toMap)

/-- An object of `list_data`, told from equal ones by `ref`. -/
structure Row where
  ref : Nat
  data : RequestRows.NeuroRequest
  deriving DecidableEq, Repr

def Row.decision (row : Row) (type : String) : NeuroRequest := ⟨row.data.userId,type⟩

structure Call where
  removeIndex : Row
  phase : Phase := .connecting
  deriving DecidableEq, Repr

structure Completion where
  row : Row
  before : List Row
  after : List Row
  deriving DecidableEq, Repr

/-- `taps` are the accept taps that await the preferences. `rows`, the rows shown so far,
`tapped` and `completions` are histories; a row can be tapped after it has left the list. -/
structure NeuroRequestController where
  listData : List Row := []
  sendData : NeuroRequest := ⟨"",""⟩
  loader : Loader := {}
  loads : Nat := 1
  taps : List Row := []
  calls : List Call := []
  requests : List Body := []
  rows : List Row := []
  tapped : List Body := []
  completions : List Completion := []
  deriving DecidableEq, Repr

inductive Action
  | accept (row : Nat)
  | reject (row : Nat)
  /-- The preferences of an accept tap, with the own image they hold. -/
  | prefsOpened (tap : Nat) (image : Option String)
  | connected (call : Nat) (value : Bool)
  | prefsLoaded (call : Nat)
  | responded (call : Nat)
  | failed (call : Nat)
  | hidden
  | pullRefresh
  | loaded (value : Option (List RequestRows.NeuroRequest))
  deriving DecidableEq, Repr

namespace NeuroRequestController
variable (asserts : Bool) (s : NeuroRequestController)

def phases : List Phase := s.calls.map Call.phase

def put (i : Nat) (call : Call) (phase : Phase) : NeuroRequestController :=
  {s with calls := s.calls.set i {call with phase := phase}}

def acceptReject (removeIndex : Row) : NeuroRequestController :=
  match s.loader.insert asserts with
  | none => s
  | some loader => {s with loader := loader, calls := s.calls ++ [⟨removeIndex,.connecting⟩]}

def decide (row : Row) (type : String) : NeuroRequestController :=
  {s with sendData := row.decision type}.acceptReject asserts row

def accepted (tap : Nat) (image : Option String) (row : Row) : NeuroRequestController :=
  let opened := {s with taps := s.taps.eraseIdx tap}
  match image with
  | none => {opened with sendData := row.decision "1"}
  | some _ => opened.decide asserts row "1"

def removed (call : Call) (loader : Loader) : NeuroRequestController :=
  {s with loader := loader, listData := s.listData.erase call.removeIndex}

/-- `loader.remove()` throws when the entry is in no overlay, before the row is removed. -/
def succeeded (call : Call) : NeuroRequestController :=
  let next := (s.loader.remove).elim s (s.removed call)
  {next with completions := s.completions ++ [⟨call.removeIndex,s.listData,next.listData⟩]}

def completed : NeuroRequestController := {s with loader := s.loader.hideLoader}

def offline : NeuroRequestController := {s with loader := s.loader.remove.getD s.loader}

def created (value : List RequestRows.NeuroRequest) : List Row :=
  (value.zipIdx s.rows.length).map fun (data,ref) => ⟨ref,data⟩

def loaded : Option (List RequestRows.NeuroRequest) → NeuroRequestController
  | none => {s with loads := s.loads - 1}
  | some value => {s with
    listData := s.created value
    rows := s.rows ++ s.created value
    loads := s.loads - 1}

def step (s : NeuroRequestController) : Action → Option NeuroRequestController
  | .accept row => s.rows[row]?.map fun row =>
    {s with taps := s.taps ++ [row], tapped := s.tapped ++ [(row.decision "1").toMap]}
  | .reject row => s.rows[row]?.map fun row =>
    {s with tapped := s.tapped ++ [(row.decision "2").toMap]}.decide asserts row "2"
  | .prefsOpened tap image => s.taps[tap]?.map fun row => s.accepted asserts tap image row
  | .connected i value => resumed s.calls Call.phase i .connecting fun call =>
    if value then s.put i call .loadingPrefs else (s.put i call .finished).offline
  | .prefsLoaded i => resumed s.calls Call.phase i .loadingPrefs fun call =>
    {s.put i call .posted with requests := s.requests ++ [s.sendData.toMap]}
  | .responded i => resumed s.calls Call.phase i .posted fun call =>
    ((s.put i call .finished).succeeded call).completed
  | .failed i => resumed s.calls Call.phase i .posted fun call => (s.put i call .finished).completed
  | .hidden => s.loader.hidden.map fun loader => {s with loader := loader}
  | .pullRefresh => some {s with listData := [], loads := s.loads + 1}
  | .loaded value => if s.loads = 0 then none else some (s.loaded value)

def Settled : Prop := s.taps = [] ∧ ∀ call ∈ s.calls, call.phase.unencoded = false

instance : Decidable s.Settled := inferInstanceAs (Decidable (_ ∧ ∀ _ ∈ _, _))

end NeuroRequestController

def Completion.Own (c : Completion) : Prop := c.after = c.before ∨
  ∃ i < c.before.length, c.before[i]? = some c.row ∧ c.after = c.before.eraseIdx i

structure Faithful (s : NeuroRequestController) : Prop where
  sent : s.Settled → (↑s.requests : Multiset Body) = ↑s.tapped
  own : ∀ c ∈ s.completions, c.Own

/-- The contents a tap writes do not change what a call has still to encode, and its call is
made. -/
structure Free (asserts : Bool) (s : NeuroRequestController) (next : NeuroRequest) : Prop where
  encoded : unencoded s.phases = 0 ∨ next.toMap = s.sendData.toMap
  inserts : s.loader.insert asserts ≠ none

def Careful (asserts : Bool) (s : NeuroRequestController) : Action → Prop
  | .reject index => ∀ row ∈ s.rows[index]?, Free asserts s (Row.decision row "2")
  | .prefsOpened tap image => image ≠ none ∧
    ∀ row ∈ s.taps[tap]?, Free asserts s (Row.decision row "1")
  | .connected _ value => value = true
  | .accept _ | .prefsLoaded _ | .responded _ | .failed _ | .hidden | .pullRefresh | .loaded _ =>
    True

def Online (_ : NeuroRequestController) : Action → Prop
  | .connected _ value => value = true
  | .prefsOpened _ image => image ≠ none
  | .accept _ | .reject _ | .prefsLoaded _ | .responded _ | .failed _ | .hidden | .pullRefresh
  | .loaded _ => True

instance (asserts : Bool) (s : NeuroRequestController) (next : NeuroRequest) :
    Decidable (Free asserts s next) :=
  decidable_of_iff ((unencoded s.phases = 0 ∨ next.toMap = s.sendData.toMap) ∧
    s.loader.insert asserts ≠ none)
    ⟨fun ⟨encoded,inserts⟩ => ⟨encoded,inserts⟩,fun ⟨encoded,inserts⟩ => ⟨encoded,inserts⟩⟩

instance (asserts : Bool) : ∀ s a, Decidable (Careful asserts s a)
  | _, .reject _ => inferInstanceAs (Decidable (∀ _ ∈ _, _))
  | _, .prefsOpened .. => inferInstanceAs (Decidable (_ ∧ ∀ _ ∈ _, _))
  | _, .connected .. => inferInstanceAs (Decidable (_ = _))
  | _, .accept _ | _, .prefsLoaded _ | _, .responded _ | _, .failed _ | _, .hidden
  | _, .pullRefresh | _, .loaded _ => inferInstanceAs (Decidable True)

instance : ∀ s a, Decidable (Online s a)
  | _, .connected .. => inferInstanceAs (Decidable (_ = _))
  | _, .prefsOpened .. => inferInstanceAs (Decidable (_ ≠ _))
  | _, .accept _ | _, .reject _ | _, .prefsLoaded _ | _, .responded _ | _, .failed _ | _, .hidden
  | _, .pullRefresh | _, .loaded _ => inferInstanceAs (Decidable True)

/-- The requests sent and, for every call that has still to encode it, a copy of `sendData`. -/
def sending (s : NeuroRequestController) : Multiset Body :=
  ↑s.requests + Multiset.replicate (unencoded s.phases) s.sendData.toMap

def awaiting (taps : List Row) : Multiset Body :=
  ↑(taps.map fun row => (row.decision "1").toMap)

def Accounted (s : NeuroRequestController) : Prop := sending s + awaiting s.taps = ↑s.tapped

section Step
variable {asserts : Bool} {s t : NeuroRequestController} {a : Action}

theorem phases_put (i : Nat) (call : Call) (phase : Phase) :
    (s.put i call phase).phases = s.phases.set i phase := by
  simp only [NeuroRequestController.phases,NeuroRequestController.put,List.map_set]

theorem phases_found {i : Nat} {call : Call} (found : s.calls[i]? = some call) :
    s.phases[i]? = some call.phase := by
  simp [NeuroRequestController.phases,found]

theorem decide_kept (asserts : Bool) (s : NeuroRequestController) (row : Row) (type : String) :
    (s.decide asserts row type).taps = s.taps ∧ (s.decide asserts row type).tapped = s.tapped ∧
      (s.decide asserts row type).completions = s.completions := by
  unfold NeuroRequestController.decide NeuroRequestController.acceptReject
  split <;> exact ⟨rfl,rfl,rfl⟩

theorem sending_decide {row : Row} {type : String} (free : Free asserts s (row.decision type)) :
    sending (s.decide asserts row type) = sending s + {(row.decision type).toMap} := by
  have inserts := free.inserts
  unfold Loader.insert at inserts
  split at inserts
  · contradiction
  next keeps =>
    simp only [sending,NeuroRequestController.phases,NeuroRequestController.decide,
      NeuroRequestController.acceptReject,Loader.insert,if_neg keeps,List.map_append,List.map_cons,
      List.map_nil]
    exact shared_called rfl free.encoded

theorem sending_put {i : Nat} {call : Call} (found : s.calls[i]? = some call) (phase : Phase)
    (same : phase.unencoded = call.phase.unencoded) : sending (s.put i call phase) = sending s := by
  rw [sending,phases_put]
  exact shared_set rfl (phases_found found) same

theorem accounted_step (held : Accounted s) (careful : Careful asserts s a)
    (stepped : s.step asserts a = some t) : Accounted t := by
  unfold Accounted at held
  cases a with
  | accept index =>
    obtain ⟨row,_,rfl⟩ := Option.map_eq_some_iff.mp stepped
    simp only [Accounted,awaiting,List.map_append,← Multiset.coe_add,← held]
    exact (add_assoc _ _ _).symm
  | reject index =>
    obtain ⟨row,found,rfl⟩ := Option.map_eq_some_iff.mp stepped
    let before := {s with tapped := s.tapped ++ [(row.decision "2").toMap]}
    have free : Free asserts before (row.decision "2") :=
      ⟨(careful row found).encoded,(careful row found).inserts⟩
    obtain ⟨taps,tapped,_⟩ := decide_kept asserts before row "2"
    rw [Accounted,sending_decide free,taps,tapped,← Multiset.coe_add,← held,Multiset.coe_singleton]
    exact add_right_comm _ _ _
  | prefsOpened tap image =>
    obtain ⟨row,found,rfl⟩ := Option.map_eq_some_iff.mp stepped
    obtain ⟨image,rfl⟩ := Option.ne_none_iff_exists'.mp careful.1
    let before := {s with taps := s.taps.eraseIdx tap}
    have free : Free asserts before (row.decision "1") :=
      ⟨(careful.2 row found).encoded,(careful.2 row found).inserts⟩
    obtain ⟨taps,tapped,_⟩ := decide_kept asserts before row "1"
    have waited : awaiting s.taps = {(row.decision "1").toMap} + awaiting before.taps :=
      Multiset.coe_eq_coe.mpr ((Pool.perm_resumed found).map _)
    rw [waited,← add_assoc] at held
    rw [Accounted,NeuroRequestController.accepted,sending_decide free,taps,tapped]
    exact held
  | connected i value =>
    obtain ⟨call,found,awaited,rfl⟩ := resumed_cases stepped
    have online : value = true := careful
    rw [if_pos online]
    rw [Accounted,sending_put found _ (by rw [awaited]; rfl)]
    exact held
  | prefsLoaded i =>
    obtain ⟨call,found,awaited,rfl⟩ := resumed_cases stepped
    have posted : sending {s.put i call .posted with
        requests := s.requests ++ [s.sendData.toMap]} = sending s := by
      rw [sending]
      simp only [← Multiset.coe_add]
      exact phases_put i call .posted ▸ shared_posted rfl (awaited ▸ phases_found found)
    exact (congrArg (· + _) posted).trans held
  | responded i =>
    obtain ⟨call,found,awaited,rfl⟩ := resumed_cases stepped
    have put := sending_put found .finished (by rw [awaited]; rfl)
    unfold NeuroRequestController.succeeded
    cases (s.put i call .finished).loader.remove <;> exact (congrArg (· + _) put).trans held
  | failed i =>
    obtain ⟨call,found,awaited,rfl⟩ := resumed_cases stepped
    have put := sending_put found .finished (by rw [awaited]; rfl)
    exact (congrArg (· + _) put).trans held
  | hidden =>
    obtain ⟨_,_,rfl⟩ := Option.map_eq_some_iff.mp stepped
    exact held
  | pullRefresh =>
    cases Option.some.inj stepped
    exact held
  | loaded value =>
    obtain ⟨_,rfl⟩ : _ ∧ _ = t := by simpa [NeuroRequestController.step] using stepped
    cases value <;> exact held

theorem own_erase (row : Row) (l : List Row) : Completion.Own ⟨row,l,l.erase row⟩ := by
  by_cases listed : row ∈ l
  · have bound := List.idxOf_lt_length_iff.mpr listed
    refine .inr ⟨l.idxOf row,bound,?_,List.erase_eq_eraseIdx_of_idxOf rfl⟩
    simp [bound]
  · exact .inl (List.erase_of_not_mem listed)

theorem own_step (own : ∀ c ∈ s.completions, c.Own) (stepped : s.step asserts a = some t) :
    ∀ c ∈ t.completions, c.Own := by
  cases a with
  | accept index =>
    obtain ⟨_,_,rfl⟩ := Option.map_eq_some_iff.mp stepped
    exact own
  | reject index =>
    obtain ⟨row,_,rfl⟩ := Option.map_eq_some_iff.mp stepped
    rwa [(decide_kept asserts _ row "2").2.2]
  | prefsOpened tap image =>
    obtain ⟨row,_,rfl⟩ := Option.map_eq_some_iff.mp stepped
    cases image with
    | none => exact own
    | some image =>
      rw [NeuroRequestController.accepted,(decide_kept asserts _ row "1").2.2]
      exact own
  | connected i value =>
    obtain ⟨_,_,_,rfl⟩ := resumed_cases stepped
    split <;> exact own
  | prefsLoaded i | failed i =>
    obtain ⟨_,_,_,rfl⟩ := resumed_cases stepped
    exact own
  | responded i =>
    obtain ⟨call,_,_,rfl⟩ := resumed_cases stepped
    simp only [NeuroRequestController.completed,NeuroRequestController.succeeded]
    refine Pool.forall_append own ?_
    cases (s.put i call .finished).loader.remove with
    | none => exact .inl rfl
    | some loader => exact own_erase call.removeIndex s.listData
  | hidden =>
    obtain ⟨_,_,rfl⟩ := Option.map_eq_some_iff.mp stepped
    exact own
  | pullRefresh =>
    cases Option.some.inj stepped
    exact own
  | loaded value =>
    obtain ⟨_,rfl⟩ : _ ∧ _ = t := by simpa [NeuroRequestController.step] using stepped
    cases value <;> exact own

end Step

/-- In every run in which no tap changes `sendData` while a call has still to encode it, every
decision is sent once, about its own row. -/
theorem decisions_sent {asserts : Bool} {s : NeuroRequestController} {actions : List Action}
    (run : Run (NeuroRequestController.step asserts) (Careful asserts) {} actions s) :
    Faithful s := by
  have accounted := run.invariant Accounted rfl fun _ _ _ => accounted_step
  refine ⟨fun ⟨taps,encoded⟩ => ?_,?_⟩
  · have none : unencoded s.phases = 0 := by
      refine unencoded_eq_zero fun phase member => ?_
      obtain ⟨call,inside,rfl⟩ := List.mem_map.mp member
      exact encoded call inside
    simpa [Accounted,sending,awaiting,taps,none] using accounted
  · exact run.invariant (fun s => ∀ c ∈ s.completions, c.Own) (by simp) fun _ _ _ own _ =>
      own_step own

def twoRequests : Option (List RequestRows.NeuroRequest) :=
  some [{userId := "11"},{userId := "12"}]

theorem decisions_sent_apart : ∃ s, Run (NeuroRequestController.step true) (Careful true) {}
    [.loaded twoRequests,.accept 0,.reject 1,.connected 0 true,.prefsLoaded 0,.responded 0,.hidden,
      .prefsOpened 0 (some "a.png"),.connected 1 true,.prefsLoaded 1,.responded 1] s ∧
    s.requests = [⟨"12","2"⟩,⟨"11","1"⟩] ∧ s.listData = [] ∧ Faithful s := by
  have computed : ∃ s, Run (NeuroRequestController.step true) (Careful true) {}
      [.loaded twoRequests,.accept 0,.reject 1,.connected 0 true,.prefsLoaded 0,.responded 0,
        .hidden,.prefsOpened 0 (some "a.png"),.connected 1 true,.prefsLoaded 1,.responded 1] s ∧
      s.requests = [⟨"12","2"⟩,⟨"11","1"⟩] ∧ s.listData = [] :=
    Run.exists_of_exec (by decide)
  obtain ⟨s,run,sent,left⟩ := computed
  exact ⟨s,run,sent,left,decisions_sent run⟩

/-- Both rows are accepted before either tap has read the preferences: user 12 is accepted twice
and user 11 not at all. -/
theorem decision_overwritten : ¬ ∀ (asserts : Bool) (actions : List Action)
    (s : NeuroRequestController), Run (NeuroRequestController.step asserts) Online {} actions s →
      Faithful s := by
  intro claimed
  have computed : ∃ s, Run (NeuroRequestController.step false) Online {}
      [.loaded twoRequests,.accept 0,.accept 1,.prefsOpened 0 (some "a.png"),
        .prefsOpened 0 (some "a.png"),.connected 0 true,.connected 1 true,.prefsLoaded 0,
        .prefsLoaded 1] s ∧ s.requests = [⟨"12","1"⟩,⟨"12","1"⟩] ∧ s.Settled ∧
      (↑s.requests : Multiset Body) ≠ ↑s.tapped :=
    Run.exists_of_exec (by decide)
  obtain ⟨s,run,_,settled,lost⟩ := computed
  exact lost ((claimed false _ s run).sent settled)

end Neuro.NeuroDecisions
