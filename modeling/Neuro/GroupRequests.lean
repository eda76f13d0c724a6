import Neuro.GroupDecision
import Neuro.Lib.Run
import Neuro.RequestCall

/-! The list of group requests: a row keeps the index it was built with, and a decision on it
removes whatever stands at that index when the response arrives. -/
namespace Neuro.GroupRequests
open Neuro.Lib RequestCall
open GroupDecision (GroupRequest NeuroRequest)

/-- `GroupViewRequest(_con.list_data[index], index, _con)`. -/
structure Row where
  data : GroupRequest
  index : Nat
  deriving DecidableEq, Repr

structure Call where
  sendData : NeuroRequest
  removeIndex : Nat
  phase : Phase := .connecting
  deriving DecidableEq, Repr

structure Completion where
  id : String
  before : List GroupRequest
  after : List GroupRequest
  indexError : Bool := false
  deriving DecidableEq, Repr

/-- `rows` and `completions` are histories; a row stays on the screen after the list has
changed. -/
structure GroupController where
  listData : List GroupRequest := []
  loader : Loader := {}
  loads : Nat := 1
  calls : List Call := []
  requests : List NeuroRequest := []
  rows : List Row := []
  completions : List Completion := []
  deriving DecidableEq, Repr

inductive Action
  | build (index : Nat)
  | acceptReject (row : Nat) (type : String)
  | connected (call : Nat) (value : Bool)
  | prefsLoaded (call : Nat)
  | responded (call : Nat)
  | failed (call : Nat)
  | hidden
  | pullRefresh
  | loaded (value : Option (List GroupRequest))
  deriving DecidableEq, Repr

namespace GroupController
variable (asserts : Bool) (s : GroupController)

def put (i : Nat) (call : Call) (phase : Phase) : GroupController :=
  {s with calls := s.calls.set i {call with phase := phase}}

def acceptReject (sendData : NeuroRequest) (removeIndex : Nat) : GroupController :=
  match s.loader.insert asserts with
  | none => s
  | some loader => {s with loader := loader, calls := s.calls ++ [⟨sendData,removeIndex,.connecting⟩]}

def removeAt (call : Call) : GroupController := {s with
  listData := s.listData.eraseIdx call.removeIndex
  completions := s.completions ++ [{
    id := call.sendData.id
    before := s.listData
    after := s.listData.eraseIdx call.removeIndex
    indexError := s.listData.length ≤ call.removeIndex}]}

/-- `loader.remove()` throws when the entry is in no overlay, before the row is removed. -/
def succeeded (call : Call) : GroupController :=
  match s.loader.remove with
  | none => {s with completions := s.completions ++ [⟨call.sendData.id,s.listData,s.listData,false⟩]}
  | some loader => {s with loader := loader}.removeAt call

def completed : GroupController := {s with loader := s.loader.hideLoader}

def offline : GroupController := {s with loader := s.loader.remove.getD s.loader}

def step (s : GroupController) : Action → Option GroupController
  | .build index => s.listData[index]?.map fun data => {s with rows := s.rows ++ [⟨data,index⟩]}
  | .acceptReject row type => s.rows[row]?.map fun row =>
    s.acceptReject asserts ⟨row.data.id,type⟩ row.index
  | .connected i value => resumed s.calls Call.phase i .connecting fun call =>
    if value then s.put i call .loadingPrefs else (s.put i call .finished).offline
  | .prefsLoaded i => resumed s.calls Call.phase i .loadingPrefs fun call =>
    {s.put i call .posted with requests := s.requests ++ [call.sendData]}
  | .responded i => resumed s.calls Call.phase i .posted fun call =>
    ((s.put i call .finished).succeeded call).completed
  | .failed i => resumed s.calls Call.phase i .posted fun call => (s.put i call .finished).completed
  | .hidden => s.loader.hidden.map fun loader => {s with loader := loader}
  | .pullRefresh => some {s with listData := [], loads := s.loads + 1}
  | .loaded value => if s.loads = 0 then none else
    some {s with listData := value.getD s.listData, loads := s.loads - 1}

end GroupController

/-- The request the call was made for leaves the list if it is there, and no other one. -/
def Completion.Right (c : Completion) : Prop := c.indexError = false ∧
  if ∃ r ∈ c.before, r.id = c.id then
    ∃ i < c.before.length, c.before[i]?.map GroupRequest.id = some c.id ∧
      c.after = c.before.eraseIdx i
  else c.after = c.before

/-- The loader is there and the request of the call stands at its index, or the loader is gone
and so is the request. -/
def Standing (s : GroupController) (call : Call) : Prop :=
  if s.loader.attached then
    s.listData[call.removeIndex]?.map GroupRequest.id = some call.sendData.id
  else ∀ r ∈ s.listData, r.id ≠ call.sendData.id

/-- The response to a call finds its row where it was. -/
def InPlace (s : GroupController) : Action → Prop
  | .responded i => ∀ call ∈ s.calls[i]?, Standing s call
  | .build _ | .acceptReject .. | .connected .. | .prefsLoaded _ | .failed _ | .hidden
  | .pullRefresh | .loaded _ => True

instance (c : Completion) : Decidable c.Right :=
  inferInstanceAs (Decidable (_ ∧ ite (∃ r ∈ c.before, r.id = c.id) _ _))

instance (s : GroupController) (call : Call) : Decidable (Standing s call) :=
  inferInstanceAs (Decidable (ite _ _ _))

instance : ∀ s a, Decidable (InPlace s a)
  | _, .responded _ => inferInstanceAs (Decidable (∀ _ ∈ _, _))
  | _, .build _ | _, .acceptReject .. | _, .connected .. | _, .prefsLoaded _ | _, .failed _
  | _, .hidden | _, .pullRefresh | _, .loaded _ => inferInstanceAs (Decidable True)

theorem getElem_of_eraseIdx_eq {A : Type} {l : List A} {i j : Nat} (left : i < l.length)
    (right : j < l.length) (same : l.eraseIdx i = l.eraseIdx j) : l[i] = l[j] := by
  have permuted : (l[i] :: l.eraseIdx i).Perm (l[j] :: l.eraseIdx i) := by
    refine (List.getElem_cons_eraseIdx_perm left).trans ?_
    rw [same]
    exact (List.getElem_cons_eraseIdx_perm right).symm
  have added : l[i] ::ₘ (↑(l.eraseIdx i) : Multiset A) = l[j] ::ₘ ↑(l.eraseIdx i) :=
    Multiset.coe_eq_coe.mpr permuted
  exact (Multiset.cons_inj_left _).mp added

def response (s : GroupController) (call : Call) : Completion :=
  if s.loader.attached then {
    id := call.sendData.id
    before := s.listData
    after := s.listData.eraseIdx call.removeIndex
    indexError := s.listData.length ≤ call.removeIndex}
  else ⟨call.sendData.id,s.listData,s.listData,false⟩

theorem response_right_iff (s : GroupController) (call : Call) :
    (response s call).Right ↔ Standing s call := by
  unfold response Standing
  split
  next attached =>
    simp only [Completion.Right,decide_eq_false_iff_not,not_le]
    constructor
    · rintro ⟨bound,right⟩
      simp only [List.getElem?_eq_getElem bound,Option.map_some,Option.some.injEq]
      split at right
      next listed =>
        obtain ⟨i,inside,same,erased⟩ := right
        rw [getElem_of_eraseIdx_eq bound inside erased]
        simpa [inside] using same
      next =>
        have shorter := List.length_eraseIdx_of_lt bound
        rw [right] at shorter
        omega
    · intro standing
      obtain ⟨r,found,same⟩ := Option.map_eq_some_iff.mp standing
      have bound := (List.getElem?_eq_some_iff.mp found).1
      rw [if_pos ⟨r,List.mem_of_getElem? found,same⟩]
      exact ⟨bound,call.removeIndex,bound,standing,rfl⟩
  next detached =>
    simp only [Completion.Right]
    constructor
    · rintro ⟨_,right⟩ r member same
      rw [if_pos ⟨r,member,same⟩] at right
      obtain ⟨i,inside,_,erased⟩ := right
      have shorter := List.length_eraseIdx_of_lt inside
      rw [← erased] at shorter
      omega
    · intro gone
      have none : ¬ ∃ r ∈ s.listData, r.id = call.sendData.id := by
        rintro ⟨r,member,same⟩
        exact gone r member same
      simp [none]

section Step
variable {asserts : Bool} {s t : GroupController} {a : Action}

theorem succeeded_completions (call : Call) :
    (s.succeeded call).completions = s.completions ++ [response s call] := by
  cases attached : s.loader.attached <;>
    simp [GroupController.succeeded,GroupController.removeAt,Loader.remove,response,attached]

theorem completions_step (stepped : s.step asserts a = some t) :
    t.completions = s.completions ∨ ∃ i, a = .responded i ∧ ∃ call ∈ s.calls[i]?,
      t.completions = s.completions ++ [response s call] := by
  cases a with
  | build index =>
    obtain ⟨_,_,rfl⟩ := Option.map_eq_some_iff.mp stepped
    exact .inl rfl
  | acceptReject row type =>
    obtain ⟨_,_,rfl⟩ := Option.map_eq_some_iff.mp stepped
    unfold GroupController.acceptReject
    left
    split <;> rfl
  | connected i value =>
    obtain ⟨_,_,_,rfl⟩ := resumed_cases stepped
    left
    split <;> rfl
  | prefsLoaded i =>
    obtain ⟨_,_,_,rfl⟩ := resumed_cases stepped
    exact .inl rfl
  | responded i =>
    obtain ⟨call,found,_,rfl⟩ := resumed_cases stepped
    exact .inr ⟨i,rfl,call,found,succeeded_completions call⟩
  | failed i =>
    obtain ⟨_,_,_,rfl⟩ := resumed_cases stepped
    exact .inl rfl
  | hidden =>
    obtain ⟨_,_,rfl⟩ := Option.map_eq_some_iff.mp stepped
    exact .inl rfl
  | pullRefresh =>
    cases Option.some.inj stepped
    exact .inl rfl
  | loaded value =>
    obtain ⟨_,rfl⟩ : _ ∧ _ = t := by simpa [GroupController.step] using stepped
    exact .inl rfl

theorem right_step (right : ∀ c ∈ s.completions, c.Right) (inPlace : InPlace s a)
    (stepped : s.step asserts a = some t) : ∀ c ∈ t.completions, c.Right := by
  rcases completions_step stepped with same | ⟨i,rfl,call,found,recorded⟩
  · rwa [same]
  · rw [recorded]
    exact Pool.forall_append right ((response_right_iff s call).mpr (inPlace call found))

/-- A response that does not find its row in place is not right, so the condition is exact. -/
theorem wrong_responded {i : Nat} {call : Call} (found : s.calls[i]? = some call)
    (moved : ¬ Standing s call) (stepped : s.step asserts (.responded i) = some t) :
    ∃ c ∈ t.completions, ¬ c.Right := by
  obtain ⟨again,found',_,rfl⟩ := resumed_cases stepped
  obtain rfl := Option.some.inj (found.symm.trans found')
  refine ⟨response s call,?_,fun right => moved ((response_right_iff s call).mp right)⟩
  have recorded : ((s.put i call .finished).succeeded call).completions =
      s.completions ++ [response s call] := succeeded_completions call
  exact recorded ▸ List.mem_append_right _ (List.mem_singleton_self _)

end Step

/-- In every run in which each response finds its row in place, every response removes the
request it is about, when that is listed, and no other one. -/
theorem decided_request_removed {asserts : Bool} {s : GroupController} {actions : List Action}
    (run : Run (GroupController.step asserts) InPlace {} actions s) :
    ∀ c ∈ s.completions, c.Right :=
  run.invariant (fun s => ∀ c ∈ s.completions, c.Right) (by simp) fun _ _ _ => right_step

theorem decided_request_removed_twice : ∃ s, Run (GroupController.step true) InPlace {}
    [.loaded (some [⟨"1"⟩,⟨"2"⟩,⟨"3"⟩]),.build 0,.acceptReject 0 "2",.connected 0 true,
      .prefsLoaded 0,.responded 0,.hidden,.build 0,.acceptReject 1 "1",.connected 1 true,
      .prefsLoaded 1,.responded 1] s ∧
    s.listData = [⟨"3"⟩] ∧ ∀ c ∈ s.completions, c.Right := by
  have computed : ∃ s, Run (GroupController.step true) InPlace {}
      [.loaded (some [⟨"1"⟩,⟨"2"⟩,⟨"3"⟩]),.build 0,.acceptReject 0 "2",.connected 0 true,
        .prefsLoaded 0,.responded 0,.hidden,.build 0,.acceptReject 1 "1",.connected 1 true,
        .prefsLoaded 1,.responded 1] s ∧ s.listData = [⟨"3"⟩] :=
    Run.exists_of_exec (by decide)
  obtain ⟨s,run,left⟩ := computed
  exact ⟨s,run,left,decided_request_removed run⟩

/-- Both rows are built and then decided on one after the other: the second decision, about
request 2, takes request 3 off the list. -/
theorem other_request_removed : ¬ ∀ (asserts : Bool) (actions : List Action) (s : GroupController),
    Run (GroupController.step asserts) anyStep {} actions s → ∀ c ∈ s.completions, c.Right := by
  intro claimed
  have computed : ∃ s, Run (GroupController.step true) anyStep {}
      [.loaded (some [⟨"1"⟩,⟨"2"⟩,⟨"3"⟩]),.build 0,.build 1,.acceptReject 0 "1",.connected 0 true,
        .prefsLoaded 0,.responded 0,.hidden,.acceptReject 1 "1",.connected 1 true,.prefsLoaded 1,
        .responded 1] s ∧ s.listData = [⟨"2"⟩] ∧ ∃ c ∈ s.completions, ¬ c.Right :=
    Run.exists_of_exec (by decide)
  obtain ⟨s,run,_,c,member,wrong⟩ := computed
  exact wrong (claimed true _ s run c member)

/-! One decision at a time: the row is that of the list as it is, and until the response nothing
else happens to the list or the loader. -/

def Idle (s : GroupController) : Prop := ∀ call ∈ s.calls, call.phase = .finished

def OneAtATime (s : GroupController) : Action → Prop
  | .acceptReject row _ => Idle s ∧ s.loader.hides = 0 ∧
    ∀ shown : Row, s.rows[row]? = some shown → s.listData[shown.index]? = some shown.data
  | .pullRefresh | .loaded _ => Idle s
  | .build _ | .connected .. | .prefsLoaded _ | .responded _ | .failed _ | .hidden => True

structure Single (s : GroupController) : Prop where
  only : ∀ (i : Nat) (call : Call), s.calls[i]? = some call → call.phase ≠ .finished →
    ∀ (j : Nat) (other : Call), s.calls[j]? = some other → other.phase ≠ .finished → j = i
  ready : ∀ call ∈ s.calls, call.phase ≠ .finished → s.loader = ⟨true,0⟩ ∧ Standing s call

section Single
variable {asserts : Bool} {s t : GroupController} {a : Action} {i : Nat} {call : Call}

theorem single_idle (idle : Idle s) : Single s := by
  refine ⟨fun i call found unfinished => ?_,fun call member unfinished => ?_⟩
  · exact absurd (idle call (List.mem_of_getElem? found)) unfinished
  · exact absurd (idle call member) unfinished

theorem idle_put (single : Single s) (found : s.calls[i]? = some call)
    (unfinished : call.phase ≠ .finished) : Idle (s.put i call .finished) := by
  intro other member
  obtain ⟨j,found'⟩ := List.mem_iff_getElem?.mp member
  rw [GroupController.put,List.getElem?_set] at found'
  split at found'
  next =>
    split at found'
    · exact (Option.some.inj found') ▸ rfl
    · contradiction
  next different =>
    by_contra going
    exact different (single.only i call found unfinished j other found' going).symm

theorem single_put (single : Single s) (found : s.calls[i]? = some call)
    (unfinished : call.phase ≠ .finished) (phase : Phase) : Single (s.put i call phase) := by
  have before (j : Nat) (other : Call) (found' : (s.put i call phase).calls[j]? = some other) :
      ∃ old, s.calls[j]? = some old ∧ (other.phase ≠ .finished → old.phase ≠ .finished) ∧
        (Standing s old → Standing (s.put i call phase) other) := by
    rw [GroupController.put,List.getElem?_set] at found'
    split at found'
    next same =>
      subst same
      split at found'
      · obtain rfl := Option.some.inj found'
        exact ⟨call,found,fun _ => unfinished,id⟩
      · contradiction
    next => exact ⟨other,found',id,id⟩
  constructor
  · intro j other found' going k third found'' going'
    obtain ⟨_,left,unfinished,_⟩ := before j other found'
    obtain ⟨_,right,unfinished',_⟩ := before k third found''
    exact single.only j _ left (unfinished going) k _ right (unfinished' going')
  · intro other member going
    obtain ⟨j,found'⟩ := List.mem_iff_getElem?.mp member
    obtain ⟨old,left,unfinished,standing⟩ := before j other found'
    obtain ⟨loader,stands⟩ := single.ready old (List.mem_of_getElem? left) (unfinished going)
    exact ⟨loader,standing stands⟩

theorem single_step (single : Single s) (alone : OneAtATime s a)
    (stepped : s.step asserts a = some t) : Single t := by
  cases a with
  | build index =>
    obtain ⟨_,_,rfl⟩ := Option.map_eq_some_iff.mp stepped
    exact ⟨single.only,single.ready⟩
  | acceptReject row type =>
    obtain ⟨row,found,rfl⟩ := Option.map_eq_some_iff.mp stepped
    obtain ⟨idle,hides,current⟩ := alone
    unfold GroupController.acceptReject
    split
    next => exact single
    next loader inserted =>
      obtain rfl : loader = ⟨true,0⟩ := by
        unfold Loader.insert at inserted
        split at inserted
        · contradiction
        · rw [← Option.some.inj inserted,hides]
      constructor
      · intro i call found' going j other found'' going'
        rcases Pool.mem_appended.mp found' with old | ⟨rfl,_⟩
        · exact absurd (idle call (List.mem_of_getElem? old)) going
        · rcases Pool.mem_appended.mp found'' with old | ⟨rfl,_⟩
          · exact absurd (idle other (List.mem_of_getElem? old)) going'
          · rfl
      · refine Pool.forall_append (fun call member going => ?_) fun _ => ⟨rfl,?_⟩
        · exact absurd (idle call member) going
        · simp [Standing,current row found]
  | connected i value =>
    obtain ⟨call,found,awaited,rfl⟩ := resumed_cases stepped
    have unfinished : call.phase ≠ .finished := by simp [awaited]
    split
    · exact single_put single found unfinished _
    · exact single_idle (idle_put single found unfinished)
  | prefsLoaded i =>
    obtain ⟨call,found,awaited,rfl⟩ := resumed_cases stepped
    have put := single_put single found (by simp [awaited]) .posted
    exact ⟨put.only,put.ready⟩
  | responded i =>
    obtain ⟨call,found,awaited,rfl⟩ := resumed_cases stepped
    have idle := idle_put single found (by simp [awaited])
    refine single_idle fun other member => idle other ?_
    revert member
    unfold GroupController.succeeded
    split <;> exact id
  | failed i =>
    obtain ⟨call,found,awaited,rfl⟩ := resumed_cases stepped
    exact single_idle (idle_put single found (by simp [awaited]))
  | hidden =>
    obtain ⟨loader,hidden,rfl⟩ := Option.map_eq_some_iff.mp stepped
    refine ⟨single.only,fun call member unfinished => ?_⟩
    have shown := (single.ready call member unfinished).1
    simp [Loader.hidden,shown] at hidden
  | pullRefresh =>
    cases Option.some.inj stepped
    exact single_idle alone
  | loaded value =>
    obtain ⟨_,rfl⟩ : _ ∧ _ = t := by simpa [GroupController.step] using stepped
    exact single_idle alone

end Single

theorem inPlace_of_oneAtATime {asserts : Bool} {s : GroupController} {actions : List Action}
    (run : Run (GroupController.step asserts) OneAtATime {} actions s) :
    Run (GroupController.step asserts) InPlace {} actions s := by
  have start : Single {} := single_idle (by simp [Idle])
  refine run.reguard Single start (fun _ _ _ => single_step) fun s a t single _ stepped => ?_
  cases a with
  | responded i =>
    obtain ⟨call,found,awaited,_⟩ := resumed_cases stepped
    intro again found'
    obtain rfl := Option.some.inj (found.symm.trans found')
    exact (single.ready call (List.mem_of_getElem? found) (by simp [awaited])).2
  | build | acceptReject | connected | prefsLoaded => trivial
  | failed | hidden | pullRefresh | loaded => trivial

end Neuro.GroupRequests
