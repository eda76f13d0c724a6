import Neuro.Lib.Latest
import Neuro.Lib.Run
import Neuro.Repository

/-! The flag `isNext` of the feed: every response to a swipe writes it, and a response that
writes false opens the premium plan. -/
namespace Neuro.SwipeQuota
open Neuro.Lib Latest RequestCall Repository
open SignIn (Response)

/-- A call of `feedSwipe`. `flag` records what the server has answered successfully. -/
structure Swipe where
  isLoad : Bool
  phase : Phase := .connecting
  flag : Option Bool := none
  deriving DecidableEq, Repr

/-- `opened` are the swipes for which `/PremiumPlan` has been pushed. -/
structure FeedController where
  isNext : Bool
  swipes : List Swipe := []
  opened : List Nat := []
  deriving DecidableEq, Repr

inductive Action
  | feedSwipe (isLoad : Bool)
  | connected (swipe : Nat) (value : Bool)
  | prefsLoaded (swipe : Nat)
  /-- No response if the request throws. With `isLoad`, the loader is removed before the
  premium plan is pushed, unless `loader.remove()` throws. -/
  | responded (swipe : Nat) (response : Option Response) (removed : Bool)

def flag (response : Response) : Option Bool :=
  if succeeded response then response.body.bind isNext else none

namespace FeedController
variable (s : FeedController)

/-- The callback of `then`; an exception leaves `isNext` alone. -/
def answered (i : Nat) (swipe : Swipe) (removed : Bool) : Option Bool → FeedController
  | none => s
  | some value => {s with
    isNext := value
    opened := if !value && (!swipe.isLoad || removed) then s.opened ++ [i] else s.opened}

def put (i : Nat) (swipe : Swipe) : FeedController := {s with swipes := s.swipes.set i swipe}

def step (s : FeedController) : Action → Option FeedController
  | .feedSwipe isLoad => some {s with swipes := s.swipes ++ [{isLoad := isLoad}]}
  | .connected i value => s.swipes[i]?.bind fun swipe =>
    if swipe.phase = .connecting then some (s.put i {swipe with phase := .connected value})
    else none
  | .prefsLoaded i => s.swipes[i]?.bind fun swipe =>
    if swipe.phase = .loadingPrefs then some (s.put i {swipe with phase := .posted}) else none
  | .responded i response removed => s.swipes[i]?.bind fun swipe =>
    if swipe.phase = .posted then
      let finished : Swipe := {swipe with phase := .finished, flag := response.bind flag}
      some ((s.put i finished).answered i swipe removed (response.bind Repository.feedSwipe))
    else none

end FeedController

/-- `isNext` is the server's flag for the latest swipe it has answered successfully, and the
premium plan has been opened only for swipes that were answered with false. -/
structure Right (previous : Bool) (s : FeedController) : Prop where
  flag : s.isNext = latest previous (s.swipes.map Swipe.flag)
  opened : ∀ i ∈ s.opened, ∃ swipe ∈ s.swipes[i]?, swipe.flag = some false

/-- No response reports a failure, and one that comes after the successful response of a later
swipe has the flag that `isNext` already has. -/
def InOrder (s : FeedController) : Action → Prop
  | .responded i response _ => ∀ r ∈ response, ∀ value ∈ Repository.feedSwipe r,
    succeeded r = true ∧
      ((∀ later ∈ s.swipes.drop (i + 1), later.flag = none) ∨ value = s.isNext)
  | .feedSwipe _ | .connected .. | .prefsLoaded _ => True

instance (s : FeedController) : ∀ a, Decidable (InOrder s a)
  | .responded .. => inferInstanceAs (Decidable (∀ _ ∈ _, ∀ _ ∈ _, _ ∧ _))
  | .feedSwipe _ | .connected .. | .prefsLoaded _ => inferInstanceAs (Decidable True)

structure Inv (previous : Bool) (s : FeedController) : Prop where
  right : Right previous s
  pending : ∀ swipe ∈ s.swipes, swipe.phase ≠ .finished → swipe.flag = none

section Step
variable {previous : Bool} {s t : FeedController} {i : Nat} {swipe next : Swipe}

theorem feedSwipe_succeeded {response : Response} (success : succeeded response = true) :
    Repository.feedSwipe response = flag response := by
  rw [flag,if_pos success]
  exact answered_succeeded success

theorem feedSwipe_eq {response : Option Response}
    (success : ∀ r ∈ response, ∀ value ∈ Repository.feedSwipe r, succeeded r = true) :
    response.bind Repository.feedSwipe = response.bind flag := by
  cases response with
  | none => rfl
  | some r =>
    rw [Option.bind_some,Option.bind_some]
    cases reported : succeeded r with
    | true => exact feedSwipe_succeeded reported
    | false =>
      cases read : Repository.feedSwipe r with
      | none => simp [flag,reported]
      | some value => simp [success r rfl value read] at reported

theorem opened_put (right : Right previous s) (found : s.swipes[i]? = some swipe)
    (kept : swipe.flag = none ∨ next.flag = swipe.flag) :
    ∀ j ∈ s.opened, ∃ swipe ∈ (s.swipes.set i next)[j]?, swipe.flag = some false := by
  intro j member
  obtain ⟨other,listed,premium⟩ := right.opened j member
  obtain ⟨bound,_⟩ := List.getElem?_eq_some_iff.mp found
  by_cases same : i = j
  · subst same
    obtain rfl : swipe = other := Option.some.inj (found.symm.trans listed)
    rcases kept with none | equal
    · rw [none] at premium
      contradiction
    · exact ⟨next,by simp [bound],equal.trans premium⟩
  · exact ⟨other,by simpa [same] using listed,premium⟩

theorem inv_put (inv : Inv previous s) (found : s.swipes[i]? = some swipe)
    (same : next.flag = swipe.flag) (unfinished : swipe.phase ≠ .finished) :
    Inv previous (s.put i next) := by
  have none : swipe.flag = none := inv.pending swipe (List.mem_of_getElem? found) unfinished
  constructor
  · constructor
    · rw [FeedController.put,Pool.map_set Swipe.flag found same]
      exact inv.right.flag
    · exact opened_put inv.right found (.inr same)
  · exact Pool.forall_set inv.pending fun _ => same.trans none

theorem inv_answered (inv : Inv previous s) (found : s.swipes[i]? = some swipe)
    (unanswered : swipe.flag = none) (finished : next.phase = .finished) (removed : Bool)
    (ordered : ∀ value ∈ next.flag,
      (∀ later ∈ s.swipes.drop (i + 1), later.flag = none) ∨ value = s.isNext) :
    Inv previous ((s.put i next).answered i swipe removed next.flag) := by
  have pending : ∀ swipe ∈ s.swipes.set i next, swipe.phase ≠ .finished → swipe.flag = none :=
    Pool.forall_set inv.pending fun unfinished => absurd finished unfinished
  have kept : ∀ j ∈ s.opened, ∃ swipe ∈ (s.swipes.set i next)[j]?, swipe.flag = some false :=
    opened_put inv.right found (.inl unanswered)
  cases answer : next.flag with
  | none =>
    have same : next.flag = swipe.flag := answer.trans unanswered.symm
    refine ⟨⟨?_,kept⟩,pending⟩
    rw [FeedController.answered,FeedController.put,Pool.map_set Swipe.flag found same]
    exact inv.right.flag
  | some value =>
    refine ⟨⟨?_,?_⟩,pending⟩
    · have open_call : (s.swipes.map Swipe.flag)[i]? = some none := by
        rw [List.getElem?_map,found,Option.map_some,unanswered]
      have in_order : (∀ later ∈ (s.swipes.map Swipe.flag).drop (i + 1), later = none) ∨
          latest previous (s.swipes.map Swipe.flag) = value := by
        rw [← inv.right.flag,← List.map_drop]
        refine (ordered value answer).imp (fun last later member => ?_) Eq.symm
        obtain ⟨other,after,rfl⟩ := List.mem_map.mp member
        exact last other after
      change value = latest previous ((s.swipes.set i next).map Swipe.flag)
      rw [List.map_set,answer]
      exact (latest_answered open_call in_order).symm
    · intro j member
      simp only [FeedController.answered] at member
      split at member
      next pushed =>
        rcases List.mem_append.mp member with old | new
        · exact kept j old
        · obtain rfl := List.mem_singleton.mp new
          obtain ⟨bound,_⟩ := List.getElem?_eq_some_iff.mp found
          have premium : value = false := by cases value <;> simp_all
          exact ⟨next,by simp [FeedController.answered,FeedController.put,bound],premium ▸ answer⟩
      next => exact kept j member

theorem inv_step {a : Action} (inv : Inv previous s) (ordered : InOrder s a)
    (stepped : s.step a = some t) : Inv previous t := by
  cases a with
  | feedSwipe isLoad =>
    cases Option.some.inj stepped
    constructor
    · constructor
      · simpa using inv.right.flag
      · intro i member
        obtain ⟨swipe,listed,premium⟩ := inv.right.opened i member
        exact ⟨swipe,Pool.mem_appended.mpr (.inl listed),premium⟩
    · exact Pool.forall_append inv.pending fun _ => rfl
  | connected i value =>
    obtain ⟨swipe,found,taken⟩ := Option.bind_eq_some_iff.mp stepped
    split at taken
    next phase =>
      cases Option.some.inj taken
      exact inv_put inv found rfl (by simp [phase])
    next => contradiction
  | prefsLoaded i =>
    obtain ⟨swipe,found,taken⟩ := Option.bind_eq_some_iff.mp stepped
    split at taken
    next phase =>
      cases Option.some.inj taken
      exact inv_put inv found rfl (by simp [phase])
    next => contradiction
  | responded i response removed =>
    obtain ⟨swipe,found,taken⟩ := Option.bind_eq_some_iff.mp stepped
    split at taken
    next phase =>
      cases Option.some.inj taken
      have unanswered := inv.pending swipe (List.mem_of_getElem? found) (by simp [phase])
      have same := feedSwipe_eq fun r given value read => (ordered r given value read).1
      rw [same]
      refine inv_answered inv found unanswered rfl removed fun value answer => ?_
      obtain ⟨r,given,read⟩ := Option.bind_eq_some_iff.mp (same.trans answer)
      exact (ordered r given value read).2
    next => contradiction

/-- A response to a card swipe that is out of order, or reports a failure, goes wrong. -/
theorem wrong_responded {response : Option Response} {removed : Bool} (inv : Inv previous s)
    (found : s.swipes[i]? = some swipe) (card : swipe.isLoad = false)
    (disordered : ¬ InOrder s (.responded i response removed))
    (stepped : s.step (.responded i response removed) = some t) : ¬ Right previous t := by
  simp only [InOrder,not_forall] at disordered
  obtain ⟨r,rfl,value,read,disordered⟩ := disordered
  obtain ⟨_,again,taken⟩ := Option.bind_eq_some_iff.mp stepped
  cases found.symm.trans again
  split at taken
  next phase =>
    cases Option.some.inj taken
    have unanswered := inv.pending swipe (List.mem_of_getElem? found) (by simp [phase])
    obtain ⟨bound,_⟩ := List.getElem?_eq_some_iff.mp found
    intro right
    simp only [Option.bind_some,Option.mem_def.mp read] at right
    cases reported : succeeded r with
    | false =>
      obtain rfl : value = false := answered_failed reported read
      obtain ⟨own,listed,premium⟩ := right.opened i (by simp [FeedController.answered,card])
      simp [FeedController.answered,FeedController.put,bound] at listed
      simp [← listed,flag,reported] at premium
    | true =>
      have overtaken := not_or.mp fun ordered => disordered ⟨reported,ordered⟩
      have open_call : (s.swipes.map Swipe.flag)[i]? = some none := by
        rw [List.getElem?_map,found,Option.map_some,unanswered]
      have later : ∃ later ∈ (s.swipes.map Swipe.flag).drop (i + 1), later ≠ none := by
        obtain ⟨other,after,answered⟩ : ∃ later ∈ s.swipes.drop (i + 1), later.flag ≠ none := by
          simpa using overtaken.1
        rw [← List.map_drop]
        exact ⟨other.flag,List.mem_map_of_mem after,answered⟩
      have answer : flag r = some value := (feedSwipe_succeeded reported).symm.trans read
      have same := right.flag
      simp only [FeedController.answered,FeedController.put,List.map_set,answer] at same
      rw [latest_set_overtaken open_call later,← inv.right.flag] at same
      exact overtaken.2 same
  next => contradiction

end Step

def flagged (isNext : Bool) : Response where
  statusCode := 200
  body := some (.map [("success",.bool true),("data",.map [("isNext",.bool isNext)])])

def twoSwipes : List Action := [.feedSwipe false,.feedSwipe false,.connected 0 true,
  .connected 1 true,.prefsLoaded 0,.prefsLoaded 1]

end Neuro.SwipeQuota
