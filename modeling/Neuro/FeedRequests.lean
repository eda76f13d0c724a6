import Neuro.FeedsFilter
import Neuro.Lib.Run

/-! The card list of the feed. Every call of `getFeeds` takes the filter after its connectivity
check, and its response replaces the list whatever has been requested since. -/
namespace Neuro.FeedRequests
open Neuro.Lib RequestCall Repository
open FeedsFilter (Feed)
open SignIn (Response)

abbrev Cards := List FeedSwipe.Feed

structure Body where
  minage : String
  maxage : String
  gender : String
  hashtag : String
  mode : String
  mindistance : String
  maxdistance : String
  personality : String
  deriving DecidableEq, Repr

def toMap (data : Feed) : Body where
  minage := data.minage
  maxage := data.maxage
  gender := data.gender
  hashtag := data.hashtag
  mode := data.mode
  mindistance := data.mindistance
  maxdistance := data.maxdistance
  personality := Separated.join ',' data.persnalitylist

inductive Stage
  | connecting
  | loadingPrefs (data : Feed)
  | posted
  | finished
  deriving DecidableEq, Repr

/-- A call of `getFeeds`; `filter` records the filter in force when it was made, `request` and
`result` what it has sent and what the server has answered successfully. -/
structure Load where
  filter : Feed
  stage : Stage := .connecting
  request : Option Body := none
  result : Option (Cards × Bool) := none
  deriving DecidableEq, Repr

structure FeedController where
  sendData : Feed := {}
  listFeeds : Cards := []
  isNext : Bool := true
  isLoading : Bool := true
  loads : List Load := []
  deriving DecidableEq, Repr

inductive Action
  /-- At the start, and on the return from the premium plan. -/
  | getFeeds
  | filtered (result : Feed)
  | connected (load : Nat) (value : Bool)
  | prefsLoaded (load : Nat)
  /-- No response if the request throws. -/
  | responded (load : Nat) (response : Option Response)

def success (response : Response) : Option (Cards × Bool) :=
  if succeeded response then Repository.getFeeds response else none

namespace FeedController
variable (s : FeedController)

def getFeeds : FeedController :=
  {s with isLoading := true, loads := s.loads ++ [{filter := s.sendData}]}

def put (i : Nat) (load : Load) : FeedController := {s with loads := s.loads.set i load}

def answered : Option (Cards × Bool) → FeedController
  | none => {s with isLoading := false}
  | some value => {s with listFeeds := value.1, isNext := value.2, isLoading := false}

def connected (i : Nat) (load : Load) : Bool → FeedController
  | true => s.put i {load with stage := .loadingPrefs s.sendData}
  | false => {s.put i {load with stage := .finished} with isLoading := true}

def continued (i : Nat) (load : Load) : Action → Option FeedController
  | .connected _ value =>
    if load.stage = .connecting then some (s.connected i load value) else none
  | .prefsLoaded _ => match load.stage with
    | .loadingPrefs data => some (s.put i {load with stage := .posted, request := some (toMap data)})
    | .connecting | .posted | .finished => none
  | .responded _ response =>
    if load.stage = .posted then
      some ((s.put i {load with stage := .finished, result := response.bind success}).answered
        (response.bind Repository.getFeeds))
    else none
  | .getFeeds | .filtered _ => none

def step (s : FeedController) : Action → Option FeedController
  | .getFeeds => some s.getFeeds
  | .filtered result => some {s with sendData := result, listFeeds := []}.getFeeds
  | .connected i value => s.loads[i]?.bind fun load => s.continued i load (.connected i value)
  | .prefsLoaded i => s.loads[i]?.bind fun load => s.continued i load (.prefsLoaded i)
  | .responded i response => s.loads[i]?.bind fun load => s.continued i load (.responded i response)

/-- What the last call that was made has been answered with. -/
def lastResult : Option (Cards × Bool) := s.loads.getLast?.bind Load.result

end FeedController

/-- If the last call has succeeded, the list and the flag are those of its response; and every
request carries the filter of its call. -/
structure Right (s : FeedController) : Prop where
  shown : ∀ result ∈ s.lastResult, (s.listFeeds,s.isNext) = result
  requests : ∀ load ∈ s.loads, ∀ body ∈ load.request, body = toMap load.filter

/-- A response that is taken over finds the last call without a successful one, or shows again
what that one has shown; and when the connectivity check of a call completes, the filter in
force is still the one of the call. -/
def InForce (s : FeedController) : Action → Prop
  | .connected i true => ∀ load ∈ s.loads[i]?, toMap s.sendData = toMap load.filter
  | .responded _ response =>
    ∀ value ∈ response.bind Repository.getFeeds, ∀ shown ∈ s.lastResult, value = shown
  | .getFeeds | .filtered _ | .connected _ false | .prefsLoaded _ => True

instance (s : FeedController) : ∀ a, Decidable (InForce s a)
  | .connected _ true => inferInstanceAs (Decidable (∀ _ ∈ _, _))
  | .responded .. => inferInstanceAs (Decidable (∀ _ ∈ _, ∀ _ ∈ _, _))
  | .getFeeds | .filtered _ | .connected _ false | .prefsLoaded _ =>
    inferInstanceAs (Decidable True)

/-- How far a call has come. -/
def Load.Kept (load : Load) : Stage → Prop
  | .connecting => load.request = none ∧ load.result = none
  | .loadingPrefs data => load.request = none ∧ load.result = none ∧ toMap data = toMap load.filter
  | .posted => load.result = none ∧ ∀ body ∈ load.request, body = toMap load.filter
  | .finished => ∀ body ∈ load.request, body = toMap load.filter

structure Inv (s : FeedController) : Prop where
  shown : ∀ result ∈ s.lastResult, (s.listFeeds,s.isNext) = result
  kept : ∀ load ∈ s.loads, load.Kept load.stage

theorem Load.Kept.request {load : Load} (kept : load.Kept load.stage) :
    ∀ body ∈ load.request, body = toMap load.filter := by
  unfold Load.Kept at kept
  cases stage : load.stage with
  | connecting | loadingPrefs =>
    rw [stage] at kept
    simp [kept.1]
  | posted =>
    rw [stage] at kept
    exact kept.2
  | finished =>
    rw [stage] at kept
    exact kept

theorem Inv.right {s : FeedController} (inv : Inv s) : Right s :=
  ⟨inv.shown,fun load member => (inv.kept load member).request⟩

section Step
variable {s t : FeedController} {i : Nat} {load next : Load}

theorem lastResult_put {result : Cards × Bool} (last : result ∈ (s.put i next).lastResult) :
    result ∈ next.result ∨ result ∈ s.lastResult := by
  obtain ⟨call,listed,given⟩ := Option.bind_eq_some_iff.mp last
  rcases Pool.mem_last_set listed with rfl | old
  · exact .inl given
  · exact .inr (Option.bind_eq_some_iff.mpr ⟨call,old,given⟩)

theorem inv_getFeeds (kept : ∀ load ∈ s.loads, load.Kept load.stage) : Inv s.getFeeds := by
  constructor
  · simp [FeedController.lastResult,FeedController.getFeeds]
  · exact Pool.forall_append kept ⟨rfl,rfl⟩

theorem inv_put (inv : Inv s) (kept : next.Kept next.stage) (unanswered : next.result = none) :
    Inv (s.put i next) := by
  constructor
  · intro result last
    rcases lastResult_put last with given | old
    · simp [unanswered] at given
    · exact inv.shown result old
  · exact Pool.forall_set inv.kept kept

theorem inv_connected (inv : Inv s) (kept : load.Kept .connecting) {value : Bool}
    (inForce : value = true → toMap s.sendData = toMap load.filter) :
    Inv (s.connected i load value) := by
  obtain ⟨request,result⟩ := kept
  cases value with
  | true => exact inv_put inv ⟨request,result,inForce rfl⟩ result
  | false =>
    have put : Inv (s.put i {load with stage := .finished}) :=
      inv_put inv (by simp [Load.Kept,request]) result
    exact ⟨put.shown,put.kept⟩

theorem getFeeds_of_success {response : Response} {result : Cards × Bool}
    (given : success response = some result) : Repository.getFeeds response = some result := by
  unfold success at given
  split at given
  · exact given
  · contradiction

theorem inv_answered (inv : Inv s) (kept : load.Kept .posted) {response : Option Response}
    (inForce : ∀ value ∈ response.bind Repository.getFeeds, ∀ shown ∈ s.lastResult, value = shown)
    (answer : next = {load with stage := .finished, result := response.bind success}) :
    Inv ((s.put i next).answered (response.bind Repository.getFeeds)) := by
  have all : ∀ load ∈ s.loads.set i next, load.Kept load.stage :=
    Pool.forall_set inv.kept (answer ▸ kept.2)
  have given {result : Cards × Bool} (own : result ∈ next.result) :
      response.bind Repository.getFeeds = some result := by
    rw [answer] at own
    obtain ⟨r,received,carried⟩ := Option.bind_eq_some_iff.mp own
    exact Option.bind_eq_some_iff.mpr ⟨r,received,getFeeds_of_success carried⟩
  cases read : response.bind Repository.getFeeds with
  | none =>
    refine ⟨fun result last => ?_,all⟩
    rcases lastResult_put last with own | old
    · exact absurd (read.symm.trans (given own)) (by simp)
    · exact inv.shown result old
  | some value =>
    refine ⟨fun result last => ?_,all⟩
    rcases lastResult_put last with own | old
    · exact Option.some.inj (read.symm.trans (given own))
    · exact inForce value read result old

theorem inv_step {a : Action} (inv : Inv s) (inForce : InForce s a) (stepped : s.step a = some t) :
    Inv t := by
  cases a with
  | getFeeds =>
    cases Option.some.inj stepped
    exact inv_getFeeds inv.kept
  | filtered result =>
    cases Option.some.inj stepped
    exact inv_getFeeds inv.kept
  | connected i value =>
    obtain ⟨load,found,taken⟩ := Option.bind_eq_some_iff.mp stepped
    have kept := inv.kept load (List.mem_of_getElem? found)
    simp only [FeedController.continued] at taken
    split at taken
    next stage =>
      cases Option.some.inj taken
      refine inv_connected inv (stage ▸ kept) fun online => ?_
      subst online
      exact inForce load found
    next => contradiction
  | prefsLoaded i =>
    obtain ⟨load,found,taken⟩ := Option.bind_eq_some_iff.mp stepped
    have kept := inv.kept load (List.mem_of_getElem? found)
    cases stage : load.stage with
    | loadingPrefs data =>
      simp only [FeedController.continued,stage,Option.some.injEq] at taken
      rw [stage] at kept
      obtain ⟨_,result,same⟩ := kept
      subst taken
      refine inv_put inv ⟨result,fun body sent => ?_⟩ result
      exact (Option.some.inj sent).symm.trans same
    | connecting | posted | finished => simp [FeedController.continued,stage] at taken
  | responded i response =>
    obtain ⟨load,found,taken⟩ := Option.bind_eq_some_iff.mp stepped
    have kept := inv.kept load (List.mem_of_getElem? found)
    simp only [FeedController.continued] at taken
    split at taken
    next stage =>
      cases Option.some.inj taken
      exact inv_answered inv (stage ▸ kept) inForce rfl
    next => contradiction

/-- In every run in which each call finds its filter in force and no response overtakes that
of the last call, the latest filter wins. -/
theorem latest_filter_wins {as : List Action} (run : Run FeedController.step InForce {} as s) :
    Right s := by
  have start : Inv {} := ⟨by simp [FeedController.lastResult],by simp⟩
  exact (run.invariant Inv start fun _ _ _ inv inForce stepped => inv_step inv inForce stepped).right

end Step

def cards (id : String) : Response where
  statusCode := 200
  body := some (.map [("success",.bool true),("data",.map [("feeds",.list [.map
    [("id",.string id)]]),("isNext",.bool true)])])

theorem latest_filter_wins_women : ∃ s, Run FeedController.step InForce {}
    [.getFeeds,.connected 0 true,.filtered {gender := "FEMALE"},.prefsLoaded 0,.connected 1 true,
      .prefsLoaded 1,.responded 0 (some (cards "11")),.responded 1 (some (cards "12"))] s ∧
    s.listFeeds = [{id := "12"}] ∧ Right s := by
  have computed : ∃ s, Run FeedController.step InForce {}
      [.getFeeds,.connected 0 true,.filtered {gender := "FEMALE"},.prefsLoaded 0,
        .connected 1 true,.prefsLoaded 1,.responded 0 (some (cards "11")),
        .responded 1 (some (cards "12"))] s ∧ s.listFeeds = [{id := "12"}] :=
    Run.exists_of_exec (by decide)
  obtain ⟨s,run,shown⟩ := computed
  exact ⟨s,run,shown,latest_filter_wins run⟩

/-- The response to the first call arrives last, and its cards replace those of the filter. -/
theorem left_filter_shown : ¬ ∀ (as : List Action) (s : FeedController),
    Run FeedController.step anyStep {} as s →
      (∀ load ∈ s.loads, load.stage = .finished) → Right s := by
  intro claimed
  have computed : ∃ s, Run FeedController.step anyStep {}
      [.getFeeds,.connected 0 true,.prefsLoaded 0,.filtered {gender := "FEMALE"},
        .connected 1 true,.prefsLoaded 1,.responded 1 (some (cards "12")),
        .responded 0 (some (cards "11"))] s ∧ (∀ load ∈ s.loads, load.stage = .finished) ∧
      s.lastResult = some ([{id := "12"}],true) ∧ s.listFeeds = [{id := "11"}] :=
    Run.exists_of_exec (by decide)
  obtain ⟨s,run,quiet,last,shown⟩ := computed
  have same := (claimed _ s run quiet).shown _ last
  rw [shown] at same
  simp at same

end Neuro.FeedRequests
