import Mathlib.Data.Multiset.Replicate
import Neuro.Lib.Run
import Neuro.RequestCall

/-! Card swipes of the feed screen and the `user_send_request` calls they start.
The swipe callback writes into the one `sendSwipe` object of the controller and
every `feedSwipe` call encodes that same object, after two awaits. -/
namespace Neuro.FeedSwipe
open Neuro.Lib RequestCall

structure Feed where
  id : String := ""
  swipe : String := ""
  receiverId : String := ""
  deriving DecidableEq, Repr

structure SwipeBody where
  receiverId : String
  swipe : String
  deriving DecidableEq, Repr

def Feed.toMapSwipe (feed : Feed) : SwipeBody := ⟨feed.receiverId,feed.swipe⟩

structure Request where
  authorization : String
  body : SwipeBody
  deriving DecidableEq, Repr

inductive CardSwipeOrientation
  | left | right | recover | up | down
  deriving DecidableEq, Repr

/-- The controller, its calls in flight and what the server received. `swiped`
is a history of the swipes made; no step reads it. -/
structure FeedController where
  listFeeds : List Feed
  sendSwipe : Feed := {}
  isNext : Bool := true
  token : Option String := none
  calls : List Phase := []
  requests : List Request := []
  swiped : List SwipeBody := []
  deriving DecidableEq, Repr

inductive Action
  | swipeComplete (orientation : CardSwipeOrientation) (index : Nat)
  | connected (call : Nat) (value : Bool)
  | prefsLoaded (call : Nat)
  | responded (call : Nat) (isNext : Option Bool)
  | feedsLoaded (feeds : List Feed) (isNext : Bool)
  deriving DecidableEq, Repr

namespace FeedController
variable (s : FeedController)

def feedSwipe : FeedController := {s with calls := s.calls ++ [.connecting]}

def clearLast (index : Nat) : FeedController :=
  if s.listFeeds.length = index + 1 then {s with listFeeds := []} else s

/-- The left and the right branch of the callback. The direction is stored
before the card is looked up, so an index beyond the list throws in between. -/
def swipeCard (direction : String) (index : Nat) : FeedController :=
  let marked := {s with sendSwipe := {s.sendSwipe with swipe := direction}}
  match s.listFeeds[index]? with
  | none => marked
  | some card =>
    let sent := ({marked with
      sendSwipe := {marked.sendSwipe with receiverId := card.id}
      swiped := s.swiped ++ [⟨card.id,direction⟩]} : FeedController).feedSwipe
    sent.clearLast index

def swipeCompleteCallback (orientation : CardSwipeOrientation) (index : Nat) : FeedController :=
  match orientation with
  | .recover => s
  | .left => s.swipeCard "0" index
  | .right => s.swipeCard "1" index
  | .up | .down => s.clearLast index

def encoded : Request := ⟨authorization s.token,s.sendSwipe.toMapSwipe⟩

def step : Action → Option FeedController
  | .swipeComplete orientation index => some (s.swipeCompleteCallback orientation index)
  | .connected call value =>
    if s.calls[call]? = some .connecting then
      some {s with calls := s.calls.set call (.connected value)}
    else none
  | .prefsLoaded call =>
    if s.calls[call]? = some .loadingPrefs then
      some {s with calls := s.calls.set call .posted, requests := s.requests ++ [s.encoded]}
    else none
  | .responded call isNext =>
    if s.calls[call]? = some .posted then
      some {s with calls := s.calls.set call .finished, isNext := isNext.getD s.isNext}
    else none
  | .feedsLoaded feeds isNext => some {s with listFeeds := feeds, isNext := isNext}

def Fresh : Prop := s.calls = [] ∧ s.requests = [] ∧ s.swiped = []

def Quiet : Prop := ∀ c ∈ s.calls, c.unencoded = false

/-- The multiset of pairs the requests carry is that of the swipes made. -/
def SentOnce : Prop :=
  (↑(s.requests.map Request.body) : Multiset SwipeBody) = (↑s.swiped : Multiset SwipeBody)

instance : Decidable s.Fresh := inferInstanceAs (Decidable (_ ∧ _))
instance : Decidable s.Quiet := inferInstanceAs (Decidable (∀ _ ∈ _, _))
instance : Decidable s.SentOnce := inferInstanceAs (Decidable (_ = _))

end FeedController

def Online (_ : FeedController) : Action → Prop
  | .connected _ value => value = true
  | _ => True

def written (s : FeedController) (direction : String) (index : Nat) : Option SwipeBody :=
  s.listFeeds[index]?.map fun card => ⟨card.id,direction⟩

/-- A swipe finds no call that has still to encode its body, or repeats the
card and the direction `sendSwipe` already holds. -/
def Undisturbed (s : FeedController) (direction : String) (index : Nat) : Prop :=
  unencoded s.calls = 0 ∨ written s direction index = some s.sendSwipe.toMapSwipe

def Careful (s : FeedController) : Action → Prop
  | .swipeComplete .left index => Undisturbed s "0" index
  | .swipeComplete .right index => Undisturbed s "1" index
  | .connected _ value => value = true
  | _ => True

instance (s : FeedController) (direction : String) (index : Nat) :
    Decidable (Undisturbed s direction index) := inferInstanceAs (Decidable (_ ∨ _))

instance : ∀ s a, Decidable (Online s a)
  | _, .connected .. => inferInstanceAs (Decidable (_ = _))
  | _, .swipeComplete .. | _, .prefsLoaded _ | _, .responded .. | _, .feedsLoaded .. =>
    inferInstanceAs (Decidable True)

instance : ∀ s a, Decidable (Careful s a)
  | _, .swipeComplete .left _ | _, .swipeComplete .right _ =>
    inferInstanceAs (Decidable (Undisturbed _ _ _))
  | _, .connected .. => inferInstanceAs (Decidable (_ = _))
  | _, .swipeComplete .recover _ | _, .swipeComplete .up _ | _, .swipeComplete .down _ =>
    inferInstanceAs (Decidable True)
  | _, .prefsLoaded _ | _, .responded .. | _, .feedsLoaded .. => inferInstanceAs (Decidable True)

/-- The requests sent so far and one copy of `sendSwipe` for every call that has
still to encode its body make up the swipes. -/
def Accounted (s : FeedController) : Prop :=
  (↑(s.requests.map Request.body) : Multiset SwipeBody) +
    Multiset.replicate (unencoded s.calls) s.sendSwipe.toMapSwipe = ↑s.swiped

theorem accounted_clearLast (s : FeedController) (index : Nat) :
    Accounted (s.clearLast index) ↔ Accounted s := by
  unfold FeedController.clearLast
  split <;> rfl

theorem accounted_swipeCard {s : FeedController} (held : Accounted s) {direction : String}
    {index : Nat} (quiet : Undisturbed s direction index) :
    Accounted (s.swipeCard direction index) := by
  unfold FeedController.swipeCard
  cases found : s.listFeeds[index]? with
  | none =>
    have none : unencoded s.calls = 0 := by simpa [Undisturbed,written,found] using quiet
    simpa [Accounted,none] using held
  | some card =>
    have free : unencoded s.calls = 0 ∨ ⟨card.id,direction⟩ = s.sendSwipe.toMapSwipe := by
      simpa [Undisturbed,written,found] using quiet
    have called := shared_called held free
    simp only [accounted_clearLast]
    simpa only [Accounted,FeedController.feedSwipe,Feed.toMapSwipe,← Multiset.coe_add,
      Multiset.coe_singleton] using called

theorem accounted_step {s t : FeedController} {a : Action} (held : Accounted s)
    (careful : Careful s a) (stepped : s.step a = some t) : Accounted t := by
  cases a with
  | swipeComplete orientation index =>
    cases Option.some.inj stepped
    cases orientation with
    | left => exact accounted_swipeCard held careful
    | right => exact accounted_swipeCard held careful
    | recover => exact held
    | up => exact (accounted_clearLast s index).mpr held
    | down => exact (accounted_clearLast s index).mpr held
  | connected call value =>
    obtain ⟨found,rfl⟩ : _ ∧ _ = t := by simpa [FeedController.step] using stepped
    obtain rfl : value = true := careful
    exact shared_set held found rfl
  | prefsLoaded call =>
    obtain ⟨found,rfl⟩ : _ ∧ _ = t := by simpa [FeedController.step] using stepped
    have posted := shared_posted held found
    simpa only [Accounted,FeedController.encoded,List.map_append,← Multiset.coe_add,
      List.map_cons,List.map_nil,Multiset.coe_singleton] using posted
  | responded call isNext =>
    obtain ⟨found,rfl⟩ : _ ∧ _ = t := by simpa [FeedController.step] using stepped
    exact shared_set held found rfl
  | feedsLoaded feeds isNext =>
    cases Option.some.inj stepped
    exact held

/-- Every swipe is sent exactly once, with its own card and its own direction,
in every run whose swipes never overwrite a `sendSwipe` that is still to be
encoded. -/
theorem swipes_sent_once {s t : FeedController} {actions : List Action} (fresh : s.Fresh)
    (run : Run FeedController.step Careful s actions t) (quiet : t.Quiet) : t.SentOnce := by
  have start : Accounted s := by simp [Accounted,fresh.1,fresh.2.1,fresh.2.2,unencoded]
  have final := run.invariant Accounted start fun _ _ _ held careful stepped =>
    accounted_step held careful stepped
  rw [Accounted,unencoded_eq_zero quiet,Multiset.replicate_zero,Multiset.add_zero] at final
  exact final

def twoCards : FeedController where
  listFeeds := [{id := "11"},{id := "12"}]
  token := some "t"

theorem swipes_sent_once_apart : ∃ t,
    Run FeedController.step Careful twoCards
      [.swipeComplete .left 0,.connected 0 true,.prefsLoaded 0,.swipeComplete .right 1,
        .responded 0 (some true),.connected 1 true,.prefsLoaded 1] t ∧
      t.requests.map Request.body = [⟨"11","0"⟩,⟨"12","1"⟩] ∧ t.SentOnce := by
  have computed : ∃ t, Run FeedController.step Careful twoCards
      [.swipeComplete .left 0,.connected 0 true,.prefsLoaded 0,.swipeComplete .right 1,
        .responded 0 (some true),.connected 1 true,.prefsLoaded 1] t ∧
      t.requests.map Request.body = [⟨"11","0"⟩,⟨"12","1"⟩] ∧ t.Quiet :=
    Run.exists_of_exec (by decide)
  obtain ⟨t,run,bodies,quiet⟩ := computed
  exact ⟨t,run,bodies,swipes_sent_once (by decide) run quiet⟩

/-- Card 11 swiped left and card 12 swiped right while the connectivity check of
the first call is awaited: the right swipe of card 12 is sent twice. -/
theorem swipe_overwritten : ¬ ∀ (s t : FeedController) (actions : List Action), s.Fresh →
    Run FeedController.step Online s actions t → t.Quiet → t.SentOnce := by
  intro claimed
  have computed : ∃ t, Run FeedController.step Online twoCards
      [.swipeComplete .left 0,.swipeComplete .right 1,.connected 0 true,.prefsLoaded 0,
        .connected 1 true,.prefsLoaded 1] t ∧ t.Quiet ∧ ¬ t.SentOnce :=
    Run.exists_of_exec (by decide)
  obtain ⟨t,run,quiet,lost⟩ := computed
  exact lost (claimed _ t _ (by decide) run quiet)

end Neuro.FeedSwipe
