import Neuro.CountdownTimer
import Neuro.GroupChatScreen
import Neuro.RequestRows
import Neuro.Lib.Positional
import Neuro.Lib.Run

/-! The rows of the neuro requests, of the group inbox and of the inbox. None has a key:
when the list behind them is rebuilt, the states of the rows and of their countdowns
stay where they are. -/
namespace Neuro.ListRows
open Neuro.Lib CountdownTimer Positional
open ChatScreen (MessageUser)
open GroupChatScreen (GroupUser)
open RequestRows (NeuroRequest)

inductive View
  | userNeuroView
  | myGroupView
  | userViewMessage
  deriving DecidableEq, Repr

def View.Data : View → Type
  | .userNeuroView => NeuroRequest
  | .myGroupView => GroupUser
  | .userViewMessage => MessageUser

instance (view : View) : DecidableEq view.Data :=
  match view with
  | .userNeuroView => inferInstanceAs (DecidableEq NeuroRequest)
  | .myGroupView => inferInstanceAs (DecidableEq GroupUser)
  | .userViewMessage => inferInstanceAs (DecidableEq MessageUser)

/-- The duration a row hands to its countdown. -/
def View.time : (view : View) → view.Data → Option Duration
  | .userNeuroView,(data : NeuroRequest) => data.time.map .ofSeconds
  | .myGroupView,_ => none
  | .userViewMessage,(data : MessageUser) => data.nudgeSender.map .ofSeconds

/-- The state of a row copies its element in `createState`; the rows of the inbox have no
state of their own. -/
def View.stateful : View → Bool
  | .userNeuroView | .myGroupView => true
  | .userViewMessage => false

/-- An element of the list, with what a countdown that was started with it shows now. -/
structure Element (view : View) where
  data : view.Data
  remaining : Option Duration
  deriving DecidableEq

structure Row (view : View) where
  data : view.Data
  countdown : Option Duration
  deriving DecidableEq

structure Listing (view : View) where
  items : List (Element view) := []
  rows : List (Row view) := []

/-- An element of an edited list: one of the list before, or a new one. -/
inductive Entry (view : View)
  | kept (position : Nat)
  | fresh (data : view.Data)

inductive Action (view : View)
  | rebuild (entries : List (Entry view))
  | second

def next (d : Duration) : Duration :=
  if d.inSeconds = 0 then d else .ofSeconds (d.inSeconds - 1)

section View
variable {view : View}

def Row.create (e : Element view) : Row view := ⟨e.data,view.time e.data⟩

/-- `initState` alone reads the duration: a countdown that stays goes on. -/
def staying (countdown time : Option Duration) : Option Duration :=
  match countdown,time with
  | some countdown,some _ => some countdown
  | none,time => time
  | some _,none => none

def Row.update (row : Row view) (e : Element view) : Row view :=
  if view.stateful then row else ⟨e.data,staying row.countdown (view.time e.data)⟩

namespace Listing
variable (s : Listing view)

def item : Entry view → Option (Element view)
  | .kept position => s.items[position]?
  | .fresh data => some ⟨data,view.time data⟩

def step (s : Listing view) : Action view → Option (Listing view)
  | .rebuild entries => (entries.mapM s.item).map fun items =>
    ⟨items,rebuilt Row.create Row.update s.rows items⟩
  | .second => some {
    items := s.items.map fun e => {e with remaining := e.remaining.map next}
    rows := s.rows.map fun row => {row with countdown := row.countdown.map next}}

end Listing

def Row.Shows (row : Row view) (e : Element view) : Prop :=
  row.data = e.data ∧ row.countdown = e.remaining

def Follows (s : Listing view) : Prop := List.Forall₂ Row.Shows s.rows s.items

/-- The element is the one its position held before; in the inbox, the countdown of the
position goes on with what is left of the element. -/
def Fits (before e : Element view) : Prop :=
  if view.stateful then before = e
  else staying before.remaining (view.time e.data) = e.remaining

def Fresh (e : Element view) : Prop := view.time e.data = e.remaining

def InPlace (s : Listing view) : Action view → Prop
  | .rebuild entries => ∀ items ∈ entries.mapM s.item, Aligned Fits Fresh s.items items
  | .second => True

instance (before e : Element view) : Decidable (Fits before e) :=
  inferInstanceAs (Decidable (if view.stateful then before = e
    else staying before.remaining (view.time e.data) = e.remaining))

instance : DecidablePred (Fresh : Element view → Prop) := fun e =>
  inferInstanceAs (Decidable (_ = e.remaining))

instance (row : Row view) (e : Element view) : Decidable (row.Shows e) :=
  inferInstanceAs (Decidable (_ ∧ _))

instance (s : Listing view) : Decidable (Follows s) :=
  inferInstanceAs (Decidable (List.Forall₂ _ _ _))

instance (s : Listing view) : ∀ a, Decidable (InPlace s a)
  | .rebuild _ => inferInstanceAs (Decidable (∀ _ ∈ _, _))
  | .second => inferInstanceAs (Decidable True)

theorem elapsed_inactive (widget : Countdown) (n : Nat)
    (ended : (elapsed widget n).isActive = false) : (elapsed widget n).duration.inSeconds = 0 := by
  induction n with
  | zero => contradiction
  | succ n ih =>
    rw [elapsed,tick] at ended ⊢
    split at ended
    next running =>
      rw [if_pos running]
      rw [timerCallback] at ended ⊢
      split at ended
      next zero => simp only [zero,if_true]
      next => simp [running] at ended
    next stopped =>
      rw [if_neg stopped]
      exact ih ended

theorem elapsed_next (widget : Countdown) (n : Nat) :
    (elapsed widget (n + 1)).duration = next (elapsed widget n).duration := by
  rw [elapsed,tick,next]
  split
  next =>
    rw [timerCallback]
    split <;> rfl
  next stopped =>
    have zero := elapsed_inactive widget n (by simpa using stopped)
    rw [if_pos zero]

theorem shows_update (row : Row view) (before e : Element view) (shows : row.Shows before) :
    (row.update e).Shows e ↔ Fits before e := by
  obtain ⟨data,countdown⟩ := shows
  simp only [Row.update,Fits,Row.Shows]
  split
  · rw [data,countdown]
    constructor
    · rintro ⟨sameData,sameTime⟩
      cases before
      cases e
      cases sameData
      cases sameTime
      rfl
    · rintro rfl
      exact ⟨rfl,rfl⟩
  · simp only [countdown,true_and]

theorem shows_create (e : Element view) : (Row.create e).Shows e ↔ Fresh e := by
  simp only [Row.create,Row.Shows,Fresh,true_and]

theorem follows_rebuilt {s : Listing view} (follows : Follows s) (items : List (Element view)) :
    Follows ⟨items,rebuilt Row.create Row.update s.rows items⟩ ↔
      Aligned Fits Fresh s.items items :=
  rebuilt_iff shows_update shows_create follows items

theorem follows_step {s t : Listing view} {a : Action view} (follows : Follows s)
    (inPlace : InPlace s a) (stepped : s.step a = some t) : Follows t := by
  cases a with
  | rebuild entries =>
    obtain ⟨items,listed,rfl⟩ := Option.map_eq_some_iff.mp stepped
    exact (follows_rebuilt follows items).mpr (inPlace items listed)
  | second =>
    cases Option.some.inj stepped
    simp only [Follows,List.forall₂_map_left_iff,List.forall₂_map_right_iff]
    apply List.Forall₂.imp _ follows
    rintro row e ⟨data,countdown⟩
    exact ⟨data,congrArg (Option.map next) countdown⟩

/-- In every run in which each rebuild finds the elements in place, the row of every
position shows the element of this position. -/
theorem rows_follow {s : Listing view} {actions : List (Action view)}
    (run : Run Listing.step InPlace {} actions s) : Follows s := by
  have start : Follows ({} : Listing view) := .nil
  exact run.invariant Follows start fun _ _ _ follows inPlace stepped =>
    follows_step follows inPlace stepped

end View

def anna : View.Data .userNeuroView :=
  ({userId := "7",name := "Anna",time := some 60} : NeuroRequest)

def ben : View.Data .userNeuroView :=
  ({userId := "12",name := "Ben",time := some 600} : NeuroRequest)

theorem rows_follow_last : ∃ s : Listing .userNeuroView, Run Listing.step InPlace {}
    [.rebuild [.fresh anna,.fresh ben],.second,.rebuild [.kept 0]] s ∧
    s.items.length = 1 ∧ Follows s := by
  have computed : ∃ s : Listing .userNeuroView, Run Listing.step InPlace {}
      [.rebuild [.fresh anna,.fresh ben],.second,.rebuild [.kept 0]] s ∧ s.items.length = 1 :=
    Run.exists_of_exec (by decide)
  obtain ⟨s,run,one⟩ := computed
  exact ⟨s,run,one,rows_follow run⟩

/-- After Anna's request has been answered, the row of Ben's still shows and answers
Anna's. -/
theorem row_keeps_removed : ¬ ∀ (view : View) (actions : List (Action view)) (s : Listing view),
    Run Listing.step anyStep {} actions s → Follows s := by
  intro claimed
  have computed : ∃ s : Listing .userNeuroView, Run Listing.step anyStep {}
      [.rebuild [.fresh anna,.fresh ben],.rebuild [.kept 1]] s ∧ ¬ Follows s :=
    Run.exists_of_exec (by decide)
  obtain ⟨s,run,stale⟩ := computed
  exact stale (claimed _ _ s run)

end Neuro.ListRows
