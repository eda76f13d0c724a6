import Neuro.LateRequests
import Neuro.Lib.Run

/-! The switch for notifications. The settings hand its value to the screen that manages the
account and take it back when that screen is left by its arrow. -/
namespace Neuro.NotificationSwitch
open Neuro.Lib LateRequests

/-- The settings with what their route argument says, and the switch of the screen that is open
above them. `chosen` is a history of what was chosen last, at first what the profile said. -/
structure State where
  routeArgument : Bool
  isNotification : Option Bool := none
  senders : Senders String := {}
  chosen : Bool
  deriving DecidableEq, Repr

inductive Action
  | manage
  | toggle (val : Bool)
  /-- The arrow pops with the value, the system's way back without one. -/
  | arrow
  | systemBack
  | resume (controller call : Nat) (r : Resume)
  deriving DecidableEq, Repr

def notification (val : Bool) : String := if val then "1" else "0"

namespace State
variable (s : State)

def settings (isNotification : Bool) : State where
  routeArgument := isNotification
  chosen := isNotification

def step (s : State) : Action → Option State
  | .manage => if s.isNotification = none then some {s with
      isNotification := some s.routeArgument
      senders := s.senders.opened}
    else none
  | .toggle val => if s.isNotification = none then none else
    (s.senders.call (s.senders.each.length - 1) (notification val)).map fun senders => {s with
      isNotification := some val
      senders := senders
      chosen := val}
  | .arrow => s.isNotification.map fun data =>
    {s with routeArgument := data, isNotification := none}
  | .systemBack => if s.isNotification = none then none else some {s with isNotification := none}
  | .resume k i r => (s.senders.resume false k i r).map fun senders => {s with senders := senders}

end State

/-- There is a connection, the system's way back is not taken from a switch that has been moved,
and one is not moved before earlier screens have posted what was chosen there. -/
def Orderly (s : State) : Action → Prop
  | .systemBack => s.isNotification = some s.routeArgument
  | .toggle _ => ∀ other ∈ s.senders.each.dropLast, other.held = []
  | .resume _ _ r => r ≠ .connected false
  | .manage | .arrow => True

instance (s : State) : ∀ a, Decidable (Orderly s a)
  | .systemBack => inferInstanceAs (Decidable (_ = _))
  | .toggle _ => inferInstanceAs (Decidable (∀ _ ∈ _, _ = _))
  | .resume .. => inferInstanceAs (Decidable (_ ≠ _))
  | .manage | .arrow => inferInstanceAs (Decidable True)

/-- All requests are of one kind. -/
def kind : String → Unit := fun _ => ()

structure Inv (s : State) : Prop where
  shown : s.isNotification.getD s.routeArgument = s.chosen
  asked : ∀ b ∈ s.senders.asked.getLast?, b = notification s.chosen
  late : Late kind () s.senders
  plain : Plain s.senders

section Step
variable {s t : State}

theorem latestOf_kind (l : List String) : latestOf kind () l = l.getLast? := by
  simp [latestOf,kind]

theorem inv_step {a : Action} (inv : Inv s) (orderly : Orderly s a) (stepped : s.step a = some t) :
    Inv t := by
  cases a with
  | manage =>
    simp only [State.step] at stepped
    split at stepped
    next closed =>
      rw [← Option.some.inj stepped]
      have shown := inv.shown
      rw [closed] at shown
      exact ⟨shown,inv.asked,late_opened inv.late,plain_opened inv.plain⟩
    next => contradiction
  | toggle val =>
    simp only [State.step] at stepped
    split at stepped
    next => contradiction
    next =>
      obtain ⟨senders,called,rfl⟩ := Option.map_eq_some_iff.mp stepped
      have alone : Alone kind s.senders (s.senders.each.length - 1) (notification val) := by
        refine ⟨fun other member d held => ?_,fun sender last => ⟨fun d body => ?_,fun _ _ _ => rfl⟩⟩
        · rw [List.eraseIdx_length_sub_one] at member
          rw [orderly other member] at held
          contradiction
        · exact absurd (inv.plain sender (List.mem_of_getElem? last) _ body) nofun
      refine ⟨rfl,?_,late_call inv.late alone called,plain_call inv.plain called⟩
      simp [asked_eq_of_call called]
  | arrow =>
    obtain ⟨data,opened,rfl⟩ := Option.map_eq_some_iff.mp stepped
    have shown := inv.shown
    rw [opened] at shown
    exact ⟨shown,inv.asked,inv.late,inv.plain⟩
  | systemBack =>
    simp only [State.step] at stepped
    split at stepped
    next => contradiction
    next =>
      rw [← Option.some.inj stepped]
      have shown := inv.shown
      rw [orderly] at shown
      exact ⟨shown,inv.asked,inv.late,inv.plain⟩
  | resume k i r =>
    obtain ⟨senders,resumed,rfl⟩ := Option.map_eq_some_iff.mp stepped
    obtain ⟨plain,readable⟩ := plain_resume inv.plain resumed
    refine ⟨inv.shown,?_,late_resume inv.late orderly readable resumed,plain⟩
    rw [asked_eq_of_resume resumed]
    exact inv.asked

/-- The switch shows what was chosen last whenever it is open, and once all calls are through,
that is what was posted last, if anything was chosen at all. -/
theorem switch_chosen {before : Bool} {as : List Action}
    (run : Run State.step Orderly (.settings before) as t) :
    (∀ shown ∈ t.isNotification, shown = t.chosen) ∧
      (t.senders.Quiet → t.senders.sent.getLast? = none ∧ t.senders.asked = [] ∨
        t.senders.sent.getLast? = some (notification t.chosen)) := by
  have initial : Inv (.settings before) :=
    ⟨rfl,by simp [State.settings],⟨by simp [State.settings],.inr rfl⟩,by simp [Plain,State.settings]⟩
  have inv := run.invariant Inv initial fun _ _ _ => inv_step
  refine ⟨fun shown opened => ?_,fun quiet => ?_⟩
  · have same := inv.shown
    rwa [Option.mem_def.mp opened] at same
  · have latest := latest_of_quiet inv.late quiet
    rw [latestOf_kind,latestOf_kind] at latest
    cases last : t.senders.asked.getLast? with
    | none => exact .inl ⟨latest.trans last,List.getLast?_eq_none_iff.mp last⟩
    | some b => exact .inr (latest.trans (last.trans (congrArg some (inv.asked b last))))

/-- The switch is moved on two visits, and twice on the second, where the calls overtake. -/
def visits : List Action :=
  [.manage,.toggle false,.resume 0 0 (.connected true),.resume 0 0 .prefsLoaded,.arrow,.manage,
    .toggle true,.toggle false,.resume 1 1 (.connected true),.resume 1 1 .prefsLoaded,
    .resume 1 0 (.connected true),.resume 1 0 .prefsLoaded]

theorem switch_chosen_visits : ∃ t, Run State.step Orderly (.settings true) visits t ∧
    t.senders.Quiet ∧ t.senders.sent = ["0","0","0"] ∧
      (∀ shown ∈ t.isNotification, shown = t.chosen) ∧
      (t.senders.Quiet → t.senders.sent.getLast? = none ∧ t.senders.asked = [] ∨
        t.senders.sent.getLast? = some (notification t.chosen)) := by
  have computed : ∃ t, Run State.step Orderly (.settings true) visits t ∧
      t.senders.Quiet ∧ t.senders.sent = ["0","0","0"] := Run.exists_of_exec (by decide +kernel)
  obtain ⟨t,run,quiet,sent⟩ := computed
  exact ⟨t,run,quiet,sent,switch_chosen run⟩

/-- After the system's way back the switch shows again what was chosen before. -/
example : ∃ t, Run State.step anyStep (.settings true)
    [.manage,.toggle false,.systemBack,.manage] t ∧ t.isNotification = some true ∧
      t.chosen = false := Run.exists_of_exec (by decide)

end Step

end Neuro.NotificationSwitch
