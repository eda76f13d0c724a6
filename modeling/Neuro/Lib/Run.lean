import Mathlib.Logic.Basic

/-! Guarded runs of a partial step function. An action that is not enabled has
no successor; the guard restricts which enabled steps a run may take. Nothing
here depends on what the states or the actions are. -/
namespace Neuro.Lib

variable {S A : Type*}

/-- `Run step guard s as t`: from `s` the actions `as`, taken in this order and
each admitted by `guard` in the state it is taken in, lead to `t`. -/
inductive Run (step : S → A → Option S) (guard : S → A → Prop) (s : S) : List A → S → Prop
  | nil : Run step guard s [] s
  | snoc {as t a u} (before : Run step guard s as t) (admitted : guard t a)
      (stepped : step t a = some u) : Run step guard s (as ++ [a]) u

def anyStep : S → A → Prop := fun _ _ => True

instance (s : S) (a : A) : Decidable (anyStep s a) := inferInstanceAs (Decidable True)

variable {step : S → A → Option S} {guard : S → A → Prop} {s t u : S} {as bs : List A}

theorem Run.trans (first : Run step guard s as t) (second : Run step guard t bs u) :
    Run step guard s (as ++ bs) u := by
  induction second with
  | nil => simpa using first
  | snoc _ admitted stepped ih =>
    rw [← List.append_assoc]
    exact .snoc ih admitted stepped

theorem Run.cons {a : A} (admitted : guard s a) (stepped : step s a = some t)
    (rest : Run step guard t as u) : Run step guard s (a :: as) u :=
  Run.trans (.snoc .nil admitted stepped) rest

/-- What every admitted step preserves holds at the end of every guarded run. -/
theorem Run.invariant (inv : S → Prop) (run : Run step guard s as t) (initial : inv s)
    (preserved : ∀ s a t, inv s → guard s a → step s a = some t → inv t) : inv t := by
  induction run with
  | nil => exact initial
  | snoc _ admitted stepped ih => exact preserved _ _ _ ih admitted stepped

/-- A run is also one under any guard that an invariant and the old guard imply. -/
theorem Run.reguard {other : S → A → Prop} (inv : S → Prop) (run : Run step guard s as t)
    (initial : inv s) (preserved : ∀ s a t, inv s → guard s a → step s a = some t → inv t)
    (admits : ∀ s a t, inv s → guard s a → step s a = some t → other s a) :
    Run step other s as t := by
  induction run with
  | nil => exact .nil
  | snoc before admitted stepped ih =>
    have held := before.invariant inv initial preserved
    exact .snoc ih (admits _ _ _ held admitted stepped) stepped

theorem Run.traced (inv : List A → S → Prop) (run : Run step guard s as t) (initial : inv [] s)
    (preserved : ∀ as s a t, inv as s → guard s a → step s a = some t → inv (as ++ [a]) t) :
    inv as t := by
  induction run with
  | nil => exact initial
  | snoc _ admitted stepped ih => exact preserved _ _ _ _ ih admitted stepped

def exec (step : S → A → Option S) (guard : S → A → Prop) [∀ s a, Decidable (guard s a)]
    (s : S) : List A → Option S
  | [] => some s
  | a :: as => if guard s a then (step s a).bind fun t => exec step guard t as else none

theorem Run.of_exec [∀ s a, Decidable (guard s a)] (computed : exec step guard s as = some t) :
    Run step guard s as t := by
  induction as generalizing s with
  | nil => cases Option.some.inj computed; exact .nil
  | cons a as ih =>
    rw [exec] at computed
    split at computed
    next admitted =>
      obtain ⟨next,stepped,rest⟩ := Option.bind_eq_some_iff.mp computed
      exact .cons admitted stepped (ih rest)
    next => contradiction

/-- A computed run, together with whatever its last state is checked to satisfy. -/
theorem Run.exists_of_exec [∀ s a, Decidable (guard s a)] {p : S → Prop} [DecidablePred p]
    (checked : (exec step guard s as).any (fun t => decide (p t)) = true) :
    ∃ t, Run step guard s as t ∧ p t := by
  cases computed : exec step guard s as with
  | none => simp [computed] at checked
  | some t => exact ⟨t,.of_exec computed,by simpa [computed] using checked⟩

end Neuro.Lib
