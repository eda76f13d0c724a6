import Mathlib.Algebra.Order.Monoid.Defs
import Mathlib.Algebra.Order.Monoid.Unbundled.Pow
import Mathlib.Order.Bounds.Basic

/-! Searching upwards in steps of one size for a value that fits. A search that never finds one
never ends, so it is given fuel. -/
namespace Neuro.Lib.StepSearch

variable {K : Type*} [AddCommMonoid K] (fits : K → Prop) [DecidablePred fits] (step : K)

def search : Nat → K → Option K
  | 0,_ => none
  | fuel + 1,value => if fits value then some value else search fuel (value + step)

def Steps (start value : K) : Prop := ∃ k : ℕ, value = start + k • step

variable {fits step} {fuel : Nat} {start value : K}

theorem steps_self : Steps step start start := ⟨0,by simp⟩

theorem Steps.next (steps : Steps step (start + step) value) : Steps step start value := by
  obtain ⟨k,rfl⟩ := steps
  exact ⟨k + 1,by rw [succ_nsmul',add_assoc]⟩

theorem Steps.cases (steps : Steps step start value) :
    value = start ∨ Steps step (start + step) value := by
  obtain ⟨k,rfl⟩ := steps
  cases k with
  | zero => exact .inl (by simp)
  | succ k => exact .inr ⟨k,by rw [succ_nsmul',add_assoc]⟩

theorem search_fits (found : search fits step fuel start = some value) :
    Steps step start value ∧ fits value := by
  induction fuel generalizing start with
  | zero => contradiction
  | succ fuel ih =>
    rw [search] at found
    split at found
    next fitting =>
      cases Option.some.inj found
      exact ⟨steps_self,fitting⟩
    next =>
      obtain ⟨steps,fitting⟩ := ih found
      exact ⟨steps.next,fitting⟩

/-- The search ends exactly when there is something to be found. -/
theorem search_ends_iff : (∃ fuel value, search fits step fuel start = some value) ↔
    ∃ k : ℕ, fits (start + k • step) := by
  constructor
  · rintro ⟨fuel,value,found⟩
    obtain ⟨⟨k,rfl⟩,fitting⟩ := search_fits found
    exact ⟨k,fitting⟩
  · rintro ⟨k,fitting⟩
    induction k generalizing start with
    | zero => exact ⟨1,start,by simpa [search] using fitting⟩
    | succ k ih =>
      by_cases now : fits start
      · exact ⟨1,start,by simp [search,now]⟩
      · rw [succ_nsmul',← add_assoc] at fitting
        obtain ⟨fuel,value,found⟩ := ih fitting
        exact ⟨fuel + 1,value,by rw [search,if_neg now,found]⟩

variable [LinearOrder K] [IsOrderedAddMonoid K]

theorem Steps.le (nonneg : 0 ≤ step) (steps : Steps step start value) : start ≤ value := by
  obtain ⟨k,rfl⟩ := steps
  exact le_add_of_nonneg_right (nsmul_nonneg nonneg k)

theorem search_least (nonneg : 0 ≤ step) (found : search fits step fuel start = some value) :
    IsLeast {other | Steps step start other ∧ fits other} value := by
  refine ⟨search_fits found,?_⟩
  induction fuel generalizing start with
  | zero => contradiction
  | succ fuel ih =>
    intro other ⟨steps,fitting⟩
    rw [search] at found
    split at found
    next =>
      cases Option.some.inj found
      exact steps.le nonneg
    next unfit =>
      rcases steps.cases with rfl | later
      · exact absurd fitting unfit
      · exact ih found ⟨later,fitting⟩

end Neuro.Lib.StepSearch
