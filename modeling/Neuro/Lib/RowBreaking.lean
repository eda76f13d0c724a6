import Mathlib.Algebra.Order.BigOperators.Group.List

/-! Greedy row breaking: an item goes into the current row as long as the row does not get
wider than allowed, else it opens the next one. Nothing here depends on what the items are;
an item may be wider than a row. -/
namespace Neuro.Lib.RowBreaking

variable {K : Type*} [AddCommMonoid K] [LinearOrder K]

/-- What the current row holds and how many breaks there have been. -/
structure Row (K : Type*) where
  filled : K
  breaks : Nat
  deriving DecidableEq, Repr

def place (width : K) (row : Row K) (item : K) : Row K :=
  if width < row.filled + item then ⟨item,row.breaks + 1⟩ else ⟨row.filled + item,row.breaks⟩

def fill (width : K) (row : Row K) (items : List K) : Row K := items.foldl (place width) row

def breaks (width : K) (items : List K) : Nat := (fill width ⟨0,0⟩ items).breaks

/-- Fewer breaks, or as many and no more in the current row. -/
def Ahead (wide narrow : Row K) : Prop :=
  wide.breaks < narrow.breaks ∨ wide.breaks = narrow.breaks ∧ wide.filled ≤ narrow.filled

variable [IsOrderedAddMonoid K] {narrow wide : K} {items : List K}

theorem filled_place {width : K} {row : Row K} {item : K} (filled : 0 ≤ row.filled)
    (nonneg : 0 ≤ item) : 0 ≤ (place width row item).filled := by
  unfold place
  split
  · exact nonneg
  · exact add_nonneg filled nonneg

theorem ahead_place (le : narrow ≤ wide) {before after : Row K} {item : K}
    (filled : 0 ≤ after.filled) (ahead : Ahead before after) :
    Ahead (place wide before item) (place narrow after item) := by
  rcases ahead with fewer | ⟨same,less⟩
  · by_cases wider : wide < before.filled + item
    · by_cases broken : narrow < after.filled + item
      · refine .inl ?_
        simp only [place,wider,broken,if_true]
        omega
      · -- the wide run has caught up by a row that holds the new item only
        have alone : item ≤ after.filled + item := le_add_of_nonneg_left filled
        simp only [Ahead,place,wider,broken,if_true,if_false,alone,and_true]
        omega
    · refine .inl ?_
      have kept : after.breaks ≤ (place narrow after item).breaks := by
        unfold place
        split <;> simp
      simp only [place,wider,if_false] at kept ⊢
      omega
  · have less : before.filled + item ≤ after.filled + item := by gcongr
    by_cases broken : narrow < after.filled + item
    · by_cases wider : wide < before.filled + item
      · exact .inr (by simp [place,wider,broken,same])
      · refine .inl ?_
        simp only [place,wider,broken,if_true,if_false,same]
        omega
    · have fits : ¬ wide < before.filled + item :=
        not_lt.mpr ((less.trans (not_lt.mp broken)).trans le)
      exact .inr (by simp [place,fits,broken,same,less])

theorem ahead_fill (le : narrow ≤ wide) (nonneg : ∀ item ∈ items, 0 ≤ item)
    {before after : Row K} (filled : 0 ≤ after.filled) (ahead : Ahead before after) :
    Ahead (fill wide before items) (fill narrow after items) := by
  induction items generalizing before after with
  | nil => exact ahead
  | cons item rest ih =>
    have first : 0 ≤ item := nonneg item List.mem_cons_self
    exact ih (fun later member => nonneg later (List.mem_cons_of_mem _ member))
      (filled_place filled first) (ahead_place le filled ahead)

/-- A wider row never gives more breaks. -/
theorem breaks_anti (le : narrow ≤ wide) (nonneg : ∀ item ∈ items, 0 ≤ item) :
    breaks wide items ≤ breaks narrow items := by
  have ahead : Ahead (fill wide ⟨0,0⟩ items) (fill narrow ⟨0,0⟩ items) :=
    ahead_fill le nonneg le_rfl (.inr ⟨rfl,le_rfl⟩)
  rcases ahead with fewer | ⟨same,_⟩
  · exact fewer.le
  · exact same.le

theorem breaks_fill {width : K} (nonneg : ∀ item ∈ items, 0 ≤ item) {row : Row K}
    (fits : row.filled + items.sum ≤ width) : (fill width row items).breaks = row.breaks := by
  induction items generalizing row with
  | nil => rfl
  | cons item rest ih =>
    have later : ∀ item ∈ rest, 0 ≤ item := fun item member =>
      nonneg item (List.mem_cons_of_mem _ member)
    rw [List.sum_cons,← add_assoc] at fits
    have first : row.filled + item ≤ width :=
      (le_add_of_nonneg_right (List.sum_nonneg later)).trans fits
    have placed : place width row item = ⟨row.filled + item,row.breaks⟩ := if_neg first.not_gt
    change (fill width (place width row item) rest).breaks = row.breaks
    rw [placed]
    exact ih later fits

theorem breaks_eq_zero {width : K} (nonneg : ∀ item ∈ items, 0 ≤ item)
    (fits : items.sum ≤ width) : breaks width items = 0 :=
  breaks_fill nonneg (by simpa using fits)

end Neuro.Lib.RowBreaking
