import Mathlib.Algebra.Order.BigOperators.Group.List
import Mathlib.Data.Finset.Lattice.Fold
import Mathlib.Data.Fintype.Basic
import Mathlib.Order.Bounds.Basic

/-! Cutting what lies below an index into consecutive segments. The cost of the last segment may
depend on the least cost of what is before it; where a later start has overtaken an earlier one,
it stays ahead. -/
namespace Neuro.Lib.Segmentation

/-- The segments are consecutive, not empty, and end at the index; each is a start and an end. -/
inductive Cut : ℕ → List (ℕ × ℕ) → Prop
  | start : Cut 0 []
  | segment {i j segments} (before : Cut i segments) (below : i < j) : Cut j (segments ++ [(i,j)])

section Best
variable {K : Type*} [LinearOrder K] (cost : K → ℕ → ℕ → K) (start : K)

/-- The least cost below an index, where `cost m i j` is that of a segmentation of cost `m` which
ends at `i` and of the segment from `i` to `j`. -/
noncomputable def best : ℕ → K
  | 0 => start
  | j + 1 => Finset.univ.inf' Finset.univ_nonempty fun i : Fin (j + 1) => cost (best i) i (j + 1)
termination_by j => j
decreasing_by exact i.isLt

variable {cost start} {i j : ℕ}

theorem best_zero : best cost start 0 = start := by rw [best]

theorem best_le (earlier : i < j) : best cost start j ≤ cost (best cost start i) i j := by
  obtain ⟨j,rfl⟩ := Nat.exists_eq_succ_of_ne_zero (Nat.ne_zero_of_lt earlier)
  rw [best]
  exact Finset.inf'_le (fun k : Fin (j + 1) => cost (best cost start k) k (j + 1))
    (Finset.mem_univ ⟨i,earlier⟩)

theorem exists_best (positive : 0 < j) : ∃ i < j, best cost start j = cost (best cost start i) i j := by
  obtain ⟨j,rfl⟩ := Nat.exists_eq_succ_of_ne_zero positive.ne'
  obtain ⟨i,_,attained⟩ := Finset.exists_mem_eq_inf' (s := Finset.univ) Finset.univ_nonempty
    fun k : Fin (j + 1) => cost (best cost start k) k (j + 1)
  exact ⟨i,i.isLt,by rw [best]; exact attained⟩

theorem best_eq {m : K} (attained : ∃ i < j, m = cost (best cost start i) i j)
    (least : ∀ i < j, m ≤ cost (best cost start i) i j) : best cost start j = m := by
  obtain ⟨i,earlier,rfl⟩ := attained
  obtain ⟨k,before,same⟩ := @exists_best _ _ cost start _ (Nat.zero_lt_of_lt earlier)
  exact le_antisymm (best_le earlier) (same ▸ least k before)

end Best

/-! Costs of which a later start that is as good as an earlier one stays so. -/

section Overtaking
variable {K : Type*} [LinearOrder K]

def Overtaking (c : ℕ → ℕ → K) (n : ℕ) : Prop :=
  ∀ i i' j j', i < i' → i' < j → j < j' → j' ≤ n → c i' j ≤ c i j → c i' j' ≤ c i j'

variable {c : ℕ → ℕ → K} {n i i' j j' : ℕ}

/-- A later start that loses has lost before. -/
theorem Overtaking.lost (overtaking : Overtaking c n) (later : i < i') (inside : i' < j)
    (ordered : j < j') (bound : j' ≤ n) (loses : c i j' < c i' j') : c i j < c i' j :=
  lt_of_not_ge fun ahead =>
    absurd (overtaking i i' j j' later inside ordered bound ahead) (not_le.mpr loses)

theorem Overtaking.lost' (overtaking : Overtaking c n) (later : i < i') (inside : i' < j)
    (ordered : j ≤ j') (bound : j' ≤ n) (loses : c i j' < c i' j') : c i j < c i' j := by
  rcases ordered.eq_or_lt with rfl | ordered
  · exact loses
  · exact overtaking.lost later inside ordered bound loses

end Overtaking

/-! Costs that add up. -/

section Sum
variable {K : Type*} [LinearOrder K] [AddCommMonoid K] (fits : ℕ → ℕ → Prop)
  [DecidableRel fits] (weight : ℕ → ℕ → K) (top : K)

/-- A segment that does not fit costs `top`, however cheap what is before it was. -/
def added (m : K) (i j : ℕ) : K := if fits i j then m + weight i j else top

def total (segments : List (ℕ × ℕ)) : K := (segments.map fun s => weight s.1 s.2).sum

variable {fits weight top} {j : ℕ} {segments : List (ℕ × ℕ)}

theorem best_le_total [IsOrderedAddMonoid K] (cut : Cut j segments)
    (fit : ∀ s ∈ segments, fits s.1 s.2) :
    best (added fits weight top) 0 j ≤ total weight segments := by
  induction cut with
  | start => rw [best_zero,total,List.map_nil,List.sum_nil]
  | @segment i j segments before below ih =>
    have earlier := ih fun s member => fit s (List.mem_append_left _ member)
    have last : fits i j := fit (i,j) (List.mem_append_right _ (List.mem_singleton_self _))
    calc best (added fits weight top) 0 j
        ≤ added fits weight top (best (added fits weight top) 0 i) i j := best_le below
      _ = best (added fits weight top) 0 i + weight i j := if_pos last
      _ ≤ total weight segments + weight i j := by gcongr
      _ = total weight (segments ++ [(i,j)]) := by simp [total]

/-- Going back along starts at which the least costs are attained gives a cheapest cut, if all of
them are below `top`. -/
theorem exists_cut {breaks : ℕ → ℕ}
    (cheap : ∀ i, 0 < i → i ≤ j → best (added fits weight top) 0 i < top)
    (attained : ∀ i, 0 < i → i ≤ j → breaks i < i ∧ best (added fits weight top) 0 i =
      added fits weight top (best (added fits weight top) 0 (breaks i)) (breaks i) i) :
    ∃ segments, Cut j segments ∧ (∀ s ∈ segments, fits s.1 s.2 ∧ s.1 = breaks s.2) ∧
      total weight segments = best (added fits weight top) 0 j := by
  induction j using Nat.strong_induction_on with
  | h j ih =>
    rcases Nat.eq_zero_or_pos j with rfl | positive
    · exact ⟨[],.start,by simp,by rw [best_zero]; rfl⟩
    · obtain ⟨below,same⟩ := attained j positive le_rfl
      obtain ⟨segments,cut,fit,sum⟩ := ih (breaks j) below
        (fun i some bound => cheap i some (bound.trans below.le))
        (fun i some bound => attained i some (bound.trans below.le))
      have last : fits (breaks j) j := by
        by_contra wide
        rw [added,if_neg wide] at same
        exact (cheap j positive le_rfl).ne same
      rw [added,if_pos last] at same
      refine ⟨segments ++ [(breaks j,j)],.segment cut below,?_,?_⟩
      · rintro s member
        rcases List.mem_append.mp member with earlier | new
        · exact fit s earlier
        · rw [List.mem_singleton.mp new]
          exact ⟨last,rfl⟩
      · rw [same,← sum]
        simp [total]

end Sum
end Neuro.Lib.Segmentation
