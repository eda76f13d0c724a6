import Mathlib.Algebra.Order.BigOperators.Group.List
import Mathlib.Algebra.Order.Group.Defs
import Mathlib.Tactic.Abel

/-! Placing items along a line, one after the other with a gap between neighbours. -/
namespace Neuro.Lib.Placement

variable {A K : Type*} [AddCommGroup K] (size : A → K) (gap : K)

/-- Every item with where it starts. -/
def placed (start : K) : List A → List (A × K)
  | [] => []
  | a :: rest => (a,start) :: placed (start + (size a + gap)) rest

/-- How far the items reach, without the gap behind the last one. -/
def extent (items : List A) : K := (items.map fun a => size a + gap).sum - gap

variable {size gap} {start : K} {items : List A}

theorem placed_fst : (placed size gap start items).map Prod.fst = items := by
  induction items generalizing start with
  | nil => rfl
  | cons a rest ih => rw [placed,List.map_cons,ih]

theorem item_of_mem {p : A × K} (member : p ∈ placed size gap start items) : p.1 ∈ items := by
  have listed : p.1 ∈ (placed size gap start items).map Prod.fst := List.mem_map_of_mem member
  rwa [placed_fst] at listed

theorem extent_cons (a : A) : extent size gap (a :: items) = size a + gap + extent size gap items := by
  rw [extent,extent,List.map_cons,List.sum_cons,add_sub_assoc]

theorem extent_singleton (a : A) : extent size gap [a] = size a := by
  rw [extent,List.map_singleton,List.sum_singleton,add_sub_cancel_right]

theorem extent_append (first rest : List A) :
    extent size gap (first ++ rest) = extent size gap first + gap + extent size gap rest := by
  rw [extent,extent,extent,List.map_append,List.sum_append]
  abel

/-- The gaps are as many as there are neighbours. -/
theorem extent_eq (items : List A) :
    extent size gap items = (items.map size).sum + ((items.length : ℤ) - 1) • gap := by
  induction items with
  | nil => simp [extent]
  | cons a rest ih =>
    rw [extent_cons,ih,List.map_cons,List.sum_cons,List.length_cons,Nat.cast_succ,
      add_sub_right_comm,add_zsmul,one_zsmul]
    abel

theorem extent_map {B : Type*} (f : A → B) (size : B → K) (gap : K) (items : List A) :
    extent size gap (items.map f) = extent (fun a => size (f a)) gap items := by
  rw [extent,extent,List.map_map]
  rfl

theorem extent_congr {other : A → K} (same : ∀ a ∈ items, size a = other a) :
    extent size gap items = extent other gap items := by
  rw [extent,extent,List.map_congr_left fun a member => by rw [same a member]]

variable (size gap) in
/-- Each item but the first starts a gap behind the end of the one before. -/
theorem chain_placed : (placed size gap start items).IsChain
    fun p q => q.2 = p.2 + size p.1 + gap := by
  induction items generalizing start with
  | nil => exact .nil
  | cons a rest ih =>
    cases rest with
    | nil => exact .singleton _
    | cons b rest =>
      refine .cons_cons ?_ ih
      exact (add_assoc _ _ _).symm

variable (size gap start) in
theorem exists_first (some : items ≠ []) : ∃ p ∈ placed size gap start items, p.2 = start := by
  obtain ⟨a,rest,rfl⟩ := List.exists_cons_of_ne_nil some
  exact ⟨_,List.mem_cons_self,rfl⟩

variable (size gap start) in
theorem exists_last (some : items ≠ []) :
    ∃ p ∈ placed size gap start items, p.2 + size p.1 = start + extent size gap items := by
  induction items generalizing start with
  | nil => contradiction
  | cons a rest ih =>
    cases rest with
    | nil => exact ⟨(a,start),List.mem_cons_self,by rw [extent_singleton]⟩
    | cons b rest =>
      obtain ⟨p,inside,last⟩ := ih (start + (size a + gap)) (List.cons_ne_nil b rest)
      refine ⟨p,List.mem_cons_of_mem _ inside,?_⟩
      rw [last,extent_cons a,add_assoc]

section Ordered
variable [LinearOrder K] [IsOrderedAddMonoid K]

theorem start_le {p : A × K} (nonneg : ∀ a ∈ items, 0 ≤ size a + gap)
    (member : p ∈ placed size gap start items) : start ≤ p.2 := by
  induction items generalizing start with
  | nil => contradiction
  | cons a rest ih =>
    obtain ⟨first,later⟩ := List.forall_mem_cons.mp nonneg
    rcases List.mem_cons.mp member with rfl | inside
    · exact le_rfl
    · exact (le_add_of_nonneg_right first).trans (ih later inside)

theorem pairwise_placed (nonneg : ∀ a ∈ items, 0 ≤ size a + gap) :
    (placed size gap start items).Pairwise fun p q => p.2 + size p.1 + gap ≤ q.2 := by
  induction items generalizing start with
  | nil => exact .nil
  | cons a rest ih =>
    obtain ⟨_,later⟩ := List.forall_mem_cons.mp nonneg
    refine .cons (fun q inside => ?_) (ih later)
    exact (add_assoc _ _ _).trans_le (start_le later inside)

/-- No item reaches beyond the extent of all. -/
theorem end_le {p : A × K} (nonneg : ∀ a ∈ items, 0 ≤ size a + gap)
    (member : p ∈ placed size gap start items) :
    p.2 + size p.1 ≤ start + extent size gap items := by
  induction items generalizing start with
  | nil => contradiction
  | cons a rest ih =>
    obtain ⟨first,later⟩ := List.forall_mem_cons.mp nonneg
    rcases List.mem_cons.mp member with rfl | inside
    · have behind : 0 ≤ (rest.map fun a => size a + gap).sum := List.sum_nonneg (by simpa using later)
      have reach : extent size gap (a :: rest) = size a + (rest.map fun a => size a + gap).sum := by
        rw [extent,List.map_cons,List.sum_cons]
        abel
      rw [reach,← add_assoc]
      exact le_add_of_nonneg_right behind
    · rw [extent_cons,← add_assoc]
      exact ih later inside

end Ordered

end Neuro.Lib.Placement
