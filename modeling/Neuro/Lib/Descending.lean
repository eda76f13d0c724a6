import Mathlib.Data.List.Sort
import Mathlib.Order.Basic

/-! Lists in descending order of a key, as a query ordered by that key returns them or a sort
that need not be stable, and the parts that queries on a range of the key return. -/
namespace Neuro.Lib

variable {A K : Type*} [LinearOrder K] (key : A → K)

def Descending (l : List A) : Prop := l.Pairwise fun a b => key b ≤ key a

def above (low : K) (l : List A) : List A := l.filter fun a => low < key a

/-- The elements above one bound and up to another. -/
def band (low high : K) (l : List A) : List A := l.filter fun a => low < key a ∧ key a ≤ high

def below (high : K) (l : List A) : List A := l.filter fun a => key a < high

/-- A permutation of the list in descending order. -/
structure Arranged (arranged l : List A) : Prop where
  perm : arranged.Perm l
  descending : Descending key arranged

structure Sorting where
  sort : List A → List A
  arranged : ∀ l, Arranged key (sort l) l

variable {key} {l : List A} {a : A} {low mid high : K}

instance (l : List A) : Decidable (Descending key l) := inferInstanceAs (Decidable (List.Pairwise _ _))

theorem Arranged.permuted {arranged m : List A} (sorted : Arranged key arranged l)
    (same : l.Perm m) : Arranged key arranged m := ⟨sorted.perm.trans same,sorted.descending⟩

theorem Descending.arranged (sorted : Descending key l) : Arranged key l l := ⟨.refl l,sorted⟩

def Sorting.insertion (key : A → K) : Sorting key where
  sort l := l.insertionSort fun a b => key b ≤ key a
  arranged l := ⟨List.perm_insertionSort _ l,@List.pairwise_insertionSort _ _ _
    ⟨fun a b => le_total (key b) (key a)⟩ ⟨fun _ _ _ first second => second.trans first⟩ l⟩

theorem mem_above : a ∈ above key low l ↔ a ∈ l ∧ low < key a := by
  simp [above]

theorem mem_band : a ∈ band key low high l ↔ a ∈ l ∧ low < key a ∧ key a ≤ high := by
  simp [band]

theorem mem_below : a ∈ below key high l ↔ a ∈ l ∧ key a < high := by
  simp [below]

theorem above_eq_band (bounded : ∀ a ∈ above key low l, key a ≤ high) :
    above key low l = band key low high l := by
  apply List.filter_congr
  intro a member
  simp only [decide_eq_decide]
  constructor
  · exact fun exceeds => ⟨exceeds,bounded a (mem_above.mpr ⟨member,exceeds⟩)⟩
  · exact fun inside => inside.1

theorem band_self : band key low low l = [] := by
  apply List.filter_eq_nil_iff.mpr
  intro a _
  simp

theorem band_orderedInsert (r : A → A → Prop) [DecidableRel r]
    (outside : key a ≤ low ∨ high < key a) :
    band key low high (l.orderedInsert r a) = band key low high l := by
  have skipped (rest : List A) : band key low high (a :: rest) = band key low high rest := by
    apply List.filter_cons_of_neg
    rcases outside with small | large
    · simp [not_lt_of_ge small]
    · simp [not_le_of_gt large]
  induction l with
  | nil => exact skipped []
  | cons b rest ih =>
    rw [List.orderedInsert_cons]
    split
    · exact skipped (b :: rest)
    · rw [band,band,List.filter_cons,List.filter_cons]
      rw [band,band] at ih
      rw [ih]

theorem band_lower {top : K} (within : top ≤ high) (bounded : ∀ a ∈ band key low high l, key a ≤ top) :
    band key low high l = band key low top l := by
  apply List.filter_congr
  intro a member
  simp only [decide_eq_decide]
  constructor
  · exact fun inside => ⟨inside.1,bounded a (mem_band.mpr ⟨member,inside⟩)⟩
  · exact fun inside => ⟨inside.1,inside.2.trans within⟩

theorem Descending.band_append (sorted : Descending key l) (first : low ≤ mid) (second : mid ≤ high) :
    band key mid high l ++ band key low mid l = band key low high l := by
  induction l with
  | nil => rfl
  | cons a rest ih =>
    obtain ⟨smaller,sorted⟩ := List.pairwise_cons.mp sorted
    rcases lt_or_ge mid (key a) with upper | lower
    · have same := ih sorted
      by_cases inside : key a ≤ high
      · simpa [band,upper,inside,not_le_of_gt upper,first.trans_lt upper] using same
      · simpa [band,upper,inside,not_le_of_gt upper,first.trans_lt upper] using same
    · -- from here on everything is in the lower band
      have none : band key mid high (a :: rest) = [] := by
        apply List.filter_eq_nil_iff.mpr
        intro b member
        have bound : key b ≤ mid := by
          rcases List.mem_cons.mp member with rfl | later
          · exact lower
          · exact (smaller b later).trans lower
        simp [not_lt_of_ge bound]
      rw [none,List.nil_append]
      symm
      apply band_lower second
      intro b member
      rcases List.mem_cons.mp (mem_band.mp member).1 with rfl | later
      · exact lower
      · exact (smaller b later).trans lower

theorem head?_above (first : l.head? = some a) (exceeds : low < key a) :
    (above key low l).head? = some a := by
  cases l with
  | nil => contradiction
  | cons b rest =>
    cases Option.some.inj first
    simp [above,exceeds]

theorem Descending.le_head (sorted : Descending key l) (first : l.head? = some a) :
    ∀ b ∈ l, key b ≤ key a := by
  cases l with
  | nil => contradiction
  | cons c rest =>
    cases Option.some.inj first
    intro b member
    rcases List.mem_cons.mp member with rfl | later
    · exact le_rfl
    · exact (List.pairwise_cons.mp sorted).1 b later

/-- Continuing strictly below the last element of a prefix continues right after the
prefix, unless the next element has the same key. -/
theorem Descending.below_eq_drop (sorted : Descending key l) {n : Nat}
    (last : (l.take n).getLast? = some a) (step : ∀ b ∈ l[n]?, key b < key a) :
    below key (key a) l = l.drop n := by
  have split : l = l.take n ++ l.drop n := (List.take_append_drop n l).symm
  have parts := List.pairwise_append.mp (split ▸ sorted)
  have upper : below key (key a) (l.take n) = [] := by
    apply List.filter_eq_nil_iff.mpr
    intro b member
    obtain ⟨before,shape⟩ := List.getLast?_eq_some_iff.mp last
    have bound : key a ≤ key b := by
      rw [shape] at member parts
      rcases List.mem_append.mp member with early | same
      · exact (List.pairwise_append.mp parts.1).2.2 b early a (List.mem_singleton.mpr rfl)
      · rw [List.mem_singleton.mp same]
    simp [not_lt_of_ge bound]
  have lower : below key (key a) (l.drop n) = l.drop n := by
    apply List.filter_eq_self.mpr
    intro b member
    rw [decide_eq_true_eq]
    cases next : l.drop n with
    | nil => simp [next] at member
    | cons c rest =>
      have found : l[n]? = some c := by
        rw [← List.head?_drop,next,List.head?_cons]
      rw [next] at member parts
      rcases List.mem_cons.mp member with rfl | later
      · exact step b found
      · exact ((List.pairwise_cons.mp parts.2.1).1 b later).trans_lt (step c found)
  rw [below] at upper lower ⊢
  conv_lhs => rw [split]
  rw [List.filter_append,upper,lower,List.nil_append]

end Neuro.Lib
