import Neuro.Lib.RowBreaking

/-! Wrapping items into runs with a space between neighbours: the next item opens a new run when
it does not fit beside the ones before it. No other way of breaking the items into rows needs
fewer. An item may be wider than a run. -/
namespace Neuro.Lib.Wrapping

variable {K : Type*} [AddCommMonoid K] [LinearOrder K]

def beside (spacing : K) (extent item : K) : K := extent + spacing + item

/-- How often a new run is opened after one that extends so far. -/
def further (spacing width : K) : K → List K → Nat
  | _,[] => 0
  | extent,item :: rest =>
    if width < beside spacing extent item then further spacing width item rest + 1
    else further spacing width (beside spacing extent item) rest

def runs (spacing width : K) : List K → Nat
  | [] => 0
  | item :: rest => further spacing width item rest + 1

/-- The row has one item at most, or is no wider than a run. -/
def Fits (spacing width : K) : List K → Prop
  | [] => True
  | item :: rest => rest = [] ∨ rest.foldl (beside spacing) item ≤ width

/-- There is a way of breaking the items into so many rows. -/
def InRows (spacing width : K) (n : Nat) (items : List K) : Prop :=
  ∃ rows : List (List K), rows.flatten = items ∧ rows.length ≤ n ∧
    ∀ row ∈ rows, Fits spacing width row

variable {spacing gap width extent other : K} {item : K} {items others : List K} {n : Nat}

theorem breaks_eq_further : RowBreaking.breaks width items = further 0 width 0 items := by
  have loop (row : RowBreaking.Row K) : (RowBreaking.fill width row items).breaks =
      row.breaks + further 0 width row.filled items := by
    induction items generalizing row with
    | nil => rfl
    | cons item rest ih =>
      rw [RowBreaking.fill,List.foldl_cons,← RowBreaking.fill,ih,RowBreaking.place,further,beside,
        add_zero]
      split
      · exact add_right_comm _ _ _
      · rfl
  exact (loop ⟨0,0⟩).trans (Nat.zero_add _)

/-- The loop that counts the breaks starts in a row that is there already, with nothing in it. -/
theorem runs_zero : runs 0 width (0 :: items) = RowBreaking.breaks width items + 1 := by
  rw [breaks_eq_further]
  rfl

theorem rows_of_further (spacing width extent : K) (items : List K) :
    ∃ (first : List K) (rows : List (List K)), items = first ++ rows.flatten ∧
    rows.length = further spacing width extent items ∧
    (first = [] ∨ first.foldl (beside spacing) extent ≤ width) ∧
    ∀ row ∈ rows, Fits spacing width row := by
  induction items generalizing extent with
  | nil => exact ⟨[],[],by simp [further]⟩
  | cons item rest ih =>
    rw [further]
    split
    next =>
      obtain ⟨first,rows,rfl,count,fits,others⟩ := ih item
      refine ⟨[],(item :: first) :: rows,by simp,by simp [count],.inl rfl,?_⟩
      exact List.forall_mem_cons.mpr ⟨fits,others⟩
    next wide =>
      obtain ⟨first,rows,rfl,count,fits,others⟩ := ih (beside spacing extent item)
      refine ⟨item :: first,rows,by simp,count,.inr ?_,others⟩
      rcases fits with rfl | fits
      · exact not_lt.mp wide
      · exact fits

theorem InRows.mono {narrow wide : K} (le : narrow ≤ wide) (rows : InRows spacing narrow n items) :
    InRows spacing wide n items := by
  obtain ⟨rows,whole,few,fits⟩ := rows
  refine ⟨rows,whole,few,fun row member => ?_⟩
  have fit := fits row member
  cases row with
  | nil => trivial
  | cons item rest => exact fit.imp_right fun within => within.trans le

section Ordered
variable [IsOrderedAddMonoid K]

theorem beside_mono {low high : K} (le : low ≤ high) :
    beside spacing low item ≤ beside spacing high item := by
  unfold beside
  gcongr

variable (space : 0 ≤ spacing)
include space

theorem le_beside (nonneg : 0 ≤ extent) : item ≤ beside spacing extent item :=
  le_add_of_nonneg_left (add_nonneg nonneg space)

theorem extent_le (nonneg : 0 ≤ item) : extent ≤ beside spacing extent item := by
  unfold beside
  rw [add_assoc]
  exact le_add_of_nonneg_right (add_nonneg space nonneg)

/-- A run that is less full opens no more runs, and one that is fuller opens one more at most. -/
theorem further_near (nonneg : ∀ item ∈ items, 0 ≤ item) :
    (∀ low high, low ≤ high → further spacing width low items ≤ further spacing width high items) ∧
      ∀ full empty, 0 ≤ empty →
        further spacing width full items ≤ further spacing width empty items + 1 := by
  induction items with
  | nil => simp [further]
  | cons item rest ih =>
    obtain ⟨first,later⟩ := List.forall_mem_cons.mp nonneg
    obtain ⟨less,near⟩ := ih later
    constructor
    · intro low high le
      have apart : beside spacing low item ≤ beside spacing high item := beside_mono le
      simp only [further]
      split
      next broken => rw [if_pos (broken.trans_le apart)]
      next =>
        split
        · exact near _ item first
        · exact less _ _ apart
    · intro full empty filled
      simp only [further]
      split <;> split
      · omega
      · exact Nat.succ_le_succ (less _ _ (le_beside space filled))
      · exact (near _ item first).trans (Nat.le_succ _)
      · exact near _ _ (filled.trans (extent_le space first))

theorem le_foldl {first : List K} (nonneg : ∀ item ∈ first, 0 ≤ item) :
    extent ≤ first.foldl (beside spacing) extent := by
  induction first generalizing extent with
  | nil => exact le_rfl
  | cons item rest ih =>
    obtain ⟨here,later⟩ := List.forall_mem_cons.mp nonneg
    exact (extent_le space here).trans (ih later)

theorem further_append {first : List K} (nonneg : ∀ item ∈ first, 0 ≤ item)
    (fits : first = [] ∨ first.foldl (beside spacing) extent ≤ width) :
    further spacing width extent (first ++ items) =
      further spacing width (first.foldl (beside spacing) extent) items := by
  induction first generalizing extent with
  | nil => rfl
  | cons item rest ih =>
    obtain ⟨_,later⟩ := List.forall_mem_cons.mp nonneg
    have fits := fits.resolve_left (List.cons_ne_nil _ _)
    have enough : beside spacing extent item ≤ width := (le_foldl space later).trans fits
    rw [List.cons_append,further,if_neg (not_lt.mpr enough)]
    exact ih later (.inr fits)

theorem further_rows {rows : List (List K)} (nonneg : ∀ row ∈ rows, ∀ item ∈ row, 0 ≤ item)
    (fits : ∀ row ∈ rows, Fits spacing width row) :
    further spacing width extent rows.flatten ≤ rows.length := by
  induction rows generalizing extent with
  | nil => exact le_rfl
  | cons row rows ih =>
    obtain ⟨here,later⟩ := List.forall_mem_cons.mp nonneg
    obtain ⟨fit,others⟩ := List.forall_mem_cons.mp fits
    cases row with
    | nil => exact (ih later others).trans (Nat.le_succ _)
    | cons item rest =>
      obtain ⟨first,beyond⟩ := List.forall_mem_cons.mp here
      have all : ∀ next ∈ rest ++ rows.flatten, 0 ≤ next := by
        intro next member
        rcases List.mem_append.mp member with near | far
        · exact beyond next near
        · obtain ⟨row,inside,member⟩ := List.mem_flatten.mp far
          exact later row inside next member
      have opened : further spacing width extent ((item :: rest) ++ rows.flatten) ≤
          further spacing width item (rest ++ rows.flatten) + 1 := by
        rw [List.cons_append,further]
        split
        · exact le_rfl
        · exact (further_near space all).2 _ item first
      calc further spacing width extent ((item :: rest) :: rows).flatten
          ≤ further spacing width item (rest ++ rows.flatten) + 1 := opened
        _ = further spacing width (rest.foldl (beside spacing) item) rows.flatten + 1 := by
            rw [further_append space beyond fit]
        _ ≤ rows.length + 1 := Nat.succ_le_succ (ih later others)

theorem runs_rows {rows : List (List K)} (nonneg : ∀ row ∈ rows, ∀ item ∈ row, 0 ≤ item)
    (fits : ∀ row ∈ rows, Fits spacing width row) :
    runs spacing width rows.flatten ≤ rows.length := by
  induction rows with
  | nil => exact le_rfl
  | cons row rows ih =>
    obtain ⟨here,later⟩ := List.forall_mem_cons.mp nonneg
    obtain ⟨fit,others⟩ := List.forall_mem_cons.mp fits
    cases row with
    | nil => exact (ih later others).trans (Nat.le_succ _)
    | cons item rest =>
      obtain ⟨_,beyond⟩ := List.forall_mem_cons.mp here
      rw [List.flatten_cons,List.cons_append,runs,further_append space beyond fit]
      exact Nat.succ_le_succ (further_rows space later others)

/-- So many runs are enough exactly when the items can be broken into so many rows at all. -/
theorem runs_le_iff (nonneg : ∀ item ∈ items, 0 ≤ item) :
    runs spacing width items ≤ n ↔ InRows spacing width n items := by
  constructor
  · intro few
    cases items with
    | nil => exact ⟨[],rfl,Nat.zero_le n,by simp⟩
    | cons item rest =>
      obtain ⟨first,rows,rfl,count,fits,others⟩ := rows_of_further spacing width item rest
      refine ⟨(item :: first) :: rows,by simp,?_,List.forall_mem_cons.mpr ⟨fits,others⟩⟩
      rw [List.length_cons,count]
      exact few
  · rintro ⟨rows,rfl,few,fits⟩
    have inside : ∀ row ∈ rows, ∀ item ∈ row, 0 ≤ item := fun row member item inside =>
      nonneg item (List.mem_flatten.mpr ⟨row,member,inside⟩)
    exact (runs_rows space inside fits).trans few

/-- Items that are narrower than others, with their spaces too, open no more runs. -/
theorem further_le_further (nonneg : ∀ item ∈ items, 0 ≤ item)
    (narrower : List.Forall₂ (fun item other => item ≤ other ∧ spacing + item ≤ gap + other)
      items others) (le : extent ≤ other) :
    further spacing width extent items ≤ further gap width other others := by
  induction narrower generalizing extent other with
  | nil => exact le_rfl
  | @cons item wider rest others pair _ ih =>
    obtain ⟨first,later⟩ := List.forall_mem_cons.mp nonneg
    have apart : beside spacing extent item ≤ beside gap other wider := by
      unfold beside
      rw [add_assoc,add_assoc]
      exact add_le_add le pair.2
    simp only [further]
    split
    next broken =>
      rw [if_pos (broken.trans_le apart)]
      exact Nat.succ_le_succ (ih later pair.1)
    next =>
      split
      · exact ((further_near space later).2 _ item first).trans
          (Nat.succ_le_succ (ih later pair.1))
      · exact ih later apart

theorem runs_le_breaks (nonneg : ∀ item ∈ items, 0 ≤ item)
    (narrower : List.Forall₂ (fun item other => item ≤ other ∧ spacing + item ≤ other) items others) :
    runs spacing width items ≤ RowBreaking.breaks width others + 1 := by
  rw [breaks_eq_further]
  cases narrower with
  | nil => exact Nat.zero_le _
  | @cons item wider rest others pair narrower =>
    obtain ⟨_,later⟩ := List.forall_mem_cons.mp nonneg
    have narrower : List.Forall₂ (fun item other => item ≤ other ∧ spacing + item ≤ 0 + other)
        rest others := by simpa using narrower
    refine Nat.succ_le_succ ?_
    rw [further]
    split
    · exact (further_le_further space later narrower pair.1).trans (Nat.le_succ _)
    · exact further_le_further space later narrower (by simpa [beside] using pair.1)

end Ordered

end Neuro.Lib.Wrapping
