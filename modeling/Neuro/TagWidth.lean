import Mathlib.Data.NNRat.Defs
import Mathlib.Data.Rat.Floor
import Mathlib.Order.Bounds.Basic
import Neuro.Lib.RowBreaking

/-! The tag lists of `HashTagController` and `ProfileController`: a delivered list is marked
with the selected tags, and the width of its box is widened until it has at most three rows.
`textWidth` stands for the width that `Helper.textSize` measures in the one style of the
tags. -/
namespace Neuro.TagWidth
open Neuro.Lib RowBreaking

structure HashTag where
  id : String
  name : String
  isSelected : Bool := false
  deriving DecidableEq, Repr

structure HashTagController where
  listHash : List HashTag := []
  widthCustom : ℚ := 0
  deriving DecidableEq, Repr

structure ProfileController where
  listHash : List HashTag := []
  widthCustom : ℚ := 0
  deriving DecidableEq, Repr

section Measured
variable (toUpperCase : String → String) (textWidth : String → ℚ≥0)

def tagWidth (element : HashTag) : ℚ := 24 + textWidth (toUpperCase element.name) + 24 + 14

/-- The loop of `getNewWidth3`: how often it starts a new row. -/
def row (value : List HashTag) (newWidthCustom : ℚ) : Nat :=
  breaks newWidthCustom (value.map (tagWidth toUpperCase textWidth))

def total (value : List HashTag) : ℚ := (value.map (tagWidth toUpperCase textWidth)).sum

variable {toUpperCase textWidth} {value : List HashTag}

theorem tagWidth_nonneg (element : HashTag) : 0 ≤ tagWidth toUpperCase textWidth element := by
  have measured : (0 : ℚ) ≤ textWidth (toUpperCase element.name) := NNRat.cast_nonneg _
  unfold tagWidth
  linarith

theorem widths_nonneg (value : List HashTag) :
    ∀ width ∈ value.map (tagWidth toUpperCase textWidth), 0 ≤ width := by
  intro width member
  obtain ⟨element,_,rfl⟩ := List.mem_map.mp member
  exact tagWidth_nonneg element

theorem row_anti {narrow wide : ℚ} (le : narrow ≤ wide) :
    row toUpperCase textWidth value wide ≤ row toUpperCase textWidth value narrow :=
  breaks_anti le (widths_nonneg value)

theorem lt_total {width : ℚ} (rows : 3 ≤ row toUpperCase textWidth value width) :
    width < total toUpperCase textWidth value := by
  by_contra fits
  have single : row toUpperCase textWidth value width = 0 :=
    breaks_eq_zero (widths_nonneg value) (not_lt.mp fits)
  omega

variable (toUpperCase textWidth)

/-- The steps of two that are at most left to the width of all tags. -/
def remaining (value : List HashTag) (width : ℚ) : Nat :=
  ⌈(total toUpperCase textWidth value - width) / 2⌉₊

theorem remaining_lt {width : ℚ} (rows : 3 ≤ row toUpperCase textWidth value width) :
    remaining toUpperCase textWidth value (width + 2) <
      remaining toUpperCase textWidth value width := by
  have short := lt_total rows
  have positive : 0 < (total toUpperCase textWidth value - width) / 2 := by linarith
  have stepped : (total toUpperCase textWidth value - (width + 2)) / 2 =
      (total toUpperCase textWidth value - width) / 2 - 1 := by ring
  have counted : 0 < remaining toUpperCase textWidth value width := Nat.ceil_pos.mpr positive
  unfold remaining at counted ⊢
  rw [stepped,Nat.ceil_sub_one]
  omega

/-- The width both copies of `getNewWidth3` end with. -/
def newWidth3 (value : List HashTag) (newWidthCustom : ℚ) : ℚ :=
  if 3 ≤ row toUpperCase textWidth value newWidthCustom then
    newWidth3 value (newWidthCustom + 2)
  else newWidthCustom
  termination_by remaining toUpperCase textWidth value newWidthCustom
  decreasing_by exact remaining_lt _ _ ‹_›

def HashTagController.getNewWidth3 (s : HashTagController) (value : List HashTag)
    (newWidthCustom : ℚ) : HashTagController :=
  {s with widthCustom := newWidth3 toUpperCase textWidth value newWidthCustom}

def ProfileController.getNewWidth3 (s : ProfileController) (value : List HashTag)
    (newWidthCustom : ℚ) : ProfileController :=
  {s with widthCustom := newWidth3 toUpperCase textWidth value newWidthCustom}

/-- A width in steps of two from `start` at which the box has at most three rows. -/
def Fits (value : List HashTag) (start width : ℚ) : Prop :=
  (∃ k : ℕ, width = start + 2 * k) ∧ row toUpperCase textWidth value width < 3

theorem newWidth3_least (value : List HashTag) (start : ℚ) :
    IsLeast {width | Fits toUpperCase textWidth value start width}
      (newWidth3 toUpperCase textWidth value start) := by
  induction start using newWidth3.induct toUpperCase textWidth value with
  | case1 start rows ih =>
    obtain ⟨⟨⟨k,reached⟩,few⟩,least⟩ := ih
    rw [newWidth3,if_pos rows]
    refine ⟨⟨⟨k + 1,?_⟩,few⟩,?_⟩
    · rw [reached]
      push_cast
      ring
    · intro width ⟨⟨j,at_step⟩,fits⟩
      cases j with
      | zero =>
        -- the first width is the one that has just been tried
        rw [at_step] at fits
        norm_num at fits
        omega
      | succ j =>
        refine least ⟨⟨j,?_⟩,fits⟩
        rw [at_step]
        push_cast
        ring
  | case2 start rows =>
    rw [newWidth3,if_neg rows]
    refine ⟨⟨⟨0,by norm_num⟩,not_le.mp rows⟩,?_⟩
    intro width ⟨⟨j,at_step⟩,_⟩
    have steps : (0 : ℚ) ≤ j := Nat.cast_nonneg j
    rw [at_step]
    linarith

/-- Each copy of `getNewWidth3` sets the least width in steps of two at which its loop counts
fewer than three breaks, and no wider box has more rows. -/
theorem getNewWidth3_least (s : HashTagController) (p : ProfileController)
    (value : List HashTag) (start : ℚ) :
    IsLeast {width | Fits toUpperCase textWidth value start width}
        (s.getNewWidth3 toUpperCase textWidth value start).widthCustom ∧
      (∀ wider, (s.getNewWidth3 toUpperCase textWidth value start).widthCustom ≤ wider →
        row toUpperCase textWidth value wider < 3) ∧
      (p.getNewWidth3 toUpperCase textWidth value start).widthCustom =
        (s.getNewWidth3 toUpperCase textWidth value start).widthCustom := by
  have least := newWidth3_least toUpperCase textWidth value start
  refine ⟨least,?_,rfl⟩
  intro wider le
  have rows : row toUpperCase textWidth value wider ≤ _ := row_anti le
  exact rows.trans_lt least.1.2

/-! Where the search starts: an eighth of the width of all tags, measured as one text. -/

def startWidth (value : List HashTag) : ℚ :=
  (textWidth (toUpperCase (String.join (value.map HashTag.name))) + value.length * 62) / 8

def marked (selects : HashTag → Bool) (value : List HashTag) : List HashTag :=
  value.map fun element => if selects element then {element with isSelected := true} else element

/-- With what the repository has delivered. -/
def HashTagController.getHashTagList3 (s : HashTagController) (split : List String)
    (value : List HashTag) : HashTagController :=
  HashTagController.getNewWidth3 toUpperCase textWidth
    {s with listHash := marked (fun element => element.id ∈ split) value} value
    (startWidth toUpperCase textWidth value)

def ProfileController.getHashTagList3 (s : ProfileController) (split : List String)
    (value : List HashTag) : ProfileController :=
  ProfileController.getNewWidth3 toUpperCase textWidth
    {s with listHash := marked (fun element => element.name ∈ split) value} value
    (startWidth toUpperCase textWidth value)

end Measured

end Neuro.TagWidth
