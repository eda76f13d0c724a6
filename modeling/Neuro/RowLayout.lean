import Mathlib
import Neuro.WrapLayout

/-! Children in one row. They share what is left beside the distances, which may be negative, as
where two pictures overlap. Distances are exact numbers. -/
namespace Neuro.RowLayout
open Neuro.Lib Placement
open WrapLayout (Size BoxConstraints Child box screen)

inductive Item
  | child (widget : Child)
  | spacer

def Item.maxIntrinsicWidth : Item → ℚ
  | .child widget => widget.maxIntrinsicWidth
  | .spacer => 0

def Item.isSpacer : Item → Bool
  | .child _ => false
  | .spacer => true

inductive MainAxisSize
  | min
  | max
  deriving DecidableEq, Repr

structure RowSuper where
  outerDistance : ℚ := 0
  innerDistance : ℚ := 0
  alignmentX : ℚ := 0
  alignmentY : ℚ := 0
  mainAxisSize : MainAxisSize := .min
  fill : Bool := false
  children : List Item := []

/-- A child with its size, and where it is. -/
structure Cell where
  size : Size
  spacer : Bool
  x : ℚ := 0
  y : ℚ := 0
  deriving DecidableEq, Repr

/-- `reach` is `dx` at the end. -/
structure Layout where
  cells : List Cell
  reach : ℚ
  size : Size
  deriving DecidableEq, Repr

namespace RowSuper
variable (w : RowSuper) (constraints : BoxConstraints)

def distances : ℚ := w.outerDistance * 2 + w.innerDistance * ((w.children.length : ℚ) - 1)

def availableWidth : ℚ := max 0 (constraints.maxWidth - w.outerDistance * 2 -
  w.innerDistance * ((w.children.length : ℚ) - 1))

def totalChildrenWidth : ℚ := (w.children.map Item.maxIntrinsicWidth).sum

def numberOfSpacers : ℕ := w.children.countP Item.isSpacer

def spacerWidth : ℚ := if w.availableWidth constraints ≤ w.totalChildrenWidth then 0
  else (w.availableWidth constraints - w.totalChildrenWidth) / w.numberOfSpacers

/-- Zero by zero counts as one; what children without a width would have to grow by is no number. -/
def scale : Option ℚ :=
  if w.totalChildrenWidth = 0 then
    if w.fill ∧ 0 < w.availableWidth constraints then none else some 1
  else some (if w.fill then w.availableWidth constraints / w.totalChildrenWidth
    else min 1 (w.availableWidth constraints / w.totalChildrenWidth))

def cell (scale : ℚ) : Item → Cell
  | .child widget =>
    let width := widget.maxIntrinsicWidth * scale
    ⟨widget.layout (if w.fill then width else 0) width,false,0,0⟩
  | .spacer => ⟨⟨0,0⟩,true,0,0⟩

def maxChildHeight (cells : List Cell) : ℚ :=
  let height := cells.foldl (fun height cell => max height cell.size.height) 0
  max (constraints.maxHeight.elim height (min height)) constraints.minHeight

def alignmentDisplacement : ℚ :=
  if w.numberOfSpacers = 0 ∧ w.totalChildrenWidth < w.availableWidth constraints ∧
      w.mainAxisSize = .max ∧ w.fill = false then
    (w.availableWidth constraints - w.totalChildrenWidth) * ((w.alignmentX + 1) / 2)
  else 0

def dy (cell : Cell) (maxChildHeight : ℚ) : ℚ :=
  (maxChildHeight - cell.size.height) / 2 + w.alignmentY * ((maxChildHeight - cell.size.height) / 2)

/-- What `dx` grows by at a child, but for the distance to the next. -/
def taken (cell : Cell) : ℚ :=
  cell.size.width + if cell.spacer then w.spacerWidth constraints else 0

def performLayout : Option Layout :=
  if w.children = [] then some ⟨[],0,constraints.constrain ⟨0,0⟩⟩
  else (w.scale constraints).map fun scale =>
    let cells := w.children.map (w.cell scale)
    let maxChildHeight := maxChildHeight constraints cells
    let start := w.outerDistance + w.alignmentDisplacement constraints
    let reach := start + extent (w.taken constraints) w.innerDistance cells + w.outerDistance
    {
      cells := (placed (w.taken constraints) w.innerDistance start cells).map fun p =>
        {p.1 with x := p.2, y := w.dy p.1 maxChildHeight}
      reach := reach
      size := constraints.constrain ⟨match w.mainAxisSize with
        | .min => reach
        | .max => constraints.maxWidth,maxChildHeight⟩}

end RowSuper

/-- Each cell is right behind the one before, at the inner distance, with the width of the spacer
in between if that is one. -/
def Spaced (w : RowSuper) (constraints : BoxConstraints) (l : Layout) : Prop :=
  l.cells.IsChain fun p q => q.x = p.x + w.taken constraints p + w.innerDistance

/-- Where the row ends when it has to be filled. -/
def filledReach (w : RowSuper) (constraints : BoxConstraints) : ℚ :=
  constraints.maxWidth +
    if 0 < w.numberOfSpacers ∧ w.totalChildrenWidth < w.availableWidth constraints then
      w.availableWidth constraints - w.totalChildrenWidth
    else 0

section Row
variable {w : RowSuper} {constraints : BoxConstraints} {scale : ℚ} {l : Layout}

theorem maxIntrinsicWidth_nonneg : ∀ item : Item, 0 ≤ item.maxIntrinsicWidth
  | .child widget => widget.intrinsic
  | .spacer => le_rfl

theorem total_nonneg (w : RowSuper) : 0 ≤ w.totalChildrenWidth := by
  refine List.sum_nonneg fun width member => ?_
  obtain ⟨item,_,rfl⟩ := List.mem_map.mp member
  exact maxIntrinsicWidth_nonneg item

/-- No child gets wider than its part, and each just as wide when the row is to be filled. -/
theorem cell_width (nonneg : 0 ≤ scale) (item : Item) :
    (w.cell scale item).size.width ≤ item.maxIntrinsicWidth * scale ∧
      (w.fill = true → (w.cell scale item).size.width = item.maxIntrinsicWidth * scale) := by
  cases item with
  | spacer => simp [RowSuper.cell,Item.maxIntrinsicWidth]
  | child widget =>
    have width : 0 ≤ widget.maxIntrinsicWidth * scale := mul_nonneg widget.intrinsic nonneg
    have least : 0 ≤ if w.fill then widget.maxIntrinsicWidth * scale else 0 := by
      split
      · exact width
      · exact le_rfl
    have ordered : (if w.fill then widget.maxIntrinsicWidth * scale else 0) ≤
        widget.maxIntrinsicWidth * scale := by
      split
      · exact le_rfl
      · exact width
    obtain ⟨lower,upper⟩ := widget.within _ _ least ordered
    refine ⟨upper,fun fill => le_antisymm upper ?_⟩
    rw [fill] at lower
    rw [RowSuper.cell,fill]
    exact lower

theorem widths_sum (nonneg : 0 ≤ scale) :
    ((w.children.map (w.cell scale)).map fun cell => cell.size.width).sum ≤
        w.totalChildrenWidth * scale ∧
      (w.fill = true → ((w.children.map (w.cell scale)).map fun cell => cell.size.width).sum =
        w.totalChildrenWidth * scale) := by
  rw [RowSuper.totalChildrenWidth,← List.sum_map_mul_right,List.map_map]
  constructor
  · exact List.sum_le_sum fun item _ => (cell_width nonneg item).1
  · intro fill
    exact congrArg List.sum (List.map_congr_left fun item _ => (cell_width nonneg item).2 fill)

theorem taken_sum (cells : List Cell) : (cells.map (w.taken constraints)).sum =
    (cells.map fun cell => cell.size.width).sum +
      cells.countP Cell.spacer * w.spacerWidth constraints := by
  induction cells with
  | nil => simp
  | cons cell rest ih =>
    rw [List.map_cons,List.sum_cons,ih,List.map_cons,List.sum_cons,RowSuper.taken,List.countP_cons]
    cases cell.spacer <;> simp <;> ring

theorem spacers_eq : (w.children.map (w.cell scale)).countP Cell.spacer = w.numberOfSpacers := by
  rw [List.countP_map,RowSuper.numberOfSpacers]
  refine List.countP_congr fun item _ => ?_
  cases item <;> simp [RowSuper.cell,Item.isSpacer]

/-- The spacers share what the children leave. -/
theorem spacers_sum : (w.numberOfSpacers : ℚ) * w.spacerWidth constraints =
    if 0 < w.numberOfSpacers ∧ w.totalChildrenWidth < w.availableWidth constraints then
      w.availableWidth constraints - w.totalChildrenWidth else 0 := by
  rw [RowSuper.spacerWidth]
  rcases Nat.eq_zero_or_pos w.numberOfSpacers with none | some
  · simp [none]
  · have number : (w.numberOfSpacers : ℚ) ≠ 0 := by exact_mod_cast some.ne'
    by_cases wide : w.availableWidth constraints ≤ w.totalChildrenWidth
    · simp [wide,not_lt.mpr wide]
    · simp [wide,some,not_le.mp wide,mul_div_cancel₀ _ number]

theorem scale_nonneg (scaled : w.scale constraints = some scale) : 0 ≤ scale := by
  have total := total_nonneg w
  have room : 0 ≤ w.availableWidth constraints := le_max_left ..
  unfold RowSuper.scale at scaled
  split at scaled
  · split at scaled
    · contradiction
    · exact Option.some.inj scaled ▸ zero_le_one
  · rw [← Option.some.inj scaled]
    split
    · exact div_nonneg room total
    · exact le_min zero_le_one (div_nonneg room total)

/-- Together the parts are no wider than what there is, nor than the children are on their own,
and they are all there is when the row is to be filled. -/
theorem parts (scaled : w.scale constraints = some scale) :
    w.totalChildrenWidth * scale ≤ w.availableWidth constraints ∧
      (w.fill = false → w.totalChildrenWidth * scale ≤ w.totalChildrenWidth) ∧
      (w.fill = true → w.totalChildrenWidth * scale = w.availableWidth constraints) := by
  have total := total_nonneg w
  have room : 0 ≤ w.availableWidth constraints := le_max_left ..
  unfold RowSuper.scale at scaled
  split at scaled
  next none =>
    rw [none,zero_mul]
    refine ⟨room,fun _ => le_rfl,fun fill => ?_⟩
    split at scaled
    next => contradiction
    next tight =>
      have tight : ¬ 0 < w.availableWidth constraints := fun wide => tight ⟨fill,wide⟩
      exact le_antisymm room (not_lt.mp tight)
  next some =>
    rw [← Option.some.inj scaled]
    cases fill : w.fill with
    | true =>
      simp only [if_true,mul_div_cancel₀ _ some]
      simp
    | false =>
      simp only [Bool.false_eq_true,if_false]
      refine ⟨?_,fun _ => ?_,by simp⟩
      · refine (mul_le_mul_of_nonneg_left (min_le_right ..) total).trans_eq ?_
        exact mul_div_cancel₀ _ some
      · exact (mul_le_mul_of_nonneg_left (min_le_left ..) total).trans_eq (mul_one _)

variable (w constraints) in
/-- Beside the children only one of spacers and alignment takes anything. -/
theorem displacement_le (aligned : -1 ≤ w.alignmentX ∧ w.alignmentX ≤ 1) :
    w.alignmentDisplacement constraints + w.numberOfSpacers * w.spacerWidth constraints ≤
      max 0 (w.availableWidth constraints - w.totalChildrenWidth) := by
  rw [spacers_sum,RowSuper.alignmentDisplacement]
  split
  next aligns =>
    obtain ⟨none,wide,_⟩ := aligns
    rw [if_neg (fun some => some.1.ne' none),add_zero]
    refine le_max_of_le_right (mul_le_of_le_one_right (sub_nonneg.mpr wide.le) ?_)
    linarith [aligned.2]
  next =>
    split
    · exact (zero_add _).trans_le (le_max_right ..)
    · exact (zero_add _).trans_le (le_max_left ..)

/-- In exact numbers, without `fill` a row that has room for its distances reaches no farther than
the box. With `fill` it ends just there, unless there are spacers: they get again what the children
already take. -/
theorem row_reach (aligned : -1 ≤ w.alignmentX ∧ w.alignmentX ≤ 1)
    (room : w.distances ≤ constraints.maxWidth) (nonempty : w.children ≠ [])
    (laidOut : w.performLayout constraints = some l) :
    Spaced w constraints l ∧ (w.fill = false → l.reach ≤ constraints.maxWidth) ∧
      (w.fill = true → l.reach = filledReach w constraints) := by
  rw [RowSuper.performLayout,if_neg nonempty] at laidOut
  obtain ⟨scale,scaled,rfl⟩ := Option.map_eq_some_iff.mp laidOut
  have available : w.availableWidth constraints = constraints.maxWidth - w.distances := by
    rw [RowSuper.availableWidth,sub_sub,← RowSuper.distances,max_eq_right (sub_nonneg.mpr room)]
  have extents : extent (w.taken constraints) w.innerDistance (w.children.map (w.cell scale)) =
      ((w.children.map (w.cell scale)).map fun cell => cell.size.width).sum +
        w.numberOfSpacers * w.spacerWidth constraints +
          w.innerDistance * ((w.children.length : ℚ) - 1) := by
    rw [extent_eq,taken_sum,spacers_eq,List.length_map,zsmul_eq_mul,mul_comm w.innerDistance]
    push_cast
    rfl
  obtain ⟨most,exactly⟩ := widths_sum (w := w) (scale_nonneg scaled)
  obtain ⟨within,alone,all⟩ := parts scaled
  have beside := displacement_le w constraints aligned
  refine ⟨?_,fun fill => ?_,fun fill => ?_⟩
  · simp only [Spaced,List.isChain_map]
    exact chain_placed (w.taken constraints) w.innerDistance
  · have natural := alone fill
    simp only [extents]
    have whole : w.totalChildrenWidth * scale + max 0 (w.availableWidth constraints -
        w.totalChildrenWidth) ≤ w.availableWidth constraints := by
      rcases max_choice 0 (w.availableWidth constraints - w.totalChildrenWidth) with none | rest
      · rw [none,add_zero]
        exact within
      · rw [rest]
        linarith
    rw [RowSuper.distances] at available
    linarith
  · have straight : w.alignmentDisplacement constraints = 0 := by
      rw [RowSuper.alignmentDisplacement,if_neg]
      exact fun aligns => absurd (aligns.2.2.2.symm.trans fill) (by decide)
    simp only [extents,straight]
    rw [exactly fill,all fill,spacers_sum,filledReach]
    rw [RowSuper.distances] at available
    linarith

/-- Two pictures that overlap by as much as those of a match. -/
def pictures : RowSuper where
  innerDistance := -35
  children := [.child (box 156 156 (by norm_num)),.child (box 156 156 (by norm_num))]

def phone : BoxConstraints where
  minWidth := 0
  maxWidth := 360
  minHeight := 0
  maxHeight := some 740
  widths := by norm_num
  heights := by simp

theorem row_reach_pictures : ∃ l, pictures.performLayout phone = some l ∧ l.reach = 277 ∧
    Spaced pictures phone l ∧ (pictures.fill = false → l.reach ≤ phone.maxWidth) ∧
      (pictures.fill = true → l.reach = filledReach pictures phone) := by
  have reach : (pictures.performLayout phone).map Layout.reach = some 277 := by decide +kernel
  obtain ⟨l,laidOut,reached⟩ := Option.map_eq_some_iff.mp reach
  exact ⟨l,laidOut,reached,row_reach (by decide +kernel) (by decide +kernel) (by simp [pictures])
    laidOut⟩

end Row

end Neuro.RowLayout
