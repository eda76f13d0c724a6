import Mathlib
import Neuro.Lib.Placement
import Neuro.MinimumRaggedness

/-! Children in lines. Which of them go into which line is decided by their widths, and where they
are drawn by the sizes they then take. Distances are exact numbers, and the width is bounded. -/
namespace Neuro.WrapLayout
open Neuro.Lib Placement
open MinimumRaggedness (Division Sized lineWidth boxWidth)

@[ext]
structure Size where
  width : ℚ
  height : ℚ
  deriving DecidableEq, Repr, Inhabited

/-- Normalized constraints; the height may be unbounded. -/
structure BoxConstraints where
  minWidth : ℚ
  maxWidth : ℚ
  minHeight : ℚ
  maxHeight : Option ℚ
  widths : 0 ≤ minWidth ∧ minWidth ≤ maxWidth
  heights : 0 ≤ minHeight ∧ ∀ height ∈ maxHeight, minHeight ≤ height

def BoxConstraints.constrain (constraints : BoxConstraints) (size : Size) : Size where
  width := max constraints.minWidth (min size.width constraints.maxWidth)
  height := max constraints.minHeight (constraints.maxHeight.elim size.height (min size.height))

/-- A child takes a size that respects the least and the greatest width it is given. -/
structure Child where
  maxIntrinsicWidth : ℚ
  layout : ℚ → ℚ → Size
  intrinsic : 0 ≤ maxIntrinsicWidth
  within : ∀ minWidth maxWidth, 0 ≤ minWidth → minWidth ≤ maxWidth →
    minWidth ≤ (layout minWidth maxWidth).width ∧ (layout minWidth maxWidth).width ≤ maxWidth
  height : ∀ minWidth maxWidth, 0 ≤ minWidth → minWidth ≤ maxWidth →
    0 ≤ (layout minWidth maxWidth).height

inductive WrapType
  | fit
  | balanced
  deriving DecidableEq, Repr

inductive WrapFit
  | min
  | divided
  | proportional
  | larger
  deriving DecidableEq, Repr

inductive WrapSuperAlignment
  | left
  | right
  | center
  deriving DecidableEq, Repr

structure WrapSuper where
  alignment : WrapSuperAlignment := .left
  spacing : ℚ := 0
  lineSpacing : ℚ := 0
  wrapType : WrapType := .balanced
  wrapFit : WrapFit := .min
  children : List Child := []

/-- `offset` of a child. -/
structure Placed where
  index : ℕ
  x : ℚ
  y : ℚ
  deriving DecidableEq, Repr

structure Layout where
  rows : List (List Placed)
  sizes : List Size
  size : Size
  deriving DecidableEq, Repr

def sizeAt (sizes : List Size) (index : ℕ) : Size := sizes[index]?.getD ⟨0,0⟩

def lineHeight (sizes : List Size) (line : List ℕ) : ℚ :=
  line.foldl (fun maxY index => max maxY (sizeAt sizes index).height) 0

/-- The loop of `WrapType.fit`, with the indexes of the line it is at. -/
def fitLines (width : ℕ → ℚ) (availableWidth spacing x : ℚ) (line : List ℕ) :
    List ℕ → List (List ℕ)
  | [] => [line]
  | index :: rest =>
    if 0 < x ∧ availableWidth < x + width index then
      line :: fitLines width availableWidth spacing (width index + spacing) [index] rest
    else fitLines width availableWidth spacing (x + (width index + spacing)) (line ++ [index]) rest

namespace WrapSuper
variable (w : WrapSuper) (constraints : BoxConstraints)

def lines (widths : List ℚ) (availableWidth : ℚ) : Option (List (List ℕ)) := match w.wrapType with
  | .balanced => MinimumRaggedness.divide widths availableWidth w.spacing
  | .fit => some (fitLines (fun index => widths[index]?.getD 0) availableWidth w.spacing 0 []
      (List.range widths.length))

def left (availableWidth lineWidth : ℚ) : ℚ := match w.alignment with
  | .left => 0
  | .right => availableWidth - lineWidth
  | .center => (availableWidth - lineWidth) / 2

/-- The children of a line side by side, at the height of its top. -/
def row (sizes : List Size) (line : List ℕ × ℚ) : List Placed :=
  let width := fun index => (sizeAt sizes index).width
  (placed width w.spacing (w.left constraints.maxWidth (extent width w.spacing line.1)) line.1).map
    fun p => ⟨p.1,p.2,line.2⟩

def arrange (sizes : List Size) (lines : List (List ℕ)) : Layout where
  rows := (placed (lineHeight sizes) w.lineSpacing 0 lines).map (w.row constraints sizes)
  sizes := sizes
  size := constraints.constrain
    ⟨constraints.maxWidth,extent (lineHeight sizes) w.lineSpacing lines⟩

def performLayoutMin : Option Layout :=
  let sizes := w.children.map fun child => child.layout 0 constraints.maxWidth
  (w.lines (sizes.map Size.width) constraints.maxWidth).map (w.arrange constraints sizes)

/-- The width that each child of a line is to take. -/
def share (availableWidth : ℚ) (intrinsicWidth : ℕ → ℚ) (line : List ℕ) : Option (ℕ → ℚ) :=
  let available := availableWidth - w.spacing * ((line.length : ℚ) - 1)
  match w.wrapFit with
  | .min => none
  | .divided => some fun _ => available / line.length
  | .proportional =>
    let sumOfWidgetsInLine := (line.map intrinsicWidth).sum
    -- zero by zero is no number, but nobody divides in an empty line
    if sumOfWidgetsInLine = 0 ∧ line ≠ [] then none
    else some fun index => available * (intrinsicWidth index / sumOfWidgetsInLine)
  | .larger =>
    let preferredWidth := available / line.length
    let larger := line.filter fun index => preferredWidth ≤ intrinsicWidth index
    let remainingWidth := available - (larger.map intrinsicWidth).sum
    some fun index => if preferredWidth ≤ intrinsicWidth index then
        if available < intrinsicWidth index then available else intrinsicWidth index
      else remainingWidth / ((line.length : ℚ) - larger.length)

def intrinsicWidth (index : ℕ) : ℚ := (w.children[index]?.map Child.maxIntrinsicWidth).getD 0

def layoutLine (line : List ℕ) : Option (List Size) :=
  (w.share constraints.maxWidth w.intrinsicWidth line).bind fun width => line.mapM fun index =>
    w.children[index]?.map fun child => child.layout (width index) (width index)

/-- The sizes come in the order of the lines, and are read by index. -/
def performLayoutElse : Option Layout :=
  (w.lines (w.children.map Child.maxIntrinsicWidth) constraints.maxWidth).bind fun lines =>
    (lines.mapM (w.layoutLine constraints)).map fun sizes => w.arrange constraints sizes.flatten lines

def performLayout : Option Layout :=
  if w.wrapFit = .min then w.performLayoutMin constraints else w.performLayoutElse constraints

end WrapSuper

/-- In the same line with the space between them, or in lines one below the other. -/
def Before (w : WrapSuper) (l : Layout) (p q : Placed) : Prop :=
  p.y = q.y ∧ p.x + (sizeAt l.sizes p.index).width + w.spacing ≤ q.x ∨
    p.y + (sizeAt l.sizes p.index).height + w.lineSpacing ≤ q.y

/-- The child is drawn inside the box, if that is not cut off below. -/
structure Inside (constraints : BoxConstraints) (l : Layout) (p : Placed) : Prop where
  left : 0 ≤ p.x
  right : p.x + (sizeAt l.sizes p.index).width ≤ l.size.width
  top : 0 ≤ p.y
  bottom : p.y + (sizeAt l.sizes p.index).height ≤ l.size.height ∨
    constraints.maxHeight = some l.size.height

/-- All children are drawn, in their order, apart from each other and inside the box; those of a
line have exactly the space between them. -/
structure Arranged (w : WrapSuper) (constraints : BoxConstraints) (l : Layout) : Prop where
  each : l.rows.flatten.map Placed.index = List.range w.children.length
  inside : ∀ p ∈ l.rows.flatten, Inside constraints l p
  apart : l.rows.flatten.Pairwise (Before w l)
  spaced : ∀ row ∈ l.rows, row.IsChain fun p q =>
    p.y = q.y ∧ q.x = p.x + (sizeAt l.sizes p.index).width + w.spacing

/-- Some child begins where the box begins, and some child ends where it ends. -/
def Filled (l : Layout) (row : List Placed) : Prop :=
  (∃ p ∈ row, p.x = 0) ∧ ∃ p ∈ row, p.x + (sizeAt l.sizes p.index).width = l.size.width

/-- The widths by which the lines are made. -/
def WrapSuper.measured (w : WrapSuper) (constraints : BoxConstraints) : List ℚ :=
  if w.wrapFit = .min then w.children.map fun child => (child.layout 0 constraints.maxWidth).width
  else w.children.map Child.maxIntrinsicWidth

/-- What a width is divided by is not zero, and no child is to be wider than the box. -/
def Shares (w : WrapSuper) (constraints : BoxConstraints) : Prop := match w.wrapFit with
  | .min | .divided => True
  | .proportional => ∀ child ∈ w.children, 0 < child.maxIntrinsicWidth
  | .larger => ∀ child ∈ w.children, child.maxIntrinsicWidth ≤ constraints.maxWidth

structure Valid (w : WrapSuper) (constraints : BoxConstraints) : Prop where
  space : 0 ≤ w.spacing
  lineSpace : 0 ≤ w.lineSpacing
  small : w.wrapType = .balanced → ((w.measured constraints).map fun width =>
    (constraints.maxWidth - min width constraints.maxWidth) ^ 2).sum < MinimumRaggedness.infinity
  shares : Shares w constraints

/-! Which children are in which line. -/

section Lines
variable {width : ℕ → ℚ} {availableWidth spacing x : ℚ} {line rest : List ℕ} {widths : List ℚ}

theorem lineWidth_eq_extent (boxWidths : List ℚ) (maxWidth spacing : ℚ) (line : List ℕ) :
    lineWidth boxWidths maxWidth spacing line =
      extent (boxWidth boxWidths maxWidth) spacing line := by
  rw [lineWidth,extent_eq,zsmul_eq_mul,mul_comm]
  push_cast
  rfl

theorem fitLines_cons (width : ℕ → ℚ) (availableWidth spacing : ℚ) (index : ℕ) (rest : List ℕ) :
    fitLines width availableWidth spacing 0 [] (index :: rest) =
      fitLines width availableWidth spacing (width index + spacing) [index] rest := by
  rw [fitLines,if_neg (fun broken => lt_irrefl _ broken.1),zero_add,List.nil_append]

theorem flatten_fitLines :
    (fitLines width availableWidth spacing x line rest).flatten = line ++ rest := by
  induction rest generalizing x line with
  | nil => simp [fitLines]
  | cons index rest ih =>
    rw [fitLines]
    split
    · rw [List.flatten_cons,ih,List.singleton_append]
    · rw [ih,List.append_assoc,List.singleton_append]

theorem fitLines_ne_nil (some : line ≠ []) :
    ∀ l ∈ fitLines width availableWidth spacing x line rest, l ≠ [] := by
  induction rest generalizing x line with
  | nil => simpa [fitLines] using some
  | cons index rest ih =>
    rw [fitLines]
    split
    · exact List.forall_mem_cons.mpr ⟨some,ih (List.cons_ne_nil _ _)⟩
    · exact ih (List.append_ne_nil_of_right_ne_nil _ (List.cons_ne_nil _ _))

/-- A widget that is wider than all there is counts as just as wide. -/
theorem fitLines_fits
    (fits : extent (fun index => min (width index) availableWidth) spacing line ≤ availableWidth)
    (reached : extent (fun index => min (width index) availableWidth) spacing line + spacing ≤ x) :
    ∀ l ∈ fitLines width availableWidth spacing x line rest,
      extent (fun index => min (width index) availableWidth) spacing l ≤ availableWidth := by
  induction rest generalizing x line with
  | nil => simpa [fitLines] using fits
  | cons index rest ih =>
    have narrow : min (width index) availableWidth ≤ availableWidth := min_le_right ..
    have own : min (width index) availableWidth ≤ width index := min_le_left ..
    rw [fitLines]
    split
    next =>
      refine List.forall_mem_cons.mpr ⟨fits,ih ?_ ?_⟩ <;> rw [extent_singleton]
      · exact narrow
      · exact add_le_add own le_rfl
    next beside =>
      refine ih ?_ ?_ <;> rw [extent_append,extent_singleton]
      · rcases not_and_or.mp beside with start | room
        · linarith
        · linarith
      · linarith

theorem fit_division (widths : List ℚ) (availableWidth spacing : ℚ) (some : widths ≠ []) :
    Division widths availableWidth spacing (fitLines (fun index => widths[index]?.getD 0)
      availableWidth spacing 0 [] (List.range widths.length)) := by
  obtain ⟨n,length⟩ := Nat.exists_eq_succ_of_ne_zero (List.length_eq_zero_iff.not.mpr some)
  refine ⟨flatten_fitLines,?_,fun line member => ?_⟩ <;>
    rw [length,List.range_succ_eq_map,fitLines_cons] at *
  · exact fitLines_ne_nil (List.cons_ne_nil _ _)
  · rw [lineWidth_eq_extent]
    refine fitLines_fits ?_ ?_ line member <;> rw [extent_singleton]
    · exact min_le_right ..
    · exact add_le_add (min_le_left ..) le_rfl

end Lines

/-! Where the children are. -/

section Arrange
variable {w : WrapSuper} {constraints : BoxConstraints} {sizes : List Size} {lines : List (List ℕ)}
  {line : List ℕ} {index : ℕ}

variable (sizes) in
theorem le_lineHeight (member : index ∈ line) :
    (sizeAt sizes index).height ≤ lineHeight sizes line := by
  have grows (rest : List ℕ) (maxY : ℚ) :
      maxY ≤ rest.foldl (fun maxY index => max maxY (sizeAt sizes index).height) maxY ∧
        ∀ index ∈ rest, (sizeAt sizes index).height ≤
          rest.foldl (fun maxY index => max maxY (sizeAt sizes index).height) maxY := by
    induction rest generalizing maxY with
    | nil => exact ⟨le_rfl,by simp⟩
    | cons first rest ih =>
      obtain ⟨kept,others⟩ := ih (max maxY (sizeAt sizes first).height)
      refine ⟨(le_max_left ..).trans kept,List.forall_mem_cons.mpr ⟨?_,others⟩⟩
      exact (le_max_right ..).trans kept
  exact (grows line 0).2 index member

/-- What the lines take below each other, if the constraints allow it. -/
theorem le_height (constraints : BoxConstraints) {size : Size} {y : ℚ} (le : y ≤ size.height) :
    y ≤ (constraints.constrain size).height ∨
      constraints.maxHeight = some (constraints.constrain size).height := by
  cases bound : constraints.maxHeight with
  | none =>
    refine .inl (le.trans ?_)
    rw [BoxConstraints.constrain,bound]
    exact le_max_right ..
  | some height =>
    rcases le_total size.height height with short | long
    · refine .inl (le.trans ?_)
      rw [BoxConstraints.constrain,bound,Option.elim_some,min_eq_left short]
      exact le_max_right ..
    · refine .inr ?_
      rw [BoxConstraints.constrain,bound,Option.elim_some,min_eq_right long]
      exact congrArg some (max_eq_right (constraints.heights.2 height bound)).symm

theorem constrain_width (constraints : BoxConstraints) (height : ℚ) :
    (constraints.constrain ⟨constraints.maxWidth,height⟩).width = constraints.maxWidth := by
  rw [BoxConstraints.constrain,min_self,max_eq_right constraints.widths.2]

/-- A line that is not too wide is moved inside the box. -/
theorem left_bounds (w : WrapSuper) {availableWidth lineWidth : ℚ} (fits : lineWidth ≤ availableWidth) :
    0 ≤ w.left availableWidth lineWidth ∧
      w.left availableWidth lineWidth + lineWidth ≤ availableWidth := by
  rw [WrapSuper.left]
  cases w.alignment with
  | left => exact ⟨le_rfl,by linarith⟩
  | right => exact ⟨by linarith,by linarith⟩
  | center => exact ⟨by linarith,by linarith⟩

/-- Lines of all children, in their order, that are not too wide for what the children take. -/
structure Fitting (w : WrapSuper) (constraints : BoxConstraints) (sizes : List Size)
    (lines : List (List ℕ)) : Prop where
  each : lines.flatten = List.range w.children.length
  width : ∀ index, 0 ≤ (sizeAt sizes index).width
  height : ∀ index, 0 ≤ (sizeAt sizes index).height
  fits : ∀ line ∈ lines,
    extent (fun index => (sizeAt sizes index).width) w.spacing line ≤ constraints.maxWidth

theorem lineHeight_nonneg (fitting : Fitting w constraints sizes lines) (line : List ℕ) :
    0 ≤ lineHeight sizes line := by
  cases line with
  | nil => exact le_rfl
  | cons index rest => exact (fitting.height index).trans (le_lineHeight _ List.mem_cons_self)

theorem arranged_of_fitting (fitting : Fitting w constraints sizes lines) (space : 0 ≤ w.spacing)
    (lineSpace : 0 ≤ w.lineSpacing) : Arranged w constraints (w.arrange constraints sizes lines) := by
  have wide : ∀ index, 0 ≤ (sizeAt sizes index).width + w.spacing :=
    fun index => add_nonneg (fitting.width index) space
  have high : ∀ line, 0 ≤ lineHeight sizes line + w.lineSpacing :=
    fun line => add_nonneg (lineHeight_nonneg fitting line) lineSpace
  constructor
  · have indexes : (w.arrange constraints sizes lines).rows.map (List.map Placed.index) = lines := by
      rw [WrapSuper.arrange,List.map_map]
      refine (List.map_congr_left fun line _ => ?_).trans placed_fst
      exact List.map_map.trans placed_fst
    rw [List.map_flatten,indexes,fitting.each]
  · intro p member
    obtain ⟨row,drawn,inside⟩ := List.mem_flatten.mp member
    obtain ⟨line,stacked,rfl⟩ := List.mem_map.mp drawn
    obtain ⟨⟨index,x⟩,beside,rfl⟩ := List.mem_map.mp inside
    have fits := fitting.fits line.1 (item_of_mem stacked)
    obtain ⟨left,right⟩ := left_bounds w fits
    refine ⟨left.trans (start_le (fun index _ => wide index) beside),?_,
      start_le (fun line _ => high line) stacked,le_height constraints ?_⟩
    · refine ((end_le (fun index _ => wide index) beside).trans right).trans_eq ?_
      exact (constrain_width constraints _).symm
    · have tall := le_lineHeight sizes (item_of_mem beside)
      have below := end_le (fun line _ => high line) stacked
      rw [zero_add] at below
      exact (add_le_add le_rfl tall).trans below
  · refine List.pairwise_flatten.mpr ⟨fun row drawn => ?_,?_⟩
    · obtain ⟨line,_,rfl⟩ := List.mem_map.mp drawn
      refine List.pairwise_map.mpr ((pairwise_placed fun index _ => wide index).imp ?_)
      exact fun next => .inl ⟨rfl,next⟩
    · refine List.pairwise_map.mpr ((pairwise_placed fun line _ => high line).imp ?_)
      intro line lower below p upper q inside
      obtain ⟨⟨index,x⟩,beside,rfl⟩ := List.mem_map.mp upper
      obtain ⟨_,_,rfl⟩ := List.mem_map.mp inside
      have tall := le_lineHeight sizes (item_of_mem beside)
      exact .inr ((add_le_add (add_le_add le_rfl tall) le_rfl).trans below)
  · intro row drawn
    obtain ⟨line,_,rfl⟩ := List.mem_map.mp drawn
    exact List.isChain_map_of_isChain _ (fun p q next => ⟨rfl,next⟩) (chain_placed _ _)

end Arrange

section Shares
variable {w : WrapSuper} {constraints : BoxConstraints} {intrinsic width : ℕ → ℚ} {line : List ℕ}
  {availableWidth : ℚ}

theorem extent_line (width : ℕ → ℚ) (spacing : ℚ) (line : List ℕ) : extent width spacing line =
    (line.map width).sum + spacing * ((line.length : ℚ) - 1) := by
  rw [extent_eq,zsmul_eq_mul,mul_comm]
  push_cast
  rfl

/-- The widgets that keep their width, and the others, which get the same each. -/
theorem sum_larger (wide : ℕ → Prop) [DecidablePred wide] (rest : ℚ) (line : List ℕ) :
    (line.map fun index => if wide index then intrinsic index else rest).sum =
      ((line.filter wide).map intrinsic).sum +
        ((line.length : ℚ) - (line.filter wide).length) * rest := by
  induction line with
  | nil => simp
  | cons index line ih =>
    rw [List.map_cons,List.sum_cons,ih,List.filter_cons]
    by_cases keeps : wide index
    · simp only [keeps,if_true,decide_true,List.map_cons,List.sum_cons,List.length_cons]
      push_cast
      ring
    · simp only [keeps,if_false,decide_false,List.length_cons,Bool.false_eq_true]
      push_cast
      ring

section Available
variable {available : ℚ}

variable (available) in
theorem sum_divided (some : line ≠ []) :
    (line.map fun _ : ℕ => available / (line.length : ℚ)).sum = available := by
  have length : (line.length : ℚ) ≠ 0 := Nat.cast_ne_zero.mpr (List.length_eq_zero_iff.not.mpr some)
  rw [List.map_const',List.sum_replicate,nsmul_eq_mul,mul_div_cancel₀ _ length]

theorem sum_proportional (some : (line.map intrinsic).sum ≠ 0) :
    (line.map fun index => available * (intrinsic index / (line.map intrinsic).sum)).sum =
      available := by
  rw [List.sum_map_mul_left]
  simp only [div_eq_mul_inv]
  rw [List.sum_map_mul_right,mul_inv_cancel₀ some,mul_one]

/-- Where all are at least as wide as preferred, they are just as wide. -/
theorem sum_larger_available (some : line ≠ []) (fits : (line.map intrinsic).sum ≤ available) :
    let wide := fun index => available / (line.length : ℚ) ≤ intrinsic index
    (line.map fun index => if wide index then intrinsic index
      else (available - ((line.filter wide).map intrinsic).sum) /
        ((line.length : ℚ) - (line.filter wide).length)).sum = available := by
  intro wide
  rw [sum_larger]
  rcases eq_or_ne (line.filter wide).length line.length with all | others
  · have every : ∀ index ∈ line, wide index := by
      simpa using List.length_filter_eq_length_iff.mp all
    have preferred : available ≤ (line.map intrinsic).sum := by
      refine (sum_divided available some).symm.trans_le (List.sum_le_sum ?_)
      exact every
    have kept : line.filter wide = line := by simpa using every
    rw [kept,sub_self,zero_mul,add_zero]
    exact le_antisymm fits preferred
  · have fewer : ((line.length : ℚ) - (line.filter wide).length) ≠ 0 := by
      rw [sub_ne_zero]
      exact_mod_cast others.symm
    rw [mul_div_cancel₀ _ fewer]
    exact add_sub_cancel ..

theorem larger_nonneg (wide : ℕ → Prop) [DecidablePred wide]
    (nonneg : ∀ index ∈ line, 0 ≤ intrinsic index) (fits : (line.map intrinsic).sum ≤ available) :
    0 ≤ (available - ((line.filter wide).map intrinsic).sum) /
      ((line.length : ℚ) - (line.filter wide).length) := by
  have part : ((line.filter wide).map intrinsic).sum ≤ (line.map intrinsic).sum := by
    refine List.Sublist.sum_le_sum (List.filter_sublist.map intrinsic) fun width member => ?_
    obtain ⟨index,inside,rfl⟩ := List.mem_map.mp member
    exact nonneg index inside
  have fewer : ((line.filter wide).length : ℚ) ≤ line.length :=
    Nat.cast_le.mpr (List.length_filter_le ..)
  exact div_nonneg (by linarith) (by linarith)

end Available

/-- What a child of the line needs. -/
def LineShares (w : WrapSuper) (availableWidth : ℚ) (intrinsic : ℕ → ℚ) (line : List ℕ) : Prop :=
  match w.wrapFit with
  | .min => False
  | .divided => True
  | .proportional => ∀ index ∈ line, 0 < intrinsic index
  | .larger => ∀ index ∈ line, intrinsic index ≤ availableWidth

theorem share_filled (some : line ≠ []) (nonneg : ∀ index ∈ line, 0 ≤ intrinsic index)
    (available : 0 ≤ availableWidth)
    (fits : extent (fun index => min (intrinsic index) availableWidth) w.spacing line ≤ availableWidth)
    (shares : LineShares w availableWidth intrinsic line) :
    ∃ width, w.share availableWidth intrinsic line = Option.some width ∧
      (∀ index ∈ line, 0 ≤ width index) ∧ extent width w.spacing line = availableWidth := by
  have clipped : 0 ≤ (line.map fun index => min (intrinsic index) availableWidth).sum := by
    refine List.sum_nonneg fun width member => ?_
    obtain ⟨index,inside,rfl⟩ := List.mem_map.mp member
    exact le_min (nonneg index inside) available
  rw [extent_line] at fits
  have positive : 0 ≤ availableWidth - w.spacing * ((line.length : ℚ) - 1) := by linarith
  simp only [extent_line]
  unfold LineShares at shares
  unfold WrapSuper.share
  cases fit : w.wrapFit with
  | min => rw [fit] at shares; contradiction
  | divided =>
    refine ⟨_,rfl,fun _ _ => div_nonneg positive (Nat.cast_nonneg _),?_⟩
    rw [sum_divided _ some,sub_add_cancel]
  | proportional =>
    rw [fit] at shares
    have sum : 0 < (line.map intrinsic).sum := by
      refine List.sum_pos _ (fun width member => ?_) (by simpa using some)
      obtain ⟨index,inside,rfl⟩ := List.mem_map.mp member
      exact shares index inside
    dsimp only
    rw [if_neg (fun zero => sum.ne' zero.1)]
    refine ⟨_,rfl,fun index inside => ?_,?_⟩
    · exact mul_nonneg positive (div_nonneg (nonneg index inside) sum.le)
    · rw [sum_proportional sum.ne',sub_add_cancel]
  | larger =>
    rw [fit] at shares
    have widths : (line.map fun index => min (intrinsic index) availableWidth) = line.map intrinsic :=
      List.map_congr_left fun index inside => min_eq_left (shares index inside)
    rw [widths] at fits
    have sum : (line.map intrinsic).sum ≤ availableWidth - w.spacing * ((line.length : ℚ) - 1) := by
      linarith
    have each : ∀ index ∈ line,
        intrinsic index ≤ availableWidth - w.spacing * ((line.length : ℚ) - 1) := by
      intro index inside
      refine (List.single_le_sum ?_ _ (List.mem_map_of_mem inside)).trans sum
      intro width member
      obtain ⟨index,inside,rfl⟩ := List.mem_map.mp member
      exact nonneg index inside
    refine ⟨_,rfl,fun index inside => ?_,?_⟩
    · split
      · split
        · exact positive
        · exact nonneg index inside
      · exact larger_nonneg _ nonneg sum
    · refine (congrArg₂ (· + ·) ?_ rfl).trans (sub_add_cancel _ _)
      refine (congrArg List.sum (List.map_congr_left fun index inside => ?_)).trans
        (sum_larger_available some sum)
      rw [if_neg (not_lt.mpr (each index inside))]

end Shares

section Layout
variable {w : WrapSuper} {constraints : BoxConstraints} {lines : List (List ℕ)} {line : List ℕ}
  {index : ℕ} {sizes : List Size}

theorem filled_iff {line : List ℕ × ℚ} (some : line.1 ≠ [])
    (wide : ∀ index, 0 ≤ (sizeAt sizes index).width + w.spacing)
    (fits : extent (fun index => (sizeAt sizes index).width) w.spacing line.1 ≤ constraints.maxWidth) :
    Filled (w.arrange constraints sizes lines) (w.row constraints sizes line) ↔
      extent (fun index => (sizeAt sizes index).width) w.spacing line.1 = constraints.maxWidth := by
  have box : (w.arrange constraints sizes lines).size.width = constraints.maxWidth :=
    constrain_width constraints _
  rw [Filled,box]
  constructor
  · rintro ⟨⟨p,first,zero⟩,⟨q,last,reach⟩⟩
    obtain ⟨⟨_,x⟩,started,rfl⟩ := List.mem_map.mp first
    obtain ⟨⟨index,_⟩,ended,rfl⟩ := List.mem_map.mp last
    have start := start_le (fun index _ => wide index) started
    have finish := end_le (fun index _ => wide index) ended
    refine le_antisymm fits ?_
    rw [WrapSuper.left] at start finish
    simp only at start finish zero reach
    cases alignment : w.alignment with
    | left =>
      simp only [alignment,zero_add] at finish
      exact reach.symm.trans_le finish
    | right | center =>
      simp only [alignment] at start
      linarith
  · intro full
    have left : w.left constraints.maxWidth constraints.maxWidth = 0 := by
      rw [WrapSuper.left]
      cases w.alignment <;> simp
    obtain ⟨p,first,start⟩ := exists_first (fun index => (sizeAt sizes index).width) w.spacing
      0 some
    obtain ⟨q,last,reach⟩ := exists_last (fun index => (sizeAt sizes index).width) w.spacing
      0 some
    rw [WrapSuper.row,full,left]
    refine ⟨⟨_,List.mem_map_of_mem first,start⟩,⟨_,List.mem_map_of_mem last,?_⟩⟩
    rw [full,zero_add] at reach
    exact reach

theorem sizeAt_flatten {n : ℕ} (each : lines.flatten = List.range n) (rowOf : List ℕ → ℕ → Size)
    (stacked : line ∈ lines) (inside : index ∈ line) :
    sizeAt (lines.map fun line => line.map (rowOf line)).flatten index = rowOf line index := by
  have indexes : (lines.map fun line => line.map fun index => (index,rowOf line index)).flatten.map
      Prod.fst = List.range n := by
    rw [List.map_flatten,List.map_map,← each]
    refine congrArg List.flatten ((List.map_congr_left fun line _ => ?_).trans (List.map_id lines))
    exact List.map_map.trans (List.map_id line)
  have rows : (lines.map fun line => line.map fun index => (index,rowOf line index)).flatten.map
      Prod.snd = (lines.map fun line => line.map (rowOf line)).flatten := by
    rw [List.map_flatten,List.map_map]
    exact congrArg List.flatten (List.map_congr_left fun line _ => List.map_map)
  have pair : (index,rowOf line index) ∈
      (lines.map fun line => line.map fun index => (index,rowOf line index)).flatten :=
    List.mem_flatten.mpr ⟨_,List.mem_map_of_mem stacked,List.mem_map_of_mem inside⟩
  obtain ⟨k,listed⟩ := List.mem_iff_getElem?.mp pair
  have position : (List.range n)[k]? = some index := by
    rw [← indexes,List.getElem?_map,listed]
    rfl
  obtain ⟨bound,same⟩ := List.getElem?_eq_some_iff.mp position
  obtain rfl : k = index := List.getElem_range bound ▸ same
  rw [sizeAt,← rows,List.getElem?_map,listed]
  rfl

theorem measured_nonneg (w : WrapSuper) (constraints : BoxConstraints) :
    ∀ width ∈ w.measured constraints, 0 ≤ width := by
  have room : 0 ≤ constraints.maxWidth := constraints.widths.1.trans constraints.widths.2
  intro width member
  unfold WrapSuper.measured at member
  split at member
  · obtain ⟨child,_,rfl⟩ := List.mem_map.mp member
    exact (child.within _ _ le_rfl room).1
  · obtain ⟨child,_,rfl⟩ := List.mem_map.mp member
    exact child.intrinsic

theorem measured_length (w : WrapSuper) (constraints : BoxConstraints) :
    (w.measured constraints).length = w.children.length := by
  unfold WrapSuper.measured
  split <;> exact List.length_map ..

/-- Either way of making lines divides the children, if there are any. -/
theorem lines_division (valid : Valid w constraints) : ∃ lines,
    w.lines (w.measured constraints) constraints.maxWidth = some lines ∧
      (Division (w.measured constraints) constraints.maxWidth w.spacing lines ∨
        w.children = [] ∧ lines = [[]]) := by
  unfold WrapSuper.lines
  cases type : w.wrapType with
  | balanced =>
    have sized : Sized (w.measured constraints) constraints.maxWidth w.spacing :=
      ⟨measured_nonneg w constraints,constraints.widths.1.trans constraints.widths.2,valid.space,
        valid.small type⟩
    obtain ⟨lines,divided,division,_⟩ := MinimumRaggedness.divide_division sized
    exact ⟨lines,divided,.inl division⟩
  | fit =>
    refine ⟨_,rfl,?_⟩
    rcases eq_or_ne (w.measured constraints) [] with none | some
    · have empty := measured_length w constraints
      rw [none,List.length_nil] at empty
      rw [none]
      exact .inr ⟨List.length_eq_zero_iff.mp empty.symm,rfl⟩
    · exact .inl (fit_division _ _ _ some)

theorem each_of_division (division : Division (w.measured constraints) constraints.maxWidth
      w.spacing lines ∨ w.children = [] ∧ lines = [[]]) :
    lines.flatten = List.range w.children.length := by
  rcases division with division | ⟨none,rfl⟩
  · rw [division.complete,measured_length]
  · rw [none]
    rfl

/-- The lines are not too wide for children that take at most the measured widths. -/
theorem fits_of_division (space : 0 ≤ w.spacing)
    (division : Division (w.measured constraints) constraints.maxWidth w.spacing lines ∨
      w.children = [] ∧ lines = [[]]) (stacked : line ∈ lines) :
    extent (boxWidth (w.measured constraints) constraints.maxWidth) w.spacing line ≤
      constraints.maxWidth := by
  rcases division with division | ⟨_,rfl⟩
  · rw [← lineWidth_eq_extent]
    exact division.fits line stacked
  · rw [List.mem_singleton.mp stacked,extent,List.map_nil,List.sum_nil]
    linarith [constraints.widths.1,constraints.widths.2]

theorem min_arranged (valid : Valid w constraints) (fit : w.wrapFit = .min) :
    ∃ l, w.performLayoutMin constraints = some l ∧ Arranged w constraints l := by
  have room : 0 ≤ constraints.maxWidth := constraints.widths.1.trans constraints.widths.2
  obtain ⟨lines,made,division⟩ := lines_division valid
  have widths : (w.children.map fun child => child.layout 0 constraints.maxWidth).map Size.width =
      w.measured constraints := by
    rw [WrapSuper.measured,if_pos fit,List.map_map]
    rfl
  have each := each_of_division division
  refine ⟨_,by rw [WrapSuper.performLayoutMin,widths,made]; rfl,
    arranged_of_fitting ⟨each,fun index => ?_,fun index => ?_,fun line stacked => ?_⟩ valid.space
      valid.lineSpace⟩
  · rw [sizeAt,List.getElem?_map]
    cases w.children[index]? with
    | none => exact le_rfl
    | some child => exact (child.within _ _ le_rfl room).1
  · rw [sizeAt,List.getElem?_map]
    cases w.children[index]? with
    | none => exact le_rfl
    | some child => exact child.height _ _ le_rfl room
  · refine (extent_congr fun index _ => ?_).trans_le (fits_of_division valid.space division stacked)
    rw [boxWidth,← widths,List.getElem?_map,List.getElem?_map,sizeAt,List.getElem?_map]
    cases w.children[index]? with
    | none => exact (min_eq_left room).symm
    | some child => exact (min_eq_left (child.within _ _ le_rfl room).2).symm

theorem mapM_some {A B : Type} {f : A → Option B} {g : A → B} {items : List A}
    (each : ∀ a ∈ items, f a = some (g a)) : items.mapM f = some (items.map g) := by
  induction items with
  | nil => rfl
  | cons a rest ih =>
    obtain ⟨first,later⟩ := List.forall_mem_cons.mp each
    rw [List.mapM_cons,first,ih later]
    rfl

theorem lineShares_of_valid (valid : Valid w constraints) (fit : w.wrapFit ≠ .min)
    (child : ∀ index ∈ line, ∃ child ∈ w.children,
      w.intrinsicWidth index = child.maxIntrinsicWidth) :
    LineShares w constraints.maxWidth w.intrinsicWidth line := by
  have shares := valid.shares
  unfold Shares at shares
  unfold LineShares
  cases kind : w.wrapFit with
  | min => exact fit kind
  | divided => trivial
  | proportional =>
    rw [kind] at shares
    intro index own
    obtain ⟨child,member,same⟩ := child index own
    exact same ▸ shares child member
  | larger =>
    rw [kind] at shares
    intro index own
    obtain ⟨child,member,same⟩ := child index own
    exact same ▸ shares child member

/-- What a child takes when it has to take this width. -/
def WrapSuper.sizeFor (w : WrapSuper) (width : ℕ → ℚ) (index : ℕ) : Size :=
  (w.children[index]?.map fun child => child.layout (width index) (width index)).getD ⟨0,0⟩

/-- Every child of a line takes its share. -/
theorem layoutLine_filled (valid : Valid w constraints) (fit : w.wrapFit ≠ .min)
    (division : Division (w.measured constraints) constraints.maxWidth w.spacing lines ∨
      w.children = [] ∧ lines = [[]]) (stacked : line ∈ lines) :
    ∃ row : ℕ → Size, w.layoutLine constraints line = some (line.map row) ∧
      (∀ index ∈ line, 0 ≤ (row index).width ∧ 0 ≤ (row index).height) ∧
      (line ≠ [] → extent (fun index => (row index).width) w.spacing line = constraints.maxWidth) := by
  have room : 0 ≤ constraints.maxWidth := constraints.widths.1.trans constraints.widths.2
  have intrinsic : ∀ index ∈ line, ∃ child ∈ w.children, w.children[index]? = some child ∧
      w.intrinsicWidth index = child.maxIntrinsicWidth := by
    intro index own
    have member : index ∈ lines.flatten := List.mem_flatten.mpr ⟨line,stacked,own⟩
    rw [each_of_division division] at member
    have found := List.getElem?_eq_getElem (List.mem_range.mp member)
    exact ⟨_,List.getElem_mem _,found,by rw [WrapSuper.intrinsicWidth,found]; rfl⟩
  have shares := lineShares_of_valid valid fit fun index own =>
    (intrinsic index own).imp fun _ found => ⟨found.1,found.2.2⟩
  have measured : w.measured constraints = w.children.map Child.maxIntrinsicWidth := if_neg fit
  have fits := fits_of_division valid.space division stacked
  rw [measured] at fits
  have clipped : boxWidth (w.children.map Child.maxIntrinsicWidth) constraints.maxWidth =
      fun index => min (w.intrinsicWidth index) constraints.maxWidth := by
    funext index
    rw [boxWidth,List.getElem?_map,WrapSuper.intrinsicWidth]
  rw [clipped] at fits
  rcases eq_or_ne line [] with rfl | some
  · refine ⟨fun _ => ⟨0,0⟩,?_,by simp,fun some => absurd rfl some⟩
    rw [WrapSuper.layoutLine,WrapSuper.share]
    cases kind : w.wrapFit with
    | min => exact absurd kind fit
    | divided | proportional | larger => simp
  · have nonneg : ∀ index ∈ line, 0 ≤ w.intrinsicWidth index := by
      intro index own
      obtain ⟨child,_,_,same⟩ := intrinsic index own
      exact same ▸ child.intrinsic
    obtain ⟨width,shared,wide,full⟩ := share_filled some nonneg room fits shares
    have row : ∀ index ∈ line, ∃ child : Child, w.children[index]? = Option.some child ∧
        w.sizeFor width index = child.layout (width index) (width index) := by
      intro index own
      obtain ⟨child,_,found,_⟩ := intrinsic index own
      exact ⟨child,found,by rw [WrapSuper.sizeFor,found]; rfl⟩
    refine ⟨w.sizeFor width,?_,fun index own => ?_,fun _ => ?_⟩
    · rw [WrapSuper.layoutLine,shared]
      refine mapM_some fun index own => ?_
      obtain ⟨child,found,size⟩ := row index own
      rw [found,size]
      rfl
    · obtain ⟨child,_,size⟩ := row index own
      rw [size]
      exact ⟨(wide index own).trans (child.within _ _ (wide index own) le_rfl).1,
        child.height _ _ (wide index own) le_rfl⟩
    · refine (extent_congr fun index own => ?_).trans full
      obtain ⟨child,_,size⟩ := row index own
      obtain ⟨least,greatest⟩ := child.within _ _ (wide index own) le_rfl
      rw [size]
      exact le_antisymm greatest least

theorem else_arranged (valid : Valid w constraints) (fit : w.wrapFit ≠ .min) :
    ∃ l, w.performLayoutElse constraints = some l ∧ Arranged w constraints l ∧
      ∀ row ∈ l.rows, row ≠ [] → Filled l row := by
  obtain ⟨lines,made,division⟩ := lines_division valid
  have each := each_of_division division
  have row (line : List ℕ) (stacked : line ∈ lines) := layoutLine_filled valid fit division stacked
  choose! rowOf laidOut sized full using row
  have same {line : List ℕ} {index : ℕ} (stacked : line ∈ lines) (inside : index ∈ line) :=
    sizeAt_flatten each rowOf stacked inside
  rw [WrapSuper.measured,if_neg fit] at made
  have nonneg : ∀ index, 0 ≤ (sizeAt (lines.map fun line => line.map (rowOf line)).flatten index).width ∧
      0 ≤ (sizeAt (lines.map fun line => line.map (rowOf line)).flatten index).height := by
    intro index
    by_cases listed : index ∈ lines.flatten
    · obtain ⟨line,stacked,inside⟩ := List.mem_flatten.mp listed
      rw [same stacked inside]
      exact sized line stacked index inside
    · have length : (lines.map fun line => line.map (rowOf line)).flatten.length =
          lines.flatten.length := by
        rw [List.length_flatten,List.length_flatten,List.map_map]
        exact congrArg List.sum (List.map_congr_left fun line _ => List.length_map ..)
      rw [each,List.mem_range,not_lt] at listed
      rw [each,List.length_range] at length
      rw [sizeAt,List.getElem?_eq_none (length.trans_le listed)]
      exact ⟨le_rfl,le_rfl⟩
  have extents : ∀ line ∈ lines, line ≠ [] → extent (fun index =>
      (sizeAt (lines.map fun line => line.map (rowOf line)).flatten index).width) w.spacing line =
        constraints.maxWidth := by
    intro line stacked some
    refine (extent_congr fun index inside => ?_).trans (full line stacked some)
    rw [same stacked inside]
  refine ⟨_,by rw [WrapSuper.performLayoutElse,made,Option.bind_some,mapM_some laidOut]; rfl,
    arranged_of_fitting ⟨each,fun index => (nonneg index).1,fun index => (nonneg index).2,
      fun line stacked => ?_⟩ valid.space valid.lineSpace,fun drawn member some => ?_⟩
  · rcases eq_or_ne line [] with rfl | some
    · rw [extent,List.map_nil,List.sum_nil]
      linarith [valid.space,constraints.widths.1,constraints.widths.2]
    · exact (extents line stacked some).le
  · obtain ⟨line,stacked,rfl⟩ := List.mem_map.mp member
    have nonempty : line.1 ≠ [] := fun none => some (by rw [WrapSuper.row,none]; rfl)
    have full := extents line.1 (item_of_mem stacked) nonempty
    exact (filled_iff nonempty (fun index => add_nonneg (nonneg index).1 valid.space) full.le).mpr full

/-- In exact numbers and whatever the options are, all children are drawn, apart from each other
and inside the box, and every line is filled unless the children keep their width. -/
theorem layout_arranged (valid : Valid w constraints) :
    ∃ l, w.performLayout constraints = some l ∧ Arranged w constraints l ∧
      (w.wrapFit ≠ .min → ∀ row ∈ l.rows, row ≠ [] → Filled l row) := by
  unfold WrapSuper.performLayout
  split
  next fit =>
    obtain ⟨l,laidOut,arranged⟩ := min_arranged valid fit
    exact ⟨l,laidOut,arranged,fun other => absurd fit other⟩
  next fit =>
    obtain ⟨l,laidOut,arranged,filled⟩ := else_arranged valid fit
    exact ⟨l,laidOut,arranged,fun _ => filled⟩

/-- A box of its own size, as far as it may have it. -/
def box (width height : ℚ) (nonneg : 0 ≤ width ∧ 0 ≤ height) : Child where
  maxIntrinsicWidth := width
  layout minWidth maxWidth := ⟨max minWidth (min width maxWidth),height⟩
  intrinsic := nonneg.1
  within _ _ _ ordered := ⟨le_max_left ..,max_le ordered (min_le_right ..)⟩
  height _ _ _ _ := nonneg.2

def buttons : WrapSuper where
  alignment := .center
  spacing := 1
  lineSpacing := 2
  wrapType := .fit
  wrapFit := .larger
  children := [box 5 1 (by norm_num),box 2 3 (by norm_num),box 4 2 (by norm_num)]

def screen : BoxConstraints where
  minWidth := 0
  maxWidth := 10
  minHeight := 0
  maxHeight := none
  widths := by norm_num
  heights := by simp

theorem layout_arranged_buttons : ∃ l, buttons.performLayout screen = some l ∧
    l.rows = [[⟨0,0,0⟩,⟨1,6,0⟩],[⟨2,0,5⟩]] ∧ Arranged buttons screen l ∧
      (buttons.wrapFit ≠ .min → ∀ row ∈ l.rows, row ≠ [] → Filled l row) := by
  have narrow : ∀ child ∈ buttons.children, child.maxIntrinsicWidth ≤ screen.maxWidth := by
    decide +kernel
  have valid : Valid buttons screen := by
    refine ⟨?_,?_,?_,narrow⟩ <;> decide +kernel
  have rows : (buttons.performLayout screen).map Layout.rows =
      some [[⟨0,0,0⟩,⟨1,6,0⟩],[⟨2,0,5⟩]] := by decide +kernel
  obtain ⟨l,laidOut,arranged⟩ := layout_arranged valid
  rw [laidOut] at rows
  exact ⟨l,laidOut,Option.some.inj rows,arranged⟩

/-- What is left by a large widget may be less than another one had. -/
example : (WrapSuper.share {wrapFit := .larger} 10 (fun index => [7,3,0][index]?.getD 0)
    [0,1,2]).map (fun width => width 1) = some (3 / 2) := by decide +kernel

end Layout

end Neuro.WrapLayout
