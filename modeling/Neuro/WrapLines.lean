import Mathlib
import Neuro.Lib.Wrapping
import Neuro.WrapLayout

/-! How many lines there are, and the size that is computed without laying out the children, in
exact numbers as in the layout. -/
namespace Neuro.WrapLayout
open Neuro.Lib Placement
open MinimumRaggedness (Division Sized lineWidth boxWidth raggedness)

section Fit
variable {width : ℕ → ℚ} {availableWidth spacing x : ℚ} {line rest : List ℕ} {lines : List (List ℕ)}
  {widths : List ℚ}

theorem foldl_beside (first : ℚ) (items : List ℚ) :
    items.foldl (Wrapping.beside spacing) first = extent id spacing (first :: items) := by
  induction items generalizing first with
  | nil => exact (extent_singleton _).symm
  | cons item items ih =>
    rw [List.foldl_cons,ih,extent_cons,extent_cons first,extent_cons item,Wrapping.beside]
    simp only [id_eq]
    ring

/-- The loop breaks lines where `Wrap` opens its runs. -/
theorem length_fitLines (space : 0 ≤ spacing) (reached : spacing ≤ x)
    (nonneg : ∀ index ∈ rest, 0 ≤ width index) (narrow : ∀ index ∈ rest, width index ≤ availableWidth) :
    (fitLines width availableWidth spacing x line rest).length =
      Wrapping.further spacing availableWidth (x - spacing) (rest.map width) + 1 := by
  induction rest generalizing x line with
  | nil => rfl
  | cons index rest ih =>
    obtain ⟨first,later⟩ := List.forall_mem_cons.mp nonneg
    obtain ⟨fits,others⟩ := List.forall_mem_cons.mp narrow
    have beside : Wrapping.beside spacing (x - spacing) (width index) = x + width index := by
      rw [Wrapping.beside,sub_add_cancel]
    have broken : (0 < x ∧ availableWidth < x + width index) ↔ availableWidth < x + width index := by
      refine and_iff_right_of_imp fun wide => lt_of_not_ge fun start => ?_
      exact absurd wide (not_lt.mpr (by linarith))
    rw [fitLines,List.map_cons,Wrapping.further,beside]
    simp only [broken]
    split
    · rw [List.length_cons,ih (by linarith) later others,add_sub_cancel_right]
    · rw [ih (by linarith) later others]
      have next : x + (width index + spacing) - spacing = x + width index := by ring
      rw [next]

theorem length_fit_eq (space : 0 ≤ spacing) (some : widths ≠ []) (nonneg : ∀ width ∈ widths, 0 ≤ width)
    (narrow : ∀ width ∈ widths, width ≤ availableWidth) :
    (fitLines (fun index => widths[index]?.getD 0) availableWidth spacing 0 []
      (List.range widths.length)).length = Wrapping.runs spacing availableWidth widths := by
  have listed : (List.range widths.length).map (fun index => widths[index]?.getD 0) = widths := by
    refine List.ext_getElem (by simp) fun n first second => ?_
    simp [second]
  have each {P : ℚ → Prop} (all : ∀ width ∈ widths, P width) :
      ∀ index ∈ List.range widths.length, P (widths[index]?.getD 0) := by
    intro index inside
    rw [List.getElem?_eq_getElem (List.mem_range.mp inside),Option.getD_some]
    exact all _ (List.getElem_mem _)
  have nonneg := each nonneg
  have narrow := each narrow
  obtain ⟨n,length⟩ := Nat.exists_eq_succ_of_ne_zero (List.length_eq_zero_iff.not.mpr some)
  rw [length,List.range_succ_eq_map] at nonneg narrow listed
  obtain ⟨first,later⟩ := List.forall_mem_cons.mp nonneg
  obtain ⟨_,others⟩ := List.forall_mem_cons.mp narrow
  rw [length,List.range_succ_eq_map,fitLines_cons,
    length_fitLines space (le_add_of_nonneg_left first) later others,add_sub_cancel_right]
  conv_rhs => rw [← listed]
  rfl

theorem map_range_boxWidth (narrow : ∀ width ∈ widths, width ≤ availableWidth) :
    (List.range widths.length).map (boxWidth widths availableWidth) = widths := by
  refine List.ext_getElem (by simp) fun n first second => ?_
  simp [boxWidth,second,narrow _ (List.getElem_mem second)]

/-- No other division has fewer lines. -/
theorem fit_fewest (space : 0 ≤ spacing) (some : widths ≠ []) (nonneg : ∀ width ∈ widths, 0 ≤ width)
    (narrow : ∀ width ∈ widths, width ≤ availableWidth)
    (division : Division widths availableWidth spacing lines) :
    (fitLines (fun index => widths[index]?.getD 0) availableWidth spacing 0 []
      (List.range widths.length)).length ≤ lines.length := by
  rw [length_fit_eq space some nonneg narrow]
  refine (Wrapping.runs_le_iff space nonneg).mpr
    ⟨lines.map (List.map (boxWidth widths availableWidth)),?_,(List.length_map ..).le,?_⟩
  · rw [← List.map_flatten,division.complete,map_range_boxWidth narrow]
  · intro row member
    obtain ⟨line,own,rfl⟩ := List.mem_map.mp member
    obtain ⟨first,others,rfl⟩ := List.exists_cons_of_ne_nil (division.nonempty line own)
    have fits := division.fits _ own
    rw [lineWidth_eq_extent] at fits
    refine .inr ?_
    rw [foldl_beside,← List.map_cons]
    refine (extent_map ..).trans_le fits

end Fit

/-! The least ragged lines are not many more: two neighbours that fit into one line would have been
one. -/

section Balanced
variable {maxWidth spacing : ℚ} {lines : List (List ℕ)} {widths : List ℚ}

/-- Items of which two neighbours together always weigh too much. -/
theorem half_le_sum {A : Type*} {weight : A → ℚ} {least : ℚ} {items : List A}
    (nonneg : ∀ a ∈ items, 0 ≤ weight a)
    (heavy : items.IsChain fun a b => least < weight a + weight b) :
    ((items.length / 2 : ℕ) : ℚ) * least ≤ (items.map weight).sum := by
  induction items using List.twoStepInduction with
  | nil => simp
  | singleton a => simpa using nonneg
  | cons_cons a b rest ih =>
    obtain ⟨_,later⟩ := List.forall_mem_cons.mp nonneg
    obtain ⟨_,later⟩ := List.forall_mem_cons.mp later
    obtain ⟨pair,others⟩ := List.isChain_cons_cons.mp heavy
    have beyond := ih later others.tail
    have half : (a :: b :: rest).length / 2 = rest.length / 2 + 1 := by
      simp only [List.length_cons]
      omega
    rw [half,List.map_cons,List.map_cons,List.sum_cons,List.sum_cons]
    push_cast
    linarith

theorem half_lt_sum {A : Type*} {weight : A → ℚ} {least : ℚ} {items : List A}
    (nonneg : ∀ a ∈ items, 0 ≤ weight a)
    (heavy : items.IsChain fun a b => least < weight a + weight b) (some : 2 ≤ items.length) :
    ((items.length / 2 : ℕ) : ℚ) * least < (items.map weight).sum := by
  match items with
  | a :: b :: rest =>
    obtain ⟨_,later⟩ := List.forall_mem_cons.mp nonneg
    obtain ⟨_,later⟩ := List.forall_mem_cons.mp later
    obtain ⟨pair,others⟩ := List.isChain_cons_cons.mp heavy
    have half : (a :: b :: rest).length / 2 = rest.length / 2 + 1 := by
      simp only [List.length_cons]
      omega
    have beyond := half_le_sum later others.tail
    rw [half,List.map_cons,List.map_cons,List.sum_cons,List.sum_cons]
    push_cast
    linarith

theorem lineWidth_append (widths : List ℚ) (maxWidth spacing : ℚ) (first second : List ℕ) :
    lineWidth widths maxWidth spacing (first ++ second) =
      lineWidth widths maxWidth spacing first + spacing + lineWidth widths maxWidth spacing second := by
  rw [lineWidth_eq_extent,lineWidth_eq_extent,lineWidth_eq_extent,extent_append]

theorem lineWidth_nonneg (sized : Sized widths maxWidth spacing) {line : List ℕ}
    (some : line ≠ []) : 0 ≤ lineWidth widths maxWidth spacing line := by
  have boxes : 0 ≤ (line.map (boxWidth widths maxWidth)).sum := by
    refine List.sum_nonneg fun width member => ?_
    obtain ⟨index,_,rfl⟩ := List.mem_map.mp member
    exact MinimumRaggedness.boxWidth_nonneg sized index
  have one : (1 : ℚ) ≤ line.length := by
    exact_mod_cast List.length_pos_iff.mpr some
  exact add_nonneg boxes (mul_nonneg sized.space (by linarith))

/-- One line has less space left than two. -/
theorem merged_lt {first second : ℚ} (space : 0 ≤ spacing) (room : 0 < maxWidth)
    (nonneg : 0 ≤ first) (fits : second ≤ maxWidth) (later : 0 ≤ second)
    (together : first + spacing + second ≤ maxWidth) :
    (maxWidth - (first + spacing + second)) ^ 2 < (maxWidth - first) ^ 2 + (maxWidth - second) ^ 2 := by
  have less : (maxWidth - (first + spacing + second)) ^ 2 ≤ (maxWidth - first) ^ 2 := by
    refine pow_le_pow_left₀ (by linarith) (by linarith) 2
  rcases fits.eq_or_lt with full | left
  · -- then the first line is empty, and the second one takes all there is
    have none : first = 0 := by linarith
    have tight : spacing = 0 := by linarith
    rw [none,tight,full]
    nlinarith
  · nlinarith [sq_pos_of_pos (sub_pos.mpr left)]

theorem raggedness_append (widths : List ℚ) (maxWidth spacing : ℚ) (before after : List (List ℕ)) :
    raggedness widths maxWidth spacing (before ++ after) =
      raggedness widths maxWidth spacing before + raggedness widths maxWidth spacing after := by
  rw [raggedness,List.map_append,List.sum_append]
  rfl

theorem chain_of_least (sized : Sized widths maxWidth spacing) (room : 0 < maxWidth)
    (division : Division widths maxWidth spacing lines)
    (least : ∀ others, Division widths maxWidth spacing others →
      raggedness widths maxWidth spacing lines ≤ raggedness widths maxWidth spacing others) :
    lines.IsChain fun first second => maxWidth < lineWidth widths maxWidth spacing first + spacing +
      lineWidth widths maxWidth spacing second := by
  refine List.isChain_iff_forall_rel_of_append_cons_cons.mpr fun first second before after same => ?_
  refine lt_of_not_ge fun together => ?_
  subst same
  obtain ⟨complete,nonempty,fits⟩ := division
  have firstIn : first ∈ before ++ first :: second :: after := by simp
  have secondIn : second ∈ before ++ first :: second :: after := by simp
  have merged : Division widths maxWidth spacing (before ++ (first ++ second) :: after) := by
    refine ⟨by simpa using complete,fun line member => ?_,fun line member => ?_⟩
    · rcases List.mem_append.mp member with early | late
      · exact nonempty line (List.mem_append_left _ early)
      · rcases List.mem_cons.mp late with rfl | late
        · exact List.append_ne_nil_of_left_ne_nil (nonempty first firstIn) _
        · exact nonempty line (by simp [late])
    · rcases List.mem_append.mp member with early | late
      · exact fits line (List.mem_append_left _ early)
      · rcases List.mem_cons.mp late with rfl | late
        · rw [lineWidth_append]
          exact together
        · exact fits line (by simp [late])
  have less := merged_lt sized.space room (lineWidth_nonneg sized (nonempty first firstIn))
    (fits second secondIn) (lineWidth_nonneg sized (nonempty second secondIn)) together
  have bound := least _ merged
  rw [raggedness_append,raggedness_append] at bound
  simp only [raggedness,List.map_cons,List.sum_cons,lineWidth_append] at bound
  linarith

/-- What the children take with a space behind each does not depend on the lines. -/
theorem sum_lineWidth (complete : lines.flatten = List.range widths.length) :
    (lines.map fun line => lineWidth widths maxWidth spacing line + spacing).sum =
      ((List.range widths.length).map fun index => boxWidth widths maxWidth index + spacing).sum := by
  rw [← complete,List.map_flatten,List.sum_flatten,List.map_map]
  refine congrArg List.sum (List.map_congr_left fun line _ => ?_)
  rw [lineWidth_eq_extent,extent,sub_add_cancel]
  rfl

/-- In exact numbers, balanced lines are at least as many as those of `WrapType.fit`, and less than
twice as many. -/
theorem lines_similar (sized : Sized widths maxWidth spacing) (some : widths ≠ [])
    (narrow : ∀ width ∈ widths, width ≤ maxWidth) (room : 0 < maxWidth) :
    ∃ balanced fit,
      WrapSuper.lines {wrapType := .balanced, spacing := spacing} widths maxWidth = Option.some balanced ∧
      WrapSuper.lines {wrapType := .fit, spacing := spacing} widths maxWidth = Option.some fit ∧
      fit.length ≤ balanced.length ∧ balanced.length < 2 * fit.length := by
  obtain ⟨balanced,divided,division,least⟩ := MinimumRaggedness.divide_least sized
  refine ⟨balanced,_,divided,rfl,fit_fewest sized.space some sized.boxes narrow division,?_⟩
  have fit := fit_division widths maxWidth spacing some
  generalize fitLines (fun index => widths[index]?.getD 0) maxWidth spacing 0 []
    (List.range widths.length) = lines at fit
  have many : 1 ≤ lines.length := by
    refine List.length_pos_iff.mpr fun none => ?_
    have complete := congrArg List.length fit.complete
    rw [none,List.flatten_nil,List.length_nil,List.length_range] at complete
    exact some (List.length_eq_zero_iff.mp complete.symm)
  by_contra more
  have heavy : balanced.IsChain fun first second => maxWidth + spacing <
      (lineWidth widths maxWidth spacing first + spacing) +
        (lineWidth widths maxWidth spacing second + spacing) :=
    (chain_of_least sized room division least).imp fun first second wide => by linarith
  have nonneg : ∀ line ∈ balanced, 0 ≤ lineWidth widths maxWidth spacing line + spacing :=
    fun line member =>
      add_nonneg (lineWidth_nonneg sized (division.nonempty line member)) sized.space
  have lower := half_lt_sum nonneg heavy (by omega)
  have upper : (lines.map fun line => lineWidth widths maxWidth spacing line + spacing).sum ≤
      lines.length * (maxWidth + spacing) := by
    refine (List.sum_le_card_nsmul _ (maxWidth + spacing) fun width member => ?_).trans_eq
      (by rw [List.length_map,nsmul_eq_mul])
    obtain ⟨line,own,rfl⟩ := List.mem_map.mp member
    exact add_le_add (fit.fits line own) le_rfl
  rw [sum_lineWidth division.complete] at lower
  rw [sum_lineWidth fit.complete] at upper
  have half : (lines.length : ℚ) ≤ (balanced.length / 2 : ℕ) := by
    exact_mod_cast (by omega : lines.length ≤ balanced.length / 2)
  have positive : 0 ≤ maxWidth + spacing := add_nonneg sized.line sized.space
  have scaled := mul_le_mul_of_nonneg_right half positive
  linarith

theorem lines_similar_spaced : ∃ balanced fit,
    WrapSuper.lines {wrapType := .balanced, spacing := 1} [3,2,2,5] 6 = Option.some balanced ∧
    WrapSuper.lines {wrapType := .fit, spacing := 1} [3,2,2,5] 6 = Option.some fit ∧
    fit.length ≤ balanced.length ∧ balanced.length < 2 * fit.length := by
  have sized : Sized [3,2,2,5] 6 1 := by
    refine ⟨?_,?_,?_,?_⟩ <;> decide +kernel
  exact lines_similar sized (by simp) (by decide +kernel) (by norm_num)

end Balanced

/-! `computeDryLayout` goes through the children once, without keeping which line they are in. -/

structure Dry where
  mainAxisExtent : ℚ := 0
  crossAxisExtent : ℚ := 0
  runMainAxisExtent : ℚ := 0
  runCrossAxisExtent : ℚ := 0
  childCount : ℕ := 0

namespace Dry
variable (w : WrapSuper) (mainAxisLimit : ℚ) (d : Dry)

def broken : Dry where
  mainAxisExtent := max d.mainAxisExtent d.runMainAxisExtent
  crossAxisExtent := d.crossAxisExtent + (d.runCrossAxisExtent + w.lineSpacing)

def added (childSize : Size) : Dry := {d with
  runMainAxisExtent := d.runMainAxisExtent + childSize.width + if 0 < d.childCount then w.spacing else 0
  runCrossAxisExtent := max d.runCrossAxisExtent childSize.height
  childCount := d.childCount + 1}

def next (childSize : Size) : Dry :=
  if 0 < d.childCount ∧ mainAxisLimit < d.runMainAxisExtent + childSize.width + w.spacing then
    (d.broken w).added w childSize
  else d.added w childSize

def mainExtent : ℚ := max d.mainAxisExtent d.runMainAxisExtent
def crossExtent : ℚ := d.crossAxisExtent + d.runCrossAxisExtent

end Dry

/-- A child's own dry layout is the size that it takes under the same constraints. -/
def WrapSuper.computeDryLayout (w : WrapSuper) (constraints : BoxConstraints) : Size :=
  let d := (w.children.map fun child => child.layout 0 constraints.maxWidth).foldl
    (Dry.next w constraints.maxWidth) {}
  constraints.constrain ⟨d.mainExtent,d.crossExtent⟩

section Dry
variable {w : WrapSuper} {constraints : BoxConstraints} {sizes : List Size} {limit x : ℚ} {d : Dry}
  {line rest : List ℕ} {l : Layout}

def widest (sizes : List Size) (spacing start : ℚ) (lines : List (List ℕ)) : ℚ :=
  lines.foldl (fun widest line =>
    max widest (extent (fun index => (sizeAt sizes index).width) spacing line)) start

/-- What is kept of a line: how far it reaches and how high it is. -/
structure Run (w : WrapSuper) (sizes : List Size) (line : List ℕ) (d : Dry) : Prop where
  some : 0 < d.childCount
  main : d.runMainAxisExtent = extent (fun index => (sizeAt sizes index).width) w.spacing line
  cross : d.runCrossAxisExtent = lineHeight sizes line

theorem run_added (run : Run w sizes line d) (index : ℕ) :
    Run w sizes (line ++ [index]) (d.added w (sizeAt sizes index)) := by
  refine ⟨Nat.succ_pos _,?_,?_⟩
  · rw [Dry.added,if_pos run.some,run.main,extent_append,extent_singleton]
    ring
  · rw [Dry.added,run.cross,lineHeight,lineHeight,List.foldl_append]
    rfl

theorem run_first (none : d.childCount = 0) (main : d.runMainAxisExtent = 0)
    (cross : d.runCrossAxisExtent = 0) (index : ℕ) :
    Run w sizes [index] (d.added w (sizeAt sizes index)) := by
  refine ⟨Nat.succ_pos _,?_,?_⟩
  · rw [Dry.added,none,main,extent_singleton]
    simp
  · rw [Dry.added,cross]
    rfl

variable (x rest) in
/-- The rest of the children adds the same lines to both. -/
theorem foldl_dry (narrow : ∀ index ∈ rest, (sizeAt sizes index).width ≤ limit)
    (run : Run w sizes line d) (reached : x = d.runMainAxisExtent + w.spacing) :
    let lines := fitLines (fun index => (sizeAt sizes index).width) limit w.spacing x line rest
    let last := (rest.map (sizeAt sizes)).foldl (Dry.next w limit) d
    last.mainExtent = widest sizes w.spacing d.mainAxisExtent lines ∧
      last.crossExtent = d.crossAxisExtent + extent (lineHeight sizes) w.lineSpacing lines := by
  induction rest generalizing x line d with
  | nil =>
    simp only [fitLines,List.map_nil,List.foldl_nil]
    rw [Dry.mainExtent,Dry.crossExtent,run.main,run.cross,extent_singleton]
    exact ⟨rfl,rfl⟩
  | cons index rest ih =>
    obtain ⟨first,later⟩ := List.forall_mem_cons.mp narrow
    have breaks : (0 < d.childCount ∧
        limit < d.runMainAxisExtent + (sizeAt sizes index).width + w.spacing) ↔
          0 < x ∧ limit < x + (sizeAt sizes index).width := by
      have same : d.runMainAxisExtent + (sizeAt sizes index).width + w.spacing =
          x + (sizeAt sizes index).width := by
        rw [reached]
        ring
      rw [same]
      refine and_congr_left fun wide => ⟨fun _ => ?_,fun _ => run.some⟩
      linarith
    simp only [fitLines,List.map_cons,List.foldl_cons,Dry.next,breaks]
    split
    · have opened : Run w sizes [index] ((d.broken w).added w (sizeAt sizes index)) :=
        run_first rfl rfl rfl index
      obtain ⟨main,cross⟩ := ih later opened (x := (sizeAt sizes index).width + w.spacing) (by
        rw [opened.main,extent_singleton])
      refine ⟨main.trans ?_,cross.trans ?_⟩
      · rw [widest,widest,List.foldl_cons,← run.main]
        rfl
      · rw [extent_cons,← run.cross]
        exact (add_assoc _ _ _)
    · have longer := run_added run index
      obtain ⟨main,cross⟩ := ih later longer (x := x + ((sizeAt sizes index).width + w.spacing)) (by
        rw [Dry.added,if_pos run.some,reached]
        ring)
      exact ⟨main,cross⟩

theorem dry_extents (space : 0 ≤ w.spacing) (narrow : ∀ index, (sizeAt sizes index).width ≤ limit) :
    let lines := fitLines (fun index => (sizeAt sizes index).width) limit w.spacing 0 []
      (List.range sizes.length)
    let last := sizes.foldl (Dry.next w limit) {}
    last.mainExtent = widest sizes w.spacing 0 lines ∧
      last.crossExtent = extent (lineHeight sizes) w.lineSpacing lines := by
  have listed : (List.range sizes.length).map (sizeAt sizes) = sizes := by
    refine List.ext_getElem (by simp) fun n first second => ?_
    simp [sizeAt,second]
  cases length : sizes.length with
  | zero =>
    rw [List.length_eq_zero_iff.mp length]
    simp [fitLines,Dry.mainExtent,Dry.crossExtent,widest,extent,lineHeight,space]
  | succ n =>
    rw [length,List.range_succ_eq_map,List.map_cons] at listed
    simp only [List.range_succ_eq_map,fitLines_cons]
    have opened : Run w sizes [0] (Dry.added w {} (sizeAt sizes 0)) := run_first rfl rfl rfl 0
    have first : Dry.next w limit {} (sizeAt sizes 0) = Dry.added w {} (sizeAt sizes 0) :=
      if_neg fun broken => lt_irrefl _ broken.1
    obtain ⟨main,cross⟩ := foldl_dry ((sizeAt sizes 0).width + w.spacing)
      ((List.range n).map Nat.succ) (fun index _ => narrow index) opened (by
        rw [opened.main,extent_singleton])
    have whole := congrArg (List.foldl (Dry.next w limit) {}) listed
    rw [List.foldl_cons,first] at whole
    rw [← whole]
    exact ⟨main,cross.trans (zero_add _)⟩

theorem widest_spec (sizes : List Size) (spacing start : ℚ) (lines : List (List ℕ)) :
    (∀ line ∈ lines, extent (fun index => (sizeAt sizes index).width) spacing line ≤
      widest sizes spacing start lines) ∧ start ≤ widest sizes spacing start lines ∧
    (widest sizes spacing start lines = start ∨ ∃ line ∈ lines,
      extent (fun index => (sizeAt sizes index).width) spacing line =
        widest sizes spacing start lines) := by
  induction lines generalizing start with
  | nil => exact ⟨by simp,le_rfl,.inl rfl⟩
  | cons line rest ih =>
    obtain ⟨each,kept,attained⟩ :=
      ih (max start (extent (fun index => (sizeAt sizes index).width) spacing line))
    rw [widest,List.foldl_cons,← widest]
    refine ⟨List.forall_mem_cons.mpr ⟨(le_max_right ..).trans kept,each⟩,
      (le_max_left ..).trans kept,?_⟩
    rcases attained with same | ⟨other,member,same⟩
    · rcases max_choice start (extent (fun index => (sizeAt sizes index).width) spacing line) with
        old | new
      · exact .inl (same.trans old)
      · exact .inr ⟨line,List.mem_cons_self,(same.trans new).symm⟩
    · exact .inr ⟨other,List.mem_cons_of_mem _ member,same⟩

theorem constrain_width_iff (constraints : BoxConstraints) {width height : ℚ}
    (fits : width ≤ constraints.maxWidth) :
    (constraints.constrain ⟨width,height⟩).width = constraints.maxWidth ↔
      constraints.minWidth = constraints.maxWidth ∨ width = constraints.maxWidth := by
  rw [BoxConstraints.constrain,min_eq_left fits]
  constructor
  · intro same
    rcases max_choice constraints.minWidth width with least | own
    · exact .inl (least.symm.trans same)
    · exact .inr (own.symm.trans same)
  · rintro (tight | full)
    · exact (max_eq_left (fits.trans tight.ge)).trans tight
    · rw [full]
      exact max_eq_right constraints.widths.2

/-- Both go through the same lines. -/
theorem fit_layout (valid : Valid w constraints) (fit : w.wrapFit = .min) (type : w.wrapType = .fit) :
    ∃ sizes lines, w.performLayout constraints = some (w.arrange constraints sizes lines) ∧
      w.computeDryLayout constraints = constraints.constrain
        ⟨widest sizes w.spacing 0 lines,extent (lineHeight sizes) w.lineSpacing lines⟩ ∧
      (∀ index, 0 ≤ (sizeAt sizes index).width + w.spacing) ∧
      ∀ line ∈ lines, extent (fun index => (sizeAt sizes index).width) w.spacing line ≤
        constraints.maxWidth := by
  have room : 0 ≤ constraints.maxWidth := constraints.widths.1.trans constraints.widths.2
  obtain ⟨sizes,children⟩ : ∃ sizes, sizes = w.children.map fun child =>
    child.layout 0 constraints.maxWidth := ⟨_,rfl⟩
  have bounds : ∀ index, 0 ≤ (sizeAt sizes index).width ∧
      (sizeAt sizes index).width ≤ constraints.maxWidth := by
    intro index
    rw [children,sizeAt,List.getElem?_map]
    cases w.children[index]? with
    | none => exact ⟨le_rfl,room⟩
    | some child => exact child.within _ _ le_rfl room
  have widths : (fun index => (sizes.map Size.width)[index]?.getD 0) =
      fun index => (sizeAt sizes index).width := by
    funext index
    rw [sizeAt,List.getElem?_map]
    cases sizes[index]? <;> rfl
  obtain ⟨main,cross⟩ := dry_extents valid.space fun index => (bounds index).2
  refine ⟨sizes,fitLines (fun index => (sizeAt sizes index).width) constraints.maxWidth w.spacing 0 []
    (List.range sizes.length),?_,?_,fun index => add_nonneg (bounds index).1 valid.space,?_⟩
  · rw [WrapSuper.performLayout,if_pos fit,WrapSuper.performLayoutMin,← children,WrapSuper.lines,
      type]
    simp only [Option.map_some,List.length_map,widths]
  · rw [WrapSuper.computeDryLayout,← children,← main,← cross]
  · have clipped : (fun index => min (sizeAt sizes index).width constraints.maxWidth) =
        fun index => (sizeAt sizes index).width := by
      funext index
      exact min_eq_left (bounds index).2
    have fits := @fitLines_fits (fun index => (sizeAt sizes index).width) constraints.maxWidth
      w.spacing 0 [] (List.range sizes.length)
    simp only [clipped] at fits
    refine fits ?_ ?_
    · rw [extent,List.map_nil,List.sum_nil]
      linarith [valid.space]
    · rw [extent,List.map_nil,List.sum_nil,sub_add_cancel]

/-- Children that keep their width in lines that take all they can, in exact numbers: what is
computed without laying them out has the height of the layout, and its width only if a line is
full. -/
theorem dry_agrees_iff (valid : Valid w constraints) (fit : w.wrapFit = .min)
    (type : w.wrapType = .fit) :
    ∃ l, w.performLayout constraints = some l ∧
      (w.computeDryLayout constraints).height = l.size.height ∧
      (w.computeDryLayout constraints = l.size ↔
        constraints.minWidth = constraints.maxWidth ∨ ∃ row ∈ l.rows, Filled l row) := by
  obtain ⟨sizes,lines,laidOut,dry,wide,fits⟩ := fit_layout valid fit type
  obtain ⟨each,kept,attained⟩ := widest_spec sizes w.spacing 0 lines
  have room : 0 ≤ constraints.maxWidth := constraints.widths.1.trans constraints.widths.2
  have narrow : widest sizes w.spacing 0 lines ≤ constraints.maxWidth := by
    rcases attained with none | ⟨line,stacked,same⟩
    · exact none.trans_le room
    · exact same.symm.trans_le (fits line stacked)
  have height : (w.computeDryLayout constraints).height =
      (w.arrange constraints sizes lines).size.height := by
    rw [dry]
    rfl
  have agrees : w.computeDryLayout constraints = (w.arrange constraints sizes lines).size ↔
      (w.computeDryLayout constraints).width = constraints.maxWidth := by
    rw [← constrain_width constraints (extent (lineHeight sizes) w.lineSpacing lines)]
    exact ⟨fun same => congrArg Size.width same,fun same => Size.ext same height⟩
  refine ⟨_,laidOut,height,?_⟩
  rw [agrees,dry,constrain_width_iff constraints narrow]
  constructor
  · rintro (tight | full)
    · exact .inl tight
    · have nothing (zero : constraints.maxWidth ≤ 0) : constraints.minWidth = constraints.maxWidth :=
        le_antisymm constraints.widths.2 (zero.trans constraints.widths.1)
      rcases attained with none | ⟨line,stacked,same⟩
      · exact .inl (nothing (full.symm.trans none).le)
      · rcases eq_or_ne line [] with rfl | some
        · rw [full,extent,List.map_nil,List.sum_nil] at same
          exact .inl (nothing (by linarith [valid.space]))
        · have listed : (placed (lineHeight sizes) w.lineSpacing 0 lines).map Prod.fst = lines :=
            placed_fst
          rw [← listed] at stacked
          obtain ⟨line,placed,rfl⟩ := List.mem_map.mp stacked
          refine .inr ⟨_,List.mem_map_of_mem placed,?_⟩
          exact (filled_iff some wide (same.trans full).le).mpr (same.trans full)
  · rintro (tight | ⟨row,member,filled⟩)
    · exact .inl tight
    · obtain ⟨line,stacked,rfl⟩ := List.mem_map.mp member
      have some : line.1 ≠ [] := by
        obtain ⟨⟨p,inside,_⟩,_⟩ := filled
        rintro none
        rw [WrapSuper.row,none] at inside
        contradiction
      have full := (filled_iff some wide (fits line.1 (item_of_mem stacked))).mp filled
      exact .inr (le_antisymm narrow (full.symm.trans_le (each line.1 (item_of_mem stacked))))

/-- The buttons as they are. -/
def tags : WrapSuper := {buttons with wrapFit := .min}

theorem dry_agrees_tags : ∃ l, tags.performLayout screen = some l ∧ l.size = ⟨10,7⟩ ∧
    (tags.computeDryLayout screen).height = l.size.height ∧
    (tags.computeDryLayout screen = l.size ↔
      screen.minWidth = screen.maxWidth ∨ ∃ row ∈ l.rows, Filled l row) := by
  have valid : Valid tags screen := by
    refine ⟨?_,?_,?_,trivial⟩ <;> decide +kernel
  have size : (tags.performLayout screen).map Layout.size = some ⟨10,7⟩ := by decide +kernel
  obtain ⟨l,laidOut,agrees⟩ := dry_agrees_iff valid rfl rfl
  rw [laidOut] at size
  exact ⟨l,laidOut,Option.some.inj size,agrees⟩

/-- No line of these is full. -/
example : tags.computeDryLayout screen = ⟨8,7⟩ := by decide +kernel

end Dry

end Neuro.WrapLayout
