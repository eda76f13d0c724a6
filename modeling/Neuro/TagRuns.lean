import Neuro.Lib.Wrapping
import Neuro.TagSearch

/-! The tags as `Wrap` draws them in the width that has been searched for. Both searches leave
more room beside a tag than the screens do, but the one of the filter screen measures the texts
without the letter spacing they are drawn with. -/
namespace Neuro.TagRuns
open Neuro.Lib RowBreaking Wrapping TagWidth TagSearch

/-- Nothing is scaled: the function returns before it looks at the screen. -/
def getProportionateScreenWidth (inputWidth : ℚ) : ℚ := inputWidth

def statusWidth (media : MediaQuery) (con : HashTagController) : ℚ :=
  if con.listHash.length < 10 then media.width - getProportionateScreenWidth 30
  else con.widthCustom

section Measured
variable (toUpperCase : String → String) (textWidth : String → ℚ≥0)

def textSize (letterSpacing : ℚ≥0) (text : String) : ℚ≥0 :=
  textWidth text + letterSpacing * text.length

def tile (element : HashTag) : ℚ :=
  textSize textWidth (168 / 100) (toUpperCase element.name) + 48

/-- The runs of the `Wrap` with the tags, the same on both screens. -/
def drawn (width : ℚ) (listHash : List HashTag) : Nat :=
  runs (getProportionateScreenWidth 12) width (listHash.map (tile toUpperCase textWidth))

def filterSearch (con : HashTagController) (start : ℚ) : HashTagController :=
  con.getNewWidth3 toUpperCase (textSize textWidth 0) con.listHash start

def statusSearch (media : MediaQuery) (con : HashTagController) (fuel : Nat) (start : ℚ) :
    Option HashTagController :=
  getNewWidth toUpperCase (textSize textWidth (168 / 100)) media con con.listHash fuel start

/-- Neither screen draws more rows than its search has allowed. -/
structure Agrees (media : MediaQuery) (con : HashTagController) (start3 start : ℚ) : Prop where
  filter : drawn toUpperCase textWidth (filterSearch toUpperCase textWidth con start3).widthCustom
    con.listHash ≤ 3
  status : ∀ fuel t, statusSearch toUpperCase textWidth media con fuel start = some t →
    10 ≤ t.listHash.length →
      drawn toUpperCase textWidth (statusWidth media t) t.listHash ≤ media.totalRows

/-- What the search of the filter screen measures, in a row that is there from the start. -/
def measured (listHash : List HashTag) : List ℚ :=
  0 :: listHash.map (tagWidth toUpperCase (textSize textWidth 0))

/-- Every width in steps of two that holds the measured tags in three rows, however they are
broken, holds the tiles in three rows as well. -/
def Roomy (listHash : List HashTag) (start : ℚ) : Prop :=
  ∀ k : ℕ, InRows 0 (start + 2 * k) 3 (measured toUpperCase textWidth listHash) →
    InRows 12 (start + 2 * k) 3 (listHash.map (tile toUpperCase textWidth))

variable {toUpperCase textWidth} {media : MediaQuery} {con t : HashTagController}
  {listHash : List HashTag} {fuel : Nat} {start width : ℚ}

theorem tile_nonneg (element : HashTag) : 0 ≤ tile toUpperCase textWidth element := by
  have text : (0 : ℚ) ≤ textSize textWidth (168 / 100) (toUpperCase element.name) :=
    NNRat.cast_nonneg _
  unfold tile
  linarith

theorem tiles_nonneg : ∀ item ∈ listHash.map (tile toUpperCase textWidth), 0 ≤ item := by
  intro item member
  obtain ⟨element,_,rfl⟩ := List.mem_map.mp member
  exact tile_nonneg element

theorem drawn_le_iff {n : Nat} : drawn toUpperCase textWidth width listHash ≤ n ↔
    InRows 12 width n (listHash.map (tile toUpperCase textWidth)) :=
  runs_le_iff (by norm_num [getProportionateScreenWidth]) tiles_nonneg

theorem row_lt_iff : row toUpperCase (textSize textWidth 0) listHash width < 3 ↔
    InRows 0 width 3 (measured toUpperCase textWidth listHash) := by
  have nonneg : ∀ item ∈ measured toUpperCase textWidth listHash, 0 ≤ item :=
    List.forall_mem_cons.mpr ⟨le_rfl,widths_nonneg listHash⟩
  rw [← runs_le_iff le_rfl nonneg,measured,runs_zero]
  exact Nat.lt_iff_add_one_le

theorem filter_iff : drawn toUpperCase textWidth
    (filterSearch toUpperCase textWidth con start).widthCustom con.listHash ≤ 3 ↔
      Roomy toUpperCase textWidth con.listHash start := by
  obtain ⟨⟨⟨k,reached⟩,rows⟩,least⟩ :=
    newWidth3_least toUpperCase (textSize textWidth 0) con.listHash start
  rw [drawn_le_iff]
  constructor
  · intro held k fits
    exact held.mono (least ⟨⟨k,rfl⟩,row_lt_iff.mpr fits⟩)
  · intro roomy
    rw [filterSearch,HashTagController.getNewWidth3,reached]
    exact roomy k (row_lt_iff.mp (reached ▸ rows))

theorem narrower : List.Forall₂ (fun item other => item ≤ other ∧ 12 + item ≤ other)
    (listHash.map (tile toUpperCase textWidth))
    (listHash.map (tagWidth toUpperCase (textSize textWidth (168 / 100)))) := by
  refine List.forall₂_map_left_iff.mpr (List.forall₂_map_right_iff.mpr ?_)
  refine List.forall₂_same.mpr fun element _ => ?_
  unfold tile tagWidth
  constructor <;> linarith

theorem status_drawn (found : statusSearch toUpperCase textWidth media con fuel start = some t)
    (many : 10 ≤ t.listHash.length) :
    drawn toUpperCase textWidth (statusWidth media t) t.listHash ≤ media.totalRows := by
  rw [statusSearch,getNewWidth_eq_search] at found
  obtain ⟨width,searched,rfl⟩ := Option.map_eq_some_iff.mp found
  have rows : row toUpperCase (textSize textWidth (168 / 100)) con.listHash width <
      media.totalRows := (StepSearch.search_fits searched).2
  have runs : drawn toUpperCase textWidth width con.listHash ≤
      row toUpperCase (textSize textWidth (168 / 100)) con.listHash width + 1 :=
    runs_le_breaks (by norm_num [getProportionateScreenWidth]) tiles_nonneg narrower
  rw [statusWidth,if_neg (not_lt.mpr many)]
  have counted : (drawn toUpperCase textWidth width con.listHash : ℤ) ≤
      row toUpperCase (textSize textWidth (168 / 100)) con.listHash width + 1 := by
    exact_mod_cast runs
  exact counted.trans rows

/-- On the neurological-status screen the tags are never drawn in more rows than the search has
allowed, and on the filter screen they are not exactly when every width that could be found has
room for the tiles. -/
theorem drawn_rows_agree_iff (toUpperCase : String → String) (textWidth : String → ℚ≥0)
    (media : MediaQuery) (con : HashTagController) (start3 start : ℚ) :
    Agrees toUpperCase textWidth media con start3 start ↔
      Roomy toUpperCase textWidth con.listHash start3 := by
  constructor
  · intro agrees
    exact filter_iff.mp agrees.filter
  · intro roomy
    exact ⟨filter_iff.mpr roomy,fun fuel t found many => status_drawn found many⟩

def hobbies : HashTagController where
  listHash := [⟨"1","BASKETBALL",false⟩,⟨"2","VOLLEYBALL",false⟩,⟨"3","MEDITATION",false⟩,
    ⟨"4","LITERATURE",false⟩,⟨"5","FILMMAKING",false⟩,⟨"6","COLLECTING",false⟩]

/-- In the width found for these tags each of them is drawn in a row of its own. -/
theorem filter_rows_overflow : ¬ ∀ (toUpperCase : String → String) (textWidth : String → ℚ≥0)
    (media : MediaQuery) (con : HashTagController) (start3 start : ℚ),
    Agrees toUpperCase textWidth media con start3 start := by
  intro claimed
  have roomy := filter_iff.mp
    (claimed id (fun text => 6 * text.length) ⟨360,720,24⟩ hobbies (183 / 2) 0).filter
  have width : (183 / 2 + 2 * (77 : ℕ) : ℚ) = 491 / 2 := by norm_num
  have fits : InRows 0 (491 / 2) 3 (measured id (fun text => 6 * text.length) hobbies.listHash) := by
    exact row_lt_iff.mp (by decide +kernel)
  have overflow := drawn_le_iff.mpr (roomy 77 (by rw [width]; exact fits))
  rw [width] at overflow
  exact absurd overflow (by decide +kernel)

end Measured

end Neuro.TagRuns
