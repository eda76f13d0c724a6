import Neuro.FeedsFilter
import Neuro.Lib.StepSearch

/-! The width of the tags on the neurological-status screen. It is searched for as on the filter
screen, but with the number of rows that fit below the app bar: on a low screen that is none,
and the recursion does not end. -/
namespace Neuro.TagSearch
open Neuro.Lib RowBreaking StepSearch TagWidth
open FeedsFilter (toInt)

/-- The logical size of the screen as it is held, and its padding. -/
structure MediaQuery where
  width : ℚ
  height : ℚ
  paddingTop : ℚ
  deriving DecidableEq, Repr

def kToolbarHeight : ℚ := 56

def MediaQuery.area (media : MediaQuery) : ℚ :=
  media.height - (media.paddingTop + kToolbarHeight) - 281

def MediaQuery.totalRows (media : MediaQuery) : ℤ := toInt (media.area / 50)

section Measured
variable (toUpperCase : String → String) (textWidth : String → ℚ≥0)

/-- `none` when the recursion has not ended after so many calls. -/
def getNewWidth (media : MediaQuery) (s : HashTagController) (value : List HashTag) :
    Nat → ℚ → Option HashTagController
  | 0,_ => none
  | fuel + 1,newWidthCustom =>
    if media.totalRows ≤ row toUpperCase textWidth value newWidthCustom then
      getNewWidth media s value fuel (newWidthCustom + 2)
    else some {s with widthCustom := newWidthCustom}

def Fits (media : MediaQuery) (value : List HashTag) (width : ℚ) : Prop :=
  row toUpperCase textWidth value width < media.totalRows

instance (media : MediaQuery) (value : List HashTag) :
    DecidablePred (Fits toUpperCase textWidth media value) :=
  fun _ => inferInstanceAs (Decidable (_ < _))

/-- The search ends, with the least width at which the rows fit. -/
def Found (media : MediaQuery) (s : HashTagController) (value : List HashTag) (start : ℚ) : Prop :=
  ∃ fuel t, getNewWidth toUpperCase textWidth media s value fuel start = some t ∧
    IsLeast {width | (∃ k : ℕ, width = start + 2 * k) ∧
      Fits toUpperCase textWidth media value width} t.widthCustom

variable {toUpperCase textWidth} {media : MediaQuery} {s t : HashTagController}
  {value : List HashTag} {fuel : Nat} {start width : ℚ}

theorem getNewWidth_eq_search : getNewWidth toUpperCase textWidth media s value fuel start =
    (search (Fits toUpperCase textWidth media value) 2 fuel start).map
      fun width => {s with widthCustom := width} := by
  induction fuel generalizing start with
  | zero => rfl
  | succ fuel ih =>
    rw [getNewWidth,search,ih]
    by_cases fits : Fits toUpperCase textWidth media value start
    · rw [if_pos fits,if_neg (not_le.mpr fits)]
      rfl
    · rw [if_neg fits,if_pos (not_lt.mp fits)]

theorem steps_two : Steps 2 start width ↔ ∃ k : ℕ, width = start + 2 * k :=
  exists_congr fun k => by rw [nsmul_eq_mul,mul_comm]

theorem toInt_pos {value : ℚ} : 0 < toInt value ↔ 1 ≤ value := by
  have den : (0 : ℤ) < value.den := Int.natCast_pos.mpr value.den_pos
  have floor : 1 ≤ value ↔ 0 < value.num / value.den := by
    rw [← Rat.floor_def',← Int.add_one_le_iff]
    exact_mod_cast Int.le_floor.symm
  rw [floor,toInt]
  rcases le_or_gt 0 value.num with nonneg | negative
  · rw [Int.tdiv_eq_ediv_of_nonneg nonneg]
  · have below := Int.ediv_neg_of_neg_of_pos negative den
    have truncated : 0 ≤ (-value.num).tdiv value.den := Int.tdiv_nonneg (by omega) den.le
    rw [Int.neg_tdiv] at truncated
    omega

theorem totalRows_pos : 0 < media.totalRows ↔ 50 ≤ media.area := by
  rw [MediaQuery.totalRows,toInt_pos,le_div_iff₀ (by norm_num)]
  norm_num

theorem row_total : ∃ k : ℕ, row toUpperCase textWidth value (start + k • 2) = 0 := by
  have enough := Nat.le_ceil ((total toUpperCase textWidth value - start) / 2)
  refine ⟨⌈(total toUpperCase textWidth value - start) / 2⌉₊,
    breaks_eq_zero (widths_nonneg value) ?_⟩
  rw [nsmul_eq_mul]
  change total toUpperCase textWidth value ≤ _
  linarith

theorem not_found (low : media.area < 50) :
    ¬ Found toUpperCase textWidth media s value start := by
  rintro ⟨_,_,_,least⟩
  have fits : _ < media.totalRows := least.1.2
  have none : ¬ 0 < media.totalRows := fun positive => not_le.mpr low (totalRows_pos.mp positive)
  omega

/-- `getNewWidth` ends, with the least width in steps of two at which the rows fit, exactly when
the area below the app bar has the height of a row. -/
theorem getNewWidth_least_iff (toUpperCase : String → String) (textWidth : String → ℚ≥0)
    (media : MediaQuery) (s : HashTagController) (value : List HashTag) (start : ℚ) :
    Found toUpperCase textWidth media s value start ↔
      50 ≤ media.height - (media.paddingTop + 56) - 281 := by
  change _ ↔ 50 ≤ media.area
  constructor
  · intro found
    by_contra low
    exact not_found (not_le.mp low) found
  · intro high
    have positive := totalRows_pos.mpr high
    obtain ⟨k,none⟩ : ∃ k : ℕ, row toUpperCase textWidth value (start + k • 2) = 0 := row_total
    have ends : ∃ k : ℕ, Fits toUpperCase textWidth media value (start + k • 2) :=
      ⟨k,by rw [Fits,none]; exact positive⟩
    obtain ⟨fuel,width,found⟩ := search_ends_iff.mpr ends
    refine ⟨fuel,{s with widthCustom := width},?_,?_⟩
    · rw [getNewWidth_eq_search,found]
      rfl
    · have least := search_least (by norm_num) found
      simpa only [steps_two] using least

/-- In half of a screen that is 720 high there is no row for the tags. -/
theorem low_screen_never_ends : ¬ ∀ (toUpperCase : String → String) (textWidth : String → ℚ≥0)
    (media : MediaQuery) (s : HashTagController) (value : List HashTag) (start : ℚ),
    Found toUpperCase textWidth media s value start := by
  intro claimed
  have low : (⟨360,360,24⟩ : MediaQuery).area < 50 := by norm_num [MediaQuery.area,kToolbarHeight]
  exact not_found low (claimed id (fun text => 6 * text.length) ⟨360,360,24⟩ {}
    [⟨"3","CHESS",false⟩] 12)

end Measured

end Neuro.TagSearch
