import Mathlib.Algebra.BigOperators.Ring.Finset
import Mathlib.Tactic.Linarith
import Mathlib.Tactic.Ring
import Neuro.Lib.Separated
import Neuro.RaggednessSearch

/-! Breaking boxes into lines so that the squares of what is left free in the lines add up to as
little as possible. Widths are taken as exact numbers. -/
namespace Neuro.MinimumRaggedness
open Neuro.Lib Segmentation

/-- What stands for a line that is too wide. -/
def infinity : ℚ := 9007199254740991

def initial : Table where
  minimum k := if k = 0 then 0 else infinity
  breaks _ := 0

/-- The last loop of `divide`, with the lines found so far in front. -/
def indexes (breaks : ℕ → ℕ) : ℕ → ℕ → List (List ℕ) → Option (List (List ℕ))
  | _,0,found => some found
  | 0,_ + 1,_ => none
  | fuel + 1,j + 1,found =>
    let i := breaks (j + 1)
    indexes breaks fuel i (List.range' i (j + 1 - i) :: found)

section Divide
variable (boxWidths : List ℚ) (maxWidth spacing : ℚ)

def offsets : List ℚ := boxWidths.scanl (fun last boxWidth => last + min boxWidth maxWidth) 0

def offset (k : ℕ) : ℚ := (offsets boxWidths maxWidth)[k]?.getD 0

def width (i j : ℕ) : ℚ :=
  offset boxWidths maxWidth j - offset boxWidths maxWidth i + spacing * ((j : ℚ) - i - 1)

def cost (m : ℚ) (i j : ℕ) : ℚ :=
  if maxWidth < width boxWidths maxWidth spacing i j then infinity
  else m + (maxWidth - width boxWidths maxWidth spacing i j) ^ 2

def divide : Option (List (List ℕ)) :=
  let count := boxWidths.length
  let t := loop (cost boxWidths maxWidth spacing) (count + 1) 0 0 initial
  indexes t.breaks count count []

/-! What the result is for. -/

/-- No box counts as wider than a line. -/
def boxWidth (k : ℕ) : ℚ := min (boxWidths[k]?.getD 0) maxWidth

def lineWidth (line : List ℕ) : ℚ :=
  (line.map (boxWidth boxWidths maxWidth)).sum + spacing * ((line.length : ℚ) - 1)

/-- All boxes are in the lines, in their order, and no line is empty or too wide. -/
structure Division (lines : List (List ℕ)) : Prop where
  complete : lines.flatten = List.range boxWidths.length
  nonempty : ∀ line ∈ lines, line ≠ []
  fits : ∀ line ∈ lines, lineWidth boxWidths maxWidth spacing line ≤ maxWidth

def raggedness (lines : List (List ℕ)) : ℚ :=
  (lines.map fun line => (maxWidth - lineWidth boxWidths maxWidth spacing line) ^ 2).sum

/-- Widths are not negative, and one box a line stays below what stands for infinity. -/
structure Sized : Prop where
  boxes : ∀ boxWidth ∈ boxWidths, 0 ≤ boxWidth
  line : 0 ≤ maxWidth
  space : 0 ≤ spacing
  small : (boxWidths.map fun boxWidth => (maxWidth - min boxWidth maxWidth) ^ 2).sum < infinity

end Divide

section Widths
variable {boxWidths : List ℚ} {maxWidth spacing : ℚ} {i j k : ℕ}

theorem offset_eq (inside : k ≤ boxWidths.length) : offset boxWidths maxWidth k =
    ((List.range k).map (boxWidth boxWidths maxWidth)).sum := by
  have prefixSum (boxes : List ℚ) (start : ℚ) :
      boxes.foldl (fun last boxWidth => last + min boxWidth maxWidth) start =
        start + (boxes.map fun boxWidth => min boxWidth maxWidth).sum := by
    induction boxes generalizing start with
    | nil => simp
    | cons box rest ih => rw [List.foldl_cons,ih,List.map_cons,List.sum_cons,add_assoc]
  have taken : (boxWidths.take k).map (fun boxWidth => min boxWidth maxWidth) =
      (List.range k).map (boxWidth boxWidths maxWidth) := by
    refine List.ext_getElem (by simp [inside]) fun n first second => ?_
    have bound : n < boxWidths.length := by
      simp only [List.length_map,List.length_range] at second
      omega
    simp [boxWidth,bound]
  rw [offset,offsets,List.getElem?_scanl,if_pos inside,Option.getD_some,prefixSum,zero_add,taken]

theorem width_eq (before : i < j) (inside : j ≤ boxWidths.length) :
    width boxWidths maxWidth spacing i j =
      lineWidth boxWidths maxWidth spacing (List.range' i (j - i)) := by
  obtain ⟨d,rfl⟩ := Nat.exists_eq_add_of_le before.le
  have parts : List.range (i + d) = List.range i ++ List.range' i d := by
    rw [List.range_eq_range',List.range_eq_range',← List.range'_append]
    simp
  rw [width,lineWidth,offset_eq inside,offset_eq (before.le.trans inside),Nat.add_sub_cancel_left,
    parts,List.map_append,List.sum_append,List.length_range']
  push_cast
  ring

end Widths

section Costs
variable {boxWidths : List ℚ} {maxWidth spacing : ℚ} {i i' j j' k : ℕ}

theorem boxWidth_nonneg (sized : Sized boxWidths maxWidth spacing) (k : ℕ) :
    0 ≤ boxWidth boxWidths maxWidth k := by
  refine le_min ?_ sized.line
  cases found : boxWidths[k]? with
  | none => exact le_rfl
  | some box => exact sized.boxes box (List.mem_of_getElem? found)

theorem boxWidth_le (k : ℕ) : boxWidth boxWidths maxWidth k ≤ maxWidth := min_le_right ..

/-- What one more box takes in a line. -/
theorem width_succ (inside : j < boxWidths.length) :
    width boxWidths maxWidth spacing i (j + 1) =
      width boxWidths maxWidth spacing i j + (boxWidth boxWidths maxWidth j + spacing) := by
  rw [width,width,offset_eq (Nat.succ_le_of_lt inside),offset_eq inside.le,List.range_succ,
    List.map_append,List.sum_append]
  push_cast [List.map_cons,List.map_nil,List.sum_singleton]
  ring

theorem width_pred (inside : i < boxWidths.length) :
    width boxWidths maxWidth spacing i j =
      width boxWidths maxWidth spacing (i + 1) j + (boxWidth boxWidths maxWidth i + spacing) := by
  rw [width,width,offset_eq (Nat.succ_le_of_lt inside),offset_eq inside.le,List.range_succ,
    List.map_append,List.sum_append]
  push_cast [List.map_cons,List.map_nil,List.sum_singleton]
  ring

/-- A box fits into a line of its own. -/
theorem width_single (inside : i < boxWidths.length) :
    width boxWidths maxWidth spacing i (i + 1) = boxWidth boxWidths maxWidth i := by
  rw [width_succ inside,width]
  ring

/-- What a line gets wider by when it ends later does not depend on where it starts. -/
theorem width_parallel : width boxWidths maxWidth spacing i j' - width boxWidths maxWidth spacing i j =
    width boxWidths maxWidth spacing i' j' - width boxWidths maxWidth spacing i' j := by
  simp only [width]
  ring

theorem width_mono (sized : Sized boxWidths maxWidth spacing) (later : j ≤ j')
    (inside : j' ≤ boxWidths.length) :
    width boxWidths maxWidth spacing i j ≤ width boxWidths maxWidth spacing i j' := by
  induction j', later using Nat.le_induction with
  | base => exact le_rfl
  | succ j' _ ih =>
    rw [width_succ inside]
    have grows := add_nonneg (boxWidth_nonneg sized j') sized.space
    exact (ih (Nat.le_of_succ_le inside)).trans (le_add_of_nonneg_right grows)

theorem width_anti (sized : Sized boxWidths maxWidth spacing) (later : i ≤ i')
    (inside : i' ≤ boxWidths.length) :
    width boxWidths maxWidth spacing i' j ≤ width boxWidths maxWidth spacing i j := by
  induction i', later using Nat.le_induction with
  | base => exact le_rfl
  | succ i' _ ih =>
    have shrinks := add_nonneg (boxWidth_nonneg sized i') sized.space
    have step : width boxWidths maxWidth spacing i' j = _ := width_pred inside
    linarith [ih (Nat.le_of_succ_le inside)]

/-- The entries of the search: what the lines up to `j` cost when the last one starts at `i`. -/
noncomputable def leastCost (boxWidths : List ℚ) (maxWidth spacing : ℚ) : ℕ → ℚ :=
  best (cost boxWidths maxWidth spacing) 0

theorem cost_eq_added : cost boxWidths maxWidth spacing =
    added (fun i j => ¬ maxWidth < width boxWidths maxWidth spacing i j)
      (fun i j => (maxWidth - width boxWidths maxWidth spacing i j) ^ 2) infinity := by
  funext m i j
  rw [cost,added,ite_not]

/-- What the boxes before the index cost when each has a line of its own. -/
def single (boxWidths : List ℚ) (maxWidth : ℚ) (k : ℕ) : ℚ :=
  ((List.range k).map fun i => (maxWidth - boxWidth boxWidths maxWidth i) ^ 2).sum

theorem single_succ (k : ℕ) : single boxWidths maxWidth (k + 1) =
    single boxWidths maxWidth k + (maxWidth - boxWidth boxWidths maxWidth k) ^ 2 := by
  simp [single,List.range_succ]

theorem single_mono (later : i ≤ j) : single boxWidths maxWidth i ≤ single boxWidths maxWidth j := by
  induction j, later using Nat.le_induction with
  | base => exact le_rfl
  | succ j _ ih =>
    rw [single_succ]
    exact ih.trans (le_add_of_nonneg_right (sq_nonneg _))

theorem single_small (sized : Sized boxWidths maxWidth spacing) (inside : k ≤ boxWidths.length) :
    single boxWidths maxWidth k < infinity := by
  refine (single_mono inside).trans_lt ?_
  have boxes : (List.range boxWidths.length).map
      (fun i => (maxWidth - boxWidth boxWidths maxWidth i) ^ 2) =
        boxWidths.map fun boxWidth => (maxWidth - min boxWidth maxWidth) ^ 2 := by
    refine List.ext_getElem (by simp) fun n first second => ?_
    simp only [List.length_map] at second
    simp [boxWidth,second]
  rw [single,boxes]
  exact sized.small

theorem leastCost_le_single (inside : k ≤ boxWidths.length) :
    leastCost boxWidths maxWidth spacing k ≤ single boxWidths maxWidth k := by
  induction k with
  | zero => exact best_zero.le
  | succ k ih =>
    have fits : ¬ maxWidth < width boxWidths maxWidth spacing k (k + 1) := by
      rw [width_single inside]
      exact not_lt.mpr (boxWidth_le k)
    calc leastCost boxWidths maxWidth spacing (k + 1)
        ≤ cost boxWidths maxWidth spacing (leastCost boxWidths maxWidth spacing k) k (k + 1) :=
          best_le (Nat.lt_succ_self k)
      _ = leastCost boxWidths maxWidth spacing k + (maxWidth - boxWidth boxWidths maxWidth k) ^ 2 := by
          rw [cost,if_neg fits,width_single inside]
      _ ≤ single boxWidths maxWidth (k + 1) := by
          rw [single_succ]
          gcongr
          exact ih (Nat.le_of_succ_le inside)

/-- A line that fits costs no more than its first box alone. -/
theorem entry_small (sized : Sized boxWidths maxWidth spacing) (before : i < j)
    (inside : j ≤ boxWidths.length) (fits : ¬ maxWidth < width boxWidths maxWidth spacing i j) :
    entry (cost boxWidths maxWidth spacing) 0 i j < infinity := by
  have first := before.trans_le inside
  have wider : boxWidth boxWidths maxWidth i ≤ width boxWidths maxWidth spacing i j := by
    rw [← width_single first]
    exact width_mono sized before inside
  calc entry (cost boxWidths maxWidth spacing) 0 i j
      = leastCost boxWidths maxWidth spacing i +
        (maxWidth - width boxWidths maxWidth spacing i j) ^ 2 := by
        rw [entry,cost,if_neg fits]
        rfl
    _ ≤ single boxWidths maxWidth i + (maxWidth - boxWidth boxWidths maxWidth i) ^ 2 := by
        have least : leastCost boxWidths maxWidth spacing i ≤ single boxWidths maxWidth i :=
          leastCost_le_single first.le
        have free : 0 ≤ maxWidth - width boxWidths maxWidth spacing i j := by
          linarith [not_lt.mp fits]
        gcongr
    _ = single boxWidths maxWidth (i + 1) := (single_succ i).symm
    _ < infinity := single_small sized first

theorem entry_le (sized : Sized boxWidths maxWidth spacing) (before : i < j)
    (inside : j ≤ boxWidths.length) :
    entry (cost boxWidths maxWidth spacing) 0 i j ≤ infinity := by
  by_cases wide : maxWidth < width boxWidths maxWidth spacing i j
  · rw [entry,cost,if_pos wide]
  · exact (entry_small sized before inside wide).le

/-- A later start of the line gains more on an earlier one the later the line ends. -/
theorem cost_overtaking (sized : Sized boxWidths maxWidth spacing) :
    Overtaking (entry (cost boxWidths maxWidth spacing) 0) boxWidths.length := by
  intro i i' j j' later within further inside ahead
  have narrower : width boxWidths maxWidth spacing i' j' ≤ width boxWidths maxWidth spacing i j' :=
    width_anti sized later.le (by omega)
  by_cases wide : maxWidth < width boxWidths maxWidth spacing i j'
  · have full : entry (cost boxWidths maxWidth spacing) 0 i j' = infinity := by
      rw [entry,cost,if_pos wide]
    rw [full]
    exact entry_le sized (within.trans further) inside
  · have fits : ¬ maxWidth < width boxWidths maxWidth spacing i' j' :=
      not_lt.mpr (narrower.trans (not_lt.mp wide))
    have grows : width boxWidths maxWidth spacing i j ≤ width boxWidths maxWidth spacing i j' :=
      width_mono sized further.le inside
    have grows' : width boxWidths maxWidth spacing i' j ≤ width boxWidths maxWidth spacing i' j' :=
      width_mono sized further.le inside
    rw [entry,entry,cost,cost,if_neg (by linarith),if_neg (by linarith)] at ahead
    rw [entry,entry,cost,cost,if_neg fits,if_neg wide]
    have parallel : width boxWidths maxWidth spacing i j' - width boxWidths maxWidth spacing i j =
      width boxWidths maxWidth spacing i' j' - width boxWidths maxWidth spacing i' j := width_parallel
    nlinarith [mul_nonneg (sub_nonneg.mpr narrower) (sub_nonneg.mpr grows')]

end Costs

/-! Lines and segments. -/

section Lines
variable {boxWidths : List ℚ} {maxWidth spacing : ℚ} {j : ℕ} {segments : List (ℕ × ℕ)}
  {lines : List (List ℕ)}

def line (segment : ℕ × ℕ) : List ℕ := List.range' segment.1 (segment.2 - segment.1)

theorem cut_ordered (cut : Cut j segments) : ∀ s ∈ segments, s.1 < s.2 ∧ s.2 ≤ j := by
  induction cut with
  | start => simp
  | segment before below ih =>
    intro s member
    rcases List.mem_append.mp member with earlier | new
    · exact ⟨(ih s earlier).1,(ih s earlier).2.trans below.le⟩
    · rw [List.mem_singleton.mp new]
      exact ⟨below,le_rfl⟩

theorem flatten_cut (cut : Cut j segments) : (segments.map line).flatten = List.range j := by
  induction cut with
  | start => rfl
  | @segment i j segments before below ih =>
    obtain ⟨d,rfl⟩ := Nat.exists_eq_add_of_le below.le
    simp only [List.map_append,List.flatten_append,ih,List.map_cons,List.map_nil,line,
      Nat.add_sub_cancel_left]
    rw [List.range_eq_range',List.range_eq_range',← List.range'_append]
    simp

theorem exists_cut_of_lines (complete : lines.flatten = List.range j)
    (nonempty : ∀ line ∈ lines, line ≠ []) : ∃ segments, Cut j segments ∧ lines = segments.map line := by
  induction lines using List.reverseRecOn generalizing j with
  | nil =>
    obtain rfl : 0 = j := by simpa using congrArg List.length complete
    exact ⟨[],.start,rfl⟩
  | append_singleton lines last ih =>
    rw [List.flatten_append,List.flatten_singleton,List.range_eq_range'] at complete
    obtain ⟨i,bound,first,rest⟩ := List.range'_eq_append_iff.mp complete.symm
    obtain ⟨segments,cut,rfl⟩ := ih (first.trans List.range_eq_range'.symm)
      fun line member => nonempty line (List.mem_append_left _ member)
    have some : i < j := by
      refine lt_of_le_of_ne bound fun same => ?_
      exact nonempty last (by simp) (by simp [rest,same])
    refine ⟨segments ++ [(i,j)],.segment cut some,?_⟩
    simp [line,rest]

theorem lineWidth_cut (cut : Cut boxWidths.length segments) : ∀ s ∈ segments,
    lineWidth boxWidths maxWidth spacing (line s) = width boxWidths maxWidth spacing s.1 s.2 :=
  fun s member => (width_eq (cut_ordered cut s member).1 (cut_ordered cut s member).2).symm

theorem raggedness_cut (cut : Cut boxWidths.length segments) :
    raggedness boxWidths maxWidth spacing (segments.map line) =
      total (fun i j => (maxWidth - width boxWidths maxWidth spacing i j) ^ 2) segments := by
  rw [raggedness,total,List.map_map]
  refine congrArg List.sum (List.map_congr_left fun s member => ?_)
  rw [Function.comp_apply,lineWidth_cut cut s member]

theorem indexes_cut {breaks : ℕ → ℕ} (cut : Cut j segments) (starts : ∀ s ∈ segments, s.1 = breaks s.2)
    {fuel : ℕ} (enough : j ≤ fuel) (found : List (List ℕ)) :
    indexes breaks fuel j found = some (segments.map line ++ found) := by
  induction cut generalizing fuel found with
  | start => rw [indexes]; rfl
  | @segment i j segments before below ih =>
    obtain ⟨j,rfl⟩ := Nat.exists_eq_succ_of_ne_zero (Nat.ne_zero_of_lt below)
    obtain ⟨fuel,rfl⟩ := Nat.exists_eq_add_of_le' (Nat.one_le_of_lt enough)
    have start : i = breaks (j + 1) := starts (i,j + 1) (by simp)
    rw [indexes,← start,ih (fun s member => starts s (List.mem_append_left _ member)) (by omega)]
    simp [line]

end Lines

section Divided
variable {boxWidths : List ℚ} {maxWidth spacing : ℚ}

theorem outer_initial (sized : Sized boxWidths maxWidth spacing) :
    Outer (cost boxWidths maxWidth spacing) 0 boxWidths.length (boxWidths.length + 1) 0 0 initial := by
  refine ⟨rfl,by simp,fun k before => ?_,fun k first inside => ?_,fun k first inside a known => ?_⟩
  · obtain rfl : k = 0 := by simpa using before
    exact ⟨best_zero.symm,fun some => absurd some (lt_irrefl 0)⟩
  · have positive : 0 < k := first
    refine ⟨Nat.one_pos,?_⟩
    rw [show initial.minimum k = infinity from if_neg positive.ne']
    exact entry_le sized positive inside
  · exact .inr ⟨a,Nat.zero_le a,known,le_rfl⟩

/-- The search finds the least costs, and starts of lines at which they are attained. -/
theorem search_right (sized : Sized boxWidths maxWidth spacing) : ∀ k ≤ boxWidths.length,
    Right (cost boxWidths maxWidth spacing) 0
      (loop (cost boxWidths maxWidth spacing) (boxWidths.length + 1) 0 0 initial) k :=
  loop_right (cost_overtaking sized) (outer_initial sized)

theorem divide_division (sized : Sized boxWidths maxWidth spacing) :
    ∃ lines, divide boxWidths maxWidth spacing = some lines ∧
      Division boxWidths maxWidth spacing lines ∧
      raggedness boxWidths maxWidth spacing lines =
        leastCost boxWidths maxWidth spacing boxWidths.length := by
  have right := search_right sized
  have cheap : ∀ i, 0 < i → i ≤ boxWidths.length → leastCost boxWidths maxWidth spacing i < infinity :=
    fun i _ inside => (leastCost_le_single inside).trans_lt (single_small sized inside)
  have attained := fun i positive inside => (right i inside).2 positive
  unfold leastCost at cheap
  unfold entry at attained
  rw [cost_eq_added] at cheap attained
  obtain ⟨segments,cut,starts,sum⟩ := exists_cut cheap attained
  refine ⟨segments.map line,?_,⟨flatten_cut cut,?_,?_⟩,?_⟩
  · rw [divide,indexes_cut cut (fun s member => ?_) le_rfl,List.append_nil]
    rw [cost_eq_added]
    exact (starts s member).2
  · rintro shown member
    obtain ⟨s,inside,rfl⟩ := List.mem_map.mp member
    have ordered := (cut_ordered cut s inside).1
    simp only [line,ne_eq,List.range'_eq_nil_iff]
    omega
  · rintro shown member
    obtain ⟨s,inside,rfl⟩ := List.mem_map.mp member
    rw [lineWidth_cut cut s inside]
    exact not_lt.mp (starts s inside).1
  · rw [raggedness_cut cut,leastCost,cost_eq_added]
    exact sum

theorem leastCost_le_raggedness {lines : List (List ℕ)}
    (division : Division boxWidths maxWidth spacing lines) :
    leastCost boxWidths maxWidth spacing boxWidths.length ≤
      raggedness boxWidths maxWidth spacing lines := by
  obtain ⟨segments,cut,rfl⟩ := exists_cut_of_lines division.complete division.nonempty
  rw [raggedness_cut cut,leastCost,cost_eq_added]
  refine best_le_total cut fun s member => ?_
  rw [← lineWidth_cut cut s member]
  exact not_lt.mpr (division.fits _ (List.mem_map_of_mem member))

/-- In exact numbers, the lines are a division of the boxes, and no other division is less
ragged. -/
theorem divide_least (sized : Sized boxWidths maxWidth spacing) :
    ∃ lines, divide boxWidths maxWidth spacing = some lines ∧
      Division boxWidths maxWidth spacing lines ∧
      ∀ others, Division boxWidths maxWidth spacing others →
        raggedness boxWidths maxWidth spacing lines ≤
          raggedness boxWidths maxWidth spacing others := by
  obtain ⟨lines,divided,division,attained⟩ := divide_division sized
  exact ⟨lines,divided,division,fun others other => attained.trans_le (leastCost_le_raggedness other)⟩

end Divided

theorem divide_least_spaced : ∃ lines, divide [3,2,2,5] 6 1 = some lines ∧
    Division [3,2,2,5] 6 1 lines ∧
    ∀ others, Division [3,2,2,5] 6 1 others → raggedness [3,2,2,5] 6 1 lines ≤
      raggedness [3,2,2,5] 6 1 others := by
  have sized : Sized [3,2,2,5] 6 1 := by
    refine ⟨?_,?_,?_,?_⟩ <;> decide +kernel
  exact divide_least sized

/-! Texts are broken at spaces, so the boxes are words. -/

def codeUnits (text : String) : ℕ :=
  (text.toList.map fun c => if c.toNat < 0x10000 then 1 else 2).sum

section Words
variable (text : String) (maxWidthInChars : ℕ)

def divideWords : Option (List String) := do
  let words := Separated.split ' ' text
  let boxes := words.map fun word => (codeUnits word : ℚ)
  let divided ← divide boxes maxWidthInChars 1
  divided.mapM fun partList => (partList.mapM fun part => words[part]?).map (Separated.join ' ')

/-- The text is broken into lines that are not too long. -/
structure Broken (lines : List String) : Prop where
  some : lines ≠ []
  joined : Separated.join ' ' lines = text
  fits : ∀ line ∈ lines, codeUnits line ≤ maxWidthInChars

def slack (lines : List String) : ℕ :=
  (lines.map fun line => (maxWidthInChars - codeUnits line) ^ 2).sum

/-- No word is too long for a line, and one word a line stays below what stands for infinity. -/
structure Short : Prop where
  words : ∀ word ∈ Separated.split ' ' text, codeUnits word ≤ maxWidthInChars
  small : slack maxWidthInChars (Separated.split ' ' text) < 9007199254740991

variable {text maxWidthInChars} {words pieces : List String} {line : List ℕ}

theorem codeUnits_append (s t : String) : codeUnits (s ++ t) = codeUnits s + codeUnits t := by
  simp [codeUnits]

theorem codeUnits_join (some : pieces ≠ []) :
    codeUnits (Separated.join ' ' pieces) + 1 = (pieces.map codeUnits).sum + pieces.length := by
  induction pieces with
  | nil => exact absurd rfl some
  | cons piece rest ih =>
    cases rest with
    | nil => simp [Separated.join_singleton]
    | cons next rest =>
      have later := ih (by simp)
      have space : codeUnits (String.singleton ' ') = 1 := by decide
      have parts : Separated.join ' ' (piece :: next :: rest) =
          piece ++ String.singleton ' ' ++ Separated.join ' ' (next :: rest) := by
        rw [← List.singleton_append,Separated.join_append (by simp) (by simp),Separated.join_singleton]
      rw [parts,codeUnits_append,codeUnits_append,space,List.map_cons,List.sum_cons,List.length_cons]
      omega

def boxes (text : String) : List ℚ :=
  (Separated.split ' ' text).map fun word => (codeUnits word : ℚ)

def wordsAt (words : List String) (line : List ℕ) : List String :=
  line.map fun part => words[part]?.getD ""

theorem mapM_words (inside : ∀ part ∈ line, part < words.length) :
    line.mapM (fun part => words[part]?) = some (wordsAt words line) := by
  induction line with
  | nil => rfl
  | cons part rest ih =>
    have bound : part < words.length := inside part List.mem_cons_self
    have later := ih fun part member => inside part (List.mem_cons_of_mem _ member)
    rw [List.mapM_cons,later,wordsAt,wordsAt,List.map_cons,List.getElem?_eq_getElem bound]
    rfl

theorem wordsAt_range : wordsAt words (List.range words.length) = words := by
  refine List.ext_getElem (by simp [wordsAt]) fun n first second => ?_
  simp [wordsAt,second]

theorem wordsAt_flatten (lines : List (List ℕ)) :
    (lines.map (wordsAt words)).flatten = wordsAt words lines.flatten := by
  rw [wordsAt,List.map_flatten]
  rfl

/-- Groups of words in a row are the words at groups of indexes in a row. -/
theorem exists_lines (before : List String) (groups : List (List String)) : ∃ lines : List (List ℕ),
    lines.flatten = List.range' before.length groups.flatten.length ∧
      lines.map (wordsAt (before ++ groups.flatten)) = groups := by
  induction groups generalizing before with
  | nil => exact ⟨[],rfl,rfl⟩
  | cons group rest ih =>
    obtain ⟨lines,complete,groups⟩ := ih (before ++ group)
    refine ⟨List.range' before.length group.length :: lines,?_,?_⟩
    · rw [List.flatten_cons,complete,List.flatten_cons,List.length_append,List.length_append,
        ← List.range'_append,Nat.one_mul]
    · have own : wordsAt (before ++ (group ++ rest.flatten)) (List.range' before.length group.length) =
          group := by
        refine List.ext_getElem (by simp [wordsAt]) fun n first second => ?_
        simp only [wordsAt,List.getElem_map,List.getElem_range',Nat.one_mul]
        rw [List.getElem?_append_right (Nat.le_add_right ..),Nat.add_sub_cancel_left,
          List.getElem?_append_left second,List.getElem?_eq_getElem second,Option.getD_some]
      rw [List.append_assoc] at groups
      rw [List.map_cons,List.flatten_cons,own,groups]

variable {lines : List (List ℕ)}

theorem boxWidth_word (short : Short text maxWidthInChars) {part : ℕ}
    (inside : part < (Separated.split ' ' text).length) :
    boxWidth (boxes text) maxWidthInChars part =
      codeUnits ((Separated.split ' ' text)[part]?.getD "") := by
  have narrow := short.words _ (List.getElem_mem inside)
  rw [boxWidth,boxes,List.getElem?_map,List.getElem?_eq_getElem inside,Option.map_some,
    Option.getD_some,Option.getD_some,min_eq_left (by exact_mod_cast narrow)]

/-- A line is as wide as its text is long. -/
theorem lineWidth_words (short : Short text maxWidthInChars) (some : line ≠ [])
    (inside : ∀ part ∈ line, part < (Separated.split ' ' text).length) :
    lineWidth (boxes text) maxWidthInChars 1 line =
      codeUnits (Separated.join ' ' (wordsAt (Separated.split ' ' text) line)) := by
  have widths : line.map (boxWidth (boxes text) maxWidthInChars) =
      (wordsAt (Separated.split ' ' text) line).map fun word => (codeUnits word : ℚ) := by
    rw [wordsAt,List.map_map]
    exact List.map_congr_left fun part member => boxWidth_word short (inside part member)
  have texts : wordsAt (Separated.split ' ' text) line ≠ [] := by simpa [wordsAt]
  have length : (wordsAt (Separated.split ' ' text) line).length = line.length := by simp [wordsAt]
  have joined := congrArg (Nat.cast : ℕ → ℚ) (codeUnits_join texts)
  rw [length,Nat.cast_succ,Nat.cast_add,Nat.cast_list_sum,List.map_map] at joined
  rw [lineWidth,widths]
  change (List.map (Nat.cast ∘ codeUnits) _).sum + 1 * _ = _
  linarith

def lineText (text : String) (line : List ℕ) : String :=
  Separated.join ' ' (wordsAt (Separated.split ' ' text) line)

theorem inside_of_flatten (complete : lines.flatten = List.range (boxes text).length)
    (member : line ∈ lines) : ∀ part ∈ line, part < (Separated.split ' ' text).length := by
  intro part own
  have range : part ∈ List.range (boxes text).length := complete ▸ List.mem_flatten.mpr ⟨line,member,own⟩
  simpa [boxes] using range

theorem lineWidth_lineText (short : Short text maxWidthInChars)
    (division : Division (boxes text) maxWidthInChars 1 lines) (member : line ∈ lines) :
    lineWidth (boxes text) maxWidthInChars 1 line = codeUnits (lineText text line) :=
  lineWidth_words short (division.nonempty line member) (inside_of_flatten division.complete member)

theorem sized_of_short (short : Short text maxWidthInChars) :
    Sized (boxes text) maxWidthInChars 1 := by
  refine ⟨fun boxWidth member => ?_,Nat.cast_nonneg _,zero_le_one,?_⟩
  · obtain ⟨word,_,rfl⟩ := List.mem_map.mp member
    exact Nat.cast_nonneg _
  · have squares : (boxes text).map (fun boxWidth : ℚ =>
          ((maxWidthInChars : ℚ) - min boxWidth maxWidthInChars) ^ 2) =
        ((Separated.split ' ' text).map fun line => (maxWidthInChars - codeUnits line) ^ 2).map
          (Nat.cast : ℕ → ℚ) := by
      rw [boxes,List.map_map,List.map_map]
      refine List.map_congr_left fun word member => ?_
      have narrow := short.words word member
      have small : min (codeUnits word : ℚ) maxWidthInChars = codeUnits word :=
        min_eq_left (by exact_mod_cast narrow)
      rw [Function.comp_apply,Function.comp_apply,small,Nat.cast_pow,Nat.cast_sub narrow]
    rw [squares,← Nat.cast_list_sum]
    exact (Nat.cast_lt.mpr short.small).trans_eq (by norm_num [infinity])

theorem broken_of_division (short : Short text maxWidthInChars)
    (division : Division (boxes text) maxWidthInChars 1 lines) :
    Broken text maxWidthInChars (lines.map (lineText text)) := by
  have words : (lines.map (wordsAt (Separated.split ' ' text))).flatten = Separated.split ' ' text := by
    have length : (boxes text).length = (Separated.split ' ' text).length := by simp [boxes]
    rw [wordsAt_flatten,division.complete,length,wordsAt_range]
  refine ⟨fun none => ?_,?_,fun shown member => ?_⟩
  · rw [List.map_eq_nil_iff.mp none] at words
    exact Separated.split_ne_nil words.symm
  · have nonempty : ∀ line ∈ lines.map (wordsAt (Separated.split ' ' text)), line ≠ [] := by
      intro line member
      obtain ⟨indexes,own,rfl⟩ := List.mem_map.mp member
      simpa [wordsAt] using division.nonempty indexes own
    calc Separated.join ' ' (lines.map (lineText text))
        = Separated.join ' '
            ((lines.map (wordsAt (Separated.split ' ' text))).map (Separated.join ' ')) := by
          rw [List.map_map]
          rfl
      _ = text := by rw [Separated.join_flatten nonempty,words,Separated.join_split]
  · obtain ⟨line,own,rfl⟩ := List.mem_map.mp member
    have width := division.fits line own
    rw [lineWidth_lineText short division own] at width
    exact_mod_cast width

theorem slack_of_division (short : Short text maxWidthInChars)
    (division : Division (boxes text) maxWidthInChars 1 lines) :
    (slack maxWidthInChars (lines.map (lineText text)) : ℚ) =
      raggedness (boxes text) maxWidthInChars 1 lines := by
  rw [slack,raggedness,Nat.cast_list_sum,List.map_map,List.map_map]
  refine congrArg List.sum (List.map_congr_left fun line member => ?_)
  have fits := (broken_of_division short division).fits _ (List.mem_map_of_mem member)
  rw [lineWidth_lineText short division member,Function.comp_apply,Function.comp_apply,Nat.cast_pow,
    Nat.cast_sub fits]

/-- Every way to break the text is a division of its words. -/
theorem exists_division (short : Short text maxWidthInChars) {others : List String}
    (broken : Broken text maxWidthInChars others) : ∃ lines,
    Division (boxes text) maxWidthInChars 1 lines ∧ others = lines.map (lineText text) := by
  have words : (others.map (Separated.split ' ')).flatten = Separated.split ' ' text := by
    rw [← Separated.split_join_texts broken.some,broken.joined]
  obtain ⟨lines,complete,groups⟩ := exists_lines [] (others.map (Separated.split ' '))
  rw [List.nil_append,words] at groups
  rw [words,List.length_nil,← List.range_eq_range'] at complete
  have length : (boxes text).length = (Separated.split ' ' text).length := by simp [boxes]
  rw [← length] at complete
  have texts : lines.map (lineText text) = others := by
    have joined := congrArg (List.map (Separated.join ' ')) groups
    rw [List.map_map,List.map_map] at joined
    exact joined.trans ((List.map_congr_left fun _ _ => Separated.join_split).trans (List.map_id _))
  have nonempty : ∀ line ∈ lines, line ≠ [] := by
    rintro line member rfl
    have group : wordsAt (Separated.split ' ' text) [] ∈ others.map (Separated.split ' ') :=
      groups ▸ List.mem_map_of_mem member
    obtain ⟨other,_,none⟩ := List.mem_map.mp group
    exact Separated.split_ne_nil none
  refine ⟨lines,⟨complete,nonempty,fun line member => ?_⟩,texts.symm⟩
  rw [lineWidth_words short (nonempty line member) (inside_of_flatten complete member)]
  exact_mod_cast broken.fits _ (texts ▸ List.mem_map_of_mem member)

theorem divideWords_eq (divided : divide (boxes text) maxWidthInChars 1 = some lines)
    (division : Division (boxes text) maxWidthInChars 1 lines) :
    divideWords text maxWidthInChars = some (lines.map (lineText text)) := by
  have texts (rest : List (List ℕ)) (part : ∀ line ∈ rest, line ∈ lines) :
      rest.mapM (fun partList => (partList.mapM fun part => (Separated.split ' ' text)[part]?).map
        (Separated.join ' ')) = some (rest.map (lineText text)) := by
    induction rest with
    | nil => rfl
    | cons line rest ih =>
      have later := ih fun line member => part line (List.mem_cons_of_mem _ member)
      have own := part line List.mem_cons_self
      rw [List.mapM_cons,later,mapM_words (inside_of_flatten division.complete own)]
      rfl
  rw [boxes] at divided
  rw [divideWords,divided]
  exact texts lines fun _ member => member

/-- In exact numbers, the result is the text broken at some of its spaces, and no other way is
less ragged. -/
theorem divideWords_least (short : Short text maxWidthInChars) :
    ∃ result, divideWords text maxWidthInChars = some result ∧
      Broken text maxWidthInChars result ∧
      ∀ others, Broken text maxWidthInChars others →
        slack maxWidthInChars result ≤ slack maxWidthInChars others := by
  obtain ⟨lines,divided,division,attained⟩ := divide_division (sized_of_short short)
  refine ⟨lines.map (lineText text),divideWords_eq divided division,
    broken_of_division short division,fun others broken => ?_⟩
  obtain ⟨other,same,rfl⟩ := exists_division short broken
  have le := attained.trans_le (leastCost_le_raggedness same)
  rw [← slack_of_division short division,← slack_of_division short same] at le
  exact_mod_cast le

theorem divideWords_least_chat : ∃ result, divideWords "the chat of two" 9 = some result ∧
    Broken "the chat of two" 9 result ∧
    ∀ others, Broken "the chat of two" 9 others → slack 9 result ≤ slack 9 others := by
  have short : Short "the chat of two" 9 := by
    refine ⟨?_,?_⟩ <;> decide +kernel
  exact divideWords_least short

end Words

end Neuro.MinimumRaggedness
