import Mathlib.Data.List.Basic

/-! Texts joined by a separating character and split at it again. Splitting undoes joining
for pieces that do not contain the character; joining undoes splitting always. -/
namespace Neuro.Lib.Separated

variable (separator : Char)

def join (pieces : List String) : String := (String.singleton separator).intercalate pieces

/-- The empty text has one piece, the empty one. -/
def split (text : String) : List String := (text.toList.splitOn separator).map String.ofList

variable {separator} {pieces ids : List String} {text piece : String}

theorem join_split : join separator (split separator text) = text := by
  apply String.ext
  have lists : (split separator text).map String.toList = text.toList.splitOn separator := by
    simp [split,Function.comp_def]
  rw [join,String.toList_intercalate,lists]
  simp

theorem split_join (free : ∀ piece ∈ pieces, separator ∉ piece.toList) (some : pieces ≠ []) :
    split separator (join separator pieces) = pieces := by
  have lists : (join separator pieces).toList = [separator].intercalate (pieces.map String.toList) := by
    rw [join,String.toList_intercalate]
    simp
  rw [split,lists,List.splitOn_intercalate separator (by simpa using free) (by simpa using some)]
  simp [Function.comp_def]

theorem not_mem_of_mem_splitOn {C : Type*} [BEq C] [LawfulBEq C] {a : C} {text piece : List C}
    (member : piece ∈ text.splitOn a) : a ∉ piece := by
  induction text generalizing piece with
  | nil =>
    obtain rfl : piece = [] := by simpa using member
    exact List.not_mem_nil
  | cons c rest ih =>
    rw [List.splitOn_cons_eq_if_modifyHead] at member
    by_cases same : c = a
    · rw [if_pos (beq_iff_eq.mpr same)] at member
      rcases List.mem_cons.mp member with rfl | later
      · exact List.not_mem_nil
      · exact ih later
    · rw [if_neg (by simpa using same)] at member
      obtain ⟨first,others,pieces⟩ := List.exists_cons_of_ne_nil (List.splitOn_ne_nil a rest)
      rw [pieces,List.modifyHead_cons] at member
      rcases List.mem_cons.mp member with rfl | later
      · have free : a ∉ first := ih (pieces ▸ List.mem_cons_self)
        simpa [Ne.symm same] using free
      · exact ih (pieces ▸ List.mem_cons_of_mem _ later)

theorem not_mem_of_mem_split (member : piece ∈ split separator text) :
    separator ∉ piece.toList := by
  obtain ⟨chars,found,rfl⟩ := List.mem_map.mp member
  rw [String.toList_ofList]
  exact not_mem_of_mem_splitOn found

theorem join_singleton : join separator [piece] = piece := String.intercalate_singleton

theorem join_append {others : List String} (some : pieces ≠ []) (more : others ≠ []) :
    join separator (pieces ++ others) =
      join separator pieces ++ String.singleton separator ++ join separator others :=
  String.intercalate_append_of_ne_nil some more

/-- Pieces may be joined by lines first. -/
theorem join_flatten {lines : List (List String)} (nonempty : ∀ line ∈ lines, line ≠ []) :
    join separator (lines.map (join separator)) = join separator lines.flatten := by
  induction lines with
  | nil => rfl
  | cons line rest ih =>
    have later := ih fun line member => nonempty line (List.mem_cons_of_mem _ member)
    cases rest with
    | nil => simp [join_singleton]
    | cons next rest =>
      have first : line ≠ [] := nonempty line List.mem_cons_self
      have second : next ≠ [] := nonempty next (by simp)
      have others : (next :: rest).flatten ≠ [] := by simp [second]
      calc join separator ((line :: next :: rest).map (join separator))
          = join separator ([join separator line] ++ (next :: rest).map (join separator)) := by simp
        _ = join separator line ++ String.singleton separator ++
            join separator (next :: rest).flatten := by
            rw [join_append (by simp) (by simp),join_singleton,later]
        _ = join separator (line ++ (next :: rest).flatten) := (join_append first others).symm
        _ = join separator (line :: next :: rest).flatten := rfl

theorem split_ne_nil : split separator text ≠ [] := by
  simp [split]

theorem split_join_texts {texts : List String} (some : texts ≠ []) :
    split separator (join separator texts) = (texts.map (split separator)).flatten := by
  have nonempty : ∀ line ∈ texts.map (split separator), line ≠ [] := by
    intro line member
    obtain ⟨text,_,rfl⟩ := List.mem_map.mp member
    exact split_ne_nil
  have same : texts.map (join separator ∘ split separator) = texts :=
    (List.map_congr_left fun _ _ => join_split).trans (List.map_id _)
  have joined : join separator texts = join separator (texts.map (split separator)).flatten := by
    rw [← join_flatten nonempty,List.map_map,same]
  rw [joined]
  refine split_join (fun piece member => ?_) ?_
  · obtain ⟨line,inside,own⟩ := List.mem_flatten.mp member
    obtain ⟨text,_,rfl⟩ := List.mem_map.mp inside
    exact not_mem_of_mem_split own
  · obtain ⟨text,rest,rfl⟩ := List.exists_cons_of_ne_nil some
    simp [split_ne_nil]

theorem split_empty : split separator "" = [""] := by
  simp [split]

/-- Joining those of the texts that occur among the pieces gives the text again only if they
are its pieces, or the text is empty and they are none. -/
theorem rejoined_iff : join separator (ids.filter (· ∈ split separator text)) = text ↔
    ids.filter (· ∈ split separator text) = split separator text ∨ text = "" ∧ "" ∉ ids := by
  constructor
  · intro joined
    by_cases none : ids.filter (· ∈ split separator text) = []
    · rw [none] at joined
      have empty : text = "" := joined.symm
      refine .inr ⟨empty,fun member => ?_⟩
      have kept : "" ∈ ids.filter (· ∈ split separator text) := by
        simp [member,empty,split_empty]
      simp [none] at kept
    · refine .inl ?_
      have free : ∀ piece ∈ ids.filter (· ∈ split separator text), separator ∉ piece.toList :=
        fun piece member => not_mem_of_mem_split (by simpa using (List.mem_filter.mp member).2)
      calc ids.filter (· ∈ split separator text)
          = split separator (join separator (ids.filter (· ∈ split separator text))) :=
            (split_join free none).symm
        _ = split separator text := by rw [joined]
  · rintro (same | ⟨rfl,absent⟩)
    · rw [same,join_split]
    · have none : ids.filter (· ∈ split separator "") = [] := by
        rw [split_empty]
        refine List.filter_eq_nil_iff.mpr fun piece member kept => absent ?_
        have empty : piece = "" := by simpa using kept
        exact empty ▸ member
      rw [none]
      rfl

end Neuro.Lib.Separated
