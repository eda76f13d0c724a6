import Mathlib

/-! Mapping texts to upper and to lower case. What is in one case already is left as it is;
nothing else is assumed, since the mappings of single characters may be anything. -/
namespace Neuro.Lib

structure Casing where
  toUpperCase : String → String
  toLowerCase : String → String
  upper_upper : ∀ text, toUpperCase (toUpperCase text) = toUpperCase text
  lower_lower : ∀ text, toLowerCase (toLowerCase text) = toLowerCase text

namespace Casing

structure Differ (casing : Casing) (a b : String) : Prop where
  upper : casing.toUpperCase a ≠ casing.toUpperCase b
  lower : casing.toLowerCase a ≠ casing.toLowerCase b

instance (casing : Casing) (a b : String) : Decidable (casing.Differ a b) :=
  decidable_of_iff (casing.toUpperCase a ≠ casing.toUpperCase b ∧
    casing.toLowerCase a ≠ casing.toLowerCase b)
    ⟨fun ⟨upper,lower⟩ => ⟨upper,lower⟩,fun ⟨upper,lower⟩ => ⟨upper,lower⟩⟩

variable {casing : Casing} {a b : String}

theorem Differ.symm (differ : casing.Differ a b) : casing.Differ b a :=
  ⟨differ.upper.symm,differ.lower.symm⟩

/-- The text itself, or what one of the mappings makes of it. -/
def Written (casing : Casing) (a b : String) : Prop :=
  b = casing.toUpperCase a ∨ b = casing.toLowerCase a ∨ b = a

theorem Differ.not_written (differ : casing.Differ a b) : ¬ casing.Written a b := by
  rintro (rfl | rfl | rfl)
  · exact differ.upper (casing.upper_upper a).symm
  · exact differ.lower (casing.lower_lower a).symm
  · exact differ.upper rfl

/-- The mappings of the 26 letters. -/
def ascii : Casing where
  toUpperCase text := String.ofList (text.toList.map Char.toUpper)
  toLowerCase text := String.ofList (text.toList.map Char.toLower)
  upper_upper text := by simp [Function.comp_def]
  lower_lower text := by simp [Function.comp_def]

end Casing
end Neuro.Lib
