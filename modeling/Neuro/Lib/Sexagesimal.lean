import Mathlib.Logic.Basic

/-! Texts of decimal fields with colons between them, read as the digits of a number
to base 60. -/
namespace Neuro.Lib.Sexagesimal

def fields (text : String) : List (List Char) := text.toList.splitOn ':'

def value (field : List Char) : Nat := Nat.ofDigitChars 10 field 0

def decode (text : String) : Nat :=
  (fields text).foldl (fun total field => 60 * total + value field) 0

def Decimal (text : String) : Prop := ∀ c ∈ text.toList, c.isDigit = true

theorem Decimal.colon {text : String} (decimal : Decimal text) : ':' ∉ text.toList := by
  intro member
  have digit : ':'.isDigit = true := decimal ':' member
  simp at digit

theorem fields_decimal {text : String} (decimal : Decimal text) : fields text = [text.toList] :=
  List.splitOn_eq_singleton decimal.colon

theorem fields_cons {text : String} (decimal : Decimal text) (rest : String) :
    fields (text ++ ":" ++ rest) = text.toList :: fields rest := by
  have lists : (text ++ ":" ++ rest).toList = text.toList ++ ':' :: rest.toList := by simp
  rw [fields,lists,List.splitOn_append_cons_self,List.splitOn_eq_singleton decimal.colon]
  rfl

theorem decimal_repr (n : Nat) : Decimal (toString n) := by
  intro c member
  rw [Nat.toString_eq_repr,Nat.toList_repr] at member
  exact Nat.isDigit_of_mem_toDigits (by omega) (by omega) member

theorem value_repr (n : Nat) : value (toString n).toList = n := by
  rw [value,Nat.toString_eq_repr,Nat.toList_repr,Nat.ofDigitChars_ten_toDigits]

end Neuro.Lib.Sexagesimal
