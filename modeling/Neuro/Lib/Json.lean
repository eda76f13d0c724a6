import Mathlib.Logic.Basic

/-! Decoded JSON as a dynamically typed language sees it: indexing anything but an
object and reading a value at another type throw, a missing member reads as null. -/
namespace Neuro.Lib

inductive Json
  | null
  | bool (value : Bool)
  | int (value : Int)
  /-- With the text it is printed as. -/
  | double (text : String)
  | string (value : String)
  | list (items : List Json)
  | map (entries : List (String × Json))

namespace Json

def index : Json → String → Option Json
  | map entries, key => some (((entries.find? fun entry => entry.1 = key).map Prod.snd).getD null)
  | _, _ => none

def asString : Json → Option String
  | string value => some value
  | _ => none

def asBool : Json → Option Bool
  | bool value => some value
  | _ => none

def asInt : Json → Option Int
  | int value => some value
  | _ => none

def asList : Json → Option (List Json)
  | list items => some items
  | _ => none

def isNull : Json → Bool
  | null => true
  | _ => false

mutual

/-- What `toString` prints. -/
def text : Json → String
  | null => "null"
  | bool value => toString value
  | int value => toString value
  | double text => text
  | string value => value
  | list items => "[" ++ ", ".intercalate (texts items) ++ "]"
  | map entries => "\x7b" ++ ", ".intercalate (memberTexts entries) ++ "\x7d"

def texts : List Json → List String
  | [] => []
  | item :: rest => item.text :: texts rest

def memberTexts : List (String × Json) → List String
  | [] => []
  | (key,value) :: rest => (key ++ ": " ++ value.text) :: memberTexts rest

end

theorem isNull_of_asString {json : Json} {value : String} (read : json.asString = some value) :
    json.isNull = false := by
  cases json with
  | string => rfl
  | null | bool | int | double | list | map => contradiction

end Json
end Neuro.Lib
