import Mathlib.Data.List.Nodup
import Neuro.Lib.Json

/-! JSON as text: a writer without blanks, and a reader of everything that the grammar allows. A
name that occurs again in an object takes the place of the first one. -/
namespace Neuro.Lib.JsonText

/-- The escapes of one letter, with their letters. -/
def letters : List (Char × Char) :=
  [('\x22','\x22'),('\x5c','\x5c'),('\x08','b'),('\x0c','f'),('\n','n'),('\r','r'),('\t','t')]

def hexDigits : List Char := "0123456789abcdef".toList

def hex (n : Nat) : Char := hexDigits.getD n '0'

def escape (c : Char) : List Char :=
  match letters.find? fun pair => pair.1 = c with
  | some pair => ['\x5c',pair.2]
  | none =>
    if c.toNat < 0x20 then ['\x5c','u','0','0',hex (c.toNat / 16),hex (c.toNat % 16)] else [c]

/-- Without the opening quote. -/
def encodeString (s : String) : List Char := s.toList.flatMap escape ++ ['\x22']

mutual

def encode : Json → List Char
  | .null => "null".toList
  | .bool value => (toString value).toList
  | .int value => (toString value).toList
  | .double text => text.toList
  | .string value => '\x22' :: encodeString value
  | .list items => '[' :: encodeItems items
  | .map entries => '\x7b' :: encodeMembers entries

/-- With the closing bracket. -/
def encodeItems : List Json → List Char
  | [] => [']']
  | [item] => encode item ++ [']']
  | item :: rest => encode item ++ ',' :: encodeItems rest

def encodeMembers : List (String × Json) → List Char
  | [] => ['\x7d']
  | [(key,value)] => '\x22' :: encodeString key ++ ':' :: encode value ++ ['\x7d']
  | (key,value) :: rest =>
    '\x22' :: encodeString key ++ ':' :: encode value ++ ',' :: encodeMembers rest

end

def blank (c : Char) : Bool := c = ' ' || c = '\t' || c = '\n' || c = '\r'

def skip (chars : List Char) : List Char := chars.dropWhile blank

def hexValue (c : Char) : Option Nat :=
  let n := hexDigits.idxOf c.toLower
  if n < 16 then some n else none

def scalar (n : Nat) : Option Char := if n.isValidChar then some (Char.ofNat n) else none

def readUnit : List Char → Option (Nat × List Char)
  | a :: b :: c :: d :: rest => do
    return (4096 * (← hexValue a) + 256 * (← hexValue b) + 16 * (← hexValue c) + (← hexValue d),rest)
  | _ => none

/-- A pair of surrogates is one character; a single one is none. -/
def readUnicode (chars : List Char) : Option (Char × List Char) := do
  let (high,rest) ← readUnit chars
  if 0xD800 ≤ high ∧ high < 0xDC00 then
    match rest with
    | '\x5c' :: 'u' :: rest => do
      let (low,rest) ← readUnit rest
      if 0xDC00 ≤ low ∧ low < 0xE000 then
        return (← scalar (0x10000 + 0x400 * (high - 0xD800) + (low - 0xDC00)),rest)
      else none
    | _ => none
  else return (← scalar high,rest)

def unescape (letter : Char) : Option Char :=
  if letter = '/' then some '/'
  else (letters.find? fun pair => pair.2 = letter).map Prod.fst

def readChar : List Char → Option (Char × List Char)
  | [] => none
  | c :: rest =>
    if c = '\x5c' then match rest with
      | [] => none
      | letter :: rest =>
        if letter = 'u' then readUnicode rest else (unescape letter).map fun c => (c,rest)
    else if c.toNat < 0x20 then none
    else some (c,rest)

/-- After the opening quote. The first argument bounds the number of steps. -/
def readString : Nat → List Char → Option (List Char × List Char)
  | 0,_ => none
  | _ + 1,[] => none
  | fuel + 1,c :: rest =>
    if c = '\x22' then some ([],rest)
    else do
      let (first,rest) ← readChar (c :: rest)
      let (others,rest) ← readString fuel rest
      return (first :: others,rest)

def readWord (word : String) (value : Json) (chars : List Char) : Option (Json × List Char) :=
  if word.toList.isPrefixOf chars then some (value,chars.drop word.toList.length) else none

def digits (chars : List Char) : List Char × List Char :=
  (chars.takeWhile Char.isDigit,chars.dropWhile Char.isDigit)

/-- The part after the point and the exponent, if there are any. -/
def readFraction : List Char → Option (List Char × List Char)
  | '.' :: rest => match digits rest with
    | ([],_) => none
    | (fraction,rest) => some ('.' :: fraction,rest)
  | rest => some ([],rest)

def readExponent : List Char → Option (List Char × List Char)
  | [] => some ([],[])
  | e :: rest =>
    if e = 'e' ∨ e = 'E' then
      let (sign,rest) := match rest with
        | '+' :: rest => (['+'],rest)
        | '-' :: rest => (['-'],rest)
        | rest => ([],rest)
      match digits rest with
      | ([],_) => none
      | (exponent,rest) => some (e :: sign ++ exponent,rest)
    else some ([],e :: rest)

section Read
variable (printed : String → String)

/-- Digits alone are an integer; `printed` tells how any other number is printed. -/
def readUnsigned (negative : Bool) (chars : List Char) : Option (Json × List Char) := do
  let (whole,rest) := digits chars
  if whole = [] ∨ whole.head? = some '0' ∧ whole ≠ ['0'] then none
  else
    let (fraction,rest) ← readFraction rest
    let (exponent,rest) ← readExponent rest
    if fraction = [] ∧ exponent = [] then
      let value : Int := Nat.ofDigitChars 10 whole 0
      return (.int (if negative then -value else value),rest)
    else
      let text := String.ofList (whole ++ fraction ++ exponent)
      return (.double (printed (if negative then "-" ++ text else text)),rest)

def readNumber : List Char → Option (Json × List Char)
  | '-' :: rest => readUnsigned printed true rest
  | chars => readUnsigned printed false chars

def put (entries : List (String × Json)) (key : String) (value : Json) : List (String × Json) :=
  if key ∈ entries.map Prod.fst then
    entries.map fun entry => if entry.1 = key then (key,value) else entry
  else entries ++ [(key,value)]

def object (entries : List (String × Json)) : Json :=
  .map (entries.foldl (fun entries entry => put entries entry.1 entry.2) [])

mutual

def readValue : Nat → List Char → Option (Json × List Char)
  | 0,_ => none
  | fuel + 1,chars => match skip chars with
    | '\x22' :: rest =>
      (readString fuel rest).map fun (chars,rest) => (.string (String.ofList chars),rest)
    | '[' :: rest => match skip rest with
      | ']' :: rest => some (.list [],rest)
      | rest => (readItems fuel rest).map fun (items,rest) => (.list items,rest)
    | '\x7b' :: rest => match skip rest with
      | '\x7d' :: rest => some (.map [],rest)
      | rest => (readMembers fuel rest).map fun (entries,rest) => (object entries,rest)
    | c :: rest =>
      if c = '-' ∨ c.isDigit then readNumber printed (c :: rest)
      else ((readWord "null" .null (c :: rest)).or (readWord "true" (.bool true) (c :: rest))).or
        (readWord "false" (.bool false) (c :: rest))
    | [] => none

def readItems : Nat → List Char → Option (List Json × List Char)
  | 0,_ => none
  | fuel + 1,chars => do
    let (item,rest) ← readValue fuel chars
    match skip rest with
    | ',' :: rest => do
      let (items,rest) ← readItems fuel rest
      return (item :: items,rest)
    | ']' :: rest => return ([item],rest)
    | _ => none

def readMembers : Nat → List Char → Option (List (String × Json) × List Char)
  | 0,_ => none
  | fuel + 1,chars => match skip chars with
    | '\x22' :: rest => do
      let (key,rest) ← readString fuel rest
      match skip rest with
      | ':' :: rest => do
        let (value,rest) ← readValue fuel rest
        match skip rest with
        | ',' :: rest => do
          let (entries,rest) ← readMembers fuel rest
          return ((String.ofList key,value) :: entries,rest)
        | '\x7d' :: rest => return ([(String.ofList key,value)],rest)
        | _ => none
      | _ => none
    | _ => none

end

def decode (text : String) : Option Json := do
  let (json,rest) ← readValue printed (text.toList.length + 1) text.toList
  if skip rest = [] then some json else none

end Read

mutual

/-- No number that is no integer, and no name twice in one object. -/
def Plain : Json → Prop
  | .null | .bool _ | .int _ | .string _ => True
  | .double _ => False
  | .list items => PlainItems items
  | .map entries => (entries.map Prod.fst).Nodup ∧ PlainMembers entries

def PlainItems : List Json → Prop
  | [] => True
  | item :: rest => Plain item ∧ PlainItems rest

def PlainMembers : List (String × Json) → Prop
  | [] => True
  | (_,value) :: rest => Plain value ∧ PlainMembers rest

end

/-- What may follow a value. -/
def Stops (rest : List Char) : Prop := ∀ c ∈ rest.head?, c = ',' ∨ c = ']' ∨ c = '\x7d'

variable {printed : String → String} {c : Char} {chars rest : List Char} {fuel n : Nat}

theorem hexValue_hex : ∀ d < 16, hexValue (hex d) = some d := by decide

theorem readUnicode_control (control : c.toNat < 0x20) :
    readUnicode ('0' :: '0' :: hex (c.toNat / 16) :: hex (c.toNat % 16) :: rest) = some (c,rest) := by
  have zero : hexValue '0' = some 0 := by decide
  have unit : readUnit ('0' :: '0' :: hex (c.toNat / 16) :: hex (c.toNat % 16) :: rest) =
      some (c.toNat,rest) := by
    simp only [readUnit,zero,hexValue_hex _ (by omega : c.toNat / 16 < 16),
      hexValue_hex _ (by omega : c.toNat % 16 < 16),Option.bind_eq_bind,Option.bind_some,
      Option.pure_def]
    congr 2
    omega
  have low : ¬ (0xD800 ≤ c.toNat ∧ c.toNat < 0xDC00) := by omega
  have valid : c.toNat.isValidChar := c.valid
  rw [readUnicode,unit]
  simp only [Option.bind_eq_bind,Option.bind_some,if_neg low]
  rw [scalar,if_pos valid,Option.bind_some,Char.ofNat_toNat]
  rfl

theorem readChar_letter : ∀ pair ∈ letters, ∀ rest,
    readChar ('\x5c' :: pair.2 :: rest) = some (pair.1,rest) := by
  simp [letters,readChar,unescape]

theorem readChar_escape : readChar (escape c ++ rest) = some (c,rest) := by
  unfold escape
  split
  next pair found =>
    have same : pair.1 = c := by simpa using List.find?_some found
    exact same ▸ readChar_letter pair (List.mem_of_find?_eq_some found) rest
  next none =>
    split
    next control => exact readUnicode_control control
    next printable =>
      have plain : c ≠ '\x5c' := by
        rintro rfl
        simp [letters] at none
      rw [List.singleton_append,readChar.eq_def]
      exact (if_neg plain).trans (if_neg printable)

theorem escape_head : ∃ first others, escape c = first :: others ∧ first ≠ '\x22' := by
  unfold escape
  split
  next => exact ⟨_,_,rfl,by decide⟩
  next none =>
    split
    · exact ⟨_,_,rfl,by decide⟩
    · refine ⟨_,_,rfl,?_⟩
      rintro rfl
      simp [letters] at none

theorem length_escape : 1 ≤ (escape c).length := by
  obtain ⟨_,_,shape,_⟩ := @escape_head c
  rw [shape]
  exact Nat.le_add_left ..

theorem readString_escape : readString (fuel + 1) (escape c ++ rest) =
    (readString fuel rest).map fun (chars,rest) => (c :: chars,rest) := by
  obtain ⟨first,others,shape,open_⟩ := @escape_head c
  have read := @readChar_escape c rest
  rw [shape,List.cons_append] at read ⊢
  rw [readString,if_neg open_,read]
  simp only [Option.bind_eq_bind,Option.bind_some]
  cases readString fuel rest <;> rfl

theorem readString_encode (enough : (chars.flatMap escape).length < fuel) :
    readString fuel (chars.flatMap escape ++ '\x22' :: rest) = some (chars,rest) := by
  obtain ⟨fuel,rfl⟩ := Nat.exists_eq_succ_of_ne_zero (Nat.ne_zero_of_lt enough)
  induction chars generalizing fuel with
  | nil => rfl
  | cons c chars ih =>
    rw [List.flatMap_cons,List.length_append] at enough
    have some_ := @length_escape c
    obtain ⟨fuel,rfl⟩ := Nat.exists_eq_succ_of_ne_zero (show fuel ≠ 0 by omega)
    rw [List.flatMap_cons,List.append_assoc,readString_escape,ih _ (by omega)]
    rfl

theorem head?_toDigits (pos : 0 < n) : (Nat.toDigits 10 n).head? ≠ some '0' := by
  induction n using Nat.strongRecOn with
  | ind n ih =>
    rw [Nat.toDigits_eq_if (by omega)]
    split
    next small =>
      have digit : ∀ n < 10, 0 < n → n.digitChar ≠ '0' := by decide
      exact fun zero => digit n small pos (Option.some.inj zero)
    next large =>
      have before := ih (n / 10) (by omega) (by omega)
      rw [List.head?_append_of_ne_nil _ Nat.toDigits_ne_nil]
      exact before

theorem digits_toDigits (stops : Stops rest) :
    digits (Nat.toDigits 10 n ++ rest) = (Nat.toDigits 10 n,rest) := by
  have decimal : ∀ c ∈ Nat.toDigits 10 n, c.isDigit = true := fun c member =>
    Nat.isDigit_of_mem_toDigits (by omega) (Nat.le_refl 10) member
  have others : rest.takeWhile Char.isDigit = [] ∧ rest.dropWhile Char.isDigit = rest := by
    cases rest with
    | nil => exact ⟨rfl,rfl⟩
    | cons c rest =>
      have no : c.isDigit = false := by
        rcases stops c rfl with rfl | rfl | rfl <;> rfl
      simp [no]
  rw [digits,List.takeWhile_append_of_pos decimal,List.dropWhile_append_of_pos decimal,others.1,
    others.2,List.append_nil]

theorem readUnsigned_toDigits (negative : Bool) (stops : Stops rest) :
    readUnsigned printed negative (Nat.toDigits 10 n ++ rest) =
      some (.int (if negative then -n else n),rest) := by
  have whole : ¬ (Nat.toDigits 10 n = [] ∨
      (Nat.toDigits 10 n).head? = some '0' ∧ Nat.toDigits 10 n ≠ ['0']) := by
    rintro (none | ⟨zero,more⟩)
    · exact Nat.toDigits_ne_nil none
    · rcases Nat.eq_zero_or_pos n with rfl | pos
      · exact more (Nat.toDigits_zero 10)
      · exact head?_toDigits pos zero
  have fraction : readFraction rest = some ([],rest) := by
    cases rest with
    | nil => rfl
    | cons c rest => rcases stops c rfl with rfl | rfl | rfl <;> rfl
  have exponent : readExponent rest = some ([],rest) := by
    cases rest with
    | nil => rfl
    | cons c rest => rcases stops c rfl with rfl | rfl | rfl <;> rfl
  rw [readUnsigned,digits_toDigits stops]
  simp only [if_neg whole,fraction,exponent,Option.bind_eq_bind,Option.bind_some,and_self,if_true,
    Nat.ofDigitChars_ten_toDigits]
  rfl

theorem toList_int (value : Int) : (toString value).toList =
    if value < 0 then '-' :: Nat.toDigits 10 value.natAbs else Nat.toDigits 10 value.natAbs := by
  cases value with
  | ofNat n =>
    have nonneg : ¬ Int.ofNat n < 0 := Int.not_lt.mpr (Int.natCast_nonneg n)
    rw [if_neg nonneg]
    exact Nat.toList_repr
  | negSucc n =>
    rw [if_pos (Int.negSucc_lt_zero n)]
    change ("-" ++ (n + 1).repr).toList = _
    rw [String.toList_append,Nat.toList_repr]
    rfl

theorem toDigits_head (n : Nat) : ∃ first others, Nat.toDigits 10 n = first :: others ∧
    first.isDigit = true := by
  obtain ⟨first,others,shape⟩ := List.exists_cons_of_ne_nil (@Nat.toDigits_ne_nil n 10)
  have member : first ∈ Nat.toDigits 10 n := shape ▸ List.mem_cons_self
  exact ⟨first,others,shape,Nat.isDigit_of_mem_toDigits (by omega) (Nat.le_refl 10) member⟩

theorem readNumber_int (value : Int) (stops : Stops rest) :
    readNumber printed ((toString value).toList ++ rest) = some (.int value,rest) := by
  rw [toList_int]
  split
  next negative =>
    rw [List.cons_append,readNumber,readUnsigned_toDigits true stops,if_pos rfl]
    congr 3
    omega
  next =>
    obtain ⟨first,others,shape,digit⟩ := toDigits_head value.natAbs
    have read := @readUnsigned_toDigits printed rest value.natAbs false stops
    rw [shape,List.cons_append] at read ⊢
    rw [readNumber.eq_def]
    split
    next same =>
      cases same
      contradiction
    next =>
      rw [read,if_neg Bool.false_ne_true]
      congr 3
      omega

theorem skip_cons (filled : blank c = false) : skip (c :: rest) = c :: rest := by
  rw [skip,List.dropWhile_cons,filled]
  rfl

theorem digit_filled (digit : c.isDigit = true) : blank c = false ∧ c ≠ ']' := by
  constructor
  · simp only [blank,Bool.or_eq_false_iff,decide_eq_false_iff_not]
    refine ⟨⟨⟨?_,?_⟩,?_⟩,?_⟩ <;> (rintro rfl; contradiction)
  · rintro rfl
    contradiction

/-- A value begins with no blank and closes nothing. -/
theorem encode_head {json : Json} (plain : Plain json) : ∃ first others,
    encode json = first :: others ∧ blank first = false ∧ first ≠ ']' := by
  cases json with
  | null => exact ⟨_,_,rfl,by decide,by decide⟩
  | bool value => cases value <;> exact ⟨_,_,rfl,by decide,by decide⟩
  | int value =>
    rw [encode,toList_int]
    split
    · exact ⟨_,_,rfl,by decide,by decide⟩
    · obtain ⟨first,others,shape,digit⟩ := toDigits_head value.natAbs
      exact ⟨first,others,shape,digit_filled digit⟩
  | double text => exact plain.elim
  | string value => exact ⟨_,_,rfl,by decide,by decide⟩
  | list items => exact ⟨_,_,rfl,by decide,by decide⟩
  | map entries => exact ⟨_,_,rfl,by decide,by decide⟩

theorem put_new {entries : List (String × Json)} {key : String} (value : Json)
    (new : key ∉ entries.map Prod.fst) : put entries key value = entries ++ [(key,value)] :=
  if_neg new

theorem foldl_put {before entries : List (String × Json)}
    (distinct : ((before ++ entries).map Prod.fst).Nodup) :
    entries.foldl (fun entries entry => put entries entry.1 entry.2) before = before ++ entries := by
  induction entries generalizing before with
  | nil => rw [List.append_nil]; rfl
  | cons entry rest ih =>
    have new : entry.1 ∉ before.map Prod.fst := by
      rw [List.map_append,List.map_cons] at distinct
      exact fun old => (List.disjoint_of_nodup_append distinct) old List.mem_cons_self
    rw [List.foldl_cons,put_new _ new]
    rw [List.append_cons] at distinct
    exact (ih distinct).trans (List.append_assoc ..)

theorem object_eq {entries : List (String × Json)} (distinct : (entries.map Prod.fst).Nodup) :
    object entries = .map entries :=
  congrArg Json.map (foldl_put distinct)

theorem readValue_number (number : c = '-' ∨ c.isDigit = true) :
    readValue printed (fuel + 1) (c :: rest) = readNumber printed (c :: rest) := by
  have filled : blank c = false := by
    rcases number with rfl | digit
    · rfl
    · exact (digit_filled digit).1
  rw [readValue,skip_cons filled]
  split
  next same => cases same; simp at number
  next same => cases same; simp at number
  next same => cases same; simp at number
  next same => cases same; exact if_pos number
  next same => cases same

theorem readString_encodeString {s : String} (enough : (encodeString s).length ≤ fuel) :
    readString fuel (encodeString s ++ rest) = some (s.toList,rest) := by
  rw [encodeString,List.append_assoc]
  refine readString_encode ?_
  rw [encodeString,List.length_append] at enough
  exact enough

theorem int_head (value : Int) : ∃ first others, (toString value).toList = first :: others ∧
    (first = '-' ∨ first.isDigit = true) := by
  rw [toList_int]
  split
  · exact ⟨_,_,rfl,.inl rfl⟩
  · obtain ⟨first,others,shape,digit⟩ := toDigits_head value.natAbs
    exact ⟨first,others,shape,.inr digit⟩

theorem encode_pos {json : Json} (plain : Plain json) (enough : (encode json).length ≤ fuel) :
    ∃ n, fuel = n + 1 := by
  obtain ⟨first,others,shape,_⟩ := encode_head plain
  rw [shape,List.length_cons] at enough
  exact Nat.exists_eq_add_of_le' (Nat.le_of_add_left_le enough)

theorem items_head {item : Json} {items : List Json} (plain : Plain item) : ∃ first others,
    encodeItems (item :: items) = first :: others ∧ blank first = false ∧ first ≠ ']' := by
  obtain ⟨first,others,shape,filled,open_⟩ := encode_head plain
  cases items with
  | nil => exact ⟨first,_,by rw [encodeItems,shape]; rfl,filled,open_⟩
  | cons => exact ⟨first,_,by rw [encodeItems,shape]; rfl; simp,filled,open_⟩

theorem members_head (entry : String × Json) (entries : List (String × Json)) :
    ∃ others, encodeMembers (entry :: entries) = '\x22' :: others := by
  cases entries with
  | nil => exact ⟨_,rfl⟩
  | cons => exact ⟨_,rfl⟩

theorem readMembers_name {key : String} (enough : (encodeString key).length ≤ fuel) :
    readMembers printed (fuel + 1) ('\x22' :: (encodeString key ++ ':' :: rest)) =
      (readValue printed fuel rest).bind fun (value,rest) => match skip rest with
        | ',' :: rest => (readMembers printed fuel rest).bind fun (entries,rest) =>
          some ((key,value) :: entries,rest)
        | '\x7d' :: rest => some ([(key,value)],rest)
        | _ => none := by
  have name := @readString_encodeString (':' :: rest) fuel key enough
  change (readString fuel _).bind _ = _
  rw [name,Option.bind_some]
  simp only [String.ofList_toList]
  rfl

theorem closes (c : Char) (rest : List Char) (stop : c = ',' ∨ c = ']' ∨ c = '\x7d') :
    Stops (c :: rest) := by
  rintro _ ⟨⟩
  exact stop

mutual

/-- What has been written is read, whatever stands behind it. -/
theorem readValue_encode : ∀ (json : Json) (fuel : Nat) (rest : List Char), Plain json →
    Stops rest → (encode json).length ≤ fuel →
      readValue printed fuel (encode json ++ rest) = some (json,rest)
  | .null,_,_,plain,_,enough => by
    obtain ⟨fuel,rfl⟩ := encode_pos plain enough
    rfl
  | .bool value,_,_,plain,_,enough => by
    obtain ⟨fuel,rfl⟩ := encode_pos plain enough
    cases value <;> rfl
  | .int value,_,_,plain,stops,enough => by
    obtain ⟨fuel,rfl⟩ := encode_pos plain enough
    obtain ⟨first,others,shape,number⟩ := int_head value
    have read := @readNumber_int printed _ value stops
    rw [shape,List.cons_append] at read
    rw [encode,shape,List.cons_append,readValue_number number,read]
  | .double _,_,_,plain,_,_ => plain.elim
  | .string value,_,rest,plain,_,enough => by
    obtain ⟨fuel,rfl⟩ := encode_pos plain enough
    rw [encode,List.length_cons] at enough
    have read := @readString_encodeString rest fuel value (Nat.le_of_succ_le_succ enough)
    rw [encode,List.cons_append,readValue,skip_cons rfl]
    change (readString _ _).map _ = _
    rw [read]
    simp
  | .list [],_,_,plain,_,enough => by
    obtain ⟨fuel,rfl⟩ := encode_pos plain enough
    rfl
  | .list (item :: items),_,rest,plain,_,enough => by
    obtain ⟨fuel,rfl⟩ := encode_pos plain enough
    rw [encode,List.length_cons] at enough
    have read := readItems_encode (item :: items) fuel rest (List.cons_ne_nil _ _) plain
      (Nat.le_of_succ_le_succ enough)
    obtain ⟨first,others,shape,filled,open_⟩ := @items_head item items plain.1
    rw [shape,List.cons_append] at read
    rw [encode,shape,List.cons_append,List.cons_append,readValue,skip_cons rfl]
    simp only [skip_cons filled]
    split
    next same => cases same; exact absurd rfl open_
    next => rw [read]; rfl
  | .map [],_,_,plain,_,enough => by
    obtain ⟨fuel,rfl⟩ := encode_pos plain enough
    rfl
  | .map (entry :: entries),_,rest,plain,_,enough => by
    obtain ⟨fuel,rfl⟩ := encode_pos plain enough
    rw [encode,List.length_cons] at enough
    have read := readMembers_encode (entry :: entries) fuel rest (List.cons_ne_nil _ _) plain.2
      (Nat.le_of_succ_le_succ enough)
    obtain ⟨others,shape⟩ := members_head entry entries
    rw [shape,List.cons_append] at read
    rw [encode,shape,List.cons_append,List.cons_append,readValue,skip_cons rfl]
    change (readMembers _ _ _).map _ = _
    rw [read]
    exact congrArg (fun json => some (json,rest)) (object_eq plain.1)

theorem readItems_encode : ∀ (items : List Json) (fuel : Nat) (rest : List Char),
    items ≠ [] → PlainItems items → (encodeItems items).length ≤ fuel →
      readItems printed fuel (encodeItems items ++ rest) = some (items,rest)
  | [],_,_,filled,_,_ => absurd rfl filled
  | [item],_,rest,_,plain,enough => by
    rw [encodeItems,List.length_append] at enough
    obtain ⟨fuel,rfl⟩ := Nat.exists_eq_add_of_le' (Nat.le_of_add_left_le enough)
    have read := readValue_encode item fuel (']' :: rest) plain.1
      (closes ']' rest (.inr (.inl rfl))) (Nat.le_of_succ_le_succ enough)
    rw [encodeItems,List.append_assoc]
    change (readValue printed fuel (encode item ++ ']' :: rest)).bind _ = _
    rw [read]
    rfl
  | item :: next :: others,fuel,rest,_,plain,enough => by
    have shape : encodeItems (item :: next :: others) =
        encode item ++ ',' :: encodeItems (next :: others) := rfl
    rw [shape,List.length_append,List.length_cons] at enough
    obtain ⟨fuel,rfl⟩ : ∃ n, fuel = n + 1 := Nat.exists_eq_add_of_le' (by omega)
    have first := readValue_encode item fuel (',' :: (encodeItems (next :: others) ++ rest)) plain.1
      (closes ',' _ (.inl rfl)) (by omega)
    have later := readItems_encode (next :: others) fuel rest (List.cons_ne_nil _ _) plain.2
      (by omega)
    rw [shape,List.append_assoc,List.cons_append]
    change (readValue printed fuel _).bind _ = _
    rw [first,Option.bind_some]
    change (readItems printed fuel _).bind _ = _
    rw [later]
    rfl

theorem readMembers_encode : ∀ (entries : List (String × Json)) (fuel : Nat) (rest : List Char),
    entries ≠ [] → PlainMembers entries → (encodeMembers entries).length ≤ fuel →
      readMembers printed fuel (encodeMembers entries ++ rest) = some (entries,rest)
  | [],_,_,filled,_,_ => absurd rfl filled
  | [(key,value)],fuel,rest,_,plain,enough => by
    have shape : encodeMembers [(key,value)] =
        '\x22' :: encodeString key ++ ':' :: encode value ++ ['\x7d'] := rfl
    rw [shape,List.length_append,List.length_append,List.length_cons,List.length_cons] at enough
    obtain ⟨fuel,rfl⟩ : ∃ n, fuel = n + 1 := Nat.exists_eq_add_of_le' (by omega)
    have read := readValue_encode value fuel ('\x7d' :: rest) plain.1
      (closes '\x7d' rest (.inr (.inr rfl))) (by omega)
    have text : encodeMembers [(key,value)] ++ rest =
        '\x22' :: (encodeString key ++ ':' :: (encode value ++ '\x7d' :: rest)) := by simp [shape]
    rw [text,readMembers_name (by omega),read]
    rfl
  | (key,value) :: next :: others,fuel,rest,_,plain,enough => by
    have shape : encodeMembers ((key,value) :: next :: others) =
        '\x22' :: encodeString key ++ ':' :: encode value ++ ',' :: encodeMembers (next :: others) :=
      rfl
    rw [shape,List.length_append,List.length_append,List.length_cons,List.length_cons,
      List.length_cons] at enough
    obtain ⟨fuel,rfl⟩ : ∃ n, fuel = n + 1 := Nat.exists_eq_add_of_le' (by omega)
    have first := readValue_encode value fuel (',' :: (encodeMembers (next :: others) ++ rest))
      plain.1 (closes ',' _ (.inl rfl)) (by omega)
    have later := readMembers_encode (next :: others) fuel rest (List.cons_ne_nil _ _) plain.2
      (by omega)
    have text : encodeMembers ((key,value) :: next :: others) ++ rest = '\x22' ::
        (encodeString key ++ ':' :: (encode value ++ ',' :: (encodeMembers (next :: others) ++ rest))) := by
      simp [shape]
    rw [text,readMembers_name (by omega),first]
    change (readMembers printed fuel _).bind _ = _
    rw [later]
    rfl

end

/-- The text of a value is read as this value. -/
theorem decode_encode {json : Json} (plain : Plain json) :
    decode printed (String.ofList (encode json)) = some json := by
  have read : readValue printed ((encode json).length + 1) (encode json ++ []) = some (json,[]) :=
    readValue_encode json _ [] plain nofun (Nat.le_succ _)
  rw [List.append_nil] at read
  rw [decode,String.toList_ofList,read]
  rfl

end Neuro.Lib.JsonText
