import Mathlib.Logic.Basic
import Neuro.Lib.Sexagesimal

/-! Dates and times of the Gregorian calendar, their seconds and their texts. Years are
counted from March, so that a leap day is the last day of its year. -/
namespace Neuro.Lib
open Sexagesimal

/-- No field is checked: a day 31 of April is the first of May. -/
structure DateTime where
  year : Int
  month : Int
  day : Int
  hour : Int
  minute : Int
  second : Int
  deriving DecidableEq, Repr

namespace DateTime

/-- The days before the first of March of a year, counted from that of year 0. -/
def daysOfYear (year : Int) : Int := 365 * year + year / 4 - year / 100 + year / 400

def daysOfMonth (month : Int) : Int := (153 * month + 2) / 5

def dayNumber (t : DateTime) : Int :=
  daysOfYear (if t.month ≤ 2 then t.year - 1 else t.year) + daysOfMonth ((t.month + 9) % 12) +
    (t.day - 1)

/-- Since the first of March of year 0. -/
def seconds (t : DateTime) : Int :=
  t.dayNumber * 86400 + t.hour * 3600 + t.minute * 60 + t.second

/-- The year a day falls in and the number of the day in it. -/
def yearOfDay (days : Int) : Int × Int :=
  let era := days % 146097
  let century := min 3 (era / 36524)
  let cycle := (era - century * 36524) / 1461
  let rest := era - century * 36524 - cycle * 1461
  let year := min 3 (rest / 365)
  (days / 146097 * 400 + century * 100 + cycle * 4 + year,rest - year * 365)

def ofSeconds (seconds : Int) : DateTime :=
  let (year,day) := yearOfDay (seconds / 86400)
  let month := (5 * day + 2) / 153
  { year := if month < 10 then year else year + 1
    month := if month < 10 then month + 3 else month - 9
    day := day - daysOfMonth month + 1
    hour := seconds % 86400 / 3600
    minute := seconds % 3600 / 60
    second := seconds % 60}

theorem yearOfDay_days (days : Int) :
    daysOfYear (yearOfDay days).1 + (yearOfDay days).2 = days ∧
      0 ≤ (yearOfDay days).2 ∧ (yearOfDay days).2 ≤ 365 := by
  simp only [yearOfDay,daysOfYear]
  generalize era : days % 146097 = e
  generalize hundred : min 3 (e / 36524) = century
  have inside : 0 ≤ e - century * 36524 ∧ e - century * 36524 ≤ 36524 ∧ 0 ≤ century ∧
      century ≤ 3 := by omega
  generalize four : (e - century * 36524) / 1461 = cycle
  generalize left : e - century * 36524 - cycle * 1461 = rest
  have within : 0 ≤ rest ∧ rest ≤ 1460 ∧ 0 ≤ cycle ∧ cycle ≤ 24 := by omega
  generalize one : min 3 (rest / 365) = year
  have single : 0 ≤ year ∧ year ≤ 3 ∧ 0 ≤ rest - year * 365 ∧ rest - year * 365 ≤ 365 := by omega
  generalize eras : days / 146097 = n
  have quarter : (n * 400 + century * 100 + cycle * 4 + year) / 4 =
      n * 100 + century * 25 + cycle := by omega
  have hundredth : (n * 400 + century * 100 + cycle * 4 + year) / 100 = n * 4 + century := by omega
  have whole : (n * 400 + century * 100 + cycle * 4 + year) / 400 = n := by omega
  rw [quarter,hundredth,whole]
  omega

theorem dayNumber_ofSeconds (seconds : Int) : (ofSeconds seconds).dayNumber = seconds / 86400 := by
  obtain ⟨total,low,high⟩ := yearOfDay_days (seconds / 86400)
  rw [dayNumber,ofSeconds]
  generalize yearOfDay (seconds / 86400) = found at *
  obtain ⟨year,day⟩ := found
  dsimp only at total low high ⊢
  obtain ⟨month,shifted⟩ : ∃ month, (5 * day + 2) / 153 = month := ⟨_,rfl⟩
  simp only [shifted]
  have range : 0 ≤ month ∧ month ≤ 11 := by omega
  by_cases early : month < 10
  · have back : (month + 3 + 9) % 12 = month := by omega
    rw [if_pos early,if_pos early,if_neg (by omega),back]
    omega
  · have back : (month - 9 + 9) % 12 = month := by omega
    rw [if_neg early,if_neg early,if_pos (by omega),back,Int.add_sub_cancel]
    omega

theorem seconds_ofSeconds (seconds : Int) : (ofSeconds seconds).seconds = seconds := by
  rw [DateTime.seconds,dayNumber_ofSeconds]
  simp only [ofSeconds]
  omega

end DateTime

/-! Texts. -/

def pad (width n : Nat) : String :=
  String.ofList (List.replicate (width - (toString n).length) '0') ++ toString n

theorem pad_decimal (width n : Nat) : Decimal (pad width n) := by
  intro c member
  rw [pad,String.toList_append,String.toList_ofList,List.mem_append] at member
  rcases member with zero | digit
  · rw [List.eq_of_mem_replicate zero]
    simp
  · exact decimal_repr n c digit

theorem pad_value (width n : Nat) : value (pad width n).toList = n := by
  rw [pad,value,String.toList_append,String.toList_ofList,Nat.ofDigitChars_append,
    Nat.ofDigitChars_replicate_zero,Nat.mul_zero]
  exact value_repr n

/-- A time that is written with a year of four digits and two digits for every other
field. -/
structure Stamp where
  year : Nat
  month : Nat
  day : Nat
  hour : Nat
  minute : Nat
  second : Nat
  inYear : year < 10000 := by omega
  inMonth : 1 ≤ month ∧ month ≤ 12 := by omega
  inDay : 1 ≤ day ∧ day ≤ 31 := by omega
  inHour : hour < 24 := by omega
  inMinute : minute < 60 := by omega
  inSecond : second < 60 := by omega

namespace Stamp

def dateTime (stamp : Stamp) : DateTime :=
  ⟨stamp.year,stamp.month,stamp.day,stamp.hour,stamp.minute,stamp.second⟩

def seconds (stamp : Stamp) : Int := stamp.dateTime.seconds

/-- `yyyy-MM-dd HH:mm:ss` -/
def text (stamp : Stamp) : String :=
  pad 4 stamp.year ++ "-" ++ (pad 2 stamp.month ++ "-" ++ (pad 2 stamp.day ++ " " ++
    (pad 2 stamp.hour ++ ":" ++ (pad 2 stamp.minute ++ ":" ++ pad 2 stamp.second))))

end Stamp

/-- The decimal fields of a text, whatever stands between them. -/
def numbers (text : String) : List (List Char) := text.toList.splitOnP fun c => !c.isDigit

/-- A reader of times whose hours run from 0 to 11: it takes the hour 12 for 0. -/
def readHalfDay (text : String) : Option DateTime :=
  match numbers text with
  | y :: mo :: d :: h :: mi :: s :: _ =>
    if [] ∈ [y,mo,d,h,mi,s] then none
    else some ⟨value y,value mo,value d,if value h = 12 then 0 else value h,value mi,value s⟩
  | _ => none

theorem numbers_decimal {text : String} (decimal : Decimal text) : numbers text = [text.toList] :=
  List.splitOnP_eq_singleton fun c member => by simp [decimal c member]

theorem numbers_cons {text separator : String} (decimal : Decimal text) {c : Char}
    (single : separator.toList = [c]) (between : c.isDigit = false) (rest : String) :
    numbers (text ++ (separator ++ rest)) = text.toList :: numbers rest := by
  have lists : (text ++ (separator ++ rest)).toList = text.toList ++ c :: rest.toList := by
    simp [single]
  rw [numbers,lists,List.splitOnP_append_cons_of_forall_mem _ c (by simp [between])]
  · rfl
  · exact fun c member => by simp [decimal c member]

theorem pad_nonempty (width n : Nat) : (pad width n).toList ≠ [] := by
  intro empty
  have filled : 0 < (toString n).length := Nat.length_repr_pos
  have length := congrArg List.length empty
  rw [String.length_toList,pad,String.length_append] at length
  simp only [List.length_nil] at length
  omega

/-- What a parser of `yyyy-MM-dd hh:mm:ss` does with a time on the 24 hour clock: it
reads the hour 12 as 0. A fraction of a second is left unread. -/
def HalfDay (parse : String → Option DateTime) : Prop :=
  ∀ (stamp : Stamp) (rest : String), (rest = "" ∨ ∃ fraction, rest = "." ++ fraction) →
    parse (stamp.text ++ rest) =
      some {stamp.dateTime with hour := if stamp.hour = 12 then 0 else stamp.hour}

/-- How far a time that is read back lags behind. -/
def Stamp.lag (stamp : Stamp) : Int := if stamp.hour = 12 then 43200 else 0

theorem Stamp.lag_eq_zero {stamp : Stamp} : stamp.lag = 0 ↔ stamp.hour ≠ 12 := by
  unfold lag
  split <;> simp_all

theorem HalfDay.seconds {parse : String → Option DateTime} (intl : HalfDay parse) (stamp : Stamp)
    {rest : String} (fraction : rest = "" ∨ ∃ fraction, rest = "." ++ fraction) :
    ∃ t, parse (stamp.text ++ rest) = some t ∧ t.seconds = stamp.seconds - stamp.lag := by
  refine ⟨_,intl stamp rest fraction,?_⟩
  simp only [Stamp.seconds,Stamp.lag,DateTime.seconds,DateTime.dayNumber,Stamp.dateTime]
  by_cases noon : stamp.hour = 12
  · simp only [noon,if_true]
    omega
  · simp only [noon,if_false]
    omega

theorem numbers_text (stamp : Stamp) {rest : String}
    (fraction : rest = "" ∨ ∃ fraction, rest = "." ++ fraction) :
    ∃ unread, numbers (stamp.text ++ rest) =
      (pad 4 stamp.year).toList :: (pad 2 stamp.month).toList :: (pad 2 stamp.day).toList ::
      (pad 2 stamp.hour).toList :: (pad 2 stamp.minute).toList :: (pad 2 stamp.second).toList ::
      unread := by
  have last : ∃ unread, numbers (pad 2 stamp.second ++ rest) =
      (pad 2 stamp.second).toList :: unread := by
    rcases fraction with rfl | ⟨digits,rfl⟩
    · exact ⟨[],by rw [String.append_empty,numbers_decimal (pad_decimal _ _)]⟩
    · exact ⟨_,numbers_cons (pad_decimal _ _) (c := '.') (by simp) (by simp) digits⟩
  obtain ⟨unread,found⟩ := last
  refine ⟨unread,?_⟩
  simp only [Stamp.text,String.append_assoc]
  rw [numbers_cons (pad_decimal _ _) (c := '-') (by simp) (by simp),
    numbers_cons (pad_decimal _ _) (c := '-') (by simp) (by simp),
    numbers_cons (pad_decimal _ _) (c := ' ') (by simp) (by simp),
    numbers_cons (pad_decimal _ _) (c := ':') (by simp) (by simp),
    numbers_cons (pad_decimal _ _) (c := ':') (by simp) (by simp),found]

theorem readHalfDay_halfDay : HalfDay readHalfDay := by
  intro stamp rest fraction
  obtain ⟨unread,found⟩ := numbers_text stamp fraction
  rw [readHalfDay,found]
  dsimp only
  rw [if_neg]
  · simp only [pad_value,Stamp.dateTime]
  · simp [(pad_nonempty _ _).symm]

end Neuro.Lib
