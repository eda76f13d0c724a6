import Neuro.Lib.DateTime
import Neuro.Lib.Json
import Mathlib.Data.List.Basic

/-! The rows of the neuro requests and of the sent requests, decoded from JSON. The
constructors catch whatever is thrown and keep what they have read by then. -/
namespace Neuro.RequestRows
open Neuro.Lib

/-- `time` in seconds. -/
structure NeuroRequest where
  userId : String := ""
  name : String := ""
  birthdate : String := ""
  profileImg : String := ""
  address : String := ""
  time : Option Int := none
  deriving DecidableEq, Repr

structure SentRequest extends NeuroRequest where
  id : String := ""
  deriving DecidableEq, Repr

def left48 (start finish : DateTime) : Int := 48 * 3600 - (finish.seconds - start.seconds)

def NeuroRequest.daysBetween : DateTime → DateTime → Int := left48

def SentRequest.daysBetween : DateTime → DateTime → Int := left48

/-- A member of an object, null if it has none. -/
def member (jsonMap : Json) (key : String) : Json := (jsonMap.index key).getD .null

/-- The first read of a user that is no object throws. -/
def filled (user : Json) : Option NeuroRequest := do
  let id ← user.index "id"
  let name ← user.index "name"
  let birthdate ← user.index "birthdate"
  let profileImg ← user.index "profile_img"
  let address ← user.index "address"
  return {
    userId := id.text
    name := name.text
    birthdate := birthdate.text
    profileImg := profileImg.text
    address := address.text}

section Decode
variable (parse : String → Option DateTime)

def decoded (daysBetween : DateTime → DateTime → Int) (jsonMap : Json) : NeuroRequest :=
  match parse (member jsonMap "date").text,parse (member jsonMap "servertime").text with
  | some createAtDateTime,some severDateTime =>
    let time := some (daysBetween createAtDateTime severDateTime)
    match filled (member jsonMap "user") with
    | some user => {user with time := time}
    | none => {time := time}
  | _,_ => {}

def NeuroRequest.fromJSON (jsonMap : Json) : NeuroRequest :=
  decoded parse NeuroRequest.daysBetween jsonMap

def SentRequest.fromJSONDETAILS (jsonMap : Json) : SentRequest where
  toNeuroRequest := decoded parse SentRequest.daysBetween jsonMap
  id := (member jsonMap "id").text

end Decode

/-! The remaining time. -/

def Carries (jsonMap : Json) (date servertime : Stamp) : Prop :=
  member jsonMap "date" = .string date.text ∧
    member jsonMap "servertime" = .string servertime.text

def remaining (date servertime : Stamp) : Int := 48 * 3600 - (servertime.seconds - date.seconds)

def Timed (parse : String → Option DateTime) (date servertime : Stamp) : Prop :=
  ∀ jsonMap, Carries jsonMap date servertime →
    (NeuroRequest.fromJSON parse jsonMap).time = some (remaining date servertime) ∧
    (SentRequest.fromJSONDETAILS parse jsonMap).time = some (remaining date servertime)

def Decreases (time : Json → Option Int) (date servertime later : Stamp) : Prop :=
  servertime.seconds ≤ later.seconds → ∀ jsonMap next, Carries jsonMap date servertime →
    Carries next date later → ∀ earlier ∈ time jsonMap, ∀ after ∈ time next, after ≤ earlier

structure Timers (parse : String → Option DateTime) (date servertime later : Stamp) : Prop where
  timed : Timed parse date servertime
  timedLater : Timed parse date later
  received : Decreases (fun jsonMap => (NeuroRequest.fromJSON parse jsonMap).time)
    date servertime later
  sent : Decreases (fun jsonMap => (SentRequest.fromJSONDETAILS parse jsonMap).time)
    date servertime later

theorem decoded_time {parse : String → Option DateTime} (intl : HalfDay parse)
    {jsonMap : Json} {date servertime : Stamp} (carries : Carries jsonMap date servertime) :
    (decoded parse left48 jsonMap).time =
      some (remaining date servertime + (servertime.lag - date.lag)) := by
  obtain ⟨created,first,start⟩ := intl.seconds date (.inl rfl)
  obtain ⟨server,second,finish⟩ := intl.seconds servertime (.inl rfl)
  rw [String.append_empty] at first second
  have time : left48 created server = remaining date servertime + (servertime.lag - date.lag) := by
    rw [left48,start,finish,remaining]
    omega
  rw [decoded,carries.1,carries.2]
  simp only [Json.text,first,second,time]
  split <;> rfl

theorem timed_iff {parse : String → Option DateTime} (intl : HalfDay parse)
    (date servertime : Stamp) :
    Timed parse date servertime ↔ (date.hour = 12 ↔ servertime.hour = 12) := by
  have equal : servertime.lag - date.lag = 0 ↔ (date.hour = 12 ↔ servertime.hour = 12) := by
    unfold Stamp.lag
    split <;> split <;> simp_all
  rw [← equal]
  constructor
  · intro timed
    have carries : Carries (.map [("date",.string date.text),
        ("servertime",.string servertime.text)]) date servertime := ⟨rfl,rfl⟩
    have exact := (decoded_time intl carries).symm.trans (timed _ carries).1
    have same : remaining date servertime + (servertime.lag - date.lag) =
        remaining date servertime := Option.some.inj exact
    omega
  · intro lag jsonMap carries
    have time := decoded_time intl carries
    rw [lag,Int.add_zero] at time
    exact ⟨time,time⟩

theorem decreases_of_exact {time : Json → Option Int} {date servertime later : Stamp}
    (timed : ∀ jsonMap, Carries jsonMap date servertime →
      time jsonMap = some (remaining date servertime))
    (timedLater : ∀ next, Carries next date later → time next = some (remaining date later)) :
    Decreases time date servertime later := by
  intro advances jsonMap next carries carriesNext earlier left after right
  rw [timed jsonMap carries] at left
  rw [timedLater next carriesNext] at right
  cases Option.some.inj left
  cases Option.some.inj right
  simp only [remaining]
  omega

/-- Both models set the exact time left, and less of it as the server time advances, if
and only if the hours of all times are 12 or none is. -/
theorem request_timers_iff {parse : String → Option DateTime} (intl : HalfDay parse)
    (date servertime later : Stamp) : Timers parse date servertime later ↔
      (date.hour = 12 ↔ servertime.hour = 12) ∧ (date.hour = 12 ↔ later.hour = 12) := by
  constructor
  · intro timers
    exact ⟨(timed_iff intl _ _).mp timers.timed,(timed_iff intl _ _).mp timers.timedLater⟩
  · rintro ⟨hours,hoursLater⟩
    have timed := (timed_iff intl date servertime).mpr hours
    have timedLater := (timed_iff intl date later).mpr hoursLater
    constructor
    · exact timed
    · exact timedLater
    · exact decreases_of_exact (fun jsonMap carries => (timed jsonMap carries).1)
        fun next carries => (timedLater next carries).1
    · exact decreases_of_exact (fun jsonMap carries => (timed jsonMap carries).2)
        fun next carries => (timedLater next carries).2

def oclock (day hour : Nat) (inDay : 1 ≤ day ∧ day ≤ 31 := by omega)
    (inHour : hour < 24 := by omega) : Stamp where
  year := 2022
  month := 6
  day := day
  hour := hour
  minute := 30
  second := 15
  inDay := inDay
  inHour := inHour

theorem request_timers_iff_morning :
    Timers readHalfDay (oclock 7 8) (oclock 7 9) (oclock 8 12) ↔
      ((oclock 7 8).hour = 12 ↔ (oclock 7 9).hour = 12) ∧
      ((oclock 7 8).hour = 12 ↔ (oclock 8 12).hour = 12) :=
  request_timers_iff readHalfDay_halfDay _ _ _

theorem noon_extends_request : ¬ ∀ (parse : String → Option DateTime)
    (date servertime later : Stamp), HalfDay parse → Timers parse date servertime later := by
  intro claimed
  have timers := claimed readHalfDay (oclock 7 8) (oclock 7 12) (oclock 8 8) readHalfDay_halfDay
  have hours := (timed_iff readHalfDay_halfDay _ _).mp timers.timed
  exact absurd (hours.mpr rfl) (by decide)

/-! The lists of the controllers. -/

def isMap : Json → Bool
  | .map _ => true
  | _ => false

section Lists
variable (parse : String → Option DateTime)

/-- An element that is no object fits no constructor: the conversion of the list throws. -/
def converted {R : Type} (decode : Json → R) (items : List Json) : Option (List R) :=
  if items.all isMap then some (items.map decode) else none

/-- `list_data` after an answer; what is thrown leaves it as it was. -/
def getNeuroRequestList (listData : List NeuroRequest) (items : List Json) : List NeuroRequest :=
  (converted (NeuroRequest.fromJSON parse) items).getD listData

structure SentRequests where
  userBudge : String := ""
  listRequest : List SentRequest := []

def SentRequest.fromJSON (jsonMap : Json) : SentRequests where
  userBudge := (member jsonMap "user_budge").text
  listRequest := match member jsonMap "items" with
    | .list items => (converted (SentRequest.fromJSONDETAILS parse) items).getD []
    | _ => []

/-- `list_data` and `userNudgeCount` after an answer. -/
def getSentRequestList (jsonMap : Json) : List SentRequest × String :=
  let value := SentRequest.fromJSON parse jsonMap
  (value.listRequest,value.userBudge)

def scalar : Json → Bool
  | .int _ | .double _ | .string _ => true
  | .null | .bool _ | .list _ | .map _ => false

/-- Every member a row shows is there, and both times can be parsed. -/
def wellFormed (keys : List String) (element : Json) : Bool :=
  isMap element && isMap (member element "user") &&
    (parse (member element "date").text).isSome &&
    (parse (member element "servertime").text).isSome &&
    keys.all (fun key => scalar (member element key)) &&
    ["id","name","birthdate","profile_img","address"].all fun key =>
      scalar (member (member element "user") key)

/-- The list holds the rows of the well-formed elements, and each of them has a time. -/
structure Listed {R : Type} (decode : Json → R) (time : R → Option Int) (keys : List String)
    (items : List Json) (listData : List R) : Prop where
  rows : listData = (items.filter (wellFormed parse keys)).map decode
  timed : ∀ row ∈ listData, time row ≠ none

/-- Every element is well formed, or one is no object and none is well formed. -/
def Clean (keys : List String) (items : List Json) : Prop :=
  (∀ element ∈ items, wellFormed parse keys element = true) ∨
    (∃ element ∈ items, isMap element = false) ∧
      ∀ element ∈ items, wellFormed parse keys element = false

def RowsListed (requests sent : List Json) (userBudge : Json) : Prop :=
  Listed parse (NeuroRequest.fromJSON parse) NeuroRequest.time [] requests
    (getNeuroRequestList parse [] requests) ∧
  Listed parse (SentRequest.fromJSONDETAILS parse) (fun row => row.time) ["id"] sent
    (getSentRequestList parse (.map [("user_budge",userBudge),("items",.list sent)])).1

end Lists

section Lists
variable {parse : String → Option DateTime} {keys : List String}

theorem decoded_timed (daysBetween : DateTime → DateTime → Int) {element : Json}
    (formed : wellFormed parse keys element = true) :
    (decoded parse daysBetween element).time ≠ none := by
  simp only [wellFormed,Bool.and_eq_true] at formed
  obtain ⟨⟨⟨⟨_,date⟩,servertime⟩,_⟩,_⟩ := formed
  obtain ⟨created,first⟩ := Option.isSome_iff_exists.mp date
  obtain ⟨server,second⟩ := Option.isSome_iff_exists.mp servertime
  rw [decoded,first,second]
  dsimp only
  split <;> simp

theorem wellFormed_isMap {element : Json} (formed : wellFormed parse keys element = true) :
    isMap element = true := by
  simp only [wellFormed,Bool.and_eq_true] at formed
  exact formed.1.1.1.1.1

theorem listed_iff {R : Type} (decode : Json → R) (time : R → Option Int)
    (timed : ∀ element, wellFormed parse keys element = true → time (decode element) ≠ none)
    (items : List Json) :
    Listed parse decode time keys items ((converted decode items).getD []) ↔
      Clean parse keys items := by
  have rows (list : List Json) : ∀ row ∈ (list.filter (wellFormed parse keys)).map decode,
      time row ≠ none := by
    intro row member
    obtain ⟨element,kept,rfl⟩ := List.mem_map.mp member
    exact timed element (List.mem_filter.mp kept).2
  by_cases objects : items.all isMap = true
  · have all : ¬ ∃ element ∈ items, isMap element = false := by
      rintro ⟨element,listed,other⟩
      rw [List.all_eq_true.mp objects element listed] at other
      contradiction
    rw [converted,if_pos objects,Option.getD_some]
    constructor
    · intro listed
      left
      have length := congrArg List.length listed.rows
      rw [List.length_map,List.length_map] at length
      exact List.length_filter_eq_length_iff.mp length.symm
    · rintro (formed | ⟨other,_⟩)
      · have kept : items.filter (wellFormed parse keys) = items := List.filter_eq_self.mpr formed
        refine ⟨by rw [kept],?_⟩
        rw [← kept]
        exact rows items
      · exact absurd other all
  · have other : ∃ element ∈ items, isMap element = false := by simpa using objects
    rw [converted,if_neg objects,Option.getD_none]
    constructor
    · intro listed
      right
      refine ⟨other,?_⟩
      have none := List.map_eq_nil_iff.mp listed.rows.symm
      simpa using List.filter_eq_nil_iff.mp none
    · rintro (formed | ⟨_,none⟩)
      · obtain ⟨element,listed,plain⟩ := other
        rw [wellFormed_isMap (formed element listed)] at plain
        contradiction
      · have empty : items.filter (wellFormed parse keys) = [] :=
          List.filter_eq_nil_iff.mpr fun element listed => by simp [none element listed]
        exact ⟨by rw [empty]; rfl,by simp⟩

end Lists

/-- The rows of a cleared list are those of the well-formed elements exactly when the
lists are clean. -/
theorem rows_listed_iff (parse : String → Option DateTime) (requests sent : List Json)
    (userBudge : Json) : RowsListed parse requests sent userBudge ↔
      Clean parse [] requests ∧ Clean parse ["id"] sent := by
  apply and_congr
  · exact listed_iff (NeuroRequest.fromJSON parse) NeuroRequest.time
      (fun _ formed => decoded_timed _ formed) requests
  · exact listed_iff (SentRequest.fromJSONDETAILS parse) (fun row => row.time)
      (fun _ formed => decoded_timed _ formed) sent

/-- An element without members is listed as a row without a time. -/
theorem empty_row_listed : ¬ ∀ (parse : String → Option DateTime) (requests sent : List Json)
    (userBudge : Json), RowsListed parse requests sent userBudge := by
  intro claimed
  have listed := (claimed readHalfDay [.map []] [] .null).1.timed
  exact listed {} (by decide) rfl

end Neuro.RequestRows
