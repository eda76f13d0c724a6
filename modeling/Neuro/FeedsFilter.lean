import Neuro.Lib.Separated
import Neuro.Lib.Sexagesimal
import Neuro.Repository

/-! The filter screen of the feed: Apply encodes the screen into a `Feed`, and a screen that
is opened with that `Feed` decodes it. The tags are decoded only when their list has been
delivered. -/
namespace Neuro.FeedsFilter
open Neuro.Lib Sexagesimal Separated Repository TagWidth
open SignIn (Response)

/-- The fields of a `Feed` that make up a filter. -/
structure Feed where
  minage : String := ""
  maxage : String := ""
  mindistance : String := ""
  maxdistance : String := ""
  gender : String := ""
  mode : String := ""
  hashtag : String := ""
  persnalitylist : List String := []
  deriving DecidableEq, Repr

structure Dummy where
  name : String
  isSelected : Bool := false
  deriving DecidableEq, Repr

structure RangeValues where
  start : ℚ
  stop : ℚ
  deriving DecidableEq, Repr

/-! Numbers in texts. -/

def toInt (value : ℚ) : ℤ := value.num.tdiv value.den

def digits (chars : List Char) : Option ℕ :=
  if chars ≠ [] ∧ chars.all Char.isDigit then some (value chars) else none

/-- `double.parse` of a text without a fraction or an exponent, as all texts in a filter. -/
def parse (text : String) : Option ℚ :=
  match text.toList with
  | '-' :: rest => (digits rest).map fun n : ℕ => (-n : ℚ)
  | chars => (digits chars).map fun n : ℕ => (n : ℚ)

theorem toInt_intCast (n : ℤ) : toInt n = n := by
  simp [toInt]

theorem digits_repr (n : ℕ) : digits (toString n).toList = some n := by
  have decimal : (toString n).toList.all Char.isDigit = true :=
    List.all_eq_true.mpr (decimal_repr n)
  have some : (toString n).toList ≠ [] := by simp [Nat.toString_eq_repr]
  rw [digits,if_pos ⟨some,decimal⟩,value_repr]

theorem parse_nat (n : ℕ) : parse (toString n) = some (n : ℚ) := by
  have first : ∀ rest, (toString n).toList ≠ '-' :: rest := by
    intro rest same
    have digit : '-'.isDigit = true := decimal_repr n '-' (same ▸ List.mem_cons_self)
    simp at digit
  unfold parse
  split
  next rest same => exact absurd same (first rest)
  next => rw [digits_repr,Option.map_some]

theorem parse_int (n : ℤ) : parse (toString n) = some (n : ℚ) := by
  cases n with
  | ofNat n => exact parse_nat n
  | negSucc n =>
    have text : (toString (Int.negSucc n)).toList = '-' :: (toString (n + 1)).toList := by
      simp [toString,Int.repr]
    unfold parse
    rw [text]
    simp only [digits_repr,Option.map_some,Int.cast_negSucc]

theorem filter_mem_of_sublist {kept names : List String} (sublist : kept.Sublist names)
    (distinct : names.Nodup) : names.filter (· ∈ kept) = kept := by
  induction sublist with
  | slnil => rfl
  | cons name sublist ih =>
    obtain ⟨absent,distinct⟩ := List.nodup_cons.mp distinct
    have dropped : name ∉ _ := fun member => absent (sublist.subset member)
    rw [List.filter_cons_of_neg (by simpa using dropped)]
    exact ih distinct
  | @cons_cons kept names name sublist ih =>
    obtain ⟨absent,distinct⟩ := List.nodup_cons.mp distinct
    rw [List.filter_cons_of_pos (by simp)]
    refine congrArg (name :: ·) ((List.filter_congr fun other member => ?_).trans (ih distinct))
    have apart : other ≠ name := fun same => absent (same ▸ member)
    simp [apart]

/-! The lists of options, each with a fixed set of names, all of them ASCII. -/

def upper (text : String) : String := String.ofList (text.toList.map Char.toUpper)

structure Options (names : List String) where
  list : List Dummy
  named : list.map Dummy.name = names
  deriving DecidableEq, Repr

namespace Options
variable {names : List String}

def fresh (names : List String) : Options names :=
  ⟨names.map fun name => ⟨name,false⟩,by simp [Function.comp_def]⟩

def select (selects : String → Bool) (options : Options names) : Options names where
  list := options.list.map fun element =>
    if selects element.name then {element with isSelected := true} else element
  named := by
    have kept (element : Dummy) : (if selects element.name then
        {element with isSelected := true} else element : Dummy).name = element.name := by
      split <;> rfl
    rw [List.map_map]
    exact (List.map_congr_left fun element _ => kept element).trans options.named

def selected (options : Options names) : List String :=
  (options.list.filter Dummy.isSelected).map Dummy.name

/-- The loop over the options that keeps the last one selected. -/
def chosen (options : Options names) : String :=
  options.list.foldl (fun chosen element =>
    if element.isSelected then upper element.name else chosen) ""

theorem selected_sublist (options : Options names) : options.selected.Sublist names := by
  have sublist := (List.filter_sublist (p := Dummy.isSelected) (l := options.list)).map Dummy.name
  rwa [options.named] at sublist

theorem selected_reselected (selects : String → Bool) :
    ((fresh names).select selects).selected = names.filter selects := by
  have list : ((fresh names).select selects).list =
      names.map fun name => ⟨name,selects name⟩ := by
    refine List.map_map.trans (List.map_congr_left fun name _ => ?_)
    cases picked : selects name <;> simp [picked]
  rw [selected,list,List.filter_map,List.map_map]
  simp [Function.comp_def]

theorem chosen_eq (options : Options names) :
    options.chosen = (options.selected.map upper).getLast?.getD "" := by
  have loop (list : List Dummy) (before : String) :
      list.foldl (fun chosen element =>
          if element.isSelected then upper element.name else chosen) before =
        ((list.filter Dummy.isSelected).map fun element => upper element.name).getLast?.getD
          before := by
    induction list generalizing before with
    | nil => rfl
    | cons element rest ih =>
      rw [List.foldl_cons,ih]
      cases picked : element.isSelected <;> simp [picked,List.getLast?_cons]
  rw [chosen,loop,selected,List.map_map]
  rfl

theorem chosen_reselected (spelled : ∀ name ∈ names, upper name ≠ "") (options : Options names) :
    ((fresh names).select fun name => upper name = options.chosen).chosen = options.chosen := by
  have same := chosen_eq options
  rw [chosen_eq,selected_reselected]
  cases picked : options.selected.map upper with
  | nil =>
    rw [picked] at same
    have none : names.filter (fun name => upper name = options.chosen) = [] := by
      refine List.filter_eq_nil_iff.mpr fun name member spells => spelled name member ?_
      simpa [same] using spells
    rw [none,same]
    rfl
  | cons first rest =>
    have member : options.chosen ∈ options.selected.map upper := by
      rw [same,picked,List.getLast?_eq_some_getLast (by simp),Option.getD_some]
      exact List.getLast_mem _
    obtain ⟨name,inside,spells⟩ := List.mem_map.mp member
    have kept : name ∈ names.filter fun name => upper name = options.chosen :=
      List.mem_filter.mpr ⟨options.selected_sublist.subset inside,by simpa using spells⟩
    -- all of those kept spell it, the last one as well
    obtain ⟨last,found⟩ := Option.ne_none_iff_exists'.mp
      (mt List.getLast?_eq_none_iff.mp (List.ne_nil_of_mem (List.mem_map_of_mem kept)))
    obtain ⟨other,spelling,rfl⟩ := List.mem_map.mp (List.mem_of_getLast? found)
    rw [found,Option.getD_some]
    simpa using (List.mem_filter.mp spelling).2

theorem selected_again (distinct : names.Nodup) (options : Options names) :
    ((fresh names).select fun name => name ∈ options.selected).selected = options.selected := by
  rw [selected_reselected]
  exact filter_mem_of_sublist options.selected_sublist distinct

end Options

def genders : List String := ["FEMALE","MALE","NON-BINARY","OTHER"]

def modes : List String := ["DATING","FRIENDS","NETWORKING"]

def personalities : List String := ["Adventurous","Animal_lover","Artsy","Athletic","Bookworm",
  "Coffee_addict","Divorcee","DIY","Engaged","Entrepreneurial","Extravert","Film_fan","Foodie",
  "Gamer","Homebody","Hopeless_romantic","Introvert","Jetsetter","LGBTQI","Married","Messy",
  "Music_lover","Neat_and_tidy","Party_animal","Perfectionist","Performing_arts",
  "Sci_fi_enthusiast","Shopaholic","Single_parent_2","Student","veggie","Volunteer",
  "Witchy_vibes","Yogi"]

structure Screen where
  values : RangeValues := ⟨0,100⟩
  disValues : RangeValues := ⟨0,100⟩
  genderList : Options genders := .fresh genders
  modeList : Options modes := .fresh modes
  listImages : Options personalities := .fresh personalities
  con : HashTagController := {}
  deriving DecidableEq, Repr

def parseRange (start stop : String) : Option RangeValues := do
  let low ← parse start
  let high ← parse stop
  return ⟨low,high⟩

/-- `none` when a number cannot be parsed. -/
def initState (filterOld : Feed) : Option Screen :=
  if filterOld.minage = "" then some {} else do
    let values ← parseRange filterOld.minage filterOld.maxage
    let disValues ← parseRange filterOld.mindistance filterOld.maxdistance
    return {
      values := values
      disValues := disValues
      genderList := (Options.fresh genders).select fun name => upper name = filterOld.gender
      modeList := (Options.fresh modes).select fun name => upper name = filterOld.mode
      listImages := (Options.fresh personalities).select fun name =>
        name ∈ filterOld.persnalitylist}

def selectedIds (screen : Screen) : List String :=
  (screen.con.listHash.filter HashTag.isSelected).map HashTag.id

/-- The Apply button. -/
def apply (screen : Screen) : Feed where
  minage := toString (toInt screen.values.start)
  maxage := toString (toInt screen.values.stop)
  mindistance := toString (toInt screen.disValues.start)
  maxdistance := toString (toInt screen.disValues.stop)
  gender := screen.genderList.chosen
  mode := screen.modeList.chosen
  hashtag := join ',' (selectedIds screen)
  persnalitylist := screen.listImages.selected

section Opened
variable (toUpperCase : String → String) (textWidth : String → ℚ≥0)

/-- What the answer to `hasTagList`, if there has been one, does to the screen that was
opened with `filterOld`. -/
def delivered (filterOld : Feed) (screen : Screen) (response : Option Response) : Screen :=
  match response.bind hasTagList with
  | none => screen
  | some value =>
    let split := split ',' filterOld.hashtag
    {screen with con := screen.con.getHashTagList3 toUpperCase textWidth split value}

/-- Opened with the filter and left by Apply, the screen returns the filter. -/
def RoundTrips (filter : Feed) (response : Option Response) : Prop :=
  ∃ screen ∈ initState filter,
    apply (delivered toUpperCase textWidth filter screen response) = filter

/-- The tags the screen shows: none before they have been delivered. -/
def tags (response : Option Response) : List HashTag := (response.bind hasTagList).getD []

/-- The delivered tags that occur among the pieces of the hash tag field are exactly these
pieces, in their order; or the field is empty, and no tag has an empty id. -/
def Restorable (filter : Feed) (response : Option Response) : Prop :=
  let ids := (tags response).map HashTag.id
  ids.filter (· ∈ split ',' filter.hashtag) = split ',' filter.hashtag ∨
    filter.hashtag = "" ∧ "" ∉ ids

instance (filter : Feed) (response : Option Response) : Decidable (Restorable filter response) :=
  inferInstanceAs (Decidable (_ ∨ _))

/-- The screen that is opened with what Apply has made of another one. -/
def reopened (screen : Screen) : Screen where
  values := ⟨toInt screen.values.start,toInt screen.values.stop⟩
  disValues := ⟨toInt screen.disValues.start,toInt screen.disValues.stop⟩
  genderList := (Options.fresh genders).select fun name => upper name = screen.genderList.chosen
  modeList := (Options.fresh modes).select fun name => upper name = screen.modeList.chosen
  listImages := (Options.fresh personalities).select fun name =>
    name ∈ screen.listImages.selected

theorem initState_apply (screen : Screen) : initState (apply screen) = some (reopened screen) := by
  have filled : (apply screen).minage ≠ "" := by
    intro empty
    have parsed := parse_int (toInt screen.values.start)
    rw [show toString (toInt screen.values.start) = "" from empty] at parsed
    contradiction
  rw [initState,if_neg filled]
  simp only [apply,parseRange,parse_int]
  rfl

theorem reopened_options (screen : Screen) :
    (reopened screen).genderList.chosen = screen.genderList.chosen ∧
      (reopened screen).modeList.chosen = screen.modeList.chosen ∧
      (reopened screen).listImages.selected = screen.listImages.selected :=
  ⟨Options.chosen_reselected (by decide) _,Options.chosen_reselected (by decide) _,
    Options.selected_again (by decide) _⟩

theorem selectedIds_marked (ids : List String) {value : List HashTag}
    (unselected : ∀ element ∈ value, element.isSelected = false) :
    ((marked (fun element => element.id ∈ ids) value).filter HashTag.isSelected).map HashTag.id =
      (value.map HashTag.id).filter (· ∈ ids) := by
  have marks : marked (fun element => element.id ∈ ids) value =
      value.map fun element => {element with isSelected := decide (element.id ∈ ids)} := by
    refine List.map_congr_left fun element member => ?_
    have first := unselected element member
    by_cases picked : element.id ∈ ids
    · simp [picked]
    · simp [picked,← first]
  rw [marks,List.filter_map,List.map_map,List.filter_map]
  rfl

/-- The field Apply makes of the delivered tags, marked with those of the filter. -/
def restored (filter : Feed) (response : Option Response) : String :=
  join ',' (((tags response).map HashTag.id).filter (· ∈ split ',' filter.hashtag))

section Delivered
variable {toUpperCase : String → String} {textWidth : String → ℚ≥0}

theorem apply_delivered (filterOld : Feed) (screen : Screen) (response : Option Response)
    (empty : screen.con.listHash = []) :
    apply (delivered toUpperCase textWidth filterOld screen response) =
      {apply screen with hashtag := restored filterOld response} := by
  cases found : response.bind hasTagList with
  | none =>
    have tagless : tags response = [] := by rw [tags,found]; rfl
    rw [delivered,found,restored,tagless]
    simp only [apply,selectedIds,empty]
    rfl
  | some value =>
    obtain ⟨answer,_,read⟩ := Option.bind_eq_some_iff.mp found
    have listed : tags response = value := by rw [tags,found]; rfl
    rw [delivered,found,restored,listed,← selectedIds_marked _ (unselected_of_hasTagList read)]
    rfl

theorem apply_reopened (screen : Screen) :
    apply (reopened screen) = {apply screen with hashtag := ""} := by
  obtain ⟨gender,mode,personality⟩ := reopened_options screen
  unfold apply
  rw [gender,mode,personality]
  simp only [reopened,toInt_intCast]
  rfl

theorem roundTrips_iff (screen : Screen) (response : Option Response) :
    RoundTrips toUpperCase textWidth (apply screen) response ↔
      restored (apply screen) response = (apply screen).hashtag := by
  have again : apply (delivered toUpperCase textWidth (apply screen) (reopened screen) response) =
      {apply screen with hashtag := restored (apply screen) response} := by
    rw [apply_delivered _ _ _ rfl,apply_reopened]
  rw [RoundTrips,initState_apply]
  simp only [Option.mem_some_iff,exists_eq_left',again]
  constructor
  · exact congrArg Feed.hashtag
  · intro same
    rw [same]

/-- A filter survives being opened and applied again if and only if its tags are restored. -/
theorem filter_round_trip_iff (screen : Screen) (response : Option Response) :
    RoundTrips toUpperCase textWidth (apply screen) response ↔
      Restorable (apply screen) response :=
  (roundTrips_iff screen response).trans rejoined_iff

end Delivered

/-- Once the list has been delivered, tags with ids of their own and without commas are
restored. -/
theorem restorable_of_distinct {screen : Screen} {response : Option Response}
    (kept : (selectedIds screen).Sublist ((tags response).map HashTag.id))
    (distinct : ((tags response).map HashTag.id).Nodup)
    (free : ∀ id ∈ (tags response).map HashTag.id, ',' ∉ id.toList) :
    Restorable (apply screen) response := by
  unfold Restorable
  by_cases none : selectedIds screen = []
  · have empty : (apply screen).hashtag = "" := by rw [apply,none]; rfl
    rw [empty,split_empty]
    by_cases member : "" ∈ (tags response).map HashTag.id
    · exact .inl (filter_mem_of_sublist (List.singleton_sublist.mpr member) distinct)
    · exact .inr ⟨rfl,member⟩
  · have pieces : split ',' (apply screen).hashtag = selectedIds screen :=
      split_join (fun id member => free id (kept.subset member)) none
    rw [pieces]
    exact .inl (filter_mem_of_sublist kept distinct)

def chess : Screen := {con := {listHash := [⟨"3","Chess",true⟩]}}

def chessList : Response where
  statusCode := 200
  body := some (.map [("success",.bool true),
    ("data",.list [.map [("id",.int 3),("name",.string "Chess")]])])

/-- Apply is pressed before the tag list has been delivered. -/
theorem undelivered_tags_dropped : ¬ ∀ (toUpperCase : String → String) (textWidth : String → ℚ≥0)
    (screen : Screen) (response : Response),
    (selectedIds screen).Sublist ((tags (some response)).map HashTag.id) →
      ∀ moment ∈ [none,some response],
        RoundTrips toUpperCase textWidth (apply screen) moment := by
  intro claimed
  have listed : (selectedIds chess).Sublist ((tags (some chessList)).map HashTag.id) := by decide
  have tripped := claimed id (fun _ => 0) chess chessList listed none (by simp)
  rw [roundTrips_iff] at tripped
  revert tripped
  decide

end Opened

end Neuro.FeedsFilter
