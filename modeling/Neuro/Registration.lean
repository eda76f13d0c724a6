import Neuro.FeedsFilter
import Neuro.Lib.Walk
import Neuro.RegistrationPhotos
import Neuro.TagAdding

/-! The screens of a registration, which all write into the same `Register` and hand it on. The
last one gives it to `userRegister`. -/
namespace Neuro.Registration
open Neuro.Lib Separated FeedsFilter RegistrationPhotos
open TagAdding (HashTagController)

@[ext]
structure Register where
  name : String := ""
  email : String := ""
  password : String := ""
  deviceToken : String := ""
  dob : String := ""
  gender : String := ""
  followingApplies : String := ""
  mode : String := ""
  latitude : String := ""
  longitude : String := ""
  address : String := ""
  profile : Option File := none
  moreimages : List File := []
  about : String := ""
  type : String := ""
  socialId : String := ""
  personality : String := ""
  neurologicalstatus : String := ""
  deriving DecidableEq, Repr

structure Part where
  field : String
  file : File
  filename : String
  deriving DecidableEq, Repr

structure Request where
  fields : List (String × String)
  files : List Part
  deriving DecidableEq, Repr

def part (field : String) (file : File) : Part :=
  ⟨field,file,(split '/' file.path).getLast?.getD ""⟩

def typical (neurologicalstatus : String) : Bool :=
  upper neurologicalstatus = upper "Neurotypical"

/-- The request that `userRegister` sends for the data it encodes. -/
def userRegister (fcmToken : String) (data : Register) : Request where
  fields := [("latitude",data.latitude),("longitude",data.longitude),("address",data.address),
    ("name",data.name),("email",data.email),("password",data.password),("birthdate",data.dob),
    ("gender",data.gender)] ++
    (if typical data.neurologicalstatus then [] else
      [("following_applies",data.followingApplies)]) ++
    [("mode",data.mode),("about_me",data.about),("deviceToken",fcmToken),
      ("personality",data.personality),("neurologicalstatus",data.neurologicalstatus)] ++
    (if data.socialId = "" then [] else [("social_id",data.socialId)])
  files := (data.profile.map (part "profile_img")).toList ++ data.moreimages.map (part "files[]")

def statuses : List String := ["Neurotypical","Neurodivergent"]

inductive Page
  | aboutMeEmail
  | aboutMeName
  | aboutMeProfilePicture
  | aboutMeMorePhoto
  | aboutMeAge
  | aboutMeAbout
  | aboutMeYourIdentify
  | aboutMeYourIdentifySpecify
  | aboutMeChooseMode
  | aboutNeurologicalStatus
  | aboutMeNeurological
  | aboutMePersonality
  deriving DecidableEq, Repr

/-- What a screen has been left with by its Next button. -/
inductive Answer
  | email (text : String)
  | name (text : String)
  | profilePicture (image : File)
  | morePhoto (imageList : List File)
  | age (dob : String)
  | about (text : String)
  | yourIdentify (gender : String)
  | specify (gender : String)
  | chooseMode (mode : String)
  | status (chosen : String)
  | neurological (selectedlist : List String)
  deriving DecidableEq, Repr

def Answer.write (a : Answer) (register : Register) : Register := match a with
  | .email text => {register with email := text}
  | .name text => {register with name := text}
  | .profilePicture image => {register with profile := some image}
  | .morePhoto imageList => {register with moreimages := imageList}
  | .age dob => {register with dob := dob}
  | .about text => {register with about := text}
  | .yourIdentify gender => {register with gender := gender}
  | .specify gender => if gender = "" then register else {register with gender := gender}
  | .chooseMode mode => {register with mode := mode}
  | .status chosen => {register with neurologicalstatus := chosen}
  | .neurological selectedlist => {register with followingApplies := join ',' selectedlist}

/-- The page that is pushed next. The one for the mode is passed over on the way by OTHER. -/
def Answer.opens : Answer → Page
  | .email _ => .aboutMeName
  | .name _ => .aboutMeProfilePicture
  | .profilePicture _ => .aboutMeMorePhoto
  | .morePhoto _ => .aboutMeAge
  | .age _ => .aboutMeAbout
  | .about _ => .aboutMeYourIdentify
  | .yourIdentify gender =>
    if gender = "OTHER" then .aboutMeYourIdentifySpecify else .aboutMeChooseMode
  | .specify _ | .chooseMode _ => .aboutNeurologicalStatus
  | .status chosen => if typical chosen then .aboutMePersonality else .aboutMeNeurological
  | .neurological _ => .aboutMePersonality

/-- The screens, each with what its `State` holds. -/
inductive Screen
  | aboutMeEmail (emailCon : String) (isEditable : Bool)
  | aboutMeName (fullNameCon : String)
  | aboutMeProfilePicture (image : Option File)
  | aboutMeMorePhoto (photos : AboutMeMorePhoto)
  | aboutMeAge (dobCon : String)
  | aboutMeAbout (aboutCon : String)
  | aboutMeYourIdentify (genderList : Options genders)
  | aboutMeYourIdentifySpecify (aboutgenderCon : String)
  | aboutMeChooseMode (modeList : Options modes)
  | aboutNeurologicalStatus (modeList : Options statuses)
  | aboutMeNeurological (con : HashTagController)
  | aboutMePersonality (listImages : Options personalities)
  deriving DecidableEq, Repr

def Screen.page : Screen → Page
  | .aboutMeEmail .. => .aboutMeEmail
  | .aboutMeName _ => .aboutMeName
  | .aboutMeProfilePicture _ => .aboutMeProfilePicture
  | .aboutMeMorePhoto _ => .aboutMeMorePhoto
  | .aboutMeAge _ => .aboutMeAge
  | .aboutMeAbout _ => .aboutMeAbout
  | .aboutMeYourIdentify _ => .aboutMeYourIdentify
  | .aboutMeYourIdentifySpecify _ => .aboutMeYourIdentifySpecify
  | .aboutMeChooseMode _ => .aboutMeChooseMode
  | .aboutNeurologicalStatus _ => .aboutNeurologicalStatus
  | .aboutMeNeurological _ => .aboutMeNeurological
  | .aboutMePersonality _ => .aboutMePersonality

/-- `initState` reads the email and the name out of the register, and nothing else. -/
def Page.create (register : Register) : Page → Screen
  | .aboutMeEmail => .aboutMeEmail register.email (register.email ≠ "")
  | .aboutMeName => .aboutMeName register.name
  | .aboutMeProfilePicture => .aboutMeProfilePicture none
  | .aboutMeMorePhoto => .aboutMeMorePhoto {moreimages := register.moreimages}
  | .aboutMeAge => .aboutMeAge ""
  | .aboutMeAbout => .aboutMeAbout ""
  | .aboutMeYourIdentify => .aboutMeYourIdentify (.fresh genders)
  | .aboutMeYourIdentifySpecify => .aboutMeYourIdentifySpecify ""
  | .aboutMeChooseMode => .aboutMeChooseMode (.fresh modes)
  | .aboutNeurologicalStatus => .aboutNeurologicalStatus (.fresh statuses)
  | .aboutMeNeurological => .aboutMeNeurological {listHash := []}
  | .aboutMePersonality => .aboutMePersonality (.fresh personalities)

/-! Buttons of an option list. -/

def flipped (options : List Dummy) (i : Nat) (element : Dummy) : List Dummy :=
  options.set i {element with isSelected := !element.isSelected}

theorem flipped_named {names : List String} (options : Options names) {i : Nat} {element : Dummy}
    (found : options.list[i]? = some element) :
    (flipped options.list i element).map Dummy.name = names := by
  have same : (flipped options.list i element).map Dummy.name = options.list.map Dummy.name :=
    Pool.map_set Dummy.name found rfl
  rw [same,options.named]

def toggle {names : List String} (options : Options names) (i : Nat) : Option (Options names) :=
  match found : options.list[i]? with
  | none => none
  | some element => some ⟨flipped options.list i element,flipped_named options found⟩

/-- The options of another name are unselected as well. -/
def radio {names : List String} (options : Options names) (i : Nat) : Option (Options names) :=
  match found : options.list[i]? with
  | none => none
  | some pressed => some ⟨(flipped options.list i pressed).map fun element =>
      if element.name ≠ pressed.name then {element with isSelected := false} else element, by
    have kept (element : Dummy) : (if element.name ≠ pressed.name then
        {element with isSelected := false} else element : Dummy).name = element.name := by
      split <;> rfl
    rw [List.map_map]
    exact (List.map_congr_left fun element _ => kept element).trans (flipped_named options found)⟩

inductive Tap
  | toast (message : String)
  | threw
  | answered (a : Answer)
  | registers (personality : String)
  deriving DecidableEq, Repr

def given (text message : String) (answer : String → Answer) : Tap :=
  if text = "" then .toast message else .answered (answer text)

def pressed {names : List String} (options : Options names) (message : String)
    (answer : String → Answer) : Tap := match options.selected with
  | [] => .toast message
  | first :: _ => .answered (answer first)

/-- The Next button of a screen, and ADD of the one that specifies. -/
def Screen.onTap : Screen → Tap
  | .aboutMeEmail emailCon _ => given emailCon "Please enter email" .email
  | .aboutMeName fullNameCon => given fullNameCon "Please enter first name" .name
  | .aboutMeProfilePicture image => match image with
    | none => .toast "Please select profile picture"
    | some image => .answered (.profilePicture image)
  | .aboutMeMorePhoto photos =>
    if photos.imageList = [] then .threw else .answered (.morePhoto photos.imageList.dropLast)
  | .aboutMeAge dobCon => given dobCon "Please enter age" .age
  | .aboutMeAbout aboutCon => given aboutCon "Please tell us about your self" .about
  | .aboutMeYourIdentify genderList => pressed genderList "Please select gender" .yourIdentify
  | .aboutMeYourIdentifySpecify aboutgenderCon => .answered (.specify aboutgenderCon)
  | .aboutMeChooseMode modeList => pressed modeList "Please select mode" .chooseMode
  | .aboutNeurologicalStatus modeList => pressed modeList "Please select status" .status
  | .aboutMeNeurological con =>
    let selectedlist := (con.listHash.filter fun element => element.isSelected).map fun element =>
      element.id
    if selectedlist = [] then .toast "Please select tags" else
      .answered (.neurological selectedlist)
  | .aboutMePersonality listImages =>
    if listImages.selected = [] then .toast "Please select personality" else
      .registers (join ',' listImages.selected)

/-- A screen as it is left: the photos have lost their last tile. -/
def Screen.left : Screen → Screen
  | .aboutMeMorePhoto photos => .aboutMeMorePhoto photos.next
  | screen => screen

/-- What is done on a screen beside its Next button. -/
inductive Edit
  | typed (text : String)
  | confirmed (date : Stamp)
  | picked (image : File)
  | photos (a : RegistrationPhotos.Action)
  | pressed (i : Nat)
  | tags (a : TagAdding.Action)

/-- What may still come back when the screen has been covered by another one. -/
def Edit.awaited : Edit → Bool
  | .picked _ => true
  | .photos a => match a with
    | .picked _ | .written .. => true
    | .loadAssets | .next => false
  | .tags a => match a with
    | .connected .. | .responded .. | .failed _ | .hidden => true
    | .typed _ | .add => false
  | .typed _ | .confirmed _ | .pressed _ => false

def dayFirst (date : Stamp) : String :=
  pad 2 date.day ++ "-" ++ pad 2 date.month ++ "-" ++ pad 4 date.year

def pressedTag (con : HashTagController) (i : Nat) : Option HashTagController :=
  con.listHash[i]?.map fun element =>
    {con with listHash := con.listHash.set i {element with isSelected := !element.isSelected}}

section Tags
variable (toUpperCase : String → String) (tempPath : String) (asserts assigned : Bool)

/-- `addHashtag` reads the late `loader` of its controller first, and throws if that has not been
assigned: the constructor does not assign it. -/
def tagStep (con : HashTagController) (a : TagAdding.Action) : Option HashTagController :=
  (con.step toUpperCase asserts a).map fun next =>
    if assigned then next else {next with loader := con.loader, calls := con.calls}

def Screen.edit (screen : Screen) (e : Edit) : Option Screen := match screen,e with
  | .aboutMeEmail _ isEditable,.typed text =>
    if isEditable then none else some (.aboutMeEmail text false)
  | .aboutMeName _,.typed text => some (.aboutMeName text)
  | .aboutMeProfilePicture _,.picked image => some (.aboutMeProfilePicture (some image))
  | .aboutMeMorePhoto photos,.photos a =>
    if a = .next then none else (photos.step tempPath a).map .aboutMeMorePhoto
  | .aboutMeAge _,.confirmed date => some (.aboutMeAge (dayFirst date))
  | .aboutMeAbout _,.typed text => some (.aboutMeAbout text)
  | .aboutMeYourIdentify genderList,.pressed i => (radio genderList i).map .aboutMeYourIdentify
  | .aboutMeYourIdentifySpecify _,.typed text => some (.aboutMeYourIdentifySpecify text)
  | .aboutMeChooseMode modeList,.pressed i => (radio modeList i).map .aboutMeChooseMode
  | .aboutNeurologicalStatus modeList,.pressed i =>
    (radio modeList i).map .aboutNeurologicalStatus
  | .aboutMeNeurological con,.pressed i => (pressedTag con i).map .aboutMeNeurological
  | .aboutMeNeurological con,.tags a =>
    (tagStep toUpperCase asserts assigned con a).map .aboutMeNeurological
  | .aboutMePersonality listImages,.pressed i => (toggle listImages i).map .aboutMePersonality
  | _,_ => none

/-- What the controller's `userRegister` is called with. The answers are histories: `path` are those
by which the screens below the last one were left, `log` all that were ever given, the latest
first. -/
structure Handed where
  register : Register
  path : List Answer
  log : List Answer
  deriving DecidableEq, Repr

/-- `route` are the screens that are pushed, the topmost first; `posted` of what was handed over
are those for which the controller went on to the `userRegister` of the repository. -/
structure State where
  register : Register
  route : List Screen
  path : List Answer := []
  log : List Answer := []
  handed : List Handed := []
  posted : List Handed := []
  deriving DecidableEq, Repr

inductive Action
  | edit (depth : Nat) (e : Edit)
  | next
  | back
  | located (latitude longitude address : String)

namespace State
variable (s : State)

def opened (register : Register) (page : Page) : State where
  register := register
  route := [page.create register]

def answered (top : Screen) (below : List Screen) (a : Answer) : State :=
  let register := a.write s.register
  {s with
    register := register
    route := a.opens.create register :: top.left :: below
    path := a :: s.path
    log := a :: s.log}

/-- `userRegister` throws as well before it calls anything if the `loader` is not assigned. -/
def registers (personality : String) : State :=
  let register := {s.register with personality := personality}
  let handed := ⟨register,s.path,s.log⟩
  {s with
    register := register
    handed := s.handed ++ [handed]
    posted := if assigned then s.posted ++ [handed] else s.posted}

def next : State := match s.route with
  | [] => s
  | top :: below => match top.onTap with
    | .toast _ | .threw => s
    | .answered a => s.answered top below a
    | .registers personality => s.registers assigned personality

def step (s : State) : Action → Option State
  | .edit depth e => if depth = 0 ∨ e.awaited then
      s.route[depth]?.bind fun screen =>
        (screen.edit toUpperCase tempPath asserts assigned e).map fun edited =>
          {s with route := s.route.set depth edited}
    else none
  | .next => if s.route = [] then none else some (s.next assigned)
  | .back => if s.route = [] then none else
      some {s with route := s.route.tail, path := s.path.tail}
  | .located latitude longitude address => some {s with register := {s.register with
      latitude := latitude
      longitude := longitude
      address := address}}

end State
end Tags

end Neuro.Registration
