import Neuro.EditImages
import Neuro.SignIn

/-! The three calls of `update_profile`. They share the `EditProfile` model, whose texts are
empty unless the screen sets them. -/
namespace Neuro.ProfileUpdate
open Neuro.Lib
open RegistrationPhotos (File)
open SignIn (Prefs Response)

structure EditProfile where
  name : String := ""
  email : String := ""
  age : String := ""
  aboutMe : String := ""
  gender : String := ""
  mode : String := ""
  followingApplies : String := ""
  oldImage : String := ""
  personality : String := ""
  profileImge : Option File := none
  neurologicalstatus : String := ""
  moreNewImage : List File := []
  error : String := ""
  isDone : Bool := false
  deriving DecidableEq, Repr

structure Profile where
  name : String := ""
  email : String := ""
  aboutMe : String := ""
  birthdate : String := ""
  gender : String := ""
  mode : String := ""
  personality : List String := []
  neurologicalstatus : String := ""
  deriving DecidableEq, Repr

structure Screen where
  profile : Profile
  fullName : String
  age : String
  email : String
  about : String
  listPersonality : List String
  image : Option File := none
  images : EditImages.EditScreen
  deriving DecidableEq, Repr

def initState (profile : Profile) (moreImage : List String) : Screen where
  profile := profile
  fullName := profile.name
  age := profile.birthdate
  email := profile.email
  about := profile.aboutMe
  listPersonality := profile.personality
  images := .start moreImage

namespace Screen
variable (s : Screen)

/-- An empty personality list is only remarked on. -/
def save : Except String EditProfile :=
  if s.fullName = "" then .error "Please enter name"
  else if s.age = "" then .error "Please enter age"
  else if s.email = "" then .error "Please enter email address"
  else if s.about = "" then .error "Please tell us about your self"
  else .ok {
    name := s.fullName
    age := s.age
    email := s.email
    aboutMe := s.about
    gender := s.profile.gender
    oldImage := s.images.sendData.2
    personality := ",".intercalate s.listPersonality
    profileImge := s.image
    moreNewImage := s.images.sendData.1}

def Complete : Prop := s.fullName ≠ "" ∧ s.age ≠ "" ∧ s.email ≠ "" ∧ s.about ≠ ""

instance : Decidable s.Complete := inferInstanceAs (Decidable (_ ∧ _ ∧ _ ∧ _))

end Screen

abbrev Fields := List (String × String)

structure Request where
  fields : Fields
  files : List (String × File) := []
  deriving DecidableEq, Repr

def Request.field (request : Request) (key : String) : Option String :=
  (request.fields.find? fun entry => entry.1 = key).map Prod.snd

namespace EditProfile
variable (data : EditProfile)

def editProfile : Request where
  fields := [("name",data.name),("email",data.email),("gender",data.gender),("mode",data.mode),
    ("neurologicalstatus",data.neurologicalstatus),("about_me",data.aboutMe),
    ("old_image",data.oldImage),("personality",data.personality)]
  files := data.profileImge.toList.map (("profile_img",·)) ++ data.moreNewImage.map (("files[]",·))

def editNeuroStatushashtag : Request where
  fields := [("following_applies",data.followingApplies),("neurologicalstatus","Neurodivergent")]

def editNeuroStatus : Request where
  fields := [("neurologicalstatus",data.neurologicalstatus)]

end EditProfile

/-- `none` when the body does not decode or `success` is no truth value. -/
def success (response : Response) : Option Bool :=
  response.body.bind fun res => (res.index "success").bind Json.asBool

def returnData (response : Response) (isDone : Bool) : Option EditProfile :=
  (response.body.bind fun res => (res.index "message").bind Json.asString).map fun error =>
    {error := error, isDone := isDone}

/-- The preferences a full save leaves, and what it returns; `none` is an exception. -/
def saved (data : EditProfile) (response : Response) (pref : Prefs) : Prefs × Option EditProfile :=
  match success response with
  | none => (pref,none)
  | some true => (pref.set .mode (.string data.mode),returnData response true)
  | some false => (pref,returnData response false)

def statusSaved (response : Response) : Option EditProfile :=
  (success response).bind (returnData response)

/-- The fields the two status calls are about. -/
def hashtagFields : List String := ["following_applies","neurologicalstatus"]
def statusFields : List String := ["neurologicalstatus"]

/-- A save leaves mode and status as they are, at the server and in the preferences, and the
status calls send nothing but their own fields. -/
structure KeepsRest (s : Screen) : Prop where
  mode : ∀ data, s.save = .ok data → ∀ value ∈ data.editProfile.field "mode", value = s.profile.mode
  status : ∀ data, s.save = .ok data →
    ∀ value ∈ data.editProfile.field "neurologicalstatus", value = s.profile.neurologicalstatus
  preference : ∀ data, s.save = .ok data → ∀ response pref, success response = some true →
    (saved data response pref).1 .mode = some (.string s.profile.mode)
  hashtag : ∀ data : EditProfile, ∀ entry ∈ data.editNeuroStatushashtag.fields,
    entry.1 ∈ hashtagFields
  neuroStatus : ∀ data : EditProfile, ∀ entry ∈ data.editNeuroStatus.fields, entry.1 ∈ statusFields

theorem save_eq {s : Screen} {data : EditProfile} (ok : s.save = .ok data) :
    s.Complete ∧ data.mode = "" ∧ data.neurologicalstatus = "" := by
  unfold Screen.save at ok
  split at ok
  · contradiction
  next name =>
    split at ok
    · contradiction
    next age =>
      split at ok
      · contradiction
      next email =>
        split at ok
        · contradiction
        next about =>
          cases ok
          exact ⟨⟨name,age,email,about⟩,rfl,rfl⟩

theorem exists_save {s : Screen} (complete : s.Complete) : ∃ data, s.save = .ok data := by
  obtain ⟨name,age,email,about⟩ := complete
  simp [Screen.save,name,age,email,about]

theorem field_mode (data : EditProfile) : data.editProfile.field "mode" = some data.mode := by
  simp [EditProfile.editProfile,Request.field]

theorem field_status (data : EditProfile) :
    data.editProfile.field "neurologicalstatus" = some data.neurologicalstatus := by
  simp [EditProfile.editProfile,Request.field]

theorem saved_mode (data : EditProfile) {response : Response} (pref : Prefs)
    (done : success response = some true) :
    (saved data response pref).1 .mode = some (.string data.mode) := by
  simp [saved,done]

/-- A save keeps mode and status exactly when it is refused or both are empty. -/
theorem save_keeps_rest_iff (s : Screen) :
    KeepsRest s ↔ ¬ s.Complete ∨ s.profile.mode = "" ∧ s.profile.neurologicalstatus = "" := by
  constructor
  · intro keeps
    by_cases complete : s.Complete
    · obtain ⟨data,ok⟩ := exists_save complete
      obtain ⟨_,mode,status⟩ := save_eq ok
      have sameMode := keeps.mode data ok data.mode (field_mode data)
      have sameStatus := keeps.status data ok data.neurologicalstatus (field_status data)
      exact .inr ⟨sameMode.symm.trans mode,sameStatus.symm.trans status⟩
    · exact .inl complete
  · intro condition
    have empty (data : EditProfile) (ok : s.save = .ok data) :
        data.mode = s.profile.mode ∧ data.neurologicalstatus = s.profile.neurologicalstatus := by
      obtain ⟨complete,mode,status⟩ := save_eq ok
      obtain ⟨noMode,noStatus⟩ := condition.resolve_left (not_not_intro complete)
      exact ⟨mode.trans noMode.symm,status.trans noStatus.symm⟩
    constructor
    · intro data ok value sent
      rw [field_mode] at sent
      exact (Option.some.inj sent).symm.trans (empty data ok).1
    · intro data ok value sent
      rw [field_status] at sent
      exact (Option.some.inj sent).symm.trans (empty data ok).2
    · intro data ok response pref done
      rw [saved_mode data pref done,(empty data ok).1]
    · simp [EditProfile.editNeuroStatushashtag,hashtagFields]
    · simp [EditProfile.editNeuroStatus,statusFields]

def anna : Profile where
  name := "Anna"
  email := "anna@example.org"
  aboutMe := "hi"
  birthdate := "1990-01-01"
  gender := "FEMALE"
  mode := "DATING"
  neurologicalstatus := "Neurotypical"

/-- A save without any edit sends an empty mode and an empty status. -/
theorem save_empties_mode : ¬ ∀ s : Screen, KeepsRest s := by
  intro claimed
  have computed : ∃ data, (initState anna []).save = .ok data := exists_save (by decide)
  obtain ⟨data,ok⟩ := computed
  have kept := (claimed (initState anna [])).mode data ok data.mode (field_mode data)
  rw [(save_eq ok).2.1] at kept
  exact absurd kept (by decide)

end Neuro.ProfileUpdate
