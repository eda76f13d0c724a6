import Mathlib.Data.List.Nodup
import Neuro.RequestRows

/-! The pictures of a profile and the gallery that shows them page by page. A tapped picture is
looked for by its url among all pictures, of which the first with that url is taken. -/
namespace Neuro.ProfileGallery
open Neuro.Lib
open RequestRows (member)

structure DemoSourceEntity where
  id : Nat
  type : String
  url : String
  previewUrl : Option String := none
  deriving DecidableEq, Repr

/-- What `Profile.fromJSON` reads; `moreImage` holds texts only, as `sourceList` takes no other
urls. -/
structure Profile where
  id : String
  name : String
  email : String
  profileImg : String
  aboutMe : String
  moreImage : List String
  birthdate : String
  gender : String
  followingApplies : List Json
  notification : String
  mode : String
  address : String
  isPrime : Bool
  isVerified : Bool
  personality : List Json
  neurologicalstatus : String
  sourceList : List DemoSourceEntity

/-- A list that may be missing or empty text; anything else that is no list throws. -/
def listed : Json → Option (List Json)
  | .null => some []
  | .string value => if value = "" then some [] else none
  | .list items => some items
  | .bool _ | .int _ | .double _ | .map _ => none

def addSources (urls : List String) : Nat × List DemoSourceEntity :=
  urls.foldl (fun (sourceIndex,sourceList) url =>
    (sourceIndex + 1,sourceList ++ [{id := sourceIndex, type := "image", url := url}])) (0,[])

/-- `none` when anything throws, after which the profile keeps what has been read by then. -/
def Profile.fromJSON (jsonMap : Json) : Option Profile := do
  let moreImage ← (← listed (member jsonMap "image")).mapM Json.asString
  let followingApplies ← listed (member jsonMap "following_applies")
  let isPrime ← (member jsonMap "isPrime").asBool
  let isVerified ← (member jsonMap "isVerified").asBool
  let profileImg := (member jsonMap "profile_img").text
  return {
    id := (member jsonMap "id").text
    name := (member jsonMap "name").text
    email := (member jsonMap "email").text
    profileImg := profileImg
    aboutMe := (member jsonMap "about_me").text
    moreImage := moreImage
    birthdate := if (member jsonMap "birthdate").isNull then "0" else (member jsonMap "birthdate").text
    gender := (member jsonMap "gender").text
    followingApplies := followingApplies
    notification := (member jsonMap "notification").text
    mode := (member jsonMap "mode").text
    address := if (member jsonMap "address").isNull then "" else (member jsonMap "address").text
    isPrime := isPrime
    isVerified := isVerified
    personality := match member jsonMap "personality" with
      | .list items => items
      | .null | .bool _ | .int _ | .double _ | .string _ | .map _ => []
    neurologicalstatus := (member jsonMap "neurologicalstatus").text
    sourceList := (addSources (profileImg :: moreImage)).2}

/-- `firstWhere`, which throws when there is none, and then the position of the object found;
two entries of one list differ in their ids. -/
def indexView (data : Profile) (url : String) : Option Nat :=
  (data.sourceList.find? fun element => element.url = url).map fun indexData =>
    data.sourceList.idxOf indexData

/-- The page a tap opens, on the screen with the details of a feed and on the own profile. -/
def onTapPhoto (data : Profile) : Option Nat := indexView data data.profileImg

def onTapThumbnail (data : Profile) (index : Nat) : Option Nat :=
  data.moreImage[index]?.bind (indexView data)

/-- One entry per picture in order, and each picture opens its own page. -/
structure Indexed (data : Profile) : Prop where
  ids : data.sourceList.map DemoSourceEntity.id = List.range (data.moreImage.length + 1)
  urls : data.sourceList.map DemoSourceEntity.url = data.profileImg :: data.moreImage
  photo : onTapPhoto data = some 0
  thumbnail : ∀ i < data.moreImage.length, onTapThumbnail data i = some (i + 1)

variable {data : Profile} {urls : List String} {jsonMap : Json} {i : Nat}

def entries (urls : List String) : List DemoSourceEntity :=
  urls.mapIdx fun index url => {id := index, type := "image", url := url}

theorem addSources_eq : addSources urls = (urls.length,entries urls) := by
  have loop (before : List DemoSourceEntity) (count : Nat) :
      urls.foldl (fun (sourceIndex,sourceList) url =>
        (sourceIndex + 1,sourceList ++ [{id := sourceIndex, type := "image", url := url}]))
          (count,before) =
        (count + urls.length,before ++ urls.mapIdx fun index url =>
          ({id := count + index, type := "image", url := url} : DemoSourceEntity)) := by
    induction urls generalizing before count with
    | nil => simp
    | cons url rest ih =>
      rw [List.foldl_cons,ih]
      simp [List.mapIdx_cons,Nat.add_assoc,Nat.add_comm 1]
  simpa [addSources,entries] using loop [] 0

theorem sourceList_eq (decoded : Profile.fromJSON jsonMap = some data) :
    data.sourceList = entries (data.profileImg :: data.moreImage) := by
  simp only [Profile.fromJSON,Option.bind_eq_bind,Option.bind_eq_some_iff,Option.pure_def,
    Option.some.injEq] at decoded
  obtain ⟨_,_,_,_,_,_,_,_,_,_,rfl⟩ := decoded
  rw [addSources_eq]

theorem ids_entries : (entries urls).map DemoSourceEntity.id = List.range urls.length := by
  apply List.ext_getElem <;> simp [entries]

theorem urls_entries : (entries urls).map DemoSourceEntity.url = urls := by
  apply List.ext_getElem <;> simp [entries]

theorem nodup_entries : (entries urls).Nodup :=
  .of_map DemoSourceEntity.id (ids_entries ▸ List.nodup_range)

theorem indexView_eq (sources : data.sourceList = entries urls) {url : String}
    (listed : url ∈ urls) : indexView data url = some (urls.idxOf url) := by
  have bound : urls.idxOf url < (entries urls).length := by
    simpa [entries] using List.idxOf_lt_length_of_mem listed
  have found : (entries urls).find? (fun element => element.url = url) =
      some ((entries urls)[urls.idxOf url]) := by
    rw [List.find?_eq_some_iff_getElem]
    refine ⟨by simp [entries],_,bound,rfl,fun j before => ?_⟩
    simpa [entries] using List.not_of_lt_findIdx before
  rw [indexView,sources,found,Option.map_some,nodup_entries.idxOf_getElem]

theorem nodup_iff_idxOf : urls.Nodup ↔ ∀ i (bound : i < urls.length), urls.idxOf urls[i] = i := by
  refine ⟨fun distinct i bound => distinct.idxOf_getElem i bound,fun own => ?_⟩
  rw [List.nodup_iff_injective_getElem]
  intro i j same
  apply Fin.ext
  calc i.val = urls.idxOf urls[i] := (own i i.isLt).symm
    _ = urls.idxOf urls[j] := congrArg (fun url => urls.idxOf url) same
    _ = j.val := own j j.isLt

theorem onTapPhoto_eq (decoded : Profile.fromJSON jsonMap = some data) :
    onTapPhoto data = some 0 := by
  rw [onTapPhoto,indexView_eq (sourceList_eq decoded) List.mem_cons_self,List.idxOf_cons_self]

theorem onTapThumbnail_eq (decoded : Profile.fromJSON jsonMap = some data)
    (bound : i < data.moreImage.length) : onTapThumbnail data i =
      some ((data.profileImg :: data.moreImage).idxOf data.moreImage[i]) := by
  have listed : data.moreImage[i] ∈ data.profileImg :: data.moreImage :=
    List.mem_cons_of_mem _ (List.getElem_mem bound)
  rw [onTapThumbnail,List.getElem?_eq_getElem bound,Option.bind_some,
    indexView_eq (sourceList_eq decoded) listed]

/-- Each picture opens its own page if and only if no two pictures have one url. -/
theorem indexed_iff (decoded : Profile.fromJSON jsonMap = some data) :
    Indexed data ↔ (data.profileImg :: data.moreImage).Nodup := by
  rw [nodup_iff_idxOf]
  constructor
  · intro indexed i bound
    cases i with
    | zero => exact List.idxOf_cons_self
    | succ i =>
      have bound := Nat.lt_of_succ_lt_succ bound
      exact Option.some.inj ((onTapThumbnail_eq decoded bound).symm.trans (indexed.thumbnail i bound))
  · intro own
    constructor
    · rw [sourceList_eq decoded,ids_entries,List.length_cons]
    · rw [sourceList_eq decoded,urls_entries]
    · exact onTapPhoto_eq decoded
    · intro i bound
      rw [onTapThumbnail_eq decoded bound]
      exact congrArg some (own (i + 1) (Nat.succ_lt_succ bound))

def response (image : List Json) : Json :=
  .map [("profile_img",.string "a.png"),("image",.list image),("isPrime",.bool true),
    ("isVerified",.bool false)]

theorem indexed_two : ∃ data, Profile.fromJSON (response [.string "b.png",.string "c.png"]) =
    some data ∧ Indexed data ∧ onTapThumbnail data 1 = some 2 := by
  have decoded : ∃ data, Profile.fromJSON (response [.string "b.png",.string "c.png"]) =
      some data ∧ data.profileImg = "a.png" ∧ data.moreImage = ["b.png","c.png"] :=
    ⟨_,rfl,rfl,rfl⟩
  obtain ⟨data,decoded,photo,more⟩ := decoded
  have indexed := (indexed_iff decoded).mpr (by rw [photo,more]; decide)
  exact ⟨data,decoded,indexed,indexed.thumbnail 1 (by rw [more]; decide)⟩

/-- The second of two equal pictures opens the page of the first. -/
theorem repeated_picture_page : ¬ ∀ jsonMap data, Profile.fromJSON jsonMap = some data →
    Indexed data := by
  intro claimed
  have decoded : ∃ data, Profile.fromJSON (response [.string "b.png",.string "b.png"]) =
      some data ∧ data.moreImage.length = 2 ∧ onTapThumbnail data 1 = some 1 :=
    ⟨_,rfl,rfl,by decide +kernel⟩
  obtain ⟨data,decoded,two,first⟩ := decoded
  have own := (claimed _ data decoded).thumbnail 1 (two ▸ Nat.one_lt_two)
  exact absurd (first.symm.trans own) (by decide)

end Neuro.ProfileGallery
