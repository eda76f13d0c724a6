import Mathlib.Data.List.Pairwise
import Neuro.Lib.Casing
import Neuro.Lib.Separated
import Neuro.ProfileUpdate
import Neuro.Repository

/-! The tags selected on the neurological-status screen. They are sent as ids and leave the
screen as names; a screen that is opened with these names looks for each tag's name in either
case and as it is. -/
namespace Neuro.TagSelection
open Neuro.Lib Repository TagWidth
open ProfileUpdate (EditProfile Request statusSaved)
open SignIn (Response)

section Open
variable (casing : Casing)

def follows (followingApplies : List String) (elementMain : HashTag) : Bool :=
  followingApplies.contains (casing.toUpperCase elementMain.name) ||
    followingApplies.contains (casing.toLowerCase elementMain.name) ||
      followingApplies.contains elementMain.name

/-- What is listed of the tags that are delivered. -/
def getHashTagList (followingApplies : Option (List String)) (value : List HashTag) :
    List HashTag :=
  match followingApplies with
  | some names => if names.length > 0 then marked (follows casing names) value else value
  | none => value

end Open

def returnData (listHash : List HashTag) : List String :=
  (listHash.filter HashTag.isSelected).map HashTag.name

def selectedlistids (listHash : List HashTag) : List String :=
  (listHash.filter HashTag.isSelected).map HashTag.id

def save (listHash : List HashTag) : Request :=
  let sendData : EditProfile := {followingApplies := Separated.join ',' (selectedlistids listHash)}
  sendData.editNeuroStatushashtag

/-- The names the screen is left with, when the server reports success. -/
def editHashtags (listHash : List HashTag) (response : Response) : Option (List String) :=
  (statusSaved response).bind fun value =>
    if value.isDone then some (returnData listHash) else none

def entry (element : HashTag) : String × String := (element.id,element.name)

/-- The same tags are selected, and their ids are sent. -/
structure Restored (before after : List HashTag) : Prop where
  list : after.Perm before
  sent : ∃ ids : List String, ids.Perm (selectedlistids before) ∧
    (save after).field "following_applies" = some (Separated.join ',' ids)

variable {casing : Casing} {listHash value : List HashTag} {names : List String}

theorem getHashTagList_eq : getHashTagList casing (some names) value =
    marked (follows casing names) value := by
  rw [getHashTagList]
  split
  · rfl
  next none =>
    obtain rfl : names = [] := List.length_eq_zero_iff.mp (by omega)
    simp [marked,follows]

theorem follows_iff {element : HashTag} :
    follows casing names element = true ↔ ∃ name ∈ names, casing.Written element.name name := by
  simp only [follows,Bool.or_eq_true,List.contains_iff_mem,Casing.Written]
  constructor
  · rintro ((upper | lower) | same)
    · exact ⟨_,upper,.inl rfl⟩
    · exact ⟨_,lower,.inr (.inl rfl)⟩
    · exact ⟨_,same,.inr (.inr rfl)⟩
  · rintro ⟨_,member,rfl | rfl | rfl⟩
    · exact .inl (.inl member)
    · exact .inl (.inr member)
    · exact .inr member

/-- A name is found for the tags that are selected and for no others. -/
theorem follows_returnData (differ : listHash.Pairwise fun a b => casing.Differ a.name b.name)
    {element : HashTag} (listed : element ∈ listHash) :
    follows casing (returnData listHash) element = element.isSelected := by
  have : Std.Symm fun a b : HashTag => casing.Differ a.name b.name :=
    ⟨fun _ _ differ => differ.symm⟩
  rw [Bool.eq_iff_iff,follows_iff]
  constructor
  · rintro ⟨_,taken,written⟩
    obtain ⟨other,member,rfl⟩ := List.mem_map.mp taken
    obtain ⟨inside,selected⟩ := List.mem_filter.mp member
    by_cases same : element = other
    · exact same ▸ selected
    · have apart := differ.forall listed inside same
      exact absurd written apart.not_written
  · intro selected
    exact ⟨element.name,List.mem_map_of_mem (List.mem_filter.mpr ⟨listed,selected⟩),.inr (.inr rfl)⟩

theorem marked_unselected : marked (follows casing names) (listHash.map fun element =>
    {element with isSelected := false}) =
      listHash.map fun element => {element with isSelected := follows casing names element} := by
  rw [marked,List.map_map]
  refine List.map_congr_left fun element _ => ?_
  have same : follows casing names {element with isSelected := false} =
      follows casing names element := rfl
  simp only [Function.comp_apply,same]
  cases follows casing names element <;> rfl

theorem restored (differ : listHash.Pairwise fun a b => casing.Differ a.name b.name) :
    marked (follows casing (returnData listHash)) (listHash.map fun element =>
      {element with isSelected := false}) = listHash := by
  rw [marked_unselected]
  refine (List.map_congr_left fun element listed => ?_).trans listHash.map_id
  rw [follows_returnData differ listed]
  rfl

theorem perm_unselected {response : Response} (delivered : hasTagList response = some value)
    (same : (value.map entry).Perm (listHash.map entry)) :
    value.Perm (listHash.map fun element => {element with isSelected := false}) := by
  have unselected := unselected_of_hasTagList delivered
  have back := same.map fun (id,name) => (⟨id,name,false⟩ : HashTag)
  rw [List.map_map,List.map_map] at back
  have value_eq : value.map ((fun (id,name) => (⟨id,name,false⟩ : HashTag)) ∘ entry) = value := by
    refine (List.map_congr_left fun element member => ?_).trans value.map_id
    rw [Function.comp_apply,entry,← unselected element member]
    rfl
  rwa [value_eq] at back

/-- Saving a selection and opening the screen again with the names it has been left with selects
the same tags, and saving again sends the same ids, in whichever order the server lists the
tags. -/
theorem selection_restored (casing : Casing) {listHash value : List HashTag}
    {response tags : Response} {names : List String}
    (differ : listHash.Pairwise fun a b => casing.Differ a.name b.name)
    (saved : editHashtags listHash response = some names)
    (delivered : hasTagList tags = some value)
    (same : (value.map entry).Perm (listHash.map entry)) :
    Restored listHash (getHashTagList casing (some names) value) := by
  obtain rfl : returnData listHash = names := by
    obtain ⟨_,_,popped⟩ := Option.bind_eq_some_iff.mp saved
    split at popped
    · exact Option.some.inj popped
    · contradiction
  have list : (getHashTagList casing (some (returnData listHash)) value).Perm listHash := by
    rw [getHashTagList_eq]
    exact ((perm_unselected delivered same).map _).trans (.of_eq (restored differ))
  exact ⟨list,_,(list.filter _).map _,rfl⟩

def tags : List HashTag := [⟨"1","Chess",false⟩,⟨"2","Tea",true⟩,⟨"3","TEAM",false⟩]

def delivered : Response :=
  ⟨200,some (.map [("success",.bool true),("data",.list [
    .map [("id",.int 3),("name",.string "TEAM")],.map [("id",.int 1),("name",.string "Chess")],
    .map [("id",.int 2),("name",.string "Tea")]])])⟩

theorem selection_restored_tea : ∃ value, hasTagList delivered = some value ∧
    Restored tags (getHashTagList .ascii (some ["Tea"]) value) := by
  have differ : tags.Pairwise fun a b => Casing.ascii.Differ a.name b.name := by decide
  have saved : editHashtags tags
      ⟨200,some (.map [("success",.bool true),("message",.string "Saved")])⟩ = some ["Tea"] := by
    decide
  have read : hasTagList delivered =
      some [⟨"3","TEAM",false⟩,⟨"1","Chess",false⟩,⟨"2","Tea",false⟩] := by decide
  exact ⟨_,read,selection_restored .ascii differ saved read (by decide)⟩

end Neuro.TagSelection
