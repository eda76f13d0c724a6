import Neuro.FeedSwipe
import Neuro.RequestRows
import Neuro.SignIn
import Neuro.TagWidth

/-! What three repository functions return for a response: a status other than 200 and a
reported failure give the value `returnData` starts with, anything malformed throws. -/
namespace Neuro.Repository
open Neuro.Lib SignIn
open FeedSwipe (Feed)
open RequestRows (converted member)
open TagWidth (HashTag)

/-- `none` is an exception. -/
def answered {R : Type} (response : Response) (read : Json → Option R) (returnData : R) :
    Option R :=
  if response.statusCode = 200 then response.body.bind fun res =>
    ((res.index "success").bind Json.asBool).bind fun success =>
      if success then read res else some returnData
  else some returnData

/-- The server has answered, and reports success. -/
def succeeded (response : Response) : Bool :=
  decide (response.statusCode = 200) &&
    decide ((response.body.bind fun res => (res.index "success").bind Json.asBool) = some true)

def data (res : Json) (key : String) : Option Json :=
  (res.index "data").bind fun data => data.index key

def isNext (res : Json) : Option Bool := (data res "isNext").bind Json.asBool

def items {R : Type} (fromJSON : Json → R) : Json → Option (List R)
  | .list items => converted fromJSON items
  | .null | .bool _ | .int _ | .double _ | .string _ | .map _ => none

def feedSwipe (response : Response) : Option Bool := answered response isNext false

def Feed.fromJSON (jsonMap : Json) : Feed := {id := (member jsonMap "id").text}

/-- The cards and `isNext`. -/
def getFeeds (response : Response) : Option (List Feed × Bool) :=
  answered response (fun res => do
    let listFeeds ← (data res "feeds").bind (items Feed.fromJSON)
    let next ← isNext res
    return (listFeeds,next)) ([],true)

def HashTag.fromJSON (jsonMap : Json) : HashTag where
  id := (member jsonMap "id").text
  name := (member jsonMap "name").asString.getD ""

def hasTagList (response : Response) : Option (List HashTag) :=
  answered response (fun res => (res.index "data").bind (items HashTag.fromJSON)) []

theorem answered_succeeded {R : Type} {response : Response} {read : Json → Option R}
    {returnData : R} (success : succeeded response = true) :
    answered response read returnData = response.body.bind read := by
  obtain ⟨status,reported⟩ : response.statusCode = 200 ∧
      (response.body.bind fun res => (res.index "success").bind Json.asBool) = some true := by
    simpa [succeeded] using success
  obtain ⟨res,body,reported⟩ := Option.bind_eq_some_iff.mp reported
  simp [answered,status,body,reported]

theorem answered_failed {R : Type} {response : Response} {read : Json → Option R}
    {returnData value : R} (failure : succeeded response = false)
    (returned : answered response read returnData = some value) : value = returnData := by
  unfold answered at returned
  split at returned
  next status =>
    obtain ⟨res,body,returned⟩ := Option.bind_eq_some_iff.mp returned
    obtain ⟨success,reported,returned⟩ := Option.bind_eq_some_iff.mp returned
    cases success with
    | true => simp [succeeded,status,body,reported] at failure
    | false => exact (Option.some.inj returned).symm
  next => exact (Option.some.inj returned).symm

theorem unselected_of_hasTagList {response : Response} {value : List HashTag}
    (read : hasTagList response = some value) : ∀ element ∈ value, element.isSelected = false := by
  have decoded {json : Json} {value : List HashTag} (read : items HashTag.fromJSON json = some value) :
      ∀ element ∈ value, element.isSelected = false := by
    cases json with
    | list list =>
      rw [items,converted] at read
      split at read
      · cases Option.some.inj read
        intro element member
        obtain ⟨_,_,rfl⟩ := List.mem_map.mp member
        rfl
      · contradiction
    | null | bool | int | double | string | map => contradiction
  unfold hasTagList answered at read
  split at read
  · obtain ⟨res,_,read⟩ := Option.bind_eq_some_iff.mp read
    obtain ⟨success,_,read⟩ := Option.bind_eq_some_iff.mp read
    cases success with
    | true =>
      obtain ⟨json,_,read⟩ := Option.bind_eq_some_iff.mp read
      exact decoded read
    | false =>
      cases Option.some.inj read
      simp
  · cases Option.some.inj read
    simp

end Neuro.Repository
