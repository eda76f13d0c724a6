import Neuro.Lib.Run
import Neuro.Lib.Pool
import Mathlib.Data.List.Infix

/-! The user selection screen: a full list of friends, a filtered list of the same
objects, and the selection that is handed back when the user leaves. -/
namespace Neuro.UserSelection
open Neuro.Lib

structure FriendUser where
  id : String := ""
  name : String := ""
  birthdate : String := ""
  profileImg : String := ""
  address : String := ""
  isSelected : Bool := false
  admin : Bool := false
  deriving DecidableEq, Repr

/-- `listData` holds the positions of its objects in `mainListData`. -/
structure Lists where
  mainListData : List FriendUser := []
  listData : List Nat := []
  isLoading : Bool := true
  deriving DecidableEq, Repr

inductive Action
  | onSearchTextChanged (text : String)
  | onTap (index : Nat)
  /-- `getFriendList` is answered; `listUser` is the selection it was started with. -/
  | loaded (value : List FriendUser) (listUser : List FriendUser)
  deriving DecidableEq, Repr

def FriendUser.flipped (friend : FriendUser) : FriendUser :=
  {friend with isSelected := !friend.isSelected}

section Step
variable (toLowerCase toUpperCase : String → String)

def matching (text name : String) : Bool :=
  text = "" || decide ((toLowerCase text).toList <:+: (toLowerCase name).toList)

def positions (text : String) (names : List String) : List Nat :=
  (names.zipIdx.filter fun entry => matching toLowerCase text entry.1).map Prod.snd

namespace Lists
variable (s : Lists)

def friendAt (index : Nat) : Option FriendUser :=
  s.listData[index]?.bind fun position => s.mainListData[position]?

def onSearchTextChanged (text : String) : Lists :=
  let listData := positions toLowerCase text (s.mainListData.map FriendUser.name)
  {s with
    listData := listData
    isLoading := if text ≠ "" ∧ listData = [] then false else s.isLoading}

def onTap (index : Nat) : Option Lists := do
  let position ← s.listData[index]?
  let friend ← s.mainListData[position]?
  return {s with mainListData := s.mainListData.set position friend.flipped}

def selectedBy (listUser : List FriendUser) (element : FriendUser) : FriendUser :=
  if listUser.any fun elementData => toUpperCase elementData.id = toUpperCase element.id then
    {element with isSelected := true}
  else element

/-- All elements are shown, whatever text the search field holds. -/
def loaded (value listUser : List FriendUser) : Lists where
  mainListData := value.map (selectedBy toUpperCase listUser)
  listData := List.range value.length
  isLoading := false

def step (s : Lists) : Action → Option Lists
  | .onSearchTextChanged text => some (s.onSearchTextChanged toLowerCase text)
  | .onTap index => s.onTap index
  | .loaded value listUser => some (loaded toUpperCase value listUser)

/-- What the back arrow and the check mark hand back. -/
def selectedData : List FriendUser :=
  (s.listData.filterMap fun position => s.mainListData[position]?).filter FriendUser.isSelected

end Lists

/-- The text `list_data` was last filtered by; a load fills it with all elements. -/
def filterText : List Action → String :=
  List.foldl (fun text a => match a with
    | .onSearchTextChanged text => text
    | .onTap _ => text
    | .loaded .. => "") ""

end Step

section Proofs
variable {toLowerCase toUpperCase : String → String}

theorem filterMap_positions (text : String) (before list : List FriendUser) :
    ((((list.map FriendUser.name).zipIdx before.length).filter fun entry =>
      matching toLowerCase text entry.1).map Prod.snd).filterMap
        (fun position => (before ++ list)[position]?) =
      list.filter fun friend => matching toLowerCase text friend.name := by
  induction list generalizing before with
  | nil => rfl
  | cons friend rest ih =>
    have later := ih (before ++ [friend])
    simp only [List.length_append,List.length_singleton,List.append_assoc,List.singleton_append]
      at later
    rw [List.map_cons,List.zipIdx_cons,List.filter_cons,List.filter_cons]
    split
    next =>
      rw [List.map_cons,List.filterMap_cons,later]
      simp
    next => exact later

theorem positions_all (names : List String) :
    positions toLowerCase "" names = List.range names.length := by
  have kept : names.zipIdx.filter (fun entry => matching toLowerCase "" entry.1) = names.zipIdx :=
    List.filter_eq_self.mpr fun _ _ => by simp [matching]
  rw [positions,kept,List.zipIdx_map_snd,List.range_eq_range']

def Filtered (toLowerCase : String → String) (as : List Action) (s : Lists) : Prop :=
  s.listData = positions toLowerCase (filterText as) (s.mainListData.map FriendUser.name)

theorem filtered_step {as : List Action} {s t : Lists} {a : Action}
    (filtered : Filtered toLowerCase as s) (stepped : s.step toLowerCase toUpperCase a = some t) :
    Filtered toLowerCase (as ++ [a]) t := by
  rw [Filtered,filterText,List.foldl_append,← filterText]
  cases a with
  | onSearchTextChanged text =>
    cases Option.some.inj stepped
    rfl
  | onTap index =>
    obtain ⟨position,_,rest⟩ := Option.bind_eq_some_iff.mp stepped
    obtain ⟨friend,found,rest⟩ := Option.bind_eq_some_iff.mp rest
    cases Option.some.inj rest
    have names : (s.mainListData.set position friend.flipped).map FriendUser.name =
        s.mainListData.map FriendUser.name := Pool.map_set _ found rfl
    exact filtered.trans (congrArg (positions toLowerCase (filterText as)) names.symm)
  | loaded value listUser =>
    cases Option.some.inj stepped
    exact ((positions_all _).trans (by simp [Lists.loaded])).symm

theorem filtered_run {as : List Action} {s : Lists}
    (run : Run (Lists.step toLowerCase toUpperCase) anyStep {} as s) :
    Filtered toLowerCase as s := by
  have start : Filtered toLowerCase [] {} := by simp [Filtered,positions]
  exact run.traced (Filtered toLowerCase) start fun _ _ _ _ filtered _ => filtered_step filtered

theorem selectedData_eq {as : List Action} {s : Lists} (filtered : Filtered toLowerCase as s) :
    s.selectedData = (s.mainListData.filter fun friend =>
      matching toLowerCase (filterText as) friend.name).filter FriendUser.isSelected := by
  rw [Lists.selectedData,filtered,positions]
  exact congrArg _ (filterMap_positions (filterText as) [] s.mainListData)

theorem filter_filter_eq_iff (list : List FriendUser) (shown : FriendUser → Bool) :
    (list.filter shown).filter FriendUser.isSelected = list.filter FriendUser.isSelected ↔
      ∀ friend ∈ list, friend.isSelected = true → shown friend = true := by
  have swapped : (list.filter shown).filter FriendUser.isSelected =
      (list.filter FriendUser.isSelected).filter shown := by
    rw [List.filter_filter,List.filter_filter]
    exact List.filter_congr fun _ _ => Bool.and_comm _ _
  rw [swapped,List.filter_eq_self]
  simp only [List.mem_filter,and_imp]

/-- In every state a run reaches, leaving hands back the selected friends of the full list
if and only if each of them matches the text the list was last filtered by. -/
theorem selection_iff {as : List Action} {s : Lists}
    (run : Run (Lists.step toLowerCase toUpperCase) anyStep {} as s) :
    s.selectedData = s.mainListData.filter FriendUser.isSelected ↔
      ∀ friend ∈ s.mainListData, friend.isSelected = true →
        matching toLowerCase (filterText as) friend.name = true := by
  rw [selectedData_eq (filtered_run run)]
  exact filter_filter_eq_iff _ _

end Proofs

def toLower (text : String) : String := String.ofList (text.toList.map Char.toLower)

def toUpper (text : String) : String := String.ofList (text.toList.map Char.toUpper)

def anna : FriendUser := {id := "7",name := "Anna"}

def ben : FriendUser := {id := "12",name := "Ben"}

theorem selection_iff_ben : ∃ s, Run (Lists.step toLower toUpper) anyStep {}
    [.loaded [anna,ben] [ben],.onSearchTextChanged "be"] s ∧
    (s.selectedData = s.mainListData.filter FriendUser.isSelected ↔
      ∀ friend ∈ s.mainListData, friend.isSelected = true →
        matching toLower "be" friend.name = true) := by
  have computed : ∃ s, Run (Lists.step toLower toUpper) anyStep {}
      [.loaded [anna,ben] [ben],.onSearchTextChanged "be"] s ∧ True :=
    Run.exists_of_exec (by decide)
  obtain ⟨s,run,_⟩ := computed
  exact ⟨s,run,selection_iff run⟩

/-- Anna is selected before the search for Ben and lost by it. -/
theorem search_drops_selection : ¬ ∀ (toLowerCase toUpperCase : String → String)
    (as : List Action) (s : Lists), Run (Lists.step toLowerCase toUpperCase) anyStep {} as s →
    s.selectedData = s.mainListData.filter FriendUser.isSelected := by
  intro claimed
  have computed : ∃ s, Run (Lists.step toLower toUpper) anyStep {}
      [.loaded [anna,ben] [],.onTap 0,.onSearchTextChanged "be"] s ∧
      s.selectedData ≠ s.mainListData.filter FriendUser.isSelected :=
    Run.exists_of_exec (by decide)
  obtain ⟨s,run,lost⟩ := computed
  exact lost (claimed _ _ _ s run)

end Neuro.UserSelection
