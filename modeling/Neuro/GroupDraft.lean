import Mathlib.Data.List.Nodup
import Neuro.Lib.Separated
import Neuro.UserSelection

/-! A group that is put together before it is created. Its members are chosen on the selection
screen, which gets a new list of friends at every visit and marks in it who is a member. -/
namespace Neuro.GroupDraft
open Neuro.Lib UserSelection UserSelection.Lists

structure CreateGroup where
  groupImg : String
  groupName : String
  about : String
  groupId : String
  deriving DecidableEq, Repr

/-- `trace` is a history of the screen, and `taps` one of whose rows were tapped. -/
structure Visit where
  lists : Lists := {}
  isLoaded : Bool := false
  trace : List UserSelection.Action := []
  taps : List String := []
  deriving DecidableEq, Repr

/-- What `createGroup` is called with, and whose rows had been tapped on visits until then. -/
structure Created where
  sendData : CreateGroup
  members : List FriendUser
  kept : List String
  deriving DecidableEq, Repr

/-- `kept` are the taps of the visits that were left by the arrow or the check mark. -/
structure State where
  image : Option String := none
  groupNameCon : String := ""
  groupTopicCon : String := ""
  listSelectedMember : List FriendUser := []
  visit : Option Visit := none
  created : List Created := []
  kept : List String := []
  deriving DecidableEq, Repr

inductive Action
  | picked (file : String)
  | nameChanged (text : String)
  | topicChanged (text : String)
  | userSelection
  | loaded (value : List FriendUser)
  | onSearchTextChanged (text : String)
  | onTap (index : Nat)
  /-- The arrow and the check mark hand a selection back, the system's way back none. -/
  | leave
  | systemBack
  | createGroup
  deriving DecidableEq, Repr

section Step
variable (toLowerCase toUpperCase : String → String)

namespace State
variable (s : State)

def within (visit : Visit) (a : UserSelection.Action) (isLoaded : Bool) (taps : List String) :
    Option State :=
  (visit.lists.step toLowerCase toUpperCase a).map fun lists =>
    {s with visit := some ⟨lists,isLoaded,visit.trace ++ [a],taps⟩}

def sendData (image : String) : CreateGroup where
  groupImg := image
  groupName := s.groupNameCon
  about := s.groupTopicCon
  groupId := Separated.join ',' (s.listSelectedMember.map FriendUser.id)

def step (s : State) : Action → Option State
  | .picked file => if s.visit.isNone then some {s with image := some file} else none
  | .nameChanged text => if s.visit.isNone then some {s with groupNameCon := text} else none
  | .topicChanged text => if s.visit.isNone then some {s with groupTopicCon := text} else none
  | .userSelection => if s.visit.isNone then some {s with visit := some {}} else none
  | .loaded value => s.visit.bind fun visit => if visit.isLoaded then none else
    s.within toLowerCase toUpperCase visit (.loaded value s.listSelectedMember) true visit.taps
  | .onSearchTextChanged text => s.visit.bind fun visit =>
    s.within toLowerCase toUpperCase visit (.onSearchTextChanged text) visit.isLoaded visit.taps
  | .onTap index => s.visit.bind fun visit => s.within toLowerCase toUpperCase visit (.onTap index)
    visit.isLoaded (visit.taps ++ (visit.lists.friendAt index).toList.map FriendUser.id)
  | .leave => s.visit.map fun visit => {s with
    listSelectedMember := visit.lists.selectedData
    visit := none
    kept := s.kept ++ visit.taps}
  | .systemBack => if s.visit.isSome then some {s with visit := none} else none
  | .createGroup => if s.visit.isSome then none else match s.image with
    | none => some s
    | some image =>
      if s.groupNameCon = "" ∨ s.groupTopicCon = "" ∨ s.listSelectedMember = [] then some s
      else some {s with created := s.created ++ [⟨s.sendData image,s.listSelectedMember,s.kept⟩]}

end State

/-- The server lists the same friends at every visit, and a visit is only left by the arrow or the
check mark when they have been loaded and the search hides none who is selected. -/
def Shown (friends : List FriendUser) (s : State) : Action → Prop
  | .loaded value => value = friends
  | .leave => ∀ visit ∈ s.visit, visit.isLoaded = true ∧ ∀ friend ∈ visit.lists.mainListData,
    friend.isSelected = true → matching toLowerCase (filterText visit.trace) friend.name = true
  | .picked _ | .nameChanged _ | .topicChanged _ | .userSelection | .onSearchTextChanged _
  | .onTap _ | .systemBack | .createGroup => True

instance (friends : List FriendUser) (s : State) : ∀ a, Decidable (Shown toLowerCase friends s a)
  | .loaded _ => inferInstanceAs (Decidable (_ = _))
  | .leave => inferInstanceAs (Decidable (∀ _ ∈ _, _ ∧ ∀ _ ∈ _, _ → _))
  | .picked _ | .nameChanged _ | .topicChanged _ | .userSelection | .onSearchTextChanged _
  | .onTap _ | .systemBack | .createGroup => inferInstanceAs (Decidable True)

end Step

/-- Those whose row has been tapped an odd number of times. -/
def chosen (taps : List String) (id : String) : Bool := taps.count id % 2 = 1

def marked (taps : List String) (friend : FriendUser) : FriendUser :=
  {friend with isSelected := chosen taps friend.id}

def membersOf (friends : List FriendUser) (taps : List String) : List FriendUser :=
  (friends.map (marked taps)).filter FriendUser.isSelected

/-- Nobody is marked by the server, and ids differ in more than their case. -/
structure Friends (toUpperCase : String → String) (friends : List FriendUser) : Prop where
  unmarked : ∀ friend ∈ friends, friend.isSelected = false
  distinct : (friends.map fun friend => toUpperCase friend.id).Nodup

structure Kept (toLowerCase : String → String) (friends : List FriendUser) (kept : List String)
    (visit : Visit) : Prop where
  filtered : Filtered toLowerCase visit.trace visit.lists
  before : visit.isLoaded = false → visit.lists.mainListData = [] ∧ visit.taps = []
  after : visit.isLoaded = true →
    visit.lists.mainListData = friends.map (marked (kept ++ visit.taps))

structure Inv (toLowerCase : String → String) (friends : List FriendUser) (s : State) : Prop where
  members : s.listSelectedMember = membersOf friends s.kept
  visit : ∀ visit ∈ s.visit, Kept toLowerCase friends s.kept visit
  created : ∀ c ∈ s.created, c.members = membersOf friends c.kept ∧ c.members ≠ [] ∧
    c.sendData.groupName ≠ "" ∧ c.sendData.about ≠ "" ∧
      c.sendData.groupId = Separated.join ',' (c.members.map FriendUser.id)

section Marked
variable {toLowerCase toUpperCase : String → String} {friends : List FriendUser} {taps : List String}
  {friend : FriendUser}

theorem chosen_append (taps : List String) (id : String) :
    chosen (taps ++ [id]) id = !chosen taps id := by
  rw [chosen,chosen,List.count_append,List.count_singleton_self]
  rcases Nat.mod_two_eq_zero_or_one (taps.count id) with even | odd
  · simp [even,Nat.add_mod]
  · simp [odd,Nat.add_mod]

theorem chosen_append_other {id other : String} (differ : other ≠ id) :
    chosen (taps ++ [other]) id = chosen taps id := by
  have none : List.count id [other] = 0 := List.count_eq_zero_of_not_mem (by simpa using differ.symm)
  rw [chosen,chosen,List.count_append,none,Nat.add_zero]

theorem unique_id (valid : Friends toUpperCase friends) {other : FriendUser} (own : friend ∈ friends)
    (also : other ∈ friends) (same : toUpperCase friend.id = toUpperCase other.id) :
    friend = other :=
  List.inj_on_of_nodup_map valid.distinct own also same

/-- A new list of friends has those marked who are members. -/
theorem selectedBy_members (valid : Friends toUpperCase friends) (own : friend ∈ friends) :
    selectedBy toUpperCase (membersOf friends taps) friend = marked taps friend := by
  have listed : (membersOf friends taps).any (fun elementData =>
      toUpperCase elementData.id = toUpperCase friend.id) = true ↔ chosen taps friend.id = true := by
    simp only [membersOf,List.any_eq_true,List.mem_filter,List.mem_map,decide_eq_true_eq]
    constructor
    · rintro ⟨_,⟨⟨other,also,rfl⟩,selected⟩,same⟩
      obtain rfl : other = friend := unique_id valid also own same
      exact selected
    · intro selected
      exact ⟨marked taps friend,⟨⟨friend,own,rfl⟩,selected⟩,rfl⟩
  rw [selectedBy,marked]
  by_cases selected : chosen taps friend.id = true
  · rw [if_pos (listed.mpr selected),selected]
  · rw [if_neg (fun any => selected (listed.mp any)),Bool.eq_false_iff.mpr selected,
      ← valid.unmarked friend own]

/-- A tap on a row marks that friend only. -/
theorem marked_tap (valid : Friends toUpperCase friends) {position : Nat}
    (found : (friends.map (marked taps))[position]? = some friend) :
    (friends.map (marked taps)).set position friend.flipped =
      friends.map (marked (taps ++ [friend.id])) := by
  rw [List.getElem?_map] at found
  obtain ⟨tapped,listed,rfl⟩ := Option.map_eq_some_iff.mp found
  refine List.ext_getElem? fun k => ?_
  by_cases same : position = k
  · subst same
    obtain ⟨bound,_⟩ := List.getElem?_eq_some_iff.mp listed
    rw [List.getElem?_set_self (by simpa using bound),List.getElem?_map,listed,Option.map_some]
    exact congrArg (fun isSelected => some {tapped with isSelected}) (chosen_append taps tapped.id).symm
  · rw [List.getElem?_set_ne same,List.getElem?_map,List.getElem?_map]
    cases other_at : friends[k]? with
    | none => rfl
    | some other =>
      have differ : tapped.id ≠ other.id := by
        intro equal
        obtain ⟨_,here⟩ := List.getElem?_eq_some_iff.mp listed
        obtain ⟨_,there⟩ := List.getElem?_eq_some_iff.mp other_at
        have alike := unique_id valid (List.mem_of_getElem? listed) (List.mem_of_getElem? other_at)
          (congrArg toUpperCase equal)
        exact same ((List.Nodup.of_map _ valid.distinct).getElem_inj_iff.mp
          (here.trans (alike.trans there.symm)))
      simp only [Option.map_some,marked,chosen_append_other differ]

theorem ids_membersOf (friends : List FriendUser) (taps : List String) :
    (membersOf friends taps).map FriendUser.id =
      (friends.filter fun friend => chosen taps friend.id).map FriendUser.id := by
  rw [membersOf,List.filter_map,List.map_map]
  rfl

end Marked

section Steps
variable {toLowerCase toUpperCase : String → String} {friends : List FriendUser} {s t : State}
  {visit : Visit}

theorem inv_within {a : UserSelection.Action} {isLoaded : Bool} {taps : List String}
    (inv : Inv toLowerCase friends s) (opened : s.visit = some visit)
    (before : ∀ lists, visit.lists.step toLowerCase toUpperCase a = some lists → isLoaded = false →
      lists.mainListData = [] ∧ taps = [])
    (after : ∀ lists, visit.lists.step toLowerCase toUpperCase a = some lists → isLoaded = true →
      lists.mainListData = friends.map (marked (s.kept ++ taps)))
    (stepped : s.within toLowerCase toUpperCase visit a isLoaded taps = some t) :
    Inv toLowerCase friends t := by
  obtain ⟨lists,turned,rfl⟩ := Option.map_eq_some_iff.mp stepped
  refine ⟨inv.members,?_,inv.created⟩
  intro now shown
  cases Option.some.inj shown
  exact {
    filtered := filtered_step (inv.visit visit opened).filtered turned
    before := before lists turned
    after := after lists turned}

theorem inv_loaded (valid : Friends toUpperCase friends) (inv : Inv toLowerCase friends s)
    (stepped : s.step toLowerCase toUpperCase (.loaded friends) = some t) :
    Inv toLowerCase friends t := by
  obtain ⟨visit,opened,stepped⟩ := Option.bind_eq_some_iff.mp stepped
  split at stepped
  next => contradiction
  next waiting =>
    have untouched := ((inv.visit visit opened).before (Bool.eq_false_iff.mpr waiting)).2
    refine inv_within inv opened ?_ ?_ stepped
    · intro _ _ loading
      contradiction
    · intro lists turned _
      cases Option.some.inj turned
      rw [untouched,List.append_nil,inv.members]
      exact List.map_congr_left fun friend own => selectedBy_members valid own

theorem inv_tap (valid : Friends toUpperCase friends) (inv : Inv toLowerCase friends s) {index : Nat}
    (stepped : s.step toLowerCase toUpperCase (.onTap index) = some t) :
    Inv toLowerCase friends t := by
  obtain ⟨visit,opened,stepped⟩ := Option.bind_eq_some_iff.mp stepped
  have kept := inv.visit visit opened
  refine inv_within inv opened ?_ ?_ stepped
  · intro lists turned loading
    obtain ⟨position,_,rest⟩ := Option.bind_eq_some_iff.mp turned
    obtain ⟨friend,found,_⟩ := Option.bind_eq_some_iff.mp rest
    rw [(kept.before loading).1] at found
    contradiction
  · intro lists turned loaded
    obtain ⟨position,listed,rest⟩ := Option.bind_eq_some_iff.mp turned
    obtain ⟨friend,found,rest⟩ := Option.bind_eq_some_iff.mp rest
    cases Option.some.inj rest
    have tapped : visit.lists.friendAt index = some friend := by
      rw [friendAt,listed]
      exact found
    rw [kept.after loaded] at found ⊢
    rw [tapped,← List.append_assoc]
    exact marked_tap valid found

theorem inv_leave (inv : Inv toLowerCase friends s)
    (shown : Shown toLowerCase friends s .leave)
    (stepped : s.step toLowerCase toUpperCase .leave = some t) : Inv toLowerCase friends t := by
  obtain ⟨visit,opened,rfl⟩ := Option.map_eq_some_iff.mp stepped
  have kept := inv.visit visit opened
  obtain ⟨loaded,all⟩ := shown visit opened
  refine ⟨?_,nofun,inv.created⟩
  calc visit.lists.selectedData
      = visit.lists.mainListData.filter FriendUser.isSelected := by
        rw [selectedData_eq kept.filtered]
        exact (filter_filter_eq_iff _ _).mpr all
    _ = membersOf friends (s.kept ++ visit.taps) := by rw [kept.after loaded,membersOf]

theorem inv_create (inv : Inv toLowerCase friends s)
    (stepped : s.step toLowerCase toUpperCase .createGroup = some t) :
    Inv toLowerCase friends t := by
  rw [State.step] at stepped
  split at stepped
  next => contradiction
  next =>
    split at stepped
    next => cases Option.some.inj stepped; exact inv
    next image _ =>
      split at stepped
      next => cases Option.some.inj stepped; exact inv
      next filled =>
        cases Option.some.inj stepped
        push Not at filled
        refine ⟨inv.members,inv.visit,?_⟩
        intro c called
        rcases List.mem_append.mp called with earlier | now
        · exact inv.created c earlier
        · cases List.mem_singleton.mp now
          exact ⟨inv.members,filled.2.2,filled.1,filled.2.1,rfl⟩

theorem kept_start {kept : List String} : Kept toLowerCase friends kept {} where
  filtered := by simp [Filtered,positions]
  before _ := ⟨rfl,rfl⟩
  after loaded := by contradiction

theorem inv_step (valid : Friends toUpperCase friends) {a : Action}
    (inv : Inv toLowerCase friends s) (shown : Shown toLowerCase friends s a)
    (stepped : s.step toLowerCase toUpperCase a = some t) : Inv toLowerCase friends t := by
  cases a with
  | picked | nameChanged | topicChanged =>
    obtain ⟨_,now⟩ := Option.ite_none_right_eq_some.mp stepped
    cases Option.some.inj now
    exact ⟨inv.members,inv.visit,inv.created⟩
  | userSelection =>
    obtain ⟨_,now⟩ := Option.ite_none_right_eq_some.mp stepped
    cases Option.some.inj now
    refine ⟨inv.members,?_,inv.created⟩
    intro visit opened
    cases Option.some.inj opened
    exact kept_start
  | loaded value =>
    obtain rfl : value = friends := shown
    exact inv_loaded valid inv stepped
  | onSearchTextChanged text =>
    obtain ⟨visit,opened,stepped⟩ := Option.bind_eq_some_iff.mp stepped
    have kept := inv.visit visit opened
    refine inv_within inv opened ?_ ?_ stepped
    · intro lists turned loading
      cases Option.some.inj turned
      exact kept.before loading
    · intro lists turned loaded
      cases Option.some.inj turned
      exact kept.after loaded
  | onTap index => exact inv_tap valid inv stepped
  | leave => exact inv_leave inv shown stepped
  | systemBack =>
    obtain ⟨_,now⟩ := Option.ite_none_right_eq_some.mp stepped
    cases Option.some.inj now
    exact ⟨inv.members,by simp,inv.created⟩
  | createGroup => exact inv_create inv stepped

theorem inv_run (valid : Friends toUpperCase friends) {as : List Action}
    (run : Run (State.step toLowerCase toUpperCase) (Shown toLowerCase friends) {} as t) :
    Inv toLowerCase friends t :=
  run.invariant (Inv toLowerCase friends) ⟨by simp [membersOf,marked,chosen],nofun,nofun⟩
    fun _ _ _ inv shown stepped => inv_step valid inv shown stepped

/-- The members of the draft are the friends whose rows have been tapped an odd number of times
on visits left by the arrow or the check mark, and a group is created with them. -/
theorem members_tapped (valid : Friends toUpperCase friends) {as : List Action}
    (run : Run (State.step toLowerCase toUpperCase) (Shown toLowerCase friends) {} as t) :
    (t.listSelectedMember = membersOf friends t.kept) ∧ ∀ c ∈ t.created,
      c.members = membersOf friends c.kept ∧ c.members ≠ [] ∧ c.sendData.groupName ≠ "" ∧
      c.sendData.about ≠ "" ∧ ((∀ friend ∈ friends, ',' ∉ friend.id.toList) →
        Separated.split ',' c.sendData.groupId =
          (friends.filter fun friend => chosen c.kept friend.id).map FriendUser.id) := by
  have inv := inv_run valid run
  refine ⟨inv.members,?_⟩
  intro c called
  obtain ⟨members,some,named,about,joined⟩ := inv.created c called
  refine ⟨members,some,named,about,?_⟩
  intro free
  have ids := ids_membersOf friends c.kept
  rw [← members] at ids
  rw [joined,Separated.split_join _ (by simpa using some),ids]
  intro id member
  rw [ids] at member
  obtain ⟨friend,own,rfl⟩ := List.mem_map.mp member
  exact free friend (List.mem_of_mem_filter own)

end Steps

/-- Ben is chosen on the first visit, tapped on one that is left by the system's way back, and
Anna is added on the third. -/
def thirdVisit : List Action :=
  [.picked "group.jpg",.nameChanged "Hikers",.topicChanged "Walks",.userSelection,
    .loaded [anna,ben],.onSearchTextChanged "be",.onTap 0,.leave,.createGroup,.userSelection,
    .loaded [anna,ben],.onTap 1,.systemBack,.userSelection,.loaded [anna,ben],.onTap 0,.leave,
    .createGroup]

theorem members_tapped_visits : ∃ t,
    Run (State.step toLower toUpper) (Shown toLower [anna,ben]) {} thirdVisit t ∧
    t.listSelectedMember = membersOf [anna,ben] t.kept ∧ t.kept = ["12","7"] ∧
    t.created.map (fun c => c.sendData.groupId) = ["12","7,12"] := by
  have computed : ∃ t,
      Run (State.step toLower toUpper) (Shown toLower [anna,ben]) {} thirdVisit t ∧
      t.kept = ["12","7"] ∧ t.created.map (fun c => c.sendData.groupId) = ["12","7,12"] :=
    Run.exists_of_exec (by decide +kernel)
  obtain ⟨t,run,tapped,created⟩ := computed
  have valid : Friends toUpper [anna,ben] := ⟨by decide,by decide +kernel⟩
  exact ⟨t,run,(members_tapped valid run).1,tapped,created⟩

end Neuro.GroupDraft
