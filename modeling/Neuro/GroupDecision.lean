import Neuro.RecentGroups

/-! The accept and the reject button of a group request: what one tap leaves in the
two collections, at the server and on the list, wherever it fails. -/
namespace Neuro.GroupDecision
open Neuro.Lib ChatScreen GroupChatScreen InboxEntry
open RecentGroups (Path joined)

structure GroupRequest where
  id : String
  deriving DecidableEq, Repr

/-- `sendData`: the group id and the type, "1" for accept and "2" for reject. -/
structure NeuroRequest where
  id : String
  type : String
  deriving DecidableEq, Repr

structure Body where
  receiverId : String
  type : String
  deriving DecidableEq, Repr

def NeuroRequest.toMap (data : NeuroRequest) : Body := ⟨data.id,data.type⟩

/-- `recorded` are the decisions of this user that the server has taken, `listData` is
the list as it is when a response arrives. -/
structure World where
  groups : Store String Group
  recentgroups : Store Path RecentGroup
  recorded : List NeuroRequest
  listData : List GroupRequest

/-- What goes well in a tap: the preferences can be read, the update and the
transaction are carried out, the screen is still there, the device is online, the
server records the decision, and a response with some status arrives. -/
structure Outcome where
  prefs : Bool := true
  update : Bool := true
  transaction : Bool := true
  mounted : Bool := true
  connected : Bool := true
  recorded : Bool := true
  status : Option Nat := some 200
  deriving DecidableEq, Repr

namespace World
variable (w : World)

def arrayUnion (groupId : String) (user : FirebaseUser) : Option (Store String Group) :=
  (w.groups groupId).map fun group => w.groups.set groupId
    {group with members := if user ∈ group.members then group.members
      else group.members ++ [user]}

/-- The response is `true` for every status. A removal out of range throws and is
caught, which leaves the list as it is. -/
def acceptReject (sendData : NeuroRequest) (removeIndex : Nat) (o : Outcome) : World :=
  if o.mounted && o.connected then
    {w with
      recorded := if o.recorded then w.recorded ++ [sendData] else w.recorded
      listData := if o.status.isSome then w.listData.eraseIdx removeIndex else w.listData}
  else w

def accept (account : Account) (data : GroupRequest) (index : Nat) (now : Int)
    (o : Outcome) : World :=
  if o.prefs && o.update then
    match w.arrayUnion data.id ⟨account.id,account.name,account.image,false⟩ with
    | some groups =>
      if o.transaction then
        acceptReject {w with
          groups := groups
          recentgroups := w.recentgroups.set (account.id,data.id) (joined data.id now)}
            ⟨data.id,"1"⟩ index o
      else {w with groups := groups}
    | none => w
  else w

def reject (data : GroupRequest) (index : Nat) (o : Outcome) : World :=
  w.acceptReject ⟨data.id,"2"⟩ index o

def Member (userId groupId : String) : Prop :=
  ∃ group, w.groups groupId = some group ∧ ∃ m ∈ group.members, m.id = userId

def Listed (groupId : String) : Prop := ∃ r ∈ w.listData, r.id = groupId

/-- The user is in the group everywhere and the request is gone, or nothing of this. -/
def AllOrNone (userId groupId : String) : Prop :=
  (w.Member userId groupId ∧ w.recentgroups (userId,groupId) ≠ none ∧
    ⟨groupId,"1"⟩ ∈ w.recorded ∧ ¬ w.Listed groupId) ∨
  (¬ w.Member userId groupId ∧ w.recentgroups (userId,groupId) = none ∧
    ⟨groupId,"1"⟩ ∉ w.recorded ∧ w.Listed groupId)

/-- A request leaves the list only when this decision about it is recorded. -/
def OnlyDecided (type : String) (before after : World) : Prop :=
  ∀ r, after.listData.count r < before.listData.count r → ⟨r.id,type⟩ ∈ after.recorded

/-- The part of an accept before the server call. -/
def Joins (groupId : String) (o : Outcome) : Prop :=
  o.prefs = true ∧ o.update = true ∧ w.groups groupId ≠ none

/-- The list when nothing of an accept is under way any more. -/
def remaining (index : Nat) (o : Outcome) : List GroupRequest :=
  if o.transaction && o.mounted && o.connected && o.status.isSome then w.listData.eraseIdx index
  else w.listData

/-- An accept that joins the group leaves a document, a recorded acceptance and no row of the
request; one that fails before finds all of it or nothing. -/
def Clean (userId : String) (data : GroupRequest) (index : Nat) (o : Outcome) : Prop :=
  (w.Joins data.id o →
    (o.transaction = true ∨ w.recentgroups (userId,data.id) ≠ none) ∧
    (⟨data.id,"1"⟩ ∈ w.recorded ∨
      (o.transaction && o.mounted && o.connected && o.recorded) = true) ∧
    ∀ r ∈ w.remaining index o, r.id ≠ data.id) ∧
  (¬ w.Joins data.id o → w.AllOrNone userId data.id)

/-- When a response arrives, the row at the index is of a request with this decision. -/
def Justified (type : String) (data : GroupRequest) (index : Nat) (o : Outcome) : Prop :=
  o.mounted = true → o.connected = true → o.status ≠ none → ∀ r ∈ w.listData[index]?,
    ⟨r.id,type⟩ ∈ w.recorded ∨ o.recorded = true ∧ r.id = data.id

variable {w : World} {account : Account} {data : GroupRequest} {index : Nat} {now : Int}
  {o : Outcome}

theorem member_of_arrayUnion {groupId : String} {user : FirebaseUser} {groups : Store String Group}
    (joined : w.arrayUnion groupId user = some groups) :
    ∃ group, groups groupId = some group ∧ ∃ m ∈ group.members, m.id = user.id := by
  obtain ⟨group,_,rfl⟩ := Option.map_eq_some_iff.mp joined
  refine ⟨_,Store.set_self _,user,?_,rfl⟩
  dsimp only
  split
  · assumption
  · simp

/-- How far an accept gets. -/
theorem accept_cases (w : World) (account : Account) (data : GroupRequest) (index : Nat)
    (now : Int) (o : Outcome) :
    (¬ w.Joins data.id o ∧ w.accept account data index now o = w) ∨
    (w.Joins data.id o ∧ ∃ groups,
      (∃ group, groups data.id = some group ∧ ∃ m ∈ group.members, m.id = account.id) ∧
      (o.transaction = false ∧ w.accept account data index now o = {w with groups := groups} ∨
        o.transaction = true ∧ w.accept account data index now o =
          acceptReject {w with
            groups := groups
            recentgroups := w.recentgroups.set (account.id,data.id) (joined data.id now)}
              ⟨data.id,"1"⟩ index o)) := by
  unfold accept
  split
  next ready =>
    obtain ⟨prefs,update⟩ := Bool.and_eq_true_iff.mp ready
    split
    next groups union =>
      have exist : w.groups data.id ≠ none := by
        intro none
        simp [arrayUnion,none] at union
      refine .inr ⟨⟨prefs,update,exist⟩,groups,member_of_arrayUnion union,?_⟩
      cases o.transaction with
      | true => exact .inr ⟨rfl,rfl⟩
      | false => exact .inl ⟨rfl,rfl⟩
    next union =>
      refine .inl ⟨fun joins => joins.2.2 ?_,rfl⟩
      simpa [arrayUnion] using union
  next failed =>
    exact .inl ⟨fun joins => failed (Bool.and_eq_true_iff.mpr ⟨joins.1,joins.2.1⟩),rfl⟩

theorem count_eraseIdx_lt {listData : List GroupRequest} {r : GroupRequest} :
    (listData.eraseIdx index).count r < listData.count r ↔ listData[index]? = some r := by
  cases found : listData[index]? with
  | none => simp [List.eraseIdx_of_length_le (List.getElem?_eq_none_iff.mp found)]
  | some row =>
    obtain ⟨split,_⟩ := Pool.split found row
    conv_lhs => rw [List.eraseIdx_eq_take_drop_succ]
    conv_lhs => rhs; rw [split]
    rw [List.count_append,List.count_append,List.count_cons]
    by_cases same : row = r
    · simp [same]
    · simp [same]

theorem onlyDecided_iff (w : World) (type : String) (data : GroupRequest) (index : Nat)
    (o : Outcome) :
    OnlyDecided type w (w.acceptReject ⟨data.id,type⟩ index o) ↔ w.Justified type data index o := by
  unfold OnlyDecided Justified acceptReject
  cases o.mounted with
  | false => simp
  | true =>
    cases o.connected with
    | false => simp
    | true =>
      cases o.status with
      | none => simp
      | some status =>
        simp only [Bool.and_self,if_true,Option.isSome_some,count_eraseIdx_lt,Option.mem_def,
          forall_const,ne_eq,reduceCtorEq,not_false_eq_true]
        refine forall₂_congr fun r _ => ?_
        cases o.recorded with
        | false => simp
        | true => simp

theorem not_listed_iff {groupId : String} :
    ¬ w.Listed groupId ↔ ∀ r ∈ w.listData, r.id ≠ groupId := by
  simp [Listed]

theorem allOrNone_of_member {userId groupId : String} (member : w.Member userId groupId) :
    w.AllOrNone userId groupId ↔ w.recentgroups (userId,groupId) ≠ none ∧
      ⟨groupId,"1"⟩ ∈ w.recorded ∧ ∀ r ∈ w.listData, r.id ≠ groupId := by
  rw [AllOrNone,or_iff_left fun none => none.1 member,not_listed_iff]
  exact and_iff_right member

theorem acceptReject_same (w : World) (sendData : NeuroRequest) (index : Nat) (o : Outcome) :
    (w.acceptReject sendData index o).groups = w.groups ∧
      (w.acceptReject sendData index o).recentgroups = w.recentgroups := by
  unfold acceptReject
  split
  · exact ⟨rfl,rfl⟩
  · exact ⟨rfl,rfl⟩

theorem recorded_acceptReject (w : World) (sendData : NeuroRequest) (index : Nat) (o : Outcome) :
    sendData ∈ (w.acceptReject sendData index o).recorded ↔
      sendData ∈ w.recorded ∨ (o.mounted && o.connected && o.recorded) = true := by
  unfold acceptReject
  cases o.mounted && o.connected with
  | false => simp
  | true => cases o.recorded <;> simp

theorem listData_acceptReject (w : World) (sendData : NeuroRequest) (index : Nat) (o : Outcome) :
    (w.acceptReject sendData index o).listData =
      if o.mounted && o.connected && o.status.isSome then w.listData.eraseIdx index
      else w.listData := by
  unfold acceptReject
  cases o.mounted && o.connected with
  | false => rfl
  | true => rfl

theorem allOrNone_accept :
    (w.accept account data index now o).AllOrNone account.id data.id ↔
      w.Clean account.id data index o := by
  rcases accept_cases w account data index now o with
    ⟨failed,same⟩ | ⟨joins,groups,member,⟨failed,stopped⟩ | ⟨carried,sent⟩⟩
  · rw [same,Clean]
    simp only [failed,false_implies,not_false_eq_true,forall_const,true_and]
  · -- the user is a member, with the document there has been, if any
    have member : World.Member {w with groups := groups} account.id data.id := member
    rw [stopped,allOrNone_of_member member,Clean,remaining]
    simp only [joins,failed,forall_const,not_true_eq_false,false_implies,and_true,
      Bool.false_eq_true,Bool.false_and,false_or,or_false,if_false]
  · let joined : World := {w with
      groups := groups
      recentgroups := w.recentgroups.set (account.id,data.id) (joined data.id now)}
    have document : joined.recentgroups (account.id,data.id) ≠ none := by simp [joined]
    obtain ⟨same,kept⟩ := acceptReject_same joined ⟨data.id,"1"⟩ index o
    have member : (joined.acceptReject ⟨data.id,"1"⟩ index o).Member account.id data.id := by
      rw [Member,same]
      exact member
    rw [sent,allOrNone_of_member member,kept,recorded_acceptReject,listData_acceptReject,Clean,
      remaining]
    simp only [carried,joins,document,joined,ne_eq,not_false_eq_true,forall_const,true_or,
      true_and,not_true_eq_false,false_implies,and_true,Bool.true_and]

theorem onlyDecided_accept :
    OnlyDecided "1" w (w.accept account data index now o) ↔
      (w.Joins data.id o → o.transaction = true → w.Justified "1" data index o) := by
  have unchanged {v : World} (same : v.listData = w.listData) : OnlyDecided "1" w v := by
    intro r fewer
    rw [same] at fewer
    exact absurd fewer (Nat.lt_irrefl _)
  rcases accept_cases w account data index now o with
    ⟨failed,same⟩ | ⟨joins,groups,member,⟨failed,stopped⟩ | ⟨carried,sent⟩⟩
  · rw [same]
    exact iff_of_true (unchanged rfl) fun joins => absurd joins failed
  · rw [stopped]
    exact iff_of_true (unchanged rfl) fun _ carried => by simp [failed] at carried
  · rw [sent]
    simp only [carried,joins,forall_const]
    exact onlyDecided_iff {w with
      groups := groups
      recentgroups := w.recentgroups.set (account.id,data.id) (joined data.id now)} "1" data index o

/-- Exactly when a decision is all or nothing, and when it takes a request off the
list that is decided. -/
theorem decision_atomic (w : World) (account : Account) (data : GroupRequest) (index : Nat)
    (now : Int) (o : Outcome) :
    ((w.accept account data index now o).AllOrNone account.id data.id ↔
      w.Clean account.id data index o) ∧
    (OnlyDecided "1" w (w.accept account data index now o) ↔
      (w.Joins data.id o → o.transaction = true → w.Justified "1" data index o)) ∧
    (OnlyDecided "2" w (w.reject data index o) ↔ w.Justified "2" data index o) :=
  ⟨allOrNone_accept,onlyDecided_accept,onlyDecided_iff w "2" data index o⟩

def world : World where
  groups := fun id => if id = "g" then some ⟨"g","","","",[⟨"1","Anna","",true⟩]⟩ else none
  recentgroups := fun _ => none
  recorded := []
  listData := [⟨"g"⟩,⟨"h"⟩]

theorem decision_atomic_world :
    (world.accept ⟨"2","Ben",""⟩ ⟨"g"⟩ 0 7 {}).AllOrNone "2" "g" ∧
      OnlyDecided "2" world (world.reject ⟨"g"⟩ 0 {}) := by
  obtain ⟨accepted,_,rejected⟩ := decision_atomic world ⟨"2","Ben",""⟩ ⟨"g"⟩ 0 7 {}
  constructor
  · refine accepted.mpr ⟨fun _ => ⟨.inl rfl,.inr rfl,by decide⟩,fun outside => ?_⟩
    exact absurd ⟨rfl,rfl,by decide⟩ outside
  · refine rejected.mpr fun _ _ _ r found => .inr ⟨rfl,?_⟩
    cases Option.some.inj found
    rfl

/-- A failed transaction leaves a member without a document; a server error that records
nothing still removes the request. -/
theorem decision_in_part :
    ¬ (world.accept ⟨"2","Ben",""⟩ ⟨"g"⟩ 0 7 {transaction := false}).AllOrNone "2" "g" ∧
      ¬ OnlyDecided "2" world (world.reject ⟨"g"⟩ 0 {recorded := false,status := some 500}) := by
  constructor
  · rintro (⟨_,document,_⟩ | ⟨outside,_⟩)
    · exact document rfl
    · exact outside ⟨_,rfl,⟨"2","Ben","",false⟩,by decide,rfl⟩
  · exact fun only => absurd (only ⟨"g"⟩ (by decide)) List.not_mem_nil

end World

end Neuro.GroupDecision
