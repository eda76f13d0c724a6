import Neuro.UserSelection
import Neuro.GroupChatScreen

/-! Adding and removing members on the selection screen of a group. The handler of a row
reads `list_data[index]` again after each of its awaits, and all requests to the server
are encoded from one shared object. -/
namespace Neuro.MemberChange
open Neuro.Lib UserSelection
open GroupChatScreen (FirebaseUser)

/-- `toMapAddRemove`; a member is removed by `"1"` and added by `"0"`. -/
structure AddRemove where
  groupId : String := ""
  memberId : String := ""
  isAdd : String := ""
  deriving DecidableEq, Repr

inductive Effect
  | arrayRemove (groupId : String) (dataDelete : FirebaseUser)
  | deleteRecent (userId groupId : String)
  | post (body : AddRemove)
  deriving DecidableEq, Repr

/-- What the handler awaits. `failed` ends it where an await throws or the device is
offline, `outOfRange` where the index is. -/
inductive Stage
  | updating (index : Nat)
  | deleting (index : Nat)
  | connecting
  | loadingPrefs
  | posted
  | failed
  | outOfRange
  deriving DecidableEq, Repr

/-- The body of the request is still to be encoded from the shared object. -/
def Stage.unposted : Stage → Bool
  | .connecting | .loadingPrefs => true
  | .updating _ | .deleting _ | .posted | .failed | .outOfRange => false

/-- A tap on the button of `user`, which shows "Remove" or "Add", and what it has issued. -/
structure Tap where
  user : FriendUser
  removes : Bool
  stage : Stage
  effects : List Effect := []
  deriving DecidableEq, Repr

structure Screen where
  lists : Lists := {}
  groupId : String
  isFromEdit : Bool := true
  addRemoveSendData : AddRemove := {}
  taps : List Tap := []
  deriving DecidableEq, Repr

inductive Action
  | onSearchTextChanged (text : String)
  | loaded (value listUser : List FriendUser)
  | onTap (index : Nat)
  | resume (tap : Nat) (ok : Bool)
  deriving DecidableEq, Repr

def dataDelete (user : FriendUser) : FirebaseUser := ⟨user.id,user.name,user.profileImg,user.admin⟩

def sendData (groupId : String) (user : FriendUser) (removes : Bool) : AddRemove :=
  ⟨groupId,user.id,if removes then "1" else "0"⟩

namespace Tap
variable (tap : Tap)

def toStage (stage : Stage) : Tap := {tap with stage := stage}

def issue (effect : Effect) (stage : Stage) : Tap :=
  {tap with effects := tap.effects ++ [effect],stage := stage}

def removal (groupId : String) : List Effect :=
  if tap.removes then [.arrayRemove groupId (dataDelete tap.user),.deleteRecent tap.user.id groupId]
  else []

def expected (groupId : String) : List Effect :=
  tap.removal groupId ++ [.post (sendData groupId tap.user tap.removes)]

end Tap

section Step
variable (toLowerCase toUpperCase : String → String)

namespace Screen
variable (s : Screen)

def started (friend : FriendUser) (index : Nat) : Screen :=
  if s.isFromEdit then
    if friend.isSelected then
      {s with taps := s.taps ++ [⟨friend,true,.updating index,
        [.arrayRemove s.groupId (dataDelete friend)]⟩]}
    else {s with
      addRemoveSendData := sendData s.groupId friend false
      taps := s.taps ++ [⟨friend,false,.connecting,[]⟩]}
  else s

def put (i : Nat) (tap : Tap) : Screen := {s with taps := s.taps.set i tap}

def continued (i : Nat) (tap : Tap) : Option Screen :=
  match tap.stage with
  | .updating index => some <| match s.lists.friendAt index with
    | some friend => s.put i (tap.issue (.deleteRecent friend.id s.groupId) (.deleting index))
    | none => s.put i (tap.toStage .outOfRange)
  | .deleting index => some <| match s.lists.friendAt index with
    | some friend => {s.put i (tap.toStage .connecting) with
      addRemoveSendData := sendData s.groupId friend true}
    | none => s.put i (tap.toStage .outOfRange)
  | .connecting => some (s.put i (tap.toStage .loadingPrefs))
  | .loadingPrefs => some (s.put i (tap.issue (.post s.addRemoveSendData) .posted))
  | .posted | .failed | .outOfRange => none

def step (s : Screen) : Action → Option Screen
  | .onSearchTextChanged text =>
    some {s with lists := s.lists.onSearchTextChanged toLowerCase text}
  | .loaded value listUser => some {s with lists := .loaded toUpperCase value listUser}
  | .onTap index => do
    let friend ← s.lists.friendAt index
    let lists ← s.lists.onTap index
    return {s with lists := lists}.started friend index
  | .resume i ok => s.taps[i]?.bind fun tap =>
    if ok then s.continued i tap
    else if tap.stage ∈ [.posted,.failed,.outOfRange] then none
    else some (s.put i (tap.toStage .failed))

end Screen
end Step

/-- Everything the tap has issued concerns its user and is the action of its button, each
at most once, and once when it is through; no index has gone out of range. -/
structure Right (groupId : String) (tap : Tap) : Prop where
  inRange : tap.stage ≠ .outOfRange
  issued : tap.effects <+: tap.expected groupId
  posted : tap.stage = .posted → tap.effects = tap.expected groupId

/-- No body is on its way to be encoded from the shared object. -/
def Unshared (s : Screen) : Prop := ∀ tap ∈ s.taps, tap.stage.unposted = false

/-- Where the handler reads the row again, this still shows the user of the tap; and the shared
object is written only when no other tap has still to encode it. -/
def Ready (s : Screen) (tap : Tap) : Stage → Prop
  | .updating index => ∃ friend ∈ s.lists.friendAt index, friend.id = tap.user.id
  | .deleting index => (∃ friend ∈ s.lists.friendAt index, friend.id = tap.user.id) ∧ Unshared s
  | .connecting | .loadingPrefs | .posted | .failed | .outOfRange => True

def Undisturbed (s : Screen) : Action → Prop
  | .onTap index => s.isFromEdit = true →
    ∀ friend ∈ s.lists.friendAt index, friend.isSelected = false → Unshared s
  | .resume i true => ∀ tap ∈ s.taps[i]?, Ready s tap tap.stage
  | .resume _ false | .onSearchTextChanged _ | .loaded .. => True

instance (s : Screen) : Decidable (Unshared s) := inferInstanceAs (Decidable (∀ _ ∈ _, _))

instance (s : Screen) (tap : Tap) : ∀ stage, Decidable (Ready s tap stage)
  | .updating _ => inferInstanceAs (Decidable (∃ _ ∈ _, _ = _))
  | .deleting _ => inferInstanceAs (Decidable ((∃ _ ∈ _, _ = _) ∧ _))
  | .connecting | .loadingPrefs | .posted | .failed | .outOfRange =>
    inferInstanceAs (Decidable True)

instance (s : Screen) : ∀ a, Decidable (Undisturbed s a)
  | .onTap _ => inferInstanceAs (Decidable (_ → ∀ _ ∈ _, _ → _))
  | .resume _ true => inferInstanceAs (Decidable (∀ _ ∈ _, _))
  | .resume _ false | .onSearchTextChanged _ | .loaded .. => inferInstanceAs (Decidable True)

instance (groupId : String) (tap : Tap) : Decidable (Right groupId tap) :=
  decidable_of_iff (tap.stage ≠ .outOfRange ∧ tap.effects <+: tap.expected groupId ∧
      (tap.stage = .posted → tap.effects = tap.expected groupId))
    ⟨fun ⟨inRange,issued,posted⟩ => ⟨inRange,issued,posted⟩,
      fun ⟨inRange,issued,posted⟩ => ⟨inRange,issued,posted⟩⟩

/-- What a tap has issued at each of its awaits. -/
def Issued (groupId : String) (tap : Tap) : Stage → Prop
  | .updating _ => tap.removes = true ∧ tap.effects = [.arrayRemove groupId (dataDelete tap.user)]
  | .deleting _ => tap.removes = true ∧ tap.effects = tap.removal groupId
  | .connecting | .loadingPrefs => tap.effects = tap.removal groupId
  | .posted => tap.effects = tap.expected groupId
  | .failed => tap.effects <+: tap.expected groupId
  | .outOfRange => False

def Kept (groupId : String) (tap : Tap) : Prop := Issued groupId tap tap.stage

theorem removal_expected (tap : Tap) (groupId : String) :
    tap.removal groupId <+: tap.expected groupId := List.prefix_append _ _

theorem Kept.right {groupId : String} {tap : Tap} (kept : Kept groupId tap) :
    Right groupId tap := by
  unfold Kept at kept
  cases stage : tap.stage with
  | updating index =>
    rw [stage] at kept
    obtain ⟨removes,issued⟩ := kept
    have first : tap.effects <+: tap.removal groupId := by
      rw [issued,Tap.removal,if_pos removes]
      exact List.prefix_append [_] [_]
    exact ⟨by simp [stage],first.trans (removal_expected tap groupId),by simp [stage]⟩
  | deleting index =>
    rw [stage] at kept
    exact ⟨by simp [stage],kept.2 ▸ removal_expected tap groupId,by simp [stage]⟩
  | connecting | loadingPrefs =>
    rw [stage] at kept
    exact ⟨by simp [stage],kept ▸ removal_expected tap groupId,by simp [stage]⟩
  | posted =>
    rw [stage] at kept
    exact ⟨by simp [stage],kept ▸ List.prefix_rfl,fun _ => kept⟩
  | failed =>
    rw [stage] at kept
    exact ⟨by simp [stage],kept,by simp [stage]⟩
  | outOfRange => simp [stage,Issued] at kept

section Resume
variable {s t : Screen} {i : Nat} {tap : Tap}

theorem kept_failed {groupId : String} (kept : Kept groupId tap) :
    Kept groupId (tap.toStage .failed) := kept.right.issued

/-- A body that is still to be encoded is the one of its tap. -/
def Current (s : Screen) (tap : Tap) : Prop :=
  tap.stage.unposted = true → s.addRemoveSendData = sendData s.groupId tap.user tap.removes

theorem Unshared.current {data : AddRemove} (unshared : Unshared s) {tap : Tap}
    (member : tap ∈ s.taps) : Current {s with addRemoveSendData := data} tap := by
  intro waits
  rw [unshared tap member] at waits
  contradiction

theorem kept_continued (kept : Kept s.groupId tap) (current : ∀ tap ∈ s.taps, Current s tap)
    (found : s.taps[i]? = some tap) (ready : Ready s tap tap.stage)
    (continued : s.continued i tap = some t) :
    t.groupId = s.groupId ∧ ∃ next, t.taps = s.taps.set i next ∧ Kept s.groupId next ∧
      ∀ tap ∈ s.taps.set i next, Current t tap := by
  unfold Kept at kept
  have own := current tap (List.mem_of_getElem? found)
  unfold Current at own
  cases stage : tap.stage with
  | updating index =>
    rw [stage] at ready kept
    obtain ⟨friend,shown,same⟩ := ready
    obtain ⟨removes,issued⟩ := kept
    rw [Screen.continued,stage] at continued
    simp only [Option.mem_def.mp shown,Option.some.injEq] at continued
    subst continued
    have removal : tap.effects ++ [.deleteRecent friend.id s.groupId] = tap.removal s.groupId := by
      simp [Tap.removal,removes,issued,same]
    exact ⟨rfl,_,rfl,⟨removes,removal⟩,
      Pool.forall_set current (by simp [Current,Tap.issue,Stage.unposted])⟩
  | deleting index =>
    rw [stage] at ready kept
    obtain ⟨⟨friend,shown,same⟩,unshared⟩ := ready
    rw [Screen.continued,stage] at continued
    simp only [Option.mem_def.mp shown,Option.some.injEq] at continued
    subst continued
    refine ⟨rfl,_,rfl,kept.2,Pool.forall_set (fun tap member => unshared.current member) ?_⟩
    intro _
    simp only [sendData,same,Tap.toStage,kept.1]
    rfl
  | connecting =>
    rw [stage] at kept own
    rw [Screen.continued,stage,Option.some.injEq] at continued
    subst continued
    exact ⟨rfl,_,rfl,kept,Pool.forall_set current fun _ => own rfl⟩
  | loadingPrefs =>
    rw [stage] at kept own
    rw [Screen.continued,stage,Option.some.injEq] at continued
    subst continued
    have all : tap.effects ++ [.post s.addRemoveSendData] = tap.expected s.groupId := by
      rw [kept,own rfl]
      rfl
    exact ⟨rfl,_,rfl,all,Pool.forall_set current (by simp [Current,Tap.issue,Stage.unposted])⟩
  | posted | failed | outOfRange => simp [Screen.continued,stage] at continued

end Resume

section Run
variable {toLowerCase toUpperCase : String → String} {s t : Screen} {a : Action}

structure AllKept (groupId : String) (s : Screen) : Prop where
  group : s.groupId = groupId
  taps : ∀ tap ∈ s.taps, Kept groupId tap
  current : ∀ tap ∈ s.taps, Current s tap

theorem allKept_started {groupId : String} (all : AllKept groupId s) {friend : FriendUser}
    (index : Nat)
    (unshared : s.isFromEdit = true → friend.isSelected = false → Unshared s) :
    AllKept groupId (s.started friend index) := by
  obtain ⟨rfl,taps,current⟩ := all
  unfold Screen.started
  split
  next edit =>
    split
    · refine ⟨rfl,Pool.forall_append taps ⟨rfl,rfl⟩,Pool.forall_append current ?_⟩
      simp [Current,Stage.unposted]
    next unselected =>
      have free := unshared edit (by simpa using unselected)
      refine ⟨rfl,Pool.forall_append taps rfl,Pool.forall_append ?_ fun _ => rfl⟩
      exact fun tap member => free.current member
  · exact ⟨rfl,taps,current⟩

theorem allKept_step {groupId : String} (all : AllKept groupId s) (undisturbed : Undisturbed s a)
    (stepped : s.step toLowerCase toUpperCase a = some t) : AllKept groupId t := by
  cases a with
  | onSearchTextChanged text =>
    cases Option.some.inj stepped
    exact ⟨all.group,all.taps,all.current⟩
  | loaded value listUser =>
    cases Option.some.inj stepped
    exact ⟨all.group,all.taps,all.current⟩
  | onTap index =>
    obtain ⟨friend,shown,rest⟩ := Option.bind_eq_some_iff.mp stepped
    obtain ⟨lists,_,rest⟩ := Option.bind_eq_some_iff.mp rest
    cases Option.some.inj rest
    have kept : AllKept groupId {s with lists := lists} := ⟨all.group,all.taps,all.current⟩
    exact allKept_started kept index fun edit unselected =>
      undisturbed edit friend shown unselected
  | resume i ok =>
    obtain ⟨tap,found,taken⟩ := Option.bind_eq_some_iff.mp stepped
    obtain ⟨rfl,taps,current⟩ := all
    have kept := taps tap (List.mem_of_getElem? found)
    cases ok with
    | true =>
      obtain ⟨same,next,listed,keeps,currents⟩ :=
        kept_continued kept current found (undisturbed tap found) taken
      exact ⟨same,listed ▸ Pool.forall_set taps keeps,listed ▸ currents⟩
    | false =>
      simp only [Bool.false_eq_true,if_false] at taken
      split at taken
      · contradiction
      · cases Option.some.inj taken
        exact ⟨rfl,Pool.forall_set taps (kept_failed kept),
          Pool.forall_set current (by simp [Current,Tap.toStage,Stage.unposted])⟩

/-- In every run in which no handler is disturbed, whatever a tap issues concerns its user,
with the action of its button, and no index goes out of range. -/
theorem change_hits_tapped_user {groupId : String} {isFromEdit : Bool} {as : List Action}
    (run : Run (Screen.step toLowerCase toUpperCase) Undisturbed
      {groupId := groupId,isFromEdit := isFromEdit} as s) : ∀ tap ∈ s.taps, Right groupId tap := by
  have start : AllKept groupId {groupId := groupId,isFromEdit := isFromEdit} :=
    ⟨rfl,by simp,by simp⟩
  have all := run.invariant (AllKept groupId) start fun _ _ _ all undisturbed stepped =>
    allKept_step all undisturbed stepped
  exact fun tap member => (all.taps tap member).right

end Run

theorem change_hits_tapped_user_ben : ∃ s, Run (Screen.step toLower toUpper) Undisturbed
    {groupId := "3"} [.loaded [anna,ben] [ben],.onTap 1,.onSearchTextChanged "n",.resume 0 true,
      .resume 0 true,.resume 0 true,.resume 0 true] s ∧
    s.taps.all (fun tap => tap.stage = .posted) = true ∧ ∀ tap ∈ s.taps, Right "3" tap := by
  have computed : ∃ s, Run (Screen.step toLower toUpper) Undisturbed
      {groupId := "3"} [.loaded [anna,ben] [ben],.onTap 1,.onSearchTextChanged "n",
        .resume 0 true,.resume 0 true,.resume 0 true,.resume 0 true] s ∧
      s.taps.all (fun tap => tap.stage = .posted) = true := Run.exists_of_exec (by decide)
  obtain ⟨s,run,posted⟩ := computed
  exact ⟨s,run,posted,change_hits_tapped_user run⟩

/-- Anna is removed, and a search for Ben puts him in her row before her document is
deleted. -/
theorem search_redirects_removal : ¬ ∀ (toLowerCase toUpperCase : String → String)
    (groupId : String) (isFromEdit : Bool) (as : List Action) (s : Screen),
    Run (Screen.step toLowerCase toUpperCase) anyStep
      {groupId := groupId,isFromEdit := isFromEdit} as s → ∀ tap ∈ s.taps, Right groupId tap := by
  intro claimed
  have computed : ∃ s, Run (Screen.step toLower toUpper) anyStep {groupId := "3"}
      [.loaded [anna,ben] [anna,ben],.onTap 0,.onSearchTextChanged "be",.resume 0 true] s ∧
      ¬ ∀ tap ∈ s.taps, Right "3" tap := Run.exists_of_exec (by decide)
  obtain ⟨s,run,wrong⟩ := computed
  exact wrong (claimed _ _ "3" true _ s run)

end Neuro.MemberChange
