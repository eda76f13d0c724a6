import Neuro.FirebaseManager
import Neuro.Lib.Store

/-! The documents under `recentgroups` and the group documents they name: what
creating a group, accepting a request, removing a member and sending to a group
write, with all their awaits interleaved. -/
namespace Neuro.RecentGroups
open Neuro.Lib GroupChatScreen InboxEntry
open ChatScreen (Account Message blank)
open FirebaseManager (Device Task)

abbrev Path := String × String

inductive Call
  /-- `createGroup` does not await this one. -/
  | setGroup (group : Group)
  /-- The transaction of `createGroup` and of an accepted request. -/
  | setRecent (p : Path)
  | arrayUnion (user : FirebaseUser) (groupId : String)
  | arrayRemove (user : FirebaseUser) (groupId : String)
  | deleteRecent (p : Path)
  | get (p : Path) (mapDataRecent : RecentGroup)
  | update (p : Path) (mapDataRecent : RecentGroup)
  | set (p : Path) (mapDataRecent : RecentGroup)
  deriving DecidableEq, Repr

structure Cloud where
  groups : Store String Group := fun _ => none
  recentgroups : Store Path RecentGroup := fun _ => none
  screens : List Screen := []
  calls : List Call := []

inductive Action
  | createGroup (admin : Account) (groupId groupName groupImg groupTopic : String)
  | acceptRequest (account : Account) (groupId : String)
  | removeMember (member : FirebaseUser) (groupId : String)
  | openGroupChat (screen : Screen)
  | onSendMessage (screen : Nat) (message : Message) (now : Int)
  /-- `shown` is the user in the tapped row when the update of a removal completes, none when the
  list has become shorter. -/
  | resume (call : Nat) (now : Int) (shown : Option String := none)
  | fail (call : Nat)
  deriving DecidableEq, Repr

def joined (groupId : String) (now : Int) : RecentGroup where
  groupId := some groupId
  timestamp := some now
  content := some ""
  type := some 0

def mapDataRecent (message : Message) (now : Int) : RecentGroup where
  timestamp := some now
  content := some message.content
  type := some message.type

namespace Cloud
variable (s : Cloud)

def await (calls : List Call) : Cloud := {s with calls := s.calls ++ calls}

def write (p : Path) (doc : RecentGroup) : Cloud :=
  {s with recentgroups := s.recentgroups.set p doc}

def updateMembers (groupId : String) (members : List FirebaseUser → List FirebaseUser)
    (next : List Call) : Cloud :=
  match s.groups groupId with
  | some group =>
    {s with groups := s.groups.set groupId {group with members := members group.members}}.await next
  | none => s

def continued (now : Int) (shown : Option String) : Call → Cloud
  | .setGroup group => {s with groups := s.groups.set group.id group}
  | .setRecent p => s.write p (joined p.2 now)
  | .arrayUnion user groupId => s.updateMembers groupId
    (fun members => if user ∈ members then members else members ++ [user])
    [.setRecent (user.id,groupId)]
  | .arrayRemove user groupId => s.updateMembers groupId
    (fun members => members.filter (· ≠ user))
    (shown.toList.map fun id => .deleteRecent (id,groupId))
  | .deleteRecent p => {s with recentgroups := s.recentgroups.delete p}
  | .get p map => s.await [if (s.recentgroups p).isSome then .update p map else .set p map]
  | .update p map => match s.recentgroups.update p RecentGroup.merge map with
    | some docs => {s with recentgroups := docs}
    | none => s
  | .set p map => s.write p map

/-- One closure for each member on the list the screen was opened with. -/
def onSendMessage (screen : Screen) (message : Message) (now : Int) : Cloud :=
  if blank message.content then s
  else s.await (screen.groupUser.listMember.map fun element =>
    .get (element.id,screen.groupUser.id) (mapDataRecent message now))

def step : Action → Option Cloud
  | .createGroup admin groupId groupName groupImg groupTopic => some (s.await
    [.setGroup ⟨groupId,groupName,groupImg,groupTopic,[⟨admin.id,admin.name,admin.image,true⟩]⟩,
      .setRecent (admin.id,groupId)])
  | .acceptRequest account groupId =>
    some (s.await [.arrayUnion ⟨account.id,account.name,account.image,false⟩ groupId])
  | .removeMember member groupId => some (s.await [.arrayRemove member groupId])
  | .openGroupChat screen => some {s with screens := s.screens ++ [screen]}
  | .onSendMessage screen message now =>
    s.screens[screen]?.map fun screen => s.onSendMessage screen message now
  | .resume i now shown => s.calls[i]?.map fun call =>
    {s with calls := s.calls.eraseIdx i}.continued now shown call
  | .fail i => s.calls[i]?.map fun _ => {s with calls := s.calls.eraseIdx i}

end Cloud

structure Complete (groupId : String) (doc : RecentGroup) : Prop where
  groupId : doc.groupId = some groupId
  timestamp : doc.timestamp ≠ none
  content : doc.content ≠ none
  type : doc.type ≠ none

def Decodable (s : Cloud) : Prop :=
  ∀ p doc, s.recentgroups p = some doc → Complete p.2 doc

/-- A step of `setListGroup` ends in a row, whatever the preferences hold and however
many messages are unread. -/
def Yields (s : Cloud) (owner : String) : Task → Prop
  | .unreadGroup owned groupId doc | .group owned groupId _ doc => owned = owner ∧
    ∀ (device : Device) (count : String), ∃ group row, s.groups groupId = some group ∧
      device.continued {group := some group} (.group owner groupId count doc) =
        device.addGroup owner (some row)
  | _ => False

/-- For any snapshot of the collection the loop starts one step for each document,
and each of these ends in a row. -/
def Listed (s : Cloud) (userId : String) : Prop :=
  ∀ (device : Device) (docs : List RecentGroup),
    (∀ doc ∈ docs, ∃ groupId, s.recentgroups (userId,groupId) = some doc) →
      (device.groupTasks userId docs).length = docs.length ∧
        ∀ task ∈ device.groupTasks userId docs, Yields s userId task

def finds (s : Cloud) : Call → Bool
  | .get p _ => (s.recentgroups p).isSome
  | .setRecent p => (s.groups p.2).isSome
  | _ => true

/-- The `get` of a send finds the member's document, and the group document has been
written when a new member's document is. -/
def Found (s : Cloud) : Action → Prop
  | .resume i .. => ∀ call ∈ s.calls[i]?, finds s call = true
  | _ => True

instance : ∀ s a, Decidable (Found s a)
  | _,.resume .. => inferInstanceAs (Decidable (∀ _ ∈ _, _))
  | _,.createGroup .. | _,.acceptRequest .. | _,.removeMember .. | _,.openGroupChat _
  | _,.onSendMessage .. | _,.fail _ => inferInstanceAs (Decidable True)

/-- A call that completes a document or leaves it complete. -/
def Harmless : Call → Prop
  | .get _ map | .update _ map => map.groupId = none
  | .set .. => False
  | _ => True

structure Kept (s : Cloud) : Prop where
  complete : ∀ p doc, s.recentgroups p = some doc → Complete p.2 doc ∧ s.groups p.2 ≠ none
  harmless : ∀ call ∈ s.calls, Harmless call

variable {s t : Cloud}

/-- A send starts with the `get`s, or not at all. -/
theorem onSendMessage_gets (s : Cloud) (screen : Screen) (message : Message) (now : Int) :
    ∃ calls, s.onSendMessage screen message now = s.await calls ∧
      ∀ call ∈ calls, ∃ element ∈ screen.groupUser.listMember,
        call = .get (element.id,screen.groupUser.id) (mapDataRecent message now) := by
  unfold Cloud.onSendMessage
  split
  · exact ⟨[],by simp [Cloud.await],by simp⟩
  · refine ⟨_,rfl,fun call member => ?_⟩
    obtain ⟨element,listed,rfl⟩ := List.mem_map.mp member
    exact ⟨element,listed,rfl⟩

theorem complete_joined (groupId : String) (now : Int) : Complete groupId (joined groupId now) :=
  ⟨rfl,by simp [joined],by simp [joined],by simp [joined]⟩

theorem Complete.merge {groupId : String} {doc map : RecentGroup} (complete : Complete groupId doc)
    (kept : map.groupId = none) : Complete groupId (doc.merge map) where
  groupId := by simp [RecentGroup.merge,kept,complete.groupId]
  timestamp := by simp [RecentGroup.merge,complete.timestamp]
  content := by simp [RecentGroup.merge,complete.content]
  type := by simp [RecentGroup.merge,complete.type]

theorem Kept.await {calls : List Call} (kept : Kept s) (new : ∀ call ∈ calls, Harmless call) :
    Kept (s.await calls) where
  complete := kept.complete
  harmless call member := (List.mem_append.mp member).elim (kept.harmless call) (new call)

theorem Kept.write {p : Path} {doc : RecentGroup} (kept : Kept s) (complete : Complete p.2 doc)
    (group : s.groups p.2 ≠ none) : Kept (s.write p doc) where
  complete q other stored := by
    dsimp only [Cloud.write] at stored
    by_cases same : q = p
    · subst same
      rw [Store.set_self] at stored
      exact Option.some.inj stored ▸ ⟨complete,group⟩
    · rw [Store.set_of_ne same] at stored
      exact kept.complete q other stored
  harmless := kept.harmless

theorem Kept.setGroup {groupId : String} {group : Group} (kept : Kept s) :
    Kept {s with groups := s.groups.set groupId group} where
  complete p doc stored := by
    obtain ⟨complete,exist⟩ := kept.complete p doc stored
    refine ⟨complete,?_⟩
    by_cases same : p.2 = groupId
    · simp [same]
    · simpa only [Store.set_of_ne same] using exist
  harmless := kept.harmless

theorem Kept.updateMembers {groupId : String} {members : List FirebaseUser → List FirebaseUser}
    {next : List Call} (kept : Kept s) (harmless : ∀ call ∈ next, Harmless call) :
    Kept (s.updateMembers groupId members next) := by
  unfold Cloud.updateMembers
  split
  · exact Kept.await kept.setGroup harmless
  · exact kept

theorem Kept.continued {now : Int} {shown : Option String} {call : Call} (kept : Kept s)
    (harmless : Harmless call) (found : finds s call = true) :
    Kept (s.continued now shown call) := by
  cases call with
  | setGroup group => exact kept.setGroup
  | setRecent p => exact kept.write (complete_joined p.2 now) (Option.isSome_iff_ne_none.mp found)
  | arrayUnion user groupId =>
    rw [Cloud.continued]
    exact kept.updateMembers (List.forall_mem_singleton.mpr trivial)
  | arrayRemove user groupId =>
    rw [Cloud.continued]
    exact kept.updateMembers (List.forall_mem_map.mpr fun _ _ => trivial)
  | deleteRecent p =>
    refine ⟨fun q doc stored => ?_,kept.harmless⟩
    dsimp only [Cloud.continued] at stored
    by_cases same : q = p
    · simp [same] at stored
    · rw [Store.delete_of_ne same] at stored
      exact kept.complete q doc stored
  | get p map =>
    rw [finds] at found
    rw [Cloud.continued,if_pos found]
    exact kept.await (List.forall_mem_singleton.mpr harmless)
  | update p map =>
    rw [Cloud.continued]
    split
    next docs updated =>
      obtain ⟨doc,stored,rfl⟩ := Store.update_eq_some.mp updated
      obtain ⟨complete,group⟩ := kept.complete p doc stored
      exact kept.write (complete.merge harmless) group
    next => exact kept
  | set => exact harmless.elim

theorem kept_step {a : Action} (kept : Kept s) (found : Found s a) (stepped : s.step a = some t) :
    Kept t := by
  have rest (i : Nat) : Kept {s with calls := s.calls.eraseIdx i} :=
    ⟨kept.complete,fun call member => kept.harmless call (List.mem_of_mem_eraseIdx member)⟩
  cases a with
  | createGroup =>
    cases Option.some.inj stepped
    exact kept.await (by simp [Harmless])
  | acceptRequest | removeMember =>
    cases Option.some.inj stepped
    exact kept.await (by simp [Harmless])
  | openGroupChat =>
    cases Option.some.inj stepped
    exact ⟨kept.complete,kept.harmless⟩
  | onSendMessage index message now =>
    obtain ⟨screen,_,rfl⟩ := Option.map_eq_some_iff.mp stepped
    obtain ⟨calls,sent,gets⟩ := onSendMessage_gets s screen message now
    rw [sent]
    apply kept.await
    intro call member
    obtain ⟨element,_,rfl⟩ := gets call member
    rfl
  | resume i now shown =>
    obtain ⟨call,awaited,rfl⟩ := Option.map_eq_some_iff.mp stepped
    have harmless := kept.harmless call (List.mem_of_getElem? awaited)
    apply (rest i).continued harmless
    have relied := found call awaited
    cases call <;> exact relied
  | fail i =>
    obtain ⟨call,_,rfl⟩ := Option.map_eq_some_iff.mp stepped
    exact rest i

theorem Kept.listed (kept : Kept s) (userId : String) : Listed s userId := by
  intro device docs stored
  induction docs with
  | nil => simp [Device.groupTasks]
  | cons doc later ih =>
    obtain ⟨started,yields⟩ := ih fun other member => stored other (List.mem_cons_of_mem doc member)
    obtain ⟨groupId,held⟩ := stored doc List.mem_cons_self
    obtain ⟨⟨id,timestamp,content,type⟩,exist⟩ := kept.complete _ doc held
    rw [Device.groupTasks,id]
    refine ⟨congrArg (· + 1) started,List.forall_mem_cons.mpr ⟨?_,yields⟩⟩
    obtain ⟨group,present⟩ := Option.ne_none_iff_exists'.mp exist
    obtain ⟨time,timestamp⟩ := Option.ne_none_iff_exists'.mp timestamp
    obtain ⟨text,content⟩ := Option.ne_none_iff_exists'.mp content
    obtain ⟨kind,type⟩ := Option.ne_none_iff_exists'.mp type
    have row (device : Device) (count : String) : ∃ group row, s.groups groupId = some group ∧
        device.continued {group := some group} (.group userId groupId count doc) =
          device.addGroup userId (some row) :=
      ⟨group,_,present,by simp [Device.continued,groupUser,timestamp,content,type]; rfl⟩
    split <;> exact ⟨rfl,row⟩

/-- When every send finds the documents of its members, all inboxes can be listed. -/
theorem inboxes_listed {as : List Action} (run : Run Cloud.step Found {} as s) :
    Decodable s ∧ ∀ userId, Listed s userId := by
  have kept := run.invariant Kept ⟨by simp,by simp⟩ fun _ _ _ => kept_step
  exact ⟨fun p doc stored => (kept.complete p doc stored).1,kept.listed⟩

/-- A document without `groupId` hides itself and all documents after it. -/
theorem groupTasks_stop (device : Device) (owner : String) (before after : List RecentGroup)
    {doc : RecentGroup} (missing : doc.groupId = none) :
    device.groupTasks owner (before ++ doc :: after) = device.groupTasks owner before := by
  induction before with
  | nil => simp [Device.groupTasks,missing]
  | cons first rest ih =>
    cases id : first.groupId with
    | none => simp [Device.groupTasks,id]
    | some groupId => simp [Device.groupTasks,id,ih]

theorem not_listed {p : Path} {doc : RecentGroup} (stored : s.recentgroups p = some doc)
    (missing : doc.groupId = none) : ¬ Decodable s ∧ ¬ Listed s p.1 := by
  constructor
  · intro decodable
    have id := (decodable p doc stored).groupId
    rw [missing] at id
    contradiction
  · intro listed
    have started := (listed {} [doc] (by simpa using ⟨p.2,stored⟩)).1
    simp [Device.groupTasks,missing] at started

/-- The condition on sends is needed: one whose `get` finds no document can leave one
without `groupId`. -/
theorem not_listed_of_absent {i : Nat} {p : Path} {map : RecentGroup}
    (awaited : s.calls[i]? = some (.get p map)) (missing : map.groupId = none)
    (absent : s.recentgroups p = none) : ∃ as t, Run Cloud.step anyStep s as t ∧
      ¬ Decodable t ∧ ¬ Listed t p.1 := by
  have looked : s.step (.resume i 0) =
      some ({s with calls := s.calls.eraseIdx i}.await [.set p map]) := by
    simp [Cloud.step,awaited,Cloud.continued,absent]
  let u : Cloud := {s with calls := s.calls.eraseIdx i}
  have set : (u.await [.set p map]).step (.resume u.calls.length 0) = some (u.write p map) := by
    simp [Cloud.step,Cloud.await,Cloud.continued,Cloud.write,List.eraseIdx_append_of_length_le]
  exact ⟨_,_,.cons trivial looked (.cons trivial set .nil),not_listed (Store.set_self map) missing⟩

def groupChat : Screen where
  groupUser := {id := "g",listMember := [⟨"1","","",true⟩,⟨"2","","",false⟩]}
  account := ⟨"1","",""⟩

def setup : List Action := [.createGroup ⟨"1","",""⟩ "g" "" "" "",.resume 0 0,.resume 0 1,
  .acceptRequest ⟨"2","",""⟩ "g",.resume 0 2,.resume 0 3,.openGroupChat groupChat]

theorem inboxes_listed_sent : ∃ s,
    Run Cloud.step Found {} (setup ++ [.onSendMessage 0 ⟨"hi",0⟩ 4,.resume 0 5,.resume 0 5,
      .resume 0 6,.resume 0 6]) s ∧
      s.recentgroups ("2","g") = some ⟨some "g",some 4,some "hi",some 0⟩ ∧
      Decodable s ∧ Listed s "2" := by
  obtain ⟨s,run,sent⟩ : ∃ s,
      Run Cloud.step Found {} (setup ++ [.onSendMessage 0 ⟨"hi",0⟩ 4,.resume 0 5,.resume 0 5,
        .resume 0 6,.resume 0 6]) s ∧
        s.recentgroups ("2","g") = some ⟨some "g",some 4,some "hi",some 0⟩ :=
    Run.exists_of_exec (by decide)
  obtain ⟨decodable,listed⟩ := inboxes_listed run
  exact ⟨s,run,sent,decodable,listed "2"⟩

/-- User "2" is removed and user "1" goes on with the old list of members. -/
theorem removed_member_unlisted : ∃ s,
    Run Cloud.step anyStep {} (setup ++ [.removeMember ⟨"2","","",false⟩ "g",.resume 0 4 (some "2"),
      .resume 0 5,.onSendMessage 0 ⟨"hi",0⟩ 6,.resume 1 7,.resume 1 8]) s ∧
      ¬ Decodable s ∧ ¬ Listed s "2" := by
  obtain ⟨s,run,sent⟩ : ∃ s,
      Run Cloud.step anyStep {} (setup ++ [.removeMember ⟨"2","","",false⟩ "g",.resume 0 4 (some "2"),
        .resume 0 5,.onSendMessage 0 ⟨"hi",0⟩ 6,.resume 1 7,.resume 1 8]) s ∧
        s.recentgroups ("2","g") = some ⟨none,some 6,some "hi",some 0⟩ :=
    Run.exists_of_exec (by decide)
  exact ⟨s,run,not_listed sent rfl⟩

end Neuro.RecentGroups
