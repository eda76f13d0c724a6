import Neuro.InboxEntry
import Neuro.Lib.Pool
import Neuro.Lib.Run

/-! The singleton `FirebaseManager` in one app process: the listeners it opens, the
asynchronous steps their snapshots start, and the two lists these fill, across
logins and logouts. -/
namespace Neuro.FirebaseManager
open Neuro.Lib ChatScreen GroupChatScreen InboxEntry

/-- A listener on `recentusers/<owner>/<owner>` or `recentgroups/<owner>/<owner>`.
Nothing cancels it. -/
inductive Listener
  | users (owner : String)
  | groups (owner : String)
  deriving DecidableEq, Repr

def Listener.owner : Listener → String
  | .users owner | .groups owner => owner

/-- A step that awaits the preferences or a query. The ones a snapshot has started
carry the owner of its collection. -/
inductive Task
  | userSociallogin
  | getUserList
  | getGroupList
  | element (owner : String) (doc : RecentUser)
  | unread (owner currentUserId : String) (doc : RecentUser)
  | setListGroup (owner : String) (docs : List RecentGroup)
  | unreadGroup (owner groupId : String) (doc : RecentGroup)
  | group (owner groupId count : String) (doc : RecentGroup)
  deriving DecidableEq, Repr

def Task.owner : Task → Option String
  | .userSociallogin | .getUserList | .getGroupList => none
  | .element owner _ | .unread owner .. | .setListGroup owner _ | .unreadGroup owner ..
  | .group owner .. => some owner

structure Answer where
  now : Int := 0
  unread : List String := []
  group : Option Group := none
  deriving DecidableEq, Repr

/-- A read of `groups/<groupId>` brings the document of this group or none. -/
def Answer.answers (answer : Answer) : Task → Bool
  | .group _ groupId .. => answer.group.all fun group => group.id = groupId
  | .userSociallogin | .getUserList | .getGroupList | .element .. | .unread .. | .setListGroup ..
  | .unreadGroup .. => true

structure Row (D : Type) where
  owner : String
  data : D
  deriving DecidableEq, Repr

/-- `userId` is blank when the preferences hold none, `marks` are the read marks
among them. `added` is a history of the rows added: the owner of the document and
the user logged in at that time. -/
structure Device where
  zone : Int := 0
  userId : String := ""
  marks : List (String × Int) := []
  listUser : List (Row MessageUser) := []
  listGroup : List (Row GroupUser) := []
  listeners : List Listener := []
  tasks : List Task := []
  added : List (String × String) := []
  deriving DecidableEq, Repr

inductive Action
  | appStart
  /-- `userLogin` and `userRegister`, once the server has accepted. -/
  | login (userId : String)
  | userSociallogin (userId : String)
  /-- `logout` and `deleteaccount`: the preferences are cleared. -/
  | logout
  | openChat (peerId : String) (now : Int)
  | snapshotUsers (listener : Nat) (docs : List RecentUser)
  | snapshotGroups (listener : Nat) (docs : List RecentGroup)
  | resume (task : Nat) (answer : Answer)
  deriving DecidableEq, Repr

namespace Device
variable (s : Device)

/-- A process starts with what the preferences have kept. -/
def started (zone : Int) (userId : String) (marks : List (String × Int)) : Device where
  zone := zone
  userId := userId
  marks := marks

def containsKey (key : String) : Bool := s.marks.any fun mark => mark.1 = key

def await (tasks : List Task) : Device := {s with tasks := s.tasks ++ tasks}

def addUser (owner : String) : Option MessageUser → Device
  | some data => {s with
    listUser := s.listUser ++ [⟨owner,data⟩]
    added := s.added ++ [(owner,s.userId)]}
  | none => s

def addGroup (owner : String) : Option GroupUser → Device
  | some data => {s with
    listGroup := s.listGroup ++ [⟨owner,data⟩]
    added := s.added ++ [(owner,s.userId)]}
  | none => s

/-- The loop of `setListGroup`; a document without `groupId` ends it. -/
def groupTasks (owner : String) : List RecentGroup → List Task
  | [] => []
  | doc :: rest => match doc.groupId with
    | none => []
    | some groupId =>
      (if s.containsKey groupId then .unreadGroup owner groupId doc
        else .group owner groupId "" doc) :: groupTasks owner rest

/-- The continuation of a step. The current user is read again in most of them. -/
def continued (answer : Answer) : Task → Device
  | .userSociallogin => s.await [.getUserList]
  | .getUserList =>
    if s.userId = "" then s.await [.getGroupList]
    else {s.await [.getGroupList] with listeners := s.listeners ++ [.users s.userId]}
  | .getGroupList =>
    if s.userId = "" then s
    else {s with listeners := s.listeners ++ [.groups s.userId]}
  | .element owner doc =>
    if s.containsKey (peerId s.userId doc) then s.await [.unread owner s.userId doc]
    else s.addUser owner (messageUser s.zone answer.now s.userId "" doc)
  | .unread owner currentUserId doc => s.addUser owner
    (messageUser s.zone answer.now currentUserId (unreadCount currentUserId answer.unread) doc)
  | .setListGroup owner docs => s.await (s.groupTasks owner docs)
  | .unreadGroup owner groupId doc =>
    s.await [.group owner groupId (unreadCountGroup answer.unread.length) doc]
  | .group owner _ count doc => s.addGroup owner (answer.group.bind (groupUser count doc))

def setList (owner : String) (docs : List RecentUser) : Device :=
  {s with listUser := []}.await (docs.map (.element owner))

def setListGroup (owner : String) (docs : List RecentGroup) : Device :=
  {s with listGroup := []}.await [.setListGroup owner docs]

def step : Action → Option Device
  | .appStart => some (s.await [.getUserList])
  | .login userId => some ({s with userId := userId}.await [.getUserList])
  | .userSociallogin userId => some ({s with userId := userId}.await [.userSociallogin])
  | .logout => some {s with userId := "",marks := []}
  | .openChat peerId now =>
    some {s with marks := (peerId,now) :: s.marks.filter fun mark => mark.1 ≠ peerId}
  | .snapshotUsers listener docs => match s.listeners[listener]? with
    | some (.users owner) => some (s.setList owner docs)
    | _ => none
  | .snapshotGroups listener docs => match s.listeners[listener]? with
    | some (.groups owner) => some (s.setListGroup owner docs)
    | _ => none
  | .resume task answer => s.tasks[task]?.bind fun t => if answer.answers t then
      some ({s with tasks := s.tasks.eraseIdx task}.continued answer t) else none

end Device

theorem resume_cases {s next : Device} {i : Nat} {answer : Answer}
    (stepped : s.step (.resume i answer) = some next) : ∃ t, s.tasks[i]? = some t ∧
      answer.answers t = true ∧ next = Device.continued {s with tasks := s.tasks.eraseIdx i} answer t := by
  obtain ⟨t,found,rest⟩ := Option.bind_eq_some_iff.mp stepped
  split at rest
  next fits => exact ⟨t,found,fits,(Option.some.inj rest).symm⟩
  next => contradiction

end Neuro.FirebaseManager
