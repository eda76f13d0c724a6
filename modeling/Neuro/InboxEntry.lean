import Neuro.GroupChatScreen

/-! The rows of the two inboxes, built from the documents of `recentusers` and
`recentgroups`. A missing field makes `get` throw and no row is built. -/
namespace Neuro.InboxEntry
open ChatScreen GroupChatScreen

structure RecentGroup where
  groupId : Option String := none
  timestamp : Option Int := none
  content : Option String := none
  type : Option Int := none
  deriving DecidableEq, Repr

def RecentGroup.merge (doc patch : RecentGroup) : RecentGroup where
  groupId := patch.groupId.or doc.groupId
  timestamp := patch.timestamp.or doc.timestamp
  content := patch.content.or doc.content
  type := patch.type.or doc.type

structure Group where
  id : String
  groupName : String
  groupImg : String
  groupTopic : String
  members : List FirebaseUser
  deriving DecidableEq, Repr

/-- The other user of the conversation; blank when a field is missing. -/
def peerId (currentUserId : String) (doc : RecentUser) : String :=
  match doc.idFrom with
  | none => ""
  | some idFrom => if currentUserId = idFrom then doc.idTo.getD "" else idFrom

/-- In seconds. -/
def daysBetween (start finish : Int) (isNudge : Bool) : Int :=
  (if isNudge then 72 else 48) * 3600 - (finish - start)

/-- The current time after its round trip through `yyyy-MM-dd hh:mm:ss`, in seconds:
`hh` reads the hour 12 as 0. `zone` is the offset of the local time. -/
def severDateTime (zone now : Int) : Int :=
  let seconds := now / 1000
  if (seconds + zone) / 3600 % 24 = 12 then seconds - 12 * 3600 else seconds

def timeLeft (zone now : Int) (doc : RecentUser) (createAt : Int) : Int :=
  daysBetween (createAt / 1000) (severDateTime zone now) doc.isNudgeSent.isSome

def messageUser (zone now : Int) (currentUserId count : String) (doc : RecentUser) :
    Option MessageUser := do
  let idFrom ← doc.idFrom
  let id ← if currentUserId = idFrom then doc.idTo else some idFrom
  let photoUrl ← doc.photoUrl
  let nickname ← doc.nickname
  let message ← doc.content
  let time ← doc.timestamp
  let type ← doc.type
  let nudgeReceiver := doc.nudgeReceiver.map (timeLeft zone now doc)
  let nudgeSender := doc.nudgeSender.map (timeLeft zone now doc)
  -- a timer that has run out removes both documents, which reads both ids
  if doc.idTo = none ∧ (nudgeReceiver.any (· < 0) ∨ nudgeSender.any (· < 0)) then none
  else some {
    id := id
    photoUrl := photoUrl
    nickname := nickname
    message := some message
    time := some time
    type := some (toString type)
    count := count
    nudgeReceiver := nudgeReceiver
    nudgeSender := nudgeSender
    isNudgeSent := doc.isNudgeSent.isSome}

/-- The count shown for the messages found after the read mark: none when the first
of them is the user's own. -/
def unreadCount (currentUserId : String) : List String → String
  | [] => ""
  | idFrom :: rest => if idFrom = currentUserId then "" else toString (rest.length + 1)

def unreadCountGroup (found : Nat) : String := if found = 0 then "" else toString found

def groupUser (count : String) (doc : RecentGroup) (group : Group) : Option GroupUser := do
  let time ← doc.timestamp
  let content ← doc.content
  let type ← doc.type
  return {
    id := group.id
    groupName := group.groupName
    groupImg := group.groupImg
    groupTopic := group.groupTopic
    content := content
    type := toString type
    count := count
    time := time
    listMember := group.members}

end Neuro.InboxEntry
