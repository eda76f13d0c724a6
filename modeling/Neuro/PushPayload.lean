import Neuro.GroupChatScreen
import Neuro.Lib.JsonText
import Neuro.OpenChat
import Neuro.RequestRows

/-! The push notification of a message: the object both chat screens send, and what a tap on the
notification makes of it. The service delivers the object as text. -/
namespace Neuro.PushPayload
open Neuro.Lib JsonText OpenChat
open ChatScreen (Account Message MessageUser)
open GroupChatScreen (FirebaseUser GroupUser)
open RequestRows (member)

def FirebaseUser.toJson (user : FirebaseUser) : Json :=
  .map [("id",.string user.id),("name",.string user.name),("image",.string user.image),
    ("isAdmin",.bool user.isAdmin)]

def GroupUser.toJson (group : GroupUser) : Json :=
  .map [("id",.string group.id),("group_name",.string group.groupName),
    ("group_img",.string group.groupImg),("group_topic",.string group.groupTopic),
    ("content",.string group.content),("type",.string group.type),("count",.string group.count),
    ("time",.int group.time),("list_member",.list (group.listMember.map FirebaseUser.toJson))]

def MessageUser.toJson (user : MessageUser) : Json :=
  .map [("id",.string user.id),("nickname",.string user.nickname),
    ("photoUrl",.string user.photoUrl)]

def chatContent (message : Message) : String :=
  if message.type = 0 then message.content
  else if message.type = 1 then "Image"
  else if message.type = 2 then "Voice"
  else ""

/-- The map under `data` once it is delivered, with the text of its object. -/
def data (sender : Account) (message : Message) (status userObject : String) : Json :=
  .map [("title",.string sender.name),("body",.string (chatContent message)),
    ("status",.string status),("click_action",.string "FLUTTER_NOTIFICATION_CLICK"),
    ("userObject",.string userObject)]

/-- A value that is no bool is caught and leaves the default; what is no map throws. -/
def FirebaseUser.fromJSON : Json → Option FirebaseUser
  | .map entries => some {
    id := (member (.map entries) "id").text
    name := (member (.map entries) "name").text
    image := (member (.map entries) "image").text
    isAdmin := (member (.map entries) "isAdmin").asBool.getD false}
  | .null | .bool _ | .int _ | .double _ | .string _ | .list _ => none

def chat (userObject : Json) : Option MessageUser := do
  let id ← userObject.index "id"
  let photoUrl ← userObject.index "photoUrl"
  let nickname ← userObject.index "nickname"
  return (ChatScreen.RouteArgument.ofNotification id.text photoUrl.text nickname.text).userChat

def groupchat (userObject : Json) : Option GroupUser := do
  let id ← (← userObject.index "id").asString
  let groupName ← (← userObject.index "group_name").asString
  let groupImg ← (← userObject.index "group_img").asString
  let groupTopic ← (← userObject.index "group_topic").asString
  let time ← (← userObject.index "time").asInt
  let count ← (← userObject.index "count").asString
  let content ← (← userObject.index "content").asString
  let type ← userObject.index "type"
  let listMember ← (← (← userObject.index "list_member").asList).mapM FirebaseUser.fromJSON
  return {
    id := id
    groupName := groupName
    groupImg := groupImg
    groupTopic := groupTopic
    time := time
    count := count
    content := content
    type := type.text
    listMember := listMember}

inductive Route
  | feedsDetails (isMatches : Bool) (feedId : Option String)
  | firebaseChat (userChat : MessageUser)
  | firebaseGroupChat (groupUser : GroupUser)
  deriving DecidableEq, Repr

def feedId : Json → Option (Option String)
  | .null => some none
  | .string id => some (some id)
  | .bool _ | .int _ | .double _ | .list _ | .map _ => none

section Decode
variable (printed : String → String)

def userObject (payload : Json) : Option Json :=
  (member payload "userObject").asString.bind (decode printed)

/-- The screen that is opened after the frame: none when the chat is open already. The outer
`none` is an exception. -/
def notificationOperation (s : Navigation) (payload : Json) : Option (Option Route) :=
  match (member payload "status").asString with
  | some "request" => (feedId (member payload "id")).map fun id => some (.feedsDetails false id)
  | some "accept" => (feedId (member payload "id")).map fun id => some (.feedsDetails true id)
  | some "chat" => ((userObject printed payload).bind chat).map fun userChat =>
    if s.isInChat ∧ s.chatuserId = userChat.id then none else some (.firebaseChat userChat)
  | some "groupchat" => ((userObject printed payload).bind groupchat).map fun userChat =>
    if s.isInChat ∧ s.chatuserId = userChat.id then none else some (.firebaseGroupChat userChat)
  | _ => some none

end Decode

theorem fromJSON_toJson (user : FirebaseUser) :
    FirebaseUser.fromJSON (FirebaseUser.toJson user) = some user := by
  obtain ⟨id,name,image,isAdmin⟩ := user
  rfl

theorem members_toJson (list : List FirebaseUser) :
    (list.map FirebaseUser.toJson).mapM FirebaseUser.fromJSON = some list := by
  induction list with
  | nil => rfl
  | cons user rest ih => rw [List.map_cons,List.mapM_cons,fromJSON_toJson,ih]; rfl

theorem groupchat_toJson (group : GroupUser) : groupchat (GroupUser.toJson group) = some group := by
  have fields : groupchat (GroupUser.toJson group) =
      ((group.listMember.map FirebaseUser.toJson).mapM FirebaseUser.fromJSON).bind
        fun listMember => some {group with listMember := listMember} := rfl
  rw [fields,members_toJson,Option.bind_some]

/-- A user that comes from a notification has only these three fields. -/
def received (user : MessageUser) : MessageUser :=
  (ChatScreen.RouteArgument.ofNotification user.id user.photoUrl user.nickname).userChat

theorem chat_toJson (user : MessageUser) :
    chat (MessageUser.toJson user) = some (received user) := rfl

variable {printed : String → String} {group : GroupUser} {user : MessageUser}

theorem userObject_data (sender : Account) (message : Message) (status text : String) :
    userObject printed (data sender message status text) = decode printed text := rfl

/-- The object of a delivered notification equals the one that was sent: of a group with all
members, of a user the three fields that are sent. It is what the tap opens. -/
theorem payload_round_trip {groupText userText : String}
    (groupSent : decode printed groupText = some (GroupUser.toJson group))
    (userSent : decode printed userText = some (MessageUser.toJson user)) (sender : Account)
    (message : Message) (s : Navigation) :
    ((userObject printed (data sender message "groupchat" groupText)).bind groupchat = some group ∧
      notificationOperation printed s (data sender message "groupchat" groupText) =
        some (if s.isInChat ∧ s.chatuserId = group.id then none
          else some (.firebaseGroupChat group))) ∧
      ∃ userChat, (userChat.id = user.id ∧ userChat.photoUrl = user.photoUrl ∧
        userChat.nickname = user.nickname) ∧
        (userObject printed (data sender message "chat" userText)).bind chat = some userChat ∧
          notificationOperation printed s (data sender message "chat" userText) =
            some (if s.isInChat ∧ s.chatuserId = user.id then none
              else some (.firebaseChat userChat)) := by
  constructor
  · have built :
        (userObject printed (data sender message "groupchat" groupText)).bind groupchat =
          some group := by
      rw [userObject_data,groupSent,Option.bind_some,groupchat_toJson]
    exact ⟨built,congrArg (Option.map _) built⟩
  · have built :
        (userObject printed (data sender message "chat" userText)).bind chat =
          some (received user) := by
      rw [userObject_data,userSent,Option.bind_some,chat_toJson]
    exact ⟨received user,⟨rfl,rfl,rfl⟩,built,congrArg (Option.map _) built⟩

theorem plain_members (list : List FirebaseUser) : PlainItems (list.map FirebaseUser.toJson) := by
  induction list with
  | nil => trivial
  | cons user rest ih => exact ⟨by simp [FirebaseUser.toJson,Plain,PlainMembers],ih⟩

theorem plain_group (group : GroupUser) : Plain (GroupUser.toJson group) := by
  have members := plain_members group.listMember
  simpa [GroupUser.toJson,Plain,PlainMembers] using members

theorem plain_user (user : MessageUser) : Plain (MessageUser.toJson user) := by
  simp [MessageUser.toJson,Plain,PlainMembers]

def chess : GroupUser where
  id := "7"
  groupName := "CHESS"
  content := "a \"b\""
  type := "0"
  time := 1640995200000
  listMember := [⟨"1","Ann","",true⟩,⟨"2","Bob","b.png",false⟩]

def ann : MessageUser := ⟨"1","a.png","Ann",none,none,none,"",none,none,false⟩

theorem payload_round_trip_chess : notificationOperation id {}
    (data ⟨"1","Ann",""⟩ ⟨"hi",0⟩ "groupchat" (String.ofList (encode (GroupUser.toJson chess)))) =
      some (some (.firebaseGroupChat chess)) := by
  have groupSent : decode id (String.ofList (encode (GroupUser.toJson chess))) =
      some (GroupUser.toJson chess) := decode_encode (plain_group chess)
  have userSent : decode id (String.ofList (encode (MessageUser.toJson ann))) =
      some (MessageUser.toJson ann) := decode_encode (plain_user ann)
  exact (payload_round_trip groupSent userSent ⟨"1","Ann",""⟩ ⟨"hi",0⟩ {}).1.2

end Neuro.PushPayload
