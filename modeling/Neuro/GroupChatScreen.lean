import Neuro.ChatScreen

/-! The group chat screen after `readLocal` and the maps its `onSendMessage`
builds. -/
namespace Neuro.GroupChatScreen
open ChatScreen

structure FirebaseUser where
  id : String
  name : String
  image : String
  isAdmin : Bool
  deriving DecidableEq, Repr

/-- The group a screen was opened with, including the member list of that time. -/
structure GroupUser where
  id : String := ""
  groupName : String := ""
  groupImg : String := ""
  groupTopic : String := ""
  content : String := ""
  type : String := ""
  count : String := ""
  time : Int := 0
  listMember : List FirebaseUser := []
  deriving DecidableEq, Repr

structure Screen where
  groupUser : GroupUser
  account : Account
  deriving DecidableEq, Repr

structure GroupMessage where
  senderID : String
  senderName : String
  senderImage : String
  timestamp : Int
  content : String
  type : Int
  deriving DecidableEq, Repr

def mapData (screen : Screen) (message : Message) (now : Int) : GroupMessage where
  senderID := screen.account.id
  senderName := screen.account.name
  senderImage := screen.account.image
  timestamp := now
  content := message.content
  type := message.type

end Neuro.GroupChatScreen
