import Mathlib.Logic.Basic

/-! The 1:1 chat screen after `readLocal`: what it was opened with, the entry
points that open it, and the maps `onSendMessage` builds from it. -/
namespace Neuro.ChatScreen

/-- The object an inbox row, a match or a push payload stands for. Durations are
in whole seconds. -/
structure MessageUser where
  id : String
  photoUrl : String
  nickname : String
  message : Option String := none
  time : Option Int := none
  type : Option String := none
  count : String := ""
  nudgeReceiver : Option Int := none
  nudgeSender : Option Int := none
  isNudgeSent : Bool := false
  deriving DecidableEq, Repr

structure RouteArgument where
  isMatches : Option Bool := none
  userChat : MessageUser
  deriving DecidableEq, Repr

def RouteArgument.ofMatch (id image name : String) : RouteArgument where
  isMatches := some true
  userChat := ⟨id,image,name,none,none,none,"",none,none,false⟩

def RouteArgument.ofInboxRow (data : MessageUser) : RouteArgument where
  userChat := data

/-- A tapped push notification: the three fields of its `userObject`. -/
def RouteArgument.ofNotification (id photoUrl nickname : String) : RouteArgument where
  userChat := ⟨id,photoUrl,nickname,none,none,none,"",none,none,false⟩

structure Account where
  id : String
  name : String
  image : String
  deriving DecidableEq, Repr

structure Screen where
  routeArgument : RouteArgument
  account : Account
  groupChatId : String
  deriving DecidableEq, Repr

/-- The id of a conversation: the two user ids ordered by their hash codes. -/
def groupChatId (hash : String → Nat) (id peerId : String) : String :=
  if hash id ≤ hash peerId then id ++ "-" ++ peerId else peerId ++ "-" ++ id

def readLocal (hash : String → Nat) (account : Account) (route : RouteArgument) : Screen where
  routeArgument := route
  account := account
  groupChatId := groupChatId hash account.id route.userChat.id

namespace Screen
variable (screen : Screen)

def id : String := screen.account.id
def peerId : String := screen.routeArgument.userChat.id

def matching : Bool := screen.routeArgument.isMatches = some true

/-- `userChat!.nudgeReceiver != null`: the maps replace the documents instead of
being merged into them. -/
def replaces : Bool := screen.routeArgument.userChat.nudgeReceiver.isSome

def matched : Screen :=
  if screen.matching then
    {screen with routeArgument := {screen.routeArgument with isMatches := some false}}
  else screen

@[simp] theorem matched_id : screen.matched.id = screen.id := by
  unfold matched
  split <;> rfl

@[simp] theorem matched_peerId : screen.matched.peerId = screen.peerId := by
  unfold matched
  split <;> rfl

@[simp] theorem matched_replaces : screen.matched.replaces = screen.replaces := by
  unfold matched
  split <;> rfl

@[simp] theorem matched_matching : screen.matched.matching = false := by
  cases set : screen.matching with
  | false => simp only [matched,set,Bool.false_eq_true,if_false]
  | true => simp only [matched,set,if_true]; rfl

end Screen

structure RecentUser where
  idFrom : Option String := none
  idTo : Option String := none
  timestamp : Option Int := none
  content : Option String := none
  type : Option Int := none
  nickname : Option String := none
  photoUrl : Option String := none
  nudgeSender : Option Int := none
  nudgeReceiver : Option Int := none
  isNudgeSent : Option Bool := none
  deriving DecidableEq, Repr

def RecentUser.merge (doc patch : RecentUser) : RecentUser where
  idFrom := patch.idFrom.or doc.idFrom
  idTo := patch.idTo.or doc.idTo
  timestamp := patch.timestamp.or doc.timestamp
  content := patch.content.or doc.content
  type := patch.type.or doc.type
  nickname := patch.nickname.or doc.nickname
  photoUrl := patch.photoUrl.or doc.photoUrl
  nudgeSender := patch.nudgeSender.or doc.nudgeSender
  nudgeReceiver := patch.nudgeReceiver.or doc.nudgeReceiver
  isNudgeSent := patch.isNudgeSent.or doc.isNudgeSent

structure Message where
  content : String
  type : Int
  deriving DecidableEq, Repr

/-- The map written under `messages` and under the sender's `recentusers`; `now`
is the reading for `timestamp` and `nudgeNow` the one for the timer. -/
def mapData (screen : Screen) (message : Message) (now nudgeNow : Int) : RecentUser where
  idFrom := some screen.id
  idTo := some screen.peerId
  timestamp := some now
  content := some message.content
  type := some message.type
  nudgeSender := if screen.matching then some nudgeNow else none
  nickname := some screen.routeArgument.userChat.nickname
  photoUrl := some screen.routeArgument.userChat.photoUrl

def mapDatatoFrom (screen : Screen) (message : Message) (now nudgeNow : Int) : RecentUser where
  idFrom := some screen.id
  idTo := some screen.peerId
  timestamp := some now
  content := some message.content
  type := some message.type
  nickname := some screen.account.name
  photoUrl := some screen.account.image
  nudgeReceiver := if screen.matching then some nudgeNow else none

/-- The characters `String.trim` of the source language removes. -/
def whitespace (c : Char) : Bool :=
  (0x09 ≤ c.toNat && c.toNat ≤ 0x0D) || (0x2000 ≤ c.toNat && c.toNat ≤ 0x200A) ||
    [0x20,0x85,0xA0,0x1680,0x2028,0x2029,0x202F,0x205F,0x3000,0xFEFF].contains c.toNat

def blank (content : String) : Bool := content.toList.all whitespace

def anna : Screen :=
  readLocal String.length ⟨"7","Anna","a.png"⟩ (.ofNotification "12" "b.png" "Ben")

def ben : Screen :=
  readLocal String.length ⟨"12","Ben","b.png"⟩ (.ofNotification "7" "a.png" "Anna")

end Neuro.ChatScreen
