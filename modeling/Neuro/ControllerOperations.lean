/-! The operations of the controllers, as far as they touch the loader and `isLoading`.
Any other statement, and any run of them, is `other`; it may throw. -/
namespace Neuro.ControllerOperations

inductive FeedOp
  | getuserProfile
  | getFeeds
  | feedSwipe (isLoad : Bool)
  | reportUser
  deriving DecidableEq, Repr

inductive GroupOp
  | createGroup
  | updateGroup
  | getGroupRequestList
  | acceptReject
  | getGroupList
  | getGroupInfo
  deriving DecidableEq, Repr

inductive HashTagOp
  | getHashTagList
  | addHashtag
  | userRegister
  | editHashtags
  | editNeuroStatus
  | getHashTagList3
  deriving DecidableEq, Repr

/-- `userSocialLogin` is called by the four sign-ins of the login page only. -/
inductive LoginOp
  | signInWithApple
  | signInWithFacebook
  | signInWithGoogle
  | signInWithInstagram
  | userLogin
  | userEmailCheck
  deriving DecidableEq, Repr

inductive MatcheOp
  | refreshList
  | getMatchList
  | removeMatches
  | sendNotifcation
  deriving DecidableEq, Repr

inductive NeuroRequestOp
  | getNeuroRequestList
  | acceptReject
  deriving DecidableEq, Repr

inductive ProfileOp
  | editProfile
  | getProfile
  | updateNotifcationStatus
  | getHashTagList3
  | logout
  | deleteaccount
  | editMode
  | editLocation
  deriving DecidableEq, Repr

inductive SentRequestOp
  | getSentRequestList
  | sendNudgeRequest
  deriving DecidableEq, Repr

inductive UserSelectionOp
  | getFriendList
  | addRemoveUser
  deriving DecidableEq, Repr

inductive VerificationOp
  | passSelfieVerification
  | passFrontIDVerification
  | passBackIDVerification
  deriving DecidableEq, Repr

inductive Op
  | feed (op : FeedOp)
  | group (op : GroupOp)
  | hashTag (op : HashTagOp)
  | login (op : LoginOp)
  | matche (op : MatcheOp)
  | neuroRequest (op : NeuroRequestOp)
  | buyNudge
  | premiumStatus
  | profile (op : ProfileOp)
  | sentRequest (op : SentRequestOp)
  | userSelection (op : UserSelectionOp)
  | verification (op : VerificationOp)
  deriving DecidableEq, Repr

inductive Statement
  /-- `Overlay.of(..).insert(loader)`. -/
  | insert
  /-- `loader.remove()`. -/
  | remove
  /-- `Helper.hideLoader(loader)`. -/
  | hide
  | setLoading (isLoading : Bool)
  | other
  /-- `Future.delayed` with a call of this operation. -/
  | later (op : Op)
  deriving DecidableEq, Repr

/-- What an operation under way waits for: to be entered, its preferences, the two results
of a sign-in, `Helper.isConnect`, the repository, an await inside `then`; or for its
`catchError` or its `whenComplete`. -/
inductive Phase
  | called
  | prefs
  | credential
  | account
  | connectivity
  | answer
  | resumed
  | recover
  | complete
  deriving DecidableEq, Repr

/-- The result waited for: a positive one, a negative one, an exception. -/
inductive Event
  | yes
  | no
  | error
  deriving DecidableEq, Repr

/-- The statements run at one go, what is waited for after them, and the operation that
is called at their end. -/
structure Callback where
  statements : List Statement := []
  next : Option Phase := none
  calls : Option Op := none
  deriving DecidableEq, Repr

abbrev Reaction := Phase → Event → Option Callback

/-- The phase an exception leads to; outside the repository's future it ends the operation. -/
def caught : Phase → Option Phase
  | .answer | .resumed => some .recover
  | .recover => some .complete
  | .called | .prefs | .credential | .account | .connectivity | .complete => none

/-- The shape the operations share. -/
structure Request where
  entry : List Statement := []
  success : List Statement := []
  failure : List Statement := []
  complete : List Statement := []
  offline : List Statement := []

def Request.react (r : Request) : Reaction
  | .called,.yes => some {statements := r.entry, next := some .connectivity}
  | .connectivity,.yes => some {next := some .answer}
  | .connectivity,.no => some {statements := r.offline}
  | .connectivity,.error => some {}
  | .answer,.yes | .answer,.no => some {statements := r.success, next := some .complete}
  | .answer,.error => some {next := some .recover}
  | .recover,.yes => some {statements := r.failure, next := some .complete}
  | .complete,.yes => some {statements := r.complete}
  | _,_ => none

/-- The operations that show the loader and take it down in every branch, at the latest by
the delayed hide. -/
def shows (success failure : List Statement) : Request where
  entry := [.other,.insert]
  success := success
  failure := failure
  complete := [.hide]
  offline := [.remove,.other]

/-- The operations that load a list without showing the loader. -/
def loads : Request where
  entry := [.setLoading true,.other]
  success := [.other,.setLoading false,.other]
  failure := [.setLoading false,.other]
  offline := [.setLoading false,.other]

def loadsShowing : Request where
  entry := [.setLoading true,.other,.insert]
  success := [.other,.setLoading false,.other,.remove]
  failure := [.setLoading false,.other]
  complete := [.hide]
  offline := [.setLoading false,.other,.remove,.other]

namespace FeedController

def getuserProfile : Reaction := Request.react
  {success := [.other], failure := [.other], offline := [.other]}

def getFeeds : Reaction := Request.react {
  entry := [.setLoading true,.other]
  success := [.other,.setLoading false,.other]
  failure := [.setLoading false,.other]
  offline := [.setLoading true,.other]}

/-- The answer is `isNext`: without a next feed the premium page is pushed and awaited. -/
def feedSwipe (isLoad : Bool) : Reaction
  | .answer,.no => some {
      statements := .other :: (if isLoad then [.remove] else []) ++ [.other]
      next := some .resumed}
  | .resumed,.yes => some {next := some .complete, calls := some (.feed .getFeeds)}
  | .resumed,.no => some {next := some .complete}
  | .resumed,.error => some {next := some .recover}
  | phase,event => Request.react {
      entry := if isLoad then [.other,.insert] else []
      success := .other :: if isLoad then [.remove] else []
      failure := (if isLoad then [.remove] else []) ++ [.other]
      complete := if isLoad then [.hide] else []
      offline := [.other]} phase event

def reportUser : Reaction := Request.react {
  entry := [.other,.insert]
  success := [.other,.remove]
  failure := [.remove,.other]
  complete := [.hide]
  offline := [.other]}

end FeedController

namespace GroupController

def createGroup : Reaction := Request.react (shows [.remove,.other] [.other])

def updateGroup : Reaction := Request.react (shows [.remove,.other] [.other])

def getGroupRequestList : Reaction := Request.react loads

def acceptReject : Reaction := Request.react (shows [.remove,.other] [])

def getGroupList : Reaction := Request.react loadsShowing

def getGroupInfo : Reaction := Request.react loadsShowing

end GroupController

namespace HashTagController

def getHashTagList : Reaction := Request.react (shows [.other,.remove] [.other])

def addHashtag : Reaction := Request.react (shows [.other,.remove] [.other])

def userRegister : Reaction := Request.react (shows [.other,.remove] [.other])

def editHashtags : Reaction := Request.react (shows [.remove,.other] [.other])

def editNeuroStatus : Reaction := Request.react (shows [.remove,.other] [.other])

def getHashTagList3 : Reaction := Request.react (shows [.other,.remove] [.other])

end HashTagController

namespace LoginController

def userLogin : Reaction := Request.react (shows [.other,.remove] [.other])

def userEmailCheck : Reaction := Request.react (shows [.other,.remove] [.other])

/-- The insert is commented out here: the page has shown the loader. -/
def userSocialLogin : Reaction := Request.react {
  success := [.other,.remove]
  failure := [.other]
  complete := [.hide]
  offline := [.remove,.other]}

/-- The page shows the loader, then calls `signInWithApple`, then `userSocialLogin`. -/
def signInWithApple : Reaction
  | .called,.yes => some {statements := [.other,.insert], next := some .credential}
  | .credential,.yes => some {next := some .account}
  | .credential,.no | .credential,.error => some {statements := [.remove,.hide]}
  | .account,.yes => some {statements := [.other], next := some .connectivity}
  | .account,.error => some {}
  | phase,event => userSocialLogin phase event

/-- An exception anywhere in `signInWithFacebook` is caught and gives null. -/
def signInWithFacebook : Reaction
  | .called,.yes => some {statements := [.other,.insert], next := some .credential}
  | .credential,.yes => some {statements := [.other], next := some .connectivity}
  | .credential,.no => some {statements := [.remove,.hide]}
  | phase,event => userSocialLogin phase event

/-- Only a cancelled `signIn` is handled, not one that throws. -/
def signInWithGoogle : Reaction
  | .called,.yes => some {statements := [.other,.insert], next := some .credential}
  | .credential,.yes => some {next := some .account}
  | .credential,.no => some {statements := [.remove,.hide]}
  | .credential,.error => some {}
  | .account,.yes => some {statements := [.other], next := some .connectivity}
  | .account,.error => some {}
  | phase,event => userSocialLogin phase event

/-- The page signs in by itself before it shows the loader. -/
def signInWithInstagram : Reaction
  | .called,.yes => some {statements := [.other,.insert,.other], next := some .connectivity}
  | phase,event => userSocialLogin phase event

end LoginController

namespace MatcheController

def getMatchList : Reaction := Request.react {
  entry := [.setLoading true,.other]
  success := [.other,.setLoading false,.other]
  failure := [.setLoading false,.other]
  complete := [.setLoading false,.other]
  offline := [.other]}

/-- `isLoading` is set, then `getMatchList` called. -/
def refreshList : Reaction
  | .called,.yes => some {
      statements := [.setLoading true,.other,.setLoading true,.other]
      next := some .connectivity}
  | phase,event => getMatchList phase event

/-- The offline branch removes a loader that the operation has not inserted. -/
def removeMatches : Reaction := Request.react {offline := [.remove,.other]}

def sendNotifcation : Reaction := Request.react {offline := [.other]}

end MatcheController

namespace NeuroRequestController

def getNeuroRequestList : Reaction := Request.react loads

def acceptReject : Reaction := Request.react {
  entry := [.other,.insert]
  success := [.remove,.other]
  complete := [.hide,.other]
  offline := [.remove,.other]}

end NeuroRequestController

namespace NudgeController

def buyNudge : Reaction := Request.react (shows [.other,.remove] [])

end NudgeController

namespace PrimeController

def premiumStatus : Reaction := Request.react {success := [.other], offline := [.other]}

end PrimeController

namespace ProfileController

def editProfile : Reaction := Request.react (shows [.remove,.other] [.other])

def getProfile : Reaction
  | .called,.yes => some {next := some .prefs}
  | .prefs,.yes => some {statements := [.other], next := some .connectivity}
  | .prefs,.error => some {}
  | phase,event => Request.react
    {success := [.other], failure := [.other], offline := [.other]} phase event

def updateNotifcationStatus : Reaction := Request.react
  {failure := [.other], offline := [.other]}

def getHashTagList3 : Reaction := Request.react (shows [.other,.remove] [.other])

/-- The preferences are fetched after the insert and cleared after the removal. -/
def logout : Reaction
  | .called,.yes => some {statements := [.other,.insert], next := some .prefs}
  | .prefs,.yes => some {next := some .connectivity}
  | .prefs,.error => some {}
  | .answer,.yes | .answer,.no => some {statements := [.remove], next := some .resumed}
  | .resumed,.yes => some {statements := [.other], next := some .complete}
  | .resumed,.error => some {next := some .recover}
  | phase,event => Request.react {
      failure := [.other]
      complete := [.hide]
      offline := [.remove,.other]} phase event

def deleteaccount : Reaction := logout

def editMode : Reaction := Request.react (shows [.other,.remove] [.other])

def editLocation : Reaction := Request.react (shows [.other,.remove] [.other])

end ProfileController

namespace SentRequestController

def getSentRequestList : Reaction := Request.react loads

/-- Online nothing takes the loader down: `loader.remove()` is commented out. -/
def sendNudgeRequest : Reaction := Request.react {
  entry := [.other,.insert]
  complete := [.setLoading true,.other,.later (.sentRequest .getSentRequestList)]
  offline := [.setLoading false,.other,.remove,.other]}

end SentRequestController

namespace UserSelectionController

def getFriendList : Reaction := Request.react {
  entry := [.setLoading true,.other,.insert]
  success := [.other,.setLoading false,.other,.remove]
  failure := [.setLoading false,.other]
  complete := [.setLoading false,.other,.hide]
  offline := [.remove,.other]}

/-- `isLoading` is set and never reset. -/
def addRemoveUser : Reaction := Request.react {
  entry := [.setLoading true,.other,.insert]
  success := [.remove]
  failure := [.other]
  complete := [.hide]
  offline := [.remove,.other]}

end UserSelectionController

namespace VerificationController

def passSelfieVerification : Reaction := Request.react {failure := [.other], offline := [.other]}

def passFrontIDVerification : Reaction := Request.react {failure := [.other], offline := [.other]}

def passBackIDVerification : Reaction := Request.react (shows [.remove,.other] [.other])

end VerificationController

namespace Op

def react : Op → Reaction
  | .feed op => match op with
    | .getuserProfile => FeedController.getuserProfile
    | .getFeeds => FeedController.getFeeds
    | .feedSwipe isLoad => FeedController.feedSwipe isLoad
    | .reportUser => FeedController.reportUser
  | .group op => match op with
    | .createGroup => GroupController.createGroup
    | .updateGroup => GroupController.updateGroup
    | .getGroupRequestList => GroupController.getGroupRequestList
    | .acceptReject => GroupController.acceptReject
    | .getGroupList => GroupController.getGroupList
    | .getGroupInfo => GroupController.getGroupInfo
  | .hashTag op => match op with
    | .getHashTagList => HashTagController.getHashTagList
    | .addHashtag => HashTagController.addHashtag
    | .userRegister => HashTagController.userRegister
    | .editHashtags => HashTagController.editHashtags
    | .editNeuroStatus => HashTagController.editNeuroStatus
    | .getHashTagList3 => HashTagController.getHashTagList3
  | .login op => match op with
    | .signInWithApple => LoginController.signInWithApple
    | .signInWithFacebook => LoginController.signInWithFacebook
    | .signInWithGoogle => LoginController.signInWithGoogle
    | .signInWithInstagram => LoginController.signInWithInstagram
    | .userLogin => LoginController.userLogin
    | .userEmailCheck => LoginController.userEmailCheck
  | .matche op => match op with
    | .refreshList => MatcheController.refreshList
    | .getMatchList => MatcheController.getMatchList
    | .removeMatches => MatcheController.removeMatches
    | .sendNotifcation => MatcheController.sendNotifcation
  | .neuroRequest op => match op with
    | .getNeuroRequestList => NeuroRequestController.getNeuroRequestList
    | .acceptReject => NeuroRequestController.acceptReject
  | .buyNudge => NudgeController.buyNudge
  | .premiumStatus => PrimeController.premiumStatus
  | .profile op => match op with
    | .editProfile => ProfileController.editProfile
    | .getProfile => ProfileController.getProfile
    | .updateNotifcationStatus => ProfileController.updateNotifcationStatus
    | .getHashTagList3 => ProfileController.getHashTagList3
    | .logout => ProfileController.logout
    | .deleteaccount => ProfileController.deleteaccount
    | .editMode => ProfileController.editMode
    | .editLocation => ProfileController.editLocation
  | .sentRequest op => match op with
    | .getSentRequestList => SentRequestController.getSentRequestList
    | .sendNudgeRequest => SentRequestController.sendNudgeRequest
  | .userSelection op => match op with
    | .getFriendList => UserSelectionController.getFriendList
    | .addRemoveUser => UserSelectionController.addRemoveUser
  | .verification op => match op with
    | .passSelfieVerification => VerificationController.passSelfieVerification
    | .passFrontIDVerification => VerificationController.passFrontIDVerification
    | .passBackIDVerification => VerificationController.passBackIDVerification

/-- Whether the operation shows the loader. -/
def inserts (op : Op) : Bool :=
  (op.react .called .yes).any (·.statements.contains .insert)

/-- Whether the operation sets `isLoading` when it is called. -/
def loads (op : Op) : Bool :=
  (op.react .called .yes).any (·.statements.contains (.setLoading true))

end Op

/-- A controller as its constructor leaves it: which call it delays is its argument. -/
inductive Controller
  | feed (isFeed : Bool)
  | group
  | hashTag
  | login
  | matche (isCall : Bool)
  | neuroRequest
  | nudge
  | prime
  | profile (isCall : Bool)
  | sentRequest
  | userSelection
  | verification
  deriving DecidableEq, Repr

namespace Controller

def runs : Controller → Op → Bool
  | .feed _,.feed _ | .group,.group _ | .hashTag,.hashTag _ | .login,.login _ => true
  | .matche _,.matche _ | .neuroRequest,.neuroRequest _ | .nudge,.buyNudge => true
  | .prime,.premiumStatus | .profile _,.profile _ | .sentRequest,.sentRequest _ => true
  | .userSelection,.userSelection _ | .verification,.verification _ => true
  | _,_ => false

/-- Whether the constructor assigns `loader`; in `HashTagController` it is commented out. -/
def loader : Controller → Bool
  | .hashTag => false
  | _ => true

/-- The initial value of `isLoading`; false also where there is no such field. -/
def isLoading : Controller → Bool
  | .feed _ | .group | .matche _ | .neuroRequest | .sentRequest | .userSelection => true
  | _ => false

def delayed : Controller → List Op
  | .feed true => [.feed .getFeeds]
  | .matche true => [.matche .getMatchList]
  | .profile true => [.profile .getProfile]
  | _ => []

end Controller

end Neuro.ControllerOperations
