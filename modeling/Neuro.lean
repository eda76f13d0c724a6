import Neuro.AccountPrefs
import Neuro.ChatExpiry
import Neuro.ChatUpload
import Neuro.FeedRequests
import Neuro.FirstMessage
import Neuro.GroupDraft
import Neuro.GroupLive
import Neuro.GroupMembers
import Neuro.GroupRecord
import Neuro.GroupRequests
import Neuro.InboxOrder
import Neuro.InboxRebuild
import Neuro.ListRows
import Neuro.LiveMessages
import Neuro.LoadingOverlay
import Neuro.MemberChange
import Neuro.MessageHistory
import Neuro.MessageStore
import Neuro.NeuroDecisions
import Neuro.NotificationSwitch
import Neuro.NudgeAccount
import Neuro.ProductRouting
import Neuro.PurchaseEffects
import Neuro.PushPayload
import Neuro.RegistrationRoute
import Neuro.RowLayout
import Neuro.SwipeQuota
import Neuro.TagRuns
import Neuro.TagSelection
import Neuro.VerificationScreens
import Neuro.VoicePlayer
import Neuro.WrapLines
