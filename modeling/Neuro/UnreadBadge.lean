import Mathlib
import Neuro.SessionInbox

/-! The unread counts of the two inboxes, beside the number of messages by others
that are newer than the read mark. -/
namespace Neuro.UnreadBadge
open Neuro.Lib ChatScreen InboxEntry FirebaseManager

/-- What the counts read off a stored message: `idFrom` of a 1:1 message, `senderID`
of a group message. -/
structure Posted where
  sender : String
  timestamp : Int
  deriving DecidableEq, Repr

def getInt (s : Device) (key : String) : Option Int :=
  (s.marks.find? fun mark => mark.1 = key).map Prod.snd

/-- `found` answers the query for the messages with a timestamp greater than `mark`. -/
structure IsGreaterThan (mark : Int) (history found : List Posted) : Prop where
  perm : found.Perm (history.filter fun m => mark < m.timestamp)
  ascending : found.Pairwise fun m n => m.timestamp ≤ n.timestamp

/-- The `count` of a row that `setList` adds; without a read mark it makes no query. -/
def setListCount (s : Device) (found : List Posted) (peerId : String) : String :=
  if s.containsKey peerId then unreadCount s.userId (found.map Posted.sender) else ""

def setListGroupCount (s : Device) (found : List Posted) (groupId : String) : String :=
  if s.containsKey groupId then unreadCountGroup found.length else ""

def Unread (currentUserId : String) (mark : Option Int) (m : Posted) : Prop :=
  m.sender ≠ currentUserId ∧ ∀ t ∈ mark, t < m.timestamp

instance (currentUserId : String) (mark : Option Int) (m : Posted) :
    Decidable (Unread currentUserId mark m) :=
  inferInstanceAs (Decidable (_ ∧ ∀ _ ∈ _, _))

/-- What the inbox is to show. -/
def badge (currentUserId : String) (mark : Option Int) (history : List Posted) : String :=
  let unread := (history.filter fun m => Unread currentUserId mark m).length
  if unread = 0 then "" else toString unread

def AllOwn (currentUserId : String) (messages : List Posted) : Prop :=
  ∀ m ∈ messages, m.sender = currentUserId

def NoneOwn (currentUserId : String) (messages : List Posted) : Prop :=
  ∀ m ∈ messages, m.sender ≠ currentUserId

instance (currentUserId : String) (messages : List Posted) :
    Decidable (NoneOwn currentUserId messages) :=
  inferInstanceAs (Decidable (∀ _ ∈ _, _))

/-- There is a read mark and what is newer is not a mixture of own and foreign
messages, or there is none and nobody else has written. -/
def Uniform (currentUserId : String) (mark : Option Int) (history : List Posted) : Prop :=
  match mark with
  | some t => AllOwn currentUserId (history.filter fun m => t < m.timestamp) ∨
    NoneOwn currentUserId (history.filter fun m => t < m.timestamp)
  | none => AllOwn currentUserId history

/-- The same for a group, where own messages are counted. -/
def Foreign (currentUserId : String) (mark : Option Int) (history : List Posted) : Prop :=
  match mark with
  | some t => NoneOwn currentUserId (history.filter fun m => t < m.timestamp)
  | none => AllOwn currentUserId history

variable {s : Device} {history found : List Posted} {user key : String} {mark : Int}

theorem getInt_isSome (s : Device) (key : String) : (getInt s key).isSome = s.containsKey key := by
  unfold getInt Device.containsKey
  rw [Option.isSome_map,List.isSome_find?]

theorem badge_inj {m n : Nat} :
    (if m = 0 then "" else toString m) = (if n = 0 then "" else toString n) ↔ m = n := by
  have shown (k : Nat) : toString k ≠ "" := Nat.repr_ne_empty
  constructor
  · intro same
    split at same <;> split at same
    · omega
    · exact absurd same.symm (shown n)
    · exact absurd same (shown m)
    · exact Nat.repr_injective same
  · rintro rfl
    rfl

/-- The query finds the unread messages and, besides, own ones. -/
theorem IsGreaterThan.unread (answered : IsGreaterThan mark history found) :
    (history.filter fun m => Unread user (some mark) m).length =
      found.countP fun m => m.sender ≠ user := by
  rw [answered.perm.countP_eq,List.countP_filter,List.countP_eq_length_filter]
  congr 1
  apply List.filter_congr
  intro m _
  simp [Unread]

theorem IsGreaterThan.mem (answered : IsGreaterThan mark history found) (m : Posted) :
    m ∈ history.filter (fun m => mark < m.timestamp) ↔ m ∈ found :=
  answered.perm.mem_iff.symm

theorem countP_eq_zero_iff : (found.countP fun m => m.sender ≠ user) = 0 ↔ AllOwn user found := by
  rw [List.countP_eq_zero]
  simp [AllOwn]

theorem countP_eq_length_iff :
    (found.countP fun m => m.sender ≠ user) = found.length ↔ NoneOwn user found := by
  rw [List.countP_eq_length]
  simp [NoneOwn]

theorem unreadCount_iff : unreadCount user (found.map Posted.sender) =
    (if (found.countP fun m => m.sender ≠ user) = 0 then ""
      else toString (found.countP fun m => m.sender ≠ user)) ↔
    AllOwn user found ∨ NoneOwn user found := by
  cases found with
  | nil => simp [AllOwn,unreadCount]
  | cons m rest =>
    rw [List.map_cons,unreadCount]
    by_cases own : m.sender = user
    · -- nothing is counted: right when nobody else has written
      have mixed : ¬ NoneOwn user (m :: rest) := fun none => none m List.mem_cons_self own
      rw [if_pos own,or_iff_left mixed,← countP_eq_zero_iff]
      exact (badge_inj (m := 0)).trans eq_comm
    · have mixed : ¬ AllOwn user (m :: rest) := fun all => own (all m List.mem_cons_self)
      rw [if_neg own,or_iff_right mixed,← countP_eq_length_iff,List.length_map]
      exact (badge_inj (m := rest.length + 1)).trans eq_comm

theorem unreadCountGroup_iff : unreadCountGroup found.length =
    (if (found.countP fun m => m.sender ≠ user) = 0 then ""
      else toString (found.countP fun m => m.sender ≠ user)) ↔ NoneOwn user found := by
  rw [← countP_eq_length_iff]
  exact badge_inj.trans eq_comm

theorem blank_iff : "" = badge user none history ↔ AllOwn user history := by
  rw [← countP_eq_zero_iff,List.countP_eq_length_filter]
  unfold badge
  have same : (history.filter fun m => Unread user none m) =
      history.filter fun m => decide (m.sender ≠ user) := by
    apply List.filter_congr
    intro m _
    simp [Unread]
  rw [same]
  exact (badge_inj (m := 0)).trans eq_comm

/-- The closure of `setList`, with its query answered by `found`, ends in a row with
this count. -/
theorem setList_row (s : Device) (found : List Posted) (owner : String) (doc : RecentUser)
    (now : Int) : ∃ as, Run Device.step anyStep (s.await [.element owner doc]) as
      (s.addUser owner (messageUser s.zone now s.userId
        (setListCount s found (peerId s.userId doc)) doc)) := by
  have resumed := SessionInbox.resume_last s (.element owner doc) {now := now} rfl
  rw [Device.continued] at resumed
  rw [setListCount]
  split at resumed
  next marked =>
    have counted := SessionInbox.resume_last s (.unread owner s.userId doc)
      {now := now,unread := found.map Posted.sender} rfl
    rw [if_pos marked]
    exact ⟨_,.cons trivial resumed (.cons trivial counted .nil)⟩
  next unmarked =>
    rw [if_neg unmarked]
    exact ⟨_,.cons trivial resumed .nil⟩

theorem setListGroup_row (s : Device) (found : List Posted) (owner : String) {doc : RecentGroup}
    {groupId : String} (id : doc.groupId = some groupId) (group : Option Group)
    (own : group.all fun group => group.id = groupId) :
    ∃ as, Run Device.step anyStep (s.await [.setListGroup owner [doc]]) as
      (s.addGroup owner (group.bind (groupUser (setListGroupCount s found groupId) doc))) := by
  have resumed := SessionInbox.resume_last s (.setListGroup owner [doc]) {} rfl
  have added (count : String) :=
    SessionInbox.resume_last s (.group owner groupId count doc) {group := group} own
  rw [Device.continued,Device.groupTasks,id,Device.groupTasks] at resumed
  rw [setListGroupCount]
  dsimp only at resumed
  split at resumed
  next marked =>
    have counted := SessionInbox.resume_last s (.unreadGroup owner groupId doc)
      {unread := found.map Posted.sender} rfl
    rw [Device.continued,List.length_map] at counted
    rw [if_pos marked]
    exact ⟨_,.cons trivial resumed (.cons trivial counted (.cons trivial (added _) .nil))⟩
  next unmarked =>
    rw [if_neg unmarked]
    exact ⟨_,.cons trivial resumed (.cons trivial (added _) .nil)⟩

/-- Exactly when the counts of the two inboxes are the right ones. -/
theorem badge_shown (s : Device) (key : String) (history found : List Posted)
    (answered : ∀ t ∈ getInt s key, IsGreaterThan t history found) :
    (setListCount s found key = badge s.userId (getInt s key) history ↔
      Uniform s.userId (getInt s key) history) ∧
    (setListGroupCount s found key = badge s.userId (getInt s key) history ↔
      Foreign s.userId (getInt s key) history) := by
  have marked := getInt_isSome s key
  rw [setListCount,setListGroupCount,← marked]
  cases mark : getInt s key with
  | none => exact ⟨blank_iff,blank_iff⟩
  | some t =>
    have answer := answered t mark
    have same (p : Posted → Prop) :
        (∀ m ∈ history.filter fun m => t < m.timestamp, p m) ↔ ∀ m ∈ found, p m := by
      simp only [answer.mem]
    rw [badge,answer.unread,Uniform,Foreign,AllOwn,NoneOwn,same,same]
    exact ⟨unreadCount_iff,unreadCountGroup_iff⟩

def device : Device := .started 0 "1" [("2",10)]

def replied : List Posted := [⟨"2",20⟩,⟨"2",30⟩]

theorem isGreaterThan_replied : ∀ t ∈ getInt device "2", IsGreaterThan t replied replied := by
  intro t mark
  cases Option.some.inj (mark.symm.trans (show getInt device "2" = some 10 from by decide))
  exact ⟨by decide,by decide⟩

theorem badge_shown_replied : setListCount device replied "2" = "2" ∧
    badge device.userId (getInt device "2") replied = "2" := by
  have shown : setListCount device replied "2" = "2" := by decide
  have right := (badge_shown device "2" replied replied isGreaterThan_replied).1.mpr
    (.inr (by decide))
  exact ⟨shown,right ▸ shown⟩

/-- An own message in front hides an answer, an own message behind is counted, and so
is every own message in a group; without a read mark nothing is shown. -/
theorem badge_of_mixture :
    setListCount device [⟨"1",20⟩,⟨"2",30⟩] "2" = "" ∧
    badge "1" (some 10) [⟨"1",20⟩,⟨"2",30⟩] = "1" ∧
    setListCount device [⟨"2",20⟩,⟨"1",30⟩] "2" = "2" ∧
    badge "1" (some 10) [⟨"2",20⟩,⟨"1",30⟩] = "1" ∧
    setListGroupCount device [⟨"1",20⟩] "2" = "1" ∧ badge "1" (some 10) [⟨"1",20⟩] = "" ∧
    setListCount device [] "3" = "" ∧ setListGroupCount device [] "3" = "" ∧
    badge "1" (getInt device "3") [⟨"3",20⟩] = "1" := by
  decide

end Neuro.UnreadBadge
