import Neuro.ChatPaging
import Neuro.ConversationState

/-! The read mark of a group while its chat is open. It is written under the id of the group,
except after a query for newer messages, which takes the id of a 1:1 chat. -/
namespace Neuro.GroupLive
open Neuro.Lib ChatPaging
open ChatScreen (MessageUser blank)
open ConversationState (setInt)
open FirebaseManager (Device)
open GroupChatScreen (GroupUser)
open UnreadBadge (getInt)

structure RouteArgument where
  userChat : Option MessageUser := none
  groupUser : Option GroupUser := none
  deriving DecidableEq, Repr

/-- What opens the screen: a row of the group inbox or a tapped push notification. -/
inductive Entry
  | inboxRow (data : GroupUser)
  | notificationOperation (userChat : GroupUser)

def Entry.routeArgument : Entry → RouteArgument
  | inboxRow data => {groupUser := some data}
  | notificationOperation userChat => {groupUser := some userChat}

/-- A query for newer messages that has been answered: what it brought, whether its callback
threw, and the read mark of the group afterwards. -/
structure Merge where
  docs : List Stored
  thrown : Bool
  mark : Option Int
  deriving DecidableEq, Repr

/-- `prefs` tells whether the preferences of the device have been obtained, `merges` is a
history. -/
structure FirebaseGroupChat extends ChatPaging.Screen where
  routeArgument : RouteArgument
  device : Device
  prefs : Bool := false
  merges : List Merge := []
  deriving DecidableEq, Repr

inductive Action
  | readLocal (now : Int)
  | onSendMessage (content : String) (now : Int)
  | paging (a : ChatPaging.Action) (now : Int)
  deriving DecidableEq, Repr

namespace FirebaseGroupChat
variable (s : FirebaseGroupChat)

def groupId : Option String := s.routeArgument.groupUser.map GroupUser.id

def userId : Option String := s.routeArgument.userChat.map MessageUser.id

/-- Throws without preferences and without an id. -/
def setMark (id : Option String) (now : Int) : Option Device :=
  if s.prefs then id.map fun id => setInt s.device id now else none

def marked (id : Option String) (now : Int) : FirebaseGroupChat :=
  {s with device := (s.setMark id now).getD s.device}

/-- The rest of the callback, after the messages have been inserted. -/
def merged (docs : List Stored) (now : Int) : FirebaseGroupChat :=
  let device := if s.listMessage = [] then none else s.setMark s.userId now
  {s with
    device := device.getD s.device
    merges := s.merges ++ [{
      docs := docs
      thrown := device.isNone
      mark := s.groupId.bind fun id => getInt (device.getD s.device) id}]}

/-- What a query for newer messages has brought, if its callback is what runs next. -/
def fetched : ChatPaging.Action → Option (List Stored)
  | .resume i => match s.calls[i]? with
    | some (.newerServed docs) => some docs
    | some (.older _) | some (.olderServed _) | some (.newer _) | none => none
  | .store _ | .stream | .scroll | .event .. | .serve _ => none

def step : Action → Option FirebaseGroupChat
  | .readLocal now => if s.prefs then none else some ({s with prefs := true}.marked s.groupId now)
  | .onSendMessage content now => some (if blank content then s else s.marked s.groupId now)
  | .paging a now => (s.toScreen.step a).map fun screen =>
    let t := {s with toScreen := screen}
    match s.fetched a,a with
    | some docs,_ => t.merged docs now
    | none,.stream => t.marked t.groupId now
    | none,.store _ | none,.scroll | none,.event .. | none,.serve _ | none,.resume _ => t

end FirebaseGroupChat

def opened (entry : Entry) (device : Device) (stored : List Stored) : FirebaseGroupChat where
  stored := stored
  routeArgument := entry.routeArgument
  device := device

/-- The messages have been merged, and none of them is counted as unread. -/
structure Merge.Read (merge : Merge) : Prop where
  succeeded : merge.thrown = false
  marked : ∃ mark ∈ merge.mark, ∀ m ∈ merge.docs, m.timestamp ≤ mark

/-- The clock is not behind the messages. -/
def Synchronised (s : FirebaseGroupChat) : Action → Prop
  | .readLocal now | .onSendMessage _ now | .paging _ now => ∀ m ∈ s.stored, m.timestamp ≤ now

instance (s : FirebaseGroupChat) : ∀ a, Decidable (Synchronised s a)
  | .readLocal _ | .onSendMessage .. | .paging .. => inferInstanceAs (Decidable (∀ _ ∈ _, _))

/-- No answer to a query for newer messages is received. -/
def Unmerged (s : FirebaseGroupChat) : Action → Prop
  | .paging a _ => s.fetched a = none
  | .readLocal _ | .onSendMessage .. => True

/-- Nobody else writes while older messages are read: a listener is told of the last message
shown only. -/
def Quiet (s : FirebaseGroupChat) : Action → Prop
  | .paging (.event l skip) _ => ∀ queue ∈ s.listeners[l]?, ∀ newest ∈ queue[skip]?,
    ∀ last ∈ s.lastMessage, last.doc.id = newest.id
  | .readLocal _ | .onSendMessage .. | .paging .stream _ | .paging (.store _) _
  | .paging .scroll _ | .paging (.resume _) _ | .paging (.serve _) _ => True

variable {entry : Entry} {device : Device} {stored : List Stored} {s t : FirebaseGroupChat}
variable {a : Action} {actions : List Action}

theorem step_merges (stepped : s.step a = some t) : t.routeArgument = s.routeArgument ∧
    (Unmerged s a ∧ t.merges = s.merges ∨
      ¬ Unmerged s a ∧ ∃ (u : FirebaseGroupChat) (docs : List Stored) (now : Int),
        u.routeArgument = s.routeArgument ∧ u.merges = s.merges ∧ t = u.merged docs now) := by
  cases a with
  | readLocal now =>
    rw [FirebaseGroupChat.step] at stepped
    split at stepped
    · contradiction
    · cases Option.some.inj stepped
      exact ⟨rfl,.inl ⟨trivial,rfl⟩⟩
  | onSendMessage content now =>
    cases Option.some.inj stepped
    split <;> exact ⟨rfl,.inl ⟨trivial,rfl⟩⟩
  | paging a now =>
    obtain ⟨screen,_,rfl⟩ := Option.map_eq_some_iff.mp stepped
    cases fetched : s.fetched a with
    | some docs =>
      have merging : ¬ Unmerged s (.paging a now) := fun unmerged =>
        Option.some_ne_none docs (fetched.symm.trans unmerged)
      exact ⟨rfl,.inr ⟨merging,{s with toScreen := screen},docs,now,rfl,rfl,rfl⟩⟩
    | none => cases a <;> exact ⟨rfl,.inl ⟨fetched,rfl⟩⟩

/-- No entry gives the screen the user of a 1:1 chat. -/
theorem merged_thrown (given : s.routeArgument = entry.routeArgument) (docs : List Stored)
    (now : Int) : ∃ merge, (s.merged docs now).merges = s.merges ++ [merge] ∧
      merge.thrown = true := by
  have user : s.userId = none := by
    rw [FirebaseGroupChat.userId,given]
    cases entry <;> rfl
  refine ⟨_,rfl,?_⟩
  simp [user,FirebaseGroupChat.setMark]

theorem routeArgument_run (run : Run FirebaseGroupChat.step anyStep (opened entry device stored)
    actions s) : s.routeArgument = entry.routeArgument :=
  run.invariant (fun s => s.routeArgument = entry.routeArgument) rfl
    fun _ _ _ given _ stepped => (step_merges stepped).1.trans given

/-- In every run all merges are right if and only if there is none, so every merge fails. -/
theorem merges_read_iff (run : Run FirebaseGroupChat.step anyStep (opened entry device stored)
    actions s) : (∀ merge ∈ s.merges, merge.Read) ↔
      Run FirebaseGroupChat.step Unmerged (opened entry device stored) actions s := by
  constructor
  · intro read
    induction run with
    | nil => exact .nil
    | snoc before _ stepped ih =>
      obtain ⟨_,⟨unmerged,same⟩ | ⟨_,u,docs,now,given,same,rfl⟩⟩ := step_merges stepped
      · exact .snoc (ih (same ▸ read)) unmerged stepped
      · obtain ⟨merge,merges,thrown⟩ :=
          merged_thrown (given.trans (routeArgument_run before)) docs now
        have right := read merge (merges ▸ List.mem_append_right _ List.mem_cons_self)
        exact absurd (thrown.symm.trans right.succeeded) (by decide)
  · intro unmerged
    have none : s.merges = [] := by
      refine unmerged.invariant (fun s => s.merges = []) rfl fun s a t none admitted stepped => ?_
      obtain ⟨_,⟨_,same⟩ | ⟨merging,_⟩⟩ := step_merges stepped
      · exact same.trans none
      · exact absurd admitted merging
    simp [none]

def group : GroupUser := {id := "g"}

def started : List Action :=
  [.readLocal 10,.paging .stream 11,.paging .scroll 12,.paging (.serve 0) 13,.paging (.resume 0) 14]

def told : List Action :=
  [.paging (.store ⟨"20",20⟩) 20,.paging (.event 0 1) 20,.paging (.serve 0) 21,
    .paging (.resume 0) 22]

theorem merges_read_iff_told : ∃ s, Run FirebaseGroupChat.step anyStep
    (opened (.inboxRow group) {} [⟨"5",5⟩]) (started ++ told) s ∧
    s.merges = [⟨[⟨"20",20⟩],true,some 11⟩] ∧ ((∀ merge ∈ s.merges, merge.Read) ↔
      Run FirebaseGroupChat.step Unmerged (opened (.inboxRow group) {} [⟨"5",5⟩])
        (started ++ told) s) := by
  have computed : ∃ s, Run FirebaseGroupChat.step anyStep
      (opened (.inboxRow group) {} [⟨"5",5⟩]) (started ++ told) s ∧
      s.merges = [⟨[⟨"20",20⟩],true,some 11⟩] := Run.exists_of_exec (by decide)
  obtain ⟨s,run,merges⟩ := computed
  exact ⟨s,run,merges,merges_read_iff run⟩

/-- The callback throws after it has inserted the message that came while paging, and the read
mark of the group stays behind it. -/
theorem merge_throws : ¬ ∀ (entry : Entry) (device : Device) (stored : List Stored)
    (actions : List Action) (s : FirebaseGroupChat),
    Run FirebaseGroupChat.step Synchronised (opened entry device stored) actions s →
      ∀ merge ∈ s.merges, merge.Read := by
  intro claimed
  have computed : ∃ s, Run FirebaseGroupChat.step Synchronised
      (opened (.notificationOperation group) {} [⟨"5",5⟩]) (started ++ told) s ∧
      ∃ merge ∈ s.merges, merge.thrown = true := Run.exists_of_exec (by decide)
  obtain ⟨s,run,merge,member,thrown⟩ := computed
  exact absurd (thrown.symm.trans (claimed _ _ _ _ s run merge member).succeeded) (by decide)

/-! Without messages from elsewhere there is nothing to merge. -/

def newer : Call → Bool
  | .newer _ | .newerServed _ => true
  | .older _ | .olderServed _ => false

def Older (s : ChatPaging.Screen) : Prop := ∀ call ∈ s.calls, newer call = false

theorem older_step {s t : ChatPaging.Screen} {a : ChatPaging.Action} (older : Older s)
    (quiet : ∀ l skip, a = .event l skip → ∀ queue ∈ s.listeners[l]?, ∀ newest ∈ queue[skip]?,
      ∀ last ∈ s.lastMessage, last.doc.id = newest.id)
    (stepped : s.step a = some t) : Older t := by
  cases stepped_of_step stepped with
  | store | stream => exact older
  | scroll =>
    unfold Screen.scrollListener
    split
    · exact older
    · exact Pool.forall_append older rfl
  | event listens told =>
    have same := quiet _ _ rfl _ listens _ told
    unfold Screen.onData
    split
    · exact older
    next last shown =>
      rw [if_pos (same last shown)]
      exact older
  | @serve i call served found answered =>
    have before := older call (List.mem_of_getElem? found)
    refine Pool.forall_set older ?_
    cases call with
    | older => cases Option.some.inj answered; rfl
    | newer => contradiction
    | olderServed | newerServed => contradiction
  | older found | newer found => exact fun call member => older call (List.mem_of_mem_eraseIdx member)

theorem step_screen (stepped : s.step a = some t) : t.toScreen = s.toScreen ∨
    ∃ b now, a = .paging b now ∧ s.toScreen.step b = some t.toScreen := by
  cases a with
  | readLocal now =>
    rw [FirebaseGroupChat.step] at stepped
    split at stepped
    · contradiction
    · cases Option.some.inj stepped
      exact .inl rfl
  | onSendMessage content now =>
    cases Option.some.inj stepped
    left
    split <;> rfl
  | paging b now =>
    obtain ⟨screen,paged,rfl⟩ := Option.map_eq_some_iff.mp stepped
    refine .inr ⟨b,now,rfl,?_⟩
    split <;> exact paged

theorem unmerged_of_quiet (run : Run FirebaseGroupChat.step Quiet (opened entry device stored)
    actions s) : Run FirebaseGroupChat.step Unmerged (opened entry device stored) actions s := by
  refine run.reguard (fun s => Older s.toScreen) (by simp [Older,opened]) ?_ ?_
  · intro s a t older quiet stepped
    rcases step_screen stepped with same | ⟨b,now,rfl,paged⟩
    · exact (congrArg Older same).mpr older
    · refine older_step older ?_ paged
      rintro l skip rfl
      exact quiet
  · intro s a t older _ _
    cases a with
    | readLocal | onSendMessage => trivial
    | paging a now =>
      rw [Unmerged,FirebaseGroupChat.fetched.eq_def]
      split
      next i =>
        split
        next docs found => exact absurd (older _ (List.mem_of_getElem? found)) Bool.noConfusion
        all_goals rfl
      all_goals rfl

end Neuro.GroupLive
