import Neuro.GroupChatScreen
import Neuro.Lib.Descending
import Neuro.Lib.Run

/-! What the chat inbox and the group inbox show of the two lists of `FirebaseManager`. Both
are refreshed by its one callback, and both sort the list of the chats. -/
namespace Neuro.InboxOrder
open Neuro.Lib
open ChatScreen (MessageUser)
open GroupChatScreen (GroupUser)

/-- `setList` gives every row a time. -/
def time (data : MessageUser) : Int := data.time.getD 0

inductive View
  | messageInbox
  | groupMessageInbox
  deriving DecidableEq, Repr

/-- The list an inbox refers to, none while it is that of the manager itself, and the rows of
its last build. -/
structure Inbox (A : Type*) where
  temp : Option (List A)
  shown : List A
  deriving DecidableEq, Repr

section Inbox
variable {A : Type*} (inbox : Inbox A) (list : List A)

def Inbox.items : List A := inbox.temp.getD list

def Inbox.built : Inbox A := {inbox with shown := inbox.items list}

/-- The manager takes another list, and the inbox keeps this one. -/
def Inbox.left : Inbox A := {inbox with temp := some (inbox.items list)}

/-- The end of a callback: `setState` builds the inbox with the list of the manager. -/
def Inbox.refreshed : Inbox A := ⟨none,list⟩

end Inbox

/-- The lists, the slot for a callback, and the inboxes that are mounted. -/
structure FirebaseManager where
  listUser : List MessageUser := []
  listGroup : List GroupUser := []
  callback : Option View := none
  messageInbox : Option (Inbox MessageUser) := none
  groupMessageInbox : Option (Inbox GroupUser) := none
  deriving DecidableEq, Repr

/-- A list is replaced by an empty one when its documents change, and each row is added when it
has been read. -/
inductive Action
  | initState (view : View)
  | dispose (view : View)
  | build (view : View)
  | setList
  | addUser (data : MessageUser)
  | setListGroup
  | addGroup (data : GroupUser)
  deriving DecidableEq, Repr

section Sorting
variable (sorting : Sorting time)

namespace FirebaseManager
variable (s : FirebaseManager)

def sorted : FirebaseManager := {s with listUser := sorting.sort s.listUser}

end FirebaseManager

def MessageInboxState.callback (s : FirebaseManager) : FirebaseManager :=
  {s.sorted sorting with messageInbox := some (Inbox.refreshed (s.sorted sorting).listUser)}

/-- It sorts the chats as well, and not the groups. -/
def GroupMessageInboxState.callback (s : FirebaseManager) : FirebaseManager :=
  {s.sorted sorting with groupMessageInbox := some (Inbox.refreshed s.listGroup)}

namespace FirebaseManager
variable (throws : Bool) (s : FirebaseManager)

def mounted : View → Bool
  | .messageInbox => s.messageInbox.isSome
  | .groupMessageInbox => s.groupMessageInbox.isSome

def refresh : View → FirebaseManager
  | .messageInbox => MessageInboxState.callback sorting s
  | .groupMessageInbox => GroupMessageInboxState.callback sorting s

/-- `setState` of an inbox that has been disposed may throw, or do nothing: then the list of the
chats is still sorted. -/
def called : FirebaseManager := match s.callback with
  | none => s
  | some view =>
    if s.mounted view then s.refresh sorting view else if throws then s else s.sorted sorting

def initState (view : View) : FirebaseManager :=
  {s with callback := some view}.refresh sorting view

def dispose : View → FirebaseManager
  | .messageInbox => {s with messageInbox := none}
  | .groupMessageInbox => {s with groupMessageInbox := none}

def build : View → FirebaseManager
  | .messageInbox => {s with messageInbox := s.messageInbox.map (Inbox.built · s.listUser)}
  | .groupMessageInbox =>
    {s with groupMessageInbox := s.groupMessageInbox.map (Inbox.built · s.listGroup)}

def setList : FirebaseManager :=
  {s with listUser := [],messageInbox := s.messageInbox.map (Inbox.left · s.listUser)}

def setListGroup : FirebaseManager :=
  {s with listGroup := [],groupMessageInbox := s.groupMessageInbox.map (Inbox.left · s.listGroup)}

def step : Action → Option FirebaseManager
  | .initState view => if s.mounted view then none else some (s.initState sorting view)
  | .dispose view => some (s.dispose view)
  | .build view => some (s.build view)
  | .setList => some (s.setList.called sorting throws)
  | .addUser data => some ({s with listUser := s.listUser ++ [data]}.called sorting throws)
  | .setListGroup => some (s.setListGroup.called sorting throws)
  | .addGroup data => some ({s with listGroup := s.listGroup ++ [data]}.called sorting throws)

end FirebaseManager

end Sorting

/-- Every mounted inbox shows its own list from the newest to the oldest. -/
structure Ordered (s : FirebaseManager) : Prop where
  users : ∀ inbox ∈ s.messageInbox, Arranged time inbox.shown s.listUser
  groups : ∀ inbox ∈ s.groupMessageInbox, Arranged GroupUser.time inbox.shown s.listGroup

/-- A mounted inbox whose list changes holds the slot, and the groups come in the order they are
to be shown in, as nothing sorts them. -/
def InOrder (s : FirebaseManager) : Action → Prop
  | .initState .groupMessageInbox => Descending GroupUser.time s.listGroup
  | .setList => s.mounted .messageInbox → s.callback = some .messageInbox ∨ s.listUser = []
  | .addUser _ => s.mounted .messageInbox → s.callback = some .messageInbox
  | .setListGroup =>
    s.mounted .groupMessageInbox → s.callback = some .groupMessageInbox ∨ s.listGroup = []
  | .addGroup data => s.mounted .groupMessageInbox → s.callback = some .groupMessageInbox ∧
    Descending GroupUser.time (s.listGroup ++ [data])
  | .initState .messageInbox | .dispose _ | .build _ => True

instance (s : FirebaseManager) : ∀ a, Decidable (InOrder s a)
  | .initState .groupMessageInbox => inferInstanceAs (Decidable (Descending _ _))
  | .setList | .setListGroup => inferInstanceAs (Decidable (_ → _ ∨ _))
  | .addUser _ => inferInstanceAs (Decidable (_ → _))
  | .addGroup _ => inferInstanceAs (Decidable (_ → _ ∧ _))
  | .initState .messageInbox | .dispose _ | .build _ => inferInstanceAs (Decidable True)

/-- Of an inbox that is mounted: its list is in order, and so is what it shows and what it will
show when it is built again. -/
structure Current {A : Type*} (key : A → Int) (list : List A) (inbox : Inbox A) : Prop where
  descending : Descending key list
  items : Arranged key (inbox.items list) list
  shown : Arranged key inbox.shown list

structure Right (s : FirebaseManager) : Prop where
  users : ∀ inbox ∈ s.messageInbox, Current time s.listUser inbox
  groups : ∀ inbox ∈ s.groupMessageInbox, Current GroupUser.time s.listGroup inbox

section Inbox
variable {A : Type*} {key : A → Int} {list : List A} {inbox : Inbox A}

theorem current_refreshed (sorted : Descending key list) : Current key list (Inbox.refreshed list) :=
  ⟨sorted,sorted.arranged,sorted.arranged⟩

theorem Current.built (current : Current key list inbox) : Current key list (inbox.built list) :=
  ⟨current.descending,current.items,current.items⟩

theorem Current.sorted {after : List A} (current : Current key list inbox)
    (sorted : Arranged key after list) : Current key after inbox := by
  refine ⟨sorted.descending,?_,current.shown.permuted sorted.perm.symm⟩
  have items := current.items.permuted sorted.perm.symm
  unfold Inbox.items at items ⊢
  cases kept : inbox.temp with
  | none => exact sorted.descending.arranged
  | some rows => rwa [kept] at items

theorem Current.left_nil (current : Current key [] inbox) : Current key [] (inbox.left []) :=
  ⟨current.descending,current.items,current.shown⟩

/-- An inbox whose list is replaced without a refresh stays right when the list was empty. -/
theorem current_left {mounted : Option (Inbox A)}
    (current : ∀ inbox ∈ mounted, Current key list inbox) (empty : mounted.isSome → list = []) :
    ∀ inbox ∈ mounted.map (Inbox.left · list), Current key [] inbox := by
  intro inbox member
  obtain ⟨before,shown,rfl⟩ := Option.map_eq_some_iff.mp member
  have right := current before shown
  rw [empty (Option.isSome_iff_exists.mpr ⟨before,shown⟩)] at right ⊢
  exact right.left_nil

end Inbox

variable {sorting : Sorting time} {throws : Bool} {s t : FirebaseManager} {a : Action}

theorem users_sorted (users : ∀ inbox ∈ s.messageInbox, Current time s.listUser inbox) :
    ∀ inbox ∈ (s.sorted sorting).messageInbox, Current time (s.sorted sorting).listUser inbox :=
  fun inbox member => (users inbox member).sorted (sorting.arranged s.listUser)

theorem descending_sorted : Descending time (s.sorted sorting).listUser :=
  (sorting.arranged s.listUser).descending

/-- The inbox that holds the slot is refreshed, so the other one alone has to be in order. -/
theorem right_called
    (users : s.callback = some .messageInbox ∨
      ∀ inbox ∈ s.messageInbox, Current time s.listUser inbox)
    (sorted : s.mounted .groupMessageInbox → Descending GroupUser.time s.listGroup)
    (groups : s.callback = some .groupMessageInbox ∨
      ∀ inbox ∈ s.groupMessageInbox, Current GroupUser.time s.listGroup inbox) :
    Right (s.called sorting throws) := by
  have unmounted {view : View} (slot : s.callback = some view) (absent : ¬ s.mounted view) :
      Right s ∧ Right (s.sorted sorting) := by
    have users : ∀ inbox ∈ s.messageInbox, Current time s.listUser inbox := by
      rcases users with own | current
      · cases Option.some.inj (slot.symm.trans own)
        exact fun inbox shown => absurd (Option.isSome_iff_exists.mpr ⟨inbox,shown⟩) absent
      · exact current
    have groups : ∀ inbox ∈ s.groupMessageInbox, Current GroupUser.time s.listGroup inbox := by
      rcases groups with own | current
      · cases Option.some.inj (slot.symm.trans own)
        exact fun inbox shown => absurd (Option.isSome_iff_exists.mpr ⟨inbox,shown⟩) absent
      · exact current
    exact ⟨⟨users,groups⟩,⟨users_sorted users,groups⟩⟩
  unfold FirebaseManager.called
  split
  next slot => exact ⟨users.resolve_left (by simp [slot]),groups.resolve_left (by simp [slot])⟩
  next view slot =>
    split
    next present =>
      cases view with
      | messageInbox =>
        constructor
        · rintro _ ⟨⟩
          exact current_refreshed descending_sorted
        · exact groups.resolve_left (by simp [slot])
      | groupMessageInbox =>
        constructor
        · exact users_sorted (users.resolve_left (by simp [slot]))
        · rintro _ ⟨⟩
          exact current_refreshed (sorted present)
    next absent =>
      split
      · exact (unmounted slot absent).1
      · exact (unmounted slot absent).2

theorem right_step (right : Right s) (inOrder : InOrder s a)
    (stepped : s.step sorting throws a = some t) : Right t := by
  have descending (present : s.mounted .groupMessageInbox) :
      Descending GroupUser.time s.listGroup := by
    obtain ⟨inbox,shown⟩ := Option.isSome_iff_exists.mp present
    exact (right.groups inbox shown).descending
  cases a with
  | initState view =>
    rw [FirebaseManager.step] at stepped
    split at stepped
    · contradiction
    · cases Option.some.inj stepped
      cases view with
      | messageInbox =>
        constructor
        · rintro _ ⟨⟩
          exact current_refreshed descending_sorted
        · exact right.groups
      | groupMessageInbox =>
        constructor
        · exact users_sorted right.users
        · rintro _ ⟨⟩
          exact current_refreshed inOrder
  | dispose view =>
    cases Option.some.inj stepped
    cases view with
    | messageInbox => exact ⟨by simp [FirebaseManager.dispose],right.groups⟩
    | groupMessageInbox => exact ⟨right.users,by simp [FirebaseManager.dispose]⟩
  | build view =>
    cases Option.some.inj stepped
    cases view with
    | messageInbox =>
      refine ⟨fun inbox member => ?_,right.groups⟩
      obtain ⟨before,shown,rfl⟩ := Option.map_eq_some_iff.mp member
      exact (right.users before shown).built
    | groupMessageInbox =>
      refine ⟨right.users,fun inbox member => ?_⟩
      obtain ⟨before,shown,rfl⟩ := Option.map_eq_some_iff.mp member
      exact (right.groups before shown).built
  | setList =>
    cases Option.some.inj stepped
    refine right_called ?_ descending (.inr right.groups)
    by_cases slot : s.callback = some .messageInbox
    · exact .inl slot
    · exact .inr (current_left right.users fun present => (inOrder present).resolve_left slot)
  | addUser data =>
    cases Option.some.inj stepped
    refine right_called ?_ descending (.inr right.groups)
    by_cases slot : s.callback = some .messageInbox
    · exact .inl slot
    · exact .inr fun inbox shown =>
        absurd (inOrder (Option.isSome_iff_exists.mpr ⟨inbox,shown⟩)) slot
  | setListGroup =>
    cases Option.some.inj stepped
    refine right_called (.inr right.users) (fun _ => .nil) ?_
    by_cases slot : s.callback = some .groupMessageInbox
    · exact .inl slot
    · exact .inr (current_left right.groups fun present => (inOrder present).resolve_left slot)
  | addGroup data =>
    cases Option.some.inj stepped
    refine right_called (.inr right.users) (fun present => (inOrder present).2) ?_
    by_cases slot : s.callback = some .groupMessageInbox
    · exact .inl slot
    · exact .inr fun inbox shown =>
        absurd (inOrder (Option.isSome_iff_exists.mpr ⟨inbox,shown⟩)).1 slot

/-- In every run in which a mounted inbox whose list changes holds the slot, and the groups come
in order, every mounted inbox shows its own list in order. -/
theorem inboxes_ordered {actions : List Action}
    (run : Run (FirebaseManager.step sorting throws) InOrder {} actions s) : Ordered s := by
  have right : Right s :=
    run.invariant Right ⟨by simp,by simp⟩ fun _ _ _ => right_step
  exact ⟨fun inbox shown => (right.users inbox shown).shown,
    fun inbox shown => (right.groups inbox shown).shown⟩

def user (id : String) (t : Int) : MessageUser :=
  ⟨id,"","",none,some t,none,"",none,none,false⟩

def group (id : String) (t : Int) : GroupUser := {id := id,time := t}

theorem inboxes_ordered_two : ∃ s, Run (FirebaseManager.step (.insertion time) true) InOrder {}
    [.initState .messageInbox,.setList,.addUser (user "u" 1),.addUser (user "v" 2),
      .initState .groupMessageInbox,.setListGroup,.addGroup (group "g" 4),
      .addGroup (group "h" 3)] s ∧
    (s.messageInbox.map Inbox.shown = some [user "v" 2,user "u" 1] ∧
      s.groupMessageInbox.map Inbox.shown = some [group "g" 4,group "h" 3]) ∧ Ordered s := by
  have computed : ∃ s, Run (FirebaseManager.step (.insertion time) true) InOrder {}
      [.initState .messageInbox,.setList,.addUser (user "u" 1),.addUser (user "v" 2),
        .initState .groupMessageInbox,.setListGroup,.addGroup (group "g" 4),
        .addGroup (group "h" 3)] s ∧
      (s.messageInbox.map Inbox.shown = some [user "v" 2,user "u" 1] ∧
        s.groupMessageInbox.map Inbox.shown = some [group "g" 4,group "h" 3]) :=
    Run.exists_of_exec (by decide)
  obtain ⟨s,run,shown⟩ := computed
  exact ⟨s,run,shown,inboxes_ordered run⟩

/-- The newer of two groups is read last and shown last. -/
theorem groups_unsorted : ¬ ∀ (sorting : Sorting time) (throws : Bool) (actions : List Action)
    (s : FirebaseManager), Run (FirebaseManager.step sorting throws) anyStep {} actions s →
      Ordered s := by
  intro claimed
  have computed : ∃ s, Run (FirebaseManager.step (.insertion time) true) anyStep {}
      [.initState .groupMessageInbox,.setListGroup,.addGroup (group "g" 1),
        .addGroup (group "h" 2)] s ∧
      ∃ inbox ∈ s.groupMessageInbox, ¬ Descending GroupUser.time inbox.shown :=
    Run.exists_of_exec (by decide)
  obtain ⟨s,run,inbox,shown,unsorted⟩ := computed
  exact unsorted ((claimed _ _ _ s run).groups inbox shown).descending

/-! The condition is exact: after any other step an inbox is not in order. -/

theorem called_users (slot : s.callback ≠ some .messageInbox) :
    (s.called sorting throws).messageInbox = s.messageInbox ∧
      (s.called sorting throws).listUser.Perm s.listUser := by
  have sorted : (sorting.sort s.listUser).Perm s.listUser := (sorting.arranged s.listUser).perm
  unfold FirebaseManager.called
  split
  · exact ⟨rfl,.refl _⟩
  next view found =>
    cases view with
    | messageInbox => exact absurd found slot
    | groupMessageInbox =>
      split
      · exact ⟨rfl,sorted⟩
      · split
        · exact ⟨rfl,.refl _⟩
        · exact ⟨rfl,sorted⟩

theorem called_groups (slot : s.callback ≠ some .groupMessageInbox) :
    (s.called sorting throws).groupMessageInbox = s.groupMessageInbox ∧
      (s.called sorting throws).listGroup = s.listGroup := by
  unfold FirebaseManager.called
  split
  · exact ⟨rfl,rfl⟩
  next view found =>
    cases view with
    | groupMessageInbox => exact absurd found slot
    | messageInbox =>
      split
      · exact ⟨rfl,rfl⟩
      · split <;> exact ⟨rfl,rfl⟩

theorem refreshed_groups (ordered : Ordered (s.called sorting throws))
    (slot : s.callback = some .groupMessageInbox) (present : s.mounted .groupMessageInbox) :
    Descending GroupUser.time s.listGroup := by
  have refreshed : s.called sorting throws = GroupMessageInboxState.callback sorting s := by
    rw [FirebaseManager.called,slot]
    exact if_pos present
  rw [refreshed] at ordered
  exact (ordered.groups _ rfl).descending

theorem length_eq_of_arranged {A : Type*} {key : A → Int} {list after : List A}
    {inbox : Inbox A} (current : Current key list inbox)
    (arranged : Arranged key inbox.shown after) : list.length = after.length :=
  current.shown.perm.length_eq.symm.trans arranged.perm.length_eq

theorem users_length (right : Right s) {u : FirebaseManager}
    (ordered : Ordered (u.called sorting throws)) (slot : u.callback ≠ some .messageInbox)
    (present : s.mounted .messageInbox)
    (same : u.messageInbox.map Inbox.shown = s.messageInbox.map Inbox.shown) :
    s.listUser.length = u.listUser.length := by
  obtain ⟨inbox,shown⟩ := Option.isSome_iff_exists.mp present
  obtain ⟨kept,perm⟩ : (u.called sorting throws).messageInbox = u.messageInbox ∧
    (u.called sorting throws).listUser.Perm u.listUser := called_users slot
  rw [shown,Option.map_some] at same
  obtain ⟨after,found,rows⟩ := Option.map_eq_some_iff.mp same
  have arranged := (ordered.users after (kept.trans found)).permuted perm
  rw [rows] at arranged
  exact length_eq_of_arranged (right.users inbox shown) arranged

theorem groups_length (right : Right s) {u : FirebaseManager}
    (ordered : Ordered (u.called sorting throws)) (slot : u.callback ≠ some .groupMessageInbox)
    (present : s.mounted .groupMessageInbox)
    (same : u.groupMessageInbox.map Inbox.shown = s.groupMessageInbox.map Inbox.shown) :
    s.listGroup.length = u.listGroup.length := by
  obtain ⟨inbox,shown⟩ := Option.isSome_iff_exists.mp present
  obtain ⟨kept,list⟩ : (u.called sorting throws).groupMessageInbox = u.groupMessageInbox ∧
    (u.called sorting throws).listGroup = u.listGroup := called_groups slot
  rw [shown,Option.map_some] at same
  obtain ⟨after,found,rows⟩ := Option.map_eq_some_iff.mp same
  have arranged := ordered.groups after (kept.trans found)
  rw [list,rows] at arranged
  exact length_eq_of_arranged (right.groups inbox shown) arranged

theorem map_left_shown {A : Type*} (mounted : Option (Inbox A)) (list : List A) :
    (mounted.map (Inbox.left · list)).map Inbox.shown = mounted.map Inbox.shown :=
  Option.map_map ..

theorem inOrder_of_ordered (right : Right s) (stepped : s.step sorting throws a = some t)
    (ordered : Ordered t) : InOrder s a := by
  cases a with
  | initState view =>
    rw [FirebaseManager.step] at stepped
    split at stepped
    · contradiction
    · cases Option.some.inj stepped
      cases view with
      | messageInbox => trivial
      | groupMessageInbox => exact (ordered.groups _ rfl).descending
  | dispose | build => trivial
  | setList =>
    cases Option.some.inj stepped
    intro present
    by_cases slot : s.callback = some .messageInbox
    · exact .inl slot
    · exact .inr (List.eq_nil_of_length_eq_zero
        (users_length right ordered slot present (map_left_shown _ _)))
  | addUser data =>
    cases Option.some.inj stepped
    intro present
    by_contra slot
    have same := users_length right ordered slot present rfl
    rw [List.length_append,List.length_singleton] at same
    omega
  | setListGroup =>
    cases Option.some.inj stepped
    intro present
    by_cases slot : s.callback = some .groupMessageInbox
    · exact .inl slot
    · exact .inr (List.eq_nil_of_length_eq_zero
        (groups_length right ordered slot present (map_left_shown _ _)))
  | addGroup data =>
    cases Option.some.inj stepped
    intro present
    by_cases slot : s.callback = some .groupMessageInbox
    · exact ⟨slot,refreshed_groups ordered slot present⟩
    · have same := groups_length right ordered slot present rfl
      rw [List.length_append,List.length_singleton] at same
      omega

/-! The chat inbox alone is always in order. -/

def ChatsOnly (_ : FirebaseManager) : Action → Prop
  | .initState .groupMessageInbox => False
  | .initState .messageInbox | .dispose _ | .build _ | .setList | .addUser _ | .setListGroup
  | .addGroup _ => True

structure Alone (s : FirebaseManager) : Prop where
  groups : s.groupMessageInbox = none
  slot : s.mounted .messageInbox → s.callback = some .messageInbox

theorem alone_called (alone : Alone s) : Alone (s.called sorting throws) := by
  unfold FirebaseManager.called
  split
  · exact alone
  next view slot =>
    split
    next present =>
      cases view with
      | messageInbox => exact ⟨alone.groups,fun _ => slot⟩
      | groupMessageInbox =>
        rw [FirebaseManager.mounted,alone.groups] at present
        contradiction
    next =>
      split
      · exact alone
      · exact ⟨alone.groups,alone.slot⟩

theorem alone_step (alone : Alone s) (only : ChatsOnly s a)
    (stepped : s.step sorting throws a = some t) : Alone t := by
  cases a with
  | initState view =>
    rw [FirebaseManager.step] at stepped
    split at stepped
    · contradiction
    · cases Option.some.inj stepped
      cases view with
      | messageInbox => exact ⟨alone.groups,fun _ => rfl⟩
      | groupMessageInbox => contradiction
  | dispose view =>
    cases Option.some.inj stepped
    cases view with
    | messageInbox => exact ⟨alone.groups,by simp [FirebaseManager.mounted,FirebaseManager.dispose]⟩
    | groupMessageInbox => exact ⟨rfl,alone.slot⟩
  | build view =>
    cases Option.some.inj stepped
    cases view with
    | messageInbox =>
      exact ⟨alone.groups,fun present => alone.slot (Option.isSome_map.symm.trans present)⟩
    | groupMessageInbox => exact ⟨congrArg (Option.map _) alone.groups,alone.slot⟩
  | setList =>
    cases Option.some.inj stepped
    exact alone_called ⟨alone.groups,fun present => alone.slot (Option.isSome_map.symm.trans present)⟩
  | setListGroup =>
    cases Option.some.inj stepped
    exact alone_called ⟨congrArg (Option.map _) alone.groups,alone.slot⟩
  | addUser data | addGroup data =>
    cases Option.some.inj stepped
    exact alone_called ⟨alone.groups,alone.slot⟩

theorem inOrder_of_chatsOnly {actions : List Action}
    (run : Run (FirebaseManager.step sorting throws) ChatsOnly {} actions s) :
    Run (FirebaseManager.step sorting throws) InOrder {} actions s := by
  refine run.reguard Alone ⟨rfl,by simp [FirebaseManager.mounted]⟩ (fun _ _ _ => alone_step)
    fun s a t alone only _ => ?_
  have absent : ¬ s.mounted .groupMessageInbox := by simp [FirebaseManager.mounted,alone.groups]
  cases a with
  | initState view =>
    cases view with
    | messageInbox => trivial
    | groupMessageInbox => contradiction
  | setList => exact fun present => .inl (alone.slot present)
  | addUser => exact alone.slot
  | setListGroup | addGroup => exact fun present => absurd present absent
  | dispose | build => trivial

end Neuro.InboxOrder
