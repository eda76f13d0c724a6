import Neuro.ConversationId
import Neuro.OpenChat
import Neuro.UnreadBadge

/-! What opening, reading and sending in one conversation does to the others. The read
marks are kept under the bare id of the user or the group, and so is the open chat. -/
namespace Neuro.ConversationState
open Neuro.Lib ConversationId OpenChat UnreadBadge
open ChatScreen (groupChatId blank)
open FirebaseManager (Device)

/-- `messages` are kept by the path of their collection. `fetching` are the screens with a
query of `_newMessageListener` under way, `sending` those of a 1:1 chat that await the
inbox documents, `transactions` the messages to be stored. -/
structure State where
  navigation : Navigation := {}
  device : Device
  messages : List ((String × String) × Posted) := []
  fetching : List Screen := []
  sending : List Screen := []
  transactions : List (Conversation × Posted) := []
  deriving DecidableEq, Repr

inductive Action
  | navigate (a : OpenChat.Action) (now : Int)
  /-- The `StreamBuilder` is handed the newest messages. -/
  | stream (x : Screen) (now : Int)
  | newMessageListener (x : Screen)
  | fetched (x : Screen) (now : Int)
  | onSendMessage (x : Screen) (content : String) (now : Int)
  | sent (x : Screen) (now : Int)
  | commit (c : Conversation) (m : Posted)
  /-- A message of somebody else is stored. -/
  | received (c : Conversation) (m : Posted)
  deriving DecidableEq, Repr

/-- The conversation an action is taken in. -/
def Action.conversation : Action → Option Conversation
  | .navigate (.pushNamed c) _ | .navigate (.notificationOperation c) _ => some c
  | .navigate (.readLocal x) _ | .stream x _ | .newMessageListener x | .fetched x _
  | .onSendMessage x .. | .sent x _ => some x.conversation
  | .commit c _ | .received c _ => some c
  | .navigate .frame _ | .navigate .pop _ | .navigate (.dispose _) _ | .navigate .login _
  | .navigate .dashboard _ => none

def setInt (s : Device) (key : String) (value : Int) : Device :=
  {s with marks := (key,value) :: s.marks.filter fun mark => mark.1 ≠ key}

def collection (hash : String → Nat) (userId : String) : Conversation → String × String
  | .chat peerId => ("messages",groupChatId hash userId peerId)
  | .group groupId => ("groupMessages",groupId)

namespace State
variable (hash : String → Nat) (s : State)

def mark (c : Conversation) (now : Int) : State := {s with device := setInt s.device c.id now}

def store (c : Conversation) (m : Posted) : State :=
  {s with messages := s.messages ++ [(collection hash s.device.userId c,m)]}

def history (c : Conversation) : List Posted :=
  (s.messages.filter fun m => m.1 = collection hash s.device.userId c).map Prod.snd

def loaded (x : Screen) : Bool := x ∈ s.navigation.opened ∧ x ∉ s.navigation.reading

/-- The group's screen sets its read mark at once. -/
def onSendMessage (x : Screen) (now : Int) : State :=
  let m : Posted := ⟨s.device.userId,now⟩
  let s := {s with transactions := s.transactions ++ [(x.conversation,m)]}
  match x.conversation with
  | .chat _ => {s with sending := s.sending ++ [x]}
  | .group _ => s.mark x.conversation now

/-- The group's screen reads `userChat`, which it was not given, and throws. -/
def fetched (x : Screen) (now : Int) : State :=
  let s := {s with fetching := s.fetching.erase x}
  match x.conversation with
  | .chat _ => s.mark x.conversation now
  | .group _ => s

def step : Action → Option State
  | .navigate a now => (s.navigation.step a).map fun navigation =>
    let s := {s with navigation := navigation}
    match a with
    | .readLocal x => s.mark x.conversation now
    | .pushNamed _ | .notificationOperation _ | .frame | .pop | .dispose _ | .login
    | .dashboard => s
  | .stream x now => if s.loaded x then some (s.mark x.conversation now) else none
  | .newMessageListener x =>
    if s.loaded x then some {s with fetching := s.fetching ++ [x]} else none
  | .fetched x now => if x ∈ s.fetching then some (s.fetched x now) else none
  | .onSendMessage x content now =>
    if s.loaded x then some (if blank content then s else s.onSendMessage x now) else none
  | .sent x now => if x ∈ s.sending then
      some ({s with sending := s.sending.erase x}.mark x.conversation now) else none
  | .commit c m => if (c,m) ∈ s.transactions then
      some ({s with transactions := s.transactions.erase (c,m)}.store hash c m) else none
  | .received c m => some (s.store hash c m)

end State

/-- The counts the inbox can show for a conversation. -/
def Counts (hash : String → Nat) (s : State) (c : Conversation) (count : String) : Prop :=
  ∃ found, (∀ t ∈ getInt s.device c.id, IsGreaterThan t (s.history hash c) found) ∧
    count = match c with
      | .chat peerId => setListCount s.device found peerId
      | .group groupId => setListGroupCount s.device found groupId

/-- The screens with no chat above them that has run its `readLocal`. -/
def uppermost (reading : List Screen) : List Screen → List Screen
  | [] => []
  | x :: below => if x ∈ reading then x :: uppermost reading below else [x]

/-- A chat is open when it is closing or the uppermost one that has run its `readLocal`. -/
def Shown (s : Navigation) (x : Screen) : Prop :=
  x ∈ s.leaving ∨ x ∈ uppermost s.reading s.screens

instance (s : Navigation) (x : Screen) : Decidable (Shown s x) :=
  inferInstanceAs (Decidable (_ ∨ _))

/-- What is done is done in these conversations, and `readLocal` runs before the disposal of
its screen and before that of a chat above it. -/
def Within (conversations : Set Conversation) (s : State) (a : Action) : Prop :=
  (∀ c ∈ a.conversation, c ∈ conversations) ∧
    match a with
    | .navigate (.readLocal x) _ => Shown s.navigation x
    | _ => True

instance (conversations : Set Conversation) [DecidablePred (· ∈ conversations)] :
    ∀ s a, Decidable (Within conversations s a)
  | _,.navigate (.readLocal _) _ => inferInstanceAs (Decidable ((∀ c ∈ some _, _) ∧ Shown _ _))
  | _,.navigate (.pushNamed _) _ | _,.navigate (.notificationOperation _) _ | _,.stream ..
  | _,.newMessageListener _ | _,.fetched .. | _,.onSendMessage .. | _,.sent .. | _,.commit ..
  | _,.received .. => inferInstanceAs (Decidable ((∀ c ∈ some _, _) ∧ True))
  | _,.navigate .frame _ | _,.navigate .pop _ | _,.navigate (.dispose _) _ | _,.navigate .login _
  | _,.navigate .dashboard _ => inferInstanceAs (Decidable ((∀ c ∈ none, _) ∧ True))

variable {hash : String → Nat} {s t : State} {c c' : Conversation}

/-- What the count of a conversation depends on. -/
structure Same (hash : String → Nat) (c : Conversation) (s t : State) : Prop where
  userId : t.device.userId = s.device.userId
  read : getInt t.device c.id = getInt s.device c.id
  history : t.history hash c = s.history hash c

theorem Same.counts (same : Same hash c s t) (count : String) :
    Counts hash t c count ↔ Counts hash s c count := by
  have marked : t.device.containsKey c.id = s.device.containsKey c.id := by
    rw [← getInt_isSome,← getInt_isSome,same.read]
  unfold Counts
  rw [same.read,same.history]
  cases c with
  | chat peerId =>
    dsimp only [setListCount,Conversation.id] at marked ⊢
    rw [same.userId,marked]
  | group groupId =>
    dsimp only [setListGroupCount,Conversation.id] at marked ⊢
    rw [marked]

theorem getInt_setInt_of_ne {device : Device} {key other : String} {value : Int}
    (different : key ≠ other) : getInt (setInt device key value) other = getInt device other := by
  unfold getInt setInt
  rw [List.find?_cons_of_neg (by simpa using different),List.find?_filter]
  congr 2
  ext mark
  by_cases found : mark.1 = other
  · simp [found,Ne.symm different]
  · simp [found]

theorem Same.mark (same : Same hash c' s t) (different : c.id ≠ c'.id) (now : Int) :
    Same hash c' s (t.mark c now) :=
  ⟨same.userId,(getInt_setInt_of_ne different).trans same.read,same.history⟩

theorem collection_inj {user : UserId} (decimal : ∃ u : UserId, c.id = u.text)
    (decimal' : ∃ u : UserId, c'.id = u.text)
    (same : collection hash user.text c = collection hash user.text c') : c = c' := by
  obtain ⟨peer,text⟩ := decimal
  obtain ⟨peer',text'⟩ := decimal'
  cases c with
  | chat peerId =>
    cases c' with
    | chat peerId' =>
      cases text
      cases text'
      have pairs := separate hash user peer user peer' (congrArg Prod.snd same)
      rw [Sym2.congr_right.mp pairs]
    | group => exact absurd (congrArg Prod.fst same) (by simp [collection])
  | group groupId =>
    cases c' with
    | chat => exact absurd (congrArg Prod.fst same) (by simp [collection])
    | group => exact congrArg Conversation.group (congrArg Prod.snd same)

theorem Same.store {m : Posted} (same : Same hash c' s t)
    (different : collection hash t.device.userId c ≠ collection hash t.device.userId c') :
    Same hash c' s (t.store hash c m) := by
  refine ⟨same.userId,same.read,Eq.trans ?_ same.history⟩
  unfold State.history State.store
  dsimp only
  rw [List.filter_append,List.filter_cons_of_neg (by simpa using different),List.filter_nil,
    List.append_nil]

theorem mem_uppermost_mono {reading more l : List Screen} {x : Screen}
    (within : ∀ y ∈ reading, y ∈ more) (member : x ∈ uppermost reading l) :
    x ∈ uppermost more l := by
  induction l with
  | nil => exact member
  | cons y below ih =>
    unfold uppermost at member ⊢
    split at member
    next waiting =>
      rw [if_pos (within y waiting)]
      rcases List.mem_cons.mp member with rfl | lower
      · exact List.mem_cons_self
      · exact List.mem_cons_of_mem _ (ih lower)
    next =>
      rw [List.mem_singleton.mp member]
      split <;> exact List.mem_cons_self

theorem mem_uppermost_erase {reading l : List Screen} {x : Screen}
    (member : x ∈ uppermost reading l) : x ∈ uppermost (reading.erase x) l := by
  induction l with
  | nil => exact member
  | cons y below ih =>
    by_cases same : y = x
    · unfold uppermost
      split <;> exact same ▸ List.mem_cons_self
    · unfold uppermost at member ⊢
      split at member
      next waiting =>
        rw [if_pos ((List.mem_erase_of_ne same).mpr waiting)]
        exact List.mem_cons_of_mem _ (ih ((List.mem_cons.mp member).resolve_left (Ne.symm same)))
      next => exact absurd (List.mem_singleton.mp member).symm same

/-- The globals name an open chat. -/
def Named (conversations : Set Conversation) (s : Navigation) : Prop :=
  s.isInChat = true → ∃ x, Shown s x ∧ x.conversation ∈ conversations ∧
    s.chatuserId = x.conversation.id

variable {conversations : Set Conversation} {p q : Navigation}

theorem Named.mono (named : Named conversations p) (isInChat : q.isInChat = p.isInChat)
    (chatuserId : q.chatuserId = p.chatuserId) (shown : ∀ x, Shown p x → Shown q x) :
    Named conversations q := by
  intro set
  obtain ⟨x,open',inside,name⟩ := named (isInChat ▸ set)
  exact ⟨x,shown x open',inside,chatuserId.trans name⟩

theorem Named.push (named : Named conversations p) (c : Conversation) :
    Named conversations (p.push c) := by
  refine named.mono rfl rfl fun x shown => shown.imp_right fun upper => ?_
  dsimp only [Navigation.push]
  unfold uppermost
  rw [if_pos (List.mem_append_right _ (List.mem_singleton.mpr rfl))]
  exact List.mem_cons_of_mem _ (mem_uppermost_mono (fun y => List.mem_append_left _) upper)

theorem Named.pop {top : Screen} {below : List Screen} (named : Named conversations p)
    (list : p.screens = top :: below) :
    Named conversations {p with screens := below,leaving := p.leaving ++ [top]} := by
  refine named.mono rfl rfl fun x shown => ?_
  rcases shown with leaving | upper
  · exact .inl (List.mem_append_left _ leaving)
  · rw [list,uppermost] at upper
    split at upper
    · rcases List.mem_cons.mp upper with rfl | lower
      · exact .inl (List.mem_append_right _ (List.mem_singleton.mpr rfl))
      · exact .inr lower
    · exact .inl (List.mem_append_right _ upper)

theorem mem_of_mem_uppermost {reading l : List Screen} {x : Screen}
    (member : x ∈ uppermost reading l) : x ∈ l := by
  induction l with
  | nil => exact member
  | cons y below ih =>
    unfold uppermost at member
    split at member
    · exact (List.mem_cons.mp member).elim (fun same => same ▸ List.mem_cons_self) fun lower =>
        List.mem_cons_of_mem _ (ih lower)
    · exact List.mem_singleton.mp member ▸ List.mem_cons_self

theorem Named.removeAll (named : Named conversations p) : Named conversations p.removeAll := by
  refine named.mono rfl rfl fun x shown => .inl ?_
  rcases shown with leaving | upper
  · exact List.mem_append_left _ leaving
  · exact List.mem_append_right _ (mem_of_mem_uppermost upper)

theorem Named.step {a : OpenChat.Action} {now : Int} (named : Named conversations s.navigation)
    (within : Within conversations s (.navigate a now)) (stepped : s.navigation.step a = some q) :
    Named conversations q := by
  cases a with
  | pushNamed c =>
    cases Option.some.inj stepped
    exact named.push c
  | notificationOperation c =>
    cases Option.some.inj stepped
    unfold Navigation.notificationOperation
    split <;> exact named
  | frame =>
    cases Option.some.inj stepped
    exact of_frame (p := Named conversations) named fun _ c pushed => pushed.push c
  | readLocal x =>
    rw [Navigation.step] at stepped
    split at stepped
    · cases Option.some.inj stepped
      have shown : Shown s.navigation x := within.2
      exact fun _ => ⟨x,shown.imp_right mem_uppermost_erase,within.1 _ rfl,rfl⟩
    · contradiction
  | pop =>
    rw [Navigation.step] at stepped
    split at stepped
    · contradiction
    next list =>
      cases Option.some.inj stepped
      exact named.pop list
  | dispose x =>
    rw [Navigation.step] at stepped
    split at stepped
    · cases Option.some.inj stepped
      exact fun set => Bool.noConfusion set
    · contradiction
  | login =>
    cases Option.some.inj stepped
    exact named.removeAll
  | dashboard =>
    cases Option.some.inj stepped
    exact fun set => Bool.noConfusion set

/-- What a step does before it writes: the preferences and the messages are left, and the
navigation takes a step of its own at most. -/
structure Prepared (s : State) (a : Action) (u : State) : Prop where
  device : u.device = s.device
  messages : u.messages = s.messages
  navigation : u.navigation = s.navigation ∨
    ∃ b now, a = .navigate b now ∧ s.navigation.step b = some u.navigation

/-- A step writes one read mark or one message of its own conversation at most. -/
theorem step_cases {a : Action} (stepped : s.step hash a = some t) :
    ∃ u, Prepared s a u ∧ (t = u ∨ ∃ c ∈ a.conversation,
      (∃ now, t = u.mark c now) ∨ ∃ m, t = u.store hash c m) := by
  cases a with
  | navigate b now =>
    obtain ⟨navigation,moved,rfl⟩ := Option.map_eq_some_iff.mp stepped
    refine ⟨{s with navigation := navigation},⟨rfl,rfl,.inr ⟨b,now,rfl,moved⟩⟩,?_⟩
    cases b with
    | readLocal x => exact .inr ⟨_,rfl,.inl ⟨now,rfl⟩⟩
    | pushNamed | notificationOperation | frame | pop | dispose | login | dashboard =>
      exact .inl rfl
  | stream x now =>
    rw [State.step] at stepped
    split at stepped
    · cases Option.some.inj stepped
      exact ⟨s,⟨rfl,rfl,.inl rfl⟩,.inr ⟨_,rfl,.inl ⟨now,rfl⟩⟩⟩
    · contradiction
  | newMessageListener x =>
    rw [State.step] at stepped
    split at stepped
    · cases Option.some.inj stepped
      refine ⟨_,?_,.inl rfl⟩
      exact ⟨rfl,rfl,.inl rfl⟩
    · contradiction
  | fetched x now =>
    rw [State.step] at stepped
    split at stepped
    · cases Option.some.inj stepped
      refine ⟨{s with fetching := s.fetching.erase x},⟨rfl,rfl,.inl rfl⟩,?_⟩
      unfold State.fetched
      dsimp only
      split
      · exact .inr ⟨_,rfl,.inl ⟨now,rfl⟩⟩
      · exact .inl rfl
    · contradiction
  | onSendMessage x content now =>
    rw [State.step] at stepped
    split at stepped
    · cases Option.some.inj stepped
      split
      · exact ⟨s,⟨rfl,rfl,.inl rfl⟩,.inl rfl⟩
      · unfold State.onSendMessage
        dsimp only
        split
        · refine ⟨_,?_,.inl rfl⟩
          exact ⟨rfl,rfl,.inl rfl⟩
        · refine ⟨_,?_,.inr ⟨_,rfl,.inl ⟨now,rfl⟩⟩⟩
          exact ⟨rfl,rfl,.inl rfl⟩
    · contradiction
  | sent x now =>
    rw [State.step] at stepped
    split at stepped
    · cases Option.some.inj stepped
      refine ⟨{s with sending := s.sending.erase x},⟨rfl,rfl,.inl rfl⟩,?_⟩
      exact .inr ⟨_,rfl,.inl ⟨now,rfl⟩⟩
    · contradiction
  | commit c m =>
    rw [State.step] at stepped
    split at stepped
    · cases Option.some.inj stepped
      refine ⟨{s with transactions := s.transactions.erase (c,m)},⟨rfl,rfl,.inl rfl⟩,?_⟩
      exact .inr ⟨c,rfl,.inr ⟨m,rfl⟩⟩
    · contradiction
  | received c m =>
    cases Option.some.inj stepped
    exact ⟨s,⟨rfl,rfl,.inl rfl⟩,.inr ⟨c,rfl,.inr ⟨m,rfl⟩⟩⟩

theorem kept_of_step {a : Action} (stepped : s.step hash a = some t) :
    t.device.userId = s.device.userId ∧ (t.navigation = s.navigation ∨
      ∃ b now, a = .navigate b now ∧ s.navigation.step b = some t.navigation) := by
  obtain ⟨u,prepared,written⟩ := step_cases stepped
  have userId : u.device.userId = s.device.userId := by rw [prepared.device]
  rcases written with rfl | ⟨c,_,⟨now,rfl⟩ | ⟨m,rfl⟩⟩
  · exact ⟨userId,prepared.navigation⟩
  · exact ⟨userId,prepared.navigation⟩
  · exact ⟨userId,prepared.navigation⟩

/-- An action leaves the counts of the conversations that share neither its read mark nor
its collection. -/
theorem same_step {a : Action} (stepped : s.step hash a = some t)
    (marks : ∀ c ∈ a.conversation, c.id ≠ c'.id)
    (stores : ∀ c ∈ a.conversation, collection hash s.device.userId c ≠
      collection hash s.device.userId c') : Same hash c' s t := by
  obtain ⟨u,prepared,written⟩ := step_cases stepped
  have same : Same hash c' s u := by
    constructor
    · rw [prepared.device]
    · rw [prepared.device]
    · rw [State.history,State.history,prepared.device,prepared.messages]
  rcases written with rfl | ⟨c,taken,⟨now,rfl⟩ | ⟨m,rfl⟩⟩
  · exact same
  · exact same.mark (marks c taken) now
  · apply same.store
    rw [same.userId]
    exact stores c taken

/-- The ids in use are decimal, and no two conversations have the same. -/
structure Apart (conversations : Set Conversation) : Prop where
  decimal : ∀ c ∈ conversations, ∃ u : UserId, c.id = u.text
  distinct : ∀ c ∈ conversations, ∀ c' ∈ conversations, c.id = c'.id → c = c'

/-- When no group has the id of a user, an action in one conversation leaves the counts of
all others, and a notification is suppressed only while its own conversation is open. -/
theorem conversations_independent {zone : Int} {user : UserId} {marks : List (String × Int)}
    {messages : List ((String × String) × Posted)} {as : List Action} {a : Action}
    (apart : Apart conversations)
    (run : Run (State.step hash) (Within conversations)
      {device := .started zone user.text marks,messages := messages} as s)
    (within : Within conversations s a) (stepped : s.step hash a = some t) :
    (∀ c ∈ conversations, c ∉ a.conversation → ∀ count, Counts hash t c count ↔
      Counts hash s c count) ∧
    ∀ c ∈ conversations, s.navigation.notificationOperation c = s.navigation →
      ∃ x, Shown s.navigation x ∧ x.conversation = c := by
  obtain ⟨userId,named⟩ := run.invariant
    (fun s => s.device.userId = user.text ∧ Named conversations s.navigation)
    ⟨rfl,fun set => Bool.noConfusion set⟩ fun s a t holds within stepped => by
      obtain ⟨same,navigated⟩ := kept_of_step stepped
      refine ⟨same.trans holds.1,?_⟩
      rcases navigated with rest | ⟨b,now,rfl,moved⟩
      · exact rest ▸ holds.2
      · exact holds.2.step within moved
  constructor
  · intro c inside other
    have differ (c' : Conversation) (taken : c' ∈ a.conversation) : c' ≠ c := by
      rintro rfl
      exact other taken
    apply Same.counts
    apply same_step stepped
    · intro c' taken same
      exact differ c' taken (apart.distinct c' (within.1 c' taken) c inside same)
    · intro c' taken same
      rw [userId] at same
      exact differ c' taken
        (collection_inj (apart.decimal c' (within.1 c' taken)) (apart.decimal c inside) same)
  · intro c inside suppressed
    unfold Navigation.notificationOperation at suppressed
    split at suppressed
    next set =>
      obtain ⟨x,shown,within,name⟩ := named set.1
      exact ⟨x,shown,apart.distinct _ within c inside (name.symm.trans set.2)⟩
    next =>
      have more := congrArg (fun s => s.callbacks.length) suppressed
      simp at more

def chatOfTwo : Conversation := .chat "2"
def groupOfFive : Conversation := .group "5"
def five : UserId := ⟨"5",by simp,by simp⟩

def circle : Set Conversation := {c | c ∈ [chatOfTwo,groupOfFive]}

instance : DecidablePred (· ∈ circle) := fun c => inferInstanceAs (Decidable (c ∈ [_,_]))

theorem apart_circle : Apart circle where
  decimal := by
    intro c inside
    rcases List.mem_pair.mp inside with rfl | rfl
    · exact ⟨two,rfl⟩
    · exact ⟨five,rfl⟩
  distinct := by
    intro c inside c' inside' same
    rcases List.mem_pair.mp inside with rfl | rfl <;>
      rcases List.mem_pair.mp inside' with rfl | rfl
    · rfl
    · exact absurd same (by decide)
    · exact absurd same (by decide)
    · rfl

def unread : State where
  device := .started 0 one.text [("5",10)]
  messages := [(("groupMessages","5"),⟨"3",20⟩)]

theorem counts_unread (read : getInt s.device "5" = some 10)
    (history : s.history hash groupOfFive = [⟨"3",20⟩]) : Counts hash s groupOfFive "1" := by
  have marked : s.device.containsKey "5" = true := by
    rw [← getInt_isSome,read]
    rfl
  refine ⟨[⟨"3",20⟩],?_,?_⟩
  · intro t mark
    cases Option.some.inj (mark.symm.trans (show getInt s.device groupOfFive.id = some 10 from read))
    rw [history]
    exact ⟨by decide,by decide⟩
  · dsimp only [groupOfFive,setListGroupCount]
    rw [if_pos marked]
    decide

theorem conversations_independent_read : ∃ s t,
    Run (State.step String.length) (Within circle) unread [.navigate (.pushNamed chatOfTwo) 30,
      .navigate (.readLocal ⟨0,chatOfTwo⟩) 30] s ∧
    s.step String.length (.stream ⟨0,chatOfTwo⟩ 40) = some t ∧
    Counts String.length t groupOfFive "1" := by
  obtain ⟨s,run,read,history,within,t,stepped⟩ : ∃ s,
      Run (State.step String.length) (Within circle) unread [.navigate (.pushNamed chatOfTwo) 30,
        .navigate (.readLocal ⟨0,chatOfTwo⟩) 30] s ∧
      getInt s.device "5" = some 10 ∧ s.history String.length groupOfFive = [⟨"3",20⟩] ∧
      Within circle s (.stream ⟨0,chatOfTwo⟩ 40) ∧
      ∃ t, s.step String.length (.stream ⟨0,chatOfTwo⟩ 40) = some t := by
    simp only [← Option.isSome_iff_exists]
    exact Run.exists_of_exec (by decide)
  have counts := (conversations_independent apart_circle run within stepped).1 groupOfFive
    (by decide) (by decide) "1"
  exact ⟨s,t,run,stepped,counts.mpr (counts_unread read history)⟩

/-- With a user 5 and a group 5, opening the chat clears the count of the group and
suppresses its notifications. -/
theorem conversations_of_equal_ids : ∃ s t,
    Run (State.step String.length) anyStep unread [.navigate (.pushNamed (.chat "5")) 30] s ∧
    s.step String.length (.navigate (.readLocal ⟨0,.chat "5"⟩) 30) = some t ∧
    Counts String.length s groupOfFive "1" ∧ ¬ Counts String.length t groupOfFive "1" ∧
    t.navigation.notificationOperation groupOfFive = t.navigation ∧
    t.navigation.screens = [⟨0,.chat "5"⟩] ∧ t.navigation.leaving = [] := by
  obtain ⟨s,run,read,history,t,stepped,again,left,suppressed,screens,leaving⟩ : ∃ s,
      Run (State.step String.length) anyStep unread [.navigate (.pushNamed (.chat "5")) 30] s ∧
      getInt s.device "5" = some 10 ∧ s.history String.length groupOfFive = [⟨"3",20⟩] ∧
      ∃ t ∈ s.step String.length (.navigate (.readLocal ⟨0,.chat "5"⟩) 30),
        getInt t.device "5" = some 30 ∧ t.history String.length groupOfFive = [⟨"3",20⟩] ∧
        t.navigation.notificationOperation groupOfFive = t.navigation ∧
        t.navigation.screens = [⟨0,.chat "5"⟩] ∧ t.navigation.leaving = [] :=
    Run.exists_of_exec (by decide)
  refine ⟨s,t,run,stepped,counts_unread read history,?_,suppressed,screens,leaving⟩
  rintro ⟨found,answered,count⟩
  have none := (answered 30 again).perm
  rw [left] at none
  rw [List.perm_nil.mp none] at count
  dsimp only [groupOfFive,setListGroupCount] at count
  split at count <;> exact absurd count (by decide)

end Neuro.ConversationState
