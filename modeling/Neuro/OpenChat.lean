import Mathlib.Data.List.Chain
import Neuro.Lib.Pool
import Neuro.Lib.Run

/-! Which chat is open: `readLocal` of either chat screen sets the two globals after an
await, `dispose` clears them, and a tapped push notification reads them. -/
namespace Neuro.OpenChat
open Neuro.Lib

inductive Conversation
  | chat (peerId : String)
  | group (groupId : String)
  deriving DecidableEq, Repr

def Conversation.id : Conversation → String
  | .chat peerId => peerId
  | .group groupId => groupId

structure Screen where
  serial : Nat
  conversation : Conversation
  deriving DecidableEq, Repr

/-- The chat screens on the navigation stack, the topmost first, and the popped ones that
are not disposed yet; `reading` are the ones whose `readLocal` still awaits the
preferences, `callbacks` the screens to be pushed after the frame. -/
structure Navigation where
  opened : List Screen := []
  screens : List Screen := []
  leaving : List Screen := []
  reading : List Screen := []
  callbacks : List Conversation := []
  chatuserId : String := ""
  isInChat : Bool := false
  deriving DecidableEq, Repr

inductive Action
  /-- From the inbox, the matches or the group list. -/
  | pushNamed (c : Conversation)
  | notificationOperation (c : Conversation)
  | frame
  | readLocal (x : Screen)
  | pop
  | dispose (x : Screen)
  /-- The two routes that replace the whole stack. -/
  | login
  | dashboard
  deriving DecidableEq, Repr

namespace Navigation
variable (s : Navigation)

def push (c : Conversation) : Navigation :=
  let x : Screen := ⟨s.opened.length,c⟩
  {s with
    opened := s.opened ++ [x]
    screens := x :: s.screens
    reading := s.reading ++ [x]}

def notificationOperation (c : Conversation) : Navigation :=
  if s.isInChat ∧ s.chatuserId = c.id then s else {s with callbacks := s.callbacks ++ [c]}

def frame : Navigation := s.callbacks.foldl push {s with callbacks := []}

def removeAll : Navigation := {s with screens := [],leaving := s.leaving ++ s.screens}

def step : Action → Option Navigation
  | .pushNamed c => some (s.push c)
  | .notificationOperation c => some (s.notificationOperation c)
  | .frame => some s.frame
  | .readLocal x => if x ∈ s.reading then some {s with
      reading := s.reading.erase x
      chatuserId := x.conversation.id
      isInChat := true} else none
  | .pop => match s.screens with
    | [] => none
    | top :: below => some {s with screens := below,leaving := s.leaving ++ [top]}
  | .dispose x => if x ∈ s.leaving then some {s with
      leaving := s.leaving.erase x
      chatuserId := ""
      isInChat := false} else none
  | .login => some s.removeAll
  | .dashboard => some {s.removeAll with chatuserId := "",isInChat := false}

end Navigation

/-- A chat screen is disposed or uncovered only while none that is shown then has run its
`readLocal`, and `readLocal` runs before what is shown above it and before the disposal. A
notification is not tapped for a chat whose screen has still to run its `readLocal` or to be
pushed, and no such chat comes to be shown in another way. -/
def Orderly (s : Navigation) : Action → Prop
  | .readLocal x => (∀ top ∈ s.screens.head?, x = top ∨ top ∈ s.reading) ∧
    (s.screens = [] → s.leaving ≠ [])
  | .pop => ∀ below ∈ s.screens[1]?, below ∈ s.reading ∧
    below.conversation ∉ s.callbacks.head?
  | .dispose _ => ∀ top ∈ s.screens.head?, top ∈ s.reading
  | .pushNamed c => c ∉ s.callbacks.head?
  | .notificationOperation c => c ∉ s.callbacks.getLast? ∧
    (s.callbacks = [] → ∀ top ∈ s.screens.head?, top ∈ s.reading → top.conversation ≠ c)
  | .frame | .login | .dashboard => True

instance : ∀ s a, Decidable (Orderly s a)
  | _,.readLocal _ => inferInstanceAs (Decidable ((∀ _ ∈ _, _ ∨ _) ∧ (_ → _)))
  | _,.pop => inferInstanceAs (Decidable (∀ _ ∈ _, _ ∧ _))
  | _,.dispose _ => inferInstanceAs (Decidable (∀ _ ∈ _, _))
  | _,.pushNamed _ => inferInstanceAs (Decidable (¬ _))
  | _,.notificationOperation _ => inferInstanceAs (Decidable (_ ∧ (_ → ∀ _ ∈ _, _ → _)))
  | _,.frame | _,.login | _,.dashboard => inferInstanceAs (Decidable True)

/-- The topmost screen has run its `readLocal`; with no screen left, all are disposed. -/
structure Settled (s : Navigation) : Prop where
  loaded : ∀ top ∈ s.screens.head?, top ∉ s.reading
  disposed : s.screens = [] → s.leaving = []

/-- The globals name the topmost chat screen, which a notification does not open again. -/
structure Followed (s : Navigation) : Prop where
  topmost : ∀ top ∈ s.screens.head?, s.isInChat = true ∧ s.chatuserId = top.conversation.id
  closed : s.screens = [] → s.isInChat = false
  suppressed : ∀ top ∈ s.screens.head?, s.notificationOperation top.conversation = s

/-- Each callback of the frame pushes its screen over one of another chat. -/
def Covers (s : Navigation) : Prop :=
  ∀ before c after, s.callbacks = before ++ c :: after →
    ∀ top ∈ (before.foldl Navigation.push {s with callbacks := []}).screens.head?,
      top.conversation ≠ c

def shown (s : Navigation) : List Conversation :=
  (s.screens.head?.map Screen.conversation).toList

structure Tracked (s : Navigation) : Prop where
  topmost : ∀ top ∈ s.screens.head?, top ∉ s.reading →
    s.isInChat = true ∧ s.chatuserId = top.conversation.id
  closed : s.screens = [] → s.leaving = [] → s.isInChat = false

/-- What is shown and what is to be pushed over it. -/
def Unrepeated (s : Navigation) : Prop := (shown s ++ s.callbacks).IsChain (· ≠ ·)

variable {s t : Navigation}

theorem tracked_push (s : Navigation) (c : Conversation) : Tracked (s.push c) where
  topmost top shown loaded := by
    cases Option.some.inj shown
    exact absurd (List.mem_append_right _ (List.mem_singleton.mpr rfl)) loaded
  closed none := by contradiction

theorem of_frame {p : Navigation → Prop} (started : p {s with callbacks := []})
    (pushed : ∀ s c, p s → p (s.push c)) : p s.frame := by
  unfold Navigation.frame
  generalize {s with callbacks := []} = u at started
  induction s.callbacks generalizing u with
  | nil => exact started
  | cons c rest ih => exact ih _ (pushed u c started)

theorem tracked_readLocal {x : Screen} (orderly : Orderly s (.readLocal x)) :
    Tracked {s with
      reading := s.reading.erase x
      chatuserId := x.conversation.id
      isInChat := true} where
  topmost top shown loaded := by
    rcases orderly.1 top shown with rfl | waiting
    · exact ⟨rfl,rfl⟩
    · by_cases same : x = top
      · exact ⟨rfl,congrArg (fun x => x.conversation.id) same⟩
      · exact absurd ((List.mem_erase_of_ne (Ne.symm same)).mpr waiting) loaded
  closed none gone := absurd gone (orderly.2 none)

theorem tracked_step {a : Action} (tracked : Tracked s) (orderly : Orderly s a)
    (stepped : s.step a = some t) : Tracked t := by
  cases a with
  | pushNamed c =>
    cases Option.some.inj stepped
    exact tracked_push s c
  | notificationOperation c =>
    cases Option.some.inj stepped
    unfold Navigation.notificationOperation
    split
    · exact tracked
    · exact ⟨tracked.topmost,tracked.closed⟩
  | frame =>
    cases Option.some.inj stepped
    exact of_frame ⟨tracked.topmost,tracked.closed⟩ fun s c _ => tracked_push s c
  | readLocal x =>
    rw [Navigation.step] at stepped
    split at stepped
    · cases Option.some.inj stepped
      exact tracked_readLocal orderly
    · contradiction
  | pop =>
    rw [Navigation.step] at stepped
    split at stepped
    · contradiction
    next top below list =>
      cases Option.some.inj stepped
      refine ⟨fun next shown loaded => ?_,by simp⟩
      -- what comes into view has still to run its readLocal
      rw [Orderly,list] at orderly
      rw [Option.mem_def,List.head?_eq_getElem?] at shown
      exact absurd (orderly next shown).1 loaded
  | dispose x =>
    rw [Navigation.step] at stepped
    split at stepped
    · cases Option.some.inj stepped
      exact ⟨fun top shown loaded => absurd (orderly top shown) loaded,fun _ _ => rfl⟩
    · contradiction
  | login =>
    cases Option.some.inj stepped
    refine ⟨by simp [Navigation.removeAll],fun _ gone => ?_⟩
    obtain ⟨none,empty⟩ := List.append_eq_nil_iff.mp gone
    exact tracked.closed empty none
  | dashboard =>
    cases Option.some.inj stepped
    exact ⟨by simp [Navigation.removeAll],fun _ _ => rfl⟩

theorem shown_pushed (s : Navigation) (before : List Conversation) :
    (before.foldl Navigation.push s).screens.head?.map Screen.conversation =
      (shown s ++ before).getLast? := by
  induction before using List.reverseRecOn with
  | nil =>
    rw [List.append_nil,shown,List.foldl_nil]
    cases s.screens.head? <;> rfl
  | append_singleton before c =>
    rw [List.foldl_append,← List.append_assoc,List.getLast?_concat]
    rfl

theorem covers_of_unrepeated (unrepeated : Unrepeated s) : Covers s := by
  intro before c after queued top above
  have last := shown_pushed {s with callbacks := []} before
  rw [Option.mem_def.mp above,Option.map_some] at last
  rw [Unrepeated,queued,← List.append_assoc,List.isChain_append] at unrepeated
  exact unrepeated.2.2 _ last.symm c rfl

theorem unrepeated_frame (s : Navigation) : Unrepeated s.frame := by
  have carried : s.frame.callbacks = [] :=
    of_frame (p := fun s => s.callbacks = []) rfl fun _ _ none => none
  rw [Unrepeated,carried,List.append_nil,shown]
  cases s.frame.screens.head? with
  | none => exact .nil
  | some top => exact .singleton _

theorem unrepeated_cons {c : Conversation} (unrepeated : Unrepeated s)
    (other : c ∉ s.callbacks.head?) : ([c] ++ s.callbacks).IsChain (· ≠ ·) :=
  unrepeated.right_of_append.cons fun _ queued same => other (same ▸ queued)

theorem unrepeated_notification {c : Conversation} (tracked : Tracked s)
    (unrepeated : Unrepeated s) (orderly : Orderly s (.notificationOperation c)) :
    Unrepeated (s.notificationOperation c) := by
  unfold Navigation.notificationOperation
  split
  · exact unrepeated
  next unnamed =>
    obtain ⟨unasked,unread⟩ := orderly
    change ((shown s ++ (s.callbacks ++ [c]))).IsChain (· ≠ ·)
    rw [← List.append_assoc]
    refine unrepeated.append (.singleton c) fun last above next asked => ?_
    cases Option.some.inj asked
    cases queue : s.callbacks.getLast? with
    | some queued =>
      rw [List.getLast?_append,queue,Option.some_or] at above
      cases Option.some.inj above
      exact fun same => unasked (same ▸ queue)
    | none =>
      have none := List.getLast?_eq_none_iff.mp queue
      rw [none,List.append_nil,shown] at above
      cases view : s.screens.head? with
      | none =>
        rw [view] at above
        contradiction
      | some top =>
        rw [view] at above
        cases Option.some.inj above
        rintro rfl
        -- the globals name the topmost chat, or its readLocal has still to run
        by_cases loaded : top ∈ s.reading
        · exact unread none top view loaded rfl
        · exact unnamed (tracked.topmost top view loaded)

theorem unrepeated_step {a : Action} (tracked : Tracked s) (unrepeated : Unrepeated s)
    (orderly : Orderly s a) (stepped : s.step a = some t) : Unrepeated t := by
  cases a with
  | pushNamed c =>
    cases Option.some.inj stepped
    exact unrepeated_cons (s := s) unrepeated orderly
  | notificationOperation c =>
    cases Option.some.inj stepped
    exact unrepeated_notification tracked unrepeated orderly
  | frame =>
    cases Option.some.inj stepped
    exact unrepeated_frame s
  | readLocal x | dispose x =>
    rw [Navigation.step] at stepped
    split at stepped
    · cases Option.some.inj stepped
      exact unrepeated
    · contradiction
  | pop =>
    rw [Navigation.step] at stepped
    split at stepped
    · contradiction
    next top below list =>
      cases Option.some.inj stepped
      cases below with
      | nil => exact unrepeated.right_of_append
      | cons next rest =>
        rw [Orderly,list] at orderly
        exact unrepeated_cons (s := s) unrepeated (orderly next rfl).2
  | login | dashboard =>
    cases Option.some.inj stepped
    exact unrepeated.right_of_append

theorem followed_of_tracked (tracked : Tracked s) (settled : Settled s) : Followed s where
  topmost top shown := tracked.topmost top shown (settled.loaded top shown)
  closed none := tracked.closed none (settled.disposed none)
  suppressed top shown := if_pos (tracked.topmost top shown (settled.loaded top shown))

instance (s : Navigation) : Decidable (Settled s) :=
  decidable_of_iff ((∀ top ∈ s.screens.head?, top ∉ s.reading) ∧ (s.screens = [] → s.leaving = []))
    ⟨fun ⟨loaded,disposed⟩ => ⟨loaded,disposed⟩,fun ⟨loaded,disposed⟩ => ⟨loaded,disposed⟩⟩

def ben : Conversation := .chat "2"
def eve : Conversation := .chat "3"

end Neuro.OpenChat
