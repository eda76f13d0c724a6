import Neuro.LateRequests
import Neuro.Lib.Run

/-! The three screens of a verification: a picture of the face, of the front and of the back of an
identity card. Each has a controller of its own, and leads on to the next. -/
namespace Neuro.VerificationScreens
open Neuro.Lib LateRequests

/-- The screens by the type they send, one text each. -/
inductive Side
  | image
  | frontImage
  | backImage
  deriving DecidableEq, Repr

def Side.next : Side → Option Side
  | .image => some .frontImage
  | .frontImage => some .backImage
  | .backImage => none

structure Verification where
  side : Side
  file : String
  deriving DecidableEq, Repr

/-- `picker` is the sheet on which the picture for the next screen is chosen. -/
structure Screen where
  side : Side
  fileFrontphoto : String
  picker : Bool := false
  deriving DecidableEq, Repr

structure State where
  screen : Option Screen := none
  senders : Senders Verification := {}
  deriving DecidableEq, Repr

/-- On the first screen No goes back; on the others it lets choose another picture. -/
inductive Action
  | selfie (file : String)
  | no (file : String)
  | yes
  | pick (file : String)
  | dismiss
  | back
  | resume (controller call : Nat) (r : Resume)
  deriving DecidableEq, Repr

namespace State
variable (s : State)

def opens (side : Side) (file : String) : State where
  screen := some ⟨side,file,false⟩
  senders := s.senders.opened

def step (s : State) : Action → Option State
  | .selfie file => if s.screen = none then some (s.opens .image file) else none
  | .no file => s.screen.bind fun screen =>
    if screen.picker then none
    else if screen.side = .image then some {s with screen := none}
    else some {s with screen := some {screen with fileFrontphoto := file}}
  | .yes => s.screen.bind fun screen => if screen.picker then none else
    (s.senders.call (s.senders.each.length - 1) ⟨screen.side,screen.fileFrontphoto⟩).map
      fun senders => {
        screen := some {screen with picker := screen.side.next.isSome}
        senders := senders}
  | .pick file => s.screen.bind fun screen => if screen.picker then
      screen.side.next.map fun side => s.opens side file
    else none
  | .dismiss => s.screen.bind fun screen =>
    if screen.picker then some {s with screen := some {screen with picker := false}} else none
  | .back => if s.screen = none then none else some {s with screen := none}
  | .resume k i r => (s.senders.resume true k i r).map fun senders => {s with senders := senders}

end State

/-- The screens before have been confirmed, in their order. -/
def Reached (side : Side) (asked : List Verification) : Prop := match side with
  | .image => True
  | .frontImage => .image ∈ asked.map Verification.side
  | .backImage => [.image,.frontImage].Sublist (asked.map Verification.side)

/-- Every picture has been confirmed after those of the screens before. -/
def InOrder (asked : List Verification) : Prop :=
  ∀ before b after, asked = before ++ b :: after → Reached b.side before

structure Inv (s : State) : Prop where
  ordered : InOrder s.senders.asked
  screen : ∀ screen ∈ s.screen, Reached screen.side s.senders.asked ∧
    (screen.picker = true → ∀ side ∈ screen.side.next, Reached side s.senders.asked)
  asked : Asked s.senders

section Order
variable {s t : State} {side : Side} {asked : List Verification} {b : Verification}

theorem reached_append (reached : Reached side asked) (later : List Verification) :
    Reached side (asked ++ later) := by
  cases side with
  | image => trivial
  | frontImage =>
    rw [Reached,List.map_append]
    exact List.mem_append_left _ reached
  | backImage =>
    rw [Reached,List.map_append]
    exact reached.trans (List.sublist_append_left ..)

/-- A confirmed screen lets the next one be reached. -/
theorem reached_next (reached : Reached b.side asked) (next : b.side.next = some side) :
    Reached side (asked ++ [b]) := by
  cases own : b.side with
  | image =>
    obtain rfl : .frontImage = side := by simpa [own,Side.next] using next
    simp [Reached,own]
  | frontImage =>
    obtain rfl : .backImage = side := by simpa [own,Side.next] using next
    rw [own,Reached] at reached
    rw [Reached,List.map_append,List.map_singleton,own]
    exact (List.singleton_sublist.mpr reached).append (List.Sublist.refl [Side.frontImage])
  | backImage => simp [own,Side.next] at next

theorem inOrder_append (ordered : InOrder asked) (reached : Reached b.side asked) :
    InOrder (asked ++ [b]) := by
  intro before c after same
  rcases List.eq_nil_or_concat after with rfl | ⟨others,last,rfl⟩
  · obtain ⟨rfl,single⟩ := List.append_inj' same rfl
    obtain rfl : b = c := by simpa using single
    exact reached
  · have longer : asked ++ [b] = (before ++ c :: others) ++ [last] := by simpa using same
    exact ordered before c others (List.append_inj' longer rfl).1

theorem inv_opens (inv : Inv s) (reached : Reached side s.senders.asked) (file : String) :
    Inv (s.opens side file) where
  ordered := inv.ordered
  screen := by simpa [State.opens,Senders.opened] using reached
  asked := asked_opened inv.asked

theorem inv_step {a : Action} (inv : Inv s) (stepped : s.step a = some t) : Inv t := by
  cases a with
  | selfie file =>
    simp only [State.step] at stepped
    split at stepped
    · have reached : Reached .image s.senders.asked := trivial
      exact Option.some.inj stepped ▸ inv_opens inv reached file
    · contradiction
  | no file =>
    obtain ⟨screen,shown,taken⟩ := Option.bind_eq_some_iff.mp stepped
    obtain ⟨reached,_⟩ := inv.screen screen shown
    split at taken
    · contradiction
    next closed =>
      split at taken
      · exact Option.some.inj taken ▸ ⟨inv.ordered,by simp,inv.asked⟩
      · refine Option.some.inj taken ▸ ⟨inv.ordered,?_,inv.asked⟩
        simpa [closed] using reached
  | yes =>
    obtain ⟨screen,shown,taken⟩ := Option.bind_eq_some_iff.mp stepped
    obtain ⟨reached,_⟩ := inv.screen screen shown
    split at taken
    · contradiction
    · obtain ⟨senders,called,rfl⟩ := Option.map_eq_some_iff.mp taken
      have grown := asked_eq_of_call called
      refine ⟨?_,fun next own => ?_,asked_call inv.asked called⟩
      · rw [grown]
        exact inOrder_append inv.ordered reached
      · obtain rfl := Option.some.inj own
        rw [grown]
        exact ⟨reached_append reached _,fun _ side next => reached_next reached next⟩
  | pick file =>
    obtain ⟨screen,shown,taken⟩ := Option.bind_eq_some_iff.mp stepped
    split at taken
    next picker =>
      obtain ⟨side,next,rfl⟩ := Option.map_eq_some_iff.mp taken
      exact inv_opens inv ((inv.screen screen shown).2 picker side next) file
    next => contradiction
  | dismiss =>
    obtain ⟨screen,shown,taken⟩ := Option.bind_eq_some_iff.mp stepped
    split at taken
    · refine Option.some.inj taken ▸ ⟨inv.ordered,?_,inv.asked⟩
      simpa using (inv.screen screen shown).1
    · contradiction
  | back =>
    simp only [State.step] at stepped
    split at stepped
    · contradiction
    · exact Option.some.inj stepped ▸ ⟨inv.ordered,by simp,inv.asked⟩
  | resume k i r =>
    obtain ⟨senders,resumed,rfl⟩ := Option.map_eq_some_iff.mp stepped
    have same := asked_eq_of_resume resumed
    exact ⟨same ▸ inv.ordered,same ▸ inv.screen,asked_resume inv.asked resumed⟩

/-- Every picture that is posted has been confirmed on the screen of its type, and the pictures
are confirmed in their order. -/
theorem confirmed_in_order {as : List Action} (run : Run State.step anyStep {} as t) :
    InOrder t.senders.asked ∧ ∀ b ∈ t.senders.sent, b ∈ t.senders.asked := by
  have initial : Inv {} := ⟨by simp [InOrder],by simp,⟨by simp,by simp,by simp⟩⟩
  have inv := run.invariant Inv initial fun _ _ _ inv _ => inv_step inv
  exact ⟨inv.ordered,inv.asked.sent⟩

/-- The front of the card is confirmed twice, with another picture the second time, before either
call has posted. -/
def twice : List Action :=
  [.selfie "me.jpg",.yes,.pick "dark.jpg",.yes,.resume 1 0 (.connected true),.dismiss,
    .no "front.jpg",.yes,.pick "back.jpg",.yes,.resume 0 0 (.connected true),
    .resume 2 0 (.connected true),.resume 2 0 .prefsLoaded,.resume 1 1 (.connected true),
    .resume 1 1 .prefsLoaded,.resume 0 0 .prefsLoaded,.resume 1 0 .prefsLoaded,
    .resume 1 0 (.measured true),.resume 1 1 (.measured true),.resume 0 0 (.measured true),
    .resume 2 0 (.measured true)]

theorem confirmed_in_order_twice : ∃ t, Run State.step anyStep {} twice t ∧
    t.senders.sent.length = 4 ∧
      InOrder t.senders.asked ∧ ∀ b ∈ t.senders.sent, b ∈ t.senders.asked := by
  have computed : ∃ t, Run State.step anyStep {} twice t ∧ t.senders.sent.length = 4 :=
    Run.exists_of_exec (by decide +kernel)
  obtain ⟨t,run,sent⟩ := computed
  exact ⟨t,run,sent,confirmed_in_order run⟩

end Order

/-! The pictures that the server keeps. -/

/-- There is a connection, the files can be read, and a screen confirms only when earlier screens
of its type have posted what was confirmed there, and none of its own calls awaits the length of
its file. -/
def Posting (s : State) : Action → Prop
  | .yes => (∀ screen ∈ s.screen, ∀ other ∈ s.senders.each.dropLast, ∀ b ∈ other.held,
      b.side ≠ screen.side) ∧
    ∀ own ∈ s.senders.each.getLast?, ∀ call ∈ own.calls, call.body = none
  | .resume _ _ r => r ≠ .connected false ∧ r ≠ .measured false
  | .selfie _ | .no _ | .pick _ | .dismiss | .back => True

instance (s : State) : ∀ a, Decidable (Posting s a)
  | .yes => inferInstanceAs
    (Decidable ((∀ _ ∈ _, ∀ _ ∈ _, ∀ _ ∈ _, _ ≠ _) ∧ ∀ _ ∈ _, ∀ _ ∈ _, _ = none))
  | .resume .. => inferInstanceAs (Decidable (_ ≠ _ ∧ _ ≠ _))
  | .selfie _ | .no _ | .pick _ | .dismiss | .back => inferInstanceAs (Decidable True)

/-- The controller of the screen is the last one, and sends one type only. -/
structure Kept (side : Side) (s : State) : Prop where
  late : Late Verification.side side s.senders
  own : ∀ screen ∈ s.screen, ∀ b,
    (s.senders.each.map Sender.sendData).getLast? = some (some b) → b.side = screen.side

section Kept
variable {s t : State} {side : Side}

theorem alone_of_posting {screen : Screen} (kept : Kept side s) (shown : s.screen = some screen)
    (posting : Posting s .yes) : Alone Verification.side s.senders (s.senders.each.length - 1)
      ⟨screen.side,screen.fileFrontphoto⟩ := by
  constructor
  · rw [List.eraseIdx_length_sub_one]
    exact posting.1 screen shown
  · intro sender last
    rw [← List.getLast?_eq_getElem?] at last
    refine ⟨fun d body => ?_,fun d _ data => ?_⟩
    · exact absurd (posting.2 sender last _ body) nofun
    · refine kept.own screen shown d ?_
      rw [List.getLast?_map,last,Option.map_some,data]

theorem kept_step {a : Action} (kept : Kept side s) (posting : Posting s a)
    (stepped : s.step a = some t) : Kept side t := by
  have opens (next : Side) (file : String) : Kept side (s.opens next file) :=
    ⟨late_opened kept.late,by simp [State.opens,Senders.opened]⟩
  cases a with
  | selfie file =>
    simp only [State.step] at stepped
    split at stepped
    · exact Option.some.inj stepped ▸ opens .image file
    · contradiction
  | no file =>
    obtain ⟨screen,shown,taken⟩ := Option.bind_eq_some_iff.mp stepped
    split at taken
    · contradiction
    · split at taken
      · exact Option.some.inj taken ▸ ⟨kept.late,by simp⟩
      · refine Option.some.inj taken ▸ ⟨kept.late,fun next same => ?_⟩
        exact Option.some.inj same ▸ kept.own screen shown
  | yes =>
    obtain ⟨screen,shown,taken⟩ := Option.bind_eq_some_iff.mp stepped
    split at taken
    · contradiction
    · obtain ⟨senders,called,rfl⟩ := Option.map_eq_some_iff.mp taken
      refine ⟨late_call kept.late (alone_of_posting kept shown posting) called,?_⟩
      obtain ⟨sender,found,rfl⟩ := Option.map_eq_some_iff.mp called
      obtain ⟨bound,_⟩ := List.getElem?_eq_some_iff.mp found
      intro next same b last
      rw [List.getLast?_map,List.getLast?_eq_getElem?,List.length_set,List.getElem?_set_self bound,
        Option.map_some] at last
      rw [← Option.some.inj same,← Option.some.inj (Option.some.inj last)]
  | pick file =>
    obtain ⟨screen,shown,taken⟩ := Option.bind_eq_some_iff.mp stepped
    split at taken
    · obtain ⟨next,_,rfl⟩ := Option.map_eq_some_iff.mp taken
      exact opens next file
    · contradiction
  | dismiss =>
    obtain ⟨screen,shown,taken⟩ := Option.bind_eq_some_iff.mp stepped
    split at taken
    · refine Option.some.inj taken ▸ ⟨kept.late,fun next same => ?_⟩
      exact Option.some.inj same ▸ kept.own screen shown
    · contradiction
  | back =>
    simp only [State.step] at stepped
    split at stepped
    · contradiction
    · exact Option.some.inj stepped ▸ ⟨kept.late,by simp⟩
  | resume k i r =>
    obtain ⟨senders,resumed,rfl⟩ := Option.map_eq_some_iff.mp stepped
    have same := sendData_of_resume resumed
    exact ⟨late_resume kept.late posting.1 posting.2 resumed,same ▸ kept.own⟩

/-- Once all calls are through, the picture of each type that was posted last is the one that was
confirmed last. -/
theorem latest_confirmed {as : List Action} (run : Run State.step Posting {} as t)
    (quiet : t.senders.Quiet) (side : Side) :
    latestOf Verification.side side t.senders.sent =
      latestOf Verification.side side t.senders.asked := by
  have initial : Kept side {} := ⟨⟨by simp,.inr rfl⟩,by simp⟩
  have kept := run.invariant (Kept side) initial fun _ _ _ => kept_step
  exact latest_of_quiet kept.late quiet

theorem latest_confirmed_twice : ∃ t, Run State.step Posting {} twice t ∧
    latestOf Verification.side .frontImage t.senders.sent = some ⟨.frontImage,"front.jpg"⟩ ∧
      latestOf Verification.side .frontImage t.senders.sent =
        latestOf Verification.side .frontImage t.senders.asked := by
  have computed : ∃ t, Run State.step Posting {} twice t ∧ t.senders.Quiet ∧
      latestOf Verification.side .frontImage t.senders.sent = some ⟨.frontImage,"front.jpg"⟩ :=
    Run.exists_of_exec (by decide +kernel)
  obtain ⟨t,run,quiet,latest⟩ := computed
  exact ⟨t,run,latest,latest_confirmed run quiet .frontImage⟩

/-- A call that awaits the length of its file is overtaken by one for a picture confirmed since. -/
example : ∃ t, Run State.step anyStep {} [.selfie "dark.jpg",.yes,.resume 0 0 (.connected true),
      .resume 0 0 .prefsLoaded,.back,.selfie "me.jpg",.yes,.resume 1 0 (.connected true),
      .resume 1 0 .prefsLoaded,.resume 1 0 (.measured true),.resume 0 0 (.measured true)] t ∧
    latestOf Verification.side .image t.senders.sent = some ⟨.image,"dark.jpg"⟩ ∧
      latestOf Verification.side .image t.senders.asked = some ⟨.image,"me.jpg"⟩ :=
  Run.exists_of_exec (by decide)

end Kept

end Neuro.VerificationScreens
