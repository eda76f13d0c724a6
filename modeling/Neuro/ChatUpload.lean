import Mathlib.Algebra.Order.Group.Multiset
import Mathlib.Algebra.Order.Ring.Rat
import Neuro.ChatScreen
import Neuro.Lib.Pool
import Neuro.Lib.Run

/-! Images and voice messages of a chat screen. Each has an upload task of its own, and all tasks
report to the one progress bar of the screen. -/
namespace Neuro.ChatUpload
open Neuro.Lib
open ChatScreen (Message blank)

inductive Kind
  | image
  | voice
  deriving DecidableEq, Repr

def Kind.type : Kind → Int
  | .image => 1
  | .voice => 2

def Kind.uploadString : Kind → String
  | .image => "Upload Image"
  | .voice => "Upload Voice"

structure TaskSnapshot where
  bytesTransferred : Nat
  totalBytes : Nat
  deriving DecidableEq, Repr

/-- `none` is what the division by zero gives, which equals no number. -/
def progress (event : TaskSnapshot) : Option ℚ :=
  if event.totalBytes = 0 then none else some (event.bytesTransferred / event.totalBytes)

inductive Phase
  | putting
  | linking
  | ended (url : Option String)
  deriving DecidableEq, Repr

def Phase.ends : Phase → Bool
  | .ended _ => true
  | .putting | .linking => false

/-- One run of `uploadFile` or `_stop`; `last` is what its stream has reported latest. -/
structure Upload where
  kind : Kind
  listening : Bool := true
  last : Option TaskSnapshot := none
  phase : Phase := .putting
  deriving DecidableEq, Repr

inductive Mark
  | progress (upload : Nat) (event : TaskSnapshot)
  | reset
  deriving DecidableEq, Repr

/-- `resets` are the delays that still run, `marks` the history of the bar. -/
structure State where
  mounted : Bool := true
  uploads : List Upload := []
  uploadCount : Option ℚ := some 0
  uploadString : String := ""
  resets : Nat := 0
  sent : List Message := []
  marks : List Mark := []
  deriving DecidableEq, Repr

inductive Action
  | getImage
  | stop (milliseconds : Nat)
  | snapshotEvent (upload : Nat) (event : TaskSnapshot)
  | streamDone (upload : Nat)
  | delayed
  | uploaded (upload : Nat) (succeeded : Bool)
  | linked (upload : Nat) (url : Option String)
  | dispose
  deriving DecidableEq, Repr

namespace State
variable (asserts : Bool) (s : State)

def start (kind : Kind) : State := {s with uploads := s.uploads ++ [{kind := kind}]}

def put (i : Nat) (upload : Upload) : State := {s with uploads := s.uploads.set i upload}

def onSendMessage (content : String) (type : Int) : State :=
  if blank content then s else {s with sent := s.sent ++ [⟨content,type⟩]}

/-- A `setState` of a screen that is gone throws, with assertions before its callback and without
them after it. -/
def sends (upload : Upload) : Option String → State
  | none => s
  | some url => if s.mounted || !asserts then s.onSendMessage url upload.kind.type else s

/-- The fields are assigned before `setState`, which only then throws on a screen that is gone. -/
def listen (i : Nat) (upload : Upload) (event : TaskSnapshot) : State :=
  let s := s.put i {upload with last := some event}
  if progress event ≠ some 1 then {s with
    uploadCount := progress event
    uploadString := upload.kind.uploadString
    marks := s.marks ++ [.progress i event]}
  else {s with resets := s.resets + 1}

def step (s : State) : Action → Option State
  | .getImage => if s.mounted then some (s.start .image) else none
  | .stop milliseconds => some (if 5 < milliseconds / 1000 then s.start .voice else s)
  | .snapshotEvent i event => s.uploads[i]?.bind fun upload =>
    if upload.listening then some (s.listen i upload event) else none
  | .streamDone i => s.uploads[i]?.map fun upload => s.put i {upload with listening := false}
  | .delayed => if s.resets = 0 then none else some {s with
    uploadCount := some 0
    uploadString := ""
    resets := s.resets - 1
    marks := s.marks ++ [.reset]}
  | .uploaded i succeeded => s.uploads[i]?.bind fun upload =>
    if upload.phase = .putting then
      some (s.put i {upload with phase := if succeeded then .linking else .ended none})
    else none
  | .linked i url => s.uploads[i]?.bind fun upload =>
    if upload.phase = .linking then
      some ((s.put i {upload with phase := .ended url}).sends asserts upload url)
    else none
  | .dispose => if s.mounted then some {s with mounted := false} else none

end State

/-- A screen that is there draws the bar when `uploadCount` is not 0.0. -/
def State.shows (s : State) : Prop := s.mounted = true ∧ s.uploadCount ≠ some 0

/-- What the bar shows was reported by an upload for which it was the last report, and which was
not through. -/
structure Broken (s : State) (i : Nat) (event : TaskSnapshot) (upload : Upload) : Prop where
  mark : s.marks.getLast? = some (.progress i event)
  listed : s.uploads[i]? = some upload
  last : upload.last = some event
  nonzero : progress event ≠ some 0
  part : progress event ≠ some 1
  string : s.uploadString = upload.kind.uploadString

/-- The latest mark is what the bar shows, and unless it was the last report of its upload there
is a delay that will reset the bar. -/
structure Bar (s : State) : Prop where
  reset : s.marks.getLast? = none ∨ s.marks.getLast? = some .reset → s.uploadCount = some 0
  report : ∀ i event, s.marks.getLast? = some (.progress i event) →
    s.uploadCount = progress event ∧ progress event ≠ some 1 ∧
      ∃ upload, s.uploads[i]? = some upload ∧
        s.uploadString = upload.kind.uploadString ∧ (upload.last = some event ∨ 0 < s.resets)

section Bar
variable {asserts : Bool} {s t : State} {i : Nat} {upload next : Upload}

theorem bar_put (bar : Bar s) (found : s.uploads[i]? = some upload) (kind : next.kind = upload.kind)
    (last : next.last = upload.last) : Bar (s.put i next) := by
  refine ⟨bar.reset,fun j event mark => ?_⟩
  obtain ⟨count,part,other,listed,string,live⟩ := bar.report j event mark
  by_cases same : i = j
  · subst same
    obtain rfl : upload = other := Option.some.inj (found.symm.trans listed)
    obtain ⟨bound,_⟩ := List.getElem?_eq_some_iff.mp found
    exact ⟨count,part,next,by simp [State.put,bound],kind ▸ string,last ▸ live⟩
  · exact ⟨count,part,other,by simpa [State.put,same] using listed,string,live⟩

theorem bar_sends (bar : Bar s) (url : Option String) : Bar (s.sends asserts upload url) := by
  unfold State.sends State.onSendMessage
  split
  · exact bar
  · split
    · split
      · exact bar
      · exact ⟨bar.reset,bar.report⟩
    · exact bar

theorem bar_start (bar : Bar s) (kind : Kind) : Bar (s.start kind) := by
  refine ⟨bar.reset,fun j event mark => ?_⟩
  obtain ⟨count,part,other,listed,string,live⟩ := bar.report j event mark
  exact ⟨count,part,other,Pool.mem_appended.mpr (.inl listed),string,live⟩

theorem bar_listen (bar : Bar s) (found : s.uploads[i]? = some upload) (event : TaskSnapshot) :
    Bar (s.listen i upload event) := by
  obtain ⟨bound,_⟩ := List.getElem?_eq_some_iff.mp found
  simp only [State.listen]
  split
  next part =>
    refine ⟨by simp [State.put],fun j other mark => ?_⟩
    obtain ⟨rfl,rfl⟩ : i = j ∧ event = other := by simpa [State.put] using mark
    exact ⟨rfl,part,{upload with last := some event},by simp [State.put,bound],rfl,.inl rfl⟩
  next =>
    refine ⟨bar.reset,fun j other mark => ?_⟩
    obtain ⟨count,part,shown,listed,string,_⟩ := bar.report j other mark
    by_cases same : i = j
    · subst same
      obtain rfl : upload = shown := Option.some.inj (found.symm.trans listed)
      exact ⟨count,part,{upload with last := some event},by simp [State.put,bound],string,
        .inr (Nat.succ_pos _)⟩
    · exact ⟨count,part,shown,by simpa [State.put,same] using listed,string,.inr (Nat.succ_pos _)⟩

theorem bar_step {a : Action} (bar : Bar s) (stepped : s.step asserts a = some t) : Bar t := by
  cases a with
  | getImage =>
    simp only [State.step] at stepped
    split at stepped
    · exact Option.some.inj stepped ▸ bar_start bar .image
    · contradiction
  | stop milliseconds =>
    rw [← Option.some.inj stepped]
    split
    · exact bar_start bar .voice
    · exact bar
  | snapshotEvent i event =>
    obtain ⟨upload,found,taken⟩ := Option.bind_eq_some_iff.mp stepped
    split at taken
    · exact Option.some.inj taken ▸ bar_listen bar found event
    · contradiction
  | streamDone i =>
    obtain ⟨upload,found,rfl⟩ := Option.map_eq_some_iff.mp stepped
    exact bar_put bar found rfl rfl
  | delayed =>
    simp only [State.step] at stepped
    split at stepped
    · contradiction
    · rw [← Option.some.inj stepped]
      exact ⟨fun _ => rfl,by simp⟩
  | uploaded i succeeded =>
    obtain ⟨upload,found,taken⟩ := Option.bind_eq_some_iff.mp stepped
    split at taken
    · exact Option.some.inj taken ▸ bar_put bar found rfl rfl
    · contradiction
  | linked i url =>
    obtain ⟨upload,found,taken⟩ := Option.bind_eq_some_iff.mp stepped
    split at taken
    · have ended : Bar (s.put i {upload with phase := .ended url}) := bar_put bar found rfl rfl
      exact Option.some.inj taken ▸ bar_sends ended url
    · contradiction
  | dispose =>
    simp only [State.step] at stepped
    split at stepped
    · exact Option.some.inj stepped ▸ ⟨bar.reset,bar.report⟩
    · contradiction

/-- When no delay runs, a screen that is there draws the bar exactly when the latest report on it
came from an upload that has not been through and has reported nothing since. -/
theorem shows_iff_broken {as : List Action} (run : Run (State.step asserts) anyStep {} as t)
    (delays : t.resets = 0) :
    t.shows ↔ t.mounted = true ∧ ∃ i event upload, Broken t i event upload := by
  have bar : Bar t := run.invariant Bar ⟨fun _ => rfl,by simp⟩ fun _ _ _ bar _ => bar_step bar
  refine and_congr_right fun _ => ?_
  constructor
  · intro shows
    match mark : t.marks.getLast? with
    | none => exact absurd (bar.reset (.inl mark)) shows
    | some .reset => exact absurd (bar.reset (.inr mark)) shows
    | some (.progress i event) =>
      obtain ⟨count,part,upload,listed,string,live⟩ := bar.report i event mark
      have last := live.resolve_right (by simp [delays])
      exact ⟨i,event,upload,mark,listed,last,count ▸ shows,part,string⟩
  · rintro ⟨i,event,upload,broken⟩
    rw [(bar.report i event broken.mark).1]
    exact broken.nonzero

/-- An image and a voice message at the same time, of which the image breaks off. -/
def overlapping : List Action :=
  [.getImage,.stop 7000,.snapshotEvent 0 ⟨1,4⟩,.snapshotEvent 1 ⟨2,2⟩,.uploaded 1 true,
    .linked 1 (some "v.m4a"),.delayed,.snapshotEvent 0 ⟨2,4⟩,.uploaded 0 false,.streamDone 0]

theorem shows_iff_broken_overlapping : ∃ t, Run (State.step true) anyStep {} overlapping t ∧
    t.shows ∧ ∃ i event upload, Broken t i event upload := by
  have computed : ∃ t, Run (State.step true) anyStep {} overlapping t ∧
      t.resets = 0 ∧ t.mounted = true ∧ t.uploadCount ≠ some 0 :=
    Run.exists_of_exec (by decide +kernel)
  obtain ⟨t,run,delays,shows⟩ := computed
  exact ⟨t,run,shows,((shows_iff_broken run delays).mp shows).2⟩

end Bar

/-! The messages. With assertions on, an upload that is still on its way when the chat is left
sends none. -/

def Upload.message (upload : Upload) : List Message := match upload.phase with
  | .ended (some url) => if blank url then [] else [⟨url,upload.kind.type⟩]
  | .putting | .linking | .ended none => []

/-- The chat is not left, nor a recording stopped after that, before the uploads have ended. -/
def Stays (asserts : Bool) (s : State) : Action → Prop
  | .dispose => asserts = true → ∀ upload ∈ s.uploads, upload.phase.ends = true
  | .stop _ => asserts = true → s.mounted = true
  | .getImage | .snapshotEvent .. | .streamDone _ | .delayed | .uploaded .. | .linked .. => True

instance (asserts : Bool) (s : State) : ∀ a, Decidable (Stays asserts s a)
  | .dispose => inferInstanceAs (Decidable (_ → ∀ _ ∈ _, _))
  | .stop _ => inferInstanceAs (Decidable (_ → _))
  | .getImage | .snapshotEvent .. | .streamDone _ | .delayed | .uploaded .. | .linked .. =>
    inferInstanceAs (Decidable True)

structure Sending (asserts : Bool) (s : State) : Prop where
  sent : (↑s.sent : Multiset Message) = ↑(s.uploads.flatMap Upload.message)
  stayed : asserts = true → s.mounted = true ∨ ∀ upload ∈ s.uploads, upload.phase.ends = true

section Sending
variable {asserts : Bool} {s t : State} {i : Nat} {upload next : Upload}

theorem message_set (found : s.uploads[i]? = some upload) (silent : upload.message = []) :
    (↑((s.uploads.set i next).flatMap Upload.message) : Multiset Message) =
      ↑(s.uploads.flatMap Upload.message) + ↑next.message := by
  obtain ⟨old,new⟩ := Pool.split found next
  rw [new]
  conv_rhs => rw [old]
  simp only [List.flatMap_append,List.flatMap_cons,silent,List.nil_append,← Multiset.coe_add]
  ac_rfl

theorem sending_put (sending : Sending asserts s) (found : s.uploads[i]? = some upload)
    (message : next.message = upload.message) (ends : upload.phase.ends → next.phase.ends) :
    Sending asserts (s.put i next) := by
  have moved := Pool.map_set Upload.message found message
  refine ⟨?_,fun on => (sending.stayed on).imp_right fun ended => ?_⟩
  · rw [State.put,List.flatMap_def,moved,← List.flatMap_def]
    exact sending.sent
  · exact Pool.forall_set ended (ends (ended upload (List.mem_of_getElem? found)))

theorem sending_start (sending : Sending asserts s) (kind : Kind)
    (mounted : asserts = true → s.mounted = true) : Sending asserts (s.start kind) := by
  refine ⟨?_,fun on => .inl (mounted on)⟩
  rw [State.start,List.flatMap_append,← Multiset.coe_add]
  exact sending.sent.trans (add_zero _).symm

theorem sending_linked (sending : Sending asserts s) (found : s.uploads[i]? = some upload)
    (phase : upload.phase = .linking) (url : Option String) :
    Sending asserts ((s.put i {upload with phase := .ended url}).sends asserts upload url) := by
  have silent : upload.message = [] := by rw [Upload.message,phase]
  have mounted : (s.mounted || !asserts) = true := by
    cases on : asserts with
    | false => simp
    | true =>
      rcases sending.stayed on with mounted | ended
      · simp [mounted]
      · have ends := ended upload (List.mem_of_getElem? found)
        rw [phase] at ends
        contradiction
  have ended : asserts = true → s.mounted = true ∨
      ∀ c ∈ s.uploads.set i {upload with phase := .ended url}, c.phase.ends = true :=
    fun on => (sending.stayed on).imp_right fun ended => Pool.forall_set ended rfl
  have grown : (↑((s.uploads.set i {upload with phase := .ended url}).flatMap Upload.message) :
      Multiset Message) = ↑s.sent + ↑({upload with phase := .ended url} : Upload).message := by
    rw [sending.sent]
    exact message_set found silent
  cases url with
  | none =>
    refine ⟨?_,ended⟩
    exact (grown.trans (add_zero _)).symm
  | some url =>
    simp only [State.sends,State.put,mounted,if_true,State.onSendMessage]
    split
    next blank =>
      refine ⟨?_,ended⟩
      rw [grown]
      simp [Upload.message,blank]
    next text =>
      refine ⟨?_,ended⟩
      rw [grown,← Multiset.coe_add]
      simp [Upload.message,text]

theorem sending_step {a : Action} (sending : Sending asserts s) (stays : Stays asserts s a)
    (stepped : s.step asserts a = some t) : Sending asserts t := by
  cases a with
  | getImage =>
    simp only [State.step] at stepped
    split at stepped
    next mounted => exact Option.some.inj stepped ▸ sending_start sending .image fun _ => mounted
    next => contradiction
  | stop milliseconds =>
    rw [← Option.some.inj stepped]
    split
    · exact sending_start sending .voice stays
    · exact sending
  | snapshotEvent i event =>
    obtain ⟨upload,found,taken⟩ := Option.bind_eq_some_iff.mp stepped
    split at taken
    · have reported : Sending asserts (s.put i {upload with last := some event}) :=
        sending_put sending found rfl id
      rw [← Option.some.inj taken,State.listen]
      split
      · exact ⟨reported.sent,reported.stayed⟩
      · exact ⟨reported.sent,reported.stayed⟩
    · contradiction
  | streamDone i =>
    obtain ⟨upload,found,rfl⟩ := Option.map_eq_some_iff.mp stepped
    exact sending_put sending found rfl id
  | delayed =>
    simp only [State.step] at stepped
    split at stepped
    · contradiction
    · exact Option.some.inj stepped ▸ ⟨sending.sent,sending.stayed⟩
  | uploaded i succeeded =>
    obtain ⟨upload,found,taken⟩ := Option.bind_eq_some_iff.mp stepped
    split at taken
    next phase =>
      rw [← Option.some.inj taken]
      refine sending_put sending found ?_ fun ends => ?_
      · rw [Upload.message,Upload.message,phase]
        cases succeeded <;> rfl
      · rw [phase] at ends
        contradiction
    next => contradiction
  | linked i url =>
    obtain ⟨upload,found,taken⟩ := Option.bind_eq_some_iff.mp stepped
    split at taken
    next phase => exact Option.some.inj taken ▸ sending_linked sending found phase url
    next => contradiction
  | dispose =>
    simp only [State.step] at stepped
    split at stepped
    next => exact Option.some.inj stepped ▸ ⟨sending.sent,fun on => .inr (stays on)⟩
    next => contradiction

end Sending

end Neuro.ChatUpload
