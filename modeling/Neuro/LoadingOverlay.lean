import Neuro.ControllerOperations
import Neuro.Lib.Pool
import Neuro.Lib.Run

/-! The loader of a controller: one overlay entry that every operation inserts and removes
by hand, with the delayed hide as its last resort. -/
namespace Neuro.LoadingOverlay
open Neuro.Lib Neuro.ControllerOperations

/-- A call of an operation, over once it waits for nothing. -/
structure Task where
  op : Op
  phase : Option Phase
  deriving DecidableEq, Repr

/-- `entries` are the calls whose insert the overlay still lists and `attached` says whether
the entry belongs to an overlay; `hides` are the timers of `Helper.hideLoader`, by the call
that has set them. The last three fields record what has gone wrong. -/
structure State where
  controller : Controller
  isLoading : Bool := controller.isLoading
  delayed : List Op := controller.delayed
  entries : List Nat := []
  attached : Bool := false
  hides : List Nat := []
  tasks : List Task := []
  calling : Option Op := none
  uninitialised : Bool := false
  detached : Bool := false
  robbed : Bool := false
  deriving DecidableEq, Repr

inductive Action
  | start (op : Op) (fault : Option Nat)
  /-- The operation called by the one that has just run begins. -/
  | enter (fault : Option Nat)
  | resume (task : Nat) (event : Event) (fault : Option Nat)
  | delayed (call : Nat) (fault : Option Nat)
  | hide (task : Nat)
  deriving DecidableEq, Repr

/-- The statements run when the given one of the `other` statements throws. -/
def performed : List Statement → Option Nat → List Statement
  | [],_ => []
  | .other :: _,some 0 => []
  | .other :: rest,some (fault + 1) => .other :: performed rest (some fault)
  | statement :: rest,fault => statement :: performed rest fault

def faults (statements : List Statement) : List (Option Nat) :=
  none :: (List.range (statements.count .other)).map some

namespace State
variable (asserts : Bool) (s : State)

def InProgress (i : Nat) : Prop := ∃ task ∈ s.tasks[i]?, task.phase ≠ none

instance (i : Nat) : Decidable (s.InProgress i) := inferInstanceAs (Decidable (∃ _ ∈ _, _))

/-- One statement of a call, and whether it throws. An entry that has an overlay may not be
inserted again: with `asserts` the overlay refuses, without them it lists the entry twice. -/
def perform (i : Nat) : Statement → State × Bool
  | .insert =>
    if s.controller.loader = false then ({s with uninitialised := true},true)
    else if asserts && s.attached then (s,true)
    else ({s with entries := s.entries ++ [i], attached := true},false)
  | .remove =>
    if s.controller.loader = false then ({s with uninitialised := true},true)
    else if s.attached then ({s with entries := s.entries.tail, attached := false},false)
    else ({s with detached := true},true)
  | .hide =>
    if s.controller.loader = false then ({s with uninitialised := true},true)
    else ({s with hides := s.hides ++ [i]},false)
  | .setLoading isLoading => ({s with isLoading := isLoading},false)
  | .other => (s,false)
  | .later op => ({s with delayed := s.delayed ++ [op]},false)

def performAll (i : Nat) (s : State) : List Statement → State × Bool
  | [] => (s,false)
  | statement :: rest => match s.perform asserts i statement with
    | (t,true) => (t,true)
    | (t,false) => t.performAll i rest

def ran (i : Nat) (op : Op) (phase : Phase) (callback : Callback) (fault : Option Nat) : State :=
  match s.performAll asserts i (performed callback.statements fault) with
  | (t,threw) => if threw || fault.isSome
    then {t with tasks := t.tasks.set i ⟨op,caught phase⟩}
    else {t with tasks := t.tasks.set i ⟨op,callback.next⟩, calling := callback.calls}

def resume (i : Nat) (event : Event) (fault : Option Nat) : Option State :=
  s.tasks[i]?.bind fun task => task.phase.bind fun phase =>
    (task.op.react phase event).bind fun callback =>
      if fault ∈ faults callback.statements
      then some (s.ran asserts i task.op phase callback fault) else none

def call (op : Op) (fault : Option Nat) : Option State :=
  resume asserts {s with tasks := s.tasks ++ [⟨op,some .called⟩]} s.tasks.length .yes fault

/-- The timer of `Helper.hideLoader`, whose removal is guarded. -/
def hide (i : Nat) : State :=
  if s.attached then {s with
    hides := s.hides.erase i
    entries := s.entries.tail
    attached := false
    robbed := s.robbed || decide (∃ j ∈ s.entries.head?, j ≠ i ∧ s.InProgress j)}
  else {s with hides := s.hides.erase i}

def step (s : State) : Action → Option State
  | .enter fault => s.calling.bind fun op => call asserts {s with calling := none} op fault
  | .start op fault =>
    if s.calling = none ∧ s.controller.runs op then s.call asserts op fault else none
  | .resume i event fault => if s.calling = none then s.resume asserts i event fault else none
  | .delayed k fault => if s.calling = none then s.delayed[k]?.bind fun op =>
      call asserts {s with delayed := s.delayed.eraseIdx k} op fault else none
  | .hide i => if s.calling = none ∧ i ∈ s.hides then some (s.hide i) else none

end State

structure Quiet (s : State) : Prop where
  tasks : ∀ task ∈ s.tasks, task.phase = none
  hides : s.hides = []
  delayed : s.delayed = []
  calling : s.calling = none

/-- The entry is initialised when it is used and in the overlay when it is removed, no
delayed hide takes the overlay of an operation under way, and nothing stays behind once
the operations are over. -/
structure Protocol (s : State) : Prop where
  initialised : s.uninitialised = false
  listed : s.detached = false
  kept : s.robbed = false
  settled : Quiet s → s.tasks ≠ [] → s.entries = [] ∧ s.isLoading = false

/-! The operations that break the protocol by themselves. -/

def leftOnline : Op → Bool
  | .sentRequest .sendNudgeRequest | .userSelection .addRemoveUser => true
  | _ => false

def leftOffline : Op → Bool
  | .feed .getFeeds | .feed (.feedSwipe true) | .feed .reportUser => true
  | .matche .getMatchList | .matche .refreshList | .matche .removeMatches => true
  | .userSelection .getFriendList | .userSelection .addRemoveUser => true
  | _ => false

/-- The offline branch resets `isLoading`, and calls `setState` before it removes the loader. -/
def removesLast : Op → Bool
  | .group .getGroupList | .group .getGroupInfo | .sentRequest .sendNudgeRequest => true
  | _ => false

/-- Which branches, and which exceptions in them, leave the loader or `isLoading` behind
or remove the loader a second time. -/
def breaks (shown : Bool) (op : Op) : Phase → Event → Option Nat → Bool
  | .called,_,fault => fault.isSome && (op.loads || fault == some 1)
  | .prefs,.error,_ | .account,.error,_ => op.inserts
  | .account,_,fault => fault.isSome
  | .credential,.error,_ => op == .login .signInWithGoogle
  | .credential,.yes,fault => fault.isSome
  | .connectivity,.error,_ => op.inserts || op.loads
  | .connectivity,.no,fault => leftOffline op || removesLast op && fault == some 0
  | .connectivity,.yes,_ => leftOnline op
  | .answer,.no,fault => op == .feed (.feedSwipe true) && fault == some 1
  | .resumed,.error,_ => op == .feed (.feedSwipe true)
  | .complete,_,fault => op == .userSelection .getFriendList && fault.isSome && shown
  | _,_,_ => false

/-- No operation that shows the loader is under way, and no delayed hide is. -/
def Free (s : State) : Prop :=
  (∀ task ∈ s.tasks, task.op.inserts = true → task.phase = none) ∧ s.hides = []

/-- An operation that shows the loader starts when no other one does, and the first
operation of all resets an `isLoading` that is still set. -/
def Starts (s : State) (op : Op) (fault : Option Nat) : Prop :=
  s.controller.loader = true ∧ (op.inserts = true → Free s) ∧
    (s.tasks = [] → op.loads = true ∨ s.isLoading = false ∨ ∃ d ∈ s.delayed, d.loads = true) ∧
    breaks false op .called .yes fault = false

def Calm (s : State) : Action → Prop
  | .start op fault => Starts s op fault
  | .enter fault => ∀ op ∈ s.calling, Starts s op fault
  | .delayed k fault => ∀ op ∈ s.delayed[k]?, Starts s op fault
  | .resume i event fault => ∀ task ∈ s.tasks[i]?, ∀ phase ∈ task.phase,
      breaks (decide (i ∈ s.entries)) task.op phase event fault = false
  | .hide _ => True

instance (s : State) : Decidable (Free s) := inferInstanceAs (Decidable ((∀ _ ∈ _, _ → _) ∧ _))

instance (s : State) (op : Op) (fault : Option Nat) : Decidable (Starts s op fault) :=
  inferInstanceAs (Decidable (_ ∧ (_ → _) ∧ (_ → _ ∨ _ ∨ ∃ _ ∈ _, _) ∧ _))

instance (s : State) : ∀ a, Decidable (Calm s a)
  | .start op fault => inferInstanceAs (Decidable (Starts s op fault))
  | .enter _ => inferInstanceAs (Decidable (∀ _ ∈ _, _))
  | .delayed .. => inferInstanceAs (Decidable (∀ _ ∈ _, _))
  | .resume .. => inferInstanceAs (Decidable (∀ _ ∈ _, ∀ _ ∈ _, _))
  | .hide _ => inferInstanceAs (Decidable True)

instance (s : State) : Decidable (Quiet s) :=
  decidable_of_iff ((∀ task ∈ s.tasks, task.phase = none) ∧ s.hides = [] ∧ s.delayed = [] ∧
    s.calling = none) ⟨fun ⟨tasks,hides,delayed,calling⟩ => ⟨tasks,hides,delayed,calling⟩,
    fun quiet => ⟨quiet.tasks,quiet.hides,quiet.delayed,quiet.calling⟩⟩

/-! What a call still has in the overlay and still owes to `isLoading`, by its phase. -/

def removesTwice (op : Op) : Bool :=
  op == .feed (.feedSwipe true) || op == .feed .reportUser

def holds (op : Op) : Phase → Bool → Bool
  | .called,shown => !shown
  | .prefs,shown | .credential,shown | .account,shown | .connectivity,shown => shown == op.inserts
  | .answer,shown => !leftOnline op && shown == op.inserts
  | .recover,shown => !leftOnline op && (shown == op.inserts || !shown && !removesTwice op)
  | .resumed,shown => !shown
  | .complete,shown => !leftOnline op && (!shown || op.inserts)

def owes (op : Op) : Phase → Bool
  | .called | .connectivity | .answer | .recover => op.loads
  | .complete => op == .matche .getMatchList || op == .matche .refreshList
  | .prefs | .credential | .account | .resumed => false

/-- Whether the call has the loader in the overlay after the statements; none if they
insert it twice or remove it when it is not there. -/
def walk : Bool → List Statement → Option Bool
  | shown,[] => some shown
  | false,.insert :: rest => walk true rest
  | true,.remove :: rest => walk false rest
  | true,.insert :: _ | false,.remove :: _ => none
  | shown,.hide :: rest | shown,.setLoading _ :: rest | shown,.other :: rest
  | shown,.later _ :: rest => walk shown rest

/-- The last value the statements give `isLoading`. -/
def written : List Statement → Option Bool
  | [] => none
  | .setLoading isLoading :: rest => (written rest).or (some isLoading)
  | .insert :: rest | .remove :: rest | .hide :: rest | .other :: rest
  | .later _ :: rest => written rest

def delaying : Statement → Option Op
  | .later op => some op
  | .insert | .remove | .hide | .setLoading _ | .other => none

def keepsLoader (op : Op) (shown : Bool) (done : List Statement) (next : Option Phase) : Bool :=
  (walk shown done).any fun after => match next with
    | some phase => holds op phase after && !done.contains .hide
    | none => !after || done.contains .hide

def keepsLoading (op : Op) (phase : Phase) (done : List Statement) (next : Option Phase) : Bool :=
  match written done with
  | some false => true
  | some true => next.any (owes op) || (done.filterMap delaying).any Op.loads
  | none => !owes op phase || next.any (owes op)

/-- The operation alone, from a phase it can wait in. -/
def keeps (op : Op) (phase : Phase) (callback : Callback) (fault : Option Nat) (shown : Bool) :
    Bool :=
  let done := performed callback.statements fault
  let next := if fault.isSome then caught phase else callback.next
  keepsLoader op shown done next && keepsLoading op phase done next &&
    (op.inserts || !done.contains .insert && !done.contains .hide)

def phases : List Phase :=
  [.called,.prefs,.credential,.account,.connectivity,.answer,.resumed,.recover,.complete]

def checked (op : Op) : Bool :=
  phases.all fun phase => [Event.yes,.no,.error].all fun event =>
    (op.react phase event).all fun callback => (faults callback.statements).all fun fault =>
      [true,false].all fun shown => !holds op phase shown ||
        (keeps op phase callback fault shown != breaks shown op phase event fault)

/-- The state after the statements, when the call had the loader in the overlay before
them and has it after. -/
def State.left (s : State) (i : Nat) (shown after : Bool) (done : List Statement) : State :=
  {s with
    entries := if after then [i] else if shown then [] else s.entries
    attached := if after then true else if shown then false else s.attached
    isLoading := (written done).getD s.isLoading
    hides := s.hides ++ List.replicate (done.count .hide) i
    delayed := s.delayed ++ done.filterMap delaying}

/-- Entered without an exception, an operation that shows the loader has it in the overlay
and waits. -/
def enters (op : Op) : Bool :=
  !op.inserts || (op.react .called .yes).all fun callback =>
    callback.next.isSome && walk false (performed callback.statements none) == some true

theorem checks (op : Op) : checked op = true ∧ enters op = true := by
  cases op with
  | feed op =>
    cases op with
    | feedSwipe isLoad => cases isLoad <;> decide
    | getuserProfile | getFeeds | reportUser => decide
  | group op | hashTag op | login op | matche op | neuroRequest op | profile op
  | sentRequest op | userSelection op | verification op => cases op <;> decide
  | buyNudge | premiumStatus => decide

section Alone
variable {op : Op} {phase : Phase} {event : Event} {callback : Callback} {fault : Option Nat}
variable {shown after : Bool}

/-- The guard names exactly the branches that an operation does not survive alone. -/
theorem keeps_eq_not_breaks (reacts : op.react phase event = some callback)
    (listed : fault ∈ faults callback.statements) (waits : holds op phase shown = true) :
    keeps op phase callback fault shown = !breaks shown op phase event fault := by
  have everywhere := (checks op).1
  simp only [checked,List.all_eq_true,Option.all_eq_true] at everywhere
  have here := everywhere phase (by cases phase <;> decide) event (by cases event <;> decide)
    callback reacts fault listed shown (by cases shown <;> decide)
  rw [waits] at here
  exact Bool.eq_not.mpr (by simpa using here)

theorem inserts_of_holds (waits : holds op phase true = true) : op.inserts = true := by
  cases phase <;> simp_all [holds]

theorem mem_insert_of_walk {done : List Statement} (walked : walk false done = some true) :
    .insert ∈ done := by
  induction done with
  | nil => contradiction
  | cons statement rest ih => cases statement <;> simp_all [walk]

end Alone

section Run
variable {asserts shown after : Bool} {s t : State} {i : Nat}

/-- What statements do that neither insert twice nor remove what is not there. -/
theorem performAll_eq (asserts : Bool) {done : List Statement} (walked : walk shown done = some after)
    (ready : s.controller.loader = true)
    (own : shown = true → s.entries = [i] ∧ s.attached = true)
    (free : shown = false → .insert ∈ done → s.entries = [] ∧ s.attached = false) :
    s.performAll asserts i done = (s.left i shown after done,false) := by
  induction done generalizing s shown with
  | nil =>
    cases Option.some.inj walked
    cases s
    cases after <;> simp_all [State.performAll,State.left,written]
  | cons statement rest ih =>
    cases statement with
    | insert =>
      cases shown with
      | true => contradiction
      | false =>
        obtain ⟨empty,out⟩ := free rfl List.mem_cons_self
        have inserted : s.perform asserts i .insert =
            ({s with entries := [i], attached := true},false) := by
          simp [State.perform,ready,empty,out]
        have performed := ih (s := {s with entries := [i], attached := true}) walked ready
          (by simp) (by simp)
        simp only [State.performAll,inserted,performed]
        simp [State.left,written,List.filterMap_cons,delaying,empty,out]
    | remove =>
      cases shown with
      | false => contradiction
      | true =>
        obtain ⟨here,attached⟩ := own rfl
        have removed : s.perform asserts i .remove =
            ({s with entries := [], attached := false},false) := by
          simp [State.perform,ready,here,attached]
        have performed := ih (s := {s with entries := [], attached := false}) walked ready
          (by simp) (by simp)
        simp only [State.performAll,removed,performed]
        simp [State.left,written,List.filterMap_cons,delaying]
    | hide =>
      have armed : s.perform asserts i .hide = ({s with hides := s.hides ++ [i]},false) := by
        simp [State.perform,ready]
      have walked : walk shown rest = some after := by cases shown <;> exact walked
      have performed := ih (s := {s with hides := s.hides ++ [i]}) walked ready own
        fun out listed => free out (List.mem_cons_of_mem _ listed)
      simp only [State.performAll,armed,performed]
      simp [State.left,written,List.filterMap_cons,delaying,List.replicate_succ]
    | setLoading isLoading =>
      have walked : walk shown rest = some after := by cases shown <;> exact walked
      have performed := ih (s := {s with isLoading := isLoading}) walked ready own
        fun out listed => free out (List.mem_cons_of_mem _ listed)
      simp only [State.performAll,State.perform,performed]
      cases last : written rest <;> simp [State.left,written,List.filterMap_cons,delaying,last]
    | other =>
      have walked : walk shown rest = some after := by cases shown <;> exact walked
      have performed := ih (s := s) walked ready own
        fun out listed => free out (List.mem_cons_of_mem _ listed)
      simp only [State.performAll,State.perform,performed]
      simp [State.left,written,List.filterMap_cons,delaying]
    | later op =>
      have walked : walk shown rest = some after := by cases shown <;> exact walked
      have performed := ih (s := {s with delayed := s.delayed ++ [op]}) walked ready own
        fun out listed => free out (List.mem_cons_of_mem _ listed)
      simp only [State.performAll,State.perform,performed]
      simp [State.left,written,delaying]

/-- The loader of this call is in the overlay, or may still be taken out of it by the call. -/
def Showing (s : State) (i : Nat) : Prop :=
  i ∈ s.hides ∨ ∃ task ∈ s.tasks[i]?, task.op.inserts = true ∧ task.phase ≠ none

/-- Something still to come resets `isLoading`. -/
def Ahead (s : State) : Prop :=
  (∃ i : Nat, ∃ task ∈ s.tasks[i]?, ∃ phase ∈ task.phase, owes task.op phase = true) ∨
    ∃ op ∈ s.delayed, op.loads = true

structure Inv (s : State) : Prop where
  clean : s.uninitialised = false ∧ s.detached = false ∧ s.robbed = false
  ready : s.tasks ≠ [] → s.controller.loader = true
  overlay : (s.entries = [] ∧ s.attached = false) ∨
    ∃ i, s.entries = [i] ∧ s.attached = true ∧ Showing s i
  single : ∀ i j, Showing s i → Showing s j → i = j
  armed : ∀ i ∈ s.hides, ∃ task ∈ s.tasks[i]?, task.phase = none
  waits : ∀ i, ∀ task ∈ s.tasks[i]?, ∀ phase ∈ task.phase,
    holds task.op phase (decide (i ∈ s.entries)) = true
  loading : s.isLoading = true → s.tasks = [] ∨ Ahead s

theorem inv_start (controller : Controller) : Inv {controller := controller} := by
  constructor <;> simp [Showing]

theorem Inv.protocol (inv : Inv s) : Protocol s := by
  refine ⟨inv.clean.1,inv.clean.2.1,inv.clean.2.2,fun quiet begun => ⟨?_,?_⟩⟩
  · rcases inv.overlay with ⟨empty,_⟩ | ⟨i,_,_,armed | ⟨task,listed,_,busy⟩⟩
    · exact empty
    · simp [quiet.hides] at armed
    · exact absurd (quiet.tasks task (List.mem_of_getElem? listed)) busy
  · rw [← Bool.not_eq_true]
    intro set
    rcases inv.loading set with none | ⟨i,task,listed,phase,waits,_⟩ | ⟨op,later,_⟩
    · exact begun none
    · simp [quiet.tasks task (List.mem_of_getElem? listed)] at waits
    · simp [quiet.delayed] at later

theorem Showing.bound (inv : Inv s) (showing : Showing s i) : i < s.tasks.length := by
  have found : ∃ task, task ∈ s.tasks[i]? := by
    rcases showing with armed | ⟨task,listed,_⟩
    · obtain ⟨task,listed,_⟩ := inv.armed i armed
      exact ⟨task,listed⟩
    · exact ⟨task,listed⟩
  obtain ⟨_,listed⟩ := found
  exact (List.getElem?_eq_some_iff.mp listed).1

theorem Inv.entries_eq (inv : Inv s) (here : i ∈ s.entries) : s.entries = [i] ∧
    s.attached = true ∧ Showing s i := by
  rcases inv.overlay with ⟨empty,_⟩ | ⟨j,listed,rest⟩
  · simp [empty] at here
  · have same : i = j := by simpa [listed] using here
    exact same ▸ ⟨listed,rest⟩

theorem Free.not_showing (free : Free s) (i : Nat) : ¬ Showing s i := by
  rintro (armed | ⟨task,listed,inserts,busy⟩)
  · simp [free.2] at armed
  · exact busy (free.1 task (List.mem_of_getElem? listed) inserts)

section Called
variable {op : Op} {fault : Option Nat} {rest : List Op} {calling : Option Op}

/-- The state when an operation is about to begin. -/
def State.called (s : State) (op : Op) (rest : List Op) (calling : Option Op) : State :=
  {s with
    tasks := s.tasks ++ [⟨op,some .called⟩]
    delayed := rest
    calling := calling}

theorem mem_called {task : Task} : task ∈ (s.called op rest calling).tasks[i]? ↔
    task ∈ s.tasks[i]? ∨ i = s.tasks.length ∧ task = ⟨op,some .called⟩ := Pool.mem_appended

theorem showing_called (showing : Showing s i) : Showing (s.called op rest calling) i := by
  rcases showing with armed | ⟨task,found,shows⟩
  · exact .inl armed
  · exact .inr ⟨task,mem_called.mpr (.inl found),shows⟩

theorem showing_of_called (showing : Showing (s.called op rest calling) i) :
    Showing s i ∨ i = s.tasks.length ∧ op.inserts = true := by
  rcases showing with armed | ⟨task,listed,inserts,busy⟩
  · exact .inl (.inl armed)
  · rcases mem_called.mp listed with before | ⟨new,rfl⟩
    · exact .inl (.inr ⟨task,before,inserts,busy⟩)
    · exact .inr ⟨new,inserts⟩

theorem single_called (inv : Inv s) (free : op.inserts = true → Free s) {i j : Nat}
    (first : Showing (s.called op rest calling) i)
    (second : Showing (s.called op rest calling) j) : i = j := by
  rcases showing_of_called first with first | ⟨new,inserts⟩
  · rcases showing_of_called second with second | ⟨_,inserts⟩
    · exact inv.single i j first second
    · exact absurd first ((free inserts).not_showing i)
  · rcases showing_of_called second with second | ⟨again,_⟩
    · exact absurd second ((free inserts).not_showing j)
    · exact new.trans again.symm

theorem Inv.fresh (inv : Inv s) : s.tasks.length ∉ s.entries := fun here =>
  absurd ((inv.entries_eq here).2.2.bound inv) (Nat.lt_irrefl _)

theorem called_loading (inv : Inv s) (starts : Starts s op fault)
    (kept : ∀ d ∈ s.delayed, d = op ∨ d ∈ rest) (stuck : s.isLoading = true) :
    Ahead (s.called op rest calling) := by
  have begins (loads : op.loads = true) : Ahead (s.called op rest calling) :=
    .inl ⟨s.tasks.length,⟨op,some .called⟩,mem_called.mpr (.inr ⟨rfl,rfl⟩),.called,rfl,loads⟩
  have later {d : Op} (waits : d ∈ s.delayed) (loads : d.loads = true) :
      Ahead (s.called op rest calling) := by
    rcases kept d waits with rfl | stays
    · exact begins loads
    · exact .inr ⟨d,stays,loads⟩
  rcases inv.loading stuck with none | ⟨i,task,listed,owed⟩ | ⟨d,waits,loads⟩
  · rcases starts.2.2.1 none with loads | reset | ⟨d,waits,loads⟩
    · exact begins loads
    · exact absurd stuck (by simp [reset])
    · exact later waits loads
  · exact .inl ⟨i,task,mem_called.mpr (.inl listed),owed⟩
  · exact later waits loads

theorem inv_called (inv : Inv s) (starts : Starts s op fault)
    (kept : ∀ d ∈ s.delayed, d = op ∨ d ∈ rest) : Inv (s.called op rest calling) := by
  constructor
  · exact inv.clean
  · exact fun _ => starts.1
  · rcases inv.overlay with empty | ⟨i,listed,attached,showing⟩
    · exact .inl empty
    · exact .inr ⟨i,listed,attached,showing_called showing⟩
  · exact fun i j first second => single_called inv starts.2.1 first second
  · intro i armed
    obtain ⟨task,found,finished⟩ := inv.armed i armed
    exact ⟨task,mem_called.mpr (.inl found),finished⟩
  · intro i task listed phase waits
    rcases mem_called.mp listed with before | ⟨rfl,rfl⟩
    · exact inv.waits i task before phase waits
    · cases Option.some.inj waits
      have out : s.tasks.length ∉ (s.called op rest calling).entries := inv.fresh
      simp [holds,out]
  · exact fun stuck => .inr (called_loading inv starts kept stuck)

end Called

section Ran
variable {op : Op} {phase : Phase} {event : Event} {callback : Callback} {fault : Option Nat}

/-- What the next phase asks of the statements run on the way to it. -/
structure Survives (op : Op) (phase : Phase) (shown after : Bool) (done : List Statement)
    (next : Option Phase) : Prop where
  walked : walk shown done = some after
  waits : ∀ q ∈ next, holds op q after = true ∧ .hide ∉ done
  finished : next = none → after = true → .hide ∈ done
  loading : keepsLoading op phase done next = true
  inserts : op.inserts = true ∨ .insert ∉ done ∧ .hide ∉ done

theorem survives_of_keeps (kept : keeps op phase callback fault shown = true) : ∃ after,
    Survives op phase shown after (performed callback.statements fault)
      (if fault.isSome then caught phase else callback.next) := by
  simp only [keeps,keepsLoader,Bool.and_eq_true,Option.any_eq_true] at kept
  obtain ⟨⟨⟨after,walked,settled⟩,loading⟩,inserts⟩ := kept
  refine ⟨after,walked,?_,?_,loading,by simpa using inserts⟩
  · intro q next
    rw [Option.mem_def.mp next] at settled
    simpa using settled
  · intro finished shown
    rw [finished,shown] at settled
    simpa using settled

def State.passed (s : State) (i : Nat) (op : Op) (after : Bool) (done : List Statement)
    (next : Option Phase) (calling : Option Op) : State :=
  {s.left i (decide (i ∈ s.entries)) after done with
    tasks := s.tasks.set i ⟨op,next⟩
    calling := calling}

theorem Inv.task_ready (inv : Inv s) (found : s.tasks[i]? = some ⟨op,some phase⟩) :
    s.controller.loader = true := by
  apply inv.ready
  intro none
  simp [none] at found

theorem ran_eq (inv : Inv s) (found : s.tasks[i]? = some ⟨op,some phase⟩)
    (reacts : op.react phase event = some callback) (listed : fault ∈ faults callback.statements)
    (calm : breaks (decide (i ∈ s.entries)) op phase event fault = false) :
    ∃ after next calling, Survives op phase (decide (i ∈ s.entries)) after
        (performed callback.statements fault) next ∧
      s.ran asserts i op phase callback fault =
        s.passed i op after (performed callback.statements fault) next calling := by
  have kept := keeps_eq_not_breaks reacts listed (inv.waits i _ found phase rfl)
  rw [calm] at kept
  obtain ⟨after,survives⟩ := survives_of_keeps kept
  have own (shown : decide (i ∈ s.entries) = true) : s.entries = [i] ∧ s.attached = true := by
    have here := inv.entries_eq (of_decide_eq_true shown)
    exact ⟨here.1,here.2.1⟩
  have free (out : decide (i ∈ s.entries) = false)
      (inserted : .insert ∈ performed callback.statements fault) :
      s.entries = [] ∧ s.attached = false := by
    rcases inv.overlay with empty | ⟨j,other,_,showing⟩
    · exact empty
    · have inserts : op.inserts = true := survives.inserts.resolve_right fun none => none.1 inserted
      have same := inv.single i j (.inr ⟨_,found,inserts,by simp⟩) showing
      simp [other,same] at out
  have result := performAll_eq asserts survives.walked (inv.task_ready found) own free
  cases fault with
  | none =>
    refine ⟨after,callback.next,callback.calls,survives,?_⟩
    rw [State.ran,result]
    rfl
  | some k =>
    refine ⟨after,caught phase,s.calling,survives,?_⟩
    rw [State.ran,result]
    rfl

section Passed
variable {done : List Statement} {next : Option Phase} {calling : Option Op} {j : Nat}
  (inv : Inv s) (found : s.tasks[i]? = some ⟨op,some phase⟩)
  (survives : Survives op phase (decide (i ∈ s.entries)) after done next)

include found in
theorem passed_self : (s.passed i op after done next calling).tasks[i]? = some ⟨op,next⟩ := by
  obtain ⟨bound,_⟩ := List.getElem?_eq_some_iff.mp found
  exact List.getElem?_set_self bound

theorem passed_other (other : j ≠ i) :
    (s.passed i op after done next calling).tasks[j]? = s.tasks[j]? :=
  List.getElem?_set_ne (Ne.symm other)

theorem passed_hides (waits : j ∈ (s.passed i op after done next calling).hides) :
    j ∈ s.hides ∨ j = i ∧ .hide ∈ done := by
  rcases List.mem_append.mp waits with old | new
  · exact .inl old
  · obtain ⟨positive,same⟩ := List.mem_replicate.mp new
    exact .inr ⟨same,List.count_pos_iff.mp (by omega)⟩

include found in
theorem showing_self (inserts : op.inserts = true) : Showing s i :=
  .inr ⟨_,found,inserts,by simp⟩

include found survives in
theorem showing_of_passed (showing : Showing (s.passed i op after done next calling) j) :
    Showing s j := by
  rcases showing with waits | ⟨task,listed,inserts,busy⟩
  · rcases passed_hides waits with old | ⟨rfl,hidden⟩
    · exact .inl old
    · exact showing_self found (survives.inserts.resolve_right fun none => none.2 hidden)
  · by_cases same : j = i
    · subst same
      cases Option.some.inj ((passed_self found).symm.trans listed)
      exact showing_self found inserts
    · exact .inr ⟨task,(passed_other same).symm.trans listed,inserts,busy⟩

theorem showing_passed (other : j ≠ i) (showing : Showing s j) :
    Showing (s.passed i op after done next calling) j := by
  rcases showing with waits | ⟨task,listed,shows⟩
  · exact .inl (List.mem_append_left _ waits)
  · exact .inr ⟨task,(passed_other other).trans listed,shows⟩

theorem passed_entries_self :
    decide (i ∈ (s.passed i op after done next calling).entries) = after := by
  by_cases before : i ∈ s.entries <;> cases after <;> simp [State.passed,State.left,before]

include inv found survives in
/-- Only its own loader is in the overlay while the call may put it there. -/
theorem passed_entries (other : j ≠ i) :
    j ∈ (s.passed i op after done next calling).entries ↔ j ∈ s.entries := by
  by_cases before : i ∈ s.entries
  · have listed := (inv.entries_eq before).1
    cases after <;> simp [State.passed,State.left,listed,other]
  · cases after with
    | false => simp [State.passed,State.left,before]
    | true =>
      have walked := survives.walked
      rw [decide_eq_false before] at walked
      have inserts := survives.inserts.resolve_right fun none =>
        none.1 (mem_insert_of_walk walked)
      have absent : j ∉ s.entries := fun here =>
        other (inv.single j i (inv.entries_eq here).2.2 (showing_self found inserts))
      simp [State.passed,State.left,other,absent]

include inv found survives in
theorem passed_overlay : ((s.passed i op after done next calling).entries = [] ∧
      (s.passed i op after done next calling).attached = false) ∨
    ∃ j, (s.passed i op after done next calling).entries = [j] ∧
      (s.passed i op after done next calling).attached = true ∧
      Showing (s.passed i op after done next calling) j := by
  cases after with
  | true =>
    refine .inr ⟨i,rfl,rfl,?_⟩
    cases ends : next with
    | none =>
      have hidden := survives.finished ends rfl
      refine .inl (List.mem_append_right _ (List.mem_replicate.mpr ⟨?_,rfl⟩))
      exact Nat.ne_of_gt (List.count_pos_iff.mpr hidden)
    | some q =>
      have inserts := inserts_of_holds (survives.waits q ends).1
      exact .inr ⟨⟨op,some q⟩,passed_self found,inserts,by simp⟩
  | false =>
    by_cases before : i ∈ s.entries
    · exact .inl (by simp [State.passed,State.left,before])
    · rcases inv.overlay with empty | ⟨j,listed,attached,showing⟩
      · exact .inl (by simp [State.passed,State.left,empty])
      · have other : j ≠ i := by
          intro same
          simp [listed,same] at before
        exact .inr ⟨j,by simp [State.passed,State.left,listed,Ne.symm other],
          by simp [State.passed,State.left,before,attached],showing_passed other showing⟩

include inv found survives in
theorem passed_armed (waits : j ∈ (s.passed i op after done next calling).hides) :
    ∃ task ∈ (s.passed i op after done next calling).tasks[j]?, task.phase = none := by
  rcases passed_hides waits with old | ⟨rfl,hidden⟩
  · obtain ⟨task,listed,finished⟩ := inv.armed j old
    have other : j ≠ i := by
      intro same
      rw [same] at listed
      cases Option.some.inj (found.symm.trans listed)
      contradiction
    exact ⟨task,(passed_other other).trans listed,finished⟩
  · refine ⟨_,passed_self found,?_⟩
    cases ends : next with
    | none => rfl
    | some q => exact absurd hidden (survives.waits q ends).2

include found in
theorem ahead_of_next (owed : next.any (owes op) = true) :
    Ahead (s.passed i op after done next calling) := by
  obtain ⟨q,waits,owes_q⟩ := (Option.any_eq_true _ _).mp owed
  exact .inl ⟨i,_,passed_self found,q,waits,owes_q⟩

include inv found survives in
theorem passed_loading (stuck : (s.passed i op after done next calling).isLoading = true) :
    Ahead (s.passed i op after done next calling) := by
  have owed := survives.loading
  cases last : written done with
  | none =>
    simp only [State.passed,State.left,last,Option.getD_none] at stuck
    simp only [keepsLoading,last,Bool.or_eq_true,Bool.not_eq_true'] at owed
    rcases inv.loading stuck with none | ⟨j,task,listed,q,waits,owes_q⟩ | ⟨d,waits,loads⟩
    · simp [none] at found
    · by_cases same : j = i
      · subst same
        cases Option.some.inj (found.symm.trans listed)
        cases Option.some.inj waits
        exact ahead_of_next found (owed.resolve_left (by simp [owes_q]))
      · exact .inl ⟨j,task,(passed_other same).trans listed,q,waits,owes_q⟩
    · exact .inr ⟨d,List.mem_append_left _ waits,loads⟩
  | some value =>
    have value : value = true := by simpa [State.passed,State.left,last] using stuck
    subst value
    simp only [keepsLoading,last,Bool.or_eq_true] at owed
    rcases owed with owes_next | later
    · exact ahead_of_next found owes_next
    · obtain ⟨d,waits,loads⟩ := List.any_eq_true.mp later
      exact .inr ⟨d,List.mem_append_right _ waits,loads⟩

include inv found survives in
theorem inv_passed : Inv (s.passed i op after done next calling) := by
  constructor
  · exact inv.clean
  · exact fun _ => inv.task_ready found
  · exact passed_overlay inv found survives
  · exact fun j k first second => inv.single j k (showing_of_passed found survives first)
      (showing_of_passed found survives second)
  · exact fun j waits => passed_armed inv found survives waits
  · intro j task listed q waits
    by_cases same : j = i
    · subst same
      cases Option.some.inj ((passed_self found).symm.trans listed)
      exact passed_entries_self.symm ▸ (survives.waits q waits).1
    · have unchanged := inv.waits j task ((passed_other same).symm.trans listed) q waits
      exact (decide_eq_decide.mpr (passed_entries inv found survives same)).symm ▸ unchanged
  · exact fun stuck => .inr (passed_loading inv found survives stuck)

end Passed

end Ran

/-- No call is under way that shows the loader when a delayed hide fires. -/
theorem inv_hide (inv : Inv s) (waits : i ∈ s.hides) : Inv (s.hide i) := by
  have own {j : Nat} (here : j ∈ s.entries) : j = i :=
    inv.single j i (inv.entries_eq here).2.2 (.inl waits)
  have idle {j : Nat} {task : Task} {phase : Phase} (listed : task ∈ s.tasks[j]?)
      (busy : phase ∈ task.phase) : j ∉ s.entries := by
    intro here
    obtain ⟨_,found,finished⟩ := inv.armed i waits
    cases own here
    cases Option.some.inj (found.symm.trans listed)
    simp [finished] at busy
  have hidden : s.hide i = {s with
      hides := s.hides.erase i, entries := [], attached := false} := by
    rcases inv.overlay with ⟨empty,out⟩ | ⟨j,listed,attached,_⟩
    · cases s
      simp_all [State.hide]
    · have same : j = i := own (by simp [listed])
      simp [State.hide,attached,listed,same,inv.clean.2.2]
  have back {j : Nat} (showing : Showing {s with
      hides := s.hides.erase i, entries := [], attached := false} j) : Showing s j := by
    rcases showing with rest | shows
    · exact .inl (List.mem_of_mem_erase rest)
    · exact .inr shows
  rw [hidden]
  constructor
  · exact inv.clean
  · exact inv.ready
  · exact .inl ⟨rfl,rfl⟩
  · exact fun j k first second => inv.single j k (back first) (back second)
  · exact fun j rest => inv.armed j (List.mem_of_mem_erase rest)
  · intro j task listed phase busy
    have before := inv.waits j task listed phase busy
    rw [decide_eq_false (idle listed busy)] at before
    simpa using before
  · exact inv.loading

theorem inv_resume {event : Event} {fault : Option Nat} (inv : Inv s)
    (calm : ∀ task ∈ s.tasks[i]?, ∀ phase ∈ task.phase,
      breaks (decide (i ∈ s.entries)) task.op phase event fault = false)
    (resumed : s.resume asserts i event fault = some t) : Inv t := by
  obtain ⟨⟨op,waits⟩,found,resumed⟩ := Option.bind_eq_some_iff.mp resumed
  obtain ⟨phase,rfl,resumed⟩ := Option.bind_eq_some_iff.mp resumed
  obtain ⟨callback,reacts,resumed⟩ := Option.bind_eq_some_iff.mp resumed
  split at resumed
  next listed =>
    cases Option.some.inj resumed
    obtain ⟨after,next,calling,survives,result⟩ :=
      ran_eq inv found reacts listed (calm _ found phase rfl)
    rw [result]
    exact inv_passed inv found survives
  next => contradiction

theorem inv_call {op : Op} {fault : Option Nat} {rest : List Op} {calling : Option Op}
    (inv : Inv s) (starts : Starts s op fault) (kept : ∀ d ∈ s.delayed, d = op ∨ d ∈ rest)
    (called : State.call asserts {s with delayed := rest, calling := calling} op fault = some t) :
    Inv t := by
  have begun : Inv (s.called op rest calling) := inv_called inv starts kept
  apply inv_resume begun ?_ called
  intro task listed phase waits
  have new : task = ⟨op,some .called⟩ := by simpa [State.called] using listed.symm
  subst new
  cases Option.some.inj waits
  have out : s.tasks.length ∉ (s.called op rest calling).entries := inv.fresh
  simpa [out] using starts.2.2.2

/-- Why a delayed hide has to be over before the loader is shown again: it would take the
overlay of the operation that shows it. -/
theorem hide_robs {op : Op} (waits : i < s.tasks.length) (ready : s.controller.loader = true)
    (empty : s.entries = []) (out : s.attached = false) (inserts : op.inserts = true)
    (called : s.call asserts op none = some t) : (t.hide i).robbed = true := by
  simp only [State.call,State.resume,List.getElem?_concat_length,Option.bind_some] at called
  obtain ⟨callback,reacts,called⟩ := Option.bind_eq_some_iff.mp called
  have shown := (checks op).2
  simp only [enters,inserts,reacts,Option.all_some,Bool.not_true,Bool.false_or,
    Bool.and_eq_true,beq_iff_eq,Option.isSome_iff_exists] at shown
  obtain ⟨⟨phase,next⟩,walked⟩ := shown
  have result := performAll_eq asserts (i := s.tasks.length)
    (s := {s with tasks := s.tasks ++ [⟨op,some .called⟩]}) walked ready (by simp)
    (by simp [empty,out])
  have listed : none ∈ faults callback.statements := List.mem_cons_self
  rw [if_pos listed] at called
  cases Option.some.inj called
  have later : s.tasks.length ≠ i := Nat.ne_of_gt waits
  simp [State.hide,State.ran,result,State.left,next,State.InProgress,later]

theorem inv_step {a : Action} (inv : Inv s) (calm : Calm s a)
    (stepped : s.step asserts a = some t) : Inv t := by
  cases a with
  | start op fault =>
    simp only [State.step] at stepped
    split at stepped
    · exact inv_call inv calm (fun _ waits => .inr waits) stepped
    · contradiction
  | enter fault =>
    obtain ⟨op,waits,called⟩ := Option.bind_eq_some_iff.mp stepped
    exact inv_call inv (calm op waits) (fun _ waits => .inr waits) called
  | resume i event fault =>
    simp only [State.step] at stepped
    split at stepped
    · exact inv_resume inv calm stepped
    · contradiction
  | delayed k fault =>
    simp only [State.step] at stepped
    split at stepped
    · obtain ⟨op,waits,called⟩ := Option.bind_eq_some_iff.mp stepped
      exact inv_call inv (calm op waits) (fun _ listed => (Pool.mem_resumed waits).mp listed) called
    · contradiction
  | hide i =>
    simp only [State.step] at stepped
    split at stepped
    next waits =>
      cases Option.some.inj stepped
      exact inv_hide inv waits.2
    next => contradiction

end Run

/-- In every calm run of a controller the loader protocol is kept. -/
theorem loader_protocol {asserts : Bool} {controller : Controller} {s : State} {as : List Action}
    (run : Run (State.step asserts) Calm {controller := controller} as s) : Protocol s := by
  have inv := run.invariant Inv (inv_start controller) fun _ _ _ inv calm stepped =>
    inv_step inv calm stepped
  exact inv.protocol

theorem loader_protocol_group : ∃ s, Run (State.step false) Calm {controller := .group}
    [.start (.group .getGroupList) none,.resume 0 .yes none,
      .start (.group .getGroupRequestList) none,.resume 0 .error none,.resume 0 .yes none,
      .resume 0 .yes none,.resume 1 .no none,.hide 0] s ∧
    (Quiet s ∧ s.tasks ≠ []) ∧ Protocol s := by
  have computed : ∃ s, Run (State.step false) Calm {controller := .group}
      [.start (.group .getGroupList) none,.resume 0 .yes none,
        .start (.group .getGroupRequestList) none,.resume 0 .error none,.resume 0 .yes none,
        .resume 0 .yes none,.resume 1 .no none,.hide 0] s ∧ Quiet s ∧ s.tasks ≠ [] :=
    Run.exists_of_exec (by decide)
  obtain ⟨s,run,done⟩ := computed
  exact ⟨s,run,done,loader_protocol run⟩

/-- Sending a nudge while online leaves the loader in the overlay for good. -/
theorem nudge_leaves_loader : ¬ ∀ (asserts : Bool) (controller : Controller) (as : List Action)
    (s : State), Run (State.step asserts) anyStep {controller := controller} as s →
      Protocol s := by
  intro claimed
  have computed : ∃ s, Run (State.step false) anyStep {controller := .sentRequest}
      [.start (.sentRequest .sendNudgeRequest) none,.resume 0 .yes none,.resume 0 .yes none,
        .resume 0 .yes none,.delayed 0 none,.resume 1 .yes none,.resume 1 .yes none,
        .resume 1 .yes none] s ∧ Quiet s ∧ s.tasks ≠ [] ∧ s.entries = [0] :=
    Run.exists_of_exec (by decide)
  obtain ⟨s,run,quiet,begun,left⟩ := computed
  have empty := ((claimed _ _ _ s run).settled quiet begun).1
  simp [left] at empty

end Neuro.LoadingOverlay
