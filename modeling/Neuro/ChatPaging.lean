import Mathlib.Data.List.Sort
import Neuro.Lib.Descending
import Neuro.Lib.Pool
import Neuro.Lib.Run

/-! The messages shown by a chat screen, 1:1 or group: the stream of the twenty newest
until the first older page arrives, and from then on the listener on the newest message
with the queries it starts. The two screens differ in the collection only. -/
namespace Neuro.ChatPaging
open Neuro.Lib

structure Stored where
  id : String
  timestamp : Int
  deriving DecidableEq, Repr

/-- An object of the plugin. Two of them are equal only when they are the same one. -/
structure DocumentSnapshot where
  serial : Nat
  doc : Stored
  deriving DecidableEq, Repr

/-- A query in flight, before and after it has been answered. -/
inductive Call
  | older (isLessThan : Int)
  | olderServed (docs : List Stored)
  | newer (isGreaterThan : Int)
  | newerServed (docs : List Stored)
  deriving DecidableEq, Repr

/-- `stored` is the conversation as `orderBy('timestamp', descending: true)` returns it.
Each listener holds the newest messages it has not been told of yet. -/
structure Screen where
  stored : List Stored
  listMessage : List DocumentSnapshot := []
  lastMessage : Option DocumentSnapshot := none
  templastMessage : Option DocumentSnapshot := none
  isLoading : Bool := false
  listeners : List (List Stored) := []
  calls : List Call := []
  serial : Nat := 0
  deriving DecidableEq, Repr

inductive Action
  | store (m : Stored)
  /-- The `StreamBuilder` is handed the newest messages. -/
  | stream
  /-- The list is scrolled to its end. -/
  | scroll
  /-- A listener is told of a newest message; the ones before it are skipped. -/
  | event (listener skip : Nat)
  | serve (call : Nat)
  | resume (call : Nat)
  deriving DecidableEq, Repr

/-- Messages of one time are ordered by their ids. -/
def Stored.newerThan (m n : Stored) : Prop :=
  n.timestamp < m.timestamp ∨ n.timestamp = m.timestamp ∧ n.id ≤ m.id

instance : DecidableRel Stored.newerThan := fun _ _ => inferInstanceAs (Decidable (_ ∨ _ ∧ _))

def snapshots (serial : Nat) (docs : List Stored) : List DocumentSnapshot :=
  docs.mapIdx fun i doc => ⟨serial + i,doc⟩

namespace Screen
variable (s : Screen)

/-- A new message reaches the listeners when it is the newest. -/
def store (m : Stored) : Screen :=
  let stored := s.stored.orderedInsert Stored.newerThan m
  {s with
    stored := stored
    listeners := if stored.head? = s.stored.head? then s.listeners
      else s.listeners.map (· ++ [m])}

def stream : Screen :=
  let docs := s.stored.take 20
  {s with
    listMessage := snapshots s.serial docs
    lastMessage := (snapshots s.serial docs).head?.or s.lastMessage
    serial := s.serial + docs.length}

/-- On an empty list `last` throws. -/
def scrollListener : Screen :=
  match s.listMessage.getLast? with
  | none => s
  | some last => {s with calls := s.calls ++ [.older last.doc.timestamp]}

def loadToTrue : Screen :=
  {s with isLoading := true,listeners := s.listeners ++ [s.stored.head?.toList]}

def newMessageListener : Screen :=
  if s.lastMessage = s.templastMessage then s
  else {s with
    templastMessage := s.lastMessage
    calls := s.calls ++ [.newer ((s.lastMessage.map fun last => last.doc.timestamp).getD 0)]}

/-- Without a last message the callback throws. -/
def onData (newest : Stored) : Screen :=
  match s.lastMessage with
  | none => s
  | some last => if last.doc.id = newest.id then s else s.newMessageListener

def answer : Call → Option Call
  | .older t => some (.olderServed ((below Stored.timestamp t s.stored).take 20))
  | .newer t => some (.newerServed (above Stored.timestamp t s.stored))
  | .olderServed _ | .newerServed _ => none

def addAll (docs : List Stored) : Screen :=
  {s with
    listMessage := s.listMessage ++ snapshots s.serial docs
    serial := s.serial + docs.length}

/-- On an empty list `listMessage[0]` throws. -/
def insertAll (docs : List Stored) : Screen :=
  {s with
    listMessage := snapshots s.serial docs ++ s.listMessage
    lastMessage := (snapshots s.serial docs ++ s.listMessage).head?.or s.lastMessage
    serial := s.serial + docs.length}

def continued : Call → Option Screen
  | .olderServed docs => some (s.loadToTrue.addAll docs)
  | .newerServed docs => some (s.insertAll docs)
  | .older _ | .newer _ => none

def step : Action → Option Screen
  | .store m => if m.id ∈ s.stored.map Stored.id then none else some (s.store m)
  | .stream => if s.isLoading then none else some s.stream
  | .scroll => some s.scrollListener
  | .event l skip => do
    let queue ← s.listeners[l]?
    let newest ← queue[skip]?
    return {s with listeners := s.listeners.set l (queue.drop (skip + 1))}.onData newest
  | .serve i => do
    let call ← s.calls[i]?
    let served ← s.answer call
    return {s with calls := s.calls.set i served}
  | .resume i => do
    let call ← s.calls[i]?
    {s with calls := s.calls.eraseIdx i}.continued call

def docs : List Stored := s.listMessage.map DocumentSnapshot.doc

end Screen

variable {s t : Screen}

@[simp] theorem docs_snapshots (serial : Nat) (docs : List Stored) :
    (snapshots serial docs).map DocumentSnapshot.doc = docs := by
  apply List.ext_getElem?
  intro i
  simp [snapshots,Function.comp_def]

/-- The steps there are. -/
inductive Stepped (s : Screen) : Action → Screen → Prop
  | store {m} (fresh : m.id ∉ s.stored.map Stored.id) : Stepped s (.store m) (s.store m)
  | stream (streaming : s.isLoading = false) : Stepped s .stream s.stream
  | scroll : Stepped s .scroll s.scrollListener
  | event {l skip queue newest} (listens : s.listeners[l]? = some queue)
      (told : queue[skip]? = some newest) : Stepped s (.event l skip)
        (Screen.onData {s with listeners := s.listeners.set l (queue.drop (skip + 1))} newest)
  | serve {i call served} (found : s.calls[i]? = some call)
      (answered : s.answer call = some served) :
      Stepped s (.serve i) {s with calls := s.calls.set i served}
  | older {i docs} (found : s.calls[i]? = some (.olderServed docs)) : Stepped s (.resume i)
      ((Screen.loadToTrue {s with calls := s.calls.eraseIdx i}).addAll docs)
  | newer {i docs} (found : s.calls[i]? = some (.newerServed docs)) :
      Stepped s (.resume i) (Screen.insertAll {s with calls := s.calls.eraseIdx i} docs)

theorem stepped_of_step {a : Action} (stepped : s.step a = some t) : Stepped s a t := by
  cases a with
  | store m =>
    rw [Screen.step] at stepped
    split at stepped
    · contradiction
    next fresh =>
      cases Option.some.inj stepped
      exact .store fresh
  | stream =>
    rw [Screen.step] at stepped
    split at stepped
    · contradiction
    next streaming =>
      cases Option.some.inj stepped
      exact .stream (by simpa using streaming)
  | scroll =>
    cases Option.some.inj stepped
    exact .scroll
  | event l skip =>
    obtain ⟨queue,listens,rest⟩ := Option.bind_eq_some_iff.mp stepped
    obtain ⟨newest,told,done⟩ := Option.bind_eq_some_iff.mp rest
    cases Option.some.inj done
    exact .event listens told
  | serve i =>
    obtain ⟨call,found,rest⟩ := Option.bind_eq_some_iff.mp stepped
    obtain ⟨served,answered,done⟩ := Option.bind_eq_some_iff.mp rest
    cases Option.some.inj done
    exact .serve found answered
  | resume i =>
    obtain ⟨call,found,done⟩ := Option.bind_eq_some_iff.mp stepped
    cases call with
    | olderServed docs =>
      cases Option.some.inj done
      exact .older found
    | newerServed docs =>
      cases Option.some.inj done
      exact .newer found
    | older | newer => contradiction

theorem onData_same (s : Screen) (newest : Stored) :
    (s.onData newest).stored = s.stored ∧ (s.onData newest).isLoading = s.isLoading := by
  unfold Screen.onData Screen.newMessageListener
  split
  · exact ⟨rfl,rfl⟩
  · constructor <;> split <;> first | rfl | (split <;> rfl)

theorem scrollListener_same (s : Screen) : s.scrollListener.stored = s.stored ∧
    s.scrollListener.isLoading = s.isLoading := by
  unfold Screen.scrollListener
  split <;> exact ⟨rfl,rfl⟩

end Neuro.ChatPaging
