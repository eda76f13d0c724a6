import Mathlib
import Neuro.GroupChatScreen
import Neuro.Lib.Pool
import Neuro.Lib.Run
import Neuro.Lib.Store

/-! The `messages` and `groupMessages` collections. A send reads the clock of its
device for the document id and requests a transaction it does not await; the
transactions of all devices commit in any order. -/
namespace Neuro.MessageStore
open Neuro.Lib ChatScreen

inductive Collection
  | messages (groupChatId : String)
  | groupMessages (groupId : String)
  deriving DecidableEq, Repr

structure Path where
  collection : Collection
  docId : String
  deriving DecidableEq, Repr

inductive Document
  | chat (map : RecentUser)
  | group (map : GroupChatScreen.GroupMessage)
  deriving DecidableEq, Repr

def Document.sender : Document → Option String
  | .chat map => map.idFrom
  | .group map => some map.senderID

def Document.content : Document → Option String
  | .chat map => map.content
  | .group map => some map.content

def Document.type : Document → Option Int
  | .chat map => map.type
  | .group map => some map.type

def docId (millis : Int) : String := toString millis

structure Messages where
  docs : Store Path Document
  transactions : List (Write Path Document)

/-- One call of `onSendMessage` with the clock readings it takes: for the
`timestamp` field, for the document id and, on a 1:1 screen, for the timer. -/
inductive Send
  | chat (screen : Screen) (message : Message) (now idMillis nudgeNow : Int)
  | group (screen : GroupChatScreen.Screen) (message : Message) (now idMillis : Int)
  deriving DecidableEq, Repr

namespace Send

def message : Send → Message
  | .chat _ message .. | .group _ message .. => message

def sender : Send → String
  | .chat screen .. => screen.id
  | .group screen .. => screen.account.id

def collection : Send → Collection
  | .chat screen .. => .messages screen.groupChatId
  | .group screen .. => .groupMessages screen.groupUser.id

def idMillis : Send → Int
  | .chat _ _ _ idMillis _ | .group _ _ _ idMillis => idMillis

/-- By the time the transaction runs its handler the 1:1 map also holds the
fields added to it for the sender's inbox. -/
def document : Send → Document
  | .chat screen message now _ nudgeNow => .chat (mapData screen message now nudgeNow)
  | .group screen message now _ => .group (GroupChatScreen.mapData screen message now)

def path (send : Send) : Path := ⟨send.collection,docId send.idMillis⟩

end Send

inductive Action
  | onSendMessage (send : Send)
  | commit (transaction : Nat)

namespace Messages

def empty : Messages := ⟨fun _ => none,[]⟩

def onSendMessage (s : Messages) (send : Send) : Messages :=
  if blank send.message.content then s
  else {s with transactions := s.transactions ++ [{key := send.path,doc := send.document}]}

def step (s : Messages) : Action → Option Messages
  | .onSendMessage send => some (s.onSendMessage send)
  | .commit i => match s.transactions[i]? with
    | some w => if w.committed then none else
      some ⟨s.docs.set w.key w.doc,s.transactions.set i {w with committed := true}⟩
    | none => none

def Complete (s : Messages) : Prop := ∀ w ∈ s.transactions, w.committed = true

end Messages

def sent (actions : List Action) : List Send :=
  actions.filterMap fun
    | .onSendMessage send => if blank send.message.content then none else some send
    | .commit _ => none

/-- Every message has a document of its own in its conversation, with its sender,
content and type. -/
def AllStored (docs : Store Path Document) (sends : List Send) : Prop :=
  ∃ place : Fin sends.length → Path, Function.Injective place ∧ ∀ i,
    (place i).collection = sends[i].collection ∧ ∃ doc, docs (place i) = some doc ∧
      doc.sender = some sends[i].sender ∧ doc.content = some sends[i].message.content ∧
      doc.type = some sends[i].message.type

theorem document_fields (send : Send) : send.document.sender = some send.sender ∧
    send.document.content = some send.message.content ∧
    send.document.type = some send.message.type := by
  cases send <;> exact ⟨rfl,rfl,rfl⟩

theorem path_inj {a b : Send} :
    a.path = b.path ↔ (a.collection,a.idMillis) = (b.collection,b.idMillis) := by
  simp only [Send.path,docId,Path.mk.injEq,Prod.mk.injEq,Int.toString_eq_repr,Int.repr_inj]

structure Requested (actions : List Action) (s : Messages) : Prop where
  settled : Write.Settled s.docs s.transactions
  requests : s.transactions.map (fun w => (w.key,w.doc)) =
    (sent actions).map fun send => (send.path,send.document)

theorem requested_step {actions : List Action} {s t : Messages} {a : Action}
    (held : Requested actions s) (stepped : s.step a = some t) :
    Requested (actions ++ [a]) t := by
  cases a with
  | onSendMessage send =>
    cases Option.some.inj stepped
    unfold Messages.onSendMessage
    split
    next empty =>
      exact ⟨held.settled,by simpa [sent,List.filterMap_append,empty] using held.requests⟩
    next filled =>
      exact ⟨held.settled.request rfl,by
        simpa [sent,List.filterMap_append,filled] using held.requests⟩
  | commit i =>
    cases found : s.transactions[i]? with
    | none => simp [Messages.step,found] at stepped
    | some w =>
      obtain ⟨_,rfl⟩ : _ ∧ _ = t := by simpa [Messages.step,found] using stepped
      refine ⟨held.settled.commit found,?_⟩
      have same := Pool.map_set (fun w : Write Path Document => (w.key,w.doc)) found
        (rfl : _ = (({w with committed := true} : Write Path Document).key,w.doc))
      simpa [sent,List.filterMap_append,same] using held.requests

theorem nodup_paths (sends : List Send) : (sends.map Send.path).Nodup ↔
    (sends.map fun send => (send.collection,send.idMillis)).Nodup := by
  simp only [List.Nodup,List.pairwise_map,ne_eq,path_inj]

theorem requested_run {actions : List Action} {s : Messages}
    (run : Run Messages.step anyStep .empty actions s) : Requested actions s :=
  run.traced Requested ⟨Write.settled_nil,rfl⟩ fun _ _ _ _ held _ stepped =>
    requested_step held stepped

theorem Requested.keys {actions : List Action} {s : Messages} (held : Requested actions s) :
    s.transactions.map Write.key = (sent actions).map Send.path := by
  have firsts := congrArg (List.map Prod.fst) held.requests
  rwa [List.map_map,List.map_map] at firsts

/-- Documents of their own for all the messages leave no two sends on one path. -/
theorem Requested.nodup_of_stored {actions : List Action} {s : Messages}
    (held : Requested actions s) (stored : AllStored s.docs (sent actions)) :
    ((sent actions).map Send.path).Nodup := by
  obtain ⟨place,injective,stored⟩ := stored
  have size : s.transactions.length ≤ (sent actions).length := by
    simpa using (congrArg List.length held.keys).le
  rw [← held.keys]
  apply held.settled.nodup_of_injective size place injective
  intro i
  obtain ⟨_,doc,found,_⟩ := stored i
  simp [found]

theorem Requested.stored_of_nodup {actions : List Action} {s : Messages}
    (held : Requested actions s) (complete : s.Complete)
    (distinct : ((sent actions).map Send.path).Nodup) : AllStored s.docs (sent actions) := by
  refine ⟨fun i => (sent actions)[i].path,?_,?_⟩
  · intro i j equal
    have bound (k : Fin (sent actions).length) :
        k.val < ((sent actions).map Send.path).length := by simp
    have left := bound i
    have right := bound j
    have same : ((sent actions).map Send.path)[i.val] =
        ((sent actions).map Send.path)[j.val] := by simpa using equal
    exact Fin.ext (distinct.getElem_inj_iff.mp same)
  · intro i
    have member : ((sent actions)[i].path,(sent actions)[i].document) ∈
        s.transactions.map fun w => (w.key,w.doc) := by
      rw [held.requests]
      exact List.mem_map_of_mem (List.getElem_mem i.isLt)
    obtain ⟨w,inside,equal⟩ := List.mem_map.mp member
    obtain ⟨key,doc⟩ := Prod.mk.inj equal
    have stored := held.settled.kept (held.keys ▸ distinct) inside (complete w inside)
    rw [key,doc] at stored
    exact ⟨rfl,_,stored,document_fields _⟩

/-- After all the sends of a run completed, every message has a document of its
own exactly when no two messages sent into one conversation took their document
id in the same millisecond. -/
theorem stored_iff_millis_distinct {actions : List Action} {s : Messages}
    (run : Run Messages.step anyStep .empty actions s) (complete : s.Complete) :
    AllStored s.docs (sent actions) ↔
      ((sent actions).map fun send => (send.collection,send.idMillis)).Nodup := by
  have held := requested_run run
  rw [← nodup_paths]
  exact ⟨held.nodup_of_stored,held.stored_of_nodup complete⟩

theorem stored_iff_millis_distinct_apart : ∃ s, Run Messages.step anyStep .empty
    [.onSendMessage (.chat anna ⟨"hi",0⟩ 1700000000000 1700000000000 0),
      .onSendMessage (.chat ben ⟨"hello",0⟩ 1700000000000 1700000000001 0),
      .commit 1,.commit 0] s ∧ AllStored s.docs
    [.chat anna ⟨"hi",0⟩ 1700000000000 1700000000000 0,
      .chat ben ⟨"hello",0⟩ 1700000000000 1700000000001 0] := by
  have computed : ∃ s, Run Messages.step anyStep .empty
      [.onSendMessage (.chat anna ⟨"hi",0⟩ 1700000000000 1700000000000 0),
        .onSendMessage (.chat ben ⟨"hello",0⟩ 1700000000000 1700000000001 0),
        .commit 1,.commit 0] s ∧ ∀ w ∈ s.transactions, w.committed = true :=
    Run.exists_of_exec (by decide)
  obtain ⟨s,run,complete⟩ := computed
  exact ⟨s,run,(stored_iff_millis_distinct run complete).mpr (by decide)⟩

/-- Both ends send within one millisecond: the later commit replaces the document
of the other message. -/
theorem message_replaced : ¬ ∀ (actions : List Action) (s : Messages),
    Run Messages.step anyStep .empty actions s → s.Complete →
      AllStored s.docs (sent actions) := by
  intro claimed
  have computed : ∃ s, Run Messages.step anyStep .empty
      [.onSendMessage (.chat anna ⟨"hi",0⟩ 1700000000000 1700000000000 0),
        .onSendMessage (.chat ben ⟨"hello",0⟩ 1700000000000 1700000000000 0),
        .commit 0,.commit 1] s ∧ ∀ w ∈ s.transactions, w.committed = true :=
    Run.exists_of_exec (by decide)
  obtain ⟨s,run,complete⟩ := computed
  have distinct := (requested_run run).nodup_of_stored (claimed _ s run complete)
  exact absurd distinct (by decide)

end Neuro.MessageStore
