import Neuro.InboxEntry
import Neuro.Lib.Replay
import Neuro.Lib.Run
import Neuro.Repository

/-! The document of a group beside the record of the server. Both calls post the name, the topic
and an image if there is one, and write the document when the response arrives, from what the
one `sendData` of their `GroupController` has become by then. -/
namespace Neuro.GroupRecord
open Neuro.Lib
open ChatScreen (Account)
open InboxEntry (Group)

/-- `groupImg` is the file that is posted. -/
structure CreateGroup where
  groupId : String := ""
  groupName : String := ""
  about : String := ""
  groupImg : Option String := none
  members : String := ""
  deriving DecidableEq, Repr

inductive Call
  | createGroup (data : CreateGroup) (account : Account)
  | updateGroup (data : CreateGroup)
  deriving DecidableEq, Repr

def Call.data : Call → CreateGroup
  | .createGroup data _ | .updateGroup data => data

def Call.withData (data : CreateGroup) : Call → Call
  | .createGroup _ account => .createGroup data account
  | .updateGroup _ => .updateGroup data

structure Record where
  name : String
  topic : String
  image : String
  deriving DecidableEq, Repr

def record (group : Group) : Record := ⟨group.groupName,group.groupTopic,group.groupImg⟩

def success (res : Json) : Option Bool := (res.index "success").bind Json.asBool

/-- The document a response lets a call write, none when it throws or reports a failure. -/
def Call.written (res : Json) : Call → Option (Patch String Group)
  | .createGroup data account => do
    if ← success res then
      let _ ← (res.index "message").bind Json.asString
      let groupId ← Repository.data res "group_id"
      let groupImg ← Repository.data res "group_img"
      some ⟨groupId.text,fun _ => some ⟨groupId.text,data.groupName,groupImg.text,data.about,
        [⟨account.id,account.name,account.image,true⟩]⟩⟩
    else none
  | .updateGroup data => do
    if ← success res then
      some ⟨data.groupId,Option.map fun group =>
        {group with groupName := data.groupName,groupTopic := data.about}⟩
    else none

def patch (res : Json) (call : Call) : Patch String Group := (call.written res).getD ⟨"",id⟩

/-- What the server sends after it has accepted a call. -/
structure Reply where
  message : String
  groupId : String
  groupImg : String
  deriving DecidableEq, Repr

def Reply.body (reply : Reply) : Json :=
  .map [("success",.bool true),("message",.string reply.message),
    ("data",.map [("group_id",.string reply.groupId),("group_img",.string reply.groupImg)])]

/-- What it has stored by then. A group keeps its image unless a new one is posted. -/
def Call.accepted (reply : Reply) : Call → Patch String Record
  | .createGroup data _ => ⟨reply.groupId,fun _ => some ⟨data.groupName,data.about,reply.groupImg⟩⟩
  | .updateGroup data => ⟨data.groupId,Option.map fun record =>
    ⟨data.groupName,data.about,if data.groupImg = none then record.image else reply.groupImg⟩⟩

inductive Method
  | createGroup
  | updateGroup
  deriving DecidableEq, Repr

/-- What a call of the controller has sent. -/
structure Request where
  controller : Nat
  call : Call
  deriving DecidableEq, Repr

/-- An accepted request; once the response has arrived `call` is what the document is written
from. -/
structure Answer extends Request where
  reply : Reply
  arrived : Bool := false
  deriving DecidableEq, Repr

def pending (answer : Answer) : Patch String Group := patch answer.reply.body answer.call

/-- `waiting` are the calls that have not read their data yet, `posted` those the server has not
answered; `replied` those it has accepted, in this order, whose document has not been written
yet. -/
structure Cloud where
  groups : Store String Group
  server : Store String Record
  sendData : Nat → CreateGroup := fun _ => {}
  waiting : List (Nat × Method) := []
  posted : List Request := []
  replied : List Answer := []

inductive Action
  /-- A button of the screen fills the data of its controller and calls the method. -/
  | tap (controller : Nat) (method : Method) (data : CreateGroup)
  /-- Offline, or the preferences throw. -/
  | stop (call : Nat)
  | post (call : Nat) (account : Account)
  | accept (call : Nat) (reply : Reply)
  | reject (call : Nat) (res : Json)
  | fail (call : Nat)
  | arrive (call : Nat)
  | write (call : Nat)
  /-- The reply is lost, or the write fails. -/
  | lose (call : Nat)

def Method.call (data : CreateGroup) (account : Account) : Method → Call
  | .createGroup => .createGroup data account
  | .updateGroup => .updateGroup data

namespace Cloud
variable (s : Cloud)

/-- The call with what the data of its controller has become. -/
def reread (request : Request) : Call := request.call.withData (s.sendData request.controller)

def step : Action → Option Cloud
  | .tap controller method data => some {s with
    sendData := Function.update s.sendData controller data
    waiting := s.waiting ++ [(controller,method)]}
  | .stop i => s.waiting[i]?.map fun _ => {s with waiting := s.waiting.eraseIdx i}
  | .post i account => s.waiting[i]?.map fun (controller,method) => {s with
    waiting := s.waiting.eraseIdx i
    posted := s.posted ++ [⟨controller,method.call (s.sendData controller) account⟩]}
  | .accept i reply => s.posted[i]?.bind fun request =>
    match request.call,s.server (request.call.accepted reply).key with
    | .updateGroup _,none => none
    | .updateGroup _,some _ | .createGroup ..,_ => some {s with
      posted := s.posted.eraseIdx i
      server := (request.call.accepted reply).apply s.server
      replied := s.replied ++ [{toRequest := request,reply := reply}]}
  | .reject i res => if success res = some true then none else s.posted[i]?.map fun request =>
    {s with
      posted := s.posted.eraseIdx i
      groups := (patch res (s.reread request)).apply s.groups}
  | .fail i => s.posted[i]?.map fun _ => {s with posted := s.posted.eraseIdx i}
  | .arrive i => s.replied[i]?.bind fun answer => if answer.arrived then none else some {s with
      replied := s.replied.set i
        {answer with call := s.reread answer.toRequest,arrived := true}}
  | .write i => s.replied[i]?.bind fun answer => if answer.arrived then some {s with
      replied := s.replied.eraseIdx i
      groups := (pending answer).apply s.groups} else none
  | .lose i => s.replied[i]?.map fun _ => {s with replied := s.replied.eraseIdx i}

end Cloud

def start (groups : Store String Group) : Cloud where
  groups := groups
  server groupId := (groups groupId).map record

def Quiescent (s : Cloud) : Prop := s.waiting = [] ∧ s.posted = [] ∧ s.replied = []

def Unsuccessful : Action → Prop
  | .stop _ | .reject .. | .fail _ | .lose _ => True
  | .tap .. | .post .. | .accept .. | .arrive _ | .write _ => False

instance (s : Cloud) : Decidable (Quiescent s) :=
  decidable_of_iff (s.waiting = [] ∧ s.posted = [] ∧ s.replied = []) .rfl

structure Consistent (s : Cloud) : Prop where
  agreed : Quiescent s → ∀ groupId, (s.groups groupId).map record = s.server groupId
  unchanged : ∀ a t, Unsuccessful a → s.step a = some t → t.groups = s.groups

/-- An update that changes the image is not written. -/
def Keeps (s : Cloud) (reply : Reply) : Call → Prop
  | .createGroup .. => True
  | .updateGroup data => data.groupImg = none ∨
    ∀ record ∈ s.server data.groupId, record.image = reply.groupImg

/-- No call of the controller has been sent without its response having arrived. -/
def Free (s : Cloud) (controller : Nat) : Prop :=
  (∀ request ∈ s.posted, request.controller ≠ controller) ∧
    ∀ answer ∈ s.replied, answer.arrived = false → answer.controller ≠ controller

/-- No accepted update changes the image of its group; the data of a controller changes only
while no call of it is on its way; and what the server has accepted of a group is written, all of
it, in this order. -/
def InOrder (s : Cloud) : Action → Prop
  | .tap controller _ data => data = s.sendData controller ∨ Free s controller
  | .accept i reply => ∀ request ∈ s.posted[i]?, Keeps s reply request.call
  | .write i => ∀ answer ∈ s.replied[i]?, ∀ earlier ∈ s.replied.take i,
    (earlier.call.accepted earlier.reply).key ≠ (answer.call.accepted answer.reply).key
  | .lose _ => False
  | .stop _ | .post .. | .reject .. | .fail _ | .arrive _ => True

instance (s : Cloud) (reply : Reply) : ∀ call, Decidable (Keeps s reply call)
  | .createGroup .. => inferInstanceAs (Decidable True)
  | .updateGroup _ => inferInstanceAs (Decidable (_ ∨ ∀ _ ∈ _, _))

instance (s : Cloud) (controller : Nat) : Decidable (Free s controller) :=
  inferInstanceAs (Decidable ((∀ _ ∈ _, _) ∧ ∀ _ ∈ _, _ → _))

instance (s : Cloud) : ∀ a, Decidable (InOrder s a)
  | .tap .. => inferInstanceAs (Decidable (_ = _ ∨ _))
  | .accept .. => inferInstanceAs (Decidable (∀ _ ∈ _, _))
  | .write _ => inferInstanceAs (Decidable (∀ _ ∈ _, ∀ _ ∈ _, _))
  | .lose _ => inferInstanceAs (Decidable False)
  | .stop _ | .post .. | .reject .. | .fail _ | .arrive _ => inferInstanceAs (Decidable True)

/-- Once all replies have been written, the documents are those of the server. -/
def Settled (s : Cloud) : Prop := ∀ groupId,
  (Patch.replay (s.replied.map pending) s.groups groupId).map record = s.server groupId

/-- What a call will read when its response arrives is what it has sent. -/
structure Current (s : Cloud) : Prop where
  posted : ∀ request ∈ s.posted, s.reread request = request.call
  replied : ∀ answer ∈ s.replied, answer.arrived = false →
    s.reread answer.toRequest = answer.call

variable {s t : Cloud} {a : Action} {call : Call} {reply : Reply} {res : Json}

theorem written_updateGroup (data : CreateGroup) :
    patch reply.body (.updateGroup data) = ⟨data.groupId,Option.map fun group =>
      {group with groupName := data.groupName,groupTopic := data.about}⟩ :=
  rfl

theorem patch_key : (patch reply.body call).key = (call.accepted reply).key := by
  cases call <;> rfl

theorem patch_rejected (rejected : success res ≠ some true) (groups : Store String Group) :
    (patch res call).apply groups = groups := by
  have none : call.written res = none := by
    cases reported : success res with
    | none => cases call <;> simp [Call.written,reported]
    | some value =>
      cases value with
      | true => exact absurd reported rejected
      | false => cases call <;> simp [Call.written,reported]
  rw [patch,none]
  exact Patch.apply_of_same rfl

theorem change_iff {group : Option Group} {old : Record} {data : CreateGroup}
    (known : group.map record = some old) :
    ((patch reply.body (.updateGroup data)).change group).map record =
      ((Call.updateGroup data).accepted reply).change (group.map record) ↔
        data.groupImg = none ∨ old.image = reply.groupImg := by
  obtain ⟨group,rfl,rfl⟩ := Option.map_eq_some_iff.mp known
  rw [written_updateGroup]
  by_cases kept : data.groupImg = none
  · simp [Call.accepted,record,kept]
  · simp [Call.accepted,record,kept]

/-- The server updates only groups that there are. -/
theorem accept_cases {i : Nat} (stepped : s.step (.accept i reply) = some t) :
    ∃ request, s.posted[i]? = some request ∧
      (∀ data, request.call = .updateGroup data → s.server data.groupId ≠ none) ∧ t = {s with
        posted := s.posted.eraseIdx i
        server := (request.call.accepted reply).apply s.server
        replied := s.replied ++ [{toRequest := request,reply := reply}]} := by
  obtain ⟨request,found,accepted⟩ := Option.bind_eq_some_iff.mp stepped
  refine ⟨request,found,?_⟩
  split at accepted
  · contradiction
  next data old updates known =>
    cases Option.some.inj accepted
    refine ⟨fun other same => ?_,rfl⟩
    rw [updates] at same known
    cases same
    exact Option.ne_none_iff_exists'.mpr ⟨old,known⟩
  next creates =>
    cases Option.some.inj accepted
    exact ⟨fun other same => by simp [creates] at same,rfl⟩

theorem arrive_cases {i : Nat} (stepped : s.step (.arrive i) = some t) :
    ∃ answer, s.replied[i]? = some answer ∧ answer.arrived = false ∧ t = {s with
      replied := s.replied.set i
        {answer with call := s.reread answer.toRequest,arrived := true}} := by
  obtain ⟨answer,found,rest⟩ := Option.bind_eq_some_iff.mp stepped
  split at rest
  · contradiction
  next waits => exact ⟨answer,found,by simpa using waits,(Option.some.inj rest).symm⟩

theorem write_cases {i : Nat} (stepped : s.step (.write i) = some t) :
    ∃ answer, s.replied[i]? = some answer ∧ t = {s with
      replied := s.replied.eraseIdx i
      groups := (pending answer).apply s.groups} := by
  obtain ⟨answer,found,rest⟩ := Option.bind_eq_some_iff.mp stepped
  split at rest
  · exact ⟨answer,found,(Option.some.inj rest).symm⟩
  · contradiction

theorem withData_method (method : Method) (data : CreateGroup) (account : Account) :
    (method.call data account).withData data = method.call data account := by
  cases method <;> rfl

theorem reread_tap {controller : Nat} {method : Method} {data : CreateGroup} {request : Request}
    (stepped : s.step (.tap controller method data) = some t)
    (same : request.controller = controller → data = s.sendData controller) :
    t.reread request = s.reread request := by
  cases Option.some.inj stepped
  have read : Function.update s.sendData controller data request.controller =
      s.sendData request.controller := by
    by_cases own : request.controller = controller
    · rw [own,Function.update_self,same own]
    · exact Function.update_of_ne own ..
  exact congrArg (Call.withData · request.call) read

theorem Current.shrink (current : Current s) (data : t.sendData = s.sendData)
    (posted : t.posted ⊆ s.posted) (replied : t.replied ⊆ s.replied) : Current t := by
  have same (request : Request) : t.reread request = s.reread request := by
    rw [Cloud.reread,data]
    rfl
  constructor
  · exact fun request member => (same request).trans (current.posted request (posted member))
  · intro answer member waits
    exact (same _).trans (current.replied answer (replied member) waits)

theorem current_step (current : Current s) (inOrder : InOrder s a)
    (stepped : s.step a = some t) : Current t := by
  cases a with
  | tap controller method data =>
    have taken := stepped
    cases Option.some.inj taken
    constructor
    · intro request member
      refine (reread_tap stepped fun own => ?_).trans (current.posted request member)
      exact inOrder.resolve_right fun free => free.1 request member own
    · intro answer member waits
      refine (reread_tap stepped fun own => ?_).trans (current.replied answer member waits)
      exact inOrder.resolve_right fun free => free.2 answer member waits own
  | stop i =>
    obtain ⟨_,_,rfl⟩ := Option.map_eq_some_iff.mp stepped
    exact ⟨current.posted,current.replied⟩
  | post i account =>
    obtain ⟨⟨controller,method⟩,_,rfl⟩ := Option.map_eq_some_iff.mp stepped
    exact ⟨Pool.forall_append current.posted (withData_method method _ account),current.replied⟩
  | accept i reply =>
    obtain ⟨request,found,_,rfl⟩ := accept_cases stepped
    have own := current.posted request (List.mem_of_getElem? found)
    exact ⟨fun other member => current.posted other (List.mem_of_mem_eraseIdx member),
      Pool.forall_append current.replied fun _ => own⟩
  | reject i res =>
    rw [Cloud.step] at stepped
    split at stepped
    · contradiction
    · obtain ⟨_,_,rfl⟩ := Option.map_eq_some_iff.mp stepped
      exact current.shrink rfl (List.eraseIdx_subset) (List.Subset.refl _)
  | fail i =>
    obtain ⟨_,_,rfl⟩ := Option.map_eq_some_iff.mp stepped
    exact current.shrink rfl (List.eraseIdx_subset) (List.Subset.refl _)
  | arrive i =>
    obtain ⟨answer,_,_,rfl⟩ := arrive_cases stepped
    exact ⟨current.posted,Pool.forall_set current.replied nofun⟩
  | write i =>
    obtain ⟨answer,_,rfl⟩ := write_cases stepped
    exact current.shrink rfl (List.Subset.refl _) (List.eraseIdx_subset)
  | lose => exact inOrder.elim

/-- A call that is accepted keeps the documents on the way to those of the server if and only if
it does not change the image. -/
theorem settled_accept_iff {i : Nat} (settled : Settled s)
    (stepped : s.step (.accept i reply) = some t) :
    Settled t ↔ ∀ request ∈ s.posted[i]?, Keeps s reply request.call := by
  obtain ⟨⟨controller,call⟩,found,updates,rfl⟩ := accept_cases stepped
  rw [found]
  simp only [Option.mem_some_iff,forall_eq',Settled,List.map_append,List.map_singleton,
    Patch.replay_append]
  refine (Patch.apply_map_iff patch_key.symm settled).trans ?_
  cases call with
  | createGroup data account => exact iff_of_true rfl trivial
  | updateGroup data =>
    obtain ⟨old,known⟩ := Option.ne_none_iff_exists'.mp (updates data rfl)
    refine (change_iff ((settled data.groupId).trans known)).trans ?_
    rw [Keeps,known]
    simp

theorem settled_write_iff {i : Nat} (inOrder : InOrder s (.write i))
    (stepped : s.step (.write i) = some t) : Settled t ↔ Settled s := by
  obtain ⟨answer,found,rfl⟩ := write_cases stepped
  have same : Patch.replay ((s.replied.eraseIdx i).map pending) ((pending answer).apply s.groups) =
      Patch.replay (s.replied.map pending) s.groups := by
    rw [← List.eraseIdx_map]
    refine Patch.replay_eraseIdx (by rw [List.getElem?_map,found]; rfl) fun earlier member => ?_
    rw [← List.map_take] at member
    obtain ⟨before,early,rfl⟩ := List.mem_map.mp member
    rw [pending,pending,patch_key,patch_key]
    exact inOrder answer found before early
  rw [Settled,Settled,same]

theorem settled_arrive_iff {i : Nat} (current : Current s)
    (stepped : s.step (.arrive i) = some t) : Settled t ↔ Settled s := by
  obtain ⟨answer,found,waits,rfl⟩ := arrive_cases stepped
  have own := current.replied answer (List.mem_of_getElem? found) waits
  have same : (s.replied.set i {answer with call := s.reread answer.toRequest,arrived := true}).map
      pending = s.replied.map pending := by
    apply Pool.map_set _ found
    rw [pending,own]
    rfl
  rw [Settled,same]
  exact .rfl

theorem settled_other_iff (current : Current s) (inOrder : InOrder s a)
    (accepts : ∀ i reply, a ≠ .accept i reply) (stepped : s.step a = some t) :
    Settled t ↔ Settled s := by
  cases a with
  | tap =>
    cases Option.some.inj stepped
    exact .rfl
  | accept i reply => exact absurd rfl (accepts i reply)
  | reject i res =>
    rw [Cloud.step] at stepped
    split at stepped
    · contradiction
    next rejected =>
      obtain ⟨call,_,rfl⟩ := Option.map_eq_some_iff.mp stepped
      rw [Settled,patch_rejected rejected]
      exact .rfl
  | stop | post | fail =>
    obtain ⟨_,_,rfl⟩ := Option.map_eq_some_iff.mp stepped
    exact .rfl
  | arrive i => exact settled_arrive_iff current stepped
  | write i => exact settled_write_iff inOrder stepped
  | lose => exact inOrder.elim

theorem settled_step (current : Current s) (settled : Settled s) (inOrder : InOrder s a)
    (stepped : s.step a = some t) : Settled t := by
  by_cases accepts : ∃ i reply, a = .accept i reply
  · obtain ⟨i,reply,rfl⟩ := accepts
    exact (settled_accept_iff settled stepped).mpr inOrder
  · refine (settled_other_iff current inOrder ?_ stepped).mpr settled
    exact fun i reply same => accepts ⟨i,reply,same⟩

theorem agreed_iff (quiescent : Quiescent s) :
    (∀ groupId, (s.groups groupId).map record = s.server groupId) ↔ Settled s := by
  rw [Settled,quiescent.2.2]
  rfl

theorem unchanged_step (unsuccessful : Unsuccessful a) (stepped : s.step a = some t) :
    t.groups = s.groups := by
  cases a with
  | tap | post | accept | arrive | write => contradiction
  | reject i res =>
    rw [Cloud.step] at stepped
    split at stepped
    · contradiction
    next rejected =>
      obtain ⟨call,_,rfl⟩ := Option.map_eq_some_iff.mp stepped
      exact patch_rejected rejected s.groups
  | stop | fail | lose =>
    obtain ⟨_,_,rfl⟩ := Option.map_eq_some_iff.mp stepped
    rfl

def chess (groupImg : String) : Store String Group :=
  Store.set (fun _ => none) "7" ⟨"7","CHESS",groupImg,"OPENINGS",[]⟩

def update (groupName : String) (groupImg : Option String) : CreateGroup :=
  {groupId := "7",groupName := groupName,about := "ENDGAMES",groupImg := groupImg}

def anna : Account := ⟨"1","Anna",""⟩

/-- The second call is tapped when the response of the first one has arrived. -/
def goThenShogi : List Action :=
  [.tap 0 .updateGroup (update "GO" none),.post 0 anna,.accept 0 ⟨"","7",""⟩,.arrive 0,
    .tap 0 .updateGroup (update "SHOGI" (some "photo.jpg")),.post 0 anna,
    .reject 0 (.map [("success",.bool false)]),.write 0]

/-- After an update that changes the image the two differ, until something else is accepted. -/
theorem differs_of_image {u : Cloud} {i : Nat} {actions : List Action} (current : Current s)
    (settled : Settled s) (stepped : s.step (.accept i reply) = some t)
    (changes : ¬ InOrder s (.accept i reply))
    (run : Run Cloud.step (fun s a => InOrder s a ∧ ∀ i reply, a ≠ .accept i reply) t actions u)
    (quiescent : Quiescent u) :
    ¬ ∀ groupId, (u.groups groupId).map record = u.server groupId := by
  rw [agreed_iff quiescent]
  obtain ⟨request,found,_,accepted⟩ := accept_cases stepped
  have start : Current t ∧ ¬ Settled t := by
    refine ⟨?_,mt (settled_accept_iff settled stepped).mp changes⟩
    have own := current.posted request (List.mem_of_getElem? found)
    exact accepted ▸ ⟨fun other member => current.posted other (List.mem_of_mem_eraseIdx member),
      Pool.forall_append current.replied fun _ => own⟩
  refine (run.invariant (fun s => Current s ∧ ¬ Settled s) start ?_).2
  intro s a t ⟨current,unsettled⟩ admitted stepped
  exact ⟨current_step current admitted.1 stepped,
    mt (settled_other_iff current admitted.1 admitted.2 stepped).mp unsettled⟩

end Neuro.GroupRecord
