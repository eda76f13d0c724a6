import Mathlib.Data.List.DropRight
import Neuro.ChatScreen
import Neuro.Lib.Run
import Neuro.Repository

/-! Tags that are typed in. Whether a name is listed already is looked up before the request, and
a response is taken for a new tag unless it carries a message. -/
namespace Neuro.TagAdding
open Neuro.Lib RequestCall Repository
open ChatScreen (blank whitespace)
open SignIn (Response)
open TagWidth (HashTag)

def trim (text : String) : String :=
  String.ofList ((text.toList.dropWhile whitespace).rdropWhile whitespace)

structure Reply extends HashTag where
  id := ""
  name := ""
  message : String := ""
  deriving DecidableEq, Repr

def created (res : Json) : Option Reply :=
  (res.index "data").bind fun hashData => match hashData with
    | .map entries => some {
      id := (RequestRows.member (.map entries) "id").text
      name := (RequestRows.member (.map entries) "name").text
      isSelected := true}
    | .null | .bool _ | .int _ | .double _ | .string _ | .list _ => none

/-- A reported failure and most status codes give an empty tag without a message. -/
def addHashTag (response : Response) : Option Reply :=
  if response.statusCode = 404 then
    response.body.bind fun res => (res.index "message").map fun message => {message := message.text}
  else answered response created {}

inductive Call
  | connecting
  | posted (name : String)
  deriving DecidableEq, Repr

/-- `added` is a history: what has been put on the list, and whether the server has reported
its creation. The search for the width that follows leaves the list alone. -/
structure HashTagController where
  listHash : List HashTag
  text : String := ""
  name : String := ""
  loader : Loader := {}
  calls : List Call := []
  added : List (HashTag × Bool) := []
  deriving DecidableEq, Repr

inductive Action
  | typed (text : String)
  | add
  | connected (call : Nat) (value : Bool)
  | responded (call : Nat) (response : Response)
  | failed (call : Nat)
  | hidden

section Casing
variable (toUpperCase : String → String)

def key (name : String) : String := trim (toUpperCase name)

namespace HashTagController
variable (asserts : Bool) (s : HashTagController)

def addHashtag : HashTagController := match s.loader.insert asserts with
  | none => s
  | some loader => {s with loader := loader, calls := s.calls ++ [.connecting]}

def removed : HashTagController := {s with loader := s.loader.remove.getD s.loader}

def finish (i : Nat) : HashTagController := {s with calls := s.calls.eraseIdx i}

def completed : HashTagController := {s with loader := s.loader.hideLoader}

def inserted (value : HashTag) (success : Bool) : HashTagController := {s with
  text := ""
  listHash := value :: s.listHash
  added := s.added ++ [(value,success)]}

def replied (success : Bool) : Option Reply → HashTagController
  | none => s
  | some value =>
    if value.message ≠ "" then s.removed else (s.inserted value.toHashTag success).removed

def onTap : HashTagController :=
  if s.text = "" then s
  else if s.listHash.any fun element => key toUpperCase element.name = key toUpperCase s.text then
    {s with text := ""}
  else {s with name := s.text}.addHashtag asserts

def step (s : HashTagController) : Action → Option HashTagController
  | .typed text => some {s with text := text}
  | .add => some (s.onTap toUpperCase asserts)
  | .connected i value => if s.calls[i]? = some .connecting then
      some (if value then {s with calls := s.calls.set i (.posted s.name)} else (s.finish i).removed)
    else none
  | .responded i response => match s.calls[i]? with
    | some (.posted _) =>
      some (((s.finish i).replied (succeeded response) (addHashTag response)).completed)
    | some .connecting | none => none
  | .failed i => match s.calls[i]? with
    | some (.posted _) => some (s.finish i).completed
    | some .connecting | none => none
  | .hidden => s.loader.hidden.map fun loader => {s with loader := loader}

end HashTagController

def Distinct (list : List HashTag) : Prop :=
  (list.map fun element => key toUpperCase element.name).Nodup

instance (list : List HashTag) : Decidable (Distinct toUpperCase list) :=
  inferInstanceAs (Decidable (List.Nodup _))

structure Right (value : List HashTag) (s : HashTagController) : Prop where
  created : ∀ tag ∈ s.added, tag.2 = true
  named : ∀ element ∈ s.listHash, blank element.name = false
  identified : ∀ element ∈ s.listHash, element ∈ value ∨ blank element.id = false
  distinct : Distinct toUpperCase s.listHash

/-- The tag is one that has been created, and not listed yet. -/
structure New (list : List HashTag) (success : Bool) (element : HashTag) : Prop where
  created : success = true
  named : blank element.name = false
  identified : blank element.id = false
  unlisted : key toUpperCase element.name ∉ list.map fun element => key toUpperCase element.name

/-- A response without a message brings a new tag. -/
def InTurn (s : HashTagController) : Action → Prop
  | .responded _ response => ∀ value ∈ addHashTag response, value.message = "" →
    New toUpperCase s.listHash (succeeded response) value.toHashTag
  | .typed _ | .add | .connected .. | .failed _ | .hidden => True

variable {toUpperCase} in
theorem new_iff {list : List HashTag} {success : Bool} {element : HashTag} :
    New toUpperCase list success element ↔ success = true ∧ blank element.name = false ∧
      blank element.id = false ∧
        key toUpperCase element.name ∉ list.map fun element => key toUpperCase element.name :=
  ⟨fun new => ⟨new.created,new.named,new.identified,new.unlisted⟩,
    fun ⟨created,named,identified,unlisted⟩ => ⟨created,named,identified,unlisted⟩⟩

instance (list : List HashTag) (success : Bool) (element : HashTag) :
    Decidable (New toUpperCase list success element) := decidable_of_iff' _ new_iff

instance (s : HashTagController) : ∀ a, Decidable (InTurn toUpperCase s a)
  | .responded .. => inferInstanceAs (Decidable (∀ _ ∈ _, _ = "" → _))
  | .typed _ | .add | .connected .. | .failed _ | .hidden => inferInstanceAs (Decidable True)

section Step
variable {toUpperCase} {asserts : Bool} {value : List HashTag} {s t : HashTagController} {a : Action}

theorem onTap_same : (s.onTap toUpperCase asserts).listHash = s.listHash ∧
    (s.onTap toUpperCase asserts).added = s.added := by
  unfold HashTagController.onTap HashTagController.addHashtag
  split
  · exact ⟨rfl,rfl⟩
  · split
    · exact ⟨rfl,rfl⟩
    · split <;> exact ⟨rfl,rfl⟩

theorem inserted_step {i : Nat} {response : Response} {value : Reply}
    (read : addHashTag response = some value) (silent : value.message = "")
    (stepped : s.step toUpperCase asserts (.responded i response) = some t) :
    t.listHash = value.toHashTag :: s.listHash ∧
      t.added = s.added ++ [(value.toHashTag,succeeded response)] := by
  rw [HashTagController.step,read,HashTagController.replied,if_neg (not_not_intro silent)] at stepped
  split at stepped
  · cases Option.some.inj stepped
    exact ⟨rfl,rfl⟩
  · contradiction
  · contradiction

theorem step_cases (stepped : s.step toUpperCase asserts a = some t) :
    t.listHash = s.listHash ∧ t.added = s.added ∨
      ∃ i response, a = .responded i response ∧ ∃ value ∈ addHashTag response,
        value.message = "" ∧ t.listHash = value.toHashTag :: s.listHash ∧
          t.added = s.added ++ [(value.toHashTag,succeeded response)] := by
  cases a with
  | typed text =>
    cases Option.some.inj stepped
    exact .inl ⟨rfl,rfl⟩
  | add =>
    cases Option.some.inj stepped
    exact .inl onTap_same
  | connected i value =>
    rw [HashTagController.step] at stepped
    split at stepped
    · cases Option.some.inj stepped
      left
      split <;> exact ⟨rfl,rfl⟩
    · contradiction
  | responded i response =>
    by_cases silent : ∃ value ∈ addHashTag response, value.message = ""
    · obtain ⟨value,read,silent⟩ := silent
      exact .inr ⟨i,response,rfl,value,read,silent,inserted_step read silent stepped⟩
    · left
      rw [HashTagController.step] at stepped
      split at stepped
      · cases Option.some.inj stepped
        cases read : addHashTag response with
        | none => exact ⟨rfl,rfl⟩
        | some value =>
          have spoken : value.message ≠ "" := fun none => silent ⟨value,read,none⟩
          rw [HashTagController.replied,if_pos spoken]
          exact ⟨rfl,rfl⟩
      · contradiction
      · contradiction
  | failed i =>
    rw [HashTagController.step] at stepped
    split at stepped
    · cases Option.some.inj stepped
      exact .inl ⟨rfl,rfl⟩
    · contradiction
    · contradiction
  | hidden =>
    obtain ⟨_,_,rfl⟩ := Option.map_eq_some_iff.mp stepped
    exact .inl ⟨rfl,rfl⟩

theorem right_step (right : Right toUpperCase value s) (inTurn : InTurn toUpperCase s a)
    (stepped : s.step toUpperCase asserts a = some t) : Right toUpperCase value t := by
  rcases step_cases stepped with ⟨list,added⟩ | ⟨i,response,rfl,reply,read,silent,list,added⟩
  · constructor
    · exact added ▸ right.created
    · exact list ▸ right.named
    · exact list ▸ right.identified
    · exact list ▸ right.distinct
  · have new := inTurn reply read silent
    constructor
    · exact added ▸ Pool.forall_append right.created new.created
    · exact list ▸ List.forall_mem_cons.mpr ⟨new.named,right.named⟩
    · exact list ▸ List.forall_mem_cons.mpr ⟨.inr new.identified,right.identified⟩
    · rw [Distinct,list]
      exact List.nodup_cons.mpr ⟨new.unlisted,right.distinct⟩

/-- A response without a message that does not bring a new tag breaks this, so the condition is
exact. -/
theorem new_of_right {i : Nat} {response : Response} (kept : value ⊆ s.listHash)
    (stepped : s.step toUpperCase asserts (.responded i response) = some t)
    (right : Right toUpperCase value t) : InTurn toUpperCase s (.responded i response) := by
  intro reply read silent
  obtain ⟨list,added⟩ := inserted_step read silent stepped
  obtain ⟨created,named,identified,distinct⟩ := right
  rw [list] at named identified
  rw [Distinct,list] at distinct
  rw [added] at created
  have unlisted := (List.nodup_cons.mp distinct).1
  refine ⟨created _ (List.mem_append_right _ List.mem_cons_self),named _ List.mem_cons_self,?_,
    unlisted⟩
  refine (identified _ List.mem_cons_self).resolve_left fun initial => unlisted ?_
  exact List.mem_map.mpr ⟨_,kept initial,rfl⟩

end Step

/-- ADD is tapped with no call under way and not for a text of spaces only, and the server creates
the tag it is asked for or says why not. -/
def OneAtATime (s : HashTagController) : Action → Prop
  | .add => s.calls = [] ∧ (s.text = "" ∨ blank s.text = false)
  | .responded i response => ∀ name, s.calls[i]? = some (.posted name) →
    ∀ value ∈ addHashTag response, value.message = "" →
      succeeded response = true ∧ value.name = name ∧ blank value.id = false
  | .typed _ | .connected .. | .failed _ | .hidden => True

instance (s : HashTagController) : ∀ a, Decidable (OneAtATime s a)
  | .add => inferInstanceAs (Decidable (_ ∧ (_ ∨ _)))
  | .responded i response => match posted : s.calls[i]? with
    | some (.posted name) => decidable_of_iff (∀ value ∈ addHashTag response, value.message = "" →
        succeeded response = true ∧ value.name = name ∧ blank value.id = false)
      (by simp [OneAtATime,posted])
    | some .connecting | none => isTrue (by simp [OneAtATime,posted])
  | .typed _ | .connected .. | .failed _ | .hidden => inferInstanceAs (Decidable True)

structure Fresh (list : List HashTag) (name : String) : Prop where
  named : blank name = false
  unlisted : key toUpperCase name ∉ list.map fun element => key toUpperCase element.name

/-- How far the only call is; `name` is what it will post. -/
inductive Progress (list : List HashTag) (name : String) : List Call → Prop
  | idle : Progress list name []
  | connecting (fresh : Fresh toUpperCase list name) : Progress list name [.connecting]
  | posted (posted) (fresh : Fresh toUpperCase list posted) : Progress list name [.posted posted]

def Waiting (s : HashTagController) : Prop := Progress toUpperCase s.listHash s.name s.calls

section Single
variable {toUpperCase} {asserts : Bool} {s t : HashTagController} {a : Action}

theorem waiting_onTap (waiting : Waiting toUpperCase s) (alone : OneAtATime s .add) :
    Waiting toUpperCase (s.onTap toUpperCase asserts) := by
  obtain ⟨idle,named⟩ := alone
  have quiet (name : String) : Progress toUpperCase s.listHash name s.calls := idle ▸ .idle
  unfold HashTagController.onTap
  split
  · exact waiting
  next typed =>
    split
    · exact quiet s.name
    next absent =>
      unfold HashTagController.addHashtag
      split
      · exact quiet s.text
      · simp only [Waiting,idle,List.nil_append]
        refine .connecting ⟨named.resolve_left typed,fun listed => absent ?_⟩
        obtain ⟨element,member,same⟩ := List.mem_map.mp listed
        exact List.any_eq_true.mpr ⟨element,member,decide_eq_true same⟩

theorem waiting_found {i : Nat} {call : Call} (waiting : Waiting toUpperCase s)
    (found : s.calls[i]? = some call) :
    i = 0 ∧ s.calls = [call] ∧ Progress toUpperCase s.listHash s.name [call] := by
  unfold Waiting at waiting
  generalize s.calls = calls at waiting found
  cases waiting with
  | idle => contradiction
  | connecting fresh =>
    obtain ⟨rfl,rfl⟩ := Pool.found_singleton found
    exact ⟨rfl,rfl,.connecting fresh⟩
  | posted name fresh =>
    obtain ⟨rfl,rfl⟩ := Pool.found_singleton found
    exact ⟨rfl,rfl,.posted name fresh⟩

theorem waiting_finished {i : Nat} {call : Call} (waiting : Waiting toUpperCase s)
    (found : s.calls[i]? = some call) (finished : t.calls = s.calls.eraseIdx i) :
    Waiting toUpperCase t := by
  obtain ⟨rfl,only,_⟩ := waiting_found waiting found
  have none : t.calls = [] := by rw [finished,only]; rfl
  rw [Waiting,none]
  exact .idle

theorem replied_calls (success : Bool) (reply : Option Reply) :
    (s.replied success reply).calls = s.calls := by
  cases reply with
  | none => rfl
  | some value =>
    rw [HashTagController.replied]
    split <;> rfl

theorem waiting_step (waiting : Waiting toUpperCase s) (alone : OneAtATime s a)
    (stepped : s.step toUpperCase asserts a = some t) : Waiting toUpperCase t := by
  cases a with
  | typed text =>
    cases Option.some.inj stepped
    exact waiting
  | add =>
    cases Option.some.inj stepped
    exact waiting_onTap waiting alone
  | connected i value =>
    rw [HashTagController.step] at stepped
    split at stepped
    next found =>
      cases Option.some.inj stepped
      cases value with
      | false => exact waiting_finished waiting found rfl
      | true =>
        obtain ⟨rfl,only,progress⟩ := waiting_found waiting found
        cases progress with
        | connecting fresh =>
          simp only [Waiting,only,if_true,List.set_cons_zero]
          exact .posted s.name fresh
    next => contradiction
  | responded i response =>
    rw [HashTagController.step] at stepped
    split at stepped
    next found =>
      cases Option.some.inj stepped
      exact waiting_finished waiting found (replied_calls _ _)
    all_goals contradiction
  | failed i =>
    rw [HashTagController.step] at stepped
    split at stepped
    next found =>
      cases Option.some.inj stepped
      exact waiting_finished waiting found rfl
    all_goals contradiction
  | hidden =>
    obtain ⟨_,_,rfl⟩ := Option.map_eq_some_iff.mp stepped
    exact waiting

theorem inTurn_of_oneAtATime {value : List HashTag} {actions : List Action}
    (run : Run (HashTagController.step toUpperCase asserts) OneAtATime {listHash := value}
      actions s) :
    Run (HashTagController.step toUpperCase asserts) (InTurn toUpperCase) {listHash := value}
      actions s := by
  refine run.reguard (Waiting toUpperCase) .idle (fun _ _ _ => waiting_step)
    fun s a t waiting alone stepped => ?_
  cases a with
  | responded i response =>
    intro reply read silent
    rw [HashTagController.step] at stepped
    split at stepped
    next name found =>
      obtain ⟨success,same,identified⟩ := alone name found reply read silent
      cases (waiting_found waiting found).2.2 with
      | posted _ fresh => exact ⟨success,same ▸ fresh.named,identified,same ▸ fresh.unlisted⟩
    all_goals contradiction
  | typed | add | connected | failed | hidden => trivial

end Single

/-- In every run in which one tag is added at a time, only created tags are added, no name or
added id is blank, and the names stay different. -/
theorem tags_stay_distinct {toUpperCase : String → String} {asserts : Bool} {value : List HashTag}
    {s : HashTagController} {actions : List Action}
    (named : ∀ element ∈ value, blank element.name = false) (distinct : Distinct toUpperCase value)
    (run : Run (HashTagController.step toUpperCase asserts) OneAtATime {listHash := value}
      actions s) : Right toUpperCase value s := by
  have start : Right toUpperCase value {listHash := value} :=
    ⟨by simp,named,fun _ member => .inl member,distinct⟩
  exact (inTurn_of_oneAtATime run).invariant (Right toUpperCase value) start
    fun _ _ _ => right_step

def reply (success : Bool) (data : Json) : Response :=
  ⟨200,some (.map [("success",.bool success),("data",data)])⟩

theorem tags_stay_distinct_two : ∃ s, Run (HashTagController.step id true) OneAtATime
    {listHash := [⟨"1","CHESS",false⟩]} [.typed "TEA",.add,.connected 0 true,
      .responded 0 (reply true (.map [("id",.int 2),("name",.string "TEA")])),.hidden] s ∧
    s.listHash = [⟨"2","TEA",true⟩,⟨"1","CHESS",false⟩] ∧ Right id [⟨"1","CHESS",false⟩] s := by
  have computed : ∃ s, Run (HashTagController.step id true) OneAtATime
      {listHash := [⟨"1","CHESS",false⟩]} [.typed "TEA",.add,.connected 0 true,
        .responded 0 (reply true (.map [("id",.int 2),("name",.string "TEA")])),.hidden] s ∧
      s.listHash = [⟨"2","TEA",true⟩,⟨"1","CHESS",false⟩] :=
    Run.exists_of_exec (by decide)
  obtain ⟨s,run,list⟩ := computed
  exact ⟨s,run,list,tags_stay_distinct (by decide) (by decide) run⟩

/-- The server reports that it has not created the tag, and an empty one is listed. -/
theorem empty_tag_added : ¬ ∀ (toUpperCase : String → String) (asserts : Bool)
    (value : List HashTag) (actions : List Action) (s : HashTagController),
    (∀ element ∈ value, blank element.name = false) → Distinct toUpperCase value →
      Run (HashTagController.step toUpperCase asserts) anyStep {listHash := value} actions s →
        Right toUpperCase value s := by
  intro claimed
  have computed : ∃ s, Run (HashTagController.step id true) anyStep {listHash := []}
      [.typed "TEA",.add,.connected 0 true,.responded 0 (reply false .null)] s ∧
      ∃ tag ∈ s.added, tag.2 ≠ true :=
    Run.exists_of_exec (by decide)
  obtain ⟨s,run,tag,member,failed⟩ := computed
  exact failed ((claimed id true [] _ s (by simp) (by decide) run).created tag member)

end Casing

end Neuro.TagAdding
