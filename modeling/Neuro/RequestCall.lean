import Mathlib.Algebra.Order.Group.Multiset
import Neuro.Lib.Pool

/-! One call of a controller into its repository. Every such call awaits
`Helper.isConnect()`, then `SharedPreferences.getInstance()` inside the
repository function, and only then encodes its body and posts it. -/
namespace Neuro.RequestCall
open Neuro.Lib

inductive Phase
  | connecting
  | loadingPrefs
  | posted
  | finished
  deriving DecidableEq, Repr

/-- The body is still to be encoded, from whatever the argument object holds then. -/
def Phase.unencoded : Phase → Bool
  | .connecting | .loadingPrefs => true
  | .posted | .finished => false

def Phase.connected (value : Bool) : Phase := if value then .loadingPrefs else .finished

def authorization (token : Option String) : String := "Bearer " ++ token.getD ""

def unencoded (calls : List Phase) : Nat := calls.countP Phase.unencoded

theorem unencoded_append (calls : List Phase) (phase : Phase) :
    unencoded (calls ++ [phase]) = unencoded calls + if phase.unencoded then 1 else 0 := by
  simp [unencoded,List.countP_append,List.countP_cons]

theorem unencoded_set {calls : List Phase} {i : Nat} {before : Phase} (after : Phase)
    (found : calls[i]? = some before) :
    unencoded (calls.set i after) + (if before.unencoded then 1 else 0) =
      unencoded calls + if after.unencoded then 1 else 0 := by
  obtain ⟨bound,equal⟩ := List.getElem?_eq_some_iff.mp found
  have positive : before.unencoded = true → 0 < unencoded calls := by
    intro pending
    exact List.countP_pos_iff.mpr ⟨before,equal ▸ List.getElem_mem bound,pending⟩
  unfold unencoded at *
  rw [List.countP_set bound,equal]
  split <;> split <;> simp_all

theorem unencoded_eq_zero {calls : List Phase} (quiet : ∀ c ∈ calls, c.unencoded = false) :
    unencoded calls = 0 := by
  simp only [unencoded,List.countP_eq_zero]
  intro c member
  simp [quiet c member]

/-- A call that awaits what has come goes on. -/
def resumed {C S : Type} (calls : List C) (phase : C → Phase) (i : Nat) (before : Phase)
    (next : C → S) : Option S :=
  calls[i]?.bind fun call => if phase call = before then some (next call) else none

theorem resumed_cases {C S : Type} {calls : List C} {phase : C → Phase} {i : Nat} {before : Phase}
    {next : C → S} {t : S} (resumed : resumed calls phase i before next = some t) :
    ∃ call, calls[i]? = some call ∧ phase call = before ∧ t = next call := by
  obtain ⟨call,found,taken⟩ := Option.bind_eq_some_iff.mp resumed
  split at taken
  next awaited => exact ⟨call,found,awaited,(Option.some.inj taken).symm⟩
  next => contradiction

/-! The calls of a controller that a caller tells apart by a tag each, and the
requests they have posted. -/

structure Outbox (T B : Type) where
  calls : List (T × Phase) := []
  sent : List (T × B) := []
  deriving DecidableEq, Repr

inductive Resume
  | connected (value : Bool)
  | prefsLoaded
  | responded
  deriving DecidableEq, Repr

namespace Outbox
variable {T B : Type} (o : Outbox T B)

def start (tag : T) : Outbox T B := {o with calls := o.calls ++ [(tag,.connecting)]}

/-- The body is encoded from what is there when the preferences have been loaded. -/
def resume (body : T → B) (i : Nat) (r : Resume) : Option (Outbox T B) :=
  o.calls[i]?.bind fun (tag,phase) => match r,phase with
    | .connected value,.connecting => some {o with calls := o.calls.set i (tag,.connected value)}
    | .prefsLoaded,.loadingPrefs =>
      some ⟨o.calls.set i (tag,.posted),o.sent ++ [(tag,body tag)]⟩
    | .responded,.posted => some {o with calls := o.calls.set i (tag,.finished)}
    | _,_ => none

def tags : List T := o.calls.map Prod.fst

def waiting (call : T × Phase) : List T := if call.2.unencoded then [call.1] else []

def pending : List T := o.calls.flatMap waiting

def Quiet : Prop := ∀ call ∈ o.calls, call.2.unencoded = false

instance : Decidable o.Quiet := inferInstanceAs (Decidable (∀ _ ∈ _, _))

/-- Each call made so far has posted one request or has still to. -/
def Balanced : Prop :=
  (↑(o.sent.map Prod.fst) : Multiset T) + ↑o.pending = (↑o.tags : Multiset T)

variable {o}

theorem balanced_start (balanced : o.Balanced) (tag : T) : (o.start tag).Balanced := by
  simp only [Balanced,pending,tags,start,List.flatMap_append,List.map_append,← Multiset.coe_add]
  rw [← add_assoc]
  exact congrArg (· + _) balanced

theorem tags_resume {body : T → B} {i : Nat} {r : Resume} {next : Outbox T B}
    (resumed : o.resume body i r = some next) : next.tags = o.tags := by
  obtain ⟨⟨tag,phase⟩,found,taken⟩ := Option.bind_eq_some_iff.mp resumed
  have kept (phase : Phase) : (o.calls.set i (tag,phase)).map Prod.fst = o.calls.map Prod.fst :=
    Pool.map_set Prod.fst found rfl
  cases r <;> cases phase <;> simp only [reduceCtorEq,Option.some.injEq] at taken <;>
    subst taken <;> exact kept _

theorem sent_resume {body : T → B} {i : Nat} {r : Resume} {next : Outbox T B}
    (resumed : o.resume body i r = some next) :
    next.sent = o.sent ∨ ∃ tag ∈ o.tags, next.sent = o.sent ++ [(tag,body tag)] := by
  obtain ⟨⟨tag,phase⟩,found,taken⟩ := Option.bind_eq_some_iff.mp resumed
  have own : tag ∈ o.tags := List.mem_map.mpr ⟨_,List.mem_of_getElem? found,rfl⟩
  cases r <;> cases phase <;> simp only [reduceCtorEq,Option.some.injEq] at taken <;> subst taken
  · exact .inl rfl
  · exact .inr ⟨tag,own,rfl⟩
  · exact .inl rfl

theorem posted_resume {body : T → B} {i : Nat} {r : Resume} {next : Outbox T B}
    (posted : ∀ request ∈ o.sent, request.1 ∈ o.tags)
    (resumed : o.resume body i r = some next) : ∀ request ∈ next.sent, request.1 ∈ next.tags := by
  rw [tags_resume resumed]
  rcases sent_resume resumed with same | ⟨tag,own,sent⟩
  · exact same ▸ posted
  · exact sent ▸ Pool.forall_append posted own

theorem encoded_resume {body : T → B} {i : Nat} {r : Resume} {next : Outbox T B}
    (encoded : ∀ request ∈ o.sent, request.2 = body request.1)
    (resumed : o.resume body i r = some next) :
    ∀ request ∈ next.sent, request.2 = body request.1 := by
  rcases sent_resume resumed with same | ⟨tag,_,sent⟩
  · exact same ▸ encoded
  · exact sent ▸ Pool.forall_append encoded rfl

theorem pending_set {i : Nat} {tag : T} {before : Phase} (found : o.calls[i]? = some (tag,before))
    (after : Phase) :
    (↑((o.calls.set i (tag,after)).flatMap waiting) : Multiset T) + ↑(waiting (tag,before)) =
      ↑o.pending + ↑(waiting (tag,after)) := by
  obtain ⟨old,new⟩ := Pool.split found (tag,after)
  rw [new,pending]
  conv_rhs => rw [old]
  simp only [List.flatMap_append,List.flatMap_cons,← Multiset.coe_add]
  ac_rfl

theorem balanced_resume {body : T → B} {i : Nat} {r : Resume} {next : Outbox T B}
    (balanced : o.Balanced) (online : r ≠ .connected false)
    (resumed : o.resume body i r = some next) : next.Balanced := by
  have same := tags_resume resumed
  obtain ⟨⟨tag,phase⟩,found,taken⟩ := Option.bind_eq_some_iff.mp resumed
  have moved := pending_set found
  unfold Balanced
  rw [same,← balanced]
  cases r with
  | connected value =>
    obtain rfl : value = true := by cases value <;> simp_all
    cases phase with
    | connecting =>
      cases Option.some.inj taken
      exact congrArg _ (add_right_cancel (moved .loadingPrefs))
    | loadingPrefs | posted | finished => simp at taken
  | prefsLoaded =>
    cases phase with
    | loadingPrefs =>
      cases Option.some.inj taken
      have rest := (moved .posted).trans (add_zero _)
      rw [List.map_append,← Multiset.coe_add,add_assoc,add_comm (Multiset.ofList (List.map _ [_]))]
      exact congrArg _ rest
    | connecting | posted | finished => simp at taken
  | responded =>
    cases phase with
    | posted =>
      cases Option.some.inj taken
      exact congrArg _ (add_right_cancel (moved .finished))
    | connecting | loadingPrefs | finished => simp at taken

theorem sent_le (balanced : o.Balanced) :
    (↑(o.sent.map Prod.fst) : Multiset T) ≤ ↑o.tags := by
  rw [← balanced]
  exact Multiset.le_add_right _ _

theorem sent_of_quiet (balanced : o.Balanced) (quiet : o.Quiet) :
    (↑(o.sent.map Prod.fst) : Multiset T) = ↑o.tags := by
  have none : o.pending = [] := by
    apply List.flatMap_eq_nil_iff.mpr
    intro call member
    simp [waiting,quiet call member]
  rw [Balanced,none,Multiset.coe_nil,Multiset.add_zero] at balanced
  exact balanced

end Outbox

/-! One argument object that several calls share: what a call posts is what the object holds
when it encodes. -/

section Shared
variable {B : Type} {sent asked : Multiset B} {calls : List Phase} {body : B}

theorem shared_called (held : sent + Multiset.replicate (unencoded calls) body = asked) {next : B}
    (free : unencoded calls = 0 ∨ next = body) :
    sent + Multiset.replicate (unencoded (calls ++ [.connecting])) next = asked + {next} := by
  have copies : Multiset.replicate (unencoded calls) body =
      Multiset.replicate (unencoded calls) next := by
    rcases free with none | rfl
    · simp [none]
    · rfl
  rw [unencoded_append,← held,copies]
  simp only [Phase.unencoded,if_true,Multiset.replicate_succ]
  rw [add_assoc,add_comm (Multiset.replicate _ _),Multiset.singleton_add]

theorem shared_set (held : sent + Multiset.replicate (unencoded calls) body = asked) {i : Nat}
    {before after : Phase} (found : calls[i]? = some before)
    (same : after.unencoded = before.unencoded) :
    sent + Multiset.replicate (unencoded (calls.set i after)) body = asked := by
  have moved := unencoded_set after found
  rw [same] at moved
  rwa [Nat.add_right_cancel moved]

theorem shared_posted (held : sent + Multiset.replicate (unencoded calls) body = asked) {i : Nat}
    (found : calls[i]? = some .loadingPrefs) :
    sent + {body} + Multiset.replicate (unencoded (calls.set i .posted)) body = asked := by
  have moved : unencoded (calls.set i .posted) + 1 = unencoded calls := by
    simpa [Phase.unencoded] using unencoded_set .posted found
  rw [← held,← moved,Multiset.replicate_succ,← Multiset.singleton_add,add_assoc]

end Shared

/-- The overlay entry of a controller; `hides` are the delayed hides under way. -/
structure Loader where
  attached : Bool := false
  hides : Nat := 0
  deriving DecidableEq, Repr

namespace Loader
variable (l : Loader)

/-- An entry that is in an overlay must not be inserted again, which only `asserts` checks. -/
def insert (asserts : Bool) : Option Loader :=
  if asserts && l.attached then none else some {l with attached := true}

def remove : Option Loader := if l.attached then some {l with attached := false} else none

def hideLoader : Loader := {l with hides := l.hides + 1}

/-- The timer of a delayed hide. -/
def hidden : Option Loader := if l.hides = 0 then none else some ⟨false,l.hides - 1⟩

end Loader

end Neuro.RequestCall
