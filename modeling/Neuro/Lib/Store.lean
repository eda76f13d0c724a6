import Mathlib.Logic.Function.Basic
import Mathlib.Data.Fintype.Card

/-! A store of documents under keys: `set` replaces a document, `update` merges
into an existing one and fails otherwise, `delete` removes it. The second part
is about a sequence of `set`s that stops at the first value that cannot be computed,
the third about many independent `set`s whose commits arrive in any order. -/
namespace Neuro.Lib

abbrev Store (K D : Type*) := K → Option D

namespace Store
variable {K D : Type*} [DecidableEq K] (store : Store K D) (key : K)

def set (doc : D) : Store K D := Function.update store key (some doc)

def delete : Store K D := Function.update store key none

/-- Merging needs the document to exist. -/
def update (merge : D → D → D) (patch : D) : Option (Store K D) :=
  (store key).map fun doc => store.set key (merge doc patch)

variable {store key}

@[simp] theorem set_self (doc : D) : store.set key doc key = some doc := Function.update_self ..

theorem set_of_ne {other : K} (different : other ≠ key) (doc : D) :
    store.set key doc other = store other := Function.update_of_ne different ..

@[simp] theorem delete_self : store.delete key key = none := Function.update_self ..

theorem delete_of_ne {other : K} (different : other ≠ key) :
    store.delete key other = store other := Function.update_of_ne different ..

theorem update_eq_some {merge : D → D → D} {patch : D} {next : Store K D} :
    store.update key merge patch = some next ↔
      ∃ doc, store key = some doc ∧ next = store.set key (merge doc patch) := by
  simp only [update,Option.map_eq_some_iff,eq_comm]

/-- The `set`s up to the first value that cannot be computed. -/
def assign (store : Store K D) : List (K × Option D) → Store K D
  | [] => store
  | (_,none) :: _ => store
  | (key,some doc) :: rest => assign (store.set key doc) rest

/-- The values of these `set`s can be computed. -/
def Defined (sets : List (K × Option D)) : Prop := ∀ e ∈ sets, e.2 ≠ none

variable {sets before after : List (K × Option D)}

omit [DecidableEq K] in
theorem defined_or_stops (sets : List (K × Option D)) : Defined sets ∨
    ∃ before key after, sets = before ++ (key,none) :: after ∧ Defined before := by
  induction sets with
  | nil => exact .inl (by simp [Defined])
  | cons first rest ih =>
    obtain ⟨key,doc⟩ := first
    cases doc with
    | none => exact .inr ⟨[],key,rest,rfl,by simp [Defined]⟩
    | some doc =>
      rcases ih with defined | ⟨before,k,after,rfl,defined⟩
      · exact .inl (List.forall_mem_cons.mpr ⟨by simp,defined⟩)
      · refine .inr ⟨(key,some doc) :: before,k,after,rfl,?_⟩
        exact List.forall_mem_cons.mpr ⟨by simp,defined⟩

theorem assign_append (defined : Defined before) :
    store.assign (before ++ after) = (store.assign before).assign after := by
  induction before generalizing store with
  | nil => rfl
  | cons first rest ih =>
    obtain ⟨known,later⟩ := List.forall_mem_cons.mp defined
    obtain ⟨k,doc⟩ := first
    cases doc with
    | none => exact absurd rfl known
    | some doc => exact ih later

theorem assign_of_not_mem (other : key ∉ sets.map Prod.fst) : store.assign sets key = store key := by
  induction sets generalizing store with
  | nil => rfl
  | cons first rest ih =>
    obtain ⟨k,doc⟩ := first
    rw [List.map_cons,List.mem_cons,not_or] at other
    obtain ⟨different,later⟩ := other
    cases doc with
    | none => rfl
    | some doc => rw [assign,ih later,set_of_ne different]

theorem assign_of_mem (distinct : (sets.map Prod.fst).Nodup) (defined : Defined sets) :
    ∀ e ∈ sets, store.assign sets e.1 = e.2 := by
  induction sets generalizing store with
  | nil => simp
  | cons first rest ih =>
    obtain ⟨known,later⟩ := List.forall_mem_cons.mp defined
    obtain ⟨k,doc⟩ := first
    obtain ⟨fresh,apart⟩ := List.nodup_cons.mp distinct
    cases doc with
    | none => exact absurd rfl known
    | some doc =>
      rw [List.forall_mem_cons]
      refine ⟨?_,ih apart later⟩
      rw [assign,assign_of_not_mem fresh,set_self]

theorem assign_stopped (defined : Defined before) :
    store.assign (before ++ (key,none) :: after) = store.assign before := by
  rw [assign_append defined]
  rfl

theorem assign_same_iff (distinct : (sets.map Prod.fst).Nodup) (defined : Defined sets)
    {keys : List K} (inside : ∀ e ∈ sets, e.1 ∈ keys) :
    (∀ k ∈ keys, store.assign sets k = store k) ↔ ∀ e ∈ sets, store e.1 = e.2 := by
  have written : ∀ e ∈ sets, store.assign sets e.1 = e.2 := assign_of_mem distinct defined
  constructor
  · intro same e member
    rw [← same e.1 (inside e member)]
    exact written e member
  · intro held k _
    by_cases set : k ∈ sets.map Prod.fst
    · obtain ⟨e,member,rfl⟩ := List.mem_map.mp set
      rw [written e member,held e member]
    · exact assign_of_not_mem set

end Store

structure Write (K D : Type*) where
  key : K
  doc : D
  committed : Bool := false
  deriving DecidableEq

namespace Write
variable {K D : Type*} {store : Store K D} {writes : List (Write K D)}

/-- Every stored document was committed by one of the writes, and a committed
write left a document under its key. -/
structure Settled (store : Store K D) (writes : List (Write K D)) : Prop where
  written : ∀ key doc, store key = some doc →
    ∃ w ∈ writes, w.committed = true ∧ w.key = key ∧ w.doc = doc
  present : ∀ w ∈ writes, w.committed = true → store w.key ≠ none

theorem settled_nil : Settled (fun _ => none : Store K D) [] := ⟨by simp,by simp⟩

theorem Settled.request (settled : Settled store writes) {w : Write K D}
    (pending : w.committed = false) : Settled store (writes ++ [w]) where
  written key doc stored := by
    obtain ⟨v,member,rest⟩ := settled.written key doc stored
    exact ⟨v,List.mem_append_left _ member,rest⟩
  present v member done := by
    rcases List.mem_append.mp member with old | new
    · exact settled.present v old done
    · rw [List.mem_singleton.mp new,pending] at done
      contradiction

theorem Settled.kept (settled : Settled store writes) (distinct : (writes.map Write.key).Nodup)
    {w : Write K D} (member : w ∈ writes) (done : w.committed = true) :
    store w.key = some w.doc := by
  cases stored : store w.key with
  | none => exact absurd stored (settled.present w member done)
  | some doc =>
    obtain ⟨v,other,_,key,rfl⟩ := settled.written _ _ stored
    rw [List.inj_on_of_nodup_map distinct other member key]

variable [DecidableEq K]

theorem Settled.commit (settled : Settled store writes) {i : Nat} {w : Write K D}
    (found : writes[i]? = some w) :
    Settled (store.set w.key w.doc) (writes.set i {w with committed := true}) := by
  obtain ⟨bound,equal⟩ := List.getElem?_eq_some_iff.mp found
  have self : {w with committed := true} ∈ writes.set i {w with committed := true} :=
    List.mem_set bound _
  -- a write other than the committing one stays in the list
  have kept (v : Write K D) (member : v ∈ writes) (other : v.key ≠ w.key) :
      v ∈ writes.set i {w with committed := true} := by
    obtain ⟨j,inside,rfl⟩ := List.mem_iff_getElem.mp member
    have apart : i ≠ j := by
      rintro rfl
      exact other (congrArg Write.key equal)
    exact List.mem_iff_getElem.mpr ⟨j,by simpa using inside,by simp [apart]⟩
  constructor
  · intro key doc stored
    by_cases same : key = w.key
    · rw [same,Store.set_self] at stored
      exact ⟨_,self,rfl,same.symm,Option.some.inj stored⟩
    · rw [Store.set_of_ne same] at stored
      obtain ⟨v,member,done,rfl,rest⟩ := settled.written key doc stored
      exact ⟨v,kept v member same,done,rfl,rest⟩
  · intro v member done
    by_cases same : v.key = w.key
    · rw [same,Store.set_self]
      simp
    · rw [Store.set_of_ne same]
      rcases List.mem_or_eq_of_mem_set member with old | rfl
      · exact settled.present v old done
      · exact absurd rfl same

/-- As many different stored keys as there are writes exist only when the writes
have pairwise different keys. -/
theorem Settled.nodup_of_injective (settled : Settled store writes) {n : Nat}
    (size : writes.length ≤ n) (place : Fin n → K) (injective : Function.Injective place)
    (stored : ∀ i, store (place i) ≠ none) : (writes.map Write.key).Nodup := by
  have inside : Finset.univ.map ⟨place,injective⟩ ⊆ (writes.map Write.key).toFinset := by
    intro key member
    obtain ⟨i,_,rfl⟩ := Finset.mem_map.mp member
    obtain ⟨doc,held⟩ := Option.ne_none_iff_exists'.mp (stored i)
    obtain ⟨w,member,_,key,_⟩ := settled.written _ _ held
    exact List.mem_toFinset.mpr (List.mem_map.mpr ⟨w,member,key⟩)
  have many := Finset.card_le_card inside
  rw [Finset.card_map,Finset.card_univ,Fintype.card_fin] at many
  apply Multiset.coe_nodup.mp
  apply Multiset.toFinset_card_eq_card_iff_nodup.mp
  exact le_antisymm (Multiset.toFinset_card_le _) (by simpa using size.trans many)

end Write

end Neuro.Lib
