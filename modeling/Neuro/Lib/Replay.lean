import Neuro.Lib.Pool
import Neuro.Lib.Store

/-! Changes of a store that are still to be made, in the order they are meant to be made in. Each
changes what is stored under its key, and may be made before those under other keys. -/
namespace Neuro.Lib

structure Patch (K D : Type*) where
  key : K
  change : Option D → Option D

namespace Patch
variable {K D : Type*} [DecidableEq K]

def apply (patch : Patch K D) (store : Store K D) : Store K D :=
  Function.update store patch.key (patch.change (store patch.key))

def replay (patches : List (Patch K D)) (store : Store K D) : Store K D :=
  patches.foldl (fun store patch => patch.apply store) store

variable {store : Store K D} {patch other : Patch K D} {patches : List (Patch K D)} {key : K}

theorem apply_self : patch.apply store patch.key = patch.change (store patch.key) :=
  Function.update_self ..

theorem apply_of_ne (different : key ≠ patch.key) : patch.apply store key = store key :=
  Function.update_of_ne different ..

theorem apply_of_same (same : patch.change (store patch.key) = store patch.key) :
    patch.apply store = store := by
  rw [apply,same,Function.update_eq_self]

theorem apply_comm (different : other.key ≠ patch.key) :
    other.apply (patch.apply store) = patch.apply (other.apply store) := by
  rw [apply,apply_of_ne different,apply,Function.update_comm different.symm,apply,apply,
    Function.update_of_ne different.symm]

theorem replay_append {rest : List (Patch K D)} :
    replay (patches ++ rest) store = replay rest (replay patches store) := List.foldl_append ..

theorem replay_apply (others : ∀ other ∈ patches, other.key ≠ patch.key) :
    replay patches (patch.apply store) = patch.apply (replay patches store) := by
  induction patches generalizing store with
  | nil => rfl
  | cons first rest ih =>
    obtain ⟨different,later⟩ := List.forall_mem_cons.mp others
    calc replay rest (first.apply (patch.apply store))
      _ = replay rest (patch.apply (first.apply store)) := by rw [apply_comm different]
      _ = patch.apply (replay rest (first.apply store)) := ih later

/-- The first one under its key may be made at once. -/
theorem replay_eraseIdx {i : Nat} (found : patches[i]? = some patch)
    (first : ∀ earlier ∈ patches.take i, earlier.key ≠ patch.key) :
    replay (patches.eraseIdx i) (patch.apply store) = replay patches store := by
  have whole : patches = patches.take i ++ patch :: patches.drop (i + 1) := (Pool.split found patch).1
  calc replay (patches.eraseIdx i) (patch.apply store)
    _ = replay (patches.drop (i + 1)) (replay (patches.take i) (patch.apply store)) := by
      rw [List.eraseIdx_eq_take_drop_succ,replay_append]
    _ = replay (patch :: patches.drop (i + 1)) (replay (patches.take i) store) := by
      rw [replay_apply first]
      rfl
    _ = replay patches store := by rw [← replay_append,← whole]

/-- Two changes under one key keep one store the image of the other when they agree on what is
stored there. -/
theorem apply_map_iff {E : Type*} {f : D → E} {image : Store K E} {other : Patch K E}
    (same : other.key = patch.key) (related : ∀ key, (store key).map f = image key) :
    (∀ key, (patch.apply store key).map f = other.apply image key) ↔
      (patch.change (store patch.key)).map f = other.change ((store patch.key).map f) := by
  constructor
  · intro all
    have own := all patch.key
    rwa [apply_self,← same,apply_self,← related,same] at own
  · intro own key
    by_cases here : key = patch.key
    · rw [here,apply_self,own,related,← same,apply_self]
    · rw [apply_of_ne here,apply_of_ne (same ▸ here),related]

end Patch
end Neuro.Lib
