import Mathlib.Data.List.Basic

/-! A record that is written at each step of a path that can be walked back. Walking back takes
nothing out of the record, so what was written on a branch that has been left stays there until
it is written over. -/
namespace Neuro.Lib

variable {A R V : Type*}

/-- The writes `log` have been made, and those of `path` are the ones that have not been walked
back. The latest is first in both. -/
inductive Walk (before : A → A → Prop) : List A → List A → Prop
  | start : Walk before [] []
  | forward {path log a} (walked : Walk before path log) (next : ∀ b ∈ path, before b a) :
      Walk before (a :: path) (a :: log)
  | back {path log a} (walked : Walk before (a :: path) log) : Walk before path log

/-- What a write puts into one field of the record, if anything. -/
def Puts (write : A → R → R) (read : R → V) (value : A → Option V) : Prop :=
  ∀ a r, read (write a r) = (value a).getD (read r)

variable {before : A → A → Prop} {path log : List A} {write : A → R → R} {read : R → V}
  {value : A → Option V} {a : A} {v : V}

theorem Puts.foldr (puts : Puts write read value) (start : R) (writes : List A) :
    read (writes.foldr write start) = (writes.findSome? value).getD (read start) := by
  induction writes with
  | nil => rfl
  | cons a rest ih =>
    rw [List.foldr_cons,puts,List.findSome?_cons,ih]
    cases value a <;> rfl

namespace Walk

theorem subset (walk : Walk before path log) : path ⊆ log := by
  induction walk with
  | start => exact List.Subset.refl _
  | forward _ _ ih => exact List.cons_subset_cons _ ih
  | back _ ih => exact List.subset_of_cons_subset ih

theorem pairwise (walk : Walk before path log) :
    path.Pairwise fun later earlier => before earlier later := by
  induction walk with
  | start => exact .nil
  | forward _ next ih => exact .cons next ih
  | back _ ih => exact ih.of_cons

/-- Nothing that may come after the write puts anything into the field. -/
def Final (before : A → A → Prop) (value : A → Option V) (a : A) : Prop :=
  ∀ b, before a b → value b = none

/-- Such a write is the latest one on the path into the field, and the latest one of all. -/
theorem latest (walk : Walk before path log) (member : a ∈ path) (puts : value a = some v)
    (final : Final before value a) :
    path.findSome? value = some v ∧ log.findSome? value = some v := by
  constructor
  · have ordered := walk.pairwise
    clear walk
    induction path with
    | nil => exact absurd member List.not_mem_nil
    | cons b below ih =>
      obtain ⟨after,ordered⟩ := List.pairwise_cons.mp ordered
      rcases List.mem_cons.mp member with rfl | earlier
      · rw [List.findSome?_cons,puts]
      · rw [List.findSome?_cons,final b (after a earlier)]
        exact ih earlier ordered
  · induction walk with
    | start => exact absurd member List.not_mem_nil
    | @forward path log b walked next ih =>
      rcases List.mem_cons.mp member with rfl | earlier
      · rw [List.findSome?_cons,puts]
      · rw [List.findSome?_cons,final b (next a earlier)]
        exact ih earlier
    | back _ ih => exact ih (List.mem_cons_of_mem _ member)

/-- After such a write the record has in the field what writing along the path alone puts there. -/
theorem read_path (walk : Walk before path log) (puts : Puts write read value) (start : R)
    (member : a ∈ path) (written : value a = some v) (final : Final before value a) :
    read (log.foldr write start) = read (path.foldr write start) := by
  obtain ⟨onPath,ever⟩ := walk.latest member written final
  rw [puts.foldr,puts.foldr,onPath,ever]

end Walk
end Neuro.Lib
