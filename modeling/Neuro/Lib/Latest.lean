import Neuro.Lib.Pool

/-! Calls in the order they were made, each with the value it has been answered with, if it
has: the value of the latest call that has one. -/
namespace Neuro.Lib.Latest

variable {V : Type*}

def latest (previous : V) (answers : List (Option V)) : V :=
  answers.foldl (fun before answer => answer.getD before) previous

variable {previous value : V} {answers : List (Option V)} {i : Nat}

theorem latest_append (first last : List (Option V)) :
    latest previous (first ++ last) = latest (latest previous first) last := List.foldl_append

@[simp] theorem latest_unanswered : latest previous (answers ++ [none]) = latest previous answers :=
  latest_append _ _

theorem latest_of_none (none : ∀ answer ∈ answers, answer = none) :
    latest previous answers = previous := by
  induction answers generalizing previous with
  | nil => rfl
  | cons answer rest ih =>
    obtain rfl := none answer List.mem_cons_self
    exact ih fun later member => none later (List.mem_cons_of_mem _ member)

theorem latest_of_some (some : ∃ answer ∈ answers, answer ≠ none) (other : V) :
    latest previous answers = latest other answers := by
  induction answers generalizing previous other with
  | nil => simp at some
  | cons answer rest ih =>
    cases answer with
    | some value => rfl
    | none => exact ih (by simpa using some) other

theorem latest_set (found : answers[i]? = some none)
    (last : ∀ later ∈ answers.drop (i + 1), later = none) :
    latest previous (answers.set i (some value)) = value := by
  rw [(Pool.split found (some value)).2,latest_append]
  exact latest_of_none last

theorem latest_set_overtaken (found : answers[i]? = some none)
    (overtaken : ∃ later ∈ answers.drop (i + 1), later ≠ none) :
    latest previous (answers.set i (some value)) = latest previous answers := by
  obtain ⟨old,new⟩ := Pool.split found (some value)
  rw [new,latest_append]
  conv_rhs => rw [old,latest_append]
  exact latest_of_some overtaken _

/-- The answer is in order: no later call has been answered, or not with another value. -/
theorem latest_answered (found : answers[i]? = some none)
    (ordered : (∀ later ∈ answers.drop (i + 1), later = none) ∨ latest previous answers = value) :
    latest previous (answers.set i (some value)) = value := by
  by_cases last : ∀ later ∈ answers.drop (i + 1), later = none
  · exact latest_set found last
  · rcases ordered with last' | same
    · exact absurd last' last
    · push Not at last
      exact (latest_set_overtaken found last).trans same

end Neuro.Lib.Latest
