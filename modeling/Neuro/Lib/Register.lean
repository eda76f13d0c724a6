import Mathlib.Data.List.Basic

/-! A register that is written by requests whose commits arrive in any order. It
ends up holding what was requested last unless some commit is overtaken: every
later request, and there is one, has committed before it. -/
namespace Neuro.Lib

/-- The requests in their order, each with whether it has committed. -/
structure Register (B : Type*) where
  value : Option B
  writes : List (B × Bool)

namespace Register
variable {B : Type*} {r u : Register B}

/-- All of these requests, and at least one, have committed. -/
def Overtaken (after : List (B × Bool)) : Prop := after ≠ [] ∧ ∀ w ∈ after, w.2 = true

instance [DecidableEq B] (after : List (B × Bool)) : Decidable (Overtaken after) :=
  inferInstanceAs (Decidable (_ ∧ _))

/-- A request, where there may be any, or a commit that is admitted for the
requests made after it. -/
inductive Step (requests : Prop) (admitted : List (B × Bool) → Prop) :
    Register B → Register B → Prop
  | request (value writes b) (asked : requests) :
      Step requests admitted ⟨value,writes⟩ ⟨value,writes ++ [(b,false)]⟩
  | commit (value before b after) (allowed : admitted after) :
      Step requests admitted ⟨value,before ++ (b,false) :: after⟩
        ⟨some b,before ++ (b,true) :: after⟩

/-- The register holds what some request has written, and either nothing was
requested after it or something requested after it is still to commit. -/
def InTime (r : Register B) : Prop :=
  (r.value = none ∧ ∀ w ∈ r.writes, w.2 = false) ∨
    ∃ before b after, r.writes = before ++ (b,true) :: after ∧ r.value = some b ∧
      ¬ Overtaken after

def Current (r : Register B) : Prop := r.value = r.writes.getLast?.map Prod.fst

/-- The last request has committed and the register holds an earlier one. -/
def Stale (r : Register B) : Prop := r.writes.getLast?.map Prod.snd = some true ∧
  ∃ before b after, r.writes = before ++ (b,true) :: after ∧ after ≠ [] ∧ r.value = some b

theorem inTime_empty : InTime (⟨none,[]⟩ : Register B) := .inl ⟨rfl,by simp⟩

theorem inTime_step (inTime : InTime r)
    (step : Step True (fun after => ¬ Overtaken after) r u) : InTime u := by
  cases step with
  | request value writes b _ =>
    rcases inTime with ⟨empty,pending⟩ | ⟨before,c,after,rfl,held,_⟩
    · refine .inl ⟨empty,fun w member => ?_⟩
      rcases List.mem_append.mp member with old | new
      · exact pending w old
      · rw [List.mem_singleton.mp new]
    · refine .inr ⟨before,c,after ++ [(b,false)],by simp,held,?_⟩
      intro overtaken
      simpa using overtaken.2 (b,false) (by simp)
  | commit value before b after allowed => exact .inr ⟨before,b,after,rfl,rfl,allowed⟩

theorem current_of_inTime (inTime : InTime r) (complete : ∀ w ∈ r.writes, w.2 = true) :
    r.Current := by
  rcases inTime with ⟨empty,pending⟩ | ⟨before,b,after,writes,held,fresh⟩
  · have none : r.writes = [] := by
      apply List.eq_nil_iff_forall_not_mem.mpr
      intro w member
      simpa [pending w member] using complete w member
    rw [Current,none,empty,List.getLast?_nil,Option.map_none]
  · have last : after = [] := by
      by_contra some
      exact fresh ⟨some,fun w member => complete w (by simp [writes,member])⟩
    rw [Current,writes,held,last,List.getLast?_append_of_ne_nil _ (by simp),
      List.getLast?_singleton,Option.map_some]

theorem stale_commit {before after : List (B × Bool)} {b : B}
    (last : (before ++ (b,false) :: after).getLast?.map Prod.snd = some true) :
    Stale ⟨some b,before ++ (b,true) :: after⟩ := by
  have nonempty : after ≠ [] := by
    rintro rfl
    simp at last
  rw [List.getLast?_append_of_ne_nil _ (by simp),List.getLast?_cons_of_ne_nil nonempty] at last
  refine ⟨?_,before,b,after,rfl,nonempty,rfl⟩
  rwa [List.getLast?_append_of_ne_nil _ (by simp),List.getLast?_cons_of_ne_nil nonempty]

theorem stale_of_overtaken (step : Step False Overtaken r u) : Stale u := by
  cases step with
  | request _ _ _ asked => exact asked.elim
  | commit value before b after overtaken =>
    apply stale_commit
    obtain ⟨nonempty,committed⟩ := overtaken
    rw [List.getLast?_append_of_ne_nil _ (by simp),List.getLast?_cons_of_ne_nil nonempty,
      List.getLast?_eq_some_getLast nonempty,Option.map_some,committed _ (List.getLast_mem nonempty)]

theorem stale_step (stale : Stale r) (step : Step False (fun _ => True) r u) : Stale u := by
  cases step with
  | request _ _ _ asked => exact asked.elim
  | commit value before b after _ => exact stale_commit stale.1

end Register
end Neuro.Lib
