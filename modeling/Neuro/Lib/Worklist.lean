import Mathlib.Data.List.Forall2
import Mathlib.Data.List.Perm.Basic

/-! A list of results that asynchronous steps append to, one for each item of a batch
and in any order. Nothing here depends on what the items or the results are. -/
namespace Neuro.Lib.Worklist

variable {D B : Type*} (built : D → B → Prop)

/-- The results are those of the items up to order, one for each. -/
def Complete (batch : List D) (results : List B) : Prop :=
  ∃ order, batch.Perm order ∧ List.Forall₂ built order results

/-- The results so far, and the items they are still missing for. -/
def InProgress (batch pending : List D) (results : List B) : Prop :=
  ∃ done, batch.Perm (done ++ pending) ∧ List.Forall₂ built done results

variable {built} {batch pending rest : List D} {results : List B}

theorem inProgress_start (batch : List D) : InProgress built batch batch [] :=
  ⟨[],.refl _,.nil⟩

theorem InProgress.perm (progress : InProgress built batch pending results)
    (same : pending.Perm rest) : InProgress built batch rest results := by
  obtain ⟨done,batch,results⟩ := progress
  exact ⟨done,batch.trans (same.append_left done),results⟩

theorem InProgress.append {item : D} {result : B} (progress : InProgress built batch pending results)
    (next : pending.Perm (item :: rest)) (fits : built item result) :
    InProgress built batch rest (results ++ [result]) := by
  obtain ⟨done,batch,results⟩ := progress
  refine ⟨done ++ [item],batch.trans ?_,List.rel_append results (.cons fits .nil)⟩
  rw [List.append_assoc]
  exact next.append_left done

theorem InProgress.complete (progress : InProgress built batch [] results) :
    Complete built batch results := by
  obtain ⟨done,batch,results⟩ := progress
  exact ⟨done,by simpa using batch,results⟩

theorem Complete.length (complete : Complete built batch results) :
    results.length = batch.length := by
  obtain ⟨order,batch,results⟩ := complete
  rw [batch.length_eq,results.length_eq]

end Neuro.Lib.Worklist
