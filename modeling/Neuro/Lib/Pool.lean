import Mathlib.Data.List.Perm.Basic

/-! A pool of asynchronous calls, kept as a list: starting a call appends to it,
resuming one replaces or removes its entry. -/
namespace Neuro.Lib.Pool

variable {C B : Type*} {calls : List C} {i : Nat} {before after : C}

theorem map_set (f : C → B) (found : calls[i]? = some before) (same : f after = f before) :
    (calls.set i after).map f = calls.map f := by
  apply List.ext_getElem?
  intro j
  rw [List.getElem?_map,List.getElem?_map,List.getElem?_set]
  split
  next equal =>
    subst equal
    obtain ⟨bound,rfl⟩ := List.getElem?_eq_some_iff.mp found
    simp [bound,same]
  next => rfl

theorem countP_set (p : C → Bool) (found : calls[i]? = some before)
    (same : p after = p before) : (calls.set i after).countP p = calls.countP p := by
  have mapped := congrArg (List.countP id) (map_set p found same)
  rwa [List.countP_map,List.countP_map] at mapped

theorem split (found : calls[i]? = some before) (after : C) :
    calls = calls.take i ++ before :: calls.drop (i + 1) ∧
      calls.set i after = calls.take i ++ after :: calls.drop (i + 1) := by
  obtain ⟨bound,rfl⟩ := List.getElem?_eq_some_iff.mp found
  rw [← List.drop_eq_getElem_cons bound,List.take_append_drop,
    List.set_eq_take_append_cons_drop,if_pos bound]
  exact ⟨rfl,rfl⟩

theorem any_set_same (p : C → Bool) (found : calls[i]? = some before)
    (same : p after = p before) : (calls.set i after).any p = calls.any p := by
  have mapped := congrArg (List.any · id) (map_set p found same)
  rwa [List.any_map,List.any_map] at mapped

theorem any_set (p : C → Bool) {now : Bool} (found : calls[i]? = some before)
    (grown : p after = (p before || now)) : (calls.set i after).any p = (calls.any p || now) := by
  obtain ⟨old,new⟩ := split found after
  rw [new]
  conv_rhs => rw [old]
  simp only [List.any_append,List.any_cons,grown]
  ac_rfl

theorem forall_set {p : C → Prop} (all : ∀ c ∈ calls, p c) (resumed : p after) :
    ∀ c ∈ calls.set i after, p c := by
  intro c member
  rcases List.mem_or_eq_of_mem_set member with old | rfl
  · exact all c old
  · exact resumed

theorem forall_replace {p : C → Prop} {first last : List C}
    (all : ∀ c ∈ first ++ before :: last, p c) (resumed : p after) :
    ∀ c ∈ first ++ after :: last, p c := by
  intro c member
  rcases List.mem_append.mp member with old | rest
  · exact all c (List.mem_append_left _ old)
  · rcases List.mem_cons.mp rest with rfl | old
    · exact resumed
    · exact all c (List.mem_append_right _ (List.mem_cons_of_mem _ old))

theorem mem_last_set {c : C} (last : c ∈ (calls.set i after).getLast?) :
    c = after ∨ c ∈ calls.getLast? := by
  rw [List.getLast?_eq_getElem?,List.length_set,List.getElem?_set] at last
  split at last
  · split at last
    · exact .inl (Option.some.inj last).symm
    · contradiction
  · exact .inr (List.getLast?_eq_getElem? ▸ last)

theorem mem_appended {c : C} :
    c ∈ (calls ++ [after])[i]? ↔ c ∈ calls[i]? ∨ i = calls.length ∧ c = after := by
  rcases Nat.lt_trichotomy i calls.length with old | new | beyond
  · rw [List.getElem?_append_left old]
    simp [Nat.ne_of_lt old]
  · subst new
    simp [eq_comm]
  · rw [List.getElem?_eq_none (by simp; omega),List.getElem?_eq_none (by omega)]
    simp [Nat.ne_of_gt beyond]

theorem forall_append {p : C → Prop} (all : ∀ c ∈ calls, p c) (started : p after) :
    ∀ c ∈ calls ++ [after], p c := by
  intro c member
  rcases List.mem_append.mp member with old | new
  · exact all c old
  · exact List.mem_singleton.mp new ▸ started

theorem filter_set (p : C → Bool) (found : calls[i]? = some before) (own : p before = true)
    (still : p after = true) : ∃ first last, calls.filter p = first ++ before :: last ∧
      (calls.set i after).filter p = first ++ after :: last := by
  obtain ⟨old,new⟩ := split found after
  refine ⟨(calls.take i).filter p,(calls.drop (i + 1)).filter p,?_,?_⟩
  · conv_lhs => rw [old]
    rw [List.filter_append,List.filter_cons_of_pos own]
  · rw [new,List.filter_append,List.filter_cons_of_pos still]

theorem filter_set_other (p : C → Bool) (found : calls[i]? = some before)
    (other : p before = false) (still : p after = false) :
    (calls.set i after).filter p = calls.filter p := by
  obtain ⟨old,new⟩ := split found after
  rw [new]
  conv_rhs => rw [old]
  simp only [List.filter_append,List.filter_cons,other,still,Bool.false_eq_true,if_false]

theorem mem_set_of_mem (found : calls[i]? = some before) (after : C) {c : C}
    (member : c ∈ calls) : c = before ∨ c ∈ calls.set i after := by
  obtain ⟨old,new⟩ := split found after
  rw [new]
  rw [old] at member
  rcases List.mem_append.mp member with early | rest
  · exact .inr (List.mem_append_left _ early)
  · rcases List.mem_cons.mp rest with same | late
    · exact .inl same
    · exact .inr (List.mem_append_right _ (List.mem_cons_of_mem _ late))

theorem found_singleton {only c : C} (found : [only][i]? = some c) : i = 0 ∧ only = c := by
  cases i with
  | zero => exact ⟨rfl,Option.some.inj found⟩
  | succ => simp at found

theorem perm_resumed (found : calls[i]? = some before) :
    calls.Perm (before :: calls.eraseIdx i) := by
  obtain ⟨bound,rfl⟩ := List.getElem?_eq_some_iff.mp found
  exact (List.getElem_cons_eraseIdx_perm bound).symm

theorem mem_resumed (found : calls[i]? = some before) {c : C} :
    c ∈ calls ↔ c = before ∨ c ∈ calls.eraseIdx i :=
  (perm_resumed found).mem_iff.trans List.mem_cons

end Neuro.Lib.Pool
