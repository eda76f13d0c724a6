import Mathlib
import Neuro.Lib.Segmentation

/-! The search for the cheapest start of a line that ends in a column. The rows that can come before
a column are searched by halves, and columns are taken in blocks that double, from an offset that
moves up when a row in the block has overtaken all earlier ones. -/
namespace Neuro.MinimumRaggedness
open Neuro.Lib Segmentation

/-- The lists `minimum` and `breaks`. -/
@[ext]
structure Table where
  minimum : ℕ → ℚ
  breaks : ℕ → ℕ

section Search
variable (cost : ℚ → ℕ → ℕ → ℚ)

namespace Table
variable (t : Table)

def relax (j i : ℕ) : Table :=
  let c := cost (t.minimum i) i j
  if c ≤ t.minimum j then
    ⟨Function.update t.minimum j c,Function.update t.breaks j i⟩
  else t

/-- The loop over the rows from `i0` up to `i1`. -/
def scan (j i0 i1 : ℕ) : Table := (List.range' i0 (i1 - i0)).foldl (fun t i => t.relax cost j i) t

end Table

structure Frame where
  i0 : ℕ
  j0 : ℕ
  i1 : ℕ
  j1 : ℕ
  deriving DecidableEq, Repr

def Frame.size (f : Frame) : ℕ := 2 * (f.j1 - f.j0) + 1

def search (stack : List Frame) (t : Table) : Table := match stack with
  | [] => t
  | ⟨i0,j0,i1,j1⟩ :: rest =>
    if j0 < j1 then
      let j := (j0 + j1) / 2
      let t := t.scan cost j i0 i1
      search (⟨i0,j0,t.breaks j + 1,j⟩ :: ⟨t.breaks j,j + 1,i1,j1⟩ :: rest) t
    else search rest t
termination_by (stack.map Frame.size).sum
decreasing_by
  · simp only [List.map_cons,List.sum_cons,Frame.size]
    omega
  · simp only [List.map_cons,List.sum_cons,Frame.size]
    omega

/-- The outer loop, with what is left of `n`. -/
def loop (n i offset : ℕ) (t : Table) : Table :=
  let r := min n (2 ^ (i + 1))
  let edge := 2 ^ i + offset
  let t := search cost [⟨offset,edge,edge,r + offset⟩] t
  let x := t.minimum (r - 1 + offset)
  match found : (List.range' (2 ^ i) (r - 1 - 2 ^ i)).find? fun j =>
      cost (t.minimum (j + offset)) (j + offset) (r - 1 + offset) ≤ x with
  | some j => loop (n - j) 0 (offset + j) t
  | none => if r = n then t else loop n (i + 1) offset t
termination_by (n,n - i)
decreasing_by
  · have member := List.mem_range'_1.mp (List.mem_of_find?_eq_some found)
    have positive : 0 < 2 ^ i := Nat.two_pow_pos i
    exact Prod.Lex.left _ _ (by omega)
  · have small : i < 2 ^ (i + 1) := (Nat.lt_succ_self i).trans Nat.lt_two_pow_self
    exact Prod.Lex.right _ (by omega)

end Search

/-! One call of `search`. -/

section Frames
variable {cost : ℚ → ℕ → ℕ → ℚ} {t u : Table} {i j i0 i1 : ℕ}

/-- What a scan of the rows makes of an entry: the last one of the least rows, if any of them is
not worse than what was there. -/
inductive Scanned (c : ℕ → ℚ) (i0 i1 : ℕ) (m : ℚ) (b : ℕ) : ℚ → ℕ → Prop
  | kept (worse : ∀ k, i0 ≤ k → k < i1 → m < c k) : Scanned c i0 i1 m b m b
  | found (i : ℕ) (lower : i0 ≤ i) (upper : i < i1) (better : c i ≤ m)
      (least : ∀ k, i0 ≤ k → k < i1 → c i ≤ c k) (last : ∀ k, i < k → k < i1 → c i < c k) :
      Scanned c i0 i1 m b (c i) i

def AgreeOff (j : ℕ) (t u : Table) : Prop :=
  ∀ k ≠ j, u.minimum k = t.minimum k ∧ u.breaks k = t.breaks k

theorem relax_off (t : Table) : AgreeOff j t (t.relax cost j i) := by
  intro k other
  unfold Table.relax
  dsimp only
  split
  · exact ⟨Function.update_of_ne other ..,Function.update_of_ne other ..⟩
  · exact ⟨rfl,rfl⟩

theorem relax_at (t : Table) : (t.relax cost j i).minimum j = cost (t.minimum i) i j ∧
      (t.relax cost j i).breaks j = i ∧ cost (t.minimum i) i j ≤ t.minimum j ∨
    t.relax cost j i = t ∧ t.minimum j < cost (t.minimum i) i j := by
  unfold Table.relax
  dsimp only
  split
  next better => exact .inl ⟨Function.update_self ..,Function.update_self ..,better⟩
  next worse => exact .inr ⟨rfl,not_le.mp worse⟩

theorem Scanned.relaxed {c : ℕ → ℚ} {m m' m'' : ℚ} {b b' b'' : ℕ}
    (scanned : Scanned c i0 i m b m' b') (inside : i0 ≤ i)
    (step : m'' = c i ∧ b'' = i ∧ c i ≤ m' ∨ (m'' = m' ∧ b'' = b') ∧ m' < c i) :
    Scanned c i0 (i + 1) m b m'' b'' := by
  rcases step with ⟨value,row,better⟩ | ⟨⟨value,row⟩,worse⟩
  · subst m'' b''
    cases scanned with
    | kept worse =>
      refine .found i inside (Nat.lt_succ_self i) better (fun k lower upper => ?_)
        fun k later upper => absurd upper (by omega)
      rcases (Nat.lt_succ_iff.mp upper).eq_or_lt with rfl | earlier
      · exact le_rfl
      · exact (better.trans_lt (worse k lower earlier)).le
    | found k lower upper below least last =>
      refine .found i inside (Nat.lt_succ_self i) (better.trans below) (fun l lower upper => ?_)
        fun l later upper => absurd upper (by omega)
      rcases (Nat.lt_succ_iff.mp upper).eq_or_lt with rfl | earlier
      · exact le_rfl
      · exact better.trans (least l lower earlier)
  · subst m'' b''
    cases scanned with
    | kept before =>
      refine .kept fun k lower upper => ?_
      rcases (Nat.lt_succ_iff.mp upper).eq_or_lt with rfl | earlier
      · exact worse
      · exact before k lower earlier
    | found _ lower upper below least last =>
      refine .found b' lower (by omega) below (fun l lower upper => ?_) fun l later upper => ?_
      · rcases (Nat.lt_succ_iff.mp upper).eq_or_lt with rfl | earlier
        · exact worse.le
        · exact least l lower earlier
      · rcases (Nat.lt_succ_iff.mp upper).eq_or_lt with rfl | earlier
        · exact worse
        · exact last l later earlier

theorem Scanned.congr {c d : ℕ → ℚ} {m m' : ℚ} {b b' : ℕ} (scanned : Scanned c i0 i1 m b m' b')
    (same : ∀ k < i1, c k = d k) : Scanned d i0 i1 m b m' b' := by
  cases scanned with
  | kept worse => exact .kept fun k lower upper => same k upper ▸ worse k lower upper
  | found _ lower upper better least last =>
    rw [same b' upper] at better ⊢
    refine .found b' lower upper better (fun k from' upto => ?_) fun k beyond upto => ?_
    · rw [← same b' upper,← same k upto]
      exact least k from' upto
    · rw [← same b' upper,← same k upto]
      exact last k beyond upto

theorem scan_spec (t : Table) (below : i1 ≤ j) : AgreeOff j t (t.scan cost j i0 i1) ∧
    Scanned (fun i => cost (t.minimum i) i j) i0 i1 (t.minimum j) (t.breaks j)
      ((t.scan cost j i0 i1).minimum j) ((t.scan cost j i0 i1).breaks j) := by
  rcases Nat.le_total i1 i0 with none | some
  · rw [Table.scan,Nat.sub_eq_zero_of_le none]
    exact ⟨fun _ _ => ⟨rfl,rfl⟩,.kept fun k lower upper => absurd upper (by omega)⟩
  · obtain ⟨m,rfl⟩ := Nat.exists_eq_add_of_le some
    induction m with
    | zero =>
      rw [Table.scan,Nat.sub_eq_zero_of_le (by simp)]
      exact ⟨fun _ _ => ⟨rfl,rfl⟩,.kept fun k lower upper => absurd upper (by omega)⟩
    | succ m ih =>
      obtain ⟨off,scanned⟩ := ih (by omega) (by omega)
      have next : t.scan cost j i0 (i0 + (m + 1)) = (t.scan cost j i0 (i0 + m)).relax cost j (i0 + m) := by
        rw [Table.scan,Table.scan,Nat.add_sub_cancel_left,Nat.add_sub_cancel_left,
          List.range'_1_concat,List.foldl_append]
        rfl
      rw [next]
      have row : (t.scan cost j i0 (i0 + m)).minimum (i0 + m) = t.minimum (i0 + m) :=
        (off (i0 + m) (by omega)).1
      refine ⟨fun k other => ?_,scanned.relaxed (Nat.le_add_right ..) ?_⟩
      · obtain ⟨minimum,breaks⟩ := relax_off (t.scan cost j i0 (i0 + m)) k other
        exact ⟨minimum.trans (off k other).1,breaks.trans (off k other).2⟩
      · rw [← row]
        rcases relax_at (t.scan cost j i0 (i0 + m)) with found | ⟨same,worse⟩
        · exact .inl found
        · exact .inr ⟨by rw [same]; exact ⟨rfl,rfl⟩,worse⟩

theorem search_append (first rest : List Frame) (t : Table) :
    search cost (first ++ rest) t = search cost rest (search cost first t) := by
  fun_induction search cost first t with
  | case1 => rfl
  | case2 t i0 j0 i1 j1 later some j u ih =>
    rw [List.cons_append,search,if_pos some]
    exact ih
  | case3 t i0 j0 i1 j1 later none ih =>
    rw [List.cons_append,search,if_neg none]
    exact ih

/-! The rows before `edge` are known, with `c` what they cost in each column. -/

variable {c : ℕ → ℕ → ℚ} {edge count : ℕ}

def Known (cost : ℚ → ℕ → ℕ → ℚ) (c : ℕ → ℕ → ℚ) (edge : ℕ) (t : Table) : Prop :=
  ∀ i < edge, ∀ j, cost (t.minimum i) i j = c i j

def Final (c : ℕ → ℕ → ℚ) (edge : ℕ) (t : Table) (j : ℕ) : Prop := ∀ a < edge, t.minimum j ≤ c a j

/-- No entry is below that of its row. -/
def Tight (c : ℕ → ℕ → ℚ) (edge : ℕ) (t : Table) (j : ℕ) : Prop :=
  t.breaks j < edge ∧ c (t.breaks j) j ≤ t.minimum j

def Frame.columns (f : Frame) (j : ℕ) : Prop := f.j0 ≤ j ∧ j < f.j1
def Frame.rows (f : Frame) (i : ℕ) : Prop := f.i0 ≤ i ∧ i < f.i1

/-- There is something to be found in the rows of the frame: whatever row may still be needed in
one of its columns is matched by one of these, and so is every entry from a row beyond them. -/
structure Live (c : ℕ → ℕ → ℚ) (edge : ℕ) (f : Frame) (t : Table) : Prop where
  some : f.i0 < f.i1
  ahead : ∀ j, f.columns j → ∀ a < edge, t.minimum j ≤ c a j ∨ ∃ i, f.rows i ∧ c i j ≤ c a j
  within : ∀ j, f.columns j → t.breaks j < f.i1 ∨ ∃ i, f.rows i ∧ c i j ≤ t.minimum j

def Ready (c : ℕ → ℕ → ℚ) (edge : ℕ) (f : Frame) (t : Table) : Prop :=
  (∀ j, f.columns j → Final c edge t j) ∨ Live c edge f t

/-- After the scan of a column the entry is the least one of all rows before the edge. -/
theorem final_of_scanned {f : Frame} (ready : Ready c edge f t) (column : f.columns j)
    (scanned : Scanned (fun i => c i j) f.i0 f.i1 (t.minimum j) (t.breaks j) (u.minimum j)
      (u.breaks j)) : Final c edge u j := by
  intro a before
  have reached : t.minimum j ≤ c a j ∨ ∃ i, f.rows i ∧ c i j ≤ c a j := by
    rcases ready with dead | live
    · exact .inl (dead j column a before)
    · exact live.ahead j column a before
  generalize u.minimum j = m at scanned ⊢
  generalize u.breaks j = b at scanned
  cases scanned with
  | kept worse =>
    rcases reached with least | ⟨i,⟨lower,upper⟩,le⟩
    · exact least
    · exact ((worse i lower upper).trans_le le).le
  | found _ _ _ better least _ =>
    rcases reached with below | ⟨i,⟨lower,upper⟩,le⟩
    · exact better.trans below
    · exact (least i lower upper).trans le

theorem tight_of_scanned {f : Frame} (rows : f.i1 ≤ edge) (tight : Tight c edge t j)
    (scanned : Scanned (fun i => c i j) f.i0 f.i1 (t.minimum j) (t.breaks j) (u.minimum j)
      (u.breaks j)) : Tight c edge u j := by
  unfold Tight
  generalize u.minimum j = m at scanned ⊢
  generalize u.breaks j = b at scanned ⊢
  cases scanned with
  | kept => exact tight
  | found _ _ upper _ _ _ => exact ⟨upper.trans_le rows,le_rfl⟩

/-- Where no row was found, the row of the entry comes before those of the frame. -/
theorem kept_before {f : Frame} (column : f.columns j) (live : Live c edge f t)
    (tight : Tight c edge t j) (worse : ∀ k, f.i0 ≤ k → k < f.i1 → t.minimum j < c k j) :
    t.breaks j < f.i0 := by
  by_contra inside
  have upper : t.breaks j < f.i1 := by
    rcases live.within j column with upper | ⟨i,⟨lower,upper⟩,le⟩
    · exact upper
    · exact absurd le (not_le.mpr (worse i lower upper))
  exact absurd tight.2 (not_le.mpr (worse _ (not_lt.mp inside) upper))

/-- What a frame and a table have to be for `search`. -/
structure Framed (c : ℕ → ℕ → ℚ) (edge count : ℕ) (f : Frame) (t : Table) : Prop where
  rows : f.i1 ≤ edge
  later : edge ≤ f.j0
  bound : f.j1 ≤ count + 1
  ready : Ready c edge f t
  tight : ∀ k, edge ≤ k → k ≤ count → Tight c edge t k

def Frame.left (f : Frame) (j b : ℕ) : Frame := ⟨f.i0,f.j0,b + 1,j⟩
def Frame.right (f : Frame) (j b : ℕ) : Frame := ⟨b,j + 1,f.i1,f.j1⟩

section Halves
variable {f : Frame}

theorem left_ready (overtaking : Overtaking c count) (framed : Framed c edge count f t)
    (column : f.columns j) {m : ℚ} {b : ℕ}
    (scanned : Scanned (fun i => c i j) f.i0 f.i1 (t.minimum j) (t.breaks j) m b) :
    Ready c edge (f.left j b) t := by
  obtain ⟨rows,later,bound,ready,tight⟩ := framed
  obtain ⟨first,last⟩ := column
  have inside {k : ℕ} (half : (f.left j b).columns k) : f.columns k := ⟨half.1,half.2.trans last⟩
  rcases ready with dead | live
  · exact .inl fun k half => dead k (inside half)
  · cases scanned with
    | kept worse =>
      have column : Tight c edge t j := tight j (later.trans first) (by omega)
      have before := kept_before ⟨first,last⟩ live column worse
      refine .inl fun k half a known => ?_
      obtain ⟨lower,upper⟩ : f.j0 ≤ k ∧ k < j := half
      -- the row that the frame did not match at `j` is ahead of the frame in the earlier column
      have lost {i : ℕ} (row : f.rows i) : c (t.breaks j) k < c i k :=
        overtaking.lost (before.trans_le row.1) (row.2.trans_le (by omega)) upper (by omega)
          (column.2.trans_lt (worse i row.1 row.2))
      have entry : t.minimum k ≤ c (t.breaks j) k := by
        rcases live.ahead k (inside ⟨lower,upper⟩) _ column.1 with below | ⟨i,row,le⟩
        · exact below
        · exact absurd le (not_le.mpr (lost row))
      rcases live.ahead k (inside ⟨lower,upper⟩) a known with below | ⟨i,row,le⟩
      · exact below
      · exact (entry.trans_lt ((lost row).trans_le le)).le
    | found _ lower upper better least greater =>
      have lost {i k : ℕ} (half : (f.left j b).columns k) (row : f.rows i) (beyond : b < i) :
          c b k < c i k := by
        obtain ⟨start,upto⟩ : f.j0 ≤ k ∧ k < j := half
        exact overtaking.lost beyond (row.2.trans_le (by omega)) upto (by omega)
          (greater i beyond row.2)
      have own : (f.left j b).rows b := ⟨lower,Nat.lt_succ_self b⟩
      have matched {i k : ℕ} {v : ℚ} (half : (f.left j b).columns k) (row : f.rows i)
          (le : c i k ≤ v) : ∃ i, (f.left j b).rows i ∧ c i k ≤ v := by
        rcases Nat.lt_or_ge b i with beyond | kept
        · exact ⟨b,own,((lost half row beyond).trans_le le).le⟩
        · exact ⟨i,⟨row.1,Nat.lt_succ_of_le kept⟩,le⟩
      refine .inr ⟨Nat.lt_succ_of_le lower,fun k half a known => ?_,fun k half => ?_⟩
      · rcases live.ahead k (inside half) a known with below | ⟨i,row,le⟩
        · exact .inl below
        · exact .inr (matched half row le)
      · rcases live.within k (inside half) with early | ⟨i,row,le⟩
        · rcases Nat.lt_or_ge b (t.breaks k) with beyond | kept
          · have entry : Tight c edge t k := by
              have := half.1
              have := half.2
              exact tight k (by simp only [Frame.left] at *; omega) (by simp only [Frame.left] at *; omega)
            refine .inr (matched half ⟨lower.trans beyond.le,early⟩ entry.2)
          · exact .inl (Nat.lt_succ_of_le kept)
        · exact .inr (matched half row le)

theorem right_ready (overtaking : Overtaking c count) (framed : Framed c edge count f t)
    (column : f.columns j) {m : ℚ} {b : ℕ}
    (scanned : Scanned (fun i => c i j) f.i0 f.i1 (t.minimum j) (t.breaks j) m b) :
    Ready c edge (f.right j b) t := by
  obtain ⟨rows,later,bound,ready,tight⟩ := framed
  obtain ⟨first,last⟩ := column
  have inside {k : ℕ} (half : (f.right j b).columns k) : f.columns k :=
    ⟨first.trans (Nat.le_of_succ_le half.1),half.2⟩
  rcases ready with dead | live
  · exact .inl fun k half => dead k (inside half)
  · cases scanned with
    | kept worse =>
      have before := kept_before ⟨first,last⟩ live (tight j (later.trans first) (by omega)) worse
      have wider {i : ℕ} (row : f.rows i) : (f.right j (t.breaks j)).rows i :=
        ⟨before.le.trans row.1,row.2⟩
      refine .inr ⟨before.trans live.some,fun k half a known => ?_,fun k half => ?_⟩
      · exact (live.ahead k (inside half) a known).imp_right
          fun ⟨i,row,le⟩ => ⟨i,wider row,le⟩
      · exact (live.within k (inside half)).imp_right fun ⟨i,row,le⟩ => ⟨i,wider row,le⟩
    | found _ lower upper better least greater =>
      have own : (f.right j b).rows b := ⟨le_rfl,upper⟩
      have matched {i k : ℕ} {v : ℚ} (half : (f.right j b).columns k) (row : f.rows i)
          (le : c i k ≤ v) : ∃ i, (f.right j b).rows i ∧ c i k ≤ v := by
        rcases Nat.lt_or_ge i b with before | kept
        · obtain ⟨after,upto⟩ : j + 1 ≤ k ∧ k < f.j1 := half
          exact ⟨b,own,(overtaking i b j k before (by omega) after (by omega)
            (least i row.1 row.2)).trans le⟩
        · exact ⟨i,⟨kept,row.2⟩,le⟩
      refine .inr ⟨upper,fun k half a known => ?_,fun k half => ?_⟩
      · exact (live.ahead k (inside half) a known).imp_right fun ⟨i,row,le⟩ => matched half row le
      · exact (live.within k (inside half)).imp_right fun ⟨i,row,le⟩ => matched half row le

theorem Ready.congr (ready : Ready c edge f t)
    (same : ∀ k, f.columns k → u.minimum k = t.minimum k ∧ u.breaks k = t.breaks k) :
    Ready c edge f u := by
  rcases ready with dead | live
  · exact .inl fun k column a known => (same k column).1.trans_le (dead k column a known)
  · refine .inr ⟨live.some,fun k column a known => ?_,fun k column => ?_⟩
    · rw [(same k column).1]
      exact live.ahead k column a known
    · rw [(same k column).1,(same k column).2]
      exact live.within k column

end Halves

/-- What `search` makes of a frame. -/
structure Solved (c : ℕ → ℕ → ℚ) (edge count : ℕ) (f : Frame) (t u : Table) : Prop where
  final : ∀ j, f.columns j → Final c edge u j
  others : ∀ k, ¬ f.columns k → u.minimum k = t.minimum k ∧ u.breaks k = t.breaks k
  tight : ∀ k, edge ≤ k → k ≤ count → Tight c edge u k

theorem search_frame (overtaking : Overtaking c count) {f : Frame} (known : Known cost c edge t)
    (framed : Framed c edge count f t) : Solved c edge count f t (search cost [f] t) := by
  obtain ⟨size,same⟩ : ∃ size, f.j1 - f.j0 = size := ⟨_,rfl⟩
  induction size using Nat.strong_induction_on generalizing f t with
  | h size ih =>
    obtain ⟨rows,later,bound,ready,tight⟩ := framed
    rw [search]
    split
    next some =>
      set j := (f.j0 + f.j1) / 2
      have column : f.columns j := ⟨by omega,by omega⟩
      have after : edge ≤ j := later.trans column.1
      obtain ⟨off,scanned⟩ : AgreeOff j t (t.scan cost j f.i0 f.i1) ∧ _ :=
        scan_spec t (rows.trans after)
      replace scanned := scanned.congr fun i upper => known i (upper.trans_le rows) j
      set u := t.scan cost j f.i0 f.i1
      change Solved c edge count f t (search cost ([f.left j (u.breaks j)] ++
        [f.right j (u.breaks j)]) u)
      rw [search_append]
      have finalMiddle := final_of_scanned ready column scanned
      have tightMiddle := tight_of_scanned rows (tight j after (by omega)) scanned
      have tightScanned : ∀ k, edge ≤ k → k ≤ count → Tight c edge u k := by
        intro k lower upper
        rcases eq_or_ne k j with rfl | other
        · exact tightMiddle
        · obtain ⟨minimum,breaks⟩ := off k other
          rw [Tight,minimum,breaks]
          exact tight k lower upper
      have knownScanned : Known cost c edge u := fun i before k => by
        rw [(off i (before.trans_le after).ne).1]
        exact known i before k
      have framed : Framed c edge count f t := ⟨rows,later,bound,ready,tight⟩
      have leftSolved : Solved c edge count (f.left j (u.breaks j)) u
          (search cost [f.left j (u.breaks j)] u) := by
        refine ih (j - f.j0) (by omega) knownScanned ⟨tightMiddle.1,later,by
          change j ≤ count + 1
          omega,?_,tightScanned⟩ rfl
        exact (left_ready overtaking framed column scanned).congr fun k half => off k half.2.ne
      set v := search cost [f.left j (u.breaks j)] u
      have beyond {k : ℕ} (late : j ≤ k) : ¬ (f.left j (u.breaks j)).columns k :=
        fun half => absurd half.2 (not_lt.mpr late)
      have rightSolved : Solved c edge count (f.right j (u.breaks j)) v
          (search cost [f.right j (u.breaks j)] v) := by
        refine ih (f.j1 - (j + 1)) (by omega) (fun i before k => ?_) ⟨rows,by
          change edge ≤ j + 1
          omega,bound,?_,leftSolved.tight⟩ rfl
        · rw [(leftSolved.others i fun half => absurd half.1 (not_le.mpr (before.trans_le later))).1]
          exact knownScanned i before k
        · refine (right_ready overtaking framed column scanned).congr fun k half => ?_
          have late : j < k := half.1
          obtain ⟨minimum,breaks⟩ := leftSolved.others k (beyond late.le)
          exact ⟨minimum.trans (off k late.ne').1,breaks.trans (off k late.ne').2⟩
      have early {k : ℕ} (upto : k ≤ j) : ¬ (f.right j (u.breaks j)).columns k :=
        fun half => absurd half.1 (by change ¬ j + 1 ≤ k; omega)
      refine ⟨fun k whole a before => ?_,fun k outside => ?_,rightSolved.tight⟩
      · rcases lt_trichotomy k j with lower | middle | upper
        · rw [(rightSolved.others k (early lower.le)).1]
          exact leftSolved.final k ⟨whole.1,lower⟩ a before
        · rw [middle,(rightSolved.others j (early le_rfl)).1,(leftSolved.others j (beyond le_rfl)).1]
          exact finalMiddle a before
        · exact rightSolved.final k ⟨upper,whole.2⟩ a before
      · have apart : k ≠ j := fun same => outside (same ▸ column)
        obtain ⟨minimumRight,breaksRight⟩ := rightSolved.others k fun half =>
          outside ⟨column.1.trans (Nat.le_of_succ_le half.1),half.2⟩
        obtain ⟨minimumLeft,breaksLeft⟩ := leftSolved.others k fun half =>
          outside ⟨half.1,half.2.trans column.2⟩
        obtain ⟨minimum,breaks⟩ := off k apart
        exact ⟨minimumRight.trans (minimumLeft.trans minimum),
          breaksRight.trans (breaksLeft.trans breaks)⟩
    next none =>
      rw [search]
      exact ⟨fun j column => absurd (column.1.trans_lt column.2) none,fun _ _ => ⟨rfl,rfl⟩,tight⟩

end Frames

/-! The outer loop. -/

section Loop
variable {cost : ℚ → ℕ → ℕ → ℚ} {start : ℚ} {count n i offset : ℕ} {t u : Table}

/-- What the row costs in the column after the cheapest way to get to it. -/
noncomputable def entry (cost : ℚ → ℕ → ℕ → ℚ) (start : ℚ) (i j : ℕ) : ℚ :=
  cost (best cost start i) i j

/-- The column is right, and its row is one that makes it so. -/
def Right (cost : ℚ → ℕ → ℕ → ℚ) (start : ℚ) (t : Table) (k : ℕ) : Prop :=
  t.minimum k = best cost start k ∧
    (0 < k → t.breaks k < k ∧ best cost start k = entry cost start (t.breaks k) k)

/-- Before each round: what comes before the edge is right, and of the rows before the edge those
from the offset on are the only ones that the later columns may still need. -/
structure Outer (cost : ℚ → ℕ → ℕ → ℚ) (start : ℚ) (count n i offset : ℕ) (t : Table) : Prop where
  total : n + offset = count + 1
  room : 2 ^ i ≤ n
  right : ∀ k < 2 ^ i + offset, Right cost start t k
  tight : ∀ k, 2 ^ i + offset ≤ k → k ≤ count → Tight (entry cost start) (2 ^ i + offset) t k
  ahead : ∀ k, 2 ^ i + offset ≤ k → k ≤ count → ∀ a < 2 ^ i + offset,
    t.minimum k ≤ entry cost start a k ∨
      ∃ b, offset ≤ b ∧ b < 2 ^ i + offset ∧ entry cost start b k ≤ entry cost start a k

theorem known_of_right {edge : ℕ} (right : ∀ k < edge, Right cost start t k) :
    Known cost (entry cost start) edge t := by
  intro k before j
  rw [(right k before).1,entry]

theorem Outer.framed (outer : Outer cost start count n i offset t) {r : ℕ} (bound : r ≤ n) :
    Framed (entry cost start) (2 ^ i + offset) count
      ⟨offset,2 ^ i + offset,2 ^ i + offset,r + offset⟩ t := by
  have total := outer.total
  have positive : 0 < 2 ^ i := Nat.two_pow_pos i
  have inside {k : ℕ} (upper : k < r + offset) : k ≤ count := by omega
  refine ⟨le_rfl,le_rfl,by change r + offset ≤ count + 1; omega,.inr ⟨?_,?_,?_⟩,outer.tight⟩
  · change offset < 2 ^ i + offset
    omega
  · intro k column a known
    rcases outer.ahead k column.1 (inside column.2) a known with below | ⟨b,lower,upper,le⟩
    · exact .inl below
    · exact .inr ⟨b,⟨lower,upper⟩,le⟩
  · intro k column
    exact .inl (outer.tight k column.1 (inside column.2)).1

/-- The columns from the edge to the last one have been searched. -/
structure Block (cost : ℚ → ℕ → ℕ → ℚ) (start : ℚ) (count edge last : ℕ) (u : Table) : Prop where
  bound : last ≤ count
  final : ∀ k, edge ≤ k → k ≤ last → Final (entry cost start) edge u k
  tight : ∀ k, edge ≤ k → k ≤ count → Tight (entry cost start) edge u k

section Rows
variable {edge last : ℕ}

/-- A row in the block that loses in its last column has lost in all columns before. -/
theorem Block.loses (block : Block cost start count edge last u)
    (overtaking : Overtaking (entry cost start) count) {a k : ℕ} (first : edge ≤ a) (inside : a < k)
    (upto : k ≤ last) (lost : u.minimum last < entry cost start a last) :
    entry cost start (u.breaks last) k < entry cost start a k := by
  obtain ⟨before,le⟩ := block.tight last (by omega) block.bound
  exact overtaking.lost' (before.trans_le first) inside upto block.bound (le.trans_lt lost)

/-- As long as the rows in the block lose in its last column, its columns are right. -/
theorem Block.right_upto (block : Block cost start count edge last u)
    (overtaking : Overtaking (entry cost start) count) {q : ℕ} (upto : q ≤ last)
    (lost : ∀ a, edge ≤ a → a < q → u.minimum last < cost (u.minimum a) a last) :
    ∀ k, edge ≤ k → k ≤ q → Right cost start u k := by
  intro k
  induction k using Nat.strong_induction_on with
  | h k ih =>
    intro first inside
    have bound := block.bound
    have losing {a : ℕ} (later : edge ≤ a) (earlier : a < k) :
        entry cost start (u.breaks last) k < entry cost start a k := by
      refine block.loses overtaking later earlier (inside.trans upto) ?_
      have row := lost a later (earlier.trans_le inside)
      rwa [(ih a earlier later (earlier.le.trans inside)).1] at row
    obtain ⟨before,le⟩ := block.tight k first (by omega)
    have least := block.final k first (inside.trans upto)
    have attained : u.minimum k = entry cost start (u.breaks k) k :=
      le_antisymm (least _ before) le
    have same : best cost start k = u.minimum k := by
      refine best_eq ⟨u.breaks k,before.trans_le first,attained⟩ fun a earlier => ?_
      rcases Nat.lt_or_ge a edge with known | later
      · exact least a known
      · have matched := least (u.breaks last) (block.tight last (by omega) bound).1
        exact (matched.trans_lt (losing later earlier)).le
    exact ⟨same.symm,fun _ => ⟨before.trans_le first,same.trans attained⟩⟩

end Rows

/-- After the search of a round, up to the last column of its block. -/
structure Searched (cost : ℚ → ℕ → ℕ → ℚ) (start : ℚ) (count edge offset last : ℕ) (u : Table) :
    Prop where
  right : ∀ k < edge, Right cost start u k
  block : Block cost start count edge last u
  ahead : ∀ k, last < k → k ≤ count → ∀ a < edge, u.minimum k ≤ entry cost start a k ∨
    ∃ b, offset ≤ b ∧ b < edge ∧ entry cost start b k ≤ entry cost start a k

theorem Outer.searched (outer : Outer cost start count n i offset t)
    (overtaking : Overtaking (entry cost start) count) {r : ℕ} (bound : r ≤ n) (block : 2 ^ i ≤ r) :
    Searched cost start count (2 ^ i + offset) offset (r - 1 + offset)
      (search cost [⟨offset,2 ^ i + offset,2 ^ i + offset,r + offset⟩] t) := by
  have solved := search_frame overtaking (known_of_right outer.right) (outer.framed bound)
  have total := outer.total
  have positive : 0 < 2 ^ i := Nat.two_pow_pos i
  refine ⟨fun k before => ?_,⟨by omega,fun k first upto => ?_,solved.tight⟩,
    fun k beyond upto a known => ?_⟩
  · obtain ⟨minimum,breaks⟩ := solved.others k fun column => absurd column.1 (not_le.mpr before)
    rw [Right,minimum,breaks]
    exact outer.right k before
  · exact solved.final k ⟨first,by change k < r + offset; omega⟩
  · obtain ⟨minimum,_⟩ := solved.others k fun column => by
      have inside : k < r + offset := column.2
      omega
    rw [minimum]
    exact outer.ahead k (by omega) upto a known

section Rounds
variable {edge last : ℕ}

/-- A row that wins in the last column of the block is the first one needed from there on. -/
theorem Searched.restart (searched : Searched cost start count edge offset last u)
    (overtaking : Overtaking (entry cost start) count) {q : ℕ} (first : edge ≤ q) (inside : q < last)
    (wins : cost (u.minimum q) q last ≤ u.minimum last)
    (lost : ∀ a, edge ≤ a → a < q → u.minimum last < cost (u.minimum a) a last) :
    Outer cost start count (count + 1 - q) 0 q u := by
  have bound := searched.block.bound
  have block := searched.block.right_upto overtaking inside.le lost
  have right : ∀ k < 2 ^ 0 + q, Right cost start u k := by
    intro k before
    rcases Nat.lt_or_ge k edge with known | later
    · exact searched.right k known
    · exact block k later (by omega)
  rw [(block q first le_rfl).1] at wins
  have losing {a k : ℕ} (later : edge ≤ a) (earlier : a < q) (beyond : a < k) (upto : k ≤ last) :
      u.minimum k ≤ entry cost start a k := by
    have row := lost a later earlier
    rw [(block a later earlier.le).1] at row
    rcases Nat.lt_or_ge k edge with known | columns
    · omega
    · have matched := searched.block.final k columns upto _ (searched.block.tight last (by omega)
        bound).1
      exact (matched.trans_lt (searched.block.loses overtaking later beyond upto row)).le
  refine ⟨by omega,by rw [pow_zero]; omega,right,fun k late upto => ?_,fun k late upto a known => ?_⟩
  · obtain ⟨before,le⟩ := searched.block.tight k (by omega) upto
    exact ⟨by omega,le⟩
  · rcases Nat.lt_or_ge a q with earlier | own
    · rcases Nat.lt_or_ge last k with beyond | columns
      · refine .inr ⟨q,le_rfl,by omega,overtaking a q last k earlier inside beyond upto ?_⟩
        rcases Nat.lt_or_ge a edge with old | later
        · exact wins.trans (searched.block.final last (by omega) le_rfl a old)
        · have row := lost a later earlier
          rw [(block a later earlier.le).1] at row
          exact (wins.trans_lt row).le
      · rcases Nat.lt_or_ge a edge with old | later
        · exact .inl (searched.block.final k (by omega) columns a old)
        · exact .inl (losing later earlier (by omega) columns)
    · obtain rfl : a = q := by omega
      exact .inr ⟨a,le_rfl,known,le_rfl⟩

/-- Where no row does, the block doubles. -/
theorem Searched.double (searched : Searched cost start count (2 ^ i + offset) offset
      (2 ^ (i + 1) - 1 + offset) u)
    (overtaking : Overtaking (entry cost start) count) (total : n + offset = count + 1)
    (room : 2 ^ (i + 1) ≤ n)
    (lost : ∀ a, 2 ^ i + offset ≤ a → a < 2 ^ (i + 1) - 1 + offset →
      u.minimum (2 ^ (i + 1) - 1 + offset) < cost (u.minimum a) a (2 ^ (i + 1) - 1 + offset)) :
    Outer cost start count n (i + 1) offset u := by
  have doubled : 2 ^ (i + 1) = 2 ^ i + 2 ^ i := by rw [pow_succ]; omega
  have positive : 0 < 2 ^ i := Nat.two_pow_pos i
  refine ⟨total,room,fun k before => ?_,fun k late upto => ?_,fun k late upto a known => ?_⟩
  · rcases Nat.lt_or_ge k (2 ^ i + offset) with known | later
    · exact searched.right k known
    · exact searched.block.right_upto overtaking le_rfl lost k later (by omega)
  · obtain ⟨before,le⟩ := searched.block.tight k (by omega) upto
    exact ⟨by omega,le⟩
  · rcases Nat.lt_or_ge a (2 ^ i + offset) with old | new
    · rcases searched.ahead k (by omega) upto a old with below | ⟨b,lower,upper,le⟩
      · exact .inl below
      · exact .inr ⟨b,lower,by omega,le⟩
    · exact .inr ⟨a,by omega,known,le_rfl⟩

end Rounds

theorem loop_right (overtaking : Overtaking (entry cost start) count)
    (outer : Outer cost start count n i offset t) :
    ∀ k ≤ count, Right cost start (loop cost n i offset t) k := by
  fun_induction loop cost n i offset t with
  | case1 n i offset t r edge u x j found ih =>
    have block : 2 ^ i ≤ r := le_min outer.room (Nat.pow_le_pow_right (by decide) (Nat.le_succ i))
    have searched : Searched cost start count edge offset (r - 1 + offset) u :=
      outer.searched overtaking (min_le_left ..) block
    obtain ⟨wins,member,lost⟩ := List.find?_range'_eq_some.mp found
    obtain ⟨lower,upper⟩ := List.mem_range'_1.mp member
    have total := outer.total
    have rest : n - j = count + 1 - (offset + j) := by omega
    refine ih (rest ▸ searched.restart overtaking (by omega) (by omega) ?_ fun a later earlier => ?_)
    · simpa [Nat.add_comm offset j] using wins
    · obtain ⟨d,rfl⟩ := Nat.exists_eq_add_of_le (Nat.le_of_add_left_le later)
      simpa [Nat.add_comm offset d] using lost d (by omega) (by omega)
  | case2 n i offset t r edge u x found same =>
    have block : 2 ^ i ≤ r := le_min outer.room (Nat.pow_le_pow_right (by decide) (Nat.le_succ i))
    have searched : Searched cost start count edge offset (r - 1 + offset) u :=
      outer.searched overtaking (min_le_left ..) block
    have total := outer.total
    have none := List.find?_range'_eq_none.mp found
    intro k upto
    rcases Nat.lt_or_ge k edge with known | later
    · exact searched.right k known
    · refine searched.block.right_upto overtaking le_rfl (fun a first earlier => ?_) k later (by omega)
      obtain ⟨d,rfl⟩ := Nat.exists_eq_add_of_le (Nat.le_of_add_left_le first)
      simpa [Nat.add_comm offset d] using none d (by omega) (by omega)
  | case3 n i offset t r edge u x found other ih =>
    have doubled : r = 2 ^ (i + 1) := by omega
    have room : 2 ^ (i + 1) ≤ n := by omega
    have block : 2 ^ i ≤ r := le_min outer.room (Nat.pow_le_pow_right (by decide) (Nat.le_succ i))
    have searched : Searched cost start count edge offset (r - 1 + offset) u :=
      outer.searched overtaking (min_le_left ..) block
    have none := List.find?_range'_eq_none.mp found
    rw [doubled] at searched none
    refine ih (searched.double overtaking outer.total room fun a first earlier => ?_)
    obtain ⟨d,rfl⟩ := Nat.exists_eq_add_of_le (Nat.le_of_add_left_le first)
    rw [← doubled] at earlier
    simpa [x,doubled,Nat.add_comm offset d] using none d (by omega) (by omega)

end Loop

end Neuro.MinimumRaggedness
