import Mathlib.Data.List.Forall2

/-! Rows that are kept by position when their list is rebuilt: the row of a position that
was there before is updated, whatever element the position holds now. -/
namespace Neuro.Lib.Positional

variable {R E : Type*}

def rebuilt (create : E → R) (update : R → E → R) : List R → List E → List R
  | _,[] => []
  | [],e :: rest => create e :: rebuilt create update [] rest
  | row :: rows,e :: rest => update row e :: rebuilt create update rows rest

/-- Each element suits the one its position held before, or the new position it is in. -/
def Aligned (fits : E → E → Prop) (fresh : E → Prop) : List E → List E → Prop
  | _,[] => True
  | [],e :: rest => fresh e ∧ Aligned fits fresh [] rest
  | before :: old,e :: rest => fits before e ∧ Aligned fits fresh old rest

instance decidableAligned (fits : E → E → Prop) (fresh : E → Prop) [∀ a b, Decidable (fits a b)]
    [DecidablePred fresh] : ∀ old new, Decidable (Aligned fits fresh old new)
  | [],[] => inferInstanceAs (Decidable True)
  | _ :: _,[] => inferInstanceAs (Decidable True)
  | [],_ :: rest =>
    have := decidableAligned fits fresh [] rest
    inferInstanceAs (Decidable (_ ∧ _))
  | _ :: old,_ :: rest =>
    have := decidableAligned fits fresh old rest
    inferInstanceAs (Decidable (_ ∧ _))

/-- If a rebuilt row shows its element exactly when that suits what it showed before, the
rebuilt rows show the new list exactly when it is aligned with the old one. -/
theorem rebuilt_iff {create : E → R} {update : R → E → R} {shows : R → E → Prop}
    {fits : E → E → Prop} {fresh : E → Prop}
    (kept : ∀ row before e, shows row before → (shows (update row e) e ↔ fits before e))
    (created : ∀ e, shows (create e) e ↔ fresh e) {rows : List R} {old : List E}
    (shown : List.Forall₂ shows rows old) (new : List E) :
    List.Forall₂ shows (rebuilt create update rows new) new ↔ Aligned fits fresh old new := by
  induction new generalizing rows old with
  | nil =>
    cases shown with
    | nil => simp [rebuilt,Aligned]
    | cons => simp [rebuilt,Aligned]
  | cons e rest ih =>
    cases shown with
    | nil =>
      rw [rebuilt,Aligned,List.forall₂_cons]
      exact and_congr (created e) (ih .nil)
    | cons first later =>
      rw [rebuilt,Aligned,List.forall₂_cons]
      exact and_congr (kept _ _ e first) (ih later)

end Neuro.Lib.Positional
