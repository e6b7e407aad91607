import ImportOrder.Text.Basic

/-!
# The order of texts

Texts compare character by character, by code point, and a text comes after its own beginnings. Lists of
texts compare part by part in the same way. Both orders are linear: the laws are proved once, for lists over
any linear order.
-/

namespace ImportOrder

/-- The dictionary order of lists, given the order of their members: the first place where two lists
differ decides, and a list comes after its own beginnings. -/
def lexLe {α : Type} [DecidableEq α] (le : α → α → Bool) : List α → List α → Bool
  | [], _ => true
  | _ :: _, [] => false
  | a :: s, b :: t => if a = b then lexLe le s t else le a b

section

variable {α : Type} [DecidableEq α] {le : α → α → Bool}

@[simp]
theorem lexLe_nil (s : List α) : lexLe le [] s = true := by
  cases s <;> rfl

theorem lexLe_refl (s : List α) : lexLe le s s = true := by
  induction s with
  | nil => rfl
  | cons a s ih => simpa [lexLe] using ih

theorem lexLe_total (total : ∀ a b, le a b = true ∨ le b a = true) (s t : List α) :
    lexLe le s t = true ∨ lexLe le t s = true := by
  induction s generalizing t with
  | nil => exact .inl (lexLe_nil t)
  | cons a s ih =>
    cases t with
    | nil => exact .inr (lexLe_nil _)
    | cons b t =>
      by_cases hab : a = b
      · subst hab
        simpa [lexLe] using ih t
      · simpa [lexLe, hab, Ne.symm hab] using total a b

theorem lexLe_antisymm (antisymm : ∀ a b, le a b = true → le b a = true → a = b) {s t : List α}
    (hst : lexLe le s t = true) (hts : lexLe le t s = true) : s = t := by
  induction s generalizing t with
  | nil =>
    cases t with
    | nil => rfl
    | cons b t => simp [lexLe] at hts
  | cons a s ih =>
    cases t with
    | nil => simp [lexLe] at hst
    | cons b t =>
      by_cases hab : a = b
      · subst hab
        rw [ih (by simpa [lexLe] using hst) (by simpa [lexLe] using hts)]
      · simp only [lexLe, hab, Ne.symm hab, if_false] at hst hts
        exact absurd (antisymm a b hst hts) hab

theorem lexLe_trans (trans : ∀ a b c, le a b = true → le b c = true → le a c = true)
    (antisymm : ∀ a b, le a b = true → le b a = true → a = b) {s t u : List α}
    (hst : lexLe le s t = true) (htu : lexLe le t u = true) : lexLe le s u = true := by
  induction s generalizing t u with
  | nil => exact lexLe_nil u
  | cons a s ih =>
    cases t with
    | nil => simp [lexLe] at hst
    | cons b t =>
      cases u with
      | nil => simp [lexLe] at htu
      | cons c u =>
        by_cases hab : a = b
        · subst hab
          by_cases hac : a = c
          · subst hac
            simp only [lexLe, if_true] at hst htu ⊢
            exact ih hst htu
          · simpa only [lexLe, hac, if_false] using htu
        · simp only [lexLe, hab, if_false] at hst
          by_cases hbc : b = c
          · subst hbc
            simpa only [lexLe, hab, if_false] using hst
          · simp only [lexLe, hbc, if_false] at htu
            have hac : a ≠ c := fun h => hab (antisymm a b hst (h ▸ htu))
            simpa only [lexLe, hac, if_false] using trans a b c hst htu

end

namespace Text

/-- Whether one character may come before another. -/
def charLe (c d : Char) : Bool :=
  decide (c.toNat ≤ d.toNat)

theorem charLe_total (c d : Char) : charLe c d = true ∨ charLe d c = true := by
  simpa [charLe] using Nat.le_total c.toNat d.toNat

theorem charLe_antisymm (c d : Char) (hcd : charLe c d = true) (hdc : charLe d c = true) : c = d := by
  simp only [charLe, decide_eq_true_eq] at hcd hdc
  exact Char.toNat_inj.mp (Nat.le_antisymm hcd hdc)

theorem charLe_trans (c d e : Char) (hcd : charLe c d = true) (hde : charLe d e = true) :
    charLe c e = true := by
  simp only [charLe, decide_eq_true_eq] at hcd hde ⊢
  exact Nat.le_trans hcd hde

/-- Whether one text may come before another. -/
def le : Text → Text → Bool :=
  lexLe charLe

protected theorem le_total (s t : Text) : le s t = true ∨ le t s = true :=
  lexLe_total charLe_total s t

protected theorem le_antisymm (s t : Text) (hst : le s t = true) (hts : le t s = true) : s = t :=
  lexLe_antisymm charLe_antisymm hst hts

protected theorem le_trans (s t u : Text) (hst : le s t = true) (htu : le t u = true) : le s u = true :=
  lexLe_trans charLe_trans charLe_antisymm hst htu

end Text

end ImportOrder
