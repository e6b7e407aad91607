import ImportOrder.Proofs.Uniqueness
import Mathlib.Order.Defs.Unbundled

/-!
# The order of module paths

Within a group, whether one path may stand before another is a linear order on all paths, whatever the configuration.
It is the dictionary order of the keys, and each part of a key is compared with its counterpart in the dictionary
order of characters by code point. Two paths are never tied, for every key holds the whole path.
-/

namespace ImportOrder

/-- The dictionary order that is decided is the library's strict one, or equality. -/
theorem lexLe_iff {α : Type} [DecidableEq α] {le : α → α → Bool} {lt : α → α → Prop}
    (hlt : ∀ a b, a ≠ b → (le a b = true ↔ lt a b)) (hirrefl : ∀ a, ¬lt a a) {s t : List α} :
    lexLe le s t = true ↔ s = t ∨ List.Lex lt s t := by
  induction s generalizing t with
  | nil =>
    cases t with
    | nil => simp
    | cons b t => exact ⟨fun _ => .inr .nil, fun _ => lexLe_nil _⟩
  | cons a s ih =>
    cases t with
    | nil => simp [lexLe]
    | cons b t =>
      rw [List.cons_lex_cons_iff, lexLe]
      by_cases hab : a = b
      · -- the first members agree, so the others decide
        subst hab
        rw [if_pos rfl, ih]
        simp [hirrefl]
      · rw [if_neg hab, hlt a b hab]
        simp [hab]

namespace Text

/-- The dictionary order of texts by code point: the first place where two texts differ decides, and a text comes
after its own beginnings. -/
def ComesBefore (s t : Text) : Prop :=
  List.Lex (fun c d : Char => c.toNat < d.toNat) s t

theorem le_iff {s t : Text} : Text.le s t = true ↔ s = t ∨ ComesBefore s t := by
  refine lexLe_iff ?_ fun c => Nat.lt_irrefl c.toNat
  intro c d hne
  have hne' : c.toNat ≠ d.toNat := fun heq => hne (Char.toNat_inj.mp heq)
  rw [charLe, decide_eq_true_eq]
  omega

theorem comesBefore_irrefl (s : Text) : ¬ComesBefore s s := by
  unfold ComesBefore
  induction s with
  | nil => exact List.not_lex_nil
  | cons c s ih =>
    rw [List.cons_lex_cons_iff]
    rintro (hlt | ⟨-, hlex⟩)
    · exact Nat.lt_irrefl _ hlt
    · exact ih hlex

end Text

namespace Configuration

variable (config : Configuration) (group : Group)

theorem isSorted_refl (path : Text) : config.isSorted group path path = true :=
  lexLe_refl _

theorem isSorted_antisymm {p q : Text} (hpq : config.isSorted group p q = true)
    (hqp : config.isSorted group q p = true) : p = q :=
  Violation.sortKey_injective (lexLe_antisymm Text.le_antisymm hpq hqp)

/-- The keys of two paths are compared part by part, and a part as a text. -/
theorem isSorted_iff (p q : Text) : config.isSorted group p q = true ↔
    config.sortKey group p = config.sortKey group q ∨
      List.Lex Text.ComesBefore (config.sortKey group p) (config.sortKey group q) := by
  refine lexLe_iff ?_ Text.comesBefore_irrefl
  intro s t hne
  rw [Text.le_iff]
  exact ⟨fun h => h.resolve_left hne, .inr⟩

/-- Whether one path may stand before another of its group is a linear order on all paths: the dictionary order of
their keys, with texts ordered by code point. -/
theorem isSorted_linearOrder :
    IsLinearOrder Text (fun p q => config.isSorted group p q = true) ∧
      ∀ p q, config.isSorted group p q = true ↔ config.sortKey group p = config.sortKey group q ∨
        List.Lex Text.ComesBefore (config.sortKey group p) (config.sortKey group q) := by
  have htotal : ∀ p q, config.isSorted group p q = true ∨ config.isSorted group q p = true := by
    intro p q
    have hboth := Plan.isSorted_total config group p q
    rwa [Bool.or_eq_true] at hboth
  refine ⟨?_, isSorted_iff config group⟩
  exact
    { refl := isSorted_refl config group
      trans := Plan.isSorted_trans config group
      antisymm := fun p q hpq hqp => isSorted_antisymm config group hpq hqp
      total := htotal }

/-- Of two paths with the same first segment, the one with the lesser last segment comes first. -/
example : Configuration.isSorted {} .package "@x/z/a".toList "@x/b".toList = true ∧
    Configuration.isSorted { byFullPath := true } .package "@x/z/a".toList "@x/b".toList = false := by
  decide

end Configuration

end ImportOrder
