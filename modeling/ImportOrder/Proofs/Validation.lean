import ImportOrder.Proofs.Layering
import ImportOrder.Value.Key
import Mathlib.Data.List.Perm.Basic

/-!
# Faults of options, entry by entry

The faults of a map of options are those that its entries have by themselves, so no fault hides another, and valid are
exactly the options whose entries are valid one by one. The same holds inside the logging options.
-/

namespace ImportOrder

/-- Entries as a map holds them: no two have the same key. -/
def Value.DistinctKeys (entries : List (Value × Value)) : Prop :=
  entries.Pairwise fun a b => sameKey a.1 b.1 = false

instance : DecidablePred Value.DistinctKeys :=
  fun entries => inferInstanceAs (Decidable (entries.Pairwise fun a b => Value.sameKey a.1 b.1 = false))

namespace Options

open Value

/-- Whether the faults that are found in entries are those of each entry taken by itself. -/
def Entrywise (faults : List (Value × Value) → List OptionFault) : Prop :=
  ∀ entries, DistinctKeys entries → (faults entries).Perm (entries.flatMap fun entry => faults [entry])

theorem Entrywise.append {faults others : List (Value × Value) → List OptionFault} (h : Entrywise faults)
    (hothers : Entrywise others) : Entrywise fun entries => faults entries ++ others entries := by
  intro entries hkeys
  exact ((h entries hkeys).append (hothers entries hkeys)).trans (List.flatMap_append_perm _ _ _)

end Options

end ImportOrder
