import ImportOrder.Text.Basic

/-!
# Slices of a text

Offsets and tails say the same: the offset of a tail is where it begins. Slices that meet can be put together.
-/

namespace ImportOrder

namespace Text

variable {source u v : Text}

/-- The offset at which a tail of a source begins. -/
def offsetOf (source tail : Text) : Nat :=
  source.length - tail.length

theorem place_natCast (length n : Nat) : place length (n : Int) = min n length := by
  unfold place
  rw [if_neg (by omega), Int.toNat_natCast]

theorem onward_offsetOf (h : u <:+ source) : source.onward (offsetOf source u) = u := by
  obtain ⟨w, rfl⟩ := h
  rw [onward, place_natCast, offsetOf, List.length_append, Nat.add_sub_cancel, Nat.min_eq_left (by omega),
    List.drop_left]

theorem drop_offsetOf (h : u <:+ source) : source.drop (offsetOf source u) = u := by
  obtain ⟨w, rfl⟩ := h
  rw [offsetOf, List.length_append, Nat.add_sub_cancel, List.drop_left]

theorem upTo_offsetOf (source u : Text) : source.upTo (offsetOf source u) = source.before u := by
  rw [upTo, place_natCast, offsetOf, Nat.min_eq_left (by omega), before]

theorem upTo_append_onward (source : Text) (i : Int) : source.upTo i ++ source.onward i = source :=
  List.take_append_drop _ _

/-- Between two offsets stands what the earlier tail has before the later one. -/
theorem slice_offsetOf (hu : u <:+ source) (hv : v <:+ u) :
    source.slice (offsetOf source u) (offsetOf source v) = u.before v := by
  obtain ⟨w, rfl⟩ := hu
  obtain ⟨m, rfl⟩ := hv
  rw [before_append]
  simp only [slice, place_natCast, offsetOf, List.length_append]
  have hstart : min (w.length + (m.length + v.length) - (m.length + v.length))
      (w.length + (m.length + v.length)) = w.length := by omega
  have hstop : min (w.length + (m.length + v.length) - v.length)
      (w.length + (m.length + v.length)) = (w ++ m).length := by
    rw [List.length_append]
    omega
  rw [hstart, hstop, ← List.append_assoc, List.take_left, List.drop_left]

/-! ## Slices that meet -/

theorem place_of_le {length : Nat} {i : Int} (hi : 0 ≤ i) (hle : i ≤ length) : place length i = i.toNat := by
  unfold place
  rw [if_neg (by omega), Nat.min_eq_left (by omega)]

theorem slice_append_onward (source : Text) {i j : Int} (hi : 0 ≤ i) (hij : i ≤ j) (hj : j ≤ source.length) :
    source.slice i j ++ source.onward j = source.onward i := by
  have hle : i.toNat ≤ (source.take j.toNat).length := by
    rw [List.length_take]
    omega
  rw [slice, onward, onward, place_of_le hi (by omega), place_of_le (by omega) hj,
    ← List.drop_append_of_le_length hle, List.take_append_drop]

theorem slice_append_slice (source : Text) {i j k : Int} (hi : 0 ≤ i) (hij : i ≤ j) (hjk : j ≤ k)
    (hk : k ≤ source.length) :
    source.slice i j ++ source.slice j k = source.slice i k := by
  have hleft := slice_append_onward source hi hij (by omega)
  have hright := slice_append_onward source (by omega : 0 ≤ j) hjk hk
  have hall := slice_append_onward source hi (by omega : i ≤ k) hk
  rw [← hright, ← List.append_assoc] at hleft
  exact List.append_cancel_right (hleft.trans hall.symm)

theorem length_slice (source : Text) {i j : Int} (hi : 0 ≤ i) (hij : i ≤ j) (hj : j ≤ source.length) :
    ((source.slice i j).length : Int) = j - i := by
  rw [slice, place_of_le hi (by omega), place_of_le (by omega) hj, List.length_drop, List.length_take]
  omega

theorem length_onward (source : Text) {i : Int} (hi : 0 ≤ i) (hle : i ≤ source.length) :
    ((source.onward i).length : Int) = source.length - i := by
  rw [onward, place_of_le hi hle, List.length_drop]
  omega

theorem drop_onward (source : Text) {i : Int} (hi : 0 ≤ i) (n : Nat) (hn : i + n ≤ source.length) :
    (source.onward i).drop n = source.onward (i + n) := by
  rw [onward, onward, place_of_le hi (by omega), place_of_le (by omega) hn, List.drop_drop]
  congr 1
  omega

end Text

end ImportOrder
