import ImportOrder.Proofs.Slices
import ImportOrder.Text.LineIndex

/-!
# Lines are counted by line feeds

The line index finds the line of an offset by halving. For every offset in the text, that line is the number of
line feeds before it, the column is the distance from the last of them, and the text of the line reaches from there to
the next one.
-/

namespace ImportOrder.LineIndex

/-- Where all entries below a place are at most `n`, and all others greater, the place is their number. -/
theorem countP_eq_of_cut {a : Array Nat} {n : Int} {place : Nat} (h : place ≤ a.size)
    (hbelow : ∀ i (hi : i < a.size), i < place → (a[i] : Int) ≤ n)
    (habove : ∀ i (hi : i < a.size), place ≤ i → n < (a[i] : Int)) :
    a.toList.countP (fun m : Nat => decide ((m : Int) ≤ n)) = place := by
  have htake : (a.toList.take place).countP (fun m : Nat => decide ((m : Int) ≤ n)) = place := by
    have hlen : (a.toList.take place).length = place := by simp [h]
    have hall : (a.toList.take place).countP (fun m : Nat => decide ((m : Int) ≤ n)) =
        (a.toList.take place).length := by
      rw [List.countP_eq_length]
      intro m hm
      obtain ⟨i, hi, rfl⟩ := List.mem_take_iff_getElem.mp hm
      have := hbelow i (by simp at hi; omega) (by omega)
      simpa using this
    rw [hall, hlen]
  have hdrop : (a.toList.drop place).countP (fun m : Nat => decide ((m : Int) ≤ n)) = 0 := by
    rw [List.countP_eq_zero]
    intro m hm
    obtain ⟨i, hi, rfl⟩ := List.mem_drop_iff_getElem.mp hm
    have := habove (place + i) (by simp at hi; omega) (by omega)
    simp only [decide_eq_true_eq, Array.getElem_toList]
    omega
  have hsplit := List.take_append_drop place a.toList
  rw [← hsplit, List.countP_append, htake, hdrop, Nat.add_zero]

theorem upperBound_eq_countP {a : Array Nat} (hsorted : a.toList.Pairwise (· ≤ ·)) {n : Int} {low high : Nat}
    (h : high ≤ a.size) (hle : low ≤ high)
    (hlow : ∀ i (hi : i < a.size), i < low → (a[i] : Int) ≤ n)
    (hhigh : ∀ i (hi : i < a.size), high ≤ i → n < (a[i] : Int)) :
    upperBound a n low high h = a.toList.countP fun m : Nat => decide ((m : Int) ≤ n) := by
  have hmono : ∀ i j (hi : i < a.size) (hj : j < a.size), i ≤ j → a[i] ≤ a[j] := by
    intro i j hi hj hij
    rcases Nat.eq_or_lt_of_le hij with rfl | hlt
    · exact Nat.le_refl _
    · have hpair := List.pairwise_iff_getElem.mp hsorted i j (by simpa using hi) (by simpa using hj) hlt
      simpa using hpair
  -- everything below `low` is at most `n`, and everything from `high` on is greater
  fun_induction upperBound a n low high h with
  | case1 low high h hlt middle hmiddle ih =>
    refine ih (by omega) hlow ?_
    intro i hi hge
    have := hmono middle i (by omega) hi hge
    omega
  | case2 low high h hlt middle hmiddle ih =>
    refine ih (by omega) ?_ hhigh
    intro i hi hlt'
    have := hmono i middle hi (by omega) (by omega)
    omega
  | case3 low high h hge =>
    obtain rfl : low = high := by omega
    exact (countP_eq_of_cut h hlow hhigh).symm

theorem lt_of_mem_breaksFrom {offset m : Nat} {t : Text} (h : m ∈ breaksFrom offset t) : offset < m := by
  induction t generalizing offset with
  | nil => simp [breaksFrom] at h
  | cons c t ih =>
    rw [breaksFrom] at h
    split at h
    · rcases List.mem_cons.mp h with rfl | hmem
      · omega
      · have := ih hmem
        omega
    · have := ih h
      omega

theorem breaksFrom_pairwise (offset : Nat) (t : Text) : (breaksFrom offset t).Pairwise (· ≤ ·) := by
  induction t generalizing offset with
  | nil => simp [breaksFrom]
  | cons c t ih =>
    rw [breaksFrom]
    split
    · refine List.pairwise_cons.mpr ⟨fun m hm => ?_, ih (offset + 1)⟩
      have := lt_of_mem_breaksFrom hm
      omega
    · exact ih (offset + 1)

theorem countP_breaksFrom (offset n : Nat) (t : Text) (h : offset ≤ n) :
    (breaksFrom offset t).countP (fun m : Nat => decide ((m : Int) ≤ n)) =
      (t.take (n - offset)).count '\n' := by
  induction t generalizing offset with
  | nil => simp [breaksFrom]
  | cons c t ih =>
    -- behind `n` there are only greater breaks; up to `n` each line feed makes one
    rcases Nat.eq_or_lt_of_le h with rfl | hlt
    · rw [Nat.sub_self, List.take_zero, List.count_nil, List.countP_eq_zero]
      intro m hm
      have := lt_of_mem_breaksFrom hm
      simp only [decide_eq_true_eq]
      omega
    · have hstep : n - offset = (n - (offset + 1)) + 1 := by omega
      have hrest := ih (offset + 1) hlt
      rw [hstep, List.take_succ_cons, breaksFrom]
      split
      · rename_i hc
        have hbreak : ((offset + 1 : Nat) : Int) ≤ n := by omega
        rw [List.countP_cons_of_pos (by simpa using hbreak), hrest, hc, List.count_cons_self]
      · rename_i hc
        rw [hrest, List.count_cons_of_ne hc]

/-- The line of an offset is the number of line feeds before it. -/
theorem lineOf_ofText (t : Text) (n : Nat) :
    (ofText t).lineOf n = ((t.take n).count '\n' : Nat) := by
  have hsorted : (ofText t).starts.toList.Pairwise (· ≤ ·) :=
    List.pairwise_cons.mpr ⟨fun m _ => Nat.zero_le m, breaksFrom_pairwise 0 t⟩
  unfold lineOf
  rw [upperBound_eq_countP hsorted (Nat.le_refl _) (Nat.zero_le _) (by omega)
    (fun i hi hge => absurd hi (by omega))]
  have hcount := countP_breaksFrom 0 n t (Nat.zero_le n)
  simp only [ofText]
  rw [List.countP_cons_of_pos (by simp), hcount, Nat.sub_zero]
  omega

/-! ## The line around an offset -/

theorem breaksFrom_append (offset : Nat) (s t : Text) :
    breaksFrom offset (s ++ t) = breaksFrom offset s ++ breaksFrom (offset + s.length) t := by
  induction s generalizing offset with
  | nil => rfl
  | cons c s ih =>
    have hoffset : offset + 1 + s.length = offset + (c :: s).length := by
      rw [List.length_cons]
      omega
    rw [List.cons_append, breaksFrom, breaksFrom, ih, hoffset]
    split
    · rfl
    · rfl

theorem length_breaksFrom (offset : Nat) (t : Text) : (breaksFrom offset t).length = t.count '\n' := by
  induction t generalizing offset with
  | nil => rfl
  | cons c t ih =>
    rw [breaksFrom]
    split
    · rename_i hc
      rw [List.length_cons, ih, hc, List.count_cons_self]
    · rename_i hc
      rw [ih, List.count_cons_of_ne hc]

theorem size_starts (t : Text) : (ofText t).starts.size = t.count '\n' + 1 := by
  rw [ofText, List.size_toArray, List.length_cons, length_breaksFrom]

/-- Where a line ends: before the line feed that stands before the next line, or at the end of the text. -/
def stopOf? (index : LineIndex) (line : Int) : Option Int :=
  if line + 1 < index.starts.size then (index.startOf? (line + 1)).map fun next : Nat => (next : Int) - 1
  else some index.text.length

theorem lineText?_eq (index : LineIndex) (line : Int) :
    index.lineText? line = (index.startOf? line).bind fun start =>
      (index.stopOf? line).map fun stop => (index.text.slice start stop).dropEndWhile (· == '\r') := by
  unfold lineText? stopOf?
  cases index.startOf? line with
  | none => rfl
  | some start =>
    show (if line + 1 < index.starts.size then _ else _) = Option.map _ (if line + 1 < index.starts.size then _ else _)
    split
    · cases index.startOf? (line + 1) with
      | none => rfl
      | some next => rfl
    · rfl

theorem startOf?_behind (front t : Text) :
    (ofText (front ++ '\n' :: t)).startOf? ((front.count '\n' + 1 : Nat) : Int) = some (front.length + 1) := by
  have hbreaks : breaksFrom 0 (front ++ '\n' :: t) =
      breaksFrom 0 front ++ (front.length + 1) :: breaksFrom (front.length + 1) t := by
    rw [breaksFrom_append, breaksFrom, if_pos rfl, Nat.zero_add]
  have hlen := length_breaksFrom 0 front
  unfold startOf?
  rw [if_neg (by omega), Int.toNat_natCast, ofText, List.getElem?_toArray, List.getElem?_cons_succ, hbreaks,
    List.getElem?_append_right (by omega), hlen, Nat.sub_self, List.getElem?_cons_zero]

/-- A text cut at an offset and around the line of that offset: the lines above with their line feeds, the characters
of the line before the offset and from it on, and the rest, which begins with a line feed if there is any. -/
structure LineCut (t above before behind below : Text) : Prop where
  eq_append : t = above ++ (before ++ (behind ++ below))
  above_ends : above = [] ∨ ∃ front, above = front ++ ['\n']
  oneLine : '\n' ∉ before ++ behind
  below_begins : below = [] ∨ ∃ rest, below = '\n' :: rest

theorem exists_last_lineFeed (t : Text) :
    ∃ above before, t = above ++ before ∧ (above = [] ∨ ∃ front, above = front ++ ['\n']) ∧ '\n' ∉ before := by
  induction t with
  | nil => exact ⟨[], [], rfl, .inl rfl, by simp⟩
  | cons c t ih =>
    obtain ⟨above, before, rfl, habove, hbefore⟩ := ih
    rcases habove with rfl | ⟨front, rfl⟩
    · by_cases hc : c = '\n'
      · exact ⟨[c], before, rfl, .inr ⟨[], by rw [hc, List.nil_append]⟩, hbefore⟩
      · refine ⟨[], c :: before, rfl, .inl rfl, ?_⟩
        rw [List.mem_cons, not_or]
        exact ⟨Ne.symm hc, hbefore⟩
    · exact ⟨c :: (front ++ ['\n']), before, rfl, .inr ⟨c :: front, rfl⟩, hbefore⟩

theorem exists_first_lineFeed (t : Text) :
    ∃ behind below, t = behind ++ below ∧ '\n' ∉ behind ∧ (below = [] ∨ ∃ rest, below = '\n' :: rest) := by
  by_cases hmem : '\n' ∈ t
  · obtain ⟨behind, rest, rfl, hbehind⟩ := List.eq_append_cons_of_mem hmem
    exact ⟨behind, '\n' :: rest, rfl, hbehind, .inr ⟨rest, rfl⟩⟩
  · exact ⟨t, [], (List.append_nil t).symm, hmem, .inl rfl⟩

/-- Every offset in a text is on a line. -/
theorem exists_lineCut (t : Text) (n : Nat) : ∃ above before behind below,
    LineCut t above before behind below ∧ t.take n = above ++ before := by
  obtain ⟨above, before, hfront, habove, hbefore⟩ := exists_last_lineFeed (t.take n)
  obtain ⟨behind, below, hback, hbehind, hbelow⟩ := exists_first_lineFeed (t.drop n)
  refine ⟨above, before, behind, below, ⟨?_, habove, ?_, hbelow⟩, hfront⟩
  · rw [← hback, ← List.append_assoc, ← hfront, List.take_append_drop]
  · rw [List.mem_append, not_or]
    exact ⟨hbefore, hbehind⟩

namespace LineCut

variable {t above before behind below : Text} (h : LineCut t above before behind below)

include h

theorem count_line : (before ++ behind).count '\n' = 0 :=
  List.count_eq_zero.mpr h.oneLine

theorem count_front : (above ++ before).count '\n' = above.count '\n' := by
  have hfree : before.count '\n' = 0 := List.count_eq_zero.mpr fun hmem => h.oneLine (by simp [hmem])
  rw [List.count_append, hfree, Nat.add_zero]

/-- The number of the line. -/
theorem lineOf_eq : (ofText t).lineOf ((above ++ before).length : Nat) = (above.count '\n' : Nat) := by
  have hfront := h.count_front
  rw [lineOf_ofText, h.eq_append, ← List.append_assoc, List.take_left, hfront]

theorem startOf?_eq : (ofText t).startOf? (above.count '\n' : Nat) = some above.length := by
  rw [h.eq_append]
  rcases h.above_ends with rfl | ⟨front, rfl⟩
  · rfl
  · have hstart := startOf?_behind front (before ++ (behind ++ below))
    have hcount : (front ++ ['\n']).count '\n' = front.count '\n' + 1 := by
      rw [List.count_append, List.count_singleton_self]
    rw [hcount, List.length_append, List.length_singleton, List.append_assoc, List.singleton_append, hstart]

theorem stopOf?_eq :
    (ofText t).stopOf? (above.count '\n' : Nat) = some ((above ++ (before ++ behind)).length : Int) := by
  have hline := h.count_line
  have hsize := size_starts t
  have hcount : t.count '\n' = above.count '\n' + below.count '\n' := by
    rw [h.eq_append, ← List.append_assoc before, List.count_append, List.count_append, hline, Nat.zero_add]
  unfold stopOf?
  rcases h.below_begins with hnil | ⟨rest, hrest⟩
  · -- the last line ends with the text
    rw [hnil, List.count_nil] at hcount
    rw [if_neg (by omega)]
    show some (t.length : Int) = _
    rw [h.eq_append, hnil, List.append_nil]
  · rw [hrest, List.count_cons_self] at hcount
    have hnext := startOf?_behind (above ++ (before ++ behind)) rest
    rw [List.count_append, hline, Nat.add_zero, ← hrest, List.append_assoc, List.append_assoc, ← h.eq_append] at hnext
    have hcast : ((above.count '\n' : Nat) : Int) + 1 = ((above.count '\n' + 1 : Nat) : Int) := by omega
    rw [if_pos (by omega), hcast, hnext, Option.map_some]
    congr 1
    omega

/-- The distance of the offset from the start of its line. -/
theorem columnOf_eq : (ofText t).columnOf ((above ++ before).length : Nat) = before.length := by
  rw [columnOf, h.lineOf_eq, h.startOf?_eq, Option.getD_some, List.length_append]
  omega

/-- The text of the line. -/
theorem lineText?_eq :
    (ofText t).lineText? (above.count '\n' : Nat) = some ((before ++ behind).dropEndWhile (· == '\r')) := by
  have hslice : t.slice above.length ((above ++ (before ++ behind)).length : Nat) = before ++ behind := by
    have htext : t = (above ++ (before ++ behind)) ++ below := by simp [h.eq_append]
    have hlen : t.length = above.length + (before ++ behind).length + below.length := by
      rw [htext, List.length_append, List.length_append]
    have hstop : (above ++ (before ++ behind)).length ≤ t.length := by
      rw [List.length_append]
      omega
    rw [Text.slice, Text.place_natCast, Text.place_natCast, Nat.min_eq_left hstop, Nat.min_eq_left (by omega), htext,
      List.take_left, List.drop_left]
  rw [LineIndex.lineText?_eq, h.startOf?_eq, h.stopOf?_eq]
  show some ((t.slice _ _).dropEndWhile _) = _
  rw [hslice]

end LineCut

end ImportOrder.LineIndex
