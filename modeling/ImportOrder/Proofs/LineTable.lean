import ImportOrder.Proofs.Lines
import ImportOrder.Proofs.Files

/-!
# The line table against counting

For every offset in a text, halving the table of line starts gives what counting line feeds gives, and every line of
the table is a piece of the text between two line feeds. The lines of the table are the pieces in their order, so each
line is reached from an offset and each offset from its line.
-/

namespace ImportOrder

namespace Text

/-- The pieces are one more than the separators. -/
theorem length_splitOn (sep : Char) (t : Text) : (splitOn sep t).length = t.count sep + 1 := by
  induction t with
  | nil => rfl
  | cons c t ih =>
    rw [splitOn]
    split
    · rename_i hc
      rw [List.length_cons, ih, hc, List.count_cons_self]
    · rename_i hc
      rw [List.count_cons_of_ne hc]
      -- the character goes in front of a piece that is there already
      obtain ⟨first, others, hsplit⟩ := List.exists_cons_of_ne_nil (splitOn_ne_nil sep t)
      rw [hsplit] at ih ⊢
      exact ih

/-- Every number of separators up to that of the text is met at some offset. -/
theorem exists_take_count {sep : Char} {t : Text} {n : Nat} (h : n ≤ t.count sep) :
    ∃ offset ≤ t.length, (t.take offset).count sep = n := by
  induction t generalizing n with
  | nil =>
    rw [List.count_nil] at h
    exact ⟨0, Nat.le_refl 0, (Nat.le_zero.mp h).symm⟩
  | cons c t ih =>
    cases n with
    | zero => exact ⟨0, Nat.zero_le _, rfl⟩
    | succ n =>
      by_cases hc : c = sep
      · -- one separator is passed here, the others behind it
        subst hc
        rw [List.count_cons_self] at h
        obtain ⟨offset, hoffset, hcount⟩ := ih (n := n) (by omega)
        refine ⟨offset + 1, Nat.succ_le_succ hoffset, ?_⟩
        rw [List.take_succ_cons, List.count_cons_self, hcount]
      · rw [List.count_cons_of_ne hc] at h
        obtain ⟨offset, hoffset, hcount⟩ := ih h
        refine ⟨offset + 1, Nat.succ_le_succ hoffset, ?_⟩
        rw [List.take_succ_cons, List.count_cons_of_ne hc, hcount]

end Text

namespace LineIndex

/-- A line that holds an offset starts at the beginning of the text or just after a line feed, and there is no line
feed from there up to the offset. -/
structure StartsLine (t : Text) (offset start : Nat) : Prop where
  le_offset : start ≤ offset
  behind_break : start = 0 ∨ ∃ i, start = i + 1 ∧ t[i]? = some '\n'
  oneLine : ∀ i, start ≤ i → i < offset → t[i]? ≠ some '\n'

namespace LineCut

variable {t above before behind below : Text} (h : LineCut t above before behind below)

include h

theorem startsLine : StartsLine t (above ++ before).length above.length where
  le_offset := by
    rw [List.length_append]
    omega
  behind_break := by
    rcases h.above_ends with rfl | ⟨front, rfl⟩
    · exact .inl rfl
    · refine .inr ⟨front.length, List.length_append, ?_⟩
      rw [h.eq_append, List.append_assoc, List.getElem?_append_right (Nat.le_refl _), Nat.sub_self]
      rfl
  oneLine := by
    intro i hstart hi hbreak
    rw [List.length_append] at hi
    have hbefore : before[i - above.length]? = some '\n' := by
      rwa [h.eq_append, List.getElem?_append_right hstart, List.getElem?_append_left (by omega)] at hbreak
    exact h.oneLine (List.mem_append_left behind (List.mem_of_getElem? hbefore))

/-- The line stands among the pieces of the text at its own number. -/
theorem getElem?_splitOn : (Text.splitOn '\n' t)[above.count '\n']? = some (before ++ behind) := by
  -- from the start of the line on, the line is the first piece
  have hhead : (Text.splitOn '\n' (before ++ (behind ++ below)))[0]? = some (before ++ behind) := by
    rw [← List.append_assoc]
    rcases h.below_begins with hnil | ⟨rest, hrest⟩
    · rw [hnil, List.append_nil, Text.splitOn_of_not_mem h.oneLine]
      rfl
    · rw [hrest, Text.splitOn_append, Text.splitOn_of_not_mem h.oneLine]
      rfl
  rw [h.eq_append]
  rcases h.above_ends with rfl | ⟨front, rfl⟩
  · exact hhead
  · -- the pieces above are as many as the line feeds there
    have hcount : (front ++ ['\n']).count '\n' = (Text.splitOn '\n' front).length := by
      rw [Text.length_splitOn, List.count_append, List.count_singleton_self]
    rw [hcount, List.append_assoc, List.singleton_append, Text.splitOn_append,
      List.getElem?_append_right (Nat.le_refl _), Nat.sub_self]
    exact hhead

end LineCut

/-- What the table tells about an offset: the line feeds before it, and how far it stands from the last of them. -/
theorem exists_startsLine {t : Text} {offset : Nat} (h : offset ≤ t.length) :
    ∃ start, StartsLine t offset start ∧ (ofText t).startOf? ((ofText t).lineOf offset) = some start ∧
      (ofText t).columnOf offset = (offset : Int) - start := by
  obtain ⟨above, before, behind, below, hcut, hfront⟩ := exists_lineCut t offset
  obtain rfl : offset = (above ++ before).length := by
    rw [← hfront, List.length_take]
    omega
  refine ⟨above.length, hcut.startsLine, ?_, ?_⟩
  · rw [hcut.lineOf_eq, hcut.startOf?_eq]
  · rw [hcut.columnOf_eq, List.length_append]
    omega

theorem lineOf_mono (t : Text) {m n : Nat} (h : m ≤ n) : (ofText t).lineOf m ≤ (ofText t).lineOf n := by
  have htake : (t.take n).take m = t.take m := by rw [List.take_take, Nat.min_eq_left h]
  have hcount : (t.take m).count '\n' ≤ (t.take n).count '\n' := by
    rw [← htake]
    exact (List.take_sublist m (t.take n)).count_le '\n'
  rw [lineOf_ofText, lineOf_ofText]
  omega

/-- The lines of the table are the pieces between line feeds, in their order. -/
theorem exists_line {t : Text} {line : Nat} (h : line ≤ t.count '\n') :
    ∃ piece, (Text.splitOn '\n' t)[line]? = some piece ∧
      (ofText t).lineText? line = some (piece.dropEndWhile (· == '\r')) := by
  obtain ⟨offset, -, hcount⟩ := Text.exists_take_count h
  obtain ⟨above, before, behind, below, hcut, hfront⟩ := exists_lineCut t offset
  obtain rfl : above.count '\n' = line := by rw [← hcount, hfront, hcut.count_front]
  exact ⟨before ++ behind, hcut.getElem?_splitOn, hcut.lineText?_eq⟩

/-- The table agrees with counting. The line of an offset is the number of line feeds before it, and its column the
distance from the last of them, so that the start of the line and the column give the offset back. Lines do not go
back as offsets grow, and the text of each line is the piece of the text with its number, less the carriage returns at
its end. -/
theorem ofText_counts (t : Text) :
    (∀ offset : Nat, offset ≤ t.length →
      (ofText t).lineOf offset = ((t.take offset).count '\n' : Nat) ∧
      ∃ start : Nat, StartsLine t offset start ∧
        (ofText t).startOf? ((ofText t).lineOf offset) = some start ∧
        (ofText t).columnOf offset = (offset : Int) - start ∧
        (start : Int) + (ofText t).columnOf offset = offset) ∧
    (∀ m n : Nat, m ≤ n → n ≤ t.length → (ofText t).lineOf m ≤ (ofText t).lineOf n) ∧
    ∀ line : Nat, line ≤ t.count '\n' →
      ∃ piece, (Text.splitOn '\n' t)[line]? = some piece ∧
        (ofText t).lineText? line = some (piece.dropEndWhile (· == '\r')) := by
  refine ⟨fun offset hoffset => ⟨lineOf_ofText t offset, ?_⟩, fun m n hmn _ => lineOf_mono t hmn,
    fun line hline => exists_line hline⟩
  obtain ⟨start, hstarts, hstart, hcolumn⟩ := exists_startsLine hoffset
  refine ⟨start, hstarts, hstart, hcolumn, ?_⟩
  omega

/-- Two line feeds in a row, carriage returns before the first of them, and a last line without a line break. -/
def looseLines : Text :=
  ['a', 'b', '\r', '\r', '\n', '\n', 'c', 'd']

/-- The end of the text is on its last line, two characters in, and its first line has lost its carriage returns. -/
theorem ofText_counts_looseLines :
    8 ≤ looseLines.length ∧ 0 ≤ looseLines.count '\n' ∧ (ofText looseLines).lineOf (8 : Nat) = 2 ∧
      (ofText looseLines).columnOf (8 : Nat) = 2 ∧ (ofText looseLines).lineText? (0 : Nat) = some ['a', 'b'] := by
  obtain ⟨hoffsets, -, hlines⟩ := ofText_counts looseLines
  obtain ⟨hline, start, hstarts, -, hcolumn, -⟩ := hoffsets 8 (by decide)
  obtain ⟨piece, hpiece, htext⟩ := hlines 0 (by decide)
  -- the last line feed is the one at the offset five
  obtain rfl : start = 6 := by
    have hbreak : looseLines[5]? = some '\n' := rfl
    have habove : ¬start ≤ 5 := fun hle => hstarts.oneLine 5 hle (by decide) hbreak
    rcases hstarts.behind_break with rfl | ⟨i, rfl, hi⟩
    · omega
    · have hle := hstarts.le_offset
      obtain rfl | rfl | rfl : i = 5 ∨ i = 6 ∨ i = 7 := by omega
      · rfl
      · cases hi
      · cases hi
  obtain rfl : ['a', 'b', '\r', '\r'] = piece := Option.some.inj hpiece
  exact ⟨by decide, by decide, hline, hcolumn, htext⟩

end LineIndex

end ImportOrder
