import ImportOrder.Text.Basic
import ImportOrder.Text.Word

/-!
# Identifiers and numbers

Names and numbers are told apart from punctuation only; a keyword is an identifier, and so is anything
made of characters from U+0080 to U+FFFF.
-/

namespace ImportOrder.Source

/-- The characters between ASCII and the supplementary planes. -/
def isBasicNonAscii (c : Char) : Bool :=
  decide (0x80 ≤ c.toNat ∧ c.toNat ≤ 0xffff)

/-- A character that may begin an identifier. -/
def isNameStart (c : Char) : Bool :=
  c.isAlpha || c == '_' || c == '$' || isBasicNonAscii c

/-- A character that may continue an identifier. -/
def isNameRest (c : Char) : Bool :=
  isWord c || c == '$' || isBasicNonAscii c

/-- A character that may continue a number. -/
def isNumberRest (c : Char) : Bool :=
  isWord c || c == '.'

/-- The identifier at the front and the text after it. -/
def splitName? : Text → Option (Text × Text)
  | [] => none
  | c :: rest =>
    if isNameStart c then some (c :: rest.takeWhile isNameRest, rest.dropWhile isNameRest) else none

/-- The number at the front, which may begin with a point, and the text after it. -/
def splitNumber? : Text → Option (Text × Text)
  | [] => none
  | [c] => if isDecimal c then some ([c], []) else none
  | c :: d :: rest =>
    if isDecimal c then
      some (c :: (d :: rest).takeWhile isNumberRest, (d :: rest).dropWhile isNumberRest)
    else if c = '.' ∧ isDecimal d then
      some (c :: d :: rest.takeWhile isNumberRest, rest.dropWhile isNumberRest)
    else none

/-- The identifier or else the number at the front, and the text after it. -/
def splitWord? (t : Text) : Option (Text × Text) :=
  (splitName? t).or (splitNumber? t)

theorem splitName?_append {t word rest : Text} (h : splitName? t = some (word, rest)) :
    word ++ rest = t ∧ word ≠ [] := by
  fun_cases splitName? t with
  | case1 => simp [splitName?] at h
  | case2 c r hc =>
    simp only [splitName?, hc, if_true, Option.some.injEq, Prod.mk.injEq] at h
    obtain ⟨rfl, rfl⟩ := h
    simp
  | case3 c r hc => simp [splitName?, hc] at h

theorem splitNumber?_append {t word rest : Text} (h : splitNumber? t = some (word, rest)) :
    word ++ rest = t ∧ word ≠ [] := by
  unfold splitNumber? at h
  split at h
  · simp at h
  · split at h
    · simp only [Option.some.injEq, Prod.mk.injEq] at h
      obtain ⟨rfl, rfl⟩ := h
      simp
    · simp at h
  · split at h
    · simp only [Option.some.injEq, Prod.mk.injEq] at h
      obtain ⟨rfl, rfl⟩ := h
      simp [List.takeWhile_append_dropWhile]
    · split at h
      · simp only [Option.some.injEq, Prod.mk.injEq] at h
        obtain ⟨rfl, rfl⟩ := h
        simp
      · simp at h

/-- A word is a front part of the text, and it is not empty. -/
theorem splitWord?_append {t word rest : Text} (h : splitWord? t = some (word, rest)) :
    word ++ rest = t ∧ word ≠ [] := by
  rw [splitWord?, Option.or_eq_some_iff] at h
  rcases h with h | ⟨_, h⟩
  · exact splitName?_append h
  · exact splitNumber?_append h

theorem splitWord?_length {t word rest : Text} (h : splitWord? t = some (word, rest)) :
    rest.length < t.length := by
  obtain ⟨happ, hne⟩ := splitWord?_append h
  have hpos : 0 < word.length := List.length_pos_iff.mpr hne
  rw [← happ, List.length_append]
  omega

theorem splitName?_length {t word rest : Text} (h : splitName? t = some (word, rest)) :
    rest.length < t.length :=
  have hword : splitWord? t = some (word, rest) := by simp [splitWord?, h]
  splitWord?_length hword

end ImportOrder.Source
