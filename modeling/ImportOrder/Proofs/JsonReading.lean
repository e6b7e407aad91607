import ImportOrder.Json.Reader
import ImportOrder.Json.Writer
import ImportOrder.Proofs.Contents
import Mathlib.Data.List.DropRight

/-!
# JSON is read as it was written

A value made of texts, whole numbers, truth values, null, lists and maps with distinct text keys is read back from its
JSON text, whichever way its parts are set apart and whatever follows.
-/

namespace ImportOrder.Json

/-! ## Strings -/

theorem hexDigit?_digitChar : ∀ d < 16, hexDigit? (Nat.digitChar d) = some d := by
  decide

/-- The four hexadecimal digits of a number. -/
theorem hex_four {n : Nat} (h : n < 0x10000) : Quoted.hex 4 n =
    [(n / 4096).digitChar, (n / 256 % 16).digitChar, (n / 16 % 16).digitChar, (n % 16).digitChar] := by
  have hstep : ∀ m, ¬m < 16 → Nat.toDigits 16 m = Nat.toDigits 16 (m / 16) ++ [(m % 16).digitChar] := by
    intro m hm
    rw [Nat.toDigits_eq_if (by decide), if_neg hm]
  unfold Quoted.hex
  dsimp only
  -- one case for each number of digits before it is filled up
  by_cases h₁ : n < 16
  · have hzero : n / 4096 = 0 ∧ n / 256 % 16 = 0 ∧ n / 16 % 16 = 0 ∧ n % 16 = n := by omega
    rw [Nat.toDigits_of_lt_base h₁, hzero.1, hzero.2.1, hzero.2.2.1, hzero.2.2.2]
    rfl
  · by_cases h₂ : n < 256
    · have hzero : n / 4096 = 0 ∧ n / 256 % 16 = 0 ∧ n / 16 % 16 = n / 16 := by omega
      rw [hstep n h₁, Nat.toDigits_of_lt_base (by omega), hzero.1, hzero.2.1, hzero.2.2]
      rfl
    · by_cases h₃ : n < 4096
      · have hzero : n / 4096 = 0 ∧ n / 256 % 16 = n / 16 / 16 := by omega
        rw [hstep n h₁, hstep (n / 16) (by omega), Nat.toDigits_of_lt_base (by omega), hzero.1, hzero.2]
        rfl
      · have hquotients : n / 4096 = n / 16 / 16 / 16 ∧ n / 256 % 16 = n / 16 / 16 % 16 := by omega
        rw [hstep n h₁, hstep (n / 16) (by omega), hstep (n / 16 / 16) (by omega),
          Nat.toDigits_of_lt_base (by omega), hquotients.1, hquotients.2]
        rfl

theorem readUnit_hex {n : Nat} (h : n < 0x10000) (t : Text) : readUnit (Quoted.hex 4 n ++ t) = some (n, t) := by
  rw [hex_four h]
  simp only [List.cons_append, List.nil_append, readUnit]
  rw [hexDigit?_digitChar _ (by omega), hexDigit?_digitChar _ (by omega), hexDigit?_digitChar _ (by omega),
    hexDigit?_digitChar _ (by omega)]
  simp only [Option.bind_eq_bind, Option.bind_some, Option.pure_def, Option.some.injEq, Prod.mk.injEq, and_true]
  omega

/-- A character is never one half of a pair of UTF-16 units. -/
theorem not_surrogate (c : Char) : ¬(0xd800 ≤ c.toNat ∧ c.toNat < 0xe000) ∧ c.toNat < 0x110000 := by
  have hvalid := c.valid
  simp only [UInt32.isValidChar, Nat.isValidChar] at hvalid
  have htoNat : c.toNat = c.val.toNat := rfl
  omega

theorem readCode_unit {c : Char} (h : c.toNat < 0x10000) (t : Text) :
    readCode (Quoted.hex 4 c.toNat ++ t) = some (c, t) := by
  have hnot := (not_surrogate c).1
  rw [readCode, readUnit_hex h]
  simp only [Option.bind_eq_bind, Option.bind_some]
  rw [if_neg (by omega), Char.ofNat_toNat]

theorem readCode_pair {high low : Nat} (hhigh : 0xd800 ≤ high ∧ high < 0xdc00) (hlow : 0xdc00 ≤ low ∧ low < 0xe000)
    (t : Text) : readCode (Quoted.hex 4 high ++ (unitEscape low ++ t)) =
      some (Char.ofNat (0x10000 + (high - 0xd800) * 0x400 + (low - 0xdc00)), t) := by
  rw [readCode, readUnit_hex (by omega)]
  simp only [Option.bind_eq_bind, Option.bind_some, unitEscape, List.cons_append]
  rw [if_pos hhigh, readUnit_hex (by omega)]
  simp only [Option.bind_some]
  rw [if_pos hlow]

/-- A character is read as it is written in a string. -/
theorem readChars_escape (c : Char) (bound : Nat) (done t : Text) :
    readChars (bound + 1) done (escape c ++ t) = readChars bound (c :: done) t := by
  -- one case for each way of writing a character: behind a backslash, by a letter, as itself, and in one code unit
  -- or two
  unfold escape
  split
  · rename_i h
    rcases h with rfl | rfl
    · rfl
    · rfl
  split
  · rename_i h
    subst h
    rfl
  split
  · rename_i h
    subst h
    rfl
  split
  · rename_i h
    subst h
    rfl
  split
  · rename_i h
    subst h
    rfl
  split
  · rename_i h
    subst h
    rfl
  split
  · rename_i hquote _ _ _ _ _ _
    rw [not_or] at hquote
    rw [List.cons_append, List.nil_append, readChars]
    · exact hquote.1
    · exact fun _ hc _ => hquote.2 hc
    · exact fun _ _ hc _ => hquote.2 hc
  split
  · rename_i h
    rw [unitEscape, List.cons_append, List.cons_append, readChars, readCode_unit h]
    rfl
  · rename_i h
    have hlt := (not_surrogate c).2
    generalize hn : c.toNat - 0x10000 = n
    -- the two code units give back the number of the character
    have hcode : 0x10000 + (0xd800 + n / 0x400 - 0xd800) * 0x400 + (0xdc00 + n % 0x400 - 0xdc00) = c.toNat := by
      omega
    dsimp only
    rw [unitEscape, List.cons_append, List.cons_append, List.cons_append, List.cons_append, readChars,
      List.append_assoc, readCode_pair (by omega) (by omega), hcode, Char.ofNat_toNat]
    rfl

theorem readChars_escapes (s done t : Text) (bound : Nat) (h : s.length < bound) :
    readChars bound done (s.flatMap escape ++ '"' :: t) = some (done.reverse ++ s, t) := by
  induction s generalizing bound done with
  | nil =>
    obtain ⟨bound, rfl⟩ := Nat.exists_eq_add_of_lt h
    simp [readChars]
  | cons c s ih =>
    rw [List.length_cons] at h
    obtain ⟨bound, rfl⟩ : ∃ b, bound = b + 1 := ⟨bound - 1, by omega⟩
    rw [List.flatMap_cons, List.append_assoc, readChars_escape, ih _ _ (by omega), List.reverse_cons,
      List.append_assoc, List.singleton_append]

theorem escape_ne_nil (c : Char) : escape c ≠ [] := by
  -- the closing quote would be read in place of the character
  intro h
  have hread := readChars_escape c 1 [] ['"']
  rw [h] at hread
  simp [readChars] at hread

theorem length_le_escapes (s : Text) : s.length ≤ (s.flatMap escape).length := by
  induction s with
  | nil => simp
  | cons c s ih =>
    have hone := List.length_pos_iff.mpr (escape_ne_nil c)
    rw [List.flatMap_cons, List.length_append, List.length_cons]
    omega

/-- The content of a string with its closing quote. -/
theorem readChars_quoted (s : String) (t : Text) :
    readChars ((s.toList.flatMap escape ++ '"' :: t).length + 1) [] (s.toList.flatMap escape ++ '"' :: t) =
      some (s.toList, t) := by
  have hle := length_le_escapes s.toList
  have hread := readChars_escapes s.toList [] t ((s.toList.flatMap escape ++ '"' :: t).length + 1)
  rw [List.reverse_nil, List.nil_append] at hread
  apply hread
  rw [List.length_append]
  omega

/-! ## Numbers -/

/-- What may follow a value: the end, a comma, a closing bracket or a line break. -/
def EndsValue (t : Text) : Prop :=
  ∀ c ∈ t.head?, c = ',' ∨ c = ']' ∨ c = '\x7d' ∨ c = '\n'

theorem natOf_toDigits (n : Nat) : natOf (Nat.toDigits 10 n) = n := by
  have hvalue := Nat.ofDigitChars_toDigits (b := 10) (n := n) (by decide) (by decide)
  unfold Nat.ofDigitChars at hvalue
  unfold natOf
  simp only [Nat.mul_comm] at hvalue ⊢
  exact hvalue

theorem EndsValue.not_digit {t : Text} (h : EndsValue t) : ∀ c ∈ t.head?, c.isDigit = false := by
  intro c hc
  rcases h c hc with rfl | rfl | rfl | rfl <;> decide

/-- What may follow a value adds nothing to the digits before it. -/
theorem EndsValue.digits {t : Text} (h : EndsValue t) (w : Text) :
    (w ++ t).takeWhile Char.isDigit = w.takeWhile Char.isDigit ∧
      (w ++ t).dropWhile Char.isDigit = w.dropWhile Char.isDigit ++ t := by
  induction w with
  | nil =>
    cases t with
    | nil => simp
    | cons c t => simp [h.not_digit c rfl]
  | cons c w ih => cases hc : c.isDigit <;> simp [hc, ih]

section

variable {w t : Text}

theorem readSign_append (hne : w ≠ []) (t : Text) : readSign (w ++ t) = ((readSign w).1, (readSign w).2 ++ t) := by
  obtain ⟨c, w, rfl⟩ := List.exists_cons_of_ne_nil hne
  by_cases hminus : c = '-'
  · subst hminus
    rfl
  by_cases hplus : c = '+'
  · subst hplus
    rfl
  have hnone : ∀ u, readSign (c :: u) = (1, c :: u) := by
    intro u
    unfold readSign
    split
    · rename_i heq
      exact absurd (List.cons_eq_cons.mp heq).1 hminus
    · rename_i heq
      exact absurd (List.cons_eq_cons.mp heq).1 hplus
    · rfl
  rw [List.cons_append, hnone, hnone]
  rfl

theorem readExponent_cons {e : Char} (he : e = 'e' ∨ e = 'E') (after : Text) : readExponent (e :: after) =
    if ((readSign after).2.takeWhile Char.isDigit).isEmpty then none
    else some (some ((readSign after).1 * natOf ((readSign after).2.takeWhile Char.isDigit)),
      (readSign after).2.dropWhile Char.isDigit) := by
  rw [readExponent, if_pos he]

theorem readExponent_append {exponent : Option Int} (ht : EndsValue t) (h : readExponent w = some (exponent, [])) :
    readExponent (w ++ t) = some (exponent, t) := by
  have hother : ∀ {c : Char} {u : Text}, ¬(c = 'e' ∨ c = 'E') → readExponent (c :: u) = some (none, c :: u) := by
    intro c u hc
    rw [readExponent, if_neg hc]
  cases w with
  | nil =>
    obtain rfl : none = exponent := by simpa [readExponent] using h
    cases t with
    | nil => rfl
    | cons c t => exact hother (by rcases ht c rfl with rfl | rfl | rfl | rfl <;> decide)
  | cons c after =>
    by_cases hc : c = 'e' ∨ c = 'E'
    · rw [readExponent_cons hc] at h
      have hafter : after ≠ [] := by
        rintro rfl
        simp [readSign] at h
      rw [List.cons_append, readExponent_cons hc, readSign_append hafter, (ht.digits _).1, (ht.digits _).2]
      split at h
      · simp at h
      · rename_i hdigits
        rw [if_neg hdigits]
        simp only [Option.some.injEq, Prod.mk.injEq] at h ⊢
        exact ⟨h.1, by rw [h.2, List.nil_append]⟩
    · simp [hother hc] at h

theorem readFraction_append (ht : EndsValue t) (w : Text) :
    readFraction (w ++ t) = ((readFraction w).1, (readFraction w).2 ++ t) := by
  have hother : ∀ {c : Char} {u : Text}, c ≠ '.' → readFraction (c :: u) = (none, c :: u) := by
    intro c u hc
    unfold readFraction
    split
    · rename_i heq
      exact absurd (List.cons_eq_cons.mp heq).1 hc
    · rfl
  have hpoint : ∀ d u, readFraction ('.' :: d :: u) =
      if d.isDigit then (some ((d :: u).takeWhile Char.isDigit), (d :: u).dropWhile Char.isDigit)
      else (none, '.' :: d :: u) := fun _ _ => rfl
  match w, t, ht with
  | [], [], _ => rfl
  | [], c :: t, ht => exact hother (by rcases ht c rfl with rfl | rfl | rfl | rfl <;> decide)
  | c :: w, t, ht =>
    by_cases hc : c = '.'
    · subst hc
      match w, t, ht with
      | [], [], _ => rfl
      | [], d :: t, ht =>
        rw [List.cons_append, List.nil_append, hpoint, ht.not_digit d rfl, if_neg Bool.false_ne_true]
        rfl
      | d :: w, t, ht =>
        obtain ⟨htake, hdrop⟩ := ht.digits (d :: w)
        rw [List.cons_append] at htake hdrop
        rw [List.cons_append, List.cons_append, hpoint, hpoint, htake, hdrop]
        split <;> rfl
    · rw [List.cons_append, hother hc, hother hc]
      rfl

theorem readMagnitude_eq (t : Text) : readMagnitude t =
    if (t.takeWhile Char.isDigit).isEmpty then none
    else (readExponent (readFraction (t.dropWhile Char.isDigit)).2).map fun (exponent, rest) =>
      (⟨t.takeWhile Char.isDigit, (readFraction (t.dropWhile Char.isDigit)).1, exponent⟩, rest) := by
  unfold readMagnitude
  dsimp only
  split
  · rfl
  · cases readExponent (readFraction (t.dropWhile Char.isDigit)).2 <;> rfl

theorem readMagnitude_append {m : Magnitude} (ht : EndsValue t) (h : readMagnitude w = some (m, [])) :
    readMagnitude (w ++ t) = some (m, t) := by
  rw [readMagnitude_eq] at h ⊢
  rw [(ht.digits w).1, (ht.digits w).2, readFraction_append ht]
  split at h
  · simp at h
  · rename_i hwhole
    obtain ⟨⟨exponent, rest⟩, hexponent, heq⟩ := Option.map_eq_some_iff.mp h
    obtain ⟨rfl, rfl⟩ := Prod.mk.inj heq
    rw [if_neg hwhole, readExponent_append ht hexponent]
    rfl

theorem readNumber_unsigned {c : Char} (hc : c ≠ '-') (t : Text) :
    readNumber (c :: t) = (readMagnitude (c :: t)).map fun (m, rest) => (m.toValue false, rest) := by
  unfold readNumber
  split
  · rename_i heq
    exact absurd (List.cons_eq_cons.mp heq).1 hc
  · rfl

/-- A number ends where what may follow a value begins. -/
theorem readNumber_append {v : Value} (ht : EndsValue t) (h : readNumber w = some (v, [])) :
    readNumber (w ++ t) = some (v, t) := by
  cases w with
  | nil => simp [readNumber, readMagnitude_eq] at h
  | cons c w =>
    rw [List.cons_append]
    by_cases hc : c = '-'
    · subst hc
      rw [readNumber] at h ⊢
      obtain ⟨⟨m, rest⟩, hm, heq⟩ := Option.map_eq_some_iff.mp h
      obtain ⟨rfl, rfl⟩ := Prod.mk.inj heq
      rw [readMagnitude_append ht hm]
      rfl
    · rw [readNumber_unsigned hc] at h ⊢
      obtain ⟨⟨m, rest⟩, hm, heq⟩ := Option.map_eq_some_iff.mp h
      obtain ⟨rfl, rfl⟩ := Prod.mk.inj heq
      rw [← List.cons_append, readMagnitude_append ht hm]
      rfl

end

theorem readMagnitude_toDigits (n : Nat) :
    readMagnitude (Nat.toDigits 10 n) = some (⟨Nat.toDigits 10 n, none, none⟩, []) := by
  have hdigits : ∀ c ∈ Nat.toDigits 10 n, c.isDigit = true :=
    fun c hc => Nat.isDigit_of_mem_toDigits (by decide) (by decide) hc
  have hne : (Nat.toDigits 10 n).isEmpty = false := by simp
  rw [readMagnitude_eq, List.takeWhile_eq_self_iff.mpr hdigits, List.dropWhile_eq_nil_iff.mpr hdigits, hne,
    if_neg Bool.false_ne_true]
  rfl

theorem toList_toString_ofNat (n : Nat) : (toString (Int.ofNat n)).toList = Nat.toDigits 10 n :=
  Nat.toList_repr

theorem toList_toString_negSucc (n : Nat) :
    (toString (Int.negSucc n)).toList = '-' :: Nat.toDigits 10 (n + 1) := by
  have htext : toString (Int.negSucc n) = "-" ++ (n + 1).repr := rfl
  rw [htext, String.toList_append, Nat.toList_repr]
  rfl

/-- A whole number is read as it is written. -/
theorem readNumber_toString (n : Int) : readNumber (toString n).toList = some (.int n, []) := by
  cases n with
  | ofNat n =>
    rw [toList_toString_ofNat]
    obtain ⟨c, digits, hdigits⟩ := List.exists_cons_of_ne_nil (l := Nat.toDigits 10 n) (by simp)
    -- digits do not begin with a sign
    have hc : c ≠ '-' := by
      rintro rfl
      have hmem : '-' ∈ Nat.toDigits 10 n := hdigits ▸ List.mem_cons_self
      exact absurd (Nat.isDigit_of_mem_toDigits (by decide) (by decide) hmem) (by decide)
    rw [hdigits, readNumber_unsigned hc, ← hdigits, readMagnitude_toDigits, Option.map_some]
    simp only [Magnitude.toValue, natOf_toDigits]
    rfl
  | negSucc n =>
    rw [toList_toString_negSucc, readNumber, readMagnitude_toDigits (n + 1), Option.map_some]
    simp only [Magnitude.toValue, natOf_toDigits]
    rfl

/-- A text is not read as a number where no digit begins it. -/
theorem readNumber_eq_none {c : Char} (hminus : c ≠ '-') (hdigit : c.isDigit = false) (t : Text) :
    readNumber (c :: t) = none := by
  rw [readNumber_unsigned hminus, readMagnitude_eq]
  simp [hdigit]

/-! ## Scalars -/

/-- What is read as a whole by its name is one of the names. -/
theorem mem_names_of_readName {w : Text} {v : Value} (h : readName w = some (v, [])) :
    (String.ofList w, v) ∈ names := by
  obtain ⟨⟨name, value⟩, hfind, heq⟩ := Option.map_eq_some_iff.mp h
  obtain ⟨rfl, hdrop⟩ := Prod.mk.inj heq
  have hstarts : name.toList.isPrefixOf w = true := List.find?_some (a := (name, value)) hfind
  obtain ⟨rest, rfl⟩ := List.isPrefixOf_iff_prefix.mp hstarts
  obtain rfl : rest = [] := by rwa [← String.length_toList, List.drop_left] at hdrop
  rw [List.append_nil, String.ofList_toList]
  exact List.mem_of_find?_eq_some hfind

/-- A number or a name ends where what may follow a value begins. -/
theorem readScalar_append {w t : Text} {v : Value} (ht : EndsValue t) (h : readScalar w = some (v, [])) :
    readScalar (w ++ t) = some (v, t) := by
  unfold readScalar at h
  rcases Option.or_eq_some_iff.mp h with hnumber | ⟨-, hname⟩
  · rw [readScalar, readNumber_append ht hnumber, Option.some_or]
  · have hmem := mem_names_of_readName hname
    obtain ⟨name, rfl⟩ : ∃ name : String, w = name.toList := ⟨String.ofList w, String.toList_ofList.symm⟩
    rw [String.ofList_toList] at hmem
    simp only [names, List.mem_cons, Prod.mk.injEq, List.not_mem_nil, or_false] at hmem
    rcases hmem with ⟨rfl, rfl⟩ | ⟨rfl, rfl⟩ | ⟨rfl, rfl⟩ | ⟨rfl, rfl⟩ | ⟨rfl, rfl⟩ | ⟨rfl, rfl⟩ <;> rfl

/-- Neither a blank nor what opens a string, a list or a map begins a number or a name. -/
theorem readScalar_eq_none {c : Char} (hc : c ∈ ['"', '[', '\x7b', ' ', '\n', '\t', '\r', ']']) (t : Text) :
    readScalar (c :: t) = none := by
  simp only [List.mem_cons, List.not_mem_nil, or_false] at hc
  rcases hc with rfl | rfl | rfl | rfl | rfl | rfl | rfl | rfl <;>
    rw [readScalar, readNumber_eq_none (by decide) (by decide)] <;> rfl

/-! ## Blanks -/

theorem skipBlanks_skipBlanks (t : Text) : skipBlanks (skipBlanks t) = skipBlanks t :=
  List.dropWhile_idempotent _ t

theorem readValue_skipBlanks (bound : Nat) (t : Text) : readValue bound (skipBlanks t) = readValue bound t := by
  cases bound with
  | zero => rw [readValue, readValue]
  | succ bound => rw [readValue, readValue, skipBlanks_skipBlanks]

theorem readItems_skipBlanks (bound : Nat) (t : Text) : readItems bound (skipBlanks t) = readItems bound t := by
  cases bound with
  | zero => rw [readItems, readItems]
  | succ bound => rw [readItems, readItems, readValue_skipBlanks]

theorem readEntries_skipBlanks (bound : Nat) (done : List (Value × Value)) (t : Text) :
    readEntries bound done (skipBlanks t) = readEntries bound done t := by
  cases bound with
  | zero => rw [readEntries, readEntries]
  | succ bound => rw [readEntries, readEntries, skipBlanks_skipBlanks]

/-- What stands before an item that is `level` brackets deep, and before the bracket that closes that level. -/
def Style.gap : Style → Nat → Text
  | compact, _ => []
  | indented width, level => lineBreak width level

theorem skipBlanks_gap (style : Style) (level : Nat) (t : Text) :
    skipBlanks (style.gap level ++ t) = skipBlanks t := by
  cases style with
  | compact => rfl
  | indented width =>
    apply List.dropWhile_append_of_pos
    intro c hc
    rcases List.mem_cons.mp hc with rfl | hc
    · decide
    · rw [List.eq_of_mem_replicate hc]
      decide

theorem readItems_gap (style : Style) (level bound : Nat) (t : Text) :
    readItems bound (style.gap level ++ t) = readItems bound t := by
  rw [← readItems_skipBlanks, skipBlanks_gap, readItems_skipBlanks]

theorem readEntries_gap (style : Style) (level bound : Nat) (done : List (Value × Value)) (t : Text) :
    readEntries bound done (style.gap level ++ t) = readEntries bound done t := by
  rw [← readEntries_skipBlanks, skipBlanks_gap, readEntries_skipBlanks]

/-- The items after the first one, up to the bracket that closes `level`. -/
def further (style : Style) (level : Nat) (closing : Char) : List Text → Text
  | [] => style.gap level ++ [closing]
  | item :: items => ',' :: (style.gap (level + 1) ++ (item ++ further style level closing items))

theorem further_nil_append (style : Style) (level : Nat) (closing : Char) (t : Text) :
    further style level closing [] ++ t = style.gap level ++ closing :: t := by
  simp [further]

theorem further_cons_append (style : Style) (level : Nat) (closing : Char) (item : Text) (items : List Text)
    (t : Text) : further style level closing (item :: items) ++ t =
      ',' :: (style.gap (level + 1) ++ (item ++ (further style level closing items ++ t))) := by
  simp [further]

/-- Brackets around at least one item. -/
theorem bracket_cons (style : Style) (level : Nat) (opening closing : Char) (item : Text) (items : List Text) :
    bracket style level opening closing (item :: items) =
      opening :: (style.gap (level + 1) ++ (item ++ further style level closing items)) := by
  have hfurther : further style level closing items =
      items.flatMap (fun t => ',' :: style.gap (level + 1) ++ t) ++ (style.gap level ++ [closing]) := by
    induction items with
    | nil => rfl
    | cons item items ih => simp [further, ih]
  rw [hfurther]
  cases style with
  | compact => simp [bracket, Text.joinWith_cons, Style.gap]
  | indented width => simp [bracket, Text.joinWith_cons, Style.gap]

theorem endsValue_further (style : Style) (level : Nat) {closing : Char} (h : closing = ']' ∨ closing = '\x7d')
    (items : List Text) (t : Text) : EndsValue (further style level closing items ++ t) := by
  cases items with
  | nil =>
    cases style with
    | compact => simpa [EndsValue, further, Style.gap] using .inr (h.imp_right .inl)
    | indented width => simp [EndsValue, further, Style.gap, lineBreak]
  | cons item items => simp [EndsValue, further]

/-! ## Values -/

/-- The entries of a map whose keys are texts. -/
def textKeys (entries : List (String × Value)) : List (Value × Value) :=
  entries.map fun (key, value) => (.text key, value)

/-- Values that have a JSON form of their own: null, truth values, whole numbers, floating-point numbers that their
decimal text names, texts, lists, and maps with distinct texts as keys. -/
inductive Plain : Value → Prop where
  | null : Plain .null
  | bool (b : Bool) : Plain (.bool b)
  | int (n : Int) : Plain (.int n)
  | real (bits : UInt64) (hnamed : readScalar (numberText bits) = some (.real bits, [])) : Plain (.real bits)
  | text (s : String) : Plain (.text s)
  | list {items : List Value} (hitems : ∀ v ∈ items, Plain v) : Plain (.list items)
  | map {entries : List (String × Value)} (hkeys : (entries.map Prod.fst).Nodup)
      (hvalues : ∀ entry ∈ entries, Plain entry.2) : Plain (.map (textKeys entries))

/-- A value is read from its text, whatever may follow. The reader takes at most two steps for each character, so a
bound of twice the length is enough. -/
def ReadBack (style : Style) (level : Nat) (v : Value) : Prop :=
  ∀ (bound : Nat) (t : Text), EndsValue t → 2 * (write style level v).length < bound →
    readValue bound (write style level v ++ t) = some (v, t)

variable {style : Style} {level : Nat}

theorem writeItems_eq_map (items : List Value) : writeItems style level items = items.map (write style level) := by
  induction items with
  | nil => rw [writeItems, List.map_nil]
  | cons v items ih => rw [writeItems, ih, List.map_cons]

/-- The text of an entry. -/
def writeEntry (style : Style) (level : Nat) (entry : String × Value) : Text :=
  quoted entry.1 ++ (style.colon ++ write style level entry.2)

theorem writeEntries_textKeys (entries : List (String × Value)) :
    writeEntries style level (textKeys entries) = entries.map (writeEntry style level) := by
  induction entries with
  | nil => rw [textKeys, List.map_nil, writeEntries, List.map_nil]
  | cons entry entries ih =>
    have hkeys : textKeys (entry :: entries) = (.text entry.1, entry.2) :: textKeys entries := rfl
    rw [hkeys, writeEntries, ih, List.map_cons, writeEntry, keyText, List.append_assoc]

section

variable {bound : Nat} {t u rest : Text} {v : Value}

theorem readItems_comma (hvalue : readValue bound t = some (v, u)) (hnext : skipBlanks u = ',' :: rest) :
    readItems (bound + 1) t = (readItems bound rest).map fun (items, rest) => (v :: items, rest) := by
  rw [readItems, hvalue]
  dsimp only
  rw [hnext]
  rfl

theorem readItems_close (hvalue : readValue bound t = some (v, u)) (hnext : skipBlanks u = ']' :: rest) :
    readItems (bound + 1) t = some ([v], rest) := by
  rw [readItems, hvalue]
  dsimp only
  rw [hnext]
  rfl

variable {done : List (Value × Value)} {key : String}

/-- What is read behind an entry. -/
def readBehind (bound : Nat) (done : List (Value × Value)) : Text → Option (List (Value × Value) × Text)
  | ',' :: rest => readEntries bound done rest
  | '\x7d' :: rest => some (done, rest)
  | _ => none

/-- The key of an entry is read, then its value, and then what stands behind it decides. -/
theorem readEntries_entry (hvalue : readValue bound (style.colon.drop 1 ++ t) = some (v, u)) :
    readEntries (bound + 1) done (quoted key ++ (style.colon ++ t)) =
      readBehind bound (Value.assign key v done) (skipBlanks u) := by
  have hquoted : quoted key ++ (style.colon ++ t) =
      '"' :: (key.toList.flatMap escape ++ '"' :: ':' :: (style.colon.drop 1 ++ t)) := by
    cases style <;> simp [quoted, Style.colon]
  have hquote : ∀ w, skipBlanks ('"' :: w) = '"' :: w := fun _ => rfl
  have hcolon : ∀ w, skipBlanks (':' :: w) = ':' :: w := fun _ => rfl
  rw [hquoted, readEntries, hquote]
  simp only [readChars_quoted, hcolon, hvalue, String.ofList_toList]
  rfl

theorem readEntries_comma (hvalue : readValue bound (style.colon.drop 1 ++ t) = some (v, u))
    (hnext : skipBlanks u = ',' :: rest) : readEntries (bound + 1) done (quoted key ++ (style.colon ++ t)) =
      readEntries bound (Value.assign key v done) rest := by
  rw [readEntries_entry hvalue, hnext]
  rfl

theorem readEntries_close (hvalue : readValue bound (style.colon.drop 1 ++ t) = some (v, u))
    (hnext : skipBlanks u = '\x7d' :: rest) : readEntries (bound + 1) done (quoted key ++ (style.colon ++ t)) =
      some (Value.assign key v done, rest) := by
  rw [readEntries_entry hvalue, hnext]
  rfl

end

/-- The items of a list, when each of them is read back. -/
theorem ReadBack.items {first : Value} {items : List Value} (hfirst : ReadBack style (level + 1) first)
    (hitems : ∀ v ∈ items, ReadBack style (level + 1) v) (bound : Nat) (t : Text)
    (hbound : 2 * (write style (level + 1) first ++
      further style level ']' (items.map (write style (level + 1)))).length < bound) :
    readItems bound (write style (level + 1) first ++
        (further style level ']' (items.map (write style (level + 1))) ++ t)) = some (first :: items, t) := by
  have hends := fun items => endsValue_further style level (.inl rfl : ']' = ']' ∨ _) items t
  induction items generalizing first bound with
  | nil =>
    obtain ⟨bound, rfl⟩ : ∃ b, bound = b + 1 := ⟨bound - 1, by omega⟩
    simp only [List.map_nil, further, List.length_append, List.length_cons, List.length_nil] at hbound
    apply readItems_close (hfirst bound _ (hends _) (by omega))
    rw [List.map_nil, further_nil_append, skipBlanks_gap]
    rfl
  | cons v items ih =>
    obtain ⟨bound, rfl⟩ : ∃ b, bound = b + 1 := ⟨bound - 1, by omega⟩
    simp only [List.map_cons, further, List.length_append, List.length_cons] at hbound
    have hrest := ih (hitems v List.mem_cons_self) (fun v hv => hitems v (List.mem_cons_of_mem _ hv)) bound (by
      rw [List.length_append]
      omega)
    have hread := hfirst bound _ (hends ((v :: items).map (write style (level + 1)))) (by omega)
    rw [List.map_cons, further_cons_append] at hread ⊢
    rw [readItems_comma hread rfl, readItems_gap, hrest, Option.map_some]

/-- The value of an entry, after the colon and the blank that may stand there. -/
theorem ReadBack.after_colon {v : Value} (h : ReadBack style level v) {bound : Nat} {t : Text} (ht : EndsValue t)
    (hbound : 2 * (write style level v).length < bound) :
    readValue bound (style.colon.drop 1 ++ (write style level v ++ t)) = some (v, t) := by
  have hskip : skipBlanks (style.colon.drop 1 ++ (write style level v ++ t)) =
      skipBlanks (write style level v ++ t) := by
    cases style <;> rfl
  rw [← readValue_skipBlanks, hskip, readValue_skipBlanks, h bound t ht hbound]

theorem assign_textKeys {done : List (String × Value)} {key : String} (h : key ∉ done.map Prod.fst) (v : Value) :
    Value.assign key v (textKeys done) = textKeys (done ++ [(key, v)]) := by
  induction done with
  | nil => rfl
  | cons entry done ih =>
    rw [List.map_cons, List.mem_cons, not_or] at h
    have hkeys : textKeys (entry :: done) = (.text entry.1, entry.2) :: textKeys done := rfl
    have hother : (Value.text entry.1).isText key = false := by simpa [Value.isText] using Ne.symm h.1
    rw [hkeys, Value.assign, hother, if_neg Bool.false_ne_true, ih h.2]
    rfl

theorem fst_not_mem {done entries : List (String × Value)} {first : String × Value}
    (h : ((done ++ first :: entries).map Prod.fst).Nodup) : first.1 ∉ done.map Prod.fst := by
  rw [List.map_append, List.nodup_append] at h
  intro hmem
  exact h.2.2 _ hmem _ (by simp) rfl

/-- The entries of a map, when the value of each of them is read back. -/
theorem ReadBack.entries (done : List (String × Value)) {first : String × Value} {entries : List (String × Value)}
    (hkeys : ((done ++ first :: entries).map Prod.fst).Nodup) (hfirst : ReadBack style (level + 1) first.2)
    (hentries : ∀ entry ∈ entries, ReadBack style (level + 1) entry.2) (bound : Nat) (t : Text)
    (hbound : 2 * (writeEntry style (level + 1) first ++
      further style level '\x7d' (entries.map (writeEntry style (level + 1)))).length < bound) :
    readEntries bound (textKeys done) (writeEntry style (level + 1) first ++
        (further style level '\x7d' (entries.map (writeEntry style (level + 1))) ++ t)) =
      some (textKeys (done ++ first :: entries), t) := by
  have hends := fun items => endsValue_further style level (.inr rfl : '\x7d' = ']' ∨ _) items t
  induction entries generalizing done first bound with
  | nil =>
    obtain ⟨bound, rfl⟩ : ∃ b, bound = b + 1 := ⟨bound - 1, by omega⟩
    simp only [List.map_nil, writeEntry, further, List.length_append, List.length_cons, List.length_nil] at hbound
    have hread := hfirst.after_colon (hends []) (by omega : _ < bound)
    rw [further_nil_append] at hread
    rw [writeEntry, List.append_assoc, List.append_assoc, List.map_nil, further_nil_append,
      readEntries_close hread (skipBlanks_gap _ _ _), assign_textKeys (fst_not_mem hkeys)]
  | cons entry entries ih =>
    obtain ⟨bound, rfl⟩ : ∃ b, bound = b + 1 := ⟨bound - 1, by omega⟩
    simp only [List.map_cons, writeEntry, further, List.length_append, List.length_cons] at hbound
    have hread := hfirst.after_colon (hends ((entry :: entries).map (writeEntry style (level + 1))))
      (by omega : _ < bound)
    have hnew := fst_not_mem hkeys
    -- the entry just read is one of those already read for the rest
    have hsame : done ++ first :: entry :: entries = (done ++ [first]) ++ entry :: entries := by simp
    rw [hsame] at hkeys ⊢
    have hrest := ih (done ++ [first]) hkeys (hentries entry List.mem_cons_self)
      (fun entry hentry => hentries entry (List.mem_cons_of_mem _ hentry)) bound (by
        simp only [writeEntry, List.length_append]
        omega)
    rw [List.map_cons, further_cons_append] at hread
    rw [writeEntry, List.append_assoc, List.append_assoc, List.map_cons, further_cons_append,
      readEntries_comma hread rfl, assign_textKeys hnew, readEntries_gap, hrest]

/-- What is neither a string, a list nor a map is a number or a name. -/
theorem readValue_scalar {t rest : Text} {c : Char} (h : skipBlanks t = c :: rest)
    (hc : c ≠ '"' ∧ c ≠ '[' ∧ c ≠ '\x7b') (bound : Nat) :
    readValue (bound + 1) t = readScalar (c :: rest) := by
  rw [readValue, h]
  split
  · rename_i heq
    exact absurd (List.cons_eq_cons.mp heq).1 hc.1
  · rename_i heq
    exact absurd (List.cons_eq_cons.mp heq).1 hc.2.1
  · rename_i heq
    exact absurd (List.cons_eq_cons.mp heq).1 hc.2.2
  · rfl

theorem readValue_closing {t rest : Text} (h : skipBlanks t = ']' :: rest) (bound : Nat) :
    readValue bound t = none := by
  cases bound with
  | zero => rw [readValue]
  | succ bound => rw [readValue_scalar h (by decide), readScalar_eq_none (by decide)]

theorem readValue_bracket (bound : Nat) (t : Text) : readValue (bound + 1) ('[' :: t) =
    match skipBlanks t with
    | ']' :: rest => some (.list [], rest)
    | _ => (readItems bound t).map fun (items, rest) => (.list items, rest) := by
  rw [readValue]
  rfl

theorem readValue_items {bound : Nat} {t rest : Text} {items : List Value}
    (h : readItems bound t = some (items, rest)) : readValue (bound + 1) ('[' :: t) = some (.list items, rest) := by
  rw [readValue_bracket]
  split
  · -- a bracket that closes at once leaves no first item to read
    rename_i hclosing
    cases bound with
    | zero => simp [readItems] at h
    | succ bound => simp [readItems, readValue_closing hclosing] at h
  · rw [h, Option.map_some]

theorem readValue_brace (bound : Nat) (t : Text) : readValue (bound + 1) ('\x7b' :: t) =
    match skipBlanks t with
    | '\x7d' :: rest => some (.map [], rest)
    | _ => (readEntries bound [] t).map fun (entries, rest) => (.map entries, rest) := by
  rw [readValue]
  rfl

theorem readValue_entries {bound : Nat} {t rest : Text} {entries : List (Value × Value)}
    (h : readEntries bound [] t = some (entries, rest)) :
    readValue (bound + 1) ('\x7b' :: t) = some (.map entries, rest) := by
  rw [readValue_brace]
  split
  · rename_i hclosing
    cases bound with
    | zero => simp [readEntries] at h
    | succ bound => simp [readEntries, hclosing] at h
  · rw [h, Option.map_some]

theorem readValue_quote (bound : Nat) (t : Text) : readValue (bound + 1) ('"' :: t) =
    (readChars (t.length + 1) [] t).map fun (s, rest) => (.text (String.ofList s), rest) := by
  rw [readValue]
  rfl

/-- A value that is written as a number or a name is read back if that number or name stands for it. -/
theorem readBack_of_readScalar {v : Value} (h : readScalar (write style level v) = some (v, [])) :
    ReadBack style level v := by
  intro bound t ht hbound
  obtain ⟨bound, rfl⟩ : ∃ b, bound = b + 1 := ⟨bound - 1, by omega⟩
  cases htext : write style level v with
  | nil =>
    rw [htext] at h
    simp [readScalar, readNumber, readMagnitude_eq, readName, names] at h
  | cons c w =>
    have hc : c ∉ ['"', '[', '\x7b', ' ', '\n', '\t', '\r', ']'] := by
      intro hc
      rw [htext, readScalar_eq_none hc] at h
      simp at h
    simp only [List.mem_cons, List.not_mem_nil, or_false, not_or] at hc
    obtain ⟨hquote, hbracket, hbrace, hspace, hfeed, htab, hreturn, -⟩ := hc
    have hblank : skipBlanks (c :: (w ++ t)) = c :: (w ++ t) :=
      List.dropWhile_cons_of_neg (by simp [hspace, hfeed, htab, hreturn])
    rw [List.cons_append, readValue_scalar hblank ⟨hquote, hbracket, hbrace⟩, ← List.cons_append, ← htext]
    exact readScalar_append ht h

theorem readScalar_null : readScalar (write style level .null) = some (.null, []) := by
  rw [write]
  rfl

theorem readScalar_bool (b : Bool) : readScalar (write style level (.bool b)) = some (.bool b, []) := by
  cases b <;> rw [write] <;> rfl

theorem readScalar_int (n : Int) : readScalar (write style level (.int n)) = some (.int n, []) := by
  rw [write, readScalar, readNumber_toString, Option.some_or]

theorem readBack_text (s : String) : ReadBack style level (.text s) := by
  intro bound t _ hbound
  obtain ⟨bound, rfl⟩ : ∃ b, bound = b + 1 := ⟨bound - 1, by omega⟩
  have htext : write style level (.text s) ++ t = '"' :: (s.toList.flatMap escape ++ '"' :: t) := by
    rw [write, quoted]
    simp
  rw [htext, readValue_quote, readChars_quoted, Option.map_some]
  dsimp only
  rw [String.ofList_toList]

theorem readBack_list {items : List Value} (h : ∀ v ∈ items, ReadBack style (level + 1) v) :
    ReadBack style level (.list items) := by
  intro bound t _ hbound
  obtain ⟨bound, rfl⟩ : ∃ b, bound = b + 1 := ⟨bound - 1, by omega⟩
  rw [write, writeItems_eq_map] at hbound ⊢
  cases items with
  | nil =>
    rw [List.map_nil, bracket, readValue]
    rfl
  | cons first items =>
    rw [List.map_cons, bracket_cons] at hbound ⊢
    have hitems := ReadBack.items (h first List.mem_cons_self) (fun v hv => h v (List.mem_cons_of_mem _ hv)) bound t (by
      simp only [List.length_append, List.length_cons] at hbound ⊢
      omega)
    rw [List.cons_append, List.append_assoc, List.append_assoc]
    apply readValue_items
    rw [readItems_gap, hitems]

theorem readBack_map {entries : List (String × Value)} (hkeys : (entries.map Prod.fst).Nodup)
    (h : ∀ entry ∈ entries, ReadBack style (level + 1) entry.2) : ReadBack style level (.map (textKeys entries)) := by
  intro bound t _ hbound
  obtain ⟨bound, rfl⟩ : ∃ b, bound = b + 1 := ⟨bound - 1, by omega⟩
  rw [write, writeEntries_textKeys] at hbound ⊢
  cases entries with
  | nil =>
    rw [List.map_nil, bracket, readValue]
    rfl
  | cons first entries =>
    rw [List.map_cons, bracket_cons] at hbound ⊢
    have hentries := ReadBack.entries [] hkeys (h first List.mem_cons_self)
      (fun entry hentry => h entry (List.mem_cons_of_mem _ hentry)) bound t (by
        simp only [List.length_append, List.length_cons] at hbound ⊢
        omega)
    rw [List.cons_append, List.append_assoc, List.append_assoc]
    apply readValue_entries
    rw [readEntries_gap]
    exact hentries

/-- A value is read as it is written. -/
theorem Plain.readBack {v : Value} (h : Plain v) (style : Style) (level : Nat) : ReadBack style level v := by
  induction h generalizing level with
  | null => exact readBack_of_readScalar readScalar_null
  | bool b => exact readBack_of_readScalar (readScalar_bool b)
  | int n => exact readBack_of_readScalar (readScalar_int n)
  | real bits hnamed => exact readBack_of_readScalar (by rw [write, hnamed])
  | text s => exact readBack_text s
  | list _ ih => exact readBack_list fun v hv => ih v hv (level + 1)
  | map hkeys _ ih => exact readBack_map hkeys fun entry hentry => ih entry hentry (level + 1)

/-- The JSON text of a value stands for that value, with nothing or a line break behind it. -/
theorem parse?_write_append {v : Value} (h : Plain v) (style : Style) {t : Text} (ht : EndsValue t)
    (hblank : skipBlanks t = []) : parse? (String.ofList (write style 0 v ++ t)) = some v := by
  have hread := h.readBack style 0 (2 * (write style 0 v ++ t).length + 2) t ht (by
    rw [List.length_append]
    omega)
  rw [parse?, String.length_ofList, String.toList_ofList, hread]
  dsimp only
  rw [hblank]
  rfl

theorem parse?_write {v : Value} (h : Plain v) (style : Style) :
    parse? (String.ofList (write style 0 v ++ ['\n'])) = some v :=
  parse?_write_append h style (by simp [EndsValue]) rfl

/-! ## One line of ASCII -/

/-- A character that ASCII prints. -/
def Printed (c : Char) : Prop :=
  0x20 ≤ c.toNat ∧ c.toNat < 0x7f

instance : DecidablePred Printed :=
  fun c => inferInstanceAs (Decidable (0x20 ≤ c.toNat ∧ c.toNat < 0x7f))

theorem printed_unitEscape {n : Nat} (h : n < 0x10000) : ∀ c ∈ unitEscape n, Printed c := by
  have hdigit : ∀ d < 16, Printed (Nat.digitChar d) := by decide
  rw [unitEscape, hex_four h]
  simp only [List.forall_mem_cons]
  exact ⟨by decide, by decide, hdigit _ (by omega), hdigit _ (by omega), hdigit _ (by omega), hdigit _ (by omega),
    by simp⟩

theorem printed_escaped {c : Char} (h : Printed c) : ∀ d ∈ ['\\', c], Printed d := by
  have hbackslash : Printed '\\' := by decide
  simp only [List.forall_mem_cons]
  exact ⟨hbackslash, h, by simp⟩

/-- Whatever a character is, ASCII prints what is written for it. -/
theorem printed_escape (c : Char) : ∀ d ∈ escape c, Printed d := by
  unfold escape
  split
  · rename_i h
    exact printed_escaped (by rcases h with rfl | rfl <;> decide)
  split
  · exact printed_escaped (by decide)
  split
  · exact printed_escaped (by decide)
  split
  · exact printed_escaped (by decide)
  split
  · exact printed_escaped (by decide)
  split
  · exact printed_escaped (by decide)
  split
  · rename_i h
    intro d hd
    rw [List.mem_singleton.mp hd]
    exact h
  split
  · rename_i h
    exact printed_unitEscape h
  · have hlt := (not_surrogate c).2
    dsimp only
    intro d hd
    rcases List.mem_append.mp hd with hd | hd
    · exact printed_unitEscape (by omega) d hd
    · exact printed_unitEscape (by omega) d hd

theorem printed_quoted (s : String) : ∀ c ∈ quoted s, Printed c := by
  have hquote : Printed '"' := by decide
  intro c hc
  rw [quoted, List.mem_append, List.mem_cons, List.mem_flatMap] at hc
  rcases hc with (rfl | ⟨d, -, hd⟩) | hc
  · exact hquote
  · exact printed_escape d c hd
  · rw [List.mem_singleton.mp hc]
    exact hquote

theorem printed_bracket {opening closing : Char} (hopening : Printed opening) (hclosing : Printed closing)
    {items : List Text} (h : ∀ t ∈ items, ∀ c ∈ t, Printed c) (level : Nat) :
    ∀ c ∈ bracket .compact level opening closing items, Printed c := by
  have hcomma : Printed ',' := by decide
  have hfurther : ∀ items : List Text, (∀ t ∈ items, ∀ c ∈ t, Printed c) →
      ∀ c ∈ further .compact level closing items, Printed c := by
    intro items h
    induction items with
    | nil => simpa [further, Style.gap] using hclosing
    | cons item items ih =>
      obtain ⟨hitem, hitems⟩ := List.forall_mem_cons.mp h
      simp only [further, Style.gap, List.nil_append, List.forall_mem_cons, List.forall_mem_append]
      exact ⟨hcomma, hitem, ih hitems⟩
  cases items with
  | nil =>
    simp only [bracket, List.forall_mem_cons]
    exact ⟨hopening, hclosing, by simp⟩
  | cons item items =>
    obtain ⟨hitem, hitems⟩ := List.forall_mem_cons.mp h
    simp only [bracket_cons, Style.gap, List.nil_append, List.forall_mem_cons, List.forall_mem_append]
    exact ⟨hopening, hitem, hfurther items hitems⟩

theorem printed_of_isDigit {c : Char} (h : c.isDigit = true) : Printed c := by
  simp only [Char.isDigit, Bool.and_eq_true, decide_eq_true_eq, ge_iff_le, UInt32.le_iff_toNat_le] at h
  have htoNat : c.toNat = c.val.toNat := rfl
  exact ⟨Nat.le_trans (by decide) (htoNat ▸ h.1), Nat.lt_of_le_of_lt (htoNat ▸ h.2) (by decide)⟩

section

variable {w rest : Text}

/-- What is not left when digits are dropped are digits. -/
theorem printed_or_mem_dropWhile {c : Char} (hc : c ∈ w) : Printed c ∨ c ∈ w.dropWhile Char.isDigit := by
  rw [← List.takeWhile_append_dropWhile (p := Char.isDigit) (l := w)] at hc
  rcases List.mem_append.mp hc with hc | hc
  · exact .inl (printed_of_isDigit (List.mem_takeWhile_imp hc))
  · exact .inr hc

theorem printed_or_mem_readSign {c : Char} (hc : c ∈ w) : Printed c ∨ c ∈ (readSign w).2 := by
  unfold readSign
  split
  · rcases List.mem_cons.mp hc with rfl | hc
    · exact .inl (by decide)
    · exact .inr hc
  · rcases List.mem_cons.mp hc with rfl | hc
    · exact .inl (by decide)
    · exact .inr hc
  · exact .inr hc

theorem printed_or_mem_readExponent {exponent : Option Int} (h : readExponent w = some (exponent, rest)) {c : Char}
    (hc : c ∈ w) : Printed c ∨ c ∈ rest := by
  cases w with
  | nil => simp at hc
  | cons e after =>
    by_cases he : e = 'e' ∨ e = 'E'
    · rw [readExponent_cons he] at h
      split at h
      · simp at h
      · obtain ⟨-, rfl⟩ := Prod.mk.inj (Option.some.inj h)
        rcases List.mem_cons.mp hc with rfl | hc
        · exact .inl (by rcases he with rfl | rfl <;> decide)
        · rcases printed_or_mem_readSign hc with hc | hc
          · exact .inl hc
          · exact printed_or_mem_dropWhile hc
    · rw [readExponent, if_neg he] at h
      obtain ⟨-, rfl⟩ := Prod.mk.inj (Option.some.inj h)
      exact .inr hc

theorem printed_or_mem_readFraction {c : Char} (hc : c ∈ w) : Printed c ∨ c ∈ (readFraction w).2 := by
  unfold readFraction
  split
  · split
    · rcases List.mem_cons.mp hc with rfl | hc
      · exact .inl (by decide)
      · exact printed_or_mem_dropWhile hc
    · exact .inr hc
  · exact .inr hc

theorem printed_of_readMagnitude {m : Magnitude} (h : readMagnitude w = some (m, [])) : ∀ c ∈ w, Printed c := by
  rw [readMagnitude_eq] at h
  split at h
  · simp at h
  · obtain ⟨⟨exponent, rest⟩, hexponent, heq⟩ := Option.map_eq_some_iff.mp h
    obtain ⟨-, rfl⟩ := Prod.mk.inj heq
    intro c hc
    rcases printed_or_mem_dropWhile hc with hc | hc
    · exact hc
    rcases printed_or_mem_readFraction hc with hc | hc
    · exact hc
    exact (printed_or_mem_readExponent hexponent hc).resolve_right (by simp)

theorem printed_of_readNumber {v : Value} (h : readNumber w = some (v, [])) : ∀ c ∈ w, Printed c := by
  unfold readNumber at h
  split at h
  · obtain ⟨⟨m, rest⟩, hm, heq⟩ := Option.map_eq_some_iff.mp h
    obtain ⟨-, rfl⟩ := Prod.mk.inj heq
    exact List.forall_mem_cons.mpr ⟨by decide, printed_of_readMagnitude hm⟩
  · obtain ⟨⟨m, rest⟩, hm, heq⟩ := Option.map_eq_some_iff.mp h
    obtain ⟨-, rfl⟩ := Prod.mk.inj heq
    exact printed_of_readMagnitude hm

/-- ASCII prints the numbers and the names. -/
theorem printed_of_readScalar {v : Value} (h : readScalar w = some (v, [])) : ∀ c ∈ w, Printed c := by
  rcases Option.or_eq_some_iff.mp h with hnumber | ⟨-, hname⟩
  · exact printed_of_readNumber hnumber
  · have hnames : ∀ name ∈ names, name.1.toList.all (fun c => decide (Printed c)) = true := by decide
    have hw := hnames _ (mem_names_of_readName hname)
    rw [String.toList_ofList] at hw
    simpa using hw

end

/-- Written without blanks, a value is a text that ASCII prints. -/
theorem Plain.printed_write {v : Value} (h : Plain v) (level : Nat) : ∀ c ∈ write .compact level v, Printed c := by
  induction h generalizing level with
  | null => exact printed_of_readScalar readScalar_null
  | bool b => exact printed_of_readScalar (readScalar_bool b)
  | int n => exact printed_of_readScalar (readScalar_int n)
  | real bits hnamed =>
    rw [write]
    exact printed_of_readScalar hnamed
  | text s =>
    rw [write]
    exact printed_quoted s
  | list _ ih =>
    rw [write, writeItems_eq_map]
    apply printed_bracket (by decide) (by decide)
    intro t ht
    obtain ⟨v, hv, rfl⟩ := List.mem_map.mp ht
    exact ih v hv (level + 1)
  | map _ _ ih =>
    rw [write, writeEntries_textKeys]
    apply printed_bracket (by decide) (by decide)
    intro t ht
    obtain ⟨entry, hentry, rfl⟩ := List.mem_map.mp ht
    have hcolon : Printed ':' := by decide
    simp only [writeEntry, Style.colon, List.forall_mem_append]
    exact ⟨printed_quoted _, by simpa using hcolon, ih entry hentry (level + 1)⟩

/-- Written without blanks, a value stands on one line. -/
theorem Plain.lineFeed_not_mem_write {v : Value} (h : Plain v) (level : Nat) : '\n' ∉ write .compact level v := by
  intro hmem
  exact absurd (h.printed_write level _ hmem) (by decide)

end ImportOrder.Json
