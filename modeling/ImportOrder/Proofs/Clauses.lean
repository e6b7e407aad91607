import ImportOrder.Proofs.DeclarationForms

/-!
# Import clauses as texts

What may stand between the keyword of a declaration and its specifier, character by character: identifiers of any
script, braces, commas and stars, white space of ASCII and comments, in any order. The search for the specifier walks
through such a text and arrives at what follows it. Where no identifiers run into each other matters to a reader of the
names, but not here.
-/

namespace ImportOrder.Source

/-! ## The texts -/

/-- A character of an identifier: one of ASCII, the backslash of an escape, or any other beyond ASCII that is no white
space. -/
def isIdentifierChar (c : Char) : Bool :=
  isAsciiNameRest c || c == '\\' || (decide (0x80 ≤ c.toNat) && !isBlank c)

/-- A character that stands for itself in a clause. -/
def isClauseChar (c : Char) : Bool :=
  isIdentifierChar c || isClauseMark c

/-- Identifiers, braces, commas and stars, with white space of ASCII and comments anywhere. -/
inductive ClauseText : Text → Prop
  | nil : ClauseText []
  | char {c : Char} {t : Text} : isClauseChar c = true → ClauseText t → ClauseText (c :: t)
  | blank {c : Char} {t : Text} : isBlank c = true → c.toNat < 0x80 → ClauseText t → ClauseText (c :: t)
  | line {body t : Text} : '\n' ∉ body → ClauseText t → ClauseText ('/' :: '/' :: (body ++ '\n' :: t))
  | block {body t : Text} :
      Trivia.afterClose body = some [] → ClauseText t → ClauseText ('/' :: '*' :: (body ++ t))

namespace ClauseText

theorem append {t u : Text} (ht : ClauseText t) (hu : ClauseText u) : ClauseText (t ++ u) := by
  induction ht with
  | nil => exact hu
  | char hc _ ih => exact .char hc ih
  | blank hblank hascii _ ih => exact .blank hblank hascii ih
  | @line body t hbody _ ih =>
    rw [List.cons_append, List.cons_append, List.append_assoc]
    exact .line hbody ih
  | @block body t hbody _ ih =>
    rw [List.cons_append, List.cons_append, List.append_assoc]
    exact .block hbody ih

theorem of_chars {t : Text} (h : ∀ c ∈ t, isClauseChar c = true) : ClauseText t := by
  induction t with
  | nil => exact .nil
  | cons c t ih => exact .char (h c (by simp)) (ih fun d hd => h d (by simp [hd]))

theorem of_asciiClosed {t : Text} (h : Trivia.AsciiClosed t) : ClauseText t := by
  induction h with
  | nil => exact .nil
  | blank hblank hascii _ ih => exact .blank hblank hascii ih
  | line hbody _ ih => exact .line hbody ih
  | block hbody _ ih => exact .block hbody ih

end ClauseText

/-! ## Characters -/

/-- What a clause character is not. -/
structure Inert (c : Char) : Prop extends OpensToken c where
  template : c ≠ templateMark

theorem inert_of_isClauseChar {c : Char} (h : isClauseChar c = true) : Inert c := by
  have hne : ∀ d, isClauseChar d = false → c ≠ d := by
    rintro d hd rfl
    simp [hd] at h
  have hblank : isBlank c = false := by
    rw [Bool.eq_false_iff]
    intro hblank
    have hnot := isAlphanum_of_isBlank hblank
    simp only [isClauseChar, isIdentifierChar, isAsciiNameRest, isClauseMark, hblank, hnot, Bool.not_true,
      Bool.and_false, Bool.or_false, Bool.false_or, Bool.or_eq_true, beq_iff_eq] at h
    rcases h with ((rfl | rfl) | rfl) | ((rfl | rfl) | rfl) | rfl <;> exact absurd hblank (by decide)
  refine ⟨⟨hblank, hne _ (by decide), ?_, ?_, hne _ (by decide), hne _ (by decide)⟩, hne _ (by decide)⟩
  · rw [Bool.eq_false_iff]
    intro hquote
    simp only [isQuote, Bool.or_eq_true, beq_iff_eq] at hquote
    rcases hquote with hquote | hquote
    · exact hne _ (by decide) hquote
    · exact hne _ (by decide) hquote
  · rintro (hstop | hstop)
    · exact hne _ (by decide) hstop
    · exact hne _ (by decide) hstop

/-- The code points of the white space beyond ASCII. -/
def wideBlanks : List Nat :=
  [0x85, 0xa0, 0x1680, 0x2000, 0x2001, 0x2002, 0x2003, 0x2004, 0x2005, 0x2006, 0x2007, 0x2008, 0x2009, 0x200a,
    0x2028, 0x2029, 0x202f, 0x205f, 0x3000]

theorem mem_wideBlanks {c : Char} (h : isBlank c = true) (hwide : ¬c.toNat < 0x80) : c.toNat ∈ wideBlanks := by
  simp only [isBlank, Bool.or_eq_true, decide_eq_true_eq, beq_iff_eq] at h
  simp only [wideBlanks, List.mem_cons, List.not_mem_nil, or_false]
  omega

/-- Whether all white space beyond ASCII lies outside a range. -/
def outsideRange (range : Nat × Nat) : Bool :=
  wideBlanks.all fun n => Nat.blt n range.1 || Nat.blt range.2 n

theorem has_of_outsideRange {ranges : Ranges} {c : Char} (h : ranges.toList.all outsideRange = true)
    (hc : c.toNat ∈ wideBlanks) : ranges.has c = false := by
  rw [Ranges.has, ← Array.any_toList, List.any_eq_false]
  rintro ⟨low, high⟩ hrange
  have houtside := List.all_eq_true.mp (List.all_eq_true.mp h _ hrange) _ hc
  simp only [Nat.blt_eq, Bool.or_eq_true] at houtside
  simp only [Bool.and_eq_true, decide_eq_true_eq]
  omega

-- on the lists, since the loop over an array evaluates slowly
theorem wordRanges_outside : wordRanges.toList.all outsideRange = true := by
  decide +kernel

theorem digitRanges_outside : digitRanges.toList.all outsideRange = true := by
  decide +kernel

/-- White space of any kind is neither a letter nor a digit. -/
theorem word_of_isBlank {c : Char} (h : isBlank c = true) : isWord c = false ∧ isDecimal c = false := by
  by_cases hascii : c.toNat < 0x80
  · have hnot := isAlphanum_of_isBlank h
    have hline : c ≠ '_' := by
      rintro rfl
      exact absurd h (by decide)
    have hdigit : c.isDigit = false := by
      simp only [Char.isAlphanum, Bool.or_eq_false_iff] at hnot
      exact hnot.2
    simp [isWord, isDecimal, hascii, hnot, hline, hdigit]
  · have hwide := mem_wideBlanks h hascii
    simp [isWord, isDecimal, hascii, has_of_outsideRange wordRanges_outside hwide,
      has_of_outsideRange digitRanges_outside hwide]

theorem isNumberRest_of_isBlank {c : Char} (h : isBlank c = true) : isNumberRest c = false := by
  have hpoint : c ≠ '.' := by
    rintro rfl
    exact absurd h (by decide)
  simp [isNumberRest, (word_of_isBlank h).1, hpoint]

/-! ## Words -/

/-- A text at which every word ends. -/
def EndsWord (t : Text) : Prop :=
  ∀ c ∈ t.head?, runsOn c = false

theorem EndsWord.dropWhile_eq {p : Char → Bool} (hp : ∀ c, p c = true → runsOn c = true) {t : Text}
    (h : EndsWord t) : t.dropWhile p = t := by
  cases t with
  | nil => rfl
  | cons c t =>
    have hrun := h c rfl
    have hc : ¬p c = true := by
      intro hpc
      simp [hp c hpc] at hrun
    exact List.dropWhile_cons_of_neg hc

theorem EndsWord.endsName {t : Text} (h : EndsWord t) : EndsName t := by
  intro c hc
  have hrun := h c hc
  simp only [runsOn, Bool.or_eq_false_iff] at hrun
  exact hrun.1.1.2

theorem endsWord_quote {quote : Char} (h : isQuote quote = true) (t : Text) : EndsWord (quote :: t) := by
  intro c hc
  obtain rfl : quote = c := Option.some.inj hc
  simp only [isQuote, Bool.or_eq_true, beq_iff_eq] at h
  rcases h with rfl | rfl <;> decide

theorem skip_quote {quote : Char} (h : isQuote quote = true) (t : Text) :
    Trivia.skip (quote :: t) = .reached (quote :: t) := by
  apply Trivia.skip_token
  simp only [isQuote, Bool.or_eq_true, beq_iff_eq] at h
  rcases h with rfl | rfl <;> exact ⟨by decide, fun hc => absurd hc (by decide)⟩

/-- A run of word characters ends in the clause or right behind it. -/
theorem ClauseText.exists_dropWhile {p : Char → Bool} (hp : ∀ c, p c = true → runsOn c = true)
    (hblank : ∀ c, isBlank c = true → c.toNat < 0x80 → p c = false) (hslash : p '/' = false) {t k : Text}
    (ht : ClauseText t) (hk : EndsWord k) :
    ∃ rest, ClauseText rest ∧ (t ++ k).dropWhile p = rest ++ k ∧ rest.length ≤ t.length := by
  -- a run goes on through characters only
  have hstop : ∀ c u, ClauseText (c :: u) → p c = false →
      ∃ rest, ClauseText rest ∧ (c :: u ++ k).dropWhile p = rest ++ k ∧ rest.length ≤ (c :: u).length := by
    intro c u hu hc
    exact ⟨c :: u, hu, List.dropWhile_cons_of_neg (by simp [hc]), Nat.le_refl _⟩
  induction ht with
  | nil => exact ⟨[], .nil, hk.dropWhile_eq hp, Nat.le_refl _⟩
  | @char c t hc ht ih =>
    by_cases hpc : p c = true
    · obtain ⟨rest, hrest, hdrop, hlen⟩ := ih
      refine ⟨rest, hrest, ?_, Nat.le_succ_of_le hlen⟩
      rw [List.cons_append, List.dropWhile_cons_of_pos hpc, hdrop]
    · exact hstop c t (.char hc ht) (by simpa using hpc)
  | blank hc hascii ht => exact hstop _ _ (.blank hc hascii ht) (hblank _ hc hascii)
  | line hbody ht => exact hstop _ _ (.line hbody ht) hslash
  | block hbody ht => exact hstop _ _ (.block hbody ht) hslash

/-- A token that begins in a clause ends in it or right behind it. -/
theorem ClauseText.exists_readToken [Stack] {c : Char} {t k : Text} (hc : isClauseChar c = true) (ht : ClauseText t)
    (hk : EndsWord k) (state : State) : ∃ after rest, ClauseText rest ∧
      readToken true state c (t ++ k) = .ok (after, rest ++ k) ∧ rest.length ≤ t.length := by
  have hinert := inert_of_isClauseChar hc
  have hregex : ¬(c = '/' ∧ state.last.allowsRegex = true) := fun h => hinert.slash h.1
  rw [readToken, if_neg hinert.template, readPlain, hinert.quote, if_neg (by simp), regexRest?, if_neg hregex]
  dsimp only
  rw [splitWord?, splitName?, splitNumber?_cons]
  by_cases hname : isNameStart c = true
  · obtain ⟨rest, hrest, hdrop, hlen⟩ :=
      ht.exists_dropWhile runsOn_of_isNameRest (fun _ => isNameRest_of_isBlank) (by decide) hk
    rw [if_pos hname, hdrop]
    exact ⟨_, rest, hrest, rfl, hlen⟩
  · rw [if_neg hname, Option.none_or]
    by_cases hdigit : isDecimal c = true
    · obtain ⟨rest, hrest, hdrop, hlen⟩ :=
        ht.exists_dropWhile runsOn_of_isNumberRest (fun _ h _ => isNumberRest_of_isBlank h) (by decide) hk
      rw [if_pos hdigit, hdrop]
      exact ⟨_, rest, hrest, rfl, hlen⟩
    · rw [if_neg hdigit, if_neg fun h => hinert.call.2 h.1]
      exact ⟨_, t, ht, rfl, Nat.le_refl _⟩

/-! ## The search for the specifier -/

section

variable {whole t t' rest : Text} {state : State} {c : Char}

/-- Trivia in front is of no account to the search. -/
theorem findSpecifier_of_skip_eq [Stack] (h : Trivia.skip t = Trivia.skip t') :
    findSpecifier whole state t = findSpecifier whole state t' := by
  cases hskip : Trivia.skip t with
  | unclosed comment => rw [findSpecifier_unclosed hskip, findSpecifier_unclosed (h.symm.trans hskip)]
  | reached found =>
    have hskip' := h.symm.trans hskip
    cases found with
    | nil => rw [findSpecifier_end hskip, findSpecifier_end hskip']
    | cons c rest =>
      by_cases hquote : isQuote c = true
      · rw [findSpecifier_quote hskip hquote, findSpecifier_quote hskip' hquote]
      · rw [Bool.not_eq_true] at hquote
        by_cases hstop : c = '=' ∨ c = ';'
        · rw [findSpecifier_stop hskip hstop, findSpecifier_stop hskip' hstop]
        · rw [findSpecifier_read hskip hquote hstop, findSpecifier_read hskip' hquote hstop]

end

/-- A clause is trivia, or it has a first character behind trivia. -/
theorem ClauseText.first {t : Text} (ht : ClauseText t) :
    Trivia.Closed t ∨ ∃ g c u, t = g ++ c :: u ∧ Trivia.Closed g ∧ isClauseChar c = true ∧ ClauseText u := by
  induction ht with
  | nil => exact .inl .nil
  | @char c t hc ht _ => exact .inr ⟨[], c, t, rfl, .nil, hc, ht⟩
  | @blank d t hblank _ _ ih =>
    rcases ih with ht | ⟨g, c, u, rfl, hg, hc, hu⟩
    · exact .inl (.blank hblank ht)
    · exact .inr ⟨d :: g, c, u, rfl, .blank hblank hg, hc, hu⟩
  | @line body t hbody _ ih =>
    rcases ih with ht | ⟨g, c, u, rfl, hg, hc, hu⟩
    · exact .inl (.line hbody ht)
    · exact .inr ⟨'/' :: '/' :: (body ++ '\n' :: g), c, u, by simp, .line hbody hg, hc, hu⟩
  | @block body t hbody _ ih =>
    rcases ih with ht | ⟨g, c, u, rfl, hg, hc, hu⟩
    · exact .inl (.block hbody ht)
    · exact .inr ⟨'/' :: '*' :: (body ++ g), c, u, by simp, .block hbody hg, hc, hu⟩

theorem skip_clauseChar {g u : Text} {c : Char} (hg : Trivia.Closed g) (hc : isClauseChar c = true) :
    Trivia.skip (g ++ c :: u) = .reached (c :: u) := by
  have hinert := inert_of_isClauseChar hc
  rw [hg.skip_append]
  exact Trivia.skip_token ⟨hinert.blank, fun h => absurd h hinert.slash⟩

/-- The search for the specifier goes through a clause and on to what follows it. -/
theorem ClauseText.findSpecifier_append [Stack] {t k : Text} (ht : ClauseText t) (hk : EndsWord k) (whole : Text)
    (state : State) : ∃ state', findSpecifier whole state (t ++ k) = findSpecifier whole state' k := by
  -- a token takes any number of characters, so the induction is on the length
  induction hlen : t.length using Nat.strong_induction_on generalizing t state with
  | _ n ih =>
    rcases ht.first with hclosed | ⟨g, c, u, rfl, hg, hc, hu⟩
    · exact ⟨state, findSpecifier_of_skip_eq (hclosed.skip_append k)⟩
    · have hinert := inert_of_isClauseChar hc
      obtain ⟨after, rest, hrest, hread, hle⟩ := hu.exists_readToken hc hk state
      rw [List.append_assoc, List.cons_append,
        findSpecifier_token (skip_clauseChar hg hc) hinert.quote hinert.stop hread]
      rw [List.length_append, List.length_cons] at hlen
      exact ih rest.length (by omega) hrest after rfl

/-- Behind a clause stands what follows it, or else the first character of the clause, which is no call and no member
access. -/
theorem ClauseText.drop_cases {t : Text} (ht : ClauseText t) (k : Text) :
    Trivia.drop (t ++ k) = Trivia.drop k ∨
      ∃ c u, Trivia.drop (t ++ k) = c :: u ∧ c ≠ '(' ∧ c ≠ '.' := by
  rcases ht.first with hclosed | ⟨g, c, u, rfl, hg, hc, -⟩
  · exact .inl (hclosed.drop_append k)
  · refine .inr ⟨c, u ++ k, ?_, (inert_of_isClauseChar hc).call⟩
    rw [List.append_assoc, List.cons_append]
    exact Trivia.drop_eq_cons_iff.mpr (skip_clauseChar hg hc)

end ImportOrder.Source
