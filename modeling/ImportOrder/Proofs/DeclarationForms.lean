import ImportOrder.Proofs.EditedSource

/-!
# Written declarations

A grammar of import declarations, from the side of the writer: the keyword, a clause of names, braces, commas and
stars, the word `from`, and a quoted specifier, with white space and comments wherever they may stand. Every declaration
that is written so is read back, with the text it was written with and the path that its specifier stands for.
-/

namespace ImportOrder

/-! ## The grammar -/

namespace Trivia

/-- White space of ASCII and comments, each comment with its end. -/
inductive AsciiClosed : Text → Prop
  | nil : AsciiClosed []
  | blank {c : Char} {g : Text} : isBlank c = true → c.toNat < 0x80 → AsciiClosed g → AsciiClosed (c :: g)
  | line {body g : Text} : '\n' ∉ body → AsciiClosed g → AsciiClosed ('/' :: '/' :: (body ++ '\n' :: g))
  | block {body g : Text} :
      afterClose body = some [] → AsciiClosed g → AsciiClosed ('/' :: '*' :: (body ++ g))

theorem AsciiClosed.closed {g : Text} (h : AsciiClosed g) : Closed g := by
  induction h with
  | nil => exact .nil
  | blank hblank _ _ ih => exact .blank hblank ih
  | line hbody _ ih => exact .line hbody ih
  | block hbody _ ih => exact .block hbody ih

end Trivia

namespace Source

/-- What stands between two tokens of a declaration. -/
structure Separator where
  text : Text
  closed : Trivia.AsciiClosed text

/-- An ASCII character that may begin an identifier. -/
def isAsciiNameStart (c : Char) : Bool :=
  c.isAlpha || c == '_' || c == '$'

/-- An ASCII character that may continue an identifier. -/
def isAsciiNameRest (c : Char) : Bool :=
  c.isAlphanum || c == '_' || c == '$'

/-- An identifier of ASCII characters. -/
structure AsciiName where
  first : Char
  rest : Text
  first_start : isAsciiNameStart first = true
  rest_name : ∀ c ∈ rest, isAsciiNameRest c = true

def AsciiName.text (name : AsciiName) : Text :=
  name.first :: name.rest

/-- The keyword as an identifier. -/
def AsciiName.keyword : AsciiName :=
  ⟨'i', "mport".toList, by decide, List.all_eq_true.mp (by decide)⟩

/-- The word before the specifier. -/
def AsciiName.fromWord : AsciiName :=
  ⟨'f', "rom".toList, by decide, List.all_eq_true.mp (by decide)⟩

/-- The marks of an import clause: braces, commas and stars. -/
def isClauseMark (c : Char) : Bool :=
  c == '\x7b' || c == '\x7d' || c == ',' || c == '*'

/-- A token of an import clause. -/
inductive ClauseToken where
  | name (name : AsciiName)
  | mark (c : Char) (h : isClauseMark c = true)

namespace ClauseToken

def text : ClauseToken → Text
  | name n => n.text
  | mark c _ => [c]

def isName : ClauseToken → Bool
  | name _ => true
  | mark _ _ => false

end ClauseToken

/-- The tokens of a clause, each behind its separator. -/
abbrev Clause := List (Separator × ClauseToken)

namespace Clause

def text (clause : Clause) : Text :=
  clause.flatMap fun item => item.1.text ++ item.2.text

/-- Two names next to each other have something between them; `afterName` tells whether a name stands before. -/
def Apart (afterName : Bool) : Clause → Prop
  | [] => True
  | (separator, token) :: rest =>
    (afterName = true → token.isName = true → separator.text ≠ []) ∧ Apart token.isName rest

end Clause

/-- A specifier's content for a path: a backslash before each backslash, quote and line feed. -/
def escape (quote : Char) (path : Text) : Text :=
  path.flatMap fun c => if c = '\\' ∨ c = quote ∨ c = '\n' then ['\\', c] else [c]

/-- What an import declaration brings in: nothing but the module, or a clause and the word `from` behind it. -/
inductive Bindings where
  | bare
  | clause (clause : Clause) (separator : Separator)

/-- The tokens between the keyword and the specifier. -/
def Bindings.tokens : Bindings → Clause
  | bare => []
  | clause items separator => items ++ [(separator, .name .fromWord)]

/-- An import declaration as it is written. -/
structure DeclarationForm where
  bindings : Bindings
  apart : bindings.tokens.Apart true
  separator : Separator
  quote : Char
  quote_isQuote : isQuote quote = true
  path : Text
  semicolon : Bool

namespace DeclarationForm

/-- What follows the specifier. -/
def ending (form : DeclarationForm) : Text :=
  if form.semicolon then [';'] else []

/-- The text behind the keyword. -/
def body (form : DeclarationForm) : Text :=
  form.bindings.tokens.text ++
    (form.separator.text ++ form.quote :: (escape form.quote form.path ++ form.quote :: form.ending))

def text (form : DeclarationForm) : Text :=
  importWord ++ form.body

end DeclarationForm

/-! ## Characters -/

theorem isAlphanum_iff {c : Char} : c.isAlphanum = true ↔
    (65 ≤ c.toNat ∧ c.toNat ≤ 90) ∨ (97 ≤ c.toNat ∧ c.toNat ≤ 122) ∨ (48 ≤ c.toNat ∧ c.toNat ≤ 57) := by
  show ((decide ('A'.val ≤ c.val ∧ c.val ≤ 'Z'.val) || (decide ('a'.val ≤ c.val) && decide (c.val ≤ 'z'.val))) ||
    (decide ('0'.val ≤ c.val) && decide (c.val ≤ '9'.val))) = true ↔ _
  simp only [Bool.or_eq_true, Bool.and_eq_true, decide_eq_true_eq, UInt32.le_iff_toNat_le, or_assoc]
  rfl

theorem isAlphanum_of_isBlank {c : Char} (h : isBlank c = true) : c.isAlphanum = false := by
  rw [Bool.eq_false_iff, Ne, isAlphanum_iff]
  simp only [isBlank, Bool.or_eq_true, decide_eq_true_eq, beq_iff_eq] at h
  omega

theorem isNameStart_of_ascii {c : Char} (h : isAsciiNameStart c = true) : isNameStart c = true := by
  unfold isNameStart
  rw [show c.isAlpha || c == '_' || c == '$' from h, Bool.true_or]

theorem isBlank_of_ascii {c : Char} (h : isAsciiNameStart c = true) : isBlank c = false := by
  rw [Bool.eq_false_iff]
  intro hblank
  have hnot := isAlphanum_of_isBlank hblank
  simp only [isAsciiNameStart, Bool.or_eq_true, beq_iff_eq] at h
  rcases h with (h | rfl) | rfl
  · simp [Char.isAlphanum, h] at hnot
  · exact absurd hblank (by decide)
  · exact absurd hblank (by decide)

theorem isNameRest_of_ascii {c : Char} (h : isAsciiNameRest c = true) : isNameRest c = true := by
  simp only [isAsciiNameRest, Bool.or_eq_true, beq_iff_eq] at h
  rcases h with (h | rfl) | rfl
  · have hascii : c.toNat < 0x80 := by
      rw [isAlphanum_iff] at h
      omega
    simp [isNameRest, isWord, hascii, h]
  · decide
  · decide

/-- No identifier runs on into white space of ASCII. -/
theorem isNameRest_of_isBlank {c : Char} (h : isBlank c = true) (hascii : c.toNat < 0x80) :
    isNameRest c = false := by
  have hnot := isAlphanum_of_isBlank h
  have hdollar : c ≠ '$' := by
    rintro rfl
    exact absurd h (by decide)
  have hline : c ≠ '_' := by
    rintro rfl
    exact absurd h (by decide)
  have hbasic : isBasicNonAscii c = false := by
    unfold isBasicNonAscii
    rw [decide_eq_false_iff_not]
    omega
  simp [isNameRest, isWord, hascii, hnot, hdollar, hline, hbasic]

/-! ## Separators -/

/-- A text at which an identifier ends. -/
def EndsName (t : Text) : Prop :=
  ∀ c ∈ t.head?, isNameRest c = false

theorem Separator.endsName (separator : Separator) {t : Text} (h : separator.text = [] → EndsName t) :
    EndsName (separator.text ++ t) := by
  obtain ⟨text, hclosed⟩ := separator
  dsimp only at h ⊢
  cases hclosed with
  | nil => exact h rfl
  | blank hblank hascii _ =>
    intro c hc
    obtain rfl := Option.some.inj hc
    exact isNameRest_of_isBlank hblank hascii
  | line =>
    intro c hc
    obtain rfl := Option.some.inj hc
    decide
  | block =>
    intro c hc
    obtain rfl := Option.some.inj hc
    decide

/-! ## Tokens -/

theorem AsciiName.splitName?_append (name : AsciiName) {t : Text} (h : EndsName t) :
    splitName? (name.text ++ t) = some (name.text, t) := by
  have hrest : ∀ c ∈ name.rest, isNameRest c = true := fun c hc => isNameRest_of_ascii (name.rest_name c hc)
  have hnil : t.takeWhile isNameRest = [] ∧ t.dropWhile isNameRest = t := by
    cases t with
    | nil => exact ⟨rfl, rfl⟩
    | cons c t =>
      have hc := h c rfl
      simp [hc]
  rw [AsciiName.text, List.cons_append, splitName?, if_pos (isNameStart_of_ascii name.first_start),
    List.takeWhile_append_of_pos hrest, List.dropWhile_append_of_pos hrest, hnil.1, hnil.2, List.append_nil]

/-- The first character of a token of a clause: it opens no comment, no specifier, and ends no declaration. -/
structure OpensToken (c : Char) : Prop where
  blank : isBlank c = false
  slash : c ≠ '/'
  quote : isQuote c = false
  stop : ¬(c = '=' ∨ c = ';')
  call : c ≠ '(' ∧ c ≠ '.'

theorem opensToken_of_ascii {c : Char} (h : isAsciiNameStart c = true) : OpensToken c := by
  have hne : ∀ d, isAsciiNameStart d = false → c ≠ d := by
    rintro d hd rfl
    simp [hd] at h
  refine ⟨isBlank_of_ascii h, hne _ (by decide), isQuote_of_isNameStart (isNameStart_of_ascii h), ?_,
    hne _ (by decide), hne _ (by decide)⟩
  rintro (hc | hc)
  · exact hne _ (by decide) hc
  · exact hne _ (by decide) hc

theorem opensToken_of_mark {c : Char} (h : isClauseMark c = true) : OpensToken c := by
  simp only [isClauseMark, Bool.or_eq_true, beq_iff_eq] at h
  rcases h with ((rfl | rfl) | rfl) | rfl <;>
    exact ⟨by decide, by decide, by decide, by decide, by decide⟩

theorem readToken_mark [Stack] {strict : Bool} {state : State} {c : Char} (h : isClauseMark c = true) (t : Text) :
    readToken strict state c t = .ok (⟨depthAfter state.depth c, .mark c⟩, t) := by
  have hopens := opensToken_of_mark h
  obtain ⟨htemplate, hname, hdigit⟩ : c ≠ templateMark ∧ isNameStart c = false ∧ isDecimal c = false := by
    simp only [isClauseMark, Bool.or_eq_true, beq_iff_eq] at h
    rcases h with ((rfl | rfl) | rfl) | rfl <;> decide
  have hregex : ¬(c = '/' ∧ state.last.allowsRegex = true) := fun hc => hopens.slash hc.1
  have hword : splitWord? (c :: t) = none := by
    rw [splitWord?, splitName?, hname, if_neg (by simp), splitNumber?_cons]
    simp [hdigit, hopens.call.2]
  rw [readToken, if_neg htemplate, readPlain, hopens.quote, if_neg (by simp), regexRest?, if_neg hregex]
  dsimp only
  rw [hword]

/-- A token of a clause is read as one token, where a name does not run on. -/
theorem ClauseToken.read [Stack] (token : ClauseToken) (state : State) {t : Text}
    (h : token.isName = true → EndsName t) :
    ∃ c rest after, token.text ++ t = c :: rest ∧ OpensToken c ∧ readToken true state c rest = .ok (after, t) := by
  cases token with
  | name n =>
    have hsplit := n.splitName?_append (h rfl)
    exact ⟨n.first, n.rest ++ t, _, rfl, opensToken_of_ascii n.first_start, readToken_name hsplit⟩
  | mark c hc => exact ⟨c, t, _, rfl, opensToken_of_mark hc, readToken_mark hc t⟩

theorem ClauseToken.endsName {token : ClauseToken} (h : token.isName = false) (t : Text) :
    EndsName (token.text ++ t) := by
  cases token with
  | name n => simp [isName] at h
  | mark c hc =>
    intro d hd
    obtain rfl : c = d := Option.some.inj hd
    simp only [isClauseMark, Bool.or_eq_true, beq_iff_eq] at hc
    rcases hc with ((rfl | rfl) | rfl) | rfl <;> decide

/-! ## Clauses -/

section

variable {clause : Clause} {afterName : Bool} {t : Text}

theorem Clause.text_cons (separator : Separator) (token : ClauseToken) (clause : Clause) (t : Text) :
    Clause.text ((separator, token) :: clause) ++ t =
      separator.text ++ (token.text ++ (Clause.text clause ++ t)) := by
  simp [Clause.text]

/-- A name ends before a clause that is kept apart from it. -/
theorem Clause.Apart.endsName (h : clause.Apart true) (ht : EndsName t) : EndsName (clause.text ++ t) := by
  cases clause with
  | nil => exact ht
  | cons item rest =>
    obtain ⟨separator, token⟩ := item
    rw [Clause.text_cons]
    apply separator.endsName
    intro hnil
    -- without a separator the token is no name
    cases hname : token.isName with
    | true => exact absurd hnil (h.1 rfl hname)
    | false => exact token.endsName hname _

/-- The first token of a clause, and how the rest is read behind it. -/
theorem Clause.Apart.skip_cons [Stack] {separator : Separator} {token : ClauseToken}
    (h : Clause.Apart afterName ((separator, token) :: clause)) (ht : EndsName t) (state : State) :
    ∃ c rest after, Trivia.skip (Clause.text ((separator, token) :: clause) ++ t) = .reached (c :: rest) ∧
      OpensToken c ∧ readToken true state c rest = .ok (after, clause.text ++ t) := by
  have hends : token.isName = true → EndsName (clause.text ++ t) := by
    intro hname
    have hapart := h.2
    rw [hname] at hapart
    exact hapart.endsName ht
  obtain ⟨c, rest, after, htext, hopens, hread⟩ := token.read state hends
  refine ⟨c, rest, after, ?_, hopens, hread⟩
  rw [Clause.text_cons, separator.closed.closed.skip_append, htext]
  exact Trivia.skip_token ⟨hopens.blank, fun hslash => absurd hslash hopens.slash⟩

section

variable {quote : Char} (hquote : isQuote quote = true) (separator : Separator) (content : Text)

include hquote

theorem Separator.endsName_quote : EndsName (separator.text ++ quote :: content) := by
  apply separator.endsName
  rintro - c hc
  obtain rfl : quote = c := Option.some.inj hc
  simp only [isQuote, Bool.or_eq_true, beq_iff_eq] at hquote
  rcases hquote with rfl | rfl <;> decide

theorem Separator.skip_quote :
    Trivia.skip (separator.text ++ quote :: content) = .reached (quote :: content) := by
  have hstart : isBlank quote = false ∧ quote ≠ '/' := by
    simp only [isQuote, Bool.or_eq_true, beq_iff_eq] at hquote
    rcases hquote with rfl | rfl <;> decide
  rw [separator.closed.closed.skip_append]
  exact Trivia.skip_token ⟨hstart.1, fun hc => absurd hc hstart.2⟩

/-- The specifier is found behind the clause. -/
theorem Clause.Apart.findSpecifier_eq [Stack] {whole : Text} (h : clause.Apart afterName) (state : State) :
    findSpecifier whole state (clause.text ++ (separator.text ++ quote :: content)) =
      .ok (some (quote :: content)) := by
  induction clause generalizing afterName state with
  | nil => exact findSpecifier_quote (separator.skip_quote hquote content) hquote
  | cons item rest ih =>
    obtain ⟨separator', token⟩ := item
    obtain ⟨c, u, after, hskip, hopens, hread⟩ := h.skip_cons (separator.endsName_quote hquote content) state
    rw [findSpecifier_token hskip hopens.quote hopens.stop hread]
    exact ih h.2 after

/-- Neither a call nor a member access follows the keyword. -/
theorem Clause.Apart.exists_drop [Stack] (h : clause.Apart afterName) :
    ∃ c rest, Trivia.drop (clause.text ++ (separator.text ++ quote :: content)) = c :: rest ∧
      c ≠ '(' ∧ c ≠ '.' := by
  cases clause with
  | nil =>
    refine ⟨quote, content, Trivia.drop_eq_cons_iff.mpr (separator.skip_quote hquote content), ?_⟩
    simp only [isQuote, Bool.or_eq_true, beq_iff_eq] at hquote
    rcases hquote with rfl | rfl <;> decide
  | cons item rest =>
    obtain ⟨separator', token⟩ := item
    obtain ⟨c, u, -, hskip, hopens, -⟩ :=
      h.skip_cons (separator.endsName_quote hquote content) State.initial
    exact ⟨c, u, Trivia.drop_eq_cons_iff.mpr hskip, hopens.call⟩

end

end

/-! ## Specifiers -/

theorem escape_cons (quote c : Char) (path : Text) :
    escape quote (c :: path) =
      (if c = '\\' ∨ c = quote ∨ c = '\n' then ['\\', c] else [c]) ++ escape quote path := by
  rw [escape, List.flatMap_cons]
  rfl

theorem unescape_plain {c : Char} (hc : c ≠ '\\') (t : Text) : unescape (c :: t) = c :: unescape t := by
  rw [unescape]
  · intro hback
    exact absurd hback hc
  · intro d rest hback
    exact absurd hback hc

theorem unescape_escape (quote : Char) (path : Text) : unescape (escape quote path) = path := by
  induction path with
  | nil => rfl
  | cons c path ih =>
    rw [escape_cons]
    split
    · show unescape ('\\' :: c :: escape quote path) = c :: path
      rw [unescape, ih]
    · rename_i hplain
      show unescape (c :: escape quote path) = c :: path
      rw [unescape_plain (fun hc => hplain (.inl hc)), ih]

/-- An escaped path is read up to the quote behind it. -/
theorem readString_escape_append {quote : Char} (hquote : isQuote quote = true) (path rest : Text) :
    readString quote (escape quote path ++ quote :: rest) = .closed rest := by
  have hback : quote ≠ '\\' := by
    rintro rfl
    exact absurd hquote (by decide)
  induction path with
  | nil =>
    show readString quote (quote :: rest) = .closed rest
    rw [readString_plain hback, if_pos rfl]
  | cons c path ih =>
    rw [escape_cons, List.append_assoc]
    split
    · show readString quote ('\\' :: c :: (escape quote path ++ quote :: rest)) = .closed rest
      rw [readString_escape, ih]
    · rename_i hplain
      show readString quote (c :: (escape quote path ++ quote :: rest)) = .closed rest
      rw [readString_plain (fun hc => hplain (.inl hc)), if_neg (fun hc => hplain (.inr (.inl hc))),
        if_neg (fun hc => hplain (.inr (.inr hc))), ih]

/-! ## Declarations -/

/-- A declaration takes nothing of this text for its attributes or for its semicolon. -/
structure Unclaimed (t : Text) : Prop where
  attributes : skipAttributes t = .ok t
  semicolon : skipSemicolon t = t

namespace DeclarationForm

variable (form : DeclarationForm)

theorem text_append (k : Text) : form.text ++ k = importWord ++ (form.bindings.tokens.text ++
    (form.separator.text ++
      form.quote :: (escape form.quote form.path ++ form.quote :: (form.ending ++ k)))) := by
  simp [text, body]

theorem skip_ending {k : Text} (hk : form.semicolon = false → Unclaimed k) :
    (skipAttributes (form.ending ++ k)).map skipSemicolon = .ok k := by
  unfold ending
  cases hsemicolon : form.semicolon with
  | false =>
    show (skipAttributes k).map skipSemicolon = .ok k
    rw [(hk hsemicolon).attributes, Except.map, (hk hsemicolon).semicolon]
  | true =>
    show (skipAttributes (';' :: k)).map skipSemicolon = .ok k
    have hstart : Trivia.StartsToken ';' k := ⟨by decide, fun hc => absurd hc (by decide)⟩
    have hname : splitName? (Trivia.drop (';' :: k)) = none := by
      rw [Trivia.drop_token hstart]
      rfl
    rw [skipAttributes_of_not_name hname, Except.map]
    exact congrArg Except.ok (skipSemicolon_blanks (b := []) (by simp) k)

theorem readDeclaration_eq [Stack] {k : Text} (hk : form.semicolon = false → Unclaimed k) :
    readDeclaration (form.text ++ k) = .ok (some (form.path, k)) := by
  have hfind : findSpecifier (form.text ++ k) ⟨0, .word importWord⟩ ((form.text ++ k).drop importWord.length) =
      .ok (some (form.quote :: (escape form.quote form.path ++ form.quote :: (form.ending ++ k)))) := by
    rw [form.text_append, List.drop_left]
    exact form.apart.findSpecifier_eq form.quote_isQuote form.separator _ _
  have hread := readString_escape_append form.quote_isQuote form.path (form.ending ++ k)
  rw [readDeclaration_of_parts hfind hread, Text.before_append, unescape_escape]
  have hending := form.skip_ending hk
  cases hattributes : skipAttributes (form.ending ++ k) with
  | error fault => simp [hattributes, Except.map] at hending
  | ok after =>
    rw [hattributes] at hending
    rw [Except.map, Except.ok.inj hending]

/-- The keyword, and what stands behind it. -/
theorem exists_splitName? [Stack] (k : Text) : ∃ rest c u, splitName? (form.text ++ k) = some (importWord, rest) ∧
    Trivia.drop rest = c :: u ∧ c ≠ '(' ∧ c ≠ '.' := by
  rw [form.text_append]
  generalize escape form.quote form.path ++ form.quote :: (form.ending ++ k) = content
  have hends := form.apart.endsName (form.separator.endsName_quote form.quote_isQuote content)
  obtain ⟨c, u, hdrop, hcall⟩ := form.apart.exists_drop form.quote_isQuote form.separator content
  exact ⟨_, c, u, AsciiName.keyword.splitName?_append hends, hdrop, hcall⟩

/-- A written declaration is read where a declaration may stand, before any text that does not continue it. -/
theorem declarationAt_eq [Stack] {k : Text} (hk : form.semicolon = false → Unclaimed k) {state : State}
    (hdepth : state.depth = 0) (hlast : state.last ≠ .mark '.') :
    declarationAt state (form.text ++ k) = .ok (some (form.path, k)) := by
  obtain ⟨rest, c, u, hname, hdrop, hcall⟩ := form.exists_splitName? k
  have hat : atDeclaration state (form.text ++ k) = true :=
    atDeclaration_iff.mpr ⟨rest, c, u, hname, hdepth, hlast, hdrop, hcall⟩
  exact declarationAt_some_iff.mpr ⟨hat, form.readDeclaration_eq hk⟩

theorem head?_text (k : Text) : (form.text ++ k).head? = some 'i' := by
  rw [form.text_append]
  rfl

theorem drop_text (k : Text) : Trivia.drop (form.text ++ k) = form.text ++ k :=
  Plan.drop_of_head (form.head?_text k)

end DeclarationForm

theorem skipAttributes_of_name {t word rest : Text} (hname : splitName? (Trivia.drop t) = some (word, rest))
    (hword : attributeWords.contains word = false) : skipAttributes t = .ok t := by
  rw [skipAttributes, hname]
  dsimp only
  rw [hword, if_neg (by simp)]

/-- Before another declaration on a later line, nothing is taken. -/
theorem unclaimed_of_text [Stack] {gap k : Text} {form : DeclarationForm} (hgap : Trivia.Closed gap)
    (hcloses : Plan.ClosesLine (gap ++ (form.text ++ k))) : Unclaimed (gap ++ (form.text ++ k)) := by
  refine ⟨?_, hcloses.skipSemicolon_eq⟩
  obtain ⟨rest, -, -, hname, -⟩ := form.exists_splitName? k
  have hdrop : Trivia.drop (gap ++ (form.text ++ k)) = form.text ++ k := by
    rw [hgap.drop_append, form.drop_text]
  rw [← hdrop] at hname
  exact skipAttributes_of_name hname (by decide)

/-! ## Declarations one behind another -/

/-- Declarations, each with the text between it and the next. -/
abbrev Rows := List (DeclarationForm × Text)

namespace Rows

/-- The text of the rows before `tail`. -/
def text (tail : Text) : Rows → Text
  | [] => tail
  | (form, gap) :: rest => form.text ++ (gap ++ text tail rest)

/-- What is read in the rows before `tail`. -/
def sections (tail : Text) : Rows → List Section
  | [] => []
  | (form, gap) :: rest =>
    Plan.declared (some form.path) (text tail ((form, gap) :: rest)) (gap ++ text tail rest) :: sections tail rest

/-- The gaps are trivia, and no declaration takes anything of what follows it. -/
def Settled (tail : Text) : Rows → Prop
  | [] => True
  | (_, gap) :: rest =>
    Trivia.Closed gap ∧ Unclaimed (gap ++ text tail rest) ∧ Settled tail rest

end Rows

/-- Trivia in front of the first statement is of no account. -/
theorem Outline.of_drop_eq [Stack] {state : State} {t t' : Text} {sections : List Section}
    (h : Outline state t sections) (hdrop : Trivia.drop t' = Trivia.drop t) : Outline state t' sections := by
  cases h with
  | done hdrop' => exact .done (hdrop.trans hdrop')
  | declaration hdrop' hdecl hrest => exact .declaration (hdrop.trans hdrop') hdecl hrest
  | code hdrop' hne hrun hnext hrest => exact .code (hdrop.trans hdrop') hne hrun hnext hrest

/-- Rows are read one by one; behind the last of them reading goes on as behind a semicolon. -/
theorem Rows.outline [Stack] {rows : Rows} {tail t : Text} {sections : List Section} {state : State}
    (hrows : rows.Settled tail) (hne : rows ≠ []) (htail : Outline ⟨0, .mark ';'⟩ tail sections)
    (hdepth : state.depth = 0) (hlast : state.last ≠ .mark '.')
    (ht : Trivia.drop t = Trivia.drop (rows.text tail)) :
    Outline state t (rows.sections tail ++ sections) := by
  induction rows generalizing state t with
  | nil => exact absurd rfl hne
  | cons row rest ih =>
    obtain ⟨form, gap⟩ := row
    obtain ⟨hgap, hunclaimed, hrest⟩ := hrows
    rw [Rows.text, form.drop_text] at ht
    refine .declaration ht (form.declarationAt_eq (fun _ => hunclaimed) hdepth hlast) ?_
    rw [hdepth]
    have hdrop : Trivia.drop (gap ++ Rows.text tail rest) = Trivia.drop (Rows.text tail rest) :=
      hgap.drop_append _
    cases rest with
    | nil => exact htail.of_drop_eq hdrop
    | cons next rest => exact ih hrest (by simp) rfl (by decide) hdrop

theorem Rows.contents_sections (rows : Rows) (tail : Text) :
    (rows.sections tail).map (fun s => (s.piece.text, s.piece.path)) =
      rows.map fun row => (row.1.text, some row.1.path) := by
  induction rows with
  | nil => rfl
  | cons row rest ih =>
    obtain ⟨form, gap⟩ := row
    rw [Rows.sections, List.map_cons, ih, Plan.declared, Piece.text, Rows.text, Text.before_append]
    rfl

/-- Rows can be read from the beginning of a source. -/
theorem Rows.parse [Stack] {rows : Rows} {tail : Text} {sections : List Section} (hrows : rows.Settled tail)
    (hne : rows ≠ []) (htail : Outline ⟨0, .mark ';'⟩ tail sections) :
    ∃ document, Document.parse (rows.text tail) = .ok document ∧ document.statements =
      (rows.sections tail ++ sections).map fun s => Document.statementIn (rows.text tail) s.piece := by
  apply Document.parse_of_outline
  have hhead : (rows.text tail).head? = some 'i' := by
    obtain ⟨row, rest, rfl⟩ := List.exists_cons_of_ne_nil hne
    exact row.1.head?_text _
  have hline : ¬['#', '!'] <+: rows.text tail := by
    rintro ⟨rest, hrest⟩
    rw [← hrest] at hhead
    simp at hhead
  rw [dropInterpreterLine_eq_self hline]
  exact Rows.outline hrows hne htail rfl (by decide) rfl

/-- Declarations on lines of their own. -/
def Rows.ofLines : List DeclarationForm → Rows
  | [] => []
  | [form] => [(form, [])]
  | form :: next :: rest => (form, ['\n']) :: ofLines (next :: rest)

theorem Rows.text_ofLines (forms : List DeclarationForm) :
    (Rows.ofLines forms).text [] = Text.joinWith ['\n'] (forms.map DeclarationForm.text) := by
  induction forms with
  | nil => rfl
  | cons form rest ih =>
    cases rest with
    | nil => exact List.append_nil _
    | cons next rest =>
      rw [ofLines, text, ih]
      exact (List.append_assoc _ _ _).symm

theorem Rows.settled_ofLines [Stack] (forms : List DeclarationForm) : (Rows.ofLines forms).Settled [] := by
  induction forms with
  | nil => trivial
  | cons form rest ih =>
    cases rest with
    | nil =>
      have hname : splitName? (Trivia.drop []) = none := by
        rw [Trivia.drop_nil]
        rfl
      exact ⟨.nil, ⟨skipAttributes_of_not_name hname, rfl⟩, trivial⟩
    | cons next rest =>
      have hbreak : Trivia.Closed ['\n'] := .blank (by decide) .nil
      refine ⟨hbreak, ?_, ih⟩
      obtain ⟨k, hk⟩ : ∃ k, (ofLines (next :: rest)).text [] = next.text ++ k := by
        cases rest with
        | nil => exact ⟨_, rfl⟩
        | cons next' rest => exact ⟨_, rfl⟩
      rw [hk]
      exact unclaimed_of_text hbreak (Plan.closesLine_newline (.inr rfl) _)

theorem Rows.map_fst_ofLines (forms : List DeclarationForm) : (Rows.ofLines forms).map Prod.fst = forms := by
  induction forms with
  | nil => rfl
  | cons form rest ih =>
    cases rest with
    | nil => rfl
    | cons next rest => rw [ofLines, List.map_cons, ih]

end Source

/-- Declarations on lines of their own are read back: these and no others, in their order, each with its text and
with the path that its specifier stands for. -/
theorem Document.parse_declarations [Stack] (forms : List Source.DeclarationForm) :
    ∃ document, parse (Text.joinWith ['\n'] (forms.map Source.DeclarationForm.text)) = .ok document ∧
      document.statements.map (fun s => (s.text, s.path)) =
        forms.map fun form => (form.text, some form.path) := by
  rw [← Source.Rows.text_ofLines]
  have hforms := Source.Rows.map_fst_ofLines forms
  have hsettled := Source.Rows.settled_ofLines forms
  generalize Source.Rows.ofLines forms = rows at hforms hsettled
  by_cases hne : rows = []
  · subst hne
    have hnone : Source.Outline Source.State.initial (Source.dropInterpreterLine []) [] := .done Trivia.drop_nil
    obtain ⟨document, hparse, hstatements⟩ := parse_of_outline hnone
    refine ⟨document, hparse, ?_⟩
    rw [hstatements, ← hforms]
    rfl
  · have hend : Source.Outline ⟨0, .mark ';'⟩ [] [] := .done Trivia.drop_nil
    obtain ⟨document, hparse, hstatements⟩ := Source.Rows.parse hsettled hne hend
    refine ⟨document, hparse, ?_⟩
    rw [hstatements, List.append_nil, List.map_map, ← hforms, List.map_map]
    exact Source.Rows.contents_sections rows []

end ImportOrder
