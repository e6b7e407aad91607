import ImportOrder.Proofs.Truncation
import ImportOrder.Runtime

/-!
# String literals between braces

An import declaration has two pairs of braces in which string literals may stand: around its names, where an exported
name may be a literal, and around its attributes, whose values are literals. Neither pair is read token by token. The
first quote of a declaration opens its specifier, and the first closing brace behind the attribute word ends the
attributes. So a declaration is read as a whole exactly when no name is a literal and no closing brace stands between
the braces of the attributes.
-/

namespace ImportOrder

namespace Source

/-! ## The declarations -/

/-- An identifier of any script. -/
structure Identifier where
  text : Text
  ne_nil : text ≠ []
  chars : ∀ c ∈ text, isIdentifierChar c = true

/-- A string literal. -/
structure Literal where
  quote : Char
  quote_isQuote : isQuote quote = true
  content : Text
  escaped : Escaped quote content

def Literal.text (literal : Literal) : Text :=
  literal.quote :: (literal.content ++ [literal.quote])

/-- What keeps two words apart. -/
structure Space extends Separator where
  ne_nil : text ≠ []

/-- The word between an exported name and its local one. -/
def AsciiName.asWord : AsciiName :=
  ⟨'a', ['s'], by decide, List.all_eq_true.mp (by decide)⟩

/-- The word before the attributes. -/
def AsciiName.withWord : AsciiName :=
  ⟨'w', "ith".toList, by decide, List.all_eq_true.mp (by decide)⟩

/-- A name between the braces of an import clause. -/
inductive ImportName where
  | plain (name : Identifier)
  | renamed (name : Identifier) (before behind : Space) (binding : Identifier)
  | quoted (name : Literal) (before : Separator) (behind : Space) (binding : Identifier)

namespace ImportName

def text : ImportName → Text
  | plain name => name.text
  | renamed name before behind binding =>
    name.text ++ (before.text ++ (AsciiName.asWord.text ++ (behind.text ++ binding.text)))
  | quoted name before behind binding =>
    name.text ++ (before.text ++ (AsciiName.asWord.text ++ (behind.text ++ binding.text)))

/-- Whether the exported name is a string literal. -/
def isQuoted : ImportName → Bool
  | quoted .. => true
  | plain _ | renamed .. => false

end ImportName

/-- Something between braces, with what stands around it. -/
structure Spaced (α : Type) where
  before : Separator
  item : α
  behind : Separator

def Spaced.text {α : Type} (render : α → Text) (spaced : Spaced α) : Text :=
  spaced.before.text ++ (render spaced.item ++ spaced.behind.text)

/-- The key of an attribute. -/
inductive AttributeKey where
  | name (name : Identifier)
  | literal (literal : Literal)

def AttributeKey.text : AttributeKey → Text
  | name found => found.text
  | literal found => found.text

/-- An attribute: a key, a colon and a string literal. -/
structure Attribute where
  key : AttributeKey
  before : Separator
  behind : Separator
  value : Literal

def Attribute.text (entry : Attribute) : Text :=
  entry.key.text ++ (entry.before.text ++ ':' :: (entry.behind.text ++ entry.value.text))

/-- The word `with` and attributes in braces. -/
structure AttributeClause where
  before : Separator
  behind : Separator
  attributes : List (Spaced Attribute)

namespace AttributeClause

/-- What stands between the braces. -/
def inside (clause : AttributeClause) : Text :=
  Text.joinWith [','] (clause.attributes.map (Spaced.text Attribute.text))

def text (clause : AttributeClause) : Text :=
  clause.before.text ++ (AsciiName.withWord.text ++ (clause.behind.text ++ '\x7b' :: (clause.inside ++ ['\x7d'])))

end AttributeClause

/-- A semicolon with spaces and tabs before it. -/
structure Semicolon where
  blanks : Text
  inline : ∀ c ∈ blanks, isInlineBlank c = true

def Semicolon.text (semicolon : Semicolon) : Text :=
  semicolon.blanks ++ [';']

/-- An import declaration with names in braces. -/
structure BracedForm where
  front : Separator
  names : List (Spaced ImportName)
  before : Separator
  behind : Separator
  quote : Char
  quote_isQuote : isQuote quote = true
  path : Text
  attributes : Option AttributeClause
  semicolon : Option Semicolon

namespace BracedForm

/-- The clause up to its closing brace. -/
def opening (form : BracedForm) : Text :=
  form.front.text ++ '\x7b' :: Text.joinWith [','] (form.names.map (Spaced.text ImportName.text))

/-- The clause from its closing brace on. -/
def closing (form : BracedForm) : Text :=
  '\x7d' :: (form.before.text ++ (AsciiName.fromWord.text ++ form.behind.text))

/-- What follows the specifier. -/
def ending (form : BracedForm) : Text :=
  (form.attributes.elim [] AttributeClause.text) ++ form.semicolon.elim [] Semicolon.text

def text (form : BracedForm) : Text :=
  importWord ++ (form.opening ++ (form.closing ++
    form.quote :: (escape form.quote form.path ++ form.quote :: form.ending)))

end BracedForm

/-! ## Texts with a literal in them -/

/-- A clause that a string literal and the word `as` behind it end too early. -/
def LiteralIn (t : Text) : Prop :=
  ∃ (c : Text) (literal : Literal) (before : Separator) (behind : Space) (u : Text), ClauseText c ∧
    t = c ++ (literal.text ++ (before.text ++ (AsciiName.asWord.text ++ (behind.text ++ u))))

/-- A clause with or without a string literal in it. -/
def HeaderText (quoted : Bool) (t : Text) : Prop :=
  if quoted then LiteralIn t else ClauseText t

theorem HeaderText.append {x y : Bool} {a b : Text} (ha : HeaderText x a) (hb : HeaderText y b) :
    HeaderText (x || y) (a ++ b) := by
  cases x with
  | true =>
    obtain ⟨c, literal, before, behind, u, hc, rfl⟩ := ha
    exact ⟨c, literal, before, behind, u ++ b, hc, by simp⟩
  | false =>
    cases y with
    | true =>
      obtain ⟨c, literal, before, behind, u, hc, rfl⟩ := hb
      exact ⟨a ++ c, literal, before, behind, u, ClauseText.append ha hc, by simp⟩
    | false => exact ClauseText.append ha hb

/-- A literal is read up to its closing quote. -/
theorem Escaped.readString_append {quote : Char} {content : Text} (h : Escaped quote content)
    (hquote : isQuote quote = true) (rest : Text) : readString quote (content ++ quote :: rest) = .closed rest := by
  induction h with
  | nil =>
    have hback : quote ≠ '\\' := by
      rintro rfl
      exact absurd hquote (by decide)
    rw [List.nil_append, readString_plain hback, if_pos rfl]
  | escape _ ih =>
    rw [List.cons_append, List.cons_append, readString_escape]
    exact ih
  | plain hback hne hfeed _ ih =>
    rw [List.cons_append, readString_plain hback, if_neg hne, if_neg hfeed]
    exact ih

theorem clauseText_identifier (name : Identifier) : ClauseText name.text := by
  apply ClauseText.of_chars
  intro c hc
  simp [isClauseChar, name.chars c hc]

theorem clauseText_separator (separator : Separator) : ClauseText separator.text :=
  .of_asciiClosed separator.closed

theorem clauseText_word (name : AsciiName) : ClauseText name.text := by
  apply ClauseText.of_chars
  intro c hc
  have hrest : isAsciiNameRest c = true := by
    rcases List.mem_cons.mp hc with rfl | hc
    · have hstart := name.first_start
      simp only [isAsciiNameStart, Bool.or_eq_true] at hstart
      simp only [isAsciiNameRest, Char.isAlphanum, Bool.or_eq_true]
      tauto
    · exact name.rest_name c hc
  simp [isClauseChar, isIdentifierChar, hrest]

theorem ImportName.headerText (name : ImportName) : HeaderText name.isQuoted name.text := by
  cases name with
  | plain name => exact clauseText_identifier name
  | renamed name before behind binding =>
    exact (clauseText_identifier name).append ((clauseText_separator before.toSeparator).append
      ((clauseText_word _).append ((clauseText_separator behind.toSeparator).append (clauseText_identifier binding))))
  | quoted name before behind binding => exact ⟨[], name, before, behind, binding.text, .nil, rfl⟩

theorem headerText_spaced (spaced : Spaced ImportName) :
    HeaderText spaced.item.isQuoted (spaced.text ImportName.text) := by
  have hbefore : HeaderText false spaced.before.text := clauseText_separator spaced.before
  have hbehind : HeaderText false spaced.behind.text := clauseText_separator spaced.behind
  simpa [Spaced.text] using hbefore.append (spaced.item.headerText.append hbehind)

theorem headerText_names (names : List (Spaced ImportName)) :
    HeaderText (names.any (·.item.isQuoted)) (Text.joinWith [','] (names.map (Spaced.text ImportName.text))) := by
  have hcomma : HeaderText false [','] := .char (by decide) .nil
  induction names with
  | nil => exact ClauseText.nil
  | cons name rest ih =>
    cases rest with
    | nil => simpa [Text.joinWith] using headerText_spaced name
    | cons next rest =>
      have hall := (headerText_spaced name).append (hcomma.append ih)
      simpa [Text.joinWith] using hall

/-! ## What follows a specifier -/

theorem mem_skipSemicolon {t : Text} (h : '\x7d' ∈ t) : '\x7d' ∈ skipSemicolon t := by
  rcases skipSemicolon_cases t with hsame | ⟨b, rest, rfl, hrest, hb⟩
  · rwa [hsame]
  · rw [hrest]
    rcases List.mem_append.mp h with hmem | hmem
    · exact absurd (hb _ hmem) (by decide)
    · exact (List.mem_cons.mp hmem).resolve_left (by decide)

/-- Up to the first closing brace, which may be the last one or an earlier one. -/
theorem dropWhile_brace (inside rest : Text) :
    ∃ after, (inside ++ '\x7d' :: rest).dropWhile (· != '\x7d') = '\x7d' :: after ∧
      ('\x7d' ∉ inside → after = rest) ∧ ('\x7d' ∈ inside → '\x7d' ∈ after) := by
  induction inside with
  | nil => exact ⟨rest, by simp, fun _ => rfl, by simp⟩
  | cons c inside ih =>
    by_cases hc : c = '\x7d'
    · subst hc
      exact ⟨inside ++ '\x7d' :: rest, by simp, by simp, by simp⟩
    · obtain ⟨after, hdrop, hnone, hsome⟩ := ih
      refine ⟨after, ?_, fun h => hnone fun hmem => h (by simp [hmem]), fun h => hsome ?_⟩
      · rw [List.cons_append, List.dropWhile_cons_of_pos (by simp [hc]), hdrop]
      · exact (List.mem_cons.mp h).resolve_left fun heq => hc heq.symm

theorem endsName_brace (t : Text) : EndsName ('\x7b' :: t) := by
  intro c hc
  obtain rfl := Option.some.inj hc
  decide

/-- A separator is skipped before a character that begins a token. -/
theorem Separator.drop_append (separator : Separator) {c : Char} {t : Text} (h : Trivia.StartsToken c t) :
    Trivia.drop (separator.text ++ c :: t) = c :: t := by
  rw [separator.closed.closed.drop_append, Trivia.drop_token h]

/-- The attributes reach up to the first closing brace. -/
theorem AttributeClause.skipAttributes_eq (clause : AttributeClause) (rest : Text) :
    ∃ after, skipAttributes (clause.text ++ rest) = .ok after ∧
      ('\x7d' ∉ clause.inside → after = rest) ∧ ('\x7d' ∈ clause.inside → '\x7d' ∈ after) := by
  obtain ⟨after, hclose, hcases⟩ := dropWhile_brace clause.inside rest
  refine ⟨after, ?_, hcases⟩
  have htext : clause.text ++ rest = clause.before.text ++ (AsciiName.withWord.text ++
      (clause.behind.text ++ '\x7b' :: (clause.inside ++ '\x7d' :: rest))) := by simp [text]
  generalize hbody : clause.inside ++ '\x7d' :: rest = body at htext hclose
  have hbrace : Trivia.StartsToken '\x7b' body := ⟨by decide, fun h => absurd h (by decide)⟩
  have hends : EndsName (clause.behind.text ++ '\x7b' :: body) :=
    clause.behind.endsName fun _ => endsName_brace body
  have hdrop : Trivia.drop (clause.text ++ rest) =
      AsciiName.withWord.text ++ (clause.behind.text ++ '\x7b' :: body) := by
    rw [htext]
    exact clause.before.drop_append ⟨by decide, fun h => absurd h (by decide)⟩
  have hname := AsciiName.withWord.splitName?_append hends
  rw [← hdrop] at hname
  exact skipAttributes_clause hname (by decide) (clause.behind.drop_append hbrace) hclose

/-- The word `as` opens no attributes. -/
theorem skipAttributes_as (before : Separator) (behind : Space) (t : Text) :
    skipAttributes (before.text ++ (AsciiName.asWord.text ++ (behind.text ++ t))) =
      .ok (before.text ++ (AsciiName.asWord.text ++ (behind.text ++ t))) := by
  have hends : EndsName (behind.text ++ t) := behind.endsName fun h => absurd h behind.ne_nil
  have hname := AsciiName.asWord.splitName?_append hends
  have hdrop : Trivia.drop (before.text ++ (AsciiName.asWord.text ++ (behind.text ++ t))) =
      AsciiName.asWord.text ++ (behind.text ++ t) :=
    before.drop_append ⟨by decide, fun h => absurd h (by decide)⟩
  rw [← hdrop] at hname
  exact skipAttributes_of_name hname (by decide)

/-- No attributes begin with a semicolon or at a line feed. -/
theorem skipAttributes_semicolon (semicolon : Option Semicolon) :
    skipAttributes (semicolon.elim [] Semicolon.text ++ ['\n']) =
      .ok (semicolon.elim [] Semicolon.text ++ ['\n']) := by
  apply skipAttributes_of_not_name
  cases semicolon with
  | none =>
    show splitName? (Trivia.drop ['\n']) = none
    decide +kernel
  | some found =>
    show splitName? (Trivia.drop (found.blanks ++ [';'] ++ ['\n'])) = none
    rw [List.append_assoc, List.singleton_append,
      drop_blanks found.inline ⟨by decide, fun h => absurd h (by decide)⟩]
    rfl

theorem skipSemicolon_semicolon (semicolon : Option Semicolon) :
    skipSemicolon (semicolon.elim [] Semicolon.text ++ ['\n']) = ['\n'] := by
  cases semicolon with
  | none => rfl
  | some found =>
    show skipSemicolon (found.blanks ++ [';'] ++ ['\n']) = ['\n']
    rw [List.append_assoc, List.singleton_append, skipSemicolon_blanks found.inline]

/-! ## Whole declarations -/

namespace BracedForm

variable (form : BracedForm)

/-- No closing brace stands between the braces of the attributes. -/
def AttributesPlain : Prop :=
  ∀ clause ∈ form.attributes, '\x7d' ∉ clause.inside

/-- What is taken behind the specifier: everything, or not all of the attributes. -/
theorem skip_ending : ∃ after, skipAttributes (form.ending ++ ['\n']) = .ok after ∧
    (form.AttributesPlain → skipSemicolon after = ['\n']) ∧
      (¬form.AttributesPlain → '\x7d' ∈ skipSemicolon after) := by
  unfold AttributesPlain ending
  rw [List.append_assoc]
  cases form.attributes with
  | none =>
    refine ⟨_, skipAttributes_semicolon form.semicolon, fun _ => skipSemicolon_semicolon form.semicolon, ?_⟩
    intro h
    exact absurd (by simp) h
  | some clause =>
    obtain ⟨after, hskip, hnone, hsome⟩ :=
      clause.skipAttributes_eq (form.semicolon.elim [] Semicolon.text ++ ['\n'])
    refine ⟨after, hskip, fun h => ?_, fun h => ?_⟩
    · rw [hnone (h clause rfl), skipSemicolon_semicolon]
    · apply mem_skipSemicolon
      apply hsome
      by_contra hmem
      exact h fun other hother => by
        obtain rfl : clause = other := Option.some.inj hother
        exact hmem

/-- The text behind the keyword, in a source of one line. -/
theorem text_append : form.text ++ ['\n'] = importWord ++ (form.opening ++ (form.closing ++
    form.quote :: (escape form.quote form.path ++ form.quote :: (form.ending ++ ['\n'])))) := by
  simp [text]

theorem headerText_opening : HeaderText (form.names.any (·.item.isQuoted)) form.opening := by
  have hfront : HeaderText false (form.front.text ++ ['\x7b']) :=
    (clauseText_separator form.front).append (.char (by decide) .nil)
  simpa [opening] using hfront.append (headerText_names form.names)

theorem clauseText_closing : ClauseText form.closing :=
  .char (by decide) ((clauseText_separator form.before).append
    ((clauseText_word _).append (clauseText_separator form.behind)))

/-- Without a literal among the names the specifier is found, and all that follows it is taken unless a brace closes
the attributes early. -/
theorem readDeclaration_of_plain [Stack] (hnames : form.names.any (·.item.isQuoted) = false) :
    ∃ rest, readDeclaration (form.text ++ ['\n']) = .ok (some (form.path, rest)) ∧
      (form.AttributesPlain → rest = ['\n']) ∧ (¬form.AttributesPlain → '\x7d' ∈ rest) := by
  have hopening := form.headerText_opening
  rw [hnames] at hopening
  have hclause : ClauseText (form.opening ++ form.closing) := ClauseText.append hopening form.clauseText_closing
  obtain ⟨after, hskip, hcases⟩ := form.skip_ending
  have hread := readString_escape_append form.quote_isQuote form.path (form.ending ++ ['\n'])
  have htext := form.text_append
  generalize hcontent : escape form.quote form.path ++ form.quote :: (form.ending ++ ['\n']) = content
    at hread htext
  obtain ⟨state, hfind⟩ := hclause.findSpecifier_append (endsWord_quote form.quote_isQuote content)
    (form.text ++ ['\n']) ⟨0, .word importWord⟩
  rw [findSpecifier_quote (skip_quote form.quote_isQuote content) form.quote_isQuote, List.append_assoc] at hfind
  have hdrop : (form.text ++ ['\n']).drop importWord.length =
      form.opening ++ (form.closing ++ form.quote :: content) := by
    rw [htext, List.drop_left]
  rw [← hdrop] at hfind
  refine ⟨skipSemicolon after, ?_, hcases⟩
  rw [readDeclaration_of_parts hfind hread, ← hcontent, Text.before_append, unescape_escape, hskip, Except.map]

/-- With a literal among the names the first one is taken for the specifier. -/
theorem readDeclaration_of_quoted [Stack] (hnames : form.names.any (·.item.isQuoted) = true) :
    ∃ path rest, readDeclaration (form.text ++ ['\n']) = .ok (some (path, rest)) ∧ '\x7d' ∈ rest := by
  have hopening := form.headerText_opening
  rw [hnames] at hopening
  obtain ⟨c, literal, before, behind, u, hc, hopening⟩ := hopening
  obtain ⟨tail, htext, hbrace⟩ : ∃ tail, form.text ++ ['\n'] = importWord ++ (form.opening ++ tail) ∧ '\x7d' ∈ tail :=
    ⟨_, form.text_append, by simp [closing]⟩
  have hskip := skipAttributes_as before behind (u ++ tail)
  have hmem : '\x7d' ∈ before.text ++ (AsciiName.asWord.text ++ (behind.text ++ (u ++ tail))) := by simp [hbrace]
  have hdrop : (form.text ++ ['\n']).drop importWord.length = c ++ literal.quote :: (literal.content ++
      literal.quote :: (before.text ++ (AsciiName.asWord.text ++ (behind.text ++ (u ++ tail))))) := by
    rw [htext, List.drop_left, hopening]
    simp [Literal.text]
  -- from here on it only matters what follows the literal as a whole
  generalize before.text ++ (AsciiName.asWord.text ++ (behind.text ++ (u ++ tail))) = follows at hskip hmem hdrop
  obtain ⟨state, hfind⟩ := hc.findSpecifier_append
    (endsWord_quote literal.quote_isQuote (literal.content ++ literal.quote :: follows))
    (form.text ++ ['\n']) ⟨0, .word importWord⟩
  rw [findSpecifier_quote (skip_quote literal.quote_isQuote _) literal.quote_isQuote, ← hdrop] at hfind
  have hread := literal.escaped.readString_append literal.quote_isQuote follows
  refine ⟨unescape literal.content, skipSemicolon follows, ?_, mem_skipSemicolon hmem⟩
  rw [readDeclaration_of_parts hfind hread, Text.before_append, hskip, Except.map]

/-- A declaration begins at the front of the text. -/
theorem atDeclaration_text : atDeclaration State.initial (form.text ++ ['\n']) = true := by
  obtain ⟨tail, htext⟩ : ∃ tail, form.text ++ ['\n'] = importWord ++ (form.front.text ++ '\x7b' :: tail) :=
    ⟨_, by simp [text, opening]; rfl⟩
  have hends : EndsName (form.front.text ++ '\x7b' :: tail) := form.front.endsName fun _ => endsName_brace tail
  have hdrop : Trivia.drop (form.front.text ++ '\x7b' :: tail) = '\x7b' :: tail :=
    form.front.drop_append ⟨by decide, fun h => absurd h (by decide)⟩
  rw [htext]
  exact atDeclaration_iff.mpr ⟨_, '\x7b', tail, AsciiName.keyword.splitName?_append hends, rfl, by decide, hdrop,
    by decide, by decide⟩

end BracedForm

end Source

namespace Document

open Source

/-- A source that begins with a declaration is that declaration alone exactly when nothing but the last line feed is
left behind it. -/
theorem parse_alone_iff [Stack] {t path path' rest : Text} (hhead : (t ++ ['\n']).head? = some 'i')
    (hdecl : declarationAt State.initial (t ++ ['\n']) = .ok (some (path', rest))) :
    (∃ document, parse (t ++ ['\n']) = .ok document ∧
        document.statements.map (fun s => (s.text, s.path)) = [(t, some path)]) ↔
      path' = path ∧ rest = ['\n'] := by
  obtain ⟨hline, hdrop⟩ := pieces_of_head hhead
  obtain ⟨front, hfront⟩ := (declarationAt_properTail hdecl).1
  constructor
  · rintro ⟨document, hparse, hstatements⟩
    obtain ⟨sections, houtline, hsections⟩ := outline_of_parse hparse
    rw [hline] at houtline
    -- the first statement is the declaration
    obtain ⟨others, rfl⟩ := houtline.exists_eq_cons hdrop hdecl
    rw [hsections] at hstatements
    simp only [List.map_cons, List.cons.injEq, Prod.mk.injEq] at hstatements
    obtain ⟨⟨htext, hpath⟩, -⟩ := hstatements
    have hbefore : Text.before (t ++ ['\n']) rest = t := htext
    rw [← hfront, Text.before_append] at hbefore
    refine ⟨Option.some.inj hpath, ?_⟩
    rw [hbefore] at hfront
    exact List.append_cancel_left hfront
  · rintro ⟨rfl, rfl⟩
    have hend : Outline ⟨0, .mark ';'⟩ ['\n'] [] := .done (by decide +kernel)
    have hstart : Trivia.drop (dropInterpreterLine (t ++ ['\n'])) = t ++ ['\n'] := by rw [hline, hdrop]
    obtain ⟨document, hparse, hstatements⟩ := parse_of_outline (.declaration hstart hdecl hend)
    refine ⟨document, hparse, ?_⟩
    rw [hstatements]
    show [(Text.before (t ++ ['\n']) ['\n'], some path')] = [(t, some path')]
    rw [Text.before_append]

/-- A declaration on a line of its own is read as one statement with its whole text and its path if and only if none of
its names is a string literal and no closing brace stands between the braces of its attributes. -/
theorem parse_braced_iff [Stack] (form : BracedForm) :
    (∃ document, parse (form.text ++ ['\n']) = .ok document ∧
        document.statements.map (fun s => (s.text, s.path)) = [(form.text, some form.path)]) ↔
      form.names.all (!·.item.isQuoted) = true ∧ form.AttributesPlain := by
  have hhead : (form.text ++ ['\n']).head? = some 'i' := by
    rw [form.text_append]
    rfl
  have hnone : '\x7d' ∉ ['\n'] := by decide
  have hdecl : declarationAt State.initial (form.text ++ ['\n']) = readDeclaration (form.text ++ ['\n']) := by
    rw [declarationAt, if_pos form.atDeclaration_text]
  cases hnames : form.names.any (·.item.isQuoted) with
  | false =>
    have hall : form.names.all (!·.item.isQuoted) = true := by
      rw [← List.not_any_eq_all_not, hnames]
      rfl
    obtain ⟨rest, hread, hplain, hbrace⟩ := form.readDeclaration_of_plain hnames
    rw [parse_alone_iff hhead (hdecl.trans hread)]
    refine ⟨fun h => ⟨hall, ?_⟩, fun h => ⟨rfl, hplain h.2⟩⟩
    by_contra hclose
    exact hnone (h.2 ▸ hbrace hclose)
  | true =>
    have hall : form.names.all (!·.item.isQuoted) = false := by
      rw [← List.not_any_eq_all_not, hnames]
      rfl
    obtain ⟨path, rest, hread, hbrace⟩ := form.readDeclaration_of_quoted hnames
    rw [parse_alone_iff hhead (hdecl.trans hread), hall]
    refine iff_of_false (fun h => hnone (h.2 ▸ hbrace)) (by simp)

section

open ImportOrder.Runtime

example : (parse "import \x7b \"a-b\" as c \x7d from 'm'\n".toList).toOption.map (·.statements.map Statement.path) =
    some [some "a-b".toList, none] := by
  decide +kernel

end

end Document

end ImportOrder
