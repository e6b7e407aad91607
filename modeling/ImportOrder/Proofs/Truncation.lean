import ImportOrder.Proofs.Clauses
import ImportOrder.Runtime

/-!
# Declarations that the text cuts short

Where the text ends inside a declaration, before the closing quote of its specifier, reading it is an error if anything
but trivia stands behind the keyword, and no error otherwise. A comment that is cut counts as trivia to the keyword,
whatever is in it, although the search for the specifier would not let it pass.
-/

namespace ImportOrder

namespace Source

/-! ## The declarations -/

/-- The content of a literal in which each quote, line feed and backslash has a backslash before it. -/
inductive Escaped (quote : Char) : Text → Prop
  | nil : Escaped quote []
  | escape {c : Char} {t : Text} : Escaped quote t → Escaped quote ('\\' :: c :: t)
  | plain {c : Char} {t : Text} : c ≠ '\\' → c ≠ quote → c ≠ '\n' → Escaped quote t → Escaped quote (c :: t)

/-- An import declaration up to its closing quote. -/
structure OpenForm where
  clause : Text
  clauseText : ClauseText clause
  apart : EndsName clause
  quote : Char
  quote_isQuote : isQuote quote = true
  content : Text
  escaped : Escaped quote content

namespace OpenForm

/-- The text behind the keyword. -/
def body (form : OpenForm) : Text :=
  form.clause ++ form.quote :: (form.content ++ [form.quote])

def text (form : OpenForm) : Text :=
  importWord ++ form.body

end OpenForm

/-! ## Where a text is cut -/

theorem prefix_append_cases {p a b : Text} (h : p <+: a ++ b) : p <+: a ∨ ∃ q, p = a ++ q ∧ q <+: b := by
  obtain ⟨s, hs⟩ := h
  rcases List.append_eq_append_iff.mp hs with ⟨q, ha, -⟩ | ⟨q, hp, hb⟩
  · exact .inl ⟨q, ha.symm⟩
  · exact .inr ⟨q, hp, s, hb.symm⟩

/-- What a cut leaves of the trivia it falls into. -/
inductive CutTrivia : Text → Prop
  | nil : CutTrivia []
  | slash : CutTrivia ['/']
  | line {body : Text} : '\n' ∉ body → CutTrivia ('/' :: '/' :: body)
  | block {body : Text} : Trivia.afterClose body = none → CutTrivia ('/' :: '*' :: body)

/-- A comment is not closed before its end. -/
theorem afterClose_of_prefix {body p : Text} (h : Trivia.afterClose body = some []) (hp : p <+: body) :
    p = body ∨ Trivia.afterClose p = none := by
  obtain ⟨s, rfl⟩ := hp
  cases hclose : Trivia.afterClose p with
  | none => exact .inr rfl
  | some rest =>
    left
    rw [Trivia.afterClose_append hclose, Option.some.injEq, List.append_eq_nil_iff] at h
    rw [h.2, List.append_nil]

/-- The front of a clause is a clause with cut trivia behind it. -/
theorem ClauseText.of_prefix {t p : Text} (ht : ClauseText t) (hp : p <+: t) :
    ∃ u k, p = u ++ k ∧ ClauseText u ∧ CutTrivia k := by
  -- a front ends between two parts of the clause, or in what opens a comment, or in the comment
  induction ht generalizing p with
  | nil => exact ⟨[], [], List.prefix_nil.mp hp, .nil, .nil⟩
  | @char c t hc _ ih =>
    rcases List.prefix_cons_iff.mp hp with rfl | ⟨q, rfl, hq⟩
    · exact ⟨[], [], rfl, .nil, .nil⟩
    · obtain ⟨u, k, rfl, hu, hk⟩ := ih hq
      exact ⟨c :: u, k, rfl, .char hc hu, hk⟩
  | @blank c t hblank hascii _ ih =>
    rcases List.prefix_cons_iff.mp hp with rfl | ⟨q, rfl, hq⟩
    · exact ⟨[], [], rfl, .nil, .nil⟩
    · obtain ⟨u, k, rfl, hu, hk⟩ := ih hq
      exact ⟨c :: u, k, rfl, .blank hblank hascii hu, hk⟩
  | @line body t hbody _ ih =>
    rcases List.prefix_cons_iff.mp hp with rfl | ⟨p, rfl, hp'⟩
    · exact ⟨[], [], rfl, .nil, .nil⟩
    rcases List.prefix_cons_iff.mp hp' with rfl | ⟨q, rfl, hq⟩
    · exact ⟨[], ['/'], rfl, .nil, .slash⟩
    rcases prefix_append_cases hq with hcut | ⟨r, rfl, hr⟩
    · exact ⟨[], _, rfl, .nil, .line fun hmem => hbody (hcut.subset hmem)⟩
    rcases List.prefix_cons_iff.mp hr with rfl | ⟨r', rfl, hr'⟩
    · exact ⟨[], _, rfl, .nil, .line (by simpa using hbody)⟩
    obtain ⟨u, k, rfl, hu, hk⟩ := ih hr'
    exact ⟨'/' :: '/' :: (body ++ '\n' :: u), k, by simp, .line hbody hu, hk⟩
  | @block body t hbody _ ih =>
    rcases List.prefix_cons_iff.mp hp with rfl | ⟨p, rfl, hp'⟩
    · exact ⟨[], [], rfl, .nil, .nil⟩
    rcases List.prefix_cons_iff.mp hp' with rfl | ⟨q, rfl, hq⟩
    · exact ⟨[], ['/'], rfl, .nil, .slash⟩
    rcases prefix_append_cases hq with hcut | ⟨r, rfl, hr⟩
    · rcases afterClose_of_prefix hbody hcut with rfl | hopen
      · exact ⟨'/' :: '*' :: (q ++ []), [], by simp, .block hbody .nil, .nil⟩
      · exact ⟨[], _, rfl, .nil, .block hopen⟩
    obtain ⟨u, k, rfl, hu, hk⟩ := ih hr
    exact ⟨'/' :: '*' :: (body ++ u), k, by simp, .block hbody hu, hk⟩

/-- A literal that is cut before its closing quote is not closed. -/
theorem Escaped.readString_of_prefix {quote : Char} {content p : Text} (h : Escaped quote content)
    (hp : p <+: content) : ∃ rest, readString quote p = .cut rest := by
  induction h generalizing p with
  | nil =>
    obtain rfl := List.prefix_nil.mp hp
    exact ⟨[], rfl⟩
  | @escape c t _ ih =>
    rcases List.prefix_cons_iff.mp hp with rfl | ⟨p, rfl, hp'⟩
    · exact ⟨[], rfl⟩
    rcases List.prefix_cons_iff.mp hp' with rfl | ⟨q, rfl, hq⟩
    · exact ⟨[], rfl⟩
    rw [readString_escape]
    exact ih hq
  | @plain c t hback hquote hfeed _ ih =>
    rcases List.prefix_cons_iff.mp hp with rfl | ⟨q, rfl, hq⟩
    · exact ⟨[], rfl⟩
    rw [readString_plain hback, if_neg hquote, if_neg hfeed]
    exact ih hq

/-! ## What is read before a cut -/

namespace CutTrivia

variable {k : Text} (h : CutTrivia k)

include h

theorem endsWord : EndsWord k := by
  intro c hc
  cases h with
  | nil => simp at hc
  | slash | line | block =>
    obtain rfl := Option.some.inj hc
    decide

/-- Skipping cut trivia reaches the end of the text or a lone slash, or finds an open comment. -/
theorem skip_cases : Trivia.skip k = .reached [] ∨ Trivia.skip k = .reached ['/'] ∨
    ∃ comment, Trivia.skip k = .unclosed comment := by
  cases h with
  | nil => exact .inl (by decide +kernel)
  | slash => exact .inr (.inl (Trivia.skip_token ⟨by decide, by decide⟩))
  | @line body hbody =>
    left
    rw [Trivia.skip_line]
    rcases Trivia.fromLineFeed_cases body with ⟨-, hnil⟩ | ⟨front, rest, rfl, -⟩
    · rw [hnil]
      decide +kernel
    · simp at hbody
  | @block body hopen =>
    right; right
    exact ⟨_, Trivia.skip_open hopen⟩

/-- No specifier is found in cut trivia, whether a comment is open there or not. -/
theorem exists_fault [Stack] (whole : Text) (state : State) : ∃ fault, findSpecifier whole state k = .error fault := by
  rcases h.skip_cases with hend | hslash | ⟨comment, hopen⟩
  · exact ⟨_, findSpecifier_end hend⟩
  · -- the slash is read as a token, and nothing follows it
    have hread : ∃ after, readToken true state '/' [] = .ok (after, []) := by
      have hregex : regexRest? state.last '/' [] = none := by
        unfold regexRest?
        split <;> rfl
      rw [readToken, if_neg (by decide), readPlain, if_neg (by decide), hregex]
      exact ⟨_, rfl⟩
    obtain ⟨after, hread⟩ := hread
    rw [findSpecifier_token hslash (by decide) (by decide) hread]
    exact ⟨_, findSpecifier_end (by decide +kernel)⟩
  · exact ⟨_, findSpecifier_unclosed hopen⟩

theorem drop_cases : Trivia.drop k = [] ∨ Trivia.drop k = ['/'] := by
  unfold Trivia.drop
  rcases h.skip_cases with hend | hslash | ⟨comment, hopen⟩
  · exact .inl (by rw [hend]; rfl)
  · exact .inr (by rw [hslash]; rfl)
  · exact .inl (by rw [hopen]; rfl)

end CutTrivia

/-! ## Whole sources -/

theorem readDeclaration_of_fault [Stack] {t : Text} {fault : Fault}
    (h : findSpecifier t ⟨0, .word importWord⟩ (t.drop importWord.length) = .error fault) :
    readDeclaration t = .error fault := by
  rw [readDeclaration, h]

theorem readDeclaration_of_cut [Stack] {t content rest : Text} {quote : Char}
    (h : findSpecifier t ⟨0, .word importWord⟩ (t.drop importWord.length) = .ok (some (quote :: content)))
    (hread : readString quote content = .cut rest) : readDeclaration t = .error ⟨.string, quote :: content⟩ := by
  rw [readDeclaration, h]
  dsimp only
  rw [hread]

namespace OpenForm

variable (form : OpenForm)

/-- A cut falls into the clause or into the specifier. -/
theorem cut_cases {q : Text} (hq : q <+: form.body) (hlt : q.length < form.body.length) :
    (∃ u k, q = u ++ k ∧ ClauseText u ∧ CutTrivia k) ∨
      ∃ p, q = form.clause ++ form.quote :: p ∧ p <+: form.content := by
  rcases prefix_append_cases hq with hclause | ⟨r, rfl, hr⟩
  · exact .inl (form.clauseText.of_prefix hclause)
  rcases List.prefix_cons_iff.mp hr with rfl | ⟨p, rfl, hp⟩
  · exact .inl ⟨form.clause, [], rfl, form.clauseText, .nil⟩
  rcases prefix_append_cases hp with hp | ⟨s, rfl, hs⟩
  · exact .inr ⟨p, rfl, hp⟩
  · -- the closing quote is cut off
    have hnil : s = [] := by
      have hlen : s.length < 1 := by
        simp only [body, List.length_append, List.length_cons, List.length_nil] at hlt
        omega
      exact List.length_eq_zero_iff.mp (by omega)
    exact .inr ⟨form.content, by rw [hnil, List.append_nil], List.prefix_refl _⟩

theorem endsName_body : EndsName form.body := by
  have hquote := (endsWord_quote form.quote_isQuote (form.content ++ [form.quote])).endsName
  rw [body]
  cases hclause : form.clause with
  | nil => exact hquote
  | cons c t =>
    have hends := form.apart
    rw [hclause] at hends
    exact hends

/-- The keyword is a word by itself wherever the text is cut behind it. -/
theorem splitName?_cut {q : Text} (hq : q <+: form.body) : splitName? (importWord ++ q) = some (importWord, q) := by
  apply AsciiName.keyword.splitName?_append
  intro c hc
  obtain ⟨s, hs⟩ := hq
  apply form.endsName_body
  rw [← hs, List.head?_append, hc]
  rfl

section

variable {q : Text} (hq : q <+: form.body) (hlt : q.length < form.body.length)

include hq hlt

/-- Neither a call nor a member access stands behind the keyword. -/
theorem drop_cut : ∀ c ∈ (Trivia.drop q).head?, c ≠ '(' ∧ c ≠ '.' := by
  intro c hc
  have hfound : ∀ d u, Trivia.drop q = d :: u → d ≠ '(' ∧ d ≠ '.' → c ≠ '(' ∧ c ≠ '.' := by
    intro d u hdrop hd
    rw [hdrop] at hc
    obtain rfl : d = c := Option.some.inj hc
    exact hd
  rcases form.cut_cases hq hlt with ⟨u, k, rfl, hu, hk⟩ | ⟨p, rfl, -⟩
  · rcases hu.drop_cases k with hdrop | ⟨d, v, hdrop, hd⟩
    · rcases hk.drop_cases with hnil | hslash
      · simp [hdrop, hnil] at hc
      · exact hfound _ _ (hdrop.trans hslash) (by decide)
    · exact hfound d v hdrop hd
  · have hquote := form.quote_isQuote
    rcases form.clauseText.drop_cases (form.quote :: p) with hdrop | ⟨d, v, hdrop, hd⟩
    · rw [Trivia.drop_eq_cons_iff.mpr (skip_quote hquote p)] at hdrop
      refine hfound _ _ hdrop ?_
      simp only [isQuote, Bool.or_eq_true, beq_iff_eq] at hquote
      rcases hquote with h | h <;> rw [h] <;> decide
    · exact hfound d v hdrop hd

/-- Wherever the text is cut, a declaration that has begun cannot be read. -/
theorem readDeclaration_cut [Stack] : ∃ fault, readDeclaration (importWord ++ q) = .error fault := by
  have hdrop : (importWord ++ q).drop importWord.length = q := List.drop_left
  rcases form.cut_cases hq hlt with ⟨u, k, rfl, hu, hk⟩ | ⟨p, rfl, hp⟩
  · obtain ⟨state, hfind⟩ := hu.findSpecifier_append hk.endsWord (importWord ++ (u ++ k)) ⟨0, .word importWord⟩
    obtain ⟨fault, hfault⟩ := hk.exists_fault (importWord ++ (u ++ k)) state
    exact ⟨fault, readDeclaration_of_fault (by rw [hdrop, hfind, hfault])⟩
  · obtain ⟨state, hfind⟩ := form.clauseText.findSpecifier_append (endsWord_quote form.quote_isQuote p)
      (importWord ++ (form.clause ++ form.quote :: p)) ⟨0, .word importWord⟩
    rw [findSpecifier_quote (skip_quote form.quote_isQuote p) form.quote_isQuote, ← hdrop] at hfind
    obtain ⟨rest, hread⟩ := form.escaped.readString_of_prefix hp
    exact ⟨_, readDeclaration_of_cut hfind hread⟩

end

end OpenForm

end Source

namespace Document

open Source

theorem exists_error_iff [Stack] {source : Text} : (∃ error, parse source = .error error) ↔
    ∃ fault, pieces State.initial (dropInterpreterLine source) = .error fault := by
  unfold parse
  split
  · simp_all
  · simp_all

/-- What begins as the keyword does holds no interpreter line, and no trivia in front. -/
theorem pieces_of_head {source : Text} (h : source.head? = some 'i') :
    dropInterpreterLine source = source ∧ Trivia.drop source = source := by
  refine ⟨dropInterpreterLine_eq_self ?_, Plan.drop_of_head h⟩
  rintro ⟨rest, rfl⟩
  simp at h

/-- A word with nothing but trivia behind it can be read, the keyword included. -/
theorem not_error_of_word [Stack] {source word rest : Text} (hhead : source.head? = some 'i')
    (hname : splitName? source = some (word, rest)) (hrest : Trivia.drop rest = []) :
    ¬∃ error, parse source = .error error := by
  obtain ⟨hline, hdrop⟩ := pieces_of_head hhead
  rw [exists_error_iff, hline]
  rintro ⟨fault, hfault⟩
  obtain ⟨t, rfl⟩ := List.head?_eq_some_iff.mp hhead
  have hat : atDeclaration State.initial ('i' :: t) = false := by
    simp [atDeclaration, hname, hrest]
  have hnone : declarationAt State.initial ('i' :: t) = .ok none := by
    rw [declarationAt, if_neg (by simp [hat])]
  rw [pieces_of_token hdrop hnone (readToken_name hname), pieces_of_drop_nil hrest] at hfault
  simp [Except.map] at hfault

/-- Every front part of the keyword is a word. -/
theorem splitName?_front : ∀ n < importWord.length, (importWord.take (n + 1)).head? = some 'i' ∧
    splitName? (importWord.take (n + 1)) = some (importWord.take (n + 1), []) := by
  decide

theorem not_error_of_front [Stack] {p : Text} (hp : p <+: importWord) : ¬∃ error, parse p = .error error := by
  have hlen := hp.length_le
  rw [List.prefix_iff_eq_take.mp hp]
  cases hn : p.length with
  | zero =>
    rw [exists_error_iff]
    show ¬∃ fault, pieces State.initial [] = .error fault
    rw [pieces_of_drop_nil Trivia.drop_nil]
    simp
  | succ n =>
    obtain ⟨hhead, hname⟩ := splitName?_front n (by omega)
    exact not_error_of_word hhead hname Trivia.drop_nil

/-- A declaration that the text cuts short before its closing quote cannot be read if and only if something that is no
trivia stands behind its keyword; a comment that is cut is trivia here. -/
theorem parse_cut_iff [Stack] (form : OpenForm) {p : Text} (hp : p <+: form.text) (hlt : p.length < form.text.length) :
    (∃ error, parse p = .error error) ↔ Trivia.drop (p.drop importWord.length) ≠ [] := by
  rcases prefix_append_cases hp with hfront | ⟨q, rfl, hq⟩
  · have hnone : p.drop importWord.length = [] := List.drop_eq_nil_of_le hfront.length_le
    rw [hnone, Trivia.drop_nil]
    exact iff_of_false (not_error_of_front hfront) (by simp)
  · rw [List.drop_left]
    have hhead : (importWord ++ q).head? = some 'i' := rfl
    have hname := form.splitName?_cut hq
    constructor
    · intro herror hnone
      exact not_error_of_word hhead hname hnone herror
    · intro hsome
      have hlen : q.length < form.body.length := by
        rw [OpenForm.text, List.length_append, List.length_append] at hlt
        omega
      obtain ⟨c, u, hdrop⟩ := List.exists_cons_of_ne_nil hsome
      have hcall := form.drop_cut hq hlen c (by rw [hdrop]; rfl)
      have hat : atDeclaration State.initial (importWord ++ q) = true :=
        atDeclaration_iff.mpr ⟨q, c, u, hname, rfl, by decide, hdrop, hcall⟩
      obtain ⟨fault, hread⟩ := form.readDeclaration_cut hq hlen
      obtain ⟨hline, hstart⟩ := pieces_of_head hhead
      rw [exists_error_iff, hline]
      exact ⟨fault, pieces_of_error hstart (by rw [declarationAt, if_pos hat, hread])⟩

/-- A declaration with a comment in its clause and an escaped quote in its specifier. -/
def commentedForm : OpenForm where
  clause := " /* c */ a from ".toList
  clauseText := .blank rfl (by decide) <| @ClauseText.block " c */".toList _ rfl <| .blank rfl (by decide) <|
    .char rfl <| .blank rfl (by decide) <| .char rfl <| .char rfl <| .char rfl <| .char rfl <|
    .blank rfl (by decide) .nil
  apart := by
    intro c hc
    obtain rfl : ' ' = c := Option.some.inj hc
    decide
  quote := '\''
  quote_isQuote := rfl
  content := "x\\'y".toList
  escaped := .plain (by decide) (by decide) (by decide) <| .escape <| .plain (by decide) (by decide) (by decide) .nil

section

open ImportOrder.Runtime

/-- Cut right behind the backslash of its specifier it is an error; cut in its comment it is none. -/
theorem parse_cut_commentedForm :
    ("import /* c */ a from 'x\\".toList <+: commentedForm.text ∧
      ∃ error, parse "import /* c */ a from 'x\\".toList = .error error) ∧
    ("import /* c".toList <+: commentedForm.text ∧ ¬∃ error, parse "import /* c".toList = .error error) := by
  have hquote : "import /* c */ a from 'x\\".toList <+: commentedForm.text := by decide
  have hcomment : "import /* c".toList <+: commentedForm.text := by decide
  refine ⟨⟨hquote, (parse_cut_iff commentedForm hquote (by decide)).mpr ?_⟩, hcomment, ?_⟩
  · decide +kernel
  · rw [parse_cut_iff commentedForm hcomment (by decide)]
    decide +kernel

end

end Document

end ImportOrder
