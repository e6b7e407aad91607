import ImportOrder.Proofs.ImportFiles
import ImportOrder.Runtime

/-!
# Opaque contents

A text that is embedded in a source as the content of a literal or of a comment is not looked at again. Whatever it
says, the reader stands behind it in a state that the kind of literal or comment decides alone, so the source behind it
is read in the same way: the same faults, and the same imports, moved by the length of what was embedded.
-/

namespace ImportOrder

open Source

/-! ## Embedded texts -/

/-- A template's characters for a text: a backslash before each backslash, template mark and dollar sign. -/
def Source.escapeTemplate (t : Text) : Text :=
  t.flatMap fun c => if c = '\\' ∨ c = templateMark ∨ c = '$' then ['\\', c] else [c]

/-- What a text can be the content of. -/
inductive Wrapping where
  | quoted (quote : Char) (h : isQuote quote = true)
  | template
  | block
  | line

namespace Wrapping

/-- The literal or comment with the given content. -/
def wrap : Wrapping → Text → Text
  | quoted quote _, t => quote :: (escape quote t ++ [quote])
  | template, t => templateMark :: (escapeTemplate t ++ [templateMark])
  | block, t => '/' :: '*' :: (t ++ ['*', '/'])
  | line, t => '/' :: '/' :: t

/-- A literal holds any text, a comment only one that does not end it. -/
def Admits : Wrapping → Text → Prop
  | quoted _ _, _ | template, _ => True
  | block, t => Text.hasInfix ['*', '/'] t = false
  | line, t => '\n' ∉ t

instance (form : Wrapping) (t : Text) : Decidable (form.Admits t) :=
  match form with
  | quoted _ _ | template => inferInstanceAs (Decidable True)
  | block => inferInstanceAs (Decidable (_ = _))
  | line => inferInstanceAs (Decidable (¬_))

/-- An assignment with the literal or comment on its right side. -/
def assignment (form : Wrapping) (t : Text) : Text :=
  "x = ".toList ++ form.wrap t

/-- What the next token depends on behind the assignment. -/
def lastBehind : Wrapping → Last
  | quoted _ _ | template => .value
  | block | line => .mark '='

end Wrapping

/-- The import declarations of a document. -/
def Document.imports (document : Document) : List Statement :=
  document.statements.filter (·.isImport)

/-- A statement with other offsets and lines. -/
def Statement.moved (offset line : Int) (s : Statement) : Statement :=
  { s with
    start := s.start + offset
    stop := s.stop + offset
    line := s.line + line
    endLine := s.endLine + line }

/-! ## Reading the content -/

namespace Source

/-- An escaped text is read up to the template mark behind it. -/
theorem readTemplates_escapeTemplate [Stack] (strict : Bool) (top : Frame) (t rest : Text) :
    readTemplates strict .chars top [] (escapeTemplate t ++ templateMark :: rest) =
      .ok (⟨top.depth, .value⟩, rest) := by
  induction t with
  | nil => exact readTemplates_end
  | cons c t ih =>
    have hcons : escapeTemplate (c :: t) ++ templateMark :: rest =
        (if c = '\\' ∨ c = templateMark ∨ c = '$' then ['\\', c] else [c]) ++
          (escapeTemplate t ++ templateMark :: rest) := by
      rw [escapeTemplate, List.flatMap_cons, List.append_assoc]
      rfl
    rw [hcons]
    split
    · show readTemplates strict .chars top [] ('\\' :: c :: (escapeTemplate t ++ templateMark :: rest)) = _
      rw [readTemplates_escape]
      exact ih
    · rename_i hplain
      show readTemplates strict .chars top [] (c :: (escapeTemplate t ++ templateMark :: rest)) = _
      rw [readTemplates_char (fun hc => hplain (.inl hc)) (fun hc => hplain (.inr (.inl hc)))
        (fun hc => absurd (.inr (.inr hc)) hplain)]
      exact ih

theorem afterClose_content {t : Text} (h : Text.hasInfix ['*', '/'] t = false) (rest : Text) :
    Trivia.afterClose (t ++ '*' :: '/' :: rest) = some rest := by
  induction t with
  | nil => simp [Trivia.afterClose]
  | cons c t ih =>
    rw [List.cons_append, Trivia.afterClose]
    · exact ih (Text.not_hasInfix_tail h).2
    · intro r hc heq
      exact not_closes h rfl (by decide) _ r hc heq

/-- Where no name begins there is no declaration. -/
theorem declarationAt_of_not_name [Stack] {state : State} {c : Char} (h : isNameStart c = false) (t : Text) :
    declarationAt state (c :: t) = .ok none := by
  rw [declarationAt, atDeclaration, splitName?, h]
  rfl

end Source

namespace Wrapping

/-- The stack has room for the literal, if it is a template. -/
def Fits [Stack] (form : Wrapping) : Prop :=
  form = template → Stack.room ≠ 0

/-- A literal is one token, whatever its content, and leaves the depth as it is. -/
theorem readToken_literal [Stack] {form : Wrapping} (hform : form.lastBehind = .value) (hfits : form.Fits)
    (state : State) (t k : Text) :
    ∃ c rest, form.wrap t ++ k = c :: rest ∧ isNameStart c = false ∧ Trivia.StartsToken c rest ∧
      readToken false state c rest = .ok (⟨state.depth, .value⟩, k) := by
  cases form with
  | quoted quote hquote =>
    have hread := readString_escape_append hquote t k
    have hstart : isNameStart quote = false ∧ isBlank quote = false ∧ quote ≠ '/' ∧ quote ≠ templateMark := by
      simp only [isQuote, Bool.or_eq_true, beq_iff_eq] at hquote
      rcases hquote with rfl | rfl <;> decide
    refine ⟨quote, escape quote t ++ quote :: k, by simp [wrap], hstart.1, ⟨hstart.2.1, ?_⟩, ?_⟩
    · intro hslash
      exact absurd hslash hstart.2.2.1
    · rw [readToken, if_neg hstart.2.2.2, readPlain, if_pos hquote, hread]
  | template =>
    refine ⟨templateMark, escapeTemplate t ++ templateMark :: k, by simp [wrap], by decide, ⟨by decide, ?_⟩, ?_⟩
    · intro hslash
      exact absurd hslash (by decide)
    · rw [readToken, if_pos rfl, if_pos (Nat.one_le_iff_ne_zero.mpr (hfits rfl))]
      exact readTemplates_escapeTemplate false _ t k
  | block => simp [lastBehind] at hform
  | line => simp [lastBehind] at hform

/-- A comment is skipped, whatever its content, up to the line feed behind it. -/
theorem drop_comment {form : Wrapping} {t : Text} (hform : form.lastBehind = .mark '=') (ht : form.Admits t)
    (s : Text) : Trivia.drop (form.wrap t ++ '\n' :: s) = Trivia.drop ('\n' :: s) := by
  have hskip : Trivia.skip (form.wrap t ++ '\n' :: s) = Trivia.skip ('\n' :: s) := by
    cases form with
    | quoted quote hquote => simp [lastBehind] at hform
    | template => simp [lastBehind] at hform
    | block =>
      show Trivia.skip ('/' :: '*' :: ((t ++ ['*', '/']) ++ '\n' :: s)) = _
      rw [List.append_assoc]
      exact Trivia.skip_block (afterClose_content ht _)
    | line =>
      show Trivia.skip ('/' :: '/' :: (t ++ '\n' :: s)) = _
      rw [Trivia.skip_line, Trivia.fromLineFeed_append ht]
  rw [Trivia.drop, hskip, Trivia.drop]

/-- The name and the equals sign of the assignment, before anything. -/
theorem run_target [Stack] (k : Text) :
    ∃ tokens, CodeRun State.initial ("x = ".toList ++ k) tokens ⟨0, .mark '='⟩ (' ' :: k) := by
  have hname : splitName? ('x' :: ' ' :: '=' :: ' ' :: k) = some (['x'], ' ' :: '=' :: ' ' :: k) := by
    rw [splitName?, if_pos (by decide), List.takeWhile_cons_of_neg (by decide),
      List.dropWhile_cons_of_neg (by decide)]
  have hnone : declarationAt State.initial ('x' :: ' ' :: '=' :: ' ' :: k) = .ok none := by
    rw [declarationAt, atDeclaration, hname]
    rfl
  have hmark : readToken false ⟨0, .word ['x']⟩ '=' (' ' :: k) = .ok (⟨0, .mark '='⟩, ' ' :: k) := by
    have hword : splitWord? ('=' :: ' ' :: k) = none := by
      rw [splitWord?, splitName?, if_neg (by decide), splitNumber?_cons, if_neg (by decide), if_neg (by simp)]
      rfl
    rw [readToken, if_neg (by decide), readPlain, if_neg (by decide), regexRest?, if_neg (by simp)]
    dsimp only
    rw [hword]
    rfl
  have hdrop : Trivia.drop ('x' :: ' ' :: '=' :: ' ' :: k) = 'x' :: ' ' :: '=' :: ' ' :: k :=
    Trivia.drop_token ⟨by decide, fun hc => absurd hc (by decide)⟩
  have hdrop' : Trivia.drop (' ' :: '=' :: ' ' :: k) = '=' :: ' ' :: k := by
    rw [Trivia.drop, Trivia.skip_blank (by decide)]
    exact Trivia.drop_token ⟨by decide, fun hc => absurd hc (by decide)⟩
  have hequals : CodeRun ⟨0, .word ['x']⟩ (' ' :: '=' :: ' ' :: k) [⟨'=' :: ' ' :: k, ' ' :: k, none⟩]
      ⟨0, .mark '='⟩ (' ' :: k) :=
    .token hdrop' (declarationAt_of_not_name (by decide) _) hmark (.done _ _)
  exact ⟨_, .token hdrop hnone (readToken_name hname) hequals⟩

/-- Reading goes on behind the assignment in a state that does not depend on the content. -/
theorem pieces_assignment [Stack] {form : Wrapping} (hfits : form.Fits) {t : Text} (ht : form.Admits t) (s : Text) :
    ∃ tokens : List Piece, (∀ piece ∈ tokens, piece.path = none) ∧
      pieces State.initial (form.assignment t ++ '\n' :: s) =
        (pieces ⟨0, form.lastBehind⟩ ('\n' :: s)).map (tokens ++ ·) := by
  rw [assignment, List.append_assoc]
  obtain ⟨tokens, hrun⟩ := run_target (form.wrap t ++ '\n' :: s)
  have hblank : Trivia.drop (' ' :: (form.wrap t ++ '\n' :: s)) = Trivia.drop (form.wrap t ++ '\n' :: s) := by
    rw [Trivia.drop, Trivia.skip_blank (by decide), Trivia.drop]
  cases hlast : form.lastBehind with
  | value =>
    obtain ⟨c, rest, htext, hname, hstart, hread⟩ := readToken_literal hlast hfits ⟨0, .mark '='⟩ t ('\n' :: s)
    have hdrop : Trivia.drop (' ' :: (form.wrap t ++ '\n' :: s)) = c :: rest := by
      rw [hblank, htext, Trivia.drop_token hstart]
    have hlong := hrun.append (.token hdrop (declarationAt_of_not_name hname rest) hread (.done _ _))
    exact ⟨_, hlong.path_eq_none, hlong.pieces_eq⟩
  | mark c =>
    obtain rfl : c = '=' := by
      cases form <;> simp [lastBehind] at hlast <;> exact hlast.symm
    refine ⟨tokens, hrun.path_eq_none, ?_⟩
    rw [hrun.pieces_eq, pieces_of_drop_eq (hblank.trans (drop_comment hlast ht s))]
  | nothing => cases form <;> simp [lastBehind] at hlast
  | word w => cases form <;> simp [lastBehind] at hlast

/-- On a stack without room for a single template the assignment of one cannot be read. -/
theorem parse_template_assignment [Stack] (hroom : Stack.room = 0) (t s : Text) :
    Document.parse (template.assignment t ++ '\n' :: s) = .error ⟨.nesting, 4⟩ := by
  have htext : template.assignment t ++ '\n' :: s =
      "x = ".toList ++ templateMark :: (escapeTemplate t ++ templateMark :: '\n' :: s) := by
    simp [assignment, wrap]
  obtain ⟨tokens, hrun⟩ := run_target (templateMark :: (escapeTemplate t ++ templateMark :: '\n' :: s))
  have hdrop : Trivia.drop (' ' :: templateMark :: (escapeTemplate t ++ templateMark :: '\n' :: s)) =
      templateMark :: (escapeTemplate t ++ templateMark :: '\n' :: s) := by
    rw [Trivia.drop, Trivia.skip_blank (by decide)]
    exact Trivia.drop_token ⟨by decide, fun hc => absurd hc (by decide)⟩
  have hread : readToken false ⟨0, .mark '='⟩ templateMark (escapeTemplate t ++ templateMark :: '\n' :: s) =
      .error ⟨.nesting, templateMark :: (escapeTemplate t ++ templateMark :: '\n' :: s)⟩ := by
    rw [readToken, if_pos rfl, if_neg (by omega)]
  have hpieces := hrun.pieces_eq
  rw [pieces_of_token_error hdrop (declarationAt_of_not_name (by decide) _) hread] at hpieces
  rw [htext, Document.parse, dropInterpreterLine_eq_self (by simp), hpieces]
  simp [Except.map]

end Wrapping

/-! ## Reading behind a front part -/

namespace Source

/-- Joining code keeps the declarations. -/
theorem filter_joinCode (ps : List Piece) :
    (joinCode ps).filter (·.path.isSome) = ps.filter (·.path.isSome) := by
  induction ps with
  | nil => rfl
  | cons piece ps ih =>
    have hjoin : ∀ others : List Piece, (piece.join others).filter (·.path.isSome) =
        (piece :: others).filter (·.path.isSome) := by
      intro others
      cases others with
      | nil => rfl
      | cons next others =>
        by_cases hcode : (piece.path.isNone && next.path.isNone) = true
        · rw [Piece.join, if_pos hcode]
          rw [Bool.and_eq_true, Option.isNone_iff_eq_none, Option.isNone_iff_eq_none] at hcode
          simp [hcode.1, hcode.2]
        · rw [Piece.join, if_neg hcode]
    show (piece.join (joinCode ps)).filter _ = _
    rw [hjoin, List.filter_cons, List.filter_cons, ih]

end Source

namespace Document

variable {front rest : Text} {state : State} {tokens : List Piece}

/-- Where reading goes on behind a front part without imports, its faults are those of the whole text. -/
theorem parse_behind_error [Stack] (hfront : ¬['#', '!'] <+: front ++ rest)
    (hpieces : pieces State.initial (front ++ rest) = (pieces state rest).map (tokens ++ ·)) {fault : Fault}
    (h : pieces state rest = .error fault) :
    parse (front ++ rest) = .error ⟨fault.part, front.length + (rest.length - fault.tail.length)⟩ := by
  have hlen := (pieces_fault h).suffix.length_le
  have hoffset : (front ++ rest).length - fault.tail.length = front.length + (rest.length - fault.tail.length) := by
    rw [List.length_append]
    omega
  unfold parse
  rw [dropInterpreterLine_eq_self hfront, hpieces, h]
  show Except.error (SourceError.mk fault.part ((front ++ rest).length - fault.tail.length)) = _
  rw [hoffset]

/-- Where reading goes on behind a front part without imports, the imports are those behind it. -/
theorem parse_behind [Stack] (hfront : ¬['#', '!'] <+: front ++ rest) (htokens : ∀ piece ∈ tokens, piece.path = none)
    (hpieces : pieces State.initial (front ++ rest) = (pieces state rest).map (tokens ++ ·)) {found : List Piece}
    (h : pieces state rest = .ok found) :
    ∃ document, parse (front ++ rest) = .ok document ∧ document.imports =
      ((joinCode found).filter (·.path.isSome)).map fun piece => (statementIn rest piece).below front := by
  obtain ⟨sections, houtline⟩ := outline_of_pieces h
  obtain rfl := Except.ok.inj (h.symm.trans houtline.pieces_eq)
  unfold parse
  rw [dropInterpreterLine_eq_self hfront, hpieces, h]
  refine ⟨_, rfl, ?_⟩
  show ((joinCode (tokens ++ _)).map (statementIn (front ++ rest))).filter (·.path.isSome) = _
  have hcode : tokens.filter (·.path.isSome) = [] :=
    List.filter_eq_nil_iff.mpr fun piece hmem => by simp [htokens piece hmem]
  have hkeep : (joinCode (tokens ++ sections.flatMap Section.tokens)).filter (·.path.isSome) =
      (joinCode (sections.flatMap Section.tokens)).filter (·.path.isSome) := by
    rw [filter_joinCode, filter_joinCode, List.filter_append, hcode, List.nil_append]
  rw [List.filter_map]
  show ((joinCode (tokens ++ sections.flatMap Section.tokens)).filter (·.path.isSome)).map _ = _
  rw [hkeep]
  apply List.map_congr_left
  intro piece hmem
  have hpiece := (List.mem_filter.mp hmem).1
  rw [houtline.joinCode_eq] at hpiece
  obtain ⟨s, hs, rfl⟩ := List.mem_map.mp hpiece
  obtain ⟨hstart, htail⟩ := houtline.forall_suffix s hs
  exact statementIn_below hstart htail.1

end Document

/-! ## Two contents -/

section

variable {front front' : Text}

theorem Statement.below_eq_moved (s : Statement) : s.below front =
    (s.below front').moved ((front.length : Int) - front'.length) ((front.count '\n' : Int) - front'.count '\n') := by
  unfold Statement.below Statement.moved
  dsimp only
  congr 1 <;> omega

end

/-- What a literal or a comment says is opaque: behind it a source cannot be read for the same reason, or has the same
imports, with texts and paths, whatever the content is. Only offsets and lines differ, by as much as the two literals
or comments differ in length and in line feeds. A stack without room for any template stops at the literal itself. -/
theorem Document.parse_wrapped [Stack] (form : Wrapping) {t t' : Text} (ht : form.Admits t) (ht' : form.Admits t')
    (s : Text) :
    (∃ error error', parse (form.assignment t ++ '\n' :: s) = .error error ∧
      parse (form.assignment t' ++ '\n' :: s) = .error error' ∧ error.part = error'.part ∧
      (Stack.room ≠ 0 → (error.offset : Int) - error'.offset = (form.wrap t).length - (form.wrap t').length)) ∨
    ∃ document document', parse (form.assignment t ++ '\n' :: s) = .ok document ∧
      parse (form.assignment t' ++ '\n' :: s) = .ok document' ∧
      document.imports = document'.imports.map (Statement.moved
        ((form.wrap t).length - (form.wrap t').length)
        ((form.wrap t).count '\n' - (form.wrap t').count '\n')) := by
  have hinterpreter : ∀ u, ¬['#', '!'] <+: form.assignment u ++ '\n' :: s := by
    intro u hline
    have hhead : '#' = 'x' := (List.cons_prefix_cons.mp hline).1
    exact absurd hhead (by decide)
  by_cases hnone : form = .template ∧ Stack.room = 0
  · obtain ⟨rfl, hroom⟩ := hnone
    exact .inl ⟨_, _, Wrapping.parse_template_assignment hroom t s, Wrapping.parse_template_assignment hroom t' s, rfl,
      fun hne => absurd hroom hne⟩
  have hfits : form.Fits := fun hform hroom => hnone ⟨hform, hroom⟩
  obtain ⟨tokens, htokens, hpieces⟩ := Wrapping.pieces_assignment hfits ht s
  obtain ⟨tokens', htokens', hpieces'⟩ := Wrapping.pieces_assignment hfits ht' s
  have hlength : ∀ u, (form.assignment u).length = 4 + (form.wrap u).length := by
    intro u
    rw [Wrapping.assignment, List.length_append]
    rfl
  have hcount : ∀ u, (form.assignment u).count '\n' = (form.wrap u).count '\n' := by
    intro u
    rw [Wrapping.assignment, List.count_append, show "x = ".toList.count '\n' = 0 by decide, Nat.zero_add]
  cases hrest : pieces ⟨0, form.lastBehind⟩ ('\n' :: s) with
  | error fault =>
    left
    refine ⟨_, _, parse_behind_error (hinterpreter t) hpieces hrest,
      parse_behind_error (hinterpreter t') hpieces' hrest, rfl, fun _ => ?_⟩
    dsimp only
    rw [hlength, hlength]
    omega
  | ok found =>
    right
    obtain ⟨document, hparse, himports⟩ := parse_behind (hinterpreter t) htokens hpieces hrest
    obtain ⟨document', hparse', himports'⟩ := parse_behind (hinterpreter t') htokens' hpieces' hrest
    refine ⟨document, document', hparse, hparse', ?_⟩
    rw [himports, himports', List.map_map]
    apply List.map_congr_left
    intro piece _
    have hoffset : ((form.wrap t).length : Int) - (form.wrap t').length =
        ((form.assignment t).length : Int) - (form.assignment t').length := by
      rw [hlength, hlength]
      omega
    show _ = ((statementIn ('\n' :: s) piece).below (form.assignment t')).moved _ _
    rw [hoffset, ← hcount t, ← hcount t']
    exact Statement.below_eq_moved _

/-- A text with an import, a hole, a comment and quotes in it. -/
def intricateContent : Text := "import a from 'a'\n$\x7b/* \" \x60".toList

/-- An import that attributes follow, and a regular expression with a quote in it. -/
def importBehind : Text := "/'/.test(y)\nimport b from 'b' with \x7b \x7d\n".toList

section

open ImportOrder.Runtime

theorem Document.parse_wrapped_intricateContent :
    ∃ document document', parse (Wrapping.template.assignment intricateContent ++ '\n' :: importBehind) = .ok document ∧
      parse (Wrapping.template.assignment [] ++ '\n' :: importBehind) = .ok document' ∧
      document'.imports.map (fun s => (s.start, s.stop, s.line)) = [(19, 45, 2)] ∧
      document.imports = document'.imports.map (Statement.moved 28 1) := by
  have hread : (parse (Wrapping.template.assignment [] ++ '\n' :: importBehind)).toOption.map (fun document =>
      document.imports.map fun s => (s.start, s.stop, s.line)) = some [(19, 45, 2)] := by
    decide +kernel
  have hcontent : Wrapping.template.Admits intricateContent := trivial
  have hempty : Wrapping.template.Admits [] := trivial
  rcases parse_wrapped .template hcontent hempty importBehind with
    ⟨error, error', -, herror', -⟩ | ⟨document, document', hparse, hparse', himports⟩
  · rw [herror'] at hread
    simp [Except.toOption] at hread
  · rw [hparse'] at hread
    have hlength : ((Wrapping.template.wrap intricateContent).length : Int) -
        (Wrapping.template.wrap []).length = 28 := by
      decide
    have hcount : ((Wrapping.template.wrap intricateContent).count '\n' : Int) -
        (Wrapping.template.wrap []).count '\n' = 1 := by
      decide
    rw [hlength, hcount] at himports
    exact ⟨document, document', hparse, hparse', Option.some.inj hread, himports⟩

end

end ImportOrder
