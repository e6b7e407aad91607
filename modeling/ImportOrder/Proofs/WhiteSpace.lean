import ImportOrder.Proofs.SkippedBlanks
import ImportOrder.Proofs.Opacity
import ImportOrder.Proofs.EditedSource
import ImportOrder.Runtime

/-!
# White space

The module paths that a source imports do not depend on which blank stands in the trivia between two tokens, or on a
byte order mark in front, as far as no name runs on into the new character: the characters of names range over all of
U+0080 to U+FFFF, the byte order mark and the blanks beyond ASCII among them.
-/

namespace ImportOrder.Source

/-! ## Imported paths -/

/-- The module paths of the declarations in a text. -/
def importedPaths [Stack] (state : State) (t : Text) : Except Fault (List Text) :=
  (pieces state t).map fun found => found.filterMap Piece.path

theorem importedPaths_of_token [Stack] {state next : State} {t rest after : Text} {c : Char}
    (hdrop : Trivia.drop t = c :: rest) (hdecl : declarationAt state (c :: rest) = .ok none)
    (hread : readToken false state c rest = .ok (next, after)) : importedPaths state t = importedPaths next after := by
  rw [importedPaths, importedPaths, pieces_of_token hdrop hdecl hread]
  cases pieces next after with
  | error fault => rfl
  | ok found => rfl

theorem importedPaths_of_declaration [Stack] {state : State} {t start path rest : Text} (hdrop : Trivia.drop t = start)
    (hdecl : declarationAt state start = .ok (some (path, rest))) :
    importedPaths state t = (importedPaths ⟨state.depth, .mark ';'⟩ rest).map (path :: ·) := by
  rw [importedPaths, importedPaths, pieces_of_declaration hdrop hdecl]
  cases pieces ⟨state.depth, .mark ';'⟩ rest with
  | error fault => rfl
  | ok found => rfl

/-- A semicolon after a declaration imports nothing. -/
theorem importedPaths_skipSemicolon [Stack] (depth : Nat) (t : Text) :
    importedPaths ⟨depth, .mark ';'⟩ (skipSemicolon t) = importedPaths ⟨depth, .mark ';'⟩ t := by
  rcases skipSemicolon_cases t with hsame | ⟨blanks, rest, rfl, hrest, hblanks⟩
  · rw [hsame]
  · have hdrop : Trivia.drop (blanks ++ ';' :: rest) = ';' :: rest :=
      drop_blanks hblanks ⟨by decide, fun hc => absurd hc (by decide)⟩
    have hread : readToken false ⟨depth, .mark ';'⟩ ';' rest = .ok (⟨depth, .mark ';'⟩, rest) := by
      have hword : splitWord? (';' :: rest) = none := by
        rw [splitWord?, splitNumber?_cons]
        rfl
      rw [readToken, if_neg (by decide), readPlain, if_neg (by decide), regexRest?, if_neg (by simp)]
      dsimp only
      rw [hword]
      rfl
    rw [hrest, importedPaths_of_token hdrop rfl hread]

/-! ## Another blank in a gap -/

section

variable {b b' : Char} (hb : IsSpacing b) (hb' : IsSpacing b') {x v : Text} {gap : Gap}

include hb hb'

/-- Where a token of other code begins, no declaration begins with another blank behind the token. -/
theorem CodeGap.declarationAt_none_respaced [Stack] {state next : State} {c : Char} {y r : Text}
    (hrest : CodeGap gap (runsOnWide state c (y ++ b :: v)) next (r ++ b :: v)) (hblank : gap.Holds x b v)
    (hapart : StandsApart b' x gap.wide) (hread : readToken false state c (y ++ b :: v) = .ok (next, r ++ b :: v))
    (h : declarationAt state (c :: (y ++ b :: v)) = .ok none) :
    declarationAt state (c :: (y ++ b' :: v)) = .ok none := by
  rw [declarationAt_none_iff] at h ⊢
  intro hat'
  obtain ⟨u, -, -, hname', -⟩ := atDeclaration_iff.mp hat'
  obtain ⟨word, u, hname⟩ : ∃ word u, splitName? (c :: (y ++ b :: v)) = some (word, u) := by
    rw [splitName?, if_pos (isNameStart_of_splitName? hname')]
    exact ⟨_, _, rfl⟩
  have hsame := hread.symm.trans (readToken_name hname)
  simp only [Except.ok.injEq, Prod.mk.injEq] at hsame
  obtain ⟨rfl, rfl⟩ := hsame
  have hwide : runsOnWide state c (y ++ b :: v) = true := by simp [runsOnWide, hname]
  rw [hwide] at hrest
  have hname' := splitName?_respaced (hrest.met.standsApart hblank hapart) hname
  rw [atDeclaration_respaced hb hb' state hname hname'] at hat'
  -- so an attempt was made before, and it was given up
  have hnone := readDeclaration_none_iff.mp (h hat')
  obtain ⟨u, -, -, hkeyword, hdepth, -⟩ := atDeclaration_iff.mp hat'
  obtain ⟨rfl, rfl⟩ : word = importWord ∧ r ++ b :: v = u := by simpa [hname] using hkeyword
  have hbehind : (c :: (y ++ b :: v)).drop importWord.length = r ++ b :: v := by
    rw [← (splitName?_append hname).1, List.drop_left]
  have hbehind' : (c :: (y ++ b' :: v)).drop importWord.length = r ++ b' :: v := by
    rw [← (splitName?_append hname').1, List.drop_left]
  rw [hbehind] at hnone
  rw [readDeclaration_none_iff, hbehind']
  rw [hdepth] at hrest
  exact hrest.findSpecifier_none_respaced hb hb' hblank hapart rfl hnone

/-- A declaration with a blank behind its keyword is one with another blank there. -/
theorem declarationAt_some_respaced [Stack] {state : State} {c : Char} {y r : Text} {found found' : Text × Text}
    (hname : splitName? (c :: (y ++ b :: v)) = some (importWord, r ++ b :: v)) (hapart : StandsApart b' r true)
    (hread : readDeclaration (c :: (y ++ b' :: v)) = .ok (some found'))
    (h : declarationAt state (c :: (y ++ b :: v)) = .ok (some found)) :
    declarationAt state (c :: (y ++ b' :: v)) = .ok (some found') := by
  have hat := (declarationAt_some_iff.mp h).1
  rw [← atDeclaration_respaced hb hb' state hname (splitName?_respaced hapart hname)] at hat
  exact declarationAt_some_iff.mpr ⟨hat, hread⟩

/-- The keyword of a declaration that a gap follows, with either blank. -/
theorem Gap.Met.keyword [Stack] {state : State} {w start : Text} {found : Text × Text}
    (hdrop : Trivia.drop (w ++ b :: v) = start) (hdecl : declarationAt state start = .ok (some found))
    (hmet : gap.Met true (start.drop importWord.length)) (hblank : gap.Holds x b v)
    (hapart : StandsApart b' x gap.wide) :
    ∃ c y r, start = c :: (y ++ b :: v) ∧ Trivia.drop (w ++ b' :: v) = c :: (y ++ b' :: v) ∧
      splitName? (c :: (y ++ b :: v)) = some (importWord, r ++ b :: v) ∧ StandsApart b' r true ∧
      (c :: (y ++ b :: v)).drop importWord.length = r ++ b :: v ∧
      (c :: (y ++ b' :: v)).drop importWord.length = r ++ b' :: v := by
  have hname := splitName?_of_declarationAt hdecl
  obtain ⟨r, hr⟩ := hmet.exists_append hblank
  rw [hr] at hname hmet
  have hlen := splitName?_length hname
  cases start with
  | nil => simp at hlen
  | cons c u =>
    rw [List.length_append, List.length_cons] at hlen
    obtain ⟨y, rfl, hskip'⟩ := Trivia.skip_before hb hb' (Trivia.drop_eq_cons_iff.mp hdrop) (by omega)
    have hapart' := hmet.standsApart hblank hapart
    refine ⟨c, y, r, rfl, Trivia.drop_eq_cons_iff.mpr hskip', hname, hapart', hr, ?_⟩
    rw [← (splitName?_append (splitName?_respaced hapart' hname)).1, List.drop_left]

/-- A gap in a declaration may hold another blank. -/
theorem DeclarationGap.readDeclaration_respaced [Stack] {y r path after : Text}
    (hgap : DeclarationGap gap (y ++ b :: v)) (hblank : gap.Holds x b v) (hapart : StandsApart b' x gap.wide)
    (hkeyword : (y ++ b :: v).drop importWord.length = r ++ b :: v)
    (hkeyword' : (y ++ b' :: v).drop importWord.length = r ++ b' :: v)
    (h : readDeclaration (y ++ b :: v) = .ok (some (path, after))) :
    readDeclaration (y ++ b' :: v) = .ok (some (path, after)) := by
  cases hgap with
  | header hheader =>
    obtain ⟨quote, content, closed, rest, hfind, hread, -⟩ := readDeclaration_cases h
    rw [readDeclaration_of_parts hfind hread] at h
    rw [hkeyword] at hheader hfind
    have hfind' : findSpecifier (y ++ b' :: v) ⟨0, .word importWord⟩ (r ++ b' :: v) = .ok (some (quote :: content)) :=
      hheader.findSpecifier_respaced hb hb' hblank hapart rfl hfind
    rw [← hkeyword'] at hfind'
    rw [readDeclaration_of_parts hfind' hread, h]
  | @clause closed word next body hbehind hclause hopens =>
    obtain ⟨s, rfl⟩ : b :: v <:+ closed := by
      have htext : b :: v <:+ gap.text := ⟨x, hblank.text.symm⟩
      rcases hopens with rfl | rfl
      · exact htext
      · exact htext.trans hclause.suffix
    rw [hbehind.readDeclaration_respaced hb hb' h, hclause.skipAttributes_respaced hb hb' hopens hblank hapart,
      ← hbehind.readDeclaration_respaced hb hb h, h]

/-- The same module paths are imported with another blank in a gap. -/
theorem CodeGap.importedPaths_respaced [Stack] {wide : Bool} {state : State} {t w : Text} {paths : List Text}
    (hgap : CodeGap gap wide state t) (hblank : gap.Holds x b v) (hapart : StandsApart b' x gap.wide)
    (ht : t = w ++ b :: v) (h : importedPaths state t = .ok paths) :
    importedPaths state (w ++ b' :: v) = .ok paths := by
  induction hgap generalizing w paths with
  | @here state =>
    obtain rfl : x = w := List.append_cancel_right (hblank.text.symm.trans ht)
    rw [ht, importedPaths] at h
    rw [importedPaths, pieces_of_drop_eq (Trivia.drop_respaced hb hb' hblank.skipped_append), h]
  | @template _ state t rest hdrop htemplate =>
    subst ht
    obtain ⟨r, rfl⟩ := (HoleGap.met htemplate).exists_append hblank
    have hskip' := Trivia.skip_before_append hb hb' (Trivia.drop_eq_cons_iff.mp hdrop)
    cases hread : readToken false state templateMark (r ++ b :: v) with
    | error fault => simp [importedPaths, pieces_of_token_error hdrop rfl hread, Except.map] at h
    | ok token =>
      rw [importedPaths_of_token hdrop rfl hread] at h
      rw [importedPaths_of_token (Trivia.drop_eq_cons_iff.mpr hskip') rfl
        (htemplate.readToken_respaced hb hb' hblank hapart hread), h]
  | @token _ state next c t rest after hdrop hdecl hread hrest ih =>
    obtain ⟨r, rfl⟩ := hrest.met.exists_append hblank
    subst ht
    have hskip := Trivia.drop_eq_cons_iff.mp hdrop
    obtain ⟨y, rfl, hskip'⟩ := Trivia.skip_before_suffix hb hb' hskip (readToken_suffix hread)
    have hread' := readToken_respaced hb hb' (Trivia.startsToken_of_skip hskip)
      (hrest.met.standsApart hblank hapart) hread
    have hdecl' := hrest.declarationAt_none_respaced hb hb' hblank hapart hread hdecl
    rw [importedPaths_of_token hdrop hdecl hread] at h
    rw [importedPaths_of_token (Trivia.drop_eq_cons_iff.mpr hskip') hdecl' hread']
    exact ih rfl h
  | @declaration _ state t start path after hdrop hdecl hinside =>
    subst ht
    obtain ⟨c, y, r, rfl, hdrop', hname, hapart', hkeyword, hkeyword'⟩ :=
      hinside.met.keyword hb hb' hdrop hdecl hblank hapart
    have hread' := hinside.readDeclaration_respaced (y := c :: y) hb hb' hblank hapart hkeyword hkeyword'
      (declarationAt_some_iff.mp hdecl).2
    rw [importedPaths_of_declaration hdrop hdecl] at h
    rw [importedPaths_of_declaration hdrop' (declarationAt_some_respaced hb hb' hname hapart' hread' hdecl), h]
  | @behind _ state t start path after closed rest hdrop hdecl hbehind hattributes hrest ih =>
    subst ht
    obtain ⟨r, rfl⟩ := hrest.met.exists_append hblank
    obtain ⟨s, rfl⟩ : b :: v <:+ closed := (List.suffix_append r _).trans (skipAttributes_suffix hattributes)
    have hmet : gap.Met true (start.drop importWord.length) :=
      hrest.met.of_properTail (hbehind.attributes_properTail hattributes)
    obtain ⟨c, y, q, rfl, hdrop', hname, hapart', -⟩ := hmet.keyword hb hb' hdrop hdecl hblank hapart
    have hread := (declarationAt_some_iff.mp hdecl).2
    -- the declaration ends at the same place, but for a semicolon
    have hread' := BehindSpecifier.readDeclaration_respaced (y := c :: y) hb hb' hbehind hread
    rw [hrest.skipAttributes_respaced hb hb' hblank hapart hattributes] at hread'
    rw [← List.cons_append, BehindSpecifier.readDeclaration_respaced (y := c :: y) hb hb hbehind hread, hattributes]
      at hread
    obtain rfl : skipSemicolon (r ++ b :: v) = after := (Prod.mk.inj (Option.some.inj (Except.ok.inj hread))).2
    rw [importedPaths_of_declaration hdrop hdecl, importedPaths_skipSemicolon] at h
    obtain ⟨later, hlater, rfl⟩ := exists_of_map_ok h
    rw [importedPaths_of_declaration hdrop' (declarationAt_some_respaced hb hb' hname hapart' hread' hdecl),
      importedPaths_skipSemicolon, ih rfl hlater]
    rfl

end

/-! ## A byte order mark in front -/

/-- The character that marks the byte order of a file. -/
def byteOrderMark : Char := '\ufeff'

/-- A byte order mark in front makes one name with the characters of names at the front of a text. Nothing is lost where
they are other code by themselves, and no regular expression follows them that may not follow a name. -/
def BearsMark [Stack] (t : Text) : Prop :=
  ∃ tokens state, CodeRun State.initial t tokens state (t.dropWhile isNameRest) ∧
    (state.last.allowsRegex = true → Last.value.mayPrecede (Trivia.drop (t.dropWhile isNameRest)) = true)

/-- A token that begins with a character of names opens no bracket and is no point. -/
theorem readToken_nameRest [Stack] {strict : Bool} {state next : State} {c : Char} {rest after : Text}
    (hc : isNameRest c = true) (h : readToken strict state c rest = .ok (next, after)) :
    next.depth = state.depth ∧ next.last ≠ .mark '.' := by
  have hne : ∀ d, isNameRest d = false → c ≠ d := by
    rintro d hd rfl
    simp [hc] at hd
  have hquote : isQuote c = false := by
    simp [isQuote, hne '\'' (by decide), hne '"' (by decide)]
  have hslash : ¬(c = '/' ∧ state.last.allowsRegex = true) := fun hregex => hne '/' (by decide) hregex.1
  have hdepth : depthAfter state.depth c = state.depth := by
    simp [depthAfter, isOpener, isCloser, hne '(' (by decide), hne '[' (by decide), hne '\x7b' (by decide),
      hne ')' (by decide), hne ']' (by decide), hne '\x7d' (by decide)]
  rw [readToken, if_neg (hne templateMark (by decide)), readPlain, hquote, if_neg Bool.false_ne_true, regexRest?,
    if_neg hslash] at h
  dsimp only at h
  split at h
  · obtain ⟨rfl, -⟩ := Prod.mk.inj (Except.ok.inj h)
    exact ⟨rfl, by simp⟩
  · obtain ⟨rfl, -⟩ := Prod.mk.inj (Except.ok.inj h)
    exact ⟨hdepth, by simp [hne '.' (by decide)]⟩

/-- Nor does a run of tokens through characters of names. -/
theorem CodeRun.names [Stack] {state state' : State} {t t' w : Text} {tokens : List Piece}
    (h : CodeRun state t tokens state' t') (ht : t = w ++ t') (hw : ∀ c ∈ w, isNameRest c = true)
    (hlast : state.last ≠ .mark '.') :
    state'.depth = state.depth ∧ state'.last ≠ .mark '.' := by
  induction h generalizing w with
  | done => exact ⟨rfl, hlast⟩
  | @token state next state' t rest after t' c tokens hdrop _ hread hrest ih =>
    obtain ⟨r, rfl⟩ := hrest.suffix
    obtain ⟨q, rfl⟩ := readToken_suffix hread
    obtain ⟨p, hp⟩ := Trivia.drop_suffix t
    rw [hdrop, ht] at hp
    obtain rfl : p ++ c :: (q ++ r) = w := List.append_cancel_right (by simpa using hp)
    have hnext := readToken_nameRest (hw c (by simp)) hread
    obtain ⟨hdepth, hlast'⟩ := ih rfl (fun d hd => hw d (by simp [hd])) hnext.2
    exact ⟨hdepth.trans hnext.1, hlast'⟩

theorem CodeRun.importedPaths_eq [Stack] {state state' : State} {t t' : Text} {tokens : List Piece}
    (h : CodeRun state t tokens state' t') : importedPaths state t = importedPaths state' t' := by
  induction h with
  | done => rfl
  | token hdrop hdecl hread _ ih => rw [importedPaths_of_token hdrop hdecl hread, ih]

/-- Of the last token only this is seen: whether it is a point, and whether a regular expression begins after it. -/
theorem importedPaths_of_last [Stack] {depth : Nat} {last last' : Last} {t : Text} (hlast : last ≠ .mark '.')
    (hlast' : last' ≠ .mark '.')
    (hregex : ∀ c rest, Trivia.drop t = c :: rest → regexRest? last c rest = regexRest? last' c rest) :
    importedPaths ⟨depth, last⟩ t = importedPaths ⟨depth, last'⟩ t := by
  cases hdrop : Trivia.drop t with
  | nil => rw [importedPaths, importedPaths, pieces_of_drop_nil hdrop, pieces_of_drop_nil hdrop]
  | cons c rest =>
    have hdecl : declarationAt ⟨depth, last⟩ (c :: rest) = declarationAt ⟨depth, last'⟩ (c :: rest) := by
      rw [declarationAt_eq depth _ hlast, declarationAt_eq depth _ hlast']
    have hread : readToken false ⟨depth, last⟩ c rest = readToken false ⟨depth, last'⟩ c rest := by
      unfold readToken readPlain
      rw [hregex c rest hdrop]
    cases hfound : declarationAt ⟨depth, last'⟩ (c :: rest) with
    | error fault =>
      rw [importedPaths, importedPaths, pieces_of_error hdrop (hdecl.trans hfound), pieces_of_error hdrop hfound]
    | ok found =>
      cases found with
      | some found =>
        rw [importedPaths_of_declaration hdrop (hdecl.trans hfound), importedPaths_of_declaration hdrop hfound]
      | none =>
        cases htoken : readToken false ⟨depth, last'⟩ c rest with
        | error fault =>
          rw [importedPaths, importedPaths, pieces_of_token_error hdrop (hdecl.trans hfound) (hread.trans htoken),
            pieces_of_token_error hdrop hfound htoken]
        | ok token =>
          rw [importedPaths_of_token hdrop (hdecl.trans hfound) (hread.trans htoken),
            importedPaths_of_token hdrop hfound htoken]

/-- A byte order mark and the characters of names behind it are one name of other code. -/
theorem importedPaths_mark [Stack] (t : Text) :
    importedPaths State.initial (byteOrderMark :: t) =
      importedPaths ⟨0, .word (byteOrderMark :: t.takeWhile isNameRest)⟩ (t.dropWhile isNameRest) := by
  have hdrop : Trivia.drop (byteOrderMark :: t) = byteOrderMark :: t :=
    Trivia.drop_token ⟨by decide, fun hc => absurd hc (by decide)⟩
  have hname : splitName? (byteOrderMark :: t) =
      some (byteOrderMark :: t.takeWhile isNameRest, t.dropWhile isNameRest) := by
    rw [splitName?, if_pos (by decide)]
  have hdecl : declarationAt State.initial (byteOrderMark :: t) = .ok none := by
    rw [declarationAt_none_iff]
    intro hat
    obtain ⟨rest, -, -, hkeyword, -⟩ := atDeclaration_iff.mp hat
    rw [hname] at hkeyword
    have hword := (Prod.mk.inj (Option.some.inj hkeyword)).1
    exact absurd (List.cons.inj hword).1 (by decide)
  exact importedPaths_of_token hdrop hdecl (readToken_name hname)

theorem allowsRegex_mark (t : Text) : (Last.word (byteOrderMark :: t)).allowsRegex = false := by
  simp [Last.allowsRegex, expressionKeywords, byteOrderMark]

/-- The same module paths are imported behind a byte order mark. -/
theorem BearsMark.importedPaths_eq [Stack] {t : Text} (h : BearsMark t) :
    importedPaths State.initial (byteOrderMark :: t) = importedPaths State.initial t := by
  obtain ⟨tokens, state, hrun, hseam⟩ := h
  obtain ⟨hdepth, hlast⟩ := hrun.names (List.takeWhile_append_dropWhile ..).symm
    (fun c hc => List.mem_takeWhile_imp hc) (by decide)
  rw [importedPaths_mark, hrun.importedPaths_eq]
  obtain ⟨depth, last⟩ := state
  obtain rfl : depth = 0 := hdepth
  refine importedPaths_of_last (by simp) hlast fun c rest hdrop => ?_
  have hmark := allowsRegex_mark (t.takeWhile isNameRest)
  rw [regexRest?, hmark, if_neg (by simp), regexRest?]
  split
  · rename_i hregex
    obtain ⟨rfl, hallows⟩ := hregex
    have hnone := hseam hallows
    rw [hdrop] at hnone
    have hclosed : readRegex false rest = none := by simpa [Last.mayPrecede, Last.allowsRegex] using hnone
    exact hclosed.symm
  · rfl

end ImportOrder.Source

namespace ImportOrder.Document

open Source

/-! ## Sources -/

theorem filterMap_path_joinCode (found : List Piece) :
    (joinCode found).filterMap Piece.path = found.filterMap Piece.path := by
  have hfilter : ∀ ps : List Piece, (ps.filter (·.path.isSome)).filterMap Piece.path = ps.filterMap Piece.path := by
    intro ps
    rw [List.filterMap_filter]
    congr
    funext piece
    cases piece.path with
    | none => rfl
    | some path => rfl
  rw [← hfilter (joinCode found), filter_joinCode, hfilter]

/-- The paths of a document are those that its source imports. -/
theorem parse_paths_iff [Stack] {source : Text} {imported : List Text} :
    (∃ document, parse source = .ok document ∧ document.paths = imported) ↔
      importedPaths State.initial (dropInterpreterLine source) = .ok imported := by
  have hpaths : ∀ (index : LineIndex) (n : Nat) (ps : List Piece),
      (ps.map (statementOf index n)).filterMap Statement.path = ps.filterMap Piece.path := by
    intro index n ps
    rw [List.filterMap_map]
    rfl
  unfold parse importedPaths
  cases pieces State.initial (dropInterpreterLine source) with
  | error fault => simp [Except.map]
  | ok found => simp [Except.map, paths, hpaths, filterMap_path_joinCode]

/-- White space is uniform as far as no name runs on into it. A byte order mark in front changes no module path where
the source bears it. Nor does another blank in a gap between two tokens, unless it is one beyond ASCII and stands right
behind a name or a regular expression. -/
theorem paths_uniform [Stack] {source : Text} {document : Document} (h : parse source = .ok document) :
    (¬['#', '!'] <+: source → BearsMark source →
      ∃ marked, parse (byteOrderMark :: source) = .ok marked ∧ marked.paths = document.paths) ∧
    ∀ (gap : Gap) (u x v : Text) (b b' : Char), source = u ++ b :: v →
      CodeGap gap false State.initial (dropInterpreterLine source) → gap.Holds x b v → IsSpacing b → IsSpacing b' →
      (b'.toNat < 0x80 ∨ x ≠ [] ∨ gap.wide = false) →
      ∃ respaced, parse (u ++ b' :: v) = .ok respaced ∧ respaced.paths = document.paths := by
  have hpaths := parse_paths_iff.mp ⟨document, h, rfl⟩
  constructor
  · intro hline hbears
    rw [dropInterpreterLine_eq_self hline] at hpaths
    rw [parse_paths_iff, dropInterpreterLine_eq_self (by simp [byteOrderMark]), hbears.importedPaths_eq, hpaths]
  · rintro gap u x v b b' rfl hgap hblank hb hb' hends
    have hapart : StandsApart b' x gap.wide := hends.imp_left (runsOn_of_isBlank hb'.blank)
    obtain ⟨w, hw⟩ := hgap.met.exists_append hblank
    -- the blank does not stand in the line of an interpreter, and makes none
    have hfirst : ∀ {d : Char}, IsSpacing d → ∀ c ∈ (d :: v).head?, c ≠ '#' ∧ c ≠ '!' := by
      intro d hd c hc
      obtain rfl : d = c := Option.some.inj hc
      exact ⟨hd.ne (by decide), hd.ne (by decide)⟩
    have hw' := dropInterpreterLine_swap (hfirst hb) (hfirst hb') ⟨b, rfl, hb.line⟩ hw
    rw [parse_paths_iff, hw']
    exact hgap.importedPaths_respaced hb hb' hblank hapart hw hpaths

-- The source has to bear the mark: here it makes a name with the keyword.
section

open ImportOrder.Runtime

example : (parse (byteOrderMark :: "import a from 'b'".toList)).toOption.map paths = some [] := by decide +kernel

/-- A comment and an import of a namespace: a byte order mark in front, and a no-break space behind the star. -/
theorem paths_uniform_namespace :
    (∃ marked, parse (byteOrderMark :: "// a\nimport * as b from 'c';\n".toList) = .ok marked ∧
      marked.paths = ["c".toList]) ∧
    ∃ respaced, parse "// a\nimport *\u00a0as b from 'c';\n".toList = .ok respaced ∧
      respaced.paths = ["c".toList] := by
  have hread : (parse "// a\nimport * as b from 'c';\n".toList).toOption.map paths = some ["c".toList] := by
    decide +kernel
  cases hparse : parse "// a\nimport * as b from 'c';\n".toList with
  | error error =>
    rw [hparse] at hread
    simp [Except.toOption] at hread
  | ok document =>
    rw [hparse] at hread
    have hpaths : document.paths = ["c".toList] := Option.some.inj hread
    obtain ⟨hmark, hblank⟩ := paths_uniform hparse
    rw [← hpaths]
    have hbears : BearsMark "// a\nimport * as b from 'c';\n".toList :=
      ⟨[], State.initial, .done _ _, fun _ => by decide +kernel⟩
    have hdrop : Trivia.drop "// a\nimport * as b from 'c';\n".toList = "import * as b from 'c';\n".toList := by
      decide +kernel
    have hdecl : declarationAt State.initial "import * as b from 'c';\n".toList =
        .ok (some ("c".toList, "\n".toList)) := by
      decide +kernel
    have hskip : Trivia.skip " * as b from 'c';\n".toList = .reached ('*' :: " as b from 'c';\n".toList) := by
      decide +kernel
    have hstar : HeaderGap ⟨" as b from 'c';\n".toList, false⟩ true ⟨0, .word importWord⟩
        " * as b from 'c';\n".toList :=
      .token hskip (by decide) (by decide) (readToken_mark (by decide) _) .here
    have hrespaced : "// a\nimport *\u00a0as b from 'c';\n".toList =
        "// a\nimport *".toList ++ '\u00a0' :: "as b from 'c';\n".toList := by
      decide
    refine ⟨hmark (by decide) hbears, ?_⟩
    rw [hrespaced]
    exact hblank _ _ [] _ ' ' _ (by decide) (.declaration hdrop hdecl (.header hstar)) ⟨rfl, by decide +kernel⟩
      ⟨by decide, by decide⟩ ⟨by decide, by decide⟩ (.inr (.inr rfl))

end

end ImportOrder.Document
