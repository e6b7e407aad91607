import ImportOrder.Proofs.Declarations
import ImportOrder.Proofs.Outline

/-!
# Runs of other code before another text

A run of other code that a declaration follows is read the same before another text, when all looks of its
tokens come out the same. The keyword of a declaration may stand in such a run where the attempt to read a
declaration was given up: the attempt reads the same tokens as the run does, so it ends inside the run.
-/

namespace ImportOrder.Source

/-! ## Surveys -/

/-- What reading up to a later text shows: the tokens, their looks, and the state at the end. -/
structure Survey where
  tokens : List Piece
  looks : List Look
  state : State

/-- Reads the tokens of other code that stand before `k`. -/
def survey [Stack] (k : Text) (state : State) (t : Text) : Survey :=
  match _h : Trivia.drop t with
  | [] => ⟨[], [], state⟩
  | c :: rest =>
    if rest.length < k.length then ⟨[], [], state⟩
    else
      match _h' : readToken false state c rest with
      | .error _ => ⟨[], [], state⟩
      | .ok (next, after) =>
        let later := survey k next after
        ⟨⟨c :: rest, after, none⟩ :: later.tokens, tokenLooks state c rest ++ later.looks, later.state⟩
termination_by t.length
decreasing_by
  have h₁ := Trivia.drop_length t
  have h₂ := readToken_length _h'
  rw [_h] at h₁
  omega

theorem survey_done [Stack] {k t : Text} {state : State} (h : (Trivia.drop t).length ≤ k.length) :
    survey k state t = ⟨[], [], state⟩ := by
  rw [survey.eq_def]
  split
  · rfl
  · rename_i c rest hdrop
    rw [hdrop, List.length_cons] at h
    rw [if_pos (by omega)]

theorem survey_token [Stack] {k t rest after : Text} {state next : State} {c : Char}
    (hdrop : Trivia.drop t = c :: rest) (hlen : k.length ≤ rest.length)
    (hread : readToken false state c rest = .ok (next, after)) :
    survey k state t =
      ⟨⟨c :: rest, after, none⟩ :: (survey k next after).tokens,
        tokenLooks state c rest ++ (survey k next after).looks, (survey k next after).state⟩ := by
  rw [survey.eq_def]
  split
  · simp_all
  · rename_i d u hcons
    obtain ⟨rfl, rfl⟩ : c = d ∧ rest = u := by simpa [hdrop] using hcons
    rw [if_neg (by omega)]
    split <;> simp_all

/-- A survey finds the tokens of a run and the state in which it ends. -/
theorem CodeRun.survey_eq [Stack] {k t t' : Text} {state state' : State} {tokens : List Piece}
    (h : CodeRun state t tokens state' t') (hk : k <:+ t') (hend : (Trivia.drop t').length ≤ k.length) :
    (survey k state t).tokens = tokens ∧ (survey k state t).state = state' := by
  induction h with
  | done => rw [survey_done hend]; exact ⟨rfl, rfl⟩
  | token hdrop _ hread hrest ih =>
    have hlen := (hk.trans (hrest.suffix.trans (readToken_suffix hread))).length_le
    obtain ⟨htokens, hstate⟩ := ih hk hend
    rw [survey_token hdrop hlen hread]
    exact ⟨by rw [htokens], hstate⟩

/-! ## Attempts at a declaration -/

theorem isNameStart_of_splitName? {c : Char} {rest word rest' : Text}
    (h : splitName? (c :: rest) = some (word, rest')) : isNameStart c = true := by
  rw [splitName?] at h
  split at h
  · assumption
  · simp at h

theorem isQuote_of_isNameStart {c : Char} (h : isNameStart c = true) : isQuote c = false := by
  rw [Bool.eq_false_iff]
  intro hquote
  simp only [isQuote, Bool.or_eq_true, beq_iff_eq] at hquote
  rcases hquote with rfl | rfl <;> exact absurd h (by decide)

/-- A name is read as one token. -/
theorem readToken_name [Stack] {strict : Bool} {state : State} {c : Char} {rest word rest' : Text}
    (h : splitName? (c :: rest) = some (word, rest')) :
    readToken strict state c rest = .ok (⟨state.depth, .word word⟩, rest') := by
  have hstart := isNameStart_of_splitName? h
  have hmark : c ≠ templateMark := by
    rintro rfl
    exact absurd hstart (by decide)
  have hquote := isQuote_of_isNameStart hstart
  have hslash : ¬(c = '/' ∧ state.last.allowsRegex = true) := by
    rintro ⟨rfl, -⟩
    exact absurd hstart (by decide)
  have hword : splitWord? (c :: rest) = some (word, rest') := by
    rw [splitWord?, h]
    rfl
  rw [readToken, if_neg hmark, readPlain, hquote, if_neg (by simp), regexRest?, if_neg hslash]
  dsimp only
  rw [hword]

theorem findSpecifier_none_cases [Stack] {whole t : Text} {state : State}
    (h : findSpecifier whole state t = .ok none) :
    ∃ c rest, Trivia.skip t = .reached (c :: rest) ∧ isQuote c = false ∧
      ((c = '=' ∨ c = ';') ∨ ¬(c = '=' ∨ c = ';') ∧ ∃ after rest',
        readToken true state c rest = .ok (after, rest') ∧ findSpecifier whole after rest' = .ok none) := by
  rw [findSpecifier.eq_def] at h
  split at h
  · simp at h
  · simp at h
  · rename_i c rest hskip
    split at h
    · simp at h
    · rename_i hquote
      refine ⟨c, rest, hskip, by simpa using hquote, ?_⟩
      split at h
      · exact .inl ‹_›
      · rename_i hstop
        split at h
        · simp at h
        · rename_i after rest' hread
          exact .inr ⟨hstop, after, rest', hread, h⟩

/-- The declaration as a whole is named only when the text ends before its specifier. -/
theorem findSpecifier_whole [Stack] {whole whole' t found : Text} {state : State}
    (h : findSpecifier whole state t = .ok (some found)) :
    findSpecifier whole' state t = .ok (some found) := by
  fun_induction findSpecifier whole state t with
  | case1 | case2 | case4 | case5 => simp at h
  | case3 state t c rest hskip hquote =>
    rw [findSpecifier_quote hskip hquote]
    exact h
  | case6 state t c rest hskip hquote hstop after rest' hread ih =>
    rw [findSpecifier_token hskip (by simpa using hquote) hstop hread]
    exact ih h

/-- An attempt that reaches the keyword of a declaration finds the specifier of that declaration. -/
theorem findSpecifier_at_declaration [Stack] {whole t path rest : Text} {state : State}
    (h : declarationAt state (Trivia.drop t) = .ok (some (path, rest))) :
    ∃ found, findSpecifier whole state t = .ok (some found) := by
  obtain ⟨hat, hread⟩ := declarationAt_some_iff.mp h
  obtain ⟨u, -, -, hname, hdepth, -⟩ := atDeclaration_iff.mp hat
  obtain ⟨quote, content, -, -, hfind, -⟩ := readDeclaration_cases hread
  cases hdrop : Trivia.drop t with
  | nil => simp [hdrop, splitName?] at hname
  | cons c v =>
    rw [hdrop] at hname hfind
    have hstart := isNameStart_of_splitName? hname
    have hquote := isQuote_of_isNameStart hstart
    have hstop : ¬(c = '=' ∨ c = ';') := by
      rintro (rfl | rfl) <;> exact absurd hstart (by decide)
    have hrest : (c :: v).drop importWord.length = u := by
      rw [← (splitName?_append hname).1, List.drop_left]
    rw [hrest] at hfind
    have hskip := Trivia.drop_eq_cons_iff.mp hdrop
    refine ⟨quote :: content, ?_⟩
    rw [findSpecifier_token hskip hquote hstop (readToken_name hname), hdepth]
    exact findSpecifier_whole hfind

/-! ## Another text behind a run -/

section

variable [Stack] {state next state' : State} {w k k' r r₁ rest : Text} {c : Char} {tokens : List Piece}

/-- The first token of a run that goes on to `r ++ k` stands before `k`. It begins with the same character before
`k'`, unless `k'` makes a comment of a slash. -/
theorem drop_swap (hdrop : Trivia.drop (w ++ k) = c :: rest)
    (hread : readToken false state c rest = .ok (next, r₁ ++ k))
    (hlooks : LooksHold (tokenLooks state c rest) k k') :
    ∃ w', rest = w' ++ k ∧ r₁ <:+ w' ∧ Trivia.skip (w ++ k') = .reached (c :: (w' ++ k')) := by
  have htail := readToken_suffix hread
  have hlen := htail.length_le
  rw [List.length_append] at hlen
  obtain ⟨w', rfl, hswap⟩ := Trivia.skip_swap (Trivia.drop_eq_cons_iff.mp hdrop) (by omega)
  refine ⟨w', rfl, ?_, hswap k' ?_⟩
  · obtain ⟨x, hx⟩ := htail
    rw [← List.append_assoc] at hx
    exact ⟨x, List.append_cancel_right hx⟩
  · -- a slash right before `k` is a token of its own, and one of the looks
    rintro rfl rfl
    rw [List.nil_append] at hread hlooks hlen
    obtain rfl : r₁ = [] := List.length_eq_zero_iff.mp (by omega)
    exact tokenLooks_slash hlooks hread

/-- The first token of a run, and the rest of the run, before `k` and before `k'`. -/
theorem CodeRun.token_swap {u : Text} (h : CodeRun next u tokens state' (r ++ k))
    (hlooks : LooksHold (survey k state (w ++ k)).looks k k') (hdrop : Trivia.drop (w ++ k) = c :: rest)
    (hread : readToken false state c rest = .ok (next, u)) :
    ∃ r₁ w', u = r₁ ++ k ∧ rest = w' ++ k ∧ r₁ <:+ w' ∧
      Trivia.skip (w ++ k') = .reached (c :: (w' ++ k')) ∧
      LooksHold (tokenLooks state c rest) k k' ∧ LooksHold (survey k next u).looks k k' := by
  obtain ⟨r₁, rfl⟩ : k <:+ u := (List.suffix_append r k).trans h.suffix
  have hlen := ((List.suffix_append r₁ k).trans (readToken_suffix hread)).length_le
  rw [survey_token hdrop hlen hread, looksHold_append] at hlooks
  obtain ⟨w', hrest, hsuffix, hskip⟩ := drop_swap hdrop hread hlooks.1
  exact ⟨r₁, w', rfl, hrest, hsuffix, hskip, hlooks⟩

/-- An attempt at a declaration that is given up in a run is given up there before `k'` as well. -/
theorem CodeRun.findSpecifier_none_swap {whole whole' path after : Text} (hedge : SameEdge k k')
    (hlooks : LooksHold (survey k state (w ++ k)).looks k k')
    (hnext : declarationAt state' (Trivia.drop (r ++ k)) = .ok (some (path, after)))
    (hrun : CodeRun state (w ++ k) tokens state' (r ++ k))
    (h : findSpecifier whole state (w ++ k) = .ok none) :
    findSpecifier whole' state (w ++ k') = .ok none := by
  generalize ht : w ++ k = t at hrun hlooks h
  generalize ht' : r ++ k = t' at hrun hnext
  induction hrun generalizing w with
  | done state t =>
    -- the attempt would have reached the declaration behind the run and its specifier
    obtain ⟨found, hfound⟩ : ∃ found, findSpecifier whole state t = .ok (some found) :=
      findSpecifier_at_declaration hnext
    rw [hfound] at h
    simp at h
  | @token state next state' t rest u t' c tokens hdrop _ hread hrest ih =>
    subst ht ht'
    obtain ⟨r₁, w', rfl, rfl, -, hskip', hlooks⟩ := hrest.token_swap hlooks hdrop hread
    obtain ⟨d, v, hskip, hquote, hstop | ⟨hstop, a, v', hread', hnone⟩⟩ := findSpecifier_none_cases h
    · obtain ⟨rfl, -⟩ : c = d ∧ w' ++ k = v := by
        rw [Trivia.drop_eq_cons_iff.mp hdrop] at hskip
        simpa using hskip
      exact findSpecifier_stop hskip' hstop
    · obtain ⟨rfl, rfl⟩ : c = d ∧ w' ++ k = v := by
        rw [Trivia.drop_eq_cons_iff.mp hdrop] at hskip
        simpa using hskip
      -- the attempt and the run read the same token
      obtain ⟨rfl, rfl⟩ : next = a ∧ r₁ ++ k = v' := by
        have hsame := hread.symm.trans (readToken_lenient hread')
        simpa using hsame
      rw [findSpecifier_token hskip' hquote hstop (readToken_swap hedge (.inl rfl) hlooks.1 hread')]
      exact ih rfl hlooks.2 hnone rfl hnext

theorem declarationAt_none_iff {t : Text} :
    declarationAt state t = .ok none ↔ (atDeclaration state t = true → readDeclaration t = .ok none) := by
  unfold declarationAt
  split <;> simp_all

theorem findSpecifier_ne_nil {whole t : Text} : findSpecifier whole state t ≠ .ok (some []) := by
  intro h
  fun_induction findSpecifier whole state t with
  | case1 | case2 | case3 | case4 | case5 => simp at h
  | case6 _ _ _ _ _ _ _ _ _ _ ih => exact ih h

/-- Giving up a declaration is giving up the search for its specifier. -/
theorem readDeclaration_none_iff {t : Text} :
    readDeclaration t = .ok none ↔
      findSpecifier t ⟨0, .word importWord⟩ (t.drop importWord.length) = .ok none := by
  unfold readDeclaration
  split
  · simp_all
  · simp_all
  · rename_i hfind
    exact absurd hfind findSpecifier_ne_nil
  · rename_i quote content hfind
    rw [hfind]
    split
    · simp
    · split <;> simp

/-- A name that is the first token of a run is the same name before `k'`. -/
theorem splitName?_token_swap {w' word u : Text} (hedge : SameEdge k k')
    (hread : readToken false state c (w' ++ k) = .ok (next, r₁ ++ k))
    (h : splitName? (c :: (w' ++ k')) = some (word, u)) :
    splitName? (c :: (w' ++ k)) = some (word, r₁ ++ k) ∧ u = r₁ ++ k' ∧ next = ⟨state.depth, .word word⟩ := by
  cases hsplit : splitName? (c :: (w' ++ k)) with
  | none =>
    have hnone : splitName? (c :: w' ++ k') = none := splitName?_none_swap hedge hsplit
    rw [List.cons_append, h] at hnone
    simp at hnone
  | some found =>
    obtain ⟨word', u'⟩ := found
    have hsame := hread.symm.trans (readToken_name hsplit)
    simp only [Except.ok.injEq, Prod.mk.injEq] at hsame
    obtain ⟨rfl, rfl⟩ := hsame
    have hswap : splitName? (c :: w' ++ k') = some (word', r₁ ++ k') :=
      splitName?_swap hedge (List.cons_ne_nil c w') hsplit
    rw [List.cons_append, h] at hswap
    simp only [Option.some.injEq, Prod.mk.injEq] at hswap
    obtain ⟨rfl, rfl⟩ := hswap
    exact ⟨rfl, rfl, rfl⟩

/-- What follows a token of a run begins before `k` as it does before `k'`, as far as the keyword of a declaration
looks. -/
theorem CodeRun.head_swap {path after v : Text} {d : Char}
    (hnext : declarationAt state' (Trivia.drop (r ++ k)) = .ok (some (path, after)))
    (hlooks : LooksHold (survey k state (w ++ k)).looks k k')
    (hrun : CodeRun state (w ++ k) tokens state' (r ++ k)) (hdrop' : Trivia.drop (w ++ k') = d :: v)
    (hparen : d ≠ '(') (hpoint : d ≠ '.') :
    ∃ d' v', Trivia.drop (w ++ k) = d' :: v' ∧ d' ≠ '(' ∧ d' ≠ '.' := by
  generalize ht : w ++ k = t at hrun hlooks
  generalize ht' : r ++ k = t' at hrun hnext
  cases hrun with
  | done =>
    -- a declaration begins with a letter
    obtain ⟨rest, -, -, hname, -⟩ := atDeclaration_iff.mp (declarationAt_some_iff.mp hnext).1
    cases hdrop : Trivia.drop t with
    | nil => simp [hdrop, splitName?] at hname
    | cons d' v' =>
      rw [hdrop] at hname
      have hstart := isNameStart_of_splitName? hname
      refine ⟨d', v', rfl, ?_, ?_⟩
      · rintro rfl
        exact absurd hstart (by decide)
      · rintro rfl
        exact absurd hstart (by decide)
  | @token _ next _ _ rest u _ c tokens hdrop _ hread hrest =>
    subst ht ht'
    obtain ⟨r₁, w', rfl, rfl, -, hskip', hlooks⟩ := hrest.token_swap hlooks hdrop hread
    rw [Trivia.drop_eq_cons_iff.mpr hskip'] at hdrop'
    obtain ⟨rfl, -⟩ := List.cons.inj hdrop'
    exact ⟨c, w' ++ k, hdrop, hparen, hpoint⟩

/-- Where a run goes on behind the token that begins here, no declaration begins here before `k'` either. -/
theorem CodeRun.declarationAt_none_swap {w' path after : Text} (hedge : SameEdge k k')
    (hlooks : LooksHold (survey k next (r₁ ++ k)).looks k k')
    (hnext : declarationAt state' (Trivia.drop (r ++ k)) = .ok (some (path, after)))
    (hrun : CodeRun next (r₁ ++ k) tokens state' (r ++ k))
    (hread : readToken false state c (w' ++ k) = .ok (next, r₁ ++ k))
    (h : declarationAt state (c :: (w' ++ k)) = .ok none) :
    declarationAt state (c :: (w' ++ k')) = .ok none := by
  rw [declarationAt_none_iff] at h ⊢
  intro hat'
  obtain ⟨u, d, v, hname', hdepth, hlast, hdrop', hparen, hpoint⟩ := atDeclaration_iff.mp hat'
  obtain ⟨hname, rfl, rfl⟩ := splitName?_token_swap hedge hread hname'
  obtain ⟨d', v', hdrop, hparen', hpoint'⟩ := hrun.head_swap hnext hlooks hdrop' hparen hpoint
  -- so an attempt was made before `k` too, and it was given up in the run
  have hat := atDeclaration_iff.mpr ⟨_, d', v', hname, hdepth, hlast, hdrop, hparen', hpoint'⟩
  have hkeyword : (c :: (w' ++ k)).drop importWord.length = r₁ ++ k := by
    rw [← (splitName?_append hname).1, List.drop_left]
  have hkeyword' : (c :: (w' ++ k')).drop importWord.length = r₁ ++ k' := by
    rw [← (splitName?_append hname').1, List.drop_left]
  have hnone := readDeclaration_none_iff.mp (h hat)
  rw [hkeyword] at hnone
  rw [hdepth] at hlooks hrun
  rw [readDeclaration_none_iff, hkeyword']
  exact hrun.findSpecifier_none_swap hedge hlooks hnext hnone

/-- A run that a declaration follows is read the same before another text, when all its looks come out the same:
its tokens have the same text, and it ends in the same state. -/
theorem CodeRun.swap {path after : Text} (hedge : SameEdge k k') (hk : k ≠ [])
    (hlooks : LooksHold (survey k state (w ++ k)).looks k k')
    (hnext : declarationAt state' (Trivia.drop (r ++ k)) = .ok (some (path, after)))
    (h : CodeRun state (w ++ k) tokens state' (r ++ k)) :
    ∃ tokens', CodeRun state (w ++ k') tokens' state' (r ++ k') ∧
      tokens'.map Piece.text = tokens.map Piece.text := by
  generalize ht : w ++ k = t at h hlooks
  generalize ht' : r ++ k = t' at h hnext
  induction h generalizing w with
  | done state t =>
    obtain rfl : w = r := List.append_cancel_right (ht.trans ht'.symm)
    exact ⟨[], .done _ _, rfl⟩
  | @token state next state' t rest u t' c tokens hdrop hdecl hread hrest ih =>
    subst ht ht'
    obtain ⟨r₁, w', rfl, rfl, ⟨x, rfl⟩, hskip', hlooks⟩ := hrest.token_swap hlooks hdrop hread
    obtain ⟨tokens', hrun', htexts⟩ := ih rfl hlooks.2 rfl hnext
    have hdecl' := hrest.declarationAt_none_swap hedge hlooks.2 hnext hread hdecl
    have hread' := readToken_swap hedge (.inr hk) hlooks.1 hread
    refine ⟨_, .token (Trivia.drop_eq_cons_iff.mpr hskip') hdecl' hread' hrun', ?_⟩
    -- the text of the token does not reach into `k`
    rw [List.map_cons, List.map_cons, htexts]
    congr 1
    show Text.before (c :: (x ++ r₁ ++ k')) (r₁ ++ k') = Text.before (c :: (x ++ r₁ ++ k)) (r₁ ++ k)
    rw [List.append_assoc, List.append_assoc, ← List.cons_append, ← List.cons_append, Text.before_append,
      Text.before_append]

end

/-! ## Another token before a run -/

/-- Whether what begins so is read after this token as after a semicolon: the token lets a slash open a regular
expression, or no regular expression begins here. -/
def Last.mayPrecede (last : Last) : Text → Bool
  | '/' :: rest => last.allowsRegex || (readRegex false rest).isNone
  | _ => true

theorem regexRest?_eq {last : Last} {c : Char} {rest : Text} (h : last.mayPrecede (c :: rest) = true) :
    regexRest? last c rest = regexRest? (.mark ';') c rest := by
  unfold regexRest?
  by_cases hc : c = '/'
  · subst hc
    simp only [Last.mayPrecede, Bool.or_eq_true, Option.isNone_iff_eq_none] at h
    rcases h with hallows | hnone
    · rw [hallows]
      rfl
    · rw [hnone]
      simp
  · rw [if_neg fun hslash => hc hslash.1, if_neg fun hslash => hc hslash.1]

theorem readToken_eq [Stack] {last : Last} {c : Char} {rest : Text} (strict : Bool) (depth : Nat)
    (h : last.mayPrecede (c :: rest) = true) :
    readToken strict ⟨depth, last⟩ c rest = readToken strict ⟨depth, .mark ';'⟩ c rest := by
  unfold readToken readPlain
  rw [regexRest?_eq h]

theorem declarationAt_eq [Stack] {last : Last} (depth : Nat) (t : Text) (h : last ≠ .mark '.') :
    declarationAt ⟨depth, last⟩ t = declarationAt ⟨depth, .mark ';'⟩ t := by
  have hlast : (last != .mark '.') = true := by simpa using h
  unfold declarationAt atDeclaration
  dsimp only
  rw [hlast]
  rfl

/-- A run that begins after a semicolon may begin after any token that may precede it. -/
theorem CodeRun.of_mayPrecede [Stack] {depth : Nat} {last : Last} {t t' : Text} {state' : State}
    {tokens : List Piece} (h : CodeRun ⟨depth, .mark ';'⟩ t tokens state' t') (hne : tokens ≠ [])
    (hlast : last ≠ .mark '.') (hseam : last.mayPrecede (Trivia.drop t) = true) :
    CodeRun ⟨depth, last⟩ t tokens state' t' := by
  cases h with
  | done => exact absurd rfl hne
  | token hdrop hdecl hread hrest =>
    rw [hdrop] at hseam
    rw [← declarationAt_eq depth _ hlast] at hdecl
    rw [← readToken_eq false depth hseam] at hread
    exact .token hdrop hdecl hread hrest

/-- What may precede a token before `k` may precede it before `k'`, when the looks of the token come out the same. -/
theorem Last.mayPrecede_swap {last : Last} {c : Char} {w k k' : Text}
    (hlooks : LooksHold (tokenLooks ⟨0, .mark ';'⟩ c (w ++ k)) k k')
    (h : last.mayPrecede (c :: (w ++ k)) = true) : last.mayPrecede (c :: (w ++ k')) = true := by
  by_cases hc : c = '/'
  · subst hc
    have hregex : ∀ u, regexRest? (.mark ';') '/' u = readRegex false u := fun u => if_pos ⟨rfl, rfl⟩
    simp only [Last.mayPrecede, Bool.or_eq_true, Option.isNone_iff_eq_none] at h ⊢
    rcases h with hallows | hnone
    · exact .inl hallows
    · right
      rw [tokenLooks, if_neg (by decide)] at hlooks
      rw [← hregex] at hnone ⊢
      exact regexRest?_none_swap (by decide) hlooks hnone
  · unfold Last.mayPrecede
    split
    · rename_i heq
      exact absurd (List.cons.inj heq).1 hc
    · rfl

theorem CodeRun.mayPrecede_swap [Stack] {last : Last} {w k k' r : Text} {state' : State} {tokens : List Piece}
    (hlooks : LooksHold (survey k ⟨0, .mark ';'⟩ (w ++ k)).looks k k')
    (h : CodeRun ⟨0, .mark ';'⟩ (w ++ k) tokens state' (r ++ k)) (hne : tokens ≠ [])
    (hseam : last.mayPrecede (Trivia.drop (w ++ k)) = true) :
    last.mayPrecede (Trivia.drop (w ++ k')) = true := by
  generalize ht : w ++ k = t at h hlooks hseam
  generalize ht' : r ++ k = t' at h
  cases h with
  | done => exact absurd rfl hne
  | @token _ next _ _ rest u _ c tokens hdrop _ hread hrest =>
    subst ht ht'
    obtain ⟨r₁, w', rfl, rfl, -, hskip', hlooks⟩ := hrest.token_swap hlooks hdrop hread
    rw [hdrop] at hseam
    rw [Trivia.drop_eq_cons_iff.mpr hskip']
    exact Last.mayPrecede_swap hlooks.1 hseam

/-! ## The statements of an outline -/

/-- How a section of an outline was read: `before` are the sections in front of it, `behind` those that follow.
Other code that does not stand first begins after a declaration, and is followed by one. -/
inductive SectionRead [Stack] (state : State) (before : List Section) (behind : List Section) : Section → Prop
  | declaration {state' : State} {start rest path : Text} :
      declarationAt state' start = .ok (some (path, rest)) →
      SectionRead state before behind ⟨⟨start, rest, some path⟩, [⟨start, rest, some path⟩]⟩
  | code {state' next : State} {start rest : Text} {tokens : List Piece} :
      (before = [] → state' = state) → (before ≠ [] → state' = ⟨0, .mark ';'⟩) → tokens ≠ [] →
      CodeRun state' start tokens next rest →
      (∀ s ∈ behind.head?, ∃ path,
        declarationAt next (Trivia.drop rest) = .ok (some (path, s.piece.rest))) →
      SectionRead state before behind ⟨⟨start, rest, none⟩, tokens⟩

theorem depth_of_declarationAt [Stack] {state : State} {t : Text} {found : Text × Text}
    (h : declarationAt state t = .ok (some found)) : state.depth = 0 ∧ state.last ≠ .mark '.' := by
  obtain ⟨path, rest⟩ := found
  obtain ⟨-, -, -, -, hdepth, hlast, -⟩ := atDeclaration_iff.mp (declarationAt_some_iff.mp h).1
  exact ⟨hdepth, hlast⟩

theorem Outline.declaration_of_isSome [Stack] {state : State} {t : Text} {s : Section} {sections : List Section}
    (h : Outline state t (s :: sections)) (hpath : s.piece.path.isSome) :
    ∃ path, declarationAt state (Trivia.drop t) = .ok (some (path, s.piece.rest)) := by
  cases h with
  | declaration hdrop hdecl => exact ⟨_, by rw [hdrop, hdecl]⟩
  | code => simp at hpath

/-- Every section of an outline was read as a declaration or as other code between declarations. -/
theorem Outline.section_read [Stack] {state : State} {t : Text} {sections before behind : List Section} {s : Section}
    (h : Outline state t sections) (hsplit : sections = before ++ s :: behind) :
    SectionRead state before behind s := by
  induction h generalizing before with
  | done => simp at hsplit
  | @declaration state t start rest path sections hdrop hdecl houtline ih =>
    cases before with
    | nil =>
      obtain ⟨rfl, rfl⟩ := List.cons.inj hsplit
      exact .declaration hdecl
    | cons first before =>
      obtain ⟨rfl, rfl⟩ := List.cons.inj hsplit
      have hdepth := (depth_of_declarationAt hdecl).1
      cases ih rfl with
      | declaration hdecl' => exact .declaration hdecl'
      | code hfirst hlater hne hrun hnext =>
        refine .code (by simp) (fun _ => ?_) hne hrun hnext
        -- right behind the declaration, or after a later one
        by_cases hnil : before = []
        · rw [hfirst hnil, hdepth]
        · exact hlater hnil
  | @code state state' t start rest tokens sections hdrop hne hrun hnext houtline ih =>
    cases before with
    | nil =>
      obtain ⟨rfl, rfl⟩ := List.cons.inj hsplit
      refine .code (fun _ => rfl) (fun hnil => absurd rfl hnil) hne hrun ?_
      intro s' hs'
      obtain ⟨others, rfl⟩ := List.head?_eq_some_iff.mp hs'
      exact houtline.declaration_of_isSome (hnext s' rfl)
    | cons first before =>
      obtain ⟨rfl, rfl⟩ := List.cons.inj hsplit
      cases before with
      | nil =>
        -- what follows other code is a declaration
        have hpath := hnext s rfl
        cases ih rfl with
        | declaration hdecl => exact .declaration hdecl
        | code => simp at hpath
      | cons second before =>
        cases ih rfl with
        | declaration hdecl => exact .declaration hdecl
        | code hfirst hlater hne' hrun' hnext' =>
          exact .code (by simp) (fun _ => hlater (by simp)) hne' hrun' hnext'

end ImportOrder.Source
