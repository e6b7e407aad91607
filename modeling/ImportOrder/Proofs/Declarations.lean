import ImportOrder.Proofs.Tokens
import ImportOrder.Source.Piece

/-!
# Declarations before another text

A declaration looks past its end in two more places than its tokens do: it takes what follows for its
attributes when that begins with an attribute word and a brace, and it takes a semicolon that only spaces and
tabs precede. Where neither is there, a declaration is read the same whatever follows.
-/

namespace ImportOrder.Source

/-! ## What is left is a tail -/

theorem findSpecifier_suffix [Stack] {whole t found : Text} {state : State}
    (h : findSpecifier whole state t = .ok (some found)) : found <:+ t := by
  fun_induction findSpecifier whole state t with
  | case1 | case2 | case4 | case5 => simp at h
  | case3 state t c rest hskip =>
    simp only [Except.ok.injEq, Option.some.injEq] at h
    subst h
    exact skip_suffix hskip
  | case6 state t c rest hskip _ _ after rest' hread ih =>
    have htail := (readToken_suffix hread).trans (List.suffix_cons c rest)
    exact (ih h).trans (htail.trans (skip_suffix hskip))

/-- A clause that is taken: an attribute word, then a brace and all up to the first closing one. -/
theorem skipAttributes_cases {t rest : Text} (h : skipAttributes t = .ok rest) :
    rest = t ∨ ∃ word after body, splitName? (Trivia.drop t) = some (word, after) ∧
      attributeWords.contains word = true ∧ Trivia.drop after = '\x7b' :: body ∧
      body.dropWhile (· != '\x7d') = '\x7d' :: rest := by
  unfold skipAttributes at h
  split at h
  · exact .inl (Except.ok.inj h).symm
  · rename_i word after hname
    split at h
    · rename_i hword
      split at h
      · exact .inl (Except.ok.inj h).symm
      · rename_i c body hdrop
        split at h
        · rename_i hbrace
          split at h
          · simp at h
          · rename_i d rest' hclose
            right
            obtain rfl := Except.ok.inj h
            have hd : d = '\x7d' := by
              have hhead := List.head?_dropWhile_not (fun c => c != '\x7d') body
              simpa [hclose] using hhead
            subst hd hbrace
            exact ⟨word, after, body, hname, hword, hdrop, hclose⟩
        · exact .inl (Except.ok.inj h).symm
    · exact .inl (Except.ok.inj h).symm

theorem clause_suffix {t word after body rest : Text}
    (hname : splitName? (Trivia.drop t) = some (word, after)) (hdrop : Trivia.drop after = '\x7b' :: body)
    (hclose : body.dropWhile (· != '\x7d') = '\x7d' :: rest) :
    '\x7d' :: rest <:+ body ∧ body <:+ after ∧ after <:+ t := by
  refine ⟨?_, ?_, (splitName?_suffix hname).trans (Trivia.drop_suffix t)⟩
  · rw [← hclose]
    exact List.dropWhile_suffix _
  · have htail := Trivia.drop_suffix after
    rw [hdrop] at htail
    exact (List.suffix_cons _ _).trans htail

theorem skipAttributes_suffix {t rest : Text} (h : skipAttributes t = .ok rest) : rest <:+ t := by
  rcases skipAttributes_cases h with rfl | ⟨word, after, body, hname, -, hdrop, hclose⟩
  · exact List.suffix_refl _
  · obtain ⟨hrest, hbody, hafter⟩ := clause_suffix hname hdrop hclose
    exact (List.suffix_cons _ _).trans (hrest.trans (hbody.trans hafter))

theorem skipSemicolon_suffix (t : Text) : skipSemicolon t <:+ t := by
  have htail := List.dropWhile_suffix (l := t) isInlineBlank
  unfold skipSemicolon
  split
  · exact List.suffix_refl _
  · rename_i c rest heq
    rw [heq] at htail
    split
    · exact (List.suffix_cons c rest).trans htail
    · exact List.suffix_refl _

/-! ## The looks of a declaration -/

/-- The looks of the tokens before the module specifier. -/
def headerLooks [Stack] (state : State) (t : Text) : List Look :=
  match _h : Trivia.skip t with
  | .unclosed _ => []
  | .reached [] => []
  | .reached (c :: rest) =>
    if isQuote c then []
    else if c = '=' ∨ c = ';' then []
    else
      match _h' : readToken true state c rest with
      | .error _ => []
      | .ok (after, rest') => tokenLooks state c rest ++ headerLooks after rest'
termination_by t.length
decreasing_by
  have := Trivia.reached_length ‹_›
  have := readToken_length ‹_›
  simp only [List.length_cons] at *
  omega

section

variable [Stack] {whole t rest rest' : Text} {state after : State} {c : Char}

theorem findSpecifier_unclosed {comment : Text} (hskip : Trivia.skip t = .unclosed comment) :
    findSpecifier whole state t = .error ⟨.comment, comment⟩ := by
  rw [findSpecifier.eq_def]
  split <;> simp_all

theorem findSpecifier_end (hskip : Trivia.skip t = .reached []) :
    findSpecifier whole state t = .error ⟨.declaration, whole⟩ := by
  rw [findSpecifier.eq_def]
  split <;> simp_all

theorem findSpecifier_quote (hskip : Trivia.skip t = .reached (c :: rest)) (hquote : isQuote c = true) :
    findSpecifier whole state t = .ok (some (c :: rest)) := by
  rw [findSpecifier.eq_def]
  split <;> simp_all

theorem findSpecifier_stop (hskip : Trivia.skip t = .reached (c :: rest)) (hstop : c = '=' ∨ c = ';') :
    findSpecifier whole state t = .ok none := by
  have hquote : isQuote c = false := by
    rcases hstop with rfl | rfl <;> decide
  rw [findSpecifier.eq_def]
  split <;> simp_all

theorem findSpecifier_read (hskip : Trivia.skip t = .reached (c :: rest)) (hquote : isQuote c = false)
    (hstop : ¬(c = '=' ∨ c = ';')) : findSpecifier whole state t =
      (readToken true state c rest).bind fun found => findSpecifier whole found.1 found.2 := by
  rw [findSpecifier.eq_def]
  split
  · simp_all
  · simp_all
  · rename_i d u heq
    obtain ⟨rfl, rfl⟩ : c = d ∧ rest = u := by simpa [hskip] using heq
    rw [hquote, if_neg (by simp), if_neg hstop]
    split <;> simp_all [Except.bind]

theorem findSpecifier_token (hskip : Trivia.skip t = .reached (c :: rest)) (hquote : isQuote c = false)
    (hstop : ¬(c = '=' ∨ c = ';')) (hread : readToken true state c rest = .ok (after, rest')) :
    findSpecifier whole state t = findSpecifier whole after rest' := by
  rw [findSpecifier_read hskip hquote hstop, hread, Except.bind]

theorem findSpecifier_error {fault : Fault} (hskip : Trivia.skip t = .reached (c :: rest))
    (hquote : isQuote c = false) (hstop : ¬(c = '=' ∨ c = ';'))
    (hread : readToken true state c rest = .error fault) : findSpecifier whole state t = .error fault := by
  rw [findSpecifier_read hskip hquote hstop, hread, Except.bind]

theorem headerLooks_token (hskip : Trivia.skip t = .reached (c :: rest)) (hquote : isQuote c = false)
    (hstop : ¬(c = '=' ∨ c = ';')) (hread : readToken true state c rest = .ok (after, rest')) :
    headerLooks state t = tokenLooks state c rest ++ headerLooks after rest' := by
  rw [headerLooks.eq_def]
  split
  · simp_all
  · simp_all
  · rename_i d u heq
    obtain ⟨rfl, rfl⟩ : c = d ∧ rest = u := by simpa [hskip] using heq
    rw [hquote, if_neg (by simp), if_neg hstop]
    split <;> simp_all

end

/-- A specifier that begins before `k` is found there before any other text, when the looks of the tokens
before it come out the same. -/
theorem findSpecifier_swap [Stack] {whole whole' w k k' r : Text} {state : State} (hedge : SameEdge k k')
    (hr : r ≠ []) (hlooks : LooksHold (headerLooks state (w ++ k)) k k')
    (h : findSpecifier whole state (w ++ k) = .ok (some (r ++ k))) :
    findSpecifier whole' state (w ++ k') = .ok (some (r ++ k')) := by
  generalize ht : w ++ k = t at h hlooks
  fun_induction findSpecifier whole state t generalizing w with
  | case1 | case2 | case4 | case5 => simp at h
  | case3 state t c rest hskip hquote =>
    subst ht
    have hfound : c :: rest = r ++ k := by simpa using h
    obtain ⟨r, rfl⟩ : ∃ r', r = c :: r' := by
      cases r with
      | nil => exact absurd rfl hr
      | cons d r => exact ⟨r, by rw [(List.cons.inj hfound).1]⟩
    obtain rfl : rest = r ++ k := (List.cons.inj hfound).2
    -- the quote is reached before `k'` as well, as it makes no comment
    obtain ⟨w', hw', hswap⟩ := Trivia.skip_swap hskip (by simp)
    obtain rfl : r = w' := List.append_cancel_right hw'
    have hslash : c ≠ '/' := by
      rintro rfl
      exact absurd hquote (by decide)
    exact findSpecifier_quote (hswap k' fun hc => absurd hc hslash) hquote
  | case6 state t c rest hskip hquote hstop after rest' hread ih =>
    subst ht
    have hquote' : isQuote c = false := by simpa using hquote
    have htail := findSpecifier_suffix h
    have hrest := readToken_suffix hread
    have hlen : r.length + k.length ≤ rest'.length := by simpa using htail.length_le
    have hpos : 0 < r.length := List.length_pos_iff.mpr hr
    obtain ⟨w', rfl, hswap⟩ := Trivia.skip_swap hskip (Nat.le_trans (by omega) hrest.length_le)
    obtain ⟨r', rfl⟩ : k <:+ rest' :=
      List.suffix_of_suffix_length_le (List.suffix_append w' k) hrest (by omega)
    -- the token ends before the specifier, so it is not the last thing before `k`
    have hw' : w' ≠ [] := by
      rintro rfl
      have := hrest.length_le
      simp only [List.nil_append, List.length_append] at this hlen
      omega
    rw [headerLooks_token hskip hquote' hstop hread, looksHold_append] at hlooks
    have hread' := readToken_swap hedge (.inl rfl) hlooks.1 hread
    rw [findSpecifier_token (hswap k' fun _ hnil => absurd hnil hw') hquote' hstop hread']
    exact ih rfl h hlooks.2

/-! ## What may follow a specifier -/

/-- What stands before `k`, told by its last character. -/
theorem eq_concat_of_append_eq {a x k : Text} {c : Char} (h : a ++ k = x ++ c :: k) : a = x ++ [c] := by
  rw [← List.singleton_append, ← List.append_assoc] at h
  exact List.append_cancel_right h

theorem skipSemicolon_blanks {b : Text} (hb : ∀ c ∈ b, isInlineBlank c = true) (t : Text) :
    skipSemicolon (b ++ ';' :: t) = t := by
  unfold skipSemicolon
  rw [List.dropWhile_append_of_pos hb, List.dropWhile_cons_of_neg (by decide)]
  rfl

/-- A semicolon that is taken stands behind spaces and tabs. -/
theorem skipSemicolon_cases (t : Text) :
    skipSemicolon t = t ∨ ∃ b rest, t = b ++ ';' :: rest ∧ skipSemicolon t = rest ∧
      ∀ c ∈ b, isInlineBlank c = true := by
  unfold skipSemicolon
  split
  · exact .inl rfl
  · rename_i c rest hdrop
    split
    · rename_i hc
      right
      refine ⟨t.takeWhile isInlineBlank, rest, ?_, rfl, ?_⟩
      · rw [← hc, ← hdrop, List.takeWhile_append_dropWhile]
      · intro d hd
        exact List.all_eq_true.mp List.all_takeWhile d hd
    · exact .inl rfl

theorem skipSemicolon_swap {a k k' : Text} (hk' : skipSemicolon k' = k')
    (h : skipSemicolon (a ++ k) = k) : skipSemicolon (a ++ k') = k' := by
  rcases skipSemicolon_cases (a ++ k) with hsame | ⟨b, rest, heq, hrest, hb⟩
  · obtain rfl : a = [] := List.append_left_eq_self.mp (hsame.symm.trans h)
    exact hk'
  · obtain rfl : rest = k := hrest.symm.trans h
    obtain rfl : a = b ++ [';'] := eq_concat_of_append_eq heq
    rw [List.append_assoc]
    exact skipSemicolon_blanks hb k'

theorem skipAttributes_of_not_name {t : Text} (h : splitName? (Trivia.drop t) = none) :
    skipAttributes t = .ok t := by
  rw [skipAttributes, h]

theorem skipAttributes_clause {t word after body rest : Text}
    (hname : splitName? (Trivia.drop t) = some (word, after)) (hword : attributeWords.contains word = true)
    (hdrop : Trivia.drop after = '\x7b' :: body) (hclose : body.dropWhile (· != '\x7d') = '\x7d' :: rest) :
    skipAttributes t = .ok rest := by
  unfold skipAttributes
  rw [hname]
  dsimp only
  rw [if_pos hword, hdrop]
  dsimp only
  rw [if_pos rfl, hclose]

theorem dropWhile_cons_swap {p : Char → Bool} {w k k' r : Text} {c : Char}
    (h : (w ++ k).dropWhile p = c :: (r ++ k)) : (w ++ k').dropWhile p = c :: (r ++ k') := by
  induction w with
  | nil =>
    -- the run cannot end before `k` with all of `k` still to come
    have hlen := (List.dropWhile_suffix p (l := k)).length_le
    rw [List.nil_append] at h
    rw [h, List.length_cons, List.length_append] at hlen
    omega
  | cons d w ih =>
    rw [List.cons_append] at h ⊢
    by_cases hd : p d = true
    · rw [List.dropWhile_cons_of_pos hd] at h ⊢
      exact ih h
    · rw [List.dropWhile_cons_of_neg hd] at h ⊢
      obtain ⟨rfl, htail⟩ := List.cons.inj h
      rw [List.append_cancel_right htail]

theorem drop_blanks {b : Text} (hb : ∀ c ∈ b, isInlineBlank c = true) {c : Char} {t : Text}
    (hc : Trivia.StartsToken c t) : Trivia.drop (b ++ c :: t) = c :: t := by
  have hclosed : Trivia.Closed b := by
    apply Trivia.closed_of_blanks
    intro d hd
    have hblank := hb d hd
    simp only [isInlineBlank, Bool.or_eq_true, beq_iff_eq] at hblank
    rcases hblank with rfl | rfl <;> decide
  rw [hclosed.drop_append, Trivia.drop_token hc]

/-- Attributes and a semicolon between a specifier and `k` are taken before `k'` as well, when `k'` adds no
semicolon to them. -/
theorem skipAttributes_swap {a k k' rest : Text} (hedge : SameEdge k k') (ha : a ≠ [])
    (hsemicolon : skipSemicolon k' = k')
    (h : skipAttributes (a ++ k) = .ok rest) (hrest : skipSemicolon rest = k) :
    ∃ rest', skipAttributes (a ++ k') = .ok rest' ∧ skipSemicolon rest' = k' := by
  rcases skipAttributes_cases h with rfl | ⟨word, after, body, hname, hword, hdrop, hclose⟩
  · -- no clause, so there is a semicolon
    rcases skipSemicolon_cases (a ++ k) with hsame | ⟨b, rest, heq, hrest', hb⟩
    · exact absurd (List.append_left_eq_self.mp (hsame.symm.trans hrest)) ha
    · obtain rfl : rest = k := hrest'.symm.trans hrest
      obtain rfl : a = b ++ [';'] := eq_concat_of_append_eq heq
      refine ⟨_, ?_, skipSemicolon_swap hsemicolon hrest⟩
      apply skipAttributes_of_not_name
      rw [List.append_assoc, List.singleton_append, drop_blanks hb ⟨by decide, fun hc => absurd hc (by decide)⟩]
      rfl
  · -- a clause: everything up to its closing brace stands before `k`
    obtain ⟨x, rfl⟩ : k <:+ rest := hrest ▸ skipSemicolon_suffix rest
    obtain ⟨hbody, hafter, -⟩ := clause_suffix hname hdrop hclose
    obtain ⟨b, rfl⟩ : k <:+ body := (List.suffix_append ('\x7d' :: x) k).trans hbody
    obtain ⟨r, rfl⟩ : k <:+ after := (List.suffix_append b k).trans hafter
    obtain ⟨c, u, hcons⟩ : ∃ c u, Trivia.drop (a ++ k) = c :: u := by
      cases hnil : Trivia.drop (a ++ k) with
      | nil => simp [hnil, splitName?] at hname
      | cons c u => exact ⟨c, u, rfl⟩
    rw [hcons] at hname
    have hlen : (r ++ k).length ≤ u.length := Nat.le_of_lt_succ (splitName?_length hname)
    rw [List.length_append] at hlen
    obtain ⟨w', rfl, hswap⟩ := Trivia.skip_swap (Trivia.drop_eq_cons_iff.mp hcons) (by omega)
    obtain ⟨b', hb', hswap'⟩ := Trivia.skip_swap (Trivia.drop_eq_cons_iff.mp hdrop) (by simp)
    obtain rfl : b = b' := List.append_cancel_right hb'
    have hslash : c ≠ '/' := by
      rintro rfl
      simp [splitName?, isNameStart, isBasicNonAscii] at hname
    have hname' : splitName? (Trivia.drop (a ++ k')) = some (word, r ++ k') := by
      rw [← List.cons_append] at hname
      rw [Trivia.drop_eq_cons_iff.mpr (hswap k' fun hc => absurd hc hslash), ← List.cons_append]
      exact splitName?_swap hedge (List.cons_ne_nil c w') hname
    have hdrop' : Trivia.drop (r ++ k') = '\x7b' :: (b ++ k') :=
      Trivia.drop_eq_cons_iff.mpr (hswap' k' fun hc => absurd hc (by decide))
    exact ⟨x ++ k', skipAttributes_clause hname' hword hdrop' (dropWhile_cons_swap hclose),
      skipSemicolon_swap hsemicolon hrest⟩

/-- What follows a specifier is nothing, or ends with a semicolon or a brace. -/
theorem skipAttributes_last {closed after rest : Text} (hattr : skipAttributes closed = .ok after)
    (hrest : skipSemicolon after = rest) :
    rest = closed ∨ ∃ c, (c = ';' ∨ c = '\x7d') ∧ c :: rest <:+ closed := by
  rcases skipSemicolon_cases after with hsame | ⟨b, rest', hafter, hrest', -⟩
  · obtain rfl : after = rest := hsame.symm.trans hrest
    rcases skipAttributes_cases hattr with rfl | ⟨word, u, v, hname, -, hdrop, hclose⟩
    · exact .inl rfl
    · obtain ⟨hv, hu, hword⟩ := clause_suffix hname hdrop hclose
      exact .inr ⟨'\x7d', .inr rfl, hv.trans (hu.trans hword)⟩
  · obtain rfl : rest' = rest := hrest'.symm.trans hrest
    have hsemicolon : ';' :: rest' <:+ after := ⟨b, hafter.symm⟩
    exact .inr ⟨';', .inl rfl, hsemicolon.trans (skipAttributes_suffix hattr)⟩

/-- What a declaration leaves of another text behind it: one that ends with its specifier takes the attributes
and the semicolon that stand there. -/
def leftBehind (text k : Text) : Except Fault Text :=
  if text.getLast?.any isQuote then (skipAttributes k).map skipSemicolon else .ok k

theorem leftBehind_suffix {text k left : Text} (h : leftBehind text k = .ok left) : left <:+ k := by
  unfold leftBehind at h
  split at h
  · cases hattr : skipAttributes k with
    | error fault => simp [hattr, Except.map] at h
    | ok after =>
      obtain rfl : skipSemicolon after = left := by simpa [hattr, Except.map] using h
      exact (skipSemicolon_suffix after).trans (skipAttributes_suffix hattr)
  · obtain rfl := Except.ok.inj h
    exact List.suffix_refl _

/-! ## Whole declarations -/

theorem findSpecifier_isQuote [Stack] {whole t rest : Text} {state : State} {c : Char}
    (h : findSpecifier whole state t = .ok (some (c :: rest))) : isQuote c = true := by
  fun_induction findSpecifier whole state t with
  | case1 | case2 | case4 | case5 => simp at h
  | case3 state t d u _ hquote =>
    obtain ⟨rfl, -⟩ : d = c ∧ u = rest := by simpa using h
    exact hquote
  | case6 state t d u _ _ _ after rest' _ ih => exact ih h

/-- The parts of a declaration: its specifier, what follows it up to `rest`, and its path. -/
theorem readDeclaration_cases [Stack] {t path rest : Text} (h : readDeclaration t = .ok (some (path, rest))) :
    ∃ quote content closed after,
      findSpecifier t ⟨0, .word importWord⟩ (t.drop importWord.length) = .ok (some (quote :: content)) ∧
      readString quote content = .closed closed ∧ skipAttributes closed = .ok after ∧
      skipSemicolon after = rest ∧ path = unescape (Text.before content (quote :: closed)) := by
  unfold readDeclaration at h
  split at h
  · simp at h
  · simp at h
  · simp at h
  · rename_i quote content hfind
    split at h
    · simp at h
    · rename_i closed hread
      split at h
      · simp at h
      · rename_i after hattr
        simp only [Except.ok.injEq, Option.some.injEq, Prod.mk.injEq] at h
        exact ⟨quote, content, closed, after, hfind, hread, hattr, h.2, h.1.symm⟩

theorem readDeclaration_of_parts [Stack] {t content closed : Text} {quote : Char}
    (hfind : findSpecifier t ⟨0, .word importWord⟩ (t.drop importWord.length) =
      .ok (some (quote :: content)))
    (hread : readString quote content = .closed closed) :
    readDeclaration t = (skipAttributes closed).map fun after =>
      some (unescape (Text.before content (quote :: closed)), skipSemicolon after) := by
  unfold readDeclaration
  rw [hfind]
  dsimp only
  rw [hread]
  dsimp only
  cases skipAttributes closed with
  | error fault => rfl
  | ok after => rfl

theorem isBlank_of_isQuote {c : Char} (h : isQuote c = true) : isBlank c = false := by
  simp only [isQuote, Bool.or_eq_true, beq_iff_eq] at h
  rcases h with rfl | rfl <;> decide

/-- A declaration does not end with a blank. -/
theorem readDeclaration_last [Stack] {t path rest : Text} (h : readDeclaration t = .ok (some (path, rest))) :
    ∃ c, isBlank c = false ∧ c :: rest <:+ t := by
  obtain ⟨quote, content, closed, after, hfind, hread, hattr, hrest, -⟩ := readDeclaration_cases h
  have hfound := (findSpecifier_suffix hfind).trans (List.drop_suffix _ t)
  have hcontent : content <:+ t := (List.suffix_cons quote content).trans hfound
  have hclosed : quote :: closed <:+ t := by
    obtain ⟨body, rfl⟩ := readString_closed_split hread
    exact (List.suffix_append body _).trans hcontent
  -- the last character is a semicolon, a brace or the closing quote
  rcases skipAttributes_last hattr hrest with rfl | ⟨c, hc, hlast⟩
  · exact ⟨quote, isBlank_of_isQuote (findSpecifier_isQuote hfind), hclosed⟩
  · refine ⟨c, ?_, hlast.trans ((List.suffix_cons quote closed).trans hclosed)⟩
    rcases hc with rfl | rfl <;> decide

theorem readDeclaration_properTail [Stack] {t path rest : Text}
    (h : readDeclaration t = .ok (some (path, rest))) : ProperTail rest t := by
  obtain ⟨c, -, htail⟩ := readDeclaration_last h
  exact ⟨(List.suffix_cons c rest).trans htail, htail.length_le⟩

/-- The parts of a declaration that ends right before `k`: its specifier, and what of it follows the specifier. -/
theorem readDeclaration_split [Stack] {text k path : Text} (h : readDeclaration (text ++ k) = .ok (some (path, k))) :
    ∃ front quote body a after, text = front ++ quote :: (body ++ quote :: a) ∧ importWord.length ≤ front.length ∧
      findSpecifier (text ++ k) ⟨0, .word importWord⟩ (text.drop importWord.length ++ k) =
        .ok (some (quote :: (body ++ quote :: a) ++ k)) ∧
      readString quote ((body ++ quote :: a) ++ k) = .closed (a ++ k) ∧ skipAttributes (a ++ k) = .ok after ∧
      skipSemicolon after = k ∧ path = unescape body := by
  obtain ⟨quote, content, closed, after, hfind, hread, hattr, hrest, rfl⟩ := readDeclaration_cases h
  obtain ⟨a, rfl⟩ : k <:+ closed := by
    have htail := skipSemicolon_suffix after
    rw [hrest] at htail
    exact htail.trans (skipAttributes_suffix hattr)
  obtain ⟨body, rfl⟩ := readString_closed_split hread
  obtain ⟨x, hx⟩ := findSpecifier_suffix hfind
  have htext : text = ((text ++ k).take importWord.length ++ x) ++ quote :: (body ++ quote :: a) := by
    have hwhole := List.take_append_drop importWord.length (text ++ k)
    rw [← hx] at hwhole
    exact List.append_cancel_right (by simpa using hwhole.symm)
  have hfront : importWord.length ≤ ((text ++ k).take importWord.length ++ x).length := by
    have hlen := congrArg List.length hx
    simp only [List.length_append, List.length_cons, List.length_drop, List.length_take] at hlen ⊢
    omega
  have hkeyword : importWord.length ≤ text.length := by
    rw [htext, List.length_append]
    exact Nat.le_add_right_of_le hfront
  rw [List.drop_append_of_le_length hkeyword] at hfind
  refine ⟨_, quote, body, a, after, htext, hfront, ?_, ?_, hattr, hrest, ?_⟩
  · simpa using hfind
  · simpa using hread
  · rw [Text.before_append]

/-- What a declaration reads behind its specifier in front of another text is what `leftBehind` says: a bare
specifier takes the attributes and the semicolon that stand there, and any other declaration has ended. -/
theorem skipAttributes_leftBehind {front a k k' after : Text} {quote : Char} (hquote : isQuote quote = true)
    (hedge : SameEdge k k') (hsemicolon : skipSemicolon k' = k') (hattr : skipAttributes (a ++ k) = .ok after)
    (hrest : skipSemicolon after = k) :
    (skipAttributes (a ++ k')).map skipSemicolon = leftBehind (front ++ quote :: a) k' := by
  unfold leftBehind
  by_cases ha : a = []
  · subst ha
    have hlast : (front ++ [quote]).getLast?.any isQuote = true := by
      rw [List.getLast?_concat, Option.any_some]
      exact hquote
    rw [if_pos hlast, List.nil_append]
  · obtain ⟨after', hattr', hrest'⟩ := skipAttributes_swap hedge ha hsemicolon hattr hrest
    have hlast : (front ++ quote :: a).getLast?.any isQuote = false := by
      rcases skipAttributes_last hattr hrest with hsame | ⟨c, hc, x, hx⟩
      · exact absurd (List.append_left_eq_self.mp hsame.symm) ha
      · have hend : a = x ++ [c] := eq_concat_of_append_eq hx.symm
        rw [hend, ← List.cons_append, ← List.append_assoc, List.getLast?_concat]
        rcases hc with rfl | rfl <;> rfl
    rw [hlast, if_neg (by simp), hattr', Except.map, hrest']

/-- A declaration is read the same before another text, when the looks before its specifier come out the same
and the text adds no semicolon. It leaves of the text what `leftBehind` says. -/
theorem readDeclaration_swap [Stack] {text k k' path : Text} (hedge : SameEdge k k')
    (hlooks : LooksHold (headerLooks ⟨0, .word importWord⟩ ((text ++ k).drop importWord.length)) k k')
    (hsemicolon : skipSemicolon k' = k') (h : readDeclaration (text ++ k) = .ok (some (path, k))) :
    readDeclaration (text ++ k') = (leftBehind text k').map fun left => some (path, left) := by
  obtain ⟨front, quote, body, a, after, htext, hfront, hfind, hread, hattr, hrest, rfl⟩ := readDeclaration_split h
  have hdrop : ∀ u : Text, (text ++ u).drop importWord.length = text.drop importWord.length ++ u := by
    intro u
    refine List.drop_append_of_le_length ?_
    rw [htext, List.length_append]
    exact Nat.le_add_right_of_le hfront
  rw [hdrop] at hlooks
  have hfind' : findSpecifier (text ++ k') ⟨0, .word importWord⟩ (text.drop importWord.length ++ k') =
      .ok (some (quote :: ((body ++ quote :: a) ++ k'))) :=
    findSpecifier_swap hedge (by simp) hlooks hfind
  rw [← hdrop] at hfind'
  have hbefore : Text.before ((body ++ quote :: a) ++ k') (quote :: (a ++ k')) = body := by
    rw [List.append_assoc, List.cons_append, Text.before_append]
  have hleft : (skipAttributes (a ++ k')).map skipSemicolon = leftBehind text k' := by
    rw [htext, ← List.cons_append, ← List.append_assoc]
    exact skipAttributes_leftBehind (findSpecifier_isQuote hfind) hedge hsemicolon hattr hrest
  rw [readDeclaration_of_parts hfind' (readString_closed_swap k' hread), hbefore, ← hleft]
  cases skipAttributes (a ++ k') with
  | error fault => rfl
  | ok after' => rfl

theorem holds_headerLooks [Stack] {state : State} {t : Text} : ∀ look ∈ headerLooks state t, look.Holds look.rest := by
  fun_induction headerLooks state t with
  | case1 | case2 | case3 | case4 | case5 => simp
  | case6 _ _ _ _ hskip _ _ _ _ hread ih =>
    intro look hlook
    rcases List.mem_append.mp hlook with hlook | hlook
    · exact holds_tokenLooks (Trivia.startsToken_of_skip hskip) look hlook
    · exact ih look hlook

/-- A declaration is read with the same path when nothing stands behind it. -/
theorem readDeclaration_alone [Stack] {text k path : Text} (h : readDeclaration (text ++ k) = .ok (some (path, k))) :
    readDeclaration text = .ok (some (path, [])) := by
  have hlooks : LooksHold (headerLooks ⟨0, .word importWord⟩ ((text ++ k).drop importWord.length)) k [] := by
    intro look hlook
    have hholds := holds_headerLooks look hlook
    rw [List.append_nil]
    rw [← List.take_append_drop (look.rest.length - k.length) look.rest] at hholds
    exact hholds.of_append
  have hnone : skipAttributes [] = .ok [] := by
    apply skipAttributes_of_not_name
    rw [Trivia.drop_nil]
    rfl
  have hleft : leftBehind text [] = .ok [] := by
    rw [leftBehind, hnone]
    split <;> rfl
  have hswap := readDeclaration_swap (.inr (by simp)) hlooks rfl h
  rwa [List.append_nil, hleft, Except.map] at hswap

theorem declarationAt_some_iff [Stack] {state : State} {t path rest : Text} :
    declarationAt state t = .ok (some (path, rest)) ↔
      atDeclaration state t = true ∧ readDeclaration t = .ok (some (path, rest)) := by
  unfold declarationAt
  split <;> simp_all

theorem atDeclaration_iff {state : State} {t : Text} :
    atDeclaration state t = true ↔ ∃ rest c u, splitName? t = some (importWord, rest) ∧ state.depth = 0 ∧
      state.last ≠ .mark '.' ∧ Trivia.drop rest = c :: u ∧ c ≠ '(' ∧ c ≠ '.' := by
  unfold atDeclaration
  constructor
  · intro h
    split at h
    · simp at h
    · rename_i word rest hname
      simp only [Bool.and_eq_true, beq_iff_eq, bne_iff_ne] at h
      obtain ⟨⟨⟨rfl, hdepth⟩, hlast⟩, hnext⟩ := h
      split at hnext
      · simp at hnext
      · rename_i c u hdrop
        simp only [Bool.and_eq_true, bne_iff_ne] at hnext
        exact ⟨rest, c, u, hname, hdepth, hlast, hdrop, hnext⟩
  · rintro ⟨rest, c, u, hname, hdepth, hlast, hdrop, hparen, hpoint⟩
    simp [hname, hdepth, hlast, hdrop, hparen, hpoint]

theorem findSpecifier_skip [Stack] {whole t found : Text} {state : State}
    (h : findSpecifier whole state t = .ok (some found)) :
    ∃ c u, Trivia.skip t = .reached (c :: u) ∧ found <:+ c :: u := by
  rw [findSpecifier.eq_def] at h
  split at h
  · simp at h
  · simp at h
  · rename_i c rest hskip
    refine ⟨c, rest, hskip, ?_⟩
    split at h
    · obtain rfl := Option.some.inj (Except.ok.inj h)
      exact List.suffix_refl _
    · split at h
      · simp at h
      · split at h
        · simp at h
        · rename_i after rest' hread
          exact (findSpecifier_suffix h).trans ((readToken_suffix hread).trans (List.suffix_cons c rest))

/-- The specifier of a declaration stands before what follows the declaration. -/
theorem readDeclaration_found [Stack] {text k path : Text} (h : readDeclaration (text ++ k) = .ok (some (path, k))) :
    importWord.length ≤ text.length ∧ ∃ c u, Trivia.skip (text.drop importWord.length ++ k) =
      .reached (c :: u) ∧ k.length < u.length := by
  obtain ⟨front, quote, body, a, after, htext, hfront, hfind, -⟩ := readDeclaration_split h
  obtain ⟨c, u, hskip, hfound⟩ := findSpecifier_skip hfind
  have hkeyword : importWord.length ≤ text.length := by
    rw [htext, List.length_append]
    exact Nat.le_add_right_of_le hfront
  -- the closing quote of the specifier stands before `k`, and so does all before it
  have hlen := hfound.length_le
  simp only [List.length_cons, List.length_append] at hlen
  exact ⟨hkeyword, c, u, hskip, by omega⟩

/-- Where a declaration is read before `k`, it is read before `k'` in any state that allows one. -/
theorem declarationAt_swap [Stack] {state state' : State} {text k k' path : Text} (hedge : SameEdge k k')
    (hlooks : LooksHold (headerLooks ⟨0, .word importWord⟩ ((text ++ k).drop importWord.length)) k k')
    (hsemicolon : skipSemicolon k' = k') (hdepth : state'.depth = 0) (hlast : state'.last ≠ .mark '.')
    (h : declarationAt state (text ++ k) = .ok (some (path, k))) :
    declarationAt state' (text ++ k') = (leftBehind text k').map fun left => some (path, left) := by
  obtain ⟨hat, hread⟩ := declarationAt_some_iff.mp h
  suffices hat' : atDeclaration state' (text ++ k') = true by
    rw [declarationAt, if_pos hat', readDeclaration_swap hedge hlooks hsemicolon hread]
  obtain ⟨rest, c, u, hname, -, -, hdrop, hparen, hpoint⟩ := atDeclaration_iff.mp hat
  obtain ⟨hkeyword, c', u', hskip, hlen⟩ := readDeclaration_found hread
  -- the keyword is followed by the same character as before
  have hrest : rest = text.drop importWord.length ++ k := by
    have happ := (splitName?_append hname).1
    rw [← List.drop_append_of_le_length hkeyword, ← happ, List.drop_left]
  subst hrest
  obtain ⟨rfl, rfl⟩ : c = c' ∧ u = u' := by
    rw [Trivia.drop_eq_cons_iff, hskip] at hdrop
    simpa [eq_comm] using hdrop
  obtain ⟨w', rfl, hswap⟩ := Trivia.skip_swap hskip (by omega)
  have hw' : w' ≠ [] := by
    rintro rfl
    simp at hlen
  have hne : text ≠ [] := by
    rintro rfl
    exact absurd hkeyword (by decide)
  refine atDeclaration_iff.mpr ⟨_, c, w' ++ k', splitName?_swap hedge hne hname, hdepth, hlast, ?_, hparen,
    hpoint⟩
  exact Trivia.drop_eq_cons_iff.mpr (hswap k' fun _ hnil => absurd hnil hw')

theorem declarationAt_properTail [Stack] {state : State} {t path rest : Text}
    (h : declarationAt state t = .ok (some (path, rest))) : ProperTail rest t :=
  readDeclaration_properTail (declarationAt_some_iff.mp h).2

end ImportOrder.Source
