import ImportOrder.Proofs.Declarations
import ImportOrder.Proofs.Outline

/-!
# Faults lie in declarations

A part of the source that is not read to its end is named by the text from its first character on. That text is a tail
of what was read and never empty, so the offset of a fault is the place of a character. Only reading a declaration
finds something that is not closed: other code is read leniently, whatever it holds, as long as the stack has room for
its templates.
-/

namespace ImportOrder.Source

/-- What is named lies in a text: it is a tail of the text and has a first character. -/
structure LiesIn (tail t : Text) : Prop where
  suffix : tail <:+ t
  ne_nil : tail ≠ []

theorem LiesIn.of_suffix {tail u t : Text} (h : LiesIn tail u) (hu : u <:+ t) : LiesIn tail t :=
  ⟨h.suffix.trans hu, h.ne_nil⟩

theorem liesIn_cons (c : Char) (t : Text) : LiesIn (c :: t) (c :: t) :=
  ⟨List.suffix_refl _, by simp⟩

theorem unclosed_liesIn {t comment : Text} (h : Trivia.skip t = .unclosed comment) : LiesIn comment t := by
  fun_induction Trivia.skip t with
  | case1 => simp at h
  | case2 r ih =>
    have hfeed : Trivia.fromLineFeed r <:+ '/' :: '/' :: r :=
      (List.dropWhile_suffix _).trans ((List.suffix_cons _ _).trans (List.suffix_cons _ _))
    exact (ih h).of_suffix hfeed
  | case3 r after hclose ih =>
    obtain ⟨body, rfl, -⟩ := Trivia.afterClose_split hclose
    have hafter : after <:+ '/' :: '*' :: (body ++ after) := ⟨'/' :: '*' :: body, rfl⟩
    exact (ih h).of_suffix hafter
  | case4 r hclose =>
    obtain rfl : '/' :: '*' :: r = comment := by simpa using h
    exact liesIn_cons _ _
  | case5 c r _ _ _ ih => exact (ih h).of_suffix (List.suffix_cons c r)
  | case6 => simp at h

/-! ## Tokens -/

theorem readPlain_fault {strict : Bool} {state : State} {c : Char} {rest : Text} {fault : Fault}
    (h : readPlain strict state c rest = .error fault) : fault.tail = c :: rest := by
  unfold readPlain at h
  split at h
  · split at h
    · simp at h
    · split at h
      · rw [← Except.error.inj h]
      · simp at h
  · split at h
    · simp at h
    · split at h <;> simp at h

theorem cutTemplates_fault {strict : Bool} {top : Frame} {outer : List Frame} {fault : Fault}
    (h : cutTemplates strict top outer = .error fault) : fault.tail = top.opening := by
  unfold cutTemplates at h
  split at h
  · rw [← Except.error.inj h]
  · simp at h

/-- A fault in open templates is one of them, or lies in the text that is left. -/
theorem readTemplates_fault [Stack] {strict : Bool} {mode : Mode} {top : Frame} {outer : List Frame} {t whole : Text}
    {fault : Fault} (ht : t <:+ whole) (htop : LiesIn top.opening whole)
    (houter : ∀ frame ∈ outer, LiesIn frame.opening whole)
    (h : readTemplates strict mode top outer t = .error fault) : LiesIn fault.tail whole := by
  fun_induction readTemplates strict mode top outer t with
  | case1 top outer =>
    rw [cutTemplates_fault h]
    exact htop
  | case2 _ _ r ih =>
    exact ih (((List.drop_suffix 1 r).trans (List.suffix_cons _ r)).trans ht) htop houter h
  | case3 _ _ r ih =>
    have hrest : r <:+ '$' :: '\x7b' :: r := ⟨['$', '\x7b'], rfl⟩
    exact ih (hrest.trans ht) htop houter h
  | case4 => simp at h
  | case5 _ r next outer _ _ ih =>
    -- the inner template ends, and the one around it is the innermost again
    refine ih ((List.suffix_cons _ r).trans ht) (houter next (by simp)) ?_ h
    exact fun frame hframe => houter frame (List.mem_cons_of_mem _ hframe)
  | case6 _ _ _ r _ _ _ ih => exact ih ((List.suffix_cons _ r).trans ht) htop houter h
  | case7 _ _ _ _ comment hskip _ =>
    rw [← Except.error.inj h]
    exact (unclosed_liesIn hskip).of_suffix ht
  | case8 | case9 =>
    rw [cutTemplates_fault h]
    exact htop
  | case10 _ _ _ _ _ r hskip _ ih =>
    exact ih (((List.suffix_cons _ r).trans (skip_suffix hskip)).trans ht) htop houter h
  | case11 top outer t _ r _ hskip _ ih =>
    have hopening := (skip_suffix hskip).trans ht
    refine ih ((List.suffix_cons _ r).trans hopening) ((liesIn_cons _ r).of_suffix hopening) ?_ h
    intro frame hframe
    rcases List.mem_cons.mp hframe with rfl | hframe
    · exact htop
    · exact houter frame hframe
  | case12 _ _ _ _ r _ hskip _ =>
    rw [← Except.error.inj h]
    exact (liesIn_cons _ r).of_suffix ((skip_suffix hskip).trans ht)
  | case13 _ _ _ _ c r hskip _ _ fault' hread =>
    rw [← Except.error.inj h, readPlain_fault hread]
    exact (liesIn_cons c r).of_suffix ((skip_suffix hskip).trans ht)
  | case14 _ _ _ _ _ r hskip _ _ _ _ hread ih =>
    have hrest := (readPlain_suffix hread).trans ((List.suffix_cons _ r).trans (skip_suffix hskip))
    exact ih (hrest.trans ht) htop houter h

theorem readToken_fault [Stack] {strict : Bool} {state : State} {c : Char} {rest : Text} {fault : Fault}
    (h : readToken strict state c rest = .error fault) : LiesIn fault.tail (c :: rest) := by
  unfold readToken at h
  split at h
  · split at h
    · exact readTemplates_fault (List.suffix_cons c rest) (liesIn_cons c rest) (by simp) h
    · rw [← Except.error.inj h]
      exact liesIn_cons c rest
  · rw [readPlain_fault h]
    exact liesIn_cons c rest

theorem exists_readPlain (state : State) (c : Char) (rest : Text) :
    ∃ next after, readPlain false state c rest = .ok (next, after) := by
  unfold readPlain
  split
  · split
    · exact ⟨_, _, rfl⟩
    · exact ⟨_, _, rfl⟩
  · split
    · exact ⟨_, _, rfl⟩
    · split
      · exact ⟨_, _, rfl⟩
      · exact ⟨_, _, rfl⟩

/-- Lenient reading ends open templates with the text, if nothing else does, unless the stack runs out. -/
theorem readTemplates_lenient_fault [Stack] {mode : Mode} {top : Frame} {outer : List Frame} {t : Text} {fault : Fault}
    (h : readTemplates false mode top outer t = .error fault) : fault.part = .nesting := by
  fun_induction readTemplates false mode top outer t with
  | case1 | case8 | case9 => simp [cutTemplates] at h
  | case2 _ _ _ ih | case3 _ _ _ ih => exact ih h
  | case4 => simp at h
  | case5 _ _ _ _ _ _ ih => exact ih h
  | case6 _ _ _ _ _ _ _ ih => exact ih h
  | case7 => contradiction
  | case10 _ _ _ _ _ _ _ _ ih => exact ih h
  | case11 _ _ _ _ _ _ _ _ ih => exact ih h
  | case12 => rw [← Except.error.inj h]
  | case13 _ _ _ state c rest _ _ _ fault hread =>
    obtain ⟨next, after, hok⟩ := exists_readPlain state c rest
    simp [hok] at hread
  | case14 _ _ _ _ _ _ _ _ _ _ _ _ ih => exact ih h

/-- Lenient reading takes a token from any text, unless the stack runs out. -/
theorem readToken_lenient_fault [Stack] {state : State} {c : Char} {rest : Text} {fault : Fault}
    (h : readToken false state c rest = .error fault) : fault.part = .nesting := by
  unfold readToken at h
  split at h
  · split at h
    · exact readTemplates_lenient_fault h
    · rw [← Except.error.inj h]
  · obtain ⟨next, after, hok⟩ := exists_readPlain state c rest
    simp [hok] at h

/-! ## Declarations -/

theorem findSpecifier_fault [Stack] {whole t : Text} {state : State} {fault : Fault} (hwhole : whole ≠ [])
    (ht : t <:+ whole) (h : findSpecifier whole state t = .error fault) : LiesIn fault.tail whole := by
  fun_induction findSpecifier whole state t with
  | case1 _ _ comment hskip =>
    rw [← Except.error.inj h]
    exact (unclosed_liesIn hskip).of_suffix ht
  | case2 =>
    rw [← Except.error.inj h]
    exact ⟨List.suffix_refl _, hwhole⟩
  | case3 | case4 => simp at h
  | case5 _ _ c rest hskip _ _ fault' hread =>
    rw [← Except.error.inj h]
    exact (readToken_fault hread).of_suffix ((skip_suffix hskip).trans ht)
  | case6 _ _ c rest hskip _ _ after rest' hread ih =>
    have hrest := (readToken_suffix hread).trans ((List.suffix_cons c rest).trans (skip_suffix hskip))
    exact ih (hrest.trans ht) h

theorem skipAttributes_fault {t : Text} {fault : Fault} (h : skipAttributes t = .error fault) :
    LiesIn fault.tail t := by
  unfold skipAttributes at h
  split at h
  · simp at h
  · rename_i word after hname
    have hafter := (splitName?_suffix hname).trans (Trivia.drop_suffix t)
    split at h
    · split at h
      · simp at h
      · rename_i c body hdrop
        have hbody := Trivia.drop_suffix after
        rw [hdrop] at hbody
        split at h
        · split at h
          · rw [← Except.error.inj h]
            exact (liesIn_cons c body).of_suffix (hbody.trans hafter)
          · simp at h
        · simp at h
    · simp at h

theorem readDeclaration_fault [Stack] {t : Text} {fault : Fault} (ht : t ≠ []) (h : readDeclaration t = .error fault) :
    LiesIn fault.tail t := by
  have hdrop := List.drop_suffix importWord.length t
  unfold readDeclaration at h
  split at h
  · rename_i fault' hfind
    rw [← Except.error.inj h]
    exact findSpecifier_fault ht hdrop hfind
  · simp at h
  · simp at h
  · rename_i quote content hfind
    have hfound := (findSpecifier_suffix hfind).trans hdrop
    split at h
    · rw [← Except.error.inj h]
      exact (liesIn_cons quote content).of_suffix hfound
    · rename_i closed hread
      obtain ⟨body, rfl⟩ := readString_closed_split hread
      have hclosed : closed <:+ quote :: (body ++ quote :: closed) := ⟨quote :: (body ++ [quote]), by simp⟩
      split at h
      · rename_i fault' hattributes
        rw [← Except.error.inj h]
        exact (skipAttributes_fault hattributes).of_suffix (hclosed.trans hfound)
      · simp at h

/-! ## Whole texts -/

/-- A text that cannot be read has a declaration in it that cannot be read, unless the stack runs out. -/
theorem pieces_error [Stack] {state : State} {t : Text} {fault : Fault} (h : pieces state t = .error fault) :
    (fault.part = .nesting ∧ LiesIn fault.tail t) ∨
      ∃ state' start, start <:+ t ∧ atDeclaration state' start = true ∧ readDeclaration start = .error fault := by
  fun_induction pieces state t with
  | case1 => simp at h
  | case2 state t c rest hdrop fault' hdecl =>
    have htail := Trivia.drop_suffix t
    rw [hdrop] at htail
    obtain rfl := Except.error.inj h
    unfold declarationAt at hdecl
    split at hdecl
    · rename_i hat
      exact .inr ⟨state, c :: rest, htail, hat, hdecl⟩
    · simp at hdecl
  | case3 state t c rest hdrop path after hdecl fault' hothers ih =>
    have htail := Trivia.drop_suffix t
    rw [hdrop] at htail
    obtain rfl := Except.error.inj h
    have hafter := (declarationAt_properTail hdecl).1.trans htail
    rcases ih hothers with ⟨hnesting, hlies⟩ | ⟨state', start, hstart, hfault⟩
    · exact .inl ⟨hnesting, hlies.of_suffix hafter⟩
    · exact .inr ⟨state', start, hstart.trans hafter, hfault⟩
  | case4 => simp at h
  | case5 state t c rest hdrop hdecl fault' hread =>
    -- outside declarations every token can be read that there is room for
    have htail := Trivia.drop_suffix t
    rw [hdrop] at htail
    obtain rfl := Except.error.inj h
    exact .inl ⟨readToken_lenient_fault hread, (readToken_fault hread).of_suffix htail⟩
  | case6 state t c rest hdrop hdecl next after hread fault' hothers ih =>
    have htail := Trivia.drop_suffix t
    rw [hdrop] at htail
    obtain rfl := Except.error.inj h
    have hafter := ((readToken_suffix hread).trans (List.suffix_cons c rest)).trans htail
    rcases ih hothers with ⟨hnesting, hlies⟩ | ⟨state', start, hstart, hfault⟩
    · exact .inl ⟨hnesting, hlies.of_suffix hafter⟩
    · exact .inr ⟨state', start, hstart.trans hafter, hfault⟩
  | case7 => simp at h

theorem atDeclaration_ne_nil {state : State} {t : Text} (h : atDeclaration state t = true) : t ≠ [] := by
  rintro rfl
  simp [atDeclaration, splitName?] at h

/-- The fault of a text that cannot be read lies in it. -/
theorem pieces_fault [Stack] {state : State} {t : Text} {fault : Fault} (h : pieces state t = .error fault) :
    LiesIn fault.tail t := by
  rcases pieces_error h with ⟨-, hlies⟩ | ⟨state', start, hstart, hat, hfault⟩
  · exact hlies
  · exact (readDeclaration_fault (atDeclaration_ne_nil hat) hfault).of_suffix hstart

/-- Reading depends only on what follows the trivia in front. -/
theorem pieces_of_drop_eq [Stack] {state : State} {t t' : Text} (h : Trivia.drop t = Trivia.drop t') :
    pieces state t = pieces state t' := by
  cases hdrop : Trivia.drop t with
  | nil => rw [pieces_of_drop_nil hdrop, pieces_of_drop_nil (h.symm.trans hdrop)]
  | cons c rest =>
    have hdrop' := h.symm.trans hdrop
    cases hdecl : declarationAt state (c :: rest) with
    | error fault => rw [pieces_of_error hdrop hdecl, pieces_of_error hdrop' hdecl]
    | ok found =>
      cases found with
      | some found => rw [pieces_of_declaration hdrop hdecl, pieces_of_declaration hdrop' hdecl]
      | none =>
        cases hread : readToken false state c rest with
        | error fault => rw [pieces_of_token_error hdrop hdecl hread, pieces_of_token_error hdrop' hdecl hread]
        | ok found => rw [pieces_of_token hdrop hdecl hread, pieces_of_token hdrop' hdecl hread]

end ImportOrder.Source
