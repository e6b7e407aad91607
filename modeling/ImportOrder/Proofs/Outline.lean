import ImportOrder.Proofs.Tokens
import ImportOrder.Source.Piece

/-!
# The outline of a source

A source is outlined as its statements in order, each with the tokens read in it: a declaration by itself, or
a run of other code that reaches up to the next declaration. Reading a source into pieces and joining them
gives exactly its outline.
-/

namespace ImportOrder.Source

/-! ## Runs of other code -/

/-- Reading tokens of other code, from a state and a text to a later state and what is left then. -/
inductive CodeRun [Stack] : State → Text → List Piece → State → Text → Prop
  | done (state : State) (t : Text) : CodeRun state t [] state t
  | token {state next state' : State} {t rest after t' : Text} {c : Char} {tokens : List Piece} :
      Trivia.drop t = c :: rest → declarationAt state (c :: rest) = .ok none →
      readToken false state c rest = .ok (next, after) → CodeRun next after tokens state' t' →
      CodeRun state t (⟨c :: rest, after, none⟩ :: tokens) state' t'

namespace CodeRun

variable {state state' state'' : State} {t t' t'' : Text} {tokens tokens' : List Piece}

theorem append [Stack] (first : CodeRun state t tokens state' t')
    (last : CodeRun state' t' tokens' state'' t'') :
    CodeRun state t (tokens ++ tokens') state'' t'' := by
  induction first with
  | done => exact last
  | token hdrop hdecl hread _ ih => exact .token hdrop hdecl hread (ih last)

theorem suffix [Stack] (h : CodeRun state t tokens state' t') : t' <:+ t := by
  induction h with
  | done => exact List.suffix_refl _
  | @token _ _ _ t rest after _ c _ hdrop _ hread _ ih =>
    have hafter := (readToken_suffix hread).trans (List.suffix_cons c rest)
    have htail := Trivia.drop_suffix t
    rw [hdrop] at htail
    exact ih.trans (hafter.trans htail)

/-- A run with a token in it takes at least one character from where its first token begins. -/
theorem properTail [Stack] (h : CodeRun state t tokens state' t') (hne : tokens ≠ []) :
    ProperTail t' (Trivia.drop t) := by
  cases h with
  | done => exact absurd rfl hne
  | token hdrop _ hread hrest =>
    rw [hdrop]
    exact .of_cons (hrest.suffix.trans (readToken_suffix hread))

/-- Trivia before the first token is of no account. -/
theorem of_drop_eq [Stack] (h : CodeRun state t tokens state' t') (hne : tokens ≠ [])
    (hdrop : Trivia.drop t'' = Trivia.drop t) : CodeRun state t'' tokens state' t' := by
  cases h with
  | done => exact absurd rfl hne
  | token hdrop' hdecl hread hrest => exact .token (hdrop.trans hdrop') hdecl hread hrest

theorem path_eq_none [Stack] (h : CodeRun state t tokens state' t') : ∀ piece ∈ tokens, piece.path = none := by
  induction h with
  | done => simp
  | token _ _ _ _ ih =>
    intro piece hmem
    rcases List.mem_cons.mp hmem with rfl | hmem
    · rfl
    · exact ih piece hmem

/-- The tokens of a run are joined into one piece, unless more code follows. -/
theorem foldr_join [Stack] (h : CodeRun state t tokens state' t') (hne : tokens ≠ []) {others : List Piece}
    (hothers : ∀ piece ∈ others.head?, piece.path.isSome) :
    tokens.foldr Piece.join others = ⟨Trivia.drop t, t', none⟩ :: others := by
  induction h with
  | done => exact absurd rfl hne
  | @token _ _ _ t rest after t' c tokens hdrop _ _ hrest ih =>
    rw [hdrop, List.foldr_cons]
    cases tokens with
    | nil =>
      cases hrest
      cases others with
      | nil => rfl
      | cons next others =>
        have hnext := hothers next rfl
        rw [Option.isSome_iff_ne_none] at hnext
        simp [Piece.join, hnext]
    | cons token tokens =>
      rw [ih (by simp)]
      rfl

end CodeRun

/-! ## Outlines -/

/-- A statement of a source: a declaration or a run of other code, and the tokens read in it. -/
structure Section where
  piece : Piece
  tokens : List Piece

/-- The statements read from a text, in the state that stands before them. -/
inductive Outline [Stack] : State → Text → List Section → Prop
  | done {state : State} {t : Text} : Trivia.drop t = [] → Outline state t []
  | declaration {state : State} {t start rest path : Text} {sections : List Section} :
      Trivia.drop t = start → declarationAt state start = .ok (some (path, rest)) →
      Outline ⟨state.depth, .mark ';'⟩ rest sections →
      Outline state t (⟨⟨start, rest, some path⟩, [⟨start, rest, some path⟩]⟩ :: sections)
  | code {state state' : State} {t start rest : Text} {tokens : List Piece} {sections : List Section} :
      Trivia.drop t = start → tokens ≠ [] → CodeRun state start tokens state' rest →
      (∀ next ∈ sections.head?, next.piece.path.isSome) → Outline state' rest sections →
      Outline state t (⟨⟨start, rest, none⟩, tokens⟩ :: sections)

/-- No declaration is read at the end of a text. -/
theorem declarationAt_nil [Stack] (state : State) : declarationAt state [] = .ok none := by
  rw [declarationAt, atDeclaration]
  rfl

theorem pieces_of_drop_nil [Stack] {state : State} {t : Text} (h : Trivia.drop t = []) :
    pieces state t = .ok [] := by
  rw [pieces.eq_def]
  split <;> simp_all

theorem pieces_of_declaration [Stack] {state : State} {t start rest path : Text}
    (hdrop : Trivia.drop t = start) (hdecl : declarationAt state start = .ok (some (path, rest))) :
    pieces state t = (pieces ⟨state.depth, .mark ';'⟩ rest).map (⟨start, rest, some path⟩ :: ·) := by
  rw [pieces.eq_def]
  split
  · rename_i hnil
    rw [← hdrop, hnil, declarationAt_nil] at hdecl
    simp at hdecl
  · rename_i c u hcons
    obtain rfl : start = c :: u := hdrop.symm.trans hcons
    split
    · simp_all
    · rename_i path' after hdecl'
      obtain ⟨rfl, rfl⟩ : path = path' ∧ rest = after := by simpa [hdecl] using hdecl'
      cases pieces ⟨state.depth, .mark ';'⟩ rest with
      | error fault => rfl
      | ok others => rfl
    · simp_all

theorem pieces_of_error [Stack] {state : State} {t start : Text} {fault : Fault} (hdrop : Trivia.drop t = start)
    (hdecl : declarationAt state start = .error fault) : pieces state t = .error fault := by
  rw [pieces.eq_def]
  split
  · rename_i hnil
    rw [← hdrop, hnil, declarationAt_nil] at hdecl
    simp at hdecl
  · rename_i c u hcons
    obtain rfl : start = c :: u := hdrop.symm.trans hcons
    split <;> simp_all

theorem exists_of_map_ok {α β : Type} {f : α → β} {x : Except Fault α} {b : β} (h : x.map f = .ok b) :
    ∃ a, x = .ok a ∧ f a = b := by
  cases x with
  | error fault => simp [Except.map] at h
  | ok a => exact ⟨a, rfl, Except.ok.inj h⟩

theorem pieces_of_token [Stack] {state next : State} {t rest after : Text} {c : Char}
    (hdrop : Trivia.drop t = c :: rest) (hdecl : declarationAt state (c :: rest) = .ok none)
    (hread : readToken false state c rest = .ok (next, after)) :
    pieces state t = (pieces next after).map (⟨c :: rest, after, none⟩ :: ·) := by
  rw [pieces.eq_def]
  split
  · simp_all
  · rename_i d u hcons
    obtain ⟨rfl, rfl⟩ : c = d ∧ rest = u := by simpa [hdrop] using hcons
    split
    · simp_all
    · simp_all
    · split
      · simp_all
      · rename_i next' after' hread'
        obtain ⟨rfl, rfl⟩ : next = next' ∧ after = after' := by simpa [hread] using hread'
        cases pieces next after with
        | error fault => rfl
        | ok others => rfl

theorem pieces_of_token_error [Stack] {state : State} {t rest : Text} {c : Char} {fault : Fault}
    (hdrop : Trivia.drop t = c :: rest) (hdecl : declarationAt state (c :: rest) = .ok none)
    (hread : readToken false state c rest = .error fault) : pieces state t = .error fault := by
  rw [pieces.eq_def]
  split
  · simp_all
  · rename_i d u hcons
    obtain ⟨rfl, rfl⟩ : c = d ∧ rest = u := by simpa [hdrop] using hcons
    split
    · simp_all
    · simp_all
    · split <;> simp_all

/-- Reading on from the end of a run. -/
theorem CodeRun.pieces_eq [Stack] {state state' : State} {t t' : Text} {tokens : List Piece}
    (h : CodeRun state t tokens state' t') : pieces state t = (pieces state' t').map (tokens ++ ·) := by
  induction h with
  | done state t =>
    cases pieces state t with
    | error fault => rfl
    | ok others => rfl
  | @token _ _ state' _ _ _ t' _ _ hdrop hdecl hread _ ih =>
    rw [pieces_of_token hdrop hdecl hread, ih]
    cases pieces state' t' with
    | error fault => rfl
    | ok others => rfl

namespace Outline

variable {state : State} {t : Text} {sections : List Section}

/-- Reading a text gives the tokens of its outline. -/
theorem pieces_eq [Stack] (h : Outline state t sections) :
    pieces state t = .ok (sections.flatMap Section.tokens) := by
  induction h with
  | done hdrop => exact pieces_of_drop_nil hdrop
  | declaration hdrop hdecl _ ih =>
    rw [pieces_of_declaration hdrop hdecl, ih]
    rfl
  | code hdrop hne hrun _ _ ih =>
    have hdrop' := (congrArg Trivia.drop hdrop.symm).trans (Trivia.drop_drop _)
    rw [(hrun.of_drop_eq hne hdrop'.symm).pieces_eq, ih]
    rfl

/-- Joining the tokens of an outline gives its statements. -/
theorem joinCode_eq [Stack] (h : Outline state t sections) :
    joinCode (sections.flatMap Section.tokens) = sections.map Section.piece := by
  induction h with
  | done => rfl
  | declaration hdrop hdecl _ ih =>
    rw [List.flatMap_cons, List.map_cons, ← ih]
    unfold joinCode
    rw [List.foldr_append, List.foldr_cons, List.foldr_nil]
    cases List.foldr Piece.join [] _ with
    | nil => rfl
    | cons next others => rfl
  | @code _ _ _ start _ _ sections hdrop hne hrun hnext _ ih =>
    have hothers : ∀ piece ∈ (sections.map Section.piece).head?, piece.path.isSome := by
      rw [List.head?_map]
      intro piece hmem
      obtain ⟨next, hsection, rfl⟩ := Option.map_eq_some_iff.mp hmem
      exact hnext next hsection
    have hstart : Trivia.drop start = start := by rw [← hdrop, Trivia.drop_drop]
    rw [List.flatMap_cons, List.map_cons, joinCode, List.foldr_append]
    rw [joinCode] at ih
    rw [ih, hrun.foldr_join hne hothers, hstart]

/-- A declaration at the front of a text is the first section of its outline. -/
theorem exists_eq_cons [Stack] {start path rest : Text} (h : Outline state t sections) (hdrop : Trivia.drop t = start)
    (hdecl : declarationAt state start = .ok (some (path, rest))) :
    ∃ others, sections = ⟨⟨start, rest, some path⟩, [⟨start, rest, some path⟩]⟩ :: others := by
  cases h with
  | done hnil =>
    obtain rfl := hnil.symm.trans hdrop
    simp [declarationAt_nil] at hdecl
  | declaration hdrop' hdecl' _ =>
    obtain rfl := hdrop.symm.trans hdrop'
    obtain ⟨rfl, rfl⟩ : path = _ ∧ rest = _ := by simpa [hdecl] using hdecl'
    exact ⟨_, rfl⟩
  | code hdrop' hne hrun =>
    -- a run of other code does not begin with a declaration
    obtain rfl := hdrop.symm.trans hdrop'
    cases hrun with
    | done => exact absurd rfl hne
    | token hdrop'' hnone =>
      rw [← hdrop'', ← hdrop, Trivia.drop_drop, hdrop, hdecl] at hnone
      simp at hnone

end Outline

/-- Every text that can be read has an outline. -/
theorem outline_of_pieces [Stack] {state : State} {t : Text} {ps : List Piece} (h : pieces state t = .ok ps) :
    ∃ sections, Outline state t sections := by
  fun_induction pieces state t generalizing ps with
  | case1 _ _ hdrop => exact ⟨[], .done hdrop⟩
  | case2 => simp at h
  | case3 => simp at h
  | case4 state t c rest hdrop path after hdecl others hothers ih =>
    obtain ⟨sections, hsections⟩ := ih hothers
    exact ⟨_, .declaration hdrop hdecl hsections⟩
  | case5 => simp at h
  | case6 => simp at h
  | case7 state t c rest hdrop hdecl next after hread others hothers ih =>
    obtain ⟨sections, hsections⟩ := ih hothers
    have hstart : Trivia.drop (c :: rest) = c :: rest := by rw [← hdrop, Trivia.drop_drop]
    have hone : CodeRun state (c :: rest) [⟨c :: rest, after, none⟩] next after :=
      .token hstart hdecl hread (.done next after)
    -- the token joins the code behind it, or is a statement of its own
    cases hsections with
    | done hdrop' => exact ⟨_, .code hdrop (by simp) hone (by simp) (.done hdrop')⟩
    | declaration hdrop' hdecl' hrest =>
      exact ⟨_, .code hdrop (by simp) hone (by simp) (.declaration hdrop' hdecl' hrest)⟩
    | code hdrop' hne hrun hnext hrest =>
      have hdrop'' := (congrArg Trivia.drop hdrop'.symm).trans (Trivia.drop_drop _)
      have hlong := hone.append (hrun.of_drop_eq hne hdrop''.symm)
      exact ⟨_, .code hdrop (by simp) hlong hnext hrest⟩

end ImportOrder.Source
