import ImportOrder.Proofs.Undisturbed

/-!
# How the statements of a source were read

Every statement of a source that was read, with the state in which reading came to it: the code above the first
import, the imports, the code between imports, which is read as after a semicolon, and the code behind the last
import.
-/

namespace ImportOrder

open Source

theorem Statement.Fits.text_append {source : Text} {s : Statement} (h : s.Fits source) :
    s.text ++ source.onward s.stop = source.onward s.start := by
  have hlt := h.start_lt_stop
  rw [h.text_eq, Text.slice_append_onward source h.start_nonneg (by omega) h.stop_le]

namespace Document

variable {source : Text} {document : Document}

theorem onward_start {piece : Piece} (h : piece.start <:+ source) :
    source.onward (statementIn source piece).start = piece.start := by
  rw [statementIn_start, Text.onward_offsetOf h]

theorem onward_stop {piece : Piece} (h : piece.rest <:+ source) :
    source.onward (statementIn source piece).stop = piece.rest := by
  rw [statementIn_stop, Text.onward_offsetOf h]

/-- The sections of a source, with the places of their texts in it. -/
theorem sections_of_parse [Stack] (h : parse source = .ok document) :
    ∃ sections, Outline State.initial (dropInterpreterLine source) sections ∧
      document.statements = sections.map (fun s => statementIn source s.piece) ∧
      ∀ s ∈ sections, s.piece.start <:+ source ∧ s.piece.rest <:+ source := by
  obtain ⟨sections, houtline, hstatements⟩ := outline_of_parse h
  refine ⟨sections, houtline, hstatements, fun s hs => ?_⟩
  obtain ⟨hstart, hrest⟩ := houtline.forall_suffix s hs
  have htail := hstart.trans (dropInterpreterLine_suffix source)
  exact ⟨htail, hrest.1.trans htail⟩

/-- No trivia stands at the front of a statement. -/
theorem drop_start_of_parse [Stack] (h : parse source = .ok document) {s : Statement} (hs : s ∈ document.statements) :
    Trivia.drop (source.onward s.start) = source.onward s.start := by
  obtain ⟨sections, houtline, hstatements, hplaces⟩ := sections_of_parse h
  rw [hstatements] at hs
  obtain ⟨part, hmem, rfl⟩ := List.mem_map.mp hs
  rw [onward_start (hplaces part hmem).1, houtline.forall_drop_eq part hmem]

/-- An import was read as a declaration. -/
theorem declarationAt_of_parse [Stack] (h : parse source = .ok document) {s : Statement}
    (hs : s ∈ document.statements) (himport : s.isImport = true) :
    ∃ state path, s.path = some path ∧
      declarationAt state (source.onward s.start) = .ok (some (path, source.onward s.stop)) := by
  obtain ⟨sections, houtline, hstatements, hplaces⟩ := sections_of_parse h
  rw [hstatements] at hs
  obtain ⟨part, hmem, rfl⟩ := List.mem_map.mp hs
  obtain ⟨hstart, hrest⟩ := hplaces part hmem
  obtain ⟨before, behind, hsplit⟩ := List.append_of_mem hmem
  rw [onward_start hstart, onward_stop hrest]
  cases houtline.section_read hsplit with
  | declaration hdecl => exact ⟨_, _, rfl, hdecl⟩
  | code => simp [Statement.isImport, statementOf] at himport

section

variable {sections before behind : List Section} {part : Section}

/-- Other code that does not stand first was read as after a semicolon, up to the declaration behind it. -/
theorem survey_of_section [Stack] (houtline : Outline State.initial (dropInterpreterLine source) sections)
    (hsplit : sections = before ++ part :: behind) (hbefore : before ≠ []) (hcode : part.piece.path = none) :
    let found := (statementIn source part.piece).survey source
    found.tokens = part.tokens ∧ part.tokens ≠ [] ∧
      CodeRun ⟨0, .mark ';'⟩ part.piece.start part.tokens found.state part.piece.rest ∧
      ∀ next ∈ behind.head?, ∃ path,
        declarationAt found.state (Trivia.drop part.piece.rest) = .ok (some (path, next.piece.rest)) := by
  have hmem : part ∈ sections := by simp [hsplit]
  obtain ⟨hstart, hrest⟩ := houtline.forall_suffix part hmem
  have htail := hstart.trans (dropInterpreterLine_suffix source)
  rw [Statement.survey, onward_start htail, onward_stop (hrest.1.trans htail)]
  cases houtline.section_read hsplit with
  | declaration => simp at hcode
  | code _ hlater hne hrun hnext =>
    obtain rfl := hlater hbefore
    obtain ⟨htokens, hstate⟩ := hrun.survey_eq (List.suffix_refl _) (Trivia.drop_length _)
    dsimp only
    rw [htokens, hstate]
    exact ⟨rfl, hne, hrun, hnext⟩

end

/-- Other code between two imports was read as after a semicolon, up to the declaration behind it. -/
theorem codeRun_of_parse [Stack] (h : parse source = .ok document) {before behind : List Statement} {s : Statement}
    (hsplit : document.statements = before ++ s :: behind) (hbefore : before ≠ [])
    (hcode : s.isImport = false) :
    (s.survey source).tokens ≠ [] ∧
      CodeRun ⟨0, .mark ';'⟩ (source.onward s.start) (s.survey source).tokens (s.survey source).state
        (source.onward s.stop) ∧
      ∀ next ∈ behind.head?, ∃ path rest,
        declarationAt (s.survey source).state (Trivia.drop (source.onward s.stop)) =
          .ok (some (path, rest)) := by
  obtain ⟨sections, houtline, hstatements, hplaces⟩ := sections_of_parse h
  obtain ⟨before', rest', rfl, rfl, hrest'⟩ := List.map_eq_append_iff.mp (hstatements.symm.trans hsplit)
  obtain ⟨part, behind', rfl, rfl, rfl⟩ := List.map_eq_cons_iff.mp hrest'
  obtain ⟨hstart, hrest⟩ := hplaces part (by simp)
  have hne : before' ≠ [] := by
    rintro rfl
    exact hbefore rfl
  have hpath : part.piece.path = none := by simpa [Statement.isImport, statementOf] using hcode
  obtain ⟨htokens, hsome, hrun, hnext⟩ := survey_of_section houtline rfl hne hpath
  rw [onward_start hstart, onward_stop hrest, htokens]
  refine ⟨hsome, hrun, fun next hnext' => ?_⟩
  rw [List.head?_map] at hnext'
  obtain ⟨part', hpart', rfl⟩ := Option.map_eq_some_iff.mp hnext'
  obtain ⟨path, hdecl⟩ := hnext part' hpart'
  exact ⟨path, _, hdecl⟩

end Document

/-! ## The tokens of a source -/

namespace Source.Outline

variable {state : State} {t : Text} {sections front rest : List Section}

/-- The tokens outside declarations are those of the sections of other code. -/
theorem filter_tokens [Stack] (h : Outline state t sections) :
    (sections.flatMap Section.tokens).filter (·.path.isNone) =
      (sections.filter (·.piece.path.isNone)).flatMap Section.tokens := by
  induction h with
  | done => rfl
  | declaration _ _ _ ih =>
    rw [List.flatMap_cons, List.filter_append, ih]
    rfl
  | @code _ _ _ _ _ tokens _ _ _ hrun _ _ ih =>
    have hall : ∀ piece ∈ tokens, piece.path.isNone = true := by
      intro piece hpiece
      rw [hrun.path_eq_none piece hpiece]
      rfl
    rw [List.flatMap_cons, List.filter_append, ih, List.filter_eq_self.mpr hall,
      List.filter_cons_of_pos rfl, List.flatMap_cons]

/-- Where no token is a declaration, no section is one. -/
theorem path_eq_none_iff [Stack] (h : Outline state t sections) :
    (∀ piece ∈ sections.flatMap Section.tokens, piece.path.isNone = true) ↔
      ∀ s ∈ sections, s.piece.path = none := by
  constructor
  · intro hall s hs
    obtain ⟨before, behind, hsplit⟩ := List.append_of_mem hs
    cases h.section_read hsplit with
    | code => rfl
    | @declaration _ start rest path _ =>
      have hmem : (⟨start, rest, some path⟩ : Piece) ∈ sections.flatMap Section.tokens :=
        List.mem_flatMap.mpr ⟨_, hs, by simp⟩
      have hnone := hall _ hmem
      simp at hnone
  · intro hall
    have hfilter : sections.filter (·.piece.path.isNone) = sections :=
      List.filter_eq_self.mpr fun s hs => by rw [hall s hs]; rfl
    have htokens := h.filter_tokens
    rw [hfilter] at htokens
    exact List.filter_eq_self.mp htokens

/-- No two sections of other code stand next to each other, so at most one stands before a declaration. -/
theorem front_cases [Stack] (h : Outline state t (front ++ rest)) (hfront : ∀ s ∈ front, s.piece.path = none) :
    front = [] ∨ ∃ s, front = [s] := by
  match front, hfront with
  | [], _ => exact .inl rfl
  | [s], _ => exact .inr ⟨s, rfl⟩
  | s :: s' :: others, hfront =>
    have hpath := (List.isChain_cons_cons.mp h.isChain).1.2
    simp [hfront s (by simp), hfront s' (by simp)] at hpath

/-- The code above the first declaration, up to the trivia before it. -/
theorem front_run [Stack] (h : Outline state t (front ++ rest)) (hfront : ∀ s ∈ front, s.piece.path = none)
    {first : Section} (hfirst : rest.head? = some first) (hpath : first.piece.path.isSome) :
    ∃ gap state', CodeRun state t (front.flatMap Section.tokens) state' (gap ++ first.piece.start) ∧
      Trivia.Closed gap ∧ ∃ path after, declarationAt state' first.piece.start = .ok (some (path, after)) := by
  obtain ⟨others, rfl⟩ := List.head?_eq_some_iff.mp hfirst
  rcases h.front_cases hfront with rfl | ⟨s, rfl⟩
  · -- no code above, only trivia
    obtain ⟨gap, hgap, hsplit⟩ := h.front_split rfl
    obtain ⟨path, hdecl⟩ := h.declaration_of_isSome hpath
    have hdrop := h.drop_eq
    rw [hdrop] at hdecl
    refine ⟨gap, state, ?_, hgap, path, _, hdecl⟩
    rw [← hsplit]
    exact .done state t
  · have hchain := (List.isChain_cons_cons.mp h.isChain).1.1
    have hdrop := h.drop_eq
    have hsplit : [s] ++ first :: others = [] ++ s :: first :: others := rfl
    obtain ⟨c, u, hcons⟩ := List.exists_cons_of_ne_nil (h.forall_suffix first (by simp)).2.ne_nil
    cases h.section_read hsplit with
    | declaration => simp at hfront
    | @code _ _ start after _ hstate _ hne hrun hnext =>
      obtain rfl := hstate rfl
      obtain ⟨path, hdecl⟩ := hnext first rfl
      have hdrop' : Trivia.drop t = Trivia.drop start := by
        rw [← Trivia.drop_drop t, hdrop]
        rfl
      -- the trivia behind the code leads to the declaration
      obtain ⟨gap, hgap, hafter, -⟩ := Trivia.closed_of_skip (Trivia.drop_eq_cons_iff.mp (hchain.trans hcons))
      have hrun' := hrun.of_drop_eq hne hdrop'
      rw [show after = gap ++ c :: u from hafter, ← hcons] at hrun'
      rw [show Trivia.drop after = first.piece.start from hchain] at hdecl
      refine ⟨gap, _, ?_, hgap, path, _, hdecl⟩
      rw [List.flatMap_singleton]
      exact hrun'

/-- The code behind the last declaration, up to the end. -/
theorem back_run [Stack] {before back : List Section} {last : Section}
    (h : Outline state t (before ++ last :: back)) (hback : ∀ s ∈ back, s.piece.path = none) :
    ∃ state' rest, CodeRun ⟨0, .mark ';'⟩ last.piece.rest (back.flatMap Section.tokens) state' rest ∧
      Trivia.drop rest = [] := by
  have hlast := h.drop_last
  have hchain := (List.isChain_append.mp h.isChain).2.1
  match back, hback with
  | [], _ =>
    refine ⟨_, _, .done _ _, hlast last ?_⟩
    rw [List.getLast?_append_cons]
    rfl
  | [s], hback =>
    have hnext := (List.isChain_cons_cons.mp hchain).1.1
    have hsplit : before ++ [last, s] = (before ++ [last]) ++ s :: [] := by simp
    cases h.section_read hsplit with
    | declaration => simp at hback
    | @code _ next start after tokens _ hstate hne hrun _ =>
      obtain rfl := hstate (by simp)
      have hdrop : Trivia.drop last.piece.rest = Trivia.drop start := by
        rw [← Trivia.drop_drop last.piece.rest, hnext]
      refine ⟨next, after, ?_, hlast ⟨⟨start, after, none⟩, tokens⟩ (by simp)⟩
      rw [List.flatMap_singleton]
      exact hrun.of_drop_eq hne hdrop
  | s :: s' :: others, hback =>
    have hpath' := (List.isChain_cons_cons.mp (List.isChain_cons_cons.mp hchain).2).1.2
    simp [hback s (by simp), hback s' (by simp)] at hpath'

end Source.Outline

namespace Plan

open Document

/-- How a source was read around its span: the code above the first import, and the code behind the last. -/
structure Reading [Stack] (source : Text) (middle : List Statement) (first last : Statement)
    (above behind : List Piece) : Prop where
  code : ∃ found, pieces State.initial (dropInterpreterLine source) = .ok found ∧
    found.filter (·.path.isNone) =
      above ++ ((middle.filter (!·.isImport)).flatMap (fun s => (s.survey source).tokens) ++ behind)
  above_run : ∃ gap state,
    CodeRun State.initial (dropInterpreterLine source) above state (gap ++ source.onward first.start) ∧
      Trivia.Closed gap ∧
      ∃ path rest, declarationAt state (source.onward first.start) = .ok (some (path, rest))
  behind_run : ∃ state rest, CodeRun ⟨0, .mark ';'⟩ (source.onward last.stop) behind state rest ∧
    Trivia.drop rest = []

theorem isImport_statementIn (source : Text) (piece : Piece) :
    (statementIn source piece).isImport = piece.path.isSome :=
  rfl

section

variable {source : Text} {document : Document} {front middle back : List Statement} {first last : Statement}

theorem filter_code {parts : List Section} (h : ∀ s ∈ parts, s.piece.path = none) :
    parts.filter (·.piece.path.isNone) = parts := by
  rw [List.filter_eq_self]
  intro s hs
  rw [h s hs]
  rfl

/-- The tokens of the code between imports are those that a survey of each statement finds. -/
theorem flatMap_survey [Stack] {sections frontParts middleParts backParts : List Section} {part : Section}
    (houtline : Outline State.initial (dropInterpreterLine source) sections)
    (hsections : sections = frontParts ++ (middleParts ++ backParts))
    (hfirst : middleParts.head? = some part) (hpath : part.piece.path.isSome) :
    ((middleParts.map fun s => statementIn source s.piece).filter (!·.isImport)).flatMap
        (fun s => (s.survey source).tokens) =
      (middleParts.filter (·.piece.path.isNone)).flatMap Section.tokens := by
  have hfilter : (middleParts.map fun s => statementIn source s.piece).filter (!·.isImport) =
      (middleParts.filter (·.piece.path.isNone)).map fun s => statementIn source s.piece := by
    rw [List.filter_map]
    congr 1
    apply List.filter_congr
    intro s _
    rw [Function.comp_apply, isImport_statementIn, Option.not_isSome]
  rw [hfilter, List.flatMap_map]
  apply List.flatMap_congr
  intro s hs
  obtain ⟨hmem, hcode⟩ := List.mem_filter.mp hs
  -- the first statement of the span is an import, so another stands before this one
  obtain ⟨others, rfl⟩ := List.head?_eq_some_iff.mp hfirst
  have hmem' : s ∈ others := by
    rcases List.mem_cons.mp hmem with rfl | hmem
    · rw [Option.isNone_iff_eq_none.mp hcode] at hpath
      simp at hpath
    · exact hmem
  obtain ⟨before, behind, rfl⟩ := List.append_of_mem hmem'
  have hsplit : sections = (frontParts ++ part :: before) ++ s :: (behind ++ backParts) := by
    rw [hsections]
    simp
  exact (survey_of_section houtline hsplit (by simp) (by simpa using hcode)).1

/-- A source with a span was read like this. -/
theorem Spanned.exists_reading [Stack] (h : Spanned document.statements front middle back)
    (hparse : parse source = .ok document) (hfirst : middle.head? = some first)
    (hlast : middle.getLast? = some last) :
    ∃ above behind, Reading source middle first last above behind := by
  -- the sections of the outline are cut where the statements are: before, in and behind the span
  obtain ⟨sections, houtline, hstatements, hplaces⟩ := sections_of_parse hparse
  obtain ⟨frontParts, rest, hsections, rfl, hrest⟩ :=
    List.map_eq_append_iff.mp (hstatements.symm.trans h.eq_append)
  obtain ⟨middleParts, backParts, rfl, rfl, rfl⟩ := List.map_eq_append_iff.mp hrest
  obtain ⟨first', hfirst', himport⟩ := h.first_import
  obtain rfl : first = first' := Option.some.inj (hfirst.symm.trans hfirst')
  rw [List.head?_map] at hfirst
  rw [List.getLast?_map] at hlast
  obtain ⟨part, hpart, rfl⟩ := Option.map_eq_some_iff.mp hfirst
  obtain ⟨part', hpart', rfl⟩ := Option.map_eq_some_iff.mp hlast
  have hfront : ∀ s ∈ frontParts, s.piece.path = none := by
    intro s hs
    have hcode := h.front_code _ (List.mem_map_of_mem hs)
    rwa [isImport_statementIn, Option.isSome_eq_false_iff, Option.isNone_iff_eq_none] at hcode
  have hback : ∀ s ∈ backParts, s.piece.path = none := by
    intro s hs
    have hcode := h.back_code _ (List.mem_map_of_mem hs)
    rwa [isImport_statementIn, Option.isSome_eq_false_iff, Option.isNone_iff_eq_none] at hcode
  have hstart := (hplaces part (by simp [hsections, List.mem_of_head? hpart])).1
  have hstop := (hplaces part' (by simp [hsections, List.mem_of_getLast? hpart'])).2
  have hhead : (middleParts ++ backParts).head? = some part := by
    rw [List.head?_append, hpart]
    rfl
  refine ⟨frontParts.flatMap Section.tokens, backParts.flatMap Section.tokens, ?_, ?_, ?_⟩
  · refine ⟨_, houtline.pieces_eq, ?_⟩
    rw [houtline.filter_tokens, flatMap_survey houtline hsections hpart himport, hsections,
      List.filter_append, List.filter_append, List.flatMap_append, List.flatMap_append, filter_code hfront,
      filter_code hback]
  · rw [onward_start hstart]
    rw [hsections] at houtline
    exact houtline.front_run hfront hhead himport
  · rw [onward_stop hstop]
    obtain ⟨before, rfl⟩ := List.getLast?_eq_some_iff.mp hpart'
    rw [hsections, List.append_assoc, ← List.append_assoc] at houtline
    exact houtline.back_run hback

end

end Plan

end ImportOrder
