import ImportOrder.Proofs.Spacing
import ImportOrder.Proofs.Faults

/-!
# Blanks between tokens

Trivia are skipped in front of every token: in other code, in the holes of templates, and inside a declaration up to
its attributes. A blank that is skipped there may give way to another one, and what is read is the same, unless the new
blank is one beyond ASCII and stands right behind a name or a regular expression.
-/

namespace ImportOrder.Source

/-! ## Gaps -/

/-- A place where trivia are skipped: the text from it on, and whether the token right before it may run on into a blank
beyond ASCII. -/
structure Gap where
  text : Text
  wide : Bool

/-- A blank of the trivia at a gap, `x` before it and `v` behind it. -/
structure Gap.Holds (gap : Gap) (x : Text) (b : Char) (v : Text) : Prop where
  text : gap.text = x ++ b :: v
  skipped : (Trivia.drop gap.text).length ≤ v.length

theorem Gap.Holds.skipped_append {gap : Gap} {x v : Text} {b : Char} (h : gap.Holds x b v) :
    (Trivia.drop (x ++ b :: v)).length ≤ v.length := by
  have hskipped := h.skipped
  rwa [h.text] at hskipped

/-- The gap is met when the open templates are read on from here; `wide` is about the token right before. -/
inductive HoleGap (gap : Gap) : Bool → Mode → Frame → List Frame → Text → Prop
  | here {state : State} {top : Frame} {outer : List Frame} : HoleGap gap gap.wide (.hole state) top outer gap.text
  | escape {wide : Bool} {top : Frame} {outer : List Frame} {rest : Text} :
      HoleGap gap false .chars top outer (rest.drop 1) → HoleGap gap wide .chars top outer ('\\' :: rest)
  | enter {wide : Bool} {top : Frame} {outer : List Frame} {rest : Text} :
      HoleGap gap false (.hole ⟨0, .mark '\x7b'⟩) top outer rest →
      HoleGap gap wide .chars top outer ('$' :: '\x7b' :: rest)
  | endInner {wide : Bool} {top next : Frame} {outer : List Frame} {rest : Text} :
      HoleGap gap false (.hole ⟨top.depth, .value⟩) next outer rest →
      HoleGap gap wide .chars top (next :: outer) (templateMark :: rest)
  | char {wide : Bool} {top : Frame} {outer : List Frame} {c : Char} {rest : Text} :
      c ≠ '\\' → c ≠ templateMark → (c = '$' → rest.head? ≠ some '\x7b') →
      HoleGap gap false .chars top outer rest → HoleGap gap wide .chars top outer (c :: rest)
  | leave {wide : Bool} {state : State} {top : Frame} {outer : List Frame} {t rest : Text} :
      Trivia.skip t = .reached ('\x7d' :: rest) → state.depth = 0 →
      HoleGap gap false .chars top outer rest → HoleGap gap wide (.hole state) top outer t
  | inner {wide : Bool} {state : State} {top : Frame} {outer : List Frame} {t rest : Text} :
      Trivia.skip t = .reached (templateMark :: rest) →
      HoleGap gap false .chars ⟨templateMark :: rest, state.depth⟩ (top :: outer) rest →
      HoleGap gap wide (.hole state) top outer t
  | plain {wide : Bool} {state after : State} {top : Frame} {outer : List Frame} {c : Char} {t rest rest' : Text} :
      Trivia.skip t = .reached (c :: rest) → ¬(c = '\x7d' ∧ state.depth = 0) → c ≠ templateMark →
      readPlain false state c rest = .ok (after, rest') →
      HoleGap gap (runsOnWide state c rest) (.hole after) top outer rest' → HoleGap gap wide (.hole state) top outer t

/-- The gap is met in a template literal that begins here, behind its first character. -/
def TemplateGap (gap : Gap) (state : State) (rest : Text) : Prop :=
  HoleGap gap false .chars ⟨templateMark :: rest, state.depth⟩ [] rest

/-- The gap is met between the keyword of a declaration and its specifier, when reading goes on from here. -/
inductive HeaderGap [Stack] (gap : Gap) : Bool → State → Text → Prop
  | here {state : State} : HeaderGap gap gap.wide state gap.text
  | template {wide : Bool} {state : State} {t rest : Text} :
      Trivia.skip t = .reached (templateMark :: rest) → TemplateGap gap state rest → HeaderGap gap wide state t
  | token {wide : Bool} {state after : State} {c : Char} {t rest rest' : Text} :
      Trivia.skip t = .reached (c :: rest) → isQuote c = false → ¬(c = '=' ∨ c = ';') →
      readToken true state c rest = .ok (after, rest') →
      HeaderGap gap (runsOnWide state c rest) after rest' → HeaderGap gap wide state t

/-- What follows the specifier of the declaration that begins a text. -/
def BehindSpecifier [Stack] (start closed : Text) : Prop :=
  ∃ quote content, findSpecifier start ⟨0, .word importWord⟩ (start.drop importWord.length) =
    .ok (some (quote :: content)) ∧ readString quote content = .closed closed

/-- An attribute clause: its word, what follows the word, and what follows the opening brace. -/
structure OpensClause (closed word after body : Text) : Prop where
  name : splitName? (Trivia.drop closed) = some (word, after)
  word : attributeWords.contains word = true
  brace : Trivia.drop after = '\x7b' :: body

/-- The gap is met in the declaration that begins a text: before its specifier, or in front of the word or the brace of
its attributes. -/
inductive DeclarationGap [Stack] (gap : Gap) (start : Text) : Prop
  | header : HeaderGap gap true ⟨0, .word importWord⟩ (start.drop importWord.length) → DeclarationGap gap start
  | clause {closed word after body : Text} : BehindSpecifier start closed → OpensClause closed word after body →
      gap = ⟨closed, false⟩ ∨ gap = ⟨after, true⟩ → DeclarationGap gap start

/-- The gap is met when a source is read on from here. -/
inductive CodeGap [Stack] (gap : Gap) : Bool → State → Text → Prop
  | here {state : State} : CodeGap gap gap.wide state gap.text
  | template {wide : Bool} {state : State} {t rest : Text} :
      Trivia.drop t = templateMark :: rest → TemplateGap gap state rest → CodeGap gap wide state t
  | token {wide : Bool} {state next : State} {c : Char} {t rest after : Text} :
      Trivia.drop t = c :: rest → declarationAt state (c :: rest) = .ok none →
      readToken false state c rest = .ok (next, after) →
      CodeGap gap (runsOnWide state c rest) next after → CodeGap gap wide state t
  | declaration {wide : Bool} {state : State} {t start path after : Text} :
      Trivia.drop t = start → declarationAt state start = .ok (some (path, after)) → DeclarationGap gap start →
      CodeGap gap wide state t
  | behind {wide : Bool} {state : State} {t start path after closed rest : Text} :
      Trivia.drop t = start → declarationAt state start = .ok (some (path, after)) → BehindSpecifier start closed →
      skipAttributes closed = .ok rest → CodeGap gap false ⟨state.depth, .mark ';'⟩ rest → CodeGap gap wide state t

/-- Where a gap is met from here on: at once, or behind what is read first. -/
def Gap.Met (gap : Gap) (wide : Bool) (t : Text) : Prop :=
  (gap.text = t ∧ gap.wide = wide) ∨ ProperTail gap.text t

theorem Gap.Met.of_properTail {gap : Gap} {wide wide' : Bool} {u t : Text} (h : gap.Met wide u)
    (hu : ProperTail u t) : gap.Met wide' t := by
  rcases h with ⟨rfl, -⟩ | h
  · exact .inr hu
  · exact .inr (h.of_suffix hu.1)

theorem readPlain_properTail {strict : Bool} {state next : State} {c : Char} {t rest rest' : Text}
    (hskip : Trivia.skip t = .reached (c :: rest)) (h : readPlain strict state c rest = .ok (next, rest')) :
    ProperTail rest' t :=
  (ProperTail.of_cons (readPlain_suffix h)).of_suffix (skip_suffix hskip)

theorem HoleGap.met {gap : Gap} {wide : Bool} {mode : Mode} {top : Frame} {outer : List Frame} {t : Text}
    (h : HoleGap gap wide mode top outer t) : gap.Met wide t := by
  induction h with
  | here => exact .inl ⟨rfl, rfl⟩
  | escape _ ih => exact ih.of_properTail (.of_cons (List.drop_suffix 1 _))
  | enter _ ih => exact ih.of_properTail (.of_cons (List.suffix_cons _ _))
  | endInner _ ih => exact ih.of_properTail (.of_cons List.suffix_rfl)
  | char _ _ _ _ ih => exact ih.of_properTail (.of_cons List.suffix_rfl)
  | leave hskip _ _ ih => exact ih.of_properTail ((ProperTail.of_cons List.suffix_rfl).of_suffix (skip_suffix hskip))
  | inner hskip _ ih => exact ih.of_properTail ((ProperTail.of_cons List.suffix_rfl).of_suffix (skip_suffix hskip))
  | plain hskip _ _ hread _ ih => exact ih.of_properTail (readPlain_properTail hskip hread)

/-! ## Template literals -/

section

variable {strict : Bool} {state : State} {top : Frame} {outer : List Frame} {t t' : Text}

theorem readTemplates_of_skip_eq [Stack] {c : Char} {rest : Text} (hskip : Trivia.skip t = .reached (c :: rest))
    (hskip' : Trivia.skip t' = .reached (c :: rest)) :
    readTemplates strict (.hole state) top outer t' = readTemplates strict (.hole state) top outer t := by
  by_cases hleave : c = '\x7d' ∧ state.depth = 0
  · obtain ⟨rfl, hdepth⟩ := hleave
    rw [readTemplates_leave hskip hdepth, readTemplates_leave hskip' hdepth]
  · by_cases hmark : c = templateMark
    · subst hmark
      by_cases hroom : outer.length + 2 ≤ Stack.room
      · rw [readTemplates_inner hskip hroom, readTemplates_inner hskip' hroom]
      · rw [readTemplates_nesting hskip hroom, readTemplates_nesting hskip' hroom]
    · rw [readTemplates_read hskip hleave hmark, readTemplates_read hskip' hleave hmark]

end

section

variable {b b' : Char} (hb : IsSpacing b) (hb' : IsSpacing b') {x v : Text} {gap : Gap}

include hb hb'

/-- What is read in a hole is the same with another blank in the trivia at its front. -/
theorem readTemplates_here [Stack] {strict : Bool} {state : State} {top : Frame} {outer : List Frame}
    {found : State × Text} (hskipped : (Trivia.drop (x ++ b :: v)).length ≤ v.length)
    (h : readTemplates strict (.hole state) top outer (x ++ b :: v) = .ok found) :
    readTemplates strict (.hole state) top outer (x ++ b' :: v) = .ok found := by
  have hsame := Trivia.drop_respaced hb hb' hskipped
  cases hdrop : Trivia.drop (x ++ b :: v) with
  | nil =>
    rw [readTemplates_of_drop_nil (hsame.trans hdrop)]
    rwa [readTemplates_of_drop_nil hdrop] at h
  | cons c rest =>
    rwa [readTemplates_of_skip_eq (Trivia.drop_eq_cons_iff.mp hdrop)
      (Trivia.drop_eq_cons_iff.mp (hsame.trans hdrop))]

omit hb hb' in
/-- Where the gap lies behind what is read first, so does the blank. -/
theorem Gap.Met.exists_append {wide : Bool} {t : Text} (h : gap.Met wide t) (hblank : gap.Holds x b v) :
    ∃ r, t = r ++ b :: v := by
  have hsuffix : b :: v <:+ gap.text := ⟨x, hblank.text.symm⟩
  rcases h with ⟨rfl, -⟩ | h
  · exact ⟨x, hblank.text⟩
  · obtain ⟨r, hr⟩ := hsuffix.trans h.1
    exact ⟨r, hr.symm⟩

omit hb hb' in
theorem Gap.Met.standsApart {wide : Bool} {r : Text} (h : gap.Met wide (r ++ b :: v)) (hblank : gap.Holds x b v)
    (hapart : StandsApart b' x gap.wide) : StandsApart b' r wide := by
  rcases h with ⟨htext, hwide⟩ | h
  · obtain rfl : x = r := List.append_cancel_right (hblank.text.symm.trans htext)
    rwa [hwide] at hapart
  · -- the gap begins behind `r`
    have hlen := h.2
    rw [hblank.text, List.length_append, List.length_append] at hlen
    refine .inr (.inl ?_)
    rintro rfl
    simp only [List.length_nil] at hlen
    omega

/-- Reading from a place on comes to the same end with another blank, whatever the frames are whose depths it gives
back. -/
def Respaces [Stack] (strict : Bool) (b b' : Char) (v : Text) (mode : Mode) (top : Frame) (outer : List Frame)
    (t : Text) : Prop :=
  ∀ w top' outer' found, t = w ++ b :: v → top'.depth = top.depth →
    outer'.map Frame.depth = outer.map Frame.depth → readTemplates strict mode top outer t = .ok found →
      readTemplates strict mode top' outer' (w ++ b' :: v) = .ok found

section

variable [Stack] {strict : Bool} {top next : Frame} {outer : List Frame} {r rest t : Text} {state after : State}
    {c : Char}

omit hb hb' in
theorem Respaces.escape (h : Respaces strict b b' v .chars top outer (rest.drop 1))
    (hahead : rest.drop 1 = r ++ b :: v) : Respaces strict b b' v .chars top outer ('\\' :: rest) := by
  intro w top' outer' found ht htop houter hread
  cases rest with
  | nil => simp at hahead
  | cons d rest =>
    obtain rfl : rest = r ++ b :: v := hahead
    obtain rfl : '\\' :: d :: r = w := List.append_cancel_right ht
    rw [readTemplates_escape] at hread
    rw [List.cons_append, List.cons_append, readTemplates_escape]
    exact h r top' outer' found rfl htop houter hread

omit hb hb' in
theorem Respaces.enter (h : Respaces strict b b' v (.hole ⟨0, .mark '\x7b'⟩) top outer (r ++ b :: v)) :
    Respaces strict b b' v .chars top outer ('$' :: '\x7b' :: (r ++ b :: v)) := by
  intro w top' outer' found ht htop houter hread
  obtain rfl : '$' :: '\x7b' :: r = w := List.append_cancel_right ht
  rw [readTemplates_enter] at hread
  rw [List.cons_append, List.cons_append, readTemplates_enter]
  exact h r top' outer' found rfl htop houter hread

omit hb hb' in
theorem Respaces.endInner (h : Respaces strict b b' v (.hole ⟨top.depth, .value⟩) next outer (r ++ b :: v)) :
    Respaces strict b b' v .chars top (next :: outer) (templateMark :: (r ++ b :: v)) := by
  intro w top' outer' found ht htop houter hread
  obtain rfl : templateMark :: r = w := List.append_cancel_right ht
  cases outer' with
  | nil => simp at houter
  | cons next' outer' =>
    simp only [List.map_cons, List.cons.injEq] at houter
    rw [readTemplates_endInner] at hread
    rw [List.cons_append, readTemplates_endInner, htop]
    exact h r next' outer' found rfl houter.1 houter.2 hread

omit hb in
theorem Respaces.char (hback : c ≠ '\\') (hmark : c ≠ templateMark)
    (henter : c = '$' → (r ++ b :: v).head? ≠ some '\x7b') (h : Respaces strict b b' v .chars top outer (r ++ b :: v)) :
    Respaces strict b b' v .chars top outer (c :: (r ++ b :: v)) := by
  intro w top' outer' found ht htop houter hread
  obtain rfl : c :: r = w := List.append_cancel_right ht
  -- the other blank is no opening brace either
  have henter' : c = '$' → (r ++ b' :: v).head? ≠ some '\x7b' := by
    intro hc hhead
    cases r with
    | nil => exact hb'.ne (by decide) (Option.some.inj hhead)
    | cons d r => exact henter hc hhead
  rw [readTemplates_char hback hmark henter] at hread
  rw [List.cons_append, readTemplates_char hback hmark henter']
  exact h r top' outer' found rfl htop houter hread

theorem Respaces.leave (hskip : Trivia.skip t = .reached ('\x7d' :: (r ++ b :: v))) (hdepth : state.depth = 0)
    (h : Respaces strict b b' v .chars top outer (r ++ b :: v)) :
    Respaces strict b b' v (.hole state) top outer t := by
  rintro w top' outer' found rfl htop houter hread
  have hskip' := Trivia.skip_before_append hb hb' hskip
  rw [readTemplates_leave hskip hdepth] at hread
  rw [readTemplates_leave hskip' hdepth]
  exact h r top' outer' found rfl htop houter hread

theorem Respaces.inner (hskip : Trivia.skip t = .reached (templateMark :: (r ++ b :: v)))
    (h : Respaces strict b b' v .chars ⟨templateMark :: (r ++ b :: v), state.depth⟩ (top :: outer) (r ++ b :: v)) :
    Respaces strict b b' v (.hole state) top outer t := by
  rintro w top' outer' found rfl htop houter hread
  have hskip' := Trivia.skip_before_append hb hb' hskip
  -- the literal is read, so there was room for it
  by_cases hroom : outer.length + 2 ≤ Stack.room
  · rw [readTemplates_inner hskip hroom] at hread
    rw [readTemplates_inner hskip' (length_of_depths houter ▸ hroom)]
    exact h r _ _ found rfl rfl (by simp [htop, houter]) hread
  · simp [readTemplates_nesting hskip hroom] at hread

theorem Respaces.plain (hskip : Trivia.skip t = .reached (c :: rest)) (hleave : ¬(c = '\x7d' ∧ state.depth = 0))
    (hmark : c ≠ templateMark) (hread : readPlain false state c rest = .ok (after, r ++ b :: v))
    (hapart : StandsApart b' r (runsOnWide state c rest))
    (h : Respaces strict b b' v (.hole after) top outer (r ++ b :: v)) :
    Respaces strict b b' v (.hole state) top outer t := by
  rintro w top' outer' found rfl htop houter hfound
  obtain ⟨y, rfl, hskip'⟩ := Trivia.skip_before_suffix hb hb' hskip (readPlain_suffix hread)
  have hstrict : readPlain strict state c (y ++ b :: v) = .ok (after, r ++ b :: v) := by
    cases hplain : readPlain strict state c (y ++ b :: v) with
    | error fault => simp [readTemplates_plain_error hskip hleave hmark hplain] at hfound
    | ok plain => rw [← hread, readPlain_lenient hplain]
  have hread' := readPlain_respaced hb hb' (Trivia.startsToken_of_skip hskip) hapart hstrict
  rw [readTemplates_plain hskip hleave hmark hstrict] at hfound
  rw [readTemplates_plain hskip' hleave hmark hread']
  exact h r top' outer' found rfl htop houter hfound

end

/-- Templates with a gap in one of their holes are read the same with another blank in it. -/
theorem HoleGap.respaces [Stack] {strict wide : Bool} {mode : Mode} {top : Frame} {outer : List Frame} {t : Text}
    (hgap : HoleGap gap wide mode top outer t) (hblank : gap.Holds x b v) (hapart : StandsApart b' x gap.wide) :
    Respaces strict b b' v mode top outer t := by
  -- along the way to the gap: each step is taken before the blank, and the gap is still ahead behind it
  induction hgap with
  | here =>
    intro w top' outer' found ht htop houter h
    obtain rfl : x = w := List.append_cancel_right (hblank.text.symm.trans ht)
    rw [ht] at h
    exact readTemplates_depths id htop houter (readTemplates_here hb hb' hblank.skipped_append h)
  | escape hrest ih =>
    obtain ⟨r, hr⟩ := hrest.met.exists_append hblank
    exact ih.escape hr
  | enter hrest ih =>
    obtain ⟨r, rfl⟩ := hrest.met.exists_append hblank
    exact ih.enter
  | endInner hrest ih =>
    obtain ⟨r, rfl⟩ := hrest.met.exists_append hblank
    exact ih.endInner
  | char hback hmark henter hrest ih =>
    obtain ⟨r, rfl⟩ := hrest.met.exists_append hblank
    exact ih.char hb' hback hmark henter
  | leave hskip hdepth hrest ih =>
    obtain ⟨r, rfl⟩ := hrest.met.exists_append hblank
    exact ih.leave hb hb' hskip hdepth
  | inner hskip hrest ih =>
    obtain ⟨r, rfl⟩ := hrest.met.exists_append hblank
    exact ih.inner hb hb' hskip
  | plain hskip hleave hmark hread hrest ih =>
    obtain ⟨r, rfl⟩ := hrest.met.exists_append hblank
    exact ih.plain hb hb' hskip hleave hmark hread (hrest.met.standsApart hblank hapart)

theorem TemplateGap.readToken_respaced [Stack] {strict : Bool} {state : State} {w : Text} {found : State × Text}
    (hgap : TemplateGap gap state (w ++ b :: v)) (hblank : gap.Holds x b v) (hapart : StandsApart b' x gap.wide)
    (h : readToken strict state templateMark (w ++ b :: v) = .ok found) :
    readToken strict state templateMark (w ++ b' :: v) = .ok found := by
  unfold readToken at h ⊢
  rw [if_pos rfl] at h ⊢
  split at h
  · rename_i hroom
    rw [if_pos hroom]
    exact (HoleGap.respaces hb hb' hgap hblank hapart) w _ _ found rfl rfl rfl h
  · simp at h

/-! ## The search for the specifier -/

omit hb hb' in
theorem readToken_properTail [Stack] {strict : Bool} {state next : State} {c : Char} {t rest rest' : Text}
    (hskip : Trivia.skip t = .reached (c :: rest)) (h : readToken strict state c rest = .ok (next, rest')) :
    ProperTail rest' t :=
  (ProperTail.of_cons (readToken_suffix h)).of_suffix (skip_suffix hskip)

omit hb hb' in
theorem TemplateGap.met {wide : Bool} {state : State} {t rest : Text} (h : TemplateGap gap state rest)
    (hskip : Trivia.skip t = .reached (templateMark :: rest)) : gap.Met wide t :=
  (HoleGap.met h).of_properTail ((ProperTail.of_cons List.suffix_rfl).of_suffix (skip_suffix hskip))

omit hb hb' in
theorem HeaderGap.met [Stack] {wide : Bool} {state : State} {t : Text} (h : HeaderGap gap wide state t) :
    gap.Met wide t := by
  induction h with
  | here => exact .inl ⟨rfl, rfl⟩
  | template hskip htemplate => exact htemplate.met hskip
  | token hskip _ _ hread _ ih => exact ih.of_properTail (readToken_properTail hskip hread)

omit hb hb' in
theorem findSpecifier_ok_whole [Stack] {whole whole' t : Text} {state : State} {found : Option Text}
    (h : findSpecifier whole state t = .ok found) : findSpecifier whole' state t = .ok found := by
  cases found with
  | some found => exact findSpecifier_whole h
  | none =>
    fun_induction findSpecifier whole state t with
    | case1 | case2 | case3 | case5 => simp at h
    | case4 state t c rest hskip _ hstop => exact findSpecifier_stop hskip hstop
    | case6 state t c rest hskip hquote hstop after rest' hread ih =>
      rw [findSpecifier_token hskip (by simpa using hquote) hstop hread]
      exact ih h

/-- What a search finds, it finds with another blank in the trivia at its front. -/
theorem findSpecifier_here [Stack] {whole whole' : Text} {state : State} {found : Option Text}
    (hskipped : (Trivia.drop (x ++ b :: v)).length ≤ v.length)
    (h : findSpecifier whole state (x ++ b :: v) = .ok found) :
    findSpecifier whole' state (x ++ b' :: v) = .ok found := by
  cases hskip : Trivia.skip (x ++ b :: v) with
  | unclosed comment => simp [findSpecifier_unclosed hskip] at h
  | reached rest =>
    cases rest with
    | nil => simp [findSpecifier_end hskip] at h
    | cons c u =>
      rw [Trivia.drop_eq_cons_iff.mpr hskip] at hskipped
      rw [findSpecifier_of_skip_eq ((Trivia.skip_respaced hb hb' hskip hskipped).trans hskip.symm)]
      exact findSpecifier_ok_whole h

/-- What a search finds, it finds with another blank in a template that it goes through first. -/
theorem TemplateGap.findSpecifier_respaced [Stack] {whole whole' rest w : Text} {state : State} {found : Option Text}
    (hgap : TemplateGap gap state rest) (hblank : gap.Holds x b v) (hapart : StandsApart b' x gap.wide)
    (hskip : Trivia.skip (w ++ b :: v) = .reached (templateMark :: rest))
    (h : findSpecifier whole state (w ++ b :: v) = .ok found) :
    findSpecifier whole' state (w ++ b' :: v) = .ok found := by
  obtain ⟨r, rfl⟩ := (HoleGap.met hgap).exists_append hblank
  have hskip' := Trivia.skip_before_append hb hb' hskip
  cases hread : readToken true state templateMark (r ++ b :: v) with
  | error fault => simp [findSpecifier_error hskip (by decide) (by decide) hread] at h
  | ok token =>
    have hread' := hgap.readToken_respaced hb hb' hblank hapart hread
    rw [findSpecifier_token hskip (by decide) (by decide) hread] at h
    rw [findSpecifier_token hskip' (by decide) (by decide) hread']
    exact findSpecifier_ok_whole h

/-- A specifier is found in the same place with another blank before it. -/
theorem HeaderGap.findSpecifier_respaced [Stack] {wide : Bool} {state : State} {whole whole' t w found : Text}
    (hgap : HeaderGap gap wide state t) (hblank : gap.Holds x b v) (hapart : StandsApart b' x gap.wide)
    (ht : t = w ++ b :: v) (h : findSpecifier whole state t = .ok (some found)) :
    findSpecifier whole' state (w ++ b' :: v) = .ok (some found) := by
  induction hgap generalizing w with
  | @here state =>
    obtain rfl : x = w := List.append_cancel_right (hblank.text.symm.trans ht)
    rw [ht] at h
    exact findSpecifier_here hb hb' hblank.skipped_append h
  | @template _ state t rest hskip htemplate =>
    subst ht
    exact htemplate.findSpecifier_respaced hb hb' hblank hapart hskip h
  | @token _ state after c t rest rest' hskip hquote hstop hread hrest ih =>
    obtain ⟨r, rfl⟩ := hrest.met.exists_append hblank
    subst ht
    obtain ⟨y, rfl, hskip'⟩ := Trivia.skip_before_suffix hb hb' hskip (readToken_suffix hread)
    have hread' := readToken_respaced hb hb' (Trivia.startsToken_of_skip hskip)
      (hrest.met.standsApart hblank hapart) hread
    rw [findSpecifier_token hskip hquote hstop hread] at h
    rw [findSpecifier_token hskip' hquote hstop hread']
    exact ih rfl h

/-! ## Where gaps are met -/

omit hb hb' in
theorem BehindSpecifier.properTail [Stack] {start closed : Text} (h : BehindSpecifier start closed) :
    ProperTail closed (start.drop importWord.length) := by
  obtain ⟨quote, content, hfind, hread⟩ := h
  obtain ⟨body, rfl⟩ := readString_closed_split hread
  exact (ProperTail.of_cons ((List.suffix_cons quote closed).trans (List.suffix_append body _))).of_suffix
    (findSpecifier_suffix hfind)

omit hb hb' in
theorem BehindSpecifier.attributes_properTail [Stack] {start closed rest : Text} (h : BehindSpecifier start closed)
    (hattributes : skipAttributes closed = .ok rest) : ProperTail rest (start.drop importWord.length) :=
  have htail := skipAttributes_suffix hattributes
  ⟨htail.trans h.properTail.1, Nat.lt_of_le_of_lt htail.length_le h.properTail.2⟩

omit hb hb' in
theorem OpensClause.suffix {closed word after body : Text} (h : OpensClause closed word after body) :
    after <:+ closed :=
  (splitName?_suffix h.name).trans (Trivia.drop_suffix closed)

omit hb hb' in
theorem DeclarationGap.met [Stack] {start : Text} (h : DeclarationGap gap start) :
    gap.Met true (start.drop importWord.length) := by
  cases h with
  | header hheader => exact hheader.met
  | @clause closed word after body hbehind hclause hgap =>
    rcases hgap with rfl | rfl
    · exact .inr hbehind.properTail
    · exact .inr ⟨hclause.suffix.trans hbehind.properTail.1,
        Nat.lt_of_le_of_lt hclause.suffix.length_le hbehind.properTail.2⟩

omit hb hb' in
/-- What stands behind the keyword of a declaration. -/
theorem splitName?_of_declarationAt [Stack] {state : State} {start : Text} {found : Text × Text}
    (h : declarationAt state start = .ok (some found)) :
    splitName? start = some (importWord, start.drop importWord.length) := by
  obtain ⟨path, rest⟩ := found
  obtain ⟨u, -, -, hname, -⟩ := atDeclaration_iff.mp (declarationAt_some_iff.mp h).1
  have happ := (splitName?_append hname).1
  rw [← happ, List.drop_left, happ, hname]

omit hb hb' in
theorem CodeGap.met [Stack] {wide : Bool} {state : State} {t : Text} (h : CodeGap gap wide state t) :
    gap.Met wide t := by
  have hkeyword : ∀ {state : State} {t start : Text} {found : Text × Text}, Trivia.drop t = start →
      declarationAt state start = .ok (some found) → ProperTail (start.drop importWord.length) t := by
    intro state t start found hdrop hdecl
    have hname := splitName?_of_declarationAt hdecl
    have htail : ProperTail (start.drop importWord.length) start := ⟨splitName?_suffix hname, splitName?_length hname⟩
    exact htail.of_suffix (hdrop ▸ Trivia.drop_suffix t)
  induction h with
  | here => exact .inl ⟨rfl, rfl⟩
  | template hdrop htemplate => exact htemplate.met (Trivia.drop_eq_cons_iff.mp hdrop)
  | token hdrop _ hread _ ih => exact ih.of_properTail (readToken_properTail (Trivia.drop_eq_cons_iff.mp hdrop) hread)
  | declaration hdrop hdecl hgap => exact hgap.met.of_properTail (hkeyword hdrop hdecl)
  | behind hdrop hdecl hbehind hattributes _ ih =>
    have hrest := (hbehind.attributes_properTail hattributes).1
    exact ih.of_properTail ⟨hrest.trans (hkeyword hdrop hdecl).1,
      Nat.lt_of_le_of_lt hrest.length_le (hkeyword hdrop hdecl).2⟩

/-- An attempt at a declaration that is given up is given up with another blank as well. -/
theorem CodeGap.findSpecifier_none_respaced [Stack] {wide : Bool} {state : State} {whole whole' t w : Text}
    (hgap : CodeGap gap wide state t) (hblank : gap.Holds x b v) (hapart : StandsApart b' x gap.wide)
    (ht : t = w ++ b :: v) (h : findSpecifier whole state t = .ok none) :
    findSpecifier whole' state (w ++ b' :: v) = .ok none := by
  induction hgap generalizing w with
  | @here state =>
    obtain rfl : x = w := List.append_cancel_right (hblank.text.symm.trans ht)
    rw [ht] at h
    exact findSpecifier_here hb hb' hblank.skipped_append h
  | @template _ state t rest hdrop htemplate =>
    subst ht
    exact htemplate.findSpecifier_respaced hb hb' hblank hapart (Trivia.drop_eq_cons_iff.mp hdrop) h
  | @token _ state next c t rest after hdrop hdecl hread hrest ih =>
    obtain ⟨r, rfl⟩ := hrest.met.exists_append hblank
    subst ht
    have hskip := Trivia.drop_eq_cons_iff.mp hdrop
    obtain ⟨y, rfl, hskip'⟩ := Trivia.skip_before_suffix hb hb' hskip (readToken_suffix hread)
    obtain ⟨d, u, hreached, hquote, hstop | ⟨hstop, a, u', hstrict, hnone⟩⟩ := findSpecifier_none_cases h
    · obtain ⟨rfl, -⟩ : c = d ∧ y ++ b :: v = u := by simpa [hskip] using hreached
      exact findSpecifier_stop hskip' hstop
    · obtain ⟨rfl, rfl⟩ : c = d ∧ y ++ b :: v = u := by simpa [hskip] using hreached
      -- the attempt reads the same token
      obtain ⟨rfl, rfl⟩ : next = a ∧ r ++ b :: v = u' := by
        have hsame := hread.symm.trans (readToken_lenient hstrict)
        simpa using hsame
      have hread' := readToken_respaced hb hb' (Trivia.startsToken_of_skip hskip)
        (hrest.met.standsApart hblank hapart) hstrict
      rw [findSpecifier_token hskip' hquote hstop hread']
      exact ih rfl hnone
  | @declaration _ state t start path after hdrop hdecl =>
    rw [← hdrop] at hdecl
    obtain ⟨found, hfound⟩ : ∃ found, findSpecifier whole state t = .ok (some found) :=
      findSpecifier_at_declaration hdecl
    simp [h] at hfound
  | @behind _ state t start path after closed rest hdrop hdecl =>
    rw [← hdrop] at hdecl
    obtain ⟨found, hfound⟩ : ∃ found, findSpecifier whole state t = .ok (some found) :=
      findSpecifier_at_declaration hdecl
    simp [h] at hfound

/-! ## The first token -/

omit hb hb' in
/-- A name at the front of a text ends before the gap, or right at it. -/
theorem CodeGap.met_name [Stack] {wide : Bool} {state : State} {t u word rest : Text} {c : Char}
    (hgap : CodeGap gap wide state t) (hahead : gap.text ≠ t) (hdrop : Trivia.drop t = c :: u)
    (hname : splitName? (c :: u) = some (word, rest)) : gap.Met true rest := by
  cases hgap with
  | here => exact absurd rfl hahead
  | template hmark =>
    -- a template begins with no name
    obtain ⟨rfl, -⟩ := List.cons.inj (hdrop.symm.trans hmark)
    exact absurd (isNameStart_of_splitName? hname) (by decide)
  | token hdrop' _ hread hrest =>
    obtain ⟨rfl, rfl⟩ := List.cons.inj (hdrop.symm.trans hdrop')
    have hsame := hread.symm.trans (readToken_name hname)
    simp only [Except.ok.injEq, Prod.mk.injEq] at hsame
    obtain ⟨rfl, rfl⟩ := hsame
    have hwide : runsOnWide state c u = true := by simp [runsOnWide, hname]
    rw [hwide] at hrest
    exact hrest.met
  | declaration hdrop' hdecl hgap =>
    obtain rfl := hdrop.symm.trans hdrop'
    have hsame := hname.symm.trans (splitName?_of_declarationAt hdecl)
    simp only [Option.some.injEq, Prod.mk.injEq] at hsame
    rw [hsame.2]
    exact hgap.met
  | behind hdrop' hdecl hbehind hattributes hrest =>
    obtain rfl := hdrop.symm.trans hdrop'
    have hsame := hname.symm.trans (splitName?_of_declarationAt hdecl)
    simp only [Option.some.injEq, Prod.mk.injEq] at hsame
    rw [hsame.2]
    exact hrest.met.of_properTail (hbehind.attributes_properTail hattributes)

/-- What is reached with another blank: the same as before, or what stood before the blank, with the same name at its
front. -/
theorem CodeGap.front [Stack] {wide : Bool} {state : State} {w : Text} (hgap : CodeGap gap wide state (w ++ b :: v))
    (hblank : gap.Holds x b v) (hapart : StandsApart b' x gap.wide) :
    Trivia.drop (w ++ b' :: v) = Trivia.drop (w ++ b :: v) ∧ (Trivia.drop (w ++ b :: v)).length ≤ v.length ∨
    ∃ c y, Trivia.drop (w ++ b :: v) = c :: (y ++ b :: v) ∧ Trivia.drop (w ++ b' :: v) = c :: (y ++ b' :: v) ∧
      ∀ word u, splitName? (c :: (y ++ b :: v)) = some (word, u) →
        ∃ r, u = r ++ b :: v ∧ splitName? (c :: (y ++ b' :: v)) = some (word, r ++ b' :: v) := by
  by_cases hlen : (Trivia.drop (w ++ b :: v)).length ≤ v.length
  · exact .inl ⟨Trivia.drop_respaced hb hb' hlen, hlen⟩
  · have hahead : gap.text ≠ w ++ b :: v := fun heq => hlen (heq ▸ hblank.skipped)
    obtain ⟨c, u, hdrop⟩ : ∃ c u, Trivia.drop (w ++ b :: v) = c :: u := by
      cases hdrop : Trivia.drop (w ++ b :: v) with
      | nil => simp [hdrop] at hlen
      | cons c u => exact ⟨c, u, rfl⟩
    rw [hdrop] at hlen
    obtain ⟨y, rfl, hskip'⟩ := Trivia.skip_before hb hb' (Trivia.drop_eq_cons_iff.mp hdrop) (by omega)
    refine .inr ⟨c, y, hdrop, Trivia.drop_eq_cons_iff.mpr hskip', fun word u hname => ?_⟩
    have hmet := hgap.met_name hahead hdrop hname
    obtain ⟨r, rfl⟩ := hmet.exists_append hblank
    exact ⟨r, rfl, splitName?_respaced (hmet.standsApart hblank hapart) hname⟩

/-! ## Declarations -/

omit hb hb' in
theorem headerLooks_suffix [Stack] {whole t found : Text} {state : State}
    (h : findSpecifier whole state t = .ok (some found)) : ∀ look ∈ headerLooks state t, found <:+ look.rest := by
  fun_induction findSpecifier whole state t with
  | case1 | case2 | case4 | case5 => simp at h
  | case3 state t c rest hskip hquote =>
    rw [headerLooks.eq_def]
    split <;> simp_all
  | case6 state t c rest hskip hquote hstop after rest' hread ih =>
    rw [headerLooks_token hskip (by simpa using hquote) hstop hread]
    intro look hlook
    rcases List.mem_append.mp hlook with hlook | hlook
    · exact (findSpecifier_suffix h).trans (tokenLooks_suffix hread look hlook)
    · exact ih h look hlook

/-- A declaration whose specifier stands before the blank is read the same up to the end of its specifier. -/
theorem BehindSpecifier.readDeclaration_respaced [Stack] {y s path after : Text}
    (hbehind : BehindSpecifier (y ++ b :: v) (s ++ b :: v))
    (h : readDeclaration (y ++ b :: v) = .ok (some (path, after))) :
    readDeclaration (y ++ b' :: v) = (skipAttributes (s ++ b' :: v)).map fun rest =>
      some (path, skipSemicolon rest) := by
  obtain ⟨quote, content, hfind, hread⟩ := hbehind
  obtain ⟨body, rfl⟩ := readString_closed_split hread
  have hpath : unescape body = path := by
    rw [readDeclaration_of_parts hfind hread, Text.before_append] at h
    obtain ⟨rest, -, hrest⟩ := exists_of_map_ok h
    exact (Prod.mk.inj (Option.some.inj hrest)).1
  have hlen := (findSpecifier_suffix hfind).length_le
  have hkeyword : importWord.length ≤ y.length := by
    simp only [List.length_drop, List.length_append, List.length_cons] at hlen
    omega
  have hdrop : ∀ u : Text, (y ++ u).drop importWord.length = y.drop importWord.length ++ u :=
    fun u => List.drop_append_of_le_length hkeyword
  have hlooks := headerLooks_suffix hfind
  have hsplit : ∀ u : Text, quote :: (body ++ quote :: (s ++ u)) = (quote :: body) ++ ((quote :: s) ++ u) := by simp
  rw [hdrop] at hfind hlooks
  -- what follows the keyword, up to the closing quote
  obtain ⟨z, hz⟩ : ∃ z, z ++ (quote :: s) = y.drop importWord.length := by
    obtain ⟨z, hz⟩ := findSpecifier_suffix hfind
    rw [hsplit, ← List.append_assoc, ← List.append_assoc] at hz
    exact ⟨z ++ (quote :: body), List.append_cancel_right hz⟩
  rw [hsplit] at hlooks
  rw [hsplit, ← hz, List.append_assoc] at hfind
  have hholds : LooksHold (headerLooks ⟨0, .word importWord⟩ (y.drop importWord.length ++ b :: v)) (b :: v) (b' :: v) :=
    looksHold_respaced hb hb' (fun look hlook => ((List.suffix_append (quote :: s) _).trans
      (List.suffix_append (quote :: body) _)).trans (hlooks look hlook)) holds_headerLooks
  have hfind' : findSpecifier (y ++ b' :: v) ⟨0, .word importWord⟩ (y.drop importWord.length ++ b' :: v) =
      .ok (some (quote :: (body ++ quote :: (s ++ b' :: v)))) := by
    have hextended := hholds.extend (r := quote :: s) fun look hlook =>
      (List.suffix_append (quote :: body) _).trans (hlooks look hlook)
    rw [← hz, List.append_assoc] at hextended ⊢
    rw [hsplit]
    exact findSpecifier_swap (.of_ne_nil (List.cons_ne_nil quote s) _ _) (List.cons_ne_nil quote body) hextended hfind
  have hread' : readString quote (body ++ quote :: (s ++ b' :: v)) = .closed (s ++ b' :: v) := by
    have hsplit : ∀ u : Text, body ++ quote :: (s ++ u) = (body ++ quote :: s) ++ u := by simp
    rw [hsplit] at hread ⊢
    exact readString_closed_swap (b' :: v) hread
  rw [← hdrop] at hfind'
  rw [readDeclaration_of_parts hfind' hread', Text.before_append, hpath]

omit hb hb' in
theorem OpensClause.skipAttributes_eq {closed word after body : Text} (h : OpensClause closed word after body) :
    skipAttributes closed =
      match body.dropWhile (· != '\x7d') with
      | [] => .error ⟨.attributes, '\x7b' :: body⟩
      | _ :: rest => .ok rest := by
  unfold skipAttributes
  rw [h.name]
  dsimp only
  rw [if_pos h.word, h.brace]
  dsimp only
  refine (if_pos rfl).trans ?_
  cases body.dropWhile (· != '\x7d') with
  | nil => rfl
  | cons c rest => rfl

/-- An attribute clause is taken with another blank in front of its word or its brace. -/
theorem OpensClause.skipAttributes_respaced {s word after body : Text} (h : OpensClause (s ++ b :: v) word after body)
    (hgap : gap = ⟨s ++ b :: v, false⟩ ∨ gap = ⟨after, true⟩) (hblank : gap.Holds x b v)
    (hapart : StandsApart b' x gap.wide) : skipAttributes (s ++ b' :: v) = skipAttributes (s ++ b :: v) := by
  suffices hclause : ∃ after', OpensClause (s ++ b' :: v) word after' body by
    obtain ⟨after', hclause⟩ := hclause
    rw [hclause.skipAttributes_eq, h.skipAttributes_eq]
  rcases hgap with rfl | rfl
  · have hsame : Trivia.drop (s ++ b' :: v) = Trivia.drop (s ++ b :: v) := Trivia.drop_respaced hb hb' hblank.skipped
    exact ⟨after, by rw [hsame]; exact h.name, h.word, h.brace⟩
  · obtain rfl : after = x ++ b :: v := hblank.text
    have hbrace : Trivia.drop (x ++ b' :: v) = '\x7b' :: body := by
      rw [Trivia.drop_respaced hb hb' hblank.skipped, h.brace]
    exact ⟨x ++ b' :: v, splitName?_drop_respaced hb hb' hapart h.name, h.word, hbrace⟩

omit hb hb' in
/-- Nothing is taken for attributes exactly if no clause follows. -/
theorem skipAttributes_eq_self_iff {t : Text} :
    skipAttributes t = .ok t ↔ ∀ word after body, ¬ OpensClause t word after body := by
  constructor
  · intro h word after body hclause
    have hbody : body <:+ t := by
      have htail := Trivia.drop_suffix after
      rw [hclause.brace] at htail
      exact ((List.suffix_cons _ body).trans htail).trans hclause.suffix
    have hrest := List.dropWhile_suffix (l := body) (· != '\x7d')
    rw [hclause.skipAttributes_eq] at h
    split at h
    · simp at h
    · -- what is left would be shorter than the text
      rename_i c rest hclose
      rw [hclose] at hrest
      have hlen := (hrest.trans hbody).length_le
      rw [Except.ok.inj h, List.length_cons] at hlen
      omega
  · intro h
    unfold skipAttributes
    split
    · rfl
    · rename_i word after hname
      split
      · rename_i hword
        split
        · rfl
        · rename_i c body hdrop
          split
          · rename_i hbrace
            exact absurd ⟨hname, hword, hbrace ▸ hdrop⟩ (h word after body)
          · rfl
      · rfl

/-- Where nothing was taken for attributes, nothing is taken for them with another blank. -/
theorem CodeGap.skipAttributes_eq_self [Stack] {wide : Bool} {state : State} {r : Text}
    (hgap : CodeGap gap wide state (r ++ b :: v)) (hblank : gap.Holds x b v) (hapart : StandsApart b' x gap.wide)
    (h : skipAttributes (r ++ b :: v) = .ok (r ++ b :: v)) : skipAttributes (r ++ b' :: v) = .ok (r ++ b' :: v) := by
  rw [skipAttributes_eq_self_iff] at h ⊢
  intro word after body hclause
  rcases hgap.front hb hb' hblank hapart with ⟨hsame, -⟩ | ⟨c, y, hdrop, hdrop', hnames⟩
  · have hname := hclause.name
    rw [hsame] at hname
    exact h word after body ⟨hname, hclause.word, hclause.brace⟩
  · have hname' := hclause.name
    rw [hdrop'] at hname'
    -- the same word stands there, and a brace follows it
    obtain ⟨word', u, hname⟩ : ∃ word' u, splitName? (c :: (y ++ b :: v)) = some (word', u) := by
      rw [splitName?, if_pos (isNameStart_of_splitName? hname')]
      exact ⟨_, _, rfl⟩
    obtain ⟨q, rfl, hsame⟩ := hnames word' u hname
    simp only [hname', Option.some.injEq, Prod.mk.injEq] at hsame
    obtain ⟨rfl, rfl⟩ := hsame
    have hhead := Trivia.head?_drop_respaced hb hb' (v := v) q
    rw [hclause.brace, List.head?_cons] at hhead
    obtain ⟨body', hbrace⟩ := List.head?_eq_some_iff.mp hhead.symm
    exact h word (q ++ b :: v) body' ⟨by rw [hdrop, hname], hclause.word, hbrace⟩

/-- Attributes before the blank are taken with the other one as well, and nothing else is. -/
theorem CodeGap.skipAttributes_respaced [Stack] {wide : Bool} {state : State} {s r : Text}
    (hgap : CodeGap gap wide state (r ++ b :: v)) (hblank : gap.Holds x b v) (hapart : StandsApart b' x gap.wide)
    (h : skipAttributes (s ++ b :: v) = .ok (r ++ b :: v)) :
    skipAttributes (s ++ b' :: v) = .ok (r ++ b' :: v) := by
  rcases skipAttributes_cases h with hsame | ⟨word, after, body, hname, hword, hdrop, hclose⟩
  · obtain rfl : r = s := List.append_cancel_right hsame
    exact hgap.skipAttributes_eq_self hb hb' hblank hapart h
  · -- the closing brace stands before the blank, and so does all before it
    obtain ⟨hbody, hafter, -⟩ := clause_suffix hname hdrop hclose
    obtain ⟨q, rfl⟩ : b :: v <:+ body := (List.suffix_append ('\x7d' :: r) (b :: v)).trans hbody
    obtain ⟨u, rfl⟩ : b :: v <:+ after := (List.suffix_append q (b :: v)).trans hafter
    have hskip := Trivia.skip_before_append hb hb' (Trivia.drop_eq_cons_iff.mp hdrop)
    have hu : u ≠ [] := by
      rintro rfl
      have hlen := Trivia.drop_length ([] ++ b :: v)
      rw [hdrop] at hlen
      simp only [List.length_cons, List.length_append, List.nil_append] at hlen
      omega
    exact skipAttributes_clause (splitName?_drop_respaced hb hb' (.inr (.inl hu)) hname) hword
      (Trivia.drop_eq_cons_iff.mpr hskip) (dropWhile_cons_swap hclose)

end

end ImportOrder.Source
