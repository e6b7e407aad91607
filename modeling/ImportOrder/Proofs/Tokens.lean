import ImportOrder.Proofs.Literals
import ImportOrder.Source.Declaration

/-!
# How far reading a token looks

Beyond the character behind a word, reading a token looks past it in two places only: a slash is followed to
the end of its line to see whether a regular expression is closed there, and a string that its line cuts
ends where the line ends. These are the looks of a token. A token is read the same in front of another text
when all its looks come out the same there.
-/

namespace ImportOrder.Source

/-! ## Looks -/

/-- A place where reading a token depends on what comes behind the token. -/
inductive Look where
  /-- A slash that stands for itself, with the text after it; `tried` when a regular expression was allowed
  and none was closed on the line. -/
  | slash (tried : Bool) (rest : Text)
  /-- A string that its line cuts, with the text after it. -/
  | cut (rest : Text)
deriving DecidableEq

namespace Look

/-- The text from the place on. -/
def rest : Look → Text
  | slash _ rest => rest
  | cut rest => rest

/-- Whether the look comes out the same when `t` stands at the place. -/
def Holds : Look → Text → Prop
  | slash tried _, t =>
    (t.head? ≠ some '/' ∧ t.head? ≠ some '*') ∧ (tried = true → readRegex false t = none)
  | cut _, t => EndsLine t

instance : ∀ look t, Decidable (Holds look t)
  | slash tried _, t => inferInstanceAs (Decidable
      ((t.head? ≠ some '/' ∧ t.head? ≠ some '*') ∧ (tried = true → readRegex false t = none)))
  | cut _, t => inferInstanceAs (Decidable (t.head? = none ∨ t.head? = some '\n'))

end Look

/-- The looks of a token that is no template literal. -/
def plainLooks (state : State) (c : Char) (rest : Text) : List Look :=
  if isQuote c then
    match readString c rest with
    | .closed _ => []
    | .cut after => [.cut after]
  else if c = '/' then
    if state.last.allowsRegex then
      match readRegex false rest with
      | some _ => []
      | none => [.slash true rest]
    else [.slash false rest]
  else []

/-- The looks of the tokens in the holes of the open templates. -/
def templateLooks (mode : Mode) (top : Frame) (outer : List Frame) (t : Text) : List Look :=
  match mode with
  | .chars =>
    match t with
    | [] => []
    | '\\' :: rest => templateLooks .chars top outer (rest.drop 1)
    | '$' :: '\x7b' :: rest => templateLooks (.hole ⟨0, .mark '\x7b'⟩) top outer rest
    | c :: rest =>
      if c = templateMark then
        match outer with
        | [] => []
        | next :: outer => templateLooks (.hole ⟨top.depth, .value⟩) next outer rest
      else templateLooks .chars top outer rest
  | .hole state =>
    match _h : Trivia.skip t with
    | .unclosed _ => []
    | .reached [] => []
    | .reached (c :: rest) =>
      if c = '\x7d' ∧ state.depth = 0 then templateLooks .chars top outer rest
      else if c = templateMark then templateLooks .chars ⟨c :: rest, state.depth⟩ (top :: outer) rest
      else
        plainLooks state c rest ++
          match _h' : readPlain false state c rest with
          | .error _ => []
          | .ok (after, rest') => templateLooks (.hole after) top outer rest'
termination_by t.length
decreasing_by
  · simp only [List.length_drop, List.length_cons]
    omega
  · simp only [List.length_cons]
    omega
  · simp
  · simp
  · have := Trivia.reached_length ‹_›
    simp only [List.length_cons] at this
    omega
  · have := Trivia.reached_length ‹_›
    simp only [List.length_cons] at this
    omega
  · have := Trivia.reached_length ‹_›
    have := readPlain_length ‹_›
    simp only [List.length_cons] at *
    omega

/-- The looks of a token that begins with `c`. -/
def tokenLooks (state : State) (c : Char) (rest : Text) : List Look :=
  if c = templateMark then templateLooks .chars ⟨c :: rest, state.depth⟩ [] rest
  else plainLooks state c rest

/-- All looks come out the same when `k'` stands in place of `k`. -/
def LooksHold (looks : List Look) (k k' : Text) : Prop :=
  ∀ look ∈ looks, look.Holds (look.rest.before k ++ k')

instance (looks : List Look) (k k' : Text) : Decidable (LooksHold looks k k') :=
  inferInstanceAs (Decidable (∀ look ∈ looks, look.Holds (look.rest.before k ++ k')))

theorem looksHold_append {looks looks' : List Look} {k k' : Text} :
    LooksHold (looks ++ looks') k k' ↔ LooksHold looks k k' ∧ LooksHold looks' k k' := by
  simp only [LooksHold, List.mem_append, or_imp, forall_and]

/-! ## Plain tokens -/

theorem regexRest?_swap {last : Last} {c : Char} {w k k' r : Text} (hedge : SameEdge k k')
    (h : regexRest? last c (w ++ k) = some (r ++ k)) : regexRest? last c (w ++ k') = some (r ++ k') := by
  unfold regexRest? at h ⊢
  split at h
  · rename_i hslash
    rw [if_pos hslash]
    exact readRegex_swap hedge h
  · simp at h

theorem regexRest?_none_swap {state : State} {c : Char} {w k k' : Text} (hquote : isQuote c = false)
    (hlooks : LooksHold (plainLooks state c (w ++ k)) k k')
    (h : regexRest? state.last c (w ++ k) = none) : regexRest? state.last c (w ++ k') = none := by
  unfold regexRest? at h ⊢
  split at h
  · rename_i hslash
    obtain ⟨rfl, hallows⟩ := hslash
    rw [if_pos ⟨rfl, hallows⟩]
    -- the slash was tried in vain, and is a look for that reason
    have hmem : Look.slash true (w ++ k) ∈ plainLooks state '/' (w ++ k) := by
      simp [plainLooks, hquote, hallows, h]
    have hholds := hlooks _ hmem
    simp only [Look.rest, Text.before_append, Look.Holds] at hholds
    exact hholds.2 trivial
  · rename_i hslash
    rw [if_neg hslash]

theorem isQuote_ne_lineFeed {c : Char} (h : isQuote c = true) : c ≠ '\n' := by
  rintro rfl
  exact absurd h (by decide)

theorem readPlain_swap {strict : Bool} {state state' : State} {c : Char} {w k k' r : Text}
    (hedge : SameEdge k k') (hk : strict = true ∨ k ≠ [])
    (hlooks : LooksHold (plainLooks state c (w ++ k)) k k')
    (h : readPlain strict state c (w ++ k) = .ok (state', r ++ k)) :
    readPlain strict state c (w ++ k') = .ok (state', r ++ k') := by
  unfold readPlain at h ⊢
  by_cases hquote : isQuote c = true
  · rw [if_pos hquote] at h ⊢
    split at h
    · rename_i after hread
      simp only [Except.ok.injEq, Prod.mk.injEq] at h
      obtain ⟨rfl, rfl⟩ := h
      rw [readString_closed_swap k' hread]
    · rename_i after hread
      split at h
      · simp at h
      · rename_i hstrict
        simp only [Except.ok.injEq, Prod.mk.injEq] at h
        obtain ⟨rfl, rfl⟩ := h
        -- the line of a string that is cut must end at the same place
        have hmem : Look.cut (r ++ k) ∈ plainLooks state c (w ++ k) := by
          simp [plainLooks, hquote, hread]
        have hline := hlooks _ hmem
        simp only [Look.rest, Text.before_append, Look.Holds] at hline
        have hne : k ≠ [] := hk.resolve_left hstrict
        rw [readString_cut_swap (isQuote_ne_lineFeed hquote) hne hline hread]
        simp only [hstrict, if_false, Bool.false_eq_true]
  · rw [if_neg hquote] at h ⊢
    have hquote' : isQuote c = false := by simpa using hquote
    split at h
    · rename_i after hregex
      simp only [Except.ok.injEq, Prod.mk.injEq] at h
      obtain ⟨rfl, rfl⟩ := h
      rw [regexRest?_swap hedge hregex]
    · rename_i hregex
      rw [regexRest?_none_swap hquote' hlooks hregex]
      rw [← List.cons_append] at h ⊢
      split at h
      · rename_i word after hword
        simp only [Except.ok.injEq, Prod.mk.injEq] at h
        obtain ⟨rfl, rfl⟩ := h
        simp only [splitWord?_swap hedge (List.cons_ne_nil c w) hword]
      · rename_i hword
        simp only [Except.ok.injEq, Prod.mk.injEq] at h
        obtain ⟨rfl, hrest⟩ := h
        obtain rfl : w = r := List.append_cancel_right hrest
        simp only [splitWord?_none_swap hedge (List.cons_ne_nil c w) hword]

theorem readPlain_suffix {strict : Bool} {state state' : State} {c : Char} {rest rest' : Text}
    (h : readPlain strict state c rest = .ok (state', rest')) : rest' <:+ rest := by
  have hlen := readPlain_length h
  unfold readPlain at h
  split at h
  · have hstring := readString_suffix c rest
    split at h
    · rename_i hread
      simp only [Except.ok.injEq, Prod.mk.injEq] at h
      rwa [hread, StringEnd.rest, h.2] at hstring
    · rename_i hread
      split at h
      · simp at h
      · simp only [Except.ok.injEq, Prod.mk.injEq] at h
        rwa [hread, StringEnd.rest, h.2] at hstring
  · split at h
    · rename_i hregex
      simp only [Except.ok.injEq, Prod.mk.injEq] at h
      obtain ⟨-, rfl⟩ := h
      unfold regexRest? at hregex
      split at hregex
      · exact readRegex_suffix hregex
      · simp at hregex
    · split at h
      · rename_i word after hword
        simp only [Except.ok.injEq, Prod.mk.injEq] at h
        obtain ⟨-, rfl⟩ := h
        -- the word has at least its first character
        have hle : after.length ≤ rest.length := by
          rw [List.length_cons] at hlen
          omega
        exact List.suffix_of_suffix_length_le (splitWord?_suffix hword) (List.suffix_cons c rest) hle
      · simp only [Except.ok.injEq, Prod.mk.injEq] at h
        obtain ⟨-, rfl⟩ := h
        exact List.suffix_refl _

theorem plainLooks_suffix {strict : Bool} {state state' : State} {c : Char} {rest rest' : Text}
    (h : readPlain strict state c rest = .ok (state', rest')) :
    ∀ look ∈ plainLooks state c rest, rest' <:+ look.rest := by
  have hsuffix := readPlain_suffix h
  unfold plainLooks
  unfold readPlain at h
  split
  · rename_i hquote
    rw [if_pos hquote] at h
    split
    · simp
    · rename_i after hread
      rw [hread] at h
      dsimp only at h
      split at h
      · simp at h
      · simp only [Except.ok.injEq, Prod.mk.injEq] at h
        simp [Look.rest, h.2]
  · split
    · split
      · split <;> simp [Look.rest, hsuffix]
      · simp [Look.rest, hsuffix]
    · simp

/-- Looks that see all of `r ++ k` may be told of that text as well as of `k`. -/
theorem LooksHold.extend {looks : List Look} {r k k' : Text} (hsuffix : ∀ look ∈ looks, r ++ k <:+ look.rest)
    (h : LooksHold looks k k') : LooksHold looks (r ++ k) (r ++ k') := by
  intro look hlook
  have hholds := h look hlook
  obtain ⟨x, hx⟩ := hsuffix look hlook
  rw [← hx, Text.before_append, ← List.append_assoc]
  rwa [← hx, ← List.append_assoc, Text.before_append] at hholds

/-! ## Template literals -/

/-- What is no opening of a hole, told by the character behind a dollar sign. -/
theorem head?_ne_brace {c : Char} {rest : Text} (h : ∀ tail, c = '$' → rest = '\x7b' :: tail → False) :
    c = '$' → rest.head? ≠ some '\x7b' := by
  intro hc hhead
  obtain ⟨tail, rfl⟩ := List.head?_eq_some_iff.mp hhead
  exact h tail hc rfl

section

variable [Stack] {strict : Bool} {top : Frame} {outer : List Frame} {state : State} {c : Char} {t rest : Text}

theorem readTemplates_nil : readTemplates strict .chars top outer [] = cutTemplates strict top outer := by
  rw [readTemplates.eq_def]

theorem readTemplates_escape :
    readTemplates strict .chars top outer ('\\' :: rest) =
      readTemplates strict .chars top outer (rest.drop 1) := by
  rw [readTemplates.eq_def]
  rfl

theorem readTemplates_enter :
    readTemplates strict .chars top outer ('$' :: '\x7b' :: rest) =
      readTemplates strict (.hole ⟨0, .mark '\x7b'⟩) top outer rest := by
  rw [readTemplates.eq_def]
  rfl

theorem readTemplates_end :
    readTemplates strict .chars top [] (templateMark :: rest) = .ok (⟨top.depth, .value⟩, rest) := by
  rw [readTemplates.eq_def]
  rfl

theorem readTemplates_endInner {next : Frame} :
    readTemplates strict .chars top (next :: outer) (templateMark :: rest) =
      readTemplates strict (.hole ⟨top.depth, .value⟩) next outer rest := by
  rw [readTemplates.eq_def]
  rfl

theorem readTemplates_char (hback : c ≠ '\\') (hmark : c ≠ templateMark)
    (henter : c = '$' → rest.head? ≠ some '\x7b') :
    readTemplates strict .chars top outer (c :: rest) =
      readTemplates strict .chars top outer rest := by
  rw [readTemplates.eq_def]
  dsimp only
  split <;> simp_all

theorem readTemplates_leave (hskip : Trivia.skip t = .reached ('\x7d' :: rest))
    (hdepth : state.depth = 0) :
    readTemplates strict (.hole state) top outer t = readTemplates strict .chars top outer rest := by
  rw [readTemplates.eq_def]
  dsimp only
  split <;> simp_all

theorem readTemplates_inner (hskip : Trivia.skip t = .reached (templateMark :: rest))
    (hroom : outer.length + 2 ≤ Stack.room) :
    readTemplates strict (.hole state) top outer t =
      readTemplates strict .chars ⟨templateMark :: rest, state.depth⟩ (top :: outer) rest := by
  have hne : templateMark ≠ '\x7d' := by decide
  rw [readTemplates.eq_def]
  dsimp only
  split <;> simp_all

theorem readTemplates_nesting (hskip : Trivia.skip t = .reached (templateMark :: rest))
    (hroom : ¬outer.length + 2 ≤ Stack.room) :
    readTemplates strict (.hole state) top outer t = .error ⟨.nesting, templateMark :: rest⟩ := by
  have hne : templateMark ≠ '\x7d' := by decide
  rw [readTemplates.eq_def]
  dsimp only
  split
  · simp_all
  · simp_all
  · rename_i c u heq
    obtain ⟨rfl, rfl⟩ : templateMark = c ∧ rest = u := by simpa [hskip] using heq
    rw [if_neg (by simp [hne]), if_pos rfl, if_neg hroom]

theorem readTemplates_read (hskip : Trivia.skip t = .reached (c :: rest))
    (hleave : ¬(c = '\x7d' ∧ state.depth = 0)) (hmark : c ≠ templateMark) :
    readTemplates strict (.hole state) top outer t = (readPlain strict state c rest).bind fun found =>
      readTemplates strict (.hole found.1) top outer found.2 := by
  rw [readTemplates.eq_def]
  dsimp only
  split
  · simp_all
  · simp_all
  · rename_i d u heq
    obtain ⟨rfl, rfl⟩ : c = d ∧ rest = u := by simpa [hskip] using heq
    rw [if_neg hleave, if_neg hmark]
    split <;> simp_all [Except.bind]

theorem readTemplates_plain {after : State} {rest' : Text}
    (hskip : Trivia.skip t = .reached (c :: rest)) (hleave : ¬(c = '\x7d' ∧ state.depth = 0))
    (hmark : c ≠ templateMark) (hread : readPlain strict state c rest = .ok (after, rest')) :
    readTemplates strict (.hole state) top outer t =
      readTemplates strict (.hole after) top outer rest' := by
  rw [readTemplates_read hskip hleave hmark, hread, Except.bind]

theorem readTemplates_plain_error {fault : Fault}
    (hskip : Trivia.skip t = .reached (c :: rest)) (hleave : ¬(c = '\x7d' ∧ state.depth = 0))
    (hmark : c ≠ templateMark) (hread : readPlain strict state c rest = .error fault) :
    readTemplates strict (.hole state) top outer t = .error fault := by
  rw [readTemplates_read hskip hleave hmark, hread, Except.bind]

theorem readTemplates_unclosed {comment : Text} (hskip : Trivia.skip t = .unclosed comment) :
    readTemplates strict (.hole state) top outer t =
      if strict then .error ⟨.comment, comment⟩ else cutTemplates strict top outer := by
  rw [readTemplates.eq_def]
  dsimp only
  split <;> simp_all

theorem readTemplates_end_of_hole (hskip : Trivia.skip t = .reached []) :
    readTemplates strict (.hole state) top outer t = cutTemplates strict top outer := by
  rw [readTemplates.eq_def]
  dsimp only
  split <;> simp_all

theorem readTemplates_of_drop_nil {found : State × Text} (hdrop : Trivia.drop t = []) :
    readTemplates strict (.hole state) top outer t = .ok found ↔ cutTemplates strict top outer = .ok found := by
  cases hskip : Trivia.skip t with
  | unclosed comment =>
    rw [readTemplates_unclosed hskip]
    cases strict with
    | true => simp [cutTemplates]
    | false => simp
  | reached rest =>
    obtain rfl : rest = [] := by rwa [Trivia.drop, hskip] at hdrop
    rw [readTemplates_end_of_hole hskip]

end

section

variable {top : Frame} {outer : List Frame} {state : State} {c : Char} {t rest : Text}

theorem templateLooks_escape :
    templateLooks .chars top outer ('\\' :: rest) = templateLooks .chars top outer (rest.drop 1) := by
  rw [templateLooks.eq_def]
  rfl

theorem templateLooks_enter :
    templateLooks .chars top outer ('$' :: '\x7b' :: rest) =
      templateLooks (.hole ⟨0, .mark '\x7b'⟩) top outer rest := by
  rw [templateLooks.eq_def]
  rfl

theorem templateLooks_endInner {next : Frame} :
    templateLooks .chars top (next :: outer) (templateMark :: rest) =
      templateLooks (.hole ⟨top.depth, .value⟩) next outer rest := by
  rw [templateLooks.eq_def]
  rfl

theorem templateLooks_char (hback : c ≠ '\\') (hmark : c ≠ templateMark)
    (henter : c = '$' → rest.head? ≠ some '\x7b') :
    templateLooks .chars top outer (c :: rest) = templateLooks .chars top outer rest := by
  rw [templateLooks.eq_def]
  dsimp only
  split <;> simp_all

theorem templateLooks_leave (hskip : Trivia.skip t = .reached ('\x7d' :: rest))
    (hdepth : state.depth = 0) :
    templateLooks (.hole state) top outer t = templateLooks .chars top outer rest := by
  rw [templateLooks.eq_def]
  dsimp only
  split <;> simp_all

theorem templateLooks_inner (hskip : Trivia.skip t = .reached (templateMark :: rest)) :
    templateLooks (.hole state) top outer t =
      templateLooks .chars ⟨templateMark :: rest, state.depth⟩ (top :: outer) rest := by
  have hne : templateMark ≠ '\x7d' := by decide
  rw [templateLooks.eq_def]
  dsimp only
  split <;> simp_all

theorem templateLooks_plain {after : State} {rest' : Text}
    (hskip : Trivia.skip t = .reached (c :: rest)) (hleave : ¬(c = '\x7d' ∧ state.depth = 0))
    (hmark : c ≠ templateMark) (hread : readPlain false state c rest = .ok (after, rest')) :
    templateLooks (.hole state) top outer t =
      plainLooks state c rest ++ templateLooks (.hole after) top outer rest' := by
  rw [templateLooks.eq_def]
  dsimp only
  split
  · simp_all
  · simp_all
  · rename_i d u heq
    obtain ⟨rfl, rfl⟩ : c = d ∧ rest = u := by simpa [hskip] using heq
    rw [if_neg hleave, if_neg hmark]
    split <;> simp_all

end

theorem readPlain_lenient {strict : Bool} {state : State} {c : Char} {rest : Text} {x : State × Text}
    (h : readPlain strict state c rest = .ok x) : readPlain false state c rest = .ok x := by
  unfold readPlain at h ⊢
  split
  · rename_i hquote
    rw [if_pos hquote] at h
    split
    · rename_i hread
      simpa [hread] using h
    · rename_i hread
      rw [hread] at h
      dsimp only at h
      split at h
      · simp at h
      · simpa using h
  · rename_i hquote
    rwa [if_neg hquote] at h

theorem cutTemplates_ne {strict : Bool} {top : Frame} {outer : List Frame} {state : State} {rest : Text}
    (hcut : strict = true ∨ rest ≠ []) : cutTemplates strict top outer ≠ .ok (state, rest) := by
  intro h
  have hrest := cutTemplates_length h
  unfold cutTemplates at h
  rcases hcut with rfl | hne
  · simp at h
  · exact hne hrest

/-- One text is what another ends with, and is shorter. -/
def ProperTail (rest t : Text) : Prop :=
  rest <:+ t ∧ rest.length < t.length

theorem ProperTail.of_suffix {rest u t : Text} (h : ProperTail rest u) (hu : u <:+ t) :
    ProperTail rest t :=
  ⟨h.1.trans hu, Nat.lt_of_lt_of_le h.2 hu.length_le⟩

theorem ProperTail.of_cons {rest t : Text} {c : Char} (h : rest <:+ t) : ProperTail rest (c :: t) :=
  ⟨h.trans (List.suffix_cons c t), Nat.lt_succ_of_le h.length_le⟩

theorem ProperTail.ne_nil {rest t : Text} (h : ProperTail rest t) : t ≠ [] := by
  rintro rfl
  exact absurd h.2 (Nat.not_lt_zero _)

/-- A text is cut in front of a tail that still has `r ++ k` as a proper tail only before `k`. -/
theorem ProperTail.exists_append {p r w k u : Text} (h : ProperTail (r ++ k) u) (ht : w ++ k = p ++ u) :
    ∃ w', w' ≠ [] ∧ w = p ++ w' ∧ u = w' ++ k := by
  have hlen := h.2
  rw [List.length_append] at hlen
  -- `k` and `u` are tails of one text, and `u` is the longer one
  obtain ⟨w', rfl⟩ : k <:+ u := List.suffix_of_suffix_length_le ⟨w, ht⟩ (List.suffix_append p u) (by omega)
  refine ⟨w', ?_, ?_, rfl⟩
  · rintro rfl
    simp only [List.nil_append] at hlen
    omega
  · rw [← List.append_assoc] at ht
    exact List.append_cancel_right ht

theorem skip_suffix {t rest : Text} (h : Trivia.skip t = .reached rest) : rest <:+ t := by
  have hdrop := Trivia.drop_suffix t
  rwa [Trivia.drop, h, Trivia.Stop.rest] at hdrop

/-- Of what is skipped before a token, nothing depends on a text that stands behind the token. -/
theorem skip_swap_within {w k r u : Text} {c : Char} (h : Trivia.skip (w ++ k) = .reached (c :: u))
    (htail : ProperTail (r ++ k) u) :
    ∃ w', w' ≠ [] ∧ u = w' ++ k ∧ ∀ k', Trivia.skip (w ++ k') = .reached (c :: (w' ++ k')) := by
  have hlen := htail.2
  rw [List.length_append] at hlen
  obtain ⟨w', rfl, hswap⟩ := Trivia.skip_swap h (by omega)
  have hw' : w' ≠ [] := by
    rintro rfl
    simp only [List.nil_append] at hlen
    omega
  exact ⟨w', hw', rfl, fun k' => hswap k' fun _ hnil => absurd hnil hw'⟩

/-- A template literal that does not run to the end of the text takes at least one character. -/
theorem readTemplates_properTail [Stack] {strict : Bool} {mode : Mode} {top : Frame} {outer : List Frame}
    {t rest : Text} {state' : State} (hcut : strict = true ∨ rest ≠ [])
    (h : readTemplates strict mode top outer t = .ok (state', rest)) : ProperTail rest t := by
  fun_induction readTemplates strict mode top outer t with
  | case1 => exact absurd h (cutTemplates_ne hcut)
  | case2 _ _ r ih => exact (ih h).of_suffix ((List.drop_suffix 1 r).trans (List.suffix_cons _ r))
  | case3 _ _ r ih => exact (ih h).of_suffix ⟨['$', '\x7b'], rfl⟩
  | case4 _ r _ _ =>
    simp only [Except.ok.injEq, Prod.mk.injEq] at h
    rw [← h.2]
    exact .of_cons (List.suffix_refl r)
  | case5 _ r _ _ _ _ ih => exact (ih h).of_suffix (List.suffix_cons _ r)
  | case6 _ _ _ r _ _ _ ih => exact (ih h).of_suffix (List.suffix_cons _ r)
  | case7 => simp at h
  | case8 | case9 => exact absurd h (cutTemplates_ne hcut)
  | case10 _ _ _ _ _ r hskip _ ih | case11 _ _ _ _ r _ hskip _ ih =>
    exact (ih h).of_suffix ((List.suffix_cons _ r).trans (skip_suffix hskip))
  | case12 | case13 => simp at h
  | case14 _ _ _ _ _ r hskip _ _ _ _ hread ih =>
    have htail := (readPlain_suffix hread).trans ((List.suffix_cons _ r).trans (skip_suffix hskip))
    exact (ih h).of_suffix htail

theorem readTemplates_suffix [Stack] {strict : Bool} {mode : Mode} {top : Frame} {outer : List Frame} {t rest : Text}
    {state' : State} (h : readTemplates strict mode top outer t = .ok (state', rest)) : rest <:+ t := by
  by_cases hrest : rest = []
  · rw [hrest]
    exact List.nil_suffix
  · exact (readTemplates_properTail (.inr hrest) h).1

theorem outerDepth_eq {top top' : Frame} {outer outer' : List Frame} (htop : top'.depth = top.depth)
    (houter : outer'.map Frame.depth = outer.map Frame.depth) : outerDepth top' outer' = outerDepth top outer := by
  induction outer generalizing top top' outer' with
  | nil =>
    obtain rfl : outer' = [] := by simpa using houter
    exact htop
  | cons next outer ih =>
    cases outer' with
    | nil => simp at houter
    | cons next' outer' =>
      simp only [List.map_cons, List.cons.injEq] at houter
      have hnext : outerDepth next' outer' = outerDepth next outer := ih houter.1 houter.2
      exact hnext

/-- Frames that agree in the depths are as many. -/
theorem length_of_depths {outer outer' : List Frame} (h : outer'.map Frame.depth = outer.map Frame.depth) :
    outer.length = outer'.length := by
  simpa using (congrArg List.length h).symm

section

variable {strict strict' : Bool} {top top' : Frame} {outer outer' : List Frame} {t : Text} {found : State × Text}
  (hstrict : strict' = true → strict = true)

include hstrict

theorem readPlain_of_strict {state : State} {c : Char} {rest : Text}
    (h : readPlain strict state c rest = .ok found) : readPlain strict' state c rest = .ok found := by
  cases strict' with
  | false => exact readPlain_lenient h
  | true =>
    rw [hstrict rfl] at h
    exact h

theorem cutTemplates_depths (htop : top'.depth = top.depth)
    (houter : outer'.map Frame.depth = outer.map Frame.depth) (h : cutTemplates strict top outer = .ok found) :
    cutTemplates strict' top' outer' = .ok found := by
  cases strict with
  | true => simp [cutTemplates] at h
  | false =>
    obtain rfl : strict' = false := by simpa using hstrict
    rw [← h]
    simp [cutTemplates, outerDepth_eq htop houter]

/-- What a strict reader reads, a lenient one reads as well, and of an open template only the depth around it
matters to both. -/
theorem readTemplates_depths [Stack] {mode : Mode} (htop : top'.depth = top.depth)
    (houter : outer'.map Frame.depth = outer.map Frame.depth)
    (h : readTemplates strict mode top outer t = .ok found) :
    readTemplates strict' mode top' outer' t = .ok found := by
  -- along the steps of the reader, none of which looks at the text of a frame
  fun_induction readTemplates strict mode top outer t generalizing top' outer' with
  | case1 =>
    rw [readTemplates_nil]
    exact cutTemplates_depths hstrict htop houter h
  | case2 _ _ r ih =>
    rw [readTemplates_escape]
    exact ih htop houter h
  | case3 _ _ r ih =>
    rw [readTemplates_enter]
    exact ih htop houter h
  | case4 =>
    obtain rfl : outer' = [] := by simpa using houter
    rw [readTemplates_end, htop]
    exact h
  | case5 _ _ _ _ _ _ ih =>
    cases outer' with
    | nil => simp at houter
    | cons next' outer' =>
      simp only [List.map_cons, List.cons.injEq] at houter
      rw [readTemplates_endInner, htop]
      exact ih houter.1 houter.2 h
  | case6 _ _ c r hback henter hmark ih =>
    rw [readTemplates_char (fun hc => hback hc) hmark (head?_ne_brace henter)]
    exact ih htop houter h
  | case7 => simp at h
  | case8 _ _ _ _ _ hskip =>
    rw [readTemplates_of_drop_nil (by rw [Trivia.drop, hskip]; rfl)]
    exact cutTemplates_depths hstrict htop houter h
  | case9 _ _ _ _ hskip =>
    rw [readTemplates_of_drop_nil (by rw [Trivia.drop, hskip]; rfl)]
    exact cutTemplates_depths hstrict htop houter h
  | case10 _ _ _ _ c r hskip hleave ih =>
    obtain ⟨rfl, hdepth⟩ := hleave
    rw [readTemplates_leave hskip hdepth]
    exact ih htop houter h
  | case11 _ _ _ _ _ hroom hskip _ ih =>
    rw [readTemplates_inner hskip (length_of_depths houter ▸ hroom)]
    exact ih rfl (by simp [htop, houter]) h
  | case12 | case13 => simp at h
  | case14 _ _ _ _ _ _ hskip hleave hmark _ _ hread ih =>
    rw [readTemplates_plain hskip hleave hmark (readPlain_of_strict hstrict hread)]
    exact ih htop houter h

end

theorem readToken_lenient [Stack] {strict : Bool} {state : State} {c : Char} {rest : Text} {x : State × Text}
    (h : readToken strict state c rest = .ok x) : readToken false state c rest = .ok x := by
  unfold readToken at h ⊢
  split at h
  · rename_i hmark
    rw [if_pos hmark]
    split at h
    · rename_i hroom
      rw [if_pos hroom]
      exact readTemplates_depths (fun hstrict => absurd hstrict (by decide)) rfl rfl h
    · simp at h
  · rename_i hmark
    rw [if_neg hmark]
    exact readPlain_lenient h

/-- A plain token that leaves a proper part of the text before `k` is read the same in front of another text
when its looks come out the same. -/
theorem readPlain_swap_within {strict : Bool} {state after : State} {c : Char} {w k k' r rest : Text}
    (hlooks : LooksHold (plainLooks state c (w ++ k)) k k') (htail : ProperTail (r ++ k) rest)
    (h : readPlain strict state c (w ++ k) = .ok (after, rest)) :
    ∃ r', rest = r' ++ k ∧ readPlain strict state c (w ++ k') = .ok (after, r' ++ k') := by
  obtain ⟨x, hx⟩ := readPlain_suffix h
  obtain ⟨r', hr', rfl, rfl⟩ := htail.exists_append hx.symm
  refine ⟨r', rfl, ?_⟩
  -- the text that stays in place is `r' ++ k`, which begins alike before both texts
  rw [List.append_assoc] at h hlooks ⊢
  have hk : strict = true ∨ r' ++ k ≠ [] := .inr fun hnil => hr' (List.append_eq_nil_iff.mp hnil).1
  exact readPlain_swap (r := []) (.of_ne_nil hr' k k') hk (hlooks.extend (plainLooks_suffix h)) h

section

variable [Stack] {strict : Bool} {k k' r : Text} {state' : State} {top : Frame} {outer : List Frame} {t u : Text}

/-- Reading from a place on comes to the same end in front of `k'` as in front of `k`, whatever the frames are whose
depths it gives back. -/
def Swaps (strict : Bool) (k k' r : Text) (state' : State) (mode : Mode) (top : Frame) (outer : List Frame)
    (u : Text) : Prop :=
  ∀ w top' outer', w ++ k = u → top'.depth = top.depth → outer'.map Frame.depth = outer.map Frame.depth →
    LooksHold (templateLooks mode top outer u) k k' →
      readTemplates strict mode top' outer' (w ++ k') = .ok (state', r ++ k')

theorem Swaps.escape (h : Swaps strict k k' r state' .chars top outer (u.drop 1))
    (htail : ProperTail (r ++ k) (u.drop 1)) : Swaps strict k k' r state' .chars top outer ('\\' :: u) := by
  intro w top' outer' ht htop houter hlooks
  cases u with
  | nil => exact absurd rfl htail.ne_nil
  | cons d u =>
    obtain ⟨w', -, rfl, rfl⟩ := htail.exists_append (p := ['\\', d]) ht
    show readTemplates strict .chars top' outer' ('\\' :: d :: (w' ++ k')) = _
    rw [templateLooks_escape] at hlooks
    rw [readTemplates_escape]
    exact h w' top' outer' rfl htop houter hlooks

theorem Swaps.enter (h : Swaps strict k k' r state' (.hole ⟨0, .mark '\x7b'⟩) top outer u)
    (htail : ProperTail (r ++ k) u) : Swaps strict k k' r state' .chars top outer ('$' :: '\x7b' :: u) := by
  intro w top' outer' ht htop houter hlooks
  obtain ⟨w', -, rfl, rfl⟩ := htail.exists_append (p := ['$', '\x7b']) ht
  show readTemplates strict .chars top' outer' ('$' :: '\x7b' :: (w' ++ k')) = _
  rw [templateLooks_enter] at hlooks
  rw [readTemplates_enter]
  exact h w' top' outer' rfl htop houter hlooks

theorem Swaps.endInner {next : Frame} (h : Swaps strict k k' r state' (.hole ⟨top.depth, .value⟩) next outer u)
    (htail : ProperTail (r ++ k) u) : Swaps strict k k' r state' .chars top (next :: outer) (templateMark :: u) := by
  intro w top' outer' ht htop houter hlooks
  obtain ⟨w', -, rfl, rfl⟩ := htail.exists_append (p := [templateMark]) ht
  cases outer' with
  | nil => simp at houter
  | cons next' outer' =>
    simp only [List.map_cons, List.cons.injEq] at houter
    show readTemplates strict .chars top' (next' :: outer') (templateMark :: (w' ++ k')) = _
    rw [templateLooks_endInner] at hlooks
    rw [readTemplates_endInner, htop]
    exact h w' next' outer' rfl houter.1 houter.2 hlooks

theorem Swaps.char {c : Char} (hback : c ≠ '\\') (hmark : c ≠ templateMark)
    (henter : ∀ tail, c = '$' → u = '\x7b' :: tail → False)
    (h : Swaps strict k k' r state' .chars top outer u) (htail : ProperTail (r ++ k) u) :
    Swaps strict k k' r state' .chars top outer (c :: u) := by
  intro w top' outer' ht htop houter hlooks
  obtain ⟨w', hw', rfl, rfl⟩ := htail.exists_append (p := [c]) ht
  -- the character behind a dollar sign stands before `k` as well
  have henter' : ∀ v : Text, c = '$' → (w' ++ v).head? ≠ some '\x7b' := by
    intro v hc hhead
    obtain ⟨d, w', rfl⟩ := List.exists_cons_of_ne_nil hw'
    obtain rfl : d = '\x7b' := by simpa using hhead
    exact henter (w' ++ k) hc rfl
  show readTemplates strict .chars top' outer' (c :: (w' ++ k')) = _
  rw [templateLooks_char hback hmark (henter' k)] at hlooks
  rw [readTemplates_char hback hmark (henter' k')]
  exact h w' top' outer' rfl htop houter hlooks

theorem Swaps.leave {state : State} (hskip : Trivia.skip t = .reached ('\x7d' :: u)) (hdepth : state.depth = 0)
    (h : Swaps strict k k' r state' .chars top outer u) (htail : ProperTail (r ++ k) u) :
    Swaps strict k k' r state' (.hole state) top outer t := by
  rintro w top' outer' rfl htop houter hlooks
  obtain ⟨w', -, rfl, hswap⟩ := skip_swap_within hskip htail
  rw [templateLooks_leave hskip hdepth] at hlooks
  rw [readTemplates_leave (hswap k') hdepth]
  exact h w' top' outer' rfl htop houter hlooks

theorem Swaps.inner {state : State} (hskip : Trivia.skip t = .reached (templateMark :: u))
    (hroom : outer.length + 2 ≤ Stack.room)
    (h : Swaps strict k k' r state' .chars ⟨templateMark :: u, state.depth⟩ (top :: outer) u)
    (htail : ProperTail (r ++ k) u) : Swaps strict k k' r state' (.hole state) top outer t := by
  rintro w top' outer' rfl htop houter hlooks
  obtain ⟨w', -, rfl, hswap⟩ := skip_swap_within hskip htail
  rw [templateLooks_inner hskip] at hlooks
  rw [readTemplates_inner (hswap k') (length_of_depths houter ▸ hroom)]
  exact h w' _ _ rfl rfl (by simp [htop, houter]) hlooks

theorem Swaps.plain {state after : State} {c : Char} {rest : Text} (hskip : Trivia.skip t = .reached (c :: u))
    (hleave : ¬(c = '\x7d' ∧ state.depth = 0)) (hmark : c ≠ templateMark)
    (hread : readPlain strict state c u = .ok (after, rest))
    (h : Swaps strict k k' r state' (.hole after) top outer rest) (htail : ProperTail (r ++ k) rest) :
    Swaps strict k k' r state' (.hole state) top outer t := by
  rintro w top' outer' rfl htop houter hlooks
  obtain ⟨w', -, rfl, hswap⟩ := skip_swap_within hskip (htail.of_suffix (readPlain_suffix hread))
  rw [templateLooks_plain hskip hleave hmark (readPlain_lenient hread), looksHold_append] at hlooks
  obtain ⟨r', rfl, hread'⟩ := readPlain_swap_within hlooks.1 htail hread
  rw [readTemplates_plain (hswap k') hleave hmark hread']
  exact h r' top' outer' rfl htop houter hlooks.2

/-- A template literal that ends before `k` does not depend on it, but for the looks in its holes. -/
theorem readTemplates_swaps {mode : Mode} (hk : strict = true ∨ k ≠ [])
    (h : readTemplates strict mode top outer t = .ok (state', r ++ k)) :
    Swaps strict k k' r state' mode top outer t := by
  have hcut : strict = true ∨ r ++ k ≠ [] := hk.imp_right fun hne hnil =>
    hne (List.append_eq_nil_iff.mp hnil).2
  -- along the steps of the reader; what is still to be read has `r ++ k` as a proper tail, so each step
  -- takes its characters from what stands before `k`
  fun_induction readTemplates strict mode top outer t with
  | case1 => exact absurd h (cutTemplates_ne hcut)
  | case2 _ _ _ ih => exact (ih h).escape (readTemplates_properTail hcut h)
  | case3 _ _ _ ih => exact (ih h).enter (readTemplates_properTail hcut h)
  | case4 top u _ _ =>
    rintro w top' outer' ht htop houter -
    simp only [Except.ok.injEq, Prod.mk.injEq] at h
    obtain ⟨rfl, rfl⟩ := h
    obtain rfl : outer' = [] := by simpa using houter
    obtain rfl : w = templateMark :: r := by
      rw [← List.cons_append] at ht
      exact List.append_cancel_right ht
    rw [List.cons_append, readTemplates_end, htop]
  | case5 _ _ _ _ _ _ ih => exact (ih h).endInner (readTemplates_properTail hcut h)
  | case6 _ _ _ _ hback henter hmark ih =>
    exact (ih h).char (fun hc => hback hc) hmark henter (readTemplates_properTail hcut h)
  | case7 => simp at h
  | case8 | case9 => exact absurd h (cutTemplates_ne hcut)
  | case10 _ _ _ _ _ _ hskip hleave ih =>
    obtain ⟨rfl, hdepth⟩ := hleave
    exact (ih h).leave hskip hdepth (readTemplates_properTail hcut h)
  | case11 _ _ _ _ _ hroom hskip _ ih => exact (ih h).inner hskip hroom (readTemplates_properTail hcut h)
  | case12 | case13 => simp at h
  | case14 _ _ _ _ _ _ hskip hleave hmark _ _ hread ih =>
    exact (ih h).plain hskip hleave hmark hread (readTemplates_properTail hcut h)

end

theorem readToken_suffix [Stack] {strict : Bool} {state state' : State} {c : Char} {rest rest' : Text}
    (h : readToken strict state c rest = .ok (state', rest')) : rest' <:+ rest := by
  unfold readToken at h
  split at h
  · split at h
    · exact readTemplates_suffix h
    · simp at h
  · exact readPlain_suffix h

/-- A token that ends before or at `k` is read the same in front of another text when all its looks come out
the same. -/
theorem readToken_swap [Stack] {strict : Bool} {state state' : State} {c : Char} {w k k' r : Text}
    (hedge : SameEdge k k') (hk : strict = true ∨ k ≠ [])
    (hlooks : LooksHold (tokenLooks state c (w ++ k)) k k')
    (h : readToken strict state c (w ++ k) = .ok (state', r ++ k)) :
    readToken strict state c (w ++ k') = .ok (state', r ++ k') := by
  unfold readToken at h ⊢
  unfold tokenLooks at hlooks
  split at h
  · rename_i hmark
    rw [if_pos hmark] at hlooks ⊢
    split at h
    · rename_i hroom
      rw [if_pos hroom]
      exact readTemplates_swaps hk h w _ _ rfl rfl rfl hlooks
    · simp at h
  · rename_i hmark
    rw [if_neg hmark] at hlooks ⊢
    exact readPlain_swap hedge hk hlooks h

/-- A slash that ends right before `k` is followed by no second one there, and by no star. -/
theorem tokenLooks_slash [Stack] {state state' : State} {strict : Bool} {k k' : Text}
    (hlooks : LooksHold (tokenLooks state '/' k) k k')
    (h : readToken strict state '/' k = .ok (state', k)) :
    k'.head? ≠ some '/' ∧ k'.head? ≠ some '*' := by
  have hmark : '/' ≠ templateMark := by decide
  have hquote : isQuote '/' = false := by decide
  rw [tokenLooks, if_neg hmark] at hlooks
  rw [readToken, if_neg hmark, readPlain, hquote] at h
  have hmem : ∃ tried, Look.slash tried k ∈ plainLooks state '/' k := by
    unfold regexRest? at h
    cases hallows : state.last.allowsRegex with
    | false => exact ⟨false, by simp [plainLooks, hquote, hallows]⟩
    | true =>
      cases hregex : readRegex false k with
      | none => exact ⟨true, by simp [plainLooks, hquote, hallows, hregex]⟩
      | some after =>
        -- a regular expression would have taken some of `k`
        have hlen := readRegex_length hregex
        simp only [hallows, hregex, and_self, if_true, Bool.false_eq_true, if_false, Except.ok.injEq,
          Prod.mk.injEq] at h
        rw [h.2] at hlen
        omega
  obtain ⟨tried, hmem⟩ := hmem
  have hholds := hlooks _ hmem
  have hnil : Text.before k k = [] := by simp [Text.before]
  simp only [Look.rest, hnil, List.nil_append, Look.Holds] at hholds
  exact hholds.1

/-! ## Cutting a text behind a token -/

/-- A look that comes out the same before a text does so at the end as well. -/
theorem Look.Holds.of_append {look : Look} {t k : Text} (h : look.Holds (t ++ k)) : look.Holds t := by
  cases look with
  | slash tried rest =>
    obtain ⟨hhead, hregex⟩ := h
    refine ⟨?_, fun htried => readRegex_none_of_append (hregex htried)⟩
    cases t with
    | nil => simp
    | cons c t => exact hhead
  | cut rest =>
    cases t with
    | nil => exact .inl rfl
    | cons c t => exact h

theorem holds_plainLooks {state : State} {c : Char} {rest : Text} (hstart : Trivia.StartsToken c rest) :
    ∀ look ∈ plainLooks state c rest, look.Holds look.rest := by
  unfold plainLooks
  split
  · cases hread : readString c rest with
    | closed after => simp
    | cut after =>
      intro look hlook
      obtain rfl : look = .cut after := List.mem_singleton.mp hlook
      exact endsLine_of_cut hread
  · split
    · rename_i hslash
      split
      · cases hregex : readRegex false rest with
        | some after => simp
        | none =>
          intro look hlook
          obtain rfl : look = .slash true rest := List.mem_singleton.mp hlook
          exact ⟨hstart.2 hslash, fun _ => hregex⟩
      · intro look hlook
        obtain rfl : look = .slash false rest := List.mem_singleton.mp hlook
        exact ⟨hstart.2 hslash, by simp⟩
    · simp

theorem holds_templateLooks {mode : Mode} {top : Frame} {outer : List Frame} {t : Text} :
    ∀ look ∈ templateLooks mode top outer t, look.Holds look.rest := by
  fun_induction templateLooks mode top outer t with
  | case1 | case4 | case7 | case8 => simp
  | case2 _ _ _ ih | case3 _ _ _ ih | case5 _ _ _ _ _ _ ih => exact ih
  | case6 _ _ _ _ _ _ _ ih | case9 _ _ _ _ _ _ _ _ ih | case10 _ _ _ _ _ _ _ ih => exact ih
  | case11 _ _ _ state c rest hskip _ _ ih =>
    intro look hlook
    rcases List.mem_append.mp hlook with hlook | hlook
    · exact holds_plainLooks (Trivia.startsToken_of_skip hskip) look hlook
    · split at hlook
      · simp at hlook
      · rename_i hread
        exact ih _ _ hread look hlook

/-- The looks of a token come out as they did. -/
theorem holds_tokenLooks {state : State} {c : Char} {rest : Text} (hstart : Trivia.StartsToken c rest) :
    ∀ look ∈ tokenLooks state c rest, look.Holds look.rest := by
  unfold tokenLooks
  split
  · exact holds_templateLooks
  · exact holds_plainLooks hstart

end ImportOrder.Source
