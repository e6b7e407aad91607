import ImportOrder.Proofs.Nesting
import ImportOrder.Proofs.Slices
import ImportOrder.Runtime

/-!
# Reading goes on and comes to an end

Every token takes at least one character, and only a bracket that stands for itself changes the depth. A template
literal is no exception, whatever is nested in its holes and wherever the text ends: a literal in a hole is one token
of that hole, and gives the depth of the hole back. So each round of reading shortens the text that is left, at top
level as well as inside a template, and reading comes to its end after at most one round for each character. The stack
may put an end to it before, where more templates are open at once than it has room for.
-/

namespace ImportOrder

/-- The stack as it is left inside so many open templates. -/
@[reducible] def Stack.inside [Stack] (opened : Nat) : Stack :=
  ⟨Stack.room - opened⟩

namespace Source

/-! ## Depth -/

/-- How a token that is read at an offset ends, and what it does to the depth: only an opening or a closing bracket
by itself changes it, by one, and never below zero. -/
structure TokenEnds (source : Text) (pos : Nat) (state next : State) (stop : Nat) : Prop where
  pos_lt_stop : pos < stop
  stop_le_length : stop ≤ source.length
  opener : ∀ c, source.slice pos stop = [c] → isOpener c = true → next.depth = state.depth + 1
  closer : ∀ c, source.slice pos stop = [c] → isCloser c = true → next.depth = state.depth - 1
  other : (∀ c, source.slice pos stop = [c] → isOpener c = false ∧ isCloser c = false) → next.depth = state.depth

/-- A character that opens or closes a bracket. -/
def IsBracket (c : Char) : Prop :=
  isOpener c = true ∨ isCloser c = true

theorem bracket_cases {c : Char} (h : IsBracket c) : c ∈ ['(', '[', '\x7b', ')', ']', '\x7d'] := by
  simpa [IsBracket, isOpener, isCloser, or_assoc] using h

theorem depthAfter_of_not_bracket {c : Char} (h : ¬IsBracket c) (depth : Nat) : depthAfter depth c = depth := by
  rw [IsBracket, not_or] at h
  rw [depthAfter, if_neg h.1, if_neg h.2]

theorem not_opener_of_closer {c : Char} (h : isCloser c = true) : isOpener c = false := by
  simp only [isCloser, Bool.or_eq_true, beq_iff_eq] at h
  rcases h with (rfl | rfl) | rfl <;> decide

/-- No bracket begins a word. -/
theorem not_bracket_of_splitWord? {c : Char} {rest word after : Text}
    (h : splitWord? (c :: rest) = some (word, after)) : ¬IsBracket c := by
  intro hbracket
  have hclass : isNameStart c = false ∧ isDecimal c = false ∧ c ≠ '.' := by
    have hmem := bracket_cases hbracket
    simp only [List.mem_cons, List.not_mem_nil, or_false] at hmem
    rcases hmem with rfl | rfl | rfl | rfl | rfl | rfl <;> decide
  have hname : splitName? (c :: rest) = none := by
    rw [splitName?, if_neg (by simp [hclass.1])]
  have hnumber : splitNumber? (c :: rest) = none := by
    cases rest with
    | nil => rw [splitNumber?, if_neg (by simp [hclass.2.1])]
    | cons d rest => rw [splitNumber?, if_neg (by simp [hclass.2.1]), if_neg (by simp [hclass.2.2])]
  rw [splitWord?, hname, hnumber] at h
  simp at h

theorem not_bracket_of_isQuote {c : Char} (h : isQuote c = true) : ¬IsBracket c := by
  simp only [isQuote, Bool.or_eq_true, beq_iff_eq] at h
  rcases h with rfl | rfl <;> simp [IsBracket, isOpener, isCloser]

theorem not_bracket_of_regexRest? {last : Last} {c : Char} {rest after : Text}
    (h : regexRest? last c rest = some after) : ¬IsBracket c := by
  unfold regexRest? at h
  split at h
  · rename_i hslash
    rw [hslash.1]
    simp [IsBracket, isOpener, isCloser]
  · simp at h

section

variable {strict : Bool} {state next : State} {c : Char} {rest rest' : Text}

/-- A token that is no template keeps the depth, unless it is a bracket. -/
theorem readPlain_depth (h : readPlain strict state c rest = .ok (next, rest')) :
    (next.depth = state.depth ∧ ¬IsBracket c) ∨ (next.depth = depthAfter state.depth c ∧ rest' = rest) := by
  unfold readPlain at h
  split at h
  · rename_i hquote
    have hbracket := not_bracket_of_isQuote hquote
    split at h
    · obtain ⟨rfl, -⟩ := Prod.mk.inj (Except.ok.inj h)
      exact .inl ⟨rfl, hbracket⟩
    · split at h
      · simp at h
      · obtain ⟨rfl, -⟩ := Prod.mk.inj (Except.ok.inj h)
        exact .inl ⟨rfl, hbracket⟩
  · split at h
    · rename_i hregex
      obtain ⟨rfl, -⟩ := Prod.mk.inj (Except.ok.inj h)
      exact .inl ⟨rfl, not_bracket_of_regexRest? hregex⟩
    · split at h
      · rename_i hword
        obtain ⟨rfl, -⟩ := Prod.mk.inj (Except.ok.inj h)
        exact .inl ⟨rfl, not_bracket_of_splitWord? hword⟩
      · obtain ⟨rfl, rfl⟩ := Prod.mk.inj (Except.ok.inj h)
        exact .inr ⟨rfl, rfl⟩

/-- Whatever is open when reading goes on, it ends in the depth around the outermost open template. -/
theorem readTemplates_depth [Stack] {mode : Mode} {top : Frame} {outer : List Frame} {t : Text}
    (h : readTemplates strict mode top outer t = .ok (next, rest)) : next.depth = outerDepth top outer := by
  have hcut : ∀ {top : Frame} {outer : List Frame}, cutTemplates strict top outer = .ok (next, rest) →
      next.depth = outerDepth top outer := by
    intro top outer h
    unfold cutTemplates at h
    split at h
    · simp at h
    · obtain ⟨rfl, -⟩ := Prod.mk.inj (Except.ok.inj h)
      rfl
  fun_induction readTemplates strict mode top outer t with
  | case1 => exact hcut h
  | case2 _ _ _ ih | case3 _ _ _ ih => exact ih h
  | case4 =>
    obtain ⟨rfl, -⟩ := Prod.mk.inj (Except.ok.inj h)
    rfl
  | case5 _ _ _ _ _ _ ih => exact ih h
  | case6 _ _ _ _ _ _ _ ih => exact ih h
  | case7 => simp at h
  | case8 | case9 => exact hcut h
  | case10 _ _ _ _ _ _ _ _ ih | case11 _ _ _ _ _ _ _ _ ih => exact ih h
  | case12 | case13 => simp at h
  | case14 _ _ _ _ _ _ _ _ _ _ _ _ ih => exact ih h

/-- A token keeps the depth, unless it is a bracket by itself. -/
theorem readToken_depth [Stack] (h : readToken strict state c rest = .ok (next, rest')) :
    (next.depth = state.depth ∧ ¬IsBracket c) ∨ (next.depth = depthAfter state.depth c ∧ rest' = rest) := by
  unfold readToken at h
  split at h
  · rename_i hmark
    have hbracket : ¬IsBracket c := by
      rw [hmark]
      simp [IsBracket, isOpener, isCloser, templateMark]
    split at h
    · exact .inl ⟨readTemplates_depth h, hbracket⟩
    · simp at h
  · exact readPlain_depth h

/-- Where a token ends that is read at an offset. -/
theorem exists_tokenEnds [Stack] {source : Text} {pos : Nat} (hdrop : source.drop pos = c :: rest)
    (h : readToken strict state c rest = .ok (next, rest')) :
    ∃ stop, rest' = source.drop stop ∧ TokenEnds source pos state next stop := by
  have hlength := readToken_length h
  have hsuffix := (readToken_suffix h).trans (List.suffix_cons c rest)
  have htail : c :: rest <:+ source := hdrop ▸ List.drop_suffix pos source
  have hlen : source.length - pos = (c :: rest).length := by rw [← hdrop, List.length_drop]
  have hpos : source.offsetOf (c :: rest) = pos := by
    rw [Text.offsetOf, ← hlen]
    rw [List.length_cons] at hlen
    omega
  -- the token is what stands before the text that is left
  have htoken : source.slice pos (source.offsetOf rest') ++ rest' = c :: rest := by
    have hslice := Text.slice_offsetOf htail hsuffix
    rw [hpos] at hslice
    obtain ⟨token, happend⟩ := hsuffix
    rw [hslice, ← happend, Text.before_append]
  refine ⟨source.offsetOf rest', (Text.drop_offsetOf (hsuffix.trans htail)).symm, ?_, ?_, ?_, ?_, ?_⟩
  · have hle := hsuffix.length_le
    unfold Text.offsetOf
    omega
  · exact Nat.sub_le _ _
  · intro d hd hopener
    rw [hd, List.singleton_append] at htoken
    obtain ⟨rfl, -⟩ := List.cons.inj htoken
    rcases readToken_depth h with ⟨-, hbracket⟩ | ⟨hdepth, -⟩
    · exact absurd (.inl hopener) hbracket
    · rw [hdepth, depthAfter, if_pos hopener]
  · intro d hd hcloser
    rw [hd, List.singleton_append] at htoken
    obtain ⟨rfl, -⟩ := List.cons.inj htoken
    rcases readToken_depth h with ⟨-, hbracket⟩ | ⟨hdepth, -⟩
    · exact absurd (.inr hcloser) hbracket
    · rw [hdepth, depthAfter, if_neg (by simp [not_opener_of_closer hcloser]), if_pos hcloser]
  · intro hother
    rcases readToken_depth h with ⟨hdepth, -⟩ | ⟨hdepth, rfl⟩
    · exact hdepth
    · -- the token is the one character `c`
      have hone : source.slice pos (source.offsetOf rest') = [c] := by
        rw [← List.singleton_append] at htoken
        exact List.append_cancel_right htoken
      rw [hdepth, depthAfter_of_not_bracket]
      simp [IsBracket, hother c hone]

end

/-! ## Literals in holes -/

section

variable {strict : Bool} {top : Frame} {outer : List Frame} {state : State} {t : Text}

theorem outerDepth_append (inner : Frame) (between : List Frame) :
    outerDepth inner (between ++ top :: outer) = outerDepth top outer := by
  induction between generalizing inner with
  | nil => rfl
  | cons next between ih => exact ih next

/-- The end of the text ends all open templates, or is a fault of the innermost one. -/
theorem cutTemplates_append [Stack] (inner : Frame) (between : List Frame) :
    ((cutTemplates strict inner between).bind fun found => readTemplates strict (.hole found.1) top outer found.2) =
      cutTemplates strict inner (between ++ top :: outer) := by
  cases strict with
  | true => rfl
  | false =>
    have hnil : Trivia.skip [] = .reached [] := by rw [Trivia.skip.eq_def]
    have hdepth : outerDepth inner (between ++ top :: outer) = outerDepth top outer := outerDepth_append inner between
    show readTemplates false (.hole ⟨outerDepth inner between, .value⟩) top outer [] =
      .ok (⟨outerDepth inner (between ++ top :: outer), .value⟩, [])
    rw [readTemplates_end_of_hole hnil, hdepth]
    rfl

/-- Inside open templates there is room for one more if there is room for it together with them. -/
theorem inside_fits [Stack] (between : List Frame) :
    between.length + 2 ≤ (Stack.inside (outer.length + 1)).room ↔
      (between ++ top :: outer).length + 2 ≤ Stack.room := by
  have hroom : (Stack.inside (outer.length + 1)).room = Stack.room - (outer.length + 1) := rfl
  rw [hroom, List.length_append, List.length_cons]
  omega

/-- Templates that stand around others are read on when those have been read, inside the ones around them. -/
theorem readTemplates_append [Stack] (mode : Mode) (inner : Frame) (between : List Frame) (t : Text) :
    readTemplates strict mode inner (between ++ top :: outer) t =
      (@readTemplates (Stack.inside (outer.length + 1)) strict mode inner between t).bind fun found =>
        readTemplates strict (.hole found.1) top outer found.2 := by
  -- the inner frames are left one by one, and the mark that ends the last of them leads back into the hole
  fun_induction @readTemplates (Stack.inside (outer.length + 1)) strict mode inner between t with
  | case1 inner between => rw [readTemplates_nil, cutTemplates_append]
  | case2 inner between rest ih => rw [readTemplates_escape, ih]
  | case3 inner between rest ih => rw [readTemplates_enter, ih]
  | case4 inner rest => exact readTemplates_endInner
  | case5 inner rest next between _ _ ih => rw [List.cons_append, readTemplates_endInner, ih]
  | case6 inner between c rest hback henter hmark ih =>
    rw [readTemplates_char (fun hc => hback hc) hmark (head?_ne_brace henter), ih]
  | case7 inner between t state comment hskip hstrict =>
    rw [readTemplates_unclosed hskip, if_pos hstrict]
    rfl
  | case8 inner between t state comment hskip hstrict =>
    rw [readTemplates_unclosed hskip, if_neg hstrict, cutTemplates_append]
  | case9 inner between t state hskip => rw [readTemplates_end_of_hole hskip, cutTemplates_append]
  | case10 inner between t state c rest hskip hleave ih =>
    obtain ⟨rfl, hdepth⟩ := hleave
    rw [readTemplates_leave hskip hdepth, ih]
  | case11 inner between t state rest hroom hskip _ ih =>
    rw [readTemplates_inner hskip ((inside_fits between).mp hroom), ← List.cons_append, ih]
  | case12 inner between t state rest hroom hskip =>
    rw [readTemplates_nesting hskip (mt (inside_fits between).mpr hroom)]
    rfl
  | case13 inner between t state c rest hskip hleave hmark fault hread =>
    rw [readTemplates_plain_error hskip hleave hmark hread]
    rfl
  | case14 inner between t state c rest hskip hleave hmark after rest' hread ih =>
    rw [readTemplates_plain hskip hleave hmark hread, ih]

/-- A hole is read token by token, and a literal in it is one token. -/
theorem readTemplates_hole [Stack] {c : Char} {rest : Text} (hskip : Trivia.skip t = .reached (c :: rest))
    (hleave : ¬(c = '\x7d' ∧ state.depth = 0)) :
    readTemplates strict (.hole state) top outer t =
      (@readToken (Stack.inside (outer.length + 1)) strict state c rest).bind fun found =>
        readTemplates strict (.hole found.1) top outer found.2 := by
  by_cases hmark : c = templateMark
  · subst hmark
    have hfits : 1 ≤ (Stack.inside (outer.length + 1)).room ↔ outer.length + 2 ≤ Stack.room := by
      show 1 ≤ Stack.room - (outer.length + 1) ↔ _
      omega
    unfold readToken
    rw [if_pos rfl]
    by_cases hroom : outer.length + 2 ≤ Stack.room
    · rw [if_pos (hfits.mpr hroom), ← readTemplates_append, List.nil_append, readTemplates_inner hskip hroom]
    · rw [if_neg (mt hfits.mp hroom), readTemplates_nesting hskip hroom]
      rfl
  · unfold readToken
    rw [if_neg hmark]
    cases hread : readPlain strict state c rest with
    | error fault => exact readTemplates_plain_error hskip hleave hmark hread
    | ok found => exact readTemplates_plain hskip hleave hmark hread

end

/-! ## Rounds -/

/-- A number of steps, one after another. -/
inductive Steps {α : Type} (step : α → α → Prop) : Nat → α → α → Prop
  | none (x : α) : Steps step 0 x x
  | more {n : Nat} {x y z : α} : step x y → Steps step n y z → Steps step (n + 1) x z

/-- Steps that make something smaller are at most as many as its size. -/
theorem Steps.add_le {α : Type} {step : α → α → Prop} (size : α → Nat) (hsize : ∀ x y, step x y → size y < size x)
    {n : Nat} {x z : α} (h : Steps step n x z) : n + size z ≤ size x := by
  induction h with
  | none => omega
  | @more n x y z hstep _ ih =>
    have := hsize x y hstep
    omega

/-- Where every step makes something smaller and only the end has no next step, the end is reached. -/
theorem exists_steps {α : Type} {step : α → α → Prop} {done : α → Prop} (size : α → Nat)
    (hsize : ∀ x y, step x y → size y < size x) (hnext : ∀ x, done x ∨ ∃ y, step x y) (x : α) :
    ∃ n y, Steps step n x y ∧ done y := by
  generalize hbound : size x = bound
  induction bound using Nat.strongRecOn generalizing x with
  | ind bound ih =>
    rcases hnext x with hdone | ⟨y, hstep⟩
    · exact ⟨0, x, .none x, hdone⟩
    · obtain ⟨n, z, hsteps, hdone⟩ := ih (size y) (hbound ▸ hsize x y hstep) y rfl
      exact ⟨n + 1, z, .more hstep hsteps, hdone⟩

/-- One round of reading at top level: a declaration or a token, with the trivia before it. -/
inductive Round [Stack] : State × Text → State × Text → Prop
  | declaration {state : State} {t path rest : Text} :
      declarationAt state (Trivia.drop t) = .ok (some (path, rest)) → Round (state, t) (⟨state.depth, .mark ';'⟩, rest)
  | token {state next : State} {t rest after : Text} {c : Char} :
      Trivia.drop t = c :: rest → declarationAt state (c :: rest) = .ok none →
      readToken false state c rest = .ok (next, after) → Round (state, t) (next, after)

theorem Round.length_lt [Stack] {x y : State × Text} (h : Round x y) : y.2.length < x.2.length := by
  cases h with
  | @declaration state t path rest hdecl =>
    have hrest := (declarationAt_properTail hdecl).2
    have hdrop := Trivia.drop_length t
    show rest.length < t.length
    omega
  | @token state next t rest after c hdrop _ hread =>
    have hafter := readToken_length hread
    have hlength := Trivia.drop_length t
    rw [hdrop] at hlength
    show after.length < t.length
    omega

/-- How reading at top level ends after `n` rounds: at the end of the text, at a declaration that cannot be read, or
at a template with more templates in it than the stack has room for. -/
inductive RoundsEnd [Stack] (n : Nat) (state : State) (t : Text) : Except Fault (List Piece) → Prop
  | text {found : List Piece} : Trivia.drop t = [] → found.length = n → RoundsEnd n state t (.ok found)
  | fault {fault : Fault} : declarationAt state (Trivia.drop t) = .error fault → RoundsEnd n state t (.error fault)
  | nesting {c : Char} {rest : Text} {fault : Fault} : Trivia.drop t = c :: rest →
      declarationAt state (c :: rest) = .ok none → readToken false state c rest = .error fault →
      fault.part = .nesting → RoundsEnd n state t (.error fault)

theorem RoundsEnd.cons [Stack] {n : Nat} {state : State} {t : Text} {outcome : Except Fault (List Piece)}
    (h : RoundsEnd n state t outcome) (piece : Piece) : RoundsEnd (n + 1) state t (outcome.map (piece :: ·)) := by
  cases h with
  | text hdrop hlength => exact .text hdrop (by rw [List.length_cons, hlength])
  | fault hfault => exact .fault hfault
  | nesting hdrop hdecl hread hpart => exact .nesting hdrop hdecl hread hpart

/-- A round takes one piece off the front. -/
theorem Round.pieces_eq [Stack] {x y : State × Text} (h : Round x y) :
    ∃ piece, pieces x.1 x.2 = (pieces y.1 y.2).map (piece :: ·) := by
  cases h with
  | declaration hdecl => exact ⟨_, pieces_of_declaration rfl hdecl⟩
  | token hdrop hdecl hread => exact ⟨_, pieces_of_token hdrop hdecl hread⟩

theorem steps_roundsEnd [Stack] {n : Nat} {x y : State × Text} (h : Steps Round n x y)
    (hend : RoundsEnd 0 y.1 y.2 (pieces y.1 y.2)) : RoundsEnd n y.1 y.2 (pieces x.1 x.2) := by
  induction h with
  | none => exact hend
  | more hround _ ih =>
    obtain ⟨piece, hpieces⟩ := hround.pieces_eq
    rw [hpieces]
    exact (ih hend).cons piece

/-- Where reading at top level has not ended there is a next round. -/
theorem exists_round [Stack] (x : State × Text) : RoundsEnd 0 x.1 x.2 (pieces x.1 x.2) ∨ ∃ y, Round x y := by
  obtain ⟨state, t⟩ := x
  cases hdecl : declarationAt state (Trivia.drop t) with
  | error fault =>
    left
    show RoundsEnd 0 state t (pieces state t)
    rw [pieces_of_error rfl hdecl]
    exact .fault hdecl
  | ok found =>
    cases found with
    | some declaration => exact .inr ⟨_, .declaration hdecl⟩
    | none =>
      cases hdrop : Trivia.drop t with
      | nil =>
        left
        show RoundsEnd 0 state t (pieces state t)
        rw [pieces_of_drop_nil hdrop]
        exact .text hdrop rfl
      | cons c rest =>
        rw [hdrop] at hdecl
        cases hread : readToken false state c rest with
        | ok found => exact .inr ⟨_, .token hdrop hdecl hread⟩
        | error fault =>
          left
          show RoundsEnd 0 state t (pieces state t)
          rw [pieces_of_token_error hdrop hdecl hread]
          -- the stack is all that lenient reading can fail at
          exact .nesting hdrop hdecl hread (readToken_lenient_fault hread)

/-- Reading at top level is a number of rounds, and then its end. -/
theorem exists_rounds [Stack] (state : State) (t : Text) : ∃ n state' t', Steps Round n (state, t) (state', t') ∧
    RoundsEnd n state' t' (pieces state t) := by
  have hsize : ∀ x y : State × Text, Round x y → y.2.length < x.2.length := fun x y => Round.length_lt
  obtain ⟨n, ⟨state', t'⟩, hsteps, hend⟩ := exists_steps (fun x => x.2.length) hsize exists_round (state, t)
  exact ⟨n, state', t', hsteps, steps_roundsEnd hsteps hend⟩

/-- One round of reading a template literal, in its characters or in a hole. A literal in a hole takes one round. -/
inductive TemplateRound [Stack] (strict : Bool) : Mode × Text → Mode × Text → Prop
  | escape {rest : Text} : TemplateRound strict (.chars, '\\' :: rest) (.chars, rest.drop 1)
  | enter {rest : Text} : TemplateRound strict (.chars, '$' :: '\x7b' :: rest) (.hole ⟨0, .mark '\x7b'⟩, rest)
  | char {c : Char} {rest : Text} : c ≠ '\\' → c ≠ templateMark → (c = '$' → rest.head? ≠ some '\x7b') →
      TemplateRound strict (.chars, c :: rest) (.chars, rest)
  | leave {state : State} {t rest : Text} : Trivia.skip t = .reached ('\x7d' :: rest) → state.depth = 0 →
      TemplateRound strict (.hole state, t) (.chars, rest)
  | token {state next : State} {t rest after : Text} {c : Char} : Trivia.skip t = .reached (c :: rest) →
      ¬(c = '\x7d' ∧ state.depth = 0) → readToken strict state c rest = .ok (next, after) →
      TemplateRound strict (.hole state, t) (.hole next, after)

/-- Where reading a template literal ends: at its closing mark, at the end of the text, or at a fault in a hole. -/
inductive TemplateEnd [Stack] (strict : Bool) : Mode → Text → Prop
  | mark (rest : Text) : TemplateEnd strict .chars (templateMark :: rest)
  | text : TemplateEnd strict .chars []
  | hole {state : State} {t : Text} : Trivia.drop t = [] → TemplateEnd strict (.hole state) t
  | fault {state : State} {t rest : Text} {c : Char} {fault : Fault} : Trivia.skip t = .reached (c :: rest) →
      readToken strict state c rest = .error fault → TemplateEnd strict (.hole state) t

section

variable [Stack] {strict : Bool}

theorem TemplateRound.length_lt {x y : Mode × Text} (h : TemplateRound strict x y) : y.2.length < x.2.length := by
  cases h with
  | @escape rest =>
    show (rest.drop 1).length < rest.length + 1
    rw [List.length_drop]
    omega
  | @enter rest =>
    show rest.length < rest.length + 1 + 1
    omega
  | @char c rest => exact Nat.lt_succ_self rest.length
  | @leave state t rest hskip =>
    have hlength := Trivia.reached_length hskip
    rw [List.length_cons] at hlength
    exact hlength
  | @token state next t rest after c hskip _ hread =>
    exact Nat.lt_of_lt_of_le (readToken_length hread) (Trivia.reached_length hskip)

/-- A round inside the templates that are open changes nothing in what is read in the end. -/
theorem TemplateRound.readTemplates_eq {x y : Mode × Text} {top : Frame} {outer : List Frame}
    (h : @TemplateRound (Stack.inside (outer.length + 1)) strict x y) :
    readTemplates strict x.1 top outer x.2 = readTemplates strict y.1 top outer y.2 := by
  cases h with
  | escape => exact readTemplates_escape
  | enter => exact readTemplates_enter
  | char hback hmark henter => exact readTemplates_char hback hmark henter
  | leave hskip hdepth => exact readTemplates_leave hskip hdepth
  | token hskip hleave hread =>
    show readTemplates strict (.hole _) top outer _ = _
    rw [readTemplates_hole hskip hleave, hread]
    rfl

theorem steps_readTemplates_eq {n : Nat} {x y : Mode × Text} {top : Frame} {outer : List Frame}
    (h : Steps (@TemplateRound (Stack.inside (outer.length + 1)) strict) n x y) :
    readTemplates strict x.1 top outer x.2 = readTemplates strict y.1 top outer y.2 := by
  induction h with
  | none => rfl
  | more hround _ ih => exact hround.readTemplates_eq.trans ih

end

/-- Where reading has not ended there is a next round. -/
theorem exists_templateRound [Stack] (strict : Bool) (mode : Mode) (t : Text) :
    TemplateEnd strict mode t ∨ ∃ y, TemplateRound strict (mode, t) y := by
  cases mode with
  | chars =>
    cases t with
    | nil => exact .inl .text
    | cons c rest =>
      by_cases hmark : c = templateMark
      · subst hmark
        exact .inl (.mark rest)
      · by_cases hback : c = '\\'
        · subst hback
          exact .inr ⟨_, .escape⟩
        · by_cases henter : c = '$' ∧ rest.head? = some '\x7b'
          · obtain ⟨rfl, hhead⟩ := henter
            obtain ⟨tail, rfl⟩ := List.head?_eq_some_iff.mp hhead
            exact .inr ⟨_, .enter⟩
          · exact .inr ⟨_, .char hback hmark fun hc hhead => henter ⟨hc, hhead⟩⟩
  | hole state =>
    cases hskip : Trivia.skip t with
    | unclosed comment => exact .inl (.hole (by rw [Trivia.drop, hskip]; rfl))
    | reached rest =>
      cases rest with
      | nil => exact .inl (.hole (by rw [Trivia.drop, hskip]; rfl))
      | cons c rest =>
        by_cases hleave : c = '\x7d' ∧ state.depth = 0
        · obtain ⟨rfl, hdepth⟩ := hleave
          exact .inr ⟨_, .leave hskip hdepth⟩
        · cases hread : readToken strict state c rest with
          | error fault => exact .inl (.fault hskip hread)
          | ok found => exact .inr ⟨_, .token hskip hleave hread⟩

/-- Reading a template literal is a number of rounds, and then its end. -/
theorem exists_templateRounds [Stack] (strict : Bool) (mode : Mode) (t : Text) : ∃ n mode' t',
    Steps (TemplateRound strict) n (mode, t) (mode', t') ∧ TemplateEnd strict mode' t' := by
  have hsize : ∀ x y : Mode × Text, TemplateRound strict x y → y.2.length < x.2.length :=
    fun x y => TemplateRound.length_lt
  have hnext : ∀ x : Mode × Text, TemplateEnd strict x.1 x.2 ∨ ∃ y, TemplateRound strict x y :=
    fun x => exists_templateRound strict x.1 x.2
  obtain ⟨n, ⟨mode', t'⟩, hsteps, hend⟩ := exists_steps (fun x => x.2.length) hsize hnext (mode, t)
  exact ⟨n, mode', t', hsteps, hend⟩

/-! ## Progress -/

/-- A token that is read at an offset ends behind it and in the source, lenient reading always takes one unless more
templates are open at once than there is room for, and only a bracket by itself changes the depth; templates give back
the depth around them, from inside any number of them and wherever the text ends; and reading, at top level and in a
template, ends after at most one round for each character. -/
theorem readToken_progress [Stack] :
    (∀ (strict : Bool) (source : Text) (state : State) (pos : Nat) (h : pos < source.length),
      (∃ fault, readToken strict state source[pos] (source.drop (pos + 1)) = .error fault ∧
        (fault.part = .nesting → Stack.room < (source.drop pos).count templateMark) ∧
        (fault.part = .nesting ∨ strict = true)) ∨
        ∃ next stop, readToken strict state source[pos] (source.drop (pos + 1)) = .ok (next, source.drop stop) ∧
          TokenEnds source pos state next stop) ∧
      (∀ (strict : Bool) (mode : Mode) (top : Frame) (outer : List Frame) (t : Text) (next : State) (rest : Text),
        readTemplates strict mode top outer t = .ok (next, rest) → next.depth = outerDepth top outer) ∧
      (∀ (state : State) (t : Text), ∃ n state' t', Steps Round n (state, t) (state', t') ∧
        n + t'.length ≤ t.length ∧ RoundsEnd n state' t' (pieces state t)) ∧
      ∀ (strict : Bool) (mode : Mode) (top : Frame) (outer : List Frame) (t : Text), ∃ n mode' t',
        Steps (@TemplateRound (Stack.inside (outer.length + 1)) strict) n (mode, t) (mode', t') ∧
          n + t'.length ≤ t.length ∧ @TemplateEnd (Stack.inside (outer.length + 1)) strict mode' t' ∧
          readTemplates strict mode top outer t = readTemplates strict mode' top outer t' := by
  refine ⟨?_, ?_, ?_, ?_⟩
  · intro strict source state pos h
    have hdrop := List.drop_eq_getElem_cons h
    cases hread : readToken strict state source[pos] (source.drop (pos + 1)) with
    | ok found =>
      obtain ⟨next, rest⟩ := found
      obtain ⟨stop, rfl, hends⟩ := exists_tokenEnds hdrop hread
      exact .inr ⟨next, stop, rfl, hends⟩
    | error fault =>
      refine .inl ⟨fault, rfl, fun hpart => hdrop ▸ readToken_room hread hpart, ?_⟩
      cases strict with
      | true => exact .inr rfl
      | false => exact .inl (readToken_lenient_fault hread)
  · intro strict mode top outer t next rest h
    exact readTemplates_depth h
  · intro state t
    obtain ⟨n, state', t', hsteps, hend⟩ := exists_rounds state t
    have hle := hsteps.add_le (fun x => x.2.length) fun x y => Round.length_lt
    exact ⟨n, state', t', hsteps, hle, hend⟩
  · intro strict mode top outer t
    obtain ⟨n, mode', t', hsteps, hend⟩ :=
      @exists_templateRounds (Stack.inside (outer.length + 1)) strict mode t
    have hle := hsteps.add_le (fun x => x.2.length) fun x y => @TemplateRound.length_lt (Stack.inside _) strict x y
    exact ⟨n, mode', t', hsteps, hle, hend, steps_readTemplates_eq hsteps⟩

section

open ImportOrder.Runtime

/-- A template in the hole of another, and brackets that are open in both holes, when the text ends. -/
def nestedSource : Text :=
  "f(`a$\x7b g(`b$\x7b [".toList

theorem readToken_progress_nestedSource :
    2 < nestedSource.length ∧
      (∃ next stop, readToken false ⟨1, .mark '('⟩ '\x60' (nestedSource.drop 3) = .ok (next, nestedSource.drop stop) ∧
        TokenEnds nestedSource 2 ⟨1, .mark '('⟩ next stop) ∧
      ∃ next, readTemplates false .chars ⟨nestedSource.drop 9, 1⟩ [⟨nestedSource.drop 2, 7⟩] (nestedSource.drop 10) =
        .ok (next, []) ∧ next.depth = outerDepth ⟨nestedSource.drop 9, 1⟩ [⟨nestedSource.drop 2, 7⟩] := by
  have hlength : 2 < nestedSource.length := by decide
  have hread : (readTemplates false .chars ⟨nestedSource.drop 9, 1⟩ [⟨nestedSource.drop 2, 7⟩]
      (nestedSource.drop 10)).toOption = some (⟨7, .value⟩, []) := by
    decide +kernel
  refine ⟨hlength, ?_, ?_⟩
  · rcases readToken_progress.1 false nestedSource ⟨1, .mark '('⟩ 2 hlength with ⟨fault, -, hroom, hcause⟩ | hends
    · rcases hcause with hnesting | hstrict
      · exact absurd (hroom hnesting) (by decide)
      · exact absurd hstrict (by decide)
    · exact hends
  · cases hok : readTemplates false .chars ⟨nestedSource.drop 9, 1⟩ [⟨nestedSource.drop 2, 7⟩]
        (nestedSource.drop 10) with
    | error fault => simp [hok, Except.toOption] at hread
    | ok found =>
      obtain rfl : found = (⟨7, .value⟩, []) := by simpa [hok, Except.toOption] using hread
      exact ⟨_, rfl, readToken_progress.2.1 _ _ _ _ _ _ _ hok⟩

end

end Source

end ImportOrder
