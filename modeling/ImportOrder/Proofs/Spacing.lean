import ImportOrder.Proofs.Clauses
import ImportOrder.Proofs.Runs

/-!
# One blank in place of another

A blank that ends no line may give way to another one: trivia with it stays trivia, and the looks of the tokens before
it come out the same. Only a name or the flags of a regular expression may run on into the new blank, if it is one of
those beyond ASCII. In the lemmas here `b` is the blank that was there, `b'` the one that is there now, and `v` is what
follows.
-/

namespace ImportOrder

/-- White space that ends no line. -/
structure IsSpacing (c : Char) : Prop where
  blank : isBlank c = true
  line : c ≠ '\n'

theorem IsSpacing.ne {b c : Char} (h : IsSpacing b) (hc : isBlank c = false) : b ≠ c := by
  rintro rfl
  simp [h.blank] at hc

namespace Trivia

variable {b b' : Char} (hb : IsSpacing b) (hb' : IsSpacing b')

/-! ## Trivia -/

theorem afterClose_cons {c : Char} {t : Text} (h : c = '*' → t.head? ≠ some '/') :
    afterClose (c :: t) = afterClose t := by
  rw [afterClose]
  rintro rest rfl rfl
  exact h rfl rfl

include hb hb'

theorem afterClose_respaced {x y : Text} (h : afterClose (x ++ b :: y) = some []) :
    afterClose (x ++ b' :: y) = some [] := by
  induction x with
  | nil =>
    rw [List.nil_append, afterClose_cons fun hstar => absurd hstar (hb'.ne (by decide))]
    rwa [List.nil_append, afterClose_cons fun hstar => absurd hstar (hb.ne (by decide))] at h
  | cons c x ih =>
    by_cases hend : c = '*' ∧ x.head? = some '/'
    · -- the comment would end before the blank
      obtain ⟨rfl, hhead⟩ := hend
      obtain ⟨x, rfl⟩ := List.head?_eq_some_iff.mp hhead
      simp [afterClose] at h
    · have hstep : ∀ {d : Char}, IsSpacing d → c = '*' → (x ++ d :: y).head? ≠ some '/' := by
        intro d hd hstar hhead
        cases x with
        | nil => exact hd.ne (by decide) (Option.some.inj hhead)
        | cons e x => exact hend ⟨hstar, hhead⟩
      rw [List.cons_append, afterClose_cons (hstep hb')]
      rw [List.cons_append, afterClose_cons (hstep hb)] at h
      exact ih h

/-- Closed trivia stays so with another blank in it. -/
theorem Closed.respaced {x y : Text} (h : Closed (x ++ b :: y)) : Closed (x ++ b' :: y) := by
  have hslash := hb.ne (c := '/') (by decide)
  have hstar := hb.ne (c := '*') (by decide)
  have hhead : ∀ {c : Char}, b ≠ c → (b :: y).head? ≠ some c := fun hne heq => hne (Option.some.inj heq)
  generalize ht : x ++ b :: y = t at h
  induction h generalizing x with
  | nil => simp at ht
  | blank hc hg ih =>
    cases x with
    | nil =>
      obtain ⟨rfl, rfl⟩ := List.cons.inj ht
      exact .blank hb'.blank hg
    | cons d x =>
      obtain ⟨rfl, hrest⟩ := List.cons.inj ht
      exact .blank hc (ih hrest)
  | @line body g hbody hg ih =>
    obtain ⟨x, rfl, htail⟩ := exists_opening_of_append (hhead hslash) (hhead hslash) ht
    rcases List.append_eq_append_iff.mp htail with ⟨a, rfl, hrest⟩ | ⟨a, rfl, hrest⟩
    · -- the blank stands in the comment or is its line feed
      cases a with
      | nil => exact absurd (List.cons.inj hrest).1 hb.line
      | cons d a =>
        obtain ⟨rfl, rfl⟩ := List.cons.inj hrest
        have hbody' : '\n' ∉ x ++ b' :: a := by
          have hline := Ne.symm hb'.line
          simp_all
        simpa using Closed.line hbody' hg
    · cases a with
      | nil => exact absurd (List.cons.inj hrest).1.symm hb.line
      | cons d a =>
        obtain ⟨rfl, hg'⟩ := List.cons.inj hrest
        simpa using Closed.line hbody (ih hg'.symm)
  | @block body g hbody hg ih =>
    obtain ⟨x, rfl, htail⟩ := exists_opening_of_append (hhead hslash) (hhead hstar) ht
    rcases List.append_eq_append_iff.mp htail with ⟨a, rfl, hrest⟩ | ⟨a, rfl, hrest⟩
    · cases a with
      | nil =>
        rw [List.append_nil] at hbody
        exact .block hbody (ih (x := []) hrest)
      | cons d a =>
        obtain ⟨rfl, rfl⟩ := List.cons.inj hrest
        have hclosed : Closed ('/' :: '*' :: ((x ++ b' :: a) ++ g)) := .block (afterClose_respaced hb hb' hbody) hg
        simpa using hclosed
    · simpa using Closed.block hbody (ih hrest.symm)

variable {v : Text}

/-- What is reached behind the blank is reached behind the other one. -/
theorem skip_respaced {x u : Text} {c : Char} (h : skip (x ++ b :: v) = .reached (c :: u))
    (hlen : (c :: u).length ≤ v.length) : skip (x ++ b' :: v) = .reached (c :: u) := by
  obtain ⟨g, hg, heq, hstart⟩ := closed_of_skip h
  obtain ⟨y, rfl⟩ : c :: u <:+ v :=
    List.suffix_of_suffix_length_le ⟨g, heq.symm⟩ ⟨x ++ [b], by simp⟩ hlen
  obtain rfl : x ++ b :: y = g := by
    rw [← List.cons_append, ← List.append_assoc] at heq
    exact List.append_cancel_right heq
  rw [← List.cons_append, ← List.append_assoc, (hg.respaced hb hb').skip_append, skip_token hstart]

/-- What is reached before the blank is reached before the other one. -/
theorem skip_before {x u : Text} {c : Char} (h : skip (x ++ b :: v) = .reached (c :: u))
    (hlen : v.length < (c :: u).length) :
    ∃ y, u = y ++ b :: v ∧ skip (x ++ b' :: v) = .reached (c :: (y ++ b' :: v)) := by
  have hstart := startsToken_of_skip h
  have hne : u.length ≠ v.length := by
    intro heq
    -- the blank itself would be reached
    have hsame : c :: u = b :: v :=
      (List.suffix_or_suffix_of_suffix (drop_eq_cons_iff.mpr h ▸ drop_suffix _) ⟨x, rfl⟩).elim
        (fun hs => hs.eq_of_length (by simp [heq])) fun hs => (hs.eq_of_length (by simp [heq])).symm
    rw [(List.cons.inj hsame).1, StartsToken, hb.blank] at hstart
    simp at hstart
  rw [List.length_cons] at hlen
  obtain ⟨y, hy, hswap⟩ := skip_swap h (by rw [List.length_cons]; omega)
  refine ⟨y, hy, hswap _ fun _ _ => ?_⟩
  have hslash := hb'.ne (c := '/') (by decide)
  have hstar := hb'.ne (c := '*') (by decide)
  simp [hslash, hstar]

theorem skip_before_suffix {x u r : Text} {c : Char} (h : skip (x ++ b :: v) = .reached (c :: u))
    (hr : r ++ b :: v <:+ u) : ∃ y, u = y ++ b :: v ∧ skip (x ++ b' :: v) = .reached (c :: (y ++ b' :: v)) := by
  have hlen := hr.length_le
  rw [List.length_append, List.length_cons] at hlen
  exact skip_before hb hb' h (by rw [List.length_cons]; omega)

theorem skip_before_append {x y : Text} {c : Char} (h : skip (x ++ b :: v) = .reached (c :: (y ++ b :: v))) :
    skip (x ++ b' :: v) = .reached (c :: (y ++ b' :: v)) := by
  obtain ⟨z, hz, hskip⟩ := skip_before_suffix hb hb' h List.suffix_rfl
  rwa [List.append_cancel_right hz]

theorem drop_respaced {x : Text} (h : (drop (x ++ b :: v)).length ≤ v.length) :
    drop (x ++ b' :: v) = drop (x ++ b :: v) := by
  cases hdrop : drop (x ++ b :: v) with
  | cons c u =>
    rw [hdrop] at h
    exact drop_eq_cons_iff.mpr (skip_respaced hb hb' (drop_eq_cons_iff.mp hdrop) h)
  | nil =>
    cases hdrop' : drop (x ++ b' :: v) with
    | nil => rfl
    | cons c u =>
      -- whatever is reached now would have been reached before
      have hskip := drop_eq_cons_iff.mp hdrop'
      by_cases hlen : (c :: u).length ≤ v.length
      · rw [drop_eq_cons_iff.mpr (skip_respaced hb' hb hskip hlen)] at hdrop
        simp at hdrop
      · obtain ⟨y, -, hskip'⟩ := skip_before hb' hb hskip (by omega)
        rw [drop_eq_cons_iff.mpr hskip'] at hdrop
        simp at hdrop

/-- The character that is reached is the same with another blank anywhere. -/
theorem head?_drop_respaced (x : Text) : (drop (x ++ b' :: v)).head? = (drop (x ++ b :: v)).head? := by
  by_cases hlen : (drop (x ++ b :: v)).length ≤ v.length
  · rw [drop_respaced hb hb' hlen]
  · cases hdrop : drop (x ++ b :: v) with
    | nil => simp [hdrop] at hlen
    | cons c u =>
      rw [hdrop] at hlen
      obtain ⟨y, -, hskip⟩ := skip_before hb hb' (drop_eq_cons_iff.mp hdrop) (by omega)
      rw [drop_eq_cons_iff.mpr hskip]
      rfl

end Trivia

namespace Source

variable {b b' : Char} {v : Text} (hb : IsSpacing b) (hb' : IsSpacing b')

/-! ## Looks -/

include hb hb'

/-- A regular expression that is not closed with one blank is not closed with the other. -/
theorem readRegex_respaced {inClass : Bool} {w : Text} (h : readRegex inClass (w ++ b :: v) = none) :
    readRegex inClass (w ++ b' :: v) = none := by
  have hskip : ∀ {d : Char} {inClass : Bool}, IsSpacing d →
      readRegex inClass (d :: v) = readRegex inClass v := by
    intro d inClass hd
    rw [readRegex_plain (hd.ne (by decide)), if_neg hd.line, if_neg (hd.ne (by decide)), if_neg (hd.ne (by decide)),
      if_neg fun hslash => hd.ne (by decide) hslash.1]
  induction w using escapeInduction generalizing inClass with
  | nil =>
    rw [List.nil_append, hskip hb']
    rwa [List.nil_append, hskip hb] at h
  | lone =>
    rw [List.cons_append, List.nil_append, readRegex_escape] at h ⊢
    exact h
  | escape c w ih =>
    rw [List.cons_append, List.cons_append, readRegex_escape] at h ⊢
    exact ih h
  | plain c w hc ih =>
    rw [List.cons_append, readRegex_plain hc] at h ⊢
    by_cases hfeed : c = '\n'
    · rw [if_pos hfeed]
    · rw [if_neg hfeed] at h ⊢
      by_cases hopen : c = '['
      · rw [if_pos hopen] at h ⊢
        exact ih h
      · rw [if_neg hopen] at h ⊢
        by_cases hclose : c = ']'
        · rw [if_pos hclose] at h ⊢
          exact ih h
        · rw [if_neg hclose] at h ⊢
          by_cases hslash : c = '/' ∧ inClass = false
          · -- here it is closed
            rw [if_pos hslash] at h
            split at h <;> simp at h
          · rw [if_neg hslash] at h ⊢
            exact ih h

theorem Look.Holds.respaced {look : Look} {w : Text} (h : look.Holds (w ++ b :: v)) : look.Holds (w ++ b' :: v) := by
  cases look with
  | slash tried rest =>
    refine ⟨?_, fun htried => readRegex_respaced hb hb' (h.2 htried)⟩
    cases w with
    | nil =>
      have hslash := hb'.ne (c := '/') (by decide)
      have hstar := hb'.ne (c := '*') (by decide)
      simp [hslash, hstar]
    | cons d w => exact h.1
  | cut rest =>
    cases w with
    | nil =>
      have hline : b = '\n' := by simpa [Look.Holds, EndsLine] using h
      exact absurd hline hb.line
    | cons d w => exact h

theorem looksHold_respaced {looks : List Look} (hsuffix : ∀ look ∈ looks, b :: v <:+ look.rest)
    (hholds : ∀ look ∈ looks, look.Holds look.rest) : LooksHold looks (b :: v) (b' :: v) := by
  intro look hlook
  have hold := hholds look hlook
  obtain ⟨x, hx⟩ := hsuffix look hlook
  rw [← hx] at hold
  rw [← hx, Text.before_append]
  exact hold.respaced hb hb'

omit hb hb'

theorem templateLooks_suffix [Stack] {strict : Bool} {mode : Mode} {top : Frame} {outer : List Frame} {t rest : Text}
    {state' : State} (h : readTemplates strict mode top outer t = .ok (state', rest)) :
    ∀ look ∈ templateLooks mode top outer t, rest <:+ look.rest := by
  -- every look is one of a token in a hole, and the token ends before the template does
  fun_induction readTemplates strict mode top outer t with
  | case1 =>
    rw [templateLooks.eq_def]
    simp
  | case2 _ _ r ih =>
    rw [templateLooks_escape]
    exact ih h
  | case3 _ _ r ih =>
    rw [templateLooks_enter]
    exact ih h
  | case4 =>
    rw [templateLooks.eq_def]
    simp
  | case5 _ _ _ _ _ _ ih =>
    rw [templateLooks_endInner]
    exact ih h
  | case6 _ _ c r hback henter hmark ih =>
    rw [templateLooks_char (fun hc => hback hc) hmark (head?_ne_brace henter)]
    exact ih h
  | case7 => simp at h
  | case8 _ _ _ _ _ hskip | case9 _ _ _ _ hskip =>
    rw [templateLooks.eq_def]
    dsimp only
    split <;> simp_all
  | case10 _ _ _ _ c r hskip hleave ih =>
    obtain ⟨rfl, hdepth⟩ := hleave
    rw [templateLooks_leave hskip hdepth]
    exact ih h
  | case11 _ _ _ _ r _ hskip _ ih =>
    rw [templateLooks_inner hskip]
    exact ih h
  | case12 | case13 => simp at h
  | case14 _ _ _ _ _ _ hskip hleave hmark _ rest' hread ih =>
    rw [templateLooks_plain hskip hleave hmark (readPlain_lenient hread)]
    intro look hlook
    rcases List.mem_append.mp hlook with hlook | hlook
    · exact (readTemplates_suffix h).trans (plainLooks_suffix hread look hlook)
    · exact ih h look hlook

theorem tokenLooks_suffix [Stack] {strict : Bool} {state state' : State} {c : Char} {rest rest' : Text}
    (h : readToken strict state c rest = .ok (state', rest')) :
    ∀ look ∈ tokenLooks state c rest, rest' <:+ look.rest := by
  unfold readToken at h
  unfold tokenLooks
  split at h
  · rename_i hmark
    rw [if_pos hmark]
    split at h
    · exact templateLooks_suffix h
    · simp at h
  · rename_i hmark
    rw [if_neg hmark]
    exact plainLooks_suffix h

/-! ## Tokens -/

/-- Whether a token may run on into a blank beyond ASCII: a name, or a regular expression with its flags. -/
def runsOnWide (state : State) (c : Char) (rest : Text) : Bool :=
  (splitName? (c :: rest)).isSome || (regexRest? state.last c rest).isSome

/-- No token before the blank runs on into it: it ends every word, or it does not stand right behind the token, or the
token does not run on into blanks. -/
def StandsApart (b' : Char) (r : Text) (wide : Bool) : Prop :=
  runsOn b' = false ∨ r ≠ [] ∨ wide = false

/-- A blank of ASCII ends every word. -/
theorem runsOn_of_isBlank {c : Char} (h : isBlank c = true) (hascii : c.toNat < 0x80) : runsOn c = false := by
  have hrest := isNameRest_of_isBlank h hascii
  have hstart : isNameStart c = false := by
    rw [Bool.eq_false_iff]
    intro hstart
    simp only [isNameStart, Bool.or_eq_true] at hstart
    rcases hstart with hstart | hstart
    · -- what may begin a name in ASCII may continue it
      have hascii : isAsciiNameRest c = true := by
        simp only [isAsciiNameRest, Char.isAlphanum, Bool.or_eq_true]
        tauto
      simp [isNameRest_of_ascii hascii] at hrest
    · simp [isNameRest, hstart] at hrest
  simp [runsOn, hstart, hrest, isNumberRest_of_isBlank h, (word_of_isBlank h).2]

/-- A run of characters that the blank ends is ended by another one that is not of their class. -/
theorem dropWhile_respaced {p : Char → Bool} (hp : p b' = false) {w : Text}
    (h : (w ++ b :: v).dropWhile p = b :: v) :
    (w ++ b' :: v).dropWhile p = b' :: v ∧ (w ++ b' :: v).takeWhile p = (w ++ b :: v).takeWhile p := by
  induction w with
  | nil =>
    have hb : ¬ p b = true := by
      intro hpb
      have hlen := (List.dropWhile_suffix p (l := v)).length_le
      rw [List.nil_append, List.dropWhile_cons_of_pos hpb] at h
      rw [h, List.length_cons] at hlen
      omega
    have hb' : ¬ p b' = true := by simp [hp]
    rw [List.nil_append, List.nil_append, List.dropWhile_cons_of_neg hb', List.takeWhile_cons_of_neg hb',
      List.takeWhile_cons_of_neg hb]
    exact ⟨rfl, rfl⟩
  | cons c w ih =>
    by_cases hc : p c = true
    · rw [List.cons_append, List.dropWhile_cons_of_pos hc] at h
      obtain ⟨hdrop, htake⟩ := ih h
      rw [List.cons_append, List.cons_append, List.dropWhile_cons_of_pos hc, List.takeWhile_cons_of_pos hc,
        List.takeWhile_cons_of_pos hc, htake]
      exact ⟨hdrop, rfl⟩
    · rw [List.cons_append, List.dropWhile_cons_of_neg hc] at h
      have hlen := congrArg List.length h
      simp only [List.length_cons, List.length_append] at hlen
      omega

include hb hb'

theorem splitNumber?_respaced {c : Char} {w word : Text} (h : splitNumber? (c :: (w ++ b :: v)) = some (word, b :: v)) :
    splitNumber? (c :: (w ++ b' :: v)) = some (word, b' :: v) := by
  have hrest := isNumberRest_of_isBlank hb'.blank
  rw [splitNumber?_cons] at h ⊢
  by_cases hc : isDecimal c = true
  · rw [if_pos hc] at h ⊢
    simp only [Option.some.injEq, Prod.mk.injEq] at h
    obtain ⟨hdrop, htake⟩ := dropWhile_respaced hrest h.2
    rw [hdrop, htake, h.1]
  · rw [if_neg hc] at h ⊢
    by_cases hpoint : c = '.' ∧ (w ++ b :: v).head?.any isDecimal = true
    · rw [if_pos hpoint] at h
      cases w with
      | nil =>
        have hdigit := hpoint.2
        simp [(word_of_isBlank hb.blank).2] at hdigit
      | cons d w =>
        simp only [List.cons_append, List.take_succ_cons, List.take_zero, List.drop_succ_cons, List.drop_zero,
          Option.some.injEq, Prod.mk.injEq] at h
        obtain ⟨hdrop, htake⟩ := dropWhile_respaced hrest h.2
        have hpoint' : c = '.' ∧ (d :: w ++ b' :: v).head?.any isDecimal = true := hpoint
        rw [if_pos hpoint']
        simp only [List.cons_append, List.take_succ_cons, List.take_zero, List.drop_succ_cons, List.drop_zero]
        rw [hdrop, htake, h.1]
    · rw [if_neg hpoint] at h
      simp at h

omit hb in
theorem splitNumber?_none_respaced {c : Char} {w : Text} (h : splitNumber? (c :: (w ++ b :: v)) = none) :
    splitNumber? (c :: (w ++ b' :: v)) = none := by
  rw [splitNumber?_cons] at h ⊢
  by_cases hc : isDecimal c = true
  · simp [hc] at h
  · rw [if_neg hc] at h ⊢
    have hpoint : ¬ (c = '.' ∧ (w ++ b' :: v).head?.any isDecimal = true) := by
      rintro ⟨hdot, hdigit⟩
      cases w with
      | nil => simp [(word_of_isBlank hb'.blank).2] at hdigit
      | cons d w =>
        have hpoint : c = '.' ∧ (d :: w ++ b :: v).head?.any isDecimal = true := ⟨hdot, hdigit⟩
        rw [if_pos hpoint] at h
        simp at h
    rw [if_neg hpoint]

omit hb' in
/-- A string that ends right before the blank. -/
theorem readPlain_string_before {strict : Bool} {state next : State} {c : Char} {w : Text} (hquote : isQuote c = true)
    (h : readPlain strict state c (w ++ b :: v) = .ok (next, b :: v)) :
    readPlain strict state c (w ++ b' :: v) = .ok (next, b' :: v) := by
  unfold readPlain at h ⊢
  rw [if_pos hquote] at h ⊢
  cases hread : readString c (w ++ b :: v) with
  | closed after =>
    rw [hread] at h
    simp only [Except.ok.injEq, Prod.mk.injEq] at h
    obtain ⟨rfl, rfl⟩ := h
    rw [readString_closed_swap (r := []) (b' :: v) hread]
    rfl
  | cut after =>
    rw [hread] at h
    cases strict with
    | true => simp at h
    | false =>
      -- a line does not end at the blank
      simp only [Bool.false_eq_true, if_false, Except.ok.injEq, Prod.mk.injEq] at h
      have hline := endsLine_of_cut hread
      rw [h.2, EndsLine, List.head?_cons, Option.some.injEq] at hline
      simp [hb.line] at hline

/-- A number or a mark that ends right before the blank. -/
theorem readPlain_word_before {strict : Bool} {state next : State} {c : Char} {w : Text} (hquote : isQuote c = false)
    (hregex : regexRest? state.last c (w ++ b :: v) = none) (hregex' : regexRest? state.last c (w ++ b' :: v) = none)
    (hname : isNameStart c = false) (h : readPlain strict state c (w ++ b :: v) = .ok (next, b :: v)) :
    readPlain strict state c (w ++ b' :: v) = .ok (next, b' :: v) := by
  have hnone : ∀ u : Text, splitName? (c :: u) = none := by
    intro u
    rw [splitName?, hname, if_neg Bool.false_ne_true]
  unfold readPlain at h ⊢
  rw [hquote, if_neg Bool.false_ne_true, hregex] at h
  rw [hquote, if_neg Bool.false_ne_true, hregex']
  dsimp only at h ⊢
  rw [splitWord?, hnone, Option.none_or] at h ⊢
  cases hnumber : splitNumber? (c :: (w ++ b :: v)) with
  | some found =>
    obtain ⟨word, after⟩ := found
    rw [hnumber] at h
    simp only [Except.ok.injEq, Prod.mk.injEq] at h
    obtain ⟨rfl, rfl⟩ := h
    rw [splitNumber?_respaced hb hb' hnumber]
  | none =>
    rw [hnumber] at h
    simp only [Except.ok.injEq, Prod.mk.injEq] at h
    obtain ⟨rfl, hrest⟩ := h
    obtain rfl : w = [] := List.append_left_eq_self.mp hrest
    rw [splitNumber?_none_respaced hb' hnumber]
    rfl

/-- A token that ends right before the blank and does not run on into blanks. -/
theorem readPlain_before {strict : Bool} {state next : State} {c : Char} {w : Text}
    (hlooks : LooksHold (plainLooks state c (w ++ b :: v)) (b :: v) (b' :: v))
    (hwide : runsOnWide state c (w ++ b :: v) = false)
    (h : readPlain strict state c (w ++ b :: v) = .ok (next, b :: v)) :
    readPlain strict state c (w ++ b' :: v) = .ok (next, b' :: v) := by
  rw [runsOnWide, Bool.or_eq_false_iff, Option.isSome_eq_false_iff, Option.isSome_eq_false_iff,
    Option.isNone_iff_eq_none, Option.isNone_iff_eq_none] at hwide
  obtain ⟨hname, hregex⟩ := hwide
  cases hquote : isQuote c with
  | true => exact readPlain_string_before hb hquote h
  | false =>
    have hstart : isNameStart c = false := by
      rw [Bool.eq_false_iff]
      intro hstart
      simp [splitName?, hstart] at hname
    have hregex' := regexRest?_none_swap hquote hlooks hregex
    exact readPlain_word_before hb hb' hquote hregex hregex' hstart h

/-- A token that stands before the blank is read the same. -/
theorem readPlain_respaced {strict : Bool} {state next : State} {c : Char} {w r : Text}
    (hstart : Trivia.StartsToken c (w ++ b :: v)) (hapart : StandsApart b' r (runsOnWide state c (w ++ b :: v)))
    (h : readPlain strict state c (w ++ b :: v) = .ok (next, r ++ b :: v)) :
    readPlain strict state c (w ++ b' :: v) = .ok (next, r ++ b' :: v) := by
  have hlooks : LooksHold (plainLooks state c (w ++ b :: v)) (b :: v) (b' :: v) :=
    looksHold_respaced hb hb' (fun look hlook => (List.suffix_append r _).trans (plainLooks_suffix h look hlook))
      (holds_plainLooks hstart)
  by_cases hr : r = []
  · subst hr
    rcases hapart with hends | hne | hwide
    · exact readPlain_swap (r := []) (.inr (by simpa using hends)) (.inr (List.cons_ne_nil b v)) hlooks h
    · exact absurd rfl hne
    · exact readPlain_before hb hb' hlooks hwide h
  · have htail : ProperTail ([] ++ b :: v) (r ++ b :: v) := by
      refine ⟨List.suffix_append r (b :: v), ?_⟩
      rw [List.nil_append, List.length_append]
      exact Nat.lt_add_of_pos_left (List.length_pos_of_ne_nil hr)
    obtain ⟨r', hr', hread⟩ := readPlain_swap_within hlooks htail h
    rwa [List.append_cancel_right hr']

theorem readToken_respaced [Stack] {strict : Bool} {state next : State} {c : Char} {w r : Text}
    (hstart : Trivia.StartsToken c (w ++ b :: v)) (hapart : StandsApart b' r (runsOnWide state c (w ++ b :: v)))
    (h : readToken strict state c (w ++ b :: v) = .ok (next, r ++ b :: v)) :
    readToken strict state c (w ++ b' :: v) = .ok (next, r ++ b' :: v) := by
  have hlooks : LooksHold (tokenLooks state c (w ++ b :: v)) (b :: v) (b' :: v) :=
    looksHold_respaced hb hb' (fun look hlook => (List.suffix_append r _).trans (tokenLooks_suffix h look hlook))
      (holds_tokenLooks hstart)
  unfold readToken at h ⊢
  unfold tokenLooks at hlooks
  by_cases hmark : c = templateMark
  · rw [if_pos hmark] at h hlooks ⊢
    split at h
    · rename_i hroom
      rw [if_pos hroom]
      exact readTemplates_swaps (.inr (List.cons_ne_nil b v)) h w _ _ rfl rfl rfl hlooks
    · simp at h
  · rw [if_neg hmark] at h ⊢
    exact readPlain_respaced hb hb' hstart hapart h

omit hb hb' in
theorem splitName?_respaced {c : Char} {w word r : Text} (hapart : StandsApart b' r true)
    (h : splitName? (c :: (w ++ b :: v)) = some (word, r ++ b :: v)) :
    splitName? (c :: (w ++ b' :: v)) = some (word, r ++ b' :: v) := by
  by_cases hr : r = []
  · subst hr
    have hends : runsOn b' = false := by
      rcases hapart with hends | hne | hwide
      · exact hends
      · exact absurd rfl hne
      · simp at hwide
    exact splitName?_swap (r := []) (.inr (by simpa using hends)) (List.cons_ne_nil c w) h
  · -- the name ends in front of `r`
    obtain ⟨x, hx⟩ := splitName?_suffix h
    have hw : x ++ r = c :: w := by
      rw [← List.append_assoc, ← List.cons_append] at hx
      exact List.append_cancel_right hx
    have hx' : x ≠ [] := by
      rintro rfl
      have hlen := splitName?_length h
      rw [← List.cons_append, ← hw, List.nil_append] at hlen
      exact absurd hlen (Nat.lt_irrefl _)
    rw [← List.cons_append, ← hw, List.append_assoc] at h ⊢
    exact splitName?_swap (r := []) (.of_ne_nil hr _ _) hx' h

/-- A name behind trivia, before the blank. -/
theorem splitName?_drop_respaced {s word r : Text} (hapart : StandsApart b' r true)
    (h : splitName? (Trivia.drop (s ++ b :: v)) = some (word, r ++ b :: v)) :
    splitName? (Trivia.drop (s ++ b' :: v)) = some (word, r ++ b' :: v) := by
  cases hdrop : Trivia.drop (s ++ b :: v) with
  | nil => simp [hdrop, splitName?] at h
  | cons c u =>
    rw [hdrop] at h
    have hlen := splitName?_length h
    rw [List.length_append, List.length_cons] at hlen
    obtain ⟨y, rfl, hskip⟩ := Trivia.skip_before hb hb' (Trivia.drop_eq_cons_iff.mp hdrop) (by omega)
    rw [Trivia.drop_eq_cons_iff.mpr hskip]
    exact splitName?_respaced hapart h

/-- The keyword of a declaration opens one with either blank behind it. -/
theorem atDeclaration_respaced {c : Char} {w word r : Text} (state : State)
    (h : splitName? (c :: (w ++ b :: v)) = some (word, r ++ b :: v))
    (h' : splitName? (c :: (w ++ b' :: v)) = some (word, r ++ b' :: v)) :
    atDeclaration state (c :: (w ++ b' :: v)) = atDeclaration state (c :: (w ++ b :: v)) := by
  have hhead := Trivia.head?_drop_respaced hb hb' (v := v) r
  unfold atDeclaration
  rw [h, h']
  dsimp only
  cases hdrop : Trivia.drop (r ++ b :: v) with
  | nil =>
    rw [hdrop, List.head?_nil, List.head?_eq_none_iff] at hhead
    rw [hhead]
  | cons d u =>
    rw [hdrop, List.head?_cons] at hhead
    obtain ⟨u', hu'⟩ := List.head?_eq_some_iff.mp hhead
    rw [hu']

end Source

end ImportOrder
