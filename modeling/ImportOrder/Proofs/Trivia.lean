import ImportOrder.Source.Trivia

/-!
# Closed trivia

Trivia is closed when reading goes on right behind it, whatever follows: blanks, block comments, and line
comments with their line feed. Skipping reaches a character exactly when closed trivia stands before it, so a
gap between two statements can be moved without being read again.
-/

namespace ImportOrder.Trivia

/-- Blanks and comments, each comment with its end. -/
inductive Closed : Text → Prop
  | nil : Closed []
  | blank {c : Char} {g : Text} : isBlank c = true → Closed g → Closed (c :: g)
  | line {body g : Text} : '\n' ∉ body → Closed g → Closed ('/' :: '/' :: (body ++ '\n' :: g))
  | block {body g : Text} : afterClose body = some [] → Closed g → Closed ('/' :: '*' :: (body ++ g))

/-! ## Comment ends -/

theorem afterClose_append {t rest : Text} (h : afterClose t = some rest) (u : Text) :
    afterClose (t ++ u) = some (rest ++ u) := by
  fun_induction afterClose t with
  | case1 => simp at h
  | case2 r =>
    obtain rfl : r = rest := by simpa using h
    simp [afterClose]
  | case3 c r hne ih =>
    have hstep : afterClose (c :: (r ++ u)) = afterClose (r ++ u) := by
      -- the first two characters are those of `c :: r`, unless `r` is empty
      cases r with
      | nil => simp [afterClose] at h
      | cons d r =>
        rw [List.cons_append, afterClose]
        intro rest' hc hr
        obtain ⟨rfl, rfl⟩ := List.cons.inj hr
        exact hne r hc rfl
    rw [List.cons_append, hstep, ih h]

/-- What stands before the text after a comment end is closed by that end and no earlier one. -/
theorem afterClose_split {t rest : Text} (h : afterClose t = some rest) :
    ∃ body, t = body ++ rest ∧ afterClose body = some [] := by
  fun_induction afterClose t with
  | case1 => simp at h
  | case2 r =>
    obtain rfl : r = rest := by simpa using h
    exact ⟨['*', '/'], rfl, rfl⟩
  | case3 c r hne ih =>
    obtain ⟨body, rfl, hbody⟩ := ih h
    refine ⟨c :: body, rfl, ?_⟩
    rw [afterClose, hbody]
    intro rest' hc hr
    exact hne (rest' ++ rest) hc (by rw [hr, List.cons_append])

theorem afterClose_getLast {body : Text} (h : afterClose body = some []) :
    body.getLast? = some '/' := by
  fun_induction afterClose body with
  | case1 => simp at h
  | case2 r =>
    obtain rfl : r = [] := by simpa using h
    rfl
  | case3 c r _ ih => rw [List.getLast?_cons, ih h, Option.getD_some]

theorem fromLineFeed_append {body : Text} (h : '\n' ∉ body) (t : Text) :
    fromLineFeed (body ++ '\n' :: t) = '\n' :: t := by
  unfold fromLineFeed
  rw [List.dropWhile_append_of_pos]
  · simp
  · intro c hc
    have hne : c ≠ '\n' := fun heq => h (heq ▸ hc)
    simpa using hne

/-- A text is either free of line feeds or cut by its first one. -/
theorem fromLineFeed_cases (t : Text) :
    ('\n' ∉ t ∧ fromLineFeed t = []) ∨
      ∃ body rest, t = body ++ '\n' :: rest ∧ '\n' ∉ body ∧ fromLineFeed t = '\n' :: rest := by
  by_cases hmem : '\n' ∈ t
  · right
    obtain ⟨body, rest, rfl, hbody⟩ := List.eq_append_cons_of_mem hmem
    exact ⟨body, rest, rfl, hbody, fromLineFeed_append hbody rest⟩
  · left
    refine ⟨hmem, ?_⟩
    have hall : ∀ c ∈ t, (c != '\n') = true := by
      intro c hc
      have hne : c ≠ '\n' := fun heq => hmem (heq ▸ hc)
      simpa using hne
    have hdrop : (t ++ []).dropWhile (· != '\n') = List.dropWhile (· != '\n') [] :=
      List.dropWhile_append_of_pos hall
    simpa [fromLineFeed] using hdrop

/-! ## Skipping -/

/-- A character at which a token begins: no blank, and not the first of a comment. -/
def StartsToken (c : Char) (t : Text) : Prop :=
  isBlank c = false ∧ (c = '/' → t.head? ≠ some '/' ∧ t.head? ≠ some '*')

theorem skip_line (t : Text) : skip ('/' :: '/' :: t) = skip (fromLineFeed t) := by
  rw [skip.eq_def]
  rfl

theorem skip_star (t : Text) :
    skip ('/' :: '*' :: t) = ((afterClose t).map skip).getD (.unclosed ('/' :: '*' :: t)) := by
  rw [skip.eq_def]
  split
  · simp_all
  · simp_all
  · rename_i rest heq
    obtain rfl : t = rest := by simpa using heq
    split <;> simp_all
  · rename_i hblock heq
    obtain ⟨rfl, rfl⟩ := List.cons.inj heq
    exact absurd rfl (hblock t rfl)

theorem skip_block {t after : Text} (h : afterClose t = some after) :
    skip ('/' :: '*' :: t) = skip after := by
  rw [skip_star, h, Option.map_some, Option.getD_some]

theorem skip_open {t : Text} (h : afterClose t = none) :
    skip ('/' :: '*' :: t) = .unclosed ('/' :: '*' :: t) := by
  rw [skip_star, h, Option.map_none, Option.getD_none]

theorem skip_blank {c : Char} (h : isBlank c = true) (t : Text) : skip (c :: t) = skip t := by
  have hne : c ≠ '/' := by
    rintro rfl
    exact absurd h (by decide)
  rw [skip.eq_def]
  split <;> simp_all

theorem skip_token {c : Char} {t : Text} (h : StartsToken c t) :
    skip (c :: t) = .reached (c :: t) := by
  obtain ⟨hblank, hslash⟩ := h
  rw [skip.eq_def]
  split <;> simp_all

/-- Closed trivia is skipped. -/
theorem Closed.skip_append {g : Text} (h : Closed g) (t : Text) : skip (g ++ t) = skip t := by
  induction h with
  | nil => rfl
  | blank hc _ ih => rw [List.cons_append, skip_blank hc, ih]
  | @line body g hbody _ ih =>
    rw [List.cons_append, List.cons_append, skip_line, List.append_assoc, List.cons_append,
      fromLineFeed_append hbody, skip_blank (by decide), ih]
  | @block body g hbody _ ih =>
    have hclose := afterClose_append hbody (g ++ t)
    rw [List.cons_append, List.cons_append, List.append_assoc, skip_block hclose, List.nil_append, ih]

/-- Where skipping reaches a character, closed trivia stands before it. -/
theorem closed_of_skip {t u : Text} {c : Char} (h : skip t = .reached (c :: u)) :
    ∃ g, Closed g ∧ t = g ++ c :: u ∧ StartsToken c u := by
  fun_induction skip t with
  | case1 => simp at h
  | case2 r ih =>
    obtain ⟨g, hg, heq, hstart⟩ := ih h
    rcases fromLineFeed_cases r with ⟨-, hnil⟩ | ⟨body, rest, rfl, hbody, hrest⟩
    · rw [hnil] at heq
      simp at heq
    · rw [hrest] at heq
      -- the line feed itself is trivia, so it is the first character of `g`
      cases g with
      | nil =>
        obtain ⟨rfl, -⟩ := List.cons.inj heq
        exact absurd hstart.1 (by decide)
      | cons d g =>
        obtain ⟨rfl, rfl⟩ := List.cons.inj heq
        cases hg with
        | blank _ hg => exact ⟨'/' :: '/' :: (body ++ '\n' :: g), .line hbody hg, by simp, hstart⟩
  | case3 r after hclose ih =>
    obtain ⟨g, hg, rfl, hstart⟩ := ih h
    obtain ⟨body, rfl, hbody⟩ := afterClose_split hclose
    exact ⟨'/' :: '*' :: (body ++ g), .block hbody hg, by simp, hstart⟩
  | case4 => simp at h
  | case5 d r _ _ hblank ih =>
    obtain ⟨g, hg, rfl, hstart⟩ := ih h
    exact ⟨d :: g, .blank hblank hg, rfl, hstart⟩
  | case6 d r hline hblock hblank =>
    obtain ⟨rfl, rfl⟩ : d = c ∧ r = u := by simpa using h
    refine ⟨[], .nil, rfl, by simpa using hblank, ?_⟩
    rintro rfl
    constructor
    · intro hhead
      obtain ⟨rest, rfl⟩ := List.head?_eq_some_iff.mp hhead
      exact hline rest rfl rfl
    · intro hhead
      obtain ⟨rest, rfl⟩ := List.head?_eq_some_iff.mp hhead
      exact hblock rest rfl rfl

theorem startsToken_of_skip {t u : Text} {c : Char} (h : skip t = .reached (c :: u)) : StartsToken c u := by
  obtain ⟨-, -, -, hstart⟩ := closed_of_skip h
  exact hstart

theorem drop_eq_cons_iff {t u : Text} {c : Char} : drop t = c :: u ↔ skip t = .reached (c :: u) := by
  unfold drop
  cases skip t with
  | reached rest => simp [Stop.rest]
  | unclosed comment => simp [Stop.rest]

theorem drop_token {c : Char} {t : Text} (h : StartsToken c t) : drop (c :: t) = c :: t :=
  drop_eq_cons_iff.mpr (skip_token h)

theorem drop_drop (t : Text) : drop (drop t) = drop t := by
  cases h : drop t with
  | nil =>
    unfold drop
    rw [skip.eq_def]
    rfl
  | cons c u =>
    exact drop_token (startsToken_of_skip (drop_eq_cons_iff.mp h))

theorem Closed.drop_append {g : Text} (h : Closed g) (t : Text) : drop (g ++ t) = drop t := by
  unfold drop
  rw [h.skip_append]

/-- Where a character before `k` is reached, it is reached before any other text that does not make a
comment of it. -/
theorem skip_swap {w k u : Text} {c : Char} (h : skip (w ++ k) = .reached (c :: u))
    (hlen : k.length ≤ u.length) :
    ∃ w', u = w' ++ k ∧ ∀ k' : Text,
      (c = '/' → w' = [] → k'.head? ≠ some '/' ∧ k'.head? ≠ some '*') →
        skip (w ++ k') = .reached (c :: (w' ++ k')) := by
  obtain ⟨g, hg, heq, hstart⟩ := closed_of_skip h
  -- `k` and what was reached are tails of one text, so the longer ends with the shorter
  have hsuffix : k <:+ u :=
    List.suffix_of_suffix_length_le ⟨w, heq⟩ ⟨g ++ [c], by simp⟩ hlen
  obtain ⟨w', rfl⟩ := hsuffix
  refine ⟨w', rfl, fun k' hslash => ?_⟩
  obtain rfl : w = g ++ c :: w' := by
    have hcancel : w ++ k = (g ++ c :: w') ++ k := by simpa using heq
    exact List.append_cancel_right hcancel
  rw [List.append_assoc, hg.skip_append, List.cons_append]
  apply skip_token
  refine ⟨hstart.1, fun hc => ?_⟩
  -- only a slash right before `k'` sees the first character of `k'`
  cases w' with
  | nil => exact hslash hc rfl
  | cons d w' => exact hstart.2 hc

theorem drop_suffix (t : Text) : drop t <:+ t := by
  cases h : drop t with
  | nil => exact List.nil_suffix
  | cons c u =>
    obtain ⟨g, -, rfl, -⟩ := closed_of_skip (drop_eq_cons_iff.mp h)
    exact ⟨g, rfl⟩

theorem drop_nil : drop [] = [] :=
  List.suffix_nil.mp (drop_suffix [])

/-! ## Closed trivia by itself -/

/-- Trivia is closed when a token put behind it is reached. -/
theorem closed_iff_skip {g : Text} : Closed g ↔ skip (g ++ ['x']) = .reached ['x'] := by
  have hstart : StartsToken 'x' [] := ⟨by decide, by decide⟩
  constructor
  · intro h
    rw [h.skip_append, skip_token hstart]
  · intro h
    obtain ⟨g', hg', heq, -⟩ := closed_of_skip h
    rwa [List.append_cancel_right heq]

instance : DecidablePred Closed := fun _ => decidable_of_iff _ closed_iff_skip.symm

theorem Closed.append {g h : Text} (hg : Closed g) (hh : Closed h) : Closed (g ++ h) := by
  rw [closed_iff_skip] at hh ⊢
  rw [List.append_assoc, hg.skip_append, hh]

theorem Closed.of_append_left {g h : Text} (hg : Closed g) (hgh : Closed (g ++ h)) : Closed h := by
  rw [closed_iff_skip] at hgh ⊢
  rwa [List.append_assoc, hg.skip_append] at hgh

theorem closed_of_blanks {b : Text} (h : ∀ c ∈ b, isBlank c = true) : Closed b := by
  induction b with
  | nil => exact .nil
  | cons c b ih => exact .blank (h c (by simp)) (ih fun d hd => h d (by simp [hd]))

theorem slash_not_blank : isBlank '/' = false := by
  decide

/-- A text begins with a character that the rest of it does not begin with. -/
theorem exists_cons_of_append {x rest t : Text} {c : Char} (hrest : rest.head? ≠ some c) (h : x ++ rest = c :: t) :
    ∃ x', x = c :: x' ∧ x' ++ rest = t := by
  cases x with
  | nil => exact absurd (congrArg List.head? h) hrest
  | cons d x =>
    obtain ⟨rfl, htail⟩ := List.cons.inj h
    exact ⟨x, rfl, htail⟩

/-- The two characters that open a comment stand before a text that begins with neither of them. -/
theorem exists_opening_of_append {x rest t : Text} {c : Char} (hslash : rest.head? ≠ some '/')
    (hc : rest.head? ≠ some c) (h : x ++ rest = '/' :: c :: t) : ∃ x', x = '/' :: c :: x' ∧ x' ++ rest = t := by
  obtain ⟨y, rfl, hy⟩ := exists_cons_of_append hslash h
  obtain ⟨x', rfl, hx'⟩ := exists_cons_of_append hc hy
  exact ⟨x', rfl, hx'⟩

/-- Blanks at the end of closed trivia may give way to a line feed: what stands before them may be a line
comment that only now ends. -/
theorem Closed.line_feed {m b : Text} (hb : ∀ c ∈ b, isBlank c = true) (h : Closed (m ++ b)) :
    Closed (m ++ ['\n']) := by
  have hhead : ∀ c, isBlank c = false → b.head? ≠ some c := by
    intro c hc hmem
    exact absurd (hb c (List.mem_of_head? hmem)) (by simp [hc])
  generalize ht : m ++ b = t at h
  -- along the closed trivia; the comments open in `m`, since what opens them is no blank
  induction h generalizing m with
  | nil =>
    obtain ⟨rfl, rfl⟩ := List.append_eq_nil_iff.mp ht
    exact .blank (by decide) .nil
  | blank hc _ ih =>
    cases m with
    | nil => exact .blank (by decide) .nil
    | cons d m =>
      obtain ⟨rfl, hrest⟩ := List.cons.inj ht
      exact .blank hc (ih hrest)
  | @line body g hbody _ ih =>
    obtain ⟨m, rfl, htail⟩ := exists_opening_of_append (hhead _ (by decide)) (hhead _ (by decide)) ht
    rcases List.append_eq_append_iff.mp htail with ⟨a, rfl, hrest⟩ | ⟨a, rfl, hrest⟩
    · -- `m` ends inside the comment, and the new line feed closes it
      have hm : '\n' ∉ m := fun hmem => hbody (by simp [hmem])
      exact .line hm .nil
    · cases a with
      | nil =>
        rw [List.append_nil]
        exact .line hbody .nil
      | cons d a =>
        obtain ⟨rfl, hg⟩ := List.cons.inj hrest
        have hclosed : Closed ('/' :: '/' :: (body ++ '\n' :: (a ++ ['\n']))) :=
          .line hbody (ih hg.symm)
        simpa using hclosed
  | @block body g hbody _ ih =>
    obtain ⟨m, rfl, htail⟩ := exists_opening_of_append (hhead _ (by decide)) (hhead _ (by decide)) ht
    rcases List.append_eq_append_iff.mp htail with ⟨a, rfl, hrest⟩ | ⟨a, rfl, hrest⟩
    · -- the slash that ends the comment is no blank either
      have hlast := afterClose_getLast hbody
      rcases List.eq_nil_or_concat a with rfl | ⟨a, d, rfl⟩
      · have hclosed : Closed ('/' :: '*' :: (m ++ ['\n'])) :=
          .block (by simpa using hbody) (.blank (by decide) .nil)
        simpa using hclosed
      · obtain rfl : d = '/' := by simpa using hlast
        have hslash := hb '/' (by simp [hrest])
        simp [slash_not_blank] at hslash
    · have hclosed : Closed ('/' :: '*' :: (body ++ (a ++ ['\n']))) := .block hbody (ih hrest.symm)
      simpa using hclosed

theorem Closed.head_cases {c : Char} {g : Text} (h : Closed (c :: g)) : isBlank c = true ∨ c = '/' := by
  cases h with
  | blank hc _ => exact .inl hc
  | line _ _ => exact .inr rfl
  | block _ _ => exact .inr rfl

theorem Closed.of_line {body g : Text} (hbody : '\n' ∉ body)
    (h : Closed ('/' :: '/' :: (body ++ '\n' :: g))) : Closed g := by
  rw [closed_iff_skip] at h ⊢
  rwa [List.cons_append, List.cons_append, skip_line, List.append_assoc, List.cons_append,
    fromLineFeed_append hbody, skip_blank (by decide)] at h

/-- Trivia that a line feed closes is closed already, or ends in a line comment. -/
theorem Closed.cases_line_feed {m : Text} (h : Closed (m ++ ['\n'])) :
    Closed m ∨ ∃ g body, m = g ++ '/' :: '/' :: body ∧ Closed g ∧ '\n' ∉ body := by
  generalize ht : m ++ ['\n'] = t at h
  induction h generalizing m with
  | nil => simp at ht
  | @blank c g hc hg ih =>
    cases m with
    | nil => exact .inl .nil
    | cons d m =>
      obtain ⟨rfl, hrest⟩ := List.cons.inj ht
      rcases ih hrest with hm | ⟨g', body, rfl, hg', hbody⟩
      · exact .inl (.blank hc hm)
      · exact .inr ⟨d :: g', body, rfl, .blank hc hg', hbody⟩
  | @line body g hbody hg ih =>
    rcases List.eq_nil_or_concat g with rfl | ⟨g, d, rfl⟩
    · have hm : m = '/' :: '/' :: body := by
        have heq : m ++ ['\n'] = ('/' :: '/' :: body) ++ ['\n'] := by simpa using ht
        exact List.append_cancel_right heq
      exact .inr ⟨[], body, by simpa using hm, .nil, hbody⟩
    · have heq : m ++ ['\n'] = ('/' :: '/' :: (body ++ '\n' :: g)) ++ [d] := by simpa using ht
      obtain ⟨rfl, hd⟩ := List.append_inj' heq rfl
      obtain rfl : '\n' = d := by simpa using hd
      rcases ih (m := g) (by simp) with hm | ⟨g', body', rfl, hg', hbody'⟩
      · exact .inl (.line hbody hm)
      · exact .inr ⟨'/' :: '/' :: (body ++ '\n' :: g'), body', by simp, .line hbody hg', hbody'⟩
  | @block body g hbody hg ih =>
    rcases List.eq_nil_or_concat g with rfl | ⟨g, d, rfl⟩
    · -- a block comment ends with a slash, not with a line feed
      have hlast : ('/' :: '*' :: body).getLast? = some '\n' := by
        have heq : m ++ ['\n'] = '/' :: '*' :: body := by simpa using ht
        rw [← heq, List.getLast?_append]
        rfl
      rw [List.getLast?_cons, List.getLast?_cons, afterClose_getLast hbody] at hlast
      exact absurd hlast (by decide)
    · have heq : m ++ ['\n'] = ('/' :: '*' :: (body ++ g)) ++ [d] := by simpa using ht
      obtain ⟨rfl, hd⟩ := List.append_inj' heq rfl
      obtain rfl : '\n' = d := by simpa using hd
      rcases ih (m := g) (by simp) with hm | ⟨g', body', rfl, hg', hbody'⟩
      · exact .inl (.block hbody hm)
      · exact .inr ⟨'/' :: '*' :: (body ++ g'), body', by simp, .block hbody hg', hbody'⟩

/-- A line feed may be written with a carriage return before it. -/
theorem Closed.carriage_return {m : Text} (h : Closed (m ++ ['\n'])) : Closed (m ++ ['\r', '\n']) := by
  rcases h.cases_line_feed with hm | ⟨g, body, rfl, hg, hbody⟩
  · exact hm.append (.blank (by decide) (.blank (by decide) .nil))
  · have hline : Closed ('/' :: '/' :: ((body ++ ['\r']) ++ '\n' :: [])) :=
      .line (by simpa using hbody) .nil
    have happ := hg.append hline
    simpa using happ

end ImportOrder.Trivia
