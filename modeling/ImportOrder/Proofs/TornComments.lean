import ImportOrder.Proofs.Span
import ImportOrder.Proofs.Truncation
import ImportOrder.Runtime

/-!
# Comments torn by the cut of a gap

A gap between two statements is cut behind the comment that closes its first line. The end of that comment is looked
for by its two characters alone, so a block comment that is opened at the end of the line by a star between two
slashes seems to be closed there, and the cut tears it in two. This is the only way: every other cut leaves whole
comments on both sides.
-/

namespace ImportOrder

open Source

namespace Trivia

/-! ## Whole trivia -/

/-- Trivia that is complete by itself: skipping it reaches the end and meets no comment that is left open. -/
def Whole (t : Text) : Prop :=
  skip t = .reached []

instance : DecidablePred Whole := fun t => inferInstanceAs (Decidable (skip t = .reached []))

/-- Whole trivia is closed by a line feed, which at most a line comment at its end still needs. -/
theorem whole_iff_closed_lineFeed {t : Text} : Whole t ↔ Closed (t ++ ['\n']) := by
  constructor
  · intro h
    unfold Whole at h
    fun_induction skip t with
    | case1 => exact .blank (by decide) .nil
    | case2 r ih =>
      have hrest := ih h
      rcases fromLineFeed_cases r with ⟨hfree, -⟩ | ⟨body, rest, rfl, hfree, hfeed⟩
      · exact .line hfree .nil
      · -- the line feed of the comment is the first blank of what is left
        rw [hfeed] at hrest
        cases hrest with
        | blank _ hrest =>
          have hline : Closed ('/' :: '/' :: (body ++ '\n' :: (rest ++ ['\n']))) := .line hfree hrest
          simpa using hline
    | case3 r after hclose ih =>
      obtain ⟨body, rfl, hbody⟩ := afterClose_split hclose
      have hblock : Closed ('/' :: '*' :: (body ++ (after ++ ['\n']))) := .block hbody (ih h)
      simpa using hblock
    | case4 => simp at h
    | case5 c r _ _ hblank ih => exact .blank hblank (ih h)
    | case6 => simp at h
  · intro h
    rcases h.cases_line_feed with hclosed | ⟨g, body, rfl, hg, hfree⟩
    · have hskip := hclosed.skip_append []
      rw [List.append_nil] at hskip
      rw [Whole, hskip, skip.eq_def]
    · rw [Whole, hg.skip_append, skip_line]
      rcases fromLineFeed_cases body with ⟨-, hnil⟩ | ⟨body', rest, rfl, -⟩
      · rw [hnil, skip.eq_def]
      · exact absurd (by simp : '\n' ∈ body' ++ '\n' :: rest) hfree

theorem Closed.drop_eq_nil {g : Text} (h : Closed g) : drop g = [] := by
  have hdrop := h.drop_append []
  rwa [List.append_nil, drop_nil] at hdrop

/-- Closed trivia stands before a comment that is left open. -/
theorem closed_of_unclosed {t comment : Text} (h : skip t = .unclosed comment) :
    ∃ g body, Closed g ∧ comment = '/' :: '*' :: body ∧ afterClose body = none ∧ t = g ++ comment := by
  fun_induction skip t with
  | case1 => simp at h
  | case2 r ih =>
    obtain ⟨g, body, hg, rfl, hopen, heq⟩ := ih h
    rcases fromLineFeed_cases r with ⟨-, hnil⟩ | ⟨line, rest, rfl, hfree, hfeed⟩
    · rw [hnil] at heq
      simp at heq
    · rw [hfeed] at heq
      -- the line feed is trivia, so it is the first character of `g`
      cases g with
      | nil => simp at heq
      | cons d g =>
        obtain ⟨rfl, rfl⟩ := List.cons.inj heq
        cases hg with
        | blank _ hg => exact ⟨'/' :: '/' :: (line ++ '\n' :: g), body, .line hfree hg, rfl, hopen, by simp⟩
  | case3 r after hclose ih =>
    obtain ⟨g, body, hg, rfl, hopen, rfl⟩ := ih h
    obtain ⟨closed, rfl, hclosed⟩ := afterClose_split hclose
    exact ⟨'/' :: '*' :: (closed ++ g), body, .block hclosed hg, rfl, hopen, by simp⟩
  | case4 r hopen =>
    obtain rfl : '/' :: '*' :: r = comment := by simpa using h
    exact ⟨[], r, .nil, rfl, hopen, rfl⟩
  | case5 c r _ _ hblank ih =>
    obtain ⟨g, body, hg, rfl, hopen, rfl⟩ := ih h
    exact ⟨c :: g, body, .blank hblank hg, rfl, hopen, rfl⟩
  | case6 => simp at h

/-- The front of trivia before a blank, or before the end, is whole unless it leaves a comment open. -/
theorem whole_or_unclosed {u v : Text} (h : drop (u ++ v) = []) (hv : ∀ c ∈ v.head?, isBlank c = true) :
    Whole u ∨ ∃ comment, skip u = .unclosed comment := by
  cases hskip : skip u with
  | unclosed comment => exact .inr ⟨comment, rfl⟩
  | reached rest =>
    cases rest with
    | nil => exact .inl hskip
    | cons c t =>
      -- a character that is reached in front of a blank is reached in the whole text, too
      obtain ⟨g, hg, rfl, hstart⟩ := closed_of_skip hskip
      have hstart' : StartsToken c (t ++ v) := by
        refine ⟨hstart.1, fun hslash => ?_⟩
        cases t with
        | cons d t => exact hstart.2 hslash
        | nil =>
          constructor
          · intro hhead
            exact absurd (hv _ hhead) (by decide)
          · intro hhead
            exact absurd (hv _ hhead) (by decide)
      rw [List.append_assoc, hg.drop_append, List.cons_append, drop_token hstart'] at h
      exact absurd h (List.cons_ne_nil _ _)

theorem exists_afterClose (front rest : Text) : ∃ after, afterClose (front ++ '*' :: '/' :: rest) = some after := by
  induction front with
  | nil => exact ⟨rest, rfl⟩
  | cons c front ih =>
    obtain ⟨after, hafter⟩ := ih
    rw [List.cons_append]
    by_cases hend : c = '*' ∧ (front ++ '*' :: '/' :: rest).head? = some '/'
    · obtain ⟨rfl, hhead⟩ := hend
      obtain ⟨t, ht⟩ := List.head?_eq_some_iff.mp hhead
      exact ⟨t, by rw [ht]; rfl⟩
    · refine ⟨after, ?_⟩
      rw [afterClose, hafter]
      rintro t rfl ht
      exact hend ⟨rfl, by rw [ht]; rfl⟩

/-- A comment that is left open although a comment end is the last that stands there: the slash that opens it is
followed by the star and the slash of that end. -/
theorem unclosed_of_end {front g body : Text} (hopen : afterClose body = none)
    (h : front ++ ['*', '/'] = g ++ '/' :: '*' :: body) : body = ['/'] ∧ front = g ++ ['/'] := by
  match body with
  | [] =>
    have hlast : front ++ ['*'] ++ ['/'] = g ++ ['/'] ++ ['*'] := by simpa using h
    exact absurd (List.append_inj' hlast rfl).2 (by decide)
  | [d] =>
    have hlast : front ++ ['*', '/'] = (g ++ ['/']) ++ ['*', d] := by simpa using h
    obtain ⟨rfl, hd⟩ := List.append_inj' hlast rfl
    obtain rfl : '/' = d := by simpa using hd
    exact ⟨rfl, rfl⟩
  | c :: d :: body =>
    -- the end would stand behind the star that opens the comment, and close it
    have hlength : ((c :: d :: body).drop body.length).length = 2 := by
      rw [List.length_drop, List.length_cons, List.length_cons]
      omega
    rw [← List.take_append_drop body.length (c :: d :: body)] at h hopen
    generalize (c :: d :: body).take body.length = inner at h hopen
    generalize (c :: d :: body).drop body.length = last at h hopen hlength
    have htail : front ++ ['*', '/'] = (g ++ '/' :: '*' :: inner) ++ last := by simpa using h
    obtain ⟨-, rfl⟩ := List.append_inj' htail hlength.symm
    obtain ⟨after, hafter⟩ := exists_afterClose inner []
    rw [hafter] at hopen
    exact absurd hopen (by simp)

end Trivia

/-- Blanks are stripped up to the last other character. -/
theorem Text.stripEnd_append {c : Char} {blanks : Text} (hc : isBlank c = false) (t : Text)
    (hblanks : ∀ d ∈ blanks, isBlank d = true) : Text.stripEnd (t ++ c :: blanks) = t ++ [c] := by
  unfold Text.stripEnd Text.dropEndWhile
  rw [List.reverse_append, List.reverse_cons, List.append_assoc, List.dropWhile_append_of_pos (by simpa using hblanks),
    List.singleton_append, List.dropWhile_cons_of_neg (by simp [hc])]
  simp

namespace Plan

/-! ## The end of a line comment -/

theorem dropWhile_inline_append {inline rest : Text} (hinline : ∀ c ∈ inline, isInlineBlank c = true)
    (hend : atLineEnd rest = true) : (inline ++ rest).dropWhile isInlineBlank = rest := by
  rw [List.dropWhile_append_of_pos hinline]
  rcases atLineEnd_cases hend with rfl | ⟨rest, rfl⟩ | ⟨rest, rfl⟩
  · rfl
  · rw [List.dropWhile_cons_of_neg (by decide)]
  · rw [List.dropWhile_cons_of_neg (by decide)]

theorem isBlank_of_atLineEnd {inline rest : Text} (hinline : ∀ c ∈ inline, isInlineBlank c = true)
    (hend : atLineEnd rest = true) : ∀ c ∈ (inline ++ rest).head?, isBlank c = true := by
  intro c hc
  cases inline with
  | cons d inline =>
    obtain rfl : d = c := by simpa using hc
    exact isBlank_of_isInlineBlank (hinline d (by simp))
  | nil =>
    rcases atLineEnd_cases hend with rfl | ⟨rest, rfl⟩ | ⟨rest, rfl⟩
    · simp at hc
    · obtain rfl : '\n' = c := by simpa using hc
      decide
    · obtain rfl : '\r' = c := by simpa using hc
      decide

/-- Before a star no line ends, unless a line break stands between. -/
theorem not_atLineEnd_star {front rest : Text} (hfront : ∀ c ∈ front, isLineBreak c = false) :
    atLineEnd ((front ++ '*' :: rest).dropWhile isInlineBlank) = false := by
  induction front with
  | nil => rfl
  | cons c front ih =>
    by_cases hc : isInlineBlank c = true
    · rw [List.cons_append, List.dropWhile_cons_of_pos hc]
      exact ih fun d hd => hfront d (List.mem_cons_of_mem c hd)
    · have hbreak := hfront c List.mem_cons_self
      rw [List.cons_append, List.dropWhile_cons_of_neg hc]
      cases hend : atLineEnd (c :: (front ++ '*' :: rest)) with
      | false => rfl
      | true =>
        rcases atLineEnd_cases hend with hnil | ⟨t, ht⟩ | ⟨t, ht⟩
        · exact absurd hnil (List.cons_ne_nil _ _)
        · obtain ⟨rfl, -⟩ := List.cons.inj ht
          exact absurd hbreak (by decide)
        · obtain ⟨rfl, -⟩ := List.cons.inj ht
          exact absurd hbreak (by decide)

/-- A comment end at the front of a text is the one that is looked for, or that one stands behind it. -/
theorem commentEnd_cases {front rest tail : Text} (h : '*' :: '/' :: rest = front ++ '*' :: '/' :: tail) :
    front = [] ∧ rest = tail ∨ ∃ front', front = '*' :: '/' :: front' ∧ rest = front' ++ '*' :: '/' :: tail := by
  rcases front with _ | ⟨c, _ | ⟨d, front'⟩⟩
  · exact .inl ⟨rfl, by simpa using h⟩
  · simp at h
  · simp only [List.cons_append, List.cons.injEq] at h
    obtain ⟨rfl, rfl, rfl⟩ := h
    exact .inr ⟨front', rfl, rfl⟩

theorem blockCommentLineEnd?_of_star {t after : Text}
    (h : ∃ front inline, t = front ++ '*' :: '/' :: (inline ++ after) ∧ (∀ c ∈ front, isLineBreak c = false) ∧
      (∀ c ∈ inline, isInlineBlank c = true) ∧ atLineEnd after = true) : blockCommentLineEnd? t = some after := by
  obtain ⟨front, inline, ht, hfront, hinline, hend⟩ := h
  have hafter := dropWhile_inline_append hinline hend
  fun_induction blockCommentLineEnd? t generalizing front with
  | case1 => simp at ht
  | case2 rest end' hend' =>
    rcases commentEnd_cases ht with ⟨-, rfl⟩ | ⟨front, rfl, rfl⟩
    · exact congrArg some hafter
    · -- the end that is looked for still follows on the line
      have hnot : atLineEnd ((front ++ '*' :: '/' :: (inline ++ after)).dropWhile isInlineBlank) = false :=
        not_atLineEnd_star fun c hc => hfront c (List.mem_cons_of_mem _ (List.mem_cons_of_mem _ hc))
      exact absurd (hend'.symm.trans hnot) (by decide)
  | case3 rest end' hend' ih =>
    rcases commentEnd_cases ht with ⟨-, rfl⟩ | ⟨front, rfl, rfl⟩
    · have hend'' : end' = after := hafter
      rw [hend''] at hend'
      exact absurd hend hend'
    · exact ih front rfl fun c hc => hfront c (List.mem_cons_of_mem _ (List.mem_cons_of_mem _ hc))
  | case4 c rest _ hbreak =>
    cases front with
    | nil =>
      obtain ⟨rfl, -⟩ := List.cons.inj ht
      exact absurd hbreak (by decide)
    | cons d front =>
      obtain ⟨rfl, -⟩ := List.cons.inj ht
      simp [hfront c] at hbreak
  | case5 c rest hstar _ ih =>
    cases front with
    | nil =>
      obtain ⟨rfl, rfl⟩ := List.cons.inj ht
      exact absurd rfl (hstar _ rfl)
    | cons d front =>
      obtain ⟨rfl, rfl⟩ := List.cons.inj ht
      exact ih front rfl fun c hc => hfront c (List.mem_cons_of_mem _ hc)

/-- The comment end that closes a line is the one with nothing but spaces and tabs behind it on that line. -/
theorem blockCommentLineEnd?_eq_some_iff {t after : Text} : blockCommentLineEnd? t = some after ↔
    ∃ front inline, t = front ++ '*' :: '/' :: (inline ++ after) ∧ (∀ c ∈ front, isLineBreak c = false) ∧
      (∀ c ∈ inline, isInlineBlank c = true) ∧ atLineEnd after = true := by
  constructor
  · exact blockCommentLineEnd?_split
  · exact blockCommentLineEnd?_of_star

/-! ## Torn gaps -/

/-- The first line of a gap ends just behind a star between two slashes that opens a comment. Before it stand block
comments, at least one, and behind it only spaces and tabs. -/
structure TornAt (gap indent comments inline rest : Text) : Prop where
  eq_append : gap = indent ++ '/' :: '*' :: (comments ++ '/' :: '*' :: '/' :: (inline ++ rest))
  indent_inline : ∀ c ∈ indent, isInlineBlank c = true
  closed : Trivia.Closed ('/' :: '*' :: comments)
  oneLine : ∀ c ∈ comments, isLineBreak c = false
  inline_inline : ∀ c ∈ inline, isInlineBlank c = true
  lineEnd : atLineEnd rest = true

/-- A gap whose first line ends inside a comment that seems to be closed there. -/
def Torn (gap : Text) : Prop :=
  ∃ indent comments inline rest, TornAt gap indent comments inline rest

/-- The cut of a torn gap goes through the comment at the end of the line. -/
theorem TornAt.splitGap_eq {gap indent comments inline rest : Text} (h : TornAt gap indent comments inline rest) :
    splitGap gap = (indent ++ '/' :: '*' :: (comments ++ ['/', '*', '/']), rest) := by
  have hdrop : gap.dropWhile isInlineBlank = '/' :: '*' :: (comments ++ '/' :: '*' :: '/' :: (inline ++ rest)) := by
    rw [h.eq_append, List.dropWhile_append_of_pos h.indent_inline, List.dropWhile_cons_of_neg (by decide)]
  have hend : blockCommentLineEnd? (comments ++ '/' :: '*' :: '/' :: (inline ++ rest)) = some rest := by
    refine blockCommentLineEnd?_eq_some_iff.mpr ⟨comments ++ ['/'], inline, by simp, ?_, h.inline_inline, h.lineEnd⟩
    intro c hc
    rcases List.mem_append.mp hc with hc | hc
    · exact h.oneLine c hc
    · obtain rfl : c = '/' := by simpa using hc
      decide
  have hcomment : commentLineEnd? gap = some rest := by
    unfold commentLineEnd?
    rw [hdrop]
    exact hend
  have hfront : gap.before rest = (indent ++ '/' :: '*' :: (comments ++ ['/', '*'])) ++ '/' :: inline := by
    have happend : gap = ((indent ++ '/' :: '*' :: (comments ++ ['/', '*'])) ++ '/' :: inline) ++ rest := by
      rw [h.eq_append]
      simp
    rw [happend, Text.before_append]
  have hblanks : ∀ c ∈ inline, isBlank c = true := fun c hc => isBlank_of_isInlineBlank (h.inline_inline c hc)
  unfold splitGap
  rw [hcomment]
  dsimp only
  rw [hfront, Text.stripEnd_append (by decide) _ hblanks]
  simp

theorem TornAt.not_whole {gap indent comments inline rest : Text} (h : TornAt gap indent comments inline rest) :
    ¬Trivia.Whole (splitGap gap).1 := by
  have hindent := Trivia.closed_of_blanks fun c hc => isBlank_of_isInlineBlank (h.indent_inline c hc)
  have hopen : Trivia.afterClose ['/'] = none := rfl
  have happend : indent ++ '/' :: '*' :: (comments ++ ['/', '*', '/']) =
      (indent ++ '/' :: '*' :: comments) ++ ['/', '*', '/'] := by simp
  rw [h.splitGap_eq, Trivia.Whole, happend, (hindent.append h.closed).skip_append, Trivia.skip_open hopen]
  simp

/-- A line comment is whole, wherever its line ends. -/
theorem whole_lineComment {indent body : Text} (hindent : ∀ c ∈ indent, isInlineBlank c = true)
    (hbody : ∀ c ∈ body, isLineBreak c = false) :
    Trivia.Whole (Text.stripEnd (indent ++ '/' :: '/' :: body)) := by
  obtain ⟨blanks, hblanks, hsplit⟩ := Text.stripEnd_split (indent ++ '/' :: '/' :: body)
  obtain ⟨kept, hkept⟩ := Text.dropEndWhile_append_cons (p := isBlank) (c := '/') (by decide) (indent ++ ['/']) body
  have hstrip : Text.stripEnd (indent ++ '/' :: '/' :: body) = indent ++ '/' :: '/' :: kept := by
    rw [Text.stripEnd]
    simpa using hkept
  -- what is kept is a front of the body, and so stays on the line
  have hfree : '\n' ∉ kept := by
    rw [hstrip] at hsplit
    obtain rfl : body = kept ++ blanks := by simpa using hsplit
    exact fun hmem => not_mem_lineFeed hbody (by simp [hmem])
  have hindent := Trivia.closed_of_blanks fun c hc => isBlank_of_isInlineBlank (hindent c hc)
  have hclosed := hindent.append (Trivia.Closed.line hfree .nil)
  rw [hstrip, Trivia.whole_iff_closed_lineFeed]
  simpa using hclosed

/-- How a gap is cut: without a comment on its first line, or behind a line comment, or behind block comments. -/
inductive CommentCut (gap : Text) : Text → Prop
  | none : CommentCut gap []
  | line {indent body : Text} : (∀ c ∈ indent, isInlineBlank c = true) → (∀ c ∈ body, isLineBreak c = false) →
      CommentCut gap (Text.stripEnd (indent ++ '/' :: '/' :: body))
  | block {indent front inline rest : Text} :
      gap = (indent ++ '/' :: '*' :: (front ++ ['*', '/'])) ++ (inline ++ rest) →
      (∀ c ∈ indent, isInlineBlank c = true) → (∀ c ∈ front, isLineBreak c = false) →
      (∀ c ∈ inline, isInlineBlank c = true) → atLineEnd rest = true →
      CommentCut gap (indent ++ '/' :: '*' :: (front ++ ['*', '/']))

theorem commentCut_splitGap (gap : Text) : CommentCut gap (splitGap gap).1 := by
  unfold splitGap
  split
  case h_2 => exact .none
  case h_1 after hcomment =>
    obtain ⟨indent, hsplit, hindent⟩ := inlineBlanks_split gap
    unfold commentLineEnd? at hcomment
    split at hcomment
    · rename_i rest hline
      dsimp only at hcomment
      split at hcomment
      · obtain rfl := Option.some.inj hcomment
        rw [hline, ← List.takeWhile_append_dropWhile (p := fun c => !isLineBreak c) (l := rest)] at hsplit
        have hbody : ∀ c ∈ rest.takeWhile (fun c => !isLineBreak c), isLineBreak c = false := by
          intro c hc
          simpa using List.all_eq_true.mp List.all_takeWhile c hc
        generalize rest.takeWhile (fun c => !isLineBreak c) = body at hsplit hbody
        generalize rest.dropWhile (fun c => !isLineBreak c) = after at hsplit
        have hfront : gap.before after = indent ++ '/' :: '/' :: body := by
          rw [hsplit, ← List.cons_append, ← List.cons_append, ← List.append_assoc, Text.before_append]
        -- a line comment is kept as it stands
        rw [hfront]
        exact .line hindent hbody
      · simp at hcomment
    · rename_i rest hblock
      obtain ⟨front, inline, rfl, hfront, hinline, hend⟩ := blockCommentLineEnd?_eq_some_iff.mp hcomment
      rw [hblock] at hsplit
      have happend : gap = ((indent ++ '/' :: '*' :: (front ++ ['*'])) ++ '/' :: inline) ++ after := by
        rw [hsplit]
        simp
      -- of what is behind a block comment nothing is kept, and the slash that ends it is no blank
      have hblanks : ∀ c ∈ inline, isBlank c = true := fun c hc => isBlank_of_isInlineBlank (hinline c hc)
      have htrailing : (gap.before after).stripEnd = indent ++ '/' :: '*' :: (front ++ ['*', '/']) := by
        rw [happend, Text.before_append, Text.stripEnd_append (by decide) _ hblanks]
        simp
      rw [htrailing]
      refine .block ?_ hindent hfront hinline hend
      rw [hsplit]
      simp
    · simp at hcomment

/-- The cut of a gap tears a comment only if the gap is torn. -/
theorem torn_of_not_whole {gap : Text} (hgap : Trivia.drop gap = []) (h : ¬Trivia.Whole (splitGap gap).1) :
    Torn gap := by
  have hcut := commentCut_splitGap gap
  generalize (splitGap gap).1 = trailing at h hcut
  cases hcut with
  | none =>
    -- without a comment there is nothing to tear
    exact absurd (by rw [Trivia.Whole, Trivia.skip.eq_def]) h
  | line hindent hbody => exact absurd (whole_lineComment hindent hbody) h
  | @block indent front inline rest happend hindent hfront hinline hend =>
    rw [happend] at hgap
    rcases Trivia.whole_or_unclosed hgap (isBlank_of_atLineEnd hinline hend) with hwhole | ⟨comment, hopen⟩
    · exact absurd hwhole h
    · obtain ⟨g, body, hg, rfl, hclose, heq⟩ := Trivia.closed_of_unclosed hopen
      have hlast : (indent ++ '/' :: '*' :: front) ++ ['*', '/'] = g ++ '/' :: '*' :: body := by simpa using heq
      obtain ⟨rfl, hshort⟩ := Trivia.unclosed_of_end hclose hlast
      -- the slash that opens the comment is the last character before the end that was found
      rcases List.eq_nil_or_concat front with rfl | ⟨comments, d, rfl⟩
      · have hstar : (indent ++ ['/']) ++ ['*'] = g ++ ['/'] := by simpa using hshort
        exact absurd (List.append_inj' hstar rfl).2 (by decide)
      · have hslash : (indent ++ '/' :: '*' :: comments) ++ [d] = g ++ ['/'] := by simpa using hshort
        obtain ⟨rfl, hd⟩ := List.append_inj' hslash rfl
        obtain rfl : d = '/' := by simpa using hd
        have hblanks := Trivia.closed_of_blanks fun c hc => isBlank_of_isInlineBlank (hindent c hc)
        refine ⟨indent, comments, inline, rest, ?_, hindent, hblanks.of_append_left hg, ?_, hinline, hend⟩
        · rw [happend]
          simp
        · exact fun c hc => hfront c (by simp [hc])

theorem whole_trailing_iff {gap : Text} (hgap : Trivia.drop gap = []) :
    Trivia.Whole (splitGap gap).1 ↔ ¬Torn gap := by
  constructor
  · rintro hwhole ⟨indent, comments, inline, rest, htorn⟩
    exact htorn.not_whole hwhole
  · intro htorn
    by_contra hwhole
    exact htorn (torn_of_not_whole hgap hwhole)

/-- Behind a whole comment, whole comments are left. -/
theorem whole_leading {gap : Text} (hgap : Trivia.Closed gap) (h : Trivia.Whole (splitGap gap).1) :
    Trivia.Whole (splitGap gap).2.strip := by
  obtain ⟨blanks, hparts⟩ := splitGap_parts gap
  have hrest := hparts.rest_closed hgap (Trivia.whole_iff_closed_lineFeed.mp h)
  exact Trivia.whole_iff_closed_lineFeed.mpr (comments_strip hrest).closed

/-! ## The gaps of a span -/

theorem isChain_whole_iff {source leading : Text} {middle back : List Statement}
    (hchain : middle.IsChain (Statement.Follows source)) :
    ((bundles source leading (middle ++ back)).take middle.length).IsChain fun b b' =>
      Trivia.Whole b.trailing ∧ Trivia.Whole b'.leading ↔
        ¬Torn (source.slice b.statement.stop b'.statement.start) := by
  induction middle generalizing leading with
  | nil => exact .nil
  | cons s rest ih =>
    rw [List.cons_append, bundles_cons, List.length_cons, List.take_succ_cons]
    cases rest with
    | nil => exact .singleton _
    | cons s' rest =>
      obtain ⟨hfollows, hrest⟩ := List.isChain_cons_cons.mp hchain
      have hgap := hfollows.gap_closed
      have ih := @ih (splitGap (source.slice s.stop s'.start)).2.strip hrest
      rw [List.cons_append, bundles_cons, List.length_cons, List.take_succ_cons] at ih ⊢
      refine List.isChain_cons_cons.mpr ⟨?_, ih⟩
      show Trivia.Whole (splitGap (source.slice s.stop s'.start)).1 ∧
        Trivia.Whole (splitGap (source.slice s.stop s'.start)).2.strip ↔ ¬Torn (source.slice s.stop s'.start)
      rw [← whole_trailing_iff hgap.drop_eq_nil]
      exact ⟨fun h => h.1, fun h => ⟨h, whole_leading hgap h⟩⟩

/-- Behind a statement nothing but trivia stands up to the next one or the end. -/
theorem drop_gapAfter [Stack] {source : Text} {document : Document} (h : Document.parse source = .ok document)
    {before rest : List Statement} {s : Statement} (hsplit : document.statements = before ++ s :: rest) :
    Trivia.drop (gapAfter source s rest) = [] := by
  have hfollows := Document.follows_of_parse h
  rw [hsplit] at hfollows
  have htail := (List.isChain_append.mp hfollows).2.1
  cases rest with
  | cons s' rest => exact ((List.isChain_cons_cons.mp htail).1).gap_closed.drop_eq_nil
  | nil =>
    -- behind the last statement the gap is all that is left
    have hlast : s ∈ document.statements.getLast? := by
      rw [hsplit]
      simp
    have hback := Document.drop_back_of_parse h s hlast
    have hfits := Document.fits_of_parse h s (List.mem_of_getLast? hlast)
    have hgap : gapAfter source s [] ++ onwardNext source [] = source.onward s.stop :=
      gapAfter_append hfits (by simp) (by simp)
    rw [← hgap] at hback
    simpa [onwardNext] using hback

/-- In the span of a source, the comment that closes a line and the comments above the next statement are whole,
each read by itself, unless the gap between the two statements is torn; and so is the comment behind the last import,
unless the gap behind it is torn. -/
theorem comments_whole_iff [Stack] {source : Text} {document : Document} (h : Document.parse source = .ok document)
    {front middle back : List Statement} (hspan : Spanned document.statements front middle back) :
    (span source document.statements).map Bundle.statement = middle ∧
      ((span source document.statements).IsChain fun b b' =>
        Trivia.Whole b.trailing ∧ Trivia.Whole b'.leading ↔
          ¬Torn (source.slice b.statement.stop b'.statement.start)) ∧
      ∀ last ∈ (span source document.statements).getLast?,
        Trivia.Whole last.trailing ↔ ¬Torn (gapAfter source last.statement back) := by
  have hfollows := Document.follows_of_parse h
  rw [hspan.eq_append, List.isChain_append, List.isChain_append] at hfollows
  rw [hspan.span_eq source]
  refine ⟨?_, isChain_whole_iff hfollows.2.1.1, ?_⟩
  · rw [List.map_take, map_statement_bundles, List.take_left]
  · intro b hb
    obtain ⟨last, hlast, -⟩ := hspan.last_import
    obtain ⟨b', hb', hstatement, htrailing⟩ := getLast?_bundles source [] hlast back
    obtain rfl : b' = b := Option.some.inj (hb'.symm.trans hb)
    obtain ⟨others, hothers⟩ := List.getLast?_eq_some_iff.mp hlast
    have hsplit : document.statements = (front ++ others) ++ last :: back := by
      rw [hspan.eq_append, hothers]
      simp
    rw [htrailing, hstatement]
    exact whole_trailing_iff (drop_gapAfter h hsplit)

/-- The first gap is torn: the comment around the call begins at the end of the first line. -/
def tornSource : Text :=
  "import b from 'b' /* b *//*/\n f() */\nimport a from 'a' // a\nimport c from './c'\n".toList

def tornSpan : List Bundle :=
  [⟨⟨0, 17, 0, 0, "import b from 'b'".toList, some "b".toList⟩, [], " /* b *//*/".toList⟩,
    ⟨⟨37, 54, 2, 2, "import a from 'a'".toList, some "a".toList⟩, "f() */".toList, " // a".toList⟩,
    ⟨⟨60, 79, 3, 3, "import c from './c'".toList, some "./c".toList⟩, [], []⟩]

section

open ImportOrder.Runtime

theorem comments_whole_iff_tornSource :
    ∃ document, Document.parse tornSource = .ok document ∧ span tornSource document.statements = tornSpan ∧
      Spanned document.statements [] (tornSpan.map Bundle.statement) [] ∧
      tornSpan.map (fun b => (decide (Trivia.Whole b.trailing), decide (Trivia.Whole b.leading))) =
        [(false, true), (true, false), (true, true)] ∧
      (tornSpan.IsChain fun b b' => Trivia.Whole b.trailing ∧ Trivia.Whole b'.leading ↔
        ¬Torn (tornSource.slice b.statement.stop b'.statement.start)) ∧
      ∀ last ∈ tornSpan.getLast?, Trivia.Whole last.trailing ↔ ¬Torn (gapAfter tornSource last.statement []) := by
  have hread : (Document.parse tornSource).toOption.map Document.statements =
      some (tornSpan.map Bundle.statement) := by
    decide +kernel
  cases hparse : Document.parse tornSource with
  | error error => simp [hparse, Except.toOption] at hread
  | ok document =>
    have hstatements : document.statements = tornSpan.map Bundle.statement := by
      simpa [hparse, Except.toOption] using hread
    have hspan : span tornSource document.statements = tornSpan := by
      rw [hstatements]
      decide +kernel
    have hspanned : Spanned document.statements [] (tornSpan.map Bundle.statement) [] := by
      refine ⟨by simp [hstatements], by simp, by simp, ⟨_, rfl, rfl⟩, ⟨_, rfl, rfl⟩⟩
    obtain ⟨-, hchain, hlast⟩ := comments_whole_iff hparse hspanned
    rw [hspan] at hchain hlast
    exact ⟨document, rfl, hspan, hspanned, by decide +kernel, hchain, hlast⟩

end

end Plan

end ImportOrder
