import ImportOrder.Proofs.Trivia
import ImportOrder.Source.Literal

/-!
# Words and literals before another text

A word, a string or a regular expression that is read in front of one text is read the same in front of
another, as long as the characters it looked at beyond its own end still say the same. In the lemmas named
`swap`, `k` is what followed before and `k'` is what follows now; nothing up to `k` is changed.
-/

namespace ImportOrder.Source

/-! ## The edge of a word -/

/-- A character that an identifier, a number or the flags of a regular expression may run on into. -/
def runsOn (c : Char) : Bool :=
  isNameStart c || isNameRest c || isNumberRest c || isDecimal c

/-- What follows begins with the same character as before, or with one that ends every word. -/
def SameEdge (k k' : Text) : Prop :=
  k'.head? = k.head? ∨ ∀ c ∈ k'.head?, runsOn c = false

theorem SameEdge.of_ne_nil {r : Text} (hr : r ≠ []) (k k' : Text) : SameEdge (r ++ k) (r ++ k') := by
  obtain ⟨c, r, rfl⟩ := List.exists_cons_of_ne_nil hr
  exact .inl rfl

theorem length_append_le_iff {r k : Text} : (r ++ k).length ≤ k.length ↔ r = [] := by
  rw [List.length_append]
  constructor
  · intro h
    exact List.length_eq_zero_iff.mp (by omega)
  · rintro rfl
    simp

theorem SameEdge.dropWhile_eq {p : Char → Bool} {k k' : Text} (hedge : SameEdge k k')
    (hp : ∀ c, p c = true → runsOn c = true) (h : k.dropWhile p = k) : k'.dropWhile p = k' := by
  cases k' with
  | nil => rfl
  | cons c rest =>
    have hc : p c = false := by
      rcases hedge with hsame | hend
      · cases k with
        | nil => simp at hsame
        | cons d k =>
          obtain rfl : c = d := by simpa using hsame
          refine Bool.eq_false_iff.mpr fun hpc => ?_
          -- dropping `c` would make `k` shorter
          have hlen : ((c :: k).dropWhile p).length ≤ k.length := by
            rw [List.dropWhile_cons_of_pos hpc]
            exact (List.dropWhile_sublist _).length_le
          rw [h, List.length_cons] at hlen
          omega
      · refine Bool.eq_false_iff.mpr fun hpc => ?_
        have hrun := hend c rfl
        rw [hp c hpc] at hrun
        exact absurd hrun (by simp)
    rw [List.dropWhile_cons_of_neg (by simp [hc])]

/-- A run of characters of one class that ends before or at `k` ends there before `k'` as well. -/
theorem dropWhile_swap {p : Char → Bool} {w k k' r : Text} (hp : ∀ c, p c = true → runsOn c = true)
    (hedge : SameEdge k k') (h : (w ++ k).dropWhile p = r ++ k) :
    (w ++ k').dropWhile p = r ++ k' ∧ (w ++ k').takeWhile p = (w ++ k).takeWhile p := by
  induction w with
  | nil =>
    -- the run has reached `k`, and ends there
    have hr : r = [] := by
      rw [← length_append_le_iff (k := k), ← h]
      exact (List.dropWhile_sublist _).length_le
    subst hr
    have hk' := hedge.dropWhile_eq hp h
    refine ⟨hk', ?_⟩
    have htake : ∀ t : Text, t.dropWhile p = t → t.takeWhile p = [] := by
      intro t ht
      have happ := List.takeWhile_append_dropWhile (p := p) (l := t)
      rw [ht] at happ
      simpa using happ
    rw [List.nil_append, htake k' hk', htake _ h]
  | cons c w ih =>
    rw [List.cons_append] at h ⊢
    by_cases hc : p c = true
    · rw [List.dropWhile_cons_of_pos hc] at h ⊢
      obtain ⟨hdrop, htake⟩ := ih h
      refine ⟨hdrop, ?_⟩
      rw [List.cons_append, List.takeWhile_cons_of_pos hc, List.takeWhile_cons_of_pos hc, htake]
    · rw [List.dropWhile_cons_of_neg hc, ← List.cons_append] at h
      have hr : c :: w = r := List.append_cancel_right h
      subst hr
      rw [List.cons_append, List.takeWhile_cons_of_neg hc, List.dropWhile_cons_of_neg hc,
        List.cons_append, List.takeWhile_cons_of_neg hc]
      exact ⟨rfl, rfl⟩

theorem runsOn_of_isNameRest (c : Char) (h : isNameRest c = true) : runsOn c = true := by
  simp [runsOn, h]

theorem runsOn_of_isNumberRest (c : Char) (h : isNumberRest c = true) : runsOn c = true := by
  simp [runsOn, h]

theorem splitName?_swap {w k k' word r : Text} (hedge : SameEdge k k') (hw : w ≠ [])
    (h : splitName? (w ++ k) = some (word, r ++ k)) : splitName? (w ++ k') = some (word, r ++ k') := by
  obtain ⟨c, w, rfl⟩ := List.exists_cons_of_ne_nil hw
  rw [List.cons_append, splitName?] at h ⊢
  split at h
  · rename_i hc
    simp only [Option.some.injEq, Prod.mk.injEq] at h
    obtain ⟨hdrop, htake⟩ := dropWhile_swap runsOn_of_isNameRest hedge h.2
    rw [if_pos hc, htake, hdrop, h.1]
  · simp at h

theorem splitName?_none_swap {w k k' : Text} (hedge : SameEdge k k')
    (h : splitName? (w ++ k) = none) : splitName? (w ++ k') = none := by
  cases w with
  | nil =>
    cases k' with
    | nil => rfl
    | cons c rest =>
      have hc : isNameStart c = false := by
        rcases hedge with hsame | hend
        · cases k with
          | nil => simp at hsame
          | cons d k =>
            obtain rfl : c = d := by simpa using hsame
            refine Bool.eq_false_iff.mpr fun hstart => ?_
            simp [splitName?, hstart] at h
        · have hrun := hend c rfl
          simp only [runsOn, Bool.or_eq_false_iff] at hrun
          exact hrun.1.1.1
      rw [List.nil_append, splitName?, if_neg (by simp [hc])]
  | cons c w =>
    rw [List.cons_append, splitName?] at h ⊢
    split at h
    · simp at h
    · rename_i hc
      rw [if_neg hc]

/-- The number at the front, told by its first character and the one after it. -/
theorem splitNumber?_cons (c : Char) (t : Text) :
    splitNumber? (c :: t) =
      if isDecimal c then some (c :: t.takeWhile isNumberRest, t.dropWhile isNumberRest)
      else if c = '.' ∧ t.head?.any isDecimal then
        some (c :: (t.take 1 ++ (t.drop 1).takeWhile isNumberRest), (t.drop 1).dropWhile isNumberRest)
      else none := by
  cases t with
  | nil => simp [splitNumber?]
  | cons d t => simp [splitNumber?]

theorem SameEdge.any_isDecimal {k k' : Text} (hedge : SameEdge k k')
    (h : k'.head?.any isDecimal = true) : k.head?.any isDecimal = true := by
  rcases hedge with hsame | hend
  · rwa [← hsame]
  · rw [Option.any_eq_true] at h
    obtain ⟨c, hc, hdec⟩ := h
    have hrun := hend c hc
    simp [runsOn, hdec] at hrun

theorem splitNumber?_swap {w k k' word r : Text} (hedge : SameEdge k k') (hw : w ≠ [])
    (h : splitNumber? (w ++ k) = some (word, r ++ k)) :
    splitNumber? (w ++ k') = some (word, r ++ k') := by
  obtain ⟨c, w, rfl⟩ := List.exists_cons_of_ne_nil hw
  rw [List.cons_append, splitNumber?_cons] at h ⊢
  split at h
  · rename_i hc
    simp only [Option.some.injEq, Prod.mk.injEq] at h
    obtain ⟨hdrop, htake⟩ := dropWhile_swap runsOn_of_isNumberRest hedge h.2
    rw [if_pos hc, htake, hdrop, h.1]
  · rename_i hc
    split at h
    · rename_i hpoint
      simp only [Option.some.injEq, Prod.mk.injEq] at h
      cases w with
      | nil =>
        -- the digit after the point would be the first character of `k`, and is read
        have hlen : (r ++ k).length ≤ (k.drop 1).length := by
          rw [← h.2]
          exact (List.dropWhile_sublist _).length_le
        have hk : k ≠ [] := by
          rintro rfl
          simp at hpoint
        have hpos : 0 < k.length := List.length_pos_iff.mpr hk
        rw [List.length_append, List.length_drop] at hlen
        omega
      | cons d w =>
        obtain ⟨hdrop, htake⟩ := dropWhile_swap runsOn_of_isNumberRest hedge h.2
        have hpoint' : c = '.' ∧ (d :: w ++ k').head?.any isDecimal = true := by simpa using hpoint
        have hword : c :: ([d] ++ (w ++ k).takeWhile isNumberRest) = word := by simpa using h.1
        rw [if_neg hc, if_pos hpoint', ← hword, ← htake, ← hdrop]
        rfl
    · simp at h

theorem splitNumber?_none_swap {w k k' : Text} (hedge : SameEdge k k') (hw : w ≠ [])
    (h : splitNumber? (w ++ k) = none) : splitNumber? (w ++ k') = none := by
  obtain ⟨c, w, rfl⟩ := List.exists_cons_of_ne_nil hw
  rw [List.cons_append, splitNumber?_cons] at h ⊢
  split at h
  · simp at h
  · rename_i hc
    split at h
    · simp at h
    · rename_i hpoint
      have hpoint' : ¬(c = '.' ∧ (w ++ k').head?.any isDecimal = true) := by
        rintro ⟨hdot, hdec⟩
        refine hpoint ⟨hdot, ?_⟩
        cases w with
        | nil => exact hedge.any_isDecimal hdec
        | cons d w => exact hdec
      rw [if_neg hc, if_neg hpoint']

theorem splitWord?_swap {w k k' word r : Text} (hedge : SameEdge k k') (hw : w ≠ [])
    (h : splitWord? (w ++ k) = some (word, r ++ k)) : splitWord? (w ++ k') = some (word, r ++ k') := by
  rw [splitWord?, Option.or_eq_some_iff] at h ⊢
  rcases h with hname | ⟨hname, hnumber⟩
  · exact .inl (splitName?_swap hedge hw hname)
  · exact .inr ⟨splitName?_none_swap hedge hname, splitNumber?_swap hedge hw hnumber⟩

theorem splitWord?_none_swap {w k k' : Text} (hedge : SameEdge k k') (hw : w ≠ [])
    (h : splitWord? (w ++ k) = none) : splitWord? (w ++ k') = none := by
  rw [splitWord?, Option.or_eq_none_iff] at h ⊢
  exact ⟨splitName?_none_swap hedge h.1, splitNumber?_none_swap hedge hw h.2⟩

/-! ## Strings and regular expressions -/

/-- Induction on a text in which a backslash takes the next character with it. -/
@[elab_as_elim]
theorem escapeInduction {motive : Text → Prop} (nil : motive []) (lone : motive ['\\'])
    (escape : ∀ c t, motive t → motive ('\\' :: c :: t))
    (plain : ∀ c t, c ≠ '\\' → motive t → motive (c :: t)) : ∀ t, motive t
  | [] => nil
  | [c] =>
    if hc : c = '\\' then hc ▸ lone else plain c [] hc nil
  | c :: d :: t =>
    if hc : c = '\\' then hc ▸ escape d t (escapeInduction nil lone escape plain t)
    else plain c (d :: t) hc (escapeInduction nil lone escape plain (d :: t))

theorem readString_plain {quote c : Char} (hc : c ≠ '\\') (t : Text) :
    readString quote (c :: t) =
      if c = quote then .closed t else if c = '\n' then .cut (c :: t) else readString quote t := by
  rw [readString]
  · intro hback
    exact absurd hback hc
  · intro d rest hback
    exact absurd hback hc

theorem readString_escape (quote c : Char) (t : Text) :
    readString quote ('\\' :: c :: t) = readString quote t := by
  rw [readString]

/-- A closed string ends with its quote. -/
theorem readString_closed_split {quote : Char} {t rest : Text} (h : readString quote t = .closed rest) :
    ∃ body, t = body ++ quote :: rest := by
  induction t using escapeInduction with
  | nil => simp [readString] at h
  | lone => simp [readString] at h
  | escape c t ih =>
    rw [readString_escape] at h
    obtain ⟨body, rfl⟩ := ih h
    exact ⟨'\\' :: c :: body, rfl⟩
  | plain c t hc ih =>
    rw [readString_plain hc] at h
    split at h
    · rename_i hquote
      obtain rfl := StringEnd.closed.inj h
      exact ⟨[], by rw [hquote, List.nil_append]⟩
    · split at h
      · simp at h
      · obtain ⟨body, rfl⟩ := ih h
        exact ⟨c :: body, rfl⟩

theorem readString_closed_length {quote : Char} {t rest : Text}
    (h : readString quote t = .closed rest) : rest.length < t.length := by
  obtain ⟨body, rfl⟩ := readString_closed_split h
  simp only [List.length_append, List.length_cons]
  omega

/-- A string that is closed before `k` does not depend on it. -/
theorem readString_closed_swap {quote : Char} {w k r : Text} (k' : Text)
    (h : readString quote (w ++ k) = .closed (r ++ k)) :
    readString quote (w ++ k') = .closed (r ++ k') := by
  induction w using escapeInduction with
  | nil =>
    have hlen := readString_closed_length h
    simp only [List.nil_append, List.length_append] at hlen
    omega
  | lone =>
    -- the backslash takes a character of `k`, and too little is left
    cases k with
    | nil => simp [readString] at h
    | cons c k =>
      rw [List.cons_append, List.nil_append, readString_escape] at h
      have hlen := readString_closed_length h
      simp only [List.length_append, List.length_cons] at hlen
      omega
  | escape c w ih =>
    rw [List.cons_append, List.cons_append, readString_escape] at h ⊢
    exact ih h
  | plain c w hc ih =>
    rw [List.cons_append, readString_plain hc] at h ⊢
    split at h
    · rename_i hquote
      have hw : w = r := List.append_cancel_right (StringEnd.closed.inj h)
      rw [if_pos hquote, hw]
    · rename_i hquote
      split at h
      · simp at h
      · rename_i hfeed
        rw [if_neg hquote, if_neg hfeed]
        exact ih h

/-- A string that its line cuts is cut at the end of the text or at a line feed. -/
def EndsLine (t : Text) : Prop :=
  t.head? = none ∨ t.head? = some '\n'

theorem readString_cut_of_endsLine {quote : Char} (hquote : quote ≠ '\n') {t : Text} (h : EndsLine t) :
    readString quote t = .cut t := by
  rcases h with h | h
  · obtain rfl : t = [] := by simpa using h
    rfl
  · obtain ⟨rest, rfl⟩ := List.head?_eq_some_iff.mp h
    rw [readString_plain (by decide), if_neg (Ne.symm hquote), if_pos rfl]

theorem endsLine_of_cut {quote : Char} {t rest : Text} (h : readString quote t = .cut rest) : EndsLine rest := by
  induction t using escapeInduction with
  | nil | lone =>
    obtain rfl : [] = rest := StringEnd.cut.inj h
    exact .inl rfl
  | escape c t ih =>
    rw [readString_escape] at h
    exact ih h
  | plain c t hc ih =>
    rw [readString_plain hc] at h
    split at h
    · simp at h
    · split at h
      · rename_i hfeed
        rw [← StringEnd.cut.inj h, hfeed]
        exact .inr rfl
      · exact ih h

/-- A string that is cut before or at `k` is cut there as long as its line still ends there. -/
theorem readString_cut_swap {quote : Char} (hquote : quote ≠ '\n') {w k k' r : Text} (hk : k ≠ [])
    (hline : EndsLine (r ++ k')) (h : readString quote (w ++ k) = .cut (r ++ k)) :
    readString quote (w ++ k') = .cut (r ++ k') := by
  induction w using escapeInduction with
  | nil =>
    have hr : r = [] := by
      have hlen := readString_length quote ([] ++ k)
      rw [h, StringEnd.rest, List.nil_append] at hlen
      exact length_append_le_iff.mp hlen
    subst hr
    exact readString_cut_of_endsLine hquote hline
  | lone =>
    -- the backslash would take the first character of `k`, and the string could not end before `k`
    obtain ⟨c, k, rfl⟩ := List.exists_cons_of_ne_nil hk
    rw [List.cons_append, List.nil_append, readString_escape] at h
    have hlen := readString_length quote k
    rw [h] at hlen
    simp only [StringEnd.rest, List.length_append, List.length_cons] at hlen
    omega
  | escape c w ih =>
    rw [List.cons_append, List.cons_append, readString_escape] at h ⊢
    exact ih h
  | plain c w hc ih =>
    rw [List.cons_append, readString_plain hc] at h ⊢
    split at h
    · simp at h
    · rename_i hq
      split at h
      · rename_i hfeed
        have hw : c :: w = r := by
          have heq := StringEnd.cut.inj h
          rw [← List.cons_append] at heq
          exact List.append_cancel_right heq
        rw [if_neg hq, if_pos hfeed, ← hw, List.cons_append]
      · rename_i hfeed
        rw [if_neg hq, if_neg hfeed]
        exact ih h

theorem readRegex_plain {inClass : Bool} {c : Char} (hc : c ≠ '\\') (t : Text) :
    readRegex inClass (c :: t) =
      if c = '\n' then none
      else if c = '[' then readRegex true t
      else if c = ']' then readRegex false t
      else if c = '/' ∧ inClass = false then
        match splitName? t with
        | some (_, after) => some after
        | none => some t
      else readRegex inClass t := by
  rw [readRegex.eq_def]
  split
  · simp_all
  · simp_all
  · simp_all
  · rename_i d u _ _ hcons
    obtain ⟨rfl, rfl⟩ := List.cons.inj hcons
    rfl

theorem readRegex_escape (inClass : Bool) (c : Char) (t : Text) :
    readRegex inClass ('\\' :: c :: t) = readRegex inClass t := by
  rw [readRegex]

private theorem flags_swap {w k k' r : Text} (hedge : SameEdge k k')
    (h : (match splitName? (w ++ k) with
      | some (_, after) => some after
      | none => some (w ++ k)) = some (r ++ k)) :
    (match splitName? (w ++ k') with
      | some (_, after) => some after
      | none => some (w ++ k')) = some (r ++ k') := by
  split at h
  · rename_i word after hname
    obtain rfl : after = r ++ k := by simpa using h
    -- the flags take at least one character, which is not one of `k`
    have hw : w ≠ [] := by
      rintro rfl
      have hlen := splitName?_length hname
      rw [List.nil_append, List.length_append] at hlen
      omega
    rw [splitName?_swap hedge hw hname]
  · rename_i hname
    obtain rfl : w = r := List.append_cancel_right (Option.some.inj h)
    rw [splitName?_none_swap hedge hname]

/-- A regular expression that is closed before `k` does not depend on it, its flags apart. -/
theorem readRegex_swap {inClass : Bool} {w k k' r : Text} (hedge : SameEdge k k')
    (h : readRegex inClass (w ++ k) = some (r ++ k)) : readRegex inClass (w ++ k') = some (r ++ k') := by
  -- what is left of a text is shorter than the text, so it cannot hold all of `k`
  have hlong : ∀ t : Text, ∀ b, t.length ≤ k.length → readRegex b t ≠ some (r ++ k) := by
    intro t b ht hread
    have hlen := readRegex_length hread
    rw [List.length_append] at hlen
    omega
  induction w using escapeInduction generalizing inClass with
  | nil => exact absurd h (hlong k inClass (Nat.le_refl _))
  | lone =>
    cases k with
    | nil => simp [readRegex] at h
    | cons c k =>
      rw [List.cons_append, List.nil_append, readRegex_escape] at h
      exact absurd h (hlong k inClass (by simp))
  | escape c w ih =>
    rw [List.cons_append, List.cons_append, readRegex_escape] at h ⊢
    exact ih h
  | plain c w hc ih =>
    rw [List.cons_append, readRegex_plain hc] at h ⊢
    split at h
    · simp at h
    · rename_i hfeed
      rw [if_neg hfeed]
      split at h
      · rename_i hopen
        rw [if_pos hopen]
        exact ih h
      · rename_i hopen
        rw [if_neg hopen]
        split at h
        · rename_i hclose
          rw [if_pos hclose]
          exact ih h
        · rename_i hclose
          rw [if_neg hclose]
          split at h
          · rename_i hslash
            rw [if_pos hslash]
            exact flags_swap hedge h
          · rename_i hslash
            rw [if_neg hslash]
            exact ih h

/-! ## What is left is a tail -/

theorem readString_suffix (quote : Char) (t : Text) : (readString quote t).rest <:+ t := by
  induction t using escapeInduction with
  | nil => exact List.suffix_refl _
  | lone => exact List.nil_suffix
  | escape c t ih =>
    rw [readString_escape]
    exact ih.trans ⟨['\\', c], rfl⟩
  | plain c t hc ih =>
    rw [readString_plain hc]
    split
    · exact List.suffix_cons c t
    · split
      · exact List.suffix_refl _
      · exact ih.trans (List.suffix_cons c t)

theorem splitName?_suffix {t word rest : Text} (h : splitName? t = some (word, rest)) : rest <:+ t :=
  ⟨word, (splitName?_append h).1⟩

theorem splitWord?_suffix {t word rest : Text} (h : splitWord? t = some (word, rest)) : rest <:+ t :=
  ⟨word, (splitWord?_append h).1⟩

/-- A regular expression that a text does not close is not closed in the front of the text. -/
theorem readRegex_none_of_append {inClass : Bool} {t k : Text} (h : readRegex inClass (t ++ k) = none) :
    readRegex inClass t = none := by
  induction t using escapeInduction generalizing inClass with
  | nil | lone => rfl
  | escape c t ih =>
    rw [List.cons_append, List.cons_append, readRegex_escape] at h
    rw [readRegex_escape]
    exact ih h
  | plain c t hc ih =>
    rw [List.cons_append, readRegex_plain hc] at h
    rw [readRegex_plain hc]
    split at h
    · rename_i hfeed
      rw [if_pos hfeed]
    · rename_i hfeed
      rw [if_neg hfeed]
      split at h
      · rename_i hopen
        rw [if_pos hopen]
        exact ih h
      · rename_i hopen
        rw [if_neg hopen]
        split at h
        · rename_i hclose
          rw [if_pos hclose]
          exact ih h
        · rename_i hclose
          rw [if_neg hclose]
          split at h
          · -- the longer text closes it here
            split at h <;> simp at h
          · rename_i hslash
            rw [if_neg hslash]
            exact ih h

theorem readRegex_suffix {inClass : Bool} {t rest : Text} (h : readRegex inClass t = some rest) :
    rest <:+ t := by
  induction t using escapeInduction generalizing inClass with
  | nil => simp [readRegex] at h
  | lone => simp [readRegex] at h
  | escape c t ih =>
    rw [readRegex_escape] at h
    exact (ih h).trans ⟨['\\', c], rfl⟩
  | plain c t hc ih =>
    rw [readRegex_plain hc] at h
    refine List.IsSuffix.trans ?_ (List.suffix_cons c t)
    split at h
    · simp at h
    · split at h
      · exact ih h
      · split at h
        · exact ih h
        · split at h
          · split at h
            · rename_i hname
              obtain rfl := Option.some.inj h
              exact splitName?_suffix hname
            · obtain rfl := Option.some.inj h
              exact List.suffix_refl _
          · exact ih h

end ImportOrder.Source
