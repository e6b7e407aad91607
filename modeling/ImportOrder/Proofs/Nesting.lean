import ImportOrder.Proofs.Faults
import ImportOrder.Source.Statement

/-!
# What the stack decides

The stack decides about nothing but whether it runs out. It runs out only where more template literals are open at
once than it has room for, so never in a text that holds no more of their marks; but templates that open one inside the
other need all of that room. What is read with less room is read the same with more.
-/

namespace ImportOrder.Source

/-! ## Where the stack runs out -/

section

variable {strict : Bool} {state : State} {c : Char} {t rest : Text} {fault : Fault}

theorem count_of_suffix {t u : Text} (h : u <:+ t) : u.count templateMark ≤ t.count templateMark :=
  h.sublist.count_le templateMark

theorem readPlain_part (h : readPlain strict state c rest = .error fault) : fault.part ≠ .nesting := by
  unfold readPlain at h
  split at h
  · split at h
    · simp at h
    · split at h
      · rw [← Except.error.inj h]
        simp
      · simp at h
  · split at h
    · simp at h
    · split at h <;> simp at h

theorem cutTemplates_part {top : Frame} {outer : List Frame} (h : cutTemplates strict top outer = .error fault) :
    fault.part ≠ .nesting := by
  unfold cutTemplates at h
  split at h
  · rw [← Except.error.inj h]
    simp
  · simp at h

theorem skipAttributes_part (h : skipAttributes t = .error fault) : fault.part ≠ .nesting := by
  unfold skipAttributes at h
  split at h
  · simp at h
  · split at h
    · split at h
      · simp at h
      · split at h
        · split at h
          · rw [← Except.error.inj h]
            simp
          · simp at h
        · simp at h
    · simp at h

end

section

variable [Stack] {strict : Bool} {state : State} {c : Char} {t rest : Text} {fault : Fault}

/-- Every template that is open was opened by a mark. -/
theorem readTemplates_room {mode : Mode} {top : Frame} {outer : List Frame}
    (h : readTemplates strict mode top outer t = .error fault) (hpart : fault.part = .nesting) :
    Stack.room ≤ outer.length + t.count templateMark := by
  fun_induction readTemplates strict mode top outer t with
  | case1 => exact absurd hpart (cutTemplates_part h)
  | case2 _ _ r ih =>
    have := ih h
    have := count_of_suffix ((List.drop_suffix 1 r).trans (List.suffix_cons '\\' r))
    omega
  | case3 _ _ r ih =>
    have := ih h
    have : r.count templateMark ≤ ('$' :: '\x7b' :: r).count templateMark := count_of_suffix ⟨['$', '\x7b'], rfl⟩
    omega
  | case4 => simp at h
  | case5 _ r next outer _ _ ih =>
    have := ih h
    have := count_of_suffix (List.suffix_cons templateMark r)
    rw [List.length_cons]
    omega
  | case6 _ _ c r _ _ _ ih =>
    have := ih h
    have := count_of_suffix (List.suffix_cons c r)
    omega
  | case7 =>
    rw [← Except.error.inj h] at hpart
    simp at hpart
  | case8 | case9 => exact absurd hpart (cutTemplates_part h)
  | case10 _ _ _ _ c r hskip _ ih =>
    have := ih h
    have := count_of_suffix ((List.suffix_cons c r).trans (skip_suffix hskip))
    omega
  | case11 _ _ _ _ r _ hskip _ ih =>
    -- the mark that opens one more template is taken from the text
    have hle := ih h
    have hcount := count_of_suffix (skip_suffix hskip)
    rw [List.count_cons_self] at hcount
    rw [List.length_cons] at hle
    omega
  | case12 _ _ _ _ r hroom hskip _ =>
    have hcount := count_of_suffix (skip_suffix hskip)
    rw [List.count_cons_self] at hcount
    omega
  | case13 _ _ _ _ _ _ _ _ _ fault' hread =>
    obtain rfl := Except.error.inj h
    exact absurd hpart (readPlain_part hread)
  | case14 _ _ _ _ c r hskip _ _ _ _ hread ih =>
    have := ih h
    have := count_of_suffix ((readPlain_suffix hread).trans ((List.suffix_cons c r).trans (skip_suffix hskip)))
    omega

theorem readToken_room (h : readToken strict state c rest = .error fault) (hpart : fault.part = .nesting) :
    Stack.room < (c :: rest).count templateMark := by
  unfold readToken at h
  split at h
  · rename_i hmark
    rw [hmark, List.count_cons_self]
    split at h
    · have := readTemplates_room h hpart
      simp only [List.length_nil] at this
      omega
    · omega
  · exact absurd hpart (readPlain_part h)

theorem findSpecifier_room {whole : Text} (h : findSpecifier whole state t = .error fault)
    (hpart : fault.part = .nesting) : Stack.room < t.count templateMark := by
  fun_induction findSpecifier whole state t with
  | case1 | case2 =>
    rw [← Except.error.inj h] at hpart
    simp at hpart
  | case3 | case4 => simp at h
  | case5 _ _ _ _ hskip _ _ _ hread =>
    obtain rfl := Except.error.inj h
    exact Nat.lt_of_lt_of_le (readToken_room hread hpart) (count_of_suffix (skip_suffix hskip))
  | case6 _ _ c r hskip _ _ _ _ hread ih =>
    have hrest := (readToken_suffix hread).trans ((List.suffix_cons c r).trans (skip_suffix hskip))
    exact Nat.lt_of_lt_of_le (ih h) (count_of_suffix hrest)

theorem readDeclaration_room (h : readDeclaration t = .error fault) (hpart : fault.part = .nesting) :
    Stack.room < t.count templateMark := by
  unfold readDeclaration at h
  split at h
  · rename_i fault' hfind
    obtain rfl := Except.error.inj h
    exact Nat.lt_of_lt_of_le (findSpecifier_room hfind hpart) (count_of_suffix (List.drop_suffix _ t))
  · simp at h
  · simp at h
  · split at h
    · rw [← Except.error.inj h] at hpart
      simp at hpart
    · split at h
      · rename_i fault' hattributes
        obtain rfl := Except.error.inj h
        exact absurd hpart (skipAttributes_part hattributes)
      · simp at h

/-- The stack runs out only in a text with more marks of templates than there is room for templates. -/
theorem pieces_room (h : pieces state t = .error fault) (hpart : fault.part = .nesting) :
    Stack.room < t.count templateMark := by
  fun_induction pieces state t with
  | case1 => simp at h
  | case2 state t c rest hdrop fault' hdecl =>
    have htail := Trivia.drop_suffix t
    rw [hdrop] at htail
    obtain rfl := Except.error.inj h
    unfold declarationAt at hdecl
    split at hdecl
    · exact Nat.lt_of_lt_of_le (readDeclaration_room hdecl hpart) (count_of_suffix htail)
    · simp at hdecl
  | case3 state t c rest hdrop path after hdecl fault' hothers ih =>
    have htail := Trivia.drop_suffix t
    rw [hdrop] at htail
    obtain rfl := Except.error.inj h
    exact Nat.lt_of_lt_of_le (ih hothers) (count_of_suffix ((declarationAt_properTail hdecl).1.trans htail))
  | case4 => simp at h
  | case5 state t c rest hdrop hdecl fault' hread =>
    have htail := Trivia.drop_suffix t
    rw [hdrop] at htail
    obtain rfl := Except.error.inj h
    exact Nat.lt_of_lt_of_le (readToken_room hread hpart) (count_of_suffix htail)
  | case6 state t c rest hdrop hdecl next after hread fault' hothers ih =>
    have htail := Trivia.drop_suffix t
    rw [hdrop] at htail
    obtain rfl := Except.error.inj h
    have hafter := ((readToken_suffix hread).trans (List.suffix_cons c rest)).trans htail
    exact Nat.lt_of_lt_of_le (ih hothers) (count_of_suffix hafter)
  | case7 => simp at h

end

/-! ## Templates inside templates -/

/-- So many templates, each opened in a hole of the one before. -/
def openings : Nat → Text
  | 0 => []
  | n + 1 => templateMark :: '$' :: '\x7b' :: openings n

theorem count_openings (n : Nat) : (openings n).count templateMark = n := by
  induction n with
  | zero => rfl
  | succ n ih =>
    rw [openings, List.count_cons_self, List.count_cons_of_ne (by decide), List.count_cons_of_ne (by decide), ih]

theorem skip_openings (n : Nat) : Trivia.skip (openings (n + 1)) = .reached (openings (n + 1)) :=
  Trivia.skip_token ⟨by decide, fun hc => absurd hc (by decide)⟩

/-- In a hole, templates that open one inside the other end where the stack has no room for one more. -/
theorem readTemplates_openings [Stack] {strict : Bool} {state : State} {top : Frame} {outer : List Frame} {n : Nat}
    (hroom : outer.length + 1 ≤ Stack.room) (h : Stack.room < outer.length + 1 + n) :
    ∃ tail, readTemplates strict (.hole state) top outer (openings n) = .error ⟨.nesting, tail⟩ := by
  induction n generalizing state top outer with
  | zero => omega
  | succ n ih =>
    by_cases hinner : outer.length + 2 ≤ Stack.room
    · rw [readTemplates_inner (skip_openings n) hinner, readTemplates_enter]
      exact ih (by rw [List.length_cons]; omega) (by rw [List.length_cons]; omega)
    · exact ⟨_, readTemplates_nesting (skip_openings n) hinner⟩

theorem readToken_openings [Stack] {strict : Bool} {state : State} {n : Nat} (h : Stack.room < n + 1) :
    ∃ tail, readToken strict state templateMark ('$' :: '\x7b' :: openings n) = .error ⟨.nesting, tail⟩ := by
  unfold readToken
  rw [if_pos rfl]
  split
  · rename_i hroom
    rw [readTemplates_enter]
    exact readTemplates_openings hroom (by rw [List.length_nil]; omega)
  · exact ⟨_, rfl⟩

/-! ## More room -/

/-- What comes of reading with more room: the same, unless the stack with less room has run out. -/
def SameWithRoom {α : Type} (less more : Except Fault α) : Prop :=
  (∃ fault, less = .error fault ∧ fault.part = .nesting) ∨ more = less

namespace SameWithRoom

variable {α β : Type} {more : Except Fault α}

theorem ok {a : α} (h : SameWithRoom (.ok a) more) : more = .ok a := by
  rcases h with ⟨_, hfault, -⟩ | hmore
  · exact absurd hfault (by simp)
  · exact hmore

theorem error {fault : Fault} (h : SameWithRoom (.error fault) more) : fault.part = .nesting ∨ more = .error fault := by
  rcases h with ⟨_, hfault, hpart⟩ | hmore
  · exact .inl (Except.error.inj hfault ▸ hpart)
  · exact .inr hmore

theorem map {less : Except Fault α} (h : SameWithRoom less more) (f : α → β) :
    SameWithRoom (less.map f) (more.map f) := by
  rcases h with ⟨fault, rfl, hpart⟩ | rfl
  · exact .inl ⟨fault, rfl, hpart⟩
  · exact .inr rfl

/-- The same fault, unless the stack has run out. -/
theorem of_error {fault : Fault} (h : fault.part = .nesting ∨ more = .error fault) :
    SameWithRoom (.error fault) more :=
  h.imp (fun hpart => ⟨fault, rfl, hpart⟩) id

end SameWithRoom

section

variable {less more : Stack} (hroom : less.room ≤ more.room)

include hroom

theorem readTemplates_roomier (strict : Bool) (mode : Mode) (top : Frame) (outer : List Frame) (t : Text) :
    SameWithRoom (@readTemplates less strict mode top outer t) (@readTemplates more strict mode top outer t) := by
  fun_induction @readTemplates less strict mode top outer t with
  | case1 => exact .inr (@readTemplates_nil more _ _ _)
  | case2 _ _ _ ih =>
    rw [@readTemplates_escape more]
    exact ih
  | case3 _ _ _ ih =>
    rw [@readTemplates_enter more]
    exact ih
  | case4 => exact .inr (@readTemplates_end more _ _ _)
  | case5 _ _ _ _ _ _ ih =>
    rw [@readTemplates_endInner more]
    exact ih
  | case6 _ _ _ _ hback henter hmark ih =>
    rw [@readTemplates_char more _ _ _ _ _ (fun hc => hback hc) hmark (head?_ne_brace henter)]
    exact ih
  | case7 _ _ _ _ _ hskip hstrict =>
    rw [@readTemplates_unclosed more _ _ _ _ _ _ hskip, if_pos hstrict]
    exact .inr rfl
  | case8 _ _ _ _ _ hskip hstrict =>
    rw [@readTemplates_unclosed more _ _ _ _ _ _ hskip, if_neg hstrict]
    exact .inr rfl
  | case9 _ _ _ _ hskip => exact .inr (@readTemplates_end_of_hole more _ _ _ _ _ hskip)
  | case10 _ _ _ _ _ _ hskip hleave ih =>
    obtain ⟨rfl, hdepth⟩ := hleave
    rw [@readTemplates_leave more _ _ _ _ _ _ hskip hdepth]
    exact ih
  | case11 _ _ _ _ _ hfits hskip _ ih =>
    rw [@readTemplates_inner more _ _ _ _ _ _ hskip (Nat.le_trans hfits hroom)]
    exact ih
  | case12 => exact .inl ⟨_, rfl, rfl⟩
  | case13 _ _ _ _ _ _ hskip hleave hmark fault hread =>
    exact .inr (@readTemplates_plain_error more _ _ _ _ _ _ _ _ hskip hleave hmark hread)
  | case14 _ _ _ _ _ _ hskip hleave hmark _ _ hread ih =>
    rw [@readTemplates_plain more _ _ _ _ _ _ _ _ _ hskip hleave hmark hread]
    exact ih

theorem readToken_roomier (strict : Bool) (state : State) (c : Char) (rest : Text) :
    SameWithRoom (@readToken less strict state c rest) (@readToken more strict state c rest) := by
  unfold readToken
  split
  · split
    · rename_i hfits
      rw [if_pos (Nat.le_trans hfits hroom)]
      exact readTemplates_roomier hroom _ _ _ _ _
    · exact .inl ⟨_, rfl, rfl⟩
  · exact .inr rfl

theorem findSpecifier_roomier (whole : Text) (state : State) (t : Text) :
    SameWithRoom (@findSpecifier less whole state t) (@findSpecifier more whole state t) := by
  fun_induction @findSpecifier less whole state t with
  | case1 _ _ _ hskip => exact .inr (@findSpecifier_unclosed more _ _ _ _ hskip)
  | case2 _ _ hskip => exact .inr (@findSpecifier_end more _ _ _ hskip)
  | case3 _ _ _ _ hskip hquote => exact .inr (@findSpecifier_quote more _ _ _ _ _ hskip hquote)
  | case4 _ _ _ _ hskip _ hstop => exact .inr (@findSpecifier_stop more _ _ _ _ _ hskip hstop)
  | case5 state _ c rest hskip hquote hstop fault hread =>
    rw [@findSpecifier_read more _ _ _ _ _ hskip (by simpa using hquote) hstop]
    have htoken := (hread ▸ readToken_roomier hroom true state c rest).error
    exact .of_error (htoken.imp_right fun hmore => by rw [hmore, Except.bind])
  | case6 state _ c rest hskip hquote hstop after rest' hread ih =>
    have htoken := (hread ▸ readToken_roomier hroom true state c rest).ok
    rw [@findSpecifier_read more _ _ _ _ _ hskip (by simpa using hquote) hstop, htoken]
    exact ih

theorem readDeclaration_roomier (t : Text) : SameWithRoom (@readDeclaration less t) (@readDeclaration more t) := by
  unfold readDeclaration
  rcases findSpecifier_roomier hroom t ⟨0, .word importWord⟩ (t.drop importWord.length) with
    ⟨fault, hless, hpart⟩ | hmore
  · exact .inl ⟨fault, by rw [hless], hpart⟩
  · exact .inr (by rw [hmore])

theorem declarationAt_roomier (state : State) (t : Text) :
    SameWithRoom (@declarationAt less state t) (@declarationAt more state t) := by
  unfold declarationAt
  split
  · exact readDeclaration_roomier hroom t
  · exact .inr rfl

theorem pieces_roomier (state : State) (t : Text) :
    SameWithRoom (@pieces less state t) (@pieces more state t) := by
  induction hlen : t.length using Nat.strongRecOn generalizing state t with
  | ind n ih =>
    subst hlen
    cases hdrop : Trivia.drop t with
    | nil => exact .inr (by rw [@pieces_of_drop_nil less _ _ hdrop, @pieces_of_drop_nil more _ _ hdrop])
    | cons c rest =>
      have hlen := Trivia.drop_length t
      rw [hdrop] at hlen
      have hdecl := declarationAt_roomier hroom state (c :: rest)
      cases hless : @declarationAt less state (c :: rest) with
      | error fault =>
        rw [@pieces_of_error less _ _ _ _ hdrop hless]
        exact .of_error ((hless ▸ hdecl).error.imp_right (@pieces_of_error more _ _ _ _ hdrop))
      | ok found =>
        have hmore := (hless ▸ hdecl).ok
        cases found with
        | some declaration =>
          have hshort := (@declarationAt_properTail less _ _ _ _ hless).2
          rw [@pieces_of_declaration less _ _ _ _ _ hdrop hless, @pieces_of_declaration more _ _ _ _ _ hdrop hmore]
          exact (ih _ (Nat.lt_of_lt_of_le hshort hlen) _ _ rfl).map _
        | none =>
          have htoken := readToken_roomier hroom false state c rest
          cases hread : @readToken less false state c rest with
          | error fault =>
            rw [@pieces_of_token_error less _ _ _ _ _ hdrop hless hread]
            exact .of_error ((hread ▸ htoken).error.imp_right (@pieces_of_token_error more _ _ _ _ _ hdrop hmore))
          | ok after =>
            have hshort := @readToken_length less _ _ _ _ _ _ hread
            rw [@pieces_of_token less _ _ _ _ _ _ hdrop hless hread,
              @pieces_of_token more _ _ _ _ _ _ hdrop hmore (hread ▸ htoken).ok]
            exact (ih _ (Nat.lt_of_lt_of_le hshort hlen) _ _ rfl).map _

end

end ImportOrder.Source

namespace ImportOrder.Document

open Source

/-- The stack runs out on templates that open one inside the other exactly if they are more than it has room for. -/
theorem parse_openings_iff [Stack] {n : Nat} :
    (∃ error, parse (openings n) = .error error ∧ error.part = .nesting) ↔ Stack.room < n := by
  have hline : dropInterpreterLine (openings n) = openings n := by
    cases n <;> rfl
  unfold parse
  rw [hline]
  constructor
  · rintro ⟨error, hparse, hpart⟩
    split at hparse
    · rename_i fault hpieces
      rw [← Except.error.inj hparse] at hpart
      have hroom := pieces_room hpieces hpart
      rwa [count_openings] at hroom
    · simp at hparse
  · intro h
    cases n with
    | zero => omega
    | succ n =>
      obtain ⟨tail, hread⟩ : ∃ tail, readToken false State.initial templateMark ('$' :: '\x7b' :: openings n) =
          .error ⟨.nesting, tail⟩ := readToken_openings h
      have hdrop : Trivia.drop (openings (n + 1)) = templateMark :: '$' :: '\x7b' :: openings n :=
        Trivia.drop_eq_cons_iff.mpr (skip_openings n)
      rw [pieces_of_token_error hdrop rfl hread]
      exact ⟨_, rfl, rfl⟩

/-- A source is read the same with more room, unless the stack has run out. -/
theorem parse_roomier {less more : Stack} (hroom : less.room ≤ more.room) (source : Text) :
    (∃ error, @parse less source = .error error ∧ error.part = .nesting) ∨ @parse more source = @parse less source := by
  unfold parse
  rcases pieces_roomier hroom State.initial (dropInterpreterLine source) with ⟨fault, hless, hpart⟩ | hmore
  · exact .inl ⟨_, by rw [hless], hpart⟩
  · exact .inr (by rw [hmore])

end ImportOrder.Document
