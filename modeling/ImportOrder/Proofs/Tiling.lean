import ImportOrder.Proofs.Declarations
import ImportOrder.Proofs.Lines
import ImportOrder.Proofs.Outline
import ImportOrder.Proofs.Slices
import ImportOrder.Source.Statement
import Mathlib.Data.List.Chain
import ImportOrder.Runtime

/-!
# Statements tile the source

Statements stand in order and do not overlap. Each is a part of the source with its own text, lines are
counted by line feeds, and all that stands between statements is trivia.
-/

namespace ImportOrder

open Source

/-! ## Outlines -/

namespace Source.Outline

variable {state : State} {t : Text} {sections : List Section}

/-- The first statement begins where the trivia before it ends. -/
theorem drop_eq [Stack] (h : Outline state t sections) :
    Trivia.drop t = (sections.head?.map fun s => s.piece.start).getD [] := by
  cases h with
  | done hdrop => exact hdrop
  | declaration hdrop => exact hdrop
  | code hdrop => exact hdrop

/-- Every statement is a part of the text that is not empty. -/
theorem forall_suffix [Stack] (h : Outline state t sections) :
    ∀ s ∈ sections, s.piece.start <:+ t ∧ ProperTail s.piece.rest s.piece.start := by
  induction h with
  | done => simp
  | @declaration _ t start rest _ _ hdrop hdecl _ ih =>
    have hstart : start <:+ t := hdrop ▸ Trivia.drop_suffix t
    have hrest := declarationAt_properTail hdecl
    intro s hs
    rcases List.mem_cons.mp hs with rfl | hs
    · exact ⟨hstart, hrest⟩
    · exact ⟨(ih s hs).1.trans (hrest.1.trans hstart), (ih s hs).2⟩
  | @code _ _ t start rest _ _ hdrop hne hrun _ _ ih =>
    have hstart : start <:+ t := hdrop ▸ Trivia.drop_suffix t
    have hrest : ProperTail rest start := by
      have htail := hrun.properTail hne
      rwa [← hdrop, Trivia.drop_drop, hdrop] at htail
    intro s hs
    rcases List.mem_cons.mp hs with rfl | hs
    · exact ⟨hstart, hrest⟩
    · exact ⟨(ih s hs).1.trans (hrest.1.trans hstart), (ih s hs).2⟩

/-- No trivia stands at the front of a statement. -/
theorem forall_drop_eq [Stack] (h : Outline state t sections) :
    ∀ s ∈ sections, Trivia.drop s.piece.start = s.piece.start := by
  induction h with
  | done => simp
  | declaration hdrop _ _ ih =>
    intro s hs
    rcases List.mem_cons.mp hs with rfl | hs
    · rw [← hdrop, Trivia.drop_drop]
    · exact ih s hs
  | code hdrop _ _ _ _ ih =>
    intro s hs
    rcases List.mem_cons.mp hs with rfl | hs
    · rw [← hdrop, Trivia.drop_drop]
    · exact ih s hs

/-- Skipping trivia leads from each statement to the next, and one of the two is a declaration. -/
theorem isChain [Stack] (h : Outline state t sections) :
    sections.IsChain fun s s' =>
      Trivia.drop s.piece.rest = s'.piece.start ∧ (s.piece.path.isSome ∨ s'.piece.path.isSome) := by
  induction h with
  | done => exact .nil
  | declaration _ _ hrest ih =>
    refine List.isChain_cons.mpr ⟨fun s' hs' => ⟨?_, .inl rfl⟩, ih⟩
    have hdrop := hrest.drop_eq
    rwa [show List.head? _ = some s' from hs', Option.map_some, Option.getD_some] at hdrop
  | code _ _ _ hnext hrest ih =>
    refine List.isChain_cons.mpr ⟨fun s' hs' => ⟨?_, .inr (hnext s' hs')⟩, ih⟩
    have hdrop := hrest.drop_eq
    rwa [show List.head? _ = some s' from hs', Option.map_some, Option.getD_some] at hdrop

/-- Closed trivia stands before the first statement. -/
theorem front_split [Stack] (h : Outline state t sections) {s : Section} (hs : sections.head? = some s) :
    ∃ gap, Trivia.Closed gap ∧ t = gap ++ s.piece.start := by
  have hdrop := h.drop_eq
  rw [hs, Option.map_some, Option.getD_some] at hdrop
  have htail := (h.forall_suffix s (List.mem_of_head? hs)).2
  obtain ⟨c, u, hcons⟩ := List.exists_cons_of_ne_nil htail.ne_nil
  obtain ⟨gap, hgap, hsplit, -⟩ := Trivia.closed_of_skip (Trivia.drop_eq_cons_iff.mp (hdrop.trans hcons))
  exact ⟨gap, hgap, by rw [hcons, hsplit]⟩

private theorem drop_last_cons [Stack] {s : Section} (hrest : Outline state s.piece.rest sections)
    (ih : ∀ last ∈ sections.getLast?, Trivia.drop last.piece.rest = []) :
    ∀ last ∈ (s :: sections).getLast?, Trivia.drop last.piece.rest = [] := by
  intro last hlast
  cases sections with
  | nil =>
    obtain rfl : s = last := by simpa using hlast
    exact hrest.drop_eq
  | cons s' sections => exact ih last (by simpa using hlast)

/-- Nothing but trivia follows the last statement. -/
theorem drop_last [Stack] (h : Outline state t sections) :
    ∀ last ∈ sections.getLast?, Trivia.drop last.piece.rest = [] := by
  induction h with
  | done => simp
  | declaration _ _ hrest ih => exact drop_last_cons hrest ih
  | code _ _ _ _ hrest ih => exact drop_last_cons hrest ih

end Source.Outline

/-! ## Statements -/

/-- The statement lies in the source, holds its own text, and knows its lines. -/
structure Statement.Fits (source : Text) (s : Statement) : Prop where
  start_nonneg : 0 ≤ s.start
  start_lt_stop : s.start < s.stop
  stop_le : s.stop ≤ source.length
  text_eq : s.text = source.slice s.start s.stop
  line_eq : s.line = ((source.upTo s.start).count '\n' : Nat)
  endLine_eq : s.endLine = ((source.upTo (s.stop - 1)).count '\n' : Nat)

/-- One statement comes right after another: only closed trivia stands between them, skipping it leads from
the one to the other, and they are not both other code. -/
structure Statement.Follows (source : Text) (s s' : Statement) : Prop where
  stop_le_start : s.stop ≤ s'.start
  gap_closed : Trivia.Closed (source.slice s.stop s'.start)
  drop_eq : Trivia.drop (source.onward s.stop) = source.onward s'.start
  import_or_import : s.isImport ∨ s'.isImport

/-- The statements of a source in order, with trivia between them, before the first and after the last; an
interpreter line may stand before all. -/
structure Tiles (source : Text) (statements : List Statement) : Prop where
  fits : ∀ s ∈ statements, s.Fits source
  follows : statements.IsChain (Statement.Follows source)
  front : ∀ s ∈ statements.head?, ∃ line gap, source.upTo s.start = line ++ gap ∧ Trivia.Closed gap ∧
    (line = [] ∨ ['#', '!'] <+: line ∧ '\n' ∉ line)
  front_drop : Trivia.drop (dropInterpreterLine source) =
    (statements.head?.map fun s => source.onward s.start).getD []
  back : ∀ s ∈ statements.getLast?, Trivia.drop (source.onward s.stop) = []

namespace Document

variable {source : Text} {piece piece' : Piece}

/-- The statement that a piece of the source stands for. -/
abbrev statementIn (source : Text) (piece : Piece) : Statement :=
  statementOf (LineIndex.ofText source) source.length piece

theorem statementIn_start : (statementIn source piece).start = source.offsetOf piece.start := rfl

theorem statementIn_stop : (statementIn source piece).stop = source.offsetOf piece.rest := rfl

theorem statementIn_fits (hstart : piece.start <:+ source)
    (hrest : ProperTail piece.rest piece.start) : (statementIn source piece).Fits source := by
  have hlen := hstart.length_le
  have hlt := hrest.2
  have hstop : source.offsetOf piece.start < source.offsetOf piece.rest := by
    unfold Text.offsetOf
    omega
  refine ⟨?_, ?_, ?_, ?_, ?_, ?_⟩
  · rw [statementIn_start]
    omega
  · rw [statementIn_start, statementIn_stop]
    omega
  · rw [statementIn_stop, Text.offsetOf]
    omega
  · rw [statementIn_start, statementIn_stop, Text.slice_offsetOf hstart hrest.1]
    rfl
  · rw [statementIn_start, Text.upTo, Text.place_natCast, Text.offsetOf, Nat.min_eq_left (by omega)]
    exact LineIndex.lineOf_ofText source _
  · -- the last character of the statement is not before its first
    have hmax : max ((source.offsetOf piece.start : Nat) : Int) (source.offsetOf piece.rest - 1) =
        ((source.offsetOf piece.rest - 1 : Nat) : Int) := by omega
    have hline : (statementIn source piece).endLine = (LineIndex.ofText source).lineOf
        (max ((source.offsetOf piece.start : Nat) : Int) (source.offsetOf piece.rest - 1)) := rfl
    have hcast : ((source.offsetOf piece.rest : Nat) : Int) - 1 =
        ((source.offsetOf piece.rest - 1 : Nat) : Int) := by omega
    have hle : source.offsetOf piece.rest - 1 ≤ source.length := by
      unfold Text.offsetOf
      omega
    rw [hline, hmax, LineIndex.lineOf_ofText, statementIn_stop, hcast, Text.upTo, Text.place_natCast,
      Nat.min_eq_left hle]

theorem statementIn_follows (hrest : piece.rest <:+ source) (hstart : piece'.start ≠ [])
    (hdrop : Trivia.drop piece.rest = piece'.start) (hpath : piece.path.isSome ∨ piece'.path.isSome) :
    (statementIn source piece).Follows source (statementIn source piece') := by
  -- the next statement has a first character, so skipping reached it
  obtain ⟨c, u, hcons⟩ := List.exists_cons_of_ne_nil hstart
  obtain ⟨g, hg, hgap, -⟩ := Trivia.closed_of_skip (Trivia.drop_eq_cons_iff.mp (hdrop.trans hcons))
  have hnext : piece'.start <:+ piece.rest := ⟨g, by rw [hcons, hgap]⟩
  refine ⟨?_, ?_, ?_, hpath⟩
  · rw [statementIn_start, statementIn_stop]
    have := hnext.length_le
    unfold Text.offsetOf
    omega
  · rw [statementIn_start, statementIn_stop, Text.slice_offsetOf hrest hnext, hgap, hcons,
      Text.before_append]
    exact hg
  · rw [statementIn_start, statementIn_stop, Text.onward_offsetOf hrest,
      Text.onward_offsetOf (hnext.trans hrest), hdrop]

/-- The interpreter line, if there is one, is all that stands before the text that is read. -/
theorem dropInterpreterLine_split (source : Text) :
    ∃ line, source = line ++ dropInterpreterLine source ∧
      (line = [] ∨ ['#', '!'] <+: line ∧ '\n' ∉ line) := by
  unfold dropInterpreterLine
  split
  · rename_i rest
    rcases Trivia.fromLineFeed_cases rest with ⟨hfree, hnil⟩ | ⟨body, tail, rfl, hfree, heq⟩
    · exact ⟨'#' :: '!' :: rest, by rw [hnil, List.append_nil], .inr ⟨⟨rest, rfl⟩, by simpa using hfree⟩⟩
    · exact ⟨'#' :: '!' :: body, by rw [heq]; rfl, .inr ⟨⟨body, rfl⟩, by simpa using hfree⟩⟩
  · exact ⟨[], rfl, .inl rfl⟩

/-- A source that is read has an outline, whose statements are those of the document. -/
theorem outline_of_parse [Stack] {document : Document} (h : parse source = .ok document) :
    ∃ sections, Outline State.initial (dropInterpreterLine source) sections ∧
      document.statements = sections.map fun s => statementIn source s.piece := by
  unfold parse at h
  split at h
  · simp at h
  · rename_i found hfound
    obtain ⟨sections, houtline⟩ := outline_of_pieces hfound
    obtain rfl := Except.ok.inj h
    obtain rfl := Except.ok.inj (hfound.symm.trans houtline.pieces_eq)
    refine ⟨sections, houtline, ?_⟩
    rw [houtline.joinCode_eq, List.map_map]
    rfl

theorem dropInterpreterLine_suffix (source : Text) : dropInterpreterLine source <:+ source := by
  obtain ⟨line, hline, -⟩ := dropInterpreterLine_split source
  exact ⟨line, hline.symm⟩

section

variable [Stack] {document : Document} (h : parse source = .ok document)

include h

theorem fits_of_parse : ∀ s ∈ document.statements, s.Fits source := by
  obtain ⟨sections, houtline, hstatements⟩ := outline_of_parse h
  intro s hs
  rw [hstatements] at hs
  obtain ⟨part, hmem, rfl⟩ := List.mem_map.mp hs
  obtain ⟨hstart, hrest⟩ := houtline.forall_suffix part hmem
  exact statementIn_fits (hstart.trans (dropInterpreterLine_suffix source)) hrest

theorem follows_of_parse : document.statements.IsChain (Statement.Follows source) := by
  obtain ⟨sections, houtline, hstatements⟩ := outline_of_parse h
  rw [hstatements, List.isChain_map]
  refine houtline.isChain.imp_of_mem_imp ?_
  rintro s s' hs hs' ⟨hdrop, hpath⟩
  obtain ⟨hstart, hrest⟩ := houtline.forall_suffix s hs
  have htail := hrest.1.trans (hstart.trans (dropInterpreterLine_suffix source))
  exact statementIn_follows htail (houtline.forall_suffix s' hs').2.ne_nil hdrop hpath

/-- The statements of a source start one after another. -/
theorem starts_of_parse : (document.statements.map Statement.start).Pairwise (· < ·) := by
  have hfits := fits_of_parse h
  apply List.isChain_iff_pairwise.mp
  rw [List.isChain_map]
  refine (follows_of_parse h).imp_of_mem_imp ?_
  intro s s' hs _ hfollows
  have hlt := (hfits s hs).start_lt_stop
  have hle := hfollows.stop_le_start
  omega

theorem front_of_parse : ∀ s ∈ document.statements.head?, ∃ line gap,
    source.upTo s.start = line ++ gap ∧ Trivia.Closed gap ∧
      (line = [] ∨ ['#', '!'] <+: line ∧ '\n' ∉ line) := by
  obtain ⟨sections, houtline, hstatements⟩ := outline_of_parse h
  intro s hs
  rw [hstatements, List.head?_map] at hs
  obtain ⟨part, hpart, rfl⟩ := Option.map_eq_some_iff.mp hs
  obtain ⟨line, hline, hfirst⟩ := dropInterpreterLine_split source
  obtain ⟨gap, hgap, hsplit⟩ := houtline.front_split hpart
  refine ⟨line, gap, ?_, hgap, hfirst⟩
  rw [statementIn_start, Text.upTo_offsetOf]
  nth_rewrite 1 [hline]
  rw [hsplit, ← List.append_assoc, Text.before_append]

theorem drop_front_of_parse : Trivia.drop (dropInterpreterLine source) =
    (document.statements.head?.map fun s => source.onward s.start).getD [] := by
  obtain ⟨sections, houtline, hstatements⟩ := outline_of_parse h
  rw [houtline.drop_eq, hstatements, List.head?_map]
  cases hpart : sections.head? with
  | none => rfl
  | some part =>
    have hstart := (houtline.forall_suffix part (List.mem_of_head? hpart)).1
    rw [Option.map_some, Option.map_some, Option.map_some, statementIn_start,
      Text.onward_offsetOf (hstart.trans (dropInterpreterLine_suffix source))]

theorem drop_back_of_parse : ∀ s ∈ document.statements.getLast?,
    Trivia.drop (source.onward s.stop) = [] := by
  obtain ⟨sections, houtline, hstatements⟩ := outline_of_parse h
  intro s hs
  rw [hstatements, List.getLast?_map] at hs
  obtain ⟨part, hpart, rfl⟩ := Option.map_eq_some_iff.mp hs
  obtain ⟨hstart, hrest⟩ := houtline.forall_suffix part (List.mem_of_getLast? hpart)
  have htail := hrest.1.trans (hstart.trans (dropInterpreterLine_suffix source))
  rw [statementIn_stop, Text.onward_offsetOf htail]
  exact houtline.drop_last part hpart

end

/-- The statements of a source tile it. -/
theorem parse_tiles [Stack] {document : Document} (h : parse source = .ok document) :
    Tiles source document.statements where
  fits := fits_of_parse h
  follows := follows_of_parse h
  front := front_of_parse h
  front_drop := drop_front_of_parse h
  back := drop_back_of_parse h

/-- An interpreter line, an abandoned declaration, a template with a comment sign in it, an attribute clause,
and a string that its line cuts. -/
def mixedSource : Text :=
  ("#!/usr/bin/env node\n// top\nimport a = b; `/* $\x7b'\x7d'\x7d `\n" ++
    "import c from 'c' with \x7b x \x7d ;/* a */ f('open\n// end").toList

section

open ImportOrder.Runtime

theorem parse_tiles_mixedSource :
    ∃ document, parse mixedSource = .ok document ∧
      document.statements.map (fun s => (s.start, s.stop)) = [(27, 53), (54, 84), (92, 99)] ∧
      Tiles mixedSource document.statements := by
  have hread : (parse mixedSource).toOption.map
      (fun document => document.statements.map fun s => (s.start, s.stop)) =
        some [(27, 53), (54, 84), (92, 99)] := by
    decide +kernel
  cases hparse : parse mixedSource with
  | error error => simp [hparse, Except.toOption] at hread
  | ok document =>
    refine ⟨document, rfl, ?_, parse_tiles hparse⟩
    simpa [hparse, Except.toOption] using hread

end

end Document

end ImportOrder
