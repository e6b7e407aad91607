import ImportOrder.Proofs.Nesting
import ImportOrder.Proofs.Readings
import ImportOrder.Runtime

/-!
# Reading is lenient outside declarations

Strings, templates, comments and brackets that are never closed do no harm in other code. A source in which the
keyword is only called or asked for a member is read as one run of code at most; only the stack can run out on it, where
more templates are open at once than it has room for. Where a source cannot be read for any other reason, the fault
stands at one of its characters and behind the letters of the keyword.
-/

namespace ImportOrder

open Source

/-! ## Places of the keyword -/

namespace Source

/-- The letters of the keyword stand at an offset, whatever they belong to. -/
def KeywordAt (source : Text) (offset : Nat) : Prop :=
  importWord <+: source.drop offset

/-- A call, a member access or the end of the text comes next. -/
def OpensNothing (t : Text) : Prop :=
  ∀ c ∈ (Trivia.drop t).head?, c = '(' ∨ c = '.'

/-- Wherever the letters of the keyword stand, a call, a member access or the end of the text comes next. -/
def NoneDeclared (source : Text) : Prop :=
  ∀ offset < source.length, KeywordAt source offset → OpensNothing (source.drop (offset + importWord.length))

instance (source : Text) (offset : Nat) : Decidable (KeywordAt source offset) :=
  inferInstanceAs (Decidable (importWord <+: source.drop offset))

instance (t : Text) : Decidable (OpensNothing t) :=
  Option.decidableForallMem _

instance (source : Text) : Decidable (NoneDeclared source) :=
  inferInstanceAs (Decidable (∀ offset < source.length, KeywordAt source offset →
    OpensNothing (source.drop (offset + importWord.length))))

variable {source start : Text} {state : State}

/-- A declaration begins with the keyword, and the next token is neither a call nor a member access. -/
theorem keywordAt_of_atDeclaration (hstart : start <:+ source) (h : atDeclaration state start = true) :
    KeywordAt source (source.offsetOf start) ∧ ∃ c u,
      Trivia.drop (source.drop (source.offsetOf start + importWord.length)) = c :: u ∧ c ≠ '(' ∧ c ≠ '.' := by
  obtain ⟨rest, c, u, hname, -, -, hdrop, hparen, hpoint⟩ := atDeclaration_iff.mp h
  have happ : importWord ++ rest = start := (splitName?_append hname).1
  refine ⟨?_, c, u, ?_, hparen, hpoint⟩
  · rw [KeywordAt, Text.drop_offsetOf hstart, ← happ]
    exact List.prefix_append importWord rest
  · rw [← List.drop_drop, Text.drop_offsetOf hstart, ← happ, List.drop_left, hdrop]

theorem NoneDeclared.atDeclaration_eq (h : NoneDeclared source) (hstart : start <:+ source) :
    atDeclaration state start = false := by
  rw [Bool.eq_false_iff]
  intro hat
  obtain ⟨hkeyword, c, u, hdrop, hparen, hpoint⟩ := keywordAt_of_atDeclaration hstart hat
  have hpos : 0 < start.length := List.length_pos_iff.mpr (atDeclaration_ne_nil hat)
  have hlen := hstart.length_le
  have hoffset : source.offsetOf start < source.length := by
    unfold Text.offsetOf
    omega
  rcases h _ hoffset hkeyword c (by simp [hdrop]) with hc | hc
  · exact hparen hc
  · exact hpoint hc

end Source

/-! ## Sources -/

namespace Document

variable {source : Text} {document : Document}

/-- What the stack runs out at is a character of the source, and the source has more marks than there is room for. -/
theorem room_of_error [Stack] {error : SourceError} (h : parse source = .error error) (hpart : error.part = .nesting) :
    error.offset < source.length ∧ Stack.room < source.count templateMark := by
  unfold parse at h
  split at h
  · rename_i fault hpieces
    obtain rfl := Except.error.inj h
    have htail := dropInterpreterLine_suffix source
    have hlies := (pieces_fault hpieces).of_suffix htail
    have hpos : 0 < fault.tail.length := List.length_pos_iff.mpr hlies.ne_nil
    have hlen := hlies.suffix.length_le
    refine ⟨?_, Nat.lt_of_lt_of_le (pieces_room hpieces hpart) (count_of_suffix htail)⟩
    show source.length - fault.tail.length < source.length
    omega
  · simp at h

theorem part_of_noneDeclared [Stack] {error : SourceError} (h : NoneDeclared source)
    (hparse : parse source = .error error) : error.part = .nesting := by
  unfold parse at hparse
  split at hparse
  · rename_i fault hpieces
    obtain rfl := Except.error.inj hparse
    rcases pieces_error hpieces with ⟨hpart, -⟩ | ⟨state, start, hstart, hat, -⟩
    · exact hpart
    · -- a fault would lie in a declaration, and there is none
      rw [h.atDeclaration_eq (hstart.trans (dropInterpreterLine_suffix source))] at hat
      simp at hat
  · simp at hparse

theorem isImport_of_noneDeclared [Stack] (h : NoneDeclared source) (hparse : parse source = .ok document) :
    ∀ s ∈ document.statements, s.isImport = false := by
  intro s hs
  rw [Bool.eq_false_iff]
  intro himport
  obtain ⟨state, path, -, hdecl⟩ := declarationAt_of_parse hparse hs himport
  have hstart : source.onward s.start <:+ source := List.drop_suffix _ source
  have hat := (declarationAt_some_iff.mp hdecl).1
  rw [h.atDeclaration_eq hstart] at hat
  simp at hat

/-- Of two statements that follow each other one is an import, so without imports there is one statement at most. -/
theorem length_statements_le_one [Stack] (hparse : parse source = .ok document)
    (hcode : ∀ s ∈ document.statements, s.isImport = false) : document.statements.length ≤ 1 := by
  have hfollows := follows_of_parse hparse
  match hstatements : document.statements with
  | [] => simp
  | [s] => simp
  | s :: s' :: rest =>
    rw [hstatements] at hfollows hcode
    have himport := ((List.isChain_cons_cons.mp hfollows).1).import_or_import
    simp [hcode s (by simp), hcode s' (by simp)] at himport

theorem offset_of_error [Stack] {error : SourceError} (h : parse source = .error error)
    (hpart : error.part ≠ .nesting) :
    error.offset < source.length ∧ ∃ offset ≤ error.offset, KeywordAt source offset := by
  unfold parse at h
  split at h
  · rename_i fault hpieces
    obtain rfl := Except.error.inj h
    rcases pieces_error hpieces with ⟨hnesting, -⟩ | ⟨state, start, htail, hat, hfault⟩
    · exact absurd hnesting hpart
    have hstart := htail.trans (dropInterpreterLine_suffix source)
    have hlies := readDeclaration_fault (atDeclaration_ne_nil hat) hfault
    have hpos : 0 < fault.tail.length := List.length_pos_iff.mpr hlies.ne_nil
    have hlen := hlies.suffix.length_le
    have hlen' := hstart.length_le
    dsimp only
    refine ⟨by omega, source.offsetOf start, ?_, (keywordAt_of_atDeclaration hstart hat).1⟩
    unfold Text.offsetOf
    omega
  · simp at h

/-- A source in which the keyword is only called or asked for a member is read as one run of other code, if it holds
anything, unless the stack runs out on it. A source that cannot be read has its fault at a character, and the letters of
the keyword at or before it, again unless the stack has run out. The stack has room for as many templates as it runs out
on a source with more marks. -/
theorem parse_lenient [Stack] (source : Text) :
    (NoneDeclared source →
      (∃ document, parse source = .ok document ∧ document.statements.length ≤ 1 ∧
        ∀ s ∈ document.statements, s.isImport = false) ∨
      ∃ error, parse source = .error error ∧ error.part = .nesting) ∧
    (∀ error, parse source = .error error → error.part ≠ .nesting →
      error.offset < source.length ∧ ∃ offset ≤ error.offset, KeywordAt source offset) ∧
    ∀ error, parse source = .error error → error.part = .nesting →
      error.offset < source.length ∧ Stack.room < source.count templateMark := by
  refine ⟨fun h => ?_, fun error => offset_of_error, fun error => room_of_error⟩
  cases hparse : parse source with
  | error error => exact .inr ⟨error, rfl, part_of_noneDeclared h hparse⟩
  | ok document =>
    have hcode := isImport_of_noneDeclared h hparse
    exact .inl ⟨document, rfl, length_statements_le_one hparse hcode, hcode⟩

/-- Calls and members of the keyword, one of them in an open template, then a string and a comment that are not
closed, with the keyword at the very end. -/
def openSource : Text :=
  "x = import /* . */ ('a'\n\x60 $\x7b import // c\n.meta ] \x60 'open\n) /[/ /* import".toList

/-- A declaration whose second comment is not closed. -/
def cutSource : Text :=
  "f('import')\nimport /* a */ b /* c".toList

section

open ImportOrder.Runtime

theorem parse_lenient_openSource :
    NoneDeclared openSource ∧
      (∃ document, parse openSource = .ok document ∧ document.statements.length ≤ 1 ∧
        ∀ s ∈ document.statements, s.isImport = false) ∧
      ∃ error, parse cutSource = .error error ∧ error = ⟨.comment, 29⟩ ∧ error.offset < cutSource.length ∧
        ∃ offset ≤ error.offset, KeywordAt cutSource offset := by
  have hnone : NoneDeclared openSource := by decide +kernel
  have hopen : ∃ document, parse openSource = .ok document ∧ document.statements.length ≤ 1 ∧
      ∀ s ∈ document.statements, s.isImport = false := by
    rcases (parse_lenient openSource).1 hnone with hread | ⟨error, hparse, hpart⟩
    · exact hread
    · exact absurd ((parse_lenient openSource).2.2 error hparse hpart).2 (by decide +kernel)
  have hread : (parse cutSource).map (fun _ => ()) = .error ⟨.comment, 29⟩ := by decide +kernel
  cases hparse : parse cutSource with
  | ok document => simp [hparse, Except.map] at hread
  | error error =>
    have herror : error = ⟨.comment, 29⟩ := by simpa [hparse, Except.map] using hread
    have hpart : error.part ≠ .nesting := by simp [herror]
    exact ⟨hnone, hopen, error, rfl, herror, (parse_lenient cutSource).2.1 error hparse hpart⟩

end

end Document

end ImportOrder
