import ImportOrder.Proofs.EditedSource
import ImportOrder.Proofs.Stages
import ImportOrder.Runtime

/-!
# Fixing a file in place

A file is read with every line break made a line feed, so the edit is planned for a text without carriage returns and
is written into such a text. What stands before the first import and behind the rewritten span is kept character by
character, except for its line breaks: the bytes are the same exactly when no carriage return stood there, and the
rewritten file has none at all.
-/

namespace ImportOrder

/-! ## Line breaks -/

namespace Text

theorem unifyNewlines_return_cons {t : Text} (h : t.head? ≠ some '\n') :
    unifyNewlines ('\r' :: t) = '\n' :: unifyNewlines t := by
  cases t with
  | nil => rfl
  | cons c t =>
    have hc : c ≠ '\n' := by simpa using h
    rw [unifyNewlines]
    intro rest heq
    exact hc (List.cons.inj heq).1

theorem unifyNewlines_cons {c : Char} (h : c ≠ '\r') (t : Text) :
    unifyNewlines (c :: t) = c :: unifyNewlines t := by
  rw [unifyNewlines]
  · intro rest heq
    exact absurd heq h
  · exact h

theorem not_mem_unifyNewlines (t : Text) : '\r' ∉ unifyNewlines t := by
  fun_induction unifyNewlines t with
  | case1 => simp
  | case2 rest ih => simp [ih]
  | case3 rest hnot ih => simp [ih]
  | case4 c rest hnot hne ih =>
    rw [List.mem_cons, not_or]
    exact ⟨fun heq => hne heq.symm, ih⟩

theorem unifyNewlines_eq_self_iff {t : Text} : unifyNewlines t = t ↔ '\r' ∉ t := by
  constructor
  · intro h
    rw [← h]
    exact not_mem_unifyNewlines t
  · intro h
    induction t with
    | nil => rfl
    | cons c t ih =>
      rw [List.mem_cons, not_or] at h
      rw [unifyNewlines_cons (Ne.symm h.1), ih h.2]

/-- A text can be cut wherever it can be cut once its line breaks are unified. -/
theorem exists_cut (t : Text) (i : Nat) :
    ∃ a b, t = a ++ b ∧ unifyNewlines a = (unifyNewlines t).take i ∧ unifyNewlines b = (unifyNewlines t).drop i := by
  -- a return with its line feed becomes one character, so it is never cut
  fun_induction unifyNewlines t generalizing i with
  | case1 => exact ⟨[], [], rfl, by simp [unifyNewlines], by simp [unifyNewlines]⟩
  | case2 rest ih =>
    cases i with
    | zero => exact ⟨[], '\r' :: '\n' :: rest, rfl, rfl, rfl⟩
    | succ i =>
      obtain ⟨a, b, hcut, ha, hb⟩ := ih i
      refine ⟨'\r' :: '\n' :: a, b, by rw [hcut]; rfl, ?_, hb⟩
      rw [unifyNewlines, ha, List.take_succ_cons]
  | case3 rest hnot ih =>
    have hhead : rest.head? ≠ some '\n' := by
      intro hhead
      obtain ⟨tail, rfl⟩ := List.head?_eq_some_iff.mp hhead
      exact hnot tail rfl
    cases i with
    | zero => exact ⟨[], '\r' :: rest, rfl, rfl, unifyNewlines_return_cons hhead⟩
    | succ i =>
      obtain ⟨a, b, hcut, ha, hb⟩ := ih i
      have hhead' : a.head? ≠ some '\n' := by
        intro hfirst
        rw [hcut, List.head?_append, hfirst] at hhead
        exact hhead rfl
      refine ⟨'\r' :: a, b, by rw [hcut]; rfl, ?_, hb⟩
      rw [unifyNewlines_return_cons hhead', ha, List.take_succ_cons]
  | case4 c rest hnot hne ih =>
    have hc : c ≠ '\r' := fun heq => hne heq
    cases i with
    | zero => exact ⟨[], c :: rest, rfl, rfl, unifyNewlines_cons hc rest⟩
    | succ i =>
      obtain ⟨a, b, hcut, ha, hb⟩ := ih i
      refine ⟨c :: a, b, by rw [hcut]; rfl, ?_, hb⟩
      rw [unifyNewlines_cons hc, ha, List.take_succ_cons]

/-- What holds of the parts and of the separator holds of the joined text, when it passes on to texts put together. -/
theorem joinWith_of_parts {p : Text → Prop} (hnil : p []) (happend : ∀ a b, p a → p b → p (a ++ b)) {sep : Text}
    {ts : List Text} (hsep : p sep) (hts : ∀ t ∈ ts, p t) : p (sep.joinWith ts) := by
  cases ts with
  | nil => exact hnil
  | cons t ts =>
    rw [joinWith_cons]
    apply happend _ _ (hts t List.mem_cons_self)
    have hrest : ∀ u ∈ ts, p u := fun u hu => hts u (List.mem_cons_of_mem t hu)
    clear hts
    induction ts with
    | nil => exact hnil
    | cons u ts ih =>
      rw [List.flatMap_cons]
      apply happend _ _ (happend _ _ hsep (hrest u List.mem_cons_self))
      exact ih fun v hv => hrest v (List.mem_cons_of_mem u hv)

theorem slice_isInfix (source : Text) (i j : Int) : source.slice i j <:+: source :=
  (List.drop_suffix _ _).isInfix.trans (List.take_prefix _ _).isInfix

theorem strip_isInfix (t : Text) : t.strip <:+: t := by
  obtain ⟨a, b, -, -, hsplit⟩ := strip_split t
  exact ⟨a, b, hsplit.symm⟩

end Text

/-! ## The characters of an edit -/

namespace Plan

/-- What holds of the line break and of the texts of the bundles holds of the canonical form, when it passes on to
texts put together. -/
theorem canonicalText_of_parts {p : Text → Prop} (hnil : p []) (happend : ∀ a b, p a → p b → p (a ++ b))
    (config : Configuration) {newline : Text} {all : List Bundle} (hnewline : p newline)
    (hall : ∀ b ∈ all, p b.leading ∧ p b.body) : p (canonicalText config newline all) := by
  have hjoin : ∀ ts : List Text, (∀ t ∈ ts, p t) → p (newline.joinWith ts) :=
    fun ts => Text.joinWith_of_parts hnil happend hnewline
  refine Text.joinWith_of_parts hnil happend (happend _ _ hnewline hnewline) fun block hblock => ?_
  rw [blocks, List.mem_append, List.mem_map, List.mem_map] at hblock
  rcases hblock with ⟨bs, hbs, rfl⟩ | ⟨b, hb, rfl⟩
  · -- the lines of a group are those of its members
    obtain ⟨g, -, rfl⟩ := List.mem_map.mp (List.mem_filter.mp hbs).1
    refine hjoin _ fun line hline => ?_
    rcases List.mem_append.mp hline with hline | hline
    · obtain ⟨b, hb, rfl⟩ := List.mem_map.mp (List.mem_filter.mp hline).1
      exact (hall b (mem_of_mem_members hb)).1
    · obtain ⟨b, hb, rfl⟩ := List.mem_map.mp hline
      exact (hall b (mem_of_mem_members hb)).2
  · refine hjoin _ fun line hline => ?_
    have hmem := hall b (List.mem_filter.mp hb).1
    have hcases : line = b.leading ∨ line = b.body := by simpa using (List.mem_filter.mp hline).1
    rcases hcases with rfl | rfl
    · exact hmem.1
    · exact hmem.2

/-- The comments of a bundle come from the source; those above a statement are stripped of blanks. -/
theorem infix_of_mem_bundles {source leading : Text} {statements : List Statement} {b : Bundle}
    (hb : b ∈ bundles source leading statements) :
    (b.leading = leading ∨ ∃ rest : Text, rest <:+: source ∧ b.leading = rest.strip) ∧ b.trailing <:+: source := by
  induction statements generalizing leading with
  | nil => simp [bundles] at hb
  | cons s rest ih =>
    obtain ⟨blanks, hparts⟩ := splitGap_parts (gapAfter source s rest)
    have hgap : gapAfter source s rest <:+: source := Text.slice_isInfix _ _ _
    have hrest : (splitGap (gapAfter source s rest)).2 <:+: source := by
      refine List.IsInfix.trans ⟨(splitGap (gapAfter source s rest)).1 ++ blanks, [], ?_⟩ hgap
      rw [List.append_nil, List.append_assoc, ← hparts.eq_append]
    rw [bundles_cons, List.mem_cons] at hb
    rcases hb with rfl | hb
    · exact ⟨.inl rfl, List.IsInfix.trans ⟨[], _, hparts.eq_append.symm⟩ hgap⟩
    · obtain ⟨hleading, htrailing⟩ := ih hb
      refine ⟨.inr ?_, htrailing⟩
      rcases hleading with hleading | hleading
      · exact ⟨_, hrest, hleading⟩
      · exact hleading

/-- A text cut at its imports: `front` stands above the first one, `span` ends with the last one, the comment on its
line and perhaps blanks, and `back` is the rest. Blanks are cut out only where a line break comes in for them. -/
structure CutAtImports [Stack] (edit : Edit) (front span back : Text) : Prop where
  start_eq : edit.start = front.length
  stop_eq : edit.stop = front.length + span.length
  imports : ∃ document first last trailing blanks,
    Document.parse (front ++ (span ++ back)) = .ok document ∧
    (document.statements.filter Statement.isImport).head? = some first ∧
    (document.statements.filter Statement.isImport).getLast? = some last ∧
    first.start = edit.start ∧ last.stop + trailing.length + blanks.length = edit.stop ∧
    (front ++ (span ++ back)).slice last.stop edit.stop = trailing ++ blanks ∧ LineComment trailing ∧
    (∀ c ∈ blanks, isInlineBlank c = true) ∧ (blanks = [] ∨ ['\n'] <:+ edit.replacement)

theorem Spanned.head?_filter {statements front middle back : List Statement} {first : Statement}
    (h : Spanned statements front middle back) (hfirst : middle.head? = some first) :
    (statements.filter Statement.isImport).head? = some first := by
  obtain ⟨first', hfirst', himport⟩ := h.first_import
  obtain rfl : first = first' := Option.some.inj (hfirst.symm.trans hfirst')
  have hfront : front.filter Statement.isImport = [] := by simpa using h.front_code
  obtain ⟨rest, rfl⟩ := List.head?_eq_some_iff.mp hfirst
  rw [h.eq_append, List.filter_append, hfront, List.nil_append, List.cons_append, List.filter_cons_of_pos himport,
    List.head?_cons]

theorem Spanned.getLast?_filter {statements front middle back : List Statement} {last : Statement}
    (h : Spanned statements front middle back) (hlast : middle.getLast? = some last) :
    (statements.filter Statement.isImport).getLast? = some last := by
  obtain ⟨last', hlast', himport⟩ := h.last_import
  obtain rfl : last = last' := Option.some.inj (hlast.symm.trans hlast')
  have hback : back.filter Statement.isImport = [] := by simpa using h.back_code
  obtain ⟨rest, rfl⟩ := List.getLast?_eq_some_iff.mp hlast
  rw [h.eq_append, List.filter_append, List.filter_append, List.filter_append, hback, List.append_nil,
    ← List.append_assoc, List.filter_cons_of_pos himport, List.filter_nil, List.getLast?_concat]

section

variable {config : Configuration} {source : Text} {document : Document} {all : List Bundle} {edit : Edit}
  {front middle back : List Statement} {first last : Statement}

theorem start_le_stop {statements : List Statement} (hfits : ∀ s ∈ statements, s.Fits source)
    (hchain : statements.IsChain (Statement.Follows source)) (hfirst : statements.head? = some first)
    (hlast : statements.getLast? = some last) : first.start ≤ last.stop := by
  induction statements generalizing first with
  | nil => simp at hfirst
  | cons s rest ih =>
    obtain rfl : s = first := by simpa using hfirst
    have hs := (hfits s (by simp)).start_lt_stop
    cases rest with
    | nil =>
      obtain rfl : s = last := by simpa using hlast
      omega
    | cons s' rest =>
      obtain ⟨hfollows, hrest⟩ := List.isChain_cons_cons.mp hchain
      have hnext := ih (fun t ht => hfits t (List.mem_cons_of_mem _ ht)) hrest rfl (by simpa using hlast)
      have hgap := hfollows.stop_le_start
      omega

theorem Planned.start_le_stop [Stack] (h : Planned config source document all edit front middle back first last) :
    0 ≤ edit.start ∧ edit.start ≤ edit.stop ∧ edit.stop ≤ source.length := by
  obtain ⟨skipped, pushed, below, hshape⟩ := h.shape
  obtain ⟨hle, hstop, -⟩ := hshape.stop_le h.last_fits
  have hchain := Document.follows_of_parse h.parse
  rw [h.spanned.eq_append, List.isChain_append, List.isChain_append] at hchain
  have hfits : ∀ s ∈ middle, s.Fits source := fun s hs => Document.fits_of_parse h.parse s (h.mem_statements hs)
  have hspan := Plan.start_le_stop hfits hchain.2.1.1 h.head h.getLast
  have hstart := (hfits first (List.mem_of_head? h.head)).start_nonneg
  have hedit := hshape.start_eq
  omega

/-- The texts of a bundle are parts of the source. -/
theorem Planned.infix_of_mem [Stack] (h : Planned config source document all edit front middle back first last)
    {b : Bundle} (hb : b ∈ all) :
    b.leading <:+: source ∧ b.statement.text <:+: source ∧ b.trailing <:+: source := by
  have hbundle := hb
  rw [h.all_eq] at hbundle
  obtain ⟨hleading, htrailing⟩ := infix_of_mem_bundles (List.mem_of_mem_take hbundle)
  refine ⟨?_, ?_, htrailing⟩
  · rcases hleading with hnil | ⟨rest, hrest, hstrip⟩
    · rw [hnil]
      exact List.nil_infix
    · rw [hstrip]
      exact (Text.strip_isInfix rest).trans hrest
  · rw [(h.fits hb).text_eq]
    exact Text.slice_isInfix _ _ _

/-- An edit of a text without carriage returns puts none into it. -/
theorem Planned.not_mem_replacement [Stack] (h : Planned config source document all edit front middle back first last)
    (hsource : '\r' ∉ source) : '\r' ∉ edit.replacement := by
  obtain ⟨skipped, pushed, below, hshape⟩ := h.shape
  have hnewline := newlineOf_of_not_mem hsource
  have happend : ∀ a b : Text, '\r' ∉ a → '\r' ∉ b → '\r' ∉ a ++ b := by simp_all
  rw [hshape.replacement_eq, hnewline]
  refine happend _ _ (canonicalText_of_parts (by simp) happend config (by decide) fun b hb => ?_) ?_
  · obtain ⟨hleading, htext, htrailing⟩ := h.infix_of_mem hb
    exact ⟨fun hmem => hsource (hleading.mem hmem),
      happend _ _ (fun hmem => hsource (htext.mem hmem)) fun hmem => hsource (htrailing.mem hmem)⟩
  · rcases hshape.pushed_eq with hpushed | ⟨hpushed, -⟩
    · rw [hpushed, hnewline]
      decide
    · simp [hpushed]

theorem Planned.cutAtImports [Stack] (h : Planned config source document all edit front middle back first last)
    (hsource : '\r' ∉ source) {a m z : Text} (hcut : source = a ++ (m ++ z)) (ha : edit.start = a.length)
    (hm : edit.stop = a.length + m.length) : CutAtImports edit a m z := by
  subst hcut
  obtain ⟨skipped, pushed, below, hshape⟩ := h.shape
  obtain ⟨-, -, hslice⟩ := hshape.stop_le h.last_fits
  obtain ⟨blanks, hparts⟩ := splitGap_parts (gapAfter (a ++ (m ++ z)) last back)
  refine ⟨ha, hm, document, first, last, _, skipped, h.parse, h.spanned.head?_filter h.head,
    h.spanned.getLast?_filter h.getLast, hshape.start_eq.symm, hshape.stop_eq.symm, hslice, hparts.lineComment,
    hshape.skipped_blank, ?_⟩
  rcases hshape.pushed_eq with hpushed | ⟨-, hskipped, -⟩
  · rw [hshape.replacement_eq, hpushed, newlineOf_of_not_mem hsource]
    exact .inr (List.suffix_append _ _)
  · exact .inl hskipped

end

end Plan

/-! ## The bytes of a file -/

namespace Text

/-- The bytes that a text is written as. -/
def bytes (t : Text) : ByteArray :=
  (String.ofList t).toUTF8

theorem bytes_append (a b : Text) : bytes (a ++ b) = bytes a ++ bytes b := by
  rw [bytes, String.ofList_append]
  exact String.toByteArray_append

theorem bytes_inj {a b : Text} : bytes a = bytes b ↔ a = b := by
  rw [← String.ofList_inj]
  exact String.toByteArray_inj

theorem bytes_of_fromUTF8? {content : ByteArray} {s : String} (h : String.fromUTF8? content = some s) :
    content = bytes s.toList := by
  unfold String.fromUTF8? at h
  split at h
  · rw [bytes, String.ofList_toList, ← Option.some.inj h]
    rfl
  · simp at h

end Text

/-- What a fix that is written makes of the bytes of a file. They were those of `front`, the rewritten span and `back`;
line breaks aside, `front` and `back` stay. -/
structure RewrittenBytes [Stack] (old new : ByteArray) (edit : Edit) (front span back : Text) : Prop where
  old_eq : old = front.bytes ++ span.bytes ++ back.bytes
  new_eq : new = front.unifyNewlines.bytes ++ edit.replacement.bytes ++ back.unifyNewlines.bytes
  cut : Plan.CutAtImports edit front.unifyNewlines span.unifyNewlines back.unifyNewlines
  front_kept : front.unifyNewlines.bytes = front.bytes ↔ '\r' ∉ front
  back_kept : back.unifyNewlines.bytes = back.bytes ↔ '\r' ∉ back
  no_return : '\r' ∉ front.unifyNewlines ++ edit.replacement ++ back.unifyNewlines

theorem exists_rewrittenBytes [Stack] {config : Configuration} {filename : String} {text : Text} {result : ScanResult}
    {edit : Edit} (hscan : scan config filename text.unifyNewlines = .ok result) (hfix : result.fix = some edit) :
    ∃ front span back,
      RewrittenBytes text.bytes (result.applyFix text.unifyNewlines).bytes edit front span back := by
  obtain ⟨document, before, middle, behind, first, last, hplanned, happly⟩ := Plan.exists_planned_of_scan hscan hfix
  obtain ⟨hnonneg, hle, hstop⟩ := hplanned.start_le_stop
  have hsource := Text.not_mem_unifyNewlines text
  -- the text is cut where the edit begins and where it ends
  obtain ⟨front, rest, hcut, hfront, hrest⟩ := Text.exists_cut text edit.start.toNat
  obtain ⟨span, back, hcut', hspan, hback⟩ := Text.exists_cut rest (edit.stop - edit.start).toNat
  rw [hrest] at hspan hback
  have hwhole : text.unifyNewlines = front.unifyNewlines ++ (span.unifyNewlines ++ back.unifyNewlines) := by
    rw [hfront, hspan, hback, List.take_append_drop, List.take_append_drop]
  have hup : text.unifyNewlines.upTo edit.start = front.unifyNewlines := by
    rw [Text.upTo, Text.place_of_le hnonneg (by omega), hfront]
  have honward : text.unifyNewlines.onward edit.stop = back.unifyNewlines := by
    rw [Text.onward, Text.place_of_le (by omega) hstop, hback, List.drop_drop]
    congr 1
    omega
  have hstart : edit.start = front.unifyNewlines.length := by
    rw [hfront, List.length_take]
    omega
  have hend : edit.stop = front.unifyNewlines.length + span.unifyNewlines.length := by
    rw [← hstart, hspan, List.length_take, List.length_drop]
    omega
  refine ⟨front, span, back, ?_, ?_, hplanned.cutAtImports hsource hwhole hstart hend, ?_, ?_, ?_⟩
  · rw [hcut, hcut', Text.bytes_append, Text.bytes_append, ByteArray.append_assoc]
  · rw [happly, Edit.apply, hup, honward, Text.bytes_append, Text.bytes_append]
  · rw [Text.bytes_inj]
    exact Text.unifyNewlines_eq_self_iff
  · rw [Text.bytes_inj]
    exact Text.unifyNewlines_eq_self_iff
  · have hreplacement := hplanned.not_mem_replacement hsource
    simp only [List.mem_append, not_or]
    exact ⟨⟨Text.not_mem_unifyNewlines front, hreplacement⟩, Text.not_mem_unifyNewlines back⟩

/-! ## The file system -/

theorem not_fixed_of_scan [Stack] {config : Configuration} {filename : String} {source : Text} {result : ScanResult}
    (h : scan config filename source = .ok result) : result.fixed = false := by
  unfold scan at h
  dsimp only at h
  split at h
  · simp at h
  · split at h
    · rw [← Except.ok.inj h]
    · rw [← Except.ok.inj h]

/-- A scan that writes a fix changes the file that it is asked for and, apart from a log, no other. Of that file it
rewrites the imports; the bytes before and behind them stay exactly if no carriage return is among them, and no
carriage return is left. -/
theorem scanFile_rewrites [Stack] [Yaml.Reader] {clock : Clock} {request : ScanRequest} {filename : String}
    {fs fs' : FileSystem}
    {result : ScanResult} (h : Action.runOn (scanFile clock request filename) fs = (.ok result, fs'))
    (hfixed : result.fixed = true) :
    ∃ place edit old new front span back,
      fs.locate (Path.normalize filename) = .ok place ∧ result.fix = some edit ∧ fs.fileAt? place = some old ∧
      RewrittenBytes old new edit front span back ∧
      fs'.HoldsUpToLog fun q => if q = place then some new else fs.fileAt? q := by
  obtain ⟨inspection, place, content, hinspect, hplace, hkind, hlog, rfl⟩ := scanFile_ok_cases h
  obtain ⟨-, place', content', text, config, hplace', hkind', htext, hsource, hscan⟩ := inspect_ok hinspect
  obtain rfl : place = place' := Except.ok.inj (hplace.symm.trans hplace')
  have hrewrites : inspection.rewrites request = true := by
    by_contra hnot
    rw [Inspection.outcome, if_neg hnot, not_fixed_of_scan hscan] at hfixed
    simp at hfixed
  obtain ⟨edit, hfix⟩ : ∃ edit, inspection.result.fix = some edit := by
    rw [Inspection.rewrites, Bool.and_eq_true, Option.isSome_iff_exists] at hrewrites
    exact hrewrites.2
  rw [hsource] at hscan
  obtain ⟨front, span, back, hbytes⟩ := exists_rewrittenBytes hscan hfix
  rw [← Text.bytes_of_fromUTF8? htext, ← hsource] at hbytes
  have hvacant := FileSystem.vacant_of_locate hplace (by simp [hkind])
  have hheld := log_ok hlog
  rw [Inspection.amended, if_pos hrewrites, funext (FileSystem.fileAt?_write hvacant)] at hheld
  refine ⟨place, edit, content', _, front, span, back, hplace, ?_, Tree.fileAt?_eq_some_iff.mpr hkind', hbytes, hheld⟩
  rw [Inspection.outcome, if_pos hrewrites]
  exact hfix

/-- A directory with a file whose lines all end in a carriage return and a line feed. -/
def returnDirectory : FileSystem where
  root := .directory [("a.ts", .file "f()\r\nimport './b'\r\nimport 'a'\r\ng()\r\n".toUTF8)]
  current := []

/-- Fixing that file. -/
def returnFix [Stack] [Yaml.Reader] : Except Failure ScanResult × FileSystem :=
  Action.runOn (scanFile ⟨"", 0⟩ { writeFix := true } "a.ts") returnDirectory

section

open ImportOrder.Runtime

theorem scanFile_rewrites_returnDirectory :
    ∃ result fs', returnFix = (.ok result, fs') ∧ result.fixed = true ∧
      (fs'.fileAt? ["a.ts"]).map (·.data.toList) =
        some "f()\nimport 'a'\n\nimport './b'\ng()\n".toUTF8.data.toList ∧
      ∃ place edit old new front span back, returnDirectory.locate "a.ts" = .ok place ∧ result.fix = some edit ∧
        returnDirectory.fileAt? place = some old ∧ RewrittenBytes old new edit front span back ∧
        fs'.HoldsUpToLog fun q => if q = place then some new else returnDirectory.fileAt? q := by
  have heval : returnFix.1.toOption.map ScanResult.fixed = some true ∧
      (returnFix.2.fileAt? ["a.ts"]).map (·.data.toList) =
        some "f()\nimport 'a'\n\nimport './b'\ng()\n".toUTF8.data.toList := by
    decide +kernel
  cases hrun : returnFix with
  | mk outcome fs' =>
    cases outcome with
    | error failure => simp [hrun, Except.toOption] at heval
    | ok result =>
      have hfixed : result.fixed = true := by simpa [hrun, Except.toOption] using heval.1
      have hfile := heval.2
      rw [hrun] at hfile
      exact ⟨result, fs', rfl, hfixed, hfile, scanFile_rewrites hrun hfixed⟩

end

end ImportOrder
