import ImportOrder.Options.Validation

/-!
# Layering options

Options from a file pass a check, command-line values are laid on top of them, and a configuration is made of the
outcome. Valid options go through all of this and nothing they say is lost, with one exception: aliases cannot be
added to options whose own aliases are null, though these are valid and stand for none.
-/

namespace ImportOrder

/-! ## Entries -/

namespace Value

variable {key other : String} {value : Value} {entries : List (Value × Value)}

theorem isText_iff {v : Value} : v.isText key = true ↔ v = .text key := by
  cases v <;> simp [isText]

theorem lookup_cons (entry : Value × Value) (entries : List (Value × Value)) :
    lookup key (entry :: entries) = if entry.1.isText key then some entry.2 else lookup key entries := by
  rw [lookup, List.find?_cons]
  split
  · rename_i h
    rw [h]
    rfl
  · rename_i h
    rw [h]
    rfl

/-- Setting an entry changes what is found at its key and at no other. -/
theorem lookup_assign : lookup other (assign key value entries) =
    if other = key then some value else lookup other entries := by
  induction entries with
  | nil =>
    rw [assign, lookup_cons]
    by_cases h : other = key
    · rw [if_pos h, if_pos (isText_iff.mpr (by rw [h]))]
    · have hnot : ¬(Value.text key).isText other = true := by
        rw [isText_iff, Value.text.injEq]
        exact fun heq => h heq.symm
      rw [if_neg h, if_neg hnot]
  | cons entry entries ih =>
    rw [assign]
    split
    · rename_i hkey
      rw [lookup_cons, lookup_cons, isText_iff.mp hkey]
      by_cases h : other = key
      · rw [if_pos h, if_pos (isText_iff.mpr (by rw [h]))]
      · have hnot : ¬(Value.text key).isText other = true := by
          rw [isText_iff, Value.text.injEq]
          exact fun heq => h heq.symm
        rw [if_neg h, if_neg hnot, if_neg hnot]
    · rename_i hkey
      rw [lookup_cons, lookup_cons, ih]
      by_cases h : other = key
      · rw [if_pos h, if_pos h, if_neg (by rw [h]; exact hkey)]
      · rw [if_neg h, if_neg h]

/-- Setting an entry leaves the entries of other keys as they are, and where they are. -/
theorem filter_assign {p : Value → Bool} (h : p (.text key) = false) :
    (assign key value entries).filter (fun entry => p entry.1) = entries.filter fun entry => p entry.1 := by
  induction entries with
  | nil => simp [assign, h]
  | cons entry entries ih =>
    rw [assign]
    split
    · rename_i hkey
      have hnot : p entry.1 = false := by rw [isText_iff.mp hkey, h]
      rw [List.filter_cons_of_neg (by simp [hnot]), List.filter_cons_of_neg (by simp [hnot])]
    · rw [List.filter_cons, List.filter_cons, ih]

/-- The text that a value is, if it is one. -/
def text? : Value → Option Text
  | .text s => some s.toList
  | _ => none

end Value

namespace Options

open Value

/-! ## Dropping repetitions -/

theorem filter_distinct (p : Text → Bool) (l : List Text) : (distinct l).filter p = distinct (l.filter p) := by
  induction l with
  | nil => rfl
  | cons t l ih =>
    rw [distinct]
    by_cases ht : p t = true
    · rw [List.filter_cons_of_pos ht, List.filter_cons_of_pos ht, distinct, ← ih, List.filter_filter,
        List.filter_filter]
      simp only [Bool.and_comm]
    · rw [List.filter_cons_of_neg ht, List.filter_cons_of_neg ht, ← ih, List.filter_filter]
      apply List.filter_congr
      intro u _
      cases hu : p u with
      | false => rfl
      | true =>
        have hne : u ≠ t := by
          rintro rfl
          exact ht hu
        simpa using hne

/-- Of repeated members the first stays. -/
theorem distinct_eq_eraseDups (l : List Text) : distinct l = l.eraseDups := by
  match l with
  | [] => rfl
  | t :: l =>
    have hshort : (l.filter fun u => !u == t).length < l.length + 1 :=
      Nat.lt_succ_of_le (List.length_filter_le _ _)
    rw [List.eraseDups_cons, ← distinct_eq_eraseDups (l.filter fun u => !u == t), distinct, filter_distinct]
    rfl
termination_by l.length

/-! ## Valid options -/

theorem faultsAt_eq_nil_iff {key : String} {entries : List (Value × Value)} {check : Value → List OptionFault} :
    faultsAt key entries check = [] ↔
      ∀ value, lookup key entries = some value → value = .null ∨ check value = [] := by
  unfold faultsAt
  split
  · rename_i h
    simp [h]
  · rename_i h
    simp [h]
  · rename_i value hnull h
    have hne : value ≠ .null := hnull
    simp [h, hne]

theorem aliasPrefixFaults_eq_nil_iff {value : Value} : aliasPrefixFaults value = [] ↔ ∃ s, value = .text s := by
  cases value <;> simp [aliasPrefixFaults]

theorem byFullPathFaults_eq_nil_iff {value : Value} : byFullPathFaults value = [] ↔ ∃ b, value = .bool b := by
  cases value <;> simp [byFullPathFaults]

theorem aliasesFaults_eq_nil {value : Value} (h : aliasesFaults value = []) : ∃ items, value = .list items := by
  cases value <;> simp [aliasesFaults] at h ⊢

/-- What valid options hold: a text, a list and a truth value, or null. -/
structure WellTyped (options : List (Value × Value)) : Prop where
  aliasPrefix : ∀ value, lookup aliasPrefixKey options = some value → value = .null ∨ ∃ s, value = .text s
  aliases : ∀ value, lookup aliasesKey options = some value → value = .null ∨ ∃ items, value = .list items
  byFullPath : ∀ value, lookup byFullPathKey options = some value → value = .null ∨ ∃ b, value = .bool b

theorem wellTyped_of_valid {options : List (Value × Value)} (h : validate (.map options) = []) :
    WellTyped options := by
  simp only [validate, entryFaults, List.append_eq_nil_iff, faultsAt_eq_nil_iff] at h
  obtain ⟨⟨⟨⟨-, hfront⟩, haliases⟩, hpath⟩, -⟩ := h
  refine ⟨?_, ?_, ?_⟩
  · intro value hvalue
    exact (hfront value hvalue).imp_right aliasPrefixFaults_eq_nil_iff.mp
  · intro value hvalue
    exact (haliases value hvalue).imp_right aliasesFaults_eq_nil
  · intro value hvalue
    exact (hpath value hvalue).imp_right byFullPathFaults_eq_nil_iff.mp

/-! ## The layers -/

/-- Whether a key is none of those that command-line values are laid on. -/
def isUntouched (key : Value) : Bool :=
  !(key.isText aliasesKey || key.isText byFullPathKey)

/-- The entries of options that no command-line value is laid on. -/
def untouched (options : List (Value × Value)) : List (Value × Value) :=
  options.filter fun entry => isUntouched entry.1

/-- The members of the list at a key; anything else holds none. -/
def listAt (key : String) (options : List (Value × Value)) : List Value :=
  match lookup key options with
  | some (.list items) => items
  | _ => []

/-- The truth value at a key, false without one. -/
def flagAt (key : String) (options : List (Value × Value)) : Bool :=
  match lookup key options with
  | some (.bool b) => b
  | _ => false

/-- The aliases of all sources in their order, where each counts once: the single one, those of the list and those of
the command line. Values that are no texts, and empty texts, name none. -/
def aliasesOf (options : List (Value × Value)) (aliases : List Value) : List Text :=
  ((((lookup aliasPrefixKey options).toList ++ listAt aliasesKey options ++ aliases).filterMap text?).filter
    (!·.isEmpty)).eraseDups

section

variable {options merged : List (Value × Value)} {aliases : List Value} {byFullPath : Option Bool}

/-- The options with the items at the key of the aliases. -/
def withAliases (present aliases : List Value) (options : List (Value × Value)) : List (Value × Value) :=
  if aliases.isEmpty then options else assign aliasesKey (.list (present ++ aliases)) options

/-- The options with the sorting mode of the command line, if it gives one. -/
def withMode (byFullPath : Option Bool) (options : List (Value × Value)) : List (Value × Value) :=
  match byFullPath with
  | some b => assign byFullPathKey (.bool b) options
  | none => options

theorem override_null (hnull : lookup aliasesKey options = some .null) (haliases : aliases ≠ []) :
    override options aliases byFullPath = .error ⟨.null⟩ := by
  have hempty : aliases.isEmpty = false := by simpa using haliases
  unfold override
  rw [hempty, hnull]
  rfl

/-- Where the aliases are not null, or none are added to them, the layers are laid one after another. -/
theorem override_eq (h : WellTyped options) (hnull : aliases = [] ∨ lookup aliasesKey options ≠ some .null) :
    override options aliases byFullPath =
      .ok (withMode byFullPath (withAliases (listAt aliasesKey options) aliases options)) := by
  unfold override withAliases listAt
  by_cases hempty : aliases = []
  · subst hempty
    cases byFullPath <;> rfl
  · have hisEmpty : aliases.isEmpty = false := by simpa using hempty
    rw [hisEmpty]
    cases hlookup : lookup aliasesKey options with
    | none => cases byFullPath <;> rfl
    | some value =>
      rcases h.aliases value hlookup with rfl | ⟨items, rfl⟩
      · exact absurd hlookup (hnull.resolve_left hempty)
      · cases byFullPath <;> rfl

theorem untouched_withMode : untouched (withMode byFullPath options) = untouched options := by
  cases byFullPath with
  | none => rfl
  | some b => exact filter_assign (p := isUntouched) (by decide)

theorem untouched_withAliases (present : List Value) :
    untouched (withAliases present aliases options) = untouched options := by
  unfold withAliases
  split
  · rfl
  · exact filter_assign (p := isUntouched) (by decide)

theorem lookup_withMode {key : String} (h : key ≠ byFullPathKey) :
    lookup key (withMode byFullPath options) = lookup key options := by
  cases byFullPath with
  | none => rfl
  | some b => rw [withMode, lookup_assign, if_neg h]

theorem lookup_withAliases {key : String} (h : key ≠ aliasesKey) (present : List Value) :
    lookup key (withAliases present aliases options) = lookup key options := by
  unfold withAliases
  split
  · rfl
  · rw [lookup_assign, if_neg h]

theorem listAt_withMode : listAt aliasesKey (withMode byFullPath options) = listAt aliasesKey options := by
  unfold listAt
  rw [lookup_withMode (by decide)]

theorem listAt_withAliases : listAt aliasesKey (withAliases (listAt aliasesKey options) aliases options) =
    listAt aliasesKey options ++ aliases := by
  unfold withAliases
  split
  · rename_i hempty
    rw [List.isEmpty_iff.mp hempty, List.append_nil]
  · rw [listAt, lookup_assign, if_pos rfl]

theorem wellTyped_layers (h : WellTyped options) (present : List Value) :
    WellTyped (withMode byFullPath (withAliases present aliases options)) := by
  have hkeys : aliasPrefixKey ≠ byFullPathKey ∧ aliasPrefixKey ≠ aliasesKey ∧ aliasesKey ≠ byFullPathKey := by decide
  refine ⟨?_, ?_, ?_⟩
  · rw [lookup_withMode hkeys.1, lookup_withAliases hkeys.2.1]
    exact h.aliasPrefix
  · rw [lookup_withMode hkeys.2.2, withAliases]
    split
    · exact h.aliases
    · intro value hvalue
      rw [lookup_assign, if_pos rfl] at hvalue
      exact .inr ⟨_, (Option.some.inj hvalue).symm⟩
  · cases byFullPath with
    | none =>
      rw [withMode, lookup_withAliases hkeys.2.2.symm]
      exact h.byFullPath
    | some b =>
      intro value hvalue
      rw [withMode, lookup_assign, if_pos rfl] at hvalue
      exact .inr ⟨b, (Option.some.inj hvalue).symm⟩

theorem filterMap_aliasText? (values : List Value) :
    values.filterMap aliasText? = (values.filterMap text?).filter (!·.isEmpty) := by
  rw [List.filter_filterMap]
  congr 1
  funext value
  cases value with
  | text s =>
    rw [aliasText?, text?, Option.filter_some]
    by_cases hs : s = ""
    · simp [hs]
    · simp [hs]
  | _ => rfl

/-- The single alias among the raw ones. -/
def singleAlias (options : List (Value × Value)) : List Value :=
  match lookup aliasPrefixKey options with
  | some value => if value.truthy then [value] else []
  | none => []

theorem filterMap_singleAlias (h : WellTyped options) :
    (singleAlias options).filterMap aliasText? = (lookup aliasPrefixKey options).toList.filterMap aliasText? := by
  unfold singleAlias
  cases hlookup : lookup aliasPrefixKey options with
  | none => rfl
  | some value =>
    rcases h.aliasPrefix value hlookup with rfl | ⟨s, rfl⟩
    · rfl
    · by_cases hs : s = ""
      · simp [hs, truthy, aliasText?]
      · simp [hs, truthy]

/-- Well-typed options name the aliases of the single entry and of the list. -/
theorem rawAliases_eq (h : WellTyped options) :
    rawAliases options = .ok (singleAlias options ++ listAt aliasesKey options) := by
  unfold rawAliases singleAlias listAt
  cases hlookup : lookup aliasesKey options with
  | none => rfl
  | some value =>
    rcases h.aliases value hlookup with rfl | ⟨items, rfl⟩
    · rfl
    · cases items with
      | nil => rfl
      | cons item items => rfl

theorem truthy_byFullPath (h : WellTyped options) :
    ((lookup byFullPathKey options).getD (.bool false)).truthy = flagAt byFullPathKey options := by
  unfold flagAt
  cases hlookup : lookup byFullPathKey options with
  | none => rfl
  | some value =>
    rcases h.byFullPath value hlookup with rfl | ⟨b, rfl⟩
    · rfl
    · rfl

theorem ofEntries_eq (h : WellTyped options) :
    Configuration.ofEntries options = .ok ⟨aliasesOf options [], flagAt byFullPathKey options⟩ := by
  have hraw : (singleAlias options ++ listAt aliasesKey options).filterMap aliasText? =
      ((((lookup aliasPrefixKey options).toList ++ listAt aliasesKey options).filterMap text?).filter
        (!·.isEmpty)) := by
    rw [← filterMap_aliasText?, List.filterMap_append, List.filterMap_append, filterMap_singleAlias h]
  unfold Configuration.ofEntries
  rw [rawAliases_eq h, aliasesOf, List.append_nil, ← hraw, ← distinct_eq_eraseDups, ← truthy_byFullPath h]
  rfl

theorem aliasesOf_layers :
    aliasesOf (withMode byFullPath (withAliases (listAt aliasesKey options) aliases options)) [] =
      aliasesOf options aliases := by
  have hkeys : aliasPrefixKey ≠ byFullPathKey ∧ aliasPrefixKey ≠ aliasesKey := by decide
  unfold aliasesOf
  rw [listAt_withMode, listAt_withAliases, lookup_withMode hkeys.1, lookup_withAliases hkeys.2, List.append_nil,
    List.append_assoc]

theorem flagAt_layers (present : List Value) :
    flagAt byFullPathKey (withMode byFullPath (withAliases present aliases options)) =
      byFullPath.getD (flagAt byFullPathKey options) := by
  cases byFullPath with
  | none => rw [withMode, flagAt, lookup_withAliases (by decide), Option.getD_none, flagAt]
  | some b => rw [withMode, flagAt, lookup_assign, if_pos rfl, Option.getD_some]

end

/-- Command-line values laid on valid options give a configuration, unless aliases are added to aliases that are null.
The entries that no value is laid on stay as they are; the aliases are those of the single entry, of the list and of
the command line, in this order and each once; and the sorting mode is that of the command line, if it gives one, else
that of the options. -/
theorem override_valid {options : List (Value × Value)} (h : validate (.map options) = []) (aliases : List Value)
    (byFullPath : Option Bool) :
    (aliases ≠ [] ∧ lookup aliasesKey options = some .null →
      override options aliases byFullPath = .error ⟨.null⟩) ∧
    (¬(aliases ≠ [] ∧ lookup aliasesKey options = some .null) →
      ∃ merged, override options aliases byFullPath = .ok merged ∧ untouched merged = untouched options ∧
        Configuration.ofValue (.map merged) =
          .ok ⟨aliasesOf options aliases, byFullPath.getD (flagAt byFullPathKey options)⟩) := by
  have htyped := wellTyped_of_valid h
  constructor
  · rintro ⟨haliases, hnull⟩
    exact override_null hnull haliases
  · intro hnot
    have hnull : aliases = [] ∨ lookup aliasesKey options ≠ some .null := by
      by_cases haliases : aliases = []
      · exact .inl haliases
      · exact .inr fun hnull => hnot ⟨haliases, hnull⟩
    refine ⟨_, override_eq htyped hnull, ?_, ?_⟩
    · rw [untouched_withMode, untouched_withAliases]
    · rw [Configuration.ofValue, ofEntries_eq (wellTyped_layers htyped _), aliasesOf_layers, flagAt_layers]

/-- Options with aliases that are repeated, a sorting mode that is null, and a log. -/
def repeatedAliases : List (Value × Value) :=
  [(.text "alias-prefix", .text "@app/"), (.text "aliases", .list [.text "~/", .text "@app/", .text "#"]),
    (.text "alphabetical-by-full-path", .null), (.text "logging", .map [(.text "enabled", .bool false)])]

theorem override_valid_repeatedAliases :
    validate (.map repeatedAliases) = [] ∧
      ∃ merged, override repeatedAliases [.text "", .text "#", .text "x/", .text "~/"] (some true) = .ok merged ∧
        untouched merged = untouched repeatedAliases ∧
        Configuration.ofValue (.map merged) = .ok ⟨["@app/".toList, "~/".toList, ['#'], "x/".toList], true⟩ := by
  have hvalid : validate (.map repeatedAliases) = [] := by rfl
  have haliases : aliasesOf repeatedAliases [.text "", .text "#", .text "x/", .text "~/"] =
      ["@app/".toList, "~/".toList, ['#'], "x/".toList] := by decide +kernel
  have hlayers := (override_valid hvalid [.text "", .text "#", .text "x/", .text "~/"] (some true)).2
    (by simp [repeatedAliases, lookup_cons, isText, aliasesKey])
  rw [haliases] at hlayers
  exact ⟨hvalid, hlayers⟩

end Options

end ImportOrder
