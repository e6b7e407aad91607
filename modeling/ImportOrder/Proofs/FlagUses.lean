import ImportOrder.Proofs.Containment

/-!
# Checks of a file and of standard input on the command line

A check is written with flags around what it checks: a file, or standard input under the name of a file. Each flag is
read by itself: it is refused wherever it stands, or it gives one event whatever the others are. So the command line of
a file is refused, or else both command lines ask for the same check, of the file and of standard input.
-/

namespace ImportOrder.Command

/-! ## Flags as they are written -/

/-- The flags of a check that take a value, standard input apart. -/
inductive ValueFlag where
  | optionsFile
  | aliasName
  | reportFormat
deriving DecidableEq

namespace ValueFlag

def flag : ValueFlag → Flag
  | optionsFile => configFlag
  | aliasName => aliasFlag
  | reportFormat => formatFlag

def name : ValueFlag → String
  | optionsFile => "--config"
  | aliasName => "--alias"
  | reportFormat => "--format"

end ValueFlag

/-- A flag on the command line of a check. -/
inductive FlagUse where
  /-- The value is an argument of its own. -/
  | apart (given : ValueFlag) (value : String)
  /-- The value follows after an equals sign. -/
  | joined (given : ValueFlag) (value : String)
  | byFullPath

/-- The flags and operands of a check. -/
abbrev checkGrammar : Grammar :=
  Name.check.grammar

/-- Whether an argument can be the value of the flag before it. -/
def isOperand (argument : String) : Bool :=
  argument != "--" &&
    match checkGrammar.kindOf argument with
    | .ok .operand => true
    | _ => false

namespace FlagUse

def arguments : FlagUse → List String
  | apart given value => [given.name, value]
  | joined given value => [given.name ++ "=" ++ value]
  | byFullPath => ["--alphabetical-by-full-path"]

/-- What a flag says, unless it is refused. -/
def event? : FlagUse → Option Event
  | apart given value =>
    if isOperand value && (Grammar.checkChoice given.flag (some value)).isOk then some (.flag given.flag (some value))
    else none
  | joined given value =>
    if (Grammar.checkChoice given.flag (Grammar.attachedValue value)).isOk then
      some (.flag given.flag (Grammar.attachedValue value))
    else none
  | byFullPath => some (.flag byFullPathFlag none)

end FlagUse

/-- The arguments of flags one behind another. -/
def argumentsOf (uses : List FlagUse) : List String :=
  uses.flatMap FlagUse.arguments

/-! ## What each argument is -/

namespace Grammar

variable {grammar : Grammar}

theorem classify_cons {argument : String} (h : argument ≠ "--") (rest : List String) :
    grammar.classify (argument :: rest) = (do
      let kind ← grammar.kindOf argument
      return (argument, kind) :: (← grammar.classify rest)) := by
  rw [classify, if_neg h]

theorem kindOf_of_head {argument : String} (h : argument.toList.head? ≠ some '-') :
    grammar.kindOf argument = .ok .operand := by
  rw [kindOf, if_pos (by simpa using h)]

end Grammar

theorem kindOf_name (given : ValueFlag) :
    checkGrammar.kindOf given.name = .ok (.flag given.flag given.name none) := by
  cases given <;> rfl

theorem toList_joined (given : ValueFlag) (value : String) :
    (given.name ++ "=" ++ value).toList = given.name.toList ++ '=' :: value.toList := by
  simp

theorem cutAtEquals_joined (given : ValueFlag) (value : String) :
    Grammar.cutAtEquals (given.name ++ "=" ++ value) = (given.name, some value) := by
  have hfree : ∀ c ∈ given.name.toList, (c != '=') = true := by
    rw [← List.all_eq_true]
    cases given <;> rfl
  unfold Grammar.cutAtEquals
  dsimp only
  rw [toList_joined, List.takeWhile_append_of_pos hfree, List.dropWhile_append_of_pos hfree]
  simp

/-- No flag has an equals sign in its name. -/
theorem lookup_joined (given : ValueFlag) (value : String) :
    checkGrammar.spellings.lookup (given.name ++ "=" ++ value) = none := by
  have hfree : ∀ spelling ∈ checkGrammar.spellings, '=' ∉ spelling.1.toList := by decide
  rw [List.lookup_eq_none_iff]
  intro spelling hmem
  rw [bne_iff_ne]
  intro heq
  apply hfree spelling hmem
  rw [← heq, toList_joined]
  simp

theorem kindOf_joined (given : ValueFlag) (value : String) :
    checkGrammar.kindOf (given.name ++ "=" ++ value) = .ok (.flag given.flag given.name (some value)) := by
  have hhead : (given.name ++ "=" ++ value).toList.head? = some '-' := by
    rw [toList_joined]
    cases given <;> rfl
  have hdash : given.name ++ "=" ++ value ≠ "-" := by
    intro heq
    have hmem : '=' ∈ "-".toList := by
      rw [← heq, toList_joined]
      simp
    exact absurd hmem (by decide)
  have hlookup : checkGrammar.spellings.lookup given.name = some given.flag := by
    cases given <;> rfl
  rw [Grammar.kindOf, hhead, if_neg (by decide), lookup_joined]
  dsimp only
  rw [if_neg hdash, cutAtEquals_joined]
  dsimp only
  rw [hlookup]

/-! ## Reading arguments from the front -/

namespace Grammar

variable {grammar : Grammar} {bound : Nat} {pending : Bool}

/-- Tells what the arguments are and reads them. -/
def parseFrom (grammar : Grammar) (bound : Nat) (pending : Bool) (arguments : List String) :
    Except ArgumentError Outcome :=
  grammar.classify arguments >>= grammar.read bound pending

/-- A flag at the front is read with its value. -/
theorem read_flag {argument spelling : String} {flag : Flag} {attached : Option String}
    {rest : List (String × Kind)} :
    grammar.read (bound + 1) pending ((argument, .flag flag spelling attached) :: rest) = (do
      let (value, count) ← grammar.flagValue flag spelling attached rest
      checkChoice flag value
      if flag.stops then return .stopped flag
      else return withEvent (.flag flag value) (← grammar.read bound pending (rest.drop count))) := by
  rw [read]
  rfl

/-- Operands at the front are taken as far as the grammar says, where a flag follows. -/
theorem read_operands {name : String} {count : Nat} {rest : List (String × Kind)}
    (hflag : rest.any (·.2.isFlag) = true)
    (hcount : grammar.operandCount? ((name, .operand) :: rest) = some (count + 1)) :
    grammar.read (bound + 1) true ((name, .operand) :: rest) =
      (grammar.read bound false (rest.drop count)).map
        (withEvent (.operands (grammar.operandValues ((name, .operand) :: rest.take count)))) := by
  have hany : ((name, Kind.operand) :: rest).any (·.2.isFlag) = true := by simp [hflag]
  rw [read.eq_def]
  dsimp only
  rw [if_pos hany, if_pos rfl, hcount, Option.getD_some, if_pos (Nat.succ_pos count), List.drop_succ_cons,
    List.take_succ_cons]
  cases grammar.read bound false (rest.drop count) with
  | error error => rfl
  | ok outcome => rfl

/-- Operands at the end are taken as far as the grammar says. -/
theorem read_last {arguments : List (String × Kind)} {count : Nat} (hflag : arguments.any (·.2.isFlag) = false)
    (hcount : grammar.operandCount? arguments = some count) :
    grammar.read (bound + 1) true arguments =
      .ok (.parsed [.operands (grammar.operandValues (arguments.take count))]
        ((arguments.drop count).map Prod.fst)) := by
  rw [read.eq_def]
  dsimp only
  rw [hflag, if_neg Bool.false_ne_true, if_pos rfl, hcount]
  rfl

end Grammar

/-- A value that is an argument of its own is an operand. -/
theorem isOperand_iff {argument : String} :
    isOperand argument = true ↔ argument ≠ "--" ∧ checkGrammar.kindOf argument = .ok .operand := by
  unfold isOperand
  rw [Bool.and_eq_true, bne_iff_ne]
  apply and_congr_right
  intro _
  split
  · simp_all
  · simp_all

theorem isOk_iff {α : Type} {outcome : Except ArgumentError α} : outcome.isOk = true ↔ ∃ a, outcome = .ok a := by
  cases outcome with
  | error error => simp [Except.isOk, Except.toBool]
  | ok a => simp [Except.isOk, Except.toBool]

theorem name_ne_dashes (given : ValueFlag) : given.name ≠ "--" := by
  cases given <;> decide

theorem joined_ne_dashes (given : ValueFlag) (value : String) : given.name ++ "=" ++ value ≠ "--" := by
  intro heq
  have hmem : '=' ∈ "--".toList := by
    rw [← heq, toList_joined]
    simp
  exact absurd hmem (by decide)

/-- What is read where a flag and its value have been found. -/
theorem read_value {bound count : Nat} {pending : Bool} {given : ValueFlag} {argument : String}
    {attached value : Option String} {rest : List (String × Kind)}
    (hvalue : checkGrammar.flagValue given.flag given.name attached rest = .ok (value, count)) :
    checkGrammar.read (bound + 1) pending ((argument, .flag given.flag given.name attached) :: rest) =
      Grammar.checkChoice given.flag value >>= fun _ =>
        (checkGrammar.read bound pending (rest.drop count)).map (Grammar.withEvent (.flag given.flag value)) := by
  have hstops : given.flag.stops = false := by
    cases given <;> rfl
  rw [Grammar.read_flag, hvalue]
  show (Grammar.checkChoice given.flag value >>= fun _ => if given.flag.stops then _ else _) = _
  rw [hstops]
  cases checkGrammar.read bound pending (rest.drop count) with
  | error error => rfl
  | ok outcome => rfl

theorem flagValue_attached (given : ValueFlag) (value : String) (rest : List (String × Kind)) :
    checkGrammar.flagValue given.flag given.name (some value) rest = .ok (Grammar.attachedValue value, 0) := by
  cases given <;> rfl

theorem flagValue_operand (given : ValueFlag) (value : String) (rest : List (String × Kind)) :
    checkGrammar.flagValue given.flag given.name none ((value, .operand) :: rest) = .ok (some value, 1) := by
  cases given <;> rfl

section

variable {bound : Nat} {pending : Bool}

theorem parseFrom_joined (given : ValueFlag) (value : String) (rest : List String) :
    checkGrammar.parseFrom (bound + 1) pending ((given.name ++ "=" ++ value) :: rest) =
      checkGrammar.classify rest >>= fun classified =>
        Grammar.checkChoice given.flag (Grammar.attachedValue value) >>= fun _ =>
          (checkGrammar.read bound pending classified).map
            (Grammar.withEvent (.flag given.flag (Grammar.attachedValue value))) := by
  rw [Grammar.parseFrom, Grammar.classify_cons (joined_ne_dashes given value), kindOf_joined]
  cases checkGrammar.classify rest with
  | error error => rfl
  | ok classified =>
    show checkGrammar.read (bound + 1) pending
      ((given.name ++ "=" ++ value, .flag given.flag given.name (some value)) :: classified) = _
    rw [read_value (flagValue_attached given value classified)]
    rfl

theorem parseFrom_apart {given : ValueFlag} {value : String} (hvalue : isOperand value = true) (rest : List String) :
    checkGrammar.parseFrom (bound + 1) pending (given.name :: value :: rest) =
      checkGrammar.classify rest >>= fun classified =>
        Grammar.checkChoice given.flag (some value) >>= fun _ =>
          (checkGrammar.read bound pending classified).map (Grammar.withEvent (.flag given.flag (some value))) := by
  obtain ⟨hdashes, hkind⟩ := isOperand_iff.mp hvalue
  rw [Grammar.parseFrom, Grammar.classify_cons (name_ne_dashes given), kindOf_name, Grammar.classify_cons hdashes,
    hkind]
  cases checkGrammar.classify rest with
  | error error => rfl
  | ok classified =>
    show checkGrammar.read (bound + 1) pending
      ((given.name, .flag given.flag given.name none) :: (value, .operand) :: classified) = _
    rw [read_value (flagValue_operand given value classified)]
    rfl

theorem parseFrom_byFullPath (rest : List String) :
    checkGrammar.parseFrom (bound + 1) pending ("--alphabetical-by-full-path" :: rest) =
      (checkGrammar.parseFrom bound pending rest).map (Grammar.withEvent (.flag byFullPathFlag none)) := by
  have hkind : checkGrammar.kindOf "--alphabetical-by-full-path" =
      .ok (.flag byFullPathFlag "--alphabetical-by-full-path" none) := rfl
  rw [Grammar.parseFrom, Grammar.parseFrom, Grammar.classify_cons (by decide), hkind]
  cases checkGrammar.classify rest with
  | error error => rfl
  | ok classified =>
    show checkGrammar.read (bound + 1) pending
      (("--alphabetical-by-full-path", .flag byFullPathFlag "--alphabetical-by-full-path" none) :: classified) =
        (checkGrammar.read bound pending classified).map _
    rw [Grammar.read_flag]
    show (do
      let outcome ← checkGrammar.read bound pending classified
      return Grammar.withEvent (.flag byFullPathFlag none) outcome) = _
    cases checkGrammar.read bound pending classified with
    | error error => rfl
    | ok outcome => rfl

/-- A flag is refused that no value follows. -/
theorem parseFrom_missing {given : ValueFlag} {value : String} (hvalue : isOperand value = false) (rest : List String) :
    ∃ error, checkGrammar.parseFrom (bound + 1) pending (given.name :: value :: rest) = .error error := by
  have hread : ∀ kind classified, kind ≠ .operand →
      ∃ error, checkGrammar.read (bound + 1) pending
        ((given.name, .flag given.flag given.name none) :: (value, kind) :: classified) = .error error := by
    intro kind classified hkind
    have hmissing : checkGrammar.flagValue given.flag given.name none ((value, kind) :: classified) =
        .error (.missingValue given.flag) := by
      cases kind with
      | operand => exact absurd rfl hkind
      | dashes | unknown | flag => cases given <;> rfl
    rw [Grammar.read_flag, hmissing]
    exact ⟨_, rfl⟩
  rw [Grammar.parseFrom, Grammar.classify_cons (name_ne_dashes given), kindOf_name]
  by_cases hdashes : value = "--"
  · rw [Grammar.classify, if_pos hdashes]
    exact hread .dashes _ (by simp)
  · rw [Grammar.classify_cons hdashes]
    cases hkind : checkGrammar.kindOf value with
    | error error => exact ⟨error, rfl⟩
    | ok kind =>
      cases checkGrammar.classify rest with
      | error error => exact ⟨error, rfl⟩
      | ok classified =>
        apply hread kind classified
        rintro rfl
        simp [isOperand_iff.mpr ⟨hdashes, hkind⟩] at hvalue

end

/-- The order in which refusals come does not matter. -/
theorem bind_error_of_isOk {α β : Type} {x : Except ArgumentError α} {choice : Except ArgumentError Unit}
    {next : α → Except ArgumentError β} (h : choice.isOk = false) :
    ∃ error, (x >>= fun a => choice >>= fun _ => next a) = .error error := by
  cases x with
  | error error => exact ⟨error, rfl⟩
  | ok a =>
    cases choice with
    | error error => exact ⟨error, rfl⟩
    | ok _ => simp [Except.isOk, Except.toBool] at h

namespace FlagUse

variable {bound : Nat} {pending : Bool} {use : FlagUse}

/-- A flag at the front gives its event. -/
theorem parseFrom_of_event {event : Event} (h : use.event? = some event) (rest : List String) :
    checkGrammar.parseFrom (bound + 1) pending (use.arguments ++ rest) =
      (checkGrammar.parseFrom bound pending rest).map (Grammar.withEvent event) := by
  have hchosen : ∀ given value, (Grammar.checkChoice given value).isOk = true →
      Grammar.checkChoice given value = .ok () := by
    intro given value hok
    obtain ⟨_, hok⟩ := isOk_iff.mp hok
    exact hok
  cases use with
  | apart given value =>
    rw [event?] at h
    split at h
    · rename_i hok
      rw [Bool.and_eq_true] at hok
      obtain rfl := Option.some.inj h
      show checkGrammar.parseFrom (bound + 1) pending (given.name :: value :: rest) = _
      rw [parseFrom_apart hok.1, hchosen _ _ hok.2, Grammar.parseFrom]
      cases checkGrammar.classify rest with
      | error error => rfl
      | ok classified => rfl
    · simp at h
  | joined given value =>
    rw [event?] at h
    split at h
    · rename_i hok
      obtain rfl := Option.some.inj h
      show checkGrammar.parseFrom (bound + 1) pending ((given.name ++ "=" ++ value) :: rest) = _
      rw [parseFrom_joined, hchosen _ _ hok, Grammar.parseFrom]
      cases checkGrammar.classify rest with
      | error error => rfl
      | ok classified => rfl
    · simp at h
  | byFullPath =>
    obtain rfl := Option.some.inj h
    exact parseFrom_byFullPath rest

/-- A flag at the front is refused whatever follows. -/
theorem parseFrom_of_refused (h : use.event? = none) (rest : List String) :
    ∃ error, checkGrammar.parseFrom (bound + 1) pending (use.arguments ++ rest) = .error error := by
  cases use with
  | apart given value =>
    show ∃ error, checkGrammar.parseFrom (bound + 1) pending (given.name :: value :: rest) = .error error
    cases hvalue : isOperand value with
    | false => exact parseFrom_missing hvalue rest
    | true =>
      rw [parseFrom_apart hvalue]
      apply bind_error_of_isOk
      simpa [event?, hvalue] using h
  | joined given value =>
    show ∃ error, checkGrammar.parseFrom (bound + 1) pending ((given.name ++ "=" ++ value) :: rest) = .error error
    rw [parseFrom_joined]
    apply bind_error_of_isOk
    simpa [event?] using h
  | byFullPath => simp [event?] at h

end FlagUse

/-! ## Flags one behind another -/

/-- What flags say, unless one of them is refused. -/
def eventsOf (uses : List FlagUse) : Option (List Event) :=
  uses.mapM FlagUse.event?

/-- Puts events before those of an outcome. -/
def withEvents (events : List Event) (outcome : Outcome) : Outcome :=
  events.foldr Grammar.withEvent outcome

theorem withEvents_parsed (events more : List Event) (leftOver : List String) :
    withEvents events (.parsed more leftOver) = .parsed (events ++ more) leftOver := by
  induction events with
  | nil => rfl
  | cons event events ih =>
    show Grammar.withEvent event (withEvents events (.parsed more leftOver)) = _
    rw [ih]
    rfl

theorem argumentsOf_cons (use : FlagUse) (uses : List FlagUse) (rest : List String) :
    argumentsOf (use :: uses) ++ rest = use.arguments ++ (argumentsOf uses ++ rest) := by
  simp [argumentsOf]

section

variable {bound : Nat} {pending : Bool}

/-- Flags at the front are read one by one, as long as none is refused. -/
theorem parseFrom_of_events {uses : List FlagUse} {events : List Event} (h : eventsOf uses = some events)
    (rest : List String) : checkGrammar.parseFrom (uses.length + bound) pending (argumentsOf uses ++ rest) =
      (checkGrammar.parseFrom bound pending rest).map (withEvents events) := by
  induction uses generalizing events with
  | nil =>
    obtain rfl : [] = events := Option.some.inj h
    show checkGrammar.parseFrom (0 + bound) pending rest = _
    rw [Nat.zero_add]
    cases checkGrammar.parseFrom bound pending rest with
    | error error => rfl
    | ok outcome => rfl
  | cons use uses ih =>
    rw [eventsOf, List.mapM_cons] at h
    obtain ⟨event, hevent, h⟩ := Option.bind_eq_some_iff.mp h
    obtain ⟨others, hothers, h⟩ := Option.bind_eq_some_iff.mp h
    obtain rfl := Option.some.inj h
    rw [argumentsOf_cons, List.length_cons, Nat.add_right_comm, FlagUse.parseFrom_of_event hevent, ih hothers]
    cases checkGrammar.parseFrom bound pending rest with
    | error error => rfl
    | ok outcome => rfl

/-- Arguments are refused if one of the flags at their front is. -/
theorem parseFrom_of_refused {uses : List FlagUse} (h : eventsOf uses = none) (rest : List String) :
    ∃ error, checkGrammar.parseFrom (uses.length + bound) pending (argumentsOf uses ++ rest) = .error error := by
  induction uses with
  | nil => simp [eventsOf] at h
  | cons use uses ih =>
    rw [argumentsOf_cons, List.length_cons, Nat.add_right_comm]
    cases hevent : use.event? with
    | none => exact FlagUse.parseFrom_of_refused hevent _
    | some event =>
      have hothers : eventsOf uses = none := by
        rw [eventsOf, List.mapM_cons, hevent] at h
        cases hothers : uses.mapM FlagUse.event? with
        | none => exact hothers
        | some others => simp [hothers] at h
      obtain ⟨error, herror⟩ := ih hothers
      rw [FlagUse.parseFrom_of_event hevent, herror]
      exact ⟨error, rfl⟩

/-- Where no arguments are left, none are left over. -/
theorem parseFrom_nil (bound : Nat) : checkGrammar.parseFrom bound false [] = .ok (.parsed [] []) := by
  cases bound with
  | zero => rfl
  | succ bound => rfl

theorem classify_flag {use : FlagUse} {rest : List String} {classified : List (String × Kind)}
    (h : checkGrammar.classify (use.arguments ++ rest) = .ok classified) :
    ∃ argument kind others, classified = (argument, kind) :: others ∧ kind.isFlag = true := by
  have hfirst : ∃ argument kind more, use.arguments ++ rest = argument :: more ∧ argument ≠ "--" ∧
      checkGrammar.kindOf argument = .ok kind ∧ kind.isFlag = true := by
    cases use with
    | apart given value => exact ⟨_, _, _, rfl, name_ne_dashes given, kindOf_name given, rfl⟩
    | joined given value => exact ⟨_, _, _, rfl, joined_ne_dashes given value, kindOf_joined given value, rfl⟩
    | byFullPath => exact ⟨"--alphabetical-by-full-path", _, _, rfl, by decide, rfl, rfl⟩
  obtain ⟨argument, kind, more, hargs, hdashes, hkind, hflag⟩ := hfirst
  rw [hargs, Grammar.classify_cons hdashes, hkind] at h
  cases hmore : checkGrammar.classify more with
  | error error =>
    rw [hmore] at h
    simp [bind, Except.bind] at h
  | ok others =>
    rw [hmore] at h
    exact ⟨argument, kind, others, (Except.ok.inj h).symm, hflag⟩

section

variable {name : String} (hname : name.toList.head? ≠ some '-')

include hname

theorem ne_dashes_of_head : name ≠ "--" := by
  rintro rfl
  exact hname rfl

theorem classify_operand (rest : List String) : checkGrammar.classify (name :: rest) =
    (checkGrammar.classify rest).map fun classified => (name, .operand) :: classified := by
  rw [Grammar.classify_cons (ne_dashes_of_head hname), Grammar.kindOf_of_head hname]
  cases checkGrammar.classify rest with
  | error error => rfl
  | ok classified => rfl

theorem operandValues_single : checkGrammar.operandValues [(name, .operand)] = [name] := by
  show [name].erase "--" = [name]
  exact List.erase_of_not_mem fun hmem => ne_dashes_of_head hname (List.mem_singleton.mp hmem).symm

/-- A file name between flags is the only operand. -/
theorem parseFrom_operand (use : FlagUse) (uses : List FlagUse) :
    checkGrammar.parseFrom (bound + 1) true (name :: argumentsOf (use :: uses)) =
      (checkGrammar.parseFrom bound false (argumentsOf (use :: uses))).map (Grammar.withEvent (.operands [name])) := by
  have hargs : argumentsOf (use :: uses) = use.arguments ++ argumentsOf uses := by simp [argumentsOf]
  rw [Grammar.parseFrom, Grammar.parseFrom, classify_operand hname]
  cases hclassify : checkGrammar.classify (argumentsOf (use :: uses)) with
  | error error => rfl
  | ok classified =>
    rw [hargs] at hclassify
    obtain ⟨argument, kind, others, rfl, hflag⟩ := classify_flag hclassify
    have hcount : checkGrammar.operandCount? ((name, .operand) :: (argument, kind) :: others) = some (0 + 1) := by
      show some ((((name, Kind.operand) :: (argument, kind) :: others).takeWhile fun a => !a.2.isFlag).length) = some 1
      rw [List.takeWhile_cons_of_pos (by rfl), List.takeWhile_cons_of_neg (by simp [hflag])]
      rfl
    show checkGrammar.read (bound + 1) true ((name, .operand) :: (argument, kind) :: others) = _
    rw [Grammar.read_operands (by simp [hflag]) hcount, List.take_zero, operandValues_single hname, List.drop_zero]
    rfl

/-- A file name behind all flags is the only operand. -/
theorem parseFrom_last : checkGrammar.parseFrom (bound + 1) true [name] = .ok (.parsed [.operands [name]] []) := by
  rw [Grammar.parseFrom, classify_operand hname]
  show checkGrammar.read (bound + 1) true [(name, .operand)] = _
  rw [Grammar.read_last (by rfl) (by rfl)]
  show Except.ok (Outcome.parsed [.operands (checkGrammar.operandValues [(name, .operand)])] []) = _
  rw [operandValues_single hname]

/-- A file name between flags and flags behind it. -/
theorem parseFrom_name {uses : List FlagUse} {events : List Event} (h : eventsOf uses = some events)
    (hbound : uses.length ≤ bound) :
    checkGrammar.parseFrom (bound + 1) true (name :: argumentsOf uses) =
      .ok (.parsed (.operands [name] :: events) []) := by
  cases uses with
  | nil =>
    obtain rfl : [] = events := Option.some.inj h
    exact parseFrom_last hname
  | cons use uses =>
    obtain ⟨more, rfl⟩ := Nat.exists_eq_add_of_le hbound
    rw [parseFrom_operand hname, ← List.append_nil (argumentsOf (use :: uses)), parseFrom_of_events h, parseFrom_nil]
    show Except.ok (Grammar.withEvent (.operands [name]) (withEvents events (.parsed [] []))) = _
    rw [withEvents_parsed, List.append_nil]
    rfl

theorem parseFrom_name_of_refused {uses : List FlagUse} (h : eventsOf uses = none) (hbound : uses.length ≤ bound) :
    ∃ error, checkGrammar.parseFrom (bound + 1) true (name :: argumentsOf uses) = .error error := by
  cases uses with
  | nil => simp [eventsOf] at h
  | cons use uses =>
    obtain ⟨more, rfl⟩ := Nat.exists_eq_add_of_le hbound
    obtain ⟨error, herror⟩ : ∃ error, checkGrammar.parseFrom ((use :: uses).length + more) false
        (argumentsOf (use :: uses) ++ []) = .error error := parseFrom_of_refused h []
    rw [List.append_nil] at herror
    rw [parseFrom_operand hname, herror]
    exact ⟨error, rfl⟩

/-- Standard input and the name that it is checked under. -/
theorem parseFrom_stdin (rest : List String) :
    checkGrammar.parseFrom (bound + 2) pending ("--stdin" :: "--filename" :: name :: rest) =
      (checkGrammar.parseFrom bound pending rest).map
        (withEvents [.flag stdinFlag none, .flag filenameFlag (some name)]) := by
  have hstdin : checkGrammar.kindOf "--stdin" = .ok (.flag stdinFlag "--stdin" none) := rfl
  have hfilename : checkGrammar.kindOf "--filename" = .ok (.flag filenameFlag "--filename" none) := rfl
  rw [Grammar.parseFrom, Grammar.classify_cons (by decide), hstdin, Grammar.classify_cons (by decide), hfilename,
    classify_operand hname, Grammar.parseFrom]
  cases checkGrammar.classify rest with
  | error error => rfl
  | ok classified =>
    show checkGrammar.read (bound + 2) pending (("--stdin", .flag stdinFlag "--stdin" none) ::
      ("--filename", .flag filenameFlag "--filename" none) :: (name, .operand) :: classified) =
        (checkGrammar.read bound pending classified).map _
    rw [Grammar.read_flag]
    show (do
      let outcome ← checkGrammar.read (bound + 1) pending
        (("--filename", .flag filenameFlag "--filename" none) :: (name, .operand) :: classified)
      return Grammar.withEvent (.flag stdinFlag none) outcome) = _
    rw [Grammar.read_flag]
    show (do
      let outcome ← (do
        let outcome ← checkGrammar.read bound pending classified
        return Grammar.withEvent (.flag filenameFlag (some name)) outcome)
      return Grammar.withEvent (.flag stdinFlag none) outcome) = _
    cases checkGrammar.read bound pending classified with
    | error error => rfl
    | ok outcome => rfl

end

end

/-! ## The command -/

namespace Grammar

variable {grammar : Grammar}

theorem map_fst_of_classify {arguments : List String} {classified : List (String × Kind)}
    (h : grammar.classify arguments = .ok classified) : classified.map Prod.fst = arguments := by
  induction arguments generalizing classified with
  | nil =>
    obtain rfl := Except.ok.inj h
    rfl
  | cons argument rest ih =>
    by_cases hdashes : argument = "--"
    · rw [classify, if_pos hdashes] at h
      obtain rfl := Except.ok.inj h
      rw [List.map_cons, List.map_map]
      exact congrArg (argument :: ·) (List.map_id rest)
    · rw [classify_cons hdashes] at h
      cases hkind : grammar.kindOf argument with
      | error error => simp [hkind, bind, Except.bind] at h
      | ok kind =>
        cases hrest : grammar.classify rest with
        | error error => simp [hkind, hrest, bind, Except.bind] at h
        | ok others =>
          rw [hkind, hrest] at h
          obtain rfl := Except.ok.inj h
          rw [List.map_cons, ih hrest]

theorem isOk_classify_cons {argument : String} (h : argument ≠ "--") (rest : List String) :
    (grammar.classify (argument :: rest)).isOk = ((grammar.kindOf argument).isOk && (grammar.classify rest).isOk) := by
  rw [classify_cons h]
  cases grammar.kindOf argument with
  | error error => rfl
  | ok kind =>
    cases grammar.classify rest with
    | error error => rfl
    | ok others => rfl

end Grammar

/-- Everything behind a command is left to it. -/
theorem parse_check (arguments : List String) : mainGrammar.parse ("check" :: arguments) =
    (mainGrammar.classify arguments).map fun _ => .parsed [.operands ("check" :: arguments)] [] := by
  have hkind : mainGrammar.kindOf "check" = .ok .operand := rfl
  rw [Grammar.parse, Grammar.classify_cons (by decide), hkind]
  cases hclassify : mainGrammar.classify arguments with
  | error error => rfl
  | ok classified =>
    have hnames := Grammar.map_fst_of_classify hclassify
    have hcount : mainGrammar.operandCount? (("check", .operand) :: classified) = some (classified.length + 1) := rfl
    have hvalues : mainGrammar.operandValues (("check", .operand) :: classified) = "check" :: arguments := by
      rw [← hnames]
      rfl
    show mainGrammar.read (2 * ("check" :: arguments).length + 1 + 1) true (("check", .operand) :: classified) = _
    cases hflag : classified.any (·.2.isFlag) with
    | true =>
      rw [Grammar.read_operands hflag hcount, List.take_length, List.drop_length, hvalues]
      rfl
    | false =>
      have hnone : (("check", Kind.operand) :: classified).any (·.2.isFlag) = false := by
        rw [List.any_cons, hflag]
        rfl
      rw [Grammar.read_last hnone hcount, List.take_of_length_le (by simp), hvalues, List.drop_eq_nil_of_le (by simp)]
      rfl

theorem ofArguments_check (arguments : List String) : Invocation.ofArguments ("check" :: arguments) =
    match mainGrammar.classify arguments with
    | .error error => .refused Settings.programName error
    | .ok _ => Invocation.ofCommand [] "check" arguments := by
  rw [Invocation.ofArguments, parse_check]
  cases mainGrammar.classify arguments with
  | error error => rfl
  | ok classified => rfl

theorem ofCommand_check (arguments : List String) : Invocation.ofCommand [] "check" arguments =
    match checkGrammar.parse arguments with
    | .error error => .refused Name.check.title error
    | .ok (.stopped _) => .help
    | .ok (.parsed events more) =>
      if more.isEmpty then Invocation.ofEvents .check events
      else .refused Settings.programName (.unrecognized more) := by
  rfl

/-- Naming standard input in place of a file makes no argument ambiguous to the program. -/
theorem classify_stdin {name : String} {before after : List String}
    (h : (mainGrammar.classify (before ++ name :: after)).isOk = true) :
    (mainGrammar.classify (before ++ "--stdin" :: "--filename" :: name :: after)).isOk = true := by
  induction before with
  | nil =>
    rw [List.nil_append, Grammar.isOk_classify_cons (by decide), Grammar.isOk_classify_cons (by decide)]
    rw [List.nil_append] at h
    rw [h]
    rfl
  | cons argument before ih =>
    rw [List.cons_append] at h ⊢
    by_cases hdashes : argument = "--"
    · rw [Grammar.classify, if_pos hdashes]
      rfl
    · rw [Grammar.isOk_classify_cons hdashes, Bool.and_eq_true] at h ⊢
      exact ⟨h.1, ih h.2⟩

/-! ## What the flags say -/

/-- An event that a flag gives which names neither standard input nor a file. -/
def IsSetting : Event → Prop
  | .flag flag _ => flag.names ≠ stdinFlag.names ∧ flag.names ≠ filenameFlag.names
  | .operands _ => False

theorem FlagUse.isSetting {use : FlagUse} {event : Event} (h : use.event? = some event) : IsSetting event := by
  have hflag : ∀ given : ValueFlag, given.flag.names ≠ stdinFlag.names ∧ given.flag.names ≠ filenameFlag.names := by
    intro given
    cases given <;> decide
  cases use with
  | apart given value =>
    rw [event?] at h
    split at h
    · obtain rfl := Option.some.inj h
      exact hflag given
    · simp at h
  | joined given value =>
    rw [event?] at h
    split at h
    · obtain rfl := Option.some.inj h
      exact hflag given
    · simp at h
  | byFullPath =>
    obtain rfl := Option.some.inj h
    exact ⟨by decide, by decide⟩

theorem isSetting_of_eventsOf {uses : List FlagUse} {events : List Event} (h : eventsOf uses = some events) :
    ∀ event ∈ events, IsSetting event := by
  induction uses generalizing events with
  | nil =>
    obtain rfl : [] = events := Option.some.inj h
    simp
  | cons use uses ih =>
    rw [eventsOf, List.mapM_cons] at h
    obtain ⟨event, hevent, h⟩ := Option.bind_eq_some_iff.mp h
    obtain ⟨others, hothers, h⟩ := Option.bind_eq_some_iff.mp h
    obtain rfl := Option.some.inj h
    exact List.forall_mem_cons.mpr ⟨FlagUse.isSetting hevent, ih hothers⟩

section

variable {events : List Event} (h : ∀ event ∈ events, IsSetting event)

include h

/-- Settings hold no operands. -/
theorem operands_of_isSetting : (Choices.ofEvents events).operands = [] := by
  rw [Choices.ofEvents, List.flatMap_eq_nil_iff]
  intro event hmem
  have hsetting := h event hmem
  cases event with
  | flag flag value => rfl
  | operands values => exact hsetting.elim

theorem valuesOf_isSetting {flag : Flag} (hflag : flag.names = stdinFlag.names ∨ flag.names = filenameFlag.names) :
    valuesOf flag events = [] := by
  rw [valuesOf, List.filterMap_eq_nil_iff]
  intro event hmem
  have hsetting := h event hmem
  cases event with
  | flag given value =>
    have hne : given.names ≠ flag.names := by
      rcases hflag with heq | heq
      · rw [heq]
        exact hsetting.1
      · rw [heq]
        exact hsetting.2
    show (if given.names = flag.names then some value else none) = none
    rw [if_neg hne]
  | operands values => rfl

end

theorem valuesOf_append (flag : Flag) (events more : List Event) :
    valuesOf flag (events ++ more) = valuesOf flag events ++ valuesOf flag more :=
  List.filterMap_append

theorem operands_append (events more : List Event) : (Choices.ofEvents (events ++ more)).operands =
    (Choices.ofEvents events).operands ++ (Choices.ofEvents more).operands :=
  List.flatMap_append

/-- The flags of a check that say how files are checked. -/
def settingFlags : List Flag :=
  [configFlag, aliasFlag, byFullPathFlag, formatFlag]

/-- What a check is asked for, by the flags that say how files are checked and those that say what is checked. -/
theorem ofEvents_check {events settings : List Event} {operands : List String} {stdin : Bool} {name : String}
    (hsettings : ∀ flag ∈ settingFlags, valuesOf flag events = valuesOf flag settings)
    (hoperands : (Choices.ofEvents events).operands = operands)
    (hstdin : (!(valuesOf stdinFlag events).isEmpty) = stdin) (hname : lastValue filenameFlag events = name)
    (hgiven : (operands.isEmpty && !stdin) = false) :
    Invocation.ofEvents .check events = .check { Choices.ofEvents settings with operands := operands } stdin name
      (Report.Format.ofName (lastValue formatFlag settings)) := by
  have hlast : ∀ flag ∈ settingFlags, lastValue flag events = lastValue flag settings := by
    intro flag hmem
    rw [lastValue, hsettings flag hmem, lastValue]
  have hchoices : Choices.ofEvents events = { Choices.ofEvents settings with operands := operands } := by
    rw [← hoperands]
    show Choices.mk _ _ _ _ = Choices.mk _ _ _ _
    rw [hlast configFlag (by simp [settingFlags]), hsettings aliasFlag (by simp [settingFlags]),
      hsettings byFullPathFlag (by simp [settingFlags])]
    rfl
  rw [Invocation.ofEvents]
  dsimp only
  rw [hoperands, hstdin, hgiven, if_neg Bool.false_ne_true, hchoices, hname,
    hlast formatFlag (by simp [settingFlags])]

section

variable {first last : List Event} (hfirst : ∀ event ∈ first, IsSetting event)
  (hlast : ∀ event ∈ last, IsSetting event) {name : String}

include hfirst hlast

theorem ofEvents_file : Invocation.ofEvents .check (first ++ .operands [name] :: last) =
    .check { Choices.ofEvents (first ++ last) with operands := [name] } false ""
      (Report.Format.ofName (lastValue formatFlag (first ++ last))) := by
  have hvalues : ∀ flag, valuesOf flag (first ++ .operands [name] :: last) = valuesOf flag (first ++ last) := by
    intro flag
    rw [valuesOf_append, valuesOf_append]
    rfl
  apply ofEvents_check
  · intro flag _
    exact hvalues flag
  · rw [operands_append, operands_of_isSetting hfirst]
    show [name] ++ (Choices.ofEvents last).operands = [name]
    rw [operands_of_isSetting hlast]
    rfl
  · rw [hvalues, valuesOf_append, valuesOf_isSetting hfirst (.inl rfl), valuesOf_isSetting hlast (.inl rfl)]
    rfl
  · rw [lastValue, hvalues, valuesOf_append, valuesOf_isSetting hfirst (.inr rfl), valuesOf_isSetting hlast (.inr rfl)]
    rfl
  · rfl

theorem ofEvents_input : Invocation.ofEvents .check
    (first ++ (.flag stdinFlag none :: .flag filenameFlag (some name) :: (last ++ [.operands []]))) =
    .check { Choices.ofEvents (first ++ last) with operands := [] } true name
      (Report.Format.ofName (lastValue formatFlag (first ++ last))) := by
  have hsplit : ∀ flag, valuesOf flag
      (first ++ (.flag stdinFlag none :: .flag filenameFlag (some name) :: (last ++ [.operands []]))) =
        valuesOf flag first ++ (valuesOf flag [.flag stdinFlag none, .flag filenameFlag (some name)] ++
          valuesOf flag last) := by
    intro flag
    have hend : valuesOf flag (last ++ [.operands []]) = valuesOf flag last := by
      rw [valuesOf_append]
      exact List.append_nil _
    rw [← hend, ← valuesOf_append flag [_, _], ← valuesOf_append]
    rfl
  -- the two flags for standard input are no settings
  have hnamed : ∀ flag ∈ settingFlags,
      valuesOf flag [.flag stdinFlag none, .flag filenameFlag (some name)] = [] := by
    intro flag hmem
    have hother : stdinFlag.names ≠ flag.names ∧ filenameFlag.names ≠ flag.names := by
      revert flag
      decide
    simp [valuesOf, hother]
  apply ofEvents_check
  · intro flag hmem
    rw [hsplit, hnamed flag hmem, List.nil_append, valuesOf_append]
  · rw [operands_append, operands_of_isSetting hfirst]
    show (Choices.ofEvents (last ++ [.operands []])).operands = []
    rw [operands_append, operands_of_isSetting hlast]
    rfl
  · rw [hsplit, valuesOf_isSetting hfirst (.inl rfl)]
    rfl
  · rw [lastValue, hsplit, valuesOf_isSetting hfirst (.inr rfl), valuesOf_isSetting hlast (.inr rfl)]
    rfl
  · rfl

end

/-! ## The two command lines -/

/-- The command line that checks a file. -/
def checkFile (before after : List FlagUse) (name : String) : List String :=
  "check" :: (argumentsOf before ++ name :: argumentsOf after)

/-- The command line that checks standard input under the name of a file. -/
def checkInput (before after : List FlagUse) (name : String) : List String :=
  "check" :: (argumentsOf before ++ "--stdin" :: "--filename" :: name :: argumentsOf after)

theorem length_le_argumentsOf (uses : List FlagUse) : uses.length ≤ (argumentsOf uses).length := by
  induction uses with
  | nil => simp
  | cons use uses ih =>
    have huse : 0 < use.arguments.length := by
      cases use <;> simp [FlagUse.arguments]
    rw [← List.append_nil (argumentsOf (use :: uses)), argumentsOf_cons, List.append_nil, List.length_append,
      List.length_cons]
    omega

/-- The bound of a parse leaves enough for what follows flags. -/
theorem exists_parse_eq_parseFrom (uses : List FlagUse) (rest : List String) :
    ∃ bound, rest.length + 2 ≤ bound ∧ checkGrammar.parse (argumentsOf uses ++ rest) =
      checkGrammar.parseFrom (uses.length + bound) true (argumentsOf uses ++ rest) := by
  have hlength := length_le_argumentsOf uses
  refine ⟨2 * (argumentsOf uses ++ rest).length + 2 - uses.length, ?_, ?_⟩
  · rw [List.length_append]
    omega
  · rw [Nat.add_sub_cancel' (by rw [List.length_append]; omega)]
    rfl

section

variable {name : String} (hname : name.toList.head? ≠ some '-') {before after : List FlagUse}

include hname

theorem parse_file {first last : List Event} (hfirst : eventsOf before = some first)
    (hlast : eventsOf after = some last) :
    checkGrammar.parse (argumentsOf before ++ name :: argumentsOf after) =
      .ok (.parsed (first ++ .operands [name] :: last) []) := by
  have hafter := length_le_argumentsOf after
  obtain ⟨bound, hbound, hparse⟩ := exists_parse_eq_parseFrom before (name :: argumentsOf after)
  rw [List.length_cons] at hbound
  obtain ⟨more, rfl⟩ : ∃ more, bound = more + 1 := ⟨bound - 1, by omega⟩
  rw [hparse, parseFrom_of_events hfirst, parseFrom_name hname hlast (by omega)]
  show Except.ok (withEvents first _) = _
  rw [withEvents_parsed]

theorem parse_file_of_refused (h : eventsOf before = none ∨ eventsOf after = none) :
    ∃ error, checkGrammar.parse (argumentsOf before ++ name :: argumentsOf after) = .error error := by
  have hafter := length_le_argumentsOf after
  obtain ⟨bound, hbound, hparse⟩ := exists_parse_eq_parseFrom before (name :: argumentsOf after)
  rw [hparse]
  cases hfirst : eventsOf before with
  | none => exact parseFrom_of_refused hfirst _
  | some first =>
    have hlast : eventsOf after = none := h.resolve_left (by simp [hfirst])
    rw [List.length_cons] at hbound
    obtain ⟨more, rfl⟩ : ∃ more, bound = more + 1 := ⟨bound - 1, by omega⟩
    have hmore : after.length ≤ more := by omega
    obtain ⟨error, herror⟩ := parseFrom_name_of_refused hname hlast hmore
    rw [parseFrom_of_events hfirst, herror]
    exact ⟨error, rfl⟩

theorem parse_input {first last : List Event} (hfirst : eventsOf before = some first)
    (hlast : eventsOf after = some last) :
    checkGrammar.parse (argumentsOf before ++ "--stdin" :: "--filename" :: name :: argumentsOf after) =
      .ok (.parsed (first ++ (.flag stdinFlag none :: .flag filenameFlag (some name) :: (last ++ [.operands []])))
        []) := by
  have hafter := length_le_argumentsOf after
  obtain ⟨bound, hbound, hparse⟩ :=
    exists_parse_eq_parseFrom before ("--stdin" :: "--filename" :: name :: argumentsOf after)
  rw [List.length_cons, List.length_cons, List.length_cons] at hbound
  obtain ⟨more, rfl⟩ : ∃ more, bound = after.length + (more + 1) + 2 := ⟨bound - after.length - 3, by omega⟩
  -- No operands stand behind the last flag.
  have hend : checkGrammar.parseFrom (more + 1) true [] = .ok (.parsed [.operands []] []) := rfl
  rw [hparse, parseFrom_of_events hfirst, parseFrom_stdin hname, ← List.append_nil (argumentsOf after),
    parseFrom_of_events hlast, hend]
  show Except.ok (withEvents first (withEvents _ (withEvents last _))) = _
  rw [withEvents_parsed, withEvents_parsed, withEvents_parsed]
  rfl

/-- The command line that checks a file is refused, or else both command lines ask for the same check. -/
theorem ofArguments_file_input :
    (∃ program error, Invocation.ofArguments (checkFile before after name) = .refused program error) ∨
    ∃ (choices : Choices) (format : Report.Format),
      Invocation.ofArguments (checkFile before after name) =
        .check { choices with operands := [name] } false "" format ∧
      Invocation.ofArguments (checkInput before after name) =
        .check { choices with operands := [] } true name format := by
  rw [checkFile, ofArguments_check, checkInput, ofArguments_check]
  cases hmain : mainGrammar.classify (argumentsOf before ++ name :: argumentsOf after) with
  | error error => exact .inl ⟨_, _, rfl⟩
  | ok classified =>
    have hinput : (mainGrammar.classify
        (argumentsOf before ++ "--stdin" :: "--filename" :: name :: argumentsOf after)).isOk = true :=
      classify_stdin (by rw [hmain]; rfl)
    obtain ⟨others, hinput⟩ := isOk_iff.mp hinput
    rw [hinput]
    show (∃ program error, Invocation.ofCommand [] "check" _ = _) ∨ ∃ choices format,
      Invocation.ofCommand [] "check" _ = _ ∧ Invocation.ofCommand [] "check" _ = _
    rw [ofCommand_check, ofCommand_check]
    by_cases hrefused : eventsOf before = none ∨ eventsOf after = none
    · obtain ⟨error, herror⟩ := parse_file_of_refused hname hrefused
      rw [herror]
      exact .inl ⟨_, _, rfl⟩
    · rw [not_or] at hrefused
      obtain ⟨first, hfirst⟩ := Option.ne_none_iff_exists'.mp hrefused.1
      obtain ⟨last, hlast⟩ := Option.ne_none_iff_exists'.mp hrefused.2
      rw [parse_file hname hfirst hlast, parse_input hname hfirst hlast]
      exact .inr ⟨Choices.ofEvents (first ++ last), Report.Format.ofName (lastValue formatFlag (first ++ last)),
        ofEvents_file (isSetting_of_eventsOf hfirst) (isSetting_of_eventsOf hlast),
        ofEvents_input (isSetting_of_eventsOf hfirst) (isSetting_of_eventsOf hlast)⟩

end

end ImportOrder.Command
