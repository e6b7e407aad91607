import ImportOrder.Text.Quoted
import ImportOrder.Text.Word

/-!
# Command-line arguments

Arguments are flags, some with a value, and operands. Flags may be shortened as long as one flag only is meant,
a value may follow after an equals sign, and after two dashes everything is an operand. Operands are taken in
one stretch; what cannot be placed is left over.
-/

namespace ImportOrder.Command

/-- A flag: its spellings, whether it takes a value and which ones, and whether it ends the parsing. -/
structure Flag where
  names : List String
  takesValue : Bool := false
  choices : List String := []
  stops : Bool := false

/-- The name of a flag in messages. -/
def Flag.title (flag : Flag) : String :=
  "/".intercalate flag.names

/-- What operands there may be. -/
inductive Operands where
  /-- Any number. -/
  | any
  /-- At least one. -/
  | some
  /-- A command with all that follows it. -/
  | command
deriving DecidableEq

/-- The flags and operands that a command line may have. -/
structure Grammar where
  flags : List Flag
  operands : Operands
  /-- What the operands are called. -/
  operandName : String

/-- Why arguments are refused. -/
inductive ArgumentError where
  | ambiguous (argument : String) (candidates : List String)
  | ignoredValue (flag : Flag) (value : String)
  | missingValue (flag : Flag)
  | invalidChoice (name value : String) (choices : List String)
  | missingOperands (name : String)
  | unrecognized (arguments : List String)
  | noPath

def ArgumentError.message : ArgumentError → String
  | ambiguous argument candidates =>
    "ambiguous option: " ++ argument ++ " could match " ++ ", ".intercalate candidates
  | ignoredValue flag value =>
    "argument " ++ flag.title ++ ": ignored explicit argument " ++ Quoted.ofString value
  | missingValue flag => "argument " ++ flag.title ++ ": expected one argument"
  | invalidChoice name value choices =>
    "argument " ++ name ++ ": invalid choice: " ++ Quoted.ofString value ++ " (choose from " ++
      ", ".intercalate (choices.map Quoted.ofString) ++ ")"
  | missingOperands name => "the following arguments are required: " ++ name
  | unrecognized arguments => "unrecognized arguments: " ++ " ".intercalate arguments
  | noPath => "at least one path (or --stdin) is required"

/-- What an argument is. -/
inductive Kind where
  /-- The two dashes after which everything is an operand. -/
  | dashes
  | operand
  /-- A flag that is not known. -/
  | unknown
  /-- A known flag, with the value that is written into the argument. -/
  | flag (flag : Flag) (spelling : String) (attached : Option String)

def Kind.isFlag : Kind → Bool
  | unknown | flag .. => true
  | dashes | operand => false

/-- What the arguments mean, one by one. -/
inductive Event where
  | flag (flag : Flag) (value : Option String)
  | operands (values : List String)

/-- How parsing ends. -/
inductive Outcome where
  /-- At a flag that ends it. -/
  | stopped (flag : Flag)
  /-- With all arguments read, some of which may be left over. -/
  | parsed (events : List Event) (leftOver : List String)

namespace Grammar

/-- All spellings of flags. -/
def spellings (grammar : Grammar) : List (String × Flag) :=
  grammar.flags.flatMap fun flag => flag.names.map fun name => (name, flag)

/-- The part of an argument before its first equals sign and the part after it, if there is one. -/
def cutAtEquals (argument : String) : String × Option String :=
  let chars := argument.toList
  let front := chars.takeWhile (· != '=')
  match chars.dropWhile (· != '=') with
  | [] => (argument, none)
  | _ :: value => (String.ofList front, some (String.ofList value))

/-- Whether an argument is a number with a dash before it; a line feed may follow. -/
def isNegativeNumber (argument : String) : Bool :=
  match Text.dropLineFeed argument.toList with
  | '-' :: digits =>
    let whole := digits.takeWhile isDecimal
    match digits.dropWhile isDecimal with
    | [] => !whole.isEmpty
    | '.' :: fraction => !fraction.isEmpty && fraction.all isDecimal
    | _ => false
  | _ => false

/-- The flags that an argument, not a full spelling, may mean. -/
def candidates (grammar : Grammar) (argument : String) : List (String × Kind) :=
  match argument.toList with
  | '-' :: '-' :: _ =>
    let (front, value) := cutAtEquals argument
    (grammar.spellings.filter fun (name, _) => front.toList.isPrefixOf name.toList).map
      fun (name, flag) => (name, .flag flag name value)
  | _ =>
    let short := String.ofList (argument.toList.take 2)
    let value := String.ofList (argument.toList.drop 2)
    grammar.spellings.filterMap fun (name, flag) =>
      if name = short then some (name, .flag flag name (some value))
      else if argument.toList.isPrefixOf name.toList then some (name, .flag flag name none)
      else none

/-- What an argument before any two dashes is. -/
def kindOf (grammar : Grammar) (argument : String) : Except ArgumentError Kind :=
  if argument.toList.head? != some '-' then .ok .operand
  else
    match grammar.spellings.lookup argument with
    | some flag => .ok (.flag flag argument none)
    | none =>
      if argument = "-" then .ok .operand
      else
        let (front, value) := cutAtEquals argument
        match value, grammar.spellings.lookup front with
        | some value, some flag => .ok (.flag flag front (some value))
        | _, _ =>
          match grammar.candidates argument with
          | [(_, kind)] => .ok kind
          | [] =>
            if isNegativeNumber argument || argument.toList.contains ' ' then .ok .operand
            else .ok .unknown
          | several => .error (.ambiguous argument (several.map Prod.fst))

/-- Tells what each argument is. -/
def classify (grammar : Grammar) : List String → Except ArgumentError (List (String × Kind))
  | [] => .ok []
  | argument :: rest =>
    if argument = "--" then .ok ((argument, .dashes) :: rest.map fun a => (a, .operand))
    else do
      let kind ← grammar.kindOf argument
      return (argument, kind) :: (← grammar.classify rest)

/-- The number of arguments at the front that are taken as operands, if the operands can begin here. -/
def operandCount? (grammar : Grammar) (arguments : List (String × Kind)) : Option Nat :=
  let stretch := (arguments.takeWhile fun a => !a.2.isFlag).length
  let hasOperand : Bool :=
    match arguments with
    | (_, .operand) :: _ => true
    | (_, .dashes) :: (_, .operand) :: _ => true
    | _ => false
  match grammar.operands with
  | .any => some stretch
  | .some => if hasOperand then some stretch else none
  | .command => if hasOperand then some arguments.length else none

/-- The operands among arguments; the first two dashes are dropped, unless a command follows them. -/
def operandValues (grammar : Grammar) (arguments : List (String × Kind)) : List String :=
  let values := arguments.map Prod.fst
  if grammar.operands = .command then values else values.erase "--"

/-- Reads one-letter flags out of the value that is written into a flag that takes none. What is left when a
letter is no flag is refused. -/
def checkLetters (grammar : Grammar) (flag : Flag) : Text → Except ArgumentError Unit
  | [] => .ok ()
  | c :: rest =>
    match grammar.spellings.lookup (String.ofList ['-', c]) with
    | none => .error (.ignoredValue flag (String.ofList (c :: rest)))
    | some next => if next.takesValue then .ok () else grammar.checkLetters next rest

/-- The value that is written into a flag; two dashes stand for none there too. -/
def attachedValue (value : String) : Option String :=
  if value = "--" then none else some value

/-- The value of a flag, and how many of the arguments after it belong to it. -/
def flagValue (grammar : Grammar) (flag : Flag) (spelling : String) (attached : Option String)
    (after : List (String × Kind)) : Except ArgumentError (Option String × Nat) :=
  match attached with
  | some value =>
    if flag.takesValue then .ok (attachedValue value, 0)
    else if spelling.toList.take 2 != ['-', '-'] && value != "" then
      (grammar.checkLetters flag value.toList).map fun _ => (none, 0)
    else .error (.ignoredValue flag value)
  | none =>
    if flag.takesValue then
      match after with
      | (value, .operand) :: _ => .ok (some value, 1)
      | _ => .error (.missingValue flag)
    else .ok (none, 0)

/-- Checks a value against the choices of its flag. -/
def checkChoice (flag : Flag) : Option String → Except ArgumentError Unit
  | some value =>
    if flag.choices.isEmpty || flag.choices.contains value then .ok ()
    else .error (.invalidChoice flag.title value flag.choices)
  | none => .ok ()

/-- Puts an event before those of an outcome. -/
def withEvent (event : Event) : Outcome → Outcome
  | .parsed events leftOver => .parsed (event :: events) leftOver
  | stopped => stopped

/-- Puts arguments before those that an outcome leaves over. -/
def leaving (arguments : List String) : Outcome → Outcome
  | .parsed events leftOver => .parsed events (arguments ++ leftOver)
  | stopped => stopped

/-- Reads classified arguments in their order. `pending` tells that the operands are still to come. The bound falls
with every argument. -/
def read (grammar : Grammar) : Nat → Bool → List (String × Kind) → Except ArgumentError Outcome
  | 0, _, arguments => .ok (.parsed [] (arguments.map Prod.fst))
  | bound + 1, pending, arguments => do
    if arguments.any (·.2.isFlag) then
      match arguments with
      | [] => return .parsed [] []
      | (argument, .unknown) :: rest =>
        return leaving [argument] (← grammar.read bound pending rest)
      | (_, .flag flag spelling attached) :: rest =>
        let (value, count) ← grammar.flagValue flag spelling attached rest
        checkChoice flag value
        if flag.stops then return .stopped flag
        else return withEvent (.flag flag value) (← grammar.read bound pending (rest.drop count))
      | arguments =>
        let count := if pending then (grammar.operandCount? arguments).getD 0 else 0
        if 0 < count then
          let values := grammar.operandValues (arguments.take count)
          return withEvent (.operands values) (← grammar.read bound false (arguments.drop count))
        else
          let extra := arguments.takeWhile fun a => !a.2.isFlag
          return leaving (extra.map Prod.fst)
            (← grammar.read bound pending (arguments.drop extra.length))
    else
      match if pending then grammar.operandCount? arguments else none with
      | some count =>
        let values := grammar.operandValues (arguments.take count)
        return .parsed [.operands values] ((arguments.drop count).map Prod.fst)
      | none =>
        if pending && grammar.operands = .some then throw (.missingOperands grammar.operandName)
        else return .parsed [] (arguments.map Prod.fst)

/-- Parses arguments. -/
def parse (grammar : Grammar) (arguments : List String) : Except ArgumentError Outcome := do
  let classified ← grammar.classify arguments
  grammar.read (2 * arguments.length + 2) true classified

end Grammar

end ImportOrder.Command
