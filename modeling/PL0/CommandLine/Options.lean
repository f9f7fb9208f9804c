import PL0.Report

/-!
# Options on the command line

The arguments name one input and may hold options in any order.  An option has
a long name after two dashes, and most have a letter after one; letters may be
joined.  After the argument `--` nothing is an option any more.

Arguments are read from left to right.  A value that stands apart from its
option, like the input itself, is looked at only when the next argument has
been recognised, so a fault of the next argument's name comes first.
-/

namespace PL0.CommandLine

/-- The options without a value. -/
inductive Switch where
  /-- Show the source in one of the ways. -/
  | report (kind : Report)
  | verbose
deriving DecidableEq

/-- What the arguments ask for. -/
structure Options where
  input : String
  output? : Option String
  /-- The way of showing the source that was asked for. -/
  shown? : Option Report
  verbose : Bool
deriving DecidableEq

/-- Code is shown unless something else is asked for. -/
def Options.report (options : Options) : Report :=
  options.shown?.getD .code

/-- Why the arguments cannot be followed. -/
inductive UsageError where
  /-- Help was asked for. -/
  | help
  | unknownArgument
  /-- A switch was given a value. -/
  | unneededValue
  /-- A value is missing or empty. -/
  | invalidValue
  /-- An option was given twice, or two that exclude each other. -/
  | conflict
  | missingInput
deriving DecidableEq, Inhabited

/-- What an option name stands for. -/
inductive OptionName where
  | switch (switch : Switch)
  | output
  | help
deriving DecidableEq

/-- The option with a long name. -/
def OptionName.ofLong? : String → Option OptionName
  | "lex" => some (.switch (.report .tokens))
  | "ast" => some (.switch (.report .tree))
  | "sym" => some (.switch (.report .scopes))
  | "ir" => some (.switch (.report .code))
  | "verbose" => some (.switch .verbose)
  | "out" => some .output
  | "help" => some .help
  | _ => none

/-- The option with a letter. -/
def OptionName.ofLetter? : Char → Option OptionName
  | 'l' => some (.switch (.report .tokens))
  | 'a' => some (.switch (.report .tree))
  | 'I' => some (.switch (.report .code))
  | 'V' => some (.switch .verbose)
  | 'o' => some .output
  | 'h' => some .help
  | _ => none

/-- A value that has been read but not yet looked at. -/
inductive Pending where
  | nothing
  /-- The output option still waits for its value. -/
  | outputMissing
  | output (value : String)
  | input (value : String)

/-- What has been gathered from the arguments so far. -/
structure Gathered where
  switches : List Switch
  output? : Option String
  input? : Option String
  pending : Pending
  /-- Whether the input has been named, looked at or not. -/
  inputNamed : Bool
  /-- Whether options have ended. -/
  optionsEnded : Bool

namespace Gathered

/-- Before the first argument. -/
def empty : Gathered :=
  ⟨[], none, none, .nothing, false, false⟩

/-- Take the value of the output option. -/
def setOutput (gathered : Gathered) (value : String) :
    Except UsageError Gathered :=
  if gathered.output?.isSome then .error .conflict
  else if value.isEmpty then .error .invalidValue
  else .ok { gathered with output? := some value }

/-- Take a switch. -/
def setSwitch (gathered : Gathered) (switch : Switch) :
    Except UsageError Gathered :=
  if gathered.switches.contains switch then .error .conflict
  else .ok { gathered with switches := gathered.switches ++ [switch] }

/-- Look at the value that is pending. -/
def settle (gathered : Gathered) : Except UsageError Gathered :=
  let settled := { gathered with pending := .nothing }
  match gathered.pending with
  | .nothing => .ok gathered
  | .outputMissing => .error .invalidValue
  | .output value => settled.setOutput value
  | .input value =>
    if value.isEmpty then .error .invalidValue
      else .ok { settled with input? := some value }

/-- An option, with the value attached to it if there is one. -/
def takeOption (gathered : Gathered) (name : OptionName)
    (value? : Option String) : Except UsageError Gathered :=
  match name, value? with
  | .output, some value => do
    (← gathered.settle).setOutput value
  | .output, none => do
    return { ← gathered.settle with pending := .outputMissing }
  | .switch _, some _ | .help, some _ => .error .unneededValue
  | .switch switch, none => do
    (← gathered.settle).setSwitch switch
  | .help, none => do
    discard gathered.settle
    throw .help

/-- Joined letters.  The rest after the letter of the output option is its
value, which an equals sign may precede. -/
def takeLetters (gathered : Gathered) : List Char → Except UsageError Gathered
  | [] => .ok gathered
  | letter :: rest =>
    match OptionName.ofLetter? letter with
    | none => .error .unknownArgument
    | some .output =>
      match rest with
      | [] => gathered.takeOption .output none
      | '=' :: value => gathered.takeOption .output (some (String.ofList value))
      | value => gathered.takeOption .output (some (String.ofList value))
    | some name => do
      takeLetters (← gathered.takeOption name none) rest

/-- A long option, with its value after the first equals sign. -/
def takeLong (gathered : Gathered) (text : List Char) :
    Except UsageError Gathered :=
  let name := String.ofList (text.takeWhile (· ≠ '='))
  let value? :=
    match text.dropWhile (· ≠ '=') with
    | [] => none
    | _ :: value => some (String.ofList value)
  match OptionName.ofLong? name with
  | none => .error .unknownArgument
  | some name => gathered.takeOption name value?

/-- An argument that is no option. -/
def takeInput (gathered : Gathered) (value : String) :
    Except UsageError Gathered :=
  if gathered.inputNamed then .error .unknownArgument
  else do
    return { ← gathered.settle with pending := .input value, inputNamed := true }

/-- One argument. -/
def take (gathered : Gathered) (argument : String) :
    Except UsageError Gathered :=
  if gathered.optionsEnded then gathered.takeInput argument
  else
    match argument.toList with
    | ['-', '-'] => .ok { gathered with optionsEnded := true }
    | '-' :: '-' :: text => gathered.takeLong text
    | '-' :: letter :: letters => gathered.takeLetters (letter :: letters)
    | _ =>
      match gathered.pending with
      | .outputMissing => .ok { gathered with pending := .output argument }
      | _ => gathered.takeInput argument

/-- The options, once all arguments have been read. -/
def finish (gathered : Gathered) : Except UsageError Options := do
  let gathered ← gathered.settle
  let shown := gathered.switches.filterMap fun
    | .report kind => some kind
    | .verbose => none
  if 1 < shown.length then throw .conflict
  match gathered.input? with
  | none => throw .missingInput
  | some input =>
    return ⟨input, gathered.output?, shown.head?,
      gathered.switches.contains .verbose⟩

end Gathered

/-- The options that a list of arguments asks for. -/
def Options.ofArguments (arguments : List String) :
    Except UsageError Options := do
  (← arguments.foldlM Gathered.take .empty).finish

end PL0.CommandLine
