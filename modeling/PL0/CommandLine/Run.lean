import PL0.CommandLine.Options

/-!
# A run from the command line

A run reads its input, shows it as the options say, and puts the result on the
standard output or into a file.  How files are reached is left open.
-/

namespace PL0.CommandLine

/-- Why a file cannot be read or written. -/
inductive FileFault where
  | notFound
  | isDirectory
  | notDirectory
  | nameTooLong
  | notText
  | other (reason : String)
deriving DecidableEq

/-- The wording of a fault. -/
def FileFault.text : FileFault → String
  | .notFound => "No such file or directory (os error 2)"
  | .isDirectory => "Is a directory (os error 21)"
  | .notDirectory => "Not a directory (os error 20)"
  | .nameTooLong => "File name too long (os error 36)"
  | .notText => "stream did not contain valid UTF-8"
  | .other reason => reason

/-- A way to reach files by their paths. -/
structure FileAccess (m : Type → Type) where
  read : String → m (Except FileFault ByteArray)
  write : String → String → m (Except FileFault Unit)

/-- How a run ends: its exit code and what it put on the two standard
outputs. -/
structure Ending where
  code : Nat
  output : String
  errors : String
deriving DecidableEq

/-- The end of a run that could not do something with a file. -/
def Ending.fileFault (action path : String) (fault : FileFault) : Ending :=
  ⟨1, "",
    "Error: failed to " ++ action ++ " " ++ path ++ "\n\nCaused by:\n    " ++
      fault.text ++ "\n"⟩

/-- The end of a run whose input has faults. -/
def Ending.compileError (error : CompileError) : Ending :=
  ⟨if error.isInternal then 2 else 1, "", error.message ++ "\n"⟩

/-- What help there is. -/
def helpText : String :=
  "Compile a PL0 program to three-address IR\n\n" ++
  "Usage: pl0c [OPTIONS] <INPUT>\n\n" ++
  "Arguments:\n" ++
  "  <INPUT>  Source file to compile\n\n" ++
  "Options:\n" ++
  "  -o, --out <OUT>  Write the output here instead of stdout\n" ++
  "  -l, --lex        Print the token table and stop\n" ++
  "  -a, --ast        Print the syntax tree and stop\n" ++
  "      --sym        Print the symbol table and stop\n" ++
  "  -I, --ir         Print the IR (the default)\n" ++
  "  -V, --verbose    Enable verbose logging\n" ++
  "  -h, --help       Print help\n"

/-- The wording of an error in the arguments. -/
def UsageError.text : UsageError → String
  | .help => "help was asked for"
  | .unknownArgument => "unexpected argument"
  | .unneededValue => "unexpected value for an option"
  | .invalidValue => "a value is required but none was supplied"
  | .conflict => "an argument cannot be used twice or with another one"
  | .missingInput =>
    "the following required arguments were not provided: <INPUT>"

/-- The end of a run whose arguments cannot be followed. -/
def Ending.usageError : UsageError → Ending
  | .help => ⟨0, helpText, ""⟩
  | error =>
    ⟨2, "",
      "error: " ++ error.text ++ "\n\nFor more information, try '--help'.\n"⟩

/-- Run with options. -/
def Options.run {m : Type → Type} [Monad m] (files : FileAccess m)
    (options : Options) : m Ending := do
  match ← files.read options.input with
  | .error fault => return .fileFault "read" options.input fault
  | .ok bytes =>
    match String.fromUTF8? bytes with
    | none => return .fileFault "read" options.input .notText
    | some source =>
      match options.report.render source with
      | .error error => return .compileError error
      | .ok text =>
        match options.output? with
        | none => return ⟨0, text, ""⟩
        | some path =>
          match ← files.write path text with
          | .ok () => return ⟨0, "", ""⟩
          | .error fault => return .fileFault "write" path fault

/-- Run with arguments. -/
def run {m : Type → Type} [Monad m] (files : FileAccess m)
    (arguments : List String) : m Ending :=
  match Options.ofArguments arguments with
  | .error error => return .usageError error
  | .ok options => options.run files

end PL0.CommandLine
