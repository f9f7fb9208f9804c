import PL0.CommandLine.Run

/-!
# The command

Reads and writes real files and ends with the exit code of the run.
-/

namespace PL0

open CommandLine

/-- The system's number of an error, which may come negated. -/
def errorNumber (code : UInt32) : UInt32 :=
  if code < 0x80000000 then code else 0 - code

/-- What went wrong with a file. -/
def fileFault : IO.Error → FileFault
  | .noFileOrDirectory .. => .notFound
  | .inappropriateType _ code _ =>
    if errorNumber code = 20 then .notDirectory else .isDirectory
  | error@(.invalidArgument _ code _) =>
    if errorNumber code = 36 then .nameTooLong else .other (toString error)
  | error => .other (toString error)

/-- The files of the machine. -/
def machineFiles : FileAccess IO where
  read path := do
    try
      return .ok (← IO.FS.readBinFile path)
    catch error =>
      return .error (fileFault error)
  write path text := do
    try
      IO.FS.writeFile path text
      return .ok ()
    catch error =>
      return .error (fileFault error)

end PL0

/-- Run with the arguments of the command line. -/
def main (arguments : List String) : IO UInt32 := do
  let ending ← PL0.CommandLine.run PL0.machineFiles arguments
  IO.print ending.output
  IO.eprint ending.errors
  return ending.code.toUInt32
