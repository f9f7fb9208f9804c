import PL0.CommandLine.Run

/-!
# Runs in a single directory

A directory without subdirectories is enough to say what a run does to its
files.  Of what lies outside it only this is known: there are directories
around it, and none of them holds a file.  A path is walked part by part, and
only a directory can be walked through.
-/

namespace PL0.CommandLine

/-- The files of a directory, by their names. -/
structure Directory where
  files : List (String × ByteArray)

/-- A point on the way along a path. -/
inductive Waypoint where
  /-- The directory itself. -/
  | here
  /-- A directory around it. -/
  | around
  /-- A name in the directory, whether or not there is a file of that name. -/
  | entry (name : String)
  /-- A name in a directory around it. -/
  | stranger (name : String)
deriving DecidableEq

namespace Directory

/-- The greatest number of bytes in a name. -/
def nameLimit : Nat := 255

/-- The greatest number of bytes in a path. -/
def pathLimit : Nat := 4095

/-- Why a file of a name cannot be found. -/
def missing (name : String) : FileFault :=
  if nameLimit < name.utf8ByteSize then .nameTooLong else .notFound

/-- The contents of a file. -/
def find? (directory : Directory) (name : String) : Option ByteArray :=
  directory.files.lookup name

/-- Walk on by one part of a path.  A single dot stays, two dots lead
outward. -/
def walk (directory : Directory) (point : Waypoint) (part : String) :
    Except FileFault Waypoint :=
  match point with
  | .here =>
    if part = "." then .ok .here
    else if part = ".." then .ok .around
    else .ok (.entry part)
  | .around =>
    if part = "." || part = ".." then .ok .around else .ok (.stranger part)
  | .entry name =>
    .error (if (directory.find? name).isSome then .notDirectory
      else missing name)
  | .stranger name => .error (missing name)

/-- Where a path leads.  It starts outside if it begins with a slash; slashes
in a row count as one. -/
def follow (directory : Directory) (path : String) :
    Except FileFault Waypoint :=
  if pathLimit < path.utf8ByteSize then .error .nameTooLong
  else
    let start := if path.toList.head? = some '/' then Waypoint.around else .here
    ((path.splitOn "/").filter (· ≠ "")).foldlM directory.walk start

/-- Whether a path asks for a directory by a slash at its end. -/
def endsInSlash (path : String) : Bool :=
  path.toList.getLast? = some '/'

/-- Read the file at a path. -/
def read (directory : Directory) (path : String) :
    Except FileFault ByteArray := do
  match ← directory.follow path with
  | .here | .around => throw .isDirectory
  | .stranger name => throw (missing name)
  | .entry name =>
    match directory.find? name with
    | none => throw (missing name)
    | some bytes => if endsInSlash path then throw .notDirectory else return bytes

/-- The directory with a file changed or added. -/
def put (directory : Directory) (name : String) (bytes : ByteArray) :
    Directory :=
  ⟨directory.files.filter (fun file => file.1 ≠ name) ++ [(name, bytes)]⟩

/-- Write a text into the file at a path.  What is written outside is not
seen. -/
def write (directory : Directory) (path text : String) :
    Except FileFault Directory := do
  match ← directory.follow path with
  | .here | .around => throw .isDirectory
  | .stranger name =>
    if endsInSlash path then throw .isDirectory
    else if nameLimit < name.utf8ByteSize then throw .nameTooLong
    else return directory
  | .entry name =>
    if endsInSlash path then throw .isDirectory
    else if nameLimit < name.utf8ByteSize then throw .nameTooLong
    else return directory.put name text.toUTF8

/-- Files are reached through the directory, which changes as they are
written. -/
def access : FileAccess (StateM Directory) where
  read path := do
    return (← get).read path
  write path text := do
    match (← get).write path text with
    | .ok directory =>
      set directory
      return .ok ()
    | .error fault => return .error fault

end Directory

end PL0.CommandLine
