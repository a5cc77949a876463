import ClassNotation.Disk
import ClassNotation.Java.Source
import ClassNotation.Fault
import ClassNotation.Text.Blank

/-! Sources as files: one for each class, in a directory for each part of the package. No part
of a package and no class name may lead out of its directory. -/

namespace ClassNotation

inductive ExportFault where
  | parse (e : ParseError)
  | invalidPackage (package : Text)
  | invalidClassName (name : Text)
  | file (f : FileFault)
  deriving DecidableEq, Repr

def ExportFault.message : ExportFault → Text
  | .parse e => "Parse error: ".toList ++ e.message
  | .invalidPackage package =>
    "Export error: invalid package name: ".toList ++ package
  | .invalidClassName name =>
    "Export error: invalid class name for a file: ".toList ++ name
  | .file f => "IO error: ".toList ++ f.message

/-- Names one entry of a directory. A backslash, which parts names on other systems, is refused
too. -/
def isSafeName (t : Text) : Bool :=
  t ≠ [] && t ≠ ".".toList && t ≠ "..".toList && !t.any fun c => c = '/' || c = '\\' || isBlank c

/-- A path inside a directory. The directory may be empty or end in a slash. -/
def joinPath (directory name : Text) : Text :=
  if directory = [] ∨ directory.getLast? = some '/' then directory ++ name
  else directory ++ '/' :: name

def packageDirectory (outDirectory : Text) (package : Option Text) : Except ExportFault Text :=
  match package with
  | none => .ok outDirectory
  | some p =>
    let parts := p.splitOn '.'
    if parts.all isSafeName then .ok (parts.foldl joinPath outDirectory)
    else .error (.invalidPackage p)

section

variable {m : Type → Type} [Monad m]

/-- Writes files up to the first fault, and answers with their paths. -/
def writeEntries (disk : Disk m) (directory : Text) :
    List (Text × Text) → m (Except ExportFault (List Text))
  | [] => pure (.ok [])
  | (name, text) :: rest =>
    if isSafeName name then do
      let path := joinPath directory (name ++ '.' :: Java.fileExtension)
      match ← disk.writeFile path text with
      | .error f => pure (.error (.file f))
      | .ok () => return (← writeEntries disk directory rest).map (path :: ·)
    else pure (.error (.invalidClassName name))

def writeSources (disk : Disk m) (outDirectory : Text) (package : Option Text)
    (sources : Java.Sources) : m (Except ExportFault (List Text)) :=
  match packageDirectory outDirectory package with
  | .error f => pure (.error f)
  | .ok directory => do
    match ← disk.makeDirectories directory with
    | .error f => pure (.error (.file f))
    | .ok () => writeEntries disk directory sources.entries

end

end ClassNotation
