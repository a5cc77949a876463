import ClassNotation.Text.Basic

/-! Paths as names between slashes, the places that they lead to, and what can go wrong on the
way. -/

namespace ClassNotation

inductive FileFault where
  | notFound
  | alreadyThere
  | notDirectory
  | isDirectory
  | noSpace
  | nameTooLong
  | nulInPath
  | notUtf8
  | other (message : Text)
  deriving DecidableEq, Repr

def FileFault.message : FileFault → Text
  | .notFound => "No such file or directory (os error 2)".toList
  | .alreadyThere => "File exists (os error 17)".toList
  | .notDirectory => "Not a directory (os error 20)".toList
  | .isDirectory => "Is a directory (os error 21)".toList
  | .noSpace => "No space left on device (os error 28)".toList
  | .nameTooLong => "File name too long (os error 36)".toList
  | .nulInPath => "file name contained an unexpected NUL byte".toList
  | .notUtf8 => "stream did not contain valid UTF-8".toList
  | .other message => message

/-- The names from the root to an entry. -/
abbrev Place := List Text

namespace Place

def key (p : Place) : Text :=
  "/".toList.intercalate p

/-- The place that a name stands for in a directory. Above the root is the root. -/
def child (p : Place) (name : Text) : Place :=
  if name = ".".toList then p else if name = "..".toList then p.dropLast else p ++ [name]

end Place

/-- How many bytes a name and a whole path may have, where there is a limit. -/
structure PathLimits where
  name : Option Nat
  path : Option Nat
  deriving DecidableEq, Repr

namespace PathLimits

def unlimited : PathLimits :=
  ⟨none, none⟩

def usual : PathLimits :=
  ⟨some 255, some 4095⟩

def fits (limit : Option Nat) (t : Text) : Bool :=
  limit.all (t.utf8Size ≤ ·)

example : fits usual.name (List.replicate 255 'n') ∧ ¬ fits usual.name (List.replicate 128 'é') ∧
    fits unlimited.name (List.replicate 128 'é') := by decide +kernel

end PathLimits

structure FilePath where
  isAbsolute : Bool
  names : List Text
  endsInSlash : Bool
  deriving DecidableEq, Repr

namespace FilePath

def read (limits : PathLimits) (t : Text) : Except FileFault FilePath :=
  if '\x00' ∈ t then .error .nulInPath
  else if t = [] then .error .notFound
  else if PathLimits.fits limits.path t then
    .ok ⟨t.head? = some '/', (t.splitOn '/').filter (· ≠ []), t.getLast? = some '/'⟩
  else .error .nameTooLong

def toText (p : FilePath) : Text :=
  (if p.isAbsolute then ['/'] else []) ++ "/".toList.intercalate p.names

/-- What remains when the last name is taken away again and again, while any is left. -/
def shorter : List Text → List (List Text)
  | [] => []
  | [_] => []
  | _ :: rest => rest :: shorter rest

/-- The directories above a path, nearest first. A name `.` behind another one adds none. -/
def above (p : FilePath) : List FilePath :=
  let names := p.names.take 1 ++ (p.names.drop 1).filter (· ≠ ".".toList)
  (shorter names.reverse).map fun rest => ⟨p.isAbsolute, rest.reverse, false⟩

end FilePath

end ClassNotation
