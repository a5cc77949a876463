import ClassNotation.FilePath
import ClassNotation.TextMap

/-! A tree of directories, files and devices, and the operations that programs ask of one. A
path is looked up name by name from the working directory, or from the root if it opens with a
slash. -/

namespace ClassNotation

/-- The last three are the streams of the program that asks. -/
inductive Device where
  | null
  | full
  | input
  | output
  | warnings
  deriving DecidableEq, Repr

inductive Entry where
  | directory
  | file (content : Text)
  | device (d : Device)
  deriving DecidableEq, Repr

/-- Entries by the key of their place. The root has none. -/
structure FileTree where
  limits : PathLimits
  workingDirectory : Place
  entries : TextMap Entry
  deriving DecidableEq

namespace FileTree

def entry? (tree : FileTree) (p : Place) : Option Entry :=
  if p = [] then some .directory else tree.entries.get? p.key

/-- The place that a name stands for in a directory, if the name is not too long. -/
def step (tree : FileTree) (p : Place) (name : Text) : Except FileFault Place :=
  if PathLimits.fits tree.limits.name name then .ok (p.child name) else .error .nameTooLong

def walk (tree : FileTree) (p : Place) : List Text → Except FileFault Place
  | [] => .ok p
  | name :: rest =>
    match tree.step p name with
    | .error f => .error f
    | .ok q =>
      match tree.entry? q with
      | none => .error .notFound
      | some .directory => tree.walk q rest
      | some _ => .error .notDirectory

/-- The directory in which the last name of a path is looked up. -/
def directoryOf (tree : FileTree) (path : FilePath) : Except FileFault Place :=
  tree.walk (if path.isAbsolute then [] else tree.workingDirectory) path.names.dropLast

/-- The place of a path. Its last name need not be there. -/
def locate (tree : FileTree) (path : FilePath) : Except FileFault Place :=
  match tree.directoryOf path with
  | .error f => .error f
  | .ok p =>
    match path.names.getLast? with
    | none => .ok p
    | some name => tree.step p name

def lookUp (tree : FileTree) (path : FilePath) : Except FileFault Entry :=
  match tree.locate path with
  | .error f => .error f
  | .ok p =>
    match tree.entry? p with
    | none => .error .notFound
    | some .directory => .ok .directory
    | some e => if path.endsInSlash then .error .notDirectory else .ok e

def isDirectory (tree : FileTree) (path : FilePath) : Bool :=
  match tree.lookUp path with
  | .ok .directory => true
  | _ => false

/-- Nothing waits in a device of its own accord. -/
def contentOf (tree : FileTree) (path : FilePath) : Except FileFault Text :=
  match tree.lookUp path with
  | .error f => .error f
  | .ok .directory => .error .isDirectory
  | .ok (.file content) => .ok content
  | .ok (.device _) => .ok []

/-- A device takes the text and the tree stays as it is. A full one takes none. -/
def write (tree : FileTree) (path : FilePath) (content : Text) : Except FileFault FileTree :=
  match tree.directoryOf path with
  | .error f => .error f
  | .ok _ =>
    if path.endsInSlash then .error .isDirectory
    else
      match tree.locate path with
      | .error f => .error f
      | .ok p =>
        match tree.entry? p with
        | some .directory => .error .isDirectory
        | some (.device d) => if d = .full ∧ content ≠ [] then .error .noSpace else .ok tree
        | _ => .ok { tree with entries := tree.entries.insert p.key (.file content) }

/-- Makes one directory in a directory that is there. -/
def makeDirectory (tree : FileTree) (path : FilePath) : Except FileFault FileTree :=
  match tree.locate path with
  | .error f => .error f
  | .ok p =>
    match tree.entry? p with
    | some _ => .error .alreadyThere
    | none => .ok { tree with entries := tree.entries.insert p.key .directory }

def readFile (tree : FileTree) (path : Text) : Except FileFault Text :=
  match FilePath.read tree.limits path with
  | .error f => .error f
  | .ok path => tree.contentOf path

def writeFile (tree : FileTree) (path content : Text) : Except FileFault Unit × FileTree :=
  match FilePath.read tree.limits path with
  | .error f => (.error f, tree)
  | .ok path =>
    match tree.write path content with
    | .error f => (.error f, tree)
    | .ok tree => (.ok (), tree)

/-- A directory that is there already is as good as a new one. -/
def ensureDirectory (tree : FileTree) (path : Text) : Except FileFault Unit × FileTree :=
  match FilePath.read tree.limits path with
  | .error f => (.error f, tree)
  | .ok path =>
    match tree.makeDirectory path with
    | .ok tree => (.ok (), tree)
    | .error f =>
      if f = .alreadyThere ∧ tree.isDirectory path then (.ok (), tree) else (.error f, tree)

/-- The device that a path leads to. -/
def device? (tree : FileTree) (path : Text) : Option Device :=
  match FilePath.read tree.limits path with
  | .error _ => none
  | .ok path =>
    match tree.lookUp path with
    | .ok (.device d) => some d
    | _ => none

/-- An empty working directory on a disk without limits. -/
def fresh (workingDirectory : Place) : FileTree :=
  ⟨.unlimited, workingDirectory,
    TextMap.ofList ((List.range workingDirectory.length).map fun i =>
      (Place.key (workingDirectory.take (i + 1)), .directory))⟩

def standardDirectories : List Text :=
  ["bin", "dev", "etc", "home", "lib", "opt", "proc", "root", "run", "sbin", "sys", "tmp", "usr",
    "var"].map (·.toList)

def standardDevices : List (Text × Device) :=
  [("dev/null".toList, .null), ("dev/full".toList, .full), ("dev/stdin".toList, .input),
    ("dev/stdout".toList, .output), ("dev/stderr".toList, .warnings)]

/-- An empty working directory on a disk with the usual limits, directories and devices. -/
def standard (workingDirectory : Place) : FileTree :=
  { fresh workingDirectory with
    limits := .usual
    entries := TextMap.ofList (standardDirectories.map (·, .directory) ++
      standardDevices.map (fun (key, d) => (key, .device d)) ++
      (fresh workingDirectory).entries.entries) }

/-- A key as it reads from the working directory, if it is below it. -/
def relative? (tree : FileTree) (key : Text) : Option Text :=
  if tree.workingDirectory = [] then some key
  else (tree.workingDirectory.key ++ ['/']).isPrefixOf? key

/-- Every directory and file below the working directory. The path of a directory ends in a
slash, and it has no content. -/
def listing (tree : FileTree) : TextMap (Option Text) :=
  TextMap.ofList (tree.entries.entries.filterMap fun (key, e) =>
    match tree.relative? key, e with
    | some path, .directory => some (path ++ ['/'], none)
    | some path, .file content => some (path, some content)
    | _, _ => none)

end FileTree

end ClassNotation
