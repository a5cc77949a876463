import ClassNotation.FileTree

/-! A disk as what programs ask of one, so that the same definitions run on a real disk and on
a tree that is a value. -/

namespace ClassNotation

structure Disk (m : Type → Type) where
  readFile : Text → m (Except FileFault Text)
  writeFile : Text → Text → m (Except FileFault Unit)
  ensureDirectory : Text → m (Except FileFault Unit)

namespace Disk

variable {m : Type → Type} [Monad m]

/-- Makes a directory and, where they are missing, those above it, nearest first. What was
made before a fault stays. -/
def ensureAll (disk : Disk m) : List Text → m (Except FileFault Unit)
  | [] => pure (.ok ())
  | path :: above => do
    match ← disk.ensureDirectory path with
    | .error .notFound =>
      match ← disk.ensureAll above with
      | .ok () => disk.ensureDirectory path
      | .error f => pure (.error f)
    | r => pure r

/-- A path that is no path has none above it. -/
def directoriesAbove (path : Text) : List Text :=
  match FilePath.read .unlimited path with
  | .ok p => p.above.map FilePath.toText
  | .error _ => []

/-- Nothing is to be made for the empty path. -/
def makeDirectories (disk : Disk m) (path : Text) : m (Except FileFault Unit) :=
  if path = [] then pure (.ok ()) else disk.ensureAll (path :: directoriesAbove path)

end Disk

namespace FileTree

def disk : Disk (StateM FileTree) where
  readFile path := fun tree => (tree.readFile path, tree)
  writeFile path content := fun tree => tree.writeFile path content
  ensureDirectory path := fun tree => tree.ensureDirectory path

/-- Adds a file with the directories above it. -/
def addFile (tree : FileTree) (path content : Text) : FileTree :=
  let (_, tree) := disk.ensureAll (Disk.directoriesAbove path) tree
  (tree.writeFile path content).2

example : (disk.makeDirectories "a/b".toList (.fresh ["w".toList])).2.listing.keys =
    ["a/".toList, "a/b/".toList] := by decide

end FileTree

end ClassNotation
