import ClassNotation.Command.Arguments
import ClassNotation.Conversion
import ClassNotation.Diagram.Document
import ClassNotation.Diagram.Sample
import ClassNotation.Diagram.Summary
import ClassNotation.Export

/-! What the commands do. They are written for any host, so the same definitions run on a real
machine and on a session that is a value. -/

namespace ClassNotation

def programName : Text :=
  "modeligado".toList

def programVersion : Text :=
  "0.4.3".toList

/-- What a program can reach: a disk, its input, two outputs, the environment and a log. The log is
started with a level, or with filters by level, and a format. -/
structure Host (m : Type → Type) extends Disk m where
  readInput : m (Except FileFault Text)
  print : Text → m Unit
  warn : Text → m Unit
  environment : Text → m (Option Text)
  startLog : Text → LogFormat → m Unit

inductive Failure where
  | parse (e : ParseError)
  | export (f : ExportFault)
  | unreadableInput (f : FileFault)
  | unreadableFile (path : Text) (f : FileFault)
  | unwritableFile (path : Text) (f : FileFault)
  deriving DecidableEq, Repr

def Failure.message : Failure → Text
  | .parse e => e.message
  | .export f => f.message
  | .unreadableInput f => f.message
  | .unreadableFile path f =>
    "Failed to read input file '".toList ++ path ++ "': ".toList ++ f.message
  | .unwritableFile path f =>
    "Failed to write output file '".toList ++ path ++ "': ".toList ++ f.message

/-- A path that is given and is not a dash. A dash stands for the standard stream. -/
def namedFile (path : Option Text) : Option Text :=
  path.filter (· ≠ "-".toList)

section

variable {m : Type → Type} [Monad m]

def Host.attempt {ε α : Type} (step : m (Except ε α)) (failure : ε → Failure) :
    ExceptT Failure m α :=
  ExceptT.mk do return (← step).mapError failure

def readInput (host : Host m) (input : Option Text) : ExceptT Failure m Text :=
  match namedFile input with
  | some path => Host.attempt (host.readFile path) (.unreadableFile path)
  | none => Host.attempt host.readInput .unreadableInput

/-- Output on the standard stream ends in a line feed unless it is empty. -/
def closeOutput (t : Text) : Text :=
  if t = [] ∨ t.getLast? = some '\n' then t else t ++ ['\n']

def writeOutput (host : Host m) (output : Option Text) (t : Text) : ExceptT Failure m Unit :=
  match namedFile output with
  | some path => Host.attempt (host.writeFile path t) (.unwritableFile path)
  | none => ExceptT.lift (host.print (closeOutput t))

/-- Reads the input of a command, and says how long it is if asked to. -/
def readDiagram (host : Host m) (verbose : Bool) (input : Option Text) :
    ExceptT Failure m (Except ParseError Diagram) := do
  let content ← readInput host input
  if verbose then
    ExceptT.lift (host.warn
      ("Read ".toList ++ Text.ofNat content.utf8Size ++ " bytes of input\n".toList))
  return Diagram.parse content

def parseTask (host : Host m) (verbose : Bool) (input : Option Text) (json : Bool) :
    ExceptT Failure m Unit := do
  match ← readDiagram host verbose input with
  | .error e => throw (.parse e)
  | .ok d => writeOutput host none (if json then Json.pretty 0 d.toJson else d.summary)

def generateTask (host : Host m) (verbose : Bool)
    (input package outputDirectory : Option Text) : ExceptT Failure m Unit := do
  match ← readDiagram host verbose input with
  | .error e => throw (.parse e)
  | .ok d =>
    let sources := Java.sources package d.blocks
    match outputDirectory with
    | none => writeOutput host none (Java.listing sources Java.fileExtension)
    | some directory =>
      let written ← Host.attempt (writeSources host.toDisk directory package sources) .export
      if verbose then
        ExceptT.lift (written.forM fun path => host.warn ("Wrote ".toList ++ path ++ ['\n']))
      ExceptT.lift (host.print ("Generated ".toList ++ Text.ofNat written.length ++
        " files in ".toList ++ directory ++ ['\n']))

def validateTask (host : Host m) (verbose : Bool) (input : Option Text) :
    ExceptT Failure m Unit := do
  match ← readDiagram host verbose input with
  | .error e =>
    ExceptT.lift (host.print ("✗ Invalid diagram: ".toList ++ e.message ++ ['\n']))
    throw (.parse e)
  | .ok d =>
    ExceptT.lift (host.print ("✓ Valid diagram (".toList ++ Text.ofNat d.blocks.length ++
      " classes)\n".toList))
    ExceptT.lift ((TextSet.toList d.missing).forM fun name =>
      host.warn ("Warning: class '".toList ++ name ++ "' is referenced but not defined\n".toList))

def perform (host : Host m) (verbose : Bool) : Task → ExceptT Failure m Unit
  | .parse input json => parseTask host verbose input json
  | .generate input package outputDirectory =>
    generateTask host verbose input package outputDirectory
  | .validate input => validateTask host verbose input
  | .sample output => writeOutput host output sampleDiagram

/-- The first of some variables that is set. -/
def Host.setting (host : Host m) : List Text → m (Option Text)
  | [] => return none
  | name :: names => do
    match ← host.environment name with
    | some value => return some value
    | none => host.setting names

/-- The environment chooses the level and the format of the log before the options do. A format that
is not known is worth a warning, and the command goes on without a log. -/
def prepareLog (host : Host m) (i : Invocation) : m Unit := do
  let level := (← host.setting [logLevelVariable, logFilterVariable]).getD i.logLevel.name
  let format := (← host.setting [logFormatVariable]).getD i.logFormat.name
  match LogFormat.read? format with
  | some f => host.startLog level f
  | none =>
    host.warn ("Warning: Failed to initialize logging: ".toList ++ LogFormat.setupMessage format ++
      ['\n'])

def invoke (host : Host m) (i : Invocation) : m Nat := do
  prepareLog host i
  if i.verbose then
    host.warn ("Modeligado v".toList ++ programVersion ++ ['\n'])
  match ← (perform host i.verbose i.task).run with
  | .ok () => return 0
  | .error f =>
    host.warn ("Error: ".toList ++ f.message ++ ['\n'])
    return 1

/-- Runs what a reader of arguments makes of them. -/
def runProgram (read : List Text → Except Refusal Invocation) (host : Host m) (args : List Text) :
    m Nat :=
  match read args with
  | .ok i => invoke host i
  | .error r => do
    if r = .versionWanted then host.print (programName ++ ' ' :: programVersion ++ ['\n'])
    else host.warn (r.message ++ ['\n'])
    return r.exitCode

end

/-- A host as a value: what is there to be read, and what has been printed. -/
structure Session where
  tree : FileTree
  input : Except FileFault Text
  settings : List (Text × Text)
  printed : Text
  warned : Text

/-- Puts what a device is given where it shows. -/
def Session.receive (s : Session) (d : Option Device) (t : Text) : Session :=
  match d with
  | some .output => { s with printed := s.printed ++ t }
  | some .warnings => { s with warned := s.warned ++ t }
  | _ => s

def Session.host : Host (StateM Session) where
  readFile path := fun s =>
    (if s.tree.device? path = some .input then s.input else s.tree.readFile path, s)
  writeFile path content := fun s =>
    let (r, tree) := s.tree.writeFile path content
    (r, { s with tree := tree }.receive (s.tree.device? path) content)
  ensureDirectory path := fun s =>
    let (r, tree) := s.tree.ensureDirectory path
    (r, { s with tree := tree })
  readInput := fun s => (s.input, s)
  print t := fun s => ((), { s with printed := s.printed ++ t })
  warn t := fun s => ((), { s with warned := s.warned ++ t })
  environment name := fun s => (s.settings.lookup name, s)
  startLog _ _ := pure ()

def Session.run (s : Session) (args : List Text) : Nat × Session :=
  runProgram readArguments host args s

end ClassNotation
