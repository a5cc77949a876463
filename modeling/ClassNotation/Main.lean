import ClassNotation.Command.Run

/-! The program on a real machine. -/

namespace ClassNotation

def FileFault.ofError (e : IO.Error) : FileFault :=
  match e with
  | .noFileOrDirectory .. => .notFound
  | .alreadyExists .. => .alreadyThere
  | .inappropriateType _ 21 _ => .isDirectory
  | .inappropriateType .. => .notDirectory
  | .invalidArgument _ 36 _ => .nameTooLong
  | .resourceExhausted _ 28 _ => .noSpace
  | _ => .other (toString e).toList

def decodeText (bytes : ByteArray) : Except FileFault Text :=
  match String.fromUTF8? bytes with
  | some s => .ok s.toList
  | none => .error .notUtf8

def tryDisk {α : Type} (act : IO (Except FileFault α)) : IO (Except FileFault α) := do
  try act
  catch e => return .error (.ofError e)

partial def readStream (s : IO.FS.Stream) (sofar : ByteArray) : IO ByteArray := do
  let chunk ← s.read 65536
  if chunk.isEmpty then return sofar
  readStream s (sofar ++ chunk)

def machineHost : Host IO where
  readFile path := tryDisk do
    return decodeText (← IO.FS.withFile (String.ofList path) .read (·.readBinToEnd))
  writeFile path content := tryDisk do
    IO.FS.withFile (String.ofList path) .write fun h => do
      h.putStr (String.ofList content)
      h.flush
    return .ok ()
  ensureDirectory path := do
    match ← tryDisk do return .ok (← IO.FS.createDir (String.ofList path)) with
    | .error .alreadyThere => tryDisk do return .ok (← IO.FS.createDirAll (String.ofList path))
    | r => return r
  readInput := tryDisk do
    return decodeText (← readStream (← IO.getStdin) ByteArray.empty)
  print t := IO.print (String.ofList t)
  warn t := IO.eprint (String.ofList t)
  environment name := return (← IO.getEnv (String.ofList name)).map String.toList
  startLog _ _ := pure ()

end ClassNotation

def main (args : List String) : IO UInt32 := do
  let code ← ClassNotation.runProgram ClassNotation.readArguments ClassNotation.machineHost
    (args.map String.toList)
  return code.toUInt32
