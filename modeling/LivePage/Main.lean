import LivePage.Command.Program

/-!
The program on a real system: its files, its standard streams and its environment.
-/

namespace LivePage.Main

def errorOfCode (code : UInt32) (e : IO.Error) : FileError :=
  if code = 2 then .notFound
  else if code = 17 then .alreadyThere
  else if code = 20 then .notDirectory
  else if code = 21 then .isDirectory
  else .other e.toString.toList

def errorOf (e : IO.Error) : FileError :=
  match e with
  | .noFileOrDirectory _ code _ => errorOfCode code e
  | .alreadyExists _ code _ => errorOfCode code e
  | .inappropriateType _ code _ => errorOfCode code e
  | e => .other e.toString.toList

def attempt {α : Type} (act : IO α) : IO (Except FileError α) :=
  try return .ok (← act) catch e => return .error (errorOf e)

def succeeds {α : Type} (act : IO α) : IO Bool := do
  return (← attempt act).toBool

def textOf (bytes : ByteArray) : Except FileError Text :=
  match String.fromUTF8? bytes with
  | some s => .ok s.toList
  | none => .error .notText

def hasPath (path : Text) : IO Bool := succeeds (IO.FS.realPath (String.ofList path))

/-- A path with a dot step behind it leads somewhere only if it is a directory. -/
def isDirectory (path : Text) : IO Bool := hasPath (path ++ "/.".toList)

def readFile (path : Text) : IO (Except FileError Text) := do
  if !path.isEmpty && (← isDirectory path) then return .error .isDirectory
  return (← attempt (IO.FS.readBinFile (String.ofList path))).bind textOf

def writeFile (path content : Text) : IO (Except FileError Unit) :=
  attempt (IO.FS.writeFile (String.ofList path) (String.ofList content))

partial def readAll (input : IO.FS.Stream) (read : ByteArray) : IO ByteArray := do
  let more ← input.read 65536
  if more.isEmpty then return read else readAll input (read ++ more)

def readInput : IO (Except FileError Text) := do
  return (← attempt (do readAll (← IO.getStdin) .empty)).bind textOf

def print (s : Text) : IO (Except FileError Unit) := attempt do
  let output ← IO.getStdout
  output.putStr (String.ofList s)
  output.flush

def workplace : Workplace IO where
  readFile := readFile
  writeFile := writeFile
  makeDirectory path := attempt (IO.FS.createDir (String.ofList path))
  hasPath := hasPath
  isDirectory := isDirectory
  currentDirectory := return (toString (← IO.currentDir)).toList
  configHome := return (← IO.getEnv "XDG_CONFIG_HOME").map String.toList
  readInput := readInput
  print := print
  log r := IO.eprintln (String.ofList r.toText)

end LivePage.Main

def main (words : List String) : IO UInt32 := do
  let ending ← LivePage.runProgram LivePage.Main.workplace (words.map String.toList)
  match ending.complaint? with
  | some s => IO.eprintln (String.ofList s)
  | none => pure ()
  return UInt32.ofNat ending.code
