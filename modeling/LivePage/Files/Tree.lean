import LivePage.Files.Workplace

/-!
A tree of files as a value, with the streams and settings of a command, and the workplace it makes.
-/

namespace LivePage

inductive FileEntry where
  | directory
  /-- A file; what is not text has no content here. -/
  | file (content : Option Text)
  deriving DecidableEq, Inhabited

/-- The steps from the root to a place. -/
abbrev Trail := List Text

structure FileTree where
  /-- All but the root, which is a directory. -/
  entries : List (Trail × FileEntry) := []
  current : Trail := []
  configHome : Option Text := none
  input : Text := []
  output : Text := []
  logs : List LogRecord := []
  deriving Inhabited

namespace FileTree

def entry? (t : FileTree) (p : Trail) : Option FileEntry :=
  if p.isEmpty then some .directory else (t.entries.find? fun e => e.1 = p).map Prod.snd

def put (t : FileTree) (p : Trail) (e : FileEntry) : FileTree :=
  { t with entries := t.entries.filter (fun f => f.1 ≠ p) ++ [(p, e)] }

def step (t : FileTree) (p : Trail) (s : Text) : Except FileError Trail :=
  match t.entry? p with
  | none => .error .notFound
  | some (.file _) => .error .notDirectory
  | some .directory => .ok (if s = ['.', '.'] then p.dropLast else p ++ [s])

/-- The place of a path, whether or not there is anything. -/
def locate (t : FileTree) (path : Text) : Except FileError Trail :=
  if path.isEmpty then .error .notFound
  else do
    let start := if Path.isAbsolute path then [] else t.current
    let p ← (Path.steps path).foldlM t.step start
    match t.entry? p with
    | some (.file _) => if Path.saysDirectory path then .error .notDirectory else .ok p
    | _ => .ok p

def find? (t : FileTree) (path : Text) : Except FileError (Option FileEntry) :=
  (t.locate path).map t.entry?

def read (t : FileTree) (path : Text) : Except FileError Text :=
  match t.find? path with
  | .error e => .error e
  | .ok none => .error .notFound
  | .ok (some .directory) => .error .isDirectory
  | .ok (some (.file none)) => .error .notText
  | .ok (some (.file (some content))) => .ok content

def write (t : FileTree) (path content : Text) : Except FileError FileTree := do
  let p ← t.locate path
  match t.entry? p with
  | some .directory => .error .isDirectory
  | some (.file _) => .ok (t.put p (.file (some content)))
  | none =>
      if Path.saysDirectory path then .error .isDirectory
      else .ok (t.put p (.file (some content)))

def makeDirectory (t : FileTree) (path : Text) : Except FileError FileTree := do
  let p ← t.locate path
  match t.entry? p with
  | some _ => .error .alreadyThere
  | none => .ok (t.put p .directory)

def isDirectory (t : FileTree) (path : Text) : Bool :=
  match t.find? path with
  | .ok (some .directory) => true
  | _ => false

def hasPath (t : FileTree) (path : Text) : Bool :=
  match t.find? path with
  | .ok (some _) => true
  | _ => false

def pathOf (p : Trail) : Text := if p.isEmpty then ['/'] else p.flatMap fun s => '/' :: s

/-- Goes on with the tree that a change leaves, or with the same one if the change fails. -/
def change (f : FileTree → Except FileError FileTree) : StateM FileTree (Except FileError Unit) :=
  fun t => match f t with
    | .ok t => (.ok (), t)
    | .error e => (.error e, t)

def workplace : Workplace (StateM FileTree) where
  readFile path := fun t => (t.read path, t)
  writeFile path content := change fun t => t.write path content
  makeDirectory path := change fun t => t.makeDirectory path
  hasPath path := fun t => (t.hasPath path, t)
  isDirectory path := fun t => (t.isDirectory path, t)
  currentDirectory := fun t => (pathOf t.current, t)
  configHome := fun t => (t.configHome, t)
  readInput := fun t => (.ok t.input, { t with input := [] })
  print s := fun t => (.ok (), { t with output := t.output ++ s })
  log r := fun t => ((), { t with logs := t.logs ++ [r] })

end FileTree
end LivePage
