import LivePage.Files.Path
import LivePage.Recovery

/-!
What a command needs of the place it runs in: files and directories, the standard streams, and a
log. Commands are written over these alone, so they run on a real system as well as on a tree of
files that is a value.
-/

namespace LivePage

inductive FileError where
  | notFound
  | alreadyThere
  | notDirectory
  | isDirectory
  | notText
  | other (message : Text)
  deriving DecidableEq, Inhabited

def FileError.message : FileError → Text
  | notFound => "No such file or directory (os error 2)"
  | alreadyThere => "File exists (os error 17)"
  | notDirectory => "Not a directory (os error 20)"
  | isDirectory => "Is a directory (os error 21)"
  | notText => "stream did not contain valid UTF-8"
  | other message => message

structure Workplace (m : Type → Type) where
  readFile : Text → m (Except FileError Text)
  writeFile : Text → Text → m (Except FileError Unit)
  makeDirectory : Text → m (Except FileError Unit)
  hasPath : Text → m Bool
  isDirectory : Text → m Bool
  currentDirectory : m Text
  /-- The directory for the configurations of a user, if one is set. -/
  configHome : m (Option Text)
  readInput : m (Except FileError Text)
  print : Text → m (Except FileError Unit)
  log : LogRecord → m Unit

namespace Workplace

variable {m : Type → Type} [Monad m]

def logAll (w : Workplace m) (records : List LogRecord) : m Unit := records.forM w.log

def info (w : Workplace m) (message : Text) : m Unit := w.log ⟨.info, message⟩

/-- What an attempt to make a directory that failed amounts to: nothing if there is one. -/
def unlessDirectory (w : Workplace m) (path : Text) (e : FileError) :
    m (Except FileError Unit) := do
  if ← w.isDirectory path then return .ok () else return .error e

/-- Makes a directory, and those above it as far as they are missing, at most so many. -/
def makeDirectoriesTo (w : Workplace m) : Nat → Text → m (Except FileError Unit)
  | 0, _ => return .ok ()
  | n + 1, path => do
      if path.isEmpty then return .ok ()
      else match ← w.makeDirectory path with
        | .ok () => return .ok ()
        | .error .notFound =>
            match Path.parent? path with
            | none => return .error (.other "failed to create whole tree")
            | some parent =>
                match ← makeDirectoriesTo w n parent with
                | .error e => return .error e
                | .ok () =>
                    match ← w.makeDirectory path with
                    | .ok () => return .ok ()
                    | .error e => w.unlessDirectory path e
        | .error e => w.unlessDirectory path e

def makeDirectories (w : Workplace m) (path : Text) : m (Except FileError Unit) :=
  w.makeDirectoriesTo (path.length + 1) path

end Workplace
end LivePage
