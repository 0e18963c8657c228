import LivePage.Config.Basic
import LivePage.Config.Override
import LivePage.Files.Workplace
import LivePage.Text.Case
import LivePage.Toml.Reader

/-!
Where configurations come from: files that are named, or else one in a place where files of this
kind are looked for, and single settings over them. A default configuration can be written to a
file.
-/

namespace LivePage.Config

variable {m : Type → Type} [Monad m]

/-- Where a file is looked for below the current directory, in order. -/
def localPlaces : List Text :=
  ["mdlive.toml", "mdlive.json", ".mdlive.toml", ".mdlive.json", ".config/mdlive.toml",
    ".config/mdlive.json"]

/-- Where a file is looked for below the directory for the configurations of a user, in order. -/
def homePlaces : List Text := ["mdlive/mdlive.toml", "mdlive/mdlive.json"]

def firstPlace? (w : Workplace m) (directory : Text) : List Text → m (Option Text)
  | [] => return none
  | name :: names => do
      let path := Path.join directory name
      if ← w.hasPath path then return some path else firstPlace? w directory names

def findFile? (w : Workplace m) : m (Option Text) := do
  match ← firstPlace? w (← w.currentDirectory) localPlaces with
  | some path => return some path
  | none =>
      match ← w.configHome with
      | none => return none
      | some home => firstPlace? w home homePlaces

/-- The value in a file, of which the extension tells the format. -/
def readContent (path content : Text) : Except ConfigError Json :=
  match (Path.extension? path).map Text.lower with
  | none => .error (.config ("Config file has no extension: ".toList ++ path))
  | some extension =>
      if extension = "json".toList then (Json.parse content).mapError .data
      else if extension = "toml".toList then
        match Toml.parse? content with
        | some v => .ok v
        | none => .error .toml
      else .error (.config ("Unsupported config file format: ".toList ++ path))

def readFile (w : Workplace m) (path : Text) : ExceptT ConfigError m Json := do
  match ← w.readFile path with
  | .ok content => readContent path content
  | .error e =>
      throw (.config ("Failed to read config file: ".toList ++ path ++ ": ".toList ++ e.message))

/-- A configuration from one file, as it stands there. -/
def fromFile (w : Workplace m) (path : Text) : ExceptT ConfigError m Config := do
  let v ← readFile w path
  liftM ((ofJson v).mapError ConfigError.data)

/-- The values in files, up to the first that cannot be read. -/
def readFiles (w : Workplace m) : List Text → ExceptT ConfigError m (List Json)
  | [] => return []
  | path :: paths => do
      let v ← (readFile w path).adapt fun e =>
        .config ("Failed to load config from ".toList ++ path ++ ": ".toList ++ e.message)
      return v :: (← readFiles w paths)

/-- The configuration that layers and the settings over them make. It has to stand for options. -/
def ofLayers (layers : List Json) (overrides : List Text) : Except ConfigError Config := do
  let (v, outcome) := (Json.mergeAll layers).overrideAll overrides
  outcome.mapError fun e => .config e.message
  let c ← (ofJson v).mapError .data
  let _ ← c.markdown.toOptions
  return c

/-- The configuration of a run: that of the files, or of the one that is found if none is named,
with the settings over it. -/
def load (w : Workplace m) (files overrides : List Text) : ExceptT ConfigError m Config := do
  let found : Option Text ← (if files.isEmpty then findFile? w else pure none : m (Option Text))
  let layers ← readFiles w (files ++ found.toList)
  if 1 < layers.length then
    w.info ("Loaded and merged ".toList ++ Text.ofNat layers.length ++ " config files".toList)
  ofLayers layers overrides

def generate (w : Workplace m) (format path : Text) : ExceptT ConfigError m Unit := do
  let content ← standardText format
  match ← w.writeFile path content with
  | .ok () => w.info ("Created default configuration file: ".toList ++ path)
  | .error e =>
      throw (.config
        ("Failed to write default config to ".toList ++ path ++ ": ".toList ++ e.message))

end LivePage.Config
