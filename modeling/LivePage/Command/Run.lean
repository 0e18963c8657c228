import LivePage.Chart.Check
import LivePage.Command.Basic
import LivePage.Command.Rendering
import LivePage.Config.Sources

/-!
The commands: rendering a document, checking the charts in one, and writing a first configuration.
They are written over a workplace, and what they report is logged there.
-/

namespace LivePage

namespace Command

variable {m : Type → Type} [Monad m]

/-- Does something with files, and says what it was if that fails. -/
def attempt {α : Type} (activity : Text) (act : m (Except FileError α)) : ExceptT Failure m α :=
  (ExceptT.mk act).adapt (Failure.ofFile activity)

/-- Does something with configurations, and says what it was if that fails. -/
def configure {α : Type} (activity : Text) (act : ExceptT ConfigError m α) : ExceptT Failure m α :=
  act.adapt (Failure.ofConfig activity)

/-- The text of a document; a single hyphen stands for the standard input. -/
def readInput (w : Workplace m) (input : Text) : ExceptT Failure m Text :=
  if input = ['-'] then attempt "Failed to read standard input" w.readInput
  else attempt ("Failed to read ".toList ++ input) (w.readFile input)

/-- Makes the directory that a file is to be in, if it is not there, and gives it if it was made. -/
def makeParent (w : Workplace m) (path : Text) : ExceptT Failure m (Option Text) := do
  match (Path.parent? path).filter fun parent => !parent.isEmpty with
  | none => return none
  | some parent =>
      if ← w.hasPath parent then return none
      attempt ("Failed to create directory: ".toList ++ parent) (w.makeDirectories parent)
      return some parent

def writePage (w : Workplace m) (html : Text) : Option Text → ExceptT Failure m Unit
  | none => attempt "Failed to write to standard output" (w.print html)
  | some path => do
      let _ ← makeParent w path
      attempt ("Failed to write ".toList ++ path) (w.writeFile path html)
      w.info ("Wrote ".toList ++ path)

def runRender (w : Workplace m) (c : Config) (input : Text) (output : Option Text) (hydrate : Bool)
    (idPrefix : Option Text) : ExceptT Failure m Unit := do
  let processor ← c.processor idPrefix
  let markdown ← readInput w input
  let page := renderPage processor markdown (hydrate || c.hydrate)
  w.logAll page.logs
  match page.report with
  | some report =>
      if 0 < report.failed then
        w.log ⟨.warn, Text.ofNat report.failed ++ " of ".toList ++ Text.ofNat report.visited ++
          " charts could not be activated".toList⟩
  | none => pure ()
  writePage w page.html output

def runCheck (w : Workplace m) (c : Config) (input : Text) : ExceptT Failure m Unit := do
  let processor ← c.processor none
  let markdown ← readInput w input
  let (result, logs) := renderSafely processor markdown
  let problems := chartProblems result.html
  w.logAll (logs ++ problems.map ChartProblem.record)
  if problems.isEmpty then
    w.info (input ++ ": ".toList ++ Text.ofNat result.blocks.length ++
      " code blocks, all chart declarations valid".toList)
  else
    throw (.of (Text.ofNat problems.length ++ " invalid chart declaration(s) in ".toList ++ input))

def runInit (w : Workplace m) (output format : Text) (force : Bool) : ExceptT Failure m Unit := do
  if (← w.hasPath output) && !force then
    throw (.of ("Configuration file already exists: ".toList ++ output ++
      ". Use --force to overwrite.".toList))
  match ← makeParent w output with
  | some parent => w.info ("Created directory: ".toList ++ parent)
  | none => pure ()
  configure ("Failed to generate configuration file: ".toList ++ output)
    (Config.generate w format output)
  w.info "Configuration file created successfully. Edit it to customize rendering."

def run (w : Workplace m) (c : Config) : Command → ExceptT Failure m Unit
  | render input output hydrate idPrefix => runRender w c input output hydrate idPrefix
  | check input => runCheck w c input
  | init output format force => runInit w output format force

end Command
end LivePage
