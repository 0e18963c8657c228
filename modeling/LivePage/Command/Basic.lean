import LivePage.Config.Basic
import LivePage.Files.Workplace

/-!
The commands of the program, what a call of it asks for, and why a command failed: what was being
done, and below it what went wrong there.
-/

namespace LivePage

inductive Command where
  /-- Renders the input to a file, or to the standard output. -/
  | render (input : Text) (output : Option Text) (hydrate : Bool) (idPrefix : Option Text)
  | check (input : Text)
  | init (output format : Text) (force : Bool)
  deriving DecidableEq, Inhabited

/-- A command with the sources of its configuration. -/
structure Invocation where
  verbose : Bool
  configFiles : List Text
  overrides : List Text
  command : Command
  deriving DecidableEq, Inhabited

/-- The causes, the outermost first. -/
structure Failure where
  causes : List Text
  deriving DecidableEq, Inhabited

namespace Failure

def of (cause : Text) : Failure := ⟨[cause]⟩

def during (activity : Text) (f : Failure) : Failure := ⟨activity :: f.causes⟩

def ofConfig (activity : Text) (e : ConfigError) : Failure := (of e.message).during activity

def ofFile (activity : Text) (e : FileError) : Failure := (of e.message).during activity

def message (f : Failure) : Text := Text.join " | " f.causes

end Failure

end LivePage
