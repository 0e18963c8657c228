import LivePage.Command.Arguments
import LivePage.Command.Run

/-!
A whole run of the program, from the words of the command line to the way it ends.
-/

namespace LivePage

/-- The name and number by which the program answers when it is asked for its version. -/
def versionText : Text := "mdlive 0.3.0"

def helpText : Text := Text.join ['\n']
  ["Markdown for live pages", "",
   "mdlive [OPTIONS] render INPUT [--output FILE] [--hydrate] [--id-prefix PREFIX]",
   "mdlive [OPTIONS] check INPUT",
   "mdlive init [--output FILE] [--format toml|json] [--force]", "",
   "-v, --verbose           more messages",
   "-c, --config-file FILE  a configuration file; a later one counts over an earlier one",
   "    --config KEY=VALUE  a single setting over the files"]

def Stop.message : Stop → Text
  | help => helpText
  | version => versionText
  | nothingGiven => helpText
  | missingCommand => "a command is missing"
  | missingInput => "the input is missing"
  | unknownCommand word => "unknown command: ".toList ++ word
  | unknownArgument word => "unexpected argument: ".toList ++ word
  | conflict a => "given more than once: ".toList ++ (a.long?.getD "input")
  | invalidValue a => "no valid value: ".toList ++ (a.long?.getD "input")
  | unneededValue a => "takes no value: ".toList ++ (a.long?.getD "input")

/-- How a run ends. -/
inductive Ending where
  | done
  | stopped (s : Stop)
  | failed (f : Failure)
  deriving DecidableEq, Inhabited

namespace Ending

/-- What was asked for is no error; a command that cannot be read is another one than a command that
fails. -/
def code : Ending → Nat
  | done => 0
  | stopped .help | stopped .version => 0
  | stopped _ => 2
  | failed _ => 1

def complaint? : Ending → Option Text
  | done => none
  | stopped .help | stopped .version => none
  | stopped s => some s.message
  | failed f => some f.message

end Ending

variable {m : Type → Type} [Monad m]

/-- Runs a command under the configuration that the call asks for; one that writes a configuration
needs none. -/
def Invocation.run (w : Workplace m) (i : Invocation) : ExceptT Failure m Unit :=
  match i.command with
  | .init _ _ _ => i.command.run w {}
  | _ => do
      let c ← Command.configure "Failed to load configuration"
        (Config.load w i.configFiles i.overrides)
      i.command.run w c

def runProgram (w : Workplace m) (words : List Text) : m Ending := do
  match Invocation.parse words with
  | .error s =>
      match s with
      | .help | .version =>
          let _ ← w.print (s.message ++ ['\n'])
          return .stopped s
      | _ => return .stopped s
  | .ok i =>
      match ← (i.run w).run with
      | .ok () => return .done
      | .error f => return .failed f

end LivePage
