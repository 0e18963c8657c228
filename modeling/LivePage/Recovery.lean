import LivePage.Text.Basic

/-!
Log records, and processing that survives an interruption. An interrupted processing is logged, and
its input or a fallback takes the place of its result.
-/

namespace LivePage

inductive LogLevel where
  | error
  | warn
  | info
  deriving DecidableEq, Inhabited

structure LogRecord where
  level : LogLevel
  message : Text
  deriving DecidableEq, Inhabited

def LogLevel.name : LogLevel → Text
  | error => "ERROR"
  | warn => "WARN"
  | info => "INFO"

def LogRecord.toText (r : LogRecord) : Text := r.level.name ++ ' ' :: r.message

/-- What a computation left behind that was broken off: its message, if it gave one. -/
structure Interruption where
  message : Option Text
  deriving DecidableEq, Inhabited

def Interruption.record (i : Interruption) : LogRecord :=
  match i.message with
  | some message => ⟨.error, "Error processing markup: ".toList ++ message⟩
  | none => ⟨.error, "Unknown error occurred while processing markup"⟩

/-- Processes a text that is not empty. If that is interrupted, the fallback is given instead, or
the text itself if the fallback is empty. -/
def processSafe (content : Text) (process : Text → Except Interruption Text) (fallback : Text) :
    Text × List LogRecord :=
  if content.isEmpty then ([], [])
  else match process content with
    | .ok out => (out, [])
    | .error i => (if fallback.isEmpty then content else fallback, [i.record])

end LivePage
