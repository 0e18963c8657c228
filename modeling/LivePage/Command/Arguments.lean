import LivePage.Command.Basic

/-!
Reading a command line. It has options, the name of a command, and then options and the input of
that command. Some options are allowed on both sides of the name; lists given behind it replace
those in front. A value is taken in when the next argument begins, and only then looked at, so a
fault of an argument can be overtaken by one behind it.
-/

namespace LivePage

inductive Argument where
  | verbose
  | configFile
  | override
  | help
  | version
  | input
  | output
  | hydrate
  | idPrefix
  | format
  | force
  deriving DecidableEq, Inhabited

namespace Argument

/-- The name behind two hyphens; the input goes by its place. -/
def long? : Argument → Option Text
  | verbose => some "verbose"
  | configFile => some "config-file"
  | override => some "config"
  | help => some "help"
  | version => some "version"
  | input => none
  | output => some "output"
  | hydrate => some "hydrate"
  | idPrefix => some "id-prefix"
  | format => some "format"
  | force => some "force"

def short? : Argument → Option Char
  | verbose => some 'v'
  | configFile => some 'c'
  | help => some 'h'
  | version => some 'V'
  | output => some 'o'
  | format => some 'F'
  | force => some 'f'
  | _ => none

/-- Whether a value belongs to the option; the others are flags. -/
def takesValue : Argument → Bool
  | configFile | override | input | output | idPrefix | format => true
  | _ => false

def repeats : Argument → Bool
  | configFile | override => true
  | _ => false

def formats : List Text := ["toml", "json"]

/-- Paths are not empty, and a format is one of those that there are. -/
def accepts : Argument → Text → Bool
  | configFile, v | input, v | output, v => !v.isEmpty
  | format, v => formats.contains v
  | _, _ => true

end Argument

/-- Why a command line asks for no command, or for none that can be run. -/
inductive Stop where
  | help
  | version
  | nothingGiven
  | missingCommand
  | missingInput
  | unknownCommand (word : Text)
  | unknownArgument (word : Text)
  | conflict (a : Argument)
  | invalidValue (a : Argument)
  | unneededValue (a : Argument)
  deriving DecidableEq, Inhabited

/-- What one side of a command line may hold. -/
structure Side where
  commands : List Text
  arguments : List Argument

namespace Side

def shared : List Argument := [.verbose, .configFile, .override, .help]

def front : Side := ⟨["render", "check", "init", "help"], .version :: shared⟩

def behind (command : Text) : Side :=
  let own : List Argument :=
    if command = "render".toList then [.input, .output, .hydrate, .idPrefix]
    else if command = "check".toList then [.input]
    else [.output, .format, .force]
  ⟨[], own ++ shared⟩

def byLong? (side : Side) (name : Text) : Option Argument :=
  side.arguments.find? fun a => a.long? = some name

def byShort? (side : Side) (c : Char) : Option Argument :=
  side.arguments.find? fun a => a.short? = some c

end Side

/-- The arguments of one side as far as it has been read. -/
structure Given where
  /-- Those taken in, in order; flags have no text. -/
  taken : List (Argument × Text) := []
  /-- The last one, if it is not taken in yet, and its value if that has come. -/
  pending : Option (Argument × Option Text) := none
  deriving Inhabited

namespace Given

def has (g : Given) (a : Argument) : Bool := g.taken.any fun p => p.1 = a

def values (g : Given) (a : Argument) : List Text :=
  (g.taken.filter fun p => p.1 = a).map Prod.snd

def value? (g : Given) (a : Argument) : Option Text := (g.values a).head?

def isWaiting (g : Given) : Bool :=
  match g.pending with
  | some (_, none) => true
  | _ => false

def settle (g : Given) : Except Stop Given :=
  match g.pending with
  | none => .ok g
  | some (a, none) => .error (.invalidValue a)
  | some (a, some v) =>
      if g.has a && !a.repeats then .error (.conflict a)
      else if a.accepts v then .ok ⟨g.taken ++ [(a, v)], none⟩
      else .error (.invalidValue a)

def await (g : Given) (a : Argument) : Except Stop Given := do
  return { ← g.settle with pending := some (a, none) }

def begin (g : Given) (a : Argument) (v : Text) : Except Stop Given := do
  return { ← g.settle with pending := some (a, some v) }

def supply (g : Given) (v : Text) : Given :=
  { g with pending := g.pending.map fun p => (p.1, some v) }

def flag (g : Given) (a : Argument) : Except Stop Given := do
  let g ← g.settle
  if a = .help then throw .help
  if a = .version then throw .version
  if g.has a then throw (.conflict a)
  return { g with taken := g.taken ++ [(a, [])] }

/-- An option by its long name, perhaps with a value behind an equals sign. -/
def readLong (side : Side) (g : Given) (word : Text) : Except Stop Given :=
  let (name, value) := match Text.splitFirst? '=' word with
    | some (name, value) => (name, some value)
    | none => (word, none)
  match side.byLong? name, value with
  | none, _ => .error (.unknownArgument ("--".toList ++ word))
  | some a, some v =>
      if a.takesValue then do (← g.begin a v).settle else .error (.unneededValue a)
  | some a, none => if a.takesValue then g.await a else g.flag a

/-- Options by their letters. What follows the letter of one that takes a value is that value. -/
def readShort (side : Side) (g : Given) : Text → Except Stop Given
  | [] => .ok g
  | c :: rest =>
      match side.byShort? c with
      | none => .error (.unknownArgument ['-', c])
      | some a =>
          if a.takesValue then
            match rest with
            | [] => g.await a
            | '=' :: v => do (← g.begin a v).settle
            | v => do (← g.begin a v).settle
          else do readShort side (← g.flag a) rest

def readPlain (side : Side) (g : Given) (afterOptions : Bool) (word : Text) : Except Stop Given :=
  if side.arguments.contains .input && !g.has .input && g.pending.all (fun p => p.1 ≠ .input) then
    g.begin .input word
  else if side.commands.isEmpty || (afterOptions && side.commands.contains word) then
    .error (.unknownArgument word)
  else .error (.unknownCommand word)

def readWord (side : Side) (g : Given) (word : Text) : Except Stop Given :=
  match word with
  | '-' :: '-' :: rest => g.readLong side rest
  | '-' :: c :: rest => g.readShort side (c :: rest)
  | _ => if g.isWaiting then .ok (g.supply word) else g.readPlain side false word

/-- Reads one side, up to the name of a command, which is given with what follows it. -/
def read (side : Side) (g : Given) : List Text → Except Stop (Given × Option (Text × List Text))
  | [] => .ok (g, none)
  | word :: words =>
      if !g.isWaiting && side.commands.contains word then .ok (g, some (word, words))
      else if word = ['-', '-'] then do
        return (← words.foldlM (fun g word => g.readPlain side true word) g, none)
      else do (← g.readWord side word).read side words

end Given

namespace Invocation

def orElse (values others : List Text) : List Text := if values.isEmpty then others else values

def commandOf (name : Text) (g : Given) : Except Stop Command :=
  if name = "init".toList then
    .ok (.init ((g.value? .output).getD "mdlive.toml") ((g.value? .format).getD "toml")
      (g.has .force))
  else
    match g.value? .input with
    | none => .error .missingInput
    | some input =>
        if name = "check".toList then .ok (.check input)
        else .ok (.render input (g.value? .output) (g.has .hydrate) (g.value? .idPrefix))

/-- The command of which help is wanted; one command has no others in it. -/
def helpFor (words : List Text) : Stop :=
  let unknown := match words with
    | [] => none
    | word :: rest => if Side.front.commands.contains word then rest.head? else some word
  match unknown with
  | none => .help
  | some word => .unknownCommand word

def parse (words : List Text) : Except Stop Invocation := do
  match ← Given.read .front {} words with
  | (g, none) =>
      let g ← g.settle
      throw (if g.taken.isEmpty then .nothingGiven else .missingCommand)
  | (g, some (name, words)) =>
      if name = "help".toList then throw (helpFor words)
      let (own, _) ← Given.read (.behind name) {} words
      let own ← own.settle
      let command ← commandOf name own
      let g ← g.settle
      return ⟨g.has .verbose || own.has .verbose,
        orElse (own.values .configFile) (g.values .configFile),
        orElse (own.values .override) (g.values .override), command⟩

end Invocation
end LivePage
