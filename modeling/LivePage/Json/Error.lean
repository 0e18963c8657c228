import LivePage.Json.Printer
import LivePage.Text.Quoted

/-!
What can be wrong with a JSON text, and where. A cause is either a fault of the grammar or a value
of the wrong shape for what is being read. A place in a text is the line, counted from one, and the
number of bytes of that line that had been read.
-/

namespace LivePage.Json

/-- A value as a message about its type names it. -/
inductive Kind where
  | null
  | bool (b : Bool)
  | number (n : JsonNumber)
  | string (s : Text)
  | sequence
  | map
  deriving DecidableEq, Inhabited

def kind : Json → Kind
  | .null => .null
  | .bool b => .bool b
  | .number n => .number n
  | .string s => .string s
  | .array _ => .sequence
  | .object _ => .map

def Kind.text : Kind → Text
  | .null => "null"
  | .bool true => "boolean \x60true\x60"
  | .bool false => "boolean \x60false\x60"
  | .number (.int n) => "integer \x60".toList ++ Text.ofInt n ++ ['\x60']
  | .number (.real x) => "floating point \x60".toList ++ realText x ++ ['\x60']
  | .string s => "string ".toList ++ Text.quoted s
  | .sequence => "sequence"
  | .map => "map"

inductive Cause where
  | endInList
  | endInObject
  | endInString
  | endInValue
  | expectedColon
  | expectedCommaInList
  | expectedCommaInObject
  | expectedWord
  | expectedValue
  | invalidEscape
  | invalidNumber
  | numberOutOfRange
  | controlCharacter
  | keyNotString
  | loneSurrogate
  | trailingComma
  | trailingCharacters
  | endOfHexEscape
  | tooDeep
  | wrongType (found : Kind) (expected : Text)
  | wrongValue (found : Kind) (expected : Text)
  | wrongLength (length : Nat) (expected : Text)
  | unknownField (name : Text) (known : List Text)
  | unknownVariant (name : Text) (known : List Text)
  | missingField (name : Text)
  | duplicateField (name : Text)
  deriving DecidableEq, Inhabited

def tick (s : Text) : Text := ['\x60'] ++ s ++ ['\x60']

/-- The names that would have been accepted: one, two, or a list. -/
def oneOf : List Text → Text
  | [] => "there are no fields"
  | [a] => tick a
  | [a, b] => tick a ++ " or ".toList ++ tick b
  | names => "one of ".toList ++ Text.join ", " (names.map tick)

def Cause.message : Cause → Text
  | endInList => "EOF while parsing a list"
  | endInObject => "EOF while parsing an object"
  | endInString => "EOF while parsing a string"
  | endInValue => "EOF while parsing a value"
  | expectedColon => "expected \x60:\x60"
  | expectedCommaInList => "expected \x60,\x60 or \x60]\x60"
  | expectedCommaInObject => "expected \x60,\x60 or \x60\x7d\x60"
  | expectedWord => "expected ident"
  | expectedValue => "expected value"
  | invalidEscape => "invalid escape"
  | invalidNumber => "invalid number"
  | numberOutOfRange => "number out of range"
  | controlCharacter => "control character (\\u0000-\\u001F) found while parsing a string"
  | keyNotString => "key must be a string"
  | loneSurrogate => "lone leading surrogate in hex escape"
  | trailingComma => "trailing comma"
  | trailingCharacters => "trailing characters"
  | endOfHexEscape => "unexpected end of hex escape"
  | tooDeep => "recursion limit exceeded"
  | wrongType found expected =>
      "invalid type: ".toList ++ found.text ++ ", expected ".toList ++ expected
  | wrongValue found expected =>
      "invalid value: ".toList ++ found.text ++ ", expected ".toList ++ expected
  | wrongLength n expected =>
      "invalid length ".toList ++ Text.ofNat n ++ ", expected ".toList ++ expected
  | unknownField name known =>
      "unknown field ".toList ++ tick name ++ ", expected ".toList ++ oneOf known
  | unknownVariant name known =>
      "unknown variant ".toList ++ tick name ++ ", expected ".toList ++ oneOf known
  | missingField name => "missing field ".toList ++ tick name
  | duplicateField name => "duplicate field ".toList ++ tick name

structure Position where
  line : Nat
  column : Nat
  deriving DecidableEq, Inhabited

/-- Moves over `n` bytes of what lies ahead, or to its end. -/
def Position.forward (pos : Position) : Nat → Text → Position
  | 0, _ => pos
  | _, [] => pos
  | n + 1, c :: s =>
      if c = '\n' then Position.forward ⟨pos.line + 1, 0⟩ n s
      else
        let size := c.utf8Size
        Position.forward ⟨pos.line, pos.column + min size (n + 1)⟩ (n + 1 - size) s
termination_by _ s => s.length

/-- A cause found while `rest` was still ahead, noticed after `extra` further bytes. -/
structure Fault where
  cause : Cause
  rest : Text
  extra : Nat
  deriving Inhabited

def Fault.here (cause : Cause) (rest : Text) : Fault := ⟨cause, rest, 0⟩

def Fault.ahead (cause : Cause) (rest : Text) : Fault := ⟨cause, rest, 1⟩

def Fault.position (whole : Text) (fault : Fault) : Position :=
  let read := whole.take (whole.length - fault.rest.length)
  let start := Position.forward ⟨1, 0⟩ (Text.byteLength read) read
  start.forward fault.extra fault.rest

structure Error where
  cause : Cause
  position : Option Position
  deriving DecidableEq, Inhabited

def Fault.toError (whole : Text) (fault : Fault) : Error :=
  ⟨fault.cause, some (fault.position whole)⟩

def Error.message (e : Error) : Text :=
  match e.position with
  | none => e.cause.message
  | some p =>
      e.cause.message ++ " at line ".toList ++ Text.ofNat p.line ++ " column ".toList ++
        Text.ofNat p.column

end LivePage.Json
