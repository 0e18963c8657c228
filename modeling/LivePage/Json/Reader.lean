import LivePage.Json.Error

/-!
Reading JSON text. The reader gives a draft: the value as far as it could be read, in which the
first fault stands at the place where it was met. A draft without a fault is a value; a reader of
typed data may go through a draft in order and find a value of the wrong type before a fault further
on. Numbers without a fraction or exponent stay exact while they fit 64 bits; all others are made
from their first significant digits and a power of ten by one multiplication or division.
-/

namespace LivePage.Json

inductive Draft where
  | null
  | bool (b : Bool)
  | number (n : JsonNumber)
  | string (s : Text)
  | array (items : List Draft) (stop : Option Fault)
  | object (fields : List (Text × Draft)) (stop : Option Fault)
  | broken (fault : Fault)
  deriving Inhabited

def isJsonBlank (c : Char) : Bool := c = ' ' || c = '\n' || c = '\t' || c = '\r'

def skipBlank (s : Text) : Text := s.dropWhile isJsonBlank

def maxWord : Nat := 18446744073709551615

def maxExponent : Nat := 2147483647

/-- `significand * 10 ^ exponent` by division of the rounded significand, in steps of at most
`10 ^ 308`; two such steps leave zero. -/
def divideByTen : Nat → Binary64 → Nat → Option Binary64
  | 0, x, _ => some (Binary64.zero x.negative)
  | fuel + 1, x, n =>
      if n < 309 then (Binary64.ofNat? (powerOfTen n)).bind x.div?
      else if x.isZero then some x
      else ((Binary64.ofNat? (powerOfTen 308)).bind x.div?).bind fun y => divideByTen fuel y (n - 308)

/-- The number nearest to the significand, multiplied or divided by a power of ten. -/
def ofParts? (significand : Nat) (exponent : Int) : Option Binary64 :=
  (Binary64.ofNat? significand).bind fun x =>
    if exponent < 0 then divideByTen 8 x (-exponent).toNat
    else if exponent < 309 then (Binary64.ofNat? (powerOfTen exponent.toNat)).bind x.mul?
    else if x.isZero then some x
    else none

def finishReal (negative : Bool) (significand : Nat) (exponent : Int) (rest : Text) :
    Except Fault (JsonNumber × Text) :=
  (ofParts? significand exponent).elim (.error (.here .numberOutOfRange rest))
    fun x => .ok (.real ⟨negative, x.mantissa, x.exponent⟩, rest)

def clampExponent (e : Int) : Int := max (-2147483648) (min 2147483647 e)

/-- The digits of an exponent. One too large for any number makes zero, or is out of range. -/
def readExponentDigits (negative : Bool) (significand : Nat) (start : Int) (positive : Bool) :
    Nat → Text → Except Fault (JsonNumber × Text)
  | e, [] =>
      finishReal negative significand (clampExponent (if positive then start + e else start - e)) []
  | e, c :: s =>
      if Text.isAsciiDigit c then
        let e' := e * 10 + Text.hexValue c
        if maxExponent < e' then
          if significand ≠ 0 && positive then .error (.here .numberOutOfRange s)
          else .ok (.real (Binary64.zero negative), s.dropWhile Text.isAsciiDigit)
        else readExponentDigits negative significand start positive e' s
      else
        finishReal negative significand (clampExponent (if positive then start + e else start - e))
          (c :: s)

def readExponent (negative : Bool) (significand : Nat) (start : Int) (s : Text) :
    Except Fault (JsonNumber × Text) :=
  let (positive, s) := match s with
    | '+' :: r => (true, r)
    | '-' :: r => (false, r)
    | _ => (true, s)
  match s with
  | [] => .error (.here .endInValue [])
  | c :: r =>
      if Text.isAsciiDigit c then
        readExponentDigits negative significand start positive (Text.hexValue c) r
      else .error (.ahead .invalidNumber s)

def finishFraction (negative : Bool) (significand : Nat) (exponent : Int) (s : Text) :
    Except Fault (JsonNumber × Text) :=
  match s with
  | 'e' :: r | 'E' :: r => readExponent negative significand exponent r
  | _ => finishReal negative significand exponent s

/-- The digits after a point, `count` of them read. Digits that no longer fit are dropped. -/
def readFraction (negative : Bool) (start : Int) : Nat → Nat → Text →
    Except Fault (JsonNumber × Text)
  | significand, count, [] =>
      if count = 0 then .error (.ahead .endInValue [])
      else finishFraction negative significand (start - count) []
  | significand, count, c :: s =>
      if Text.isAsciiDigit c then
        let next := significand * 10 + Text.hexValue c
        if maxWord < next then
          finishFraction negative significand (start - count)
            ((c :: s).dropWhile Text.isAsciiDigit)
        else readFraction negative start next (count + 1) s
      else if count = 0 then .error (.ahead .invalidNumber (c :: s))
      else finishFraction negative significand (start - count) (c :: s)

/-- Digits of an integer that no longer fit 64 bits only count. -/
def readLongInteger (negative : Bool) (significand : Nat) : Nat → Text →
    Except Fault (JsonNumber × Text)
  | exponent, [] => finishReal negative significand exponent []
  | exponent, c :: s =>
      if Text.isAsciiDigit c then readLongInteger negative significand (exponent + 1) s
      else if c = '.' then readFraction negative exponent significand 0 s
      else finishFraction negative significand exponent (c :: s)

def finishInteger (negative : Bool) (n : Nat) (s : Text) : Except Fault (JsonNumber × Text) :=
  match s with
  | '.' :: r => readFraction negative 0 n 0 r
  | 'e' :: r | 'E' :: r => readExponent negative n 0 r
  | _ =>
      if !negative then .ok (.int n, s)
      else if n = 0 || 9223372036854775808 < n then finishReal true n 0 s
      else .ok (.int (-n), s)

def readInteger (negative : Bool) : Nat → Text → Except Fault (JsonNumber × Text)
  | n, [] => finishInteger negative n []
  | n, c :: s =>
      if Text.isAsciiDigit c then
        let next := n * 10 + Text.hexValue c
        if maxWord < next then readLongInteger negative n 0 (c :: s)
        else readInteger negative next s
      else finishInteger negative n (c :: s)

/-- A number, from its first digit on; a leading zero stands alone. -/
def readNumber (negative : Bool) (s : Text) : Except Fault (JsonNumber × Text) :=
  match s with
  | [] => .error (.here .endInValue [])
  | '0' :: c :: r =>
      if Text.isAsciiDigit c then .error (.ahead .invalidNumber (c :: r))
      else finishInteger negative 0 (c :: r)
  | c :: r =>
      if Text.isAsciiDigit c then readInteger negative (Text.hexValue c) r
      else .error (.ahead .invalidNumber s)

/-- The code of four hexadecimal digits, which are four bytes of the text. -/
def readHex (s : Text) : Except Fault (Nat × Text) :=
  if Text.byteLength s < 4 then .error (.here .endInString [])
  else
    let digits := s.take 4
    if digits.length = 4 && digits.all Text.isHexDigit then .ok (Text.readNat 16 digits, s.drop 4)
    else .error ⟨.invalidEscape, s, 4⟩

def readLowSurrogate (high : Nat) (s : Text) : Except Fault (Char × Text) :=
  match s with
  | [] => .error (.here .endInString [])
  | '\\' :: r =>
      match r with
      | [] => .error (.here .endInString [])
      | 'u' :: r => do
          let (low, r) ← readHex r
          if 0xdc00 ≤ low && low ≤ 0xdfff then
            .ok (Char.ofNat ((high - 0xd800) * 1024 + (low - 0xdc00) + 0x10000), r)
          else .error (.here .loneSurrogate r)
      | _ => .error (.ahead .endOfHexEscape r)
  | _ => .error (.ahead .endOfHexEscape s)

/-- The character that an escape stands for, after its backslash. -/
def readEscape (s : Text) : Except Fault (Char × Text) :=
  match s with
  | [] => .error (.here .endInString [])
  | '\x22' :: r => .ok ('\x22', r)
  | '\\' :: r => .ok ('\\', r)
  | '/' :: r => .ok ('/', r)
  | 'b' :: r => .ok ('\x08', r)
  | 'f' :: r => .ok ('\x0c', r)
  | 'n' :: r => .ok ('\n', r)
  | 'r' :: r => .ok ('\r', r)
  | 't' :: r => .ok ('\t', r)
  | 'u' :: r => do
      let (n, r) ← readHex r
      if 0xdc00 ≤ n && n ≤ 0xdfff then .error (.here .loneSurrogate r)
      else if 0xd800 ≤ n && n ≤ 0xdbff then readLowSurrogate n r
      else .ok (Char.ofNat n, r)
  | _ => .error (.ahead .invalidEscape s)

/-- The characters of a string up to its closing quote; `seen` holds them in reverse. -/
def readChars : Nat → Text → Text → Except Fault (Text × Text)
  | 0, _, s => .error (.here .endInString s)
  | fuel + 1, seen, s =>
      match s with
      | [] => .error (.here .endInString [])
      | '\x22' :: r => .ok (seen.reverse, r)
      | '\\' :: r => do
          let (c, r) ← readEscape r
          readChars fuel (c :: seen) r
      | c :: r =>
          if c.toNat < 32 then .error (.ahead .controlCharacter s)
          else readChars fuel (c :: seen) r

def readString (s : Text) : Except Fault (Text × Text) := readChars (s.length + 1) [] s

/-- The rest of a word such as `null` after its first letter. -/
def readWord : Text → Text → Except Fault Text
  | [], s => .ok s
  | _ :: _, [] => .error (.here .endInValue [])
  | c :: word, d :: s => if c = d then readWord word s else .error (.ahead .expectedWord (d :: s))

def draftWord (word : Text) (v : Draft) (s : Text) : Draft × Text :=
  match readWord word s with
  | .ok r => (v, r)
  | .error f => (.broken f, s)

def draftNumber (negative : Bool) (s : Text) : Draft × Text :=
  match readNumber negative s with
  | .ok (n, r) => (.number n, r)
  | .error f => (.broken f, s)

mutual

/-- A value in at most `depth - 1` further levels of nesting, and what follows it. -/
def readValue : Nat → Nat → Text → Draft × Text
  | 0, _, s => (.broken (.here .endInValue s), s)
  | fuel + 1, depth, s =>
      let s := skipBlank s
      match s with
      | [] => (.broken (.ahead .endInValue []), [])
      | 'n' :: r => draftWord "ull" .null r
      | 't' :: r => draftWord "rue" (.bool true) r
      | 'f' :: r => draftWord "alse" (.bool false) r
      | '-' :: r => draftNumber true r
      | '\x22' :: r =>
          match readString r with
          | .ok (t, r) => (.string t, r)
          | .error f => (.broken f, r)
      | '[' :: r =>
          if depth ≤ 1 then (.broken (.ahead .tooDeep s), s)
          else
            let (items, stop, rest) := readItems fuel (depth - 1) true r
            (.array items stop, rest)
      | '\x7b' :: r =>
          if depth ≤ 1 then (.broken (.ahead .tooDeep s), s)
          else
            let (fields, stop, rest) := readFields fuel (depth - 1) true r
            (.object fields stop, rest)
      | c :: _ =>
          if Text.isAsciiDigit c then draftNumber false s
          else (.broken (.ahead .expectedValue s), s)

/-- The items of an array up to its bracket, and the fault that ended them. -/
def readItems : Nat → Nat → Bool → Text → List Draft × Option Fault × Text
  | 0, _, _, s => ([], some (.here .endInList s), s)
  | fuel + 1, depth, first, s =>
      let s := skipBlank s
      match s with
      | [] => ([], some (.ahead .endInList []), [])
      | ']' :: r => ([], none, r)
      | c :: r =>
          if first then readItem fuel depth s
          else if c = ',' then
            match skipBlank r with
            | [] => ([], some (.ahead .endInValue []), [])
            | ']' :: r => ([], some (.ahead .trailingComma (']' :: r)), r)
            | s => readItem fuel depth s
          else ([], some (.ahead .expectedCommaInList s), s)

def readItem : Nat → Nat → Text → List Draft × Option Fault × Text
  | 0, _, s => ([], some (.here .endInList s), s)
  | fuel + 1, depth, s =>
      match readValue fuel depth s with
      | (.broken f, rest) => ([.broken f], none, rest)
      | (.array items (some f), rest) => ([.array items (some f)], none, rest)
      | (.object fields (some f), rest) => ([.object fields (some f)], none, rest)
      | (v, rest) =>
          let (items, stop, rest) := readItems fuel depth false rest
          (v :: items, stop, rest)

/-- The fields of an object up to its brace, and the fault that ended them. -/
def readFields : Nat → Nat → Bool → Text → List (Text × Draft) × Option Fault × Text
  | 0, _, _, s => ([], some (.here .endInObject s), s)
  | fuel + 1, depth, first, s =>
      let s := skipBlank s
      match s with
      | [] => ([], some (.ahead .endInObject []), [])
      | '\x7d' :: r => ([], none, r)
      | c :: r =>
          if first then
            if c = '\x22' then readField fuel depth r
            else ([], some (.ahead .keyNotString s), s)
          else if c = ',' then
            match skipBlank r with
            | [] => ([], some (.ahead .endInValue []), [])
            | '\x22' :: r => readField fuel depth r
            | '\x7d' :: r => ([], some (.ahead .trailingComma ('\x7d' :: r)), r)
            | s => ([], some (.ahead .keyNotString s), s)
          else ([], some (.ahead .expectedCommaInObject s), s)

/-- A field, after the opening quote of its key, and the fields that follow. -/
def readField : Nat → Nat → Text → List (Text × Draft) × Option Fault × Text
  | 0, _, s => ([], some (.here .endInObject s), s)
  | fuel + 1, depth, s =>
      match readString s with
      | .error f => ([], some f, s)
      | .ok (key, s) =>
          match skipBlank s with
          | [] => ([(key, .broken (.ahead .endInObject []))], none, [])
          | ':' :: s =>
              match readValue fuel depth s with
              | (.broken f, rest) => ([(key, .broken f)], none, rest)
              | (.array items (some f), rest) => ([(key, .array items (some f))], none, rest)
              | (.object fields (some f), rest) => ([(key, .object fields (some f))], none, rest)
              | (v, rest) =>
                  let (fields, stop, rest) := readFields fuel depth false rest
                  ((key, v) :: fields, stop, rest)
          | s => ([(key, .broken (.ahead .expectedColon s))], none, s)

end

mutual

def Draft.value : Draft → Except Fault Json
  | .null => .ok .null
  | .bool b => .ok (.bool b)
  | .number n => .ok (.number n)
  | .string s => .ok (.string s)
  | .array items stop => do
      let items ← Draft.values items
      match stop with
      | some f => .error f
      | none => .ok (.array items)
  | .object fields stop => do
      let fields ← Draft.fieldValues [] fields
      match stop with
      | some f => .error f
      | none => .ok (.object fields)
  | .broken f => .error f

def Draft.values : List Draft → Except Fault (List Json)
  | [] => .ok []
  | d :: rest => do
      let v ← d.value
      let items ← Draft.values rest
      .ok (v :: items)

def Draft.fieldValues (seen : Fields) : List (Text × Draft) → Except Fault Fields
  | [] => .ok seen
  | (key, d) :: rest => do
      let v ← d.value
      Draft.fieldValues (seen.insert key v) rest

end

/-- Levels of nesting that a document may have, the outermost included, plus one. -/
def depthLimit : Nat := 128

/-- Steps enough for any text: an opening bracket takes three, and no character takes more. -/
def stepLimit (s : Text) : Nat := 3 * s.length + 1

def draft (s : Text) : Draft × Text := readValue (stepLimit s) depthLimit s

def checkEnd (rest : Text) : Except Fault Unit :=
  match skipBlank rest with
  | [] => .ok ()
  | s => .error (.ahead .trailingCharacters s)

def parseWithin (depth : Nat) (s : Text) : Except Error Json :=
  let (d, rest) := readValue (stepLimit s) depth s
  match d.value with
  | .error f => .error (f.toError s)
  | .ok v =>
      match checkEnd rest with
      | .error f => .error (f.toError s)
      | .ok () => .ok v

def parse (s : Text) : Except Error Json := parseWithin depthLimit s

/-- The fields of a document that has to be an object. A value of another type is a fault where it
ends, or where it begins if it is an array. -/
def parseObject (s : Text) : Except Error Fields :=
  let (d, rest) := draft s
  let found : Except Fault Fields := match d with
    | .object _ _ =>
        match d.value with
        | .ok (.object fields) => (checkEnd rest).map fun _ => fields
        | .ok _ => .ok []
        | .error f => .error f
    | .array _ _ => .error (.here (.wrongType .sequence "a map") (skipBlank s))
    | .null => .error (.here (.wrongType .null "a map") rest)
    | .bool b => .error (.here (.wrongType (.bool b) "a map") rest)
    | .number n => .error (.here (.wrongType (.number n) "a map") rest)
    | .string t => .error (.here (.wrongType (.string t) "a map") rest)
    | .broken f => .error f
  found.mapError (Fault.toError s)

end LivePage.Json
