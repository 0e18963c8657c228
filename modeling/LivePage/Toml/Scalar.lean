import LivePage.Json.Basic

/-!
The scalars of TOML: strings of four kinds, numbers, dates and times. What is written in any other
way is nothing; why is not said.
-/

namespace LivePage.Toml

/-- A value that was read, and the text behind it. -/
abbrev Read (α : Type) := Option (α × Text)

def isBlank (c : Char) : Bool := c = ' ' || c = '\t'

/-- The control characters that may stand neither in strings nor in comments. -/
def isForbidden (c : Char) : Bool := (c.toNat < 32 && c ≠ '\t') || c = '\x7f'

def isBareKey (c : Char) : Bool := Text.isAsciiAlnum c || c = '_' || c = '-'

def readCode (digits : Nat) (s : Text) : Read Char :=
  let code := s.take digits
  let n := Text.readNat 16 code
  if code.length = digits && code.all Text.isHexDigit && n.isValidChar then
    some (Char.ofNat n, s.drop digits)
  else none

def readEscape (s : Text) : Read Char :=
  match s with
  | 'b' :: r => some ('\x08', r)
  | 't' :: r => some ('\t', r)
  | 'n' :: r => some ('\n', r)
  | 'f' :: r => some ('\x0c', r)
  | 'r' :: r => some ('\r', r)
  | 'e' :: r => some ('\x1b', r)
  | '\x22' :: r => some ('\x22', r)
  | '\\' :: r => some ('\\', r)
  | 'x' :: r => readCode 2 r
  | 'u' :: r => readCode 4 r
  | 'U' :: r => readCode 8 r
  | _ => none

/-- A string with escapes up to its quote; `seen` is kept with the last character first. -/
def readBasic : Nat → Text → Text → Read Text
  | 0, _, _ => none
  | _, _, [] => none
  | n + 1, seen, c :: s =>
      if c = '\x22' then some (seen.reverse, s)
      else if c = '\\' then
        match readEscape s with
        | some (d, s) => readBasic n (d :: seen) s
        | none => none
      else if isForbidden c then none
      else readBasic n (c :: seen) s

/-- A string as it stands up to its quote. -/
def readLiteral (s : Text) : Read Text :=
  match Text.splitFirst? '\x27' s with
  | some (content, rest) => if content.any isForbidden then none else some (content, rest)
  | none => none

def afterBreak? : Text → Option Text
  | '\n' :: s => some s
  | '\r' :: '\n' :: s => some s
  | _ => none

def dropBreak (s : Text) : Text := (afterBreak? s).getD s

def isFiller (c : Char) : Bool := isBlank c || c = '\n' || c = '\r'

/-- The text behind a backslash that ends a line and all blank lines after it. -/
def afterContinuation? (s : Text) : Option Text :=
  (afterBreak? (s.dropWhile isBlank)).map fun r => r.dropWhile isFiller

/-- How a run of quotes in a long string is read: three of them end it, and up to two before those
belong to it. -/
def endOfLong? (quote : Char) (s : Text) : Option (Text × Text) :=
  let run := (s.takeWhile (· = quote)).length
  if run < 3 then none
  else
    let kept := min run 5 - 3
    some (List.replicate kept quote, s.drop (kept + 3))

/-- A long string up to its end; `escapes` says whether backslashes count. -/
def readLong (quote : Char) (escapes : Bool) : Nat → Text → Text → Read Text
  | 0, _, _ => none
  | _, _, [] => none
  | n + 1, seen, c :: s =>
      match endOfLong? quote (c :: s) with
      | some (kept, rest) => some (seen.reverse ++ kept, rest)
      | none =>
          match afterBreak? (c :: s) with
          | some rest => readLong quote escapes n ('\n' :: seen) rest
          | none =>
              if escapes && c = '\\' then
                match afterContinuation? s with
                | some rest => readLong quote escapes n seen rest
                | none =>
                    match readEscape s with
                    | some (d, rest) => readLong quote escapes n (d :: seen) rest
                    | none => none
              else if isForbidden c then none
              else readLong quote escapes n (c :: seen) s

def readString (s : Text) : Read Text :=
  match s with
  | '\x22' :: '\x22' :: '\x22' :: r => readLong '\x22' true (r.length + 1) [] (dropBreak r)
  | '\x22' :: r => readBasic (r.length + 1) [] r
  | '\x27' :: '\x27' :: '\x27' :: r => readLong '\x27' false (r.length + 1) [] (dropBreak r)
  | '\x27' :: r => readLiteral r
  | _ => none

/-- The digits of a numeral without the underscores, each of which stands between two digits. -/
def digitsOf? (isDigit : Char → Bool) (s : Text) : Option Text :=
  let parts := Text.split (· = '_') s
  if parts.all fun p => !p.isEmpty && p.all isDigit then some parts.flatten else none

/-- Digits without a needless zero in front. -/
def decimalOf? (s : Text) : Option Text :=
  (digitsOf? Text.isAsciiDigit s).filter fun d => d.head? ≠ some '0' || d.length = 1

/-- Integers from the least of 64 bits with a sign to the greatest of 64 bits without one. -/
def integer? (negative : Bool) (n : Nat) : Option Json :=
  if negative then
    if n ≤ 9223372036854775808 then some (Json.int (-n)) else none
  else if n ≤ 18446744073709551615 then some (Json.nat n) else none

def basedInteger? (base : Nat) (isDigit : Char → Bool) (s : Text) : Option Json :=
  (digitsOf? isDigit s).bind fun d => integer? false (Text.readNat base d)

/-- The nearest number to `digits` times a power of ten; nothing beyond the finite range. -/
def scaled? (negative : Bool) (digits : Text) (exponent : Int) : Option Binary64 :=
  let n := Text.readNat 10 digits
  let magnitude := exponent + digits.length
  if n = 0 || magnitude < -400 then some (.zero negative)
  else if 400 < magnitude then none
  else if 0 ≤ exponent then Binary64.ofQuotient? negative (n * powerOfTen exponent.toNat) 1
  else Binary64.ofQuotient? negative n (powerOfTen (-exponent).toNat)

def exponent? (s : Text) : Option Int :=
  let (negative, digits) := match s with
    | '-' :: r => (true, r)
    | '+' :: r => (false, r)
    | _ => (false, s)
  (digitsOf? Text.isAsciiDigit digits).map fun d =>
    let n : Int := Text.readNat 10 d
    if negative then -n else n

/-- The text before the first character that satisfies `p`, and what follows that, if there is one.
-/
def cutAt (p : Char → Bool) (s : Text) : Text × Option Text :=
  match s.dropWhile fun c => !p c with
  | [] => (s, none)
  | _ :: r => (s.takeWhile fun c => !p c, some r)

def isExponentMark (c : Char) : Bool := c = 'e' || c = 'E'

/-- A number without its sign. -/
def unsigned? (negative : Bool) (s : Text) : Option Json :=
  let (mantissa, power) := cutAt isExponentMark s
  let (whole, fraction) := cutAt (· = '.') mantissa
  match decimalOf? whole, fraction, power with
  | none, _, _ => none
  | some d, none, none => integer? negative (Text.readNat 10 d)
  | some d, fraction, power => do
      let f ← match fraction with
        | none => some []
        | some f => digitsOf? Text.isAsciiDigit f
      let e ← match power with
        | none => some 0
        | some e => exponent? e
      let x ← scaled? negative (d ++ f) (e - f.length)
      return .number (.real x)

/-- A numeral. What is not a finite number is null. -/
def number? (s : Text) : Option Json :=
  match s with
  | '0' :: 'x' :: r => basedInteger? 16 Text.isHexDigit r
  | '0' :: 'o' :: r => basedInteger? 8 (fun c => '0' ≤ c && c ≤ '7') r
  | '0' :: 'b' :: r => basedInteger? 2 (fun c => c = '0' || c = '1') r
  | _ =>
      let (negative, r) := match s with
        | '-' :: r => (true, r)
        | '+' :: r => (false, r)
        | _ => (false, s)
      if r = "inf".toList || r = "nan".toList then some .null else unsigned? negative r

def twoDigits? (bound : Nat) (s : Text) : Option Nat :=
  let n := Text.readNat 10 s
  if s.length = 2 && s.all Text.isAsciiDigit && n < bound then some n else none

def isLeapYear (y : Nat) : Bool := y % 4 = 0 && (y % 100 ≠ 0 || y % 400 = 0)

def daysOfMonth (year month : Nat) : Nat :=
  if month = 2 then (if isLeapYear year then 29 else 28)
  else if [4, 6, 9, 11].contains month then 30
  else 31

def isDate (s : Text) : Bool :=
  match Text.split (· = '-') s with
  | [year, month, day] =>
      year.length = 4 && year.all Text.isAsciiDigit &&
        match twoDigits? 13 month, twoDigits? 32 day with
        | some m, some d =>
            1 ≤ m && 1 ≤ d && d ≤ daysOfMonth (Text.readNat 10 year) m
        | _, _ => false
  | _ => false

/-- A second, with a fraction or not; a minute may have sixty-one. -/
def isSecond (s : Text) : Bool :=
  let (whole, fraction) := cutAt (· = '.') s
  (twoDigits? 61 whole).isSome && fraction.all fun f => !f.isEmpty && f.all Text.isAsciiDigit

/-- A time of day; the seconds may be left out. -/
def isTime (s : Text) : Bool :=
  match Text.split (· = ':') s with
  | [hour, minute] => (twoDigits? 24 hour).isSome && (twoDigits? 60 minute).isSome
  | [hour, minute, second] =>
      (twoDigits? 24 hour).isSome && (twoDigits? 60 minute).isSome && isSecond second
  | _ => false

def isOffset (s : Text) : Bool :=
  match Text.split (· = ':') s with
  | [hour, minute] => (twoDigits? 24 hour).isSome && (twoDigits? 60 minute).isSome
  | _ => false

def isTimeWithOffset (s : Text) : Bool :=
  match s.reverse with
  | 'Z' :: r | 'z' :: r => isTime r.reverse
  | _ =>
      match cutAt (fun c => c = '+' || c = '-') s with
      | (time, some offset) => isTime time && isOffset offset
      | (time, none) => isTime time

def isTimeMark (c : Char) : Bool := c = 'T' || c = 't' || c = ' '

def isDateTime (s : Text) : Bool :=
  match cutAt isTimeMark s with
  | (date, some time) => isDate date && isTimeWithOffset time
  | (s, none) => isDate s || isTime s

def dateTimeKey : Text := "$__toml_private_datetime"

def dateTime? (s : Text) : Option Json :=
  if isDateTime s then some (.object [(dateTimeKey, .string s)]) else none

def isWordCharacter (c : Char) : Bool :=
  Text.isAsciiAlnum c || c = '_' || c = '-' || c = '+' || c = '.' || c = ':'

def timeFollows (s : Text) : Bool :=
  match s with
  | ' ' :: a :: b :: ':' :: _ => Text.isAsciiDigit a && Text.isAsciiDigit b
  | _ => false

/-- The text of a value that is neither a string nor made of others. -/
def readWord (s : Text) : Text × Text :=
  let word := s.takeWhile isWordCharacter
  let rest := s.dropWhile isWordCharacter
  if word.length = 10 && isDate word && timeFollows rest then
    let time := rest.drop 1
    (word ++ ' ' :: time.takeWhile isWordCharacter, time.dropWhile isWordCharacter)
  else (word, rest)

def word? (s : Text) : Option Json :=
  if s = "true".toList then some (.bool true)
  else if s = "false".toList then some (.bool false)
  else (number? s).or (dateTime? s)

end LivePage.Toml
