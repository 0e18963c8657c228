import LivePage.Text.Reference
import LivePage.Html.Token

/-!
Character references in HTML. In attributes an old name without semicolon counts only if no letter,
digit or equals sign follows, so that addresses with parameters keep their text.
-/

namespace LivePage.Html

/-- The code points from 128 on that numeric references take from an old encoding. -/
def legacyCodes : List Nat :=
  [0x20AC, 0x81, 0x201A, 0x192, 0x201E, 0x2026, 0x2020, 0x2021, 0x2C6, 0x2030, 0x160, 0x2039, 0x152,
   0x8D, 0x17D, 0x8F, 0x90, 0x2018, 0x2019, 0x201C, 0x201D, 0x2022, 0x2013, 0x2014, 0x2DC, 0x2122,
   0x161, 0x203A, 0x153, 0x9D, 0x17E, 0x178]

def characterOfCode (n : Nat) : Char :=
  if 128 ≤ n ∧ n < 160 then Char.ofNat (legacyCodes.getD (n - 128) n)
  else if n = 0 ∨ ¬ n.isValidChar then replacement
  else Char.ofNat n

/-- The characters a reference stands for, and its length without the ampersand. -/
abbrev Resolved := Text × Nat

def semicolonLength : Text → Nat
  | ';' :: _ => 1
  | _ => 0

def numericReference? (base : Nat) (isDigit : Char → Bool) (lead : Nat) (s : Text) :
    Option Resolved :=
  let digits := s.takeWhile isDigit
  if digits.isEmpty then none
  else
    let rest := s.dropWhile isDigit
    some ([characterOfCode (Text.readNat base digits)], lead + digits.length + semicolonLength rest)

/-- The longest old name without semicolon that `s` begins with, among those of at most `k`
characters. -/
def bareReference? (s : Text) : Nat → Option Resolved
  | 0 => none
  | k + 1 =>
      match Text.namedReference? (s.take (k + 1)) with
      | some r => if r.bare then some (r.characters, k + 1) else bareReference? s k
      | none => bareReference? s k

/-- The longest old name without semicolon has this many characters. -/
def longestBare : Nat := 6

def namedReference? (inAttribute : Bool) (s : Text) : Option Resolved :=
  let word := s.takeWhile Text.isAsciiAlnum
  let rest := s.dropWhile Text.isAsciiAlnum
  let complete :=
    if semicolonLength rest = 1 ∧ word.length ≤ Text.longestReference then Text.namedReference? word
    else none
  match complete with
  | some r => some (r.characters, word.length + 1)
  | none =>
      match bareReference? word (min word.length longestBare) with
      | none => none
      | some (characters, n) =>
          let next := (s.drop n).head?
          if inAttribute && next.any (fun c => c = '=' || Text.isAsciiAlnum c) then none
          else some (characters, n)

/-- The reference whose ampersand stands before `s`. -/
def reference? (inAttribute : Bool) (s : Text) : Option Resolved :=
  match s with
  | '#' :: 'x' :: digits | '#' :: 'X' :: digits => numericReference? 16 Text.isHexDigit 2 digits
  | '#' :: digits => numericReference? 10 Text.isAsciiDigit 1 digits
  | _ => namedReference? inAttribute s

/-- Resolves the references in a text; `skip` characters belong to the one resolved last. -/
def decodeFrom (inAttribute : Bool) : Nat → Text → Text
  | _, [] => []
  | skip + 1, _ :: s => decodeFrom inAttribute skip s
  | 0, c :: s =>
      if c = '&' then
        match reference? inAttribute s with
        | some (characters, n) => characters ++ decodeFrom inAttribute n s
        | none => '&' :: decodeFrom inAttribute 0 s
      else c :: decodeFrom inAttribute 0 s

def decodeText (s : Text) : Text := decodeFrom false 0 s

def decodeAttribute (s : Text) : Text := decodeFrom true 0 s

end LivePage.Html
