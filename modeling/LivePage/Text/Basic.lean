/-!
Text is a list of characters. This module has the operations on it that the rest of the library
shares: classes of ASCII characters, trimming and splitting by a test, search and replacement of a
fixed piece, and numbers written in a base. Line breaks in a document may be written in four forms:
two escaped ones, which transports leave behind, and two with a carriage return. They are replaced
one after the other, the longer escaped form first, so that its second backslash is not left over.
-/

namespace LivePage

abbrev Text := List Char

instance : Coe String Text := ⟨String.toList⟩

namespace Text

def isAsciiDigit (c : Char) : Bool := '0' ≤ c && c ≤ '9'

def isAsciiUpper (c : Char) : Bool := 'A' ≤ c && c ≤ 'Z'

def isAsciiLower (c : Char) : Bool := 'a' ≤ c && c ≤ 'z'

def isAsciiAlpha (c : Char) : Bool := isAsciiLower c || isAsciiUpper c

def isAsciiAlnum (c : Char) : Bool := isAsciiAlpha c || isAsciiDigit c

def isHexDigit (c : Char) : Bool :=
  isAsciiDigit c || ('a' ≤ c && c ≤ 'f') || ('A' ≤ c && c ≤ 'F')

/-- The printable ASCII characters that are neither letters, digits nor the space. -/
def isAsciiPunctuation (c : Char) : Bool :=
  ('!' ≤ c && c ≤ '/') || (':' ≤ c && c ≤ '@') || ('[' ≤ c && c ≤ '\x60') ||
    ('\x7b' ≤ c && c ≤ '~')

def isAsciiBlank (c : Char) : Bool :=
  c = ' ' || c = '\t' || c = '\n' || c = '\x0c' || c = '\r'

def isSpaceOrTab (c : Char) : Bool := c = ' ' || c = '\t'

def isLineEnd (c : Char) : Bool := c = '\n' || c = '\r'

/-- The value of a digit in base sixteen, zero for any other character. -/
def hexValue (c : Char) : Nat :=
  if isAsciiDigit c then c.toNat - 48
  else if 'a' ≤ c && c ≤ 'f' then c.toNat - 87
  else if 'A' ≤ c && c ≤ 'F' then c.toNat - 55
  else 0

def lowerAsciiChar (c : Char) : Char :=
  if isAsciiUpper c then Char.ofNat (c.toNat + 32) else c

def lowerAscii (s : Text) : Text := s.map lowerAsciiChar

def readNat (base : Nat) (digits : Text) : Nat :=
  digits.foldl (fun n c => n * base + hexValue c) 0

def ofNat (n : Nat) : Text := Nat.toDigits 10 n

def ofInt : Int → Text
  | .ofNat n => ofNat n
  | .negSucc n => '-' :: ofNat (n + 1)

def hexOfNat (n : Nat) : Text := Nat.toDigits 16 n

/-- The digits of `n` in base ten, with zeros in front up to `width` places. -/
def padLeft (width : Nat) (pad : Char) (s : Text) : Text :=
  List.replicate (width - s.length) pad ++ s

def trimStart (p : Char → Bool) (s : Text) : Text := s.dropWhile p

def trimEnd (p : Char → Bool) (s : Text) : Text := (s.reverse.dropWhile p).reverse

def trim (p : Char → Bool) (s : Text) : Text := trimEnd p (trimStart p s)

/-- What follows `lead` in `s`, if `s` begins with it. -/
def after? : Text → Text → Option Text
  | [], s => some s
  | c :: lead, d :: s => if c = d then after? lead s else none
  | _ :: _, [] => none

def startsWith (s lead : Text) : Bool := lead.isPrefixOf s

def endsWith (s tail : Text) : Bool := tail.isSuffixOf s

/-- Whether `piece` occurs in the text. -/
def contains (piece : Text) : Text → Bool
  | [] => piece.isEmpty
  | c :: s => piece.isPrefixOf (c :: s) || contains piece s

/-- Replaces the occurrences of `piece` found from left to right; `skip` characters of the one found
last are still to be dropped. -/
def replaceFrom (piece by' : Text) : Nat → Text → Text
  | _, [] => []
  | skip + 1, _ :: s => replaceFrom piece by' skip s
  | 0, c :: s =>
      if piece.isPrefixOf (c :: s) then by' ++ replaceFrom piece by' (piece.length - 1) s
      else c :: replaceFrom piece by' 0 s

/-- Replaces every occurrence of a nonempty `piece`, left to right and without overlap. -/
def replace (piece by' s : Text) : Text := replaceFrom piece by' 0 s

def lineBreakForms : List Text := ["\\\\n", "\\n", "\r\n", "\r"]

def normalizeBreaks (s : Text) : Text :=
  lineBreakForms.foldl (fun t form => replace form ['\n'] t) s

/-- The parts of a text between the characters that satisfy `p`; a text without any is one part. -/
def split (p : Char → Bool) : Text → List Text
  | [] => [[]]
  | c :: s =>
      if p c then [] :: split p s
      else match split p s with
        | [] => [[c]]
        | part :: parts => (c :: part) :: parts

/-- The text before and after the first `c`. -/
def splitFirst? (c : Char) : Text → Option (Text × Text)
  | [] => none
  | d :: s => if d = c then some ([], s) else (splitFirst? c s).map fun r => (d :: r.1, r.2)

/-- The first nonempty part between characters that satisfy `p`. -/
def firstWord (p : Char → Bool) (s : Text) : Text :=
  (s.dropWhile p).takeWhile fun c => !p c

def join (sep : Text) : List Text → Text
  | [] => []
  | [s] => s
  | s :: rest => s ++ sep ++ join sep rest

def byteLength (s : Text) : Nat := s.foldl (fun n c => n + c.utf8Size) 0

def lt : Text → Text → Bool
  | _, [] => false
  | [], _ :: _ => true
  | c :: s, d :: t => c < d || (c = d && lt s t)

end Text
end LivePage
