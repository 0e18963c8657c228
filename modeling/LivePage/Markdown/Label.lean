import LivePage.Markdown.Node
import LivePage.Text.Case
import LivePage.Text.Reference

/-!
Character references and backslash escapes in Markdown, the texts of addresses and titles with both
resolved, and labels. A label is compared without regard to case and to the kind and number of
blanks inside it. Link reference definitions are kept under their labels, and the first one counts.
-/

namespace LivePage.Markdown

def isSpace (c : Char) : Bool :=
  c = ' ' || c = '\t' || c = '\n' || c = '\x0b' || c = '\x0c' || c = '\r'

/-- The character with a number; the replacement character if there is none. -/
def numericCharacter (n : Nat) : Char :=
  if n = 0 || (0xd800 ≤ n && n ≤ 0xe000) || 0x110000 ≤ n then '\ufffd' else Char.ofNat n

def numericReference? (s : Text) : Option (Text × Text) :=
  match s with
  | 'x' :: r | 'X' :: r =>
      let digits := r.takeWhile Text.isHexDigit
      match r.dropWhile Text.isHexDigit with
      | ';' :: rest =>
          if 1 ≤ digits.length && digits.length ≤ 6 then
            some ([numericCharacter (Text.readNat 16 digits)], rest)
          else none
      | _ => none
  | _ =>
      let digits := s.takeWhile Text.isAsciiDigit
      match s.dropWhile Text.isAsciiDigit with
      | ';' :: rest =>
          if 1 ≤ digits.length && digits.length ≤ 7 then
            some ([numericCharacter (Text.readNat 10 digits)], rest)
          else none
      | _ => none

/-- A reference after its ampersand: the characters it stands for, and what follows it. -/
def reference? (s : Text) : Option (Text × Text) :=
  match s with
  | '#' :: r => numericReference? r
  | _ =>
      let name := (s.take 32).takeWhile fun c => c ≠ ';' && c ≠ ' '
      match s.drop name.length with
      | ';' :: rest =>
          if 2 ≤ name.length && name.length < 32 then
            (Text.namedReference? name).map fun r => (r.characters, rest)
          else none
      | _ => none

/-- Resolves references from left to right; `skip` characters of the one found last are still to be
dropped. -/
def resolveFrom : Nat → Text → Text
  | _, [] => []
  | skip + 1, _ :: s => resolveFrom skip s
  | 0, c :: s =>
      if c = '&' then
        match reference? s with
        | some (characters, rest) => characters ++ resolveFrom (s.length - rest.length) s
        | none => c :: resolveFrom 0 s
      else c :: resolveFrom 0 s

def resolveReferences (s : Text) : Text := resolveFrom 0 s

def dropEscapes : Text → Text
  | [] => []
  | '\\' :: c :: s =>
      if Text.isAsciiPunctuation c then c :: dropEscapes s else '\\' :: dropEscapes (c :: s)
  | c :: s => c :: dropEscapes s

def cleanUrl (url : Text) : Text := dropEscapes (resolveReferences (Text.trim isSpace url))

def cleanTitle (title : Text) : Text :=
  let inner := match title.head?, title.getLast? with
    | some a, some b =>
        if (a = '\x27' && b = '\x27') || (a = '(' && b = ')') || (a = '\x22' && b = '\x22') then
          (title.drop 1).dropLast
        else title
    | _, _ => title
  dropEscapes (resolveReferences inner)

/-- Runs of blanks become one space; `blank` tells whether the last character was one. -/
def squeezeBlanks : Bool → Text → Text
  | _, [] => []
  | blank, c :: s =>
      if Text.isBlank c then
        if blank then squeezeBlanks true s else ' ' :: squeezeBlanks true s
      else c :: squeezeBlanks false s

def tidyLabel (label : Text) : Text := squeezeBlanks false (Text.trim isSpace label)

def foldLabel (label : Text) : Text := Text.foldCase (tidyLabel label)

/-- Definitions of references under their folded labels, the first ones in front. -/
abbrev References := List (Text × Target)

def References.find? (refs : References) (label : Text) : Option Target :=
  refs.lookup (foldLabel label)

/-- Adds a definition, unless the label is empty or has one. -/
def References.define (refs : References) (label : Text) (target : Target) : References :=
  let key := foldLabel label
  if key.isEmpty || (refs.lookup key).isSome then refs else refs ++ [(key, target)]

end LivePage.Markdown
