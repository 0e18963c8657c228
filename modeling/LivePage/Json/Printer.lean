import LivePage.Json.Basic

/-!
JSON written as text, compact or indented by two spaces. Integers are written in decimal. Any other
number has the shortest digits that read back, with a point or an exponent always present:
positional from `1e-5` up to `1e16`, with an exponent and its sign outside.
-/

namespace LivePage.Json

def escapeChar (c : Char) : Text :=
  if c = '\x22' then "\\\""
  else if c = '\\' then "\\\\"
  else if c = '\x08' then "\\b"
  else if c = '\x0c' then "\\f"
  else if c = '\n' then "\\n"
  else if c = '\r' then "\\r"
  else if c = '\t' then "\\t"
  else if c.toNat < 32 then "\\u".toList ++ Text.padLeft 4 '0' (Text.hexOfNat c.toNat)
  else [c]

def quote (s : Text) : Text := ['\x22'] ++ s.flatMap escapeChar ++ ['\x22']

def exponentText (e : Int) : Text :=
  if 0 ≤ e then "e+".toList ++ Text.ofNat e.toNat else "e-".toList ++ Text.ofNat (-e).toNat

/-- The text of `digits * 10 ^ exponent`. -/
def decimalText (d : Decimal) : Text :=
  let digits := Text.ofNat d.digits
  let point : Int := digits.length + d.exponent
  if 0 ≤ d.exponent && point ≤ 16 then
    digits ++ List.replicate d.exponent.toNat '0' ++ ".0".toList
  else if 0 < point && point ≤ 16 then
    digits.take point.toNat ++ ['.'] ++ digits.drop point.toNat
  else if -5 < point && point ≤ 0 then
    "0.".toList ++ List.replicate (-point).toNat '0' ++ digits
  else match digits with
    | [] => []
    | [c] => c :: exponentText (point - 1)
    | c :: rest => c :: '.' :: rest ++ exponentText (point - 1)

def realText (x : Binary64) : Text :=
  (if x.negative then ['-'] else []) ++ decimalText x.shortest

def numberText : JsonNumber → Text
  | .int n => Text.ofInt n
  | .real x => realText x

mutual

def print : Json → Text
  | .null => "null"
  | .bool true => "true"
  | .bool false => "false"
  | .number n => numberText n
  | .string s => quote s
  | .array items => ['['] ++ printItems items ++ [']']
  | .object fields => ['\x7b'] ++ printFields fields ++ ['\x7d']

def printItems : List Json → Text
  | [] => []
  | [v] => print v
  | v :: w :: rest => print v ++ [','] ++ printItems (w :: rest)

def printFields : List (Text × Json) → Text
  | [] => []
  | [(k, v)] => quote k ++ [':'] ++ print v
  | (k, v) :: f :: rest => quote k ++ [':'] ++ print v ++ [','] ++ printFields (f :: rest)

end

def indentation (level : Nat) : Text := '\n' :: List.replicate (2 * level) ' '

mutual

/-- One item or field a line, two spaces for each level; what is empty stays on its line. -/
def printIndented (level : Nat) : Json → Text
  | .array [] => "[]"
  | .array (v :: rest) =>
      ['['] ++ printIndentedItems (level + 1) (v :: rest) ++ indentation level ++ [']']
  | .object [] => ['\x7b', '\x7d']
  | .object (f :: rest) =>
      ['\x7b'] ++ printIndentedFields (level + 1) (f :: rest) ++ indentation level ++ ['\x7d']
  | .null => "null"
  | .bool b => if b then "true" else "false"
  | .number n => numberText n
  | .string s => quote s

def printIndentedItems (level : Nat) : List Json → Text
  | [] => []
  | [v] => indentation level ++ printIndented level v
  | v :: w :: rest =>
      indentation level ++ printIndented level v ++ [','] ++ printIndentedItems level (w :: rest)

def printIndentedFields (level : Nat) : List (Text × Json) → Text
  | [] => []
  | [(k, v)] => indentation level ++ quote k ++ ": ".toList ++ printIndented level v
  | (k, v) :: f :: rest =>
      indentation level ++ quote k ++ ": ".toList ++ printIndented level v ++ [','] ++
        printIndentedFields level (f :: rest)

end

end LivePage.Json
