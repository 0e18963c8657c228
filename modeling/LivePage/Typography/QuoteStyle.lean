import LivePage.Text.Quoted

/-!
A quote style names the four characters that open and close a double and a single quotation. The
curly quotes that smart punctuation produces are mapped to the characters of a style.
-/

namespace LivePage

structure QuoteStyle where
  doubleOpen : Char
  doubleClose : Char
  singleOpen : Char
  singleClose : Char
  deriving DecidableEq, Inhabited

namespace QuoteStyle

def straight : QuoteStyle := ⟨'\x22', '\x22', '\x27', '\x27'⟩

def curly : QuoteStyle := ⟨'“', '”', '‘', '’'⟩

/-- The character of the style in the place of a curly quote; others stay. -/
def map (style : QuoteStyle) (c : Char) : Char :=
  if c = '“' then style.doubleOpen
  else if c = '”' then style.doubleClose
  else if c = '‘' then style.singleOpen
  else if c = '’' then style.singleClose
  else c

def toText (style : QuoteStyle) : Text :=
  [style.doubleOpen, style.doubleClose, style.singleOpen, style.singleClose]

def ofText? : Text → Option QuoteStyle
  | [a, b, c, d] => some ⟨a, b, c, d⟩
  | _ => none

def invalidMessage (s : Text) : Text :=
  "quote style must be four characters (double pair, single pair), got ".toList ++ Text.quoted s

end QuoteStyle

def isCurlyQuote (c : Char) : Bool := c = '“' || c = '”' || c = '‘' || c = '’'

def isQuote (c : Char) : Bool := c = '\x22' || c = '\x27' || isCurlyQuote c

end LivePage
