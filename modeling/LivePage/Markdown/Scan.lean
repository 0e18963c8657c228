import LivePage.Markdown.Label

/-!
Recognisers for the small forms of Markdown: addresses, titles and labels of links, HTML tags, and
the lines that begin or end blocks. Each takes the text from the first character of the form on; a
line is given without its line feed.
-/

namespace LivePage.Markdown

def dropSpaces (s : Text) : Text := s.dropWhile isSpace

def dropTabs (s : Text) : Text := s.dropWhile Text.isSpaceOrTab

def angleAddress? : Text → Text → Option (Text × Text)
  | _, [] => none
  | seen, c :: s =>
      if c = '>' then some (seen.reverse, s)
      else if c = '\n' || c = '\r' || c = '<' then none
      else if c = '\\' then
        match s with
        | [] => none
        | d :: s => angleAddress? (d :: c :: seen) s
      else angleAddress? (c :: seen) s

/-- A bare address, with `depth` parentheses open. -/
def bareAddress? : Nat → Text → Text → Option (Text × Text)
  | _, _, [] => none
  | depth, seen, '\\' :: c :: s =>
      if Text.isAsciiPunctuation c then bareAddress? depth (c :: '\\' :: seen) s
      else bareAddress? depth ('\\' :: seen) (c :: s)
  | depth, seen, c :: s =>
      if c = '(' then if depth = 32 then none else bareAddress? (depth + 1) (c :: seen) s
      else if c = ')' then
        if depth = 0 then some (seen.reverse, c :: s) else bareAddress? (depth - 1) (c :: seen) s
      else if isSpace c || c.toNat < 32 || c.toNat = 127 then
        if seen.isEmpty || depth ≠ 0 then none else some (seen.reverse, c :: s)
      else bareAddress? depth (c :: seen) s

def address? (s : Text) : Option (Text × Text) :=
  match s with
  | '<' :: r =>
      match angleAddress? [] r with
      | some (_, []) => none
      | found => found
  | _ => bareAddress? 0 [] s

/-- The end of a title that `close` ends. A closing mark after a backslash may belong to the title,
if it ends further on; `best` is the end found so far. -/
def titleEnd (opener : Option Char) (close : Char) : Option Text → Bool → Text → Option Text
  | best, _, [] => best
  | best, escaped, c :: s =>
      if c = close then if escaped then titleEnd opener close (some s) false s else some s
      else if opener = some c && !escaped then best
      else titleEnd opener close best (c = '\\') s

/-- A title with its quotes or parentheses, and what follows it. -/
def title? (s : Text) : Option (Text × Text) :=
  let found := match s with
    | '\x22' :: r => titleEnd none '\x22' none false r
    | '\x27' :: r => titleEnd none '\x27' none false r
    | '(' :: r => titleEnd (some '(') ')' none false r
    | _ => none
  found.map fun rest => (s.take (s.length - rest.length), rest)

/-- The text of a label up to its closing bracket, with at most `room` bytes. -/
def labelText? : Int → Bool → Text → Text → Option (Text × Text)
  | _, _, _, [] => none
  | room, escaped, seen, c :: s =>
      if room < 0 then none
      else if escaped && Text.isAsciiPunctuation c then
        labelText? (room - 1) false (c :: seen) s
      else if c = ']' then some (seen.reverse, s)
      else if c = '[' then none
      else labelText? (room - c.utf8Size) (c = '\\') (c :: seen) s

def label? (s : Text) : Option (Text × Text) :=
  match s with
  | '[' :: r => (labelText? 1000 false [] r).map fun p => (Text.trim isSpace p.1, p.2)
  | _ => none

/-- Spaces and tabs, with at most one line end among them. -/
def dropBreak (s : Text) : Text :=
  match dropTabs s with
  | '\n' :: r => dropTabs r
  | r => r

/-- What follows the end of a line; the end of the text is one. -/
def afterLine? (s : Text) : Option Text :=
  match s with
  | [] => some []
  | '\n' :: r => some r
  | _ => none

/-- A link reference definition at the start of a text: its label, its target, and what follows. A
title that is not the last on its line does not count. -/
def definition? (s : Text) : Option (Text × Target × Text) := do
  let (label, s) ← label? s
  if label.isEmpty then none
  else
    let s ← Text.after? ":" s
    let (url, afterUrl) ← address? (dropBreak s)
    let beforeTitle := dropBreak afterUrl
    let titled := do
      let (title, rest) ← if beforeTitle.length = afterUrl.length then none else title? beforeTitle
      let rest ← afterLine? (dropTabs rest)
      return (title, rest)
    match titled with
    | some (title, rest) => some (label, ⟨cleanUrl url, cleanTitle title⟩, rest)
    | none => do
        let rest ← afterLine? (dropTabs afterUrl)
        return (label, ⟨cleanUrl url, []⟩, rest)

def isNameChar (c : Char) : Bool := Text.isAsciiAlnum c || c = '-'

def afterTagName? (s : Text) : Option Text :=
  match s with
  | c :: r => if Text.isAsciiAlpha c then some (r.dropWhile isNameChar) else none
  | [] => none

def isAttributeStart (c : Char) : Bool := Text.isAsciiAlpha c || c = '_' || c = ':'

def isAttributeChar (c : Char) : Bool :=
  Text.isAsciiAlnum c || c = '_' || c = ':' || c = '.' || c = '-'

def isUnquotedChar (c : Char) : Bool :=
  !isSpace c && c ≠ '\x22' && c ≠ '\x27' && c ≠ '=' && c ≠ '<' && c ≠ '>' && c ≠ '\x60'

def afterAttributeValue? (s : Text) : Option Text :=
  match s with
  | '\x22' :: r => (Text.splitFirst? '\x22' r).map Prod.snd
  | '\x27' :: r => (Text.splitFirst? '\x27' r).map Prod.snd
  | c :: r => if isUnquotedChar c then some (r.dropWhile isUnquotedChar) else none
  | [] => none

def afterAttribute? (s : Text) : Option Text :=
  let r := dropSpaces s
  if r.length = s.length then none
  else match r with
    | c :: r =>
        if isAttributeStart c then
          let r := r.dropWhile isAttributeChar
          match dropSpaces r with
          | '=' :: v =>
              match afterAttributeValue? (dropSpaces v) with
              | some rest => some rest
              | none => some r
          | _ => some r
        else none
    | [] => none

def afterAttributes : Nat → Text → Text
  | 0, s => s
  | fuel + 1, s =>
      match afterAttribute? s with
      | some rest => afterAttributes fuel rest
      | none => s

def afterOpenTag? (s : Text) : Option Text := do
  let s ← afterTagName? s
  match dropSpaces (afterAttributes s.length s) with
  | '/' :: '>' :: rest => some rest
  | '>' :: rest => some rest
  | _ => none

/-- What follows a closing tag, after its angle bracket and slash. -/
def afterCloseTag? (s : Text) : Option Text := do
  let s ← afterTagName? s
  Text.after? ">" (dropSpaces s)

def afterTag? (s : Text) : Option Text :=
  match s with
  | '/' :: r => afterCloseTag? r
  | _ => afterOpenTag? s

def afterPiece? (piece : Text) : Text → Option Text
  | [] => if piece.isEmpty then some [] else none
  | c :: s =>
      match Text.after? piece (c :: s) with
      | some rest => some rest
      | none => afterPiece? piece s

/-- What follows a piece of inline HTML, after its angle bracket. -/
def afterInlineHtml? (s : Text) : Option Text :=
  match s with
  | '!' :: '-' :: '-' :: '>' :: rest => some rest
  | '!' :: '-' :: '-' :: '-' :: '>' :: rest => some rest
  | '!' :: '-' :: '-' :: r => afterPiece? "-->" r
  | '!' :: '[' :: r => do
      let r ← Text.after? "CDATA[" r
      afterPiece? "]]>" r
  | '!' :: c :: r => if Text.isAsciiAlpha c then (Text.splitFirst? '>' r).map Prod.snd else none
  | '?' :: r => afterPiece? "?>" r
  | _ => afterTag? s

def isSchemeChar (c : Char) : Bool :=
  Text.isAsciiAlnum c || c = '.' || c = '+' || c = '-'

/-- An absolute address: its text and what follows the closing bracket. -/
def angleUri? (s : Text) : Option (Text × Text) :=
  match s with
  | c :: r =>
      let scheme := r.takeWhile isSchemeChar
      if Text.isAsciiAlpha c && 1 ≤ scheme.length && scheme.length ≤ 31 then
        match r.drop scheme.length with
        | ':' :: r =>
            let isBody (c : Char) : Bool := 32 < c.toNat && c ≠ '<' && c ≠ '>'
            match r.dropWhile isBody with
            | '>' :: rest => some (s.take (s.length - rest.length - 1), rest)
            | _ => none
        | _ => none
      else none
  | [] => none

def isMailChar (c : Char) : Bool :=
  Text.isAsciiAlnum c || ".!#$%&'*+/=?^_\x60\x7b|\x7d~-".toList.contains c

/-- One part of a host name: letters, digits and inner hyphens, at most 63. -/
def isHostPart (part : Text) : Bool :=
  !part.isEmpty && part.length ≤ 63 && part.head? ≠ some '-' && part.getLast? ≠ some '-'

def angleMail? (s : Text) : Option (Text × Text) :=
  let name := s.takeWhile isMailChar
  match s.drop name.length with
  | '@' :: r =>
      let host := r.takeWhile fun c => isNameChar c || c = '.'
      match r.drop host.length with
      | '>' :: rest =>
          if !name.isEmpty && (Text.split (fun c => c = '.') host).all isHostPart then
            some (s.take (s.length - rest.length - 1), rest)
          else none
      | _ => none
  | _ => none

def isBlankLine (s : Text) : Bool := s.all Text.isSpaceOrTab

def isThematicBreak (s : Text) : Bool :=
  match s with
  | c :: _ =>
      (c = '*' || c = '_' || c = '-') && s.all (fun d => d = c || Text.isSpaceOrTab d) &&
        3 ≤ s.count c
  | [] => false

/-- The level of a heading that begins with number signs, and what follows them and the blanks
behind them. -/
def atxHeading? (s : Text) : Option (Nat × Text) :=
  let level := (s.takeWhile fun c => c = '#').length
  let rest := s.drop level
  if 1 ≤ level && level ≤ 6 then
    match rest with
    | [] => some (level, [])
    | c :: _ => if Text.isSpaceOrTab c then some (level, dropTabs rest) else none
  else none

/-- The level of the heading that a line of underlining makes of the paragraph above it. -/
def setextLevel? (s : Text) : Option Nat :=
  let underlined (c : Char) : Bool :=
    s.head? = some c && isBlankLine (s.dropWhile fun d => d = c)
  if underlined '=' then some 1 else if underlined '-' then some 2 else none

def openFence? (s : Text) : Option Nat :=
  match s with
  | c :: _ =>
      let length := (s.takeWhile fun d => d = c).length
      if c = '\x60' && 3 ≤ length && !(s.drop length).contains '\x60' then some length
      else if c = '~' && 3 ≤ length then some length
      else none
  | [] => none

/-- Whether a line closes a fence of at least `length` marks. -/
def closesFence (mark : Char) (length : Nat) (s : Text) : Bool :=
  let found := (s.takeWhile fun d => d = mark).length
  length ≤ found && 3 ≤ found && isBlankLine (s.drop found)

/-- Elements whose tags begin a block of HTML that lasts to the next blank line. -/
def htmlBlockNames : List Text :=
  List.map String.toList ["address", "article", "aside", "base", "basefont", "blockquote", "body", "caption", "center",
   "col", "colgroup", "dd", "details", "dialog", "dir", "div", "dl", "dt", "fieldset", "figcaption",
   "figure", "footer", "form", "frame", "frameset", "h1", "h2", "h3", "h4", "h5", "h6", "head",
   "header", "hr", "html", "iframe", "legend", "li", "link", "main", "menu", "menuitem", "nav",
   "noframes", "ol", "optgroup", "option", "p", "param", "search", "section", "summary", "table",
   "tbody", "td", "tfoot", "th", "thead", "title", "tr", "track", "ul"]

def verbatimNames : List Text := ["script", "pre", "textarea", "style"]

/-- The kind of HTML block that a line begins, of those that may interrupt a paragraph: verbatim
elements, comments, instructions, declarations, character data, and elements of the list. -/
def htmlBlockStart? (s : Text) : Option Nat :=
  match s with
  | '<' :: r =>
      let isVerbatim :=
        let name := Text.lowerAscii (r.takeWhile isNameChar)
        verbatimNames.contains name &&
          match r.drop name.length with
          | [] => true
          | c :: _ => isSpace c || c = '>'
      let isListed :=
        let r := match r with
          | '/' :: r => r
          | r => r
        let name := Text.lowerAscii (r.takeWhile isNameChar)
        htmlBlockNames.contains name &&
          match r.drop name.length with
          | [] => true
          | '/' :: '>' :: _ => true
          | c :: _ => isSpace c || c = '>'
      if isVerbatim then some 1
      else if Text.startsWith r "!--" then some 2
      else if Text.startsWith r "?" then some 3
      else if Text.startsWith r "![CDATA[" then some 5
      else if Text.startsWith r "!" && (r.drop 1).head?.any Text.isAsciiAlpha then some 4
      else if isListed then some 6
      else none
  | _ => none

/-- A line that is one tag begins a block of HTML, but does not interrupt a paragraph. -/
def isLoneTag (s : Text) : Bool :=
  match s with
  | '<' :: r =>
      match afterTag? r with
      | some rest => rest.all isSpace
      | none => false
  | _ => false

def endsHtmlBlock (kind : Nat) (s : Text) : Bool :=
  let low := Text.lowerAscii s
  match kind with
  | 1 => Text.contains "</script>" low || Text.contains "</pre>" low ||
      Text.contains "</textarea>" low || Text.contains "</style>" low
  | 2 => Text.contains "-->" s
  | 3 => Text.contains "?>" s
  | 4 => Text.contains ">" s
  | 5 => Text.contains "]]>" s
  | _ => false

/-- How an item of a list is marked: by a bullet, or by a number and a delimiter. -/
structure ListMarker where
  ordered : Bool
  mark : Char
  start : Nat
  deriving DecidableEq, Inhabited

/-- The marker of a list item, and its length. What interrupts a paragraph is not empty, and its
numbers begin at one. -/
def listMarker? (interrupts : Bool) (s : Text) : Option (ListMarker × Nat) :=
  let ends (rest : Text) : Bool := match rest with
    | [] => true
    | c :: _ => isSpace c
  match s with
  | [] => none
  | c :: r =>
      if c = '*' || c = '-' || c = '+' then
        if !ends r || (interrupts && isBlankLine r) then none else some (⟨false, c, 0⟩, 1)
      else
        let digits := s.takeWhile Text.isAsciiDigit
        if digits.isEmpty || 9 < digits.length then none
        else match s.drop digits.length with
          | d :: r =>
              let start := Text.readNat 10 digits
              if (d ≠ '.' && d ≠ ')') || !ends r then none
              else if interrupts && (start ≠ 1 || isBlankLine r) then none
              else some (⟨true, d, start⟩, digits.length + 1)
          | [] => none

/-- The name of the footnote that a line begins to define, and what follows. -/
def footnoteStart? (s : Text) : Option (Text × Text) :=
  match s with
  | '[' :: '^' :: r =>
      let isPart (c : Char) : Bool := c ≠ ']' && c ≠ ' ' && c ≠ '\t' && c ≠ '\n' && c ≠ '\r'
      let name := r.takeWhile isPart
      match r.drop name.length with
      | ']' :: ':' :: rest => if name.isEmpty then none else some (name, dropTabs rest)
      | _ => none
  | _ => none

end LivePage.Markdown
