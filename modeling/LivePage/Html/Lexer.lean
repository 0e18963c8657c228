import LivePage.Html.Reference

/-!
Reading one token at a time. How the text at hand is read depends on the start tag before it: as
markup, or as text up to the end tag that belongs to it. In a script, text that looks like a comment
with another script in it hides end tags.
-/

namespace LivePage.Html

inductive TagState where
  | beforeName
  /-- The characters of a name or value are kept with the last one first. -/
  | inName (name : Text)
  | afterName (name : Text)
  | beforeValue (name : Text)
  | quoted (quote : Char) (name value : Text)
  | unquoted (name value : Text)
  | afterQuoted
  | afterSlash
  deriving Inhabited

/-- Adds an attribute; the first of one name counts. -/
def addAttribute (attributes : Attributes) (name value : Text) : Attributes :=
  let name := replaceNull (Text.lowerAscii name.reverse)
  if attributes.contains name then attributes
  else attributes ++ [⟨name, decodeAttribute (replaceNull value.reverse)⟩]

/-- Reads the attributes of a tag up to its end, and says whether a slash stands before the end. A
tag that the document breaks off is nothing. -/
def readAttributes : TagState → Attributes → Text → Option (Attributes × Bool × Text)
  | _, _, [] => none
  | .beforeName, found, c :: s =>
      if isBlank c then readAttributes .beforeName found s
      else if c = '>' then some (found, false, s)
      else if c = '/' then readAttributes .afterSlash found s
      else readAttributes (.inName [c]) found s
  | .inName name, found, c :: s =>
      if isBlank c then readAttributes (.afterName name) found s
      else if c = '>' then some (addAttribute found name [], false, s)
      else if c = '/' then readAttributes .afterSlash (addAttribute found name []) s
      else if c = '=' then readAttributes (.beforeValue name) found s
      else readAttributes (.inName (c :: name)) found s
  | .afterName name, found, c :: s =>
      if isBlank c then readAttributes (.afterName name) found s
      else if c = '>' then some (addAttribute found name [], false, s)
      else if c = '/' then readAttributes .afterSlash (addAttribute found name []) s
      else if c = '=' then readAttributes (.beforeValue name) found s
      else readAttributes (.inName [c]) (addAttribute found name []) s
  | .beforeValue name, found, c :: s =>
      if isBlank c then readAttributes (.beforeValue name) found s
      else if c = '>' then some (addAttribute found name [], false, s)
      else if c = '\x22' ∨ c = '\x27' then readAttributes (.quoted c name []) found s
      else readAttributes (.unquoted name [c]) found s
  | .quoted quote name value, found, c :: s =>
      if c = quote then readAttributes .afterQuoted (addAttribute found name value) s
      else readAttributes (.quoted quote name (c :: value)) found s
  | .unquoted name value, found, c :: s =>
      if isBlank c then readAttributes .beforeName (addAttribute found name value) s
      else if c = '>' then some (addAttribute found name value, false, s)
      else readAttributes (.unquoted name (c :: value)) found s
  | .afterQuoted, found, c :: s =>
      if isBlank c then readAttributes .beforeName found s
      else if c = '>' then some (found, false, s)
      else if c = '/' then readAttributes .afterSlash found s
      else readAttributes (.inName [c]) found s
  | .afterSlash, found, c :: s =>
      if isBlank c then readAttributes .beforeName found s
      else if c = '>' then some (found, true, s)
      else if c = '/' then readAttributes .afterSlash found s
      else readAttributes (.inName [c]) found s

def endsTagName (c : Char) : Bool := isBlank c || c = '/' || c = '>'

def readTag (s : Text) : Option (Tag × Text) :=
  let name := s.takeWhile fun c => !endsTagName c
  match readAttributes .beforeName [] (s.dropWhile fun c => !endsTagName c) with
  | some (attributes, selfClosing, rest) =>
      some (⟨replaceNull (Text.lowerAscii name), attributes, selfClosing⟩, rest)
  | none => none

/-- Drops what an unfinished end of a comment has left at the end of the document. -/
def dropPartialEnd (s : Text) : Text :=
  match ["--!".toList, "--".toList, "-".toList].find? fun tail => Text.endsWith s tail with
  | some tail => s.take (s.length - tail.length)
  | none => s

/-- The content of a comment up to its end, and what follows; `seen` is kept with the last character
first. -/
def commentBody (seen : Text) : Text → Text × Text
  | [] => (dropPartialEnd seen.reverse, [])
  | c :: s =>
      match Text.after? "-->" (c :: s), Text.after? "--!>" (c :: s) with
      | some rest, _ => (seen.reverse, rest)
      | _, some rest => (seen.reverse, rest)
      | none, none => commentBody (c :: seen) s

/-- A comment after its opening mark; it may end at once. -/
def readComment (s : Text) : Text × Text :=
  match s with
  | '>' :: rest => ([], rest)
  | '-' :: '>' :: rest => ([], rest)
  | _ => commentBody [] s

/-- The text up to the next closing angle bracket, and what follows that. -/
def upToBracket (s : Text) : Text × Text :=
  (s.takeWhile (· ≠ '>'), (s.dropWhile (· ≠ '>')).drop 1)

def startsWithFold (s lead : Text) : Bool := Text.lowerAscii (s.take lead.length) = lead

/-- What follows a quoted identifier; nothing if a quote is missing. -/
def afterIdentifier? (s : Text) : Option Text :=
  match s.dropWhile isBlank with
  | quote :: r =>
      if quote = '\x22' ∨ quote = '\x27' then (Text.splitFirst? quote r).map (·.2) else none
  | [] => none

/-- Whether the identifiers behind the name in a declaration are as they should be. -/
def identifiersHold (s : Text) : Bool :=
  if s.isEmpty then true
  else if startsWithFold s "public" then
    match afterIdentifier? (s.drop 6) with
    | none => false
    | some more => (more.dropWhile isBlank).isEmpty || (afterIdentifier? more).isSome
  else startsWithFold s "system" && (afterIdentifier? (s.drop 6)).isSome

/-- A document type declaration from the end of its keyword to its end. -/
def readDoctype (content : Text) (closed : Bool) : Doctype :=
  let s := content.dropWhile isBlank
  let name := replaceNull (Text.lowerAscii (s.takeWhile fun c => !isBlank c))
  let identifiers := (s.dropWhile fun c => !isBlank c).dropWhile isBlank
  ⟨name, name.isEmpty || !closed || !identifiersHold identifiers⟩

def bogusComment (s : Text) : Token × Text :=
  let (content, rest) := upToBracket s
  (.comment (replaceNull content), rest)

/-- The content of a section of plain characters up to its end, and what follows; `seen` is kept
with the last character first. -/
def sectionBody (seen : Text) : Text → Text × Text
  | [] => (seen.reverse, [])
  | c :: s =>
      match Text.after? "]]>" (c :: s) with
      | some rest => (seen.reverse, rest)
      | none => sectionBody (c :: seen) s

/-- Reads what stands after an exclamation mark that follows an angle bracket. -/
def readDeclaration (foreign : Bool) (s : Text) : Token × Text :=
  match Text.after? "--" s with
  | some r =>
      let (content, rest) := readComment r
      (.comment (replaceNull content), rest)
  | none =>
      if startsWithFold s "doctype" then
        let body := s.drop 7
        let (content, rest) := upToBracket body
        (.doctype (readDoctype content (content.length < body.length)), rest)
      else match foreign, Text.after? "[CDATA[" s with
        | true, some r =>
            let (content, rest) := sectionBody [] r
            (.text (replaceNull content), rest)
        | _, _ => bogusComment s

/-- Whether an end tag of that name begins behind an angle bracket at hand. -/
def beginsEndTag (name s : Text) : Bool :=
  match s with
  | '/' :: r => startsWithFold r name && (r.drop name.length).head?.any endsTagName
  | _ => false

/-- The text before the end tag of that name, and the rest from there. -/
def splitAtEndTag (name : Text) : Text → Text × Text
  | [] => ([], [])
  | c :: s =>
      if c = '<' && beginsEndTag name s then ([], c :: s)
      else
        let (before, rest) := splitAtEndTag name s
        (c :: before, rest)

inductive ScriptState where
  | plain
  /-- So many characters of the mark that opens a comment are still to be passed. -/
  | opening (left : Nat)
  /-- Inside a comment, with so many hyphens just before, counted up to two. -/
  | commented (hyphens : Nat)
  | nested (hyphens : Nat)
  deriving DecidableEq, Inhabited

/-- Whether the word `script` stands here and ends as a tag name does. -/
def beginsScript (s : Text) : Bool :=
  startsWithFold s "script" && (s.drop 6).head?.any endsTagName

/-- The state after a character, before `s`. -/
def ScriptState.next (state : ScriptState) (c : Char) (s : Text) : ScriptState :=
  match state with
  | plain => if c = '<' && Text.startsWith s "!--" then opening 3 else plain
  | opening (k + 2) => opening (k + 1)
  | opening _ => commented 2
  | commented hyphens =>
      if c = '-' then commented (min 2 (hyphens + 1))
      else if c = '>' && hyphens = 2 then plain
      else if c = '<' && beginsScript s then nested 0
      else commented 0
  | nested hyphens =>
      if c = '-' then nested (min 2 (hyphens + 1))
      else if c = '>' && hyphens = 2 then plain
      else if c = '<' && beginsEndTag "script" s then commented 0
      else nested 0

def ScriptState.canEnd : ScriptState → Bool
  | plain | commented _ => true
  | opening _ | nested _ => false

/-- The text of a script before the end tag that ends it, and the rest from there. -/
def splitScript : ScriptState → Text → Text × Text
  | _, [] => ([], [])
  | state, c :: s =>
      if c = '<' && state.canEnd && beginsEndTag "script" s then ([], c :: s)
      else
        let (before, rest) := splitScript (state.next c s) s
        (c :: before, rest)

/-- A token, if what was read is one, and the rest. -/
abbrev Lexed := Option Token × Text

def readEndTag (s : Text) : Lexed :=
  match readTag s with
  | some (tag, rest) => (some (.closeTag tag.name), rest)
  | none => (none, [])

def readMarkup (foreign : Bool) (s : Text) : Lexed :=
  match s with
  | '!' :: r =>
      let (token, rest) := readDeclaration foreign r
      (some token, rest)
  | '?' :: _ =>
      let (token, rest) := bogusComment s
      (some token, rest)
  | '/' :: '>' :: r => (none, r)
  | ['/'] => (some (.text ['<', '/']), [])
  | '/' :: c :: r =>
      if Text.isAsciiAlpha c then readEndTag (c :: r)
      else
        let (token, rest) := bogusComment (c :: r)
        (some token, rest)
  | c :: r =>
      if Text.isAsciiAlpha c then
        match readTag (c :: r) with
        | some (tag, rest) => (some (.openTag tag), rest)
        | none => (none, [])
      else (some (.text ['<']), s)
  | [] => (some (.text ['<']), [])

def textOrEndTag (change : Text → Text) (split : Text × Text) : Lexed :=
  match split with
  | ([], '<' :: '/' :: rest) => readEndTag rest
  | (before, rest) => (some (.text (change before)), rest)

def isTextCharacter (c : Char) : Bool := c ≠ '<' && c ≠ '\x00'

def nextToken (mode : Lexing) (foreign : Bool) (s : Text) : Lexed :=
  match mode, s with
  | .markup, '<' :: r => readMarkup foreign r
  | .markup, '\x00' :: r => (some .null, r)
  | .markup, _ =>
      (some (.text (decodeText (s.takeWhile isTextCharacter))), s.dropWhile isTextCharacter)
  | .escapable name, _ => textOrEndTag (decodeText ∘ replaceNull) (splitAtEndTag name s)
  | .raw name, _ => textOrEndTag replaceNull (splitAtEndTag name s)
  | .script, _ => textOrEndTag replaceNull (splitScript .plain s)
  | .plain, _ => (some (.text (replaceNull s)), [])

/-- The text as it is lexed: without a byte order mark in front, and with line feeds alone for line
breaks. -/
def unifyBreaks : Text → Text
  | [] => []
  | '\r' :: '\n' :: s => '\n' :: unifyBreaks s
  | '\r' :: s => '\n' :: unifyBreaks s
  | c :: s => c :: unifyBreaks s

def lexedText (s : Text) : Text :=
  match s with
  | '\ufeff' :: r => unifyBreaks r
  | _ => unifyBreaks s

end LivePage.Html
