import LivePage.Markdown.Autolink
import LivePage.Markdown.Block
import LivePage.Markdown.Run

/-!
Inlines of a block, read from its content. The reader keeps the text ahead and the text behind it,
the pieces read so far, and where in the source it is: a column is a place in the content, moved by
the bytes in front of the line and by where in the content the line began.
-/

namespace LivePage.Markdown

structure InlineOptions where
  smart : Bool
  autolinks : Bool
  footnotes : Bool
  emphasis : EmphasisOptions
  deriving DecidableEq, Inhabited

/-- What the inlines of a block are read with. -/
structure InlineSource where
  options : InlineOptions
  references : References
  content : Content

structure InlineState where
  rest : Text
  before : Text
  position : Nat
  line : Nat
  columnShift : Int
  pieces : List Piece
  /-- Whether a bracket was opened and none was closed since. -/
  inBrackets : Bool
  /-- Whether brackets opened so far can no longer make links. -/
  linkInside : Bool
  deriving Inhabited

namespace InlineState

/-- Moves over `n` characters. -/
def advance : Nat → InlineState → InlineState
  | 0, st => st
  | n + 1, st =>
      match st.rest with
      | [] => st
      | c :: s =>
          advance n { st with
            rest := s, before := c :: st.before, position := st.position + c.utf8Size }

/-- Moves to where `rest`, an end of the text, begins. -/
def advanceTo (rest : Text) (st : InlineState) : InlineState :=
  st.advance (st.rest.length - rest.length)

def push (st : InlineState) (piece : Piece) : InlineState :=
  { st with pieces := piece :: st.pieces }

/-- The span from one place of the content to another, both included. -/
def span (source : InlineSource) (st : InlineState) (first last : Nat) : Span :=
  let shift := st.columnShift + (source.content.offsets.getD st.line 0 : Nat)
  let column (position : Nat) : Nat := (position + 1 + shift).toNat
  let line := source.content.line + st.line
  ⟨⟨line, column first⟩, ⟨line, column last⟩⟩

def spanSince (source : InlineSource) (start st : InlineState) : Span :=
  start.span source start.position (st.position - 1)

/-- Adds the text read since an earlier state, in another form. -/
def pushText (source : InlineSource) (st start : InlineState) (s : Text) : InlineState :=
  st.push (.node (textNode s (spanSince source start st)))

def pushNode (st : InlineState) (v : Value) (span : Span) (children : List Node) : InlineState :=
  st.push (.node (.mk v span children))

/-- Counts the lines that ended in the text read since an earlier state. -/
def countLines (st start : InlineState) : InlineState :=
  let read := (st.before.take (st.before.length - start.before.length))
  let ended := read.count '\n'
  if ended = 0 then st
  else
    let since := Text.byteLength (read.takeWhile fun c => c ≠ '\n')
    { st with line := st.line + ended, columnShift := (since : Int) - st.position }

def dropBlanks (st : InlineState) : InlineState := st.advanceTo (dropTabs st.rest)

end InlineState

open InlineState

/-- A break between lines, which is behind; two spaces in front of it make it hard. -/
def readBreak (st : InlineState) : InlineState :=
  let hard := match st.before with
    | ' ' :: ' ' :: _ => true
    | _ => false
  let st := (st.advance 1).pushNode (if hard then .lineBreak else .softBreak) default []
  { st with line := st.line + 1, columnShift := -(st.position : Int) }.dropBlanks

/-- What follows the next run of exactly `n` backticks. -/
def afterTicks? (n : Nat) : Nat → Text → Option Text
  | 0, _ => none
  | fuel + 1, s =>
      let s := s.dropWhile fun c => c ≠ '\x60'
      let run := (s.takeWhile fun c => c = '\x60').length
      if run = 0 then none
      else if run = n then some (s.drop run)
      else afterTicks? n fuel (s.drop run)

/-- The content of a code span: line ends are spaces, and one space at both ends does not count. -/
def tidyCode (s : Text) : Text :=
  let s := s.map fun c => if c = '\n' then ' ' else c
  if s.head? = some ' ' && s.getLast? = some ' ' && s.any (fun c => c ≠ ' ') then
    (s.drop 1).dropLast
  else s

def readCode (source : InlineSource) (start : InlineState) : InlineState :=
  let n := (start.rest.takeWhile fun c => c = '\x60').length
  let opened := start.advance n
  match if n ≤ 80 then afterTicks? n opened.rest.length opened.rest else none with
  | none => opened.pushText source start (List.replicate n '\x60')
  | some rest =>
      let st := start.advanceTo rest
      let code := opened.rest.take (opened.rest.length - rest.length - n)
      (st.pushNode (.code (tidyCode code)) (spanSince source start st) []).countLines start

def readBackslash (source : InlineSource) (start : InlineState) : InlineState :=
  match start.rest with
  | _ :: c :: _ =>
      if Text.isAsciiPunctuation c then
        let st := start.advance 2
        st.pushText source start [c]
      else if c = '\n' then
        let st := (start.advance 2).pushNode .lineBreak default []
        { st with line := st.line + 1, columnShift := -(st.position : Int) }.dropBlanks
      else (start.advance 1).pushText source start ['\\']
  | _ => (start.advance 1).pushText source start ['\\']

def readReference (source : InlineSource) (start : InlineState) : InlineState :=
  match reference? (start.rest.drop 1) with
  | some (characters, rest) => (start.advanceTo rest).pushText source start characters
  | none => (start.advance 1).pushText source start ['&']

def pushAutolink (source : InlineSource) (start st : InlineState) (lead shown : Text) :
    InlineState :=
  let span := spanSince source start st
  let url := resolveReferences (Text.trim isSpace shown)
  st.pushNode (.link ⟨lead ++ url, []⟩) span [textNode (resolveReferences shown) span]

def readAngle (source : InlineSource) (start : InlineState) : InlineState :=
  let behind := start.rest.drop 1
  match angleUri? behind, angleMail? behind, afterInlineHtml? behind with
  | some (url, rest), _, _ => pushAutolink source start (start.advanceTo rest) [] url
  | _, some (mail, rest), _ => pushAutolink source start (start.advanceTo rest) "mailto:" mail
  | _, _, some rest =>
      let st := start.advanceTo rest
      let html := start.rest.take (start.rest.length - rest.length)
      (st.pushNode (.htmlInline html) (spanSince source start st) []).countLines start
  | _, _, _ => (start.advance 1).pushText source start ['<']

/-- Takes `n` bytes off the end of the texts read last. -/
def takeBack : Nat → List Piece → List Piece
  | _, [] => []
  | 0, pieces => pieces
  | n + 1, piece :: rest =>
      match piece with
      | .node (.mk (.text s) span children) =>
          let size := Text.byteLength s
          if n + 1 < size then
            let stop := { span.stop with column := span.stop.column - (n + 1) }
            .node (.mk (.text (s.take (s.length - (n + 1)))) { span with stop } children) :: rest
          else takeBack (n + 1 - size) rest
      | piece => piece :: rest

/-- A bare address whose scheme has been read as text, at its colon. -/
def readColon (source : InlineSource) (start : InlineState) : InlineState :=
  let found :=
    if source.options.autolinks && !start.inBrackets then schemeAddress? start.before start.rest
    else none
  match found with
  | some (scheme, tail) =>
      let st := start.advance tail.length
      let st := { st with pieces := takeBack scheme.length st.pieces }
      let url := scheme ++ tail
      let span := start.span source (start.position - scheme.length) (st.position - 1)
      st.pushNode (.link ⟨url, []⟩) span [textNode url span]
  | none => (start.advance 1).pushText source start [':']

def readW (source : InlineSource) (start : InlineState) : InlineState :=
  let found := if start.inBrackets then none else wwwAddress? start.before start.rest
  match found with
  | some url =>
      let st := start.advance url.length
      let span := spanSince source start st
      st.pushNode (.link ⟨"http://".toList ++ url, []⟩) span [textNode url span]
  | none => (start.advance 1).pushText source start ['w']

/-- The nearest character that is not a tilde; the edge of the text counts as a line end. -/
def neighbour (s : Text) : Char := ((s.dropWhile fun c => c = '~').head?).getD '\n'

/-- Whether a run of a mark between two characters can open and can close. -/
def flanking (mark before after : Char) : Bool × Bool :=
  let isSpaceBefore := Text.isBlank before
  let isSpaceAfter := Text.isBlank after
  let isMarkBefore := Text.isPunctuation before
  let isMarkAfter := Text.isPunctuation after
  let left := !isSpaceAfter && (!isMarkAfter || isSpaceBefore || isMarkBefore)
  let right := !isSpaceBefore && (!isMarkBefore || isSpaceAfter || isMarkAfter)
  if mark = '_' then (left && (!right || isMarkBefore), right && (!left || isMarkAfter))
  else if mark = '\x27' || mark = '\x22' then
    (left && (!right || before = '(' || before = '[') && before ≠ ']' && before ≠ ')', right)
  else (left, right)

def readRun (source : InlineSource) (mark : Char) (start : InlineState) : InlineState :=
  let isQuote := mark = '\x27' || mark = '\x22'
  let n := if isQuote then 1 else (start.rest.takeWhile fun c => c = mark).length
  let st := start.advance n
  let (canOpen, canClose) := flanking mark (neighbour start.before) (neighbour st.rest)
  let smart := source.options.smart
  let shown : Text :=
    if smart && mark = '\x27' then ['’']
    else if smart && mark = '\x22' then [if canClose then '”' else '“']
    else List.replicate n mark
  let isRun := (canOpen || canClose) && (!isQuote || smart) &&
    (mark ≠ '~' || !source.options.emphasis.strikethrough || n ≤ 2)
  if isRun then
    st.push (.run ⟨mark, shown, Text.byteLength shown, canOpen, canClose, st.position,
      spanSince source start st⟩)
  else st.pushText source start shown

/-- Dashes for a number of hyphens: long ones, short ones, or first long and then short ones. -/
def dashes (n : Nat) : Text :=
  let (long, short) :=
    if n % 3 = 0 then (n / 3, 0)
    else if n % 2 = 0 then (0, n / 2)
    else if n % 3 = 2 then ((n - 2) / 3, 1)
    else ((n - 4) / 3, 2)
  List.replicate long '—' ++ List.replicate short '–'

def readHyphen (source : InlineSource) (start : InlineState) : InlineState :=
  let n := (start.rest.takeWhile fun c => c = '-').length
  if source.options.smart && 2 ≤ n then (start.advance n).pushText source start (dashes n)
  else (start.advance 1).pushText source start ['-']

def readPeriod (source : InlineSource) (start : InlineState) : InlineState :=
  if !source.options.smart then (start.advance 1).pushText source start ['.']
  else match start.rest with
    | '.' :: '.' :: '.' :: _ => (start.advance 3).pushText source start ['…']
    | '.' :: '.' :: _ => (start.advance 2).pushText source start ['.', '.']
    | _ => (start.advance 1).pushText source start ['.']

def markFollowed : List Piece → List Piece
  | [] => []
  | .bracket b :: rest => .bracket { b with followed := true } :: rest
  | piece :: rest => piece :: markFollowed rest

def readOpenBracket (source : InlineSource) (image : Bool) (start : InlineState) : InlineState :=
  let st := start.advance (if image then 2 else 1)
  let bracket : Bracket := ⟨image, false, st.rest, spanSince source start st⟩
  { st with
    pieces := .bracket bracket :: markFollowed st.pieces
    inBrackets := true
    linkInside := st.linkInside && image }

def readMark (source : InlineSource) (start : InlineState) : InlineState :=
  match start.rest with
  | _ :: '[' :: c :: _ =>
      if c = '^' then (start.advance 1).pushText source start ['!']
      else readOpenBracket source true start
  | _ :: '[' :: _ => readOpenBracket source true start
  | _ => (start.advance 1).pushText source start ['!']

/-- The latest bracket: the pieces behind it in order, and those in front of it, the latest first.
-/
def splitBracket? : List Piece → List Piece → Option (List Piece × Bracket × List Piece)
  | _, [] => none
  | behind, .bracket b :: before => some (behind, b, before)
  | behind, piece :: before => splitBracket? (piece :: behind) before

/-- An address and a title in parentheses, and what follows them. -/
def inlineTarget? (s : Text) : Option (Target × Text) :=
  match s with
  | '(' :: r => do
      let (url, r) ← address? (dropSpaces r)
      let spaced := dropSpaces r
      let (title, r) :=
        if spaced.length = r.length then (([] : Text), r)
        else (title? spaced).getD ([], spaced)
      let rest ← Text.after? ")" (dropSpaces r)
      return (⟨cleanUrl url, cleanTitle title⟩, rest)
  | _ => none

/-- The target that a label behind a closing bracket, or the text between the brackets, refers to.
-/
def referenceTarget? (source : InlineSource) (bracket : Bracket) (shown s : Text) :
    Option (Target × Text) :=
  match label? s with
  | some (label, rest) =>
      if label.isEmpty && !bracket.followed then
        (source.references.find? shown).map fun t => (t, rest)
      else (source.references.find? label).map fun t => (t, rest)
  | none =>
      if bracket.followed then none else (source.references.find? shown).map fun t => (t, s)

/-- The name of a footnote that the pieces between brackets spell. -/
def footnoteName? (behind : List Piece) : Option Text :=
  match behind with
  | first :: _ =>
      if first.text?.isNone then none
      else
        let shown := (behind.map fun piece =>
          match piece with
          | .node (.mk (.htmlInline s) _ _) => s
          | piece => piece.text?.getD []).flatten
        match shown with
        | '^' :: c :: name => some (c :: name)
        | _ => none
  | [] => none

def isTextual (piece : Piece) : Bool :=
  match piece with
  | .node (.mk (.htmlInline _) _ _) => true
  | piece => piece.text?.isSome

def readCloseBracket (source : InlineSource) (start : InlineState) : InlineState :=
  let st := { start.advance 1 with inBrackets := false }
  match splitBracket? [] st.pieces with
  | none => st.pushText source start [']']
  | some (behind, bracket, before) =>
      let asText := { st with
        pieces := behind.reverse ++ Piece.node (Piece.bracket bracket).toNode :: before }
      if !bracket.image && st.linkInside then asText.pushText source start [']']
      else
        let shown := bracket.behind.take (bracket.behind.length - start.rest.length)
        match (inlineTarget? st.rest).or (referenceTarget? source bracket shown st.rest) with
        | some (target, rest) =>
            let st := st.advanceTo rest
            let stop := (st.span source 0 (st.position - 1)).stop
            let value : Value := if bracket.image then .image target else .link target
            let children := matchPieces source.options.emphasis behind
            { st with
              pieces := .node (.mk value ⟨bracket.span.start, stop⟩ children) :: before
              linkInside := st.linkInside || !bracket.image }
        | none =>
            match if source.options.footnotes then footnoteName? behind else none with
            | some name =>
                let stop := (st.span source 0 (st.position - 1)).stop
                let note : Piece :=
                  .node (.mk (.footnoteReference name 0 0) ⟨bracket.span.start, stop⟩ [])
                let others := behind.filter fun piece => !isTextual piece
                { st with pieces := others.reverse ++ note :: before }
            | none => asText.pushText source start [']']

def isSpecial (options : InlineOptions) (inBrackets : Bool) (c : Char) : Bool :=
  c = '\n' || c = '\x60' || c = '\\' || c = '&' || c = '<' || c = '[' || c = ']' || c = '!' ||
    c = '*' || c = '_' || c = '\x27' || c = '\x22' || c = '~' || (c = '^' && !inBrackets) ||
    (options.autolinks && (c = ':' || c = 'w')) || (options.smart && (c = '-' || c = '.'))

def lastIsLineBreak (pieces : List Piece) : Bool :=
  match pieces with
  | .node (.mk .lineBreak _ _) :: _ => true
  | _ => false

/-- Plain text up to the next special character, without blanks at the ends of lines. -/
def readPlain (source : InlineSource) (start : InlineState) : InlineState :=
  let special := isSpecial source.options start.inBrackets
  let shown := match start.rest with
    | [] => []
    | c :: s => c :: s.takeWhile fun c => !special c
  let st := start.advance shown.length
  let atLineEnd := st.rest.head? = some '\n'
  let trimmed := if atLineEnd then Text.trimEnd isSpace shown else shown
  let afterBreak := lastIsLineBreak start.pieces
  let body := if afterBreak then Text.trimStart isSpace trimmed else trimmed
  if body.isEmpty then st
  else
    let lead := trimmed.length - body.length
    let first := start.position + lead
    let last := first + Text.byteLength body - 1
    st.push (.node (textNode body (start.span source first last)))

def readInline (source : InlineSource) (st : InlineState) : InlineState :=
  match st.rest with
  | [] => st
  | c :: _ =>
      if c = '\n' then readBreak st
      else if c = '\x60' then readCode source st
      else if c = '\\' then readBackslash source st
      else if c = '&' then readReference source st
      else if c = '<' then readAngle source st
      else if c = ':' && source.options.autolinks then readColon source st
      else if c = 'w' && source.options.autolinks then readW source st
      else if c = '-' then readHyphen source st
      else if c = '.' then readPeriod source st
      else if c = '[' then readOpenBracket source false st
      else if c = ']' then readCloseBracket source st
      else if c = '!' then readMark source st
      else if c = '*' || c = '_' || c = '\x27' || c = '\x22' || c = '~' then readRun source c st
      else if c = '^' && !st.inBrackets then readRun source c st
      else readPlain source st

def readAll (source : InlineSource) : Nat → InlineState → InlineState
  | 0, st => st
  | fuel + 1, st => if st.rest.isEmpty then st else readAll source fuel (readInline source st)

def readInlines (options : InlineOptions) (references : References) (content : Content) :
    List Node :=
  let text := Text.trimEnd isSpace content.text
  let start : InlineState := ⟨text, [], 0, 0, 0, [], false, false⟩
  let st := readAll ⟨options, references, content⟩ text.length start
  matchPieces options.emphasis st.pieces.reverse

mutual

def Block.toNode (options : InlineOptions) (references : References) : Block → Node
  | .mk v content _ children =>
      match v with
      | .paragraph | .heading _ | .tableCell =>
          .mk v default (readInlines options references content)
      | v => .mk v default (Block.toNodes options references children)

def Block.toNodes (options : InlineOptions) (references : References) : List Block → List Node
  | [] => []
  | b :: rest => b.toNode options references :: Block.toNodes options references rest

end

end LivePage.Markdown
