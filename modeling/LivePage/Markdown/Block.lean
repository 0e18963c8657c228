import LivePage.Markdown.Cursor
import LivePage.Markdown.Table

/-!
Blocks of a document, read line by line. The blocks that may still grow are a stack of frames, the
innermost first. A line first passes through the frames that it continues; then it may open new
ones; what is left of it is text of the innermost frame. Frames that a line does not continue are
closed, except for a paragraph that the line continues lazily. Inlines are read later, from the
content that a closed block keeps.
-/

namespace LivePage.Markdown

/-- Lines of inline text, with the bytes in front of the content of each, and the line of the source
that the first one is. -/
structure Content where
  text : Text
  line : Nat
  offsets : List Nat
  deriving DecidableEq, Inhabited

/-- A closed block. A blank line at its end matters to lists. -/
inductive Block where
  | mk (value : Value) (content : Content) (endsBlank : Bool) (children : List Block)
  deriving Inhabited

namespace Block

def endsBlankFlag : Block → Bool
  | mk _ _ b _ => b

def children : Block → List Block
  | mk _ _ _ c => c

def markBlank : Block → Block
  | mk v content _ children => mk v content true children

mutual

/-- Whether a block ends with a blank line; in lists and items the last child counts too. -/
def endsWithBlank : Block → Bool
  | mk v _ blank children =>
      blank || match v with
        | .list _ | .item => lastEndsWithBlank children
        | _ => false

def lastEndsWithBlank : List Block → Bool
  | [] => false
  | [b] => b.endsWithBlank
  | _ :: rest => lastEndsWithBlank rest

end

/-- Whether no blank line separates the blocks of an item, or of all items but the last. -/
def isTightItem (last : Bool) : List Block → Bool
  | [] => true
  | b :: rest => !((!last || !rest.isEmpty) && b.endsWithBlank) && isTightItem last rest

def isTight : List Block → Bool
  | [] => true
  | b :: rest =>
      !(b.endsBlankFlag && !rest.isEmpty) && isTightItem rest.isEmpty b.children && isTight rest

end Block

/-- What an open block is. -/
inductive Kind where
  | document
  | blockQuote
  | list (marker : ListMarker)
  | item (marker : ListMarker) (indent : Nat)
  | fence (mark : Char) (length : Nat) (indent : Nat)
  | indentedCode
  | htmlBlock (type : Nat)
  | paragraph (triedTable : Bool)
  | heading (level : Nat) (setext : Bool)
  | thematicBreak
  | footnoteDefinition (name : Text)
  | table (columns : List Alignment)
  | tableRow (header : Bool)
  deriving DecidableEq, Inhabited

/-- An open block: its closed children and its lines so far, the latest first. -/
structure Frame where
  kind : Kind
  line : Nat
  column : Nat
  lines : List Text := []
  offsets : List Nat := []
  endsBlank : Bool := false
  children : List Block := []
  /-- Set when a list has to be judged before its last item is closed. -/
  tight : Option Bool := none
  deriving Inhabited

namespace Frame

def text (f : Frame) : Text := f.lines.reverse.flatten

def content (f : Frame) : Content := ⟨f.text, f.line, f.offsets.reverse⟩

def addLine (f : Frame) (cursor : Cursor) : Frame :=
  { f with
    lines := (cursor.content ++ ['\n']) :: f.lines
    offsets := cursor.contentOffset :: f.offsets }

def isParagraph (f : Frame) : Bool :=
  match f.kind with
  | .paragraph _ => true
  | _ => false

def isList (f : Frame) : Bool :=
  match f.kind with
  | .list _ => true
  | _ => false

def acceptsLines (f : Frame) : Bool :=
  match f.kind with
  | .paragraph _ | .heading _ _ | .fence _ _ _ | .indentedCode => true
  | _ => false

def mayContain (f : Frame) (child : Kind) : Bool :=
  match f.kind, child with
  | .list _, .item _ _ => true
  | .list _, _ => false
  | .table _, .tableRow _ => true
  | .table _, _ => false
  | .document, .item _ _ | .blockQuote, .item _ _ | .item _ _, .item _ _ => false
  | .footnoteDefinition _, .item _ _ => false
  | .document, _ | .blockQuote, _ | .item _ _, _ | .footnoteDefinition _, _ => true
  | _, _ => false

end Frame

def takeDefinitions : Nat → References → Text → References × Text
  | 0, refs, s => (refs, s)
  | fuel + 1, refs, s =>
      match definition? s with
      | some (label, target, rest) => takeDefinitions fuel (refs.define label target) rest
      | none => (refs, s)

def Frame.takeDefinitions (f : Frame) (refs : References) : References × Frame :=
  let text := f.text
  let (refs, rest) := Markdown.takeDefinitions text.length refs text
  let taken := text.take (text.length - rest.length)
  let gone := taken.count '\n'
  if taken.isEmpty then (refs, f)
  else (refs, { f with
    lines := [rest]
    line := f.line + gone
    offsets := f.offsets.take (f.offsets.length - gone) })

/-- Whether nothing is left behind the definitions, or only a blank line. -/
def Frame.isEmptied (f : Frame) : Bool :=
  isBlankLine (f.text.takeWhile fun c => !Text.isLineEnd c)

/-- The lines without blank ones at the end, `lines` being the latest first. -/
def dropBlankLines (lines : List Text) : List Text :=
  lines.dropWhile fun l => l.all fun c => Text.isSpaceOrTab c || c = '\n'

def fencedCode (f : Frame) : CodeBlock :=
  match f.lines.reverse with
  | [] => ⟨true, [], []⟩
  | label :: body =>
      let info := dropEscapes (Text.trim isSpace (resolveReferences (Text.trimEnd (· = '\n') label)))
      ⟨true, info, body.flatten⟩

/-- Closes a block. A paragraph of definitions only leaves nothing. -/
def Frame.close (f : Frame) (refs : References) : References × Option Block :=
  let block (v : Value) : References × Option Block :=
    (refs, some (.mk v ⟨[], f.line, []⟩ f.endsBlank f.children.reverse))
  let textual (v : Value) (f : Frame) : Option Block :=
    some (.mk v f.content f.endsBlank f.children.reverse)
  match f.kind with
  | .document => block .document
  | .blockQuote => block .blockQuote
  | .list m => block (.list ⟨m.ordered, m.start, f.tight.getD (Block.isTight f.children.reverse)⟩)
  | .item _ _ => block .item
  | .fence _ _ _ => block (.codeBlock (fencedCode f))
  | .indentedCode =>
      let text := (dropBlankLines f.lines).reverse.flatten
      let text := if text.getLast? = some '\n' then text else text ++ ['\n']
      block (.codeBlock ⟨false, [], text⟩)
  | .htmlBlock _ => block (.htmlBlock f.text)
  | .paragraph _ =>
      let (refs, f) := f.takeDefinitions refs
      if f.isEmptied then (refs, none) else (refs, textual .paragraph f)
  | .heading level _ => (refs, textual (.heading level) f)
  | .thematicBreak => block .thematicBreak
  | .footnoteDefinition name => block (.footnoteDefinition name 0)
  | .table columns => block (.table columns)
  | .tableRow header => block (.tableRow header)

/-- A block as its frame stands, for judging the list that it is in. -/
def Frame.snapshot (f : Frame) (inner : Option Block) : Block :=
  let value : Value := match f.kind with
    | .list m => .list ⟨m.ordered, m.start, true⟩
    | .item _ _ => .item
    | _ => .paragraph
  .mk value default f.endsBlank (f.children.reverse ++ inner.toList)

def snapshot : List Frame → Option Block
  | [] => none
  | f :: inner => some (f.snapshot (snapshot inner))

/-- The stack of open blocks, the innermost first, and the definitions met so far. -/
structure Reading where
  stack : List Frame
  references : References
  deriving Inhabited

namespace Reading

def closeTop (r : Reading) : Reading :=
  match r.stack with
  | f :: outer :: rest =>
      let (refs, block) := f.close r.references
      ⟨{ outer with children := block.toList ++ outer.children } :: rest, refs⟩
  | _ => r

def closeMany : Nat → Reading → Reading
  | 0, r => r
  | n + 1, r => closeMany n r.closeTop

/-- Closes blocks until the innermost one may contain a child of some kind. -/
def makeRoom (child : Kind) : Nat → Reading → Reading
  | 0, r => r
  | n + 1, r =>
      match r.stack with
      | f :: _ :: _ => if f.mayContain child then r else makeRoom child n r.closeTop
      | _ => r

def updateTop (r : Reading) (update : Frame → Frame) : Reading :=
  match r.stack with
  | f :: rest => { r with stack := update f :: rest }
  | [] => r

end Reading

/-- A line under way: the stack of the blocks that it continues, or that it opened; below it, the
outermost first, the open blocks that it does not continue; and the place in the line. -/
structure Progress where
  reading : Reading
  left : List Frame
  cursor : Cursor
  opened : Bool := false
  deriving Inhabited

/-- How a line meets an open block. -/
inductive Meeting where
  | continues (cursor : Cursor)
  | leaves
  | closes
  deriving Inhabited

/-- Whether a line continues an open block that is not empty if `inhabited`. -/
def Frame.meet (f : Frame) (inhabited : Bool) (cursor : Cursor) : Meeting :=
  let there := cursor.atText
  let indent := cursor.indent
  match f.kind with
  | .document | .list _ => .continues cursor
  | .blockQuote =>
      match there.rest with
      | '>' :: _ =>
          if indent ≤ 3 then .continues (cursor.advanceColumns (indent + 1)).skipBlank else .leaves
      | _ => .leaves
  | .item _ needed =>
      if needed ≤ indent then .continues (cursor.advanceColumns needed)
      else if cursor.isBlank && inhabited then .continues there
      else .leaves
  | .fence mark length offset =>
      if indent ≤ 3 && there.rest.head? = some mark && closesFence mark length there.rest then .closes
      else .continues (cursor.skipBlanks offset)
  | .indentedCode =>
      if 4 ≤ indent then .continues (cursor.advanceColumns 4)
      else if cursor.isBlank then .continues there
      else .leaves
  | .htmlBlock type => if type ≤ 5 || !cursor.isBlank then .continues cursor else .leaves
  | .paragraph _ => if cursor.isBlank then .leaves else .continues cursor
  | .table _ => if (row? (there.rest ++ ['\n'])).isSome then .continues cursor else .leaves
  | .footnoteDefinition _ =>
      if 4 ≤ indent then .continues (cursor.advanceColumns 4)
      else if cursor.offset = 0 && cursor.rest.isEmpty then .continues cursor
      else .leaves
  | .heading _ _ | .thematicBreak | .tableRow _ => .leaves

/-- Passes a line through the open blocks, the outermost first. `none` stands for a line that closes
a fence, with the stack that is left. -/
def meetAll (refs : References) : List Frame → List Frame → Cursor → Reading ⊕ Progress
  | stack, [], cursor => .inr ⟨⟨stack, refs⟩, [], cursor, false⟩
  | stack, f :: inner, cursor =>
      match f.meet (!f.children.isEmpty || !inner.isEmpty) cursor with
      | .continues cursor => meetAll refs (f :: stack) inner cursor
      | .leaves => .inr ⟨⟨stack, refs⟩, f :: inner, cursor, false⟩
      | .closes => .inl (Reading.closeTop ⟨f :: stack, refs⟩)

namespace Progress

/-- Closes the blocks that the line does not continue. -/
def closeLeft (p : Progress) : Progress :=
  let stack := p.left.reverse ++ p.reading.stack
  { p with reading := Reading.closeMany p.left.length { p.reading with stack := stack }, left := [] }

/-- Judges a list that is about to be closed around its open last item. -/
def judgeList (p : Progress) (child : Kind) : Progress :=
  { p with reading := p.reading.updateTop fun f =>
      if f.isList && !f.mayContain child then
        { f with tight := some (Block.isTight (f.children.reverse ++ (snapshot p.left).toList)) }
      else f }

def openBlock (p : Progress) (frame : Frame) (cursor : Cursor) : Progress :=
  let p := (p.judgeList frame.kind).closeLeft
  let r := Reading.makeRoom frame.kind p.reading.stack.length p.reading
  ⟨{ r with stack := frame :: r.stack }, [], cursor, true⟩

def top? (p : Progress) : Option Frame := p.reading.stack.head?

def inParagraph (p : Progress) : Bool :=
  match p.left.getLast? with
  | some f => f.isParagraph
  | none => p.top?.any Frame.isParagraph

end Progress

/-- Which blocks there are besides the basic ones. -/
structure BlockOptions where
  tables : Bool
  footnotes : Bool
  deriving DecidableEq, Inhabited

/-- Opens a list item, in a list of its own unless the innermost block is one that it fits. -/
def openItem (p : Progress) (line : Nat) (marker : ListMarker) (length : Nat) : Progress :=
  let there := p.cursor.atText
  let column := there.offset + 1
  let behind := there.advanceChars length
  let padded := behind.skipBlanks 6
  let width := padded.column - behind.column
  let (padding, cursor) :=
    if width = 0 || 5 ≤ width || padded.rest.isEmpty then
      (length + 1, if width = 0 then behind else behind.skipBlank)
    else (length + width, padded)
  let fits := match p.top?.map Frame.kind with
    | some (.list m) => m.ordered = marker.ordered && m.mark = marker.mark
    | _ => false
  let p := if fits then p else p.openBlock { kind := .list marker, line, column } p.cursor
  p.openBlock { kind := .item marker (p.cursor.indent + padding), line, column } cursor

/-- Cells of a row as blocks, the content of each where it stands in its line. Missing cells are
empty, and those that are too many are dropped. -/
def cellBlocks (line base : Nat) : Nat → List Cell → List Block
  | 0, _ => []
  | n + 1, [] => .mk .tableCell ⟨[], line, []⟩ false [] :: cellBlocks line base n []
  | n + 1, cell :: rest =>
      .mk .tableCell ⟨cell.content, line, [base + cell.offset]⟩ false [] ::
        cellBlocks line base n rest

/-- The paragraph of the lines in front of the head of a table. -/
def leadingParagraph (f : Frame) (row : Row) : List Block :=
  if row.lead = 0 then []
  else
    let lead := f.text.take row.lead
    let content : Content :=
      ⟨unescapeBars lead, f.line, f.content.offsets.take (lead.count '\n')⟩
    [.mk .paragraph content false []]

/-- Makes the last line of a paragraph the head of a table, if the current line fits under it. -/
def openTable (p : Progress) (f : Frame) (line : Nat) : Option Progress :=
  let rest := p.cursor.atText.rest
  if !isDelimiterRow rest then none
  else match row? (rest ++ ['\n']), row? f.text with
    | some delimiters, some head =>
        if head.cells.length = delimiters.cells.length then
          let columns := delimiters.cells.map fun c => alignmentOf c.content
          let header : Block := .mk (.tableRow true) default false
            (cellBlocks (line - 1) (f.column - 1) columns.length head.cells)
          let table : Frame :=
            { kind := .table columns, line := f.line, column := f.column, children := [header] }
          match p.reading.stack with
          | _ :: outer :: above =>
              let outer := { outer with children := leadingParagraph f head ++ outer.children }
              some ⟨{ p.reading with stack := table :: outer :: above }, [], p.cursor.atEnd, true⟩
          | _ => none
        else none
    | _, _ => none

/-- Notes that the head of a table has been looked for in vain. -/
def markTried (p : Progress) : Progress :=
  { p with reading := p.reading.updateTop fun f =>
      if isDelimiterRow p.cursor.atText.rest then { f with kind := .paragraph true } else f }

def openRow (p : Progress) (f : Frame) (columns : List Alignment) (line : Nat) : Option Progress :=
  if p.cursor.isBlank then none
  else (row? (p.cursor.atText.rest ++ ['\n'])).map fun row =>
    let cells := cellBlocks line (f.column - 1) columns.length row.cells
    p.openBlock { kind := .tableRow false, line, column := f.column, children := cells.reverse }
      p.cursor.atEnd

def lookOnce (options : BlockOptions) (line depth : Nat) (lazy : Bool) (p : Progress) :
    Option Progress :=
  let there := p.cursor.atText
  let column := there.offset + 1
  let rest := there.rest
  let inner := p.top?
  let atParagraph := inner.any Frame.isParagraph
  if 4 ≤ p.cursor.indent then
    if !lazy && !p.cursor.isBlank then
      some (p.openBlock { kind := .indentedCode, line, column } (p.cursor.advanceColumns 4))
    else none
  else if rest.head? = some '>' then
    some (p.openBlock { kind := .blockQuote, line, column } (there.advanceChars 1).skipBlank)
  else if let some (level, text) := atxHeading? rest then
    some (p.openBlock { kind := .heading level false, line, column } (there.advanceTo text))
  else if let some length := openFence? rest then
    let kind := Kind.fence (rest.head?.getD '\x60') length (there.offset - p.cursor.offset)
    some (p.openBlock { kind, line, column } (there.advanceChars length))
  else if let some type := htmlBlockStart? rest then
    some (p.openBlock { kind := .htmlBlock type, line, column } p.cursor)
  else if !atParagraph && isLoneTag rest then
    some (p.openBlock { kind := .htmlBlock 7, line, column } p.cursor)
  else if let (true, some level) := (atParagraph, setextLevel? rest) then
    match p.reading.stack with
    | f :: above =>
        let (refs, f) := f.takeDefinitions p.reading.references
        if f.isEmptied then
          some { p with reading := ⟨f :: above, refs⟩, opened := true }
        else
          some { p with
            reading := ⟨{ f with kind := .heading level true } :: above, refs⟩
            cursor := p.cursor.atEnd, opened := true }
    | [] => none
  else if !(atParagraph && !p.left.isEmpty) && isThematicBreak rest then
    some (p.openBlock { kind := .thematicBreak, line, column } p.cursor.atEnd)
  else
    let footnote := if options.footnotes && depth < 100 then footnoteStart? rest else none
    match footnote with
    | some (name, text) =>
        some (p.openBlock { kind := .footnoteDefinition name, line, column } (there.advanceTo text))
    | none =>
        match if depth < 100 then listMarker? atParagraph rest else none with
        | some (marker, length) => some (openItem p line marker length)
        | none =>
            if !options.tables then none
            else match inner with
              | some f =>
                  match f.kind with
                  | .paragraph false => openTable p f line
                  | .table columns => openRow p f columns line
                  | _ => none
              | none => none

def Progress.isClosedInside (p : Progress) : Bool :=
  match p.top?.map Frame.kind with
  | some (.fence _ _ _) | some .indentedCode | some (.htmlBlock _) => true
  | _ => false

def openBlocks (options : BlockOptions) (line : Nat) : Nat → Nat → Bool → Progress → Progress
  | 0, _, _, p => p
  | fuel + 1, depth, lazy, p =>
      if p.isClosedInside then p
      else match lookOnce options line depth lazy p with
        | some q =>
            if q.top?.any Frame.acceptsLines then q
            else openBlocks options line fuel (depth + 1) false q
        | none =>
            let isTried := options.tables && p.cursor.indent < 4 && p.top?.any Frame.isParagraph
            if isTried then markTried p else p

/-- The text of a heading without the number signs that end it. -/
def chopHeading (s : Text) : Text :=
  let s := Text.trimEnd isSpace s
  let body := Text.trimEnd (· = '#') s
  match body.getLast? with
  | none => []
  | some c =>
      if body.length ≠ s.length && Text.isSpaceOrTab c then Text.trimEnd isSpace body else s

/-- Marks the blank line at the end of the block above it, and takes such marks off the blocks that
hold the line. -/
def markBlankLine (p : Progress) (line : Nat) : Progress :=
  let blank := p.cursor.isBlank
  let mark (f : Frame) : Frame :=
    let children := match blank && p.left.isEmpty, f.children with
      | true, b :: rest => b.markBlank :: rest
      | _, children => children
    let endsBlank := blank && match f.kind with
      | .blockQuote | .heading _ _ | .thematicBreak | .fence _ _ _ => false
      | .item _ _ => !f.children.isEmpty || !p.left.isEmpty || f.line ≠ line
      | _ => true
    { f with endsBlank, children }
  let left := match blank, p.left with
    | true, f :: inner => { f with endsBlank := true } :: inner
    | _, left => left
  let stack := match p.reading.stack with
    | f :: above => mark f :: above.map fun g => { g with endsBlank := false }
    | [] => []
  { p with reading := { p.reading with stack }, left }

def addText (p : Progress) (line : Nat) : Reading :=
  let p := markBlankLine p line
  let lazy := !p.left.isEmpty && !p.opened && !p.cursor.isBlank && p.inParagraph
  if lazy then
    let whole := { p.reading with stack := p.left.reverse ++ p.reading.stack }
    whole.updateTop fun f => f.addLine p.cursor
  else
    let p := p.closeLeft
    let there := p.cursor.atText
    match p.top? with
    | none => p.reading
    | some f =>
        match f.kind with
        | .fence _ _ _ | .indentedCode => p.reading.updateTop fun f => f.addLine p.cursor
        | .htmlBlock type =>
            let r := p.reading.updateTop fun f => f.addLine p.cursor
            if endsHtmlBlock type there.rest then r.closeTop else r
        | .heading _ setext =>
            if p.cursor.isBlank then p.reading
            else
              let rest := if setext then there.rest else chopHeading there.rest
              if rest.isEmpty then p.reading
              else p.reading.updateTop fun f => f.addLine { there with rest }
        | .paragraph _ =>
            if p.cursor.isBlank then p.reading else p.reading.updateTop fun f => f.addLine there
        | _ =>
            if p.cursor.isBlank then p.reading
            else
              let frame : Frame := { kind := .paragraph false, line, column := there.offset + 1 }
              (p.openBlock (frame.addLine there) there).reading

def readLine (options : BlockOptions) (r : Reading) (line : Nat) (text : Text) : Reading :=
  let cursor : Cursor := match line, text with
    | 1, '\ufeff' :: rest => { rest, offset := 3, column := 0, insideTab := false }
    | _, _ => Cursor.ofLine text
  match meetAll r.references [] r.stack.reverse cursor with
  | .inl r => r
  | .inr p => addText (openBlocks options line (2 * text.length + 2) 0 p.inParagraph p) line

def readLines (options : BlockOptions) : Reading → Nat → List Text → Reading
  | r, _, [] => r
  | r, line, text :: rest => readLines options (readLine options r line text) (line + 1) rest

/-- The lines of a text; a line feed at its end begins no further one. -/
def linesOf (s : Text) : List Text :=
  let lines := Text.split (· = '\n') s
  match lines.getLast? with
  | some [] => lines.dropLast
  | _ => lines

/-- The block structure of a document, with the definitions that it holds. -/
def readBlocks (options : BlockOptions) (s : Text) : Block × References :=
  let start : Reading := ⟨[{ kind := .document, line := 1, column := 1 }], []⟩
  let r := readLines options start 1 (linesOf s)
  let r := Reading.closeMany r.stack.length r
  match r.stack with
  | f :: _ => ((f.close r.references).2.getD default, r.references)
  | [] => (default, r.references)

end LivePage.Markdown
