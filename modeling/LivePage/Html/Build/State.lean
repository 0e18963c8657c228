import LivePage.Html.Element

/-!
What is known while a document is built: the store, the open elements, the formatting that is in
force, and the mode, which says where in the document the next token stands.
-/

namespace LivePage.Html

inductive Mode where
  | initial
  | beforeHtml
  | beforeHead
  | inHead
  | afterHead
  | inBody
  | inText
  | inTable
  | inTableText
  | inCaption
  | inColumns
  | inTableBody
  | inRow
  | inCell
  | inTemplate
  | afterBody
  | inFrameset
  | afterFrameset
  | afterEnd
  | afterFramesetEnd
  deriving DecidableEq, Inhabited

/-- An element whose end has not been read. -/
structure Opened where
  id : NodeId
  name : ElementName
  deriving DecidableEq, Inhabited

/-- Formatting stays in force when blocks end. A marker keeps what is inside a cell or a caption
from what is outside. -/
inductive Formatting where
  | marker
  | element (id : NodeId) (tag : Tag)
  deriving DecidableEq, Inhabited

def Formatting.isMarker : Formatting → Bool
  | marker => true
  | element _ _ => false

def Formatting.hasId (id : NodeId) : Formatting → Bool
  | marker => false
  | element i _ => i = id

structure Builder where
  dom : Dom
  document : NodeId
  mode : Mode := .initial
  /-- The mode to go on in after a text or after the text of a table. -/
  resumed : Mode := .initial
  templateModes : List Mode := []
  tableText : List Text := []
  /-- The document does not declare its type as it should; paragraphs may then hold tables. -/
  lenient : Bool := false
  opened : List Opened := []
  formatting : List Formatting := []
  head : Option Opened := none
  form : Option NodeId := none
  framesAllowed : Bool := true
  dropsLineFeed : Bool := false
  /-- Content that a table cannot hold goes in front of it. -/
  fostering : Bool := false
  lexing : Lexing := .markup
  deriving Inhabited

/-- What a rule makes of a token: it is dealt with, or it is to be looked at again in the mode that
is now set. -/
inductive Next where
  | done (b : Builder)
  | again (b : Builder)
  deriving Inhabited

def Next.map (f : Builder → Builder) : Next → Next
  | done b => .done (f b)
  | again b => .again (f b)

namespace Builder

def start (d : Dom) : Builder :=
  let (dom, document) := d.add .document
  { dom, document }

def setMode (b : Builder) (mode : Mode) : Builder := { b with mode }

def againIn (b : Builder) (mode : Mode) : Next := .again (b.setMode mode)

def currentIs (b : Builder) (p : ElementClass) : Bool := b.opened.head?.any fun o => p o.name

def withName (name : Text) : ElementClass := fun e => e.space = .html && e.name = name

def currentNamed (b : Builder) (name : Text) : Bool := b.currentIs (withName name)

def hasOpen (b : Builder) (name : Text) : Bool := b.opened.any fun o => withName name o.name

/-- Whether one that is sought is met before one that bounds the search. -/
def scopeHolds (bounds : ElementClass) (sought : Opened → Bool) : List Opened → Bool
  | [] => false
  | o :: rest => sought o || (!bounds o.name && scopeHolds bounds sought rest)

def inScope (b : Builder) (bounds : ElementClass) (p : ElementClass) : Bool :=
  scopeHolds bounds (fun o => p o.name) b.opened

def inScopeNamed (b : Builder) (bounds : ElementClass) (name : Text) : Bool :=
  b.inScope bounds (withName name)

def root? (b : Builder) : Option Opened := b.opened.getLast?

def body? (b : Builder) : Option Opened :=
  b.opened.reverse[1]?.filter fun o => withName "body" o.name

def pop (b : Builder) : Builder := { b with opened := b.opened.tail }

def popUntil (b : Builder) (p : ElementClass) : Builder :=
  { b with opened := (b.opened.dropWhile fun o => !p o.name).tail }

def popUntilNamed (b : Builder) (name : Text) : Builder := b.popUntil (withName name)

def popBackTo (b : Builder) (p : ElementClass) : Builder :=
  { b with opened := b.opened.dropWhile fun o => !p o.name }

def removeOpened (b : Builder) (id : NodeId) : Builder :=
  { b with opened := b.opened.filter fun o => o.id ≠ id }

/-- Closes the innermost elements as far as their end tags may be left out. -/
def impliedEnds (b : Builder) (p : ElementClass) : Builder :=
  { b with opened := b.opened.dropWhile fun o => p o.name }

def impliedEndsExcept (b : Builder) (name : Text) : Builder :=
  b.impliedEnds fun e => endsImplied e && !withName name e

def closeNamed (b : Builder) (name : Text) : Builder :=
  (b.impliedEndsExcept name).popUntilNamed name

def closeAfterImplied (b : Builder) (name : Text) : Builder :=
  (b.impliedEnds endsImplied).popUntilNamed name

def closeParagraph (b : Builder) : Builder :=
  if b.inScopeNamed boundsButton "p" then b.closeNamed "p" else b

def holder (b : Builder) (o : Opened) : NodeId :=
  ((b.dom.element? o.id).bind (·.inside)).getD o.id

/-- The place in front of the innermost table, or inside a template that is nearer. -/
def fosterPlace (b : Builder) : List Opened → NodeId × Option NodeId
  | [] => (b.document, none)
  | [o] => (b.holder o, none)
  | o :: below :: rest =>
      if withName "template" o.name then (b.holder o, none)
      else if withName "table" o.name then
        match b.dom.parent? o.id with
        | some p => (p, some o.id)
        | none => (below.id, none)
      else fosterPlace b (below :: rest)

/-- Where a node goes that belongs into `target`: a parent, and the child it goes before. -/
def placeIn (b : Builder) (target : Opened) : NodeId × Option NodeId :=
  if b.fostering && fosters target.name then b.fosterPlace b.opened else (b.holder target, none)

def currentPlace (b : Builder) : NodeId × Option NodeId :=
  match b.opened with
  | o :: _ => b.placeIn o
  | [] => (b.document, none)

def insertNode (b : Builder) (place : NodeId × Option NodeId) (i : NodeId) : Builder :=
  { b with dom := b.dom.insert place.1 place.2 i }

def appendText (b : Builder) (s : Text) : Builder :=
  let place := b.currentPlace
  { b with dom := b.dom.insertText place.1 place.2 s }

def commentAt (b : Builder) (place : NodeId × Option NodeId) (s : Text) : Builder :=
  let (dom, i) := b.dom.add (.comment s)
  { b with dom := dom.insert place.1 place.2 i }

def appendComment (b : Builder) (s : Text) : Builder := b.commentAt b.currentPlace s

def commentInDocument (b : Builder) (s : Text) : Builder := b.commentAt (b.document, none) s

def commentInRoot (b : Builder) (s : Text) : Builder :=
  match b.root? with
  | some o => b.commentAt (o.id, none) s
  | none => b.commentInDocument s

def addElement (b : Builder) (space : Namespace) (name : Text) (attributes : Attributes) :
    Builder × Opened :=
  let (dom, i) := b.dom.addElement space name attributes
  let b := { b with dom }
  (b.insertNode b.currentPlace i, ⟨i, ⟨space, name⟩⟩)

def push (b : Builder) (o : Opened) : Builder := { b with opened := o :: b.opened }

def openElement (b : Builder) (space : Namespace) (name : Text) (attributes : Attributes) :
    Builder :=
  let (b, o) := b.addElement space name attributes
  b.push o

def insertTag (b : Builder) (tag : Tag) : Builder := b.openElement .html tag.name tag.attributes

def insertVoid (b : Builder) (tag : Tag) : Builder := (b.addElement .html tag.name tag.attributes).1

def insertImplied (b : Builder) (name : Text) : Builder := b.openElement .html name []

def openRoot (b : Builder) (attributes : Attributes) : Builder :=
  let (dom, i) := b.dom.addElement .html "html" attributes
  { b with dom := dom.append b.document i, opened := [⟨i, ⟨.html, "html"⟩⟩] }

def openText (b : Builder) (tag : Tag) (lexing : Lexing) : Builder :=
  { b.insertTag tag with resumed := b.mode, mode := .inText, lexing }

def addMissing (b : Builder) (o : Opened) (attributes : Attributes) : Builder :=
  { b with dom := b.dom.mapAttributes o.id (·.addMissing attributes) }

def mergeRoot (b : Builder) (tag : Tag) : Builder :=
  match b.root? with
  | some o => if b.hasOpen "template" then b else b.addMissing o tag.attributes
  | none => b

def forbidFrames (b : Builder) : Builder := { b with framesAllowed := false }

def pushMarker (b : Builder) : Builder := { b with formatting := .marker :: b.formatting }

def clearToMarker (b : Builder) : Builder :=
  { b with formatting := (b.formatting.dropWhile fun f => !f.isMarker).tail }

def modeOf (b : Builder) : List Opened → Mode
  | [] => .inBody
  | o :: rest =>
      let is (name : Text) : Bool := withName name o.name
      if isCell o.name && !rest.isEmpty then .inCell
      else if is "tr" then .inRow
      else if named (textsOf "tbody thead tfoot") o.name then .inTableBody
      else if is "caption" then .inCaption
      else if is "colgroup" then .inColumns
      else if is "table" then .inTable
      else if is "template" then b.templateModes.head?.getD .inTemplate
      else if is "head" && !rest.isEmpty then .inHead
      else if is "body" then .inBody
      else if is "frameset" then .inFrameset
      else if is "html" then (if b.head.isSome then .afterHead else .beforeHead)
      else modeOf b rest

def resetMode (b : Builder) : Builder := b.setMode (b.modeOf b.opened)

end Builder

/-- Whether a name is among those of a list that are written with spaces between them. -/
@[inline] def among (names : String) (name : Text) : Bool := (textsOf names).contains name

def isBlankRun (s : Text) : Bool := s.all Text.isAsciiBlank

end LivePage.Html
