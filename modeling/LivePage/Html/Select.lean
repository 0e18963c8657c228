import LivePage.Html.Document

/-!
Finding elements by simple selectors: a name, classes and identifiers, and descent from elements
that are selected likewise.
-/

namespace LivePage.Html

/-- What a selector says of one element. -/
structure Compound where
  name : Option Text := none
  classes : List Text := []
  ids : List Text := []
  deriving DecidableEq, Inhabited

/-- The element sought comes first, then what is to be found above it, from the inside out. -/
abbrev Selector := List Compound

namespace Compound

def endsName (c : Char) : Bool := c = '.' || c = '#'

/-- Adds the classes and identifiers that are written behind a name; at most so many. -/
def readParts (c : Compound) : Nat → Text → Compound
  | 0, _ => c
  | n + 1, s =>
      match s with
      | mark :: r =>
          let word := r.takeWhile fun d => !endsName d
          let rest := r.dropWhile fun d => !endsName d
          if mark = '.' then readParts { c with classes := c.classes ++ [word] } n rest
          else readParts { c with ids := c.ids ++ [word] } n rest
      | [] => c

def ofText (s : Text) : Compound :=
  let name := s.takeWhile fun c => !endsName c
  let c : Compound := if name.isEmpty || name = ['*'] then {} else { name := some name }
  c.readParts s.length (s.dropWhile fun c => !endsName c)

def namesElement (name : Text) (e : Element) : Bool :=
  if e.space = .html then e.name = Text.lowerAscii name else e.name = name

end Compound

/-- The classes of an element are the words of its `class` attribute. -/
def Element.hasClass (e : Element) (name : Text) : Bool :=
  match e.attributes.get? "class" with
  | some value => (Text.split Text.isAsciiBlank value).contains name && !name.isEmpty
  | none => false

def Compound.accepts (c : Compound) (e : Element) : Bool :=
  c.name.all (namesElement · e) && c.classes.all e.hasClass &&
    c.ids.all fun id => e.attributes.get? "id" = some id

namespace Selector

def ofText (s : Text) : Selector :=
  ((Text.split Text.isAsciiBlank s).filter fun w => !w.isEmpty).map Compound.ofText |>.reverse

/-- Whether elements that fit are found in this order on the way up. -/
def isFoundAbove (d : Dom) : Selector → List NodeId → Bool
  | [], _ => true
  | _ :: _, [] => false
  | c :: rest, i :: above =>
      ((d.element? i).any c.accepts && isFoundAbove d rest above) || isFoundAbove d (c :: rest) above

def accepts (s : Selector) (d : Dom) (i : NodeId) : Bool :=
  match s with
  | [] => false
  | c :: rest => (d.element? i).any c.accepts && isFoundAbove d rest (d.ancestors i).tail

end Selector

def Document.select (d : Document) (s : Selector) : List NodeId :=
  d.nodes.filter fun i => s.accepts d.dom i

def Document.withClass (d : Document) (name : Text) : List NodeId :=
  d.nodes.filter fun i => (d.dom.element? i).any (·.hasClass name)

end LivePage.Html
