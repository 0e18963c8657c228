import LivePage.Html.Build.State

/-!
Formatting elements may be closed in another order than they were opened. When a block ends inside
one, the formatting is opened anew where text follows; when the end tag of a formatting element is
met inside a block that it surrounds, the elements are rebuilt so that they nest.
-/

namespace LivePage.Html.Builder

def isMarkerOrOpen (b : Builder) : Formatting → Bool
  | .marker => true
  | .element id _ => b.opened.any (·.id = id)

/-- Opens the formatting elements of a list again, the first first. -/
def reopen (b : Builder) : List Formatting → Builder
  | [] => b
  | .marker :: rest => reopen { b with formatting := .marker :: b.formatting } rest
  | .element _ tag :: rest =>
      let (b, o) := b.addElement .html tag.name tag.attributes
      reopen { b.push o with formatting := .element o.id tag :: b.formatting } rest

/-- Opens the formatting in force that is not open, back to a marker. -/
def reconstruct (b : Builder) : Builder :=
  let closed := b.formatting.takeWhile fun f => !b.isMarkerOrOpen f
  if closed.isEmpty then b
  else reopen { b with formatting := b.formatting.drop closed.length } closed.reverse

def sinceMarker (b : Builder) : List Formatting := b.formatting.takeWhile fun f => !f.isMarker

def sameAttributes (s t : Attributes) : Bool :=
  s.length = t.length && s.all fun a => t.any (· = a)

def isLike (tag : Tag) : Formatting → Bool
  | .marker => false
  | .element _ other => other.name = tag.name && sameAttributes other.attributes tag.attributes

def eraseFormatting (b : Builder) (id : NodeId) : Builder :=
  { b with formatting := b.formatting.filter fun f => !f.hasId id }

/-- The same formatting counts at most three times; a fourth displaces the earliest. -/
def limitFormatting (b : Builder) (tag : Tag) : Builder :=
  let alike := b.sinceMarker.filter (isLike tag)
  if alike.length < 3 then b
  else match alike.getLast? with
    | some (.element id _) => b.eraseFormatting id
    | _ => b

def openFormatting (b : Builder) (tag : Tag) : Builder :=
  let b := b.limitFormatting tag
  let (b, o) := b.addElement .html tag.name tag.attributes
  { b.push o with formatting := .element o.id tag :: b.formatting }

/-- Closes the innermost element of that name, unless a special element stands between. -/
def closeAny (b : Builder) (name : Text) : Builder :=
  match b.opened.find? fun o => withName name o.name || isSpecial o.name with
  | none => b
  | some o =>
      if withName name o.name then
        { b with opened := (b.opened.dropWhile fun p => p.id ≠ o.id).tail }
      else b

/-- The state in which the elements between a block and the formatting element around it are
rebuilt. -/
structure Rebuilding where
  builder : Builder
  /-- The elements that stay open, the innermost first. -/
  kept : List Opened := []
  last : NodeId
  bookmark : Option NodeId := none
  seen : Nat := 0

/-- Rebuilds one element: formatting is copied around what is rebuilt already, and anything else, as
well as what is more than three elements away, is closed. -/
def Rebuilding.step (block : NodeId) (r : Rebuilding) (o : Opened) : Rebuilding :=
  let b := r.builder
  let seen := r.seen + 1
  match b.formatting.find? (·.hasId o.id) with
  | some (.element _ tag) =>
      if 3 < seen then { r with builder := b.eraseFormatting o.id, seen }
      else
        let (dom, i) := b.dom.addElement .html tag.name tag.attributes
        let formatting := b.formatting.map fun f => if f.hasId o.id then .element i tag else f
        { builder := { b with dom := dom.append i r.last, formatting }
          kept := r.kept ++ [⟨i, o.name⟩]
          last := i
          bookmark := if r.last = block then some i else r.bookmark
          seen }
  | _ => { r with seen }

/-- The open elements above the formatting element `id`, split at the block nearest to it. -/
def splitAtBlock? (id : NodeId) (opened : List Opened) :
    Option (List Opened × Opened × List Opened) :=
  let above := (opened.takeWhile fun o => o.id ≠ id).reverse
  let between := above.takeWhile fun o => !isSpecial o.name
  match above.dropWhile fun o => !isSpecial o.name with
  | block :: rest => some (rest.reverse, block, between.reverse)
  | [] => none

/-- Puts the new formatting after the bookmark, or in the place of the old. -/
def replaceFormatting (old : NodeId) (new : Formatting) (bookmark : Option NodeId)
    (formatting : List Formatting) : List Formatting :=
  match bookmark with
  | none => formatting.map fun f => if f.hasId old then new else f
  | some m =>
      (formatting.flatMap fun f => if f.hasId m then [new, f] else [f]).filter fun f => !f.hasId old

/-- Ends formatting that surrounds a block: the block moves out, and its content is wrapped anew. -/
def moveOut (b : Builder) (id : NodeId) (tag : Tag) (above : List Opened) (block : Opened)
    (between : List Opened) : Builder :=
  let below := (b.opened.dropWhile fun o => o.id ≠ id).tail
  let r := between.foldl (Rebuilding.step block.id) { builder := b, last := block.id }
  let b := r.builder
  let place := match below with
    | ancestor :: _ => b.placeIn ancestor
    | [] => (b.document, none)
  let b := b.insertNode place r.last
  let (dom, i) := b.dom.addElement .html tag.name tag.attributes
  let dom := (dom.moveChildren block.id i).append block.id i
  { b with
    dom
    formatting := replaceFormatting id (.element i tag) r.bookmark b.formatting
    opened := above ++ ⟨i, ⟨.html, tag.name⟩⟩ :: block :: r.kept ++ below }

/-- Ends a formatting element, at most so many times. -/
def endFormattingTimes (name : Text) : Nat → Builder → Builder
  | 0, b => b
  | n + 1, b =>
      let isSought : Formatting → Bool
        | .marker => false
        | .element _ tag => tag.name = name
      match b.sinceMarker.find? isSought with
      | some (.element id tag) =>
          if !b.opened.any (·.id = id) then b.eraseFormatting id
          else if !scopeHolds boundsScope (fun o => o.id = id) b.opened then b
          else match splitAtBlock? id b.opened with
            | none =>
                let opened := (b.opened.dropWhile fun o => o.id ≠ id).tail
                { b.eraseFormatting id with opened }
            | some (above, block, between) =>
                endFormattingTimes name n (b.moveOut id tag above block between)
      | _ => b.closeAny name

def endFormatting (b : Builder) (name : Text) : Builder :=
  match b.opened with
  | o :: _ =>
      if withName name o.name && !b.formatting.any (·.hasId o.id) then b.pop
      else endFormattingTimes name 8 b
  | [] => b

def endOpenAnchor (b : Builder) : Builder :=
  let isAnchor : Formatting → Bool
    | .marker => false
    | .element _ tag => tag.name = "a".toList
  match b.sinceMarker.find? isAnchor with
  | some (.element id _) => ((b.endFormatting "a").eraseFormatting id).removeOpened id
  | _ => b

end LivePage.Html.Builder
