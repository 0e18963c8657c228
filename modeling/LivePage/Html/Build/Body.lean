import LivePage.Html.Build.Head

/-!
The rules of the body. Blocks end a paragraph, headings do not nest, items end items, and formatting
is opened anew where it is still in force.
-/

namespace LivePage.Html.Builder

def blockNames : List Text :=
  textsOf "address article aside blockquote center details dialog dir div dl fieldset figcaption" ++
  textsOf "figure footer header hgroup main menu nav ol p search section summary ul"

/-- The names of elements that end with an end tag of their own name after implied ends. -/
def closedBlockNames : List Text :=
  textsOf "address article aside blockquote button center details dialog dir div dl fieldset" ++
  textsOf "figcaption figure footer header hgroup listing main menu nav ol pre search section select" ++
  textsOf "summary ul"

def formattingNames : List Text :=
  textsOf "b big code em font i s small strike strong tt u"

/-- The item that a new item ends, unless a special element stands between. -/
def openItem? (names : List Text) : List Opened → Option Text
  | [] => none
  | o :: rest =>
      if named names o.name then some o.name.name
      else if isSpecial o.name && !named (textsOf "address div p") o.name then none
      else openItem? names rest

def openListItem (b : Builder) (names : List Text) (tag : Tag) : Builder :=
  let b := b.forbidFrames
  let b := match openItem? names b.opened with
    | some name => b.closeNamed name
    | none => b
  b.closeParagraph.insertTag tag

def isHiddenField (tag : Tag) : Bool :=
  (tag.attributes.get? "type").any fun v => Text.lowerAscii v = "hidden".toList

def openForeign (b : Builder) (space : Namespace) (tag : Tag) : Builder :=
  let attributes := respellAttributes space tag.attributes
  if tag.selfClosing then (b.addElement space tag.name attributes).1
  else b.openElement space tag.name attributes

/-- A frame set that replaces a body in which nothing has been shown. -/
def replaceBody (b : Builder) (tag : Tag) : Builder :=
  match b.framesAllowed, b.body? with
  | true, some body =>
      let opened := match b.root? with
        | some o => [o]
        | none => []
      ({ b with dom := b.dom.detach body.id, opened }.insertTag tag).setMode .inFrameset
  | _, _ => b

def openInput (b : Builder) (tag : Tag) : Builder :=
  let b := if b.inScopeNamed boundsScope "select" then b.popUntilNamed "select" else b
  let b := b.reconstruct.insertVoid tag
  if isHiddenField tag then b else b.forbidFrames

def openButton (b : Builder) (tag : Tag) : Builder :=
  let b := if b.inScopeNamed boundsScope "button" then b.closeAfterImplied "button" else b
  (b.reconstruct.insertTag tag).forbidFrames

def openSelect (b : Builder) (tag : Tag) : Builder :=
  if b.inScopeNamed boundsScope "select" then b.popUntilNamed "select"
  else (b.reconstruct.insertTag tag).forbidFrames

/-- Opens an option or a group of options; `ends` are the elements it ends inside a selection. -/
def openOption (b : Builder) (ends : ElementClass) (tag : Tag) : Builder :=
  let b :=
    if b.inScopeNamed boundsScope "select" then b.impliedEnds ends
    else if b.currentNamed "option" then b.pop
    else b
  b.reconstruct.insertTag tag

def openForm (b : Builder) (tag : Tag) : Builder :=
  let inTemplate := b.hasOpen "template"
  if b.form.isSome && !inTemplate then b
  else
    let (b, o) := b.closeParagraph.addElement .html tag.name tag.attributes
    let b := b.push o
    if inTemplate then b else { b with form := some o.id }

def openRule (b : Builder) (tag : Tag) : Builder :=
  let b := b.closeParagraph
  let b := if b.inScopeNamed boundsScope "select" then b.impliedEnds endsImplied else b
  (b.insertVoid tag).forbidFrames

/-- Start tags in the body, all but those that matter only outside it. -/
def openInBody (b : Builder) (tag : Tag) : Builder :=
  let name := tag.name
  if name = "html".toList then b.mergeRoot tag
  else if headContentNames.contains name then b.openHeadContent tag
  else if name = "body".toList then
    match b.body? with
    | some o => if b.hasOpen "template" then b else (b.addMissing o tag.attributes).forbidFrames
    | none => b
  else if name = "frameset".toList then b.replaceBody tag
  else if blockNames.contains name then b.closeParagraph.insertTag tag
  else if headingNames.contains name then
    let b := b.closeParagraph
    (if b.currentIs isHeading then b.pop else b).insertTag tag
  else if among "pre listing" name then
    { (b.closeParagraph.insertTag tag).forbidFrames with dropsLineFeed := true }
  else if name = "form".toList then b.openForm tag
  else if name = "li".toList then b.openListItem (textsOf "li") tag
  else if among "dd dt" name then b.openListItem (textsOf "dd dt") tag
  else if name = "plaintext".toList then { b.closeParagraph.insertTag tag with lexing := .plain }
  else if name = "button".toList then b.openButton tag
  else if name = "a".toList then b.endOpenAnchor.reconstruct.openFormatting tag
  else if formattingNames.contains name then b.reconstruct.openFormatting tag
  else if name = "nobr".toList then
    let b := b.reconstruct
    let b := if b.inScopeNamed boundsScope "nobr" then (b.endFormatting "nobr").reconstruct else b
    b.openFormatting tag
  else if among "applet marquee object" name then
    (b.reconstruct.insertTag tag).pushMarker.forbidFrames
  else if name = "table".toList then
    let b := if b.lenient then b else b.closeParagraph
    ((b.insertTag tag).forbidFrames).setMode .inTable
  else if among "area br embed img keygen wbr" name then (b.reconstruct.insertVoid tag).forbidFrames
  else if name = "input".toList then b.openInput tag
  else if among "param source track" name then b.insertVoid tag
  else if name = "hr".toList then b.openRule tag
  else if name = "image".toList then
    (b.reconstruct.insertVoid { tag with name := "img" }).forbidFrames
  else if name = "textarea".toList then
    { (b.forbidFrames.openText tag (.escapable name)) with dropsLineFeed := true }
  else if name = "xmp".toList then b.closeParagraph.reconstruct.forbidFrames.openText tag (.raw name)
  else if name = "iframe".toList then b.forbidFrames.openText tag (.raw name)
  else if among "noembed noscript" name then b.openText tag (.raw name)
  else if name = "select".toList then b.openSelect tag
  else if name = "option".toList then
    b.openOption (fun e => endsImplied e && !withName "optgroup" e) tag
  else if name = "optgroup".toList then b.openOption endsImplied tag
  else if among "rb rtc" name then
    (if b.inScopeNamed boundsScope "ruby" then b.impliedEnds endsImplied else b).insertTag tag
  else if among "rp rt" name then
    (if b.inScopeNamed boundsScope "ruby" then b.impliedEndsExcept "rtc" else b).insertTag tag
  else if name = "math".toList then b.reconstruct.openForeign .mathml tag
  else if name = "svg".toList then b.reconstruct.openForeign .svg tag
  else if among "caption col colgroup frame head tbody td tfoot th thead tr" name then b
  else b.reconstruct.insertTag tag

def closeForm (b : Builder) : Builder :=
  if b.hasOpen "template" then
    if b.inScopeNamed boundsScope "form" then b.closeAfterImplied "form" else b
  else match b.form with
    | none => b
    | some id =>
        let b := { b with form := none }
        if scopeHolds boundsScope (fun o => o.id = id) b.opened then
          (b.impliedEnds endsImplied).removeOpened id
        else b

/-- End tags in the body, all but those of the body and the root. -/
def closeInBody (b : Builder) (name : Text) : Builder :=
  if name = "template".toList then b.closeTemplate
  else if closedBlockNames.contains name then
    if b.inScopeNamed boundsScope name then b.closeAfterImplied name else b
  else if name = "form".toList then b.closeForm
  else if name = "p".toList then
    (if b.inScopeNamed boundsButton "p" then b else b.insertImplied "p").closeNamed "p"
  else if name = "li".toList then
    if b.inScopeNamed boundsListItem name then b.closeNamed name else b
  else if among "dd dt" name then
    if b.inScopeNamed boundsScope name then b.closeNamed name else b
  else if headingNames.contains name then
    if b.inScope boundsScope isHeading then (b.impliedEnds endsImplied).popUntil isHeading else b
  else if formattingNames.contains name || among "a nobr" name then b.endFormatting name
  else if among "applet marquee object" name then
    if b.inScopeNamed boundsScope name then (b.closeAfterImplied name).clearToMarker else b
  else if name = "br".toList then (b.reconstruct.insertVoid ⟨name, [], false⟩).forbidFrames
  else b.closeAny name

def writeText (b : Builder) (run : Text) : Builder :=
  let b := b.reconstruct.appendText run
  if isBlankRun run then b else b.forbidFrames

def inBody (b : Builder) (token : Token) : Next :=
  match token with
  | .text run => .done (b.writeText run)
  | .comment s => .done (b.appendComment s)
  | .openTag tag => .done (b.openInBody tag)
  | .closeTag name =>
      if name = "body".toList then
        .done (if b.inScopeNamed boundsScope "body" then b.setMode .afterBody else b)
      else if name = "html".toList then
        if b.inScopeNamed boundsScope "body" then b.againIn .afterBody else .done b
      else .done (b.closeInBody name)
  | .ending => if b.templateModes.isEmpty then .done b else b.endTemplates
  | .null | .doctype _ => .done b

end LivePage.Html.Builder
