import LivePage.Html.Build.Formatting

/-!
The rules up to the body: tokens before the root and before the head imply them, the head holds what
describes the document, and the first token that belongs elsewhere ends it.
-/

namespace LivePage.Html.Builder

/-- The start of the document: without a declaration it is read leniently. -/
def inInitial (b : Builder) (token : Token) : Next :=
  match token with
  | .comment s => .done (b.commentInDocument s)
  | .text run =>
      if isBlankRun run then .done b else { b with lenient := true }.againIn .beforeHtml
  | _ => { b with lenient := true }.againIn .beforeHtml

def beforeHtml (b : Builder) (token : Token) : Next :=
  let implied := (b.openRoot []).againIn .beforeHead
  match token with
  | .comment s => .done (b.commentInDocument s)
  | .text run => if isBlankRun run then .done b else implied
  | .openTag tag =>
      if tag.name = "html".toList then .done ((b.openRoot tag.attributes).setMode .beforeHead)
      else implied
  | .closeTag name => if among "head body html br" name then implied else .done b
  | _ => implied

def openHead (b : Builder) (attributes : Attributes) : Builder :=
  let (b, o) := b.addElement .html "head" attributes
  { b.push o with head := some o, mode := .inHead }

def beforeHead (b : Builder) (token : Token) : Next :=
  let implied := .again (b.openHead [])
  match token with
  | .comment s => .done (b.appendComment s)
  | .text run => if isBlankRun run then .done b else implied
  | .openTag tag =>
      if tag.name = "html".toList then .done (b.mergeRoot tag)
      else if tag.name = "head".toList then .done (b.openHead tag.attributes)
      else implied
  | .closeTag name => if among "head body html br" name then implied else .done b
  | _ => implied

def openTemplate (b : Builder) (tag : Tag) : Builder :=
  { (b.insertTag tag).pushMarker.forbidFrames with
    mode := .inTemplate, templateModes := .inTemplate :: b.templateModes }

def closeTemplate (b : Builder) : Builder :=
  if b.hasOpen "template" then
    let b := ((b.impliedEnds endsImpliedThoroughly).popUntilNamed "template").clearToMarker
    { b with templateModes := b.templateModes.tail }.resetMode
  else b

/-- The start tags of what describes a document, wherever it stands. -/
def headContentNames : List Text :=
  textsOf "base basefont bgsound link meta noframes script style template title"

def openHeadContent (b : Builder) (tag : Tag) : Builder :=
  if tag.name = "title".toList then b.openText tag (.escapable tag.name)
  else if among "noframes style noscript" tag.name then b.openText tag (.raw tag.name)
  else if tag.name = "script".toList then b.openText tag .script
  else if tag.name = "template".toList then b.openTemplate tag
  else b.insertVoid tag

def inHead (b : Builder) (token : Token) : Next :=
  let leave := b.pop.againIn .afterHead
  match token with
  | .text run => if isBlankRun run then .done (b.appendText run) else leave
  | .comment s => .done (b.appendComment s)
  | .openTag tag =>
      if tag.name = "html".toList then .done (b.mergeRoot tag)
      else if headContentNames.contains tag.name || tag.name = "noscript".toList then
        .done (b.openHeadContent tag)
      else if tag.name = "head".toList then .done b
      else leave
  | .closeTag name =>
      if name = "head".toList then .done (b.pop.setMode .afterHead)
      else if among "body html br" name then leave
      else if name = "template".toList then .done b.closeTemplate
      else .done b
  | _ => leave

def backInHead (b : Builder) (tag : Tag) : Builder :=
  match b.head with
  | some o => ((b.push o).openHeadContent tag).removeOpened o.id
  | none => b.openHeadContent tag

def afterHead (b : Builder) (token : Token) : Next :=
  let implied := (b.insertImplied "body").againIn .inBody
  match token with
  | .text run => if isBlankRun run then .done (b.appendText run) else implied
  | .comment s => .done (b.appendComment s)
  | .openTag tag =>
      if tag.name = "html".toList then .done (b.mergeRoot tag)
      else if tag.name = "body".toList then .done ((b.insertTag tag).forbidFrames.setMode .inBody)
      else if tag.name = "frameset".toList then .done ((b.insertTag tag).setMode .inFrameset)
      else if headContentNames.contains tag.name then .done (b.backInHead tag)
      else if tag.name = "head".toList then .done b
      else implied
  | .closeTag name =>
      if name = "template".toList then .done b.closeTemplate
      else if among "body html br" name then implied
      else .done b
  | _ => implied

def inText (b : Builder) (token : Token) : Next :=
  match token with
  | .text run => .done (b.appendText run)
  | .closeTag _ => .done (b.pop.setMode b.resumed)
  | .ending => b.pop.againIn b.resumed
  | _ => .done b

/-- The end of the document closes the templates that are still open. -/
def endTemplates (b : Builder) : Next :=
  if b.hasOpen "template" then
    let b := (b.popUntilNamed "template").clearToMarker
    .again { b with templateModes := b.templateModes.tail }.resetMode
  else .done b

end LivePage.Html.Builder
