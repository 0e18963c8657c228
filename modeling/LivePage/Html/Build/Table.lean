import LivePage.Html.Build.Body

/-!
The rules of tables. Tokens imply the parts of a table that are left out, and what a table cannot
hold goes in front of it.
-/

namespace LivePage.Html.Builder

/-- Treats a token as in the body, but moves what it puts in out in front of the table. -/
def foster (b : Builder) (token : Token) : Next :=
  ({ b with fostering := true }.inBody token).map fun b => { b with fostering := false }

def fosterText (b : Builder) (run : Text) : Builder :=
  { { b with fostering := true }.writeText run with fostering := false }

def closeTable (b : Builder) : Builder := (b.popUntilNamed "table").resetMode

def inTable (b : Builder) (token : Token) : Next :=
  let b' := b.popBackTo boundsTable
  match token with
  | .text _ | .null =>
      if b.currentIs fosters then
        .again { b with resumed := b.mode, mode := .inTableText, tableText := [] }
      else b.foster token
  | .comment s => .done (b.appendComment s)
  | .openTag tag =>
      if tag.name = "caption".toList then .done ((b'.pushMarker.insertTag tag).setMode .inCaption)
      else if tag.name = "colgroup".toList then .done ((b'.insertTag tag).setMode .inColumns)
      else if tag.name = "col".toList then (b'.insertImplied "colgroup").againIn .inColumns
      else if among "tbody tfoot thead" tag.name then .done ((b'.insertTag tag).setMode .inTableBody)
      else if among "td th tr" tag.name then (b'.insertImplied "tbody").againIn .inTableBody
      else if tag.name = "table".toList then
        if b.inScopeNamed boundsTable "table" then .again b.closeTable else .done b
      else if among "style script template" tag.name then .done (b.openHeadContent tag)
      else if tag.name = "input".toList && isHiddenField tag then .done (b.insertVoid tag)
      else if tag.name = "form".toList then
        if b.hasOpen "template" || b.form.isSome then .done b
        else
          let (b, o) := b.addElement .html tag.name tag.attributes
          .done { b with form := some o.id }
      else b.foster token
  | .closeTag name =>
      if name = "table".toList then
        .done (if b.inScopeNamed boundsTable "table" then b.closeTable else b)
      else if among "body caption col colgroup html tbody td tfoot th thead tr" name then .done b
      else if name = "template".toList then .done b.closeTemplate
      else b.foster token
  | .ending => b.inBody token
  | .doctype _ => .done b

/-- Writes the text of a table: blanks stay in it, and all else goes in front with them. -/
def flushTableText (b : Builder) : Builder :=
  let run := b.tableText.reverse.flatten
  let b := { b with tableText := [] }
  if run.isEmpty then b
  else if isBlankRun run then b.appendText run
  else b.fosterText run

def inTableText (b : Builder) (token : Token) : Next :=
  match token with
  | .null => .done b
  | .text run => .done { b with tableText := run :: b.tableText }
  | _ => b.flushTableText.againIn b.resumed

def closeCaption (b : Builder) : Builder :=
  ((b.closeAfterImplied "caption").clearToMarker).setMode .inTable

def inCaption (b : Builder) (token : Token) : Next :=
  let leave : Next :=
    if b.inScopeNamed boundsTable "caption" then .again b.closeCaption else .done b
  match token with
  | .openTag tag =>
      if among "caption col colgroup tbody td tfoot th thead tr" tag.name then leave
      else b.inBody token
  | .closeTag name =>
      if name = "caption".toList then
        .done (if b.inScopeNamed boundsTable "caption" then b.closeCaption else b)
      else if name = "table".toList then leave
      else if among "body col colgroup html tbody td tfoot th thead tr" name then .done b
      else b.inBody token
  | _ => b.inBody token

def inColumns (b : Builder) (token : Token) : Next :=
  let leave : Next := if b.currentNamed "colgroup" then b.pop.againIn .inTable else .done b
  match token with
  | .text run => if isBlankRun run then .done (b.appendText run) else leave
  | .comment s => .done (b.appendComment s)
  | .openTag tag =>
      if tag.name = "html".toList then .done (b.mergeRoot tag)
      else if tag.name = "col".toList then .done (b.insertVoid tag)
      else if tag.name = "template".toList then .done (b.openTemplate tag)
      else leave
  | .closeTag name =>
      if name = "colgroup".toList then
        .done (if b.currentNamed "colgroup" then b.pop.setMode .inTable else b)
      else if name = "col".toList then .done b
      else if name = "template".toList then .done b.closeTemplate
      else leave
  | .ending => b.inBody token
  | _ => leave

def inTableBody (b : Builder) (token : Token) : Next :=
  let b' := b.popBackTo holdsRows
  let leave : Next :=
    if b.inScope boundsTable (named (textsOf "table tbody tfoot")) then b'.pop.againIn .inTable
    else .done b
  match token with
  | .openTag tag =>
      if tag.name = "tr".toList then .done ((b'.insertTag tag).setMode .inRow)
      else if among "th td" tag.name then (b'.insertImplied "tr").againIn .inRow
      else if among "caption col colgroup tbody tfoot thead" tag.name then leave
      else b.inTable token
  | .closeTag name =>
      if among "tbody tfoot thead" name then
        .done (if b.inScopeNamed boundsTable name then b'.pop.setMode .inTable else b)
      else if name = "table".toList then leave
      else if among "body caption col colgroup html td th tr" name then .done b
      else b.inTable token
  | _ => b.inTable token

def inRow (b : Builder) (token : Token) : Next :=
  let b' := b.popBackTo holdsCells
  let hasRow := b.inScopeNamed boundsTable "tr"
  let leave : Next := if hasRow then b'.pop.againIn .inTableBody else .done b
  match token with
  | .openTag tag =>
      if among "th td" tag.name then .done ((b'.insertTag tag).pushMarker.setMode .inCell)
      else if among "caption col colgroup tbody tfoot thead tr" tag.name then leave
      else b.inTable token
  | .closeTag name =>
      if name = "tr".toList then .done (if hasRow then b'.pop.setMode .inTableBody else b)
      else if name = "table".toList then leave
      else if among "tbody tfoot thead" name then
        if b.inScopeNamed boundsTable name then leave else .done b
      else if among "body caption col colgroup html td th" name then .done b
      else b.inTable token
  | _ => b.inTable token

def closeCell (b : Builder) : Builder :=
  ((b.impliedEnds endsImplied).popUntil isCell).clearToMarker.setMode .inRow

def inCell (b : Builder) (token : Token) : Next :=
  match token with
  | .openTag tag =>
      if among "caption col colgroup tbody td tfoot th thead tr" tag.name then
        if b.inScope boundsTable isCell then .again b.closeCell else .done b
      else b.inBody token
  | .closeTag name =>
      if among "td th" name then
        .done (if b.inScopeNamed boundsTable name then
          (b.closeAfterImplied name).clearToMarker.setMode .inRow else b)
      else if among "body caption col colgroup html" name then .done b
      else if among "table tbody tfoot thead tr" name then
        if b.inScopeNamed boundsTable name then .again b.closeCell else .done b
      else b.inBody token
  | _ => b.inBody token

/-- Goes on in the mode that the content of a template calls for. -/
def inTemplateAs (b : Builder) (mode : Mode) : Next :=
  { b with templateModes := mode :: b.templateModes.tail }.againIn mode

def inTemplate (b : Builder) (token : Token) : Next :=
  match token with
  | .text _ | .comment _ => b.inBody token
  | .openTag tag =>
      if headContentNames.contains tag.name then .done (b.openHeadContent tag)
      else if among "caption colgroup tbody tfoot thead" tag.name then b.inTemplateAs .inTable
      else if tag.name = "col".toList then b.inTemplateAs .inColumns
      else if tag.name = "tr".toList then b.inTemplateAs .inTableBody
      else if among "td th" tag.name then b.inTemplateAs .inRow
      else b.inTemplateAs .inBody
  | .closeTag name => .done (if name = "template".toList then b.closeTemplate else b)
  | .ending => b.endTemplates
  | .null | .doctype _ => .done b

end LivePage.Html.Builder
