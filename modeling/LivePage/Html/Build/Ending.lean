import LivePage.Html.Build.Table

/-!
The rules after the body and those of frame sets, which take the place of a body.
-/

namespace LivePage.Html.Builder

def afterBody (b : Builder) (token : Token) : Next :=
  let back := b.againIn .inBody
  match token with
  | .text run => if isBlankRun run then .done (b.writeText run) else back
  | .comment s => .done (b.commentInRoot s)
  | .openTag tag => if tag.name = "html".toList then .done (b.mergeRoot tag) else back
  | .closeTag name => if name = "html".toList then .done (b.setMode .afterEnd) else back
  | .ending => .done b
  | _ => back

def afterEnd (b : Builder) (token : Token) : Next :=
  let back := b.againIn .inBody
  match token with
  | .text run => if isBlankRun run then .done (b.writeText run) else back
  | .comment s => .done (b.commentInDocument s)
  | .openTag tag => if tag.name = "html".toList then .done (b.mergeRoot tag) else back
  | .ending => .done b
  | _ => back

def inFrameset (b : Builder) (token : Token) : Next :=
  match token with
  | .text run => .done (if isBlankRun run then b.appendText run else b)
  | .comment s => .done (b.appendComment s)
  | .openTag tag =>
      if tag.name = "html".toList then .done (b.mergeRoot tag)
      else if tag.name = "frameset".toList then .done (b.insertTag tag)
      else if tag.name = "frame".toList then .done (b.insertVoid tag)
      else if tag.name = "noframes".toList then .done (b.openHeadContent tag)
      else .done b
  | .closeTag name =>
      if name = "frameset".toList && 1 < b.opened.length then
        let b := b.pop
        .done (if b.currentNamed "frameset" then b else b.setMode .afterFrameset)
      else .done b
  | _ => .done b

def afterFrameset (b : Builder) (token : Token) : Next :=
  match token with
  | .text run => .done (if isBlankRun run then b.appendText run else b)
  | .comment s => .done (b.appendComment s)
  | .openTag tag =>
      if tag.name = "html".toList then .done (b.mergeRoot tag)
      else if tag.name = "noframes".toList then .done (b.openHeadContent tag)
      else .done b
  | .closeTag name => .done (if name = "html".toList then b.setMode .afterFramesetEnd else b)
  | _ => .done b

def afterFramesetEnd (b : Builder) (token : Token) : Next :=
  match token with
  | .text run => .done (if isBlankRun run then b.writeText run else b)
  | .comment s => .done (b.commentInDocument s)
  | .openTag tag =>
      if tag.name = "html".toList then .done (b.mergeRoot tag)
      else if tag.name = "noframes".toList then .done (b.openHeadContent tag)
      else .done b
  | _ => .done b

def inMode (b : Builder) (token : Token) : Next :=
  match b.mode with
  | .initial => b.inInitial token
  | .beforeHtml => b.beforeHtml token
  | .beforeHead => b.beforeHead token
  | .inHead => b.inHead token
  | .afterHead => b.afterHead token
  | .inBody => b.inBody token
  | .inText => b.inText token
  | .inTable => b.inTable token
  | .inTableText => b.inTableText token
  | .inCaption => b.inCaption token
  | .inColumns => b.inColumns token
  | .inTableBody => b.inTableBody token
  | .inRow => b.inRow token
  | .inCell => b.inCell token
  | .inTemplate => b.inTemplate token
  | .afterBody => b.afterBody token
  | .inFrameset => b.inFrameset token
  | .afterFrameset => b.afterFrameset token
  | .afterEnd => b.afterEnd token
  | .afterFramesetEnd => b.afterFramesetEnd token

end LivePage.Html.Builder
