import LivePage.Html.Build.Ending

/-!
The rules inside drawings and formulas, whose elements belong to other vocabularies. Start tags of
HTML that cannot stand there end them.
-/

namespace LivePage.Html.Builder

/-- Whether a token at the current place belongs to another vocabulary. -/
def isForeign (b : Builder) (token : Token) : Bool :=
  match b.opened with
  | [] => false
  | o :: _ =>
      if o.name.space = .html then false
      else match token with
        | .ending => false
        | .text _ | .null => !isMathText o.name && !isDrawingText o.name
        | .openTag tag =>
            let breaksOut :=
              (isMathText o.name && !among "mglyph malignmark" tag.name) || isDrawingText o.name ||
                (o.name = ⟨.mathml, "annotation-xml"⟩ && tag.name = "svg".toList)
            !breaksOut
        | _ => true

def escapingNames : List Text :=
  textsOf "b big blockquote body br center code dd div dl dt em embed h1 h2 h3 h4 h5 h6 head hr i img" ++
  textsOf "li listing menu meta nobr ol p pre ruby s small span strong strike sub sup table tt u ul var"

def escapes (tag : Tag) : Bool :=
  escapingNames.contains tag.name ||
    (tag.name = "font".toList && tag.attributes.any fun a => among "color face size" a.name)

/-- Leaves the drawing or formula and treats the token as outside. -/
def leaveForeign (b : Builder) (token : Token) : Next :=
  (b.popBackTo fun e => e.space = .html || isMathText e || isDrawingText e).inMode token

def openForeignElement (b : Builder) (space : Namespace) (tag : Tag) : Builder :=
  b.openForeign space { tag with name := respellElement space tag.name }

/-- The open elements that remain after an end tag, if it ends one of another vocabulary; the tag is
looked for among the elements down to the first one of HTML. -/
def afterForeignEnd (name : Text) : List Opened → Option (List Opened)
  | [] | [_] => none
  | o :: rest =>
      if o.name.space = .html then none
      else if Text.lowerAscii o.name.name = name then some rest
      else afterForeignEnd name rest

def inForeign (b : Builder) (token : Token) : Next :=
  match token with
  | .null => .done (b.appendText [replacement])
  | .text run =>
      let b := b.appendText run
      .done (if isBlankRun run then b else b.forbidFrames)
  | .comment s => .done (b.appendComment s)
  | .openTag tag =>
      if escapes tag then b.leaveForeign token
      else match b.opened with
        | o :: _ => .done (b.openForeignElement o.name.space tag)
        | [] => .done b
  | .closeTag name =>
      if among "br p" name then b.leaveForeign token
      else match afterForeignEnd name b.opened with
        | some opened => .done { b with opened }
        | none => b.inMode token
  | .doctype _ | .ending => .done b

end LivePage.Html.Builder
