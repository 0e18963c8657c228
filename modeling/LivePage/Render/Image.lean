import LivePage.Render.Link

/-!
Images as HTML. The label and the address of an image are read from its markup where that shows
them: between the first bracket and the one that closes it, and between the parentheses that follow.
What the markup does not show comes from the attributes found by the parser.
-/

namespace LivePage

inductive ImageStyle where
  | inline
  | reference
  deriving DecidableEq, Inhabited

def imageStyle (content : Text) : ImageStyle :=
  if Text.contains "](" content then .inline else .reference

/-- The text up to the bracket that closes the open ones, and what follows that bracket. A character
after a backslash does not count. -/
def splitClosing? (opener closer : Char) : Nat → Bool → Text → Option (Text × Text)
  | _, _, [] => none
  | depth, true, c :: s => (splitClosing? opener closer depth false s).map fun r => (c :: r.1, r.2)
  | depth, false, c :: s =>
      if c = closer && depth ≤ 1 then some ([], s)
      else
        let depth' := if c = opener then depth + 1 else if c = closer then depth - 1 else depth
        (splitClosing? opener closer depth' (c = '\\') s).map fun r => (c :: r.1, r.2)

/-- The label of an image and what follows its closing bracket. -/
def splitLabel? (content : Text) : Option (Text × Text) :=
  match content.dropWhile fun c => c ≠ '[' with
  | [] => none
  | _ :: s => splitClosing? '[' ']' 1 false s

def imageAlt? (content : Text) : Option Text := (splitLabel? content).map Prod.fst

/-- The address at the start of what stands in the parentheses of an image. -/
def destinationOf (inner : Text) : Text :=
  let inner := Text.trimBlank inner
  match inner with
  | '<' :: s => s.takeWhile fun c => c ≠ '>'
  | _ => Text.firstWord Text.isBlank inner

def imageUrl? (content : Text) : Option Text :=
  match splitLabel? content with
  | some (_, '(' :: s) => (splitClosing? '(' ')' 1 false s).map fun r => destinationOf r.1
  | _ => none

def resolveAlt (image : ImageToken) : Text :=
  match imageAlt? image.content with
  | some alt => alt
  | none => (image.attr? "alt").getD []

def resolveSource (image : ImageToken) : Text :=
  let shown := match imageStyle image.content with
    | .inline => (imageUrl? image.content).filter fun url => !url.isEmpty
    | .reference => none
  match shown with
  | some url => url
  | none => (image.attr? "src").getD []

variable {m : Type → Type} [Monad m]

/-- The element of an image, loaded late and open to preview; any other token keeps its content. -/
def renderImage (ctx : RuleContext m) (token : Token) : m Text :=
  match token with
  | .image image => do
      let source ← ctx.escaper.attr (sanitizeUrl (resolveSource image))
      let alt ← ctx.escaper.attr (resolveAlt image)
      let title ← match (image.attr? "title").filter fun t => !t.isEmpty with
        | some t => do
            let t ← ctx.escaper.attr t
            pure (attr "title" t)
        | none => pure []
      return "<span class=\"markdown-image-wrapper\"><img".toList ++ attr "src" source
        ++ attr "alt" alt ++ title ++ attr "loading" "lazy"
        ++ attr "data-action" "preview-image" ++ attr "data-preview-src" source
        ++ "></span>".toList
  | token => pure token.content

end LivePage
