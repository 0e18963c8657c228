import LivePage.Highlight
import LivePage.Render.Block
import LivePage.Render.Escaper

/-!
The view of a node that a rendering rule gets, and what it may use to render it.
-/

namespace LivePage

structure FenceToken where
  content : Text
  info : Text
  deriving DecidableEq, Inhabited

structure LinkToken where
  url : Text
  title : Text
  deriving DecidableEq, Inhabited

/-- An image as its markup and the attributes found by the parser. -/
structure ImageToken where
  content : Text
  attrs : List (Text × Text)
  deriving DecidableEq, Inhabited

def ImageToken.attr? (image : ImageToken) (name : Text) : Option Text := image.attrs.lookup name

inductive Token where
  | fence (fence : FenceToken)
  | linkOpen (link : LinkToken)
  | image (image : ImageToken)
  | other (content : Text)
  deriving DecidableEq, Inhabited

def Token.content : Token → Text
  | fence t => t.content
  | linkOpen t => t.url
  | image t => t.content
  | other content => content

structure RuleContext (m : Type → Type) where
  escaper : Escaper m
  options : Options
  highlighter : Option Highlighter

end LivePage
