import LivePage.Text.Span
import LivePage.Text.Category

/-!
The tree of a Markdown document. A node has a value, the span of the source that it came from, and
its children in order. Blocks stand above inlines; raw nodes hold finished HTML.
-/

namespace LivePage.Markdown

inductive Alignment where
  | none
  | left
  | center
  | right
  deriving DecidableEq, Inhabited

/-- How the items of a list are written: numbered from `start` on, or with bullets. -/
structure ListStyle where
  ordered : Bool
  start : Nat
  tight : Bool
  deriving DecidableEq, Inhabited

structure CodeBlock where
  fenced : Bool
  info : Text
  literal : Text
  deriving DecidableEq, Inhabited

/-- Where a link or an image leads. -/
structure Target where
  url : Text
  title : Text
  deriving DecidableEq, Inhabited

inductive Value where
  | document
  | blockQuote
  | list (style : ListStyle)
  | item
  | taskItem (done : Bool)
  | codeBlock (code : CodeBlock)
  | htmlBlock (literal : Text)
  | paragraph
  | heading (level : Nat)
  | thematicBreak
  | footnoteDefinition (name : Text) (references : Nat)
  | table (columns : List Alignment)
  | tableRow (header : Bool)
  | tableCell
  | text (s : Text)
  | softBreak
  | lineBreak
  | code (s : Text)
  | htmlInline (s : Text)
  | raw (s : Text)
  | emph
  | strong
  | strikethrough
  | superscript
  | subscript
  | underline
  | tildes (s : Text)
  | link (target : Target)
  | image (target : Target)
  | footnoteReference (name : Text) (number : Nat) (index : Nat)
  deriving DecidableEq, Inhabited

inductive Node where
  | mk (value : Value) (span : Span) (children : List Node)
  deriving Inhabited, BEq

namespace Node

def value : Node → Value
  | mk v _ _ => v

def span : Node → Span
  | mk _ s _ => s

def children : Node → List Node
  | mk _ _ c => c

def text? (n : Node) : Option Text :=
  match n.value with
  | .text s => some s
  | _ => none

mutual

def size : Node → Nat
  | mk _ _ children => sizeAll children + 1

def sizeAll : List Node → Nat
  | [] => 0
  | n :: rest => n.size + sizeAll rest

end

mutual

/-- Applies `f` to the value of every node. -/
def mapValues (f : Value → Span → Value) : Node → Node
  | mk v span children => mk (f v span) span (mapAllValues f children)

def mapAllValues (f : Value → Span → Value) : List Node → List Node
  | [] => []
  | n :: rest => n.mapValues f :: mapAllValues f rest

end

mutual

/-- The text of the inlines below a node. Images and inline HTML have none, a break is a space. -/
def inlineText : Node → Text
  | mk _ _ children => inlineTextAll children

def inlineTextAll : List Node → Text
  | [] => []
  | mk v span children :: rest =>
      let own : Text := match v with
        | .text s => s
        | .code s => s
        | .softBreak | .lineBreak => [' ']
        | .link _ | .emph | .strong | .strikethrough | .superscript | .subscript =>
            inlineText (mk v span children)
        | _ => []
      own ++ inlineTextAll rest

end

mutual

def title? : Node → Option Text
  | mk v span children =>
      let own : Text := match v with
        | .heading 1 => Text.trimBlank (inlineText (mk v span children))
        | _ => []
      if own.isEmpty then titleAmong? children else some own

def titleAmong? : List Node → Option Text
  | [] => none
  | n :: rest =>
      match n.title? with
      | some t => some t
      | none => titleAmong? rest

end

end Node
end LivePage.Markdown
