import LivePage.Markdown.Node
import LivePage.Render.Image

/-!
Rules that replace the default HTML of fences, links and images. The nodes are listed in preorder
first, and then visited one after the other, while the tree changes under way. A node's place in the
list, counted from the root, gives the identifier of a fence. A fence and an image become finished
HTML, a link gives way to its content between its tags; the content of an image is taken out of the
tree, but is visited all the same.
-/

namespace LivePage

open Markdown

structure Rules (m : Type → Type) where
  fence : Option (RuleContext m → FenceToken → Text → m Block)
  linkOpen : Option (RuleContext m → LinkToken → m Text)
  image : Option (RuleContext m → Token → m Text)

namespace Rules

variable {m : Type → Type}

def none : Rules m := ⟨.none, .none, .none⟩

def builtin [Monad m] : Rules m := ⟨some renderFence, some renderLinkOpen, some renderImage⟩

def isEmpty (rules : Rules m) : Bool :=
  rules.fence.isNone && rules.linkOpen.isNone && rules.image.isNone

def toText (rules : Rules m) : Text :=
  let given (b : Bool) : Text := if b then "true" else "false"
  "RenderRules \x7b fence: ".toList ++ given rules.fence.isSome ++ ", link_open: ".toList ++
    given rules.linkOpen.isSome ++ ", image: ".toList ++ given rules.image.isSome ++
    " \x7d".toList

end Rules

/-- The markup of an image in the source, if its span covers any. A span may begin at the bracket
behind the exclamation mark. -/
def imageMarkup? (source : Text) (starts : List Nat) (span : Span) : Option Text :=
  (span.range? starts).bind fun (first, last) =>
    (source.slice? first last).bind fun shown =>
      let behindMark := Text.startsWith shown "[" &&
        ((source.slice? 0 first).any fun before => Text.endsWith before "!")
      let markup := if behindMark then '!' :: shown else shown
      if Text.startsWith markup "![" && (Text.endsWith markup ")" || Text.endsWith markup "]") then
        some markup
      else none

def imageToken (source : Text) (starts : List Nat) (node : Node) (target : Target) : ImageToken :=
  let alt := node.inlineText
  let content := (imageMarkup? source starts node.span).getD ("![".toList ++ alt ++ "]".toList)
  ⟨content, [("src", target.url), ("alt", alt), ("title", target.title)]⟩

/-- What the walk through a document uses: the rules, what they may use, and the source. -/
structure Overrides (m : Type → Type) where
  rules : Rules m
  context : RuleContext m
  source : Text
  starts : List Nat

/-- A node that is known by its place in the preorder of the document as it was at first. Nodes that
are put in later have none. -/
inductive Placed where
  | mk (place : Option Nat) (value : Value) (span : Span) (children : List Placed)
  deriving Inhabited

namespace Placed

def html (s : Text) : Placed := mk none (.raw s) default []

mutual

/-- A tree whose root has the place `index`. -/
def ofNode (index : Nat) : Node → Placed
  | .mk v span children => mk (some index) v span (ofNodes (index + 1) children)

def ofNodes (index : Nat) : List Node → List Placed
  | [] => []
  | n :: rest => ofNode index n :: ofNodes (index + n.size) rest

end

mutual

def toNode : Placed → Node
  | mk _ v span children => .mk v span (toNodes children)

def toNodes : List Placed → List Node
  | [] => []
  | n :: rest => n.toNode :: toNodes rest

end

mutual

def find? (index : Nat) : Placed → Option Placed
  | mk place v span children =>
      if place = some index then some (mk place v span children) else findAmong? index children

def findAmong? (index : Nat) : List Placed → Option Placed
  | [] => none
  | n :: rest =>
      match n.find? index with
      | some found => some found
      | none => findAmong? index rest

end

mutual

def replace (index : Nat) (others : List Placed) : Placed → List Placed
  | mk place v span children =>
      if place = some index then others else [mk place v span (replaceAmong index others children)]

def replaceAmong (index : Nat) (others : List Placed) : List Placed → List Placed
  | [] => []
  | n :: rest => n.replace index others ++ replaceAmong index others rest

end

end Placed

/-- A document in the course of its changes: the nodes that stand in it, and the nodes that were
taken out. -/
structure Revision where
  standing : List Placed
  removed : List Placed
  deriving Inhabited

namespace Revision

def ofNode (root : Node) : Revision := ⟨[.ofNode 0 root], []⟩

def find? (r : Revision) (index : Nat) : Option Placed :=
  Placed.findAmong? index (r.standing ++ r.removed)

def replace (r : Revision) (index : Nat) (others : List Placed) : Revision :=
  ⟨Placed.replaceAmong index others r.standing, Placed.replaceAmong index others r.removed⟩

def remove (r : Revision) (nodes : List Placed) : Revision := { r with removed := r.removed ++ nodes }

end Revision

namespace Overrides

variable {m : Type → Type} [Monad m]

/-- Visits the node with a place: the document after it, and the block that was made. -/
def visit (o : Overrides m) (index : Nat) (r : Revision) : m (Revision × List Block) :=
  match r.find? index with
  | none => return (r, [])
  | some (.mk place v span children) =>
      match v with
      | .codeBlock code =>
          match code.fenced, o.rules.fence with
          | true, some rule => do
              let id := blockId o.context.options.idPrefix index
              let block ← rule o.context ⟨code.literal, code.info⟩ id
              return (r.replace index [.mk place (.raw block.html) span children], [block])
          | _, _ => return (r, [])
      | .link target =>
          match o.rules.linkOpen with
          | some rule => do
              let opening ← rule o.context ⟨target.url, target.title⟩
              return (r.replace index (.html opening :: children ++ [.html renderLinkClose]), [])
          | none => return (r, [])
      | .image target =>
          match o.rules.image with
          | some rule => do
              let node := Placed.toNode (.mk place v span children)
              let html ← rule o.context (.image (imageToken o.source o.starts node target))
              return ((r.replace index [.mk place (.raw html) span []]).remove children, [])
          | none => return (r, [])
      | _ => return (r, [])

def visitAll (o : Overrides m) : List Nat → Revision → m (Revision × List Block)
  | [], r => return (r, [])
  | index :: rest, r => do
      let (r, blocks) ← o.visit index r
      let (r, more) ← o.visitAll rest r
      return (r, blocks ++ more)

/-- Applies the rules to a document. Without any rule the document stays as it is. -/
def apply (o : Overrides m) (root : Node) : m (Node × List Block) :=
  if o.rules.isEmpty then return (root, [])
  else do
    let (r, blocks) ← o.visitAll (List.range root.size) (.ofNode root)
    match Placed.toNodes r.standing with
    | [root] => return (root, blocks)
    | nodes => return (.mk .document root.span nodes, blocks)

end Overrides
end LivePage
