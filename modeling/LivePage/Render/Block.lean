import LivePage.Typography.QuoteStyle

/-!
The options of rendering with their defaults, and what a render gives besides HTML: the blocks made
from fences, each under the identifier that its element carries, and the title.
-/

namespace LivePage

structure Options where
  /-- Raw HTML of the document goes through to the output. -/
  html : Bool := true
  breaks : Bool := true
  linkify : Bool := true
  typographer : Bool := true
  quotes : QuoteStyle := .straight
  gfm : Bool := true
  highlightCode : Bool := false
  chartLanguage : Text := "echarts".toList
  chartLabel : Text := "Chart".toList
  chartHeight : Nat := 300
  copyLabel : Text := "Copy".toList
  /-- Put in front of the identifiers of blocks, for pages that show several documents. -/
  idPrefix : Option Text := none
  deriving DecidableEq, Inhabited

/-- The identifier of the block at a place in the preorder of its document. -/
def blockId (lead : Option Text) (index : Nat) : Text :=
  match lead with
  | none | some [] => "code-block-".toList ++ Text.ofNat index
  | some lead => lead ++ "-code-block-".toList ++ Text.ofNat index

inductive BlockKind where
  | code (language : Text)
  | chart
  deriving DecidableEq, Inhabited

structure Block where
  id : Text
  kind : BlockKind
  html : Text
  deriving DecidableEq, Inhabited

structure Rendered where
  html : Text := []
  blocks : List Block := []
  title : Option Text := none
  deriving DecidableEq, Inhabited

def Rendered.charts (r : Rendered) : List Block := r.blocks.filter fun b => b.kind = .chart

end LivePage
