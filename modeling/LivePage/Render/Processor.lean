import LivePage.Markdown.Document
import LivePage.Markdown.Html
import LivePage.Recovery
import LivePage.Render.Rules
import LivePage.Typography.Typographer

/-!
Rendering of a document. Line breaks are normalized, the text is parsed, typography and the rules
are applied to the tree, and the tree is written as HTML. The title is that of the tree as it was
parsed.
-/

namespace LivePage

open Markdown

namespace Options

def parseOptions (o : Options) : ParseOptions :=
  ⟨⟨o.gfm, o.gfm⟩, ⟨o.typographer, o.linkify, o.gfm, ⟨o.gfm⟩⟩⟩

def htmlOptions (o : Options) : HtmlOptions := ⟨o.html, o.breaks⟩

end Options

/-- Options with the rules and the means of rendering. -/
structure Processor (m : Type → Type) where
  options : Options
  rules : Rules m
  escaper : Escaper m
  highlighter : Option Highlighter

namespace Processor

variable {m : Type → Type} [Monad m]

def ofOptions (options : Options) : Processor m := ⟨options, .builtin, .html, none⟩

def highlighting (p : Processor m) : Bool := p.options.highlightCode && p.highlighter.isSome

def context (p : Processor m) : RuleContext m := ⟨p.escaper, p.options, p.highlighter⟩

def styled (p : Processor m) (source : Text) (root : Node) : Node :=
  if p.options.typographer then Typographer.apply ⟨p.options.quotes, some source⟩ root else root

/-- A tree with the rules applied, and the blocks that they made. -/
def applyRules (p : Processor m) (source : Text) (root : Node) : m (Node × List Block) :=
  Overrides.apply ⟨p.rules, p.context, source, Text.lineStarts source⟩ root

def render (p : Processor m) (markdown : Text) : m Rendered :=
  if markdown.isEmpty then return {}
  else do
    let source := Text.normalizeBreaks markdown
    let root := parse p.options.parseOptions source
    let (tree, blocks) ← p.applyRules source (p.styled source root)
    return ⟨toHtml p.options.htmlOptions tree, blocks, root.title?⟩

end Processor

/-- What takes the place of a document whose rendering was interrupted. -/
def criticalError : Rendered :=
  { html := "<div class=\"error\">Critical error processing markdown content</div>" }

/-- Renders a document; an interruption is logged and leaves an error in its place. -/
def renderSafely (p : Processor (Except Interruption)) (markdown : Text) :
    Rendered × List LogRecord :=
  match p.render markdown with
  | .ok r => (r, [])
  | .error _ =>
      (criticalError, [⟨.error, "Panic during markdown processing: Any \x7b .. \x7d"⟩])

def renderMarkdown (markdown : Text) : Rendered := (renderSafely (.ofOptions {}) markdown).1

end LivePage
