import LivePage.Render.Token
import LivePage.Text.Category

/-!
Fenced code as HTML. A fence labelled with the chart language becomes an empty placeholder that
carries the body of the fence in an attribute; any other becomes a code block with a control that
copies it.
-/

namespace LivePage

variable {m : Type → Type} [Monad m]

def attr (name value : Text) : Text :=
  ' ' :: name ++ "=\"".toList ++ value ++ ['\x22']

def chartPlaceholder (ctx : RuleContext m) (content id : Text) : m Text := do
  let label ← ctx.escaper.text ctx.options.chartLabel
  let option ← ctx.escaper.attr content
  let height := Text.ofNat ctx.options.chartHeight
  return "<div class=\"echarts-block-wrapper\">\n<div class=\"code-header\">".toList
    ++ "<span class=\"code-lang\">".toList ++ label ++ "</span></div>\n<div".toList ++ attr "id" id
    ++ attr "class" "echarts-chart" ++ attr "data-option" option
    ++ attr "style" ("width: 100%; height: ".toList ++ height ++ "px; max-width: 100%;".toList)
    ++ "></div>\n</div>\n".toList

/-- Highlighted code, if it is asked for and there is a highlighter that knows the language. -/
def highlighted? (ctx : RuleContext m) (content language : Text) : Option Text :=
  if language.isEmpty || !ctx.options.highlightCode then none
  else ctx.highlighter.bind fun h => (h.highlight content language).toOption

def codeBlock (ctx : RuleContext m) (content language id : Text) : m Text := do
  let copyLabel ← ctx.escaper.text ctx.options.copyLabel
  let languageSpan ← do
    if language.isEmpty then pure []
    else
      let shown ← ctx.escaper.text language
      pure ("<span class=\"code-lang\">".toList ++ shown ++ "</span>".toList)
  let classes ← do
    if language.isEmpty then pure "hljs".toList
    else
      let name ← ctx.escaper.attr language
      pure ("hljs ".toList ++ name)
  let code ← match highlighted? ctx content language with
    | some html => pure html
    | none => ctx.escaper.text content
  return "<div class=\"code-block-wrapper\">\n<div class=\"code-header\">".toList ++ languageSpan
    ++ "<button class=\"copy-btn\" type=\"button\" data-action=\"copy-code\"".toList
    ++ attr "data-target" id ++ ['>'] ++ copyLabel ++ "</button></div>\n<pre><code".toList
    ++ attr "id" id ++ attr "class" classes ++ ['>'] ++ code
    ++ "</code></pre>\n</div>\n".toList

def renderFence (ctx : RuleContext m) (token : FenceToken) (id : Text) : m Block := do
  let label := Text.trimBlank token.info
  if !label.isEmpty && label = ctx.options.chartLanguage then
    let html ← chartPlaceholder ctx token.content id
    return ⟨id, .chart, html⟩
  else
    let language := Text.firstWord Text.isBlank label
    let html ← codeBlock ctx token.content language id
    return ⟨id, .code language, html⟩

end LivePage
