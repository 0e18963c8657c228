import LivePage.Chart.Activation
import LivePage.Command.Basic
import LivePage.Render.Processor

/-!
Rendering under a configuration, with the charts activated if that is wanted.
-/

namespace LivePage

/-- The processor of a configuration. A lead for identifiers that is given beside it counts first.
-/
def Config.processor (c : Config) (idPrefix : Option Text) :
    Except Failure (Processor (Except Interruption)) :=
  match c.markdown.toOptions with
  | .error e => .error (.ofConfig "Invalid markdown configuration" e)
  | .ok options =>
      match idPrefix.filter fun lead => !lead.isEmpty with
      | some lead => .ok (.ofOptions { options with idPrefix := some lead })
      | none => .ok (.ofOptions options)

/-- A rendered document, with the report of the activation if there was one. -/
structure Page where
  html : Text
  report : Option Report := none
  logs : List LogRecord := []
  deriving Inhabited

/-- Renders a document. Without charts there is nothing to activate. -/
def renderPage (p : Processor (Except Interruption)) (markdown : Text) (hydrate : Bool) : Page :=
  let (result, logs) := renderSafely p markdown
  if hydrate && !result.charts.isEmpty then
    let hydrated := hydrateHtml embedScript result.html
    ⟨hydrated.html, some hydrated.report, logs ++ hydrated.logs⟩
  else ⟨result.html, none, logs⟩

end LivePage
