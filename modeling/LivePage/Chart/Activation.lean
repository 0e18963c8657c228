import LivePage.Chart.Engine
import LivePage.Html.Select
import LivePage.Html.Serialize
import LivePage.Recovery

/-!
Activation of the charts of a document. A pass visits the chart elements in document order, as they
were when it began. It latches each before anything else, so that no later pass takes it up again,
whatever became of it. One that fails loses its content and does not keep the others from being
drawn.
-/

namespace LivePage

open Html

/-- How many elements a pass has drawn, found latched, found without a declaration, and failed at.
-/
structure Report where
  activated : Nat := 0
  skipped : Nat := 0
  missing : Nat := 0
  failed : Nat := 0
  deriving DecidableEq, Inhabited

def Report.visited (r : Report) : Nat := r.activated + r.missing + r.failed

/-- A pass so far. -/
structure Pass where
  dom : Dom
  report : Report := {}
  logs : List LogRecord := []
  /-- The elements whose declarations were decoded, in order. -/
  decoded : List NodeId := []
  drawn : List (NodeId × Declaration) := []
  deriving Inhabited

def isActivated (dom : Dom) (i : NodeId) : Bool := dom.hasAttribute i latchAttribute

namespace Pass

def fail (p : Pass) (i : NodeId) (message : Text) : Pass :=
  { p with
    dom := p.dom.removeChildren i
    report := { p.report with failed := p.report.failed + 1 }
    logs := p.logs ++ [⟨.error, "Failed to initialize chart: ".toList ++ message⟩] }

def take (p : Pass) (i : NodeId) (declaration : Declaration) (drawing : Drawing) : Pass :=
  let p := { p with dom := drawing.dom, drawn := p.drawn ++ [(i, declaration)] }
  match drawing.error with
  | none => { p with report := { p.report with activated := p.report.activated + 1 } }
  | some e => p.fail i e.message

def visit {m : Type → Type} [Monad m] (engine : Engine m) (p : Pass) (i : NodeId) : m Pass :=
  if isActivated p.dom i then
    pure { p with report := { p.report with skipped := p.report.skipped + 1 } }
  else
    let p := { p with dom := p.dom.setAttribute i latchAttribute "1" }
    match p.dom.attribute? i optionAttribute with
    | none | some [] => pure { p with report := { p.report with missing := p.report.missing + 1 } }
    | some raw =>
        let p := { p with decoded := p.decoded ++ [i] }
        match decodeDeclaration raw with
        | .ok declaration => p.take i declaration <$> engine p.dom i declaration
        | .error e => pure (p.fail i e.message)

end Pass

def chartElements (d : Document) : List NodeId := d.withClass chartClass

def activateCharts {m : Type → Type} [Monad m] (engine : Engine m) (d : Document) : m Pass :=
  (chartElements d).foldlM (Pass.visit engine) { dom := d.dom }

/-- Changes an HTML text as a document; if that is interrupted, the text stays as it is. -/
def changeHtml (html : Text) (change : Document → Except Interruption Document) :
    Text × List LogRecord :=
  processSafe html (fun s => (change (Document.parse s)).map Document.write) html

structure Hydrated where
  html : Text
  report : Report := {}
  logs : List LogRecord := []
  deriving Inhabited

/-- Visits elements one after the other. If the engine is broken off, what had become of the pass
until then is given with the interruption. -/
def Pass.visitAll (engine : Engine (Except Interruption)) :
    Pass → List NodeId → Pass × Option Interruption
  | p, [] => (p, none)
  | p, i :: elements =>
      match p.visit engine i with
      | .ok p' => visitAll engine p' elements
      | .error interruption => (p, some interruption)

/-- Activates the charts of an HTML text. If the engine is broken off, the text stays as it is, and
nothing is reported. -/
def hydrateHtml (engine : Engine (Except Interruption)) (html : Text) : Hydrated :=
  if html.isEmpty then { html := [] }
  else
    let d := Document.parse html
    match Pass.visitAll engine { dom := d.dom } (chartElements d) with
    | (pass, none) => ⟨Document.write { d with dom := pass.dom }, pass.report, pass.logs⟩
    | (pass, some interruption) => ⟨html, {}, pass.logs ++ [interruption.record]⟩

end LivePage
