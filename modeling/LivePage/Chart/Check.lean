import LivePage.Chart.Activation

/-!
Checking the chart declarations of rendered HTML without drawing them.
-/

namespace LivePage

open Html

/-- A chart element with what is wrong with its declaration. -/
structure ChartProblem where
  id : Text
  error : Text
  deriving DecidableEq, Inhabited

def ChartProblem.record (p : ChartProblem) : LogRecord :=
  ⟨.error, p.id ++ ": ".toList ++ p.error⟩

def chartProblem? (dom : Dom) (i : NodeId) : Option ChartProblem :=
  let id := (dom.attribute? i "id").getD []
  match dom.attribute? i optionAttribute with
  | none => some ⟨id, "missing ".toList ++ optionAttribute⟩
  | some raw =>
      match decodeDeclaration raw with
      | .ok _ => none
      | .error e => some ⟨id, e.message⟩

def chartProblems (html : Text) : List ChartProblem :=
  let d := Document.parse html
  (chartElements d).filterMap (chartProblem? d.dom)

end LivePage
