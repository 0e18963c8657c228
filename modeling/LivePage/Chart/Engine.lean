import LivePage.Chart.Declaration
import LivePage.Html.Dom

/-!
What draws charts. An engine is given an element and the declaration read from it, and changes the
document; it may fail, and in a monad that allows it, it may be broken off. One engine draws nothing
itself but leaves the declaration in a script for the page to find.
-/

namespace LivePage

open Html

def chartClass : Text := "echarts-chart"

def optionAttribute : Text := "data-option"

def latchAttribute : Text := "data-echarts-inited"

inductive ChartError where
  | invalidOption (message : Text)
  | engine (message : Text)
  deriving DecidableEq, Inhabited

def ChartError.message : ChartError → Text
  | invalidOption message => "invalid chart option: ".toList ++ message
  | engine message => "chart engine failed: ".toList ++ message

/-- The document after drawing, and what went wrong if something did. -/
structure Drawing where
  dom : Dom
  error : Option ChartError := none

abbrev Engine (m : Type → Type) := Dom → NodeId → Declaration → m Drawing

/-- The text of a script: an end tag in it would end the script. -/
def scriptText (declaration : Declaration) : Text :=
  Text.replace "</" "<\\/" declaration.print

/-- Leaves the declaration as a script behind what the element holds. -/
def embedScript {m : Type → Type} [Pure m] : Engine m := fun dom container declaration =>
  let (dom, script) := dom.addElement .html "script"
    [⟨"type", "application/json"⟩, ⟨"class", "echarts-option"⟩]
  let (dom, text) := dom.add (.text (scriptText declaration))
  pure ⟨(dom.append script text).append container script, none⟩

end LivePage
