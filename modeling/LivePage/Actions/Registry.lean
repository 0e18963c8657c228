import LivePage.Html.Document
import LivePage.Text.Quoted

/-!
Actions of a page by name. A click belongs to the nearest element around it that names an action,
and to no other: if that name has no handler the click fails, whatever stands further out.
-/

namespace LivePage

open Html

def actionAttribute : Text := "data-action"

inductive ActionError where
  | unknownAction (name : Text)
  | targetNotFound (id : Text)
  | missingAttribute (name : Text)
  deriving DecidableEq, Inhabited

def ActionError.message : ActionError → Text
  | unknownAction name => "no handler registered for action '".toList ++ name ++ ['\x27']
  | targetNotFound id => "element '".toList ++ id ++ "' not found in document".toList
  | missingAttribute name =>
      "action element is missing the '".toList ++ name ++ "' attribute".toList

/-- Carries out an action for an element of a document, in the state of a host. -/
abbrev Handler (σ : Type) := Document → NodeId → σ → σ × Except ActionError Unit

/-- The handlers, each under its own name. -/
structure Registry (σ : Type) where
  handlers : List (Text × Handler σ) := []

namespace Registry

variable {σ : Type}

instance : Inhabited (Registry σ) := ⟨{}⟩

def register (r : Registry σ) (name : Text) (handler : Handler σ) : Registry σ :=
  ⟨r.handlers.filter (fun h => h.1 ≠ name) ++ [(name, handler)]⟩

def find? (r : Registry σ) (name : Text) : Option (Handler σ) :=
  (r.handlers.find? fun h => h.1 = name).map Prod.snd

def isRegistered (r : Registry σ) (name : Text) : Bool := (r.find? name).isSome

/-- The nearest element at or above a node that names an action, with the name. -/
def actionAt? (d : Document) (clicked : NodeId) : Option (NodeId × Text) :=
  (d.dom.ancestors clicked).findSome? fun i =>
    (d.dom.attribute? i actionAttribute).map fun n => (i, n)

/-- Carries out the action that a click belongs to, and names it. -/
def dispatch (r : Registry σ) (d : Document) (clicked : NodeId) (state : σ) :
    σ × Except ActionError (Option Text) :=
  match actionAt? d clicked with
  | none => (state, .ok none)
  | some (i, name) =>
      match r.find? name with
      | none => (state, .error (.unknownAction name))
      | some handler =>
          match handler d i state with
          | (state, .ok ()) => (state, .ok (some name))
          | (state, .error e) => (state, .error e)

def names (r : Registry σ) : List Text :=
  (r.handlers.map Prod.fst).mergeSort fun s t => !Text.lt t s

def toText (r : Registry σ) : Text :=
  "ActionRegistry \x7b actions: [".toList ++ Text.join ", " (r.names.map Text.quoted) ++
    "] \x7d".toList

end Registry
end LivePage
