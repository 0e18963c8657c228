import LivePage.Json.Reader
import LivePage.Text.Category

/-!
Single settings, written with the dotted name of a key, an equals sign and the value. The value is
JSON if it reads as that, and the text itself otherwise. Tables on the way to the key are made where
there is nothing, but nothing is turned into a table.
-/

namespace LivePage

open Json

/-- Tables by the names in `path`, and in the last one the key that gets the value. -/
structure Override where
  path : List Text
  key : Text
  value : Json
  deriving Inhabited

inductive OverrideError where
  | noEqualsSign (text : Text)
  | emptyKey (text : Text)
  /-- A table was to be entered where there is something that is not one. -/
  | notTable (key name : Text)
  | parentNotTable (key : Text)
  deriving DecidableEq, Inhabited

namespace OverrideError

def malformed (text problem : Text) : Text :=
  "Invalid config override format: '".toList ++ text ++ "'. ".toList ++ problem

def message : OverrideError → Text
  | noEqualsSign text => malformed text "Expected KEY=VALUE"
  | emptyKey text => malformed text "Empty key"
  | notTable key name =>
      "Cannot override '".toList ++ key ++ "': '".toList ++ name ++ "' is not a table".toList
  | parentNotTable key =>
      "Cannot override '".toList ++ key ++ "': parent is not a table".toList

end OverrideError

namespace Override

def name (o : Override) : Text := Text.join ['.'] (o.path ++ [o.key])

def readValue (s : Text) : Json :=
  match Json.parse s with
  | .ok v => v
  | .error _ => .string s

def parse (s : Text) : Except OverrideError Override :=
  match Text.splitFirst? '=' s with
  | none => .error (.noEqualsSign s)
  | some (name, value) =>
      let name := Text.trimBlank name
      if name.isEmpty then .error (.emptyKey s)
      else
        let steps := Text.split (· = '.') name
        .ok ⟨steps.dropLast, steps.getLast?.getD [], readValue (Text.trimBlank value)⟩

/-- Goes into the tables of a path, and sets the key in the last one. A table that is missing is put
in before the way goes on, and what has been put in stays, also where the way ends at something that
is not a table. -/
def set (o : Override) : List Text → Json → Json × Except OverrideError Unit
  | [], .object fields => (.object (Fields.insert fields o.key o.value), .ok ())
  | [], v => (v, .error (.parentNotTable o.name))
  | step :: path, .object fields =>
      let (inner, outcome) := o.set path ((Fields.get? fields step).getD (.object []))
      (.object (Fields.insert fields step inner), outcome)
  | step :: _, v => (v, .error (.notTable o.name step))

/-- What a value becomes under a setting, and whether the setting could be made. -/
def apply (o : Override) (v : Json) : Json × Except OverrideError Unit := o.set o.path v

end Override

namespace Json

def override (v : Json) (s : Text) : Json × Except OverrideError Unit :=
  match Override.parse s with
  | .error e => (v, .error e)
  | .ok o => o.apply v

/-- Applies settings in order, up to the first that cannot be made. -/
def overrideAll (v : Json) : List Text → Json × Except OverrideError Unit
  | [] => (v, .ok ())
  | s :: settings =>
      match v.override s with
      | (v, .ok ()) => v.overrideAll settings
      | (v, .error e) => (v, .error e)

end Json
end LivePage
