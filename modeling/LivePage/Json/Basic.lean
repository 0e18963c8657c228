import LivePage.Text.Basic
import LivePage.Number.Shortest

/-!
JSON values. An object keeps its fields in the order in which their keys were first written, and a
key has one value: writing it again replaces the value and keeps the place. A path is a list of
keys, and the value at a path is found by going through objects only. A value is merged into what
lies below it: objects key by key, and anything else takes the place of what was there.
-/

namespace LivePage

inductive JsonNumber where
  | int (n : Int)
  | real (x : Binary64)
  deriving DecidableEq, Inhabited

inductive Json where
  | null
  | bool (b : Bool)
  | number (n : JsonNumber)
  | string (s : Text)
  | array (items : List Json)
  | object (fields : List (Text × Json))
  deriving Inhabited, BEq

namespace Json

abbrev Fields := List (Text × Json)

def Fields.get? (fields : Fields) (key : Text) : Option Json :=
  match fields with
  | [] => none
  | (k, v) :: rest => if k = key then some v else Fields.get? rest key

/-- Gives `key` the value `v`, in its place if it has one and at the end otherwise. -/
def Fields.insert (fields : Fields) (key : Text) (v : Json) : Fields :=
  match fields with
  | [] => [(key, v)]
  | (k, w) :: rest => if k = key then (k, v) :: rest else (k, w) :: Fields.insert rest key v

def Fields.keys (fields : Fields) : List Text := fields.map Prod.fst

def Fields.ofList (pairs : List (Text × Json)) : Fields :=
  pairs.foldl (fun fields p => fields.insert p.1 p.2) []

def isObject : Json → Bool
  | .object _ => true
  | _ => false

def field? (v : Json) (key : Text) : Option Json :=
  match v with
  | .object fields => Fields.get? fields key
  | _ => none

/-- The value reached from `v` by the keys of a path. -/
def at? (v : Json) : List Text → Option Json
  | [] => some v
  | key :: path => (v.field? key).bind fun w => w.at? path

def int (n : Int) : Json := .number (.int n)

def nat (n : Nat) : Json := .number (.int n)

mutual

def merge : Json → Json → Json
  | .object below, .object above => .object (mergeFields below above)
  | _, above => above

def mergeFields (below : Fields) : List (Text × Json) → Fields
  | [] => below
  | (key, v) :: above =>
      let v := match below.get? key with
        | some w => merge w v
        | none => v
      mergeFields (below.insert key v) above

end

def mergeAll (layers : List Json) : Json := layers.foldl merge (.object [])

end Json
end LivePage
