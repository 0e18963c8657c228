import LivePage.Json.Reader

/-!
Reading records out of a draft. The fields of a record come as an object, by name, or as an array,
in order. They are read as they are met, so a value of the wrong type is reported before a fault
that stands behind it, and after one that stands in front.
-/

namespace LivePage.Json

mutual

def Draft.ofJson : Json → Draft
  | .null => .null
  | .bool b => .bool b
  | .number n => .number n
  | .string s => .string s
  | .array items => .array (Draft.ofItems items) none
  | .object fields => .object (Draft.ofFields fields) none

def Draft.ofItems : List Json → List Draft
  | [] => []
  | v :: rest => Draft.ofJson v :: Draft.ofItems rest

def Draft.ofFields : List (Text × Json) → List (Text × Draft)
  | [] => []
  | (k, v) :: rest => (k, Draft.ofJson v) :: Draft.ofFields rest

end

def Draft.mismatch (expected : Text) : Draft → Cause
  | .null => .wrongType .null expected
  | .bool b => .wrongType (.bool b) expected
  | .number n => .wrongType (.number n) expected
  | .string s => .wrongType (.string s) expected
  | .array _ _ => .wrongType .sequence expected
  | .object _ _ => .wrongType .map expected
  | .broken f => f.cause

abbrev Reading (α : Type) := Draft → Except Cause α

def readBool : Reading Bool
  | .bool b => .ok b
  | d => .error (d.mismatch "a boolean")

def readText : Reading Text
  | .string s => .ok s
  | d => .error (d.mismatch "a string")

def readWord32 : Reading Nat
  | .number (.int n) =>
      if 0 ≤ n && n < 4294967296 then .ok n.toNat
      else .error (.wrongValue (.number (.int n)) "u32")
  | d => .error (d.mismatch "u32")

def readOption {α : Type} (read : Reading α) : Reading (Option α)
  | .null => .ok none
  | d => (read d).map some

/-- Any value, of which only the faults matter. -/
def skipValue (d : Draft) : Except Cause Unit :=
  match d.value with
  | .ok _ => .ok ()
  | .error f => .error f.cause

def faultOf : Option Fault → Except Cause Unit
  | none => .ok ()
  | some f => .error f.cause

def readEach {α : Type} (read : Reading α) : List Draft → Except Cause (List α)
  | [] => .ok []
  | d :: rest => do
      let a ← read d
      let others ← readEach read rest
      return a :: others

def readList {α : Type} (read : Reading α) : Reading (List α)
  | .array items stop => do
      let found ← readEach read items
      faultOf stop
      return found
  | d => .error (d.mismatch "a sequence")

/-- A field of a record under construction: its name, whether it has to be there, and how its value
is taken in. -/
structure Field (σ : Type) where
  name : Text
  required : Bool
  read : σ → Draft → Except Cause σ

/-- How a record is read: as it calls itself in messages, its fields in order, and whether it
refuses others. `fromText` tells whether the value is being read from text or was at hand. -/
structure Shape (σ : Type) where
  title : Text
  fields : List (Field σ)
  closed : Bool
  fromText : Bool

namespace Shape

variable {σ : Type}

def names (shape : Shape σ) : List Text := shape.fields.map Field.name

/-- What is wrong with an array that goes on after the last field. -/
def overrun (shape : Shape σ) (count : Nat) (items : List Draft) (stop : Option Fault) :
    Except Cause Unit :=
  if !shape.fromText then
    if items.isEmpty then .ok ()
    else .error (.wrongLength (count + items.length) "fewer elements in array")
  else if !items.isEmpty then .error .trailingCharacters
  else match stop with
    | none => .ok ()
    | some f =>
        match f.cause with
        | .endInList => .error .endInList
        | .trailingComma => .error .trailingComma
        | _ => .error .trailingCharacters

def readItems (shape : Shape σ) : Nat → List (Field σ) → σ → List Draft → Option Fault →
    Except Cause σ
  | count, [], acc, items, stop => do
      shape.overrun count items stop
      return acc
  | count, field :: fields, acc, [], stop => do
      faultOf stop
      if (field :: fields).any Field.required then
        let size := shape.fields.length
        throw (.wrongLength count ("struct ".toList ++ shape.title ++ " with ".toList ++
          Text.ofNat size ++ (if size = 1 then " element" else " elements").toList))
      return acc
  | count, field :: fields, acc, d :: items, stop => do
      let acc ← field.read acc d
      shape.readItems (count + 1) fields acc items stop

def readFields (shape : Shape σ) (seen : List Text) (acc : σ) :
    List (Text × Draft) → Option Fault → Except Cause σ
  | [], stop => do
      faultOf stop
      match shape.fields.find? fun f => f.required && !seen.contains f.name with
      | some f => throw (.missingField f.name)
      | none => return acc
  | (name, d) :: rest, stop =>
      match shape.fields.find? fun f => f.name = name with
      | some field =>
          if seen.contains name then .error (.duplicateField name)
          else do
            let acc ← field.read acc d
            shape.readFields (name :: seen) acc rest stop
      | none =>
          if shape.closed then .error (.unknownField name shape.names)
          else do
            skipValue d
            shape.readFields seen acc rest stop

/-- Reads a record, from the values that its fields have at first. -/
def read (shape : Shape σ) (start : σ) : Reading σ
  | .array items stop => shape.readItems 0 shape.fields start items stop
  | .object fields stop => shape.readFields [] start fields stop
  | d => .error (d.mismatch ("struct ".toList ++ shape.title))

end Shape

def readDocument {α : Type} (read : Reading α) (s : Text) : Except Cause α :=
  let (d, rest) := draft s
  match read d with
  | .error cause => .error cause
  | .ok a =>
      match checkEnd rest with
      | .error f => .error f.cause
      | .ok () => .ok a

end LivePage.Json
