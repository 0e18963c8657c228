import LivePage.Json.Typed
import LivePage.Render.Block

/-!
The result of a render stored as JSON, and read back. The kind of a block is an object that names
its variant under `type`, next to the fields of the variant.
-/

namespace LivePage

open Json

def BlockKind.toJson : BlockKind → Json
  | code language => .object [("type", .string "code"), ("language", .string language)]
  | chart => .object [("type", .string "chart")]

def Block.toJson (b : Block) : Json :=
  .object [("id", .string b.id), ("kind", b.kind.toJson), ("html", .string b.html)]

def optionalText : Option Text → Json
  | none => .null
  | some s => .string s

def Rendered.toJson (r : Rendered) : Json :=
  .object [("html", .string r.html), ("blocks", .array (r.blocks.map Block.toJson)),
    ("title", optionalText r.title)]

namespace BlockKind

inductive Variant where
  | code
  | chart

def readVariant : Reading Variant
  | .string s =>
      if s = "code".toList then .ok .code
      else if s = "chart".toList then .ok .chart
      else .error (.unknownVariant s ["code", "chart"])
  | d => .error (d.mismatch "variant identifier")

def codeShape : Shape Text :=
  ⟨"variant BlockKind::Code", [⟨"language", true, fun _ d => readText d⟩], false, false⟩

def splitVariant (found : Option Variant) :
    List (Text × Draft) → Option Fault → Except Cause (Option Variant × List (Text × Draft))
  | [], stop => do
      faultOf stop
      return (found, [])
  | (name, d) :: rest, stop =>
      if name = "type".toList then
        if found.isSome then .error (.duplicateField name)
        else do
          let variant ← readVariant d
          splitVariant (some variant) rest stop
      else do
        skipValue d
        let (variant, fields) ← splitVariant found rest stop
        return (variant, (name, d) :: fields)

def readInOrder (variant : Variant) (items : List Draft) : Except Cause BlockKind := do
  for d in items do
    skipValue d
  let counted (n : Nat) : Text := Text.ofNat n ++
    (if n = 1 then " element" else " elements").toList ++ " in sequence".toList
  match variant, items with
  | .chart, [] => return chart
  | .chart, items => throw (.wrongLength items.length (counted 0))
  | .code, [] => throw (.wrongLength 0 "struct variant BlockKind::Code with 1 element")
  | .code, d :: rest => do
      let language ← readText d
      if rest.isEmpty then return code language
      else throw (.wrongLength items.length (counted 1))

def read : Reading BlockKind
  | .object fields stop => do
      let (variant, fields) ← splitVariant none fields stop
      match variant with
      | none => throw (.missingField "type")
      | some .chart => return chart
      | some .code => do
          let language ← codeShape.readFields [] [] fields none
          return code language
  | .array [] stop => do
      faultOf stop
      throw (.missingField "type")
  | .array (d :: items) stop => do
      let variant ← readVariant d
      for d in items do
        skipValue d
      faultOf stop
      readInOrder variant items
  | d => .error (d.mismatch "internally tagged enum BlockKind")

end BlockKind

def Block.shape : Shape Block :=
  ⟨"RenderedBlock",
    [⟨"id", true, fun b d => (readText d).map fun s => { b with id := s }⟩,
     ⟨"kind", true, fun b d => (BlockKind.read d).map fun k => { b with kind := k }⟩,
     ⟨"html", true, fun b d => (readText d).map fun s => { b with html := s }⟩],
    false, true⟩

def Block.read : Reading Block := Block.shape.read ⟨[], .chart, []⟩

/-- A title may be left out of an object, but not out of an array. -/
def Rendered.shape (ordered : Bool) : Shape Rendered :=
  ⟨"MarkdownResult",
    [⟨"html", true, fun r d => (readText d).map fun s => { r with html := s }⟩,
     ⟨"blocks", true, fun r d => (readList Block.read d).map fun b => { r with blocks := b }⟩,
     ⟨"title", ordered, fun r d => (readOption readText d).map fun t => { r with title := t }⟩],
    false, true⟩

def Rendered.read : Reading Rendered
  | .array items stop => (Rendered.shape true).read {} (.array items stop)
  | d => (Rendered.shape false).read {} d

def Rendered.parse (s : Text) : Except Cause Rendered := readDocument Rendered.read s

end LivePage
