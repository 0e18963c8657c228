import LivePage.Markdown.Label

/-!
Footnotes. References are numbered in the order in which their notes are first referred to; a
reference without a note is text. The notes that are referred to move to the end of the document in
that order, and the others are dropped.
-/

namespace LivePage.Markdown

/-- A note: its key for comparison, its name, its node, and, if it is referred to, its number and
how often. -/
structure Note where
  key : Text
  name : Text
  node : Node
  number : Option Nat
  references : Nat
  deriving Inhabited

/-- Adds a note; one of the same key is replaced. -/
def addNote (notes : List Note) (note : Note) : List Note :=
  notes.filter (fun n => n.key ≠ note.key) ++ [note]

mutual

/-- The notes of a tree; a note inside a note is not looked for. -/
def collectNotes (notes : List Note) : Node → List Note
  | .mk v span children =>
      match v with
      | .footnoteDefinition name _ =>
          addNote notes ⟨foldLabel name, tidyLabel name, .mk v span children, none, 0⟩
      | _ => collectNotesAll notes children

def collectNotesAll (notes : List Note) : List Node → List Note
  | [] => notes
  | n :: rest => collectNotesAll (collectNotes notes n) rest

end

def refer (key : Text) (notes : List Note) : List Note :=
  let next := (notes.filter fun n => n.number.isSome).length + 1
  notes.map fun n =>
    if n.key = key then
      { n with number := some (n.number.getD next), references := n.references + 1 }
    else n

mutual

def numberReferences (notes : List Note) : Node → List Note × Node
  | .mk v span children =>
      match v with
      | .footnoteReference name _ _ =>
          let key := foldLabel name
          let notes := refer key notes
          match notes.find? fun n => n.key = key with
          | some note =>
              (notes, .mk (.footnoteReference note.name note.references (note.number.getD 0)) span [])
          | none => (notes, .mk (.text ("[^".toList ++ name ++ [']'])) span [])
      | _ =>
          let (notes, children) := numberReferencesAll notes children
          (notes, .mk v span children)

def numberReferencesAll (notes : List Note) : List Node → List Note × List Node
  | [] => (notes, [])
  | n :: rest =>
      let (notes, n) := numberReferences notes n
      let (notes, rest) := numberReferencesAll notes rest
      (notes, n :: rest)

end

mutual

def notesOf : Node → List (Text × Node)
  | .mk v span children =>
      match v with
      | .footnoteDefinition name _ => [(foldLabel name, .mk v span children)]
      | _ => notesOfAll children

def notesOfAll : List Node → List (Text × Node)
  | [] => []
  | n :: rest => notesOf n ++ notesOfAll rest

end

mutual

/-- The tree without notes. -/
def dropNotes : Node → Node
  | .mk v span children => .mk v span (dropNotesAll children)

def dropNotesAll : List Node → List Node
  | [] => []
  | n :: rest =>
      match n.value with
      | .footnoteDefinition _ _ => dropNotesAll rest
      | _ => dropNotes n :: dropNotesAll rest

end

/-- The note as it stands at the end: under its tidy name, with its number of references. -/
def Note.finish (note : Note) (node : Node) : Node :=
  .mk (.footnoteDefinition note.name note.references) node.span node.children

def Note.before (a b : Note) : Bool := (a.number.getD 0) ≤ (b.number.getD 0)

/-- A document with its references numbered and its notes at the end. -/
def placeNotes (root : Node) : Node :=
  let notes := collectNotes [] root
  let (notes, root) := numberReferences notes root
  if notes.isEmpty then root
  else
    let numbered := notesOf root
    let used := (notes.filter fun n => n.number.isSome).mergeSort Note.before
    let placed := used.map fun note =>
      note.finish (((numbered.reverse.lookup note.key)).getD note.node)
    let root := dropNotes root
    .mk root.value root.span (root.children ++ placed)

end LivePage.Markdown
