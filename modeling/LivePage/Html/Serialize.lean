import LivePage.Html.Document

/-!
Writing a document down. Text and attribute values are escaped so that they are read back as they
are; the text of scripts and the like is written as it stands, since no references are read there.
-/

namespace LivePage.Html

def escapeTextChar (c : Char) : Text :=
  match c with
  | '&' => "&amp;"
  | '<' => "&lt;"
  | '>' => "&gt;"
  | '\xa0' => "&nbsp;"
  | _ => [c]

def escapeValueChar (c : Char) : Text := if c = '\x22' then "&quot;" else escapeTextChar c

def writeAttribute (a : Attribute) : Text :=
  ' ' :: a.name ++ "=\"".toList ++ a.value.flatMap escapeValueChar ++ ['\x22']

namespace Dom

/-- What stands in an element: for a template that is in its fragment. -/
def contentsOf (d : Dom) (e : Element) (i : NodeId) : List NodeId :=
  d.children (e.inside.getD i)

/-- Writes a node and what is below it down to a depth. In an element that has no content the tags
of elements are left out, but not their text. -/
def writeTo (d : Dom) : Nat → (raw hidden : Bool) → NodeId → Text
  | 0, _, _, _ => []
  | depth + 1, raw, hidden, i =>
      match d.content? i with
      | none => []
      | some .document | some .fragment => (d.children i).flatMap (d.writeTo depth raw hidden)
      | some (.doctype name) => "<!DOCTYPE ".toList ++ name ++ ['>']
      | some (.text s) => if raw then s else s.flatMap escapeTextChar
      | some (.comment s) => "<!--".toList ++ s ++ "-->".toList
      | some (.element e) =>
          let name : ElementName := ⟨e.space, e.name⟩
          let inner := (d.contentsOf e i).flatMap
            (d.writeTo depth (hasRawText name) (hidden || isVoid name))
          if hidden then inner
          else
            let opening := '<' :: e.name ++ e.attributes.flatMap writeAttribute ++ ['>']
            if isVoid name then opening ++ inner
            else opening ++ inner ++ "</".toList ++ e.name ++ ['>']

def write (d : Dom) (i : NodeId) : Text := d.writeTo d.size false false i

end Dom

/-- The content of the body, or all of the document if it has no body. -/
def Document.write (d : Document) : Text :=
  match d.body? with
  | some body => (d.dom.children body).flatMap d.dom.write
  | none => d.dom.write d.root

end LivePage.Html
