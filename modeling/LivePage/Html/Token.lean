import LivePage.Text.Basic

/-!
The tokens of an HTML document: tags with their attributes, runs of text, comments and document type
declarations.
-/

namespace LivePage.Html

structure Attribute where
  name : Text
  value : Text
  deriving DecidableEq, Inhabited

/-- Attributes keep the order in which they were added, and no two have one name. -/
abbrev Attributes := List Attribute

namespace Attributes

def get? (attributes : Attributes) (name : Text) : Option Text :=
  (attributes.find? fun a => a.name = name).map (·.value)

def contains (attributes : Attributes) (name : Text) : Bool :=
  attributes.any fun a => a.name = name

/-- Changes the value of an attribute, or adds it behind the others. -/
def set (attributes : Attributes) (name value : Text) : Attributes :=
  if attributes.contains name then
    attributes.map fun a => if a.name = name then { a with value := value } else a
  else attributes ++ [⟨name, value⟩]

/-- Removes an attribute; the last one takes its place. -/
def erase : Attributes → Text → Attributes
  | [], _ => []
  | a :: rest, name =>
      if a.name = name then
        match rest.getLast? with
        | some last => last :: rest.dropLast
        | none => []
      else a :: erase rest name

/-- Adds those of `others` whose names are new. -/
def addMissing (attributes others : Attributes) : Attributes :=
  attributes ++ others.filter fun a => !attributes.contains a.name

end Attributes

structure Tag where
  name : Text
  attributes : Attributes := []
  selfClosing : Bool := false
  deriving DecidableEq, Inhabited

structure Doctype where
  name : Text
  /-- The declaration is broken off, or has something else where a name or an identifier belongs. -/
  faulty : Bool := false
  deriving DecidableEq, Inhabited

inductive Token where
  | openTag (tag : Tag)
  | closeTag (name : Text)
  | text (run : Text)
  /-- The character NUL, which counts only in some places. -/
  | null
  | comment (content : Text)
  | doctype (declaration : Doctype)
  | ending
  deriving DecidableEq, Inhabited

/-- What the text behind a start tag is read as. -/
inductive Lexing where
  | markup
  /-- Text with references, up to the end tag of that name. -/
  | escapable (name : Text)
  /-- Text as it stands, up to the end tag of that name. -/
  | raw (name : Text)
  | script
  /-- Text as it stands, up to the end of the document. -/
  | plain
  deriving DecidableEq, Inhabited

/-- Tab, line feed, form feed and space; carriage returns are line feeds before lexing. -/
def isBlank (c : Char) : Bool := c = ' ' || c = '\n' || c = '\t' || c = '\x0c'

/-- The character that stands for one that cannot be shown. -/
def replacement : Char := '\ufffd'

def replaceNull (s : Text) : Text := s.map fun c => if c = '\x00' then replacement else c

end LivePage.Html
