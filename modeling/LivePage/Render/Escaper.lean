import LivePage.Text.Basic

/-!
Escaping for HTML. An escaper may have an effect, such as giving up on a value; the standard one has
none and writes the markup characters of a text, and in attributes also both quotes, as references.
-/

namespace LivePage

structure Escaper (m : Type → Type) where
  text : Text → m Text
  attr : Text → m Text

def escapeTextChar (c : Char) : Text :=
  if c = '&' then "&amp;"
  else if c = '<' then "&lt;"
  else if c = '>' then "&gt;"
  else [c]

def escapeAttributeChar (c : Char) : Text :=
  if c = '\x22' then "&quot;"
  else if c = '\x27' then "&#39;"
  else escapeTextChar c

def escapeText (s : Text) : Text := s.flatMap escapeTextChar

def escapeAttribute (s : Text) : Text := s.flatMap escapeAttributeChar

def Escaper.html {m : Type → Type} [Pure m] : Escaper m :=
  ⟨fun s => pure (escapeText s), fun s => pure (escapeAttribute s)⟩

end LivePage
