import LivePage.Text.Case

/-!
Highlighting of code behind a backend. A backend lists its languages and turns code in one of them
into HTML, or fails; in front of it stands a table of further names for languages.
-/

namespace LivePage

inductive HighlightError where
  | unsupportedLanguage (language : Text)
  | failed (reason : Text)
  | noBackend
  deriving DecidableEq, Inhabited

def HighlightError.message : HighlightError → Text
  | unsupportedLanguage language =>
      "Language '".toList ++ language ++ "' is not supported by this highlighter".toList
  | failed reason => "Highlighting failed: ".toList ++ reason
  | noBackend =>
      "No syntax highlighting backend available. Enable the 'syntect' feature."

structure HighlightBackend where
  name : Text
  languages : List Text
  highlight : Text → Text → Except HighlightError Text

/-- Languages are told apart without regard to the case of ASCII letters. -/
def HighlightBackend.supports (backend : HighlightBackend) (language : Text) : Bool :=
  backend.languages.any fun l => Text.lowerAscii l = Text.lowerAscii language

structure Highlighter where
  backend : HighlightBackend
  aliases : List (Text × Text)

namespace Highlighter

def defaultAliases : List (Text × Text) :=
  [("js", "javascript"), ("ts", "typescript"), ("py", "python"), ("rb", "ruby"), ("sh", "bash"),
   ("shell", "bash"), ("yml", "yaml"), ("md", "markdown")]

def resolve (h : Highlighter) (language : Text) : Text :=
  let name := Text.lower language
  (h.aliases.lookup name).getD name

def highlight (h : Highlighter) (code language : Text) : Except HighlightError Text :=
  let resolved := h.resolve language
  if h.backend.supports resolved then h.backend.highlight code resolved
  else .error (.unsupportedLanguage resolved)

def standard : Except HighlightError Highlighter := .error .noBackend

end Highlighter
end LivePage
