import LivePage.Json.Reader
import LivePage.Text.Category

/-!
Chart declarations. A declaration is a JSON object that stands in an attribute, where quotes may
have been written as references; those are resolved before it is read.
-/

namespace LivePage

abbrev Declaration := Json.Fields

/-- The references that are resolved, each with its character, in order. -/
def quoteReferences : List (Text × Text) :=
  [("&quot;", "\""), ("&#39;", "'"), ("&#x27;", "'")]

def hasQuoteReference (raw : Text) : Bool :=
  quoteReferences.any fun r => Text.contains r.1 raw

/-- Resolves the references one kind after the other; of a text without any no new one is made. -/
def resolveQuotes? (raw : Text) : Option Text :=
  if hasQuoteReference raw then
    some (quoteReferences.foldl (fun s r => Text.replace r.1 r.2 s) raw)
  else none

/-- The text with its references resolved, or the text itself where it has none. -/
def unescapeDeclaration (raw : Text) : Text := (resolveQuotes? raw).getD raw

inductive DeclarationError where
  | empty
  | json (error : Json.Error)
  deriving DecidableEq, Inhabited

def DeclarationError.message : DeclarationError → Text
  | empty => "chart declaration is empty"
  | json error => "chart declaration is not a valid JSON object: ".toList ++ error.message

def decodeDeclaration (raw : Text) : Except DeclarationError Declaration :=
  let text := unescapeDeclaration raw
  if Text.isAllBlank text then .error .empty
  else (Json.parseObject text).mapError .json

def Declaration.print (d : Declaration) : Text := Json.print (.object d)

end LivePage
