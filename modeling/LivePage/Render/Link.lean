import LivePage.Render.Fence
import LivePage.Text.Category

/-!
The tags around the content of a link. A link opens a page of its own and passes on neither the
opener nor the referrer. Addresses whose scheme can run a script or reach local files are not
written; the scheme is read the way browsers read it, without regard to case, blanks and control
characters.
-/

namespace LivePage

/-- The first characters of an address as far as they tell a scheme. -/
def schemeView (url : Text) : Text :=
  Text.lowerAscii ((url.filter fun c => !Text.isAsciiBlank c && !Text.isControl c).take 16)

def deniedSchemes : List Text := ["javascript:", "vbscript:", "file:"]

def allowedData : List Text :=
  ["data:image/gif;", "data:image/png;", "data:image/jpeg;", "data:image/webp;"]

def isDangerousUrl (url : Text) : Bool :=
  let scheme := schemeView url
  deniedSchemes.any (Text.startsWith scheme) ||
    (Text.startsWith scheme "data:" && !allowedData.any (Text.startsWith scheme))

def sanitizeUrl (url : Text) : Text := if isDangerousUrl url then [] else url

variable {m : Type → Type} [Monad m]

def linkHardening : Text := " target=\"_blank\" rel=\"noopener noreferrer\">"

def renderLinkOpen (ctx : RuleContext m) (token : LinkToken) : m Text := do
  let href ← ctx.escaper.attr (sanitizeUrl token.url)
  if token.title.isEmpty then
    return "<a".toList ++ attr "href" href ++ linkHardening
  else
    let title ← ctx.escaper.attr token.title
    return "<a".toList ++ attr "href" href ++ attr "title" title ++ linkHardening

def renderLinkClose : Text := "</a>"

end LivePage
