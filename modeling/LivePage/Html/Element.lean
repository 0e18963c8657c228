import LivePage.Html.Dom

/-!
What the names of elements mean for the structure of a document: which elements bound a search among
the open ones, which end of their own accord, and how names are spelled inside drawings.
-/

namespace LivePage.Html

/-- A name together with the vocabulary it belongs to. -/
structure ElementName where
  space : Namespace := .html
  name : Text
  deriving DecidableEq, Inhabited

/-- A class of elements. -/
abbrev ElementClass := ElementName → Bool

/-- The class of the elements of HTML itself with one of these names. -/
def named (names : List Text) : ElementClass := fun e => e.space = .html && names.contains e.name

def textsOf (s : String) : List Text := Text.split (· = ' ') s.toList

def specialNames : List Text :=
  textsOf "address applet area article aside base basefont bgsound blockquote body br button" ++
  textsOf "caption center col colgroup dd details dir div dl dt embed fieldset figcaption figure" ++
  textsOf "footer form frame frameset h1 h2 h3 h4 h5 h6 head header hgroup hr html iframe img input" ++
  textsOf "isindex li link listing main marquee menu meta nav noembed noframes noscript object ol p" ++
  textsOf "param plaintext pre script section select source style summary table tbody td template" ++
  textsOf "textarea tfoot th thead title tr track ul wbr xmp"

/-- The elements that misnested end tags do not reach across. -/
def isSpecial : ElementClass := named specialNames

def isMathText (e : ElementName) : Bool :=
  e.space = .mathml && (textsOf "mi mo mn ms mtext").contains e.name

def isDrawingText (e : ElementName) : Bool :=
  e.space = .svg && (textsOf "foreignObject desc title").contains e.name

def boundsScope (e : ElementName) : Bool :=
  named (textsOf "applet caption html table td th marquee object select template") e ||
    isMathText e || isDrawingText e

def boundsListItem (e : ElementName) : Bool := boundsScope e || named (textsOf "ol ul") e

def boundsButton (e : ElementName) : Bool := boundsScope e || named (textsOf "button") e

def boundsTable : ElementClass := named (textsOf "html table template")

def holdsRows : ElementClass := named (textsOf "tbody tfoot thead template html")

def holdsCells : ElementClass := named (textsOf "tr template html")

def isCell : ElementClass := named (textsOf "td th")

def endsImplied : ElementClass := named (textsOf "dd dt li option optgroup p rb rp rt rtc")

def endsImpliedThoroughly (e : ElementName) : Bool :=
  endsImplied e || named (textsOf "caption colgroup tbody td tfoot th thead tr") e

def headingNames : List Text := textsOf "h1 h2 h3 h4 h5 h6"

def isHeading : ElementClass := named headingNames

/-- The elements from which misplaced content is moved out in front of the table. -/
def fosters : ElementClass := named (textsOf "table tbody tfoot thead tr")

def isVoid : ElementClass :=
  named (textsOf "area base basefont bgsound br col embed frame hr img input keygen link meta param source track wbr")

/-- The elements whose text is written as it stands. -/
def hasRawText : ElementClass :=
  named (textsOf "style script xmp iframe noembed noframes plaintext noscript")

def drawingElementNames : List Text :=
  textsOf "altGlyph altGlyphDef altGlyphItem animateColor animateMotion animateTransform clipPath" ++
  textsOf "feBlend feColorMatrix feComponentTransfer feComposite feConvolveMatrix feDiffuseLighting" ++
  textsOf "feDisplacementMap feDistantLight feDropShadow feFlood feFuncA feFuncB feFuncG feFuncR" ++
  textsOf "feGaussianBlur feImage feMerge feMergeNode feMorphology feOffset fePointLight" ++
  textsOf "feSpecularLighting feSpotLight feTile feTurbulence foreignObject glyphRef" ++
  textsOf "linearGradient radialGradient textPath"

def drawingAttributeNames : List Text :=
  textsOf "attributeName attributeType baseFrequency baseProfile calcMode clipPathUnits" ++
  textsOf "diffuseConstant edgeMode filterUnits glyphRef gradientTransform gradientUnits kernelMatrix" ++
  textsOf "kernelUnitLength keyPoints keySplines keyTimes lengthAdjust limitingConeAngle markerHeight" ++
  textsOf "markerUnits markerWidth maskContentUnits maskUnits numOctaves pathLength" ++
  textsOf "patternContentUnits patternTransform patternUnits pointsAtX pointsAtY pointsAtZ" ++
  textsOf "preserveAlpha preserveAspectRatio primitiveUnits refX refY repeatCount repeatDur" ++
  textsOf "requiredExtensions requiredFeatures specularConstant specularExponent spreadMethod" ++
  textsOf "startOffset stdDeviation stitchTiles surfaceScale systemLanguage tableValues targetX" ++
  textsOf "targetY textLength viewBox viewTarget xChannelSelector yChannelSelector zoomAndPan"

/-- The spelling in a list of a name that was read in lower case. -/
def respell (spellings : List Text) (name : Text) : Text :=
  (spellings.find? fun s => Text.lowerAscii s = name).getD name

def respellElement (space : Namespace) (name : Text) : Text :=
  match space with
  | .svg => respell drawingElementNames name
  | _ => name

def respellAttributes (space : Namespace) (attributes : Attributes) : Attributes :=
  match space with
  | .html => attributes
  | .svg => attributes.map fun a => { a with name := respell drawingAttributeNames a.name }
  | .mathml => attributes.map fun a => { a with name := respell [("definitionURL" : Text)] a.name }

end LivePage.Html
