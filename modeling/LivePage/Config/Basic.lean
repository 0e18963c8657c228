import LivePage.Json.Typed
import LivePage.Render.Block
import LivePage.Text.Category

/-!
The stored form of the options and of the whole configuration. In it the quote style is a text, so a
configuration may not stand for any options; what is wrong with it is then said.
-/

namespace LivePage

open Json

inductive ConfigError where
  | config (message : Text)
  | data (error : Json.Error)
  | toml
  deriving DecidableEq, Inhabited

def ConfigError.message : ConfigError → Text
  | config message => "Configuration error: ".toList ++ message
  | data error => "Serde error: ".toList ++ error.message
  | toml => "TOML error"

structure MarkdownConfig where
  html : Bool
  breaks : Bool
  linkify : Bool
  typographer : Bool
  quotes : Text
  gfm : Bool
  highlightCode : Bool
  chartLanguage : Text
  chartLabel : Text
  chartHeight : Nat
  copyLabel : Text
  idPrefix : Option Text
  deriving DecidableEq, Inhabited

namespace MarkdownConfig

def ofOptions (o : Options) : MarkdownConfig :=
  ⟨o.html, o.breaks, o.linkify, o.typographer, o.quotes.toText, o.gfm, o.highlightCode,
    o.chartLanguage, o.chartLabel, o.chartHeight, o.copyLabel, o.idPrefix⟩

def standard : MarkdownConfig := ofOptions {}

/-- The options that a configuration stands for. The chart language loses blanks around it, and an
empty lead for identifiers is none. -/
def toOptions (c : MarkdownConfig) : Except ConfigError Options :=
  match QuoteStyle.ofText? c.quotes with
  | none => .error (.config ("markdown.quotes: ".toList ++ QuoteStyle.invalidMessage c.quotes))
  | some quotes =>
      let language := Text.trimBlank c.chartLanguage
      if language.isEmpty then .error (.config "markdown.chart_language must not be empty")
      else .ok ⟨c.html, c.breaks, c.linkify, c.typographer, quotes, c.gfm, c.highlightCode,
        language, c.chartLabel, c.chartHeight, c.copyLabel,
        c.idPrefix.filter fun lead => !lead.isEmpty⟩

def toJson (c : MarkdownConfig) : Json :=
  let own : Fields :=
    [("html", .bool c.html), ("breaks", .bool c.breaks), ("linkify", .bool c.linkify),
     ("typographer", .bool c.typographer), ("quotes", .string c.quotes), ("gfm", .bool c.gfm),
     ("highlight_code", .bool c.highlightCode), ("chart_language", .string c.chartLanguage),
     ("chart_label", .string c.chartLabel), ("chart_height", Json.nat c.chartHeight),
     ("copy_label", .string c.copyLabel)]
  let lead : Fields := match c.idPrefix with
    | none => []
    | some lead => [("id_prefix", .string lead)]
  .object (own ++ lead)

def field {α : Type} (name : Text) (read : Reading α)
    (set : MarkdownConfig → α → MarkdownConfig) : Json.Field MarkdownConfig :=
  ⟨name, false, fun c d => (read d).map (set c)⟩

def shape (fromText : Bool) : Shape MarkdownConfig :=
  ⟨"MarkdownConfig",
    [field "html" readBool fun c b => { c with html := b },
     field "breaks" readBool fun c b => { c with breaks := b },
     field "linkify" readBool fun c b => { c with linkify := b },
     field "typographer" readBool fun c b => { c with typographer := b },
     field "quotes" readText fun c s => { c with quotes := s },
     field "gfm" readBool fun c b => { c with gfm := b },
     field "highlight_code" readBool fun c b => { c with highlightCode := b },
     field "chart_language" readText fun c s => { c with chartLanguage := s },
     field "chart_label" readText fun c s => { c with chartLabel := s },
     field "chart_height" readWord32 fun c n => { c with chartHeight := n },
     field "copy_label" readText fun c s => { c with copyLabel := s },
     field "id_prefix" (readOption readText) fun c s => { c with idPrefix := s }],
    true, fromText⟩

def parse (s : Text) : Except Cause MarkdownConfig :=
  readDocument ((shape true).read standard) s

end MarkdownConfig

structure Config where
  markdown : MarkdownConfig := .standard
  /-- Charts are activated in rendered output without being asked for. -/
  hydrate : Bool := false
  deriving DecidableEq, Inhabited

namespace Config

def toJson (c : Config) : Json :=
  .object [("markdown", c.markdown.toJson), ("hydrate", .bool c.hydrate)]

def shape : Shape Config :=
  ⟨"Config",
    [⟨"markdown", false, fun c d =>
        ((MarkdownConfig.shape false).read .standard d).map fun m => { c with markdown := m }⟩,
     ⟨"hydrate", false, fun c d => (readBool d).map fun b => { c with hydrate := b }⟩],
    true, false⟩

/-- Reads a configuration from a value; what it does not mention has its default. -/
def ofJson (v : Json) : Except Json.Error Config :=
  (shape.read {} (Draft.ofJson v)).mapError fun cause => ⟨cause, none⟩

def boolText (b : Bool) : Text := if b then "true" else "false"

def standardToml : Text :=
  let c := MarkdownConfig.standard
  let line (name : String) (value : Text) : Text := name.toList ++ " = ".toList ++ value ++ ['\n']
  let basic (s : Text) : Text := ['\x22'] ++ s ++ ['\x22']
  let long (s : Text) : Text := "\"\"\"".toList ++ s ++ "\"\"\"".toList
  line "hydrate" (boolText false) ++ "\n[markdown]\n".toList ++
    line "html" (boolText c.html) ++ line "breaks" (boolText c.breaks) ++
    line "linkify" (boolText c.linkify) ++ line "typographer" (boolText c.typographer) ++
    line "quotes" (long c.quotes) ++ line "gfm" (boolText c.gfm) ++
    line "highlight_code" (boolText c.highlightCode) ++
    line "chart_language" (basic c.chartLanguage) ++ line "chart_label" (basic c.chartLabel) ++
    line "chart_height" (Text.ofNat c.chartHeight) ++ line "copy_label" (basic c.copyLabel)

def standardText (format : Text) : Except ConfigError Text :=
  if format = "toml".toList then .ok standardToml
  else if format = "json".toList then .ok (printIndented 0 (toJson {}))
  else .error (.config ("Unsupported config format: ".toList ++ format))

end Config
end LivePage
