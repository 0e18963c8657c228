import LivePage.Markdown.Node
import LivePage.Typography.QuoteStyle

/-!
Typography of a parsed document. Curly quotes that smart punctuation produced get the configured
style, then neighbouring texts are joined, and last the written forms of four symbols are replaced,
so that a symbol whose form was split over several texts is found too. Quotes that were typed as
curly ones stay, which the source of a text tells.
-/

namespace LivePage

open Markdown

structure Typographer where
  quotes : QuoteStyle
  source : Option Text

namespace Typographer

/-- Maps the quotes of a text, each lined up with a quote of its source; one that was typed as a
curly quote stays. -/
def styleAligned (quotes : QuoteStyle) : List Char → Text → Text
  | _, [] => []
  | origins, c :: s =>
      if isQuote c then
        match origins with
        | [] => c :: styleAligned quotes [] s
        | o :: origins =>
            (if isCurlyQuote o then c else quotes.map c) :: styleAligned quotes origins s
      else c :: styleAligned quotes origins s

/-- The text with its generated quotes in style. `typed` says whether curly quotes occur in the
source at all; if so, the quotes of the text have to line up with those of its own source. -/
def styleQuotes (quotes : QuoteStyle) (typed : Bool) (origin : Option Text) (s : Text) : Text :=
  if !s.any isCurlyQuote then s
  else if !typed then s.map quotes.map
  else match origin with
    | none => s
    | some o =>
        let origins := o.filter isQuote
        if origins.length = (s.filter isQuote).length then styleAligned quotes origins s else s

/-- Restyles the quotes of every text of a tree, unless the style is that of smart punctuation. -/
def restyle (t : Typographer) (root : Node) : Node :=
  if t.quotes = QuoteStyle.curly then root
  else
    let source := t.source.getD []
    let typed := source.any isCurlyQuote
    let starts := if typed then Text.lineStarts source else []
    root.mapValues fun v span =>
      match v with
      | .text s =>
          let origin := if typed then span.slice? starts source else none
          .text (styleQuotes t.quotes typed origin s)
      | v => v

/-- Puts a node before its later siblings; two texts become one in the place of the first. -/
def joinFirst (n : Node) (rest : List Node) : List Node :=
  match n, rest with
  | .mk (.text s) span children, .mk (.text t) _ _ :: rest =>
      .mk (.text (s ++ t)) span children :: rest
  | n, rest => n :: rest

mutual

/-- Joins texts that are neighbours among siblings, at every depth. -/
def join : Node → Node
  | .mk v span children => .mk v span (joinAll children)

def joinAll : List Node → List Node
  | [] => []
  | n :: rest => joinFirst (join n) (joinAll rest)

end

/-- The symbol whose written form begins a text, and the length of that form. -/
def symbolAt? (s : Text) : Option (Char × Nat) :=
  match s with
  | '+' :: '-' :: _ => some ('±', 2)
  | '(' :: c :: ')' :: _ =>
      if c = 'c' || c = 'C' then some ('©', 3)
      else if c = 'r' || c = 'R' then some ('®', 3)
      else none
  | '(' :: c :: d :: ')' :: _ =>
      if (c = 't' || c = 'T') && (d = 'm' || d = 'M') then some ('™', 4) else none
  | _ => none

/-- Replaces written forms from left to right; `skip` characters of the one found last are still to
be dropped. -/
def symbolsFrom : Nat → Text → Text
  | _, [] => []
  | skip + 1, _ :: s => symbolsFrom skip s
  | 0, c :: s =>
      match symbolAt? (c :: s) with
      | some (symbol, length) => symbol :: symbolsFrom (length - 1) s
      | none => c :: symbolsFrom 0 s

def symbols (s : Text) : Text := symbolsFrom 0 s

def setSymbols (root : Node) : Node :=
  root.mapValues fun v _ =>
    match v with
    | .text s => .text (symbols s)
    | v => v

/-- The tree with quotes in style, texts joined and symbols in place. -/
def apply (t : Typographer) (root : Node) : Node := setSymbols (join (t.restyle root))

end Typographer
end LivePage
