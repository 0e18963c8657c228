import LivePage.Html.Lexer
import LivePage.Html.Build.Foreign

/-!
Reading a whole document. Every text is a document: what is missing is implied, and what is
misplaced is moved or dropped.
-/

namespace LivePage.Html

/-- The modes in which blanks count for something else than other text. -/
def Mode.splitsBlanks : Mode → Bool
  | .initial | .beforeHtml | .beforeHead | .inHead | .afterHead | .inColumns | .afterBody
  | .inFrameset | .afterFrameset | .afterEnd | .afterFramesetEnd => true
  | _ => false

namespace Builder

/-- Applies the rules until the token is dealt with, at most so many times. -/
def feedTimes (token : Token) : Nat → Builder → Builder
  | 0, b => b
  | n + 1, b =>
      match if b.isForeign token then b.inForeign token else b.inMode token with
      | .done b => b
      | .again b => feedTimes token n b

/-- A token is looked at again in few modes outside the open elements, and a few times for each of
those. -/
def feed (b : Builder) (token : Token) : Builder := feedTimes token (32 + 4 * b.opened.length) b

/-- Writes text run by run where blanks count for something else, and else at once. -/
def feedText : Nat → Text → Builder → Builder
  | 0, _, b => b
  | n + 1, s, b =>
      match s with
      | [] => b
      | c :: _ =>
          if b.mode.splitsBlanks then
            let same (d : Char) : Bool := Text.isAsciiBlank d = Text.isAsciiBlank c
            feedText n (s.dropWhile same) (b.feed (.text (s.takeWhile same)))
          else b.feed (.text s)

def declare (b : Builder) (d : Doctype) : Builder :=
  if b.mode = .initial then
    let (dom, i) := b.dom.add (.doctype d.name)
    { b with
      dom := dom.append b.document i
      mode := .beforeHtml
      lenient := d.faulty || d.name ≠ "html".toList }
  else b

def receive (b : Builder) (token : Token) : Builder :=
  let dropped := b.dropsLineFeed
  let b := { b with dropsLineFeed := false }
  match token with
  | .text run =>
      let run := match dropped, run with
        | true, '\n' :: rest => rest
        | _, _ => run
      feedText run.length run b
  | .doctype d => b.declare d
  | .closeTag _ => { b with lexing := .markup }.feed token
  | _ => b.feed token

/-- Whether the innermost open element belongs to another vocabulary. -/
def inOtherSpace (b : Builder) : Bool := b.currentIs fun e => e.space ≠ .html

/-- Reads at most so many tokens. -/
def readTokens : Nat → Text → Builder → Builder
  | 0, _, b => b
  | _, [], b => b
  | n + 1, s, b =>
      match nextToken b.lexing b.inOtherSpace s with
      | (some token, rest) => readTokens n rest (b.receive token)
      | (none, rest) => readTokens n rest { b with dropsLineFeed := false }

def read (b : Builder) (s : Text) : Builder :=
  let s := lexedText s
  (readTokens s.length s b).receive .ending

end Builder

/-- A document in a store. -/
structure Document where
  dom : Dom
  root : NodeId
  deriving Inhabited

namespace Document

def parseInto (d : Dom) (s : Text) : Document :=
  let b := (Builder.start d).read s
  ⟨b.dom, b.document⟩

def parse (s : Text) : Document := parseInto .empty s

def nodes (d : Document) : List NodeId := d.dom.descendants d.root

def firstNamed? (d : Document) (name : Text) : Option NodeId :=
  d.nodes.find? fun i => (d.dom.element? i).any fun e => e.name = name

def body? (d : Document) : Option NodeId := d.firstNamed? "body"

def findById? (d : Document) (id : Text) : Option NodeId := d.dom.findById? d.root id

end Document
end LivePage.Html
