import LivePage.Markdown.Node
import LivePage.Render.Escaper

/-!
A document as HTML. Block elements begin on a line of their own. The output is kept in reverse while
it is written, so that its last character tells whether a line is begun; besides it, the writer
counts the footnotes and those that already lead back.
-/

namespace LivePage.Markdown

structure HtmlOptions where
  /-- Raw HTML and dangerous addresses are written as they are. -/
  trusting : Bool
  hardBreaks : Bool
  deriving DecidableEq, Inhabited

/-- Output in reverse, with the number of footnotes begun and of those that lead back. -/
structure Output where
  reversed : Text := []
  notes : Nat := 0
  notesBack : Nat := 0
  deriving Inhabited

namespace Output

def write (o : Output) (s : Text) : Output := { o with reversed := s.reverse ++ o.reversed }

/-- Begins a new line, unless the output is at the start of one. -/
def fresh (o : Output) : Output :=
  match o.reversed with
  | [] => o
  | c :: _ => if c = '\n' then o else o.write ['\n']

end Output

def escapeHtml (s : Text) : Text :=
  s.flatMap fun c => if c = '\x22' then "&quot;".toList else escapeTextChar c

def isAddressChar (c : Char) : Bool :=
  Text.isAsciiAlnum c || "-_.+!*(),%#@?=;:/$~".toList.contains c

def hexByte (b : UInt8) : Text :=
  '%' :: Text.padLeft 2 '0' ((Text.hexOfNat b.toNat).map Char.toUpper)

def escapeAddressChar (c : Char) : Text :=
  if isAddressChar c then [c]
  else if c = '&' then "&amp;"
  else if c = '\x27' then "&#x27;"
  else (String.singleton c).toUTF8.toList.flatMap hexByte

def escapeAddress (s : Text) : Text := s.flatMap escapeAddressChar

def isUntrusted (url : Text) : Bool :=
  let low := Text.lowerAscii url
  let begins (lead : String) : Bool := Text.startsWith low lead
  begins "javascript:" || begins "vbscript:" || begins "file:" ||
    (begins "data:" && !(begins "data:image/png" || begins "data:image/gif" ||
      begins "data:image/jpeg" || begins "data:image/webp"))

def addressText (options : HtmlOptions) (url : Text) : Text :=
  if options.trusting || !isUntrusted url then escapeAddress url else []

def omittedHtml : Text := "<!-- raw HTML omitted -->"

mutual

/-- The text of nodes without their markup, escaped. -/
def plainText : Node → Text
  | .mk v _ children =>
      match v with
      | .text s | .code s | .htmlInline s => escapeHtml s
      | .softBreak | .lineBreak => [' ']
      | _ => plainTextAll children

def plainTextAll : List Node → Text
  | [] => []
  | n :: rest => plainText n ++ plainTextAll rest

end

/-- The links back from a note to its references, from the `n`-th on. -/
def backLinks (name : Text) (note : Nat) : Nat → Nat → Text
  | 0, _ => []
  | count + 1, n =>
      let later := n ≠ 1
      let suffix := if later then '-' :: Text.ofNat n else []
      let mark := if later then
        "<sup class=\"footnote-ref\">".toList ++ Text.ofNat n ++ "</sup>".toList else []
      (if later then [' '] else []) ++ "<a href=\"#fnref-".toList ++ escapeAddress name ++ suffix ++
        "\" class=\"footnote-backref\" data-footnote-backref data-footnote-backref-idx=\"".toList ++
        Text.ofNat note ++ suffix ++ "\" aria-label=\"Back to reference ".toList ++
        Text.ofNat note ++ suffix ++ "\">↩".toList ++ mark ++ "</a>".toList ++
        backLinks name note count (n + 1)

/-- What a node's writing depends on besides the node. -/
structure Surroundings where
  tight : Bool := false
  /-- The note whose child the node is: its name and number of references. -/
  note : Option (Text × Nat) := none
  last : Bool := false
  columns : List Alignment := []
  head : Bool := false
  listTight : Bool := false
  /-- Whether the node before a row of a table is its head. -/
  afterHead : Bool := false
  deriving Inhabited

def alignmentText : Alignment → Text
  | .none => []
  | .left => " align=\"left\""
  | .center => " align=\"center\""
  | .right => " align=\"right\""

/-- Writes the links back of the note that is open, unless they are written. -/
def writeBack (o : Output) (note : Text × Nat) : Output × Bool :=
  if o.notesBack ≥ o.notes then (o, false)
  else ({ o.write (backLinks note.1 o.notes note.2 1) with notesBack := o.notes }, true)

mutual

def writeNode (options : HtmlOptions) (around : Surroundings) (o : Output) : Node → Output
  | .mk v _ children =>
      let simple (tag : String) : Output :=
        let o := o.write ("<".toList ++ tag.toList ++ ">".toList)
        (writeNodes options {} o children).write ("</".toList ++ tag.toList ++ ">".toList)
      match v with
      | .document => writeNodes options {} o children
      | .blockQuote =>
          let o := writeNodes options {} (o.fresh.write "<blockquote>\n") children
          o.fresh.write "</blockquote>\n"
      | .list style =>
          let opening : Text :=
            if !style.ordered then "<ul>\n"
            else if style.start = 1 then "<ol>\n"
            else "<ol start=\"".toList ++ Text.ofNat style.start ++ "\">\n".toList
          let o := writeNodes options { listTight := style.tight } (o.fresh.write opening) children
          o.write (if style.ordered then "</ol>\n" else "</ul>\n")
      | .item =>
          let o := writeNodes options { tight := around.listTight } (o.fresh.write "<li>") children
          o.write "</li>\n"
      | .taskItem done =>
          let box := "<li><input type=\"checkbox\"".toList ++
            (if done then " checked=\"\"" else "").toList ++ " disabled=\"\" /> ".toList
          let o := writeNodes options { tight := around.listTight } (o.fresh.write box) children
          o.write "</li>\n"
      | .codeBlock code =>
          let language := code.info.takeWhile fun c => !Text.isAsciiBlank c
          let named : Text := if code.info.isEmpty then []
            else " class=\"language-".toList ++ escapeHtml language ++ "\"".toList
          let o := o.fresh.write ("<pre><code".toList ++ named ++ ['>'])
          o.write (escapeHtml code.literal ++ "</code></pre>\n".toList)
      | .htmlBlock literal =>
          (o.fresh.write (if options.trusting then literal else omittedHtml)).fresh
      | .paragraph =>
          let o := if around.tight then o else o.fresh.write "<p>"
          let o := writeNodes options {} o children
          if around.tight then o
          else
            let o := match around.note, around.last with
              | some note, true => (writeBack (o.write [' ']) note).1
              | _, _ => o
            o.write "</p>\n"
      | .heading level =>
          let tag := 'h' :: Text.ofNat level
          let o := writeNodes options {} (o.fresh.write ('<' :: tag ++ ['>'])) children
          o.write ("</".toList ++ tag ++ ">\n".toList)
      | .thematicBreak => o.fresh.write "<hr />\n"
      | .footnoteDefinition name references =>
          let o := if o.notes = 0 then
            o.write "<section class=\"footnotes\" data-footnotes>\n<ol>\n" else o
          let o := { o with notes := o.notes + 1 }
          let o := o.write ("<li id=\"fn-".toList ++ escapeAddress name ++ "\">".toList)
          let o := writeNodes options { note := some (name, references) } o children
          let (o, written) := writeBack o (name, references)
          (if written then o.write ['\n'] else o).write "</li>\n"
      | .table columns =>
          let o := writeNodes options { columns } (o.fresh.write "<table>\n") children
          let o := if 2 ≤ children.length then o.fresh.write "</tbody>\n" else o
          o.fresh.write "</table>\n"
      | .tableRow header =>
          let o := o.fresh
          let o := if header then o.write "<thead>\n"
            else if around.afterHead then o.write "<tbody>\n" else o
          let o := writeNodes options { columns := around.columns, head := header } (o.write "<tr>")
            children
          let o := o.fresh.write "</tr>"
          if header then o.fresh.write "</thead>" else o
      | .tableCell =>
          let tag : Text := if around.head then "th" else "td"
          let o := o.fresh.write
            ('<' :: tag ++ alignmentText (around.columns.headD .none) ++ ['>'])
          (writeNodes options {} o children).write ("</".toList ++ tag ++ ['>'])
      | .text s => o.write (escapeHtml s)
      | .softBreak => o.write (if options.hardBreaks then "<br />\n" else "\n")
      | .lineBreak => o.write "<br />\n"
      | .code s => o.write ("<code>".toList ++ escapeHtml s ++ "</code>".toList)
      | .htmlInline s => o.write (if options.trusting then s else omittedHtml)
      | .raw s => writeNodes options {} (o.write s) children
      | .emph => simple "em"
      | .strong => simple "strong"
      | .strikethrough => simple "del"
      | .superscript => simple "sup"
      | .subscript => simple "sub"
      | .underline => simple "u"
      | .tildes s => (writeNodes options {} (o.write s) children).write s
      | .link target =>
          let title : Text := if target.title.isEmpty then []
            else " title=\"".toList ++ escapeHtml target.title ++ "\"".toList
          let o := o.write ("<a href=\"".toList ++ addressText options target.url ++ "\"".toList ++
            title ++ ['>'])
          (writeNodes options {} o children).write "</a>"
      | .image target =>
          let title : Text := if target.title.isEmpty then []
            else " title=\"".toList ++ escapeHtml target.title ++ "\"".toList
          o.write ("<img src=\"".toList ++ addressText options target.url ++ "\" alt=\"".toList ++
            plainTextAll children ++ "\"".toList ++ title ++ " />".toList)
      | .footnoteReference name number index =>
          let id := "fnref-".toList ++ escapeAddress name ++
            (if 1 < number then '-' :: Text.ofNat number else [])
          o.write ("<sup class=\"footnote-ref\"><a href=\"#fn-".toList ++ escapeAddress name ++
            "\" id=\"".toList ++ id ++ "\" data-footnote-ref>".toList ++ Text.ofNat index ++
            "</a></sup>".toList)

def writeNodes (options : HtmlOptions) (around : Surroundings) (o : Output) : List Node → Output
  | [] => o
  | n :: rest =>
      let o := writeNode options { around with last := rest.isEmpty } o n
      let afterHead := match n.value with
        | .tableRow true => true
        | _ => false
      let columns := match n.value with
        | .tableCell => around.columns.drop 1
        | _ => around.columns
      writeNodes options { around with columns, afterHead } o rest

end

def toHtml (options : HtmlOptions) (root : Node) : Text :=
  let o := writeNode options {} {} root
  let o := if 0 < o.notes then o.write "</ol>\n</section>\n" else o
  o.reversed.reverse

end LivePage.Markdown
