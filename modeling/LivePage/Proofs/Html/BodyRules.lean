import LivePage.Proofs.Html.Spelling

/-!
The rules of the body for the tags that a written document has. The rules ask for the names of tags
in a certain order; which of them answers for a name is evaluated here, once for all names.
-/

namespace LivePage.Html.Builder

def plainBlocks : List Text := ["blockquote", "div", "ol", "p", "section", "ul"]

/-- Blocks that end with their own end tag, after what ends of its own accord. -/
def closedBlocks : List Text := ["blockquote", "div", "ol", "section", "ul", "pre", "button"]

def voidElements : List Text := ["br", "img"]

/-- The names of start tags in the order in which the rules ask for them. -/
def startNames : List (List Text) :=
  [["html".toList], headContentNames, ["body".toList], ["frameset".toList], blockNames,
    headingNames, textsOf "pre listing", ["form".toList], ["li".toList], textsOf "dd dt",
    ["plaintext".toList], ["button".toList], ["a".toList], formattingNames, ["nobr".toList],
    textsOf "applet marquee object", ["table".toList], textsOf "area br embed img keygen wbr",
    ["input".toList], textsOf "param source track", ["hr".toList], ["image".toList],
    ["textarea".toList], ["xmp".toList], ["iframe".toList], textsOf "noembed noscript",
    ["select".toList], ["option".toList], ["optgroup".toList], textsOf "rb rtc", textsOf "rp rt",
    ["math".toList], ["svg".toList],
    textsOf "caption col colgroup frame head tbody td tfoot th thead tr"]

def endNames : List (List Text) :=
  [["template".toList], closedBlockNames, ["form".toList], ["p".toList], ["li".toList],
    textsOf "dd dt", headingNames, formattingNames ++ textsOf "a nobr",
    textsOf "applet marquee object", ["br".toList]]

/-- A name is asked for in some place, and in none before; behind the last it is any other. -/
def AskedAt : List (List Text) → Nat → Text → Prop
  | [], _, _ => True
  | l :: _, 0, name => name ∈ l
  | l :: lists, k + 1, name => name ∉ l ∧ AskedAt lists k name

instance decidableAskedAt : ∀ lists k name, Decidable (AskedAt lists k name)
  | [], _, _ => .isTrue trivial
  | l :: _, 0, name => inferInstanceAs (Decidable (name ∈ l))
  | l :: lists, k + 1, name =>
      have := decidableAskedAt lists k name
      inferInstanceAs (Decidable (name ∉ l ∧ AskedAt lists k name))

/-- Where the names are asked for. -/
abbrev AllAskedAt (lists : List (List Text)) (names : List Text) (k : Nat) : Prop :=
  ∀ name ∈ names, AskedAt lists k name

theorem askedAt_start : AllAskedAt startNames plainBlocks 4 ∧ AllAskedAt startNames headingNames 5 ∧
    AllAskedAt startNames ["pre"] 6 ∧ AllAskedAt startNames ["li"] 8 ∧
    AllAskedAt startNames ["button"] 11 ∧ AllAskedAt startNames ["a"] 12 ∧
    AllAskedAt startNames ["em", "strong", "u", "code"] 13 ∧
    AllAskedAt startNames ["table"] 16 ∧ AllAskedAt startNames voidElements 17 ∧
    AllAskedAt startNames ["input"] 18 ∧ AllAskedAt startNames ["hr"] 20 ∧
    AllAskedAt startNames plainElements 34 := by
  unfold startNames headContentNames blockNames headingNames formattingNames textsOf
  repeat rw [String.toList_ofList]
  decide +kernel

theorem askedAt_end : AllAskedAt endNames closedBlocks 1 ∧
    AllAskedAt endNames ["p"] 3 ∧ AllAskedAt endNames ["li"] 4 ∧ AllAskedAt endNames headingNames 6 ∧
    AllAskedAt endNames formattingElements 7 ∧ AllAskedAt endNames plainElements 10 := by
  unfold endNames closedBlockNames headingNames formattingNames textsOf
  repeat rw [String.toList_ofList]
  decide +kernel

section Start

variable (b : Builder) {tag : Tag}

theorem openInBody_block (known : tag.name ∈ plainBlocks) :
    b.openInBody tag = b.closeParagraph.insertTag tag := by
  have asked := askedAt_start.1 _ known
  simp only [startNames, AskedAt] at asked
  simp only [openInBody, List.contains_iff_mem, ← @List.mem_singleton Text, asked, if_true, if_false]

theorem openInBody_heading (known : tag.name ∈ headingNames) :
    b.openInBody tag = (if b.closeParagraph.currentIs isHeading then b.closeParagraph.pop
      else b.closeParagraph).insertTag tag := by
  have asked := askedAt_start.2.1 _ known
  simp only [startNames, AskedAt] at asked
  simp only [openInBody, List.contains_iff_mem, ← @List.mem_singleton Text, asked, if_true, if_false]

theorem openInBody_pre (known : tag.name ∈ ["pre".toList]) :
    b.openInBody tag =
      { (b.closeParagraph.insertTag tag).forbidFrames with dropsLineFeed := true } := by
  have asked := askedAt_start.2.2.1 _ known
  simp only [startNames, AskedAt] at asked
  simp only [openInBody, among, List.contains_iff_mem, ← @List.mem_singleton Text, asked, if_true,
    if_false]

theorem openInBody_item (known : tag.name ∈ ["li".toList]) :
    b.openInBody tag = b.openListItem (textsOf "li") tag := by
  have asked := askedAt_start.2.2.2.1 _ known
  simp only [startNames, AskedAt] at asked
  simp only [openInBody, among, List.contains_iff_mem, ← @List.mem_singleton Text, asked, if_true,
    if_false]

theorem openInBody_button (known : tag.name ∈ ["button".toList]) :
    b.openInBody tag = b.openButton tag := by
  have asked := askedAt_start.2.2.2.2.1 _ known
  simp only [startNames, AskedAt] at asked
  simp only [openInBody, among, List.contains_iff_mem, ← @List.mem_singleton Text, asked, if_true,
    if_false]

theorem openInBody_anchor (known : tag.name ∈ ["a".toList]) :
    b.openInBody tag = b.endOpenAnchor.reconstruct.openFormatting tag := by
  have asked := askedAt_start.2.2.2.2.2.1 _ known
  simp only [startNames, AskedAt] at asked
  simp only [openInBody, among, List.contains_iff_mem, ← @List.mem_singleton Text, asked, if_true,
    if_false]

theorem openInBody_formatting (known : tag.name ∈ ["em".toList, "strong", "u", "code"]) :
    b.openInBody tag = b.reconstruct.openFormatting tag := by
  have asked := askedAt_start.2.2.2.2.2.2.1 _ known
  simp only [startNames, AskedAt] at asked
  simp only [openInBody, among, List.contains_iff_mem, ← @List.mem_singleton Text, asked, if_true,
    if_false]

theorem openInBody_table (known : tag.name ∈ ["table".toList]) :
    b.openInBody tag = (((if b.lenient then b else b.closeParagraph).insertTag
      tag).forbidFrames).setMode .inTable := by
  have asked := askedAt_start.2.2.2.2.2.2.2.1 _ known
  simp only [startNames, AskedAt] at asked
  simp only [openInBody, among, List.contains_iff_mem, ← @List.mem_singleton Text, asked, if_true,
    if_false]

theorem openInBody_void (known : tag.name ∈ voidElements) :
    b.openInBody tag = (b.reconstruct.insertVoid tag).forbidFrames := by
  have asked := askedAt_start.2.2.2.2.2.2.2.2.1 _ known
  simp only [startNames, AskedAt] at asked
  simp only [openInBody, among, List.contains_iff_mem, ← @List.mem_singleton Text, asked, if_true,
    if_false]

theorem openInBody_input (known : tag.name ∈ ["input".toList]) :
    b.openInBody tag = b.openInput tag := by
  have asked := askedAt_start.2.2.2.2.2.2.2.2.2.1 _ known
  simp only [startNames, AskedAt] at asked
  simp only [openInBody, among, List.contains_iff_mem, ← @List.mem_singleton Text, asked, if_true,
    if_false]

theorem openInBody_rule (known : tag.name ∈ ["hr".toList]) :
    b.openInBody tag = b.openRule tag := by
  have asked := askedAt_start.2.2.2.2.2.2.2.2.2.2.1 _ known
  simp only [startNames, AskedAt] at asked
  simp only [openInBody, among, List.contains_iff_mem, ← @List.mem_singleton Text, asked, if_true,
    if_false]

theorem openInBody_plain (known : tag.name ∈ plainElements) :
    b.openInBody tag = b.reconstruct.insertTag tag := by
  have asked := askedAt_start.2.2.2.2.2.2.2.2.2.2.2 _ known
  simp only [startNames, AskedAt] at asked
  simp only [openInBody, among, List.contains_iff_mem, ← @List.mem_singleton Text, asked, if_false]

end Start

section End

variable (b : Builder) {name : Text}

theorem closeInBody_closed (known : name ∈ closedBlocks) :
    b.closeInBody name =
      if b.inScopeNamed boundsScope name then b.closeAfterImplied name else b := by
  have asked := askedAt_end.1 _ known
  simp only [endNames, AskedAt] at asked
  simp only [closeInBody, List.contains_iff_mem, ← @List.mem_singleton Text, asked, if_true, if_false]

theorem closeInBody_paragraph (known : name ∈ ["p".toList]) :
    b.closeInBody name =
      (if b.inScopeNamed boundsButton "p" then b else b.insertImplied "p").closeNamed "p" := by
  have asked := askedAt_end.2.1 _ known
  simp only [endNames, AskedAt] at asked
  simp only [closeInBody, List.contains_iff_mem, ← @List.mem_singleton Text, asked, if_true, if_false]

theorem closeInBody_item (known : name ∈ ["li".toList]) :
    b.closeInBody name =
      if b.inScopeNamed boundsListItem name then b.closeNamed name else b := by
  have asked := askedAt_end.2.2.1 _ known
  simp only [endNames, AskedAt] at asked
  simp only [closeInBody, List.contains_iff_mem, ← @List.mem_singleton Text, asked, if_true, if_false]

theorem closeInBody_heading (known : name ∈ headingNames) :
    b.closeInBody name = if b.inScope boundsScope isHeading then
      (b.impliedEnds endsImplied).popUntil isHeading else b := by
  have asked := askedAt_end.2.2.2.1 _ known
  simp only [endNames, AskedAt] at asked
  simp only [closeInBody, among, List.contains_iff_mem, ← @List.mem_singleton Text, asked, if_true,
    if_false]

theorem closeInBody_formatting (known : name ∈ formattingElements) :
    b.closeInBody name = b.endFormatting name := by
  have asked := askedAt_end.2.2.2.2.1 _ known
  simp only [endNames, AskedAt, List.mem_append] at asked
  simp only [closeInBody, among, Bool.or_eq_true, List.contains_iff_mem,
    ← @List.mem_singleton Text, asked, if_true, if_false]

theorem closeInBody_plain (known : name ∈ plainElements) :
    b.closeInBody name = b.closeAny name := by
  have asked := askedAt_end.2.2.2.2.2 _ known
  simp only [endNames, AskedAt, List.mem_append] at asked
  simp only [closeInBody, among, Bool.or_eq_true, List.contains_iff_mem,
    ← @List.mem_singleton Text, asked, if_false]

end End

/-- Names of tags that matter to the table around a cell, or to the body as a whole. -/
def cellNames : List Text := textsOf "body caption col colgroup html table tbody td tfoot th thead tr"

theorem among_of_not_cell (names : String) (part : ∀ n ∈ textsOf names, n ∈ cellNames) {name : Text}
    (other : name ∉ cellNames) : among names name = false :=
  Bool.eq_false_iff.2 fun listed => other (part name (List.contains_iff_mem.1 listed))

theorem inMode_openTag {b : Builder} (mode : b.mode = .inBody ∨ b.mode = .inCell) {tag : Tag}
    (other : tag.name ∉ cellNames) : b.inMode (.openTag tag) = .done (b.openInBody tag) := by
  rw [inMode]
  rcases mode with mode | mode <;> rw [mode]
  · rfl
  · have row := among_of_not_cell "caption col colgroup tbody td tfoot th thead tr"
      (by decide +kernel) other
    simp only [inCell, row, Bool.false_eq_true, if_false]
    rfl

theorem inMode_closeTag {b : Builder} (mode : b.mode = .inBody ∨ b.mode = .inCell) {name : Text}
    (other : name ∉ cellNames) : b.inMode (.closeTag name) = .done (b.closeInBody name) := by
  have outer : name ≠ "body".toList ∧ name ≠ "html".toList := by
    constructor <;> rintro rfl <;> exact other (by decide)
  have body : b.inBody (.closeTag name) = .done (b.closeInBody name) := by
    simp only [inBody, outer, if_false]
  rw [inMode]
  rcases mode with mode | mode <;> rw [mode]
  · exact body
  · have cells := among_of_not_cell "td th" (by decide +kernel) other
    have outside := among_of_not_cell "body caption col colgroup html" (by decide +kernel)
      other
    have rows := among_of_not_cell "table tbody tfoot thead tr" (by decide +kernel) other
    simp only [inCell, cells, outside, rows, Bool.false_eq_true, if_false, body]

section Received

variable {b : Builder} (calm : b.Calm) (mode : b.mode = .inBody ∨ b.mode = .inCell)
include calm mode

theorem Calm.receive_openTag {tag : Tag} (other : tag.name ∉ cellNames) :
    b.receive (.openTag tag) = { b with dropsLineFeed := false }.openInBody tag :=
  calm.undropped.feed (inMode_openTag (b := { b with dropsLineFeed := false }) mode other)

theorem Calm.receive_closeTag {name : Text} (other : name ∉ cellNames) :
    b.receive (.closeTag name) = { b with dropsLineFeed := false }.closeInBody name := by
  have same : { b with dropsLineFeed := false, lexing := .markup } =
      { b with dropsLineFeed := false } := by rw [← calm.lexing]
  rw [receive]
  simp only [same]
  exact calm.undropped.feed (inMode_closeTag (b := { b with dropsLineFeed := false }) mode other)

end Received

end LivePage.Html.Builder
