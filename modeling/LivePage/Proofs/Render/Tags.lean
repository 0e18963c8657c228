import LivePage.Proofs.Chart.Placeholders
import LivePage.Proofs.Html.Strewn
import LivePage.Proofs.Markdown.Parsing
import LivePage.Proofs.Render.Identifiers

/-!
The start tags of a rendered page. Without raw HTML each of them is a tag of the writer or of a
built-in rule, whatever the text was, as long as identifiers close no attribute. Nothing is said
about how the tags match, so the tree is only taken for what its values are.
-/

namespace LivePage
open Markdown Html Builder

def pageElements : List Text :=
  ["blockquote".toList, "ul", "ol", "li", "input", "pre", "code", "p", "h1", "h2", "h3", "h4", "h5",
    "h6", "hr", "section", "table", "thead", "tbody", "tr", "th", "td", "br", "em", "strong", "del",
    "sup", "sub", "u", "div", "span", "button", "img"]

/-- The start tags of a page with such blocks, with footnotes or without. -/
inductive PageTag (notes : Bool) (blocks : List Block) : SpelledTag → Prop
  | link (url title : Text) : PageTag notes blocks (linkTag url title)
  | reference (enabled : notes = true) (name : Text) (number : Nat) :
      PageTag notes blocks (referenceTag name number)
  | back (enabled : notes = true) (address suffix : Text) (note : Nat) :
      PageTag notes blocks (backTag address suffix note)
  | placeholder {tag : SpelledTag} (name : tag.name ∈ ["div".toList, "code"])
      (made : ∃ b ∈ blocks, b.isMarked = true) : PageTag notes blocks tag
  | other {tag : SpelledTag} (name : tag.name ∈ pageElements)
      (plain : tag.read.attributes.hasClass chartClass = false) : PageTag notes blocks tag

variable {notes : Bool} {blocks : List Block}

/-- Markup of a page. -/
abbrev Paged (notes : Bool) (blocks : List Block) : Text → Prop :=
  Strewn (PageTag notes blocks) fun _ => False

namespace Paged

variable {s t : Text}

theorem tag {tag : SpelledTag} (valid : tag.Valid) (known : tag.name ∈ pageElements)
    (plain : tag.read.attributes.hasClass chartClass = false) : Paged notes blocks tag.markup :=
  .opened valid (.other known plain)

theorem around {tag : SpelledTag} (valid : tag.Valid) (known : tag.name ∈ pageElements)
    (plain : tag.read.attributes.hasClass chartClass = false) (inner : Paged notes blocks s) :
    Paged notes blocks (tag.around s) :=
  Strewn.around valid (.other known plain) inner

theorem bare (name s : Text) (known : name ∈ pageElements) (free : '<' ∉ s) :
    Paged notes blocks ((SpelledTag.mk name [] false).markup ++ s) := by
  have valid : ∀ name ∈ pageElements, isMarkupName name = true := by decide
  exact .append (Paged.tag (SpelledTag.valid_bare (valid name known)) known rfl) (.text free)

theorem close (name s : Text) (valid : isMarkupName name = true) (free : '<' ∉ s) :
    Paged notes blocks (tokenMarkup (.closeTag name) ++ s) :=
  .append (.closed valid) (.text free)

theorem grow {more : List Block} (all : ∀ b ∈ blocks, b ∈ more) (paged : Paged notes blocks s) :
    Paged notes more s := by
  refine paged.mono (fun tag known => ?_) fun _ => id
  cases known with
  | link url title => exact .link url title
  | reference enabled name number => exact .reference enabled name number
  | back enabled address suffix note => exact .back enabled address suffix note
  | placeholder name made =>
      obtain ⟨b, listed, marked⟩ := made
      exact .placeholder name ⟨b, all b listed, marked⟩
  | other name plain => exact .other name plain

end Paged

/-- An attribute of a fence: identifiers are written as they are. -/
def spelledId (a : Attribute) : Spelled :=
  ⟨a.name, some (if a.name = "id".toList ∨ a.name = "data-target".toList then a.value
    else escapeAttribute a.value)⟩

def fenceTag (name : Text) (attributes : Attributes) : SpelledTag :=
  ⟨name, attributes.map spelledId, false⟩

theorem markup_fenceTag (name : Text) (attributes : Attributes) :
    (fenceTag name attributes).markup = tagMarkup spellId name attributes := by
  have one (a : Attribute) : (spelledId a).markup = spellId a := by
    unfold spelledId spellId
    simp only [List.mem_pair]
    split <;> rfl
  simp only [SpelledTag.markup, fenceTag, tagMarkup, List.flatMap_map, one]
  rfl

theorem valid_fenceTag {name : Text} (valid : isMarkupName name = true) {attributes : Attributes}
    (names : areMarkupNames (attributes.map (·.name)) = true)
    (closed : ∀ a ∈ attributes, a.name = "id".toList ∨ a.name = "data-target".toList →
      '\x22' ∉ a.value) : (fenceTag name attributes).Valid := by
  refine valid_spelledTag valid (by rwa [List.map_map]) fun value member => ?_
  obtain ⟨a, listed, shown⟩ := List.mem_filterMap.1 member
  obtain ⟨b, own, rfl⟩ := List.mem_map.1 listed
  cases shown
  split
  · next identifier => exact closed b own identifier
  · exact not_mem_escapeAttribute_quote b.value

namespace Html.Piece

mutual

theorem strewn {ok held : SpelledTag → Prop} : ∀ p : Piece,
    (∀ t ∈ p.tags, (fenceTag t.1 t.2).Valid ∧ ok (fenceTag t.1 t.2)) →
      Strewn ok held (p.markupBy spellId)
  | text s, _ => .text (not_mem_escapeText_bracket s)
  | phrase name attributes s, known => by
      obtain ⟨valid, own⟩ := List.forall_mem_singleton.1 known
      have inner : Strewn ok held (escapeText s) := .text (not_mem_escapeText_bracket s)
      have whole := inner.around valid own
      rwa [SpelledTag.around, markup_fenceTag] at whole
  | block name attributes inner, known => by
      obtain ⟨⟨valid, own⟩, others⟩ := List.forall_mem_cons.1 known
      have inside : Strewn ok held (markupAllBy spellId inner) := strewnAll inner others
      have whole := inside.around valid own
      rwa [SpelledTag.around, markup_fenceTag] at whole

theorem strewnAll {ok held : SpelledTag → Prop} : ∀ ps : List Piece,
    (∀ t ∈ tagsAll ps, (fenceTag t.1 t.2).Valid ∧ ok (fenceTag t.1 t.2)) →
      Strewn ok held (markupAllBy spellId ps)
  | [], _ => .nil
  | p :: rest, known => by
      obtain ⟨first, others⟩ := List.forall_mem_append.1 known
      exact .append (p.strewn first) (strewnAll rest others)

end

end Html.Piece

theorem hasClass_congr {attributes others : Attributes} (name : Text)
    (same : attributes.get? "class" = others.get? "class") :
    attributes.hasClass name = others.hasClass name := by
  rw [Attributes.hasClass, Attributes.hasClass, Element.hasClass, Element.hasClass]
  simp only [same]

theorem pageTag_fence (options : Options) (token : FenceToken) {id : Text} (closed : '\x22' ∉ id)
    (html : Text) : ∀ t ∈ (fencePiece options token id).tags, (fenceTag t.1 t.2).Valid ∧
      PageTag notes [⟨id, if isChartFence options token then .chart
        else .code (fenceLanguage token), html⟩] (fenceTag t.1 t.2) := by
  have known {name : Text} {attributes : Attributes} (element : name ∈ pageElements)
      (names : areMarkupNames (attributes.map (·.name)) = true)
      (closed : ∀ a ∈ attributes, a.name = "id".toList ∨ a.name = "data-target".toList →
        '\x22' ∉ a.value)
      (plain : (fenceTag name attributes).read.attributes.hasClass chartClass = false)
      (blocks : List Block) : (fenceTag name attributes).Valid ∧
        PageTag notes blocks (fenceTag name attributes) := by
    have valid : ∀ name ∈ pageElements, isMarkupName name = true := by decide
    exact ⟨valid_fenceTag (valid name element) names closed, .other element plain⟩
  have language (blocks : List Block) : (fenceTag "span" [⟨"class", "code-lang"⟩]).Valid ∧
      PageTag notes blocks (fenceTag "span" [⟨"class", "code-lang"⟩]) :=
    known (by decide) rfl (by decide) rfl blocks
  unfold fencePiece
  cases chart : isChartFence options token with
  | true =>
      refine List.forall_mem_cons.2 ⟨known (by decide) rfl (by decide) rfl _, ?_⟩
      refine List.forall_mem_cons.2 ⟨known (by decide) rfl (by decide) rfl _, ?_⟩
      refine List.forall_mem_cons.2 ⟨language _, List.forall_mem_singleton.2 ⟨?_, ?_⟩⟩
      · have name : isMarkupName "div" = true := by decide
        exact valid_fenceTag name rfl (by simp [closed])
      · exact .placeholder (by simp [fenceTag]) ⟨_, List.mem_singleton_self _, rfl⟩
  | false =>
      let own : List Block := [⟨id, .code (fenceLanguage token), html⟩]
      have button : (fenceTag "button" (buttonAttributes id)).Valid ∧
          PageTag notes own (fenceTag "button" (buttonAttributes id)) :=
        known (by decide) rfl (by simp [buttonAttributes, closed]) rfl own
      have named : ∀ t ∈ Piece.tagsAll (languagePieces (fenceLanguage token)),
          (fenceTag t.1 t.2).Valid ∧ PageTag notes own (fenceTag t.1 t.2) := by
        unfold languagePieces
        split
        · exact List.forall_mem_nil _
        · exact List.forall_mem_singleton.2 (language _)
      refine List.forall_mem_cons.2 ⟨known (by decide) rfl (by decide) rfl _, ?_⟩
      refine List.forall_mem_cons.2 ⟨known (by decide) rfl (by decide) rfl _, ?_⟩
      refine List.forall_mem_append.2 ⟨?_, ?_⟩
      · rw [Piece.tagsAll_append]
        exact List.forall_mem_append.2 ⟨named, List.forall_mem_singleton.2 button⟩
      refine List.forall_mem_cons.2 ⟨known (by decide) rfl (by decide) rfl _, ?_⟩
      refine List.forall_mem_singleton.2 ⟨?_, ?_⟩
      · have name : isMarkupName "code" = true := by decide
        exact valid_fenceTag name rfl (by simp [codeAttributes, closed])
      by_cases same : fenceLanguage token = chartClass
      · have marked : Block.isMarked ⟨id, .code (fenceLanguage token), html⟩ = true := by
          simp [Block.isMarked, same]
        exact .placeholder (by simp [fenceTag]) ⟨_, List.mem_singleton_self _, marked⟩
      · have free : ∀ d ∈ fenceLanguage token, Text.isAsciiBlank d = false :=
          fun d member => isAsciiBlank_of_language member
        have plain := hasClass_code free id
        rw [decide_eq_false same] at plain
        exact .other (by simp [fenceTag, pageElements]) ((hasClass_congr chartClass rfl).trans plain)

theorem paged_fence (options : Options) (token : FenceToken) {id : Text} (closed : '\x22' ∉ id) :
    Paged notes [renderFence (m := Id) ⟨.html, options, none⟩ token id]
      (renderFence (m := Id) ⟨.html, options, none⟩ token id).html := by
  have spelled := renderFence_piece (m := Id) options token id
  rw [spelled]
  exact .append (Piece.strewn _ (pageTag_fence options token closed _)) (.text (by decide))

/-- What a value may hold for its node to be written with such tags. -/
def Markdown.Value.Composed (notes : Bool) (blocks : List LivePage.Block) : Value → Prop
  | .raw s => Paged notes blocks s
  | .tildes s => '<' ∉ s
  | .heading level => 1 ≤ level ∧ level ≤ 6
  | .codeBlock block => block.info = []
  | .footnoteDefinition _ _ | .footnoteReference _ _ _ => notes = true
  | .link _ | .image _ => False
  | _ => True

inductive Markdown.Node.Composed (notes : Bool) (blocks : List LivePage.Block) : Markdown.Node → Prop
  | mk {v : Value} {span : Span} {children : List Markdown.Node} (own : v.Composed notes blocks)
      (below : ∀ n ∈ children, Composed notes blocks n) : Composed notes blocks (.mk v span children)

theorem composed_raw {s : Text} (paged : Paged notes blocks s) (span : Span) :
    (Markdown.Node.mk (.raw s) span []).Composed notes blocks :=
  .mk paged (List.forall_mem_nil _)

theorem paged_link (url title : Text) : Paged notes blocks (markup (linkTokens url title)) := by
  rw [markup_linkTokens]
  exact .opened (valid_linkTag url title) (.link url title)

theorem paged_image (source alt title : Text) :
    Paged notes blocks (markup (imageTokens source alt title)) := by
  have known : "img".toList ∈ pageElements := by decide
  have image : Paged notes blocks (imageTag source alt title).markup :=
    .tag (valid_imageTag ..) known (hasClass_imageTag ..)
  rw [markup_imageTokens]
  exact .around valid_wrapperTag (by decide) rfl image

section Revised

variable {m : Type → Type} (o : Overrides m) (options : Options)

theorem composed_revisedNode (closed : ∀ i, '\x22' ∉ blockId o.context.options.idPrefix i) (i : Nat)
    {scope : Scope} {v : Value} (own : v.isParsed scope = true) (span : Span)
    (children : List Markdown.Node) {inner : List Markdown.Node}
    (below : ∀ n ∈ inner, n.Composed scope.notes blocks)
    (made : ∀ b ∈ o.ownBlocks (builtinAnswers options) i (.mk v span children), b ∈ blocks) :
    ∀ n ∈ o.revisedNode (builtinAnswers options) i (.mk v span children) inner,
      n.Composed scope.notes blocks := by
  have kept (own : v.Composed scope.notes blocks) :
      ∀ n ∈ [Markdown.Node.mk v span inner], n.Composed scope.notes blocks :=
    List.forall_mem_singleton.2 (.mk own below)
  cases v
  case codeBlock block =>
      obtain ⟨fenced, info, literal⟩ := block
      cases fenced with
      | true =>
          have fence : Paged scope.notes _ _ := paged_fence options ⟨literal, info⟩ (closed i)
          refine List.forall_mem_singleton.2 (.mk ?_ below)
          exact fence.grow made
      | false =>
          refine kept ?_
          exact List.isEmpty_iff.1 own
  case link target =>
      refine List.forall_mem_append.2 ⟨List.forall_mem_cons.2 ⟨?_, below⟩, ?_⟩
      · refine composed_raw ?_ _
        exact (renderLinkOpen_markup (m := Id) options _).symm ▸ paged_link _ _
      · have name : isMarkupName "a" = true := by decide
        exact List.forall_mem_singleton.2 (composed_raw (.closed name) _)
  case image target =>
      refine List.forall_mem_singleton.2 (composed_raw ?_ _)
      exact (renderImage_markup (m := Id) options _).symm ▸ paged_image _ _ _
  case raw s => cases own
  case tildes s =>
      refine kept ?_
      have plain : '<' ∉ "~~".toList := by decide
      have shown : s = "~~".toList := of_decide_eq_true own
      rwa [← shown] at plain
  case heading level =>
      have bounds : 1 ≤ level ∧ level ≤ 6 := of_decide_eq_true (Bool.and_eq_true_iff.1 own).2
      exact kept bounds
  case footnoteDefinition | footnoteReference => exact kept own
  all_goals exact kept trivial

mutual

theorem composed_revised (closed : ∀ i, '\x22' ∉ blockId o.context.options.idPrefix i) (i : Nat) :
    ∀ {scope : Scope} (n : Markdown.Node), n.Parsed scope →
      (∀ b ∈ o.blocksOf (builtinAnswers options) i n.preorder, b ∈ blocks) →
        ∀ k ∈ o.revised (builtinAnswers options) i n, k.Composed scope.notes blocks
  | _, .mk v span children, .mk own below, made => by
      rw [Markdown.Node.preorder, Overrides.blocksOf_cons, List.forall_mem_append] at made
      have inner := composed_revisedAll closed (i + 1) children below made.2
      exact composed_revisedNode o options closed i own span children inner made.1

theorem composed_revisedAll (closed : ∀ i, '\x22' ∉ blockId o.context.options.idPrefix i) (i : Nat) :
    ∀ {scope : Scope} (ns : List Markdown.Node), (∀ n ∈ ns, n.Parsed scope) →
      (∀ b ∈ o.blocksOf (builtinAnswers options) i (Markdown.Node.preorderAll ns), b ∈ blocks) →
        ∀ k ∈ o.revisedAll (builtinAnswers options) i ns, k.Composed scope.notes blocks
  | _, [], _, _ => List.forall_mem_nil _
  | _, n :: rest, parsed, made => by
      obtain ⟨first, others⟩ := List.forall_mem_cons.1 parsed
      rw [Markdown.Node.preorderAll, Overrides.blocksOf_append, List.forall_mem_append,
        Markdown.Node.length_preorder] at made
      exact List.forall_mem_append.2 ⟨composed_revised closed i n first made.1,
        composed_revisedAll closed (i + n.size) rest others made.2⟩

end

end Revised

theorem composed_whole (span : Span) {ns : List Markdown.Node}
    (composed : ∀ n ∈ ns, n.Composed notes blocks) :
    (Overrides.whole span ns).Composed notes blocks := by
  unfold Overrides.whole
  split
  · exact List.forall_mem_singleton.1 composed
  · exact .mk trivial composed

namespace Markdown.Output

def Goes (ok : SpelledTag → Prop) (o o' : Output) : Prop :=
  ∃ s, o'.reversed = s.reverse ++ o.reversed ∧ Strewn ok (fun _ => False) s

namespace Goes

variable {ok : SpelledTag → Prop} {o o' o'' : Output} {s : Text}

theorem refl (o : Output) : o.Goes ok o := ⟨[], rfl, .nil⟩

theorem trans (first : o.Goes ok o') (second : o'.Goes ok o'') : o.Goes ok o'' := by
  obtain ⟨s, written, strewn⟩ := first
  obtain ⟨t, written', strewn'⟩ := second
  refine ⟨s ++ t, ?_, .append strewn strewn'⟩
  rw [written', written, List.reverse_append, List.append_assoc]

theorem write (first : o.Goes ok o') (strewn : Strewn ok (fun _ => False) s) :
    o.Goes ok (o'.write s) :=
  first.trans ⟨s, rfl, strewn⟩

theorem fresh (first : o.Goes ok o') : o.Goes ok o'.fresh := by
  obtain ⟨lead, adds, lines, _⟩ := o'.exists_adds_fresh
  exact first.trans ⟨lead, adds.reversed, .text (lines.not_mem (by decide))⟩

end Goes
end Markdown.Output

theorem paged_mark (n : Nat) : Paged notes blocks (markTag.around (Text.ofNat n)) :=
  .around valid_markTag (by decide) rfl (.text (not_mem_ofNat n (by decide)))

theorem paged_backLinks (enabled : notes = true) (name : Text) (note count n : Nat) :
    Paged notes blocks (backLinks name note count n) := by
  induction count generalizing n with
  | zero => exact .nil
  | succ count ih =>
      have marked : Paged notes blocks (backMark n) := by
        unfold backMark
        split
        · exact paged_mark n
        · exact .nil
      have lead : '<' ∉ (if n ≠ 1 then [' '] else []) := by
        split <;> decide
      have arrow : '<' ∉ "↩".toList := by decide
      have valid := valid_backTag note (quote_not_mem_escapeAddress name)
        (quote_not_mem_backSuffix n)
      rw [backLinks_succ]
      exact .append (.text lead) (.append
        (.around valid (.back enabled _ _ note) (.append (.text arrow) marked)) (ih (n + 1)))

theorem goes_writeBack {o o' : Output} (first : o.Goes (PageTag notes blocks) o')
    (enabled : notes = true) (note : Text × Nat) :
    o.Goes (PageTag notes blocks) (writeBack o' note).1 := by
  rw [writeBack]
  split
  · exact first
  · exact first.write (paged_backLinks enabled note.1 o'.notes note.2 1)

theorem paged_omitted : Paged notes blocks omittedHtml :=
  .comment (s := " raw HTML omitted ") (by decide)

theorem paged_break : Paged notes blocks "<br />\n" :=
  have tag : Paged notes blocks (SpelledTag.markup ⟨"br", [], true⟩) :=
    .tag (SpelledTag.valid_bare (by decide)) (by decide) rfl
  .append tag (.text (s := "\n") (by decide))

theorem paged_box (done : Bool) : Paged notes blocks ("<li><input type=\"checkbox\"".toList ++
    (if done then " checked=\"\"" else "").toList ++ " disabled=\"\" /> ".toList) := by
  let box : SpelledTag := ⟨"input", [⟨"type", some "checkbox"⟩] ++
    (if done then [⟨"checked", some []⟩] else []) ++ [⟨"disabled", some []⟩], true⟩
  have tag : Paged notes blocks box.markup := by
    cases done <;> exact .tag (valid_spelledTag (by decide) rfl (by decide)) (by decide) rfl
  have whole := Strewn.append (Paged.bare "li" [] (by decide) (by decide))
    (Strewn.append tag (.text (s := " ") (by decide)))
  cases done <;> exact whole

theorem plain_of_ofTag {tag : Tag} (none : ofTag chartClass tag = []) :
    tag.attributes.hasClass chartClass = false := by
  rw [ofTag] at none
  split at none
  · cases none
  · next plain => exact Bool.eq_false_iff.2 plain

theorem paged_lists (style : ListStyle) : Paged notes blocks (listTag style).markup := by
  obtain ⟨valid, known, plain⟩ := listTag_facts style
  have element : ∀ name ∈ ["ol".toList, "ul"], name ∈ pageElements := by decide
  exact .tag valid (element _ known) (plain_of_ofTag plain)

theorem paged_notesStart (written : Nat) : Paged notes blocks (notesStart written) := by
  have list : Paged notes blocks "<ol>\n" := Paged.bare "ol" "\n" (by decide) (by decide)
  have section' : Paged notes blocks sectionTag.markup := .tag valid_sectionTag (by decide) rfl
  have feed : Paged notes blocks "\n" := .text (by decide)
  rw [notesStart]
  split
  · exact .append section' (.append feed list)
  · exact .nil

section Writing

variable {html : HtmlOptions} {children : List Markdown.Node} {out out' : Output}

/-- Nodes that are written with such tags, wherever they stand; inside of a note only if there may
be notes. -/
def GoesInside (notes : Bool) (blocks : List Block) (html : HtmlOptions)
    (ns : List Markdown.Node) : Prop :=
  ∀ (around : Surroundings) (out : Output), (around.note.isSome = true → notes = true) →
    out.Goes (PageTag notes blocks) (writeNodes html around out ns)

section Blocks

variable (inner : GoesInside notes blocks html children) {around : Surroundings} (span : Span)
  (start : out.Goes (PageTag notes blocks) out')

include inner start

theorem goes_inside (around : Surroundings) (allowed : around.note.isSome = true → notes = true) :
    out.Goes (PageTag notes blocks) (writeNodes html around out' children) :=
  start.trans (inner around out' allowed)

theorem goes_element (name : Text) (known : name ∈ pageElements) :
    out.Goes (PageTag notes blocks) ((writeNodes html {}
      (out'.write (SpelledTag.markup ⟨name, [], false⟩)) children).write
        (tokenMarkup (.closeTag name))) := by
  have valid : ∀ name ∈ pageElements, isMarkupName name = true := by decide
  let tag : SpelledTag := ⟨name, [], false⟩
  have bare : Paged notes blocks tag.markup :=
    .tag (SpelledTag.valid_bare (valid name known)) known rfl
  have opening := start.write bare
  exact (goes_inside inner opening {} nofun).write (.closed (valid name known))

theorem goes_quote :
    out.Goes (PageTag notes blocks) (writeNode html around out' (.mk .blockQuote span children)) := by
  have opening := start.fresh.write (Paged.bare "blockquote" "\n" (by decide) (by decide))
  have body := goes_inside inner opening {} nofun
  exact body.fresh.write (Paged.close "blockquote" "\n" (by decide) (by decide))

theorem goes_list (style : ListStyle) :
    out.Goes (PageTag notes blocks)
      (writeNode html around out' (.mk (.list style) span children)) := by
  have feed : Paged notes blocks "\n" := .text (by decide)
  have opening := start.fresh.write (.append (paged_lists style) feed)
  have body := goes_inside inner opening { listTight := style.tight } nofun
  rw [writeNode_list]
  exact body.write (Paged.close _ "\n" (listTag_facts style).1.name (by decide))

theorem goes_item :
    out.Goes (PageTag notes blocks) (writeNode html around out' (.mk .item span children)) := by
  have opening := start.fresh.write (Paged.bare "li" [] (by decide) (by decide))
  have body := goes_inside inner opening { tight := around.listTight } nofun
  exact body.write (Paged.close "li" "\n" (by decide) (by decide))

theorem goes_taskItem (done : Bool) : out.Goes (PageTag notes blocks)
    (writeNode html around out' (.mk (.taskItem done) span children)) := by
  have body := goes_inside inner (start.fresh.write (paged_box done))
    { tight := around.listTight } nofun
  exact body.write (Paged.close "li" "\n" (by decide) (by decide))

theorem goes_paragraph (allowed : around.note.isSome = true → notes = true) :
    out.Goes (PageTag notes blocks) (writeNode html around out' (.mk .paragraph span children)) := by
  have closing : Paged notes blocks "</p>\n" := Paged.close "p" "\n" (by decide) (by decide)
  have free : ({} : Surroundings).note.isSome = true → notes = true := fun none =>
    absurd none Bool.false_ne_true
  rw [writeNode]
  cases around.tight with
  | true => exact goes_inside inner start {} free
  | false =>
      simp only [Bool.false_eq_true, if_false]
      have opening := start.fresh.write (Paged.bare "p" [] (by decide) (by decide))
      have body := goes_inside inner opening {} free
      cases shown : around.note with
      | none => exact body.write closing
      | some note =>
          cases around.last with
          | false => exact body.write closing
          | true =>
              have enabled := allowed (by rw [shown]; rfl)
              have blank := body.write (.text (s := [' ']) (by decide))
              exact (goes_writeBack blank enabled note).write closing

theorem goes_heading {level : Nat} (bounded : 1 ≤ level ∧ level ≤ 6) :
    out.Goes (PageTag notes blocks)
      (writeNode html around out' (.mk (.heading level) span children)) := by
  have names : ∀ level ∈ [1, 2, 3, 4, 5, 6], 'h' :: Text.ofNat level ∈ pageElements := by decide
  have listed : level ∈ [1, 2, 3, 4, 5, 6] := by
    simp only [List.mem_cons, List.not_mem_nil, or_false]
    omega
  have feed : Paged notes blocks "\n" := .text (by decide)
  have whole := (goes_element inner start.fresh _ (names level listed)).write feed
  rw [Output.write_write] at whole
  have closing : tokenMarkup (.closeTag ('h' :: Text.ofNat level)) ++ "\n".toList =
      "</".toList ++ ('h' :: Text.ofNat level) ++ ">\n".toList := by simp [tokenMarkup]
  rw [closing] at whole
  exact whole

theorem goes_note (enabled : notes = true) (note : Text × Nat) : out.Goes (PageTag notes blocks)
    (writeNode html around out' (.mk (.footnoteDefinition note.1 note.2) span children)) := by
  have begun : out.Goes (PageTag notes blocks) (withNote out') :=
    start.trans ⟨notesStart out'.notes, rfl, paged_notesStart _⟩
  have tag : Paged notes blocks (noteTag note.1).markup :=
    .tag (valid_noteTag note.1) (by simp [noteTag, pageElements]) rfl
  have body := goes_inside inner (begun.write tag) { note := some note } fun _ => enabled
  have back := goes_writeBack body enabled note
  rw [writeNode_note, writeNote, ← markup_noteTag]
  refine Output.Goes.write ?_ (Paged.close "li" "\n" (by decide) (by decide))
  split
  · exact back.write (.text (s := ['\n']) (by decide))
  · exact back

theorem goes_table (columns : List Markdown.Alignment) : out.Goes (PageTag notes blocks)
    (writeNode html around out' (.mk (.table columns) span children)) := by
  have opening := start.fresh.write (Paged.bare "table" "\n" (by decide) (by decide))
  have body := goes_inside inner opening { columns } nofun
  rw [writeNode]
  refine (Output.Goes.fresh ?_).write (Paged.close "table" "\n" (by decide) (by decide))
  split
  · exact body.fresh.write (Paged.close "tbody" "\n" (by decide) (by decide))
  · exact body

theorem goes_row (header : Bool) : out.Goes (PageTag notes blocks)
    (writeNode html around out' (.mk (.tableRow header) span children)) := by
  have row {out' : Output} (start : out.Goes (PageTag notes blocks) out') :
      out.Goes (PageTag notes blocks) ((writeNodes html { columns := around.columns, head := header }
        (out'.write "<tr>") children).fresh.write "</tr>") := by
    have opening := start.write (Paged.bare "tr" [] (by decide) (by decide))
    have body := goes_inside inner opening { columns := around.columns, head := header } nofun
    exact body.fresh.write (Paged.close "tr" [] (by decide) (by decide))
  rw [writeNode]
  cases header with
  | true =>
      have head := start.fresh.write (Paged.bare "thead" "\n" (by decide) (by decide))
      exact (row head).fresh.write (Paged.close "thead" [] (by decide) (by decide))
  | false =>
      simp only [Bool.false_eq_true, if_false]
      refine row ?_
      split
      · exact start.fresh.write (Paged.bare "tbody" "\n" (by decide) (by decide))
      · exact start.fresh

theorem goes_cell : out.Goes (PageTag notes blocks)
    (writeNode html around out' (.mk .tableCell span children)) := by
  let tag := cellTag around.head (around.columns.headD .none)
  have element (head : Bool) (alignment : Markdown.Alignment) :
      (cellTag head alignment).Valid ∧ (cellTag head alignment).name ∈ pageElements ∧
        (cellTag head alignment).read.attributes.hasClass chartClass = false := by
    cases head <;> cases alignment <;>
      exact ⟨valid_spelledTag (by decide) rfl (by decide), by decide, rfl⟩
  obtain ⟨valid, known, plain⟩ := element around.head (around.columns.headD .none)
  have body := goes_inside inner (start.fresh.write (Paged.tag valid known plain)) {} nofun
  rw [writeNode, ← markup_cellTag]
  exact body.write (.closed valid.name)

end Blocks

theorem goes_code (start : out.Goes (PageTag notes blocks) out') (literal : Text) :
    out.Goes (PageTag notes blocks)
      ((out'.fresh.write "<pre><code>").write (escapeHtml literal ++ "</code></pre>\n".toList)) := by
  have opening : Paged notes blocks "<pre><code>" :=
    .append (Paged.bare "pre" [] (by decide) (by decide))
      (Paged.bare "code" [] (by decide) (by decide))
  have closing : Paged notes blocks "</code></pre>\n" :=
    .append (Paged.close "code" [] (by decide) (by decide))
      (Paged.close "pre" "\n" (by decide) (by decide))
  have text : Paged notes blocks (escapeHtml literal) := .text (bracket_not_mem_escapeHtml literal)
  exact (start.fresh.write opening).write (.append text closing)

mutual

theorem goes_writeNode (cautious : html.trusting = false) : ∀ n : Markdown.Node,
    n.Composed notes blocks →
    ∀ (around : Surroundings) (out : Output), (around.note.isSome = true → notes = true) →
      out.Goes (PageTag notes blocks) (writeNode html around out n)
  | .mk v span children, .mk own below => by
      intro around out allowed
      have start : out.Goes (PageTag notes blocks) out := .refl out
      have inner : GoesInside notes blocks html children :=
        goes_writeNodes cautious children below
      cases v
      case document => exact goes_inside inner start {} nofun
      case blockQuote => exact goes_quote inner span start
      case list style => exact goes_list inner span start style
      case item => exact goes_item inner span start
      case taskItem done => exact goes_taskItem inner span start done
      case codeBlock block =>
          obtain ⟨fenced, info, literal⟩ := block
          cases own
          exact goes_code start literal
      case htmlBlock literal =>
          rw [writeNode, cautious]
          exact (start.fresh.write paged_omitted).fresh
      case paragraph => exact goes_paragraph inner span start allowed
      case heading level => exact goes_heading inner span start own
      case thematicBreak =>
          have rule : Paged notes blocks (SpelledTag.markup ⟨"hr", [], true⟩) :=
            .tag (SpelledTag.valid_bare (by decide)) (by decide) rfl
          have feed : Paged notes blocks "\n" := .text (by decide)
          exact start.fresh.write (.append rule feed)
      case footnoteDefinition name references =>
          exact goes_note inner span start own (name, references)
      case table columns => exact goes_table inner span start columns
      case tableRow header => exact goes_row inner span start header
      case tableCell => exact goes_cell inner span start
      case text s => exact start.write (.text (bracket_not_mem_escapeHtml s))
      case softBreak =>
          rw [writeNode]
          split
          · exact start.write paged_break
          · exact start.write (.text (s := "\n") (by decide))
      case lineBreak => exact start.write paged_break
      case code s =>
          have opening : Paged notes blocks "<code>" := Paged.bare "code" [] (by decide) (by decide)
          have closing : Paged notes blocks "</code>" := Paged.close "code" [] (by decide) (by decide)
          have text : Paged notes blocks (escapeHtml s) := .text (bracket_not_mem_escapeHtml s)
          exact start.write (.append (.append opening text) closing)
      case htmlInline s =>
          rw [writeNode, cautious]
          exact start.write paged_omitted
      case raw s => exact goes_inside inner (start.write own) {} nofun
      case emph => exact goes_element inner start "em" (by decide)
      case strong => exact goes_element inner start "strong" (by decide)
      case strikethrough => exact goes_element inner start "del" (by decide)
      case superscript => exact goes_element inner start "sup" (by decide)
      case subscript => exact goes_element inner start "sub" (by decide)
      case underline => exact goes_element inner start "u" (by decide)
      case tildes s =>
          exact (goes_inside inner (start.write (.text own)) {} nofun).write (.text own)
      case link | image => exact own.elim
      case footnoteReference name number index =>
          have anchor : Paged notes blocks ((referenceTag name number).around (Text.ofNat index)) :=
            Strewn.around (valid_referenceTag name number) (.reference own name number)
              (.text (not_mem_ofNat index (by decide)))
          rw [writeNode, ← around_referenceTag]
          exact start.write (Paged.around valid_markTag (by decide) rfl anchor)

theorem goes_writeNodes (cautious : html.trusting = false) : ∀ ns : List Markdown.Node,
    (∀ n ∈ ns, n.Composed notes blocks) → GoesInside notes blocks html ns
  | [], _, _, out, _ => .refl out
  | n :: rest, composed, around, out, allowed => by
      obtain ⟨first, others⟩ := List.forall_mem_cons.1 composed
      have begun := goes_writeNode cautious n first { around with last := rest.isEmpty } out allowed
      exact begun.trans (goes_writeNodes cautious rest others _ _ allowed)

end

end Writing

theorem paged_toHtml {html : HtmlOptions} (cautious : html.trusting = false) {root : Markdown.Node}
    (composed : root.Composed notes blocks) : Paged notes blocks (toHtml html root) := by
  have closing : Paged notes blocks "</ol>\n</section>\n" :=
    .append (Paged.close "ol" "\n" (by decide) (by decide))
      (Paged.close "section" "\n" (by decide) (by decide))
  obtain ⟨s, written, paged⟩ : Output.Goes (PageTag notes blocks) {}
      (let o := writeNode html {} {} root
        if 0 < o.notes then o.write "</ol>\n</section>\n" else o) := by
    have begun := goes_writeNode cautious root composed {} {} nofun
    simp only
    split
    · exact begun.write closing
    · exact begun
  rw [toHtml, written, List.reverse_append, List.reverse_reverse]
  exact paged

end LivePage
