import LivePage.Proofs.Chart.Marking
import LivePage.Proofs.Html.Classed
import LivePage.Proofs.Markdown.Layout

/-!
Documents as they are written. What stands in the place of a block leads, wherever it is written,
through one element of the class of placeholders for each block among its fences that has the class,
in their order and with their identifiers.
-/

namespace LivePage
open Markdown Html Builder

namespace Markdown.Output

variable {o o' : Output} {s t : Text} {es : List Element}

theorem adds_write_append (o : Output) (s t : Text) : (o.write s).Adds t (o.write (s ++ t)) := by
  rw [← write_write]
  exact adds_write _ t

theorem Adds.line (tag : SpelledTag) (adds : (o.fresh.write tag.markup).Adds s o') :
    ∃ lead, Lines lead ∧ (o.reversed = [] → lead = []) ∧
      o.Adds (lead ++ (tag.around s ++ "\n".toList)) (o'.write (tokenMarkup (.closeTag tag.name) ++ "\n".toList)) := by
  obtain ⟨lead, fresh, lines, none⟩ := o.exists_adds_fresh
  refine ⟨lead, lines, none, fresh.trans ?_⟩
  rw [SpelledTag.around, List.append_assoc, List.append_assoc]
  exact (o.fresh.adds_write _).trans (adds.write _)

/-- Output goes on by markup of blocks, with such elements of the class. -/
def Flowing (o : Output) (es : List Element) (o' : Output) : Prop :=
  ∃ s, o.Adds s o' ∧ Flows chartClass s es ∧ (o.reversed = [] → Begins s)

theorem flowing_line {tag : SpelledTag} (valid : tag.Valid) (known : tag.name ∈ firstBlocks)
    (adds : (o.fresh.write tag.markup).Adds s o') (flows : Flows chartClass (tag.around s) es) :
    o.Flowing es (o'.write (tokenMarkup (.closeTag tag.name) ++ "\n".toList)) := by
  obtain ⟨lead, lines, none, whole⟩ := adds.line tag
  refine ⟨_, whole, ?_, fun empty => .inr ⟨tag, valid, known, ?_⟩⟩
  · have led := (Flows.of_text (lines.not_mem (by decide))).append
      (flows.append (.of_text (s := "\n") (by decide)))
    rwa [List.nil_append, List.append_nil] at led
  · rw [none empty]
    exact ⟨_, List.append_assoc ..⟩

end Markdown.Output

section Blocks

variable {m : Type → Type} (o : Overrides m) (options : Options) (html : HtmlOptions) {i : Nat}
  {v : Value} {span : Span} {children ns : List Markdown.Node} {n : Markdown.Node}
  {es us : List Element}

/-- A node is written as markup of blocks, except that a tight list may leave out the tags. -/
def Lays (n : Markdown.Node) (es : List Element) : Prop :=
  ∀ around out, ∃ s, Output.Adds out s (writeNode html around out n) ∧ Flows chartClass s es ∧
    (around.tight = false → out.reversed = [] → Begins s)

def LaysAll (ns : List Markdown.Node) (es : List Element) : Prop :=
  ∀ around out, ∃ s, Output.Adds out s (writeNodes html around out ns) ∧ Flows chartClass s es ∧
    (around.tight = false → out.reversed = [] → Begins s)

def LaysItems (ns : List Markdown.Node) (es : List Element) : Prop :=
  ∀ around out, ∃ s, Output.Adds out s (writeNodes html around out ns) ∧ Items chartClass s es

variable {html}

theorem LaysAll.nil : LaysAll html [] [] :=
  fun _ out => ⟨[], .refl out, .nil, fun _ _ => .inl rfl⟩

theorem LaysAll.cons (first : Lays html n es) (others : LaysAll html ns us) :
    LaysAll html (n :: ns) (es ++ us) := by
  intro around out
  rw [writeNodes]
  obtain ⟨s, adds, flows, begins⟩ := first { around with last := ns.isEmpty } out
  obtain ⟨t, more, behind, begins'⟩ := others _
    (writeNode html { around with last := ns.isEmpty } out n)
  refine ⟨s ++ t, adds.trans more, flows.append behind, fun loose empty => ?_⟩
  -- a node that writes nothing leaves the beginning to the next
  refine (begins loose empty).append fun none => begins' loose ?_
  rw [adds.reversed, none, empty]
  rfl

theorem flows_lines_around {lead behind s : Text} (lines : Lines lead) (lines' : Lines behind)
    (flows : Flows chartClass s es) : Flows chartClass (lead ++ (s ++ behind)) es := by
  have whole := (Flows.of_text (lines.not_mem (by decide))).append
    (flows.append (.of_text (lines'.not_mem (by decide))))
  rwa [List.nil_append, List.append_nil] at whole

theorem lays_of_flowing
    (flowing : ∀ around out, Output.Flowing out es (writeNode html around out n)) :
    Lays html n es := by
  intro around out
  obtain ⟨s, adds, flows, begins⟩ := flowing around out
  exact ⟨s, adds, flows, fun _ => begins⟩

theorem flowing_paragraph {out out' : Output} {s : Text}
    (adds : Output.Adds (out.fresh.write "<p>") s out') (runs : Runs chartClass s) :
    out.Flowing [] (out'.write "</p>\n") := by
  let tag : SpelledTag := ⟨"p", [], false⟩
  have valid : tag.Valid := SpelledTag.valid_bare (by decide)
  exact Output.flowing_line valid (by decide) adds (.of_textBlock valid (by decide) runs)

theorem lays_paragraph (inlines : Markdown.Node.areInlines children = true) :
    Lays html (.mk .paragraph span (o.revisedAll (builtinAnswers options) i children)) [] := by
  obtain ⟨s, runs, adds⟩ := adds_inlines o options html i inlines
  intro around out
  rw [writeNode]
  cases tight : around.tight with
  | true => exact ⟨s, adds {} out, .of_runs runs, fun loose => by cases loose⟩
  | false =>
      simp only [Bool.false_eq_true, if_false, true_imp_iff]
      have text := adds {} (out.fresh.write "<p>")
      cases note : around.note with
      | none => exact flowing_paragraph text runs
      | some references =>
          cases last : around.last with
          | false => exact flowing_paragraph text runs
          | true =>
              -- the last paragraph of a note leads back to the references
              obtain ⟨links, linked, back⟩ := exists_adds_writeBack ((writeNodes html {}
                (out.fresh.write "<p>") (o.revisedAll (builtinAnswers options) i children)).write
                  [' ']) references
              exact flowing_paragraph ((text.write [' ']).trans linked)
                ((runs.append (.of_text (by decide))).append back)

theorem lays_heading {level : Nat} (bounded : 1 ≤ level ∧ level ≤ 6)
    (inlines : Markdown.Node.areInlines children = true) :
    Lays html (.mk (.heading level) span (o.revisedAll (builtinAnswers options) i children))
      [] := by
  obtain ⟨s, runs, adds⟩ := adds_inlines o options html i inlines
  refine lays_of_flowing fun around out => ?_
  have names : ∀ level ∈ [1, 2, 3, 4, 5, 6], 'h' :: Text.ofNat level ∈ freeBlocks ∧
      'h' :: Text.ofNat level ∈ firstBlocks ∧ isMarkupName ('h' :: Text.ofNat level) = true := by
    decide
  have listed : level ∈ [1, 2, 3, 4, 5, 6] := by
    simp only [List.mem_cons, List.not_mem_nil, or_false]
    omega
  obtain ⟨free, first, name⟩ := names level listed
  let tag : SpelledTag := ⟨'h' :: Text.ofNat level, [], false⟩
  have valid : tag.Valid := SpelledTag.valid_bare name
  have flows : Flows chartClass (tag.around s) (ofTag chartClass tag.read) :=
    .of_textBlock valid free runs
  have written : writeNode html around out (.mk (.heading level) span
      (o.revisedAll (builtinAnswers options) i children)) =
        (writeNodes html {} (out.fresh.write tag.markup)
          (o.revisedAll (builtinAnswers options) i children)).write
            (tokenMarkup (.closeTag tag.name) ++ "\n".toList) := by
    have closing : tokenMarkup (.closeTag tag.name) ++ "\n".toList =
        "</".toList ++ tag.name ++ ">\n".toList := by
      simp [tokenMarkup]
    rw [closing]
    rfl
  rw [written]
  exact Output.flowing_line valid first (adds {} (out.fresh.write tag.markup)) flows

theorem lays_rule : Lays html (.mk .thematicBreak span []) [] := by
  refine lays_of_flowing fun around out => ?_
  let tag : SpelledTag := ⟨"hr", [], true⟩
  have valid : tag.Valid := SpelledTag.valid_bare (by decide)
  have rule : Flows chartClass tag.markup [] := .of_rule valid rfl rfl
  obtain ⟨lead, fresh, lines, none⟩ := out.exists_adds_fresh
  refine ⟨lead ++ (tag.markup ++ "\n".toList), fresh.write "<hr />\n", ?_, fun empty =>
    .inr ⟨tag, valid, by decide, "\n", by rw [none empty]; rfl⟩⟩
  exact flows_lines_around lines (List.forall_mem_singleton.2 rfl) rule

theorem lays_code (literal : Text) :
    Lays html (.mk (.codeBlock ⟨false, [], literal⟩) span []) [] := by
  refine lays_of_flowing fun around out => ?_
  let tag : SpelledTag := ⟨"pre", [], false⟩
  let code : SpelledTag := ⟨"code", [], false⟩
  have valid : tag.Valid := SpelledTag.valid_bare (by decide)
  have valid' : code.Valid := SpelledTag.valid_bare (by decide)
  have flows : Flows chartClass (tag.around (code.around (escapeHtml literal))) [] :=
    .of_code valid (by decide) valid' (bracket_not_mem_escapeHtml literal)
  have adds : Output.Adds (out.fresh.write tag.markup) (code.around (escapeHtml literal))
      ((out.fresh.write "<pre><code>").write (escapeHtml literal ++ "</code>".toList)) :=
    (Output.adds_write_append _ "<pre>" "<code>").write _
  have line := Output.flowing_line valid (by decide) adds flows
  rw [Output.write_write, List.append_assoc] at line
  exact line

theorem lays_quote (inner : LaysAll html ns es) : Lays html (.mk .blockQuote span ns) es := by
  refine lays_of_flowing fun around out => ?_
  let tag : SpelledTag := ⟨"blockquote", [], false⟩
  have valid : tag.Valid := SpelledTag.valid_bare (by decide)
  obtain ⟨s, adds, flows, _⟩ := inner {} (out.fresh.write "<blockquote>\n")
  obtain ⟨behind, fresh, lines, _⟩ :=
    (writeNodes html {} (out.fresh.write "<blockquote>\n") ns).exists_adds_fresh
  have whole := (Output.adds_write_append out.fresh "<blockquote>" "\n").trans (adds.trans fresh)
  have inside := flows_lines_around (List.forall_mem_singleton.2 rfl) lines flows
  exact Output.flowing_line valid (by decide) whole
    (.of_block valid (by decide) (by decide) inside)

theorem lays_table {columns : List Markdown.Alignment}
    (grid : Markdown.Node.isGrid children = true) :
    Lays html (.mk (.table columns) span (o.revisedAll (builtinAnswers options) i children))
      [] := by
  refine lays_of_flowing fun around out => ?_
  let tag : SpelledTag := ⟨"table", [], false⟩
  have valid : tag.Valid := SpelledTag.valid_bare (by decide)
  obtain ⟨s, adds, grids⟩ := adds_grid o options html i { columns }
    (out.fresh.write "<table>\n") grid
  obtain ⟨behind, fresh, lines, _⟩ := Output.exists_adds_fresh (if 2 ≤
    (o.revisedAll (builtinAnswers options) i children).length then (writeNodes html { columns }
      (out.fresh.write "<table>\n") (o.revisedAll (builtinAnswers options) i children)).fresh.write
        "</tbody>\n"
    else writeNodes html { columns } (out.fresh.write "<table>\n")
      (o.revisedAll (builtinAnswers options) i children))
  have whole := (Output.adds_write_append out.fresh "<table>" "\n").trans (adds.trans fresh)
  have inside : Grids chartClass .inTable ("\n".toList ++ (s ++ behind)) :=
    .append (.of_lines (List.forall_mem_singleton.2 rfl)) (.append grids (.of_lines lines))
  exact Output.flowing_line valid (by decide) whole (.of_table inside)

theorem LaysItems.nil : LaysItems html [] [] := fun _ out => ⟨[], .refl out, .nil⟩

theorem LaysItems.cons (item : v.isItem = true) (inner : LaysAll html children es)
    (others : LaysItems html ns us) : LaysItems html (.mk v span children :: ns) (es ++ us) := by
  intro around out
  rw [writeNodes]
  obtain ⟨t, more, behind⟩ := others _
    (writeNode html { around with last := ns.isEmpty } out (.mk v span children))
  suffices first : ∃ s, Output.Adds out s
      (writeNode html { around with last := ns.isEmpty } out (.mk v span children)) ∧
        Items chartClass s es by
    obtain ⟨s, adds, items⟩ := first
    exact ⟨s ++ t, adds.trans more, items.append behind⟩
  let tag : SpelledTag := ⟨"li", [], false⟩
  have valid : tag.Valid := SpelledTag.valid_bare (by decide)
  have line {s : Text} {out' : Output} (adds : Output.Adds (out.fresh.write "<li>") s out')
      (flows : Flows chartClass s es) :
      ∃ s, Output.Adds out s (out'.write "</li>\n") ∧ Items chartClass s es := by
    obtain ⟨lead, lines, _, whole⟩ := Output.Adds.line tag adds
    have feeds : Items chartClass lead [] := .of_flows (.of_text (lines.not_mem (by decide)))
    have feed : Items chartClass "\n" [] := .of_flows (.of_text (by decide))
    have items := feeds.append ((Items.of_item valid rfl flows).append feed)
    rw [List.append_nil] at items
    exact ⟨_, whole, items⟩
  cases v
  case item =>
      obtain ⟨s, adds, flows, _⟩ := inner { tight := around.listTight } (out.fresh.write "<li>")
      exact line adds flows
  case taskItem done =>
      let box : SpelledTag := ⟨"input", ⟨"type", some "checkbox"⟩ ::
        ((if done then [⟨"checked", some []⟩] else []) ++ [⟨"disabled", some []⟩]), true⟩
      have checked : box.Valid ∧ box.read.attributes.hasClass chartClass = false := by
        cases done <;> exact ⟨valid_spelledTag (by decide) rfl (by decide), rfl⟩
      have flows : Flows chartClass (box.markup ++ " ".toList) [] :=
        (Flows.of_input checked.1 rfl checked.2).append (.of_text (by decide))
      obtain ⟨s, adds, more, _⟩ := inner { tight := around.listTight }
        (out.fresh.write ("<li>".toList ++ (box.markup ++ " ".toList)))
      have text : "<li>".toList ++ (box.markup ++ " ".toList) =
          "<li><input type=\"checkbox\"".toList ++
            (if done then " checked=\"\"" else "").toList ++ " disabled=\"\" /> ".toList := by
        cases done <;> rfl
      have whole := line ((Output.adds_write_append _ _ _).trans adds) (flows.append more)
      rw [text] at whole
      exact whole
  all_goals cases item

def listTag (style : ListStyle) : SpelledTag :=
  if style.ordered then
    ⟨"ol", if style.start = 1 then [] else [⟨"start", some (Text.ofNat style.start)⟩], false⟩
  else ⟨"ul", [], false⟩

theorem listTag_facts (style : ListStyle) : (listTag style).Valid ∧
    (listTag style).name ∈ ["ol".toList, "ul"] ∧ ofTag chartClass (listTag style).read = [] := by
  obtain ⟨ordered, start, tight⟩ := style
  have number := not_mem_ofNat start (d := '\x22') (by decide)
  cases ordered with
  | false =>
      rw [listTag, if_neg Bool.false_ne_true]
      exact ⟨SpelledTag.valid_bare (by decide), by decide, rfl⟩
  | true =>
      rw [listTag, if_pos rfl]
      split
      · exact ⟨SpelledTag.valid_bare (by decide), by decide, rfl⟩
      · exact ⟨valid_spelledTag (by decide) rfl (by simpa using number), List.mem_cons_self, rfl⟩

theorem writeNode_list (style : ListStyle) (around : Surroundings) (out : Output) :
    writeNode html around out (.mk (.list style) span ns) =
      (writeNodes html { listTight := style.tight }
        (out.fresh.write ((listTag style).markup ++ "\n".toList)) ns).write
          (tokenMarkup (.closeTag (listTag style).name) ++ "\n".toList) := by
  obtain ⟨ordered, start, tight⟩ := style
  cases ordered with
  | false => rfl
  | true =>
      rw [writeNode, listTag]
      by_cases first : start = 1
      · subst first
        rfl
      · simp only [Bool.not_true, Bool.false_eq_true, first, if_true, if_false]
        simp [SpelledTag.markup, SpelledTag.ending, Spelled.markup, attr, tokenMarkup]

theorem lays_list {style : ListStyle} (items : LaysItems html ns es) :
    Lays html (.mk (.list style) span ns) es := by
  refine lays_of_flowing fun around out => ?_
  obtain ⟨valid, known, plain⟩ := listTag_facts style
  have first : ∀ name ∈ ["ol".toList, "ul"], name ∈ firstBlocks := by decide
  obtain ⟨s, adds, inner⟩ := items { listTight := style.tight }
    (out.fresh.write ((listTag style).markup ++ "\n".toList))
  have feed : Items chartClass "\n" [] := .of_flows (.of_text (by decide))
  have flows := Flows.of_list valid known (feed.append inner)
  rw [plain] at flows
  rw [writeNode_list]
  exact Output.flowing_line valid (first _ known)
    ((Output.adds_write_append _ _ _).trans adds) flows

theorem begins_fence (options : Options) (token : FenceToken) (id : Text) :
    Begins (markup (fenceTokens options token id)) := by
  rw [← markup_fencePiece, fencePiece]
  split
  · rw [chartPiece, markup_block, SpelledTag.around, List.append_assoc]
    exact .inr ⟨_, valid_escapedTag (by decide) rfl, by decide, _, rfl⟩
  · rw [codePiece, markup_block, SpelledTag.around, List.append_assoc]
    exact .inr ⟨_, valid_escapedTag (by decide) rfl, by decide, _, rfl⟩

theorem lays_raw {s : Text} (flows : Flows chartClass s es) (begins : Begins s) :
    Lays html (.mk (.raw s) span []) es :=
  lays_of_flowing fun _ out => ⟨s, out.adds_write s, flows, fun _ => begins⟩

/-- Elements with such a property that have the identifiers of the marked blocks, in their order. -/
def Marked (holds : List Element → Prop) (blocks : List Block) : Prop :=
  ∃ es, holds es ∧ es.map (·.attributes.get? "id") = marks blocks

theorem Marked.append {p q r : List Element → Prop} {blocks others : List Block}
    (first : Marked p blocks) (second : Marked q others)
    (both : ∀ es us, p es → q us → r (es ++ us)) : Marked r (blocks ++ others) := by
  obtain ⟨es, holds, ids⟩ := first
  obtain ⟨us, holds', ids'⟩ := second
  refine ⟨es ++ us, both es us holds holds', ?_⟩
  rw [List.map_append, ids, ids', marks_append]

theorem Marked.imp {p q : List Element → Prop} {blocks : List Block} (marked : Marked p blocks)
    (holds : ∀ es, p es → q es) : Marked q blocks := by
  obtain ⟨es, own, ids⟩ := marked
  exact ⟨es, holds es own, ids⟩

theorem blocksOf_of_plain (a : Answers) {ks : List Markdown.Node}
    (plain : ∀ k ∈ ks, k.fenceToken? = none) : o.blocksOf a i ks = [] := by
  induction ks generalizing i with
  | nil => exact o.blocksOf_nil a i
  | cons k ks ih =>
      obtain ⟨first, others⟩ := List.forall_mem_cons.1 plain
      rw [o.blocksOf_cons, Overrides.ownBlocks_of_other first, ih others, List.append_nil]

theorem marked_plain (lays : Lays html n []) {ks : List Markdown.Node}
    (plain : ∀ k ∈ ks, k.fenceToken? = none) :
    Marked (Lays html n) (o.blocksOf (builtinAnswers options) i ks) := by
  rw [blocksOf_of_plain o _ plain]
  exact ⟨[], lays, rfl⟩

theorem blocksOf_below (a : Answers)
    (other : (Markdown.Node.mk v span children).fenceToken? = none) :
    o.blocksOf a i (Markdown.Node.mk v span children).preorder =
      o.blocksOf a (i + 1) (Markdown.Node.preorderAll children) := by
  rw [Markdown.Node.preorder, o.blocksOf_cons, Overrides.ownBlocks_of_other other, List.nil_append]

theorem marked_fence (unled : o.context.options.idPrefix = none) (info literal : Text) :
    ∃ n', o.revised (builtinAnswers options) i (.mk (.codeBlock ⟨true, info, literal⟩) span []) =
        [n'] ∧
      Marked (Lays html n') (o.blocksOf (builtinAnswers options) i
        (Markdown.Node.mk (.codeBlock ⟨true, info, literal⟩) span []).preorder) := by
  let token : FenceToken := ⟨literal, info⟩
  have plain : (blockId none i).Plain := plain_blockId (by simp) i
  have stable : Unescaped (blockId none i) := unescaped_blockId (by simp) i
  have rendered := renderFence_markup (m := Id) options token stable
  obtain ⟨es, flows, ids⟩ := flows_fence options token plain
    (markup (fenceTokens options token (blockId none i)))
  refine ⟨_, rfl, es, ?_, ?_⟩
  · have html_eq : (renderFence (m := Id) ⟨.html, options, none⟩ token
        (blockId o.context.options.idPrefix i)).html =
          markup (fenceTokens options token (blockId none i)) := by
      rw [unled]
      exact congrArg (Block.html ·) rendered
    rw [html_eq]
    exact lays_raw flows (begins_fence options token _)
  · have blocks : o.blocksOf (builtinAnswers options) i
        (Markdown.Node.mk (.codeBlock ⟨true, info, literal⟩) span []).preorder =
          [renderFence (m := Id) ⟨.html, options, none⟩ token
            (blockId o.context.options.idPrefix i)] := rfl
    rw [ids, blocks, unled]
    exact congrArg (fun b => marks [b]) rendered.symm

mutual

/-- One node stands in the place of a block, with the elements of its fences. -/
theorem marked_block (unled : o.context.options.idPrefix = none) (i : Nat) :
    ∀ n : Markdown.Node, n.isBlock = true →
    ∃ n', o.revised (builtinAnswers options) i n = [n'] ∧
      Marked (Lays html n') (o.blocksOf (builtinAnswers options) i n.preorder)
  | .mk v span children, block => by
      cases v
      case paragraph =>
          exact ⟨_, rfl, marked_plain o options (lays_paragraph o options block)
            (List.forall_mem_cons.2 ⟨rfl, fenceToken?_of_inlines children block⟩)⟩
      case heading level =>
          rw [Markdown.Node.isBlock, Bool.and_eq_true, decide_eq_true_eq] at block
          exact ⟨_, rfl, marked_plain o options (lays_heading o options block.1 block.2)
            (List.forall_mem_cons.2 ⟨rfl, fenceToken?_of_inlines children block.2⟩)⟩
      case thematicBreak =>
          rw [Markdown.Node.isBlock, List.isEmpty_iff] at block
          subst block
          exact ⟨_, rfl, marked_plain o options lays_rule (List.forall_mem_singleton.2 rfl)⟩
      case codeBlock code =>
          rw [Markdown.Node.isBlock, Bool.and_eq_true, List.isEmpty_iff] at block
          obtain ⟨written, rfl⟩ := block
          obtain ⟨fenced, info, literal⟩ := code
          cases fenced with
          | true => exact marked_fence o options unled info literal
          | false =>
              rw [Bool.false_or, List.isEmpty_iff] at written
              obtain rfl : info = [] := written
              exact ⟨_, rfl, marked_plain o options (lays_code literal)
                (List.forall_mem_singleton.2 rfl)⟩
      case blockQuote =>
          refine ⟨_, rfl, ?_⟩
          rw [blocksOf_below o _ rfl]
          exact (marked_blocks unled (i + 1) children block).imp fun _ => lays_quote
      case list style =>
          refine ⟨_, rfl, ?_⟩
          rw [blocksOf_below o _ rfl]
          exact (marked_items unled (i + 1) children block).imp fun _ => lays_list
      case table columns =>
          exact ⟨_, rfl, marked_plain o options (lays_table o options block)
            (List.forall_mem_cons.2 ⟨rfl, fenceToken?_of_grid children block⟩)⟩
      all_goals cases block

theorem marked_blocks (unled : o.context.options.idPrefix = none) (i : Nat) :
    ∀ ns : List Markdown.Node, Markdown.Node.areBlocks ns = true →
    Marked (LaysAll html (o.revisedAll (builtinAnswers options) i ns))
      (o.blocksOf (builtinAnswers options) i (Markdown.Node.preorderAll ns))
  | [], _ => by
      rw [Markdown.Node.preorderAll, o.blocksOf_nil]
      exact ⟨[], LaysAll.nil, rfl⟩
  | n :: rest, blocks => by
      rw [Markdown.Node.areBlocks, Bool.and_eq_true] at blocks
      obtain ⟨n', shape, first⟩ := marked_block unled i n blocks.1
      rw [Overrides.revisedAll, shape, Markdown.Node.preorderAll, o.blocksOf_append,
        Markdown.Node.length_preorder]
      exact first.append (marked_blocks unled (i + n.size) rest blocks.2) fun _ _ => LaysAll.cons

theorem marked_items (unled : o.context.options.idPrefix = none) (i : Nat) :
    ∀ ns : List Markdown.Node, Markdown.Node.areItems ns = true →
    Marked (LaysItems html (o.revisedAll (builtinAnswers options) i ns))
      (o.blocksOf (builtinAnswers options) i (Markdown.Node.preorderAll ns))
  | [], _ => by
      rw [Markdown.Node.preorderAll, o.blocksOf_nil]
      exact ⟨[], LaysItems.nil, rfl⟩
  | .mk v span children :: rest, items => by
      rw [Markdown.Node.areItems, Bool.and_eq_true, Bool.and_eq_true] at items
      obtain ⟨⟨item, blocks⟩, others⟩ := items
      have kept : o.revised (builtinAnswers options) i (.mk v span children) =
          [.mk v span (o.revisedAll (builtinAnswers options) (i + 1) children)] ∧
            (Markdown.Node.mk v span children).fenceToken? = none := by
        cases v <;> first | exact ⟨rfl, rfl⟩ | cases item
      rw [Overrides.revisedAll, kept.1, Markdown.Node.preorderAll, o.blocksOf_append,
        Markdown.Node.length_preorder, blocksOf_below o _ kept.2]
      exact (marked_blocks unled (i + 1) children blocks).append
        (marked_items unled (i + (Markdown.Node.mk v span children).size) rest others)
          fun _ _ => LaysItems.cons item

end

end Blocks
end LivePage
