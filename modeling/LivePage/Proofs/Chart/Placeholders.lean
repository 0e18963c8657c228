import LivePage.Chart.Check
import LivePage.Proofs.Chart.Written
import LivePage.Render.Processor

/-!
The placeholders of a rendered document, and the blocks that they stand for. Notes come in a list of
their own, in which all that follows the first note stands until the end of the document.
-/

namespace LivePage
open Markdown Html Builder

def sectionRegion (i : NodeId) : Region := topRegion.within ⟨i, ⟨.html, "section"⟩⟩

def notesRegion (i j : NodeId) : Region := (sectionRegion i).within ⟨j, ⟨.html, "ol"⟩⟩

theorem sectionRegion_flow (i : NodeId) : (sectionRegion i).Flow :=
  topRegion_flow.within i (by decide)

theorem notesRegion_flow (i j : NodeId) : (notesRegion i j).Flow :=
  (sectionRegion_flow i).within j (by decide)

/-- The states in which a document is read when so many notes have been written. -/
def Stage (notes : Nat) : Text → Builder → Prop :=
  if notes = 0 then Pending (Rest chartClass topRegion)
  else fun t b => ∃ i j, Pending (Rest chartClass (notesRegion i j)) t b

variable {s : Text} {es us : List Element} {n : Nat}

theorem stage_zero : Stage 0 = Pending (Rest chartClass topRegion) := if_pos rfl

theorem stage_succ (n : Nat) :
    Stage (n + 1) = fun t b => ∃ i j, Pending (Rest chartClass (notesRegion i j)) t b :=
  if_neg (Nat.succ_ne_zero n)

theorem leads_flows (flows : Flows chartClass s es) :
    Leads chartClass (Stage n) s es (Stage n) := by
  cases n with
  | zero =>
      rw [stage_zero]
      exact flows _ topRegion_flow
  | succ n =>
      rw [stage_succ]
      exact leads_exists fun i => leads_exists fun j => flows _ (notesRegion_flow i j)

theorem leads_items (items : Items chartClass s es) :
    Leads chartClass (Stage (n + 1)) s es (Stage (n + 1)) := by
  rw [stage_succ]
  refine leads_exists fun i => leads_exists fun j => ?_
  exact items (sectionRegion i) j "ol" (by decide) (notesRegion_flow i j)

theorem leads_feed (r : Region) : Leads chartClass (Pending (Rest chartClass r)) "\n" []
    (Pending (Rest chartClass r)) :=
  leads_text (by decide)

def sectionTag : SpelledTag :=
  ⟨"section", [⟨"class", some "footnotes"⟩, ⟨"data-footnotes", none⟩], false⟩

theorem valid_sectionTag : sectionTag.Valid := valid_spelledTag (by decide) rfl (by decide)

theorem leads_notes : Leads chartClass (Stage 0)
    "<section class=\"footnotes\" data-footnotes>\n<ol>\n" [] (Stage (n + 1)) := by
  have list : SpelledTag.Valid ⟨"ol", [], false⟩ := SpelledTag.valid_bare (by decide)
  have outer : Leads chartClass (Pending (Rest chartClass topRegion)) sectionTag.markup []
      (fun t b => ∃ i, Pending (Rest chartClass (sectionRegion i)) t b) :=
    leads_enter topRegion_flow valid_sectionTag fun _ h => h.openTag topRegion_flow (by decide)
  have inner (i : NodeId) : Leads chartClass
      (Pending (Rest chartClass (sectionRegion i)))
      ("\n".toList ++ (SpelledTag.markup ⟨"ol", [], false⟩ ++ "\n".toList)) []
      (fun t b => ∃ j, Pending (Rest chartClass (notesRegion i j)) t b) := by
    have opened := leads_enter (c := chartClass) (sectionRegion_flow i) list
      fun _ h => h.openTag (sectionRegion_flow i) (by decide)
    exact (leads_feed _).trans (opened.trans (leads_exists fun j => leads_feed _))
  rw [stage_zero, stage_succ]
  exact outer.trans (leads_exists inner)

def notesStart (notes : Nat) : Text :=
  if notes = 0 then "<section class=\"footnotes\" data-footnotes>\n<ol>\n" else []

theorem leads_notesStart (n : Nat) :
    Leads chartClass (Stage n) (notesStart n) [] (Stage (n + 1)) := by
  cases n with
  | zero => exact leads_notes
  | succ n =>
      -- the list is open, however many notes are in it
      have same : Stage (n + 1 + 1) = Stage (n + 1) := by rw [stage_succ, stage_succ]
      rw [same]
      exact .nil

def notesEnd (notes : Nat) : Text := if 0 < notes then "</ol>\n</section>\n" else []

theorem leads_notesEnd (notes : Nat) :
    Leads chartClass (Stage notes) (notesEnd notes) [] (Stage 0) := by
  cases notes with
  | zero => exact .nil
  | succ n =>
      rw [stage_succ, stage_zero]
      refine leads_of_forall fun i => leads_of_forall fun j => ?_
      have list := leads_leave (c := chartClass) (sectionRegion_flow i) "ol" (by decide) j
      have whole := leads_leave (c := chartClass) topRegion_flow "section" (by decide) i
      exact list.trans ((leads_feed _).trans (whole.trans (leads_feed _)))

namespace Markdown.Output

def Begun (o : Output) : Prop := o.reversed = [] → o.notes = 0

/-- Output goes on by a text that leads on, and that a document may begin with. -/
structure Reaches (o : Output) (es : List Element) (o' : Output) : Prop where
  text : ∃ s, o'.reversed = s.reverse ++ o.reversed ∧
    Leads chartClass (Stage o.notes) s es (Stage o'.notes) ∧ (o.reversed = [] → Begins s)
  begun : o'.Begun

theorem Reaches.trans {o o' o'' : Output} (first : o.Reaches es o') (second : o'.Reaches us o'') :
    o.Reaches (es ++ us) o'' := by
  obtain ⟨s, written, leads, begins⟩ := first.text
  obtain ⟨t, written', leads', begins'⟩ := second.text
  refine ⟨⟨s ++ t, ?_, leads.trans leads', fun empty => ?_⟩, second.begun⟩
  · rw [written', written, List.reverse_append, List.append_assoc]
  · refine (begins empty).append fun none => begins' ?_
    rw [written, none, empty]
    rfl

end Markdown.Output

section Document

variable {html : HtmlOptions} {around : Surroundings} {out : Output} {span : Span}
  {ns : List Markdown.Node} {k : Markdown.Node}

theorem reaches_block (loose : around.tight = false) (begun : out.Begun) (lays : Lays html k es) :
    out.Reaches es (writeNode html around out k) := by
  obtain ⟨s, adds, flows, begins⟩ := lays around out
  refine ⟨⟨s, adds.reversed, ?_, begins loose⟩, fun empty => ?_⟩
  · rw [adds.notes]
    exact leads_flows flows
  · rw [adds.reversed, List.append_eq_nil_iff] at empty
    rw [adds.notes, begun empty.2]

def writeNote (html : HtmlOptions) (note : Text × Nat) (ns : List Markdown.Node) (out : Output) :
    Output :=
  let written := writeBack (writeNodes html { note := some note }
    (out.write ("<li id=\"fn-".toList ++ escapeAddress note.1 ++ "\">".toList)) ns) note
  (if written.2 then written.1.write ['\n'] else written.1).write "</li>\n"

def withNote (out : Output) : Output :=
  ⟨(notesStart out.notes).reverse ++ out.reversed, out.notes + 1, out.notesBack⟩

theorem writeNode_note (html : HtmlOptions) (around : Surroundings) (out : Output)
    (note : Text × Nat) (span : Span) (ns : List Markdown.Node) :
    writeNode html around out (.mk (.footnoteDefinition note.1 note.2) span ns) =
      writeNote html note ns (withNote out) := by
  rw [writeNode, withNote, notesStart]
  by_cases first : out.notes = 0
  · rw [if_pos first, if_pos first]
    rfl
  · rw [if_neg first, if_neg first]
    rfl

def noteTag (name : Text) : SpelledTag :=
  ⟨"li", [⟨"id", some ("fn-".toList ++ escapeAddress name)⟩], false⟩

theorem valid_noteTag (name : Text) : (noteTag name).Valid :=
  valid_spelledTag (by decide) rfl (by simp [quote_not_mem_escapeAddress name])

theorem markup_noteTag (name : Text) :
    (noteTag name).markup = "<li id=\"fn-".toList ++ escapeAddress name ++ "\">".toList := by
  simp [noteTag, SpelledTag.markup, SpelledTag.ending, Spelled.markup, attr]

theorem items_note (note : Text × Nat) (inner : LaysAll html ns es) (out : Output) :
    ∃ s, Output.Adds out s (writeNote html note ns out) ∧ Items chartClass s es := by
  let tag := noteTag note.1
  have valid : tag.Valid := valid_noteTag note.1
  obtain ⟨s, adds, flows, _⟩ := inner { note := some note } (out.write tag.markup)
  let body := writeNodes html { note := some note } (out.write tag.markup) ns
  obtain ⟨links, linked, back⟩ := exists_adds_writeBack body note
  obtain ⟨feed, ended, lines⟩ : ∃ feed, Output.Adds (writeBack body note).1 feed
      (if (writeBack body note).2 then (writeBack body note).1.write ['\n']
        else (writeBack body note).1) ∧ Lines feed := by
    split
    · exact ⟨_, Output.adds_write _ _, List.forall_mem_singleton.2 rfl⟩
    · exact ⟨[], .refl _, List.forall_mem_nil _⟩
  have whole := (Output.Adds.around tag (adds.trans (linked.trans ended))).write "\n"
  have inside : Flows chartClass (s ++ (links ++ feed)) es := by
    have all := flows.append ((Flows.of_runs back).append (.of_text (lines.not_mem (by decide))))
    rwa [List.append_nil, List.append_nil] at all
  have item : Items chartClass (tag.around (s ++ (links ++ feed)) ++ "\n".toList) es := by
    have all := (Items.of_item valid rfl inside).append
      (.of_flows (.of_text (s := "\n") (by decide)))
    rwa [List.append_nil] at all
  refine ⟨_, ?_, item⟩
  rw [writeNote, ← markup_noteTag]
  rw [Output.write_write] at whole
  exact whole

theorem reaches_note (begun : out.Begun) (note : Text × Nat) (inner : LaysAll html ns es) :
    out.Reaches es
      (writeNode html around out (.mk (.footnoteDefinition note.1 note.2) span ns)) := by
  obtain ⟨s, adds, items⟩ := items_note note inner (withNote out)
  have leads := (leads_notesStart out.notes).trans (leads_items items)
  rw [List.nil_append] at leads
  rw [writeNode_note]
  refine ⟨⟨notesStart out.notes ++ s, ?_, ?_, fun empty => ?_⟩, fun empty => ?_⟩
  · rw [adds.reversed, List.reverse_append, List.append_assoc]
    rfl
  · rw [adds.notes]
    exact leads
  · rw [notesStart, if_pos (begun empty)]
    exact .inr ⟨sectionTag, valid_sectionTag, by decide, "\n<ol>\n".toList ++ s, rfl⟩
  · exact absurd (List.append_eq_nil_iff.1 empty).1 (by decide)

variable {m : Type → Type} (o : Overrides m) (options : Options)

theorem marked_children (unled : o.context.options.idPrefix = none) (i : Nat)
    (loose : around.tight = false) (begun : out.Begun)
    (children : (ns.all fun n => n.isBlock || n.isNote) = true) :
    Marked (fun es => out.Reaches es
        (writeNodes html around out (o.revisedAll (builtinAnswers options) i ns)))
      (o.blocksOf (builtinAnswers options) i (Markdown.Node.preorderAll ns)) := by
  induction ns generalizing i around out with
  | nil =>
      rw [Markdown.Node.preorderAll, o.blocksOf_nil]
      exact ⟨[], ⟨⟨[], rfl, .nil, fun _ => .inl rfl⟩, begun⟩, rfl⟩
  | cons n rest ih =>
      rw [List.all_cons, Bool.and_eq_true, Bool.or_eq_true] at children
      obtain ⟨child, others⟩ := children
      -- a note may be begun by the first child, so the rest goes on from what is written by then
      suffices first : ∃ n', o.revised (builtinAnswers options) i n = [n'] ∧
          Marked (fun es => ∀ around : Surroundings, around.tight = false →
            out.Reaches es (writeNode html around out n'))
              (o.blocksOf (builtinAnswers options) i n.preorder) by
        obtain ⟨n', shape, es, reaches, ids⟩ := first
        rw [Overrides.revisedAll, shape, List.singleton_append, writeNodes,
          Markdown.Node.preorderAll, o.blocksOf_append, Markdown.Node.length_preorder]
        have written := reaches { around with
          last := (o.revisedAll (builtinAnswers options) (i + n.size) rest).isEmpty } loose
        exact Marked.append ⟨es, written, ids⟩
          (ih (i + n.size) (by exact loose) written.begun others) fun _ _ => .trans
      rcases child with block | note
      · obtain ⟨n', shape, marked⟩ := marked_block o options unled i n block
        exact ⟨n', shape, marked.imp fun _ lays _ loose => reaches_block loose begun lays⟩
      · obtain ⟨v, span, children⟩ := n
        cases v
        case footnoteDefinition name references =>
            refine ⟨_, rfl, ?_⟩
            rw [blocksOf_below o _ rfl]
            exact (marked_blocks o options unled (i + 1) children note).imp
              fun _ lays _ _ => reaches_note begun (name, references) lays
        all_goals cases note

theorem map_attribute? {dom : Dom} {found : List NodeId}
    (elements : found.map dom.element? = es.map some) (name : Text) :
    found.map (dom.attribute? · name) = es.map (·.attributes.get? name) := by
  have values := congrArg (List.map fun e => Option.bind e fun e => e.attributes.get? name) elements
  rw [List.map_map, List.map_map] at values
  exact values

theorem ids_placeholders (html : HtmlOptions) (span : Span)
    (unled : o.context.options.idPrefix = none)
    (children : (ns.all fun n => n.isBlock || n.isNote) = true) {d : Document}
    (parsed : d = Document.parse (toHtml html
      (.mk .document span (o.revisedAll (builtinAnswers options) 1 ns)))) :
    (chartElements d).map (d.dom.attribute? · "id") =
      marks (o.blocksOf (builtinAnswers options) 1 (Markdown.Node.preorderAll ns)) := by
  have start : Output.Begun {} := fun _ => rfl
  let inner := o.revisedAll (builtinAnswers options) 1 ns
  have marked : Marked (fun es => Output.Reaches {} es (writeNodes html {} {} inner))
      (o.blocksOf (builtinAnswers options) 1 (Markdown.Node.preorderAll ns)) :=
    marked_children o options unled 1 rfl start children
  obtain ⟨es, ⟨⟨s, written, leads, begins⟩, begun⟩, ids⟩ := marked
  rw [← ids]
  refine map_attribute? ?_ "id"
  subst parsed
  let out := writeNodes html {} {} inner
  have shown : out.reversed.reverse = s := by
    rw [written, List.reverse_append, List.reverse_reverse]
    rfl
  have text : toHtml html (.mk .document span inner) = s ++ notesEnd out.notes := by
    rw [toHtml, notesEnd, ← shown]
    change (if 0 < out.notes then out.write "</ol>\n</section>\n" else out).reversed.reverse = _
    split
    · rw [Output.write, List.reverse_append, List.reverse_reverse]
    · exact (List.append_nil _).symm
  have whole := leads.trans (leads_notesEnd out.notes)
  rw [List.append_nil, stage_zero] at whole
  rw [text]
  refine Document.withClass_of_leads ((begins rfl).append fun none => ?_) whole
  have empty : out.reversed = [] := by rw [written, none]; rfl
  rw [notesEnd, begun empty]
  exact .inl rfl

end Document

section Rendering

variable {m : Type → Type} [Monad m] [LawfulMonad m]

/-- The rules leave one document, with what its children have become. -/
theorem apply_document {o : Overrides m} {a : Answers} (gives : o.Gives a)
    (some : o.rules.isEmpty = false) (span : Span) (children : List Markdown.Node) :
    o.apply (.mk .document span children) =
      pure (.mk .document span (o.revisedAll a 1 children),
        o.blocksOf a 0 (Markdown.Node.mk .document span children).preorder) :=
  Overrides.apply_of_gives gives some (.mk .document span children)

/-- The elements of a rendered document that have the class of placeholders are, in document order,
those of its charts and of its code in a language that is the class. -/
theorem placeholders_of_document (p : Processor m) (rules : p.rules = .builtin)
    (escaper : p.escaper = .html) (highlighter : p.highlighter = none)
    (unled : p.options.idPrefix = none) (source : Text) {root : Markdown.Node}
    (document : root.isDocument = true) :
    ∃ tree blocks, p.applyRules source root = pure (tree, blocks) ∧
      let d := Document.parse (toHtml p.options.htmlOptions tree)
      (chartElements d).map (d.dom.attribute? · "id") =
          (blocks.filter Block.isMarked).map (fun b => some b.id) ∧
        ((∀ b ∈ blocks, b.kind ≠ .code chartClass) →
          (chartElements d).map (d.dom.attribute? · "id") =
            (blocks.filter (·.kind = .chart)).map fun b => some b.id) := by
  obtain ⟨v, span, children⟩ := root
  cases v
  case document =>
      let o : Overrides m := ⟨p.rules, p.context, source, Text.lineStarts source⟩
      have context : o.context = ⟨.html, p.options, none⟩ := by
        rw [← escaper, ← highlighter]
        rfl
      have gives : o.Gives (builtinAnswers p.options) := gives_builtin rules context
      have some : o.rules.isEmpty = false := by
        change p.rules.isEmpty = false
        rw [rules]
        rfl
      have unled' : o.context.options.idPrefix = none := by rw [context]; exact unled
      have shown := ids_placeholders o p.options p.options.htmlOptions span unled' document rfl
      rw [← blocksOf_below o (i := 0) (v := .document) _ rfl] at shown
      refine ⟨_, _, apply_document gives some span children, shown, fun other => shown.trans ?_⟩
      rw [marks]
      refine congrArg (List.map _) (List.filter_congr fun b member => ?_)
      simp [Block.isMarked, other b member]
  all_goals cases document

end Rendering

/-- A chart in a quotation, other code, and code that is taken for a chart behind a table. -/
theorem placeholders_of_document_quoted :
    let fence (info : String) : Markdown.Node :=
      .mk (.codeBlock ⟨true, info.toList, "x\n"⟩) default []
    let cell : Markdown.Node := .mk .tableCell default [.mk (.text "a") default []]
    let table : Markdown.Node := .mk (.table [.left]) default
      [.mk (.tableRow true) default [cell], .mk (.tableRow false) default [cell]]
    let root : Markdown.Node := .mk .document default
      [.mk .blockQuote default [fence "echarts"], fence "rs", table, fence "echarts-chart"]
    let p : Processor Id := .ofOptions {}
    ∃ tree blocks, p.applyRules [] root = (tree, blocks) ∧
      blocks.map (·.kind) = [.chart, .code "rs", .code "echarts-chart"] ∧
      let d := Document.parse (toHtml p.options.htmlOptions tree)
      (chartElements d).map (d.dom.attribute? · "id") =
        [some "code-block-2".toList, some "code-block-11".toList] := by
  intro fence cell table root p
  have document : root.isDocument = true := by decide
  obtain ⟨tree, blocks, applied, ids, _⟩ :=
    placeholders_of_document p rfl rfl rfl rfl [] document
  have own : blocks = (p.applyRules [] root).2 := congrArg Prod.snd applied.symm
  refine ⟨tree, blocks, applied, ?_, ids.trans ?_⟩
  · rw [own]
    decide +kernel
  · rw [own]
    decide +kernel

/-- Code whose language is the class of placeholders is taken for a chart. -/
theorem placeholders_of_code :
    let p : Processor Id := .ofOptions {}
    let root : Markdown.Node :=
      .mk .document default [.mk (.codeBlock ⟨true, "echarts-chart", "x\n"⟩) default []]
    let written := p.applyRules [] root
    let html := toHtml p.options.htmlOptions written.1
    let d := Document.parse html
    written.2.map (fun b => (b.id, b.kind)) = [("code-block-1".toList, .code "echarts-chart")] ∧
      (chartElements d).map (d.dom.attribute? · "id") = [some "code-block-1".toList] ∧
      (chartProblems html).map (·.id) = ["code-block-1".toList] := by
  decide +kernel

end LivePage
