import LivePage.Proofs.Markdown.Inlines
import LivePage.Proofs.Markdown.Parsing
import LivePage.Proofs.Render.Overrides
import LivePage.Proofs.Typography.Shown
import LivePage.Render.Processor

/-!
The title of a document and the heading that is shown. The title is read from the tree as it was
parsed, the page is written from the tree with its typography and with the rules applied. Rules leave
the text of headings alone; typography may change it, and then the title is not what the page shows.
-/

namespace LivePage
open Markdown

namespace Markdown.Node

/-- The headings of level one among nodes and all below them, in preorder. -/
def topHeadings (nodes : List Node) : List Node :=
  (preorderAll nodes).filter fun n => n.value = .heading 1

def titleText (heading : Node) : Text := Text.trimBlank heading.inlineText

/-- The heading that gives the title. -/
def titleHeading? (root : Node) : Option Node :=
  (topHeadings [root]).find? fun h => !h.titleText.isEmpty

theorem topHeadings_append (ns others : List Node) :
    topHeadings (ns ++ others) = topHeadings ns ++ topHeadings others := by
  induction ns with
  | nil => rfl
  | cons n ns ih =>
      rw [topHeadings, List.cons_append, preorderAll, List.filter_append, topHeadings, preorderAll,
        List.filter_append, List.append_assoc]
      exact congrArg _ ih

theorem topHeadings_cons (n : Node) (rest : List Node) :
    topHeadings (n :: rest) = topHeadings [n] ++ topHeadings rest := topHeadings_append [n] rest

theorem topHeadings_heading {n : Node} (heading : n.value = .heading 1) :
    topHeadings [n] = n :: topHeadings n.children := by
  obtain ⟨v, span, children⟩ := n
  cases heading
  rw [topHeadings, preorderAll, preorderAll, List.append_nil, preorder]
  exact List.filter_cons_of_pos (decide_eq_true rfl)

theorem topHeadings_other {n : Node} (other : n.value ≠ .heading 1) :
    topHeadings [n] = topHeadings n.children := by
  obtain ⟨v, span, children⟩ := n
  rw [topHeadings, preorderAll, preorderAll, List.append_nil, preorder]
  exact List.filter_cons_of_neg (by simpa using other)

def firstText? (texts : List Text) : Option Text := texts.find? fun s => !s.isEmpty

theorem firstText?_append (texts others : List Text) :
    firstText? (texts ++ others) = (firstText? texts).or (firstText? others) :=
  List.find?_append

theorem title?_other {v : Value} (other : v ≠ .heading 1) (span : Span) (children : List Node) :
    (Node.mk v span children).title? = titleAmong? children := by
  rw [title?]
  · rfl
  · exact other

mutual

theorem title?_eq : ∀ n : Node, n.title? = firstText? ((topHeadings [n]).map titleText)
  | .mk v span children => by
      have below := titleAmong?_eq children
      by_cases heading : v = .heading 1
      · subst heading
        rw [topHeadings_heading rfl, List.map_cons, firstText?, List.find?_cons]
        change (if (titleText (.mk (.heading 1) span children)).isEmpty then titleAmong? children
          else some (titleText (.mk (.heading 1) span children))) = _
        rw [below]
        cases (titleText (.mk (.heading 1) span children)).isEmpty <;> rfl
      · rw [topHeadings_other (n := .mk v span children) heading, title?_other heading, below]
        rfl

theorem titleAmong?_eq : ∀ ns : List Node, titleAmong? ns = firstText? ((topHeadings ns).map titleText)
  | [] => rfl
  | n :: rest => by
      rw [titleAmong?, title?_eq n, titleAmong?_eq rest, topHeadings_cons n rest, List.map_append,
        firstText?_append]
      cases firstText? ((topHeadings [n]).map titleText) <;> rfl

end

theorem title?_eq_titleHeading? (root : Node) : root.title? = root.titleHeading?.map titleText := by
  rw [title?_eq, firstText?, List.find?_map]
  rfl

mutual

theorem topHeadings_inline {notes : Bool} :
    ∀ n : Node, n.Parsed ⟨notes, false⟩ → topHeadings [n] = []
  | .mk v span children, .mk own below => by
      have other : v ≠ .heading 1 := by
        rintro rfl
        cases own
      rw [Scope.below, Bool.and_false] at below
      rw [topHeadings_other (n := .mk v span children) other]
      exact topHeadings_inlines children below

theorem topHeadings_inlines {notes : Bool} :
    ∀ ns : List Node, (∀ n ∈ ns, n.Parsed ⟨notes, false⟩) → topHeadings ns = []
  | [], _ => rfl
  | n :: rest, parsed => by
      obtain ⟨first, others⟩ := List.forall_mem_cons.1 parsed
      rw [topHeadings_cons n rest, topHeadings_inline n first, topHeadings_inlines rest others]
      rfl

end

theorem topHeadings_below {scope : Scope} {n : Node} (parsed : n.Parsed scope)
    (inline : n.value.isInline = true) : topHeadings n.children = [] := by
  have below := parsed.children
  rw [Scope.below, inline] at below
  exact topHeadings_inlines n.children below

theorem topHeadings_mk {v : Value} (other : v ≠ .heading 1) (span : Span) (children : List Node) :
    topHeadings [.mk v span children] = topHeadings children :=
  topHeadings_other (n := .mk v span children) other

end Markdown.Node

open Markdown.Node

namespace Typographer

variable {t : Typographer}

theorem apply_other {n : Node} (other : n.text? = none) :
    t.apply n = .mk n.value n.span (t.applyAll n.children) := by
  have single := t.applyAll_singleton n
  rw [applyAll_other t other] at single
  exact (List.cons.inj single).1.symm

theorem text?_heading {n : Node} (heading : n.value = .heading 1) : n.text? = none := by
  rw [text?, heading]

theorem isInline_text {n : Node} (isText : n.text?.isSome) : n.value.isInline = true := by
  obtain ⟨s, text⟩ := Option.isSome_iff_exists.1 isText
  rw [eq_of_text? text]
  rfl

theorem topHeadings_run {scope : Scope} {run : List Node} (texts : AllTexts run)
    (parsed : ∀ n ∈ run, n.Parsed scope) (rest : List Node) :
    topHeadings (run ++ rest) = topHeadings rest := by
  induction run with
  | nil => rfl
  | cons n run ih =>
      obtain ⟨isText, later⟩ := List.forall_mem_cons.1 texts
      obtain ⟨first, others⟩ := List.forall_mem_cons.1 parsed
      have other : n.value ≠ .heading 1 := fun heading => by
        rw [text?_heading heading] at isText
        cases isText
      rw [List.cons_append, topHeadings_cons, topHeadings_other other,
        topHeadings_below first (isInline_text isText), List.nil_append, ih later others]

theorem topHeadings_applyAll (t : Typographer) (nodes : List Node) : ∀ {scope : Scope},
    (∀ n ∈ nodes, n.Parsed scope) →
      topHeadings (t.applyAll nodes) = (topHeadings nodes).map t.apply := by
  induction nodes using run_induction with
  | nil => exact fun _ => rfl
  | other n rest other below after =>
      intro scope parsed
      obtain ⟨first, others⟩ := List.forall_mem_cons.1 parsed
      have inner := below first.children
      rw [applyAll_other t other, topHeadings_cons, topHeadings_cons n rest, List.map_append,
        after others]
      refine congrArg (· ++ _) ?_
      by_cases heading : n.value = .heading 1
      · rw [topHeadings_heading heading, List.map_cons, ← inner, apply_other other]
        exact topHeadings_heading heading
      · rw [topHeadings_other heading, ← inner]
        exact topHeadings_mk heading n.span _
  | run first more rest texts ends below after =>
      intro scope parsed
      obtain ⟨run, others⟩ := List.forall_mem_append.1 parsed
      have none := below (List.forall_mem_cons.1 run).1.children
      rw [topHeadings_below (List.forall_mem_cons.1 run).1
        (isInline_text (List.forall_mem_cons.1 texts).1)] at none
      rw [applyAll_run t texts ends, topHeadings_cons, topHeadings_mk (by simp), none,
        topHeadings_run texts run, after others]
      rfl

theorem value_of_mem_topHeadings {h : Node} {nodes : List Node} (member : h ∈ topHeadings nodes) :
    h.value = .heading 1 :=
  of_decide_eq_true (List.mem_filter.1 member).2

theorem inlineText_eq (n : Node) : n.inlineText = inlineTextAll n.children := by
  cases n
  rfl

theorem inlineText_apply {h : Node} (heading : h.value = .heading 1) :
    (t.apply h).inlineText = inlineTextAll (t.applyAll h.children) := by
  rw [apply_other (text?_heading heading)]
  exact inlineText_eq _

theorem Keeps.titleText_apply {h : Node} (heading : h.value = .heading 1)
    (keeps : Keeps t h.children) : (t.apply h).titleText = h.titleText := by
  rw [titleText, inlineText_apply heading, keeps.inlineTextAll_eq, ← inlineText_eq]
  rfl

theorem isEmpty_titleText (h : Node) : h.titleText.isEmpty = true ↔ ink h.inlineText = [] := by
  rw [List.isEmpty_iff, titleText, trimBlank_eq_nil]

theorem keeps_of_titleText {h : Node} (none : h.titleText.isEmpty = true) : Keeps t h.children := by
  rw [isEmpty_titleText, inlineText_eq] at none
  exact keeps_of_blank t h.children none

theorem firstText?_of_keeps {hs : List Node} (headings : ∀ h ∈ hs, h.value = .heading 1)
    (keeps : ∀ h ∈ hs.find? fun h => !h.titleText.isEmpty, Keeps t h.children) :
    firstText? ((hs.map t.apply).map titleText) = firstText? (hs.map titleText) := by
  induction hs with
  | nil => rfl
  | cons h hs ih =>
      obtain ⟨first, others⟩ := List.forall_mem_cons.1 headings
      cases empty : h.titleText.isEmpty with
      | true =>
          have same := (keeps_of_titleText (t := t) empty).titleText_apply first
          simp only [List.find?_cons, empty, Bool.not_true] at keeps
          have later := ih others keeps
          simp only [firstText?, List.map_cons, List.find?_cons, same, empty, Bool.not_true] at later ⊢
          exact later
      | false =>
          simp only [List.find?_cons, empty, Bool.not_false] at keeps
          have same := (keeps h rfl).titleText_apply first
          simp only [firstText?, List.map_cons, List.find?_cons, same, empty, Bool.not_false]

theorem title?_apply_of_parsed (t : Typographer) {scope : Scope} {root : Node}
    (parsed : root.Parsed scope) :
    (t.apply root).title? = firstText? (((topHeadings [root]).map t.apply).map titleText) := by
  have headings := t.topHeadings_applyAll [root] (List.forall_mem_singleton.2 parsed)
  rw [applyAll_singleton] at headings
  rw [title?_eq, headings]

theorem keeps_of_firstText? (visible : Visible t.quotes) {hs : List Node}
    (headings : ∀ h ∈ hs, h.value = .heading 1)
    (same : firstText? ((hs.map t.apply).map titleText) = firstText? (hs.map titleText)) :
    ∀ h ∈ hs.find? fun h => !h.titleText.isEmpty, Keeps t h.children := by
  induction hs with
  | nil => exact nofun
  | cons h hs ih =>
      obtain ⟨first, others⟩ := List.forall_mem_cons.1 headings
      cases empty : h.titleText.isEmpty with
      | true =>
          have kept := (keeps_of_titleText (t := t) empty).titleText_apply first
          simp only [firstText?, List.map_cons, List.find?_cons, kept, empty, Bool.not_true] at same
          simpa only [List.find?_cons, empty, Bool.not_true] using ih others same
      | false =>
          have thins := thins_applyAll visible h.children
          have shown : (t.apply h).titleText.isEmpty = false := by
            cases none : (t.apply h).titleText.isEmpty with
            | false => rfl
            | true =>
                rw [isEmpty_titleText, inlineText_apply first] at none
                have blank := (isEmpty_titleText h).2 (inlineText_eq h ▸ thins.shows none)
                rw [empty] at blank
                cases blank
          simp only [firstText?, List.map_cons, List.find?_cons, shown, empty, Bool.not_false] at same
          simp only [List.find?_cons, empty, Bool.not_false]
          rintro _ ⟨⟩
          have trimmed := Option.some.inj same
          rw [titleText, inlineText_apply first, titleText, inlineText_eq] at trimmed
          exact keeps_of_inlineTextAll_eq visible _ (thins.eq_of_trimBlank trimmed)

end Typographer

namespace Overrides

variable {m : Type → Type} (o : Overrides m) (a : Answers)

/-- What stands where a node was: the node itself, the finished HTML of a fence around what is below
it, the tags of a link around it, or the finished HTML of an image. -/
theorem revisedNode_cases (index : Nat) (n : Node) (inner : List Node) :
    o.revisedNode a index n inner = [.mk n.value n.span inner] ∨
    (∃ code s, n.value = .codeBlock code ∧
      o.revisedNode a index n inner = [.mk (.raw s) n.span inner]) ∨
    (∃ target s s', n.value = .link target ∧
      o.revisedNode a index n inner = .mk (.raw s) default [] :: inner ++ [.mk (.raw s') default []]) ∨
    ∃ target s, n.value = .image target ∧
      o.revisedNode a index n inner = [.mk (.raw s) n.span []] := by
  obtain ⟨v, span, children⟩ := n
  cases v
  case codeBlock code =>
      cases fenced : code.fenced with
      | false => exact .inl (by simp only [revisedNode, fenced]; rfl)
      | true =>
          cases rule : a.fence with
          | none => exact .inl (by simp only [revisedNode, fenced, rule]; rfl)
          | some answer =>
              exact .inr (.inl ⟨code, _, rfl, by simp only [revisedNode, fenced, rule]; rfl⟩)
  case link target =>
      cases rule : a.linkOpen with
      | none => exact .inl (by simp only [revisedNode, rule]; rfl)
      | some answer =>
          exact .inr (.inr (.inl ⟨target, _, _, rfl, by simp only [revisedNode, rule]; rfl⟩))
  case image target =>
      cases rule : a.image with
      | none => exact .inl (by simp only [revisedNode, rule]; rfl)
      | some answer =>
          exact .inr (.inr (.inr ⟨target, _, rfl, by simp only [revisedNode, rule]; rfl⟩))
  all_goals exact .inl rfl

mutual

theorem inlineTextAll_revised (index : Nat) :
    ∀ n : Node, inlineTextAll (o.revised a index n) = inlineTextAll [n]
  | .mk v span children => by
      have inner := inlineTextAll_revisedAll (index + 1) children
      rw [revised]
      rcases o.revisedNode_cases a index (.mk v span children) (o.revisedAll a (index + 1) children)
        with kept | ⟨code, s, value, fence⟩ | ⟨target, s, s', value, link⟩ | ⟨target, s, value, image⟩
      · rw [kept]
        exact inlineTextAll_below fun _ => inner
      · cases value
        rw [fence]
        rfl
      · cases value
        have own := inlineTextAll_carrier (n := .mk (.link target) span children) rfl
        rw [link, inlineTextAll_append, inlineTextAll_cons, inner, own]
        exact List.append_nil _
      · cases value
        rw [image]
        rfl

theorem inlineTextAll_revisedAll (index : Nat) :
    ∀ ns : List Node, inlineTextAll (o.revisedAll a index ns) = inlineTextAll ns
  | [] => rfl
  | n :: rest => by
      rw [revisedAll, inlineTextAll_append, inlineTextAll_revised index n,
        inlineTextAll_revisedAll (index + n.size) rest, ← inlineTextAll_append]
      rfl

end

mutual

theorem topHeadings_revised (index : Nat) : ∀ {scope : Scope} (n : Node), n.Parsed scope →
    (topHeadings (o.revised a index n)).map inlineText = (topHeadings [n]).map inlineText
  | _, .mk v span children, parsed => by
      have text := o.inlineTextAll_revisedAll a (index + 1) children
      have inner := topHeadings_revisedAll (index + 1) children parsed.children
      rw [revised]
      rcases o.revisedNode_cases a index (.mk v span children) (o.revisedAll a (index + 1) children)
        with kept | ⟨code, s, value, fence⟩ | ⟨target, s, s', value, link⟩ | ⟨target, s, value, image⟩
      · rw [kept]
        by_cases heading : v = .heading 1
        · subst heading
          rw [topHeadings_heading rfl, topHeadings_heading rfl, List.map_cons, List.map_cons]
          exact congrArg₂ List.cons text inner
        · exact (congrArg _ (topHeadings_mk heading span _)).trans
            (inner.trans (congrArg _ (topHeadings_mk heading span children).symm))
      · cases value
        rw [fence, topHeadings_mk (by simp), topHeadings_mk (by simp)]
        exact inner
      · cases value
        rw [link, topHeadings_append, topHeadings_cons, topHeadings_mk (by simp),
          topHeadings_mk (by simp), topHeadings_mk (by simp), ← inner]
        simp [topHeadings, preorderAll]
      · cases value
        rw [image, topHeadings_mk (by simp), topHeadings_mk (by simp)]
        exact congrArg _ (topHeadings_below parsed rfl).symm

theorem topHeadings_revisedAll (index : Nat) : ∀ {scope : Scope} (ns : List Node),
    (∀ n ∈ ns, n.Parsed scope) →
      (topHeadings (o.revisedAll a index ns)).map inlineText = (topHeadings ns).map inlineText
  | _, [], _ => rfl
  | _, n :: rest, parsed => by
      obtain ⟨first, others⟩ := List.forall_mem_cons.1 parsed
      rw [revisedAll, topHeadings_append, List.map_append, topHeadings_revised index n first,
        topHeadings_revisedAll (index + n.size) rest others, ← List.map_append, ← topHeadings_cons]

end

theorem title?_whole (span : Span) (ns : List Node) : (whole span ns).title? = titleAmong? ns := by
  unfold whole
  split
  · next n => rw [title?_eq, titleAmong?_eq]
  · exact title?_other (by simp) span ns

theorem title?_apply [Monad m] [LawfulMonad m] {o : Overrides m} {a : Answers} (gives : o.Gives a)
    {scope : Scope} {root : Node} (parsed : root.Parsed scope) :
    ∃ tree blocks, o.apply root = pure (tree, blocks) ∧ tree.title? = root.title? := by
  cases empty : o.rules.isEmpty with
  | true =>
      refine ⟨root, [], ?_, rfl⟩
      rw [apply, if_pos empty]
  | false =>
      refine ⟨_, _, apply_of_gives gives empty root, ?_⟩
      have texts := congrArg (fun texts => firstText? (texts.map Text.trimBlank))
        (o.topHeadings_revised a 0 root parsed)
      simp only [List.map_map] at texts
      rw [title?_whole, titleAmong?_eq, title?_eq]
      exact texts

end Overrides

namespace Processor

theorem exists_parse_nil (o : Options) : ∃ span, parse o.parseOptions [] = .mk .document span [] := by
  obtain ⟨_, _, linkify, typographer, _, gfm⟩ := o
  cases linkify <;> cases typographer <;> cases gfm <;> exact ⟨_, rfl⟩

theorem styled_document {m : Type → Type} (p : Processor m) (source : Text) (span : Span) :
    p.styled source (.mk .document span []) = .mk .document span [] := by
  unfold styled
  split
  · exact Typographer.apply_other rfl
  · rfl

section Rendering

variable {m : Type → Type} [Monad m] [LawfulMonad m]

theorem apply_document (o : Overrides m) (span : Span) :
    o.apply (.mk .document span []) = pure (.mk .document span [], []) := by
  unfold Overrides.apply
  split
  · rfl
  · have seen : o.visit 0 (.ofNode (.mk .document span [])) =
        pure (.ofNode (.mk .document span []), []) := rfl
    change o.visitAll [0] _ >>= _ = _
    simp only [Overrides.visitAll, seen, pure_bind]
    rfl

theorem render_eq (p : Processor m) (markdown : Text) :
    let source := Text.normalizeBreaks markdown
    let root := parse p.options.parseOptions source
    p.render markdown = p.applyRules source (p.styled source root) >>= fun (tree, blocks) =>
      pure ⟨toHtml p.options.htmlOptions tree, blocks, root.title?⟩ := by
  intro source root
  cases markdown with
  | nil =>
      obtain ⟨span, parsed⟩ := exists_parse_nil p.options
      have shown : root = .mk .document span [] := parsed
      rw [shown, styled_document, applyRules, apply_document, pure_bind]
      rfl
  | cons c s => rfl

/-- The title of a rendered document is that of the tree that is written wherever typography is off
or leaves the texts of the heading that gives it, and in every style without blanks only there. -/
theorem reported_title (p : Processor m) {a : Answers} (markdown : Text)
    (gives : Overrides.Gives ⟨p.rules, p.context, Text.normalizeBreaks markdown,
      Text.lineStarts (Text.normalizeBreaks markdown)⟩ a) :
    let source := Text.normalizeBreaks markdown
    let root := parse p.options.parseOptions source
    let kept := p.options.typographer = true →
      ∀ h ∈ root.titleHeading?, Typographer.Keeps ⟨p.options.quotes, some source⟩ h.children
    ∃ (tree : Node) (blocks : List LivePage.Block),
      p.applyRules source (p.styled source root) = pure (tree, blocks) ∧
      p.render markdown = pure ⟨toHtml p.options.htmlOptions tree, blocks, root.title?⟩ ∧
      tree.title? = (p.styled source root).title? ∧
      (kept → root.title? = tree.title?) ∧
      (Typographer.Visible p.options.quotes → root.title? = tree.title? → kept) := by
  intro source root kept
  have parsed : root.Parsed ⟨p.options.gfm, true⟩ := parsed_parse p.options.parseOptions rfl source
  obtain ⟨tree, blocks, applied, title⟩ := Overrides.title?_apply gives (parsed_styled p source)
  have applied : p.applyRules source (p.styled source root) = pure (tree, blocks) := applied
  refine ⟨tree, blocks, applied, ?_, title, ?_⟩
  · rw [render_eq, applied, pure_bind]
  rw [title]
  cases typographer : p.options.typographer with
  | false =>
      have same : p.styled source root = root := by rw [Processor.styled, typographer]; rfl
      rw [same]
      exact ⟨fun _ => rfl, fun _ _ on => nomatch typographer.symm.trans on⟩
  | true =>
      let t : Typographer := ⟨p.options.quotes, some source⟩
      have same : p.styled source root = t.apply root := by rw [Processor.styled, typographer]; rfl
      have headings : ∀ h ∈ topHeadings [root], h.value = .heading 1 :=
        fun h member => Typographer.value_of_mem_topHeadings member
      rw [same, t.title?_apply_of_parsed parsed, title?_eq root]
      refine ⟨fun kept => ?_, fun visible equal _ => ?_⟩
      · exact (Typographer.firstText?_of_keeps headings (kept typographer)).symm
      · exact Typographer.keeps_of_firstText? visible headings equal.symm

end Rendering

/-- Emphasis is looked through, and a form in code is none. -/
theorem reported_title_code :
    let p : Processor Id := .ofOptions {}
    let source : Text := "## 1\n\n# A *b* `(c)`\n"
    let root := parse p.options.parseOptions source
    ∃ (tree : Node) (blocks : List LivePage.Block),
      p.render source = pure ⟨toHtml p.options.htmlOptions tree, blocks, some "A b (c)".toList⟩ ∧
      tree.title? = some "A b (c)".toList ∧
      ∀ h ∈ root.titleHeading?, Typographer.Keeps ⟨.straight, some source⟩ h.children := by
  intro p source root
  have same : Text.normalizeBreaks source = source := by decide +kernel
  have typed : root.title? = some "A b (c)".toList := by decide +kernel
  have styled : (p.styled source root).title? = some "A b (c)".toList := by decide +kernel
  have visible : Typographer.Visible p.options.quotes := by decide
  have gives : Overrides.Gives ⟨p.rules, p.context, Text.normalizeBreaks source,
      Text.lineStarts (Text.normalizeBreaks source)⟩ (builtinAnswers {}) := gives_builtin rfl rfl
  have reported := reported_title p source gives
  rw [same] at reported
  obtain ⟨tree, blocks, _, rendered, title, _, kept⟩ := reported
  rw [styled] at title
  refine ⟨tree, blocks, typed ▸ rendered, title, kept visible (typed.trans title.symm) rfl⟩

/-- Quotes that were typed straight are reported curly, and a symbol as it was typed, though the page
has straight quotes and the symbol. -/
theorem title_before_typography :
    let p : Processor Id := .ofOptions {}
    let source : Text := "# \x22Hi\x22 (c)\n"
    let tree := (p.applyRules source (p.styled source (parse p.options.parseOptions source))).1
    (p.render source).html = "<h1>&quot;Hi&quot; ©</h1>\n".toList ∧
    (p.render source).html = toHtml p.options.htmlOptions tree ∧
    tree.title? = some "\x22Hi\x22 ©".toList ∧
    (p.render source).title = some "“Hi” (c)".toList := by
  decide +kernel

end Processor

end LivePage
