import LivePage.Command.Rendering
import LivePage.Proofs.Chart.Agreement
import LivePage.Proofs.Chart.Interrupting
import LivePage.Proofs.Chart.ScriptText
import LivePage.Proofs.Html.SoberWriting
import LivePage.Proofs.Render.Hardening

/-!
Pages with their charts activated. A pass leaves every chart element of the document latched that
it is made on, and that is what is written down. Read again, what is written for a page without raw
HTML has its chart elements latched too. The pass is left out where no chart was rendered, whatever
else has the class of placeholders.
-/

namespace LivePage
open Html

/-- A chart element that a pass has taken up. It is latched, and of its children none is new but a
script. -/
inductive Html.Dom.TakesUp (d d' : Dom) (i : NodeId) : Prop
  | intro {e : Element} (shown : d.element? i = some e) (chart : e.hasClass chartClass = true)
      (fresh : e.attributes.contains latchAttribute = false)
      (latched : d'.element? i = some e.latched)
      (children : ∀ j ∈ d'.children i, j ∈ d.children i ∨
        ∃ declaration text, d.Embeds d' i declaration j text)

theorem Html.Dom.takesUp_of_effect {d d' : Dom} {i : NodeId} {e : Element}
    (shown : d.element? i = some e) (chart : e.hasClass chartClass = true)
    (fresh : e.attributes.contains latchAttribute = false)
    (effect : (Fate.ofAttributes e.attributes).Effect d d' i e) : d.TakesUp d' i := by
  have taken := Dom.outcome_fate_ne_skipped ((isActivated_of_element? shown).trans fresh)
  rw [Dom.fate_of_element? shown] at taken
  generalize Fate.ofAttributes e.attributes = fate at effect taken
  cases fate with
  | activated declaration =>
      obtain ⟨latched, script, text, embeds⟩ := effect
      refine .intro shown chart fresh latched fun j child => ?_
      rw [embeds.behind, List.mem_append, List.mem_singleton] at child
      exact child.imp_right fun (same : j = script) => ⟨declaration, text, same ▸ embeds⟩
  | skipped => exact absurd rfl taken
  | missing => exact .intro shown chart fresh effect.1 fun j child => .inl (effect.2 ▸ child)
  | failed error =>
      refine .intro shown chart fresh effect.1 fun j child => ?_
      rw [effect.2] at child
      cases child

namespace Html.Document

/-- What a pass makes of a document. A node stays as it is, and is latched if it is a chart element,
or it is taken up. -/
structure Activates (d : Document) (dom : Dom) : Prop where
  root : d.root < d.dom.size
  each : ∀ i < d.dom.size,
    d.dom.SameAt dom i ∧ (d.HasClass chartClass i → isActivated d.dom i = true) ∨
      d.dom.TakesUp dom i

/-- What stands below the root of a document after a pass: what stood there, and scripts. -/
inductive Left (d : Document) (dom : Dom) (i : NodeId) : Prop
  | old (reached : d.dom.Reaches d.root i)
  | script {container text : NodeId} {declaration : Declaration}
      (embeds : d.dom.Embeds dom container declaration i text)
  | text {container script : NodeId} {declaration : Declaration}
      (embeds : d.dom.Embeds dom container declaration script i)

theorem exists_activates (d : Document) (rooted : d.Rooted) (root : d.root < d.dom.size) :
    ∃ pass : Pass,
      (∀ (m : Type → Type) [Monad m] [LawfulMonad m],
        (activateCharts embedScript d : m Pass) = pure pass) ∧ d.Activates pass.dom := by
  obtain ⟨pass, run, charts, others, _⟩ := activateCharts_effect d rooted
  refine ⟨pass, run, root, fun i old => ?_⟩
  by_cases latched : d.HasClass chartClass i → isActivated d.dom i = true
  · exact .inl ⟨others i old latched, latched⟩
  · obtain ⟨chart, fresh⟩ := Classical.not_imp.1 latched
    obtain ⟨_, e, shown, marked⟩ := id chart
    rw [isActivated_of_element? shown, Bool.not_eq_true] at fresh
    exact .inr (Dom.takesUp_of_effect shown marked fresh (charts i e chart shown))

namespace Activates

variable {d : Document} {dom : Dom}

theorem lt_size (h : d.Activates dom) {i : NodeId} (reached : d.dom.Reaches d.root i) :
    i < d.dom.size := by
  rcases Relation.ReflTransGen.cases_tail reached with same | ⟨_, _, child⟩
  · exact same ▸ h.root
  · exact Dom.child_lt_size child

theorem left_child (h : d.Activates dom) {p i : NodeId} (left : d.Left dom p)
    (child : i ∈ dom.children p) : d.Left dom i := by
  cases left with
  | old reached =>
      rcases h.each p (h.lt_size reached) with ⟨same, _⟩ | takesUp
      · rw [same.2] at child
        exact .old (reached.tail child)
      · obtain ⟨_, _, _, _, children⟩ := takesUp
        rcases children i child with old | ⟨declaration, text, embeds⟩
        · exact .old (reached.tail old)
        · exact .script embeds
  | script embeds =>
      rw [embeds.inside, List.mem_singleton] at child
      exact .text (child ▸ embeds)
  | text embeds =>
      rw [embeds.leaf] at child
      cases child

theorem left_of_reaches (h : d.Activates dom) {i : NodeId} (reaches : dom.Reaches d.root i) :
    d.Left dom i := by
  induction reaches with
  | refl => exact .old .refl
  | tail _ child ih => exact h.left_child ih child

theorem latched (h : d.Activates dom) :
    ∀ i ∈ chartElements { d with dom }, isActivated dom i = true := by
  intro i member
  obtain ⟨reaches, e, shown, chart⟩ := mem_withClass.1 member
  cases h.left_of_reaches reaches with
  | old reached =>
      rcases h.each i (h.lt_size reached) with ⟨same, latched⟩ | takesUp
      · have before : d.dom.element? i = some e := (Dom.element?_congr same.1).symm.trans shown
        have activated := latched ⟨reached, e, before, chart⟩
        rw [isActivated_of_element? before] at activated
        rw [isActivated_of_element? shown]
        exact activated
      · obtain ⟨_, _, _, after, _⟩ := takesUp
        rw [isActivated_of_element? after]
        exact Element.contains_latched _
  | script embeds =>
      have script : e = scriptElement :=
        Option.some.inj (shown.symm.trans (Dom.element?_of_content? embeds.element))
      rw [script] at chart
      exact absurd chart (by decide)
  | text embeds =>
      have content := embeds.body
      rw [Dom.content?_of_element? shown] at content
      cases content

end Activates
end Html.Document

/-- The attributes of an element of a page with such blocks. Only placeholders have their class. -/
structure Carries (blocks : List Block) (name : Text) (attributes : Attributes) : Prop where
  other : name ≠ "script".toList
  names : ∀ a ∈ attributes, isMarkupName a.name = true
  distinct : (attributes.map (·.name)).Nodup
  chart : attributes.hasClass chartClass = true →
    name ∈ ["div".toList, "code"] ∧ ∃ b ∈ blocks, b.isMarked = true

theorem lasting_carries (blocks : List Block) : Lasting (Carries blocks) := by
  refine ⟨fun name other => ?_, fun name second spine a b first more => ?_⟩
  · exact ⟨other, List.forall_mem_nil _, .nil, fun marked => absurd marked (by decide)⟩
  · refine ⟨first.other, fun c member => ?_, ?_, fun marked => ?_⟩
    · rcases List.mem_append.1 member with old | new
      · exact first.names c old
      · exact more.names c (List.mem_of_mem_filter new)
    · exact Attributes.nodup_addMissing first.distinct more.distinct
    · rcases Attributes.hasClass_of_addMissing marked with old | new
      · exact first.chart old
      · have apart : ∀ name ∈ spineNames, name ∉ ["div".toList, "code"] := by decide
        exact absurd (more.chart new).1 (apart second spine)

theorem PageTag.carries {notes : Bool} {blocks : List Block} {tag : SpelledTag} (valid : tag.Valid)
    (known : PageTag notes blocks tag) :
    tag.name ∈ ordinaryNames ∧ Carries blocks tag.name tag.read.attributes := by
  have ordinary : tag.name ∈ ordinaryNames := by
    have elements : ∀ name ∈ pageElements, name ∈ ordinaryNames := by decide
    have placeholders : ∀ name ∈ ["div".toList, "code"], name ∈ ordinaryNames := by decide
    have anchor : "a".toList ∈ ordinaryNames := by decide
    cases known with
    | link url title => exact anchor
    | reference enabled name number => exact anchor
    | back enabled address suffix note => exact anchor
    | placeholder name made => exact placeholders _ name
    | other name plain => exact elements _ name
  have names : tag.read.attributes.map (·.name) = tag.attributes.map (·.name) := by
    simp only [SpelledTag.read, SpelledTag.unified, SpelledTag.resolved, List.map_map]
    rfl
  refine ⟨ordinary, Builder.ne_of_ordinary ordinary "script" (by decide), fun a member => ?_,
    names ▸ valid.distinct, fun marked => ?_⟩
  · have listed := List.mem_map_of_mem (f := fun a : Attribute => a.name) member
    rw [names] at listed
    obtain ⟨b, spelled, same⟩ := List.mem_map.1 listed
    exact same ▸ (valid.attributes b spelled).1
  · cases known with
    | link url title =>
        rw [hasClass_linkTag] at marked
        cases marked
    | reference enabled name number => cases marked
    | back enabled address suffix note => cases marked
    | placeholder name made => exact ⟨name, made⟩
    | other name plain =>
        rw [plain] at marked
        cases marked

theorem sober_page {notes : Bool} {blocks : List Block} {s : Text} (paged : Paged notes blocks s) :
    (Document.parse s).dom.Sober (Carries blocks) := by
  refine Document.sober_parse ?_ paged.valid
  refine ⟨lasting_carries blocks, fun tag known => known.2.carries known.1, ?_, ?_⟩
  · exact fun tag held => held.2.elim
  · exact fun tag held => held.2.elim

/-- A chart element is latched. -/
def Latches (_ : Text) (attributes : Attributes) : Prop :=
  attributes.hasClass chartClass = true → attributes.contains latchAttribute = true

theorem lasting_latches : Lasting Latches := by
  refine ⟨fun name _ marked => absurd marked (by decide), ?_⟩
  intro name other _ a b first more marked
  rw [Attributes.contains_addMissing]
  rcases Attributes.hasClass_of_addMissing marked with old | new
  · rw [first old, Bool.true_or]
  · rw [more new, Bool.or_true]

/-- The tags of a page after a pass, besides those of scripts. -/
def LatchedTag (tag : SpelledTag) : Prop :=
  tag.name ∈ ordinaryNames ∧ Latches tag.name tag.read.attributes ∧ tag.Unbracketed

theorem readable_latched :
    Readable Latches LatchedTag fun tag => tag = scriptElement.spelled := by
  refine ⟨lasting_latches, fun tag known => ⟨known.1, known.2.1⟩, ?_, ?_⟩
  · rintro tag rfl
    have other : scriptElement.spelled.read.attributes.hasClass chartClass = false := by decide
    refine ⟨rfl, fun marked => ?_⟩
    rw [other] at marked
    cases marked
  · rintro tag rfl other (known | rfl)
    · exact known.2.2
    · exact scriptElement.unbracketed_spelled

section Pages

variable {d : Document} {dom : Dom} {blocks : List Block}

/-- An element that does not come to hold anything new is written with a tag that is known. -/
theorem writes_element {part : Dom} {i : NodeId} {e : Element} (sober : e.Sober (Carries blocks))
    (hollow : e.name ∈ hollowNames → part.children i = [])
    (latched : e.hasClass chartClass = true → e.attributes.contains latchAttribute = true) :
    part.Writes LatchedTag (fun tag => tag = scriptElement.spelled) i (.element e) := by
  have ordinary : e.name ∈ ordinaryNames := by
    rcases List.mem_append.1 sober.name with holder | hollow
    · rcases List.mem_cons.1 holder with script | other
      · exact absurd script sober.attributes.other
      · exact List.mem_append_left _ other
    · exact List.mem_append_right _ hollow
  have valid := Element.valid_spelled (ordinary_kinds e.name ordinary).2.2
    sober.attributes.names sober.attributes.distinct
  refine .element sober.space sober.inside ordinary hollow valid
    ⟨ordinary, fun marked => ?_, e.unbracketed_spelled⟩
  rw [Element.attributes_read_spelled] at marked ⊢
  rw [Attributes.contains_reread]
  exact latched (Attributes.hasClass_of_reread (by decide) marked)

theorem children_of_hollow {d : Dom} {good : Text → Attributes → Prop} (sober : d.Sober good)
    {i : NodeId} {e : Element} (shown : d.content? i = some (.element e))
    (hollow : e.name ∈ hollowNames) : d.children i = [] := by
  refine List.eq_nil_iff_forall_not_mem.2 fun j child => ?_
  obtain ⟨c, content, may⟩ := sober.holders j i (Dom.parent?_of_mem_children child)
  rw [shown] at content
  cases content
  have apart : ∀ name ∈ hollowNames, name ∉ holderNames := by decide
  exact apart e.name hollow may

theorem part_left (sober : d.dom.Sober (Carries blocks)) (h : d.Activates dom) :
    dom.Part LatchedTag (fun tag => tag = scriptElement.spelled) (d.Left dom) := by
  refine ⟨fun p left i child => h.left_child left child, fun i left c shown => ?_⟩
  cases left with
  | old reached =>
      rcases h.each i (h.lt_size reached) with ⟨same, latched⟩ | takesUp
      · have before : d.dom.content? i = some c := same.1.symm.trans shown
        have known := sober.contents i c before
        cases c with
        | document => exact .document
        | text s => exact .text s
        | comment s => exact .comment known
        | fragment | doctype _ => exact known.elim
        | element e =>
            refine writes_element known (fun hollow => ?_) fun chart => ?_
            · rw [same.2]
              exact children_of_hollow sober before hollow
            · have element := Dom.element?_of_content? before
              have activated := latched ⟨reached, e, element, chart⟩
              rwa [isActivated_of_element? element] at activated
      · obtain @⟨e, element, chart, fresh, after, _⟩ := takesUp
        have known := sober.contents i _ (Dom.content?_of_element? element)
        rw [Dom.content?_of_element? after] at shown
        cases shown
        have names : ∀ a ∈ e.latched.attributes, isMarkupName a.name = true := by
          refine List.forall_mem_append.2 ⟨known.attributes.names, List.forall_mem_singleton.2 ?_⟩
          decide
        have distinct : (e.latched.attributes.map (·.name)).Nodup := by
          rw [Attributes.contains_eq, decide_eq_false_iff_not] at fresh
          rw [Element.latched, List.map_append]
          refine List.nodup_append.2 ⟨known.attributes.distinct, List.nodup_singleton _, ?_⟩
          rintro name old _ new rfl
          have same : name = latchAttribute := List.mem_singleton.1 new
          exact fresh (same ▸ old)
        have carries : Carries blocks e.name e.latched.attributes :=
          ⟨known.attributes.other, names, distinct, fun _ => known.attributes.chart chart⟩
        have apart : ∀ name ∈ ["div".toList, "code"], name ∉ hollowNames := by decide
        have holds := apart e.name (known.attributes.chart chart).1
        exact writes_element ⟨known.space, known.name, known.inside, carries⟩
          (fun hollow => absurd hollow holds) fun _ => e.contains_latched
  | script embeds =>
      rw [embeds.element] at shown
      cases shown
      have valid : scriptElement.spelled.Valid :=
        Element.valid_spelled (by decide) (by decide) (by decide)
      exact .script rfl rfl rfl valid rfl embeds.inside embeds.body (contains_scriptText _)
        fun line => (printable_scriptText _).plain _ line |>.2 rfl
  | text embeds =>
      rw [embeds.body] at shown
      cases shown
      exact .text _

theorem latched_write (sober : d.dom.Sober (Carries blocks)) (h : d.Activates dom) :
    ∀ i ∈ chartElements (Document.parse (Document.write { d with dom })),
      isActivated (Document.parse (Document.write { d with dom })).dom i = true := by
  have written := Document.strewn_write (d := { d with dom }) (part_left sober h) (.old .refl)
  have again := Document.sober_parse readable_latched written
  intro i member
  obtain ⟨_, e, shown, chart⟩ := Document.mem_withClass.1 member
  rw [isActivated_of_element? shown]
  exact (again.contents i _ (Dom.content?_of_element? shown)).attributes chart

end Pages

theorem hydrateHtml_of_pass {engine : Engine (Except Interruption)} {html : Text} {pass : Pass}
    (run : activateCharts engine (Document.parse html) = .ok pass) :
    hydrateHtml engine html =
      ⟨Document.write { Document.parse html with dom := pass.dom }, pass.report, pass.logs⟩ := by
  by_cases empty : html = []
  · subst empty
    have none : chartElements (Document.parse []) = [] := by decide
    have nothing : Document.write (Document.parse []) = [] := by decide
    rw [activateCharts, none] at run
    have same : { dom := (Document.parse []).dom } = pass := Except.ok.inj run
    rw [← same, hydrateHtml, List.isEmpty_nil, if_pos rfl]
    exact congrArg (fun s => (⟨s, {}, []⟩ : Hydrated)) nothing.symm
  · rw [activateCharts_eq_visitAll] at run
    cases outcome : Pass.visitAll engine { dom := (Document.parse html).dom }
        (chartElements (Document.parse html)) with
    | mk through interruption =>
        rw [outcome] at run
        cases interruption with
        | some interruption => cases run
        | none =>
            have complete := Pass.completes_of_visitAll (congrArg Prod.snd outcome)
            rw [outcome] at complete
            rw [hydrateHtml_of_completes empty complete]
            cases run
            rfl

section Pages

variable {p : Processor (Except Interruption)} {markdown : Text}

theorem renderPage_without_charts (absent : (renderSafely p markdown).1.charts = []) :
    renderPage p markdown true =
      ⟨(renderSafely p markdown).1.html, none, (renderSafely p markdown).2⟩ := by
  have skipped : (true && !(renderSafely p markdown).1.charts.isEmpty) = false := by
    rw [absent]
    rfl
  exact if_neg (Bool.eq_false_iff.1 skipped)

theorem renderPage_with_charts (present : (renderSafely p markdown).1.charts ≠ []) :
    renderPage p markdown true =
      ⟨(hydrateHtml embedScript (renderSafely p markdown).1.html).html,
        some (hydrateHtml embedScript (renderSafely p markdown).1.html).report,
        (renderSafely p markdown).2 ++
          (hydrateHtml embedScript (renderSafely p markdown).1.html).logs⟩ := by
  have made : (true && !(renderSafely p markdown).1.charts.isEmpty) = true := by
    rw [List.isEmpty_eq_false_iff.2 present]
    rfl
  exact if_pos made

end Pages

theorem paged_renderSafely {options : Options} (cautious : options.html = false)
    (closed : ∀ s ∈ options.idPrefix, '\x22' ∉ s) (markdown : Text) :
    Paged options.gfm (renderSafely (.ofOptions options) markdown).1.blocks
      (renderSafely (.ofOptions options) markdown).1.html := by
  obtain ⟨r, rendered, paged⟩ := paged_render (m := Except Interruption) cautious closed markdown
  rw [renderSafely, rendered]
  exact paged

theorem Rendered.unmarked {r : Rendered} (absent : r.charts = [])
    (plain : ∀ b ∈ r.blocks, b.kind ≠ .code chartClass) : ∀ b ∈ r.blocks, b.isMarked = false := by
  intro b listed
  have chart : b.kind ≠ .chart := by
    intro same
    have kept : b ∈ r.charts := List.mem_filter.2 ⟨listed, decide_eq_true same⟩
    rw [absent] at kept
    cases kept
  simp [Block.isMarked, chart, plain b listed]

theorem chartElements_of_unmarked {notes : Bool} {blocks : List Block} {s : Text}
    (paged : Paged notes blocks s) (unmarked : ∀ b ∈ blocks, b.isMarked = false) :
    chartElements (Document.parse s) = [] := by
  refine List.eq_nil_iff_forall_not_mem.2 fun i member => ?_
  obtain ⟨_, e, shown, chart⟩ := Document.mem_withClass.1 member
  have known := (sober_page paged).contents i _ (Dom.content?_of_element? shown)
  obtain ⟨_, b, listed, marked⟩ := known.attributes.chart chart
  rw [unmarked b listed] at marked
  cases marked

/-- A page that is asked for with its charts activated. Where a chart was rendered a pass is made,
and it leaves every chart element of the document latched that is written down; where none was
rendered the page is left as it is, and nothing is reported. Without raw HTML, and with identifiers
that close no attribute, the page has every chart element latched when it is read again, if a chart
was rendered or no code is in the language that is the class of placeholders; if there is neither,
it has no chart element. -/
theorem Processor.hydrated_page (p : Processor (Except Interruption)) (markdown : Text) :
    let r := (renderSafely p markdown).1
    let page := renderPage p markdown true
    (r.charts = [] → page.html = r.html ∧ page.report = none) ∧
    (r.charts ≠ [] → ∃ pass : Pass,
      (activateCharts embedScript (Document.parse r.html) : Except Interruption Pass) = .ok pass ∧
      page.html = Document.write { Document.parse r.html with dom := pass.dom } ∧
      page.report = some pass.report ∧
      ∀ i ∈ chartElements { Document.parse r.html with dom := pass.dom },
        isActivated pass.dom i = true) ∧
    (∀ options : Options, p = .ofOptions options → options.html = false →
      (∀ s ∈ options.idPrefix, '\x22' ∉ s) →
      (r.charts ≠ [] ∨ (∀ b ∈ r.blocks, b.kind ≠ .code chartClass) →
        ∀ i ∈ chartElements (Document.parse page.html),
          isActivated (Document.parse page.html).dom i = true) ∧
      (r.charts = [] ∧ (∀ b ∈ r.blocks, b.kind ≠ .code chartClass) →
        chartElements (Document.parse page.html) = [])) := by
  intro r page
  have without (absent : r.charts = []) : page.html = r.html ∧ page.report = none := by
    have same : page = _ := renderPage_without_charts absent
    rw [same]
    exact ⟨rfl, rfl⟩
  have rooted := Document.rooted_parseInto .empty r.html
  have root := Dom.lt_size_of_content? (Document.content?_root_parseInto .empty r.html)
  obtain ⟨pass, run, activates⟩ := Document.exists_activates (Document.parse r.html) rooted root
  have hydrated := hydrateHtml_of_pass (run (Except Interruption))
  have drawn (present : r.charts ≠ []) :
      page.html = Document.write { Document.parse r.html with dom := pass.dom } ∧
      page.report = some pass.report := by
    have same : page = _ := renderPage_with_charts present
    rw [same, hydrated]
    exact ⟨rfl, rfl⟩
  refine ⟨without, fun present => ?_, fun options made cautious closed => ?_⟩
  · exact ⟨pass, run _, (drawn present).1, (drawn present).2, activates.latched⟩
  subst made
  have paged : Paged options.gfm r.blocks r.html := paged_renderSafely cautious closed markdown
  have unmarked : r.charts = [] ∧ (∀ b ∈ r.blocks, b.kind ≠ .code chartClass) →
      chartElements (Document.parse page.html) = [] := by
    rintro ⟨absent, plain⟩
    rw [(without absent).1]
    exact chartElements_of_unmarked paged (Rendered.unmarked absent plain)
  refine ⟨fun either => ?_, unmarked⟩
  by_cases empty : r.charts = []
  · rw [unmarked ⟨empty, either.resolve_left (not_not_intro empty)⟩]
    exact List.forall_mem_nil _
  · rw [(drawn empty).1]
    exact latched_write (sober_page paged) activates

/-- A chart without raw HTML. -/
theorem Processor.hydrated_page_chart :
    let options : Options := { html := false }
    let p : Processor (Except Interruption) := .ofOptions options
    let markdown : Text := "```echarts\n\x7b\x7d\n```\n"
    let d := Document.parse (renderPage p markdown true).html
    (∀ s ∈ options.idPrefix, '\x22' ∉ s) ∧ (renderSafely p markdown).1.charts ≠ [] ∧
      (chartElements d).map (d.dom.attribute? · "id") = [some "code-block-1".toList] ∧
      ∀ i ∈ chartElements d, isActivated d.dom i = true := by
  intro options p markdown d
  have closed : ∀ s ∈ options.idPrefix, '\x22' ∉ s := nofun
  have present : (renderSafely p markdown).1.charts ≠ [] := by decide +kernel
  have pages := (hydrated_page p markdown).2.2 options rfl rfl closed
  refine ⟨closed, present, ?_, pages.1 (.inl present)⟩
  decide +kernel

/-- A placeholder that is written as raw HTML has no chart if none is rendered beside it, though the
pass that is left out would activate it. -/
theorem Processor.placeholder_without_charts :
    let markdown : Text := "<div class=\"echarts-chart\" data-option=\"\x7b\x7d\"></div>\n"
    let page := renderPage (.ofOptions {}) markdown true
    let d := Document.parse page.html
    page.report = none ∧ (chartElements d).map (isActivated d.dom) = [false] ∧
      (hydrateHtml embedScript page.html).report.activated = 1 := by
  decide +kernel

end LivePage
