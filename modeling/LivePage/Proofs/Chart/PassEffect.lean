import LivePage.Proofs.Chart.Latch
import Mathlib.Data.Set.Card

/-!
The effect of one pass with the engine that embeds scripts. What becomes of a chart element is
settled by its own attributes, and only it, its children and new nodes are touched on the way: an
outer chart that fails lets go of the charts inside it, but those are visited all the same and hold
what they held.
-/

namespace LivePage
open Html

/-- What a report counts. -/
inductive Outcome where
  | activated
  | skipped
  | missing
  | failed
  deriving DecidableEq

def Report.count (r : Report) : Outcome → Nat
  | .activated => r.activated
  | .skipped => r.skipped
  | .missing => r.missing
  | .failed => r.failed

/-- What becomes of a chart element. -/
inductive Fate where
  | activated (declaration : Declaration)
  | skipped
  | missing
  | failed (error : DeclarationError)

namespace Fate

def outcome : Fate → Outcome
  | activated _ => .activated
  | skipped => .skipped
  | missing => .missing
  | failed _ => .failed

def ofAttributes (attributes : Attributes) : Fate :=
  if attributes.contains latchAttribute then skipped
  else match attributes.get? optionAttribute with
    | none | some [] => missing
    | some raw =>
        match decodeDeclaration raw with
        | .ok declaration => activated declaration
        | .error e => failed e

def records : Fate → List LogRecord
  | failed e => [⟨.error, "Failed to initialize chart: ".toList ++ e.message⟩]
  | _ => []

end Fate

namespace Html

def Element.latched (e : Element) : Element :=
  { e with attributes := e.attributes ++ [⟨latchAttribute, "1"⟩] }

theorem Element.contains_latched (e : Element) :
    e.latched.attributes.contains latchAttribute = true := by
  rw [latched, Attributes.contains, List.any_append]
  exact Bool.or_eq_true_iff.2 (.inr rfl)

namespace Dom

def latch (d : Dom) (i : NodeId) : Dom := d.setAttribute i latchAttribute "1"

theorem size_latch (d : Dom) (i : NodeId) : (d.latch i).size = d.size :=
  size_mapAttributes d i _

theorem children_latch (d : Dom) (i j : NodeId) : (d.latch i).children j = d.children j :=
  children_mapAttributes d i _ j

theorem sameAt_latch (d : Dom) {i j : NodeId} (other : i ≠ j) : d.SameAt (d.latch i) j :=
  sameAt_mapAttributes d _ other

theorem element?_latch {d : Dom} {i : NodeId} {e : Element} (shown : d.element? i = some e)
    (absent : e.attributes.contains latchAttribute = false) :
    (d.latch i).element? i = some e.latched := by
  rw [latch, setAttribute, element?_mapAttributes_self, shown, Element.latched,
    ← Attributes.set_of_not_contains absent]
  rfl

end Dom
end Html

theorem isActivated_of_element? {d : Dom} {i : NodeId} {e : Element}
    (shown : d.element? i = some e) : isActivated d i = e.attributes.contains latchAttribute := by
  rw [isActivated, Dom.hasAttribute, shown]
  rfl

/-- What a fate does to an element: the latch is its only new attribute, and its children stay, go,
or get a script behind them. -/
def Fate.Effect (d d' : Dom) (i : NodeId) (e : Element) : Fate → Prop
  | activated declaration =>
      d'.element? i = some e.latched ∧ ∃ script text, d.Embeds d' i declaration script text
  | skipped => d.SameAt d' i
  | missing => d'.element? i = some e.latched ∧ d'.children i = d.children i
  | failed _ => d'.element? i = some e.latched ∧ d'.children i = []

def Html.Dom.fate (d : Dom) (i : NodeId) : Fate :=
  .ofAttributes (((d.element? i).map (·.attributes)).getD [])

def Fate.on (d : Dom) (i : NodeId) : Fate → Dom
  | activated declaration => (d.latch i).embed i declaration
  | skipped => d
  | missing => d.latch i
  | failed _ => (d.latch i).removeChildren i

/-- An effect stays where the element and the new nodes are left alone. -/
theorem Fate.Effect.frame {fate : Fate} {d d' d'' : Dom} {i : NodeId} {e : Element}
    (effect : fate.Effect d d' i e) (present : i < d'.size)
    (same : ∀ j < d'.size, j = i ∨ d.size ≤ j → d'.SameAt d'' j) : fate.Effect d d'' i e := by
  have here := same i present (.inl rfl)
  have element := Dom.element?_congr here.1
  cases fate with
  | activated declaration =>
      obtain ⟨latched, script, text, embeds⟩ := effect
      exact ⟨element.trans latched, script, text, embeds.frame present same⟩
  | skipped => exact effect.trans here
  | missing => exact ⟨element.trans effect.1, here.2.trans effect.2⟩
  | failed error => exact ⟨element.trans effect.1, here.2.trans effect.2⟩

theorem Fate.Effect.of_sameAt {fate : Fate} {d d' d'' : Dom} {i : NodeId} {e : Element}
    (same : d.SameAt d' i) (grown : d.size ≤ d'.size) (effect : fate.Effect d' d'' i e) :
    fate.Effect d d'' i e := by
  cases fate with
  | activated declaration =>
      obtain ⟨latched, script, text, embeds⟩ := effect
      exact ⟨latched, script, text, embeds.of_children same.2 grown⟩
  | skipped => exact same.trans effect
  | missing => exact ⟨effect.1, effect.2.trans same.2⟩
  | failed error => exact effect

theorem Fate.Effect.children_of_failed {fate : Fate} {d d' : Dom} {i : NodeId} {e : Element}
    (effect : fate.Effect d d' i e) (failed : fate.outcome = .failed) : d'.children i = [] := by
  cases fate with
  | failed error => exact effect.2
  | activated _ | skipped | missing => cases failed

theorem Fate.Effect.children_of_activated {fate : Fate} {d d' : Dom} {i : NodeId} {e : Element}
    (effect : fate.Effect d d' i e) (activated : fate.outcome = .activated) :
    ∃ script, d'.children i = d.children i ++ [script] := by
  cases fate with
  | activated declaration =>
      obtain ⟨_, script, _, embeds⟩ := effect
      exact ⟨script, embeds.behind⟩
  | skipped | missing | failed _ => cases activated

theorem Html.Dom.fate_of_element? {d : Dom} {i : NodeId} {e : Element}
    (shown : d.element? i = some e) : d.fate i = .ofAttributes e.attributes := by
  rw [fate, shown]
  rfl

theorem Html.Dom.fate_congr {d d' : Dom} {i : NodeId} (same : d.SameAt d' i) :
    d'.fate i = d.fate i := by
  rw [fate, fate, element?_congr same.1]

namespace Pass

/-- A pass that has met one more element with its fate. -/
def meet (p : Pass) (i : NodeId) : Fate → Pass
  | .activated declaration =>
      { p with
        dom := (p.dom.latch i).embed i declaration
        report := { p.report with activated := p.report.activated + 1 }
        decoded := p.decoded ++ [i]
        drawn := p.drawn ++ [(i, declaration)] }
  | .skipped => { p with report := { p.report with skipped := p.report.skipped + 1 } }
  | .missing =>
      { p with
        dom := p.dom.latch i
        report := { p.report with missing := p.report.missing + 1 } }
  | .failed e =>
      fail { p with
        dom := p.dom.latch i
        decoded := p.decoded ++ [i] } i e.message

theorem visit_embedScript {m : Type → Type} [Monad m] [LawfulMonad m] (p : Pass) {i : NodeId}
    {e : Element} (shown : p.dom.element? i = some e) :
    (visit embedScript p i : m Pass) = pure (p.meet i (.ofAttributes e.attributes)) := by
  have latch := isActivated_of_element? shown
  unfold visit Fate.ofAttributes
  rw [latch]
  cases absent : e.attributes.contains latchAttribute with
  | true => rfl
  | false =>
      have option : (p.dom.latch i).attribute? i optionAttribute =
          e.attributes.get? optionAttribute := by
        rw [Dom.attribute?, Dom.element?_latch shown absent]
        exact Attributes.get?_append_of_ne e.attributes "1" (by decide)
      rw [if_neg Bool.false_ne_true, if_neg Bool.false_ne_true]
      simp only
      rw [← Dom.latch, option]
      cases e.attributes.get? optionAttribute with
      | none => rfl
      | some raw =>
          cases raw with
          | nil => rfl
          | cons c rest =>
              simp only
              cases decodeDeclaration (c :: rest) with
              | error error => rfl
              | ok declaration =>
                  simp only
                  rw [embedScript_eq, map_pure]
                  unfold take meet
                  simp only

theorem count_meet (p : Pass) (i : NodeId) (fate : Fate) (o : Outcome) :
    (p.meet i fate).report.count o = p.report.count o + if fate.outcome = o then 1 else 0 := by
  cases fate <;> cases o <;> rfl

theorem logs_meet (p : Pass) (i : NodeId) (fate : Fate) :
    (p.meet i fate).logs = p.logs ++ fate.records := by
  unfold meet Fate.records
  cases fate with
  | failed error => rfl
  | activated _ | skipped | missing => simp only [List.append_nil]

theorem dom_meet (p : Pass) (i : NodeId) (fate : Fate) :
    (p.meet i fate).dom = fate.on p.dom i := by
  unfold meet Fate.on
  cases fate with
  | failed error => rfl
  | activated _ | skipped | missing => simp only

end Pass

namespace Fate

theorem size_on (d : Dom) (i : NodeId) (fate : Fate) : d.size ≤ (fate.on d i).size := by
  unfold on
  cases fate with
  | activated declaration =>
      simp only
      rw [Dom.size_embed, Dom.size_latch]
      exact Nat.le_add_right _ _
  | skipped => exact Nat.le_refl _
  | missing => exact (Dom.size_latch d i).ge
  | failed error =>
      simp only
      rw [Dom.size_removeChildren, Dom.size_latch]

theorem sameAt_on {d : Dom} {i : NodeId} (present : i < d.size) (fate : Fate) {j : NodeId}
    (old : j < d.size) (other : j ≠ i) : d.SameAt (fate.on d i) j := by
  have latched := d.sameAt_latch (Ne.symm other)
  have size := d.size_latch i
  unfold on
  cases fate with
  | activated declaration =>
      exact latched.trans (Dom.sameAt_embed (size ▸ present) declaration (size ▸ old) other)
  | skipped => exact .refl d j
  | missing => exact latched
  | failed error => exact latched.trans (Dom.sameAt_removeChildren _ (Ne.symm other))

theorem not_latched {attributes : Attributes}
    (taken : (ofAttributes attributes).outcome ≠ .skipped) :
    attributes.contains latchAttribute = false := by
  unfold ofAttributes at taken
  cases latch : attributes.contains latchAttribute with
  | false => rfl
  | true =>
      rw [latch, if_pos rfl] at taken
      exact absurd rfl taken

theorem effect_on {d : Dom} {i : NodeId} {e : Element} (shown : d.element? i = some e)
    (fate : Fate)
    (absent : fate.outcome ≠ .skipped → e.attributes.contains latchAttribute = false) :
    fate.Effect d (fate.on d i) i e := by
  have present := Dom.lt_size_of_content? (Dom.content?_of_element? shown)
  rw [← Dom.size_latch d i] at present
  unfold on
  cases fate with
  | activated declaration =>
      have latched := Dom.element?_latch shown (absent nofun)
      refine ⟨?_, _, _, (Dom.embeds_embed present declaration).of_children ?_ ?_⟩
      · exact (Dom.element?_congr (Dom.content?_embed_of_lt _ i declaration present)).trans latched
      · exact Dom.children_latch d i i
      · exact (Dom.size_latch d i).ge
  | skipped => exact .refl d i
  | missing => exact ⟨Dom.element?_latch shown (absent nofun), Dom.children_latch d i i⟩
  | failed error =>
      have latched := Dom.element?_latch shown (absent nofun)
      refine ⟨?_, Dom.children_removeChildren_self (d.latch i) i⟩
      exact (Dom.element?_congr (Dom.content?_removeChildren (d.latch i) i i)).trans latched

end Fate

namespace Pass

/-- What a pass has done when it has visited some more elements. -/
structure Effect (p : Pass) (elements : List NodeId) (p' : Pass) : Prop where
  grown : p.dom.size ≤ p'.dom.size
  visited : ∀ i ∈ elements, ∀ e, p.dom.element? i = some e →
    (Fate.ofAttributes e.attributes).Effect p.dom p'.dom i e
  others : ∀ i < p.dom.size, i ∉ elements → p.dom.SameAt p'.dom i
  report : ∀ o, p'.report.count o =
    p.report.count o + elements.countP fun i => (p.dom.fate i).outcome = o
  logs : p'.logs = p.logs ++ elements.flatMap fun i => (p.dom.fate i).records

theorem Effect.refl (p : Pass) : p.Effect [] p :=
  ⟨Nat.le_refl _, by simp, fun _ _ _ => .refl _ _, fun _ => rfl, (List.append_nil _).symm⟩

theorem effect_meet (p : Pass) {i : NodeId} {e : Element} (shown : p.dom.element? i = some e) :
    p.Effect [i] (p.meet i (.ofAttributes e.attributes)) := by
  have present := Dom.lt_size_of_content? (Dom.content?_of_element? shown)
  have fate := Dom.fate_of_element? shown
  refine ⟨?_, ?_, ?_, ?_, ?_⟩
  · rw [dom_meet]
    exact Fate.size_on p.dom i _
  · intro j member e' shown'
    rw [List.mem_singleton] at member
    subst member
    rw [shown] at shown'
    cases shown'
    rw [dom_meet]
    exact Fate.effect_on shown _ Fate.not_latched
  · intro j old other
    rw [List.mem_singleton] at other
    rw [dom_meet]
    exact Fate.sameAt_on present _ old other
  · intro o
    rw [count_meet, List.countP_singleton, fate]
    simp only [decide_eq_true_eq]
  · rw [logs_meet, List.flatMap_singleton, fate]

theorem Effect.cons {p p' p'' : Pass} {i : NodeId} {elements : List NodeId}
    (first : p.Effect [i] p') (rest : p'.Effect elements p'') (new : i ∉ elements)
    (stored : ∀ j ∈ i :: elements, j < p.dom.size) : p.Effect (i :: elements) p'' := by
  obtain ⟨present, others⟩ := List.forall_mem_cons.1 stored
  have untouched (j : NodeId) (member : j ∈ elements) : p.dom.SameAt p'.dom j := by
    refine first.others j (others j member) ?_
    rw [List.mem_singleton]
    rintro rfl
    exact new member
  refine ⟨Nat.le_trans first.grown rest.grown, ?_, ?_, ?_, ?_⟩
  · refine List.forall_mem_cons.2 ⟨?_, ?_⟩
    · intro e shown
      refine (first.visited i List.mem_cons_self e shown).frame
        (Nat.lt_of_lt_of_le present first.grown) ?_
      -- What the first visit made is not visited again.
      rintro j now (rfl | made)
      · exact rest.others j now new
      · exact rest.others j now fun member => Nat.not_lt.2 made (others j member)
    · intro j member e shown
      have same := untouched j member
      have shown' : p'.dom.element? j = some e := (Dom.element?_congr same.1).trans shown
      exact (rest.visited j member e shown').of_sameAt same first.grown
  · intro j old other
    rw [List.mem_cons, not_or] at other
    have same := first.others j old (mt List.mem_singleton.1 other.1)
    exact same.trans (rest.others j (Nat.lt_of_lt_of_le old first.grown) other.2)
  · intro o
    have counted : elements.countP (fun j => (p'.dom.fate j).outcome = o) =
        elements.countP fun j => (p.dom.fate j).outcome = o := by
      refine List.countP_congr ?_
      intro j member
      rw [Dom.fate_congr (untouched j member)]
    have both : i :: elements = [i] ++ elements := rfl
    rw [rest.report, first.report, counted, both, List.countP_append, Nat.add_assoc]
  · have logged : (elements.flatMap fun j => (p'.dom.fate j).records) =
        elements.flatMap fun j => (p.dom.fate j).records := by
      refine List.flatMap_congr ?_
      intro j member
      rw [Dom.fate_congr (untouched j member)]
    rw [rest.logs, first.logs, logged, List.flatMap_singleton, List.flatMap_cons, List.append_assoc]

theorem exists_foldlM_visit (p : Pass) {elements : List NodeId} (nodup : elements.Nodup)
    (shown : ∀ i ∈ elements, ∃ e, p.dom.element? i = some e) :
    ∃ p', (∀ (m : Type → Type) [Monad m] [LawfulMonad m],
      (elements.foldlM (visit embedScript) p : m Pass) = pure p') ∧ p.Effect elements p' := by
  induction elements generalizing p with
  | nil => exact ⟨p, fun m _ _ => rfl, .refl p⟩
  | cons i elements ih =>
      obtain ⟨⟨e, first⟩, others⟩ := List.forall_mem_cons.1 shown
      obtain ⟨new, nodup⟩ := List.nodup_cons.1 nodup
      have met := effect_meet p first
      have stored : ∀ j ∈ i :: elements, j < p.dom.size := by
        intro j member
        obtain ⟨e, found⟩ := shown j member
        exact Dom.lt_size_of_content? (Dom.content?_of_element? found)
      have remaining : ∀ j ∈ elements,
          ∃ e', (p.meet i (.ofAttributes e.attributes)).dom.element? j = some e' := by
        intro j member
        obtain ⟨e', found⟩ := others j member
        refine ⟨e', (Dom.element?_congr (met.others j ?_ ?_).1).trans found⟩
        · exact stored j (List.mem_cons_of_mem i member)
        · rw [List.mem_singleton]
          rintro rfl
          exact new member
      obtain ⟨p', run, effect⟩ := ih _ nodup remaining
      refine ⟨p', ?_, met.cons effect new stored⟩
      intro m _ _
      rw [List.foldlM_cons, visit_embedScript p first, pure_bind, run]

end Pass

theorem ncard_of_nodup {nodes : List NodeId} (nodup : nodes.Nodup) :
    {i | i ∈ nodes}.ncard = nodes.length := by
  rw [← List.toFinset_card_of_nodup nodup, ← Set.ncard_coe_finset, List.coe_toFinset]

theorem countP_outcomes (fate : NodeId → Fate) (nodes : List NodeId) :
    (nodes.countP fun i => (fate i).outcome = .activated) +
      (nodes.countP fun i => (fate i).outcome = .skipped) +
      (nodes.countP fun i => (fate i).outcome = .missing) +
      (nodes.countP fun i => (fate i).outcome = .failed) = nodes.length := by
  induction nodes with
  | nil => rfl
  | cons i nodes ih =>
      simp only [List.countP_cons, List.length_cons, decide_eq_true_eq]
      cases (fate i).outcome <;> simp <;> omega

/-- The effect of one pass is settled by what the chart elements hold when it begins. Each meets the
fate that its own attributes give it, with its effect on it; all other nodes, and the elements that
are latched, stay as they are; the report counts the elements by their fates, and there is one
record for each that failed. -/
theorem activateCharts_effect (d : Document) (rooted : d.Rooted) :
    ∃ pass : Pass,
      (∀ (m : Type → Type) [Monad m] [LawfulMonad m],
        (activateCharts embedScript d : m Pass) = pure pass) ∧
      (∀ i e, d.HasClass chartClass i → d.dom.element? i = some e →
        (Fate.ofAttributes e.attributes).Effect d.dom pass.dom i e) ∧
      (∀ i < d.dom.size, (d.HasClass chartClass i → isActivated d.dom i = true) →
        d.dom.SameAt pass.dom i) ∧
      (∀ o, pass.report.count o =
        {i | d.HasClass chartClass i ∧ (d.dom.fate i).outcome = o}.ncard) ∧
      pass.report.activated + pass.report.skipped + pass.report.missing + pass.report.failed =
        {i | d.HasClass chartClass i}.ncard ∧
      pass.logs = (chartElements d).flatMap fun i => (d.dom.fate i).records := by
  have nodup : (chartElements d).Nodup := Document.nodup_withClass rooted chartClass
  have listed (i : NodeId) : i ∈ chartElements d ↔ d.HasClass chartClass i := Document.mem_withClass
  have shown : ∀ i ∈ chartElements d, ∃ e, d.dom.element? i = some e := by
    intro i member
    obtain ⟨_, e, found, _⟩ := (listed i).1 member
    exact ⟨e, found⟩
  obtain ⟨pass, run, effect⟩ := Pass.exists_foldlM_visit { dom := d.dom } nodup shown
  have counted (o : Outcome) : pass.report.count o =
      (chartElements d).countP fun i => (d.dom.fate i).outcome = o := by
    rw [effect.report]
    cases o <;> exact Nat.zero_add _
  refine ⟨pass, run, ?_, ?_, ?_, ?_, effect.logs⟩
  · intro i e chart found
    exact effect.visited i ((listed i).2 chart) e found
  · intro i old latched
    by_cases chart : d.HasClass chartClass i
    · obtain ⟨_, e, found, _⟩ := id chart
      have skipped := effect.visited i ((listed i).2 chart) e found
      have latch : e.attributes.contains latchAttribute = true := by
        have := latched chart
        rw [isActivated, Dom.hasAttribute, found] at this
        exact this
      rw [Fate.ofAttributes, latch, if_pos rfl] at skipped
      exact skipped
    · exact effect.others i old fun member => chart ((listed i).1 member)
  · intro o
    rw [counted, List.countP_eq_length_filter, ← ncard_of_nodup (nodup.filter _)]
    congr 1
    ext i
    rw [Set.mem_ofPred_eq, Set.mem_ofPred_eq, List.mem_filter, listed, decide_eq_true_eq]
  · have total := countP_outcomes d.dom.fate (chartElements d)
    rw [← counted, ← counted, ← counted, ← counted, ← ncard_of_nodup nodup] at total
    refine total.trans ?_
    congr 1
    ext i
    exact listed i

/-- The outer chart fails and is emptied, and the inner one is given its script all the same. -/
theorem activateCharts_effect_nested :
    nestedCharts.Rooted ∧ ∃ pass : Pass,
      (activateCharts embedScript nestedCharts : Id Pass) = pure pass ∧
      pass.dom.children 1 = [] ∧ (∃ script, pass.dom.children 2 = [script]) ∧
      nestedCharts.dom.SameAt pass.dom 0 ∧ pass.logs.length = 1 ∧
      pass.report.activated + pass.report.skipped + pass.report.missing + pass.report.failed = 2 := by
  have rooted : nestedCharts.Rooted := Document.rooted_of_isRoot (c := .document) (by decide) rfl
  have listed : chartElements nestedCharts = [1, 2] := by decide +kernel
  have chart (i : NodeId) : nestedCharts.HasClass chartClass i ↔ i ∈ [1, 2] := by
    rw [← listed]
    exact Document.mem_withClass.symm
  have outer : (nestedCharts.dom.fate 1).outcome = .failed := by decide +kernel
  have inner : (nestedCharts.dom.fate 2).outcome = .activated := by decide +kernel
  obtain ⟨pass, run, charts, others, _, total, logs⟩ := activateCharts_effect nestedCharts rooted
  have effect (i : NodeId) (member : i ∈ [1, 2]) : ∃ e,
      (nestedCharts.dom.fate i).Effect nestedCharts.dom pass.dom i e := by
    obtain ⟨_, e, found, _⟩ := (chart i).2 member
    exact ⟨e, Dom.fate_of_element? found ▸ charts i e ((chart i).2 member) found⟩
  obtain ⟨_, failed⟩ := effect 1 (by decide)
  obtain ⟨_, activated⟩ := effect 2 (by decide)
  refine ⟨rooted, pass, run Id, failed.children_of_failed outer,
    activated.children_of_activated inner, others 0 (by decide) ?_, ?_, ?_⟩
  · rw [chart]
    intro member
    simp at member
  · rw [logs, listed]
    decide +kernel
  · have two : {i | nestedCharts.HasClass chartClass i} = {1, 2} := by
      ext i
      rw [Set.mem_ofPred_eq, chart]
      simp
    rw [total, two, Set.ncard_pair (by decide)]

end LivePage
