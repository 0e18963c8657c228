import LivePage.Chart.Activation
import LivePage.Proofs.Chart.Embedding
import LivePage.Proofs.Html.Tree

/-!
Charts are activated at most once. A visit latches an element before it decodes its declaration, and
neither engines nor edits take a latch away, so what has been decoded is latched from then on and is
passed over by every later visit, in whatever order passes and edits follow each other and wherever
elements have been moved in between.
-/

namespace LivePage
open Html

variable {σ : Type}

/-- Engines with a state of their own that leave elements elements and take no latch away, whatever
else they do to the store. -/
def Engine.KeepsLatches (engine : Engine (StateM σ)) : Prop :=
  ∀ (dom : Dom) i declaration s,
    dom.Keeps latchAttribute ((engine dom i declaration).run s).1.dom

theorem embedScript_keepsLatches : (embedScript : Engine (StateM σ)).KeepsLatches := by
  intro dom i declaration s
  rw [embedScript_eq]
  exact Dom.keeps_embed latchAttribute dom i declaration

def Engine.noting (engine : Engine (StateM σ)) :
    Engine (StateM (σ × List (NodeId × Declaration))) :=
  fun dom i declaration s =>
    (((engine dom i declaration).run s.1).1, ((engine dom i declaration).run s.1).2,
      s.2 ++ [(i, declaration)])

theorem Pass.drawn_take (p : Pass) (i : NodeId) (declaration : Declaration) (drawing : Drawing) :
    (p.take i declaration drawing).drawn = p.drawn ++ [(i, declaration)] := by
  unfold take
  cases drawing.error with
  | none => rfl
  | some e => rfl

theorem Pass.visit_noting (engine : Engine (StateM σ)) (p : Pass) (i : NodeId) (s : σ) :
    (visit engine.noting p i).run (s, p.drawn) =
      (((visit engine p i).run s).1, ((visit engine p i).run s).2,
        ((visit engine p i).run s).1.drawn) := by
  unfold visit
  cases isActivated p.dom i with
  | true => rfl
  | false =>
      rw [if_neg Bool.false_ne_true, if_neg Bool.false_ne_true]
      simp only
      split
      · rfl
      · rfl
      · split
        · next declaration _ =>
            rw [StateT.run_map, StateT.run_map]
            refine Prod.ext rfl (Prod.ext rfl ?_)
            exact (drawn_take (Pass.mk ..) i declaration (Prod.fst _)).symm
        · rfl

theorem foldlM_visit_noting (engine : Engine (StateM σ)) (p : Pass) (elements : List NodeId)
    (s : σ) :
    (elements.foldlM (Pass.visit engine.noting) p).run (s, p.drawn) =
      (((elements.foldlM (Pass.visit engine) p).run s).1,
        ((elements.foldlM (Pass.visit engine) p).run s).2,
        ((elements.foldlM (Pass.visit engine) p).run s).1.drawn) := by
  induction elements generalizing p s with
  | nil => rfl
  | cons i elements ih =>
      rw [List.foldlM_cons, List.foldlM_cons, StateT.run_bind, StateT.run_bind, Pass.visit_noting]
      exact ih _ _

theorem activateCharts_noting (engine : Engine (StateM σ)) (d : Document) (s : σ) :
    (activateCharts engine.noting d).run (s, []) =
      (((activateCharts engine d).run s).1, ((activateCharts engine d).run s).2,
        ((activateCharts engine d).run s).1.drawn) :=
  foldlM_visit_noting engine { dom := d.dom } (chartElements d) s

/-- An element is latched by setting the attribute; nothing else can be. -/
theorem isActivated_setAttribute (dom : Dom) (i : NodeId) (value : Text) :
    isActivated (dom.setAttribute i latchAttribute value) i = (dom.element? i).isSome := by
  rw [isActivated, Dom.hasAttribute, Dom.setAttribute, Dom.element?_mapAttributes_self]
  cases dom.element? i with
  | none => rfl
  | some e => simp [Attributes.contains_set]

theorem isSome_element?_of_attribute? {dom : Dom} {i : NodeId} {f : Attributes → Attributes}
    {name value : Text} (shown : (dom.mapAttributes i f).attribute? i name = some value) :
    (dom.element? i).isSome = true := by
  rw [Dom.attribute?, Dom.element?_mapAttributes_self] at shown
  cases found : dom.element? i with
  | none =>
      rw [found] at shown
      cases shown
  | some e => rfl

/-- What a visit makes of an element without a latch. -/
structure Pass.TakesUp (p : Pass) (i : NodeId) (p' : Pass) : Prop where
  keeps : p.dom.Keeps latchAttribute p'.dom
  latched : (p.dom.element? i).isSome = true → isActivated p'.dom i = true
  recorded : p'.decoded = p.decoded ∧ p'.drawn = p.drawn ∨
    (p.dom.element? i).isSome = true ∧ p'.decoded = p.decoded ++ [i] ∧
      (p'.drawn.map Prod.fst).Sublist (p.drawn.map Prod.fst ++ [i])

theorem Pass.takesUp_fail {p p' : Pass} {i : NodeId} (message : Text) (taken : p.TakesUp i p') :
    p.TakesUp i (p'.fail i message) := by
  have kept : p'.dom.Keeps latchAttribute (p'.dom.removeChildren i) := .removeChildren p'.dom i
  refine ⟨taken.keeps.trans kept, ?_, taken.recorded⟩
  intro element
  exact kept.hasAttribute (taken.latched element)

theorem Pass.takesUp_take {p : Pass} {dom : Dom} {i : NodeId} (declaration : Declaration)
    (drawing : Drawing) (keeps : p.dom.Keeps latchAttribute drawing.dom)
    (latched : (p.dom.element? i).isSome = true → isActivated drawing.dom i = true)
    (element : (p.dom.element? i).isSome = true) :
    p.TakesUp i ({ p with dom, decoded := p.decoded ++ [i] }.take i declaration drawing) := by
  have drawn : (p.drawn ++ [(i, declaration)]).map Prod.fst = p.drawn.map Prod.fst ++ [i] := by simp
  unfold take
  simp only
  split
  · exact ⟨keeps, latched, .inr ⟨element, rfl, drawn ▸ List.Sublist.refl _⟩⟩
  · exact takesUp_fail _ ⟨keeps, latched, .inr ⟨element, rfl, drawn ▸ List.Sublist.refl _⟩⟩

theorem Pass.visit_cases {engine : Engine (StateM σ)} (keeps : engine.KeepsLatches) (p : Pass)
    (i : NodeId) (s : σ) :
    (isActivated p.dom i = true ∧ ((visit engine p i).run s).1.dom = p.dom ∧
      ((visit engine p i).run s).1.decoded = p.decoded ∧
      ((visit engine p i).run s).1.drawn = p.drawn) ∨
    (isActivated p.dom i = false ∧ p.TakesUp i ((visit engine p i).run s).1) := by
  unfold visit
  cases latch : isActivated p.dom i with
  | true => exact .inl ⟨rfl, rfl, rfl, rfl⟩
  | false =>
      refine .inr ⟨rfl, ?_⟩
      have kept : p.dom.Keeps latchAttribute (p.dom.setAttribute i latchAttribute "1") :=
        .setAttribute p.dom i latchAttribute "1"
      have latched (element : (p.dom.element? i).isSome = true) :
          isActivated (p.dom.setAttribute i latchAttribute "1") i = true :=
        (isActivated_setAttribute p.dom i "1").trans element
      rw [if_neg Bool.false_ne_true]
      simp only
      split
      · exact ⟨kept, latched, .inl ⟨rfl, rfl⟩⟩
      · exact ⟨kept, latched, .inl ⟨rfl, rfl⟩⟩
      · next raw shown declared =>
          have element := isSome_element?_of_attribute? declared
          split
          · next declaration decoded =>
              have drawing := keeps (p.dom.setAttribute i latchAttribute "1") i declaration s
              exact takesUp_take declaration _ (kept.trans drawing)
                (fun element => drawing.hasAttribute (latched element)) element
          · refine takesUp_fail _ ⟨kept, latched, .inr ⟨element, rfl, List.sublist_append_left _ _⟩⟩

/-- What holds of a pass all the time, seen from the store it began with. -/
structure Pass.Sound (start : Dom) (p : Pass) : Prop where
  keeps : start.Keeps latchAttribute p.dom
  fresh : ∀ i ∈ p.decoded, isActivated start i = false
  latched : ∀ i ∈ p.decoded, isActivated p.dom i = true
  once : p.decoded.Nodup
  drawn : (p.drawn.map Prod.fst).Sublist p.decoded

theorem Pass.sound_start (start : Dom) : Pass.Sound start { dom := start } :=
  ⟨.refl latchAttribute start, by simp, by simp, List.nodup_nil, List.Sublist.refl []⟩

theorem Pass.Sound.takeUp {start : Dom} {p p' : Pass} (sound : p.Sound start) {i : NodeId}
    (fresh : isActivated p.dom i = false) (taken : p.TakesUp i p') : p'.Sound start := by
  have keeps := sound.keeps.trans taken.keeps
  have latched : ∀ j ∈ p.decoded, isActivated p'.dom j = true :=
    fun j member => taken.keeps.hasAttribute (sound.latched j member)
  rcases taken.recorded with ⟨decoded, drawn⟩ | ⟨element, decoded, drawn⟩
  · refine ⟨keeps, ?_, ?_, ?_, ?_⟩
    · exact decoded ▸ sound.fresh
    · exact decoded ▸ latched
    · exact decoded ▸ sound.once
    · rw [decoded, drawn]
      exact sound.drawn
  · have new : i ∉ p.decoded := by
      intro member
      rw [sound.latched i member] at fresh
      cases fresh
    refine ⟨keeps, ?_, ?_, ?_, ?_⟩
    · rw [decoded, List.forall_mem_append, List.forall_mem_singleton]
      refine ⟨sound.fresh, ?_⟩
      by_contra before
      rw [Bool.not_eq_false] at before
      have now : isActivated p.dom i = true := sound.keeps.hasAttribute before
      rw [now] at fresh
      cases fresh
    · rw [decoded, List.forall_mem_append, List.forall_mem_singleton]
      exact ⟨latched, taken.latched element⟩
    · rw [decoded]
      refine (List.perm_append_singleton i p.decoded).nodup_iff.2 ?_
      exact List.nodup_cons.2 ⟨new, sound.once⟩
    · rw [decoded]
      exact drawn.trans (sound.drawn.append_right [i])

theorem Pass.Sound.visit {engine : Engine (StateM σ)} (keeps : engine.KeepsLatches) {start : Dom}
    {p : Pass} (sound : p.Sound start) (i : NodeId) (s : σ) :
    ((Pass.visit engine p i).run s).1.Sound start ∧
      p.dom.Keeps latchAttribute ((Pass.visit engine p i).run s).1.dom ∧
      ((p.dom.element? i).isSome = true →
        isActivated ((Pass.visit engine p i).run s).1.dom i = true) := by
  rcases Pass.visit_cases keeps p i s with ⟨latched, dom, decoded, drawn⟩ | ⟨fresh, taken⟩
  · rw [dom]
    refine ⟨⟨?_, ?_, ?_, ?_, ?_⟩, .refl latchAttribute p.dom, fun _ => latched⟩
    · exact dom ▸ sound.keeps
    · exact decoded ▸ sound.fresh
    · rw [dom, decoded]
      exact sound.latched
    · exact decoded ▸ sound.once
    · rw [decoded, drawn]
      exact sound.drawn
  · exact ⟨sound.takeUp fresh taken, taken.keeps, taken.latched⟩

theorem Pass.Sound.foldlM_visit {engine : Engine (StateM σ)} (keeps : engine.KeepsLatches)
    {start : Dom} {p : Pass} (sound : p.Sound start) (elements : List NodeId) (s : σ) :
    ((elements.foldlM (Pass.visit engine) p).run s).1.Sound start ∧
      p.dom.Keeps latchAttribute ((elements.foldlM (Pass.visit engine) p).run s).1.dom ∧
      ∀ i ∈ elements, (p.dom.element? i).isSome = true →
        isActivated ((elements.foldlM (Pass.visit engine) p).run s).1.dom i = true := by
  induction elements generalizing p s with
  | nil => exact ⟨sound, .refl latchAttribute p.dom, by simp⟩
  | cons i elements ih =>
      obtain ⟨visited, kept, latched⟩ := sound.visit keeps i s
      obtain ⟨rest, kept', latched'⟩ := ih visited ((Pass.visit engine p i).run s).2
      rw [List.foldlM_cons, StateT.run_bind]
      refine ⟨rest, kept.trans kept', ?_⟩
      rw [List.forall_mem_cons]
      refine ⟨fun element => kept'.hasAttribute (latched element), ?_⟩
      intro j member element
      refine latched' j member ?_
      obtain ⟨e, shown⟩ := Option.isSome_iff_exists.1 element
      obtain ⟨e', shown', _⟩ := kept j e shown
      rw [shown']
      rfl

theorem activateCharts_latches {engine : Engine (StateM σ)} (keeps : engine.KeepsLatches)
    (d : Document) (s : σ) {i : NodeId} (chart : d.HasClass chartClass i) :
    isActivated ((activateCharts engine d).run s).1.dom i = true := by
  have listed : i ∈ chartElements d := Document.mem_withClass.2 chart
  obtain ⟨_, e, shown, _⟩ := chart
  refine ((Pass.sound_start d.dom).foldlM_visit keeps (chartElements d) s).2.2 i listed ?_
  rw [shown]
  rfl

theorem activateCharts_sound {engine : Engine (StateM σ)} (keeps : engine.KeepsLatches)
    (d : Document) (s : σ) : ((activateCharts engine d).run s).1.Sound d.dom :=
  ((Pass.sound_start d.dom).foldlM_visit keeps (chartElements d) s).1

/-- What a page may do to its document between passes. -/
inductive Edit where
  /-- Reads HTML as a document and puts the content of its body behind what a node holds. -/
  | append (target : NodeId) (html : Text)
  | move (p : NodeId) (mark : Option NodeId) (i : NodeId)
  | detach (i : NodeId)
  | setAttribute (i : NodeId) (name value : Text)
  | eraseAttribute (i : NodeId) (name : Text)

def Edit.apply (dom : Dom) : Edit → Dom
  | append target html =>
      let other := Document.parseInto dom html
      match other.body? with
      | some source => other.dom.moveChildren source target
      | none => other.dom
  | move p mark i => dom.insert p mark i
  | detach i => dom.detach i
  | setAttribute i name value => dom.setAttribute i name value
  | eraseAttribute i name => dom.eraseAttribute i name

/-- Edits may not set or erase the latch itself. -/
def Edit.SparesLatch : Edit → Prop
  | setAttribute _ name _ | eraseAttribute _ name => name ≠ latchAttribute
  | _ => True

theorem Edit.keeps_apply {e : Edit} (spares : e.SparesLatch) (dom : Dom) :
    dom.Keeps latchAttribute (e.apply dom) := by
  cases e with
  | append target html =>
      have read := Document.extends_parseInto dom html
      unfold apply
      simp only
      split
      · exact .of_extends (read.moveChildren _ target)
      · exact .of_extends read
  | move p mark i => exact .insert dom p mark i
  | detach i => exact .detach dom i
  | setAttribute i name value => exact .setAttribute dom i name value
  | eraseAttribute i name => exact .eraseAttribute dom i spares

/-- A step in the life of a page: a pass, with whatever engine, or an edit. -/
inductive Step (σ : Type) where
  | activate (engine : Engine (StateM σ))
  | edit (e : Edit)

def Step.Allowed : Step σ → Prop
  | activate engine => engine.KeepsLatches
  | edit e => e.SparesLatch

/-- A page with all that its passes have decoded and drawn so far, in order. -/
structure Run where
  document : Document
  decoded : List NodeId := []
  drawn : List (NodeId × Declaration) := []

namespace Run

def step (r : Run) : Step σ → StateM σ Run
  | .activate engine => do
      let pass ← activateCharts engine r.document
      return ⟨{ r.document with dom := pass.dom }, r.decoded ++ pass.decoded, r.drawn ++ pass.drawn⟩
  | .edit e => return { r with document := { r.document with dom := e.apply r.document.dom } }

def steps (d : Document) (steps : List (Step σ)) : StateM σ Run :=
  steps.foldlM step { document := d }

/-- What has been decoded is latched. -/
structure Sound (r : Run) : Prop where
  latched : ∀ i ∈ r.decoded, isActivated r.document.dom i = true
  once : r.decoded.Nodup
  drawn : (r.drawn.map Prod.fst).Sublist r.decoded

theorem Sound.step {r : Run} (sound : r.Sound) {step : Step σ} (allowed : step.Allowed) (s : σ) :
    ((r.step step).run s).1.Sound := by
  cases step with
  | activate engine =>
      have pass := activateCharts_sound allowed r.document s
      refine ⟨?_, ?_, ?_⟩
      · refine List.forall_mem_append.2 ⟨?_, pass.latched⟩
        intro i member
        exact pass.keeps.hasAttribute (sound.latched i member)
      · refine List.nodup_append.2 ⟨sound.once, pass.once, ?_⟩
        rintro i before j now rfl
        have fresh := pass.fresh i now
        rw [sound.latched i before] at fresh
        cases fresh
      · have drawn := sound.drawn.append pass.drawn
        rw [← List.map_append] at drawn
        exact drawn
  | edit e =>
      have kept := Edit.keeps_apply allowed r.document.dom
      refine ⟨?_, sound.once, sound.drawn⟩
      intro i member
      exact kept.hasAttribute (sound.latched i member)

theorem Sound.foldlM_step {r : Run} (sound : r.Sound) {steps : List (Step σ)}
    (allowed : ∀ step ∈ steps, step.Allowed) (s : σ) :
    ((steps.foldlM Run.step r).run s).1.Sound := by
  induction steps generalizing r s with
  | nil => exact sound
  | cons step steps ih =>
      rw [List.foldlM_cons, StateT.run_bind]
      exact ih (sound.step (allowed step List.mem_cons_self) s)
        (fun other member => allowed other (List.mem_cons_of_mem step member)) _

/-- Whatever passes and edits a page goes through, no element is given to an engine twice and no
declaration is decoded twice, so not one that failed either; and every pass leaves all chart elements
latched that its document had. -/
theorem activated_at_most_once (d : Document) (steps : List (Step σ))
    (allowed : ∀ step ∈ steps, step.Allowed) (s : σ) :
    (((Run.steps d steps).run s).1.drawn.map Prod.fst).Nodup ∧
      ((Run.steps d steps).run s).1.decoded.Nodup ∧
      ∀ engine : Engine (StateM σ), engine.KeepsLatches →
        ∀ i, ((Run.steps d steps).run s).1.document.HasClass chartClass i →
          isActivated ((activateCharts engine ((Run.steps d steps).run s).1.document).run
            ((Run.steps d steps).run s).2).1.dom i = true := by
  have sound : Sound { document := d } := ⟨by simp, List.nodup_nil, List.Sublist.refl []⟩
  have reached := sound.foldlM_step allowed s
  refine ⟨reached.drawn.nodup reached.once, reached.once, ?_⟩
  intro engine keeps i chart
  exact activateCharts_latches keeps _ _ chart

end Run

/-- A chart whose declaration is no object, with one inside it that has a declaration. -/
def nestedCharts : Document :=
  let (dom, root) := Dom.empty.add .document
  let (dom, outer) := dom.addElement .html "div"
    [⟨"class", "echarts-chart"⟩, ⟨"data-option", "[]"⟩]
  let (dom, inner) := dom.addElement .html "div"
    [⟨"class", "echarts-chart"⟩, ⟨"data-option", "\x7b\x7d"⟩]
  ⟨(dom.append root outer).append outer inner, root⟩

/-- Between two passes the inner chart, which the outer one has lost by failing, is put back, and
the declaration of the outer one is mended. -/
def mendedSteps : List (Step Unit) :=
  [.activate embedScript, .edit (.move 0 none 2), .edit (.setAttribute 1 "data-option" "\x7b\x7d"),
    .activate embedScript]

theorem Run.activated_at_most_once_mended :
    (∀ step ∈ mendedSteps, step.Allowed) ∧
      ((Run.steps nestedCharts mendedSteps).run ()).1.decoded = [1, 2] ∧
      ((Run.steps nestedCharts mendedSteps).run ()).1.drawn.map Prod.fst = [2] ∧
      ((Run.steps nestedCharts mendedSteps).run ()).1.decoded.Nodup ∧
      (((Run.steps nestedCharts mendedSteps).run ()).1.drawn.map Prod.fst).Nodup := by
  have spares : (Edit.setAttribute 1 "data-option" "\x7b\x7d").SparesLatch := by
    unfold Edit.SparesLatch
    decide
  have allowed : ∀ step ∈ mendedSteps, step.Allowed := by
    rw [mendedSteps, List.forall_mem_cons, List.forall_mem_cons, List.forall_mem_cons,
      List.forall_mem_singleton]
    exact ⟨embedScript_keepsLatches, trivial, spares, embedScript_keepsLatches⟩
  have once := Run.activated_at_most_once nestedCharts mendedSteps allowed ()
  refine ⟨allowed, ?_, ?_, once.2.1, once.1⟩
  · decide +kernel
  · decide +kernel

end LivePage
