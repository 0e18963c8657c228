import LivePage.Proofs.Chart.Declaration
import LivePage.Proofs.Chart.PassEffect

/-!
Activation with engines that may be broken off. A pass goes through all elements, or it ends at the
one whose drawing is broken off; nothing of what it had done until then gets into the text or the
report, only the records that it had logged are out. Engines have no state of their own here: as
each element is visited once, what one with a state does in a pass can be told by the element alone.
-/

namespace LivePage
open Html

def Report.total (r : Report) : Nat := r.activated + r.skipped + r.missing + r.failed

namespace Pass

/-- A visit has a declaration for the engine: the element is taken up for the first time, and what it
declares is read without a fault. -/
def Asks (p : Pass) (i : NodeId) (declaration : Declaration) : Prop :=
  isActivated p.dom i = false ∧
    ∃ raw, (p.dom.latch i).attribute? i optionAttribute = some raw ∧ raw ≠ [] ∧
      decodeDeclaration raw = .ok declaration

theorem Asks.unique {p : Pass} {i : NodeId} {first second : Declaration} (one : p.Asks i first)
    (other : p.Asks i second) : first = second := by
  obtain ⟨_, raw, declared, _, decoded⟩ := one
  obtain ⟨_, raw', declared', _, decoded'⟩ := other
  cases declared.symm.trans declared'
  cases decoded.symm.trans decoded'
  rfl

theorem total_take (p : Pass) (i : NodeId) (declaration : Declaration) (drawing : Drawing) :
    (p.take i declaration drawing).report.total = p.report.total + 1 := by
  unfold take
  cases drawing.error <;> simp only [fail, Report.total] <;> omega

theorem visit_settled_or_asks (p : Pass) (i : NodeId) :
    (∃ p' : Pass, p'.report.total = p.report.total + 1 ∧ (∀ declaration, ¬ p.Asks i declaration) ∧
      ∀ (m : Type → Type) [Monad m] (engine : Engine m), p.visit engine i = pure p') ∨
    ∃ (declaration : Declaration) (start : Pass), p.Asks i declaration ∧
      start.report = p.report ∧ ∀ (m : Type → Type) [Monad m] (engine : Engine m),
        p.visit engine i = start.take i declaration <$> engine (p.dom.latch i) i declaration := by
  unfold visit Asks
  cases latch : isActivated p.dom i with
  | true =>
      refine .inl ⟨_, ?_, by simp, fun m _ engine => rfl⟩
      simp only [Report.total]
      omega
  | false =>
      simp only [Bool.false_eq_true, if_false, true_and]
      rw [← Dom.latch]
      cases declared : (p.dom.latch i).attribute? i optionAttribute with
      | none =>
          refine .inl ⟨_, ?_, by simp, fun m _ engine => rfl⟩
          simp only [Report.total]
          omega
      | some raw =>
          cases raw with
          | nil =>
              refine .inl ⟨_, ?_, by simp, fun m _ engine => rfl⟩
              simp only [Report.total]
              omega
          | cons c raw =>
              simp only [Option.some.injEq]
              cases decoded : decodeDeclaration (c :: raw) with
              | error e =>
                  refine .inl ⟨_, ?_, by simp [decoded], fun m _ engine => rfl⟩
                  simp only [fail, Report.total]
                  omega
              | ok declaration =>
                  refine .inr ⟨declaration, _, ⟨c :: raw, rfl, List.cons_ne_nil c raw, decoded⟩, ?_,
                    fun m _ engine => rfl⟩
                  rfl

section Plain

variable {engine : Engine (Except Interruption)}

/-- The engine is broken off at an element. -/
def BreaksOff (engine : Engine (Except Interruption)) (p : Pass) (i : NodeId)
    (interruption : Interruption) : Prop :=
  ∃ declaration, p.Asks i declaration ∧
    engine (p.dom.latch i) i declaration = .error interruption

theorem visit_eq_error_iff {p : Pass} {i : NodeId} {interruption : Interruption} :
    p.visit engine i = .error interruption ↔ p.BreaksOff engine i interruption := by
  rcases visit_settled_or_asks p i with ⟨p', _, unasked, settled⟩ | ⟨declaration, start, asks, _, drawn⟩
  · rw [settled]
    constructor
    · intro broken
      cases broken
    · rintro ⟨declaration, asks, _⟩
      exact absurd asks (unasked declaration)
  · rw [drawn]
    cases outcome : engine (p.dom.latch i) i declaration with
    | ok drawing =>
        constructor
        · intro broken
          cases broken
        · rintro ⟨other, asks', broken⟩
          rw [asks'.unique asks, outcome] at broken
          cases broken
    | error e =>
        constructor
        · intro broken
          cases broken
          exact ⟨declaration, asks, outcome⟩
        · rintro ⟨other, asks', broken⟩
          rw [asks'.unique asks, outcome] at broken
          cases broken
          rfl

theorem total_visit {p p' : Pass} {i : NodeId} (visited : p.visit engine i = .ok p') :
    p'.report.total = p.report.total + 1 := by
  rcases visit_settled_or_asks p i with ⟨q, total, _, settled⟩ | ⟨declaration, start, _, same, drawn⟩
  · rw [settled] at visited
    cases visited
    exact total
  · rw [drawn] at visited
    cases outcome : engine (p.dom.latch i) i declaration with
    | error e =>
        rw [outcome] at visited
        cases visited
    | ok drawing =>
        rw [outcome] at visited
        cases visited
        rw [total_take, same]

/-- A pass through all of the elements, one visit after the other. -/
inductive Completes (engine : Engine (Except Interruption)) : Pass → List NodeId → Pass → Prop where
  | done (p : Pass) : Completes engine p [] p
  | visit {p p' p'' : Pass} {i : NodeId} {elements : List NodeId}
      (visited : p.visit engine i = .ok p') (rest : Completes engine p' elements p'') :
      Completes engine p (i :: elements) p''

theorem Completes.total {p p' : Pass} {elements : List NodeId}
    (complete : Completes engine p elements p') :
    p'.report.total = p.report.total + elements.length := by
  induction complete with
  | done p => rfl
  | visit visited rest ih =>
      rw [ih, total_visit visited, List.length_cons]
      omega

theorem visitAll_of_completes {p p' : Pass} {elements : List NodeId}
    (complete : Completes engine p elements p') : visitAll engine p elements = (p', none) := by
  induction complete with
  | done p => rfl
  | visit visited rest ih =>
      rw [visitAll, visited]
      exact ih

theorem visitAll_of_breaksOff {p p' : Pass} {before : List NodeId} {i : NodeId}
    {interruption : Interruption} (complete : Completes engine p before p')
    (broken : p'.BreaksOff engine i interruption) (after : List NodeId) :
    visitAll engine p (before ++ i :: after) = (p', some interruption) := by
  induction complete with
  | done p => rw [List.nil_append, visitAll, visit_eq_error_iff.2 broken]
  | visit visited rest ih =>
      rw [List.cons_append, visitAll, visited]
      exact ih broken

theorem completes_or_breaksOff (engine : Engine (Except Interruption)) (p : Pass)
    (elements : List NodeId) :
    (∃ p', Completes engine p elements p') ∨
      ∃ before i after p' interruption, elements = before ++ i :: after ∧
        Completes engine p before p' ∧ p'.BreaksOff engine i interruption := by
  induction elements generalizing p with
  | nil => exact .inl ⟨p, .done p⟩
  | cons i elements ih =>
      cases visited : p.visit engine i with
      | error interruption =>
          exact .inr ⟨[], i, elements, p, interruption, rfl, .done p, visit_eq_error_iff.1 visited⟩
      | ok p' =>
          rcases ih p' with ⟨p'', rest⟩ | ⟨before, j, after, p'', e, whole, rest, broken⟩
          · exact .inl ⟨p'', .visit visited rest⟩
          · refine .inr ⟨i :: before, j, after, p'', e, ?_, .visit visited rest, broken⟩
            rw [whole, List.cons_append]

theorem completes_of_visitAll {p : Pass} {elements : List NodeId}
    (through : (visitAll engine p elements).2 = none) :
    Completes engine p elements (visitAll engine p elements).1 := by
  rcases completes_or_breaksOff engine p elements with
    ⟨p', complete⟩ | ⟨before, i, after, p', interruption, rfl, complete, broken⟩
  · rw [visitAll_of_completes complete]
    exact complete
  · rw [visitAll_of_breaksOff complete broken] at through
    cases through

theorem foldlM_visit (engine : Engine (Except Interruption)) (p : Pass) (elements : List NodeId) :
    elements.foldlM (visit engine) p =
      match visitAll engine p elements with
      | (p', none) => .ok p'
      | (_, some interruption) => .error interruption := by
  induction elements generalizing p with
  | nil => rfl
  | cons i elements ih =>
      rw [List.foldlM_cons, visitAll]
      cases visited : p.visit engine i with
      | error interruption => rfl
      | ok p' => exact ih p'

end Plain

section Stateful

variable {σ : Type}

theorem visit_congr {first second : Engine (Except Interruption)} {i : NodeId}
    (same : ∀ dom declaration, first dom i declaration = second dom i declaration) (p : Pass) :
    p.visit first i = p.visit second i := by
  rcases visit_settled_or_asks p i with ⟨p', _, _, settled⟩ | ⟨declaration, start, _, _, drawn⟩
  · rw [settled, settled]
  · rw [drawn, drawn, same]

theorem foldlM_visit_congr {first second : Engine (Except Interruption)} {elements : List NodeId}
    (same : ∀ i ∈ elements, ∀ dom declaration, first dom i declaration = second dom i declaration)
    (p : Pass) : elements.foldlM (visit first) p = elements.foldlM (visit second) p := by
  induction elements generalizing p with
  | nil => rfl
  | cons i elements ih =>
      obtain ⟨here, later⟩ := List.forall_mem_cons.1 same
      rw [List.foldlM_cons, List.foldlM_cons, visit_congr here]
      exact bind_congr fun p' => ih later p'

theorem run_visit (engine : Engine (ExceptT Interruption (StateM σ))) (p : Pass) (i : NodeId)
    (s : σ) :
    ((p.visit engine i).run.run s).1 =
      p.visit (fun dom j declaration => ((engine dom j declaration).run.run s).1) i := by
  rcases visit_settled_or_asks p i with ⟨p', _, _, settled⟩ | ⟨declaration, start, _, _, drawn⟩
  · rw [settled, settled]
    rfl
  · rw [drawn, drawn, ExceptT.run_map, StateT.run_map]
    rfl

/-- In a pass that visits no element twice, an engine with a state is as good as one without: each
element finds the state in which it is reached. -/
theorem exists_plain_engine (engine : Engine (ExceptT Interruption (StateM σ))) (p : Pass) (s : σ)
    {elements : List NodeId} (once : elements.Nodup) :
    ∃ plain : Engine (Except Interruption),
      elements.foldlM (visit plain) p = ((elements.foldlM (visit engine) p).run.run s).1 := by
  induction elements generalizing p s with
  | nil => exact ⟨fun _ _ _ => .error ⟨none⟩, rfl⟩
  | cons i elements ih =>
      obtain ⟨absent, once⟩ := List.nodup_cons.1 once
      let here : Engine (Except Interruption) :=
        fun dom j declaration => ((engine dom j declaration).run.run s).1
      have first := run_visit engine p i s
      cases visited : (p.visit engine i).run.run s with
      | mk outcome s' =>
          rw [visited] at first
          rw [List.foldlM_cons, ExceptT.run_bind, StateT.run_bind, visited]
          cases outcome with
          | error interruption =>
              refine ⟨here, ?_⟩
              rw [List.foldlM_cons, ← first]
              rfl
          | ok p' =>
              obtain ⟨later, rest⟩ := ih p' s' once
              let plain : Engine (Except Interruption) := fun dom j declaration =>
                if j = i then here dom j declaration else later dom j declaration
              have head : p.visit plain i = p.visit here i :=
                visit_congr (fun dom declaration => if_pos rfl) p
              have tail : elements.foldlM (visit plain) p' = elements.foldlM (visit later) p' := by
                refine foldlM_visit_congr (fun j member dom declaration => if_neg ?_) p'
                rintro rfl
                exact absent member
              refine ⟨plain, ?_⟩
              rw [List.foldlM_cons, head, ← first]
              exact tail.trans rest

end Stateful
end Pass

theorem activateCharts_eq_visitAll (engine : Engine (Except Interruption)) (d : Document) :
    activateCharts engine d =
      match Pass.visitAll engine { dom := d.dom } (chartElements d) with
      | (p, none) => .ok p
      | (_, some interruption) => .error interruption :=
  Pass.foldlM_visit engine _ _

/-- On a document that was read, an engine with a state does what one without does. -/
theorem activateCharts_stateful {σ : Type} (engine : Engine (ExceptT Interruption (StateM σ)))
    (html : Text) (s : σ) : ∃ plain : Engine (Except Interruption),
      activateCharts plain (Document.parse html) =
        ((activateCharts engine (Document.parse html)).run.run s).1 :=
  Pass.exists_plain_engine engine _ s
    (Document.nodup_withClass (Document.rooted_parseInto .empty html) chartClass)

theorem html_hydrateHtml (engine : Engine (Except Interruption)) (html : Text) :
    (hydrateHtml engine html).html =
      (changeHtml html fun d =>
        (activateCharts engine d).map fun pass => { d with dom := pass.dom }).1 := by
  simp only [hydrateHtml, changeHtml, processSafe, activateCharts_eq_visitAll]
  cases html with
  | nil => rfl
  | cons c html =>
      rw [List.isEmpty_cons, if_neg Bool.false_ne_true, if_neg Bool.false_ne_true]
      cases Pass.visitAll engine { dom := (Document.parse (c :: html)).dom }
          (chartElements (Document.parse (c :: html))) with
      | mk pass outcome => cases outcome <;> rfl

section Whole

variable {engine : Engine (Except Interruption)} {html : Text}

theorem hydrateHtml_of_completes (present : html ≠ []) {pass : Pass}
    (complete : Pass.Completes engine { dom := (Document.parse html).dom }
      (chartElements (Document.parse html)) pass) :
    hydrateHtml engine html =
      ⟨Document.write { Document.parse html with dom := pass.dom }, pass.report, pass.logs⟩ := by
  rw [hydrateHtml, List.isEmpty_eq_false_iff.2 present, if_neg Bool.false_ne_true]
  simp only [Pass.visitAll_of_completes complete]

theorem hydrateHtml_of_breaksOff (present : html ≠ []) {before after : List NodeId} {i : NodeId}
    {pass : Pass} {interruption : Interruption}
    (charts : chartElements (Document.parse html) = before ++ i :: after)
    (complete : Pass.Completes engine { dom := (Document.parse html).dom } before pass)
    (broken : pass.BreaksOff engine i interruption) :
    hydrateHtml engine html = ⟨html, {}, pass.logs ++ [interruption.record]⟩ := by
  rw [hydrateHtml, List.isEmpty_eq_false_iff.2 present, if_neg Bool.false_ne_true]
  simp only [charts, Pass.visitAll_of_breaksOff complete broken after]

/-- Hydration is all or nothing. Either no visit is broken off, and the text is that of the document
after the whole pass, with the report of that pass, which accounts for every chart element; or the
engine is broken off at some element, and the text stays as it is with nothing reported. There is
no third outcome, and nothing is asked of the engine for an empty text. The text is that of a change
to the document with the interruption caught around all of it. -/
theorem hydrateHtml_all_or_nothing (engine : Engine (Except Interruption)) (html : Text) :
    let d := Document.parse html
    let start : Pass := { dom := d.dom }
    (html = [] → hydrateHtml engine html = { html := [] }) ∧
    (html ≠ [] → ∀ pass, Pass.Completes engine start (chartElements d) pass →
      hydrateHtml engine html =
          ⟨Document.write { d with dom := pass.dom }, pass.report, pass.logs⟩ ∧
        pass.report.total = (chartElements d).length) ∧
    (html ≠ [] → ∀ before i after pass interruption, chartElements d = before ++ i :: after →
      Pass.Completes engine start before pass → pass.BreaksOff engine i interruption →
        hydrateHtml engine html = ⟨html, {}, pass.logs ++ [interruption.record]⟩) ∧
    ((∃ pass, Pass.Completes engine start (chartElements d) pass) ∨
      ∃ before i after pass interruption, chartElements d = before ++ i :: after ∧
        Pass.Completes engine start before pass ∧ pass.BreaksOff engine i interruption) ∧
    (hydrateHtml engine html).html =
      (changeHtml html fun d =>
        (activateCharts engine d).map fun pass => { d with dom := pass.dom }).1 := by
  intro d start
  refine ⟨?_, ?_, ?_, Pass.completes_or_breaksOff engine start (chartElements d),
    html_hydrateHtml engine html⟩
  · rintro rfl
    rfl
  · intro present pass complete
    have total := complete.total
    refine ⟨hydrateHtml_of_completes present complete, ?_⟩
    rw [total]
    exact Nat.zero_add _
  · intro present before i after pass interruption charts complete broken
    exact hydrateHtml_of_breaksOff present charts complete broken

end Whole

/-- An engine that fails at one element after emptying it, and is broken off at all others. -/
def brittleEngine : Engine (Except Interruption) := fun dom i _ =>
  if i = 4 then .ok ⟨dom.removeChildren i, some (.engine "no room")⟩ else .error ⟨some "gone"⟩

def twoCharts : Text :=
  "<p class=\"echarts-chart\" data-option=\"\x7b\x7d\">a<p class=\"echarts-chart\" data-option=\"\x7b\x7d\">b"

/-- The pass behind the first chart, which has been emptied by then. -/
def brittlePass : Pass × Option Interruption :=
  Pass.visitAll brittleEngine { dom := (Document.parse twoCharts).dom } [4]

/-- The first chart is lost before the engine is broken off at the second, and yet all of the text
stays as it is. -/
theorem hydrateHtml_all_or_nothing_brittle :
    chartElements (Document.parse twoCharts) = [4, 6] ∧ brittlePass.1.report.failed = 1 ∧
      hydrateHtml brittleEngine twoCharts = ⟨twoCharts, {},
        [⟨.error, "Failed to initialize chart: chart engine failed: no room"⟩,
          ⟨.error, "Error processing markup: gone"⟩]⟩ := by
  -- all that depends on the document is computed at once
  obtain ⟨charts, through, failed, logs, fresh, declared⟩ :
      chartElements (Document.parse twoCharts) = [4, 6] ∧ brittlePass.2 = none ∧
      brittlePass.1.report.failed = 1 ∧
      brittlePass.1.logs =
        [⟨.error, "Failed to initialize chart: chart engine failed: no room"⟩] ∧
      isActivated brittlePass.1.dom 6 = false ∧
      (brittlePass.1.dom.latch 6).attribute? 6 optionAttribute = some "\x7b\x7d".toList := by
    decide +kernel
  have decoded : decodeDeclaration "\x7b\x7d" = .ok [] := by
    rw [decodeDeclaration_ok_iff, unescapeDeclaration_of_none (by decide)]
    cbv
  have asks : brittlePass.1.Asks 6 [] := ⟨fresh, "\x7b\x7d", declared, by decide, decoded⟩
  have gone (dom : Dom) : brittleEngine dom 6 [] = .error ⟨some "gone"⟩ := if_neg (by decide)
  have broken : brittlePass.1.BreaksOff brittleEngine 6 ⟨some "gone"⟩ := ⟨[], asks, gone _⟩
  have present : twoCharts ≠ [] := List.cons_ne_nil _ _
  obtain ⟨_, _, kept, _⟩ := hydrateHtml_all_or_nothing brittleEngine twoCharts
  have whole := kept present [4] 6 [] brittlePass.1 ⟨some "gone"⟩ charts
    (Pass.completes_of_visitAll through) broken
  refine ⟨charts, failed, whole.trans ?_⟩
  rw [logs]
  rfl

end LivePage
