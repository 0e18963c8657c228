import LivePage.Chart.Check
import LivePage.Proofs.Chart.PassEffect

/-!
Checking a document and activating its charts agree. The check looks at each element as it was
parsed, while the pass changes the tree as it goes; but what an element is counted as is settled by
its own attributes, and those no visit to another element touches. So the elements that the check
reports are those that the pass counts as missing or failed, in the same order.
-/

namespace LivePage
open Html

/-- The count that has gone up by one from a report to a later one. -/
def Report.rise? (r r' : Report) : Option Outcome :=
  [.activated, .skipped, .missing, .failed].find? fun o => r'.count o = r.count o + 1

/-- The visits of a pass, each as the element and what the report then counts it as. -/
def Pass.tally {m : Type → Type} [Monad m] (engine : Engine m) (p : Pass) :
    List NodeId → m (List (NodeId × Option Outcome))
  | [] => return []
  | i :: rest => do
      let p' ← visit engine p i
      let others ← tally engine p' rest
      return (i, p.report.rise? p'.report) :: others

namespace Pass

theorem rise?_meet (p : Pass) (i : NodeId) (fate : Fate) :
    p.report.rise? (p.meet i fate).report = some fate.outcome := by
  unfold Report.rise?
  simp only [count_meet, Nat.add_left_cancel_iff]
  cases fate <;> rfl

theorem tally_embedScript {m : Type → Type} [Monad m] [LawfulMonad m] (p : Pass)
    {elements : List NodeId} (nodup : elements.Nodup)
    (shown : ∀ i ∈ elements, ∃ e, p.dom.element? i = some e) :
    (p.tally embedScript elements : m _) =
      pure (elements.map fun i => (i, some (p.dom.fate i).outcome)) := by
  induction elements generalizing p with
  | nil => rfl
  | cons i elements ih =>
      obtain ⟨⟨e, first⟩, others⟩ := List.forall_mem_cons.1 shown
      obtain ⟨new, nodup⟩ := List.nodup_cons.1 nodup
      have untouched (j : NodeId) (member : j ∈ elements) :
          p.dom.SameAt (p.meet i (.ofAttributes e.attributes)).dom j := by
        obtain ⟨e', found⟩ := others j member
        refine (effect_meet p first).others j ?_ ?_
        · exact Dom.lt_size_of_content? (Dom.content?_of_element? found)
        · rw [List.mem_singleton]
          rintro rfl
          exact new member
      have remaining : ∀ j ∈ elements,
          ∃ e', (p.meet i (.ofAttributes e.attributes)).dom.element? j = some e' := by
        intro j member
        obtain ⟨e', found⟩ := others j member
        exact ⟨e', (Dom.element?_congr (untouched j member).1).trans found⟩
      have same : (elements.map fun j =>
            (j, some ((p.meet i (.ofAttributes e.attributes)).dom.fate j).outcome)) =
          elements.map fun j => (j, some (p.dom.fate j).outcome) := by
        refine List.map_congr_left ?_
        intro j member
        rw [Dom.fate_congr (untouched j member)]
      rw [tally, visit_embedScript p first, pure_bind, ih _ nodup remaining, pure_bind, rise?_meet,
        same, List.map_cons, Dom.fate_of_element? first]

end Pass

def Outcome.isProblem (o : Outcome) : Bool := o = .missing || o = .failed

/-- The identifier of an element, empty if it has none. -/
def Html.Dom.idText (d : Dom) (i : NodeId) : Text := (d.attribute? i "id").getD []

theorem decodeDeclaration_nil : decodeDeclaration [] = .error .empty := rfl

theorem Html.Dom.outcome_fate_ne_skipped {d : Dom} {i : NodeId} (fresh : isActivated d i = false) :
    (d.fate i).outcome ≠ .skipped := by
  unfold fate
  unfold isActivated hasAttribute at fresh
  cases shown : d.element? i with
  | none =>
      intro same
      cases same
  | some e =>
      rw [shown, Option.any_some] at fresh
      rw [Option.map_some, Option.getD_some, Fate.ofAttributes, fresh, if_neg Bool.false_ne_true]
      intro same
      cases found : e.attributes.get? optionAttribute with
      | none =>
          rw [found] at same
          cases same
      | some raw =>
          rw [found] at same
          cases raw with
          | nil => cases same
          | cons c raw =>
              cases decoded : decodeDeclaration (c :: raw) with
              | ok declaration =>
                  simp only [decoded] at same
                  cases same
              | error e =>
                  simp only [decoded] at same
                  cases same

/-- An element that is not latched is reported exactly if its fate is to be missing or to fail. -/
theorem map_id_chartProblem? {d : Dom} {i : NodeId} (fresh : isActivated d i = false) :
    (chartProblem? d i).map (·.id) =
      if (d.fate i).outcome.isProblem then some (d.idText i) else none := by
  unfold chartProblem? Dom.fate Dom.idText
  unfold isActivated Dom.hasAttribute at fresh
  unfold Dom.attribute?
  cases shown : d.element? i with
  | none => rfl
  | some e =>
      rw [shown, Option.any_some] at fresh
      simp only [Option.bind_some, Option.map_some, Option.getD_some]
      rw [Fate.ofAttributes, fresh, if_neg Bool.false_ne_true]
      cases e.attributes.get? optionAttribute with
      | none => rfl
      | some raw =>
          cases raw with
          | nil =>
              -- an empty declaration is missing to the pass, and is not decoded by the check
              simp only [decodeDeclaration_nil]
              rfl
          | cons c rest =>
              cases decoded : decodeDeclaration (c :: rest) with
              | ok declaration =>
                  simp only [decoded]
                  rfl
              | error error =>
                  simp only [decoded]
                  rfl

theorem filterMap_chartProblem? {d : Dom} {elements : List NodeId}
    (fresh : ∀ i ∈ elements, isActivated d i = false) :
    (elements.filterMap (chartProblem? d)).map (·.id) =
      (elements.filter fun i => (d.fate i).outcome.isProblem).map d.idText := by
  induction elements with
  | nil => rfl
  | cons i elements ih =>
      obtain ⟨first, others⟩ := List.forall_mem_cons.1 fresh
      have here := map_id_chartProblem? first
      cases problem : (d.fate i).outcome.isProblem with
      | true =>
          rw [problem, if_pos rfl, Option.map_eq_some_iff] at here
          obtain ⟨found, reported, id⟩ := here
          rw [List.filterMap_cons_some reported, List.map_cons, ih others, id, List.filter_cons,
            if_pos problem, List.map_cons]
      | false =>
          rw [problem, if_neg Bool.false_ne_true, Option.map_eq_none_iff] at here
          rw [List.filterMap_cons_none here, ih others, List.filter_cons, problem,
            if_neg Bool.false_ne_true]

/-- In a document without latched charts the check reports exactly the elements that a pass counts
as missing or failed, in the order of the pass. It reports none exactly if the pass activates all of
them. -/
theorem chartProblems_agree (html : Text) :
    let d := Document.parse html
    (∀ i ∈ chartElements d, isActivated d.dom i = false) →
    ∃ (pass : Pass) (tally : List (NodeId × Option Outcome)),
      (∀ (m : Type → Type) [Monad m] [LawfulMonad m],
        (activateCharts embedScript d : m Pass) = pure pass ∧
        (Pass.tally embedScript { dom := d.dom } (chartElements d) : m _) = pure tally) ∧
      tally.map Prod.fst = chartElements d ∧
      (∀ o, pass.report.count o = tally.countP fun t => t.2 = some o) ∧
      (chartProblems html).map (·.id) =
        (tally.filter fun t => t.2 = some .missing ∨ t.2 = some .failed).map
          (fun t => (d.dom.attribute? t.1 "id").getD []) ∧
      (chartProblems html = [] ↔ ∀ t ∈ tally, t.2 = some .activated) := by
  intro d fresh
  have nodup : (chartElements d).Nodup :=
    Document.nodup_withClass (Document.rooted_parseInto .empty html) chartClass
  have shown : ∀ i ∈ chartElements d, ∃ e, d.dom.element? i = some e := by
    intro i member
    obtain ⟨_, e, found, _⟩ := Document.mem_withClass.1 member
    exact ⟨e, found⟩
  obtain ⟨pass, run, effect⟩ := Pass.exists_foldlM_visit { dom := d.dom } nodup shown
  have reported := filterMap_chartProblem? fresh
  refine ⟨pass, (chartElements d).map fun i => (i, some (d.dom.fate i).outcome), ?_, ?_, ?_, ?_, ?_⟩
  · intro m _ _
    exact ⟨run m, Pass.tally_embedScript { dom := d.dom } nodup shown⟩
  · rw [List.map_map]
    exact List.map_id _
  · intro o
    rw [effect.report, List.countP_map]
    cases o <;> simp [Report.count, Function.comp_def]
  · rw [List.filter_map, List.map_map]
    refine reported.trans (congrArg (List.map d.dom.idText) (List.filter_congr ?_))
    intro i _
    simp [Outcome.isProblem]
  · rw [← List.map_eq_nil_iff (f := (·.id)), chartProblems, reported, List.map_eq_nil_iff,
      List.filter_eq_nil_iff, List.forall_mem_map]
    refine forall₂_congr ?_
    intro i member
    have taken := Dom.outcome_fate_ne_skipped (fresh i member)
    revert taken
    cases (d.dom.fate i).outcome <;> simp [Outcome.isProblem]

/-- The outer chart fails and lets go of the one inside it, which is missing all the same. -/
theorem chartProblems_agree_nested :
    let d := Document.parse
      "<div class=\"echarts-chart\" id=\"a\" data-option=\"[]\"><i class=\"echarts-chart\">"
    (∀ i ∈ chartElements d, isActivated d.dom i = false) ∧
    ∃ tally, (Pass.tally embedScript { dom := d.dom } (chartElements d) : Id _) = pure tally ∧
      tally.map Prod.fst = [4, 5] ∧
      (tally.filter fun t => t.2 = some .missing ∨ t.2 = some .failed).map
        (fun t => (d.dom.attribute? t.1 "id").getD []) = ["a".toList, []] := by
  intro d
  have facts : (∀ i ∈ chartElements d, isActivated d.dom i = false) ∧ chartElements d = [4, 5] ∧
      (chartElements d).filterMap (fun i => (chartProblem? d.dom i).map (·.id)) = ["a".toList, []] := by
    decide +kernel
  obtain ⟨fresh, listed, ids⟩ := facts
  obtain ⟨pass, tally, run, visited, _, reported, _⟩ := chartProblems_agree _ fresh
  refine ⟨fresh, tally, (run Id).2, visited.trans listed, reported.symm.trans ?_⟩
  rw [chartProblems, List.map_filterMap]
  exact ids

end LivePage
