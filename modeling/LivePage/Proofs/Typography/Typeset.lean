import LivePage.Proofs.Typography.Sweep
import LivePage.Proofs.Typography.Symbols

/-!
Typesetting of a whole tree, style by style and source by source: what becomes of siblings is a
relation with one case for a run of texts and one for another node, and the typographer gives the one
tree that is so related. Each text of a run is styled for itself, and symbols are looked for in the
whole run, so it does not matter where the run was split.

Texts have nothing below them in a parsed document. Where one has, the first text of a run keeps what
is below it, and what is below the others goes with them.
-/

namespace LivePage
open Markdown

namespace Typographer
open Node

mutual

theorem mapValues_keep : ∀ n : Node, n.mapValues (fun v _ => v) = n
  | .mk v span children => by rw [mapValues, mapAllValues_keep children]

theorem mapAllValues_keep : ∀ ns : List Node, mapAllValues (fun v _ => v) ns = ns
  | [] => rfl
  | n :: rest => by rw [mapAllValues, mapValues_keep n, mapAllValues_keep rest]

end

/-- A text in the style, which may depend on what was typed in its span. -/
def styledText (t : Typographer) (span : Span) (s : Text) : Text :=
  if t.quotes = QuoteStyle.curly then s
  else
    let source := t.source.getD []
    let typed := source.any isCurlyQuote
    let origin := if typed then span.slice? (Text.lineStarts source) source else none
    styleQuotes t.quotes typed origin s

theorem restyle_eq (t : Typographer) (root : Node) :
    t.restyle root = root.mapValues (onTexts t.styledText) := by
  by_cases curly : t.quotes = QuoteStyle.curly
  · have kept : onTexts t.styledText = fun v _ => v := by
      funext v span
      cases v with
      | text s => exact congrArg Value.text (if_pos curly)
      | _ => rfl
    rw [restyle, if_pos curly, kept, mapValues_keep]
  · rw [restyle, if_neg curly]
    refine congrArg (fun f => root.mapValues f) ?_
    funext v span
    cases v with
    | text s =>
        rw [onTexts, styledText, if_neg curly]
        cases typed : (t.source.getD []).any isCurlyQuote <;> simp [typed]
    | _ => rfl

theorem setSymbols_eq (root : Node) :
    setSymbols root = root.mapValues (onTexts fun _ => symbols) := rfl

def applyAll (t : Typographer) (nodes : List Node) : List Node :=
  mapAllValues (onTexts fun _ => symbols) (joinAll (mapAllValues (onTexts t.styledText) nodes))

theorem applyAll_singleton (t : Typographer) (root : Node) : t.applyAll [root] = [t.apply root] := by
  rw [apply, setSymbols_eq, restyle_eq, applyAll, mapAllValues, mapAllValues, joinAll, joinAll,
    joinFirst_of_head (by simp)]
  rfl

/-- The texts of a run, each in the style, one after the other. -/
def styledRun (t : Typographer) (run : List Node) : Text :=
  run.flatMap fun n => (n.text?.map (t.styledText n.span)).getD []

theorem applyAll_other (t : Typographer) {n : Node} (other : n.text? = none) (rest : List Node) :
    t.applyAll (n :: rest) = .mk n.value n.span (t.applyAll n.children) :: t.applyAll rest := by
  have kept : (Node.mk n.value n.span (mapAllValues (onTexts t.styledText) n.children)).text? =
    none := other
  have joined : (Node.mk n.value n.span
    (joinAll (mapAllValues (onTexts t.styledText) n.children))).text? = none := other
  rw [applyAll, mapAllValues, mapValues_other other, joinAll_other kept, mapAllValues]
  exact congrArg (· :: _) (mapValues_other joined)

theorem applyAll_run (t : Typographer) {first : Node} {more rest : List Node}
    (texts : AllTexts (first :: more)) (ends : Bounded rest) :
    t.applyAll (first :: more ++ rest) =
      .mk (.text (Text.scan symbolForms (t.styledRun (first :: more)))) first.span
        (t.applyAll first.children) :: t.applyAll rest := by
  obtain ⟨s, text⟩ := Option.isSome_iff_exists.1 (texts first List.mem_cons_self)
  have mapped := allTexts_mapAllValues (f := t.styledText) texts
  have whole := runText_mapAllValues (f := t.styledText) (first :: more)
  rw [mapAllValues] at mapped whole
  rw [applyAll, mapAllValues_append, mapAllValues,
    joinAll_run mapped (bounded_mapAllValues ends), whole, mapValues_text text,
    ← symbols_eq_scan]
  rfl

/-- Siblings, and what becomes of them: every run of texts that no text stands before or behind is
one text in the place of its first, in which the forms of symbols in the whole styled run are
replaced; another node stays. -/
inductive Typeset (t : Typographer) : List Node → List Node → Prop where
  | nil : Typeset t [] []
  | other {n : Node} {children' rest rest' : List Node} :
      n.text? = none → Typeset t n.children children' → Typeset t rest rest' →
      Typeset t (n :: rest) (.mk n.value n.span children' :: rest')
  | run {first : Node} {more children' rest rest' : List Node} :
      (∀ n ∈ first :: more, n.text?.isSome) → (∀ n ∈ rest.head?, n.text? = none) →
      Typeset t first.children children' → Typeset t rest rest' →
      Typeset t (first :: more ++ rest)
        (.mk (.text (Text.scan symbolForms (t.styledRun (first :: more)))) first.span children' ::
          rest')

section Typeset

variable {t : Typographer} {nodes after : List Node}

theorem typeset_applyAll (t : Typographer) (nodes : List Node) : Typeset t nodes (t.applyAll nodes) := by
  induction nodes using run_induction with
  | nil => exact .nil
  | other n rest other below after =>
      rw [applyAll_other t other]
      exact .other other below after
  | run first more rest texts ends below after =>
      rw [applyAll_run t texts ends]
      exact .run texts ends below after

theorem Typeset.eq_applyAll (typeset : Typeset t nodes after) : after = t.applyAll nodes := by
  induction typeset with
  | nil => rfl
  | other other _ _ below after => rw [applyAll_other t other, below, after]
  | run texts ends _ _ below after => rw [applyAll_run t texts ends, below, after]

/-- Of two neighbours one is no text. -/
def Parted (m n : Node) : Prop := m.text?.isSome → n.text? = none

theorem Typeset.bounded (typeset : Typeset t nodes after) (ends : Bounded nodes) :
    Bounded after := by
  cases typeset with
  | nil => exact nofun
  | @other n _ _ _ other => exact forall_mem_head? (n := .mk n.value n.span _) other _
  | @run first _ _ _ _ texts =>
      have other : first.text? = none := ends first rfl
      have isText := texts first List.mem_cons_self
      rw [other] at isText
      cases isText

theorem Typeset.parted (typeset : Typeset t nodes after) :
    after.IsChain Parted ∧ EachOf (fun n => n.children.IsChain Parted) after := by
  induction typeset with
  | nil => exact ⟨.nil, trivial⟩
  | @other n _ _ _ other _ _ below after =>
      refine ⟨List.isChain_cons.2 ⟨fun m _ isText => ?_, after.1⟩, below, after.2⟩
      have none : n.text?.isSome := isText
      rw [other] at none
      cases none
  | run _ ends _ more below after =>
      exact ⟨List.isChain_cons.2 ⟨fun m head _ => more.bounded ends m head, after.1⟩, below, after.2⟩

mutual

/-- A tree without its texts, and without what stands below them. -/
def outline : Node → List Node
  | .mk v span children =>
      match v with
      | .text _ => []
      | v => [.mk v span (outlineAll children)]

def outlineAll : List Node → List Node
  | [] => []
  | n :: rest => outline n ++ outlineAll rest

end

theorem outline_text {n : Node} (isText : n.text?.isSome) : outline n = [] := by
  obtain ⟨s, text⟩ := Option.isSome_iff_exists.1 isText
  rw [eq_of_text? text, outline]

theorem outline_other {n : Node} (other : n.text? = none) :
    outline n = [.mk n.value n.span (outlineAll n.children)] := by
  obtain ⟨v, span, children⟩ := n
  cases v with
  | text s => cases other
  | _ => rfl

theorem outlineAll_run {run : List Node} (texts : AllTexts run) (rest : List Node) :
    outlineAll (run ++ rest) = outlineAll rest := by
  induction run with
  | nil => rfl
  | cons n run ih =>
      obtain ⟨isText, later⟩ := List.forall_mem_cons.1 texts
      rw [List.cons_append, outlineAll, outline_text isText, ih later, List.nil_append]

theorem Typeset.same_outline (typeset : Typeset t nodes after) :
    outlineAll after = outlineAll nodes := by
  induction typeset with
  | nil => rfl
  | @other n children' _ _ other _ _ below after =>
      have other' : (Node.mk n.value n.span children').text? = none := other
      rw [outlineAll, outlineAll, outline_other other, outline_other other', after]
      exact congrArg (fun inner => [Node.mk n.value n.span inner] ++ _) below
  | run texts _ _ _ _ after =>
      rw [outlineAll_run texts, outlineAll, outline_text rfl, after, List.nil_append]

end Typeset

/-- The typographer gives the tree that the relation asks for, and no other one is so related. It is
what the visits to the texts of the styled tree leave, with symbols in place; no two texts are
neighbours in it; and without texts it is the tree as it was. -/
theorem apply_iff_typeset (t : Typographer) (root : Node) :
    (∀ after : Node, after = t.apply root ↔ Typeset t [root] [after]) ∧
    (∃ merged : Node, Placed.toNodes (sweep (t.restyle root)).standing = [merged] ∧
      t.apply root = setSymbols merged) ∧
    Each (fun n => n.children.IsChain Parted) (t.apply root) ∧
    outline (t.apply root) = outline root := by
  have typeset : Typeset t [root] [t.apply root] := by
    rw [← applyAll_singleton]
    exact typeset_applyAll t [root]
  refine ⟨?_, ⟨join (t.restyle root), toNodes_sweep _, rfl⟩, typeset.parted.2.1, ?_⟩
  · intro after
    constructor
    · rintro rfl
      exact typeset
    · intro related
      have same := related.eq_applyAll
      rw [applyAll_singleton] at same
      exact (List.cons.inj same).1
  · simpa only [outlineAll, List.append_nil] using typeset.same_outline

/-- A symbol that was split over three texts, beside code in which a form stays. -/
example :
    let text (s : Text) : Node := .mk (.text s) default []
    let code : Node := .mk (.code "(c)") default []
    let split : Node := .mk .paragraph default [text "“a” (", text "T", text "m)", code, text "+-"]
    (apply ⟨.straight, none⟩ split).children.map value =
      [.text "\"a\" ™", .code "(c)", .text "±"] := by
  decide +kernel

end Typographer
end LivePage
