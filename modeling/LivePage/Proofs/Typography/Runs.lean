import LivePage.Proofs.Typography.Quotes

/-!
Siblings in their runs of texts. A list of siblings is followed run by run, and joining them is
described by what it makes of a whole run and of other nodes.
-/

namespace LivePage
open Markdown

namespace Markdown.Node

theorem sizeAll_append (ns others : List Node) :
    sizeAll (ns ++ others) = sizeAll ns + sizeAll others := by
  induction ns with
  | nil => rw [List.nil_append, sizeAll, Nat.zero_add]
  | cons n ns ih => rw [List.cons_append, sizeAll, sizeAll, ih, Nat.add_assoc]

theorem size_eq (n : Node) : n.size = sizeAll n.children + 1 := by
  cases n
  rfl

end Markdown.Node

namespace Typographer
open Node

/-- Siblings that a run of texts may end before. -/
def Bounded (rest : List Node) : Prop := ∀ n ∈ rest.head?, n.text? = none

def AllTexts (run : List Node) : Prop := ∀ n ∈ run, n.text?.isSome

theorem exists_run (nodes : List Node) :
    ∃ run rest, nodes = run ++ rest ∧ AllTexts run ∧ Bounded rest := by
  induction nodes with
  | nil => exact ⟨[], [], rfl, nofun, nofun⟩
  | cons n nodes ih =>
      cases text : n.text? with
      | none => exact ⟨[], n :: nodes, rfl, nofun, forall_mem_head? text nodes⟩
      | some s =>
          obtain ⟨run, rest, rfl, texts, ends⟩ := ih
          have first : n.text?.isSome := by rw [text]; rfl
          exact ⟨n :: run, rest, rfl, List.forall_mem_cons.2 ⟨first, texts⟩, ends⟩

/-- A list of siblings is followed run by run, with what stands below other nodes and below the
first text of each run. -/
@[elab_as_elim]
theorem run_induction {motive : List Node → Prop} (nil : motive [])
    (other : ∀ n rest, n.text? = none → motive n.children → motive rest → motive (n :: rest))
    (run : ∀ first more rest, AllTexts (first :: more) → Bounded rest →
      motive first.children → motive rest → motive (first :: more ++ rest)) (nodes : List Node) :
    motive nodes := by
  induction size : sizeAll nodes using Nat.strongRecOn generalizing nodes with
  | ind size ih =>
      subst size
      cases nodes with
      | nil => exact nil
      | cons n rest =>
          have own := size_eq n
          rw [sizeAll] at ih
          have inner := ih _ (by omega) n.children rfl
          cases text : n.text? with
          | none => exact other n rest text inner (ih _ (by omega) rest rfl)
          | some s =>
              obtain ⟨more, rest, rfl, texts, ends⟩ := exists_run rest
              rw [sizeAll_append] at ih
              have first : n.text?.isSome := by rw [text]; rfl
              exact run n more rest (List.forall_mem_cons.2 ⟨first, texts⟩) ends inner
                (ih _ (by omega) rest rfl)

theorem runText_text {n : Node} {s : Text} (text : n.text? = some s) (run : List Node) :
    runText (n :: run) = s ++ runText run := by
  rw [runText, List.flatMap_cons, text]
  rfl

theorem joinAll_other {n : Node} (other : n.text? = none) (rest : List Node) :
    joinAll (n :: rest) = .mk n.value n.span (joinAll n.children) :: joinAll rest := by
  obtain ⟨v, span, children⟩ := n
  have other' : (Node.mk v span (joinAll children)).text? = none := other
  rw [joinAll, join, joinFirst_of_other other']
  rfl

theorem bounded_joinAll {rest : List Node} (ends : Bounded rest) : Bounded (joinAll rest) := by
  cases rest with
  | nil => exact nofun
  | cons n rest =>
      have other : n.text? = none := ends n rfl
      rw [joinAll_other other]
      exact forall_mem_head? (n := .mk n.value n.span (joinAll n.children)) other _

/-- A run becomes one text in the place of its first, with what stands below that. -/
theorem joinAll_run {first : Node} {more rest : List Node} (texts : AllTexts (first :: more))
    (ends : Bounded rest) :
    joinAll (first :: more ++ rest) =
      .mk (.text (runText (first :: more))) first.span (joinAll first.children) :: joinAll rest := by
  induction more generalizing first with
  | nil =>
      obtain ⟨s, text⟩ := Option.isSome_iff_exists.1 (texts first List.mem_cons_self)
      have whole : runText [first] = s := (runText_text text []).trans (List.append_nil s)
      rw [whole, eq_of_text? text, List.cons_append, List.nil_append, joinAll, join,
        joinFirst_of_head (bounded_joinAll ends)]
      rfl
  | cons next more ih =>
      obtain ⟨isText, later⟩ := List.forall_mem_cons.1 texts
      obtain ⟨s, text⟩ := Option.isSome_iff_exists.1 isText
      rw [List.cons_append, joinAll, ih later, runText_text text, eq_of_text? text, join, joinFirst]
      rfl

/-- Applies `f` to the text of every node that is a text. -/
def onTexts (f : Span → Text → Text) (v : Value) (span : Span) : Value :=
  match v with
  | .text s => .text (f span s)
  | v => v

section OnTexts

variable {f : Span → Text → Text}

theorem mapAllValues_append (g : Value → Span → Value) (ns others : List Node) :
    mapAllValues g (ns ++ others) = mapAllValues g ns ++ mapAllValues g others := by
  induction ns with
  | nil => rfl
  | cons n ns ih => rw [List.cons_append, mapAllValues, mapAllValues, ih, List.cons_append]

theorem mapValues_other {n : Node} (other : n.text? = none) :
    n.mapValues (onTexts f) = .mk n.value n.span (mapAllValues (onTexts f) n.children) := by
  obtain ⟨v, span, children⟩ := n
  cases v with
  | text s => cases other
  | _ => rfl

theorem mapValues_text {n : Node} {s : Text} (text : n.text? = some s) :
    n.mapValues (onTexts f) =
      .mk (.text (f n.span s)) n.span (mapAllValues (onTexts f) n.children) := by
  rw [eq_of_text? text]
  rfl

theorem text?_mapValues (n : Node) :
    (n.mapValues (onTexts f)).text? = n.text?.map (f n.span) := by
  cases text : n.text? with
  | none =>
      rw [mapValues_other text]
      exact text
  | some s =>
      rw [mapValues_text text]
      rfl

theorem allTexts_mapAllValues {run : List Node} (texts : AllTexts run) :
    AllTexts (mapAllValues (onTexts f) run) := by
  induction run with
  | nil => exact nofun
  | cons n run ih =>
      obtain ⟨isText, later⟩ := List.forall_mem_cons.1 texts
      refine List.forall_mem_cons.2 ⟨?_, ih later⟩
      rw [text?_mapValues, Option.isSome_map]
      exact isText

theorem bounded_mapAllValues {rest : List Node} (ends : Bounded rest) :
    Bounded (mapAllValues (onTexts f) rest) := by
  cases rest with
  | nil => exact nofun
  | cons n rest =>
      refine forall_mem_head? ?_ _
      rw [text?_mapValues, ends n rfl]
      rfl

theorem runText_mapAllValues (run : List Node) :
    runText (mapAllValues (onTexts f) run) =
      run.flatMap fun n => (n.text?.map (f n.span)).getD [] := by
  induction run with
  | nil => rfl
  | cons n run ih =>
      rw [mapAllValues, runText_cons, ih, runText, List.flatMap_singleton, text?_mapValues]
      rfl

end OnTexts

end Typographer
end LivePage
