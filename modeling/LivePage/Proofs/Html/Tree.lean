import LivePage.Html.Select
import LivePage.Proofs.Html.Reading
import LivePage.Proofs.Html.Store
import Mathlib.Data.List.Chain
import Mathlib.Data.List.Nodup
import Mathlib.Data.List.Perm.Subperm
import Mathlib.Logic.Relation

/-!
What stands below a node. Walking down to a depth as large as the store finds every node below, as a
shortest way down passes no node twice; and where a node does not stand below itself the walk meets
each node once, as no node has two parents.
-/

namespace LivePage.Html

namespace Dom

def IsChild (d : Dom) (p i : NodeId) : Prop := i ∈ d.children p

/-- Whether a node is, or stands somewhere below, another. -/
def Reaches (d : Dom) : NodeId → NodeId → Prop := Relation.ReflTransGen d.IsChild

/-- A node that stands below itself. No document has one, but a store can. -/
def OnCycle (d : Dom) (i : NodeId) : Prop := Relation.TransGen d.IsChild i i

theorem reaches_of_mem_descendantsTo {d : Dom} {depth : Nat} {i j : NodeId}
    (member : j ∈ d.descendantsTo depth i) : d.Reaches i j := by
  induction depth generalizing i with
  | zero => cases member
  | succ depth ih =>
      rw [descendantsTo, List.mem_cons, List.mem_flatMap] at member
      rcases member with rfl | ⟨c, child, below⟩
      · exact .refl
      · exact .head child (ih below)

theorem exists_path {d : Dom} {i j : NodeId} (reaches : d.Reaches i j) :
    ∃ path : List NodeId, (i :: path).IsChain d.IsChild ∧ (i :: path).Nodup ∧
      (i :: path).getLast? = some j := by
  induction reaches using Relation.ReflTransGen.head_induction_on with
  | refl => exact ⟨[], .singleton j, List.nodup_singleton j, rfl⟩
  | @head i c child _ ih =>
      obtain ⟨path, chain, nodup, last⟩ := ih
      by_cases again : i ∈ c :: path
      · obtain ⟨before, behind, split⟩ := List.append_of_mem again
        rw [split] at chain nodup last
        refine ⟨behind, chain.right_of_append, (List.nodup_append.1 nodup).2.1, ?_⟩
        rwa [List.getLast?_append_cons] at last
      · exact ⟨c :: path, List.isChain_cons_cons.2 ⟨child, chain⟩, List.nodup_cons.2 ⟨again, nodup⟩,
          by rwa [List.getLast?_cons_cons]⟩

theorem mem_descendantsTo_of_path {d : Dom} {depth : Nat} {i j : NodeId} {path : List NodeId}
    (chain : (i :: path).IsChain d.IsChild) (last : (i :: path).getLast? = some j)
    (short : path.length < depth) : j ∈ d.descendantsTo depth i := by
  induction path generalizing i depth with
  | nil =>
      cases depth with
      | zero => cases short
      | succ depth =>
          cases last
          exact List.mem_cons_self
  | cons c path ih =>
      cases depth with
      | zero => cases short
      | succ depth =>
          obtain ⟨child, chain⟩ := List.isChain_cons_cons.1 chain
          rw [List.getLast?_cons_cons] at last
          have below := ih chain last (Nat.lt_of_succ_lt_succ short)
          exact List.mem_cons_of_mem i (List.mem_flatMap.2 ⟨c, child, below⟩)

theorem lt_size_of_mem_path {d : Dom} {i j : NodeId} {path : List NodeId}
    (chain : (i :: path).IsChain d.IsChild) (last : (i :: path).getLast? = some j)
    (present : j < d.size) : ∀ k ∈ i :: path, k < d.size := by
  induction path generalizing i with
  | nil =>
      cases last
      exact List.forall_mem_singleton.2 present
  | cons c path ih =>
      obtain ⟨child, chain⟩ := List.isChain_cons_cons.1 chain
      rw [List.getLast?_cons_cons] at last
      exact List.forall_mem_cons.2 ⟨lt_size_of_mem_children child, ih chain last⟩

theorem mem_descendants_of_reaches {d : Dom} {i j : NodeId} (reaches : d.Reaches i j)
    (present : j < d.size) : j ∈ d.descendants i := by
  obtain ⟨path, chain, nodup, last⟩ := exists_path reaches
  have stored := lt_size_of_mem_path chain last present
  have inside : i :: path ⊆ List.range d.size :=
    fun k member => List.mem_range.2 (stored k member)
  have short := (List.Nodup.subperm nodup inside).length_le
  rw [List.length_range] at short
  exact mem_descendantsTo_of_path chain last short

theorem mem_descendants_iff {d : Dom} {i j : NodeId} (present : j < d.size) :
    j ∈ d.descendants i ↔ d.Reaches i j :=
  ⟨reaches_of_mem_descendantsTo, fun reaches => mem_descendants_of_reaches reaches present⟩

theorem reaches_total {d : Dom} {i j k : NodeId} (first : d.Reaches i k) (second : d.Reaches j k) :
    d.Reaches i j ∨ d.Reaches j i := by
  have unique : Relator.RightUnique (Function.swap d.IsChild) :=
    fun _ _ _ first second => parent_unique first second
  have up := Relation.ReflTransGen.total_of_right_unique unique
    (Relation.reflTransGen_swap.2 first) (Relation.reflTransGen_swap.2 second)
  exact up.symm.imp Relation.reflTransGen_swap.1 Relation.reflTransGen_swap.1

theorem not_onCycle_of_reaches {d : Dom} {i j : NodeId} (free : ¬d.OnCycle i)
    (reaches : d.Reaches i j) : ¬d.OnCycle j := by
  induction reaches with
  | refl => exact free
  | tail _ child ih =>
      intro cycle
      obtain ⟨p, above, again⟩ := Relation.TransGen.tail'_iff.1 cycle
      rw [parent_unique again child] at above
      exact ih (.head' child above)

theorem disjoint_descendantsTo {d : Dom} {depth : Nat} {p i j : NodeId} (free : ¬d.OnCycle p)
    (first : i ∈ d.children p) (second : j ∈ d.children p) (other : i ≠ j) :
    (d.descendantsTo depth i).Disjoint (d.descendantsTo depth j) := by
  have apart {i j : NodeId} (first : i ∈ d.children p) (second : j ∈ d.children p) (other : i ≠ j) :
      ¬d.Reaches i j := by
    intro reaches
    rcases Relation.ReflTransGen.cases_tail reaches with same | ⟨q, above, child⟩
    · exact other same.symm
    · rw [parent_unique child second] at above
      exact free (.head' first above)
  intro k below below'
  rcases reaches_total (reaches_of_mem_descendantsTo below) (reaches_of_mem_descendantsTo below')
    with reaches | reaches
  · exact apart first second other reaches
  · exact apart second first (Ne.symm other) reaches

theorem nodup_descendantsTo {d : Dom} (depth : Nat) {i : NodeId} (free : ¬d.OnCycle i) :
    (d.descendantsTo depth i).Nodup := by
  induction depth generalizing i with
  | zero => exact List.nodup_nil
  | succ depth ih =>
      refine List.nodup_cons.2 ⟨?_, List.nodup_flatMap.2 ⟨?_, ?_⟩⟩
      · intro member
        obtain ⟨c, child, below⟩ := List.mem_flatMap.1 member
        exact free (.head' child (reaches_of_mem_descendantsTo below))
      · intro c child
        exact ih (not_onCycle_of_reaches free (.single child))
      · refine (nodup_children d i).pairwise_of_forall_ne ?_
        intro c child c' child' other
        exact disjoint_descendantsTo free child child' other

theorem nodup_descendants {d : Dom} {i : NodeId} (free : ¬d.OnCycle i) : (d.descendants i).Nodup :=
  nodup_descendantsTo d.size free

theorem not_onCycle_of_isRoot {d : Dom} {i : NodeId} {c : Content} (shown : d.content? i = some c)
    (kind : c.isRoot = true) : ¬d.OnCycle i := by
  intro cycle
  obtain ⟨p, _, child⟩ := Relation.TransGen.tail'_iff.1 cycle
  have parent : d.parent? i = some p := parent?_of_mem_children child
  obtain ⟨n, present, rfl⟩ := Option.map_eq_some_iff.1 shown
  rw [parent?, Node.parentIn_of_some present, d.inStep.roots i n present kind] at parent
  cases parent

theorem content?_of_extends {d d' : Dom} (grown : d.Extends d') {i : NodeId}
    (shown : d.content? i = some .document) : d'.content? i = some .document := by
  induction grown with
  | refl => exact shown
  | add _ c ih => rw [content?_add_of_lt _ c (lt_size_of_content? ih), ih]
  | insert _ p mark j ih => rw [content?_insert, ih]
  | detach _ j ih => rw [content?_detach, ih]
  | extendText _ j more ih =>
      rw [content?_extendText, ih]
      split <;> rfl
  | addMissing _ j attributes ih =>
      rw [content?_mapAttributes, ih]
      split <;> rfl

end Dom

namespace Document

/-- A document whose root does not stand below itself. -/
def Rooted (d : Document) : Prop := ¬d.dom.OnCycle d.root

theorem rooted_of_isRoot {d : Document} {c : Content} (shown : d.dom.content? d.root = some c)
    (kind : c.isRoot = true) : d.Rooted :=
  Dom.not_onCycle_of_isRoot shown kind

theorem content?_root_parseInto (d : Dom) (s : Text) :
    (parseInto d s).dom.content? (parseInto d s).root = some .document := by
  obtain ⟨grown, same⟩ := from_parseInto d s
  have root : (parseInto d s).root = d.size := same
  rw [root]
  exact Dom.content?_of_extends grown (Dom.content?_add_self d .document)

theorem rooted_parseInto (d : Dom) (s : Text) : (parseInto d s).Rooted :=
  rooted_of_isRoot (content?_root_parseInto d s) rfl

/-- An element of the document that has a class. -/
def HasClass (d : Document) (name : Text) (i : NodeId) : Prop :=
  d.dom.Reaches d.root i ∧ ∃ e, d.dom.element? i = some e ∧ e.hasClass name = true

theorem mem_withClass {d : Document} {name : Text} {i : NodeId} :
    i ∈ d.withClass name ↔ d.HasClass name i := by
  rw [withClass, List.mem_filter]
  constructor
  · rintro ⟨member, classed⟩
    cases shown : d.dom.element? i with
    | none =>
        rw [shown] at classed
        cases classed
    | some e =>
        rw [shown] at classed
        exact ⟨Dom.reaches_of_mem_descendantsTo member, e, shown, classed⟩
  · rintro ⟨reaches, e, shown, holds⟩
    have present := Dom.lt_size_of_content? (Dom.content?_of_element? shown)
    refine ⟨(Dom.mem_descendants_iff present).2 reaches, ?_⟩
    rw [shown]
    exact holds

theorem nodup_withClass {d : Document} (rooted : d.Rooted) (name : Text) :
    (d.withClass name).Nodup :=
  (Dom.nodup_descendants rooted).filter _

end Document
end LivePage.Html
