import Mathlib.Data.Fintype.Card
import Mathlib.Logic.Relation
import LivePage.Proofs.Html.Store

/-!
The way up from a node. What is nearest at or above a node is found on that way after fewer steps
than the store has nodes, so a search that ends there misses nothing.

Parents may lead in a circle, and out of the store: neither is excluded here.
-/

namespace LivePage.Html.Dom

def Encloses (d : Dom) (j i : NodeId) : Prop :=
  Relation.ReflTransGen (fun i p => d.parent? i = some p) i j

/-- The nearest element at or above a node that has an attribute, and what it has there. -/
inductive Nearest (d : Dom) (name : Text) (e : NodeId) (value : Text) : NodeId → Prop where
  | here : d.attribute? e name = some value → Nearest d name e value e
  | above {i p : NodeId} : d.attribute? i name = none → d.parent? i = some p →
      Nearest d name e value p → Nearest d name e value i

variable {d : Dom} {name : Text} {e i j : NodeId} {value : Text}

theorem Nearest.carries (nearest : d.Nearest name e value i) : d.attribute? e name = some value := by
  induction nearest with
  | here carried => exact carried
  | above _ _ _ ih => exact ih

theorem Nearest.encloses (nearest : d.Nearest name e value i) : d.Encloses e i := by
  induction nearest with
  | here _ => exact .refl
  | above _ parent _ ih => exact .head parent ih

theorem Nearest.unique {e' : NodeId} {value' : Text} (nearest : d.Nearest name e value i)
    (other : d.Nearest name e' value' i) : e = e' ∧ value = value' := by
  induction nearest with
  | here carried =>
      cases other with
      | here carried' => exact ⟨rfl, Option.some.inj (carried.symm.trans carried')⟩
      | above silent _ _ => cases carried.symm.trans silent
  | above silent parent _ ih =>
      cases other with
      | here carried => cases carried.symm.trans silent
      | above _ parent' above' =>
          cases parent.symm.trans parent'
          exact ih above'

/-- Whatever carries the attribute above a node, something is the nearest to do so. -/
theorem Encloses.exists_nearest (encloses : d.Encloses j i)
    (carried : d.attribute? j name = some value) :
    ∃ e value, d.Nearest name e value i := by
  induction encloses using Relation.ReflTransGen.head_induction_on with
  | refl => exact ⟨j, value, .here carried⟩
  | @head i p parent _ ih =>
      cases shown : d.attribute? i name with
      | some w => exact ⟨i, w, .here shown⟩
      | none =>
          obtain ⟨e, w, nearest⟩ := ih
          exact ⟨e, w, .above shown parent nearest⟩

theorem lt_size_of_attribute? (carried : d.attribute? i name = some value) : i < d.size := by
  obtain ⟨element, shown, _⟩ := Option.bind_eq_some_iff.1 carried
  exact lt_size_of_content? (content?_of_element? shown)

theorem lt_size_of_parent? {p : NodeId} (parent : d.parent? i = some p) : i < d.size := by
  obtain ⟨node, present, _⟩ := Option.bind_eq_some_iff.1 parent
  exact (Array.getElem?_eq_some_iff.1 present).1

/-- The first element with an attribute on the way up, no more than so many nodes far. -/
def nearestTo? (d : Dom) (name : Text) (height : Nat) (i : NodeId) : Option (NodeId × Text) :=
  (d.ancestorsTo height i).findSome? fun j => (d.attribute? j name).map fun v => (j, v)

variable {height : Nat} {found : NodeId × Text}

theorem nearestTo?_succ_of_some (carried : d.attribute? i name = some value) (height : Nat) :
    d.nearestTo? name (height + 1) i = some (i, value) := by
  rw [nearestTo?, ancestorsTo, List.findSome?_cons, carried]
  rfl

theorem nearestTo?_succ_of_none (silent : d.attribute? i name = none) (height : Nat) :
    d.nearestTo? name (height + 1) i = (d.parent? i).bind (d.nearestTo? name height) := by
  rw [nearestTo?, ancestorsTo, List.findSome?_cons, silent]
  cases d.parent? i with
  | none => rfl
  | some p => rfl

theorem nearest_of_nearestTo? (searched : d.nearestTo? name height i = some (e, value)) :
    d.Nearest name e value i := by
  induction height generalizing i with
  | zero => cases searched
  | succ height ih =>
      cases shown : d.attribute? i name with
      | some w =>
          rw [nearestTo?_succ_of_some shown] at searched
          cases searched
          exact .here shown
      | none =>
          rw [nearestTo?_succ_of_none shown] at searched
          obtain ⟨p, parent, searched⟩ := Option.bind_eq_some_iff.1 searched
          exact .above shown parent (ih searched)

theorem nearestTo?_mono {height' : Nat} (le : height ≤ height')
    (searched : d.nearestTo? name height i = some found) :
    d.nearestTo? name height' i = some found := by
  induction height generalizing i height' with
  | zero => cases searched
  | succ height ih =>
      obtain ⟨more, rfl⟩ := Nat.exists_eq_add_of_lt le
      cases shown : d.attribute? i name with
      | some w => rwa [nearestTo?_succ_of_some shown] at searched ⊢
      | none =>
          rw [nearestTo?_succ_of_none shown] at searched ⊢
          obtain ⟨p, parent, searched⟩ := Option.bind_eq_some_iff.1 searched
          exact Option.bind_eq_some_iff.2 ⟨p, parent, ih (Nat.le_add_right ..) searched⟩

/-- What is nearest to a node is found after so many steps, and not before. -/
def FoundAt (d : Dom) (name : Text) (height : Nat) (i : NodeId) : Prop :=
  d.nearestTo? name height i = none ∧ ∃ found, d.nearestTo? name (height + 1) i = some found

theorem FoundAt.not_lt {height' : Nat} (first : d.FoundAt name height i)
    (second : d.FoundAt name height' i) : ¬height < height' := by
  intro lt
  obtain ⟨_, found, searched⟩ := first
  cases second.1.symm.trans (nearestTo?_mono lt searched)

theorem FoundAt.lt_size (first : d.FoundAt name height i) : i < d.size := by
  obtain ⟨_, found, searched⟩ := first
  cases shown : d.attribute? i name with
  | some w => exact lt_size_of_attribute? shown
  | none =>
      rw [nearestTo?_succ_of_none shown] at searched
      obtain ⟨p, parent, _⟩ := Option.bind_eq_some_iff.1 searched
      exact lt_size_of_parent? parent

theorem FoundAt.exists_parent (first : d.FoundAt name (height + 1) i) :
    ∃ p, d.FoundAt name height p := by
  obtain ⟨missed, found, searched⟩ := first
  cases shown : d.attribute? i name with
  | some w => cases (nearestTo?_succ_of_some shown height).symm.trans missed
  | none =>
      rw [nearestTo?_succ_of_none shown] at missed searched
      obtain ⟨p, parent, searched⟩ := Option.bind_eq_some_iff.1 searched
      rw [parent] at missed
      exact ⟨p, missed, found, searched⟩

theorem FoundAt.exists_lower (first : d.FoundAt name height i) {lower : Nat} (le : lower ≤ height) :
    ∃ j, d.FoundAt name lower j := by
  induction le using Nat.decreasingInduction generalizing i with
  | self => exact ⟨i, first⟩
  | of_succ lower _ ih =>
      obtain ⟨j, above⟩ := ih first
      exact above.exists_parent

theorem FoundAt.height_lt_size (first : d.FoundAt name height i) : height < d.size := by
  have each (lower : Fin (height + 1)) : ∃ j, d.FoundAt name lower j :=
    first.exists_lower (Nat.le_of_lt_succ lower.isLt)
  choose node stands using each
  have distinct : Function.Injective
      fun lower : Fin (height + 1) => (⟨node lower, (stands lower).lt_size⟩ : Fin d.size) := by
    intro a b same
    have shared : node a = node b := congrArg Fin.val same
    have second := stands b
    rw [← shared] at second
    exact Fin.ext (Nat.le_antisymm (Nat.le_of_not_lt (second.not_lt (stands a)))
      (Nat.le_of_not_lt ((stands a).not_lt second)))
  have counted := Fintype.card_le_of_injective _ distinct
  rwa [Fintype.card_fin, Fintype.card_fin] at counted

theorem nearestTo?_size_succ (d : Dom) (name : Text) (i : NodeId) :
    d.nearestTo? name (d.size + 1) i = d.nearestTo? name d.size i := by
  cases near : d.nearestTo? name d.size i with
  | some found => exact nearestTo?_mono (Nat.le_succ _) near
  | none =>
      cases far : d.nearestTo? name (d.size + 1) i with
      | none => rfl
      | some found => exact absurd (FoundAt.height_lt_size ⟨near, found, far⟩) (Nat.lt_irrefl _)

theorem nearestTo?_size_iff :
    d.nearestTo? name d.size i = some (e, value) ↔ d.Nearest name e value i := by
  refine ⟨nearest_of_nearestTo?, fun nearest => ?_⟩
  induction nearest with
  | here carried => rw [← nearestTo?_size_succ, nearestTo?_succ_of_some carried]
  | above silent parent _ ih =>
      rw [← nearestTo?_size_succ, nearestTo?_succ_of_none silent, parent]
      exact ih

theorem nearestTo?_size_eq_none_iff :
    d.nearestTo? name d.size i = none ↔ ∀ j, d.Encloses j i → d.attribute? j name = none := by
  constructor
  · intro missed j encloses
    cases shown : d.attribute? j name with
    | none => rfl
    | some w =>
        obtain ⟨e, value, nearest⟩ := encloses.exists_nearest shown
        cases missed.symm.trans (nearestTo?_size_iff.2 nearest)
  · intro silent
    cases searched : d.nearestTo? name d.size i with
    | none => rfl
    | some found =>
        have nearest := nearest_of_nearestTo? searched
        cases (silent _ nearest.encloses).symm.trans nearest.carries

end LivePage.Html.Dom
