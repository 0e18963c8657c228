import LivePage.Html.Token

/-!
The nodes of documents, kept in an array and named by their places in it. Each node knows its parent
and its children. The two are in step if a child's parent is the node that lists it, no node is
listed twice, and documents and fragments have no parent; taking a node out and putting one in keeps
them so.
-/

namespace LivePage.Html

abbrev NodeId := Nat

inductive Namespace where
  | html
  | svg
  | mathml
  deriving DecidableEq, Inhabited

structure Element where
  space : Namespace := .html
  name : Text
  attributes : Attributes := []
  inside : Option NodeId := none
  deriving DecidableEq, Inhabited

inductive Content where
  | document
  | fragment
  | doctype (name : Text)
  | element (e : Element)
  | text (s : Text)
  | comment (s : Text)
  deriving DecidableEq, Inhabited

def Content.isRoot : Content → Bool
  | document | fragment => true
  | _ => false

structure Node where
  content : Content
  parent : Option NodeId := none
  children : List NodeId := []
  deriving DecidableEq, Inhabited

namespace Node

def childrenIn (nodes : Array Node) (i : NodeId) : List NodeId :=
  match nodes[i]? with
  | some n => n.children
  | none => []

def parentIn (nodes : Array Node) (i : NodeId) : Option NodeId :=
  nodes[i]?.bind (·.parent)

def unlink (nodes : Array Node) (i : NodeId) : Array Node :=
  match parentIn nodes i with
  | none => nodes
  | some p =>
      (nodes.modify p fun n => { n with children := n.children.erase i }).modify i fun n =>
        { n with parent := none }

/-- Puts `i` before `m`, or behind the others if `m` is not among them. -/
def placeBefore (m i : NodeId) : List NodeId → List NodeId
  | [] => [i]
  | c :: children => if c = m then i :: c :: children else c :: placeBefore m i children

/-- Puts `i` before the node that is marked, if one is. -/
def place (mark : Option NodeId) (i : NodeId) (children : List NodeId) : List NodeId :=
  match mark with
  | none => children ++ [i]
  | some m => placeBefore m i children

/-- Makes a node that has no parent a child of `p`. -/
def link (nodes : Array Node) (p : NodeId) (mark : Option NodeId) (i : NodeId) : Array Node :=
  (nodes.modify p fun n => { n with children := place mark i n.children }).modify i fun n =>
    { n with parent := some p }

/-- Parents and children are in step. -/
structure InStep (nodes : Array Node) : Prop where
  linked : ∀ p i, i ∈ childrenIn nodes p → parentIn nodes i = some p
  distinct : ∀ p, (childrenIn nodes p).Nodup
  roots : ∀ (i : NodeId) (n : Node), nodes[i]? = some n → n.content.isRoot = true → n.parent = none

theorem mem_place (mark : Option NodeId) (i j : NodeId) (children : List NodeId) :
    j ∈ place mark i children ↔ j = i ∨ j ∈ children := by
  cases mark with
  | none => simp [place, or_comm]
  | some m =>
      simp only [place]
      induction children with
      | nil => simp [placeBefore]
      | cons c children ih =>
          by_cases h : c = m
          · simp [placeBefore, h]
          · simp only [placeBefore, h, if_false, List.mem_cons, ih]
            exact or_left_comm

theorem nodup_place (mark : Option NodeId) (i : NodeId) {children : List NodeId}
    (nodup : children.Nodup) (fresh : i ∉ children) : (place mark i children).Nodup := by
  cases mark with
  | none =>
      simp only [place]
      refine (List.perm_append_singleton i children).nodup_iff.2 ?_
      exact List.nodup_cons.2 ⟨fresh, nodup⟩
  | some m =>
      simp only [place]
      induction children with
      | nil => simp [placeBefore]
      | cons c children ih =>
          rw [List.nodup_cons] at nodup
          rw [List.mem_cons, not_or] at fresh
          by_cases h : c = m
          · simp only [placeBefore, h, if_true, List.nodup_cons, List.mem_cons, not_or]
            exact ⟨⟨h ▸ fresh.1, fresh.2⟩, h ▸ nodup⟩
          · simp only [placeBefore, h, if_false, List.nodup_cons]
            refine ⟨?_, ih nodup.2 fresh.2⟩
            have := mem_place (some m) i c children
            simp only [place] at this
            rw [this, not_or]
            exact ⟨Ne.symm fresh.1, nodup.1⟩

theorem childrenIn_modify (nodes : Array Node) (j : NodeId) (f : Node → Node) (i : NodeId) :
    childrenIn (nodes.modify j f) i =
      if j = i then (match nodes[i]? with | some n => (f n).children | none => [])
      else childrenIn nodes i := by
  unfold childrenIn
  rw [Array.getElem?_modify]
  by_cases h : j = i
  · subst h
    cases nodes[j]? <;> simp
  · simp [h]

theorem parentIn_modify (nodes : Array Node) (j : NodeId) (f : Node → Node) (i : NodeId) :
    parentIn (nodes.modify j f) i =
      if j = i then nodes[i]?.bind (fun n => (f n).parent) else parentIn nodes i := by
  unfold parentIn
  rw [Array.getElem?_modify]
  by_cases h : j = i
  · subst h
    cases nodes[j]? <;> simp
  · simp [h]

theorem parentIn_of_some {nodes : Array Node} {i : NodeId} {n : Node} (h : nodes[i]? = some n) :
    parentIn nodes i = n.parent := by simp [parentIn, h]

theorem InStep.empty : InStep #[] := by
  constructor <;> intros <;> simp_all [childrenIn]

theorem InStep.push {nodes : Array Node} (h : InStep nodes) (c : Content) :
    InStep (nodes.push { content := c }) := by
  have children (p : NodeId) :
      childrenIn (nodes.push { content := c }) p = childrenIn nodes p := by
    unfold childrenIn
    rw [Array.getElem?_push]
    by_cases e : p = nodes.size
    · simp [e]
    · simp [e]
  refine ⟨fun p i hi => ?_, fun p => ?_, fun i n hn root => ?_⟩
  · rw [children] at hi
    have hp := h.linked p i hi
    unfold parentIn at hp ⊢
    rw [Array.getElem?_push]
    split
    · next e => simp [e] at hp
    · exact hp
  · rw [children]
    exact h.distinct p
  · rw [Array.getElem?_push] at hn
    split at hn
    · cases hn
      rfl
    · exact h.roots i n hn root

/-- Changes that keep parents, children and the kind of a node keep parents and children in step. -/
theorem InStep.modify {nodes : Array Node} (h : InStep nodes) (j : NodeId) (f : Node → Node)
    (parent : ∀ n, (f n).parent = n.parent) (children : ∀ n, (f n).children = n.children)
    (kind : ∀ n, (f n).content.isRoot = n.content.isRoot) : InStep (nodes.modify j f) := by
  have sameChildren (p : NodeId) : childrenIn (nodes.modify j f) p = childrenIn nodes p := by
    rw [childrenIn_modify]
    split
    · next e => subst e; unfold childrenIn; cases nodes[j]? <;> simp [children]
    · rfl
  have sameParent (p : NodeId) : parentIn (nodes.modify j f) p = parentIn nodes p := by
    rw [parentIn_modify]
    split
    · next e => subst e; unfold parentIn; cases nodes[j]? <;> simp [parent]
    · rfl
  refine ⟨fun p i hi => ?_, fun p => ?_, fun i n hn root => ?_⟩
  · rw [sameChildren] at hi
    rw [sameParent]
    exact h.linked p i hi
  · rw [sameChildren]
    exact h.distinct p
  · rw [Array.getElem?_modify] at hn
    by_cases e : j = i
    · subst e
      cases hj : nodes[j]? with
      | none => simp [hj] at hn
      | some m =>
          simp only [hj, if_true, Option.map_some, Option.some.injEq] at hn
          subst hn
          rw [parent]
          exact h.roots j m hj (by rw [← kind]; exact root)
    · simp only [e, if_false] at hn
      exact h.roots i n hn root

theorem childrenIn_unlink {nodes : Array Node} (h : InStep nodes) (i p : NodeId) :
    childrenIn (unlink nodes i) p = (childrenIn nodes p).erase i := by
  have away (hp : parentIn nodes i ≠ some p) : (childrenIn nodes p).erase i = childrenIn nodes p :=
    List.erase_of_not_mem fun m => hp (h.linked p i m)
  unfold unlink
  cases hi : parentIn nodes i with
  | none => rw [away (by simp [hi])]
  | some q =>
      have outer :
          childrenIn ((nodes.modify q fun n => { n with children := n.children.erase i }).modify i
            fun n => { n with parent := none }) p =
          childrenIn (nodes.modify q fun n => { n with children := n.children.erase i }) p := by
        rw [childrenIn_modify]
        split
        · next e =>
            subst e
            unfold childrenIn
            cases (nodes.modify q fun n => { n with children := n.children.erase i })[i]? <;> rfl
        · rfl
      show childrenIn ((nodes.modify q fun n => { n with children := n.children.erase i }).modify i
          fun n => { n with parent := none }) p = _
      rw [outer, childrenIn_modify]
      split
      · next e =>
          subst e
          unfold childrenIn
          cases nodes[q]? <;> simp
      · next e =>
          rw [away]
          rw [hi]
          simpa using e

theorem parentIn_unlink (nodes : Array Node) (i j : NodeId) :
    parentIn (unlink nodes i) j = if i = j then none else parentIn nodes j := by
  unfold unlink
  cases hi : parentIn nodes i with
  | none =>
      by_cases e : i = j
      · subst e
        simp [hi]
      · simp [e]
  | some q =>
      show parentIn ((nodes.modify q fun n => { n with children := n.children.erase i }).modify i
          fun n => { n with parent := none }) j = _
      rw [parentIn_modify]
      by_cases e : i = j
      · subst e
        cases (nodes.modify q fun n => { n with children := n.children.erase i })[i]? <;> simp
      · simp only [e, if_false]
        rw [parentIn_modify]
        split
        · next hq =>
            subst hq
            unfold parentIn
            cases nodes[q]? <;> simp
        · rfl

theorem content_modify {nodes : Array Node} {j i : NodeId} {f : Node → Node} {n : Node}
    (same : ∀ m, (f m).content = m.content) (hn : (nodes.modify j f)[i]? = some n) :
    ∃ m, nodes[i]? = some m ∧ m.content = n.content := by
  rw [Array.getElem?_modify] at hn
  by_cases e : j = i
  · subst e
    cases hj : nodes[j]? with
    | none => simp [hj] at hn
    | some m =>
        simp only [hj, if_true, Option.map_some, Option.some.injEq] at hn
        exact ⟨m, rfl, by rw [← hn, same]⟩
  · simp only [e, if_false] at hn
    exact ⟨n, hn, rfl⟩

theorem content_unlink {nodes : Array Node} {j i : NodeId} {n : Node}
    (hn : (unlink nodes j)[i]? = some n) : ∃ m, nodes[i]? = some m ∧ m.content = n.content := by
  unfold unlink at hn
  cases hj : parentIn nodes j with
  | none =>
      rw [hj] at hn
      exact ⟨n, hn, rfl⟩
  | some q =>
      rw [hj] at hn
      obtain ⟨m, hm, e⟩ := content_modify (by intro; rfl) hn
      obtain ⟨m', hm', e'⟩ := content_modify (by intro; rfl) hm
      exact ⟨m', hm', e'.trans e⟩

theorem InStep.unlink {nodes : Array Node} (h : InStep nodes) (i : NodeId) :
    InStep (unlink nodes i) := by
  refine ⟨fun p j hj => ?_, fun p => ?_, fun j n hn root => ?_⟩
  · rw [childrenIn_unlink h] at hj
    rw [parentIn_unlink]
    have hm := (h.distinct p).mem_erase_iff.1 hj
    rw [if_neg (Ne.symm hm.1)]
    exact h.linked p j hm.2
  · rw [childrenIn_unlink h]
    exact (h.distinct p).erase i
  · have hp := parentIn_unlink nodes i j
    rw [parentIn_of_some hn] at hp
    rw [hp]
    split
    · rfl
    · obtain ⟨m, hm, e⟩ := content_unlink hn
      rw [parentIn_of_some hm]
      exact h.roots j m hm (by rw [e]; exact root)

theorem childrenIn_link (nodes : Array Node) (p : NodeId) (mark : Option NodeId) (i q : NodeId) :
    childrenIn (link nodes p mark i) q =
      if p = q ∧ q < nodes.size then place mark i (childrenIn nodes q) else childrenIn nodes q := by
  have outer : childrenIn (link nodes p mark i) q =
      childrenIn (nodes.modify p fun n => { n with children := place mark i n.children }) q := by
    unfold link
    rw [childrenIn_modify]
    split
    · next e =>
        subst e
        unfold childrenIn
        cases (nodes.modify p fun n => { n with children := place mark i n.children })[i]? <;> rfl
    · rfl
  rw [outer, childrenIn_modify]
  by_cases e : p = q
  · subst e
    by_cases hs : p < nodes.size
    · simp [hs, childrenIn]
    · simp [hs, childrenIn]
  · simp [e]

theorem parentIn_link {nodes : Array Node} (p : NodeId) (mark : Option NodeId) {i : NodeId}
    (present : i < nodes.size) (j : NodeId) :
    parentIn (link nodes p mark i) j = if i = j then some p else parentIn nodes j := by
  unfold link
  rw [parentIn_modify]
  by_cases e : i = j
  · subst e
    simp [present]
  · simp only [e, if_false]
    rw [parentIn_modify]
    split
    · next hq =>
        subst hq
        unfold parentIn
        cases nodes[p]? <;> simp
    · rfl

theorem InStep.link {nodes : Array Node} (h : InStep nodes) (p : NodeId) (mark : Option NodeId)
    (i : NodeId) (present : i < nodes.size) (loose : parentIn nodes i = none)
    (kind : ∀ n, nodes[i]? = some n → n.content.isRoot = false) : InStep (link nodes p mark i) := by
  have fresh (q : NodeId) : i ∉ childrenIn nodes q := fun m => by
    have := h.linked q i m
    rw [loose] at this
    cases this
  have ne_of_mem (q j : NodeId) (hj : j ∈ childrenIn nodes q) : i ≠ j := by
    rintro rfl
    exact fresh q hj
  have children := childrenIn_link nodes p mark i
  have parent := parentIn_link p mark present
  refine ⟨fun q j hj => ?_, fun q => ?_, fun j n hn root => ?_⟩
  · rw [children] at hj
    rw [parent]
    split at hj
    · next e =>
        rcases (mem_place mark i j _).1 hj with rfl | hj
        · simp [e.1]
        · rw [if_neg (ne_of_mem q j hj)]
          exact h.linked q j hj
    · rw [if_neg (ne_of_mem q j hj)]
      exact h.linked q j hj
  · rw [children]
    split
    · exact nodup_place mark i (h.distinct q) (fresh q)
    · exact h.distinct q
  · have hp := parent j
    rw [parentIn_of_some hn] at hp
    unfold Node.link at hn
    obtain ⟨m, hm, e⟩ := content_modify (by intro; rfl) hn
    obtain ⟨m', hm', e'⟩ := content_modify (by intro; rfl) hm
    have root' : m'.content.isRoot = true := by rw [e', e]; exact root
    by_cases same : i = j
    · subst same
      have := kind m' hm'
      rw [root'] at this
      cases this
    · rw [hp, if_neg same, parentIn_of_some hm']
      exact h.roots j m' hm' root'

end Node

end LivePage.Html
