import LivePage.Html.Dom

/-!
What each operation on a store does to the content and the children of every node. Operations on the
tree keep all content, operations on content keep the tree, and a new node leaves the others alone.
-/

namespace LivePage.Html

namespace Node

def contentIn (nodes : Array Node) (i : NodeId) : Option Content := nodes[i]?.map (·.content)

theorem contentIn_modify (nodes : Array Node) (j : NodeId) {f : Node → Node}
    {g : Content → Content} (maps : ∀ n, (f n).content = g n.content) (i : NodeId) :
    contentIn (nodes.modify j f) i =
      if j = i then (contentIn nodes i).map g else contentIn nodes i := by
  unfold contentIn
  rw [Array.getElem?_modify]
  by_cases same : j = i
  · subst same
    cases nodes[j]? <;> simp [maps]
  · simp [same]

theorem contentIn_modify_of_same (nodes : Array Node) (j : NodeId) {f : Node → Node}
    (same : ∀ n, (f n).content = n.content) (i : NodeId) :
    contentIn (nodes.modify j f) i = contentIn nodes i := by
  rw [contentIn_modify nodes j (g := id) same]
  simp

theorem contentIn_unlink (nodes : Array Node) (i j : NodeId) :
    contentIn (unlink nodes i) j = contentIn nodes j := by
  unfold unlink
  split
  · rfl
  · refine (contentIn_modify_of_same _ _ ?_ j).trans (contentIn_modify_of_same _ _ ?_ j)
    · intro n
      rfl
    · intro n
      rfl

theorem contentIn_link (nodes : Array Node) (p : NodeId) (mark : Option NodeId) (i j : NodeId) :
    contentIn (link nodes p mark i) j = contentIn nodes j := by
  unfold link
  refine (contentIn_modify_of_same _ _ ?_ j).trans (contentIn_modify_of_same _ _ ?_ j)
  · intro n
    rfl
  · intro n
    rfl

theorem size_unlink (nodes : Array Node) (i : NodeId) : (unlink nodes i).size = nodes.size := by
  unfold unlink
  split <;> simp

theorem size_link (nodes : Array Node) (p : NodeId) (mark : Option NodeId) (i : NodeId) :
    (link nodes p mark i).size = nodes.size := by
  simp [link]

end Node

namespace Dom

theorem lt_size_of_content? {d : Dom} {i : NodeId} {c : Content} (shown : d.content? i = some c) :
    i < d.size := by
  obtain ⟨n, present, _⟩ := Option.map_eq_some_iff.1 shown
  exact (Array.getElem?_eq_some_iff.1 present).1

theorem content?_of_element? {d : Dom} {i : NodeId} {e : Element} (shown : d.element? i = some e) :
    d.content? i = some (.element e) := by
  unfold element? at shown
  split at shown
  · next found =>
      cases shown
      exact found
  · cases shown

theorem element?_of_content? {d : Dom} {i : NodeId} {e : Element}
    (shown : d.content? i = some (.element e)) : d.element? i = some e := by
  rw [element?, shown]

theorem element?_congr {d d' : Dom} {i : NodeId} (same : d'.content? i = d.content? i) :
    d'.element? i = d.element? i := by
  rw [element?, element?, same]

theorem children_of_size_le {d : Dom} {p : NodeId} (absent : d.size ≤ p) : d.children p = [] := by
  have none : d.nodes[p]? = none := Array.getElem?_eq_none absent
  rw [children, Node.childrenIn, none]

theorem lt_size_of_mem_children {d : Dom} {p i : NodeId} (member : i ∈ d.children p) :
    p < d.size := by
  rcases Nat.lt_or_ge p d.size with present | absent
  · exact present
  · rw [children_of_size_le absent] at member
    cases member

theorem parent?_of_mem_children {d : Dom} {p i : NodeId} (member : i ∈ d.children p) :
    d.parent? i = some p :=
  d.inStep.linked p i member

theorem child_lt_size {d : Dom} {p i : NodeId} (member : i ∈ d.children p) : i < d.size := by
  have parent := parent?_of_mem_children member
  obtain ⟨n, present, _⟩ := Option.bind_eq_some_iff.1 parent
  exact (Array.getElem?_eq_some_iff.1 present).1

theorem not_mem_children_of_size_le {d : Dom} {i : NodeId} (absent : d.size ≤ i) (p : NodeId) :
    i ∉ d.children p :=
  fun member => Nat.not_lt.2 absent (child_lt_size member)

theorem parent_unique {d : Dom} {p q i : NodeId} (first : i ∈ d.children p)
    (second : i ∈ d.children q) : p = q := by
  have parent := parent?_of_mem_children first
  rw [parent?_of_mem_children second] at parent
  exact (Option.some.inj parent).symm

theorem nodup_children (d : Dom) (p : NodeId) : (d.children p).Nodup := d.inStep.distinct p

theorem size_add (d : Dom) (c : Content) : (d.add c).1.size = d.size + 1 := Array.size_push _

theorem content?_add (d : Dom) (c : Content) (i : NodeId) :
    (d.add c).1.content? i = if i = d.size then some c else d.content? i := by
  simp only [add, content?, Array.getElem?_push]
  change Option.map _ (if i = d.size then _ else _) = _
  split <;> rfl

theorem content?_add_self (d : Dom) (c : Content) : (d.add c).1.content? (d.add c).2 = some c := by
  rw [content?_add]
  exact if_pos rfl

theorem content?_add_of_lt (d : Dom) (c : Content) {i : NodeId} (old : i < d.size) :
    (d.add c).1.content? i = d.content? i := by
  rw [content?_add, if_neg (Nat.ne_of_lt old)]

theorem children_add (d : Dom) (c : Content) (i : NodeId) :
    (d.add c).1.children i = d.children i := by
  simp only [add, children, Node.childrenIn, Array.getElem?_push]
  by_cases new : i = d.nodes.size
  · simp [new]
  · simp [new]

theorem size_mapAttributes (d : Dom) (i : NodeId) (f : Attributes → Attributes) :
    (d.mapAttributes i f).size = d.size := Array.size_modify

theorem content?_mapAttributes (d : Dom) (i : NodeId) (f : Attributes → Attributes) (j : NodeId) :
    (d.mapAttributes i f).content? j =
      if i = j then (d.content? j).map (mapAttributesOf f) else d.content? j :=
  Node.contentIn_modify d.nodes i (fun _ => rfl) j

theorem content?_mapAttributes_of_ne (d : Dom) {i j : NodeId} (f : Attributes → Attributes)
    (other : i ≠ j) : (d.mapAttributes i f).content? j = d.content? j := by
  rw [content?_mapAttributes, if_neg other]

theorem content?_mapAttributes_self {d : Dom} {i : NodeId} {e : Element}
    (shown : d.element? i = some e) (f : Attributes → Attributes) :
    (d.mapAttributes i f).content? i =
      some (.element { e with attributes := f e.attributes }) := by
  rw [content?_mapAttributes, if_pos rfl, content?_of_element? shown]
  rfl

theorem element?_mapAttributes_self (d : Dom) (i : NodeId) (f : Attributes → Attributes) :
    (d.mapAttributes i f).element? i =
      (d.element? i).map fun e => { e with attributes := f e.attributes } := by
  unfold element?
  rw [content?_mapAttributes, if_pos rfl]
  cases d.content? i with
  | none => rfl
  | some c => cases c <;> rfl

theorem children_mapAttributes (d : Dom) (i : NodeId) (f : Attributes → Attributes) (j : NodeId) :
    (d.mapAttributes i f).children j = d.children j := by
  have modified := Node.childrenIn_modify d.nodes i
    (fun n => { n with content := mapAttributesOf f n.content }) j
  refine modified.trans ?_
  split
  · rfl
  · rfl

theorem content?_extendText (d : Dom) (i : NodeId) (more : Text) (j : NodeId) :
    (d.extendText i more).content? j =
      if i = j then (d.content? j).map (extendTextOf more) else d.content? j :=
  Node.contentIn_modify d.nodes i (fun _ => rfl) j

theorem size_extendText (d : Dom) (i : NodeId) (more : Text) : (d.extendText i more).size = d.size :=
  Array.size_modify

theorem children_extendText (d : Dom) (i : NodeId) (more : Text) (j : NodeId) :
    (d.extendText i more).children j = d.children j := by
  have modified := Node.childrenIn_modify d.nodes i
    (fun n => { n with content := extendTextOf more n.content }) j
  refine modified.trans ?_
  split
  · rfl
  · rfl

theorem size_detach (d : Dom) (i : NodeId) : (d.detach i).size = d.size :=
  Node.size_unlink d.nodes i

theorem content?_detach (d : Dom) (i j : NodeId) : (d.detach i).content? j = d.content? j :=
  Node.contentIn_unlink d.nodes i j

theorem children_detach (d : Dom) (i p : NodeId) :
    (d.detach i).children p = (d.children p).erase i :=
  Node.childrenIn_unlink d.inStep i p

theorem size_insert (d : Dom) (p : NodeId) (mark : Option NodeId) (i : NodeId) :
    (d.insert p mark i).size = d.size := by
  unfold insert
  simp only
  split
  · rfl
  · split
    · exact (Node.size_link _ p mark i).trans (Node.size_unlink d.nodes i)
    · rfl

theorem content?_insert (d : Dom) (p : NodeId) (mark : Option NodeId) (i j : NodeId) :
    (d.insert p mark i).content? j = d.content? j := by
  unfold insert
  simp only
  split
  · rfl
  · split
    · exact (Node.contentIn_link _ p mark i j).trans (Node.contentIn_unlink d.nodes i j)
    · rfl

theorem children_insert {d : Dom} {p i : NodeId} (mark : Option NodeId) {c : Content}
    (shown : d.content? i = some c) (kind : c.isRoot = false) (present : p < d.size) (q : NodeId) :
    (d.insert p mark i).children q =
      if p = q then Node.place mark i ((d.children q).erase i) else (d.children q).erase i := by
  have unlinked : Node.contentIn (Node.unlink d.nodes i) i = some c := by
    rw [Node.contentIn_unlink]
    exact shown
  unfold insert
  simp only
  split
  · next absent =>
      rw [Node.contentIn, absent] at unlinked
      cases unlinked
  · next n found =>
      rw [Node.contentIn, found] at unlinked
      have same : n.content = c := Option.some.inj unlinked
      rw [dif_pos (same ▸ kind)]
      refine (Node.childrenIn_link _ p mark i q).trans ?_
      rw [Node.childrenIn_unlink d.inStep, Node.size_unlink]
      by_cases here : p = q
      · subst here
        rw [if_pos ⟨rfl, present⟩, if_pos rfl]
        rfl
      · rw [if_neg (fun both => here both.1), if_neg here]
        rfl

/-- A node that is no one's child yet comes behind the children there are. -/
theorem children_append_of_loose {d : Dom} {p i : NodeId} {c : Content}
    (shown : d.content? i = some c) (kind : c.isRoot = false) (present : p < d.size)
    (loose : ∀ q, i ∉ d.children q) (q : NodeId) :
    (d.append p i).children q = if p = q then d.children q ++ [i] else d.children q := by
  rw [append, children_insert none shown kind present, List.erase_of_not_mem (loose q)]
  rfl

theorem size_foldl_detach (d : Dom) (nodes : List NodeId) :
    (nodes.foldl detach d).size = d.size := by
  induction nodes generalizing d with
  | nil => rfl
  | cons i nodes ih => rw [List.foldl_cons, ih, size_detach]

theorem content?_foldl_detach (d : Dom) (nodes : List NodeId) (j : NodeId) :
    (nodes.foldl detach d).content? j = d.content? j := by
  induction nodes generalizing d with
  | nil => rfl
  | cons i nodes ih => rw [List.foldl_cons, ih, content?_detach]

theorem mem_children_foldl_detach (d : Dom) (nodes : List NodeId) (p i : NodeId) :
    i ∈ (nodes.foldl detach d).children p ↔ i ∈ d.children p ∧ i ∉ nodes := by
  induction nodes generalizing d with
  | nil => simp
  | cons j nodes ih =>
      rw [List.foldl_cons, ih, children_detach, (nodup_children d p).mem_erase_iff, List.mem_cons]
      simp only [not_or]
      exact ⟨fun h => ⟨h.1.2, h.1.1, h.2⟩, fun h => ⟨⟨h.2.1, h.1⟩, h.2.2⟩⟩

theorem children_foldl_detach_of_disjoint (d : Dom) (nodes : List NodeId) (p : NodeId)
    (apart : ∀ i ∈ nodes, i ∉ d.children p) :
    (nodes.foldl detach d).children p = d.children p := by
  induction nodes generalizing d with
  | nil => rfl
  | cons i nodes ih =>
      have first : (d.detach i).children p = d.children p := by
        rw [children_detach, List.erase_of_not_mem (apart i List.mem_cons_self)]
      rw [List.foldl_cons, ih _ ?_, first]
      intro j member
      rw [first]
      exact apart j (List.mem_cons_of_mem i member)

theorem size_removeChildren (d : Dom) (i : NodeId) : (d.removeChildren i).size = d.size :=
  size_foldl_detach d (d.children i)

theorem content?_removeChildren (d : Dom) (i j : NodeId) :
    (d.removeChildren i).content? j = d.content? j :=
  content?_foldl_detach d (d.children i) j

theorem children_removeChildren_self (d : Dom) (i : NodeId) :
    (d.removeChildren i).children i = [] := by
  refine List.eq_nil_iff_forall_not_mem.2 ?_
  intro j member
  obtain ⟨listed, gone⟩ := (mem_children_foldl_detach d (d.children i) i j).1 member
  exact gone listed

theorem children_removeChildren_of_ne (d : Dom) {i p : NodeId} (other : i ≠ p) :
    (d.removeChildren i).children p = d.children p := by
  refine children_foldl_detach_of_disjoint d (d.children i) p ?_
  intro j member listed
  exact other (parent_unique member listed)

/-- A node that holds what it held, and has the children it had. -/
def SameAt (d d' : Dom) (i : NodeId) : Prop :=
  d'.content? i = d.content? i ∧ d'.children i = d.children i

theorem SameAt.refl (d : Dom) (i : NodeId) : SameAt d d i := ⟨rfl, rfl⟩

theorem SameAt.trans {d d' d'' : Dom} {i : NodeId} (first : SameAt d d' i)
    (second : SameAt d' d'' i) : SameAt d d'' i :=
  ⟨second.1.trans first.1, second.2.trans first.2⟩

theorem sameAt_mapAttributes (d : Dom) {i j : NodeId} (f : Attributes → Attributes) (other : i ≠ j) :
    d.SameAt (d.mapAttributes i f) j :=
  ⟨content?_mapAttributes_of_ne d f other, children_mapAttributes d i f j⟩

theorem sameAt_removeChildren (d : Dom) {i j : NodeId} (other : i ≠ j) :
    d.SameAt (d.removeChildren i) j :=
  ⟨content?_removeChildren d i j, children_removeChildren_of_ne d other⟩

end Dom
end LivePage.Html
