import LivePage.Html.Select
import LivePage.Proofs.Html.Store

/-!
Trees inside a store. Where a tree is put into a store node by node, in the order of the document,
its nodes are numbered in that order, so the tree and the number of its root say all about it: its
nodes, their children, and what is found on the way down.
-/

namespace LivePage.Html

namespace Dom

def ownText (d : Dom) (i : Nat) : Text :=
  match d.content? i with
  | some (.text s) => s
  | _ => []

end Dom

/-- What an element holds, apart from the store that holds it. -/
inductive Tree where
  | text (s : Text)
  | element (name : Text) (attributes : Attributes) (inner : List Tree)

namespace Tree

def element? : Tree → Option Element
  | text _ => none
  | element name attributes _ => some { name, attributes }

def isNamed (name : Text) (t : Tree) : Bool := t.element?.any fun e => e.name = name

def attribute? (name : Text) (t : Tree) : Option Text := t.element?.bind (·.attributes.get? name)

def hasAttribute (name : Text) (t : Tree) : Bool := (t.attribute? name).isSome

def hasClass (name : Text) (t : Tree) : Bool := t.element?.any (·.hasClass name)

mutual

def size : Tree → Nat
  | text _ => 1
  | element _ _ inner => sizeAll inner + 1

def sizeAll : List Tree → Nat
  | [] => 0
  | t :: rest => t.size + sizeAll rest

end

/-- The roots of trees that are numbered from `i` on. -/
def roots (i : Nat) : List Tree → List Nat
  | [] => []
  | t :: rest => i :: roots (i + t.size) rest

mutual

def textContent : Tree → Text
  | text s => s
  | element _ _ inner => textContentAll inner

def textContentAll : List Tree → Text
  | [] => []
  | t :: rest => t.textContent ++ textContentAll rest

end

mutual

/-- The trees in a tree in document order, each with its number, where the first is numbered `i`. -/
def subtrees (i : Nat) : Tree → List (Nat × Tree)
  | text s => [(i, text s)]
  | element name attributes inner => (i, element name attributes inner) :: subtreesAll (i + 1) inner

def subtreesAll (i : Nat) : List Tree → List (Nat × Tree)
  | [] => []
  | t :: rest => t.subtrees i ++ subtreesAll (i + t.size) rest

end

def foundAll (p : Tree → Bool) (i : Nat) (ts : List Tree) : List (Nat × Tree) :=
  (subtreesAll i ts).filter fun q => p q.2

mutual

/-- The store holds a tree whose nodes are numbered from `i` on. -/
def HeldAt (d : Dom) (i : Nat) : Tree → Prop
  | text s => d.content? i = some (.text s) ∧ d.children i = []
  | element name attributes inner =>
      d.content? i = some (.element { name, attributes }) ∧ d.children i = roots (i + 1) inner ∧
        AllHeldAt d (i + 1) inner

def AllHeldAt (d : Dom) (i : Nat) : List Tree → Prop
  | [] => True
  | t :: rest => t.HeldAt d i ∧ AllHeldAt d (i + t.size) rest

end

theorem sizeAll_append (ts us : List Tree) : sizeAll (ts ++ us) = sizeAll ts + sizeAll us := by
  induction ts with
  | nil => exact (Nat.zero_add _).symm
  | cons t ts ih => rw [List.cons_append, sizeAll, sizeAll, ih, Nat.add_assoc]

theorem roots_append (i : Nat) (ts us : List Tree) :
    roots i (ts ++ us) = roots i ts ++ roots (i + sizeAll ts) us := by
  induction ts generalizing i with
  | nil => rfl
  | cons t ts ih =>
      rw [List.cons_append, roots, roots, ih, sizeAll, Nat.add_assoc, List.cons_append]

theorem subtreesAll_append (i : Nat) (ts us : List Tree) :
    subtreesAll i (ts ++ us) = subtreesAll i ts ++ subtreesAll (i + sizeAll ts) us := by
  induction ts generalizing i with
  | nil => rfl
  | cons t ts ih =>
      rw [List.cons_append, subtreesAll, subtreesAll, ih, sizeAll, Nat.add_assoc, List.append_assoc]

theorem foundAll_nil (p : Tree → Bool) (i : Nat) : foundAll p i [] = [] := rfl

theorem foundAll_append (p : Tree → Bool) (i : Nat) (ts us : List Tree) :
    foundAll p i (ts ++ us) = foundAll p i ts ++ foundAll p (i + sizeAll ts) us := by
  rw [foundAll, subtreesAll_append, List.filter_append]
  rfl

theorem foundAll_element (p : Tree → Bool) (i : Nat) (name : Text) (attributes : Attributes)
    (inner rest : List Tree) :
    foundAll p i (element name attributes inner :: rest) =
      (if p (element name attributes inner) then [(i, element name attributes inner)] else []) ++
        (foundAll p (i + 1) inner ++
          foundAll p (i + (element name attributes inner).size) rest) := by
  rw [foundAll, subtreesAll, subtrees, List.filter_append, List.filter_cons]
  split <;> rfl

theorem foundAll_text {p : Tree → Bool} {s : Text} (other : p (text s) = false) (i : Nat) :
    foundAll p i [text s] = [] := by
  simp [foundAll, subtreesAll, subtrees, other]

theorem allHeldAt_append (d : Dom) (i : Nat) (ts us : List Tree) :
    AllHeldAt d i (ts ++ us) ↔ AllHeldAt d i ts ∧ AllHeldAt d (i + sizeAll ts) us := by
  induction ts generalizing i with
  | nil => exact (and_iff_right trivial).symm
  | cons t ts ih =>
      rw [List.cons_append, AllHeldAt, AllHeldAt, ih, sizeAll, Nat.add_assoc, and_assoc]

mutual

theorem size_le_of_mem_subtrees {i : Nat} : ∀ {t : Tree}, ∀ q ∈ t.subtrees i, q.2.size ≤ t.size
  | text s, q, member => by
      rw [subtrees, List.mem_singleton] at member
      subst member
      exact Nat.le_refl _
  | element name attributes inner, q, member => by
      rw [subtrees, List.mem_cons] at member
      rcases member with rfl | member
      · exact Nat.le_refl _
      · exact Nat.le_succ_of_le (size_le_of_mem_subtreesAll q member)

theorem size_le_of_mem_subtreesAll {i : Nat} : ∀ {ts : List Tree}, ∀ q ∈ subtreesAll i ts,
    q.2.size ≤ sizeAll ts
  | [], q, member => absurd member List.not_mem_nil
  | t :: rest, q, member => by
      rw [subtreesAll, List.mem_append] at member
      rw [sizeAll]
      rcases member with member | member
      · exact Nat.le_add_right_of_le (size_le_of_mem_subtrees q member)
      · exact Nat.le_add_left_of_le (size_le_of_mem_subtreesAll q member)

end

mutual

theorem HeldAt.frame {d d' : Dom} {i : Nat} : ∀ {t : Tree}, t.HeldAt d i →
    (∀ j, i ≤ j → j < i + t.size → d.SameAt d' j) → t.HeldAt d' i
  | text s, held, same => by
      obtain ⟨content, children⟩ := same i (Nat.le_refl i) (Nat.lt_succ_self i)
      exact ⟨content.trans held.1, children.trans held.2⟩
  | element name attributes inner, held, same => by
      rw [size] at same
      obtain ⟨content, children⟩ := same i (Nat.le_refl i) (by omega)
      refine ⟨content.trans held.1, children.trans held.2.1, held.2.2.frame ?_⟩
      intro j low high
      exact same j (by omega) (by omega)

theorem AllHeldAt.frame {d d' : Dom} {i : Nat} : ∀ {ts : List Tree}, AllHeldAt d i ts →
    (∀ j, i ≤ j → j < i + sizeAll ts → d.SameAt d' j) → AllHeldAt d' i ts
  | [], _, _ => trivial
  | t :: rest, held, same => by
      rw [sizeAll] at same
      refine ⟨held.1.frame ?_, held.2.frame ?_⟩
      · intro j low high
        exact same j low (by omega)
      · intro j low high
        exact same j (by omega) (by omega)

end

mutual

theorem HeldAt.of_mem_subtrees {d : Dom} {i : Nat} : ∀ {t : Tree}, t.HeldAt d i →
    ∀ q ∈ t.subtrees i, q.2.HeldAt d q.1
  | text s, held, q, member => by
      rw [subtrees, List.mem_singleton] at member
      rw [member]
      exact held
  | element name attributes inner, held, q, member => by
      rw [subtrees, List.mem_cons] at member
      rcases member with rfl | member
      · exact held
      · exact held.2.2.of_mem_subtrees q member

theorem AllHeldAt.of_mem_subtrees {d : Dom} {i : Nat} : ∀ {ts : List Tree}, AllHeldAt d i ts →
    ∀ q ∈ subtreesAll i ts, q.2.HeldAt d q.1
  | [], _, q, member => absurd member List.not_mem_nil
  | t :: rest, held, q, member => by
      rw [subtreesAll, List.mem_append] at member
      rcases member with member | member
      · exact held.1.of_mem_subtrees q member
      · exact held.2.of_mem_subtrees q member

end

mutual

theorem HeldAt.descendantsTo {d : Dom} {i depth : Nat} : ∀ {t : Tree}, t.HeldAt d i →
    t.size ≤ depth → d.descendantsTo depth i = (t.subtrees i).map (·.1)
  | text s, held, deep => by
      obtain ⟨depth, rfl⟩ := Nat.exists_eq_succ_of_ne_zero (Nat.ne_of_gt deep)
      rw [Dom.descendantsTo, held.2]
      rfl
  | element name attributes inner, held, deep => by
      rw [size] at deep
      obtain ⟨depth, rfl⟩ := Nat.exists_eq_succ_of_ne_zero
        (Nat.ne_of_gt (Nat.lt_of_lt_of_le (Nat.succ_pos _) deep))
      rw [Dom.descendantsTo, held.2.1, subtrees, List.map_cons,
        held.2.2.flatMap_descendantsTo (Nat.le_of_succ_le_succ deep)]

theorem AllHeldAt.flatMap_descendantsTo {d : Dom} {i depth : Nat} : ∀ {ts : List Tree},
    AllHeldAt d i ts → sizeAll ts ≤ depth →
      (roots i ts).flatMap (d.descendantsTo depth) = (subtreesAll i ts).map (·.1)
  | [], _, _ => rfl
  | t :: rest, held, deep => by
      rw [sizeAll] at deep
      rw [roots, List.flatMap_cons, held.1.descendantsTo (by omega),
        held.2.flatMap_descendantsTo (by omega), subtreesAll, List.map_append]

end

mutual

theorem HeldAt.flatMap_text {d : Dom} {i : Nat} : ∀ {t : Tree}, t.HeldAt d i →
    (t.subtrees i).flatMap (fun q => d.ownText q.1) = t.textContent
  | text s, held => by
      rw [subtrees, List.flatMap_cons, Dom.ownText, held.1, textContent]
      exact List.append_nil s
  | element name attributes inner, held => by
      rw [subtrees, List.flatMap_cons, Dom.ownText, held.1, held.2.2.flatMap_text, textContent,
        List.nil_append]

theorem AllHeldAt.flatMap_text {d : Dom} {i : Nat} : ∀ {ts : List Tree}, AllHeldAt d i ts →
    (subtreesAll i ts).flatMap (fun q => d.ownText q.1) = textContentAll ts
  | [], _ => rfl
  | t :: rest, held => by
      rw [subtreesAll, List.flatMap_append, held.1.flatMap_text, held.2.flatMap_text,
        textContentAll]

end

theorem HeldAt.element? {d : Dom} {i : Nat} {t : Tree} (held : t.HeldAt d i) :
    d.element? i = t.element? := by
  cases t with
  | text s => rw [Dom.element?, held.1]; rfl
  | element name attributes inner => exact Dom.element?_of_content? held.1

theorem HeldAt.textContent {d : Dom} {i : Nat} {t : Tree} (held : t.HeldAt d i)
    (room : t.size ≤ d.size) : d.textContent i = t.textContent := by
  rw [← held.flatMap_text, Dom.textContent, Dom.descendants, held.descendantsTo room,
    List.flatMap_map]
  rfl

end Tree

namespace Dom

/-- A store that has grown by trees behind the children of a node. -/
structure Grows (d : Dom) (p : NodeId) (ts : List Tree) (d' : Dom) : Prop where
  size : d'.size = d.size + Tree.sizeAll ts
  same : ∀ i < d.size, i ≠ p → d.SameAt d' i
  content : d'.content? p = d.content? p
  children : d'.children p = d.children p ++ Tree.roots d.size ts
  held : Tree.AllHeldAt d' d.size ts

namespace Grows

variable {d d' d'' : Dom} {p : NodeId} {ts us : List Tree}

theorem refl (d : Dom) (p : NodeId) : d.Grows p [] d :=
  ⟨rfl, fun i _ _ => .refl d i, rfl, (List.append_nil _).symm, trivial⟩

theorem trans (first : d.Grows p ts d') (second : d'.Grows p us d'') (present : p < d.size) :
    d.Grows p (ts ++ us) d'' := by
  refine ⟨?_, ?_, second.content.trans first.content, ?_, (Tree.allHeldAt_append ..).2 ⟨?_, ?_⟩⟩
  · rw [second.size, first.size, Tree.sizeAll_append, Nat.add_assoc]
  · intro i old other
    have still : i < d'.size := first.size ▸ Nat.lt_add_right _ old
    exact (first.same i old other).trans (second.same i still other)
  · rw [second.children, first.children, first.size, Tree.roots_append, List.append_assoc]
  · refine first.held.frame fun j low high => second.same j (first.size ▸ high) ?_
    exact Nat.ne_of_gt (Nat.lt_of_lt_of_le present low)
  · rw [← first.size]
    exact second.held

theorem inside {name : Text} {attributes : Attributes}
    (first : d.Grows p [.element name attributes []] d') (second : d'.Grows d.size ts d'')
    (present : p < d.size) : d.Grows p [.element name attributes ts] d'' := by
  have size : d'.size = d.size + 1 := first.size
  have other : p ≠ d.size := Nat.ne_of_lt present
  have still : p < d'.size := size ▸ Nat.lt_succ_of_lt present
  obtain ⟨content, children, _⟩ := first.held.1
  refine ⟨?_, ?_, (second.same p still other).1.trans first.content, ?_, ⟨?_, ?_, ?_⟩, trivial⟩
  · rw [second.size, size, Tree.sizeAll, Tree.size, Tree.sizeAll]
    omega
  · intro i old off
    exact (first.same i old off).trans (second.same i (by omega) (Nat.ne_of_lt old))
  · exact (second.same p still other).2.trans first.children
  · exact second.content.trans content
  · rw [second.children, children, size]
    rfl
  · rw [← size]
    exact second.held

theorem of_add {c : Content} (kind : c.isRoot = false) (present : p < d.size) :
    let d' := (d.add c).1.append p d.size
    d'.size = d.size + 1 ∧ (∀ i < d.size, i ≠ p → d.SameAt d' i) ∧
      d'.content? p = d.content? p ∧ d'.children p = d.children p ++ [d.size] ∧
      d'.content? d.size = some c ∧ d'.children d.size = [] := by
  intro d'
  have size : (d.add c).1.size = d.size + 1 := size_add d c
  have shown : (d.add c).1.content? d.size = some c := content?_add_self d c
  have loose (q : NodeId) : d.size ∉ (d.add c).1.children q := by
    rw [children_add]
    exact not_mem_children_of_size_le (Nat.le_refl _) q
  have room : p < (d.add c).1.size := by
    rw [size]
    exact Nat.lt_succ_of_lt present
  have children (q : NodeId) :
      d'.children q = if p = q then d.children q ++ [d.size] else d.children q := by
    have appended := children_append_of_loose shown kind room loose q
    rwa [children_add] at appended
  have content {q : NodeId} (old : q < d.size) : d'.content? q = d.content? q :=
    (content?_insert ..).trans (content?_add_of_lt d c old)
  refine ⟨(size_insert ..).trans size, ?_, content present, ?_, (content?_insert ..).trans shown,
    ?_⟩
  · intro i old other
    exact ⟨content old, (children i).trans (if_neg (Ne.symm other))⟩
  · rw [children, if_pos rfl]
  · rw [children, if_neg (Nat.ne_of_lt present), children_of_size_le (Nat.le_refl _)]

theorem of_element (name : Text) (attributes : Attributes) (present : p < d.size) :
    d.Grows p [.element name attributes []]
      ((d.add (.element { name, attributes })).1.append p d.size) := by
  obtain ⟨size, same, content, behind, shown, leaf⟩ :=
    of_add (c := .element { name, attributes }) rfl present
  exact ⟨size, same, content, behind, ⟨shown, leaf, trivial⟩, trivial⟩

theorem of_insertText (s : Text) (present : p < d.size)
    (apart : ∀ i ∈ (d.children p).getLast?, d.isText i = false) :
    d.Grows p [.text s] (d.insertText p none s) := by
  have inserted : d.insertText p none s = (d.add (.text s)).1.append p d.size := by
    unfold insertText childBefore
    cases last : (d.children p).getLast? with
    | none => rfl
    | some i =>
        simp only [apart i last, Bool.false_eq_true, if_false]
        rfl
  obtain ⟨size, same, content, behind, shown, leaf⟩ := of_add (c := .text s) rfl present
  rw [inserted]
  exact ⟨size, same, content, behind, ⟨shown, leaf⟩, trivial⟩

theorem insertText {s : Text} (grown : d.Grows p [.text s] d') (present : p < d.size) (t : Text) :
    d.Grows p [.text (s ++ t)] (d'.insertText p none t) := by
  obtain ⟨shown, leaf⟩ := grown.held.1
  have last : (d'.children p).getLast? = some d.size := by
    rw [grown.children]
    exact List.getLast?_concat
  have extended : d'.insertText p none t = d'.extendText d.size t := by
    have isText : d'.isText d.size = true := by rw [isText, shown]
    unfold Dom.insertText childBefore
    simp only [last, isText, if_true]
  have children (q : NodeId) : (d'.extendText d.size t).children q = d'.children q :=
    children_extendText d' d.size t q
  have content {q : NodeId} (other : d.size ≠ q) :
      (d'.extendText d.size t).content? q = d'.content? q := by
    rw [content?_extendText, if_neg other]
  rw [extended]
  refine ⟨(size_extendText ..).trans grown.size, ?_, ?_, (children p).trans grown.children,
    ⟨?_, (children d.size).trans leaf⟩, trivial⟩
  · intro i old other
    exact (grown.same i old other).trans ⟨content (Nat.ne_of_gt old), children i⟩
  · rw [content (Nat.ne_of_gt present), grown.content]
  · rw [content?_extendText, if_pos rfl, shown]
    rfl

end Grows
end Dom
end LivePage.Html
