import LivePage.Proofs.Html.Page

/-!
A forest that grows at its right side. The elements that are open while a document is read stand on
one way down along the last children; whatever is put in at the end of that way, or further up after
the elements below have been closed, comes last in document order. So the order of the document
stays the order in which the nodes were made.
-/

namespace LivePage.Html

/-- A forest with the way down its right side to the place where it grows. -/
inductive Spine where
  | tip (ts : List Tree)
  | branch (before : List Tree) (name : Text) (attributes : Attributes) (rest : Spine)

namespace Spine

def forest : Spine → List Tree
  | tip ts => ts
  | branch before name attributes rest => before ++ [.element name attributes rest.forest]

/-- The numbers of the elements on the way, where the forest is numbered from `i` on. -/
def path (i : Nat) : Spine → List Nat
  | tip _ => []
  | branch before _ _ rest =>
      (i + Tree.sizeAll before) :: rest.path (i + Tree.sizeAll before + 1)

/-- The last element on the way, or `p` if there is none. -/
def place (p i : Nat) : Spine → Nat
  | tip _ => p
  | branch before _ _ rest =>
      rest.place (i + Tree.sizeAll before) (i + Tree.sizeAll before + 1)

/-- Where the numbers of the trees at the place begin. -/
def start (i : Nat) : Spine → Nat
  | tip _ => i
  | branch before _ _ rest => rest.start (i + Tree.sizeAll before + 1)

def last : Spine → List Tree
  | tip ts => ts
  | branch _ _ _ rest => rest.last

def put (us : List Tree) : Spine → Spine
  | tip _ => tip us
  | branch before name attributes rest => branch before name attributes (rest.put us)

/-- A new element at the end, and the place inside it. -/
def sprout (name : Text) (attributes : Attributes) : Spine → Spine
  | tip ts => branch ts name attributes (tip [])
  | branch before n a rest => branch before n a (rest.sprout name attributes)

theorem path_put (us : List Tree) (s : Spine) (i : Nat) : (s.put us).path i = s.path i := by
  induction s generalizing i with
  | tip ts => rfl
  | branch before name attributes rest ih => rw [put, path, path, ih]

theorem forest_sprout (name : Text) (attributes : Attributes) (s : Spine) :
    (s.sprout name attributes).forest =
      (s.put (s.last ++ [.element name attributes []])).forest := by
  induction s with
  | tip ts => rfl
  | branch before n a rest ih => rw [sprout, forest, ih, last, put, forest]

theorem path_sprout (name : Text) (attributes : Attributes) (s : Spine) (i : Nat) :
    (s.sprout name attributes).path i = s.path i ++ [s.start i + Tree.sizeAll s.last] := by
  induction s generalizing i with
  | tip ts => rfl
  | branch before n a rest ih => rw [sprout, path, ih, path, start, last, List.cons_append]

/-- The way to an element on it: the elements further down count as closed. -/
theorem exists_upTo {l : List Nat} {q : Nat} (p : Nat) {s : Spine} {i : Nat}
    (within : (l ++ [q]).Sublist (s.path i)) :
    ∃ s' : Spine, s'.forest = s.forest ∧ s'.place p i = q ∧ (l ++ [q]).Sublist (s'.path i) := by
  induction s generalizing l p i with
  | tip ts =>
      rw [path, List.sublist_nil] at within
      exact absurd within (by simp)
  | branch before name attributes rest ih =>
      rw [path] at within
      rcases List.sublist_cons_iff.1 within with below | ⟨l', same, below⟩
      · obtain ⟨s', forest', place', path'⟩ := ih (i + Tree.sizeAll before) below
        exact ⟨.branch before name attributes s', by rw [forest, forest', forest], place',
          path'.cons _⟩
      · cases l with
        | nil =>
            obtain ⟨rfl, rfl⟩ := List.cons.inj same
            exact ⟨.branch before name attributes (.tip rest.forest), rfl, rfl, .refl _⟩
        | cons e l =>
            obtain ⟨rfl, rfl⟩ := List.cons.inj same
            obtain ⟨s', forest', place', path'⟩ := ih (i + Tree.sizeAll before) below
            exact ⟨.branch before name attributes s', by rw [forest, forest', forest], place',
              path'.cons_cons _⟩

end Spine

namespace Dom

/-- The children of `p` are trees with the last numbers of the store. -/
structure Ends (d : Dom) (p i : Nat) (ts : List Tree) : Prop where
  children : d.children p = Tree.roots i ts
  held : Tree.AllHeldAt d i ts
  size : d.size = i + Tree.sizeAll ts
  above : p < i

/-- A change among these trees, with nothing else concerned. -/
structure Turns (d : Dom) (p i : Nat) (us : List Tree) (d' : Dom) : Prop where
  ends : d'.Ends p i us
  same : ∀ k < i, k ≠ p → d.SameAt d' k
  content : d'.content? p = d.content? p

variable {d d' : Dom} {p i : Nat} {ts us : List Tree}

theorem Ends.inside {before inner : List Tree} {name : Text} {attributes : Attributes}
    (h : d.Ends p i (before ++ [.element name attributes inner])) :
    d.Ends (i + Tree.sizeAll before) (i + Tree.sizeAll before + 1) inner := by
  obtain ⟨_, children, held⟩ := ((Tree.allHeldAt_append ..).1 h.held).2.1
  refine ⟨children, held, ?_, Nat.lt_succ_self _⟩
  rw [h.size, Tree.sizeAll_append, Tree.sizeAll, Tree.size, Tree.sizeAll]
  omega

theorem Turns.outside {before inner inner' : List Tree} {name : Text} {attributes : Attributes}
    (h : d.Ends p i (before ++ [.element name attributes inner]))
    (turns : d.Turns (i + Tree.sizeAll before) (i + Tree.sizeAll before + 1) inner' d') :
    d.Turns p i (before ++ [.element name attributes inner']) d' := by
  obtain ⟨first, shown, _⟩ := (Tree.allHeldAt_append ..).1 h.held
  have above := h.above
  have kept (k : Nat) (low : k < i) : d.SameAt d' k := turns.same k (by omega) (by omega)
  refine ⟨⟨?_, ?_, ?_, above⟩, fun k low _ => kept k low, ?_⟩
  · have roots (inner : List Tree) :
        Tree.roots i (before ++ [.element name attributes inner]) =
          Tree.roots i before ++ [i + Tree.sizeAll before] := Tree.roots_append ..
    have behind := turns.same p (by omega) (by omega)
    rw [behind.2, h.children, roots, roots]
  · refine (Tree.allHeldAt_append ..).2 ⟨first.frame fun k _ high => ?_, ?_, trivial⟩
    · exact turns.same k (by omega) (by omega)
    · exact ⟨turns.content.trans shown.1, turns.ends.children, turns.ends.held⟩
  · rw [turns.ends.size, Tree.sizeAll_append, Tree.sizeAll, Tree.size, Tree.sizeAll]
    omega
  · exact (turns.same p (by omega) (by omega)).1

/-- The trees at the place of a spine are the last ones of the store. -/
theorem Ends.last {s : Spine} (h : d.Ends p i s.forest) : d.Ends (s.place p i) (s.start i) s.last := by
  induction s generalizing p i with
  | tip ts => exact h
  | branch before name attributes rest ih => exact ih h.inside

theorem Turns.put {s : Spine} (h : d.Ends p i s.forest)
    (turns : d.Turns (s.place p i) (s.start i) us d') : d.Turns p i (s.put us).forest d' := by
  induction s generalizing p i with
  | tip ts => exact turns
  | branch before name attributes rest ih => exact .outside h (ih h.inside turns)

theorem Turns.of_grows (h : d.Ends p i ts) (grows : d.Grows p us d') :
    d.Turns p i (ts ++ us) d' := by
  have above := h.above
  have kept (k : Nat) (low : k < d.size) (other : k ≠ p) := grows.same k low other
  refine ⟨⟨?_, ?_, ?_, above⟩, fun k low other => kept k (by rw [h.size]; omega) other,
    grows.content⟩
  · rw [grows.children, h.children, Tree.roots_append, h.size]
  · refine (Tree.allHeldAt_append ..).2 ⟨h.held.frame fun k low high => ?_, ?_⟩
    · exact kept k (by rw [h.size]; exact high) (by omega)
    · rw [← h.size]
      exact grows.held
  · rw [grows.size, h.size, Tree.sizeAll_append, Nat.add_assoc]

theorem Turns.of_extendText {u : Text} (h : d.Ends p i (ts ++ [.text u])) (s : Text) :
    d.Turns p i (ts ++ [.text (u ++ s)]) (d.extendText (i + Tree.sizeAll ts) s) := by
  have above := h.above
  obtain ⟨first, ⟨shown, leaf⟩, _⟩ := (Tree.allHeldAt_append ..).1 h.held
  have children (k : Nat) : (d.extendText (i + Tree.sizeAll ts) s).children k = d.children k :=
    children_extendText d _ s k
  have kept (k : Nat) (other : i + Tree.sizeAll ts ≠ k) :
      d.SameAt (d.extendText (i + Tree.sizeAll ts) s) k :=
    ⟨by rw [content?_extendText, if_neg other], children k⟩
  refine ⟨⟨?_, ?_, ?_, above⟩, fun k low _ => kept k (by omega), (kept p (by omega)).1⟩
  · have roots (u : Text) : Tree.roots i (ts ++ [.text u]) =
        Tree.roots i ts ++ [i + Tree.sizeAll ts] := Tree.roots_append ..
    rw [children, h.children, roots, roots]
  · refine (Tree.allHeldAt_append ..).2 ⟨first.frame fun k _ high => kept k (by omega), ?_, trivial⟩
    refine ⟨?_, (children _).trans leaf⟩
    rw [content?_extendText, if_pos rfl, shown]
    rfl
  · rw [size_extendText, h.size, Tree.sizeAll_append, Tree.sizeAll_append]
    rfl

theorem exists_turns_insertText (h : d.Ends p i ts) (s : Text) :
    ∃ us, d.Turns p i us (d.insertText p none s) := by
  have room : p < d.size := by
    have above := h.above
    rw [h.size]
    omega
  rcases List.eq_nil_or_concat ts with rfl | ⟨before, t, rfl⟩
  · have none : (d.children p).getLast? = none := by
      rw [h.children]
      rfl
    refine ⟨_, .of_grows h (.of_insertText s room fun k last => ?_)⟩
    rw [none] at last
    cases last
  · rw [List.concat_eq_append] at h
    have last : (d.children p).getLast? = some (i + Tree.sizeAll before) := by
      rw [h.children, Tree.roots_append]
      exact List.getLast?_concat
    obtain ⟨_, held, _⟩ := (Tree.allHeldAt_append ..).1 h.held
    cases t with
    | text u =>
        have extended : d.insertText p none s = d.extendText (i + Tree.sizeAll before) s := by
          have isText : d.isText (i + Tree.sizeAll before) = true := by rw [isText, held.1]
          unfold insertText childBefore
          simp only [last, isText, if_true]
        rw [extended]
        exact ⟨_, .of_extendText h s⟩
    | element name attributes inner =>
        refine ⟨_, .of_grows h (.of_insertText s room fun k shown => ?_)⟩
        rw [last] at shown
        cases shown
        rw [isText, held.1]

/-- The store is as it was, but for what has grown. -/
theorem Turns.grows {d₀ : Dom} (none : d₀.children p = []) (grown : d₀.Grows p ts d)
    (turns : d.Turns p d₀.size us d') : d₀.Grows p us d' := by
  refine ⟨turns.ends.size, fun k low other => ?_, turns.content.trans grown.content, ?_,
    turns.ends.held⟩
  · exact (grown.same k low other).trans (turns.same k low other)
  · rw [turns.ends.children, none, List.nil_append]

theorem Grows.ends (none : d.children p = []) (grown : d.Grows p ts d') (present : p < d.size) :
    d'.Ends p d.size ts :=
  ⟨by rw [grown.children, none, List.nil_append], grown.held, grown.size, present⟩

/-- The elements of a store in the order in which they were made. -/
def elements (d : Dom) : List Element := (List.range d.size).filterMap d.element?

theorem elements_of_same (size : d'.size = d.size)
    (same : ∀ i < d.size, d'.element? i = d.element? i) : d'.elements = d.elements := by
  rw [elements, elements, size]
  exact List.filterMap_congr fun i member => same i (List.mem_range.1 member)

theorem elements_insert_add (d : Dom) (p : NodeId) (mark : Option NodeId) (c : Content) :
    ((d.add c).1.insert p mark d.size).elements =
      d.elements ++ (match c with | .element e => [e] | _ => []) := by
  have content (i : NodeId) : ((d.add c).1.insert p mark d.size).content? i =
      if i = d.size then some c else d.content? i :=
    (content?_insert ..).trans (content?_add d c i)
  have old : ∀ i ∈ List.range d.size,
      ((d.add c).1.insert p mark d.size).element? i = d.element? i := fun i member => by
    refine element?_congr ((content i).trans (if_neg ?_))
    exact Nat.ne_of_lt (List.mem_range.1 member)
  rw [elements, size_insert, size_add, List.range_succ, List.filterMap_append,
    List.filterMap_congr old, elements]
  congr 1
  rw [List.filterMap_cons, element?, content, if_pos rfl]
  cases c <;> rfl

theorem size_le_insertText (d : Dom) (p : NodeId) (mark : Option NodeId) (s : Text) :
    d.size ≤ (d.insertText p mark s).size := by
  have new : d.size ≤ ((d.add (.text s)).1.insert p mark d.size).size := by
    rw [size_insert, size_add]
    exact Nat.le_succ _
  unfold insertText
  split
  · split
    · rw [size_extendText]
    · exact new
  · exact new

theorem elements_insertText (d : Dom) (p : NodeId) (mark : Option NodeId) (s : Text) :
    (d.insertText p mark s).elements = d.elements := by
  have new : ((d.add (.text s)).1.insert p mark d.size).elements = d.elements :=
    (elements_insert_add d p mark (.text s)).trans (List.append_nil _)
  unfold insertText
  split
  · next i found =>
      split
      · refine elements_of_same (size_extendText ..) fun k _ => ?_
        rw [element?, content?_extendText, element?]
        by_cases here : i = k
        · rw [if_pos here]
          cases d.content? k with
          | none => rfl
          | some c => cases c <;> rfl
        · rw [if_neg here]
      · exact new
  · exact new

end Dom
end LivePage.Html
