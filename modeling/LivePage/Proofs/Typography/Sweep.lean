import LivePage.Proofs.Render.Visits
import LivePage.Proofs.Typography.Runs

/-!
Texts joined in place. The texts of a tree are listed first and then visited one after the other: a
text that has a parent takes the texts of the siblings directly behind it, which leave the tree. The
list still holds those that left, and what stands below them; they are visited all the same, outside
of the tree. What stands in the end is the tree with its texts joined.
-/

namespace LivePage
open Markdown

namespace Placed

def place? : Placed → Option Nat
  | mk place _ _ _ => place

theorem ofNodes_append (index : Nat) (ns others : List Node) :
    ofNodes index (ns ++ others) = ofNodes index ns ++ ofNodes (index + Node.sizeAll ns) others := by
  induction ns generalizing index with
  | nil => rfl
  | cons n ns ih => rw [List.cons_append, ofNodes, ofNodes, ih, Node.sizeAll, Nat.add_assoc]; rfl

mutual

def textPlaces : Placed → List Nat
  | mk place v _ children =>
      let own := match v with
        | .text _ => place.toList
        | _ => []
      own ++ textPlacesAll children

def textPlacesAll : List Placed → List Nat
  | [] => []
  | n :: rest => n.textPlaces ++ textPlacesAll rest

end

end Placed

namespace Typographer
open Placed

/-- A text takes the texts of its next siblings, up to the first that is none. The siblings as they
then stand, and those that left. -/
def soak : Placed → List Placed → List Placed × List Placed
  | .mk place (.text s) span children, .mk gone (.text t) goneSpan below :: rest =>
      let (standing, removed) := soak (.mk place (.text (s ++ t)) span children) rest
      (standing, .mk gone (.text t) goneSpan below :: removed)
  | n, rest => (n :: rest, [])

mutual

/-- Visits the node with a place, if it stands below this one. -/
def soakBelow (index : Nat) : Placed → Placed × List Placed
  | .mk place v span children =>
      let (standing, removed) := soakAmong index children
      (.mk place v span standing, removed)

def soakAmong (index : Nat) : List Placed → List Placed × List Placed
  | [] => ([], [])
  | n :: rest =>
      if n.place? = some index then soak n rest
      else
        let (n, removed) := soakBelow index n
        let (rest, more) := soakAmong index rest
        (n :: rest, removed ++ more)

end

/-- Visits the node with a place, in the tree or outside of it. One that has no parent stays. -/
def visit (r : Revision) (index : Nat) : Revision :=
  let standing := r.standing.map (soakBelow index)
  let removed := r.removed.map (soakBelow index)
  ⟨standing.map Prod.fst, removed.map Prod.fst ++ (standing ++ removed).flatMap Prod.snd⟩

/-- Visits the texts of a tree, as they are listed at first. -/
def sweep (root : Node) : Revision := (textPlaces (.ofNode 0 root)).foldl visit (.ofNode root)

def soaked (n : Placed) (index : Nat) : Placed := (soakBelow index n).1

def soakedAmong (ns : List Placed) (index : Nat) : List Placed := (soakAmong index ns).1

section Visit

variable {index : Nat} {n : Placed} {ns rest : List Placed}

theorem soakedAmong_here (here : n.place? = some index) :
    soakedAmong (n :: rest) index = (soak n rest).1 := by
  rw [soakedAmong, soakAmong, if_pos here]

theorem soakedAmong_cons (elsewhere : n.place? ≠ some index) :
    soakedAmong (n :: rest) index = soaked n index :: soakedAmong rest index := by
  rw [soakedAmong, soakAmong, if_neg elsewhere]
  rfl

theorem soaked_mk (place : Option Nat) (v : Value) (span : Span) (children : List Placed)
    (index : Nat) :
    soaked (.mk place v span children) index = .mk place v span (soakedAmong children index) := rfl

theorem place?_soaked (n : Placed) (index : Nat) : (soaked n index).place? = n.place? := by
  obtain ⟨place, v, span, children⟩ := n
  rfl

theorem place?_ne_of_not_mem (absent : index ∉ n.places) : n.place? ≠ some index := by
  obtain ⟨place, v, span, children⟩ := n
  rw [places, List.mem_append, not_or, Option.mem_toList] at absent
  exact absent.1

end Visit

mutual

theorem soaked_of_not_mem {index : Nat} : ∀ n : Placed, index ∉ n.places → soaked n index = n
  | .mk place v span children, absent => by
      rw [places, List.mem_append, not_or] at absent
      rw [soaked_mk, soakedAmong_of_not_mem children absent.2]

theorem soakedAmong_of_not_mem {index : Nat} :
    ∀ ns : List Placed, index ∉ placesAll ns → soakedAmong ns index = ns
  | [], _ => rfl
  | n :: rest, absent => by
      rw [placesAll, List.mem_append, not_or] at absent
      rw [soakedAmong_cons (place?_ne_of_not_mem absent.1), soaked_of_not_mem n absent.1,
        soakedAmong_of_not_mem rest absent.2]

end

theorem placesAll_soak_subset (n : Placed) (rest : List Placed) :
    placesAll (soak n rest).1 ⊆ placesAll (n :: rest) := by
  induction n, rest using soak.induct with
  | case1 place s span children gone t goneSpan below rest standing removed shown ih =>
      rw [soak]
      refine List.Subset.trans ih ?_
      simp only [placesAll, places]
      grind
  | case2 n rest other =>
      rw [soak]
      · exact List.Subset.refl _
      · exact other

mutual

theorem places_soaked_subset (index : Nat) : ∀ n : Placed, (soaked n index).places ⊆ n.places
  | .mk place v span children => by
      intro i member
      rw [soaked_mk, places, List.mem_append] at member
      rw [places, List.mem_append]
      exact member.imp_right (placesAll_soakedAmong_subset index children ·)

theorem placesAll_soakedAmong_subset (index : Nat) :
    ∀ ns : List Placed, placesAll (soakedAmong ns index) ⊆ placesAll ns
  | [] => List.Subset.refl _
  | n :: rest => by
      by_cases here : n.place? = some index
      · rw [soakedAmong_here here]
        exact placesAll_soak_subset n rest
      · intro i member
        rw [soakedAmong_cons here, placesAll, List.mem_append] at member
        rw [placesAll, List.mem_append]
        exact member.imp (places_soaked_subset index n ·)
          (placesAll_soakedAmong_subset index rest ·)

end

theorem foldl_soaked (indices : List Nat) (place : Option Nat) (v : Value) (span : Span)
    (children : List Placed) :
    indices.foldl soaked (.mk place v span children) =
      .mk place v span (indices.foldl soakedAmong children) := by
  induction indices generalizing children with
  | nil => rfl
  | cons index indices ih => exact ih _

theorem foldl_soakedAmong_cons {indices : List Nat} {n : Placed} (rest : List Placed)
    (elsewhere : ∀ index ∈ indices, n.place? ≠ some index) :
    indices.foldl soakedAmong (n :: rest) =
      indices.foldl soaked n :: indices.foldl soakedAmong rest := by
  induction indices generalizing n rest with
  | nil => rfl
  | cons index indices ih =>
      obtain ⟨first, later⟩ := List.forall_mem_cons.1 elsewhere
      have later' : ∀ i ∈ indices, (soaked n index).place? ≠ some i := by
        rwa [place?_soaked]
      rw [List.foldl_cons, soakedAmong_cons first, ih _ later']
      rfl

theorem foldl_soakedAmong_of_not_mem {indices : List Nat} {ns : List Placed}
    (absent : ∀ index ∈ indices, index ∉ placesAll ns) : indices.foldl soakedAmong ns = ns := by
  induction indices with
  | nil => rfl
  | cons index indices ih =>
      obtain ⟨first, later⟩ := List.forall_mem_cons.1 absent
      rw [List.foldl_cons, soakedAmong_of_not_mem ns first, ih later]

theorem placesAll_foldl_subset (indices : List Nat) (ns : List Placed) :
    placesAll (indices.foldl soakedAmong ns) ⊆ placesAll ns := by
  induction indices generalizing ns with
  | nil => exact List.Subset.refl _
  | cons index indices ih =>
      exact List.Subset.trans (ih _) (placesAll_soakedAmong_subset index ns)

/-- Visits to places that are not among some nodes may be left out, before or after others. -/
theorem foldl_soakedAmong_append_left {indices others : List Nat} {ns : List Placed}
    (absent : ∀ index ∈ others, index ∉ placesAll ns) :
    (indices ++ others).foldl soakedAmong ns = indices.foldl soakedAmong ns := by
  rw [List.foldl_append]
  exact foldl_soakedAmong_of_not_mem fun index member within =>
    absent index member (placesAll_foldl_subset indices ns within)

theorem foldl_soakedAmong_append_right {indices others : List Nat} {ns : List Placed}
    (absent : ∀ index ∈ indices, index ∉ placesAll ns) :
    (indices ++ others).foldl soakedAmong ns = others.foldl soakedAmong ns := by
  rw [List.foldl_append, foldl_soakedAmong_of_not_mem absent]

theorem standing_foldl_visit (indices : List Nat) (r : Revision) :
    (indices.foldl visit r).standing = r.standing.map fun n => indices.foldl soaked n := by
  induction indices generalizing r with
  | nil => exact (List.map_id _).symm
  | cons index indices ih =>
      rw [List.foldl_cons, ih, visit]
      simp only [List.map_map]
      rfl

mutual

theorem mem_places_of_textPlaces {index : Nat} :
    ∀ n : Placed, index ∈ n.textPlaces → index ∈ n.places
  | .mk place v span children, member => by
      rw [places, List.mem_append]
      have own : index ∈ (match v with
        | .text _ => place.toList
        | _ => []) → index ∈ place.toList := by
        cases v with
        | text s => exact id
        | _ => nofun
      exact (List.mem_append.1 member).imp own (mem_placesAll_of_textPlaces children)

theorem mem_placesAll_of_textPlaces {index : Nat} :
    ∀ ns : List Placed, index ∈ textPlacesAll ns → index ∈ placesAll ns
  | [], member => by cases member
  | n :: rest, member => by
      rw [textPlacesAll, List.mem_append] at member
      rw [placesAll, List.mem_append]
      exact member.imp (mem_places_of_textPlaces n) (mem_placesAll_of_textPlaces rest)

end

theorem textPlacesAll_append (ns others : List Placed) :
    textPlacesAll (ns ++ others) = textPlacesAll ns ++ textPlacesAll others := by
  induction ns with
  | nil => rfl
  | cons n ns ih => rw [List.cons_append, textPlacesAll, textPlacesAll, ih, List.append_assoc]

theorem mem_textPlacesAll_ofNodes {index place : Nat} {ns : List Node}
    (member : place ∈ textPlacesAll (ofNodes index ns)) :
    index ≤ place ∧ place < index + Node.sizeAll ns :=
  mem_placesAll_ofNodes ns (mem_placesAll_of_textPlaces _ member)

theorem ofNode_eq (index : Nat) (n : Node) :
    ofNode index n = .mk (some index) n.value n.span (ofNodes (index + 1) n.children) := by
  cases n
  rfl

theorem textPlaces_other {n : Node} (other : n.text? = none) (index : Nat) :
    textPlaces (ofNode index n) = textPlacesAll (ofNodes (index + 1) n.children) := by
  obtain ⟨v, span, children⟩ := n
  cases v with
  | text s => cases other
  | _ => rfl

theorem textPlaces_text {n : Node} (isText : n.text?.isSome) (index : Nat) :
    textPlaces (ofNode index n) = index :: textPlacesAll (ofNodes (index + 1) n.children) := by
  obtain ⟨s, text⟩ := Option.isSome_iff_exists.1 isText
  rw [eq_of_text? text]
  rfl

theorem soak_run {more rest : List Node} (texts : AllTexts more) (ends : Bounded rest)
    (place : Option Nat) (s : Text) (span : Span) (children : List Placed) (index : Nat) :
    (soak (.mk place (.text s) span children) (ofNodes index (more ++ rest))).1 =
      .mk place (.text (s ++ runText more)) span children ::
        ofNodes (index + Node.sizeAll more) rest := by
  induction more generalizing s index with
  | nil =>
      rw [List.nil_append, Node.sizeAll, Nat.add_zero]
      have plain : s ++ runText [] = s := List.append_nil s
      rw [plain]
      cases rest with
      | nil => rfl
      | cons n rest =>
          have other : n.text? = none := ends n rfl
          obtain ⟨v, nodeSpan, below⟩ := n
          cases v with
          | text t => cases other
          | _ => rfl
  | cons n more ih =>
      obtain ⟨isText, later⟩ := List.forall_mem_cons.1 texts
      obtain ⟨t, text⟩ := Option.isSome_iff_exists.1 isText
      rw [runText_text text, Node.sizeAll, ← Nat.add_assoc, ← List.append_assoc, ← ih later,
        eq_of_text? text]
      rfl

theorem not_mem_placesAll_ofNodes {index other place : Nat} {ns others : List Node}
    (member : place ∈ textPlacesAll (ofNodes index ns))
    (apart : index + Node.sizeAll ns ≤ other ∨ other + Node.sizeAll others ≤ index) :
    place ∉ placesAll (ofNodes other others) := by
  intro within
  have range := mem_textPlacesAll_ofNodes member
  have range' := mem_placesAll_ofNodes others within
  omega

/-- The siblings that stand after the visits to all texts among and below them. -/
def soakedAll (index : Nat) (ns : List Node) : List Placed :=
  (textPlacesAll (ofNodes index ns)).foldl soakedAmong (ofNodes index ns)

theorem soakedAll_other {n : Node} (other : n.text? = none) (rest : List Node) (index : Nat) :
    soakedAll index (n :: rest) = .mk (some index) n.value n.span
      (soakedAll (index + 1) n.children) :: soakedAll (index + n.size) rest := by
  have size := Node.size_eq n
  have later : ∀ i ∈ textPlacesAll (ofNodes (index + n.size) rest),
      i ∉ placesAll (ofNodes (index + 1) n.children) := fun i member =>
    not_mem_placesAll_ofNodes member (.inr (by omega))
  have earlier : ∀ i ∈ textPlacesAll (ofNodes (index + 1) n.children),
      i ∉ placesAll (ofNodes (index + n.size) rest) := fun i member =>
    not_mem_placesAll_ofNodes member (.inl (by omega))
  have elsewhere : ∀ i ∈ textPlacesAll (ofNodes (index + 1) n.children) ++
      textPlacesAll (ofNodes (index + n.size) rest), (ofNode index n).place? ≠ some i := by
    rw [ofNode_eq]
    rintro i member ⟨⟩
    rcases List.mem_append.1 member with inner | outer
    · have range := mem_textPlacesAll_ofNodes inner
      omega
    · have range := mem_textPlacesAll_ofNodes outer
      omega
  rw [soakedAll, ofNodes, textPlacesAll, textPlaces_other other, foldl_soakedAmong_cons _ elsewhere,
    ofNode_eq, foldl_soaked, foldl_soakedAmong_append_left later,
    foldl_soakedAmong_append_right earlier]
  rfl

/-- The first text of a run takes the others, and the visits go below it and behind the run. -/
theorem soakedAll_run {first : Node} {more rest : List Node} (texts : AllTexts (first :: more))
    (ends : Bounded rest) (index : Nat) :
    soakedAll index (first :: more ++ rest) =
      .mk (some index) (.text (runText (first :: more))) first.span
        (soakedAll (index + 1) first.children) ::
      soakedAll (index + first.size + Node.sizeAll more) rest := by
  have size := Node.size_eq first
  obtain ⟨isText, others⟩ := List.forall_mem_cons.1 texts
  obtain ⟨s, text⟩ := Option.isSome_iff_exists.1 isText
  have head : ofNode index first =
      .mk (some index) (.text s) first.span (ofNodes (index + 1) first.children) := by
    rw [eq_of_text? text]
    rfl
  -- Of the nodes that left, some places are still to be visited: they are not in the tree.
  let inner := textPlacesAll (ofNodes (index + 1) first.children)
  let gone := textPlacesAll (ofNodes (index + first.size) more)
  let behind := ofNodes (index + first.size + Node.sizeAll more) rest
  have listed : textPlacesAll (ofNodes index (first :: more ++ rest)) =
      index :: (inner ++ (gone ++ textPlacesAll behind)) := by
    rw [List.cons_append, ofNodes, textPlacesAll, ofNodes_append, textPlacesAll_append,
      textPlaces_text isText]
    rfl
  have later : ∀ i ∈ gone ++ textPlacesAll behind,
      i ∉ placesAll (ofNodes (index + 1) first.children) := by
    intro i member
    rcases List.mem_append.1 member with left | stays
    · exact not_mem_placesAll_ofNodes left (.inr (by omega))
    · exact not_mem_placesAll_ofNodes stays (.inr (by omega))
  have earlier : ∀ i ∈ inner, i ∉ placesAll behind := fun i member =>
    not_mem_placesAll_ofNodes member (.inl (by omega))
  have between : ∀ i ∈ gone, i ∉ placesAll behind := fun i member =>
    not_mem_placesAll_ofNodes member (.inl (by omega))
  have elsewhere : ∀ i ∈ inner ++ (gone ++ textPlacesAll behind), some index ≠ some i := by
    rintro i member ⟨⟩
    rcases List.mem_append.1 member with below | member
    · have range := mem_textPlacesAll_ofNodes below
      omega
    · rcases List.mem_append.1 member with left | stays
      · have range := mem_textPlacesAll_ofNodes left
        omega
      · have range := mem_textPlacesAll_ofNodes stays
        omega
  rw [soakedAll, listed, List.foldl_cons, List.cons_append, ofNodes, head, soakedAmong_here rfl,
    soak_run others ends, ← runText_text text, foldl_soakedAmong_cons _ elsewhere, foldl_soaked,
    foldl_soakedAmong_append_left later, foldl_soakedAmong_append_right earlier,
    foldl_soakedAmong_append_right between]
  rfl

theorem toNodes_soakedAll (nodes : List Node) (index : Nat) :
    toNodes (soakedAll index nodes) = joinAll nodes := by
  induction nodes using run_induction generalizing index with
  | nil => rfl
  | other n rest other below after =>
      rw [soakedAll_other other, toNodes, toNode, below, after, joinAll_other other]
  | run first more rest texts ends below after =>
      rw [soakedAll_run texts ends, toNodes, toNode, below, after, joinAll_run texts ends]

theorem toNodes_sweep (root : Node) : toNodes (sweep root).standing = [join root] := by
  -- A root has no parent, so a visit to it does nothing.
  have listed : ∃ own, (∀ i ∈ own, i = 0) ∧
      textPlaces (ofNode 0 root) = own ++ textPlacesAll (ofNodes 1 root.children) := by
    cases text : root.text? with
    | none => exact ⟨[], nofun, textPlaces_other text 0⟩
    | some s => exact ⟨[0], by simp, textPlaces_text (by rw [text]; rfl) 0⟩
  obtain ⟨own, zero, listed⟩ := listed
  have above : ∀ i ∈ own, i ∉ placesAll (ofNodes 1 root.children) := by
    intro i member within
    have range := mem_placesAll_ofNodes root.children within
    have first := zero i member
    omega
  have joined := toNodes_soakedAll root.children 1
  rw [soakedAll] at joined
  rw [sweep, standing_foldl_visit, listed, Revision.ofNode, List.map_singleton, ofNode_eq,
    foldl_soaked, Nat.zero_add, foldl_soakedAmong_append_right above, toNodes, toNode, joined]
  obtain ⟨v, span, children⟩ := root
  rfl

end Typographer
end LivePage
