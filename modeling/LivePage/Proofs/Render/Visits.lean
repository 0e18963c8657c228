import LivePage.Render.Rules
import Mathlib.Data.List.Range

/-!
Visits to the nodes of a document while it changes. A visit changes the document at one place and
nothing around it, so the visits to the places of a subtree may be followed in that subtree alone,
wherever it stands by then: between the tags of links that are gone, or outside of the document.
-/

namespace LivePage
open Markdown

namespace Markdown.Node

mutual

def preorder : Node → List Node
  | mk v span children => mk v span children :: preorderAll children

def preorderAll : List Node → List Node
  | [] => []
  | n :: rest => n.preorder ++ preorderAll rest

end

def fenceToken? (n : Node) : Option FenceToken :=
  match n.value with
  | .codeBlock code => if code.fenced then some ⟨code.literal, code.info⟩ else none
  | _ => none

mutual

theorem length_preorder : ∀ n : Node, n.preorder.length = n.size
  | mk v span children => by
      rw [preorder, List.length_cons, length_preorderAll children, size]

theorem length_preorderAll : ∀ ns : List Node, (preorderAll ns).length = sizeAll ns
  | [] => rfl
  | n :: rest => by
      rw [preorderAll, List.length_append, length_preorder n, length_preorderAll rest, sizeAll]

end

end Markdown.Node

/-- What rules give, as functions. -/
structure Answers where
  fence : Option (FenceToken → Text → Block)
  linkOpen : Option (LinkToken → Text)
  image : Option (Token → Text)

namespace Overrides

variable {m : Type → Type}

/-- The rules that there are come to an end with these answers. -/
structure Gives [Monad m] (o : Overrides m) (a : Answers) : Prop where
  fence : (o.rules.fence.map fun rule => rule o.context) =
    a.fence.map fun answer token id => pure (answer token id)
  linkOpen : (o.rules.linkOpen.map fun rule => rule o.context) =
    a.linkOpen.map fun answer token => pure (answer token)
  image : (o.rules.image.map fun rule => rule o.context) =
    a.image.map fun answer token => pure (answer token)

/-- The blocks of the fences among nodes that are listed from `index` on. -/
def blocksOf (o : Overrides m) (a : Answers) (index : Nat) (nodes : List Node) : List Block :=
  match a.fence with
  | some answer => (nodes.zipIdx index).filterMap fun (n, i) =>
      n.fenceToken?.map fun token => answer token (blockId o.context.options.idPrefix i)
  | none => []

/-- The nodes where a node at `index` was, with those where its children were inside. -/
def revisedNode (o : Overrides m) (a : Answers) (index : Nat) (n : Node) (inner : List Node) :
    List Node :=
  match n with
  | .mk v span children =>
      match v with
      | .codeBlock code =>
          match code.fenced, a.fence with
          | true, some answer =>
              let id := blockId o.context.options.idPrefix index
              [.mk (.raw (answer ⟨code.literal, code.info⟩ id).html) span inner]
          | _, _ => [.mk v span inner]
      | .link target =>
          match a.linkOpen with
          | some answer => .mk (.raw (answer ⟨target.url, target.title⟩)) default [] :: inner ++
              [.mk (.raw renderLinkClose) default []]
          | none => [.mk v span inner]
      | .image target =>
          match a.image with
          | some answer =>
              let token := imageToken o.source o.starts (.mk v span children) target
              [.mk (.raw (answer (.image token))) span []]
          | none => [.mk v span inner]
      | v => [.mk v span inner]

mutual

/-- The nodes where a subtree was that is listed from `index` on. -/
def revised (o : Overrides m) (a : Answers) (index : Nat) : Node → List Node
  | .mk v span children =>
      o.revisedNode a index (.mk v span children) (o.revisedAll a (index + 1) children)

def revisedAll (o : Overrides m) (a : Answers) (index : Nat) : List Node → List Node
  | [] => []
  | n :: rest => o.revised a index n ++ o.revisedAll a (index + n.size) rest

end

/-- The block of a node at `index`, if it makes one. -/
def ownBlocks (o : Overrides m) (a : Answers) (index : Nat) (n : Node) : List Block :=
  match a.fence, n.fenceToken? with
  | some answer, some token => [answer token (blockId o.context.options.idPrefix index)]
  | _, _ => []

theorem blocksOf_nil (o : Overrides m) (a : Answers) (index : Nat) : o.blocksOf a index [] = [] := by
  unfold blocksOf
  cases a.fence <;> rfl

theorem blocksOf_cons (o : Overrides m) (a : Answers) (index : Nat) (n : Node) (ns : List Node) :
    o.blocksOf a index (n :: ns) = o.ownBlocks a index n ++ o.blocksOf a (index + 1) ns := by
  unfold blocksOf ownBlocks
  cases a.fence with
  | none => rfl
  | some answer =>
      rw [List.zipIdx_cons]
      cases token : n.fenceToken? <;> simp [token]

theorem blocksOf_append (o : Overrides m) (a : Answers) (index : Nat) (ns others : List Node) :
    o.blocksOf a index (ns ++ others) =
      o.blocksOf a index ns ++ o.blocksOf a (index + ns.length) others := by
  induction ns generalizing index with
  | nil => rw [blocksOf_nil, List.nil_append, List.nil_append, List.length_nil, Nat.add_zero]
  | cons n ns ih =>
      rw [List.cons_append, blocksOf_cons, blocksOf_cons, ih, List.append_assoc, List.length_cons,
        Nat.add_right_comm, Nat.add_assoc]

end Overrides

namespace Placed

mutual

def places : Placed → List Nat
  | mk place _ _ children => place.toList ++ placesAll children

def placesAll : List Placed → List Nat
  | [] => []
  | n :: rest => n.places ++ placesAll rest

end

theorem placesAll_append (ns others : List Placed) :
    placesAll (ns ++ others) = placesAll ns ++ placesAll others := by
  induction ns with
  | nil => rfl
  | cons n ns ih => rw [List.cons_append, placesAll, placesAll, ih, List.append_assoc]

theorem toNodes_append (ns others : List Placed) :
    toNodes (ns ++ others) = toNodes ns ++ toNodes others := by
  induction ns with
  | nil => rfl
  | cons n ns ih => rw [List.cons_append, toNodes, toNodes, ih, List.cons_append]

theorem findAmong?_append (index : Nat) (ns others : List Placed) :
    findAmong? index (ns ++ others) = (findAmong? index ns).or (findAmong? index others) := by
  induction ns with
  | nil => rfl
  | cons n ns ih =>
      rw [List.cons_append, findAmong?, findAmong?, ih]
      cases n.find? index <;> rfl

theorem replaceAmong_append (index : Nat) (put ns others : List Placed) :
    replaceAmong index put (ns ++ others) =
      replaceAmong index put ns ++ replaceAmong index put others := by
  induction ns with
  | nil => rfl
  | cons n ns ih => rw [List.cons_append, replaceAmong, replaceAmong, ih, List.append_assoc]

mutual

theorem mem_places_ofNode {index place : Nat} :
    ∀ n : Node, place ∈ (ofNode index n).places → index ≤ place ∧ place < index + n.size
  | .mk v span children, member => by
      rw [ofNode, places, List.mem_append] at member
      rw [Node.size]
      rcases member with here | below
      · have same : place = index := by simpa using here
        omega
      · have range := mem_placesAll_ofNodes children below
        omega

theorem mem_placesAll_ofNodes {index place : Nat} :
    ∀ ns : List Node, place ∈ placesAll (ofNodes index ns) →
      index ≤ place ∧ place < index + Node.sizeAll ns
  | [], member => by cases member
  | n :: rest, member => by
      rw [ofNodes, placesAll, List.mem_append] at member
      rw [Node.sizeAll]
      rcases member with first | later
      · have range := mem_places_ofNode n first
        omega
      · have range := mem_placesAll_ofNodes rest later
        omega

end

mutual

theorem find?_of_not_mem {index : Nat} :
    ∀ n : Placed, index ∉ n.places → n.find? index = none
  | mk place v span children, absent => by
      rw [places, List.mem_append, not_or, Option.mem_toList] at absent
      rw [find?, if_neg absent.1, findAmong?_of_not_mem children absent.2]

theorem findAmong?_of_not_mem {index : Nat} :
    ∀ ns : List Placed, index ∉ placesAll ns → findAmong? index ns = none
  | [], _ => rfl
  | n :: rest, absent => by
      rw [placesAll, List.mem_append, not_or] at absent
      rw [findAmong?, find?_of_not_mem n absent.1, findAmong?_of_not_mem rest absent.2]

end

mutual

theorem replace_of_not_mem {index : Nat} (put : List Placed) :
    ∀ n : Placed, index ∉ n.places → n.replace index put = [n]
  | mk place v span children, absent => by
      rw [places, List.mem_append, not_or, Option.mem_toList] at absent
      rw [replace, if_neg absent.1, replaceAmong_of_not_mem put children absent.2]

theorem replaceAmong_of_not_mem {index : Nat} (put : List Placed) :
    ∀ ns : List Placed, index ∉ placesAll ns → replaceAmong index put ns = ns
  | [], _ => rfl
  | n :: rest, absent => by
      rw [placesAll, List.mem_append, not_or] at absent
      rw [replaceAmong, replace_of_not_mem put n absent.1,
        replaceAmong_of_not_mem put rest absent.2, List.singleton_append]

end

mutual

theorem toNode_ofNode (index : Nat) : ∀ n : Node, (ofNode index n).toNode = n
  | .mk v span children => by rw [ofNode, toNode, toNodes_ofNodes (index + 1) children]

theorem toNodes_ofNodes (index : Nat) : ∀ ns : List Node, toNodes (ofNodes index ns) = ns
  | [] => rfl
  | n :: rest => by
      rw [ofNodes, toNodes, toNode_ofNode index n, toNodes_ofNodes (index + n.size) rest]

end

end Placed

namespace Revision

/-- Places that nothing stands at but what is inside of `around`, which finds, changes and takes out
nodes there as it would be done without it. -/
structure Apart (around : Revision → Revision) (index : Nat) : Prop where
  find : ∀ r, (around r).find? index = r.find? index
  replace : ∀ r put, (around r).replace index put = around (r.replace index put)
  remove : ∀ r nodes, (around r).remove nodes = around (r.remove nodes)

def among (before behind removed : List Placed) (r : Revision) : Revision :=
  ⟨before ++ r.standing ++ behind, removed ++ r.removed⟩

def below (place : Option Nat) (v : Value) (span : Span) (r : Revision) : Revision :=
  ⟨[.mk place v span r.standing], r.removed⟩

def outside (standing : List Placed) (r : Revision) : Revision :=
  ⟨standing, r.standing ++ r.removed⟩

theorem apart_among {before behind removed : List Placed} {index : Nat}
    (first : index ∉ Placed.placesAll before) (last : index ∉ Placed.placesAll behind)
    (out : index ∉ Placed.placesAll removed) : Apart (among before behind removed) index := by
  refine ⟨?_, ?_, ?_⟩
  · intro r
    simp only [find?, among, Placed.findAmong?_append, Placed.findAmong?_of_not_mem _ first,
      Placed.findAmong?_of_not_mem _ last, Placed.findAmong?_of_not_mem _ out, Option.none_or,
      Option.or_none]
  · intro r put
    simp only [replace, among, Placed.replaceAmong_append, Placed.replaceAmong_of_not_mem _ _ first,
      Placed.replaceAmong_of_not_mem _ _ last, Placed.replaceAmong_of_not_mem _ _ out]
  · intro r nodes
    simp only [remove, among, List.append_assoc]

theorem apart_below {place : Option Nat} {index : Nat} (other : place ≠ some index) (v : Value)
    (span : Span) : Apart (below place v span) index := by
  refine ⟨?_, ?_, ?_⟩
  · intro r
    simp only [find?, below, Placed.findAmong?_append, Placed.findAmong?, Placed.find?, other,
      if_false]
    cases Placed.findAmong? index r.standing <;> rfl
  · intro r put
    simp only [replace, below, Placed.replaceAmong, Placed.replace, other, if_false,
      List.append_nil]
  · intro r nodes
    rfl

theorem apart_outside {standing : List Placed} {index : Nat}
    (absent : index ∉ Placed.placesAll standing) : Apart (outside standing) index := by
  refine ⟨?_, ?_, ?_⟩
  · intro r
    simp only [find?, outside, Placed.findAmong?_append, Placed.findAmong?_of_not_mem _ absent,
      Option.none_or]
  · intro r put
    simp only [replace, outside, Placed.replaceAmong_append,
      Placed.replaceAmong_of_not_mem _ _ absent]
  · intro r nodes
    simp only [remove, outside, List.append_assoc]

end Revision

namespace Overrides

variable {m : Type → Type} [Monad m] [LawfulMonad m]

theorem visit_around {around : Revision → Revision} {index : Nat}
    (apart : Revision.Apart around index) (o : Overrides m) (r : Revision) :
    o.visit index (around r) = (fun (r, blocks) => (around r, blocks)) <$> o.visit index r := by
  unfold visit
  rw [apart.find]
  cases r.find? index with
  | none => simp
  | some n =>
      obtain ⟨place, v, span, children⟩ := n
      cases v <;> simp only [map_pure]
      case codeBlock code => split <;> simp [apart.replace]
      case link target => split <;> simp [apart.replace]
      case image target => split <;> simp [apart.replace, apart.remove]

theorem visitAll_around {around : Revision → Revision} {places : List Nat}
    (apart : ∀ index ∈ places, Revision.Apart around index) (o : Overrides m) (r : Revision) :
    o.visitAll places (around r) =
      (fun (r, blocks) => (around r, blocks)) <$> o.visitAll places r := by
  induction places generalizing r with
  | nil => simp [visitAll]
  | cons index rest ih =>
      have first := visit_around (apart index List.mem_cons_self) o r
      have others := ih fun i member => apart i (List.mem_cons_of_mem index member)
      simp only [visitAll, first, bind_map_left, map_bind, others, bind_pure_comp,
        Functor.map_map]

theorem visitAll_append (o : Overrides m) (places others : List Nat) (r : Revision) :
    o.visitAll (places ++ others) r = (do
      let (r, blocks) ← o.visitAll places r
      let (r, more) ← o.visitAll others r
      return (r, blocks ++ more)) := by
  induction places generalizing r with
  | nil => simp [visitAll]
  | cons index rest ih => simp [visitAll, ih]

end Overrides

namespace Overrides

variable {m : Type → Type}

theorem cases_of_map {α β : Type} {rule : Option (RuleContext m → α)} {context : RuleContext m}
    {answer : Option β} {give : β → α}
    (gives : (rule.map fun rule => rule context) = answer.map give) :
    (rule = none ∧ answer = none) ∨
      ∃ f g, rule = some f ∧ answer = some g ∧ f context = give g := by
  cases rule with
  | none =>
      cases answer with
      | none => exact .inl ⟨rfl, rfl⟩
      | some g => cases gives
  | some f =>
      cases answer with
      | none => cases gives
      | some g => exact .inr ⟨f, g, rfl, rfl, Option.some.inj gives⟩

theorem answer_eq_none {α β : Type} {rule : Option (RuleContext m → α)} {context : RuleContext m}
    {answer : Option β} {give : β → α}
    (gives : (rule.map fun rule => rule context) = answer.map give) (none : rule = .none) :
    answer = .none := by
  rw [none] at gives
  exact Option.map_eq_none_iff.1 gives.symm

theorem ownBlocks_of_other {o : Overrides m} {a : Answers} {n : Node} (other : n.fenceToken? = none)
    (index : Nat) : o.ownBlocks a index n = [] := by
  unfold ownBlocks
  rw [other]
  cases a.fence <;> rfl

variable [Monad m]

/-- What a visit to the root of a subtree comes to: the nodes below it stand there as before, with
something around them that later visits do not touch. -/
structure Visited (o : Overrides m) (a : Answers) (index : Nat) (n : Node)
    (around : Revision → Revision) : Prop where
  visit : o.visit index ⟨[.ofNode index n], []⟩ =
    pure (around ⟨Placed.ofNodes (index + 1) n.children, []⟩, o.ownBlocks a index n)
  apart : ∀ i, index < i → Revision.Apart around i
  standing : ∀ r, Placed.toNodes (around r).standing =
    o.revisedNode a index n (Placed.toNodes r.standing)
  places : ∀ r, ∀ i ∈ Placed.placesAll ((around r).standing ++ (around r).removed),
    i = index ∨ i ∈ Placed.placesAll (r.standing ++ r.removed)

theorem find?_ofNode (index : Nat) (n : Node) :
    Revision.find? ⟨[.ofNode index n], []⟩ index = some (.ofNode index n) := by
  cases n
  simp [Revision.find?, Placed.findAmong?, Placed.ofNode, Placed.find?]

theorem replace_ofNode (index : Nat) (n : Node) (put : List Placed) :
    Revision.replace ⟨[.ofNode index n], []⟩ index put = ⟨put, []⟩ := by
  cases n
  simp [Revision.replace, Placed.replaceAmong, Placed.ofNode, Placed.replace]

/-- A node that stays, be it with another value. -/
theorem Visited.below {o : Overrides m} {a : Answers} {index : Nat} {n : Node} {v : Value}
    (visit : o.visit index ⟨[.ofNode index n], []⟩ =
      pure (⟨[.mk (some index) v n.span (Placed.ofNodes (index + 1) n.children)], []⟩,
        o.ownBlocks a index n))
    (revised : ∀ inner, o.revisedNode a index n inner = [.mk v n.span inner]) :
    Visited o a index n (Revision.below (some index) v n.span) := by
  refine ⟨visit, ?_, ?_, ?_⟩
  · intro i later
    exact Revision.apart_below (fun same => Nat.ne_of_lt later (Option.some.inj same)) v n.span
  · intro r
    rw [revised]
    rfl
  · intro r i member
    simp only [Revision.below, Placed.placesAll_append, Placed.placesAll, Placed.places,
      Option.toList_some, List.append_nil, List.mem_append, List.mem_singleton] at member ⊢
    rwa [or_assoc] at member

/-- A node that stays as it is. -/
theorem Visited.kept {o : Overrides m} {a : Answers} {index : Nat} {n : Node}
    (visit : o.visit index ⟨[.ofNode index n], []⟩ = pure (⟨[.ofNode index n], []⟩, []))
    (none : o.ownBlocks a index n = [])
    (revised : ∀ inner, o.revisedNode a index n inner = [.mk n.value n.span inner]) :
    Visited o a index n (Revision.below (some index) n.value n.span) := by
  refine .below ?_ revised
  rw [visit, none]
  cases n
  rfl

theorem Visited.among {o : Overrides m} {a : Answers} {index : Nat} {n : Node} {s : Text}
    (visit : o.visit index ⟨[.ofNode index n], []⟩ =
      pure (⟨.html s :: Placed.ofNodes (index + 1) n.children ++ [.html renderLinkClose], []⟩,
        o.ownBlocks a index n))
    (revised : ∀ inner, o.revisedNode a index n inner =
      .mk (.raw s) default [] :: inner ++ [.mk (.raw renderLinkClose) default []]) :
    Visited o a index n (Revision.among [.html s] [.html renderLinkClose] []) := by
  refine ⟨visit, ?_, ?_, ?_⟩
  · intro i _
    exact Revision.apart_among nofun nofun nofun
  · intro r
    rw [revised]
    simp only [Revision.among, Placed.toNodes_append]
    rfl
  · intro r i member
    simp only [Revision.among, Placed.placesAll_append, Placed.placesAll, Placed.places,
      Placed.html, Option.toList_none, List.nil_append, List.append_nil] at member
    rw [Placed.placesAll_append]
    exact .inr member

theorem Visited.outside {o : Overrides m} {a : Answers} {index : Nat} {n : Node} {s : Text}
    (visit : o.visit index ⟨[.ofNode index n], []⟩ =
      pure (⟨[.mk (some index) (.raw s) n.span []], Placed.ofNodes (index + 1) n.children⟩,
        o.ownBlocks a index n))
    (revised : ∀ inner, o.revisedNode a index n inner = [.mk (.raw s) n.span []]) :
    Visited o a index n (Revision.outside [.mk (some index) (.raw s) n.span []]) := by
  refine ⟨?_, ?_, ?_, ?_⟩
  · rw [visit, Revision.outside, List.append_nil]
  · intro i later
    refine Revision.apart_outside ?_
    simpa [Placed.placesAll, Placed.places] using Nat.ne_of_gt later
  · intro r
    rw [revised]
    rfl
  · intro r i member
    simpa [Revision.outside, Placed.placesAll_append, Placed.placesAll, Placed.places] using member

variable [LawfulMonad m]

theorem visited_codeBlock {o : Overrides m} {a : Answers} (gives : o.Gives a) (index : Nat)
    (code : CodeBlock) (span : Span) (children : List Node) :
    ∃ around, Visited o a index (.mk (.codeBlock code) span children) around := by
  have found := find?_ofNode index (.mk (.codeBlock code) span children)
  have put := replace_ofNode index (.mk (.codeBlock code) span children)
  rw [Placed.ofNode] at found put
  obtain ⟨fenced, info, literal⟩ := code
  cases fenced with
  | false =>
      refine ⟨_, .kept ?_ (ownBlocks_of_other rfl index) fun inner => rfl⟩
      rw [visit, Placed.ofNode, found]
  | true =>
      rcases cases_of_map gives.fence with ⟨rule, answer⟩ | ⟨f, g, rule, answer, given⟩
      · refine ⟨_, .kept ?_ ?_ ?_⟩
        · simp only [visit, Placed.ofNode, found, rule]
        · simp only [ownBlocks, answer]
        · intro inner
          simp only [revisedNode, answer]
          rfl
      · let id := blockId o.context.options.idPrefix index
        refine ⟨_, .below (v := .raw (g ⟨literal, info⟩ id).html) ?_ ?_⟩
        · simp only [visit, Placed.ofNode, found, rule, given, pure_bind, put, ownBlocks, answer]
          rfl
        · intro inner
          simp only [revisedNode, answer]
          rfl

theorem visited_link {o : Overrides m} {a : Answers} (gives : o.Gives a) (index : Nat)
    (target : Target) (span : Span) (children : List Node) :
    ∃ around, Visited o a index (.mk (.link target) span children) around := by
  have found := find?_ofNode index (.mk (.link target) span children)
  have put := replace_ofNode index (.mk (.link target) span children)
  have none : o.ownBlocks a index (.mk (.link target) span children) = [] :=
    ownBlocks_of_other rfl index
  rw [Placed.ofNode] at found put
  rcases cases_of_map gives.linkOpen with ⟨rule, answer⟩ | ⟨f, g, rule, answer, given⟩
  · refine ⟨_, .kept ?_ none ?_⟩
    · simp only [visit, Placed.ofNode, found, rule]
    · intro inner
      simp only [revisedNode, answer]
      rfl
  · refine ⟨_, .among (s := g ⟨target.url, target.title⟩) ?_ ?_⟩
    · simp only [visit, Placed.ofNode, found, rule, given, pure_bind, put, none]
      rfl
    · intro inner
      simp only [revisedNode, answer]

theorem visited_image {o : Overrides m} {a : Answers} (gives : o.Gives a) (index : Nat)
    (target : Target) (span : Span) (children : List Node) :
    ∃ around, Visited o a index (.mk (.image target) span children) around := by
  have found := find?_ofNode index (.mk (.image target) span children)
  have put := replace_ofNode index (.mk (.image target) span children)
  have forget := Placed.toNode_ofNode index (.mk (.image target) span children)
  have none : o.ownBlocks a index (.mk (.image target) span children) = [] :=
    ownBlocks_of_other rfl index
  rw [Placed.ofNode] at found put forget
  rcases cases_of_map gives.image with ⟨rule, answer⟩ | ⟨f, g, rule, answer, given⟩
  · refine ⟨_, .kept ?_ none ?_⟩
    · simp only [visit, Placed.ofNode, found, rule]
    · intro inner
      simp only [revisedNode, answer]
      rfl
  · let token := imageToken o.source o.starts (.mk (.image target) span children) target
    refine ⟨_, .outside (s := g (.image token)) ?_ ?_⟩
    · simp only [visit, Placed.ofNode, found, rule, given, pure_bind, put, forget, none]
      rfl
    · intro inner
      simp only [revisedNode, answer]
      rfl

theorem visited_ofNode {o : Overrides m} {a : Answers} (gives : o.Gives a) (index : Nat)
    (n : Node) : ∃ around, Visited o a index n around := by
  obtain ⟨v, span, children⟩ := n
  have found := find?_ofNode index (.mk v span children)
  cases v
  case codeBlock code => exact visited_codeBlock gives index code span children
  case link target => exact visited_link gives index target span children
  case image target => exact visited_image gives index target span children
  all_goals
    refine ⟨_, .kept ?_ (ownBlocks_of_other rfl index) fun inner => rfl⟩
    rw [visit, found]
    rfl

/-- The nodes where others were that are listed from `index` on, with no other places in use. -/
structure Settled (r : Revision) (index size : Nat) (nodes : List Node) : Prop where
  standing : Placed.toNodes r.standing = nodes
  places : ∀ i ∈ Placed.placesAll (r.standing ++ r.removed), index ≤ i ∧ i < index + size

mutual

theorem visitAll_ofNode {o : Overrides m} {a : Answers} (gives : o.Gives a) (index : Nat) :
    ∀ n : Node, ∃ r, o.visitAll (List.range' index n.size) ⟨[.ofNode index n], []⟩ =
        pure (r, o.blocksOf a index n.preorder) ∧
      Settled r index n.size (o.revised a index n)
  | .mk v span children => by
      obtain ⟨around, visited⟩ := visited_ofNode gives index (.mk v span children)
      obtain ⟨r, runs, settled⟩ := visitAll_ofNodes gives (index + 1) children
      have later : ∀ i ∈ List.range' (index + 1) (Node.sizeAll children),
          Revision.Apart around i := by
        intro i member
        exact visited.apart i (List.mem_range'_1.1 member).1
      have below := visitAll_around later o ⟨Placed.ofNodes (index + 1) children, []⟩
      refine ⟨around r, ?_, ?_, ?_⟩
      · rw [Node.size, List.range'_succ, visitAll, visited.visit]
        simp only [Node.children, pure_bind, below, runs, map_pure, Node.preorder, blocksOf_cons]
      · rw [visited.standing, settled.standing]
        rfl
      · intro i member
        rw [Node.size]
        rcases visited.places r i member with rfl | member
        · omega
        · have range := settled.places i member
          omega

theorem visitAll_ofNodes {o : Overrides m} {a : Answers} (gives : o.Gives a) (index : Nat) :
    ∀ ns : List Node, ∃ r,
      o.visitAll (List.range' index (Node.sizeAll ns)) ⟨Placed.ofNodes index ns, []⟩ =
        pure (r, o.blocksOf a index (Node.preorderAll ns)) ∧
      Settled r index (Node.sizeAll ns) (o.revisedAll a index ns)
  | [] => by
      refine ⟨⟨[], []⟩, ?_, rfl, nofun⟩
      rw [Node.preorderAll, blocksOf_nil]
      rfl
  | n :: rest => by
      obtain ⟨r, runs, settled⟩ := visitAll_ofNode gives index n
      obtain ⟨r', runs', settled'⟩ := visitAll_ofNodes gives (index + n.size) rest
      -- first the others are still there as they were, then they change behind what has settled
      let first := Revision.among [] (Placed.ofNodes (index + n.size) rest) []
      let second := Revision.among r.standing [] r.removed
      have apart : ∀ i ∈ List.range' index n.size, Revision.Apart first i := by
        intro i member
        refine Revision.apart_among nofun (fun other => ?_) nofun
        have range := Placed.mem_placesAll_ofNodes rest other
        have own := (List.mem_range'_1.1 member).2
        omega
      have apart' : ∀ i ∈ List.range' (index + n.size) (Node.sizeAll rest),
          Revision.Apart second i := by
        intro i member
        have own := (List.mem_range'_1.1 member).1
        refine Revision.apart_among (fun other => ?_) nofun (fun other => ?_)
        · have range := settled.places i (by simp [Placed.placesAll_append, other])
          omega
        · have range := settled.places i (by simp [Placed.placesAll_append, other])
          omega
      have begun : first ⟨[.ofNode index n], []⟩ = ⟨Placed.ofNodes index (n :: rest), []⟩ := rfl
      have between : first r = second ⟨Placed.ofNodes (index + n.size) rest, []⟩ := by
        simp [first, second, Revision.among]
      refine ⟨second r', ?_, ?_, ?_⟩
      · rw [Node.sizeAll, List.range'_append_1.symm, visitAll_append, ← begun,
          visitAll_around apart, runs]
        simp only [map_pure, pure_bind, between, visitAll_around apart', runs', Node.preorderAll,
          blocksOf_append, Node.length_preorder]
      · simp only [second, Revision.among, List.append_nil, Placed.toNodes_append, settled.standing,
          settled'.standing]
        rfl
      · intro i member
        rw [Node.sizeAll]
        have split : i ∈ Placed.placesAll (r.standing ++ r.removed) ∨
            i ∈ Placed.placesAll (r'.standing ++ r'.removed) := by
          simp only [second, Revision.among, Placed.placesAll_append, List.append_nil,
            List.mem_append] at member ⊢
          tauto
        rcases split with member | member
        · have range := settled.places i member
          omega
        · have range := settled'.places i member
          omega

end

/-- Nodes as one: in a document, unless there is one only. -/
def whole (span : Span) : List Node → Node
  | [n] => n
  | nodes => .mk .document span nodes

theorem apply_of_gives {o : Overrides m} {a : Answers} (gives : o.Gives a)
    (some : o.rules.isEmpty = false) (root : Node) :
    o.apply root = pure (whole root.span (o.revised a 0 root), o.blocksOf a 0 root.preorder) := by
  obtain ⟨r, runs, settled⟩ := visitAll_ofNode gives 0 root
  rw [← List.range_eq_range'] at runs
  unfold apply
  simp only [some, Bool.false_eq_true, if_false, Revision.ofNode, runs, pure_bind,
    settled.standing]
  cases o.revised a 0 root with
  | nil => rfl
  | cons n rest => cases rest <;> rfl

end Overrides

end LivePage
