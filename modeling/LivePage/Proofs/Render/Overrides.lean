import LivePage.Proofs.Render.Visits

/-!
Applying the rules keeps what a document means. However documents are written, the changed document
is written as the rules and the writer of the original one ask for, node by node; and the blocks are
those of the fences of the original document.
-/

namespace LivePage
open Markdown

/-- A way of writing documents that makes the text of a node from its value and the text of what is
below it, and writes finished HTML as it is. -/
structure Formatter where
  write : Value → Text → Text
  raw : ∀ s, write (.raw s) [] = s

namespace Formatter

mutual

def html (f : Formatter) : Node → Text
  | .mk v _ children => f.write v (f.htmlAll children)

def htmlAll (f : Formatter) : List Node → Text
  | [] => []
  | n :: rest => f.html n ++ f.htmlAll rest

end

theorem htmlAll_append (f : Formatter) (ns others : List Node) :
    f.htmlAll (ns ++ others) = f.htmlAll ns ++ f.htmlAll others := by
  induction ns with
  | nil => rfl
  | cons n ns ih => rw [List.cons_append, htmlAll, htmlAll, ih, List.append_assoc]

theorem htmlAll_singleton (f : Formatter) (v : Value) (span : Span) (ns : List Node) :
    f.htmlAll [.mk v span ns] = f.write v (f.htmlAll ns) := by
  rw [htmlAll, htmlAll, html, List.append_nil]

theorem htmlAll_raw (f : Formatter) (s : Text) (span : Span) :
    f.htmlAll [.mk (.raw s) span []] = s := by
  rw [htmlAll_singleton, htmlAll, f.raw]

end Formatter

namespace Overrides

variable {m : Type → Type}

mutual

/-- The text of the node at `index` of a document: that of the rule for it, with the content of a
link between its tags, and else that of the formatter. -/
def composed (o : Overrides m) (a : Answers) (f : Formatter) (index : Nat) : Node → Text
  | .mk v span children =>
      let inner := o.composedAll a f (index + 1) children
      match v with
      | .codeBlock code =>
          match code.fenced, a.fence with
          | true, some answer =>
              (answer ⟨code.literal, code.info⟩ (blockId o.context.options.idPrefix index)).html
          | _, _ => f.write v inner
      | .link target =>
          match a.linkOpen with
          | some answer => answer ⟨target.url, target.title⟩ ++ inner ++ "</a>".toList
          | none => f.write v inner
      | .image target =>
          match a.image with
          | some answer =>
              answer (.image (imageToken o.source o.starts (.mk v span children) target))
          | none => f.write v inner
      | v => f.write v inner

def composedAll (o : Overrides m) (a : Answers) (f : Formatter) (index : Nat) : List Node → Text
  | [] => []
  | n :: rest => o.composed a f index n ++ o.composedAll a f (index + n.size) rest

end

/-- Nodes whose fences have nothing below them. -/
def FencesAreLeaves (ns : List Node) : Prop := ∀ n ∈ ns, n.fenceToken?.isSome → n.children = []

mutual

theorem htmlAll_revised (o : Overrides m) (a : Answers) (f : Formatter) (index : Nat) :
    ∀ n : Node, FencesAreLeaves n.preorder →
      f.htmlAll (o.revised a index n) = o.composed a f index n
  | .mk v span children, leaves => by
      have inner := htmlAll_revisedAll o a f (index + 1) children fun n member =>
        leaves n (List.mem_cons_of_mem _ member)
      have kept : f.htmlAll [.mk v span (o.revisedAll a (index + 1) children)] =
          f.write v (o.composedAll a f (index + 1) children) := by
        rw [Formatter.htmlAll_singleton, inner]
      cases v
      case codeBlock code =>
          obtain ⟨fenced, info, literal⟩ := code
          rw [revised, composed]
          cases fenced with
          | false => exact kept
          | true =>
              cases rule : a.fence with
              | none => simp only [revisedNode, rule, kept]
              | some answer =>
                  have leaf : children = [] := leaves _ List.mem_cons_self rfl
                  subst leaf
                  simp only [revisedNode, rule]
                  exact f.htmlAll_raw _ span
      case link target =>
          rw [revised, composed]
          cases rule : a.linkOpen with
          | none => simp only [revisedNode, rule, kept]
          | some answer =>
              have first := f.htmlAll_raw (answer ⟨target.url, target.title⟩) default
              have last := f.htmlAll_raw renderLinkClose default
              simp only [revisedNode, rule]
              rw [← List.singleton_append, f.htmlAll_append, f.htmlAll_append, first, inner, last]
              rfl
      case image target =>
          rw [revised, composed]
          cases rule : a.image with
          | none => simp only [revisedNode, rule, kept]
          | some answer =>
              simp only [revisedNode, rule]
              exact f.htmlAll_raw _ span
      all_goals exact kept

theorem htmlAll_revisedAll (o : Overrides m) (a : Answers) (f : Formatter) (index : Nat) :
    ∀ ns : List Node, FencesAreLeaves (Node.preorderAll ns) →
      f.htmlAll (o.revisedAll a index ns) = o.composedAll a f index ns
  | [], _ => rfl
  | n :: rest, leaves => by
      have first := htmlAll_revised o a f index n fun n member =>
        leaves n (List.mem_append_left _ member)
      have others := htmlAll_revisedAll o a f (index + n.size) rest fun n member =>
        leaves n (List.mem_append_right _ member)
      rw [revisedAll, composedAll, f.htmlAll_append, first, others]

end

theorem revisedNode_of_none (o : Overrides m) {a : Answers} (fence : a.fence = none)
    (linkOpen : a.linkOpen = none) (image : a.image = none) (index : Nat) (n : Node)
    (inner : List Node) : o.revisedNode a index n inner = [.mk n.value n.span inner] := by
  obtain ⟨v, span, children⟩ := n
  cases v
  case codeBlock code => cases shown : code.fenced <;> simp only [revisedNode, fence, shown] <;> rfl
  case link target => simp only [revisedNode, linkOpen]; rfl
  case image target => simp only [revisedNode, image]; rfl
  all_goals rfl

mutual

theorem revised_of_none (o : Overrides m) {a : Answers} (fence : a.fence = none)
    (linkOpen : a.linkOpen = none) (image : a.image = none) (index : Nat) :
    ∀ n : Node, o.revised a index n = [n]
  | .mk v span children => by
      rw [revised, revisedNode_of_none o fence linkOpen image,
        revisedAll_of_none o fence linkOpen image (index + 1) children]
      rfl

theorem revisedAll_of_none (o : Overrides m) {a : Answers} (fence : a.fence = none)
    (linkOpen : a.linkOpen = none) (image : a.image = none) (index : Nat) :
    ∀ ns : List Node, o.revisedAll a index ns = ns
  | [] => rfl
  | n :: rest => by
      rw [revisedAll, revised_of_none o fence linkOpen image index n,
        revisedAll_of_none o fence linkOpen image (index + n.size) rest, List.singleton_append]

end

/-- Applying the rules to a document gives one that is written as what it means, by any formatter,
and the blocks of its fences in their order. -/
theorem apply_preserves [Monad m] [LawfulMonad m] {o : Overrides m} {a : Answers}
    (gives : o.Gives a) {root : Node} (document : root.value = .document)
    (leaves : FencesAreLeaves root.preorder) :
    ∃ tree, o.apply root = pure (tree, o.blocksOf a 0 root.preorder) ∧
      ∀ f : Formatter, f.html tree = o.composed a f 0 root := by
  obtain ⟨v, span, children⟩ := root
  cases document
  -- the document itself stays, with what its children have become
  have shape : o.revised a 0 (.mk .document span children) =
      [.mk .document span (o.revisedAll a 1 children)] := rfl
  have written (f : Formatter) : f.html (.mk .document span (o.revisedAll a 1 children)) =
      o.composed a f 0 (.mk .document span children) := by
    have text := htmlAll_revised o a f 0 _ leaves
    rw [shape, Formatter.htmlAll, Formatter.htmlAll, List.append_nil] at text
    exact text
  refine ⟨_, ?_, written⟩
  unfold apply
  cases empty : o.rules.isEmpty with
  | true =>
      simp only [Rules.isEmpty, Bool.and_eq_true, Option.isNone_iff_eq_none] at empty
      obtain ⟨⟨fence, linkOpen⟩, image⟩ := empty
      have fence := answer_eq_none gives.fence fence
      have linkOpen := answer_eq_none gives.linkOpen linkOpen
      have image := answer_eq_none gives.image image
      simp only [if_true, revisedAll_of_none o fence linkOpen image, blocksOf, fence]
  | false =>
      obtain ⟨r, runs, settled⟩ := visitAll_ofNode gives 0 (.mk .document span children)
      have standing := settled.standing.trans shape
      rw [← List.range_eq_range'] at runs
      simp only [Bool.false_eq_true, if_false, Revision.ofNode, runs, pure_bind, standing]

/-- The answers of rules that are plain functions. -/
def answers (o : Overrides Id) : Answers :=
  ⟨o.rules.fence.map fun rule => rule o.context, o.rules.linkOpen.map fun rule => rule o.context,
    o.rules.image.map fun rule => rule o.context⟩

theorem gives_answers (o : Overrides Id) : o.Gives o.answers := by
  constructor <;> simp only [answers, Option.map_map] <;> rfl

/-- An image in a link, with another link in its description, and a fence behind: the nodes in the
description are counted, but leave nothing. -/
theorem apply_preserves_nested :
    let o : Overrides Id := ⟨.builtin, ⟨.html, {}, none⟩, [], [0]⟩
    let text : Node := .mk (.text "b") default []
    let inner : Node := .mk (.link ⟨"u", []⟩) default [text]
    let image : Node := .mk (.image ⟨"i.png", []⟩) default [inner]
    let fence : Node := .mk (.codeBlock ⟨true, "rs", "x"⟩) default []
    let root : Node := .mk .document default [.mk (.link ⟨"v", []⟩) default [image], fence]
    let f : Formatter := ⟨fun v s => match v with | .raw html => html | _ => s, fun _ => rfl⟩
    ∃ tree, o.apply root = (tree, o.blocksOf o.answers 0 root.preorder) ∧
      (o.blocksOf o.answers 0 root.preorder).map (·.id) = ["code-block-5".toList] ∧
      Text.startsWith (f.html tree)
        ("<a href=\"v\" target=\"_blank\" rel=\"noopener noreferrer\">".toList
          ++ "<span class=\"markdown-image-wrapper\"><img src=\"i.png\" alt=\"b\"".toList) := by
  intro o text inner image fence root f
  have document : root.value = .document := rfl
  have leaves : FencesAreLeaves root.preorder := by
    unfold FencesAreLeaves
    simp [root, fence, image, inner, text, Node.preorder, Node.preorderAll, Node.fenceToken?,
      Node.value, Node.children]
  obtain ⟨tree, applied, written⟩ := apply_preserves (gives_answers o) document leaves
  refine ⟨tree, applied, by decide +kernel, ?_⟩
  rw [written f]
  decide +kernel

end Overrides
end LivePage
