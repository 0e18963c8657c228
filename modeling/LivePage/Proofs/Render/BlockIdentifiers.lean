import LivePage.Proofs.Render.Templates
import LivePage.Proofs.Render.Visits
import LivePage.Render.Processor

/-!
Identifiers of blocks. An identifier is a lead and the place of its fence in the document as it was
parsed. The lead ends with a hyphen and the place has digits only, so both can be read off it,
whatever the lead holds. The other rules change the document while its fences are visited, but
neither the places of the fences nor what they say of themselves.
-/

namespace LivePage

open Markdown

/-- The lead of identifiers as it counts: an empty one is none. -/
def effectiveLead : Option Text → Option Text
  | some [] => none
  | lead => lead

def blockFront (lead : Option Text) : Text :=
  match effectiveLead lead with
  | none => "code-block-".toList
  | some lead => lead ++ "-code-block-".toList

theorem blockId_eq (lead : Option Text) (index : Nat) :
    blockId lead index = blockFront lead ++ Text.ofNat index := by
  cases lead with
  | none => rfl
  | some lead => cases lead <;> rfl

theorem blockFront_hyphen (lead : Option Text) : ∃ s, blockFront lead = s ++ ['-'] := by
  unfold blockFront
  split
  · exact ⟨"code-block".toList, rfl⟩
  · next lead _ => exact ⟨lead ++ "-code-block".toList, by rw [List.append_assoc]; rfl⟩

theorem effectiveLead_of_blockFront {lead other : Option Text}
    (same : blockFront lead = blockFront other) : effectiveLead lead = effectiveLead other := by
  have longer (s : Text) : "code-block-".toList ≠ s ++ "-code-block-".toList := fun same => by
    have lengths := congrArg List.length same
    rw [List.length_append, show "code-block-".toList.length = 11 from rfl,
      show "-code-block-".toList.length = 12 from rfl] at lengths
    omega
  unfold blockFront at same
  cases first : effectiveLead lead <;> cases second : effectiveLead other <;>
    rw [first, second] at same
  · exact absurd same (longer _)
  · exact absurd same.symm (longer _)
  · exact congrArg some (List.append_cancel_right same)

/-- Identifiers are the same only if lead and place are. -/
theorem blockId_inj {lead other : Option Text} {i j : Nat}
    (same : blockId lead i = blockId other j) :
    effectiveLead lead = effectiveLead other ∧ i = j := by
  have place (lead : Option Text) (i : Nat) :
      (blockId lead i).reverse.takeWhile Char.isDigit = (Text.ofNat i).reverse := by
    obtain ⟨s, front⟩ := blockFront_hyphen lead
    have digits : ∀ c ∈ (Text.ofNat i).reverse, c.isDigit = true := fun c member =>
      isDigit_ofNat (List.mem_reverse.1 member)
    rw [blockId_eq, front, List.reverse_append, List.reverse_append,
      List.takeWhile_append_of_pos digits, List.reverse_singleton, List.singleton_append,
      List.takeWhile_cons_of_neg (by decide), List.append_nil]
  have digits : Text.ofNat i = Text.ofNat j := by
    rw [← List.reverse_inj, ← place lead, same, place other]
  have value (n : Nat) : Nat.ofDigitChars 10 (Text.ofNat n) 0 = n :=
    Nat.ofDigitChars_toDigits (by decide) (by decide)
  refine ⟨effectiveLead_of_blockFront ?_, by rw [← value i, digits, value j]⟩
  rw [blockId_eq, blockId_eq, digits] at same
  exact List.append_cancel_right same

def fenceKind (options : Options) (token : FenceToken) : BlockKind :=
  if isChartFence options token then .chart else .code (fenceLanguage token)

/-- The fences of a document with their places in its preorder. -/
def fencePlaces (root : Node) : List (Nat × FenceToken) :=
  root.preorder.zipIdx.filterMap fun (n, i) => n.fenceToken?.map fun token => (i, token)

theorem fencePlaces_increasing (root : Node) :
    (fencePlaces root).Pairwise fun f g => f.1 < g.1 := by
  have places : (root.preorder.zipIdx.map Prod.snd).Pairwise (· < ·) := by
    rw [List.zipIdx_map_snd]
    exact List.pairwise_lt_range'
  refine List.pairwise_filterMap.2 ((List.pairwise_map.1 places).imp ?_)
  intro p q before f made g made'
  obtain ⟨_, _, rfl⟩ := Option.map_eq_some_iff.1 made
  obtain ⟨_, _, rfl⟩ := Option.map_eq_some_iff.1 made'
  exact before

/-- The identifiers and kinds of the blocks of a document, from its first fence on. -/
def blockTags (options : Options) (root : Node) : List (Text × BlockKind) :=
  (fencePlaces root).map fun f => (blockId options.idPrefix f.1, fenceKind options f.2)

theorem nodup_blockTags (options : Options) (root : Node) :
    ((blockTags options root).map (·.1)).Nodup := by
  rw [blockTags, List.map_map, List.nodup_iff_pairwise_ne, List.pairwise_map]
  refine (fencePlaces_increasing root).imp fun before same => ?_
  exact Nat.ne_of_lt before (blockId_inj same).2

variable {ε : Type}

theorem renderFence_ok {ctx : RuleContext (Except ε)} {token : FenceToken} {id : Text} {b : Block}
    (made : renderFence ctx token id = .ok b) :
    b.id = id ∧ b.kind = fenceKind ctx.options token := by
  have done {html : Except ε Text} {kind : BlockKind}
      (made : (do return (⟨id, kind, ← html⟩ : Block)) = .ok b) : b.id = id ∧ b.kind = kind := by
    cases html with
    | error e => cases made
    | ok html =>
        cases made
        exact ⟨rfl, rfl⟩
  unfold renderFence at made
  dsimp only at made
  rw [fenceKind, isChartFence]
  split at made
  · next chart =>
      rw [if_pos chart]
      exact done made
  · next other =>
      rw [if_neg other]
      exact done made

namespace Overrides

/-- What a computation gives, or something else if it breaks off. -/
def settle {α : Type} (x : Except ε α) (otherwise : α) : α :=
  match x with
  | .ok a => a
  | .error _ => otherwise

theorem settle_of_bind {α β : Type} {x : Except ε α} {f : α → β} {b : β} (otherwise : α)
    (done : (do return f (← x)) = Except.ok b) : f (settle x otherwise) = b := by
  cases x with
  | error e => cases done
  | ok a =>
      cases done
      rfl

/-- The answers of rules that may break off. In place of a block that was not made stands an empty
one of its fence. -/
def plainAnswers (o : Overrides (Except ε)) : Answers where
  fence := o.rules.fence.map fun rule token id =>
    settle (rule o.context token id) ⟨id, fenceKind o.context.options token, []⟩
  linkOpen := o.rules.linkOpen.map fun rule token => settle (rule o.context token) []
  image := o.rules.image.map fun rule token => settle (rule o.context token) []

/-- The rules as functions that always come to an end. -/
def plain (o : Overrides (Except ε)) : Overrides Id where
  rules := {
    fence := o.plainAnswers.fence.map fun answer _ token id => answer token id
    linkOpen := o.plainAnswers.linkOpen.map fun answer _ token => answer token
    image := o.plainAnswers.image.map fun answer _ token => answer token }
  context := ⟨.html, o.context.options, none⟩
  source := o.source
  starts := o.starts

theorem gives_plain (o : Overrides (Except ε)) : o.plain.Gives o.plainAnswers := by
  constructor <;> simp only [plain, Option.map_map] <;> rfl

theorem visit_plain {o : Overrides (Except ε)} {index : Nat} {r : Revision}
    {x : Revision × List Block} (done : o.visit index r = .ok x) : o.plain.visit index r = x := by
  unfold visit at done ⊢
  cases found : r.find? index with
  | none =>
      rw [found] at done
      cases done
      rfl
  | some n =>
      obtain ⟨place, v, span, children⟩ := n
      rw [found] at done
      cases v
      case codeBlock code =>
          obtain ⟨fenced, info, literal⟩ := code
          cases fenced with
          | false => cases done; rfl
          | true =>
              cases rule : o.rules.fence <;> simp only [rule] at done <;>
                simp only [plain, plainAnswers, rule]
              · cases done; rfl
              · exact settle_of_bind _ done
      case link target =>
          cases rule : o.rules.linkOpen <;> simp only [rule] at done <;>
            simp only [plain, plainAnswers, rule]
          · cases done; rfl
          · exact settle_of_bind _ done
      case image target =>
          cases rule : o.rules.image <;> simp only [rule] at done <;>
            simp only [plain, plainAnswers, rule]
          · cases done; rfl
          · exact settle_of_bind _ done
      all_goals cases done; rfl

theorem visitAll_plain {o : Overrides (Except ε)} {places : List Nat} {r : Revision}
    {x : Revision × List Block} (done : o.visitAll places r = .ok x) :
    o.plain.visitAll places r = x := by
  induction places generalizing r x with
  | nil => cases done; rfl
  | cons index rest ih =>
      rw [visitAll] at done
      cases first : o.visit index r with
      | error e => rw [first] at done; cases done
      | ok y =>
          obtain ⟨r', blocks⟩ := y
          cases others : o.visitAll rest r' with
          | error e => simp only [first, bind, Except.bind, others] at done; cases done
          | ok z =>
              simp only [first, bind, Except.bind, others] at done
              cases done
              rw [visitAll, visit_plain first]
              have run : o.plain.visitAll rest r' = z := ih others
              exact congrArg (fun x : Revision × List Block => (x.1, blocks ++ x.2)) run

/-- The blocks are those of the fences of the document in their order, each under its place there
and of the kind that its own label tells. -/
theorem blocks_of_apply {o : Overrides (Except ε)} (builtin : o.rules.fence = some renderFence)
    {root tree : Node} {blocks : List Block} (done : o.apply root = .ok (tree, blocks)) :
    blocks.map (fun b => (b.id, b.kind)) = blockTags o.context.options root := by
  have ruled : o.rules.isEmpty = false := by
    rw [Rules.isEmpty, builtin]
    rfl
  obtain ⟨r, visited⟩ : ∃ r, o.visitAll (List.range root.size) (.ofNode root) = .ok (r, blocks) := by
    unfold apply at done
    simp only [ruled, Bool.false_eq_true, if_false] at done
    cases visits : o.visitAll (List.range root.size) (.ofNode root) with
    | error e => rw [visits] at done; cases done
    | ok x =>
        obtain ⟨r, blocks'⟩ := x
        refine ⟨r, ?_⟩
        simp only [visits, bind, Except.bind] at done
        split at done <;> cases done <;> rfl
  obtain ⟨r', runs, -⟩ := visitAll_ofNode o.gives_plain 0 root
  have same : (r, blocks) = (r', o.plain.blocksOf o.plainAnswers 0 root.preorder) := by
    rw [← visitAll_plain visited, List.range_eq_range']
    exact runs
  obtain ⟨_, rfl⟩ := Prod.mk.inj same
  have made (token : FenceToken) (id : Text) :
      let b := settle (renderFence o.context token id) ⟨id, fenceKind o.context.options token, []⟩
      b.id = id ∧ b.kind = fenceKind o.context.options token := by
    cases answer : renderFence o.context token id with
    | error e => exact ⟨rfl, rfl⟩
    | ok b => exact renderFence_ok answer
  simp only [blocksOf, plainAnswers, builtin, Option.map_some, blockTags, fencePlaces, List.map_filterMap,
    Option.map_map]
  refine List.filterMap_congr fun x _ => Option.map_congr fun token _ => ?_
  exact Prod.ext (made token _).1 (made token _).2

end Overrides

namespace Processor

variable {m : Type → Type}

def document (p : Processor m) (markdown : Text) : Node :=
  let source := Text.normalizeBreaks markdown
  p.styled source (parse p.options.parseOptions source)

/-- The blocks of a render are those of the fences of its document, in their order and with their
places in the preorder of the document, which increase. -/
structure Lists (p : Processor m) (markdown : Text) (r : Rendered) : Prop where
  tags : r.blocks.map (fun b => (b.id, b.kind)) =
    if markdown.isEmpty then [] else blockTags p.options (p.document markdown)
  increasing : (fencePlaces (p.document markdown)).Pairwise fun f g => f.1 < g.1

theorem Lists.of_render {p : Processor (Except ε)} (builtin : p.rules.fence = some renderFence)
    {markdown : Text} {r : Rendered} (done : p.render markdown = .ok r) : p.Lists markdown r := by
  refine ⟨?_, fencePlaces_increasing _⟩
  unfold render at done
  split at done
  · next empty =>
      cases done
      rw [if_pos empty]
      rfl
  · next present =>
      rw [if_neg present]
      dsimp only at done
      cases applied : p.applyRules (Text.normalizeBreaks markdown) (p.document markdown) with
      | error e =>
          rw [document] at applied
          rw [applied] at done
          cases done
      | ok x =>
          obtain ⟨tree, blocks⟩ := x
          have tags := Overrides.blocks_of_apply builtin applied
          rw [document] at applied
          rw [applied] at done
          cases done
          exact tags

theorem Lists.nodup {p : Processor m} {markdown : Text} {r : Rendered} (h : p.Lists markdown r) :
    (r.blocks.map (·.id)).Nodup := by
  have ids : r.blocks.map (·.id) = (r.blocks.map fun b => (b.id, b.kind)).map (·.1) := by
    rw [List.map_map]
    rfl
  rw [ids, h.tags]
  split
  · exact .nil
  · exact nodup_blockTags ..

theorem Lists.lead {p : Processor m} {markdown : Text} {r : Rendered} (h : p.Lists markdown r)
    {b : Block} (member : b ∈ r.blocks) : ∃ i, b.id = blockId p.options.idPrefix i := by
  have listed : (b.id, b.kind) ∈ r.blocks.map fun b => (b.id, b.kind) := List.mem_map_of_mem member
  rw [h.tags] at listed
  split at listed
  · cases listed
  · obtain ⟨f, _, same⟩ := List.mem_map.1 listed
    exact ⟨f.1, (congrArg Prod.fst same).symm⟩

theorem nodup_of_lists {renders : List (Processor m × Text)} {results : List Rendered}
    (leads : renders.Pairwise fun p q =>
      effectiveLead p.1.options.idPrefix ≠ effectiveLead q.1.options.idPrefix)
    (lists : List.Forall₂ (fun p r => p.1.Lists p.2 r) renders results) :
    ((results.flatMap (·.blocks)).map (·.id)).Nodup := by
  induction lists with
  | nil => exact .nil
  | @cons p r renders results first others ih =>
      rw [List.pairwise_cons] at leads
      rw [List.flatMap_cons, List.map_append]
      refine List.nodup_append.2 ⟨first.nodup, ih leads.2, ?_⟩
      intro id own other later same
      obtain ⟨b, member, rfl⟩ := List.mem_map.1 own
      obtain ⟨c, member', rfl⟩ := List.mem_map.1 later
      obtain ⟨r', listed, member'⟩ := List.mem_flatMap.1 member'
      obtain ⟨k, low, rfl⟩ := List.getElem_of_mem listed
      have present : k < renders.length := others.length_eq ▸ low
      obtain ⟨i, shown⟩ := first.lead member
      obtain ⟨j, shown'⟩ := (others.get present low).lead member'
      exact leads.1 _ (List.get_mem ..) (blockId_inj (shown.symm.trans (same.trans shown'))).1

end Processor

/-- Renders with different leads have no identifier twice, among them or in one. In each the blocks
come in the order of the fences of its document. And for a document they do not depend on anything
but the lead and the language of charts: not on the rules for links and images, nor on how texts are
escaped. -/
theorem block_identifiers_apart {renders : List (Processor (Except Interruption) × Text)}
    {results : List Rendered} (builtin : ∀ p ∈ renders, p.1.rules.fence = some renderFence)
    (leads : renders.Pairwise fun p q =>
      effectiveLead p.1.options.idPrefix ≠ effectiveLead q.1.options.idPrefix)
    (done : List.Forall₂ (fun p r => p.1.render p.2 = .ok r) renders results) :
    ((results.flatMap (·.blocks)).map (·.id)).Nodup ∧
      List.Forall₂ (fun p r => p.1.Lists p.2 r) renders results ∧
      ∀ (p q : Processor (Except Interruption)) (source source' : Text) (root tree tree' : Node)
        (blocks blocks' : List Block), p.rules.fence = some renderFence →
        q.rules.fence = some renderFence → p.options.idPrefix = q.options.idPrefix →
        p.options.chartLanguage = q.options.chartLanguage →
        p.applyRules source root = .ok (tree, blocks) →
        q.applyRules source' root = .ok (tree', blocks') →
        blocks.map (fun b => (b.id, b.kind)) = blocks'.map fun b => (b.id, b.kind) := by
  have lists : List.Forall₂ (fun p r => p.1.Lists p.2 r) renders results := by
    refine List.forall₂_iff_get.2 ⟨done.length_eq, fun i low low' => ?_⟩
    exact .of_render (builtin _ (List.get_mem ..)) (done.get low low')
  refine ⟨Processor.nodup_of_lists leads lists, lists, ?_⟩
  intro p q source source' root tree tree' blocks blocks' ruled ruled' lead language applied applied'
  have kinds (token : FenceToken) : fenceKind p.options token = fenceKind q.options token := by
    rw [fenceKind, fenceKind, isChartFence, isChartFence, language]
  rw [Overrides.blocks_of_apply ruled applied, Overrides.blocks_of_apply ruled' applied']
  simp only [Processor.context, blockTags, lead, kinds]

/-- One lead looks like an identifier under the other. -/
theorem block_identifiers_apart_lookalike :
    let p : Processor (Except Interruption) := .ofOptions { idPrefix := some "x".toList }
    let q : Processor (Except Interruption) :=
      .ofOptions { idPrefix := some "x-code-block-1".toList }
    let markdown : Text := "```\na\n```\n"
    ∃ r s, p.render markdown = .ok r ∧ q.render markdown = .ok s ∧
      (([r, s].flatMap (·.blocks)).map (·.id)).Nodup ∧
      r.blocks.map (·.id) = ["x-code-block-1".toList] ∧
      s.blocks.map (·.id) = ["x-code-block-1-code-block-1".toList] := by
  intro p q markdown
  have shown (p : Processor (Except Interruption)) (ids : List Text)
      (made : (p.render markdown).toOption.map (fun r => r.blocks.map (·.id)) = some ids) :
      ∃ r, p.render markdown = .ok r ∧ r.blocks.map (·.id) = ids := by
    cases done : p.render markdown with
    | error e => rw [done] at made; cases made
    | ok r => rw [done] at made; exact ⟨r, rfl, Option.some.inj made⟩
  obtain ⟨r, first, ids⟩ := shown p ["x-code-block-1".toList] (by decide +kernel)
  obtain ⟨s, second, ids'⟩ := shown q ["x-code-block-1-code-block-1".toList] (by decide +kernel)
  have leads : [(p, markdown), (q, markdown)].Pairwise fun p q =>
      effectiveLead p.1.options.idPrefix ≠ effectiveLead q.1.options.idPrefix := by
    simp [p, q, Processor.ofOptions, effectiveLead]
  have builtin : ∀ x ∈ [(p, markdown), (q, markdown)], x.1.rules.fence = some renderFence := by
    simp [p, q, Processor.ofOptions, Rules.builtin]
  have apart := block_identifiers_apart builtin leads (.cons first (.cons second .nil))
  exact ⟨r, s, first, second, apart.1, ids, ids'⟩

end LivePage
