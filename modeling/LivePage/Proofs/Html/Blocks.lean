import LivePage.Proofs.Html.Running

/-!
Blocks around running text. Where all that a block holds has got its end tags, the end tag of the
block leads back to the state before it; so blocks nest as they are written.
-/

namespace LivePage.Html

namespace Builder

variable {c : Text} {r : Region} {b : Builder}

def flowElements : List Text := ["blockquote", "div", "ul", "ol", "li", "section"]

/-- A place for blocks: in the body, inside elements that hold blocks. -/
structure Region.Flow (r : Region) : Prop where
  mode : r.mode = .inBody
  past : r.past = []
  base : ∃ outer, r.base = outer ++ [bodyElement, rootElement] ∧
    ∀ q ∈ outer, named flowElements q.name = true

def Region.within (r : Region) (q : Opened) : Region := { r with base := q :: r.base }

def topRegion : Region := ⟨.inBody, [bodyElement, rootElement], []⟩

theorem topRegion_flow : topRegion.Flow := ⟨rfl, rfl, [], rfl, List.forall_mem_nil _⟩

theorem isSpecial_of_mem {name : Text} (known : name ∈ specialBlocks) :
    isSpecial ⟨.html, name⟩ = true := by
  rw [isSpecial, named, Bool.and_eq_true, List.contains_iff_mem]
  exact ⟨rfl, specialNames_facts.1 name known⟩

namespace Region.Flow

theorem rooted (flow : r.Flow) : [bodyElement, rootElement] <:+ r.base := by
  obtain ⟨outer, base, _⟩ := flow.base
  exact ⟨outer, base.symm⟩

theorem within (flow : r.Flow) (id : NodeId) {name : Text} (known : name ∈ flowElements) :
    (r.within ⟨id, ⟨.html, name⟩⟩).Flow := by
  obtain ⟨outer, base, flows⟩ := flow.base
  refine ⟨flow.mode, flow.past, ⟨id, ⟨.html, name⟩⟩ :: outer, congrArg (_ :: ·) base, ?_⟩
  refine List.forall_mem_cons.2 ⟨?_, flows⟩
  rw [named, Bool.and_eq_true, List.contains_iff_mem]
  exact ⟨rfl, known⟩

theorem fine_within (flow : r.Flow) (id : NodeId) {name : Text} (special : name ∈ specialBlocks) :
    (r.within ⟨id, ⟨.html, name⟩⟩).Fine :=
  ⟨.inl flow.mode, ⟨_, _, rfl, isSpecial_of_mem special⟩, flow.rooted.trans (List.suffix_cons ..),
    .inl flow.past⟩

theorem fine (flow : r.Flow) : r.Fine := by
  obtain ⟨outer, base, flows⟩ := flow.base
  have special : ∀ name ∈ flowElements, name ∈ specialBlocks := by decide
  refine ⟨.inl flow.mode, ?_, flow.rooted, .inl flow.past⟩
  cases outer with
  | nil => exact ⟨bodyElement, _, base, isSpecial_of_mem (by decide)⟩
  | cons o outer =>
      have known := flows o List.mem_cons_self
      refine ⟨o, _, base, ?_⟩
      rw [named, Bool.and_eq_true, List.contains_iff_mem] at known
      rw [isSpecial, named, Bool.and_eq_true, List.contains_iff_mem]
      exact ⟨known.1, specialNames_facts.1 _ (special _ known.2)⟩

theorem not_open (flow : r.Flow) {name : Text}
    (other : name ∉ "body".toList :: "html".toList :: flowElements) :
    ∀ q ∈ r.base, withName name q.name = false := by
  obtain ⟨outer, base, flows⟩ := flow.base
  intro q member
  rw [withName, Bool.and_eq_false_iff]
  refine .inr (decide_eq_false ?_)
  rintro rfl
  rw [List.mem_cons, List.mem_cons, not_or, not_or] at other
  rw [base, List.mem_append, List.mem_cons, List.mem_singleton] at member
  rcases member with outer | rfl | rfl
  · have known := flows q outer
    rw [named, Bool.and_eq_true, List.contains_iff_mem] at known
    exact other.2.2 known.2
  · exact other.1 rfl
  · exact other.2.1 rfl

end Region.Flow

/-- The state with nothing open that belongs to running text. -/
def Rest (c : Text) (r : Region) : Builder → Prop := Phrase c r fun _ => 0

theorem Rest.inPhrase (h : Rest c r b) : b.InPhrase c r [] [] := by
  obtain ⟨inner, own, h, none⟩ := h
  have ownNil : own = [] := by
    refine List.eq_nil_iff_forall_not_mem.2 fun f member => ?_
    obtain ⟨id, tag, rfl, _⟩ := h.entries f member
    have counts : 0 < inForce own tag.name :=
      List.countP_pos_iff.2 ⟨_, member, decide_eq_true rfl⟩
    have bounded : weight inner own tag.name ≤ 0 := none tag.name
    rw [weight] at bounded
    omega
  subst ownNil
  have innerNil : inner = [] := by
    refine List.eq_nil_iff_forall_not_mem.2 fun q member => ?_
    have counts : 0 < inner.countP (strays [] q.name.name) :=
      List.countP_pos_iff.2 ⟨q, member, by simp [strays]⟩
    have bounded : weight inner [] q.name.name ≤ 0 := none q.name.name
    rw [weight] at bounded
    omega
  rwa [innerNil] at h

theorem InPhrase.rest (h : b.InPhrase c r [] []) : Rest c r b :=
  ⟨[], [], h, fun _ => Nat.le_refl 0⟩

section Open

variable (h : b.InPhrase c r [] [])
include h

theorem InPhrase.inScopeNamed (flow : r.Flow) (name : Text)
    (other : name ∉ "body".toList :: "html".toList :: flowElements) (bounds : ElementClass) :
    b.inScopeNamed bounds name = false := by
  refine scopeHolds_of_forall fun q member => ?_
  rw [h.opened] at member
  exact flow.not_open other q member

theorem InPhrase.closeParagraph (flow : r.Flow) : b.closeParagraph = b := by
  rw [Builder.closeParagraph, h.inScopeNamed flow _ (by decide)]
  rfl

theorem InPhrase.reconstruct (flow : r.Flow) : b.reconstruct = b := by
  rw [Builder.reconstruct, h.formatting, flow.past]
  rfl

theorem InPhrase.insertTag {tag : Tag} (ordinary : tag.name ≠ "template".toList) :
    ∃ id, (b.insertTag tag).InPhrase c (r.within ⟨id, ⟨.html, tag.name⟩⟩) [] [] ∧
      shown c (b.insertTag tag) = shown c b ++ ofTag c tag := by
  obtain ⟨d, added, elements, size, _, calm⟩ := h.calm.addElement ordinary tag.attributes
  have inserted : b.insertTag tag =
      { b with dom := d, opened := ⟨b.dom.size, ⟨.html, tag.name⟩⟩ :: b.opened } := by
    rw [Builder.insertTag, openElement, added]
    rfl
  rw [inserted]
  exact ⟨b.dom.size, ⟨calm, h.mode, congrArg (_ :: ·) h.opened, h.formatting,
    List.forall_mem_nil _, List.forall_mem_nil _⟩, shown_append elements _ rfl⟩

end Open

/-- Elements that hold running text, beside paragraphs. -/
def textBlocks : List Text := "pre".toList :: headingNames

/-- The elements of blocks that may stand anywhere among blocks. -/
def freeBlocks : List Text := plainBlocks ++ textBlocks

/-- The elements of blocks with an end tag of their own. -/
def endedBlocks : List Text := "li".toList :: "button".toList :: freeBlocks

theorem not_cell_of_block {name : Text}
    (known : name ∈ "hr".toList :: "input".toList :: endedBlocks) : name ∉ cellNames := by
  have all : ∀ name ∈ "hr".toList :: "input".toList :: endedBlocks, name ∉ cellNames := by
    decide +kernel
  exact all name known

theorem ordinary_of_block {name : Text} (known : name ∈ endedBlocks) :
    name ≠ "template".toList := by
  have all : ∀ name ∈ endedBlocks, name ≠ "template".toList := by decide +kernel
  exact all name known

theorem ended_of_free {name : Text} (known : name ∈ freeBlocks) : name ∈ endedBlocks :=
  List.mem_cons_of_mem _ (List.mem_cons_of_mem _ known)

/-- A new element has been opened, with nothing in it so far. -/
def Enters (c : Text) (r : Region) (tag : Tag) (b b' : Builder) : Prop :=
  (∃ id, Rest c (r.within ⟨id, ⟨.html, tag.name⟩⟩) b') ∧ shown c b' = shown c b ++ ofTag c tag

theorem not_isHeading (flow : r.Flow) (h : b.InPhrase c r [] []) :
    b.currentIs isHeading = false := by
  have others : ∀ name ∈ headingNames, name ∉ "body".toList :: "html".toList :: flowElements := by
    decide +kernel
  cases opened : b.opened with
  | nil => rw [currentIs, opened]; rfl
  | cons o rest =>
      rw [currentIs, opened]
      refine Bool.eq_false_iff.2 fun heading => ?_
      have known : named headingNames o.name = true := heading
      rw [named, Bool.and_eq_true, decide_eq_true_eq, List.contains_iff_mem] at known
      have absent := flow.not_open (others _ known.2) o
        (by rw [← List.nil_append r.base, ← h.opened, opened]; exact List.mem_cons_self)
      rw [withName, known.1] at absent
      simp at absent

section Receive

variable (flow : r.Flow) (h : Rest c r b) {tag : Tag}
include flow h

theorem Rest.receive_openTag (known : tag.name ∈ "hr".toList :: "input".toList :: endedBlocks) :
    b.receive (.openTag tag) = { b with dropsLineFeed := false }.openInBody tag :=
  h.inPhrase.calm.receive_openTag (h.inPhrase.body flow.fine) (not_cell_of_block known)

theorem Rest.openTag (known : tag.name ∈ freeBlocks) :
    Enters c r tag b (b.receive (.openTag tag)) := by
  have h₀ := h.inPhrase.undropped
  have ended := ended_of_free known
  rw [h.receive_openTag flow (List.mem_cons_of_mem _ (List.mem_cons_of_mem _ ended))]
  obtain ⟨id, inside, same⟩ := h₀.insertTag (ordinary_of_block ended)
  rcases List.mem_append.1 known with block | text
  · rw [openInBody_block _ block, h₀.closeParagraph flow]
    exact ⟨⟨id, inside.rest⟩, same⟩
  · rcases List.mem_cons.1 text with pre | heading
    · rw [openInBody_pre _ (List.mem_singleton.2 pre), h₀.closeParagraph flow]
      refine ⟨⟨id, InPhrase.rest ?_⟩, same⟩
      exact inside.of_eq rfl rfl rfl rfl rfl rfl rfl
    · rw [openInBody_heading _ heading, h₀.closeParagraph flow, not_isHeading flow h₀]
      exact ⟨⟨id, inside.rest⟩, same⟩

theorem Rest.openButton (button : tag.name = "button".toList) :
    Enters c r tag b (b.receive (.openTag tag)) := by
  have h₀ := h.inPhrase.undropped
  have ended : tag.name ∈ endedBlocks := by simp only [button, endedBlocks, List.mem_cons, true_or,
    or_true]
  rw [h.receive_openTag flow (List.mem_cons_of_mem _ (List.mem_cons_of_mem _ ended)),
    openInBody_button _ (List.mem_singleton.2 button), Builder.openButton,
    h₀.inScopeNamed flow "button" (by decide)]
  simp only [Bool.false_eq_true, if_false, h₀.reconstruct flow]
  obtain ⟨id, inside, same⟩ := h₀.insertTag (ordinary_of_block ended)
  exact ⟨⟨id, InPhrase.rest (inside.of_eq rfl rfl rfl rfl rfl rfl rfl)⟩, same⟩

end Receive

theorem Rest.openItem {i : NodeId} {list : Text} (known : list ∈ ["ol".toList, "ul"])
    (flow : (r.within ⟨i, ⟨.html, list⟩⟩).Flow) (h : Rest c (r.within ⟨i, ⟨.html, list⟩⟩) b)
    {tag : Tag} (item : tag.name = "li".toList) :
    Enters c (r.within ⟨i, ⟨.html, list⟩⟩) tag b (b.receive (.openTag tag)) := by
  have bounded : ∀ list ∈ ["ol".toList, "ul"], named (textsOf "li") ⟨.html, list⟩ = false ∧
      list ∈ specialBlocks ∧ named (textsOf "address div p") ⟨.html, list⟩ = false := by
    decide +kernel
  obtain ⟨noItem, listed, noBlock⟩ := bounded list known
  have special := isSpecial_of_mem listed
  have h₀ : { b with dropsLineFeed := false }.forbidFrames.InPhrase c
      (r.within ⟨i, ⟨.html, list⟩⟩) [] [] :=
    h.inPhrase.undropped.of_eq rfl rfl rfl rfl rfl rfl rfl
  have first : openItem? (textsOf "li") { b with dropsLineFeed := false }.forbidFrames.opened =
      none := by
    rw [h₀.opened, List.nil_append, Region.within, openItem?]
    simp only [noItem, special, noBlock, Bool.not_false, Bool.and_self, Bool.false_eq_true, if_false,
      if_true]
  have ended : tag.name ∈ endedBlocks := item ▸ List.mem_cons_self
  rw [h.receive_openTag flow (List.mem_cons_of_mem _ (List.mem_cons_of_mem _ ended)),
    openInBody_item _ (List.mem_singleton.2 item), openListItem]
  simp only [first, h₀.closeParagraph flow]
  obtain ⟨id, inside, same⟩ := h₀.insertTag (ordinary_of_block ended)
  exact ⟨⟨id, inside.rest⟩, same⟩

section Current

variable {q : Opened} {rest : List Opened} (opened : b.opened = q :: rest)
include opened

theorem popUntil_of_current {p : ElementClass} (holds : p q.name = true) :
    b.popUntil p = { b with opened := rest } := by
  rw [popUntil, opened, List.dropWhile_cons_of_neg (by simp [holds]), List.tail_cons]

theorem impliedEnds_of_current {p : ElementClass} (fails : p q.name = false) :
    b.impliedEnds p = b := by
  rw [impliedEnds, opened, List.dropWhile_cons_of_neg (by simp [fails]), ← opened]

theorem inScope_of_current {p : ElementClass} (holds : p q.name = true) (bounds : ElementClass) :
    b.inScope bounds p = true := by
  rw [inScope, opened, scopeHolds, holds, Bool.true_or]

end Current

theorem closeNamed_of_current {id : NodeId} {name : Text} {rest : List Opened}
    (opened : b.opened = ⟨id, ⟨.html, name⟩⟩ :: rest) :
    b.closeNamed name = { b with opened := rest } := by
  have kept : b.impliedEndsExcept name = b :=
    impliedEnds_of_current opened (by simp [withName_self])
  rw [closeNamed, kept, popUntilNamed, popUntil_of_current opened (withName_self name)]

theorem closeInBody_of_current {id : NodeId} {name : Text} {rest : List Opened}
    (opened : b.opened = ⟨id, ⟨.html, name⟩⟩ :: rest) (known : name ∈ endedBlocks) :
    b.closeInBody name = { b with opened := rest } := by
  have sorted : name ∈ ["li".toList] ∨ name ∈ ["p".toList] ∨ name ∈ headingNames ∨
      name ∈ closedBlocks := by
    have all : ∀ name ∈ endedBlocks, name ∈ ["li".toList] ∨ name ∈ ["p".toList] ∨
        name ∈ headingNames ∨ name ∈ closedBlocks := by decide +kernel
    exact all name known
  rcases sorted with item | paragraph | heading | closed
  · have inScope : b.inScopeNamed boundsListItem name = true :=
      inScope_of_current opened (withName_self name) _
    rw [closeInBody_item _ item, inScope, if_pos rfl, closeNamed_of_current opened]
  · obtain rfl := List.mem_singleton.1 paragraph
    have inScope : b.inScopeNamed boundsButton "p" = true :=
      inScope_of_current opened (withName_self _) _
    rw [closeInBody_paragraph _ paragraph, inScope, if_pos rfl, closeNamed_of_current opened]
  · have holds : isHeading ⟨.html, name⟩ = true := by
      rw [isHeading, named, Bool.and_eq_true, List.contains_iff_mem]
      exact ⟨rfl, heading⟩
    have explicit : ∀ name ∈ headingNames, endsImplied ⟨.html, name⟩ = false := by decide +kernel
    rw [closeInBody_heading _ heading, inScope_of_current opened holds, if_pos rfl,
      impliedEnds_of_current opened (explicit _ heading), popUntil_of_current opened holds]
  · have explicit : ∀ name ∈ closedBlocks, endsImplied ⟨.html, name⟩ = false := by decide +kernel
    rw [closeInBody_closed _ closed, closeAfterImplied_of_current opened (explicit _ closed)]

theorem Rest.closeTag (flow : r.Flow) {id : NodeId} {name : Text} (known : name ∈ endedBlocks)
    (h : Rest c (r.within ⟨id, ⟨.html, name⟩⟩) b) :
    Rest c r (b.receive (.closeTag name)) ∧ shown c (b.receive (.closeTag name)) = shown c b := by
  have h₀ := h.inPhrase.undropped
  have mode : b.mode = .inBody ∨ b.mode = .inCell := .inl (h.inPhrase.mode.trans flow.mode)
  have other := not_cell_of_block (List.mem_cons_of_mem _ (List.mem_cons_of_mem _ known))
  rw [h.inPhrase.calm.receive_closeTag mode other, closeInBody_of_current h₀.opened known]
  refine ⟨InPhrase.rest ⟨?_, h.inPhrase.mode, rfl, h.inPhrase.formatting,
    List.forall_mem_nil _, List.forall_mem_nil _⟩, rfl⟩
  have opened : b.opened = [⟨id, ⟨.html, name⟩⟩] ++ r.base := h₀.opened
  have none : List.Sublist [] [(⟨id, ⟨.html, name⟩⟩ : Opened)] := List.nil_sublist _
  exact h₀.calm.close opened none flow.rooted

theorem Rest.openRule (flow : r.Flow) (h : Rest c r b) {tag : Tag} (known : tag.name = "hr".toList)
    (plain : tag.attributes.hasClass c = false) :
    Rest c r (b.receive (.openTag tag)) ∧ shown c (b.receive (.openTag tag)) = shown c b := by
  have h₀ := h.inPhrase.undropped
  rw [h.receive_openTag flow (by simp only [known, List.mem_cons, true_or]),
    openInBody_rule _ (List.mem_singleton.2 known), Builder.openRule, h₀.closeParagraph flow]
  simp only [h₀.inScopeNamed flow "select" (by decide), Bool.false_eq_true, if_false]
  have ordinary : tag.name ≠ "template".toList := by rw [known]; decide
  obtain ⟨h₁, shown₁⟩ := h₀.insertVoid ordinary plain
  exact ⟨InPhrase.rest (h₁.of_eq rfl rfl rfl rfl rfl rfl rfl), shown₁⟩

theorem Rest.openInput (flow : r.Flow) (h : Rest c r b) {tag : Tag}
    (known : tag.name = "input".toList) (plain : tag.attributes.hasClass c = false) :
    Rest c r (b.receive (.openTag tag)) ∧ shown c (b.receive (.openTag tag)) = shown c b := by
  have h₀ := h.inPhrase.undropped
  rw [h.receive_openTag flow (by simp only [known, List.mem_cons, true_or, or_true]),
    openInBody_input _ (List.mem_singleton.2 known), Builder.openInput]
  simp only [h₀.inScopeNamed flow "select" (by decide), Bool.false_eq_true, if_false,
    h₀.reconstruct flow]
  have ordinary : tag.name ≠ "template".toList := by rw [known]; decide
  obtain ⟨h₁, shown₁⟩ := h₀.insertVoid ordinary plain
  split
  · exact ⟨h₁.rest, shown₁⟩
  · exact ⟨InPhrase.rest (h₁.of_eq rfl rfl rfl rfl rfl rfl rfl), shown₁⟩

end Builder
end LivePage.Html
