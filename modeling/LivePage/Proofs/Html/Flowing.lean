import LivePage.Proofs.Html.Blocks

/-!
Markup of blocks. Wherever blocks may stand, such markup leads back to the state before it, and the
elements of the class come in the order of their start tags. Markup is put together as the blocks of
a document are: one behind the other, or inside an element.
-/

namespace LivePage.Html.Builder

variable {c s t : Text} {r : Region} {es us : List Element} {b : Builder}

theorem stable_rest (fine : r.Fine) : Stable c (Rest c r) := stable_phrase fine fun _ => 0

theorem special_of_ended {name : Text} (known : name ∈ endedBlocks) : name ∈ specialBlocks := by
  have all : ∀ name ∈ endedBlocks, name ∈ specialBlocks := by decide +kernel
  exact all name known

theorem valid_of_ended {name : Text} (known : name ∈ endedBlocks) : isMarkupName name = true := by
  have all : ∀ name ∈ endedBlocks, isMarkupName name = true := by decide +kernel
  exact all name known

theorem leads_enter (flow : r.Flow) {tag : SpelledTag} (valid : tag.Valid)
    (enters : ∀ b, Rest c r b → Enters c r tag.read b (b.receive (.openTag tag.read))) :
    Leads c (Pending (Rest c r)) tag.markup (ofTag c tag.read)
      (fun t b => ∃ id, Pending (Rest c (r.within ⟨id, ⟨.html, tag.name⟩⟩)) t b) := by
  have outside := stable_rest (c := c) flow.fine
  refine leads_openTag outside.settles outside.calm valid fun b h => ?_
  obtain ⟨⟨id, entered⟩, same⟩ := enters b h
  exact ⟨⟨id, pending_nil entered⟩, same⟩

theorem leads_leave (flow : r.Flow) (name : Text) (known : name ∈ endedBlocks) (id : NodeId) :
    Leads c (Pending (Rest c (r.within ⟨id, ⟨.html, name⟩⟩))) (tokenMarkup (.closeTag name)) []
      (Pending (Rest c r)) := by
  have inside := stable_rest (c := c) (flow.fine_within id (special_of_ended known))
  refine leads_closeTag inside.settles inside.calm (valid_of_ended known) fun b h => ?_
  obtain ⟨left, same⟩ := h.closeTag flow known
  exact ⟨pending_nil left, by rw [same, List.append_nil]⟩

theorem leads_within (flow : r.Flow) {tag : SpelledTag} (valid : tag.Valid)
    (known : tag.name ∈ endedBlocks)
    (enters : ∀ b, Rest c r b → Enters c r tag.read b (b.receive (.openTag tag.read)))
    (inner : ∀ id, Leads c (Pending (Rest c (r.within ⟨id, ⟨.html, tag.name⟩⟩))) s es
      (Pending (Rest c (r.within ⟨id, ⟨.html, tag.name⟩⟩)))) :
    Leads c (Pending (Rest c r)) (tag.around s) (ofTag c tag.read ++ es) (Pending (Rest c r)) :=
  leads_around (leads_enter flow valid enters) inner (leads_leave flow _ known)

/-- Markup that leads back wherever blocks may stand. -/
def Flows (c s : Text) (es : List Element) : Prop :=
  ∀ r, r.Flow → Leads c (Pending (Rest c r)) s es (Pending (Rest c r))

def Items (c s : Text) (es : List Element) : Prop :=
  ∀ (r : Region) i list, list ∈ ["ol".toList, "ul"] → (r.within ⟨i, ⟨.html, list⟩⟩).Flow →
    Leads c (Pending (Rest c (r.within ⟨i, ⟨.html, list⟩⟩))) s es
      (Pending (Rest c (r.within ⟨i, ⟨.html, list⟩⟩)))

/-- The state in an element of code, which is the only formatting in force. -/
structure InCode (c : Text) (r : Region) (b : Builder) : Prop where
  calm : b.Calm
  mode : b.mode = .inBody
  only : ∃ id attributes closes, b.opened = ⟨id, ⟨.html, "code"⟩⟩ :: r.base ∧
    b.formatting = [.element id ⟨"code", attributes, closes⟩]

namespace InCode

theorem of_eq {b' : Builder} (h : InCode c r b) (calm : b'.Calm) (mode : b'.mode = b.mode)
    (opened : b'.opened = b.opened) (formatting : b'.formatting = b.formatting) :
    InCode c r b' := by
  refine ⟨calm, mode.trans h.mode, ?_⟩
  rw [opened, formatting]
  exact h.only

theorem undropped (h : InCode c r b) : InCode c r { b with dropsLineFeed := false } :=
  h.of_eq h.calm.undropped rfl rfl rfl

theorem reconstruct (h : InCode c r b) : b.reconstruct = b := by
  obtain ⟨id, attributes, closes, opened, formatting⟩ := h.only
  have settled : b.formatting.takeWhile (fun f => !b.isMarkerOrOpen f) = [] := by
    rw [formatting]
    refine List.takeWhile_cons_of_neg ?_
    simp [isMarkerOrOpen, opened]
  rw [Builder.reconstruct]
  simp only [settled, List.isEmpty_nil, if_true]

theorem writeText (h : InCode c r b) (run : Text) :
    InCode c r (b.writeText run) ∧ shown c (b.writeText run) = shown c b := by
  obtain ⟨d, appended, elements, _, calm⟩ := h.calm.appendText run
  have same : shown c { b with dom := d } = shown c b := by rw [shown, elements, shown]
  have written : InCode c r { b with dom := d } := h.of_eq calm rfl rfl rfl
  rw [Builder.writeText, h.reconstruct, appended]
  split
  · exact ⟨written, same⟩
  · exact ⟨written.of_eq (calm.of_eq rfl rfl rfl rfl rfl) rfl rfl rfl, same⟩

theorem stable : Stable c (InCode c r) := by
  refine ⟨fun b h => h.calm, fun b run h => ?_, fun b h => ?_⟩
  · have written (run : Text) :
        InCode c r (feedText run.length run { b with dropsLineFeed := false }) ∧
          shown c (feedText run.length run { b with dropsLineFeed := false }) = shown c b := by
      cases run with
      | nil => exact ⟨h.undropped, rfl⟩
      | cons d run =>
          have blanks : { b with dropsLineFeed := false }.mode.splitsBlanks = false := by
            rw [h.undropped.mode]
            rfl
          simp only [List.length_cons, feedText, blanks, Bool.false_eq_true, if_false,
            h.undropped.calm.feed (inMode_text (.inl h.undropped.mode) (d :: run))]
          exact h.undropped.writeText (d :: run)
    exact written _
  · have fed : b.receive .null = { b with dropsLineFeed := false } := by
      refine h.undropped.calm.feed ?_
      rw [inMode, h.undropped.mode]
      rfl
    rw [fed]
    exact ⟨h.undropped, rfl⟩

theorem closeTag (flow : r.Flow) {id : NodeId} {name : Text}
    (h : InCode c (r.within ⟨id, ⟨.html, name⟩⟩) b) :
    Rest c (r.within ⟨id, ⟨.html, name⟩⟩) (b.receive (.closeTag "code")) ∧
      shown c (b.receive (.closeTag "code")) = shown c b := by
  obtain ⟨i, attributes, closes, opened, formatting⟩ := h.only
  have root : [bodyElement, rootElement] <:+ (r.within ⟨id, ⟨.html, name⟩⟩).base :=
    flow.rooted.trans (List.suffix_cons ..)
  have closed := endFormatting_of_current (b := { b with dropsLineFeed := false }) opened formatting
    rfl
  rw [h.calm.receive_closeTag (.inl h.mode) (not_cell_of_phrase (by decide)),
    closeInBody_formatting _ (by decide), closed]
  have all : b.opened = [⟨i, ⟨.html, "code"⟩⟩] ++ (r.within ⟨id, ⟨.html, name⟩⟩).base := opened
  have calm := h.calm.close all (List.nil_sublist _) root
  refine ⟨InPhrase.rest ⟨calm.of_eq rfl rfl rfl rfl rfl, h.mode.trans flow.mode.symm, rfl,
    flow.past.symm, List.forall_mem_nil _, List.forall_mem_nil _⟩, rfl⟩

end InCode

theorem Rest.openCode (flow : r.Flow) {id : NodeId} {name : Text} (special : name ∈ specialBlocks)
    (h : Rest c (r.within ⟨id, ⟨.html, name⟩⟩) b) (attributes : Attributes) (closes : Bool) :
    InCode c (r.within ⟨id, ⟨.html, name⟩⟩) (b.receive (.openTag ⟨"code", attributes, closes⟩)) ∧
      shown c (b.receive (.openTag ⟨"code", attributes, closes⟩)) =
        shown c b ++ ofTag c ⟨"code", attributes, closes⟩ := by
  have h₀ := h.inPhrase.undropped
  have none : b.formatting = [] := h₀.formatting.trans flow.past
  have phrase : "code".toList ∉ cellNames := not_cell_of_phrase (by decide)
  have formats : "code".toList ∈ ["em".toList, "strong", "u", "code"] := by decide
  rw [h.inPhrase.calm.receive_openTag (h.inPhrase.body (flow.fine_within id special)) phrase,
    openInBody_formatting _ formats]
  have settled : { b with dropsLineFeed := false }.reconstruct =
      { b with dropsLineFeed := false } := by
    rw [Builder.reconstruct]
    simp only [none, List.takeWhile_nil, List.isEmpty_nil, if_true]
  have unlimited (tag : Tag) : { b with dropsLineFeed := false }.limitFormatting tag =
      { b with dropsLineFeed := false } := by simp [limitFormatting, sinceMarker, none]
  have ordinary : "code".toList ≠ "template".toList := by decide
  obtain ⟨d, added, elements, _, _, calm⟩ := h₀.calm.addElement ordinary attributes
  rw [settled, openFormatting, unlimited]
  simp only [added, push]
  refine ⟨⟨calm.of_eq rfl rfl rfl rfl rfl, h₀.mode.trans flow.mode,
    ⟨b.dom.size, attributes, closes, congrArg (_ :: ·) h₀.opened, ?_⟩⟩, ?_⟩
  · rw [none]
  · exact shown_append elements _ rfl

theorem leads_code (flow : r.Flow) {id : NodeId} {name : Text} (special : name ∈ specialBlocks)
    {attributes : List Spelled} (valid : SpelledTag.Valid ⟨"code", attributes, false⟩)
    (plain : '<' ∉ s) :
    Leads c (Pending (Rest c (r.within ⟨id, ⟨.html, name⟩⟩)))
      (SpelledTag.around ⟨"code", attributes, false⟩ s)
      (ofTag c (SpelledTag.read ⟨"code", attributes, false⟩))
      (Pending (Rest c (r.within ⟨id, ⟨.html, name⟩⟩))) := by
  let inner := r.within ⟨id, ⟨.html, name⟩⟩
  have outside := stable_rest (c := c) (flow.fine_within id special)
  have opens : Leads c (Pending (Rest c inner)) (SpelledTag.markup ⟨"code", attributes, false⟩)
      (ofTag c (SpelledTag.read ⟨"code", attributes, false⟩)) (Pending (InCode c inner)) := by
    refine leads_openTag outside.settles outside.calm valid fun b h => ?_
    obtain ⟨inCode, same⟩ := h.openCode flow special _ false
    exact ⟨pending_nil inCode, same⟩
  have closes : Leads c (Pending (InCode c inner)) (tokenMarkup (.closeTag "code")) []
      (Pending (Rest c inner)) := by
    refine leads_closeTag InCode.stable.settles InCode.stable.calm (by decide) fun b h => ?_
    obtain ⟨left, same⟩ := h.closeTag flow
    exact ⟨pending_nil left, by rw [same, List.append_nil]⟩
  have whole := opens.trans ((leads_text plain).trans closes)
  rwa [List.append_nil, List.append_nil] at whole

namespace Flows

theorem nil : Flows c [] [] := fun _ _ => .nil

theorem append (first : Flows c s es) (second : Flows c t us) : Flows c (s ++ t) (es ++ us) :=
  fun r flow => (first r flow).trans (second r flow)

theorem of_runs (runs : Runs c s) : Flows c s [] := fun r flow => runs r _ flow.fine

theorem of_text (plain : '<' ∉ s) : Flows c s [] := of_runs (.of_text plain)

section Around

variable {tag : SpelledTag} (valid : tag.Valid)
include valid

theorem of_block (known : tag.name ∈ freeBlocks) (holds : tag.name ∈ flowElements)
    (inner : Flows c s es) : Flows c (tag.around s) (ofTag c tag.read ++ es) :=
  fun _ flow => leads_within flow valid (ended_of_free known) (fun _ h => h.openTag flow known)
    fun id => inner _ (flow.within id holds)

theorem of_running (ended : tag.name ∈ endedBlocks)
    (enters : ∀ {r : Region} (_ : r.Flow) (b : Builder), Rest c r b →
      Enters c r tag.read b (b.receive (.openTag tag.read))) (inner : Runs c s) :
    Flows c (tag.around s) (ofTag c tag.read) := by
  intro r flow
  have whole := leads_within flow valid ended (enters flow)
    fun id => inner _ (fun _ => 0) (flow.fine_within id (special_of_ended ended))
  rwa [List.append_nil] at whole

theorem of_textBlock (known : tag.name ∈ freeBlocks) (inner : Runs c s) :
    Flows c (tag.around s) (ofTag c tag.read) :=
  of_running valid (ended_of_free known) (fun flow _ h => h.openTag flow known) inner

theorem of_button (button : tag.name = "button".toList) (inner : Runs c s) :
    Flows c (tag.around s) (ofTag c tag.read) := by
  have ended : tag.name ∈ endedBlocks := by
    rw [button]
    exact List.mem_cons_of_mem _ List.mem_cons_self
  exact of_running valid ended (fun flow _ h => h.openButton flow button) inner

theorem of_list (known : tag.name ∈ ["ol".toList, "ul"]) (inner : Items c s es) :
    Flows c (tag.around s) (ofTag c tag.read ++ es) := by
  have all : ∀ name ∈ ["ol".toList, "ul"], name ∈ freeBlocks ∧ name ∈ flowElements := by decide
  obtain ⟨free, holds⟩ := all _ known
  exact fun r flow => leads_within flow valid (ended_of_free free) (fun _ h => h.openTag flow free)
    fun id => inner r id tag.name known (flow.within id holds)

theorem of_kept (kept : ∀ {r : Region} (_ : r.Flow) {b : Builder}, Rest c r b →
      Rest c r (b.receive (.openTag tag.read)) ∧
        shown c (b.receive (.openTag tag.read)) = shown c b) :
    Flows c tag.markup [] := by
  intro r flow
  have stable := stable_rest (c := c) flow.fine
  refine leads_openTag stable.settles stable.calm valid fun b h => ?_
  obtain ⟨left, same⟩ := kept flow h
  exact ⟨pending_nil left, by rw [same, List.append_nil]⟩

theorem of_rule (rule : tag.name = "hr".toList) (plain : tag.read.attributes.hasClass c = false) :
    Flows c tag.markup [] :=
  of_kept valid fun flow _ h => h.openRule flow rule plain

theorem of_input (input : tag.name = "input".toList)
    (plain : tag.read.attributes.hasClass c = false) : Flows c tag.markup [] :=
  of_kept valid fun flow _ h => h.openInput flow input plain

/-- Code in an element of its own; the code may be of the class. -/
theorem of_code (known : tag.name ∈ freeBlocks) {attributes : List Spelled}
    (code : SpelledTag.Valid ⟨"code", attributes, false⟩) (plain : '<' ∉ s) :
    Flows c (tag.around (SpelledTag.around ⟨"code", attributes, false⟩ s))
      (ofTag c tag.read ++ ofTag c (SpelledTag.read ⟨"code", attributes, false⟩)) := by
  intro r flow
  have ended := ended_of_free known
  exact leads_within flow valid ended (fun _ h => h.openTag flow known)
    fun id => leads_code flow (special_of_ended ended) code plain

end Around
end Flows

namespace Items

theorem nil : Items c [] [] := fun _ _ _ _ _ => .nil

theorem append (first : Items c s es) (second : Items c t us) : Items c (s ++ t) (es ++ us) :=
  fun r i list known flow => (first r i list known flow).trans (second r i list known flow)

theorem of_flows (flows : Flows c s es) : Items c s es := fun _ _ _ _ flow => flows _ flow

theorem of_item {tag : SpelledTag} (valid : tag.Valid) (item : tag.name = "li".toList)
    (inner : Flows c s es) : Items c (tag.around s) (ofTag c tag.read ++ es) := by
  intro r i list known flow
  have ended : tag.name ∈ endedBlocks := by
    rw [item]
    exact List.mem_cons_self
  refine leads_within flow valid ended (fun b h => h.openItem known flow item) fun id => ?_
  exact inner _ (flow.within id (by rw [item]; decide))

end Items

end LivePage.Html.Builder
