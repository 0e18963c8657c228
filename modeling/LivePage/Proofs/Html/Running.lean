import LivePage.Proofs.Html.BodyRules

/-!
Tags in running text. Elements may overlap there, and still whatever is written with all its end tags
leads back to a state like the one before it.
-/

namespace LivePage.Html.Builder

variable {c : Text} {r : Region} {bound : Text → Nat} {b : Builder} {inner : List Opened}
  {own : List Formatting}

theorem InPhrase.undropped (h : b.InPhrase c r inner own) :
    { b with dropsLineFeed := false }.InPhrase c r inner own :=
  h.of_eq rfl rfl rfl rfl rfl rfl rfl

theorem InPhrase.body (h : b.InPhrase c r inner own) (fine : r.Fine) :
    b.mode = .inBody ∨ b.mode = .inCell := by
  rw [h.mode]
  exact fine.mode

theorem not_cell_of_phrase {name : Text}
    (known : name ∈ formattingElements ++ plainElements ++ voidElements) : name ∉ cellNames := by
  have all : ∀ name ∈ formattingElements ++ plainElements ++ voidElements, name ∉ cellNames := by
    decide +kernel
  exact all name known

/-- The start tags of running text leave at most their own element open. -/
theorem Phrase.openTag (fine : r.Fine) (h : Phrase c r bound b) {tag : Tag}
    (known : tag.name ∈ formattingElements ++ plainElements)
    (plain : tag.attributes.hasClass c = false) :
    Phrase c r (more tag.name bound) (b.receive (.openTag tag)) ∧
      shown c (b.receive (.openTag tag)) = shown c b := by
  obtain ⟨inner, own, h, less⟩ := h
  rw [h.calm.receive_openTag (h.body fine) (not_cell_of_phrase (List.mem_append_left _ known))]
  suffices opened : Opens c r (fun n => if tag.name = n then 1 else 0) inner own
      { b with dropsLineFeed := false } ({ b with dropsLineFeed := false }.openInBody tag) by
    obtain ⟨inner', own', h', shown', less'⟩ := opened
    exact ⟨⟨inner', own', h', fun n => (less' n).trans (Nat.add_le_add_right (less n) _)⟩, shown'⟩
  have h₀ := h.undropped
  generalize { b with dropsLineFeed := false } = b₀ at h₀
  rcases List.mem_append.1 known with formatting | phrase
  · -- an anchor ends the one around it first
    obtain ⟨b₁, inner₁, own₁, h₁, dom₁, less₁, rule⟩ : ∃ (b₁ : Builder) (inner₁ : List Opened)
        (own₁ : List Formatting), b₁.InPhrase c r inner₁ own₁ ∧ b₁.dom = b₀.dom ∧
          (∀ n, weight inner₁ own₁ n ≤ weight inner own n) ∧
            b₀.openInBody tag = b₁.reconstruct.openFormatting tag := by
      rcases List.mem_cons.1 formatting with anchor | other
      · obtain ⟨inner₁, own₁, h₁, dom₁, less₁⟩ := h₀.endOpenAnchor fine
        exact ⟨_, inner₁, own₁, h₁, dom₁, less₁,
          b₀.openInBody_anchor (List.mem_singleton.2 anchor)⟩
      · exact ⟨b₀, inner, own, h₀, rfl, fun n => Nat.le_refl _, b₀.openInBody_formatting other⟩
    obtain ⟨inner₂, own₂, h₂, shown₂, less₂⟩ := h₁.opens_reconstruct fine
    obtain ⟨inner₃, own₃, h₃, shown₃, less₃⟩ := h₂.opens_openFormatting fine formatting plain
    rw [rule]
    refine ⟨inner₃, own₃, h₃, (shown₃.trans shown₂).trans (shown_of_dom dom₁), fun n => ?_⟩
    exact (less₃ n).trans (Nat.add_le_add_right ((less₂ n).trans (less₁ n)) _)
  · obtain ⟨inner₂, own₂, h₂, shown₂, less₂⟩ := h₀.opens_reconstruct fine
    obtain ⟨inner₃, own₃, h₃, shown₃, less₃⟩ := h₂.opens_insertTag phrase
    rw [ofTag_of_plain plain, List.append_nil] at shown₃
    rw [b₀.openInBody_plain phrase]
    exact ⟨inner₃, own₃, h₃, shown₃.trans shown₂,
      fun n => (less₃ n).trans (Nat.add_le_add_right (less₂ n) _)⟩

/-- The end tags of running text end their own element, if it is still open. -/
theorem Phrase.closeTag (fine : r.Fine) {name : Text} (h : Phrase c r (more name bound) b)
    (known : name ∈ formattingElements ++ plainElements) :
    Phrase c r bound (b.receive (.closeTag name)) ∧
      shown c (b.receive (.closeTag name)) = shown c b := by
  obtain ⟨inner, own, h, less⟩ := h
  rw [h.calm.receive_closeTag (h.body fine) (not_cell_of_phrase (List.mem_append_left _ known))]
  suffices ended : Ended c r name inner own { b with dropsLineFeed := false }
      ({ b with dropsLineFeed := false }.closeInBody name) by
    obtain ⟨inner', own', h', dom, less', own⟩ := ended
    refine ⟨⟨inner', own', h', fun n => ?_⟩, shown_of_dom dom⟩
    have before := less n
    have after := less' n
    by_cases same : name = n
    · subst same
      rw [more, if_pos rfl] at before
      omega
    · rw [more, if_neg same] at before
      omega
  have h₀ := h.undropped
  generalize { b with dropsLineFeed := false } = b₀ at h₀
  rcases List.mem_append.1 known with formatting | phrase
  · rw [b₀.closeInBody_formatting formatting]
    exact h₀.ended_endFormatting fine formatting
  · have apart : ∀ name ∈ plainElements, name ∉ formattingElements := by decide
    rw [b₀.closeInBody_plain phrase]
    refine h₀.ended_closeAny fine known (List.countP_eq_zero.2 fun f member counts => ?_)
    obtain ⟨id, tag, rfl, listed, _⟩ := h.entries f member
    exact apart name phrase (of_decide_eq_true counts ▸ listed)

theorem Phrase.voidTag (fine : r.Fine) (h : Phrase c r bound b) {tag : Tag}
    (known : tag.name ∈ voidElements) (plain : tag.attributes.hasClass c = false) :
    Phrase c r bound (b.receive (.openTag tag)) ∧
      shown c (b.receive (.openTag tag)) = shown c b := by
  obtain ⟨inner, own, h, less⟩ := h
  have ordinary : ∀ name ∈ voidElements, name ≠ "template".toList := by decide
  rw [h.calm.receive_openTag (h.body fine) (not_cell_of_phrase (List.mem_append_right _ known)),
    openInBody_void _ known]
  obtain ⟨inner₁, own₁, h₁, shown₁, less₁⟩ := h.undropped.opens_reconstruct fine
  obtain ⟨h₂, shown₂⟩ := h₁.insertVoid (ordinary _ known) plain
  exact ⟨⟨inner₁, own₁, h₂.of_eq rfl rfl rfl rfl rfl rfl rfl,
    fun n => (less₁ n).trans (less n)⟩, shown₂.trans shown₁⟩

theorem inMode_text (mode : b.mode = .inBody ∨ b.mode = .inCell) (run : Text) :
    b.inMode (.text run) = .done (b.writeText run) := by
  rw [inMode]
  rcases mode with mode | mode <;> rw [mode] <;> rfl

theorem stable_phrase (fine : r.Fine) (bound : Text → Nat) : Stable c (Phrase c r bound) := by
  refine ⟨fun b ⟨_, _, h, _⟩ => h.calm, fun b run ⟨inner, own, h, less⟩ => ?_,
    fun b ⟨inner, own, h, less⟩ => ?_⟩
  · have mode := h.undropped.body fine
    have written (run : Text) :
        Phrase c r bound (feedText run.length run { b with dropsLineFeed := false }) ∧
          shown c (feedText run.length run { b with dropsLineFeed := false }) = shown c b := by
      cases run with
      | nil => exact ⟨⟨inner, own, h.undropped, less⟩, rfl⟩
      | cons d run =>
          have blanks : { b with dropsLineFeed := false }.mode.splitsBlanks = false := by
            rcases mode with mode | mode <;> rw [mode] <;> rfl
          obtain ⟨inner', own', h', shown', less'⟩ := h.undropped.opens_writeText fine (d :: run)
          simp only [List.length_cons, feedText, blanks, Bool.false_eq_true, if_false,
            h.undropped.calm.feed (inMode_text mode (d :: run))]
          exact ⟨⟨inner', own', h', fun n => (less' n).trans (less n)⟩, shown'⟩
    exact written _
  · have fed : b.receive .null = { b with dropsLineFeed := false } := by
      refine h.undropped.calm.feed ?_
      rw [inMode]
      rcases h.undropped.body fine with mode | mode <;> rw [mode] <;> rfl
    rw [fed]
    exact ⟨⟨inner, own, h.undropped, less⟩, rfl⟩

/-- Markup that leaves running text as it was, wherever that stands, with no element of the class. -/
def Runs (c s : Text) : Prop :=
  ∀ r bound, r.Fine → Leads c (Pending (Phrase c r bound)) s [] (Pending (Phrase c r bound))

namespace Runs

variable {s t : Text}

theorem nil : Runs c [] := fun _ _ _ => .nil

theorem append (first : Runs c s) (second : Runs c t) : Runs c (s ++ t) :=
  fun r bound fine => (first r bound fine).trans (second r bound fine)

theorem of_text (plain : '<' ∉ s) : Runs c s := fun _ _ _ => leads_text plain

theorem of_element {tag : SpelledTag} (valid : tag.Valid)
    (known : tag.name ∈ formattingElements ++ plainElements)
    (plain : tag.read.attributes.hasClass c = false) (inner : Runs c s) :
    Runs c (tag.around s) := by
  intro r bound fine
  have opens : Leads c (Pending (Phrase c r bound)) tag.markup []
      (Pending (Phrase c r (more tag.name bound))) := by
    refine leads_openTag (stable_phrase fine _).settles (stable_phrase fine _).calm valid fun b h => ?_
    obtain ⟨h', shown'⟩ := h.openTag fine known plain
    exact ⟨pending_nil h', by rw [shown', List.append_nil]⟩
  have closes : Leads c (Pending (Phrase c r (more tag.name bound)))
      (tokenMarkup (.closeTag tag.name)) [] (Pending (Phrase c r bound)) := by
    refine leads_closeTag (stable_phrase fine _).settles (stable_phrase fine _).calm valid.name
      fun b h => ?_
    obtain ⟨h', shown'⟩ := h.closeTag fine known
    exact ⟨pending_nil h', by rw [shown', List.append_nil]⟩
  exact opens.trans ((inner r _ fine).trans closes)

theorem of_void {tag : SpelledTag} (valid : tag.Valid) (known : tag.name ∈ voidElements)
    (plain : tag.read.attributes.hasClass c = false) : Runs c tag.markup := by
  intro r bound fine
  refine leads_openTag (stable_phrase fine bound).settles (stable_phrase fine bound).calm valid
    fun b h => ?_
  obtain ⟨h', shown'⟩ := h.voidTag fine known plain
  exact ⟨pending_nil h', by rw [shown', List.append_nil]⟩

end Runs

end LivePage.Html.Builder
