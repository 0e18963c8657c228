import LivePage.Proofs.Render.Tags
import LivePage.Render.Processor

/-!
The links of a rendered page. Every link that the text of a document makes, in whatever way, opens a
page of its own and passes on neither the opener nor the referrer. The links between footnotes and
their references are written beside the rule for links, and do without that.
-/

namespace LivePage
open Markdown Html Builder

/-- The start tags of the links in a text. -/
def Html.links (html : Text) : List Tag :=
  (tokenize html).filterMap fun
    | .openTag tag => if tag.name = "a".toList then some tag else none
    | _ => none

theorem Html.mem_links {html : Text} {tag : Tag} :
    tag ∈ links html ↔ .openTag tag ∈ tokenize html ∧ tag.name = "a".toList := by
  rw [links, List.mem_filterMap]
  constructor
  · rintro ⟨token, member, shown⟩
    cases token with
    | openTag other =>
        simp only at shown
        split at shown
        · next link =>
            cases shown
            exact ⟨member, link⟩
        · cases shown
    | _ => cases shown
  · rintro ⟨member, link⟩
    exact ⟨.openTag tag, member, if_pos link⟩

/-- A link that passes on neither the opener nor the referrer to the page of its own that it opens.
-/
def Html.Tag.IsHardened (tag : Tag) : Prop :=
  tag.attributes.get? "target" = some "_blank".toList ∧
    tag.attributes.get? "rel" = some "noopener noreferrer".toList

/-- A link between a footnote and a reference to it. -/
def Html.Tag.IsNoteLink (tag : Tag) : Prop :=
  tag.attributes.contains "data-footnote-ref" ∨ tag.attributes.contains "data-footnote-backref"

instance (tag : Tag) : Decidable tag.IsHardened := inferInstanceAs (Decidable (_ ∧ _))

instance (tag : Tag) : Decidable tag.IsNoteLink := inferInstanceAs (Decidable (_ ∨ _))

section Tags

theorem isHardened_linkTag (url title : Text) : (linkTag url title).read.IsHardened := by
  rw [linkTag, read_escapedTag]
  cases title <;> exact ⟨rfl, rfl⟩

theorem not_isNoteLink_linkTag (url title : Text) : ¬(linkTag url title).read.IsNoteLink := by
  rw [linkTag, read_escapedTag]
  cases title <;>
    exact not_or.2 ⟨Bool.eq_false_iff.1 rfl, Bool.eq_false_iff.1 rfl⟩

theorem isNoteLink_referenceTag (name : Text) (number : Nat) :
    (referenceTag name number).read.IsNoteLink := .inl rfl

theorem isNoteLink_backTag (address suffix : Text) (note : Nat) :
    (backTag address suffix note).read.IsNoteLink := .inr rfl

theorem not_isHardened_of_target {tag : Tag} (none : tag.attributes.get? "target" = none) :
    ¬tag.IsHardened := by
  rintro ⟨target, _⟩
  rw [none] at target
  cases target

variable {notes : Bool} {blocks : List Block} {tag : SpelledTag}

theorem PageTag.isHardened_iff (known : PageTag notes blocks tag) (link : tag.name = "a".toList) :
    (tag.read.IsHardened ↔ ¬tag.read.IsNoteLink) ∧ (tag.read.IsNoteLink → notes = true) := by
  cases known with
  | link url title =>
      have plain := not_isNoteLink_linkTag url title
      exact ⟨iff_of_true (isHardened_linkTag url title) plain, fun note => absurd note plain⟩
  | reference enabled name number =>
      have note := isNoteLink_referenceTag name number
      exact ⟨iff_of_false (not_isHardened_of_target rfl) (not_not_intro note), fun _ => enabled⟩
  | back enabled address suffix note =>
      have back := isNoteLink_backTag address suffix note
      exact ⟨iff_of_false (not_isHardened_of_target rfl) (not_not_intro back), fun _ => enabled⟩
  | placeholder name =>
      have other : "a".toList ∉ ["div".toList, "code"] := by decide
      exact absurd (link ▸ name) other
  | other name =>
      have other : "a".toList ∉ pageElements := by decide
      exact absurd (link ▸ name) other

end Tags

section Rendering

variable {m : Type → Type} [Monad m] [LawfulMonad m]

theorem quote_not_mem_blockId {lead : Option Text} (closed : ∀ s ∈ lead, '\x22' ∉ s) (index : Nat) :
    '\x22' ∉ blockId lead index := by
  have digits := not_mem_ofNat index (d := '\x22') (by decide)
  unfold blockId
  split
  · simp [digits]
  · simp [digits]
  · next s _ => simp [digits, closed s rfl]

/-- Without raw HTML, rendering gives a page with nothing but the tags of pages, whatever the text
is. -/
theorem paged_render {options : Options} (cautious : options.html = false)
    (closed : ∀ s ∈ options.idPrefix, '\x22' ∉ s) (markdown : Text) :
    ∃ r, (Processor.ofOptions options : Processor m).render markdown = pure r ∧
      Paged options.gfm r.blocks r.html := by
  let p : Processor m := .ofOptions options
  by_cases empty : markdown.isEmpty = true
  · refine ⟨{}, ?_, .nil⟩
    rw [Processor.render, if_pos empty]
  let source := Text.normalizeBreaks markdown
  let root := parse options.parseOptions source
  let o : Overrides m := ⟨.builtin, p.context, source, Text.lineStarts source⟩
  have styled : (p.styled source root).Parsed ⟨options.gfm, true⟩ := parsed_styled p source
  have gives : o.Gives (builtinAnswers options) := gives_builtin rfl rfl
  have composed := composed_revised o options (quote_not_mem_blockId closed) 0
    (p.styled source root) styled fun _ made => made
  have applied : p.applyRules source (p.styled source root) = _ :=
    Overrides.apply_of_gives gives rfl (p.styled source root)
  let tree := Overrides.whole (p.styled source root).span
    (o.revised (builtinAnswers options) 0 (p.styled source root))
  let blocks := o.blocksOf (builtinAnswers options) 0 (p.styled source root).preorder
  refine ⟨⟨toHtml options.htmlOptions tree, blocks, root.title?⟩, ?_,
    paged_toHtml cautious (composed_whole _ composed)⟩
  rw [Processor.render, if_neg empty]
  exact (congrArg (· >>= _) applied).trans (pure_bind _ _)

/-- Without raw HTML, and with identifiers that close no attribute, every link of a rendered page is
hardened but for those of footnotes. -/
theorem Processor.links_hardened {options : Options} (cautious : options.html = false)
    (closed : ∀ s ∈ options.idPrefix, '\x22' ∉ s) (markdown : Text) :
    ∃ r, (Processor.ofOptions options : Processor m).render markdown = pure r ∧
      ∀ tag ∈ links r.html,
        (tag.IsHardened ↔ ¬tag.IsNoteLink) ∧ (tag.IsNoteLink → options.gfm = true) := by
  obtain ⟨r, rendered, paged⟩ := paged_render (m := m) cautious closed markdown
  refine ⟨r, rendered, fun tag member => ?_⟩
  obtain ⟨listed, link⟩ := mem_links.1 member
  obtain ⟨_, ⟨spelled, known, rfl⟩, rfl⟩ := paged.stems _ listed
  exact known.isHardened_iff link

/-- A link in a note. -/
theorem Processor.links_hardened_note :
    let options : Options := { html := false }
    let r := (Processor.ofOptions options : Processor Id).render "a[^1]\n\n[^1]: [b](c)\n"
    options.html = false ∧ (∀ s ∈ options.idPrefix, '\x22' ∉ s) ∧
      (links r.html).map (fun tag => (tag.attributes.get? "href", decide tag.IsNoteLink)) =
        [(some "#fn-1".toList, true), (some "c".toList, false), (some "#fnref-1".toList, true)] ∧
      ∀ tag ∈ links r.html,
        (tag.IsHardened ↔ ¬tag.IsNoteLink) ∧ (tag.IsNoteLink → options.gfm = true) := by
  intro options r
  refine ⟨rfl, nofun, by decide +kernel, ?_⟩
  have cautious : options.html = false := rfl
  obtain ⟨r', rendered, hardened⟩ := links_hardened (m := Id) cautious nofun
    "a[^1]\n\n[^1]: [b](c)\n"
  have same : r = r' := rendered
  rw [same]
  exact hardened

/-- The links between a footnote and its reference are not hardened. -/
theorem Processor.links_of_note :
    let r := (Processor.ofOptions { html := false } : Processor Id).render "a[^1]\n\n[^1]: b\n"
    (links r.html).map (fun tag => (tag.attributes.get? "href", decide tag.IsHardened)) =
      [(some "#fn-1".toList, false), (some "#fnref-1".toList, false)] := by
  decide +kernel

end Rendering
end LivePage
