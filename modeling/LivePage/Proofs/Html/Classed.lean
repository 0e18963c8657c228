import LivePage.Proofs.Html.Grid

/-!
The elements of a class in a page of blocks. The page is read as in the body from its first tag on,
and its nodes come in document order in the order in which they were made.
-/

namespace LivePage.Html

namespace Tree

mutual

theorem map_fst_subtrees (i : Nat) : ∀ t : Tree, (t.subtrees i).map (·.1) = List.range' i t.size
  | text _ => rfl
  | element name attributes inner => by
      rw [subtrees, List.map_cons, map_fst_subtreesAll (i + 1) inner, size, List.range'_succ]

theorem map_fst_subtreesAll (i : Nat) : ∀ ts : List Tree,
    (subtreesAll i ts).map (·.1) = List.range' i (sizeAll ts)
  | [] => rfl
  | t :: rest => by
      rw [subtreesAll, List.map_append, map_fst_subtrees i t, map_fst_subtreesAll (i + t.size) rest,
        sizeAll, List.range'_append_1]

end

end Tree

theorem Document.Holds.nodes_eq_range {d : Document} {t : Tree} (h : d.Holds t) :
    d.nodes = List.range d.dom.size := by
  rw [h.nodes, Tree.map_fst_subtrees, h.size, List.range_eq_range', List.range'_succ]

/-- The elements of a class are those of the store, in their order. -/
theorem Document.Holds.withClass {d : Document} {t : Tree} (h : d.Holds t) (name : Text) :
    (d.withClass name).map d.dom.element? =
      (d.dom.elements.filter (·.hasClass name)).map some := by
  rw [Document.withClass, h.nodes_eq_range, Dom.elements]
  induction List.range d.dom.size with
  | nil => rfl
  | cons i rest ih =>
      rw [List.filter_cons, List.filterMap_cons]
      cases shown : d.dom.element? i with
      | none => exact ih
      | some e =>
          have kept (es : List Element) : (e :: es).filter (·.hasClass name) =
              if e.hasClass name then e :: es.filter (·.hasClass name)
              else es.filter (·.hasClass name) := List.filter_cons
          simp only [Option.any_some, kept]
          by_cases has : e.hasClass name = true
          · rw [if_pos has, if_pos has, List.map_cons, List.map_cons, ih, shown]
          · rw [if_neg has, if_neg has, ih]

namespace Builder

variable {c s : Text} {b : Builder} {es : List Element}

def firstBlocks : List Text := "hr".toList :: "table".toList :: freeBlocks

/-- A page that begins with the start tag of a block, or holds nothing. -/
def Begins (s : Text) : Prop :=
  s = [] ∨ ∃ tag : SpelledTag, tag.Valid ∧ tag.name ∈ firstBlocks ∧ ∃ rest, s = tag.markup ++ rest

theorem Begins.append {t : Text} (first : Begins s) (second : s = [] → Begins t) :
    Begins (s ++ t) := by
  rcases first with rfl | ⟨tag, valid, known, rest, rfl⟩
  · exact second rfl
  · exact .inr ⟨tag, valid, known, rest ++ t, List.append_assoc ..⟩

theorem start_receive_block {tag : Tag} (known : tag.name ∈ firstBlocks) :
    (start .empty).receive (.openTag tag) = bodyStart.receive (.openTag tag) := by
  have names : firstBlocks = ["hr".toList, "table", "blockquote", "div", "ol", "p", "section", "ul",
      "pre", "h1", "h2", "h3", "h4", "h5", "h6"] := by decide +kernel
  obtain ⟨name, attributes, closes⟩ := tag
  rw [names] at known
  simp only [List.mem_cons, List.not_mem_nil, or_false] at known
  rcases known with rfl | rfl | rfl | rfl | rfl | rfl | rfl | rfl | rfl | rfl | rfl | rfl | rfl |
    rfl | rfl <;> rfl

theorem bodyStart_rest : Rest c topRegion bodyStart :=
  InPhrase.rest ⟨bodyStart_calm, rfl, bodyStart_facts.1, rfl, List.forall_mem_nil _,
    List.forall_mem_nil _⟩

theorem shown_bodyStart : shown c bodyStart = [] := by
  have implied : bodyStart.dom.elements =
      [⟨.html, "html", [], none⟩, ⟨.html, "head", [], none⟩, ⟨.html, "body", [], none⟩] := by decide
  rw [shown, implied]
  rfl

theorem Rest.receive_ending {r : Region} (h : Rest c r b) (mode : r.mode = .inBody) :
    (b.receive .ending).dom = b.dom := by
  have h₀ := h.inPhrase.undropped
  have fed : b.receive .ending = { b with dropsLineFeed := false } := by
    refine h₀.calm.feed ?_
    have body : { b with dropsLineFeed := false }.mode = .inBody := h₀.mode.trans mode
    have none : b.templateModes.isEmpty = true := by rw [h.inPhrase.calm.templates]; rfl
    rw [inMode, body]
    simp only [inBody, none, if_true]
  rw [fed]

theorem Begins.readTokens (begins : Begins s) :
    (Builder.readTokens (unifyBreaks s).length (unifyBreaks s) (.start .empty)).receive .ending =
      (Builder.readTokens (unifyBreaks s).length (unifyBreaks s) bodyStart).receive .ending := by
  rcases begins with rfl | ⟨tag, valid, known, rest, rfl⟩
  · exact start_receive_ending.trans bodyStart_ready.receive_ending.symm
  · have token := nextToken_markup false valid.unified (unifyBreaks rest)
    rw [unifyBreaks_spelledTag valid]
    obtain ⟨d, more, page⟩ : ∃ d more, tag.unified.markup ++ unifyBreaks rest = d :: more :=
      ⟨_, _, rfl⟩
    have lexing : (start .empty).lexing = .markup ∧ bodyStart.lexing = .markup := ⟨rfl, rfl⟩
    have space : (start .empty).inOtherSpace = false ∧ bodyStart.inOtherSpace = false :=
      ⟨rfl, bodyStart_calm.inOtherSpace⟩
    have first : (start .empty).receive (.openTag tag.read) =
        bodyStart.receive (.openTag tag.read) := start_receive_block known
    rw [page] at token ⊢
    simp only [List.length_cons, Builder.readTokens, lexing, space, token]
    exact congrArg (fun b => (Builder.readTokens more.length (unifyBreaks rest) b).receive .ending)
      first

theorem Begins.lexedText (begins : Begins s) : lexedText s = unifyBreaks s := by
  rcases begins with rfl | ⟨tag, _, _, rest, rfl⟩
  · rfl
  · rfl

end Builder

/-- A page of blocks has the elements of the class that its markup leads to, in their order. -/
theorem Document.withClass_of_leads {c s : Text} {es : List Element} (begins : Builder.Begins s)
    (leads : Builder.Leads c (Builder.Pending (Builder.Rest c Builder.topRegion)) s es
      (Builder.Pending (Builder.Rest c Builder.topRegion))) :
    ((parse s).withClass c).map (parse s).dom.element? = es.map some := by
  have stable := Builder.stable_rest (c := c) Builder.topRegion_flow.fine
  obtain ⟨t, b, reads, pending, shown₁⟩ :=
    leads [] Builder.bodyStart [] (Builder.pending_nil Builder.bodyStart_rest)
  obtain ⟨b', rest, shown₂, settled⟩ := stable.settles t b pending
  have read := reads.trans (settled [] (.inl rfl))
  rw [List.nil_append, List.append_nil] at read
  have dom : (parse s).dom = b'.dom := by
    change ((Builder.start .empty).read s).dom = b'.dom
    rw [Builder.read, begins.lexedText, begins.readTokens, read.readTokens, rest.receive_ending rfl]
  have same : parse s = ⟨b'.dom, 0⟩ := by
    rw [← dom, ← root_parse s]
  obtain ⟨inner, spine, _, tidy⟩ := rest.inPhrase.calm.tidy
  have elements := (Builder.bodyStart_holds tidy.grows).withClass c
  have all : b'.dom.elements.filter (·.hasClass c) = es := by
    change Builder.shown c b' = es
    rw [shown₂, shown₁, Builder.shown_bodyStart, List.nil_append]
  rw [same, elements]
  exact congrArg (List.map some) all

end LivePage.Html
