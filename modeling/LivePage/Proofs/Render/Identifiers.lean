import LivePage.Actions.Standard
import LivePage.Chart.Activation
import LivePage.Proofs.Html.Resolving
import LivePage.Proofs.Render.Fences
import Mathlib.Data.List.TakeWhile

/-!
The identifier of a block in its markup. It is written into attributes as it is, where all other
values are escaped, so it is read from them again exactly if it closes no attribute and resolves to
itself. A block with such an identifier is found by it, whatever else stands in the block.
-/

namespace LivePage
open Html

variable {m : Type → Type} [Monad m] [LawfulMonad m]

/-- A fence is rendered to the markup of its piece, with its identifier as it is. -/
theorem renderFence_piece (options : Options) (token : FenceToken) (id : Text) :
    renderFence (m := m) ⟨.html, options, none⟩ token id =
      pure ⟨id, if isChartFence options token then .chart else .code (fenceLanguage token),
        (fencePiece options token id).markupBy spellId ++ "\n".toList⟩ := by
  rw [markupBy_fencePiece]
  exact renderFence_spelled options token (spells_spellId id)

/-- What is read where an identifier is written: it ends at its first quote, and is resolved. -/
def readId (id : Text) : Text :=
  decodeAttribute (replaceNull ((unifyBreaks id).takeWhile (· ≠ '\x22')))

/-- Identifiers that are read as they are written. -/
structure ReadsAsWritten (id : Text) : Prop where
  closed : '\x22' ∉ id
  plain : id.Plain
  resolved : decodeAttribute id = id

instance (id : Text) : Decidable (ReadsAsWritten id) :=
  decidable_of_iff ('\x22' ∉ id ∧ id.Plain ∧ decodeAttribute id = id)
    ⟨fun h => ⟨h.1, h.2.1, h.2.2⟩, fun h => ⟨h.closed, h.plain, h.resolved⟩⟩

theorem readId_eq_self_iff {id : Text} : readId id = id ↔ ReadsAsWritten id := by
  constructor
  · intro same
    let first := replaceNull ((unifyBreaks id).takeWhile (· ≠ '\x22'))
    have long : first.length ≤ (decodeAttribute first).length := by
      have back : (decodeAttribute first).length = id.length := congrArg List.length same
      have taken := (List.takeWhile_prefix (l := unifyBreaks id) (· ≠ '\x22')).length_le
      have unified := length_unifyBreaks id
      rw [back, show first.length = _ from List.length_map ..]
      omega
    have kept : first = id := (decodeAttribute_eq_self long).symm.trans same
    have each : ∀ c ∈ id, c ≠ '\x22' ∧ c ≠ '\x00' ∧ c ≠ '\r' := by
      intro c member
      rw [← kept] at member
      obtain ⟨d, taken, rfl⟩ := List.mem_map.1 member
      have quote := List.all_eq_true.1 List.all_takeWhile d taken
      have unified := (List.takeWhile_prefix _).mem taken
      have break' : d ≠ '\r' := fun same => not_mem_unifyBreaks_return id (same ▸ unified)
      split
      · decide
      · next null => exact ⟨by simpa using quote, null, break'⟩
    refine ⟨fun member => (each _ member).1 rfl, fun c member => (each c member).2, ?_⟩
    have read : decodeAttribute first = id := same
    rwa [kept] at read
  · intro h
    have null : '\x00' ∉ id := fun member => (h.plain _ member).1 rfl
    have whole : id.takeWhile (· ≠ '\x22') = id :=
      List.takeWhile_eq_self_iff.2 fun c member =>
        decide_eq_true fun same => h.closed (same ▸ member)
    rw [readId, unifyBreaks_of_plain h.plain, whole, replaceNull_of_absent null, h.resolved]

theorem unifies_spellId {a : Attribute} (valid : isMarkupName a.name = true) :
    Unifies spellId a := by
  intro t
  by_cases identifier : a.name ∈ ["id".toList, "data-target".toList]
  · have same : spellId (unifyValue a) = attr a.name (unifyBreaks a.value) :=
      spellId_identifier _ identifier _
    rw [same, show spellId a = _ from spellId_identifier _ identifier a.value,
      unifyBreaks_attr valid]
  · have same : spellId (unifyValue a) = attributeMarkup (unifyValue a) :=
      spellId_other _ identifier _
    rw [same, show spellId a = attributeMarkup a from spellId_other _ identifier a.value,
      unifyBreaks_attribute valid]

theorem readsBack_spellId {a : Attribute} (valid : isMarkupName a.name = true)
    (reads : a.name ∈ ["id".toList, "data-target".toList] → ReadsAsWritten a.value) :
    ReadsBack spellId a := by
  by_cases identifier : a.name ∈ ["id".toList, "data-target".toList]
  · have h := reads identifier
    exact readsBack_attr (spellId_identifier _ identifier a.value) valid h.closed
      (fun member => (h.plain _ member).1 rfl) h.resolved
  · have same : spellId a = attributeMarkup a := spellId_other _ identifier a.value
    obtain ⟨blank, read⟩ := readsBack_attributeMarkup valid
    refine ⟨same ▸ blank, ?_⟩
    rw [same]
    exact read

/-- An attribute with a name, which holds an identifier if it is one of those that do. -/
def Identifies (id : Text) (a : Attribute) : Prop :=
  isMarkupName a.name ∧ (a.name ∈ ["id".toList, "data-target".toList] → a.value = id)

theorem each_fencePiece (options : Options) (token : FenceToken) (id : Text) :
    (fencePiece options token id).Each (Identifies id) := by
  have mark (value : Text) : ∀ a ∈ ([⟨"class", value⟩] : Attributes), Identifies id a := by
    simp +decide [Identifies]
  unfold fencePiece
  split
  · have chart : ∀ a ∈ ([⟨"id", id⟩, ⟨"class", "echarts-chart"⟩, ⟨"data-option", token.content⟩,
        ⟨"style", chartStyle options.chartHeight⟩] : Attributes), Identifies id a := by
      simp +decide [Identifies]
    exact ⟨mark _, trivial, ⟨mark _, mark _, trivial⟩, trivial, ⟨chart, trivial⟩, trivial, trivial⟩
  · have button : ∀ a ∈ buttonAttributes id, Identifies id a := by
      simp +decide [Identifies, buttonAttributes]
    have code : ∀ a ∈ codeAttributes (fenceLanguage token) id, Identifies id a := by
      simp +decide [Identifies, codeAttributes]
    have named : Piece.EachAll (Identifies id) (languagePieces (fenceLanguage token)) := by
      unfold languagePieces
      split
      · trivial
      · exact ⟨mark _, trivial⟩
    have last : Piece.EachAll (Identifies id)
        [.phrase "button" (buttonAttributes id) options.copyLabel] := ⟨button, trivial⟩
    have header := Piece.eachAll_append named last
    exact ⟨mark _, trivial, ⟨mark _, header⟩, trivial, ⟨List.forall_mem_nil _, code, trivial⟩, trivial, trivial⟩

section Page

variable (options : Options) (token : FenceToken) {id : Text} (reads : ReadsAsWritten id)
include reads

theorem parse_block :
    (Document.parse ((fencePiece options token id).markupBy spellId ++ "\n".toList)).Holds
      (pageTree (fenceTrees options token id ++ [.text "\n"])) := by
  have page : (fencePiece options token id).markupBy spellId ++ "\n".toList =
      Piece.markupAllBy spellId (lines [fencePiece options token id]) := rfl
  have trees : fenceTrees options token id ++ [.text "\n"] =
      Piece.treesAll (Piece.unifiedAll (lines [fencePiece options token id])) := rfl
  have each := each_fencePiece options token id
  have spelled : (fencePiece options token id).Each
      fun a => ReadsBack spellId (unifyValue a) := by
    refine Piece.Each.imp ?_ _ each
    intro a ⟨valid, value⟩
    refine readsBack_spellId (a := unifyValue a) valid fun identifier => ?_
    rw [unifyValue, value identifier, unifyBreaks_of_plain reads.plain]
    exact reads
  have unifies : (fencePiece options token id).Each (Unifies spellId) :=
    Piece.Each.imp (fun a identifies => unifies_spellId identifies.1) _ each
  rw [page, trees]
  refine Document.parse_markupBy (fitsAll_lines (List.forall_mem_singleton.2
    (fits_fencePiece options token id))).1 ⟨spelled, trivial, trivial⟩
    ⟨unifies, trivial, trivial⟩ fun p first => ?_
  obtain ⟨attributes, inner, block⟩ := fencePiece_eq_block options token id
  exact ⟨attributes, inner, (Option.some.inj first).symm.trans block⟩

variable {options token} {d : Document}
  (holds : d.Holds (pageTree (fenceTrees options token id ++ [.text "\n"])))
include holds

/-- The one part of a fence that passes a test is an element of its page, and if it has the
identifier it is found by it. -/
theorem found_block {p : Tree → Bool} (passes : PassesOver p) {t : Tree}
    (part : (fenceParts options token id).filter p = [t]) :
    ∃ e, (Tree.foundAll p 4 (fenceTrees options token id ++ [.text "\n"])).map (·.1) = [e] ∧
      d.dom.element? e = t.element? ∧ (t.attribute? "id" = some id → d.findById? id = some e) := by
  let ts := fenceTrees options token id ++ [.text "\n"]
  have behind {q : Tree → Bool} (passes : PassesOver q) :
      Tree.foundAll q 4 ts = Tree.foundAll q 4 (fenceTrees options token id) := by
    rw [Tree.foundAll_append, Tree.foundAll_text (passes.text _), List.append_nil]
  have found := foundAll_fenceTrees options token reads.plain passes 4
  rw [part] at found
  obtain ⟨⟨e, u⟩, one, rfl⟩ := List.map_eq_singleton_iff.1 found
  have listed : (e, u) ∈ Tree.subtreesAll 4 ts := by
    have member : (e, u) ∈ Tree.foundAll p 4 ts := by rw [behind passes, one]; exact List.mem_cons_self
    exact List.mem_of_mem_filter member
  have inside : (e, u) ∈ (pageTree ts).subtrees 1 := by
    rw [Document.subtrees_page]
    exact List.mem_append_right _ listed
  refine ⟨e, by rw [behind passes, one]; rfl, (holds.held.of_mem_subtrees _ inside).element?, ?_⟩
  intro own
  -- it is the only element with an identifier at all
  obtain ⟨c, v, ids, _⟩ := ids_fenceTrees options token reads.plain 4
  rw [← behind passesOver_id] at ids
  have same : (e, u) ∈ [(c, v)] := by
    rw [← ids]
    refine List.mem_filter.2 ⟨listed, ?_⟩
    rw [Tree.hasAttribute, own]
    rfl
  rw [Document.findById?_page holds, ids, ← List.mem_singleton.1 same, List.find?_cons,
    decide_eq_true own]
  rfl

end Page

theorem get?_of_identifierTag {name : Text} (valid : isMarkupName name = true)
    (before after : Attributes) {key id : Text} (names : Piece.Named (before ++ ⟨key, id⟩ :: after))
    (holds : key ∈ ["id".toList, "data-target".toList])
    (others : ∀ a ∈ before, a.name ∉ ["id".toList, "data-target".toList]) {s : Text} {tag : Tag}
    {rest : Text} (read : nextToken .markup false
      (unifyBreaks (tagMarkup spellId name (before ++ ⟨key, id⟩ :: after) ++ s)) =
        (some (.openTag tag), rest)) : tag.attributes.get? key = some (readId id) := by
  have known : ∀ a ∈ before, isMarkupName a.name = true :=
    fun a member => names.1 a (List.mem_append_left _ member)
  have spelled : ∀ a ∈ before.map unifyValue, ReadsBack spellId a := by
    refine List.forall_mem_map.2 fun a member => ?_
    exact readsBack_spellId (a := unifyValue a) (known a member) fun identifier =>
      absurd identifier (others a member)
  have distinct : ((before.map unifyValue).map (·.name) ++
      ((⟨key, id⟩ : Attribute) :: after).map (·.name)).Nodup := by
    have given := names.2
    rwa [List.map_append, ← show (before.map unifyValue).map (·.name) = before.map (·.name) from
      List.map_map ..] at given
  obtain ⟨first, _, apart⟩ := List.nodup_append.1 distinct
  have fresh : key ∉ (before.map unifyValue).map (·.name) :=
    fun member => apart key member key List.mem_cons_self rfl
  have written : spellId (unifyValue ⟨key, id⟩) = attr key (unifyBreaks id) :=
    spellId_identifier _ holds _
  rw [unifyBreaks_openTag valid fun a member => unifies_spellId (names.1 a member), tagMarkup,
    List.map_append, List.map_cons, List.flatMap_append, List.flatMap_cons, written] at read
  simp only [List.cons_append, List.append_assoc] at read
  exact get?_of_nextToken false valid spelled first
    (names.1 ⟨key, id⟩ (List.mem_append_right _ List.mem_cons_self)) fresh _ _ read

/-- The tags of a fence with its identifier, each with the attribute that holds it. -/
def identifierTags (options : Options) (token : FenceToken) (id : Text) : List (Text × Text) :=
  if isChartFence options token then
    [("id", tagMarkup spellId "div" [⟨"id", id⟩, ⟨"class", "echarts-chart"⟩,
      ⟨"data-option", token.content⟩, ⟨"style", chartStyle options.chartHeight⟩])]
  else
    [("data-target", tagMarkup spellId "button" (buttonAttributes id)),
      ("id", tagMarkup spellId "code" (codeAttributes (fenceLanguage token) id))]

theorem infix_identifierTags (options : Options) (token : FenceToken) (id : Text) :
    ∀ t ∈ identifierTags options token id,
      t.2 <:+: (fencePiece options token id).markupBy spellId ++ "\n".toList := by
  have tags {p : Piece} {name : Text} {attributes : Attributes} (own : (name, attributes) ∈ p.tags) :
      tagMarkup spellId name attributes <:+: p.markupBy spellId ++ "\n".toList :=
    (p.infix_markupBy spellId _ own).trans (List.prefix_append _ _).isInfix
  unfold identifierTags fencePiece
  split
  · refine List.forall_mem_singleton.2 (tags ?_)
    simp [chartPiece, lines_cons, lines_nil, Piece.tags, Piece.tagsAll]
  · refine List.forall_mem_cons.2 ⟨tags ?_, List.forall_mem_singleton.2 (tags ?_)⟩
    · simp [codePiece, lines_cons, lines_nil, Piece.tags, Piece.tagsAll, Piece.tagsAll_append]
    · simp [codePiece, lines_cons, lines_nil, Piece.tags, Piece.tagsAll]

theorem read_identifierTags (options : Options) (token : FenceToken) {id : Text} :
    ∀ t ∈ identifierTags options token id, ∀ (s rest : Text) (tag : Tag),
      nextToken .markup false (unifyBreaks (t.2 ++ s)) = (some (.openTag tag), rest) →
        tag.attributes.get? t.1 = some (readId id) := by
  have identifier : "id".toList ∈ ["id".toList, "data-target".toList] := by decide
  have target : "data-target".toList ∈ ["id".toList, "data-target".toList] := by decide
  unfold identifierTags
  split
  · refine List.forall_mem_singleton.2 fun s rest tag read => ?_
    exact get?_of_identifierTag (by decide) [] _ (named_of_areMarkupNames rfl)
      identifier nofun read
  · refine List.forall_mem_cons.2 ⟨fun s rest tag read => ?_,
      List.forall_mem_singleton.2 fun s rest tag read => ?_⟩
    · exact get?_of_identifierTag (by decide) [⟨"class", "copy-btn"⟩, ⟨"type", "button"⟩,
        ⟨"data-action", "copy-code"⟩] [] (named_of_areMarkupNames rfl) target (by decide) read
    · exact get?_of_identifierTag (by decide) [] _ (named_of_areMarkupNames rfl)
        identifier nofun read

/-- On its page the block is one element with its identifier, which finds it, and copy buttons point
to it. -/
structure Block.Carried (b : Block) (d : Document) : Prop where
  element : ∃ e, (if b.kind = .chart then chartElements d else d.named "code") = [e] ∧
    d.dom.attribute? e "id" = some b.id ∧ d.findById? b.id = some e
  buttons : ∀ i ∈ d.named "button", d.dom.attribute? i targetAttribute = some b.id

theorem carried_block {options : Options} {token : FenceToken} {b : Block} {d : Document}
    (reads : ReadsAsWritten b.id)
    (kind : b.kind = if isChartFence options token then .chart else .code (fenceLanguage token))
    (holds : d.Holds (pageTree (fenceTrees options token b.id ++ [.text "\n"]))) : b.Carried d := by
  have kept : replaceNull b.id = b.id :=
    replaceNull_of_absent fun null => (reads.plain _ null).1 rfl
  constructor
  · cases chart : isChartFence options token with
    | true =>
        have part : (fenceParts options token b.id).filter (Tree.hasClass "echarts-chart") =
            [chartTree (unifyBreaks token.content) b.id options.chartHeight] := by
          rw [fenceParts, if_pos chart]
          rfl
        obtain ⟨e, found, own, byId⟩ := found_block reads holds passesOver_class part
        have identified : (chartTree (unifyBreaks token.content) b.id
            options.chartHeight).attribute? "id" = some b.id := congrArg some kept
        refine ⟨e, ?_, ?_, byId identified⟩
        · rw [kind, if_pos chart, if_pos rfl, chartElements, Document.withClass_page holds]
          exact found
        · rw [Dom.attribute?, own]
          exact identified
    | false =>
        have part : (fenceParts options token b.id).filter (Tree.isNamed "code") =
            [codeTree (unifyBreaks (fenceLanguage token)) (unifyBreaks token.content) b.id] := by
          rw [fenceParts, if_neg (by simp [chart])]
          rfl
        obtain ⟨e, found, own, byId⟩ :=
          found_block reads holds (passesOver_isNamed (by decide)) part
        have identified : (codeTree (unifyBreaks (fenceLanguage token)) (unifyBreaks token.content)
            b.id).attribute? "id" = some b.id := congrArg some kept
        refine ⟨e, ?_, ?_, byId identified⟩
        · rw [kind, if_neg (by simp [chart]), Document.named_page holds (by decide)]
          exact found
        · rw [Dom.attribute?, own]
          exact identified
  · intro i button
    rw [Document.named_page holds (by decide)] at button
    obtain ⟨⟨i, t⟩, found, rfl⟩ := List.mem_map.1 button
    have part : t ∈ (fenceParts options token b.id).filter (Tree.isNamed "button") := by
      rw [← foundAll_fenceTrees options token reads.plain (passesOver_isNamed (by decide)) 4]
      rw [Tree.foundAll_append, Tree.foundAll_text rfl, List.append_nil] at found
      exact List.mem_map_of_mem found
    have inside : (i, t) ∈ (pageTree (fenceTrees options token b.id ++ [.text "\n"])).subtrees 1 := by
      rw [Document.subtrees_page]
      exact List.mem_append_right _ (List.mem_of_mem_filter found)
    rw [Dom.attribute?, (holds.held.of_mem_subtrees _ inside).element?]
    unfold fenceParts at part
    split at part
    · cases part
    · rw [List.filter_cons_of_pos rfl, List.filter_cons_of_neg Bool.false_ne_true,
        List.filter_nil, List.mem_singleton] at part
      rw [part]
      rfl

/-- A fence is rendered to a block with the identifier it was given, whatever the prefix. If that
reads as it is written, the block carries it, and its buttons point to it; and in each tag where it
was written it is read if and only if it reads so, whatever stands behind the tag. -/
theorem block_carries_identifier (options : Options) (token : FenceToken) (index : Nat) :
    ∃ b : Block,
      renderFence (m := m) ⟨.html, options, none⟩ token (blockId options.idPrefix index) = pure b ∧
      b.id = blockId options.idPrefix index ∧
      (b.kind = .chart ↔ isChartFence options token = true) ∧
      (ReadsAsWritten b.id → b.Carried (Document.parse b.html)) ∧
      ∀ t ∈ identifierTags options token b.id, t.2 <:+: b.html ∧
        ∀ (s rest : Text) (tag : Tag),
          nextToken .markup false (unifyBreaks (t.2 ++ s)) = (some (.openTag tag), rest) →
            (tag.attributes.get? t.1 = some b.id ↔ ReadsAsWritten b.id) := by
  let id := blockId options.idPrefix index
  refine ⟨_, renderFence_piece options token id, rfl, ?_, fun reads => ?_, fun t member => ?_⟩
  · split <;> simp_all
  · exact carried_block reads rfl (parse_block options token reads)
  · refine ⟨infix_identifierTags options token id t member, fun s rest tag read => ?_⟩
    rw [read_identifierTags options token t member s rest tag read, Option.some_inj,
      readId_eq_self_iff]

/-- A prefix with characters that are escaped elsewhere. -/
theorem block_carries_identifier_prefix :
    let options : Options := { idPrefix := some "it's <a> & b" }
    let id : Text := "it's <a> & b-code-block-3"
    ReadsAsWritten id ∧ ∃ b : Block,
      renderFence (m := Id) ⟨.html, options, none⟩ ⟨"<code id=\"x\">", "rust"⟩ id = pure b ∧
      b.Carried (Document.parse b.html) := by
  intro options id
  have reads : ReadsAsWritten id := by decide +kernel
  obtain ⟨b, rendered, named, _, carries, _⟩ :=
    block_carries_identifier (m := Id) options ⟨"<code id=\"x\">", "rust"⟩ 3
  exact ⟨reads, b, rendered, carries (named ▸ reads)⟩

/-- A quote in the prefix ends the identifier, so it finds nothing, and the button points to what
stands before the quote. -/
theorem block_carries_identifier_quote :
    let options : Options := { idPrefix := some "a\"b" }
    let b : Block := renderFence (m := Id) ⟨.html, options, none⟩ ⟨"x", ""⟩
      (blockId options.idPrefix 1)
    let d := Document.parse b.html
    b.id = "a\"b-code-block-1" ∧ d.findById? b.id = none ∧
      (d.named "button").map (d.dom.attribute? · targetAttribute) = [some "a".toList] := by
  decide +kernel

end LivePage
