import LivePage.Proofs.Html.InBody

/-!
Markup that is read as it was written. Pieces of HTML are texts, elements that hold text alone, and
blocks that hold pieces; where they stand in the body of a document, reading their markup puts the
trees they stand for behind what was read before, and leaves the state of the reader as it was.
-/

namespace LivePage.Html

/-- HTML as it is written. -/
inductive Piece where
  | text (s : Text)
  | phrase (name : Text) (attributes : Attributes) (s : Text)
  | block (name : Text) (attributes : Attributes) (inner : List Piece)

namespace Piece

def isText : Piece → Bool
  | text _ => true
  | _ => false

mutual

def markup : Piece → Text
  | text s => escapeText s
  | phrase name attributes s =>
      tokenMarkup (.openTag ⟨name, attributes, false⟩) ++
        (escapeText s ++ tokenMarkup (.closeTag name))
  | block name attributes inner =>
      tokenMarkup (.openTag ⟨name, attributes, false⟩) ++
        (markupAll inner ++ tokenMarkup (.closeTag name))

def markupAll : List Piece → Text
  | [] => []
  | p :: rest => p.markup ++ markupAll rest

end

mutual

/-- The markup of a piece whose attributes are spelled in some way. -/
def markupBy (spell : Attribute → Text) : Piece → Text
  | text s => escapeText s
  | phrase name attributes s =>
      tagMarkup spell name attributes ++ (escapeText s ++ tokenMarkup (.closeTag name))
  | block name attributes inner =>
      tagMarkup spell name attributes ++
        (markupAllBy spell inner ++ tokenMarkup (.closeTag name))

def markupAllBy (spell : Attribute → Text) : List Piece → Text
  | [] => []
  | p :: rest => p.markupBy spell ++ markupAllBy spell rest

end

mutual

theorem markupBy_attributeMarkup : ∀ p : Piece, p.markupBy attributeMarkup = p.markup
  | text _ | phrase _ _ _ => rfl
  | block name attributes inner => by
      rw [markupBy, markup, markupAllBy_attributeMarkup inner]
      rfl

theorem markupAllBy_attributeMarkup : ∀ ps : List Piece,
    markupAllBy attributeMarkup ps = markupAll ps
  | [] => rfl
  | p :: ps => by
      rw [markupAllBy, markupAll, markupBy_attributeMarkup p, markupAllBy_attributeMarkup ps]

end

theorem markupAll_append (ps qs : List Piece) :
    markupAll (ps ++ qs) = markupAll ps ++ markupAll qs := by
  induction ps with
  | nil => rfl
  | cons p ps ih => rw [List.cons_append, markupAll, markupAll, ih, List.append_assoc]

theorem markupAllBy_append (spell : Attribute → Text) (ps qs : List Piece) :
    markupAllBy spell (ps ++ qs) = markupAllBy spell ps ++ markupAllBy spell qs := by
  induction ps with
  | nil => rfl
  | cons p ps ih => rw [List.cons_append, markupAllBy, markupAllBy, ih, List.append_assoc]

mutual

def tags : Piece → List (Text × Attributes)
  | text _ => []
  | phrase name attributes _ => [(name, attributes)]
  | block name attributes inner => (name, attributes) :: tagsAll inner

def tagsAll : List Piece → List (Text × Attributes)
  | [] => []
  | p :: rest => p.tags ++ tagsAll rest

end

theorem tagsAll_append (ps qs : List Piece) : tagsAll (ps ++ qs) = tagsAll ps ++ tagsAll qs := by
  induction ps with
  | nil => rfl
  | cons p ps ih => rw [List.cons_append, tagsAll, tagsAll, ih, List.append_assoc]

mutual

theorem infix_markupBy (spell : Attribute → Text) : ∀ p : Piece, ∀ t ∈ p.tags,
    tagMarkup spell t.1 t.2 <:+: p.markupBy spell
  | text _, _, member => absurd member List.not_mem_nil
  | phrase name attributes s, t, member => by
      rw [tags, List.mem_singleton] at member
      subst member
      exact (List.prefix_append _ _).isInfix
  | block name attributes inner, t, member => by
      rw [tags, List.mem_cons] at member
      rcases member with rfl | inside
      · exact (List.prefix_append _ _).isInfix
      · exact ((infix_markupAllBy spell inner t inside).trans (List.prefix_append _ _).isInfix).trans
          (List.suffix_append _ _).isInfix

theorem infix_markupAllBy (spell : Attribute → Text) : ∀ ps : List Piece, ∀ t ∈ tagsAll ps,
    tagMarkup spell t.1 t.2 <:+: markupAllBy spell ps
  | [], _, member => absurd member List.not_mem_nil
  | p :: ps, t, member => by
      rcases List.mem_append.1 member with first | later
      · exact (infix_markupBy spell p t first).trans (List.prefix_append _ _).isInfix
      · exact (infix_markupAllBy spell ps t later).trans (List.suffix_append _ _).isInfix

end

def textTrees (s : Text) : List Tree := if (shownText s).isEmpty then [] else [.text (shownText s)]

mutual

def trees : Piece → List Tree
  | text s => textTrees s
  | phrase name attributes s => [.element name (attributes.map readBack) (textTrees s)]
  | block name attributes inner => [.element name (attributes.map readBack) (treesAll inner)]

def treesAll : List Piece → List Tree
  | [] => []
  | p :: rest => p.trees ++ treesAll rest

end

theorem treesAll_append (ps qs : List Piece) :
    treesAll (ps ++ qs) = treesAll ps ++ treesAll qs := by
  induction ps with
  | nil => rfl
  | cons p ps ih => rw [List.cons_append, treesAll, treesAll, ih, List.append_assoc]

theorem foundAll_textTrees {p : Tree → Bool} (other : ∀ s, p (.text s) = false) (i : Nat)
    (s : Text) : Tree.foundAll p i (textTrees s) = [] := by
  unfold textTrees
  split
  · rfl
  · exact Tree.foundAll_text (other _) i

theorem textContentAll_textTrees (s : Text) : Tree.textContentAll (textTrees s) = shownText s := by
  unfold textTrees
  split
  · next none => exact (List.isEmpty_iff.1 none).symm
  · exact List.append_nil _

/-- Whether names of attributes are names that are written, and different ones. -/
def Named (attributes : Attributes) : Prop :=
  (∀ a ∈ attributes, isMarkupName a.name) ∧ (attributes.map (·.name)).Nodup

mutual

/-- Pieces that can be read back. A line feed in front of what a `pre` holds would be dropped, and
texts side by side are one. -/
def Fits : Piece → Prop
  | text _ => True
  | phrase name attributes _ => name ∈ phraseElements ∧ Named attributes
  | block name attributes inner =>
      name ∈ blockElements ∧ Named attributes ∧ FitsAll inner ∧
        (name = "pre".toList → inner.head?.any isText = false)

def FitsAll : List Piece → Prop
  | [] => True
  | p :: rest => p.Fits ∧ FitsAll rest ∧ (p.isText → rest.head?.any isText = false)

end

mutual

def Each (P : Attribute → Prop) : Piece → Prop
  | text _ => True
  | phrase _ attributes _ => ∀ a ∈ attributes, P a
  | block _ attributes inner => (∀ a ∈ attributes, P a) ∧ EachAll P inner

def EachAll (P : Attribute → Prop) : List Piece → Prop
  | [] => True
  | p :: rest => p.Each P ∧ EachAll P rest

end

mutual

theorem Fits.each {P : Attribute → Prop} (named : ∀ a, isMarkupName a.name = true → P a) :
    ∀ p : Piece, p.Fits → p.Each P
  | text _, _ => trivial
  | phrase _ _ _, fits => fun a member => named a (fits.2.1 a member)
  | block _ _ inner, fits => ⟨fun a member => named a (fits.2.1.1 a member),
      FitsAll.each named inner fits.2.2.1⟩

theorem FitsAll.each {P : Attribute → Prop} (named : ∀ a, isMarkupName a.name = true → P a) :
    ∀ ps : List Piece, FitsAll ps → EachAll P ps
  | [], _ => trivial
  | p :: ps, fits => ⟨Fits.each named p fits.1, FitsAll.each named ps fits.2.1⟩

end

mutual

theorem Each.imp {P Q : Attribute → Prop} (implies : ∀ a, P a → Q a) :
    ∀ p : Piece, p.Each P → p.Each Q
  | text _, _ => trivial
  | phrase _ _ _, each => fun a member => implies a (each a member)
  | block _ _ inner, each => ⟨fun a member => implies a (each.1 a member),
      EachAll.imp implies inner each.2⟩

theorem EachAll.imp {P Q : Attribute → Prop} (implies : ∀ a, P a → Q a) :
    ∀ ps : List Piece, EachAll P ps → EachAll Q ps
  | [], _ => trivial
  | p :: ps, each => ⟨Each.imp implies p each.1, EachAll.imp implies ps each.2⟩

end

theorem eachAll_append {P : Attribute → Prop} {ps qs : List Piece} (first : EachAll P ps)
    (second : EachAll P qs) : EachAll P (ps ++ qs) := by
  induction ps with
  | nil => exact second
  | cons p ps ih => exact ⟨first.1, ih first.2⟩

theorem endsText_markupAllBy (spell : Attribute → Text) {pieces : List Piece}
    (other : pieces.head?.any isText = false) {rest : Text} (ends : EndsText rest) :
    EndsText (markupAllBy spell pieces ++ rest) := by
  cases pieces with
  | nil => exact ends
  | cons q pieces =>
      cases q with
      | text s => cases other
      | phrase name attributes s => exact .inr ⟨'<', _, rfl, rfl⟩
      | block name attributes inner => exact .inr ⟨'<', _, rfl, rfl⟩

end Piece

theorem reads_openTag {b : Builder} {o : Opened} (h : b.InElement o) {spell : Attribute → Text}
    {name : Text} (valid : isMarkupName name = true) {attributes : Attributes}
    (spelled : ∀ a ∈ attributes, ReadsBack spell a) (names : Piece.Named attributes) (rest : Text) :
    Reads (tagMarkup spell name attributes ++ rest) b rest
      ({ b with dropsLineFeed := false }.openInBody ⟨name, attributes.map readBack, false⟩) := by
  rw [← Builder.receive_openTag h]
  refine .token h.lexing (nextToken_spelled _ valid spelled names.2 rest) ?_
  simp only [tagMarkup, List.cons_append, List.length_cons, List.length_append]
  omega

theorem reads_closeTag {b : Builder} {o : Opened} (h : b.InElement o) {name : Text}
    (valid : isMarkupName name = true ∧ name ≠ "body".toList ∧ name ≠ "html".toList) (rest : Text) :
    Reads (tokenMarkup (.closeTag name) ++ rest) b rest
      ({ b with dropsLineFeed := false, lexing := .markup }.closeInBody name) := by
  rw [← Builder.receive_closeTag h valid.2]
  refine .token h.lexing (nextToken_closeTag _ valid.1 rest) ?_
  have longer := length_tokenMarkup_closeTag name
  rw [List.length_append]
  omega

/-- What reading some markup comes to: trees in the element where it stands, and nothing else. -/
structure ReadsTrees (s : Text) (ts : List Tree) (o : Opened) (rest : Text) (b b' : Builder) :
    Prop where
  reads : Reads (s ++ rest) b rest b'
  ready : b'.Ready o
  opened : b'.opened = b.opened
  grows : b.dom.Grows o.id ts b'.dom

namespace ReadsTrees

theorem refl {b : Builder} {o : Opened} (h : b.Ready o) (rest : Text) :
    ReadsTrees [] [] o rest b b :=
  ⟨.refl rest b, h, rfl, .refl b.dom o.id⟩

theorem trans {s t rest : Text} {ts us : List Tree} {o : Opened} {b b' b'' : Builder}
    (h : b.Ready o) (first : ReadsTrees s ts o (t ++ rest) b b')
    (second : ReadsTrees t us o rest b' b'') : ReadsTrees (s ++ t) (ts ++ us) o rest b b'' := by
  refine ⟨?_, second.ready, second.opened.trans first.opened,
    first.grows.trans second.grows h.present⟩
  rw [List.append_assoc]
  exact first.reads.trans second.reads

theorem endsApart {s rest : Text} {o : Opened} {b b' : Builder} {name : Text}
    {attributes : Attributes} {inner : List Tree}
    (read : ReadsTrees s [.element name attributes inner] o rest b b') : b'.EndsApart o := by
  intro i last
  have children : b'.dom.children o.id = b.dom.children o.id ++ [b.dom.size] := read.grows.children
  rw [children, List.getLast?_concat] at last
  cases last
  rw [Dom.isText, read.grows.held.1.1]

end ReadsTrees

theorem readsTrees_text {b : Builder} {o : Opened} (h : b.Ready o) (drops : b.dropsLineFeed = false)
    (apart : b.EndsApart o) (s : Text) {rest : Text} (ends : EndsText rest) :
    ∃ b', ReadsTrees (escapeText s) (Piece.textTrees s) o rest b b' ∧ b'.dropsLineFeed = false := by
  have unwritten : b.dom.Written o.id [] b.dom := ⟨.refl b.dom o.id, fun _ => apart⟩
  obtain ⟨d', frames, reads, written⟩ := reads_text h.toInElement drops h.present unwritten s ends
  have grows : b.dom.Grows o.id (Piece.textTrees s) d' := written.grows
  have inside := h.toInElement.grown grows.content frames
  refine ⟨b.grown d' frames, ⟨reads, h.of_grows inside grows ?_, rfl, grows⟩, rfl⟩
  rw [← h.formatting, ← h.lexing]
  rfl

theorem readsTrees_phrase {b : Builder} {o : Opened} (h : b.Ready o) {name : Text}
    (phrase : name ∈ phraseElements) {attributes : Attributes} (names : Piece.Named attributes)
    {spell : Attribute → Text} (spelled : ∀ a ∈ attributes, ReadsBack spell a) (s rest : Text) :
    ∃ b', ReadsTrees ((Piece.phrase name attributes s).markupBy spell)
      [.element name (attributes.map readBack) (Piece.textTrees s)] o rest b b' ∧
        b'.dropsLineFeed = false := by
  have valid := isMarkupName_of_phrase phrase
  let attributes' := attributes.map readBack
  obtain ⟨frames, opens⟩ := h.undropped.openInBody_phrase phrase attributes'
  let formatting := Builder.Ready.brought b.dom.size name attributes'
  let b₁ := b.within o name attributes' formatting frames false
  have own : ∀ f ∈ formatting, f.hasId b.dom.size = true := by
    intro f member
    simp only [formatting, Builder.Ready.brought] at member
    split at member
    · rw [List.mem_singleton.1 member]
      exact decide_eq_true rfl
    · cases member
  have first : Reads (tagMarkup spell name attributes ++
      (escapeText s ++ (tokenMarkup (.closeTag name) ++ rest))) b
      (escapeText s ++ (tokenMarkup (.closeTag name) ++ rest)) b₁ := by
    have reads := reads_openTag h.toInElement valid.1 spelled names
      (escapeText s ++ (tokenMarkup (.closeTag name) ++ rest))
    rwa [opens] at reads
  have h₁ : b₁.InElement ⟨b.dom.size, ⟨.html, name⟩⟩ :=
    h.toInElement.within name attributes' own frames false
  have grows₁ : b.dom.Grows o.id [.element name attributes' []] b₁.dom :=
    .of_element name attributes' h.present
  have unwritten : b₁.dom.Written b.dom.size [] b₁.dom := by
    refine ⟨.refl _ _, fun _ i last => ?_⟩
    rw [grows₁.held.1.2.1] at last
    cases last
  obtain ⟨d', frames', second, written⟩ := reads_text h₁ rfl h₁.present unwritten s
    (endsText_tokenMarkup_closeTag name rest)
  have grows₂ : b₁.dom.Grows b.dom.size (Piece.textTrees s) d' := written.grows
  have h₂ := h₁.grown grows₂.content frames'
  have third := reads_closeTag h₂ valid rest
  rw [Builder.closeInBody_phrase rfl phrase rfl] at third
  have grows := grows₁.inside grows₂ h.present
  have reads := first.trans (second.trans third)
  rw [← List.append_assoc (escapeText s), ← List.append_assoc] at reads
  exact ⟨_, ⟨reads, h.of_grows h₂ grows rfl, rfl, grows⟩, rfl⟩

theorem readsTrees_block {b : Builder} {o : Opened} (h : b.Ready o) {name : Text}
    (block : name ∈ blockElements) {attributes : Attributes} (names : Piece.Named attributes)
    {spell : Attribute → Text} (spelled : ∀ a ∈ attributes, ReadsBack spell a)
    {s rest : Text} {ts : List Tree}
    (inner : ∀ (b' : Builder) (o' : Opened), b'.Ready o' →
      (b'.dropsLineFeed = true → name = "pre".toList) → b'.EndsApart o' →
      ∃ b'', ReadsTrees s ts o' (tokenMarkup (.closeTag name) ++ rest) b' b'') :
    ∃ b', ReadsTrees (tagMarkup spell name attributes ++
        (s ++ tokenMarkup (.closeTag name)))
      [.element name (attributes.map readBack) ts] o rest b b' ∧ b'.dropsLineFeed = false := by
  have valid := isMarkupName_of_block block
  let attributes' := attributes.map readBack
  obtain ⟨frames, drops, feed, opens⟩ := h.undropped.openInBody_block block attributes'
  let b₁ := b.within o name attributes' [] frames drops
  have first : Reads (tagMarkup spell name attributes ++
      (s ++ (tokenMarkup (.closeTag name) ++ rest))) b
      (s ++ (tokenMarkup (.closeTag name) ++ rest)) b₁ := by
    have reads := reads_openTag h.toInElement valid.1 spelled names
      (s ++ (tokenMarkup (.closeTag name) ++ rest))
    rwa [opens] at reads
  have h₁ : b₁.Ready ⟨b.dom.size, ⟨.html, name⟩⟩ := h.within block attributes' frames drops
  have grows₁ : b.dom.Grows o.id [.element name attributes' []] b₁.dom :=
    .of_element name attributes' h.present
  have empty : b₁.EndsApart ⟨b.dom.size, ⟨.html, name⟩⟩ := by
    intro i last
    rw [grows₁.held.1.2.1] at last
    cases last
  obtain ⟨b₂, second⟩ := inner b₁ _ h₁ (fun set => (feed set).resolve_left Bool.false_ne_true) empty
  have opened : { b₂ with dropsLineFeed := false, lexing := .markup }.opened =
      ⟨b.dom.size, ⟨.html, name⟩⟩ :: b.opened := second.opened
  have third := reads_closeTag second.ready.toInElement valid rest
  rw [Builder.closeInBody_block opened block] at third
  have grows := grows₁.inside second.grows h.present
  have reads := first.trans (second.reads.trans third)
  rw [← List.append_assoc s, ← List.append_assoc] at reads
  refine ⟨_, ⟨reads, h.of_grows second.ready.toInElement grows ?_, rfl, grows⟩, rfl⟩
  rw [← second.ready.formatting]

mutual

theorem readsTrees_piece {spell : Attribute → Text} :
    ∀ (p : Piece) (b : Builder) (o : Opened) (rest : Text), p.Fits → p.Each (ReadsBack spell) →
    b.Ready o → (p.isText = true → b.dropsLineFeed = false ∧ b.EndsApart o ∧ EndsText rest) →
    ∃ b', ReadsTrees (p.markupBy spell) p.trees o rest b b' ∧ b'.dropsLineFeed = false ∧
      (p.isText = true ∨ b'.EndsApart o)
  | .text s, b, o, rest, _, _, h, text => by
      obtain ⟨drops, apart, ends⟩ := text rfl
      obtain ⟨b', read, drops⟩ := readsTrees_text h drops apart s ends
      exact ⟨b', read, drops, .inl rfl⟩
  | .phrase name attributes s, b, o, rest, fits, spelled, h, _ => by
      obtain ⟨b', read, drops⟩ := readsTrees_phrase h fits.1 fits.2 spelled s rest
      exact ⟨b', read, drops, .inr read.endsApart⟩
  | .block name attributes inner, b, o, rest, fits, ⟨spelled, within⟩, h, _ => by
      obtain ⟨block, names, fits, pre⟩ := fits
      have below : ∀ (b' : Builder) (o' : Opened), b'.Ready o' →
          (b'.dropsLineFeed = true → name = "pre".toList) → b'.EndsApart o' →
          ∃ b'', ReadsTrees (Piece.markupAllBy spell inner) (Piece.treesAll inner) o'
            (tokenMarkup (.closeTag name) ++ rest) b' b'' := by
        intro b' o' h' drops apart
        refine readsTrees_pieces inner b' o' _ fits within h' ?_
          (endsText_tokenMarkup_closeTag name rest)
        intro text
        refine ⟨?_, apart⟩
        by_contra set
        rw [pre (drops (eq_true_of_ne_false set))] at text
        cases text
      obtain ⟨b', read, drops⟩ := readsTrees_block h block names spelled below
      exact ⟨b', read, drops, .inr read.endsApart⟩

theorem readsTrees_pieces {spell : Attribute → Text} :
    ∀ (pieces : List Piece) (b : Builder) (o : Opened) (rest : Text),
    Piece.FitsAll pieces → Piece.EachAll (ReadsBack spell) pieces → b.Ready o →
    (pieces.head?.any Piece.isText = true → b.dropsLineFeed = false ∧ b.EndsApart o) →
    EndsText rest →
    ∃ b', ReadsTrees (Piece.markupAllBy spell pieces) (Piece.treesAll pieces) o rest b b'
  | [], b, o, rest, _, _, h, _, _ => ⟨b, .refl h rest⟩
  | p :: pieces, b, o, rest, fits, spelled, h, text, ends => by
      obtain ⟨first, others, spaced⟩ := fits
      obtain ⟨b', read, drops, apart⟩ := readsTrees_piece p b o _ first spelled.1 h fun isText =>
        ⟨(text isText).1, (text isText).2, Piece.endsText_markupAllBy spell (spaced isText) ends⟩
      obtain ⟨b'', more⟩ := readsTrees_pieces pieces b' o rest others spelled.2 read.ready
        (fun next => ⟨drops, apart.resolve_left fun isText => by
          rw [spaced isText] at next
          cases next⟩) ends
      exact ⟨b'', read.trans h more⟩

end
end LivePage.Html
