import LivePage.Proofs.Html.Breaks
import LivePage.Proofs.Html.Tree

/-!
Pages made of pieces. What a document implies around its body comes first, so the trees of the
pieces stand in one tree, with its nodes numbered in the order in which they are written.
-/

namespace LivePage.Html

/-- The tree of a document that says nothing of its root, its head and its body. -/
def pageTree (ts : List Tree) : Tree :=
  .element "html" [] [.element "head" [] [], .element "body" [] ts]

/-- A document that is one tree, numbered in document order. -/
structure Document.Holds (d : Document) (t : Tree) : Prop where
  first : d.root = 0
  root : d.dom.content? 0 = some .document
  child : d.dom.children 0 = [1]
  size : d.dom.size = t.size + 1
  held : t.HeldAt d.dom 1

namespace Document

def named (d : Document) (name : Text) : List NodeId :=
  d.nodes.filter fun i => (d.dom.element? i).any fun e => e.name = name

namespace Holds

variable {d : Document} {t : Tree}

theorem nodes (h : d.Holds t) : d.nodes = 0 :: (t.subtrees 1).map (·.1) := by
  have below : [1].flatMap (d.dom.descendantsTo t.size) = (t.subtrees 1).map (·.1) := by
    rw [List.flatMap_singleton, h.held.descendantsTo (Nat.le_refl _)]
  rw [Document.nodes, h.first, Dom.descendants, h.size, Dom.descendantsTo, h.child, below]

theorem filter_nodes (h : d.Holds t) {p : Option Element → Bool} (other : p none = false) :
    d.nodes.filter (fun i => p (d.dom.element? i)) =
      ((t.subtrees 1).filter fun q => p q.2.element?).map (·.1) := by
  have root : d.dom.element? 0 = none := by rw [Dom.element?, h.root]
  have same : ∀ q ∈ t.subtrees 1, p (d.dom.element? q.1) = p q.2.element? := by
    intro q member
    rw [(h.held.of_mem_subtrees q member).element?]
  rw [h.nodes, List.filter_cons_of_neg (by simp [root, other]), List.filter_map]
  exact congrArg (List.map _) (List.filter_congr same)

end Holds

section Page

variable {d : Document} {ts : List Tree}

theorem subtrees_page (ts : List Tree) : (pageTree ts).subtrees 1 =
    [(1, pageTree ts), (2, .element "head" [] []), (3, .element "body" [] ts)] ++
      Tree.subtreesAll 4 ts := by
  simp only [pageTree, Tree.subtrees, Tree.subtreesAll, List.append_nil]
  rfl

theorem named_page (h : d.Holds (pageTree ts)) {name : Text}
    (other : "html".toList ≠ name ∧ "head".toList ≠ name ∧ "body".toList ≠ name) :
    d.named name = (Tree.foundAll (Tree.isNamed name) 4 ts).map (·.1) := by
  have found := h.filter_nodes (p := fun e => e.any fun e => e.name = name) rfl
  have html : ((pageTree ts).element?.any fun e => e.name = name) = false := decide_eq_false other.1
  have head : ((Tree.element "head" [] []).element?.any fun e => e.name = name) = false :=
    decide_eq_false other.2.1
  have body : ((Tree.element "body" [] ts).element?.any fun e => e.name = name) = false :=
    decide_eq_false other.2.2
  rw [subtrees_page, List.filter_append] at found
  simp only [List.filter_cons, List.filter_nil, html, head, body, Bool.false_eq_true, if_false,
    List.nil_append] at found
  exact found

theorem withClass_page (h : d.Holds (pageTree ts)) (name : Text) :
    d.withClass name = (Tree.foundAll (Tree.hasClass name) 4 ts).map (·.1) := by
  have found := h.filter_nodes (p := fun e => e.any (·.hasClass name)) rfl
  have implied : ((pageTree ts).element?.any (·.hasClass name)) = false ∧
      ((Tree.element "head" [] []).element?.any (·.hasClass name)) = false ∧
      ((Tree.element "body" [] ts).element?.any (·.hasClass name)) = false := ⟨rfl, rfl, rfl⟩
  rw [subtrees_page, List.filter_append] at found
  simp only [List.filter_cons, List.filter_nil, implied, Bool.false_eq_true, if_false,
    List.nil_append] at found
  exact found

theorem findById?_page (h : d.Holds (pageTree ts)) (id : Text) :
    d.findById? id = ((Tree.foundAll (Tree.hasAttribute "id") 4 ts).find? fun q =>
      q.2.attribute? "id" = some id).map (·.1) := by
  have found := h.filter_nodes (p := fun e => e.bind (·.attributes.get? "id") = some id) rfl
  have narrow : ∀ q ∈ Tree.subtreesAll 4 ts,
      (decide (q.2.attribute? "id" = some id) && q.2.hasAttribute "id") =
        decide (q.2.attribute? "id" = some id) := by
    intro q _
    cases shown : q.2.attribute? "id" with
    | none => rfl
    | some value =>
        rw [Tree.hasAttribute, shown]
        exact Bool.and_true _
  rw [subtrees_page, List.filter_append] at found
  rw [Tree.foundAll, ← List.head?_filter, List.filter_filter, List.filter_congr narrow,
    ← List.head?_map, findById?, Dom.findById?, ← List.head?_filter]
  exact congrArg List.head? found

end Page
end Document

namespace Builder

/-- The state in which the body begins that a document implies. -/
def bodyStart : Builder :=
  let b := { start .empty with lenient := true }.openRoot []
  ((b.openHead []).pop.insertImplied "body").setMode .inBody

def bodyElement : Opened := ⟨3, ⟨.html, "body"⟩⟩

theorem bodyStart_ready : bodyStart.Ready bodyElement := by
  have element : ∃ name attributes, bodyStart.dom.content? bodyElement.id =
      some (.element { name, attributes }) := ⟨"body", [], by decide⟩
  refine ⟨⟨by decide, rfl, element, rfl, rfl, rfl, rfl, rfl⟩, rfl, by decide, ?_⟩
  intro q member
  have opened : bodyStart.opened = [bodyElement, ⟨1, ⟨.html, "html"⟩⟩] := by decide
  rw [opened, List.mem_cons, List.mem_singleton] at member
  rcases member with rfl | rfl
  · exact element
  · exact ⟨"html", [], by decide⟩

theorem bodyStart_holds {ts : List Tree} {d : Dom}
    (grows : bodyStart.dom.Grows bodyElement.id ts d) :
    (⟨d, 0⟩ : Document).Holds (pageTree ts) := by
  have start : bodyStart.dom.size = 4 := by decide
  have same (i : Nat) (old : i < 4) (other : i ≠ 3) : bodyStart.dom.SameAt d i :=
    grows.same i (start ▸ old) other
  have root := same 0 (by decide) (by decide)
  have html := same 1 (by decide) (by decide)
  have head := same 2 (by decide) (by decide)
  have children : d.children 3 = Tree.roots 4 ts := by
    have none : bodyStart.dom.children bodyElement.id = [] := by decide
    have behind := grows.children
    rwa [none, start] at behind
  have held : Tree.AllHeldAt d 4 ts := start ▸ grows.held
  have below : bodyStart.dom.children 1 = [2, 3] := by decide
  have body : (Tree.element "body" [] ts).HeldAt d 3 :=
    ⟨grows.content.trans (by decide), children, held⟩
  refine ⟨rfl, root.1.trans (by decide), root.2.trans (by decide), ?_, html.1.trans (by decide),
    html.2.trans below, ⟨head.1.trans (by decide), head.2.trans (by decide), trivial⟩, body,
    trivial⟩
  rw [grows.size, start, pageTree, Tree.size, Tree.sizeAll, Tree.sizeAll, Tree.sizeAll, Tree.size,
    Tree.size, Tree.sizeAll]
  omega

/-- A page may begin with a block, or hold nothing at all: either way the body is implied. -/
theorem start_receive_div (attributes : Attributes) :
    (start .empty).receive (.openTag ⟨"div", attributes, false⟩) =
      bodyStart.receive (.openTag ⟨"div", attributes, false⟩) := rfl

theorem start_receive_ending : (start .empty).receive .ending = bodyStart := rfl

theorem Ready.receive_ending {b : Builder} {o : Opened} (h : b.Ready o) :
    b.receive .ending = { b with dropsLineFeed := false } := by
  refine h.undropped.toInElement.feed ?_
  have none : b.templateModes.isEmpty = true := by rw [h.templates]; rfl
  simp only [inBody, none, if_true]

end Builder

section Spelled

variable {spell : Attribute → Text}

theorem readTokens_start {attributes : Attributes} (spelled : ∀ a ∈ attributes, ReadsBack spell a)
    (names : Piece.Named attributes) (rest : Text) (n : Nat) :
    Builder.readTokens (n + 1) (tagMarkup spell "div" attributes ++ rest) (.start .empty) =
      Builder.readTokens (n + 1) (tagMarkup spell "div" attributes ++ rest)
        Builder.bodyStart := by
  have valid : isMarkupName "div" = true := by decide
  have read := nextToken_spelled false valid spelled names.2 rest
  have lexing : (Builder.start .empty).lexing = .markup ∧ Builder.bodyStart.lexing = .markup :=
    ⟨rfl, rfl⟩
  have space : (Builder.start .empty).inOtherSpace = false ∧
      Builder.bodyStart.inOtherSpace = false := ⟨rfl, by decide⟩
  cases page : tagMarkup spell "div" attributes ++ rest with
  | nil => cases page
  | cons c s =>
      rw [page] at read
      simp only [Builder.readTokens, lexing, space, read, Builder.start_receive_div]

theorem readTokens_pieces {pieces : List Piece} (fits : Piece.FitsAll pieces)
    (spelled : Piece.EachAll (ReadsBack spell) pieces)
    (begins : ∀ p ∈ pieces.head?, ∃ attributes inner, p = .block "div" attributes inner) :
    let page := Piece.markupAllBy spell pieces
    (Builder.readTokens page.length page (.start .empty)).receive .ending =
      (Builder.readTokens page.length page Builder.bodyStart).receive .ending := by
  intro page
  cases pieces with
  | nil => exact Builder.start_receive_ending.trans Builder.bodyStart_ready.receive_ending.symm
  | cons p pieces =>
      obtain ⟨attributes, inner, rfl⟩ := begins p rfl
      obtain ⟨⟨_, names, _⟩, _⟩ := fits
      have split : page = tagMarkup spell "div" attributes ++
          (Piece.markupAllBy spell inner ++ tokenMarkup (.closeTag "div") ++
            Piece.markupAllBy spell pieces) :=
        List.append_assoc ..
      have long : page.length = (page.length - 1) + 1 := by
        rw [split, tagMarkup, List.cons_append, List.length_cons, Nat.add_sub_cancel]
      rw [long, split, readTokens_start spelled.1.1 names]

namespace Document

theorem root_parse (s : Text) : (parse s).root = 0 := (from_parseInto .empty s).2

theorem lexedText_markup {pieces : List Piece} (fits : Piece.FitsAll pieces)
    (unifies : Piece.EachAll (Unifies spell) pieces)
    (begins : ∀ p ∈ pieces.head?, ∃ attributes inner, p = .block "div" attributes inner) :
    lexedText (Piece.markupAllBy spell pieces) =
      Piece.markupAllBy spell (Piece.unifiedAll pieces) := by
  have lexed : lexedText (Piece.markupAllBy spell pieces) =
      unifyBreaks (Piece.markupAllBy spell pieces) := by
    cases pieces with
    | nil => rfl
    | cons p pieces =>
        obtain ⟨attributes, inner, rfl⟩ := begins p rfl
        rfl
  have unified := Piece.unifyBreaks_markupAll pieces [] fits unifies (.inl rfl)
  rw [List.append_nil, unifyBreaks, List.append_nil] at unified
  rw [lexed, unified]

/-- A page of pieces that fit is read as their trees, with one form of line breaks, if every
attribute is spelled so that it is read as it is. -/
theorem parse_markupBy {pieces : List Piece} (fits : Piece.FitsAll pieces)
    (spelled : Piece.EachAll (fun a => ReadsBack spell (unifyValue a)) pieces)
    (unifies : Piece.EachAll (Unifies spell) pieces)
    (begins : ∀ p ∈ pieces.head?, ∃ attributes inner, p = .block "div" attributes inner) :
    (parse (Piece.markupAllBy spell pieces)).Holds
      (pageTree (Piece.treesAll (Piece.unifiedAll pieces))) := by
  let shown := Piece.unifiedAll pieces
  have fits' : Piece.FitsAll shown := Piece.fitsAll_unifiedAll pieces fits
  have spelled' : Piece.EachAll (ReadsBack spell) shown := Piece.eachAll_unifiedAll pieces spelled
  have begins' : ∀ p ∈ shown.head?, ∃ attributes inner, p = .block "div" attributes inner := by
    intro p first
    cases pieces with
    | nil => cases first
    | cons q pieces =>
        obtain ⟨attributes, inner, rfl⟩ := begins q rfl
        cases first
        exact ⟨_, _, rfl⟩
  have text : shown.head?.any Piece.isText = false := by
    cases list : shown with
    | nil => rfl
    | cons p pieces =>
        obtain ⟨attributes, inner, rfl⟩ := begins' p (by rw [list]; rfl)
        rfl
  obtain ⟨b, read⟩ := readsTrees_pieces shown _ _ [] fits' spelled' Builder.bodyStart_ready
    (fun isText => absurd isText (Bool.eq_false_iff.1 text)) (.inl rfl)
  have reads := read.reads
  rw [List.append_nil] at reads
  have ended : (parse (Piece.markupAllBy spell pieces)).dom = b.dom := by
    change ((Builder.start .empty).read (Piece.markupAllBy spell pieces)).dom = b.dom
    rw [Builder.read, lexedText_markup fits unifies begins, readTokens_pieces fits' spelled' begins',
      reads.readTokens, read.ready.receive_ending]
  have same : parse (Piece.markupAllBy spell pieces) = ⟨b.dom, 0⟩ := by
    rw [← ended, ← root_parse (Piece.markupAllBy spell pieces)]
  rw [same]
  exact Builder.bodyStart_holds read.grows

/-- A page of pieces that fit is read as their trees, with one form of line breaks. -/
theorem parse_markup {pieces : List Piece} (fits : Piece.FitsAll pieces)
    (begins : ∀ p ∈ pieces.head?, ∃ attributes inner, p = .block "div" attributes inner) :
    (parse (Piece.markupAll pieces)).Holds
      (pageTree (Piece.treesAll (Piece.unifiedAll pieces))) := by
  have spelled : Piece.EachAll (fun a => ReadsBack attributeMarkup (unifyValue a)) pieces :=
    Piece.FitsAll.each (fun a valid => readsBack_attributeMarkup (a := unifyValue a) valid) pieces
      fits
  have unifies : Piece.EachAll (Unifies attributeMarkup) pieces :=
    Piece.FitsAll.each (fun _ valid => unifyBreaks_attribute valid) pieces fits
  rw [← Piece.markupAllBy_attributeMarkup]
  exact parse_markupBy fits spelled unifies begins

end Document

end Spelled
end LivePage.Html
