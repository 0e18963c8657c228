import LivePage.Proofs.Html.Reading
import LivePage.Proofs.Html.Store
import LivePage.Proofs.Html.Strewn

/-!
What the rules of the body and of tables leave of a document without drawings, templates and frame
sets. Every element is one of HTML with attributes of a kind, nothing stands in an element that can
hold nothing, and what is open or in force could be opened again. Each operation of the builder
keeps that.
-/

namespace LivePage.Html

def holderNames : List Text :=
  ["script".toList, "html", "head", "body", "a", "blockquote", "ul", "ol", "li", "pre", "code", "p",
    "h1", "h2", "h3", "h4", "h5", "h6", "section", "table", "thead", "tbody", "tr", "th", "td",
    "em", "strong", "del", "sup", "sub", "u", "div", "span", "button"]

def hollowNames : List Text := ["br", "hr", "img", "input"]

/-- The elements whose tags may come again, with more attributes for them. -/
def spineNames : List Text := ["html", "body"]

/-- A property of the attributes of elements by name that implied elements have and that is kept
when the attributes of a second tag are added. -/
structure Lasting (good : Text → Attributes → Prop) : Prop where
  nil : ∀ name, name ≠ "script".toList → good name []
  merge : ∀ name, ∀ other ∈ spineNames, ∀ a b, good name a → good other b →
    good name (Attributes.addMissing a b)

structure Element.Sober (good : Text → Attributes → Prop) (e : Element) : Prop where
  space : e.space = .html
  name : e.name ∈ holderNames ++ hollowNames
  inside : e.inside = none
  attributes : good e.name e.attributes

def Content.Sober (good : Text → Attributes → Prop) : Content → Prop
  | .element e => e.Sober good
  | .comment s => IsCommentText s
  | .document | .text _ => True
  | .fragment | .doctype _ => False

def Content.MayHold : Content → Prop
  | .element e => e.name ∈ holderNames
  | _ => True

namespace Dom

def Holds (d : Dom) (p : NodeId) : Prop := ∃ c, d.content? p = some c ∧ c.MayHold

/-- A store of sober nodes, in which only those have children that may have them. -/
structure Sober (good : Text → Attributes → Prop) (d : Dom) : Prop where
  lasting : Lasting good
  contents : ∀ i c, d.content? i = some c → c.Sober good
  holders : ∀ i p, d.parent? i = some p → d.Holds p

theorem parent?_add (d : Dom) (c : Content) (i : NodeId) : (d.add c).1.parent? i = d.parent? i := by
  simp only [add, parent?, Node.parentIn, Array.getElem?_push]
  by_cases new : i = d.nodes.size
  · simp [new]
  · simp [new]

theorem parent?_mapAttributes (d : Dom) (i : NodeId) (f : Attributes → Attributes) (j : NodeId) :
    (d.mapAttributes i f).parent? j = d.parent? j := by
  have modified := Node.parentIn_modify d.nodes i
    (fun n => { n with content := mapAttributesOf f n.content }) j
  refine modified.trans ?_
  split <;> rfl

theorem parent?_extendText (d : Dom) (i : NodeId) (more : Text) (j : NodeId) :
    (d.extendText i more).parent? j = d.parent? j := by
  have modified := Node.parentIn_modify d.nodes i
    (fun n => { n with content := extendTextOf more n.content }) j
  refine modified.trans ?_
  split <;> rfl

theorem parent?_insert {d : Dom} {p q i j : NodeId} {mark : Option NodeId}
    (found : (d.insert p mark i).parent? j = some q) : q = p ∨ d.parent? j = some q := by
  have unlinked : Node.parentIn (Node.unlink d.nodes i) j = some q → d.parent? j = some q := by
    rw [Node.parentIn_unlink]
    split
    · nofun
    · exact id
  unfold insert at found
  simp only at found
  split at found
  · exact .inr found
  · next n shown =>
      split at found
      · have present := (Array.getElem?_eq_some_iff.1 shown).1
        have linked := (Node.parentIn_link p mark present j).symm.trans found
        split at linked
        · exact .inl (Option.some.inj linked).symm
        · exact .inr (unlinked linked)
      · exact .inr found

/-- A store that has grown soberly out of another. -/
structure SoberFrom (good : Text → Attributes → Prop) (d e : Dom) : Prop where
  sober : e.Sober good
  kept : ∀ p, d.Holds p → e.Holds p

namespace SoberFrom

variable {good : Text → Attributes → Prop} {d e : Dom}

theorem refl (sober : d.Sober good) : d.SoberFrom good d := ⟨sober, fun _ => id⟩

theorem change (h : d.SoberFrom good e) {f : Dom} (tree : ∀ i, f.parent? i = e.parent? i)
    (contents : ∀ i c, f.content? i = some c → c.Sober good)
    (kept : ∀ p, e.Holds p → f.Holds p) : d.SoberFrom good f :=
  ⟨⟨h.sober.lasting, contents, fun i p found => kept p (h.sober.holders i p (tree i ▸ found))⟩,
    fun p holds => kept p (h.kept p holds)⟩

theorem changeAt (h : d.SoberFrom good e) {f : Dom} {i : NodeId} {g : Content → Content}
    (tree : ∀ j, f.parent? j = e.parent? j)
    (changed : ∀ j, f.content? j = if i = j then (e.content? j).map g else e.content? j)
    (sober : ∀ c, c.Sober good → (g c).Sober good) (holds : ∀ c, c.MayHold → (g c).MayHold) :
    d.SoberFrom good f := by
  refine h.change tree (fun j c shown => ?_) fun p ⟨c, shown, may⟩ => ?_
  · rw [changed] at shown
    split at shown
    · obtain ⟨c', old, rfl⟩ := Option.map_eq_some_iff.1 shown
      exact sober c' (h.sober.contents j c' old)
    · exact h.sober.contents j c shown
  · rw [Holds, changed, shown]
    split
    · exact ⟨g c, rfl, holds c may⟩
    · exact ⟨c, rfl, may⟩

theorem add (h : d.SoberFrom good e) {c : Content} (sober : c.Sober good) :
    d.SoberFrom good (e.add c).1 := by
  refine h.change (fun i => e.parent?_add c i) (fun i c' shown => ?_) fun p holds => ?_
  · rw [content?_add] at shown
    split at shown
    · cases shown
      exact sober
    · exact h.sober.contents i c' shown
  · obtain ⟨c', shown, may⟩ := holds
    exact ⟨c', (content?_add_of_lt e c (lt_size_of_content? shown)).trans shown, may⟩

theorem insert (h : d.SoberFrom good e) {p : NodeId} (holds : e.Holds p) (mark : Option NodeId)
    (i : NodeId) : d.SoberFrom good (e.insert p mark i) := by
  have same (q : NodeId) : e.Holds q → (e.insert p mark i).Holds q :=
    fun ⟨c, shown, may⟩ => ⟨c, (content?_insert e p mark i q).trans shown, may⟩
  refine ⟨⟨h.sober.lasting, fun j c shown => ?_, fun j q found => same q ?_⟩,
    fun q holds => same q (h.kept q holds)⟩
  · exact h.sober.contents j c ((content?_insert e p mark i j).symm.trans shown)
  · rcases parent?_insert found with rfl | old
    · exact holds
    · exact h.sober.holders j q old

theorem append (h : d.SoberFrom good e) {p : NodeId} (holds : e.Holds p) (i : NodeId) :
    d.SoberFrom good (e.append p i) := h.insert holds none i

theorem extendText (h : d.SoberFrom good e) (i : NodeId) (more : Text) :
    d.SoberFrom good (e.extendText i more) := by
  refine h.changeAt (e.parent?_extendText i more) (e.content?_extendText i more)
    (fun c sober => ?_) fun c may => ?_
  · cases c <;> exact sober
  · cases c <;> exact may

theorem addMissing (h : d.SoberFrom good e) (i : NodeId) {name : Text} (spine : name ∈ spineNames)
    {attributes : Attributes} (fine : good name attributes) :
    d.SoberFrom good (e.mapAttributes i (·.addMissing attributes)) := by
  refine h.changeAt (e.parent?_mapAttributes i _) (e.content?_mapAttributes i _)
    (fun c sober => ?_) fun c may => ?_
  · cases c with
    | element e =>
        exact ⟨sober.space, sober.name, sober.inside,
          h.sober.lasting.merge _ _ spine _ _ sober.attributes fine⟩
    | _ => exact sober
  · cases c <;> exact may

theorem addElement_eq {name : Text} (known : name ∈ holderNames ++ hollowNames) (d : Dom)
    (attributes : Attributes) :
    d.addElement .html name attributes = d.add (.element { name, attributes }) := by
  have other : "template".toList ∉ holderNames ++ hollowNames := by decide
  rw [addElement, if_neg]
  rintro ⟨_, rfl⟩
  exact other known

theorem newElement (h : d.SoberFrom good e) {name : Text}
    (known : name ∈ holderNames ++ hollowNames) {attributes : Attributes}
    (fine : good name attributes) :
    d.SoberFrom good (e.addElement .html name attributes).1 := by
  rw [addElement_eq known]
  exact h.add ⟨rfl, known, rfl, fine⟩

theorem moveChildren (h : d.SoberFrom good e) (source : NodeId) {target : NodeId}
    (holds : e.Holds target) : d.SoberFrom good (e.moveChildren source target) := by
  unfold Dom.moveChildren
  generalize e.children source = nodes
  induction nodes generalizing e with
  | nil => exact h
  | cons i nodes ih =>
      exact ih (h.append holds i) (((refl h.sober).append holds i).kept target holds)

theorem insertText (h : d.SoberFrom good e) {p : NodeId} (holds : e.Holds p)
    (mark : Option NodeId) (s : Text) : d.SoberFrom good (e.insertText p mark s) := by
  have text : (Content.text s).Sober good := trivial
  have new : d.SoberFrom good ((e.add (.text s)).1.insert p mark (e.add (.text s)).2) :=
    (h.add text).insert (((refl h.sober).add text).kept p holds) mark _
  unfold Dom.insertText
  split
  · split
    · exact h.extendText _ s
    · exact new
  · exact new

end SoberFrom

theorem holds_addElement {name : Text} (known : name ∈ holderNames) (d : Dom)
    (attributes : Attributes) :
    (d.addElement .html name attributes).1.Holds (d.addElement .html name attributes).2 := by
  rw [SoberFrom.addElement_eq (List.mem_append_left _ known)]
  exact ⟨_, content?_add_self d _, known⟩

/-- An open element that could be opened again. -/
structure Bears (d : Dom) (o : Opened) : Prop where
  holds : d.Holds o.id
  space : o.name.space = .html
  name : o.name.name ∈ holderNames

theorem Bears.from {good : Text → Attributes → Prop} {d e : Dom} {o : Opened} (bears : d.Bears o)
    (grown : d.SoberFrom good e) : e.Bears o :=
  ⟨grown.kept _ bears.holds, bears.space, bears.name⟩

end Dom

/-- The modes that are gone through without drawings, columns, templates and frame sets, and
without the text of a script or a table. -/
def Mode.isFlow : Mode → Bool
  | .inText | .inTableText | .inCaption | .inColumns | .inTemplate | .inFrameset | .afterFrameset
  | .afterFramesetEnd => false
  | _ => true

namespace Builder

/-- A builder at work on such a document. -/
structure Sober (good : Text → Attributes → Prop) (l : Lexing) (b : Builder) : Prop where
  dom : b.dom.Sober good
  document : b.dom.Holds b.document
  opened : ∀ o ∈ b.opened, b.dom.Bears o
  formatting : ∀ id tag, .element id tag ∈ b.formatting →
    tag.name ∈ holderNames ∧ good tag.name tag.attributes
  head : ∀ o ∈ b.head, b.dom.Bears o
  mode : b.mode.isFlow = true ∨ b.mode = .inTableText ∨ b.mode = .inText ∧ l = .script
  resumed : b.resumed.isFlow = true
  lexing : b.lexing = l

namespace Sober

variable {good : Text → Attributes → Prop} {l : Lexing} {b : Builder} {e : Dom}

theorem withDom (h : b.Sober good l) (grown : b.dom.SoberFrom good e) :
    { b with dom := e }.Sober good l :=
  { h with
    dom := grown.sober
    document := grown.kept _ h.document
    opened := fun o member => (h.opened o member).from grown
    head := fun o shown => (h.head o shown).from grown }

theorem self (h : b.Sober good l) : b.dom.SoberFrom good b.dom := .refl h.dom

theorem ite {c : Prop} [Decidable c] {x y : Builder} (h : x.Sober good l) (h' : y.Sober good l) :
    (if c then x else y).Sober good l := by
  split
  · exact h
  · exact h'

theorem next {c : Prop} [Decidable c] {x y : Next} (h : x.builder.Sober good l)
    (h' : y.builder.Sober good l) : (if c then x else y).builder.Sober good l := by
  split
  · exact h
  · exact h'

theorem reopened (h : b.Sober good l) {opened : List Opened} (old : ∀ o ∈ opened, o ∈ b.opened) :
    { b with opened }.Sober good l :=
  { h with opened := fun o member => h.opened o (old o member) }

theorem pop (h : b.Sober good l) : b.pop.Sober good l := h.reopened fun _ => List.mem_of_mem_tail

theorem impliedEnds (h : b.Sober good l) (p : ElementClass) : (b.impliedEnds p).Sober good l :=
  h.reopened fun _ member => (List.dropWhile_suffix _).subset member

theorem popBackTo (h : b.Sober good l) (p : ElementClass) : (b.popBackTo p).Sober good l :=
  h.reopened fun _ member => (List.dropWhile_suffix _).subset member

theorem popUntil (h : b.Sober good l) (p : ElementClass) : (b.popUntil p).Sober good l :=
  (h.popBackTo p).pop

theorem removeOpened (h : b.Sober good l) (id : NodeId) : (b.removeOpened id).Sober good l :=
  h.reopened fun _ => List.mem_of_mem_filter

theorem closeNamed (h : b.Sober good l) (name : Text) : (b.closeNamed name).Sober good l :=
  (h.impliedEnds _).popUntil _

theorem closeAfterImplied (h : b.Sober good l) (name : Text) :
    (b.closeAfterImplied name).Sober good l :=
  (h.impliedEnds _).popUntil _

theorem closeParagraph (h : b.Sober good l) : b.closeParagraph.Sober good l :=
  ite (h.closeNamed _) h

theorem holder_eq (h : b.Sober good l) (o : Opened) : b.holder o = o.id := by
  unfold holder
  cases shown : b.dom.element? o.id with
  | none => rfl
  | some e =>
      have sober := h.dom.contents _ _ (Dom.content?_of_element? shown)
      rw [Option.bind_some, sober.inside]
      rfl

theorem holds_holder (h : b.Sober good l) {o : Opened} (bears : b.dom.Bears o) :
    b.dom.Holds (b.holder o) := by
  rw [h.holder_eq]
  exact bears.holds

theorem holds_fosterPlace (h : b.Sober good l) {opened : List Opened}
    (bear : ∀ o ∈ opened, b.dom.Bears o) : b.dom.Holds (b.fosterPlace opened).1 := by
  induction opened with
  | nil => exact h.document
  | cons o rest ih =>
      obtain ⟨first, others⟩ := List.forall_mem_cons.1 bear
      cases rest with
      | nil => exact h.holds_holder first
      | cons below rest =>
          rw [fosterPlace]
          split
          · exact h.holds_holder first
          · split
            · split
              · next p found => exact h.dom.holders _ p found
              · exact (others below List.mem_cons_self).holds
            · exact ih others

theorem holds_placeIn (h : b.Sober good l) {o : Opened} (bears : b.dom.Bears o) :
    b.dom.Holds (b.placeIn o).1 := by
  unfold placeIn
  split
  · exact h.holds_fosterPlace h.opened
  · exact h.holds_holder bears

theorem holds_currentPlace (h : b.Sober good l) : b.dom.Holds b.currentPlace.1 := by
  unfold currentPlace
  split
  · next o rest opened => exact h.holds_placeIn (h.opened o (opened ▸ List.mem_cons_self))
  · exact h.document

theorem appendText (h : b.Sober good l) (s : Text) : (b.appendText s).Sober good l :=
  h.withDom (h.self.insertText h.holds_currentPlace _ s)

theorem commentAt (h : b.Sober good l) {place : NodeId × Option NodeId}
    (holds : b.dom.Holds place.1) {s : Text} (simple : IsCommentText s) :
    (b.commentAt place s).Sober good l := by
  have added := h.self.add (c := .comment s) simple
  exact h.withDom (added.insert (added.kept _ holds) _ _)

theorem appendComment (h : b.Sober good l) {s : Text} (simple : IsCommentText s) :
    (b.appendComment s).Sober good l := h.commentAt h.holds_currentPlace simple

theorem commentInDocument (h : b.Sober good l) {s : Text} (simple : IsCommentText s) :
    (b.commentInDocument s).Sober good l := h.commentAt h.document simple

theorem commentInRoot (h : b.Sober good l) {s : Text} (simple : IsCommentText s) :
    (b.commentInRoot s).Sober good l := by
  unfold Builder.commentInRoot
  split
  · next o root => exact h.commentAt (h.opened o (List.mem_of_getLast? root)).holds simple
  · exact h.commentInDocument simple

section Elements

variable {name : Text} {attributes : Attributes}

theorem addElement (h : b.Sober good l) (known : name ∈ holderNames ++ hollowNames)
    (fine : good name attributes) : (b.addElement .html name attributes).1.Sober good l := by
  have added := h.withDom (h.self.newElement known fine)
  exact added.withDom (added.self.insert added.holds_currentPlace _ _)

theorem bears_addElement (h : b.Sober good l) (known : name ∈ holderNames)
    (fine : good name attributes) :
    (b.addElement .html name attributes).1.dom.Bears (b.addElement .html name attributes).2 := by
  have added := h.withDom (h.self.newElement (List.mem_append_left _ known) fine)
  have holds := Dom.holds_addElement known b.dom attributes
  exact ⟨(added.self.insert added.holds_currentPlace _ _).kept _ holds, rfl, known⟩

theorem push (h : b.Sober good l) {o : Opened} (bears : b.dom.Bears o) : (b.push o).Sober good l :=
  { h with opened := List.forall_mem_cons.2 ⟨bears, h.opened⟩ }

theorem openElement (h : b.Sober good l) (known : name ∈ holderNames)
    (fine : good name attributes) : (b.openElement .html name attributes).Sober good l :=
  (h.addElement (List.mem_append_left _ known) fine).push (h.bears_addElement known fine)

theorem insertTag (h : b.Sober good l) {tag : Tag} (known : tag.name ∈ holderNames)
    (fine : good tag.name tag.attributes) : (b.insertTag tag).Sober good l :=
  h.openElement known fine

theorem insertVoid (h : b.Sober good l) {tag : Tag} (known : tag.name ∈ holderNames ++ hollowNames)
    (fine : good tag.name tag.attributes) : (b.insertVoid tag).Sober good l :=
  h.addElement known fine

theorem insertImplied (h : b.Sober good l) (known : name ∈ holderNames)
    (other : name ≠ "script".toList) : (b.insertImplied name).Sober good l :=
  h.openElement known (h.dom.lasting.nil name other)

theorem openRoot (h : b.Sober good l) (fine : good "html" attributes) :
    (b.openRoot attributes).Sober good l := by
  have known : "html".toList ∈ holderNames := by decide
  have added := h.self.newElement (List.mem_append_left hollowNames known) fine
  have holds := Dom.holds_addElement known b.dom attributes
  have put := (Dom.SoberFrom.refl added.sober).append (added.kept _ h.document)
    (b.dom.addElement .html "html" attributes).2
  have grown := h.withDom ⟨put.sober, fun p old => put.kept p (added.kept p old)⟩
  exact { grown with opened := List.forall_mem_singleton.2 ⟨put.kept _ holds, rfl, known⟩ }

theorem openHead (h : b.Sober good l) (fine : good "head" attributes) :
    (b.openHead attributes).Sober good l := by
  have known : "head".toList ∈ holderNames := by decide
  have bears := h.bears_addElement known fine
  have opened := h.openElement known fine
  exact { opened with
    head := fun o shown => Option.some.inj shown ▸ bears
    mode := .inl rfl }

theorem addMissing (h : b.Sober good l) (o : Opened) (spine : name ∈ spineNames)
    (fine : good name attributes) : (b.addMissing o attributes).Sober good l :=
  h.withDom (h.self.addMissing o.id spine fine)

end Elements

theorem mergeRoot (h : b.Sober good l) {tag : Tag} (root : tag.name = "html".toList)
    (fine : good tag.name tag.attributes) : (b.mergeRoot tag).Sober good l := by
  unfold Builder.mergeRoot
  split
  · exact ite h (h.addMissing _ (root ▸ by decide) fine)
  · exact h

theorem forbidFrames (h : b.Sober good l) : b.forbidFrames.Sober good l := { h with }

theorem setMode (h : b.Sober good l) (mode : Mode) (flow : mode.isFlow = true) :
    (b.setMode mode).Sober good l := { h with mode := .inl flow }

theorem reformatted (h : b.Sober good l) (formatting : List Formatting)
    (fine : ∀ id tag, .element id tag ∈ formatting →
      tag.name ∈ holderNames ∧ good tag.name tag.attributes) :
    { b with formatting }.Sober good l :=
  { h with formatting := fine }

theorem pushMarker (h : b.Sober good l) : b.pushMarker.Sober good l :=
  h.reformatted _ fun id tag member =>
    h.formatting id tag ((List.mem_cons.1 member).resolve_left nofun)

theorem clearToMarker (h : b.Sober good l) : b.clearToMarker.Sober good l :=
  h.reformatted _ fun id tag member =>
    h.formatting id tag ((List.dropWhile_suffix _).subset (List.mem_of_mem_tail member))

theorem eraseFormatting (h : b.Sober good l) (id : NodeId) : (b.eraseFormatting id).Sober good l :=
  h.reformatted _ fun id tag member => h.formatting id tag (List.mem_of_mem_filter member)

theorem openEntry (h : b.Sober good l) {tag : Tag} (known : tag.name ∈ holderNames)
    (fine : good tag.name tag.attributes) :
    { (b.insertTag tag) with
      formatting := .element (b.addElement .html tag.name tag.attributes).2.id tag ::
        b.formatting }.Sober good l := by
  refine (h.insertTag known fine).reformatted _ fun id other member => ?_
  rcases List.mem_cons.1 member with same | member
  · cases same
    exact ⟨known, fine⟩
  · exact h.formatting id other member

theorem reopen (h : b.Sober good l) {formatting : List Formatting}
    (fine : ∀ id tag, .element id tag ∈ formatting →
      tag.name ∈ holderNames ∧ good tag.name tag.attributes) :
    (b.reopen formatting).Sober good l := by
  induction formatting generalizing b with
  | nil => exact h
  | cons f rest ih =>
      have others := fun id tag member => fine id tag (List.mem_cons_of_mem f member)
      cases f with
      | marker => exact ih h.pushMarker others
      | element id tag =>
          obtain ⟨known, own⟩ := fine id tag List.mem_cons_self
          exact ih (h.openEntry known own) others

theorem reconstruct (h : b.Sober good l) : b.reconstruct.Sober good l := by
  refine ite h (reopen ?_ ?_)
  · exact h.reformatted _ fun id tag member => h.formatting id tag (List.mem_of_mem_drop member)
  · intro id tag member
    exact h.formatting id tag ((List.takeWhile_prefix _).subset (List.mem_reverse.1 member))

theorem limitFormatting (h : b.Sober good l) (tag : Tag) :
    (b.limitFormatting tag).Sober good l := by
  refine ite h ?_
  split
  · exact h.eraseFormatting _
  · exact h

theorem openFormatting (h : b.Sober good l) {tag : Tag} (known : tag.name ∈ holderNames)
    (fine : good tag.name tag.attributes) : (b.openFormatting tag).Sober good l :=
  (h.limitFormatting tag).openEntry known fine

theorem closeAny (h : b.Sober good l) (name : Text) : (b.closeAny name).Sober good l := by
  unfold Builder.closeAny
  split
  · exact h
  · refine ite (h.reopened fun o member => ?_) h
    exact (List.dropWhile_suffix _).subset (List.mem_of_mem_tail member)

end Sober

theorem of_splitAtBlock? {id : NodeId} {opened above between : List Opened} {block : Opened}
    (found : splitAtBlock? id opened = some (above, block, between)) :
    ∀ o ∈ above ++ block :: between, o ∈ opened := by
  have old : ∀ o ∈ (opened.takeWhile fun o => o.id ≠ id).reverse, o ∈ opened :=
    fun o member => (List.takeWhile_prefix _).subset (List.mem_reverse.1 member)
  unfold splitAtBlock? at found
  generalize (opened.takeWhile fun o => o.id ≠ id).reverse = outward at found old
  simp only at found
  split at found
  · next first rest behind =>
      cases found
      have later : ∀ o ∈ block :: rest, o ∈ outward :=
        fun o member => (List.dropWhile_suffix _).subset (behind ▸ member)
      intro o member
      simp only [List.mem_append, List.mem_cons, List.mem_reverse] at member
      rcases member with member | rfl | member
      · exact old o (later o (List.mem_cons_of_mem _ member))
      · exact old o (later o List.mem_cons_self)
      · exact old o ((List.takeWhile_prefix _).subset member)
  · cases found

theorem mem_replaceFormatting {old : NodeId} {new f : Formatting} {bookmark : Option NodeId}
    {formatting : List Formatting} (member : f ∈ replaceFormatting old new bookmark formatting) :
    f = new ∨ f ∈ formatting := by
  unfold replaceFormatting at member
  split at member
  · obtain ⟨g, listed, shown⟩ := List.mem_map.1 member
    split at shown
    · exact .inl shown.symm
    · exact .inr (shown ▸ listed)
  · obtain ⟨g, listed, shown⟩ := List.mem_flatMap.1 (List.mem_of_mem_filter member)
    split at shown
    · rcases List.mem_cons.1 shown with same | same
      · exact .inl same
      · exact .inr (List.mem_singleton.1 same ▸ listed)
    · exact .inr (List.mem_singleton.1 shown ▸ listed)

/-- A rebuilding in which all that stays open, with some elements that were, could be opened. -/
structure Rebuilding.Sober (good : Text → Attributes → Prop) (l : Lexing) (opened : List Opened)
    (r : Rebuilding) : Prop where
  builder : r.builder.Sober good l
  kept : ∀ o ∈ r.kept, r.builder.dom.Bears o
  opened : ∀ o ∈ opened, r.builder.dom.Bears o

namespace Sober

variable {good : Text → Attributes → Prop} {l : Lexing} {b : Builder}

theorem rebuild {r : Rebuilding} {opened : List Opened} (h : r.Sober good l opened) (block : NodeId)
    {o : Opened} (member : o ∈ opened) : (r.step block o).Sober good l opened := by
  unfold Rebuilding.step
  simp only
  split
  · next id tag found =>
      obtain ⟨known, fine⟩ := h.builder.formatting id tag (List.mem_of_find?_eq_some found)
      split
      · exact ⟨h.builder.eraseFormatting o.id, h.kept, h.opened⟩
      · have holds := Dom.holds_addElement known r.builder.dom tag.attributes
        have added := h.builder.self.newElement (List.mem_append_left _ known) fine
        have grown := added.append holds r.last
        refine ⟨(h.builder.withDom grown).reformatted _ fun id other listed => ?_,
          List.forall_mem_append.2 ⟨fun o kept => (h.kept o kept).from grown,
            List.forall_mem_singleton.2 ?_⟩, fun o old => (h.opened o old).from grown⟩
        · obtain ⟨f, old, shown⟩ := List.mem_map.1 listed
          split at shown
          · cases shown
            exact ⟨known, fine⟩
          · exact h.builder.formatting id other (shown ▸ old)
        · have old := h.opened o member
          exact ⟨((Dom.SoberFrom.refl added.sober).append holds r.last).kept _ holds, old.space,
            old.name⟩
  · exact ⟨h.builder, h.kept, h.opened⟩

theorem rebuildAll {r : Rebuilding} {opened : List Opened} (h : r.Sober good l opened)
    (block : NodeId) {between : List Opened} (old : ∀ o ∈ between, o ∈ opened) :
    (between.foldl (·.step block) r).Sober good l opened := by
  induction between generalizing r with
  | nil => exact h
  | cons o between ih =>
      obtain ⟨first, others⟩ := List.forall_mem_cons.1 old
      exact ih (rebuild h block first) others

/-- What has been rebuilt goes to a place, and the content of the block into a new element in it. -/
theorem wrap (h : b.Sober good l) {place : NodeId × Option NodeId} (holds : b.dom.Holds place.1)
    (last : NodeId) {block : NodeId} (holds' : b.dom.Holds block) {tag : Tag}
    (known : tag.name ∈ holderNames) (fine : good tag.name tag.attributes) (id : NodeId)
    (bookmark : Option NodeId) {opened : List Opened} (bear : ∀ o ∈ opened, b.dom.Bears o)
    {inner : List Opened} (bear' : ∀ o ∈ inner, b.dom.Bears o) :
    let added := (b.insertNode place last).dom.addElement .html tag.name tag.attributes
    { b with
      dom := (added.1.moveChildren block added.2).append block added.2
      formatting := replaceFormatting id (.element added.2 tag) bookmark b.formatting
      opened := opened ++ (⟨added.2, ⟨.html, tag.name⟩⟩ : Opened) :: inner }.Sober good l := by
  intro added
  have put := h.self.insert holds place.2 last
  have made := put.newElement (List.mem_append_left hollowNames known) fine
  have new : added.1.Holds added.2 := Dom.holds_addElement known _ _
  have moved := (Dom.SoberFrom.refl made.sober).moveChildren block new
  have holds' := moved.kept _ (made.kept _ holds')
  have wrapped := (Dom.SoberFrom.refl moved.sober).append holds' added.2
  have grown : b.dom.SoberFrom good ((added.1.moveChildren block added.2).append block added.2) :=
    ⟨wrapped.sober, fun p old => wrapped.kept p (moved.kept p (made.kept p old))⟩
  have whole := (h.withDom grown).reformatted (replaceFormatting id (.element added.2 tag)
    bookmark b.formatting) fun id other member => by
      rcases mem_replaceFormatting member with same | member
      · cases same
        exact ⟨known, fine⟩
      · exact h.formatting id other member
  refine { whole with opened := List.forall_mem_append.2 ⟨fun o member => ?_,
    List.forall_mem_cons.2 ⟨?_, fun o member => ?_⟩⟩ }
  · exact (bear o member).from grown
  · exact ⟨wrapped.kept _ (moved.kept _ new), rfl, known⟩
  · exact (bear' o member).from grown

theorem moveOut (h : b.Sober good l) (id : NodeId) {tag : Tag} (known : tag.name ∈ holderNames)
    (fine : good tag.name tag.attributes) {above between : List Opened} {block : Opened}
    (old : ∀ o ∈ above ++ block :: between, o ∈ b.opened) :
    (b.moveOut id tag above block between).Sober good l := by
  have start : Rebuilding.Sober good l b.opened { builder := b, last := block.id } :=
    ⟨h, List.forall_mem_nil _, h.opened⟩
  have below_old : ∀ o ∈ (b.opened.dropWhile fun o => o.id ≠ id).tail, o ∈ b.opened :=
    fun o member => (List.dropWhile_suffix _).subset (List.mem_of_mem_tail member)
  obtain ⟨above_old, inner_old⟩ := List.forall_mem_append.1 old
  obtain ⟨block_old, between_old⟩ := List.forall_mem_cons.1 inner_old
  obtain ⟨built, kept, opened⟩ := rebuildAll start block.id between_old
  unfold Builder.moveOut
  simp only
  generalize between.foldl (Rebuilding.step block.id) { builder := b, last := block.id } = r
    at built kept opened
  generalize (b.opened.dropWhile fun o => o.id ≠ id).tail = below at below_old
  have bear := fun o member => opened o (below_old o member)
  have inner : ∀ o ∈ block :: r.kept ++ below, r.builder.dom.Bears o :=
    List.forall_mem_cons.2 ⟨opened block block_old, List.forall_mem_append.2 ⟨kept, bear⟩⟩
  have outer := fun o member => opened o (above_old o member)
  have holds := (opened block block_old).holds
  rw [List.append_assoc, List.cons_append]
  cases below with
  | nil =>
      have place : r.builder.dom.Holds (r.builder.document, (none : Option NodeId)).1 :=
        built.document
      exact built.wrap place r.last holds known fine id r.bookmark outer inner
  | cons ancestor below =>
      have place := built.holds_placeIn (bear ancestor List.mem_cons_self)
      exact built.wrap place r.last holds known fine id r.bookmark outer inner

theorem endFormattingTimes (h : b.Sober good l) (name : Text) (n : Nat) :
    (b.endFormattingTimes name n).Sober good l := by
  induction n generalizing b with
  | zero => exact h
  | succ n ih =>
      unfold Builder.endFormattingTimes
      simp only
      split
      · next id tag found =>
          have entry := (List.takeWhile_prefix _).subset (List.mem_of_find?_eq_some found)
          obtain ⟨known, fine⟩ := h.formatting id tag entry
          refine ite (h.eraseFormatting id) (ite h ?_)
          split
          · refine (h.eraseFormatting id).reopened fun o member => ?_
            exact (List.dropWhile_suffix _).subset (List.mem_of_mem_tail member)
          · next split => exact ih (h.moveOut id known fine (of_splitAtBlock? split))
      · exact h.closeAny name

theorem endFormatting (h : b.Sober good l) (name : Text) : (b.endFormatting name).Sober good l := by
  unfold Builder.endFormatting
  split
  · exact ite h.pop (h.endFormattingTimes name 8)
  · exact h

theorem endOpenAnchor (h : b.Sober good l) : b.endOpenAnchor.Sober good l := by
  unfold Builder.endOpenAnchor
  simp only
  split
  · exact ((h.endFormatting "a").eraseFormatting _).removeOpened _
  · exact h

end Sober
end Builder
end LivePage.Html
