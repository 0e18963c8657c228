import LivePage.Html.Document

/-!
What reading a document does to the store it is read into. However the tokens fall, nodes are only
added, moved and taken out, text is only written on, and elements only get attributes that they lack;
and the node of the document is the same from the first token to the last. Each rule of the builder
is followed here the way it is written.
-/

namespace LivePage.Html

/-- The stores that a store can become while documents are read into it. -/
inductive Dom.Extends (d : Dom) : Dom → Prop
  | refl : d.Extends d
  | add {e : Dom} (h : d.Extends e) (c : Content) : d.Extends (e.add c).1
  | insert {e : Dom} (h : d.Extends e) (p : NodeId) (mark : Option NodeId) (i : NodeId) :
      d.Extends (e.insert p mark i)
  | detach {e : Dom} (h : d.Extends e) (i : NodeId) : d.Extends (e.detach i)
  | extendText {e : Dom} (h : d.Extends e) (i : NodeId) (more : Text) :
      d.Extends (e.extendText i more)
  | addMissing {e : Dom} (h : d.Extends e) (i : NodeId) (attributes : Attributes) :
      d.Extends (e.mapAttributes i (·.addMissing attributes))

namespace Dom.Extends

variable {d e : Dom}

theorem trans {f : Dom} (first : d.Extends e) (second : e.Extends f) : d.Extends f := by
  induction second with
  | refl => exact first
  | add _ c ih => exact ih.add c
  | insert _ p mark i ih => exact ih.insert p mark i
  | detach _ i ih => exact ih.detach i
  | extendText _ i more ih => exact ih.extendText i more
  | addMissing _ i attributes ih => exact ih.addMissing i attributes

theorem newElement (h : d.Extends e) (space : Namespace) (name : Text) (attributes : Attributes) :
    d.Extends (e.addElement space name attributes).1 := by
  unfold Dom.addElement
  split
  · exact (h.add _).add _
  · exact h.add _

theorem append (h : d.Extends e) (p i : NodeId) : d.Extends (e.append p i) := h.insert p none i

theorem moveChildren (h : d.Extends e) (source target : NodeId) :
    d.Extends (e.moveChildren source target) := by
  unfold Dom.moveChildren
  generalize e.children source = nodes
  induction nodes generalizing e with
  | nil => exact h
  | cons i nodes ih => exact ih (h.append target i)

theorem insertText (h : d.Extends e) (p : NodeId) (mark : Option NodeId) (s : Text) :
    d.Extends (e.insertText p mark s) := by
  unfold Dom.insertText
  split
  · split
    · exact h.extendText _ s
    · exact (h.add _).insert p mark _
  · exact (h.add _).insert p mark _

end Dom.Extends

def Next.builder : Next → Builder
  | .done b | .again b => b

/-- Builders whose store has grown out of another while they are at work on one document. -/
def Builder.From (d : Dom) (root : NodeId) (b : Builder) : Prop :=
  d.Extends b.dom ∧ b.document = root

namespace Builder.From

variable {d e : Dom} {root : NodeId} {b : Builder}

theorem withDom (h : b.From d root) (grown : d.Extends e) : { b with dom := e }.From d root :=
  ⟨grown, h.2⟩

theorem ite {c : Prop} [Decidable c] {x y : Builder} (h : x.From d root) (h' : y.From d root) :
    (if c then x else y).From d root := by
  split
  · exact h
  · exact h'

theorem next {c : Prop} [Decidable c] {x y : Next} (h : x.builder.From d root)
    (h' : y.builder.From d root) : (if c then x else y).builder.From d root := by
  split
  · exact h
  · exact h'

theorem insertNode (h : b.From d root) (place : NodeId × Option NodeId) (i : NodeId) :
    (b.insertNode place i).From d root :=
  h.withDom (h.1.insert place.1 place.2 i)

theorem appendText (h : b.From d root) (s : Text) : (b.appendText s).From d root :=
  h.withDom (h.1.insertText _ _ s)

theorem commentAt (h : b.From d root) (place : NodeId × Option NodeId) (s : Text) :
    (b.commentAt place s).From d root :=
  h.withDom ((h.1.add _).insert _ _ _)

theorem appendComment (h : b.From d root) (s : Text) : (b.appendComment s).From d root :=
  h.commentAt _ s

theorem commentInDocument (h : b.From d root) (s : Text) :
    (b.commentInDocument s).From d root :=
  h.commentAt _ s

theorem commentInRoot (h : b.From d root) (s : Text) : (b.commentInRoot s).From d root := by
  unfold Builder.commentInRoot
  split
  · exact h.commentAt _ s
  · exact h.commentInDocument s

theorem addElement (h : b.From d root) (space : Namespace) (name : Text)
    (attributes : Attributes) : (b.addElement space name attributes).1.From d root :=
  h.withDom ((h.1.newElement space name attributes).insert _ _ _)

theorem openElement (h : b.From d root) (space : Namespace) (name : Text)
    (attributes : Attributes) : (b.openElement space name attributes).From d root :=
  h.addElement space name attributes

theorem insertTag (h : b.From d root) (tag : Tag) : (b.insertTag tag).From d root :=
  h.openElement .html tag.name tag.attributes

theorem insertVoid (h : b.From d root) (tag : Tag) : (b.insertVoid tag).From d root :=
  h.addElement .html tag.name tag.attributes

theorem insertImplied (h : b.From d root) (name : Text) : (b.insertImplied name).From d root :=
  h.openElement .html name []

theorem openRoot (h : b.From d root) (attributes : Attributes) :
    (b.openRoot attributes).From d root :=
  h.withDom ((h.1.newElement .html "html" attributes).append _ _)

theorem openText (h : b.From d root) (tag : Tag) (lexing : Lexing) :
    (b.openText tag lexing).From d root :=
  h.insertTag tag

theorem mergeRoot (h : b.From d root) (tag : Tag) : (b.mergeRoot tag).From d root := by
  unfold Builder.mergeRoot
  split
  · exact ite h (h.withDom (h.1.addMissing _ tag.attributes))
  · exact h

theorem closeParagraph (h : b.From d root) : b.closeParagraph.From d root := ite h h

theorem forbidFrames (h : b.From d root) : b.forbidFrames.From d root := h

theorem setMode (h : b.From d root) (mode : Mode) : (b.setMode mode).From d root := h

theorem againIn (h : b.From d root) (mode : Mode) : (b.againIn mode).builder.From d root := h

theorem pushMarker (h : b.From d root) : b.pushMarker.From d root := h

theorem reopen (h : b.From d root) (formatting : List Formatting) :
    (b.reopen formatting).From d root := by
  induction formatting generalizing b with
  | nil => exact h
  | cons f formatting ih =>
      cases f with
      | marker => exact ih h
      | element id tag => exact ih (h.addElement .html tag.name tag.attributes)

theorem reconstruct (h : b.From d root) : b.reconstruct.From d root := by
  refine ite h (reopen ?_ _)
  exact h

theorem limitFormatting (h : b.From d root) (tag : Tag) :
    (b.limitFormatting tag).From d root := by
  refine ite h ?_
  split
  · exact h
  · exact h

theorem openFormatting (h : b.From d root) (tag : Tag) : (b.openFormatting tag).From d root :=
  (h.limitFormatting tag).addElement .html tag.name tag.attributes

theorem closeAny (h : b.From d root) (name : Text) : (b.closeAny name).From d root := by
  unfold Builder.closeAny
  split
  · exact h
  · exact ite h h

theorem rebuild {r : Builder.Rebuilding} (h : r.builder.From d root) (block : NodeId)
    (o : Opened) : (r.step block o).builder.From d root := by
  unfold Builder.Rebuilding.step
  simp only
  split
  · split
    · exact h
    · exact h.withDom ((h.1.newElement _ _ _).append _ _)
  · exact h

theorem rebuildAll {r : Builder.Rebuilding} (h : r.builder.From d root) (block : NodeId)
    (between : List Opened) : (between.foldl (·.step block) r).builder.From d root := by
  induction between generalizing r with
  | nil => exact h
  | cons o between ih => exact ih (h.rebuild block o)

theorem moveOut (h : b.From d root) (id : NodeId) (tag : Tag) (above : List Opened)
    (block : Opened) (between : List Opened) :
    (b.moveOut id tag above block between).From d root := by
  have rebuilt := rebuildAll (r := { builder := b, last := block.id }) h block.id between
  refine ⟨?_, rebuilt.2⟩
  exact (((rebuilt.insertNode _ _).1.newElement _ _ _).moveChildren _ _).append _ _

theorem endFormattingTimes (h : b.From d root) (name : Text) (n : Nat) :
    (b.endFormattingTimes name n).From d root := by
  induction n generalizing b with
  | zero => exact h
  | succ n ih =>
      unfold Builder.endFormattingTimes
      simp only
      split
      · refine ite h (ite h ?_)
        split
        · exact h
        · exact ih (h.moveOut _ _ _ _ _)
      · exact h.closeAny name

theorem endFormatting (h : b.From d root) (name : Text) :
    (b.endFormatting name).From d root := by
  unfold Builder.endFormatting
  split
  · exact ite h (h.endFormattingTimes name 8)
  · exact h

theorem endOpenAnchor (h : b.From d root) : b.endOpenAnchor.From d root := by
  unfold Builder.endOpenAnchor
  simp only
  split
  · exact h.endFormatting "a"
  · exact h

theorem inInitial (h : b.From d root) (token : Token) :
    (b.inInitial token).builder.From d root := by
  cases token with
  | comment s => exact h.commentInDocument s
  | text run => exact next h h
  | _ => exact h

theorem beforeHtml (h : b.From d root) (token : Token) :
    (b.beforeHtml token).builder.From d root := by
  have implied := h.openRoot []
  cases token with
  | comment s => exact h.commentInDocument s
  | text run => exact next h implied
  | openTag tag => exact next (h.openRoot tag.attributes) implied
  | closeTag name => exact next implied h
  | _ => exact implied

theorem openHead (h : b.From d root) (attributes : Attributes) :
    (b.openHead attributes).From d root :=
  h.addElement .html "head" attributes

theorem beforeHead (h : b.From d root) (token : Token) :
    (b.beforeHead token).builder.From d root := by
  have implied := h.openHead []
  cases token with
  | comment s => exact h.appendComment s
  | text run => exact next h implied
  | openTag tag => exact next (h.mergeRoot tag) (next (h.openHead tag.attributes) implied)
  | closeTag name => exact next implied h
  | _ => exact implied

theorem openTemplate (h : b.From d root) (tag : Tag) : (b.openTemplate tag).From d root :=
  h.insertTag tag

theorem closeTemplate (h : b.From d root) : b.closeTemplate.From d root := ite h h

theorem openHeadContent (h : b.From d root) (tag : Tag) :
    (b.openHeadContent tag).From d root :=
  ite (h.openText tag _) (ite (h.openText tag _) (ite (h.openText tag _)
    (ite (h.openTemplate tag) (h.insertVoid tag))))

theorem inHead (h : b.From d root) (token : Token) : (b.inHead token).builder.From d root := by
  cases token with
  | text run => exact next (h.appendText run) h
  | comment s => exact h.appendComment s
  | openTag tag => exact next (h.mergeRoot tag) (next (h.openHeadContent tag) (next h h))
  | closeTag name => exact next h (next h (next h.closeTemplate h))
  | _ => exact h

theorem backInHead (h : b.From d root) (tag : Tag) : (b.backInHead tag).From d root := by
  unfold Builder.backInHead
  split
  · next o _ => exact openHeadContent (b := b.push o) h tag
  · exact h.openHeadContent tag

theorem afterHead (h : b.From d root) (token : Token) :
    (b.afterHead token).builder.From d root := by
  have implied := h.insertImplied "body"
  cases token with
  | text run => exact next (h.appendText run) implied
  | comment s => exact h.appendComment s
  | openTag tag =>
      exact next (h.mergeRoot tag) (next (h.insertTag tag) (next (h.insertTag tag)
        (next (h.backInHead tag) (next h implied))))
  | closeTag name => exact next h.closeTemplate (next implied h)
  | _ => exact implied

theorem inText (h : b.From d root) (token : Token) : (b.inText token).builder.From d root := by
  cases token with
  | text run => exact h.appendText run
  | _ => exact h

theorem endTemplates (h : b.From d root) : b.endTemplates.builder.From d root := next h h

theorem openListItem (h : b.From d root) (names : List Text) (tag : Tag) :
    (b.openListItem names tag).From d root := by
  unfold Builder.openListItem
  refine insertTag (closeParagraph ?_) tag
  split
  · exact h
  · exact h

theorem openForeign (h : b.From d root) (space : Namespace) (tag : Tag) :
    (b.openForeign space tag).From d root :=
  ite (h.addElement space tag.name _) (h.openElement space tag.name _)

theorem replaceBody (h : b.From d root) (tag : Tag) : (b.replaceBody tag).From d root := by
  unfold Builder.replaceBody
  split
  · refine setMode (insertTag ?_ tag) .inFrameset
    exact h.withDom (h.1.detach _)
  · exact h

theorem openInput (h : b.From d root) (tag : Tag) : (b.openInput tag).From d root := by
  unfold Builder.openInput
  simp only
  refine ite ?_ (forbidFrames ?_)
  · refine insertVoid (reconstruct (ite ?_ ?_)) tag
    · exact h
    · exact h
  · refine insertVoid (reconstruct (ite ?_ ?_)) tag
    · exact h
    · exact h

theorem openButton (h : b.From d root) (tag : Tag) : (b.openButton tag).From d root := by
  unfold Builder.openButton
  refine forbidFrames (insertTag (reconstruct (ite ?_ ?_)) tag)
  · exact h
  · exact h

theorem openSelect (h : b.From d root) (tag : Tag) : (b.openSelect tag).From d root := by
  unfold Builder.openSelect
  refine ite ?_ (h.reconstruct.insertTag tag).forbidFrames
  exact h

theorem openOption (h : b.From d root) (ends : ElementClass) (tag : Tag) :
    (b.openOption ends tag).From d root := by
  unfold Builder.openOption
  refine insertTag (reconstruct (ite ?_ (ite ?_ ?_))) tag
  · exact h
  · exact h
  · exact h

theorem openForm (h : b.From d root) (tag : Tag) : (b.openForm tag).From d root := by
  have put := h.closeParagraph.addElement .html tag.name tag.attributes
  unfold Builder.openForm
  refine ite h (ite ?_ ?_)
  · exact put
  · exact put

theorem openRule (h : b.From d root) (tag : Tag) : (b.openRule tag).From d root := by
  unfold Builder.openRule
  refine forbidFrames (insertVoid (ite ?_ ?_) tag)
  · exact h.closeParagraph
  · exact h.closeParagraph

theorem openInBody (h : b.From d root) (tag : Tag) : (b.openInBody tag).From d root := by
  unfold Builder.openInBody
  -- the tags of the root, the head, the body and frame sets
  refine ite (h.mergeRoot tag) (ite (h.openHeadContent tag) (ite ?body (ite (h.replaceBody tag) ?_)))
  case body =>
    split
    · exact ite h (forbidFrames (h.withDom (h.1.addMissing _ tag.attributes)))
    · exact h
  -- blocks
  refine ite (h.closeParagraph.insertTag tag) (ite ?heading (ite ?pre (ite (h.openForm tag) ?_)))
  case heading =>
    refine insertTag (ite ?_ ?_) tag
    · exact h.closeParagraph
    · exact h.closeParagraph
  case pre => exact h.closeParagraph.insertTag tag
  refine ite (h.openListItem _ tag) (ite (h.openListItem _ tag) (ite ?plain
    (ite (h.openButton tag) ?_)))
  case plain => exact h.closeParagraph.insertTag tag
  -- formatting
  refine ite (h.endOpenAnchor.reconstruct.openFormatting tag)
    (ite (h.reconstruct.openFormatting tag) (ite ?nobr ?_))
  case nobr =>
    refine openFormatting (ite ?_ ?_) tag
    · exact (h.reconstruct.endFormatting _).reconstruct
    · exact h.reconstruct
  -- what stands for itself
  refine ite (h.reconstruct.insertTag tag).pushMarker.forbidFrames (ite ?table
    (ite (h.reconstruct.insertVoid tag).forbidFrames (ite (h.openInput tag) ?_)))
  case table =>
    refine setMode (forbidFrames (insertTag (ite ?_ ?_) tag)) .inTable
    · exact h
    · exact h.closeParagraph
  refine ite (h.insertVoid tag) (ite (h.openRule tag) (ite (h.reconstruct.insertVoid _).forbidFrames
    (ite ?area ?_)))
  case area => exact h.forbidFrames.openText tag (.escapable tag.name)
  -- text
  refine ite (h.closeParagraph.reconstruct.forbidFrames.openText tag _)
    (ite (h.forbidFrames.openText tag _) (ite (h.openText tag _) (ite (h.openSelect tag) ?_)))
  -- parts of selections and of annotations
  refine ite (h.openOption _ tag) (ite (h.openOption _ tag) (ite ?base (ite ?ruby ?_)))
  case base =>
    refine insertTag (ite ?_ ?_) tag
    · exact h
    · exact h
  case ruby =>
    refine insertTag (ite ?_ ?_) tag
    · exact h
    · exact h
  -- other vocabularies, and what is left
  exact ite (h.reconstruct.openForeign .mathml tag) (ite (h.reconstruct.openForeign .svg tag)
    (ite h (h.reconstruct.insertTag tag)))

theorem closeForm (h : b.From d root) : b.closeForm.From d root := by
  refine ite (ite ?_ ?_) ?_
  · exact h
  · exact h
  · split
    · exact h
    · refine ite ?_ ?_
      · exact h
      · exact h

theorem closeInBody (h : b.From d root) (name : Text) : (b.closeInBody name).From d root := by
  have same {c : Prop} [Decidable c] {x : Builder}
      (neutral : x.dom = b.dom ∧ x.document = b.document) : (if c then x else b).From d root :=
    ite ⟨neutral.1 ▸ h.1, neutral.2.trans h.2⟩ h
  unfold Builder.closeInBody
  refine ite h.closeTemplate (ite (same ⟨rfl, rfl⟩) (ite h.closeForm (ite ?paragraph ?_)))
  case paragraph =>
    have opened : 
        (if b.inScopeNamed boundsButton "p" then b else b.insertImplied "p").From d root :=
      ite h (h.insertImplied _)
    exact opened
  refine ite (same ⟨rfl, rfl⟩) (ite (same ⟨rfl, rfl⟩) (ite (same ⟨rfl, rfl⟩)
    (ite (h.endFormatting name) ?_)))
  exact ite (same ⟨rfl, rfl⟩) (ite (h.reconstruct.insertVoid _).forbidFrames (h.closeAny name))

theorem writeText (h : b.From d root) (run : Text) : (b.writeText run).From d root :=
  ite (h.reconstruct.appendText run) (h.reconstruct.appendText run).forbidFrames

theorem inBody (h : b.From d root) (token : Token) : (b.inBody token).builder.From d root := by
  cases token with
  | text run => exact h.writeText run
  | comment s => exact h.appendComment s
  | openTag tag => exact h.openInBody tag
  | closeTag name =>
      refine next ?_ (next (next ?_ ?_) (h.closeInBody name))
      · refine ite ?_ ?_
        · exact h
        · exact h
      · exact h
      · exact h
  | ending => exact next h h.endTemplates
  | null => exact h
  | doctype _ => exact h

theorem map {step : Next} {f : Builder → Builder} (h : step.builder.From d root)
    (same : ∀ b : Builder, (f b).dom = b.dom ∧ (f b).document = b.document) :
    (step.map f).builder.From d root := by
  cases step with
  | done b => exact ⟨(same b).1 ▸ h.1, (same b).2.trans h.2⟩
  | again b => exact ⟨(same b).1 ▸ h.1, (same b).2.trans h.2⟩

theorem foster (h : b.From d root) (token : Token) : (b.foster token).builder.From d root := by
  refine map (inBody ?_ token) ?_
  · exact h
  · intro b
    exact ⟨rfl, rfl⟩

theorem fosterText (h : b.From d root) (run : Text) : (b.fosterText run).From d root := by
  have written := writeText (b := { b with fostering := true }) h run
  exact written

theorem inTable (h : b.From d root) (token : Token) :
    (b.inTable token).builder.From d root := by
  have back : (b.popBackTo boundsTable).From d root := h
  have fostered := h.foster token
  have body := h.inBody token
  cases token with
  | text run => exact next h fostered
  | null => exact next h fostered
  | comment s => exact h.appendComment s
  | openTag tag =>
      refine next ((back.pushMarker.insertTag tag).setMode _) (next ((back.insertTag tag).setMode _)
        (next ((back.insertImplied _).againIn _) (next ((back.insertTag tag).setMode _) ?_)))
      refine next ((back.insertImplied _).againIn _) (next (next ?_ ?_)
        (next (h.openHeadContent tag) (next (h.insertVoid tag) (next (next ?_ ?_) fostered))))
      · exact h
      · exact h
      · exact h
      · exact h.addElement .html tag.name tag.attributes
  | closeTag name =>
      refine next (ite ?_ h) (next h (next h.closeTemplate fostered))
      exact h
  | ending => exact body
  | doctype _ => exact h

theorem flushTableText (h : b.From d root) : b.flushTableText.From d root := by
  refine ite h (ite (appendText ?_ _) (fosterText ?_ _))
  · exact h
  · exact h

theorem inTableText (h : b.From d root) (token : Token) :
    (b.inTableText token).builder.From d root := by
  cases token with
  | null => exact h
  | text run => exact h
  | _ => exact h.flushTableText

theorem inCaption (h : b.From d root) (token : Token) :
    (b.inCaption token).builder.From d root := by
  have leave : (if b.inScopeNamed boundsTable "caption" then Next.again b.closeCaption
      else .done b).builder.From d root := next h h
  have body := h.inBody token
  cases token with
  | openTag tag => exact next leave body
  | closeTag name => exact next (ite h h) (next leave (next h body))
  | _ => exact body

theorem inColumns (h : b.From d root) (token : Token) :
    (b.inColumns token).builder.From d root := by
  have leave : (if b.currentNamed "colgroup" then b.pop.againIn .inTable
      else .done b).builder.From d root := next h h
  cases token with
  | text run => exact next (h.appendText run) leave
  | comment s => exact h.appendComment s
  | openTag tag =>
      exact next (h.mergeRoot tag) (next (h.insertVoid tag) (next (h.openTemplate tag) leave))
  | closeTag name => exact next (ite h h) (next h (next h.closeTemplate leave))
  | ending => exact inBody h .ending
  | _ => exact leave

theorem inTableBody (h : b.From d root) (token : Token) :
    (b.inTableBody token).builder.From d root := by
  have back : (b.popBackTo holdsRows).From d root := h
  have leave : (if b.inScope boundsTable (named (textsOf "table tbody tfoot")) then
      (b.popBackTo holdsRows).pop.againIn .inTable else .done b).builder.From d root := next h h
  have table := h.inTable token
  cases token with
  | openTag tag =>
      exact next ((back.insertTag tag).setMode _) (next ((back.insertImplied _).againIn _)
        (next leave table))
  | closeTag name => exact next (ite h h) (next leave (next h table))
  | _ => exact table

theorem inRow (h : b.From d root) (token : Token) : (b.inRow token).builder.From d root := by
  have back : (b.popBackTo holdsCells).From d root := h
  have leave : (if b.inScopeNamed boundsTable "tr" then
      (b.popBackTo holdsCells).pop.againIn .inTableBody else .done b).builder.From d root := next h h
  have table := h.inTable token
  cases token with
  | openTag tag => exact next (back.insertTag tag).pushMarker (next leave table)
  | closeTag name => exact next (ite h h) (next leave (next (next leave h) (next h table)))
  | _ => exact table

theorem inCell (h : b.From d root) (token : Token) : (b.inCell token).builder.From d root := by
  have body := h.inBody token
  cases token with
  | openTag tag => exact next (next h h) body
  | closeTag name => exact next (ite h h) (next h (next (next h h) body))
  | _ => exact body

theorem inTemplate (h : b.From d root) (token : Token) :
    (b.inTemplate token).builder.From d root := by
  have body := h.inBody token
  cases token with
  | text run => exact body
  | comment s => exact body
  | openTag tag =>
      exact next (h.openHeadContent tag) (next h (next h (next h (next h h))))
  | closeTag name => exact ite h.closeTemplate h
  | ending => exact h.endTemplates
  | null => exact h
  | doctype _ => exact h

theorem afterBody (h : b.From d root) (token : Token) :
    (b.afterBody token).builder.From d root := by
  cases token with
  | text run => exact next (h.writeText run) h
  | comment s => exact h.commentInRoot s
  | openTag tag => exact next (h.mergeRoot tag) h
  | closeTag name => exact next h h
  | _ => exact h

theorem afterEnd (h : b.From d root) (token : Token) :
    (b.afterEnd token).builder.From d root := by
  cases token with
  | text run => exact next (h.writeText run) h
  | comment s => exact h.commentInDocument s
  | openTag tag => exact next (h.mergeRoot tag) h
  | _ => exact h

theorem inFrameset (h : b.From d root) (token : Token) :
    (b.inFrameset token).builder.From d root := by
  cases token with
  | text run => exact ite (h.appendText run) h
  | comment s => exact h.appendComment s
  | openTag tag =>
      exact next (h.mergeRoot tag) (next (h.insertTag tag) (next (h.insertVoid tag)
        (next (h.openHeadContent tag) h)))
  | closeTag name => exact next (ite h h) h
  | _ => exact h

theorem afterFrameset (h : b.From d root) (token : Token) :
    (b.afterFrameset token).builder.From d root := by
  cases token with
  | text run => exact ite (h.appendText run) h
  | comment s => exact h.appendComment s
  | openTag tag => exact next (h.mergeRoot tag) (next (h.openHeadContent tag) h)
  | closeTag name => exact ite h h
  | _ => exact h

theorem afterFramesetEnd (h : b.From d root) (token : Token) :
    (b.afterFramesetEnd token).builder.From d root := by
  cases token with
  | text run => exact ite (h.writeText run) h
  | comment s => exact h.commentInDocument s
  | openTag tag => exact next (h.mergeRoot tag) (next (h.openHeadContent tag) h)
  | _ => exact h

theorem inMode (h : b.From d root) (token : Token) : (b.inMode token).builder.From d root := by
  unfold Builder.inMode
  split
  · exact h.inInitial token
  · exact h.beforeHtml token
  · exact h.beforeHead token
  · exact h.inHead token
  · exact h.afterHead token
  · exact h.inBody token
  · exact h.inText token
  · exact h.inTable token
  · exact h.inTableText token
  · exact h.inCaption token
  · exact h.inColumns token
  · exact h.inTableBody token
  · exact h.inRow token
  · exact h.inCell token
  · exact h.inTemplate token
  · exact h.afterBody token
  · exact h.inFrameset token
  · exact h.afterFrameset token
  · exact h.afterEnd token
  · exact h.afterFramesetEnd token

theorem leaveForeign (h : b.From d root) (token : Token) :
    (b.leaveForeign token).builder.From d root := by
  refine inMode ?_ token
  exact h

theorem inForeign (h : b.From d root) (token : Token) :
    (b.inForeign token).builder.From d root := by
  cases token with
  | null => exact h.appendText _
  | text run => exact ite (h.appendText run) (h.appendText run)
  | comment s => exact h.appendComment s
  | openTag tag =>
      refine next (h.leaveForeign _) ?_
      split
      · exact h.openForeign _ _
      · exact h
  | closeTag name =>
      refine next (h.leaveForeign _) ?_
      split
      · exact h
      · exact h.inMode _
  | doctype _ => exact h
  | ending => exact h

theorem feedTimes (h : b.From d root) (token : Token) (n : Nat) :
    (Builder.feedTimes token n b).From d root := by
  induction n generalizing b with
  | zero => exact h
  | succ n ih =>
      have applied := next (c := b.isForeign token) (h.inForeign token) (h.inMode token)
      unfold Builder.feedTimes
      split
      · next b' done =>
          rw [done] at applied
          exact applied
      · next b' again =>
          rw [again] at applied
          exact ih applied

theorem feed (h : b.From d root) (token : Token) : (b.feed token).From d root :=
  h.feedTimes token _

theorem feedText (h : b.From d root) (n : Nat) (s : Text) :
    (Builder.feedText n s b).From d root := by
  induction n generalizing s b with
  | zero => exact h
  | succ n ih =>
      cases s with
      | nil => exact h
      | cons c s => exact ite (ih (h.feed _) _) (h.feed _)

theorem declare (h : b.From d root) (declaration : Doctype) :
    (b.declare declaration).From d root :=
  ite (h.withDom ((h.1.add _).append _ _)) h

theorem receive (h : b.From d root) (token : Token) : (b.receive token).From d root := by
  have ready : { b with dropsLineFeed := false }.From d root := h
  cases token with
  | text run => exact ready.feedText _ _
  | doctype declaration => exact ready.declare declaration
  | closeTag name => exact feed (b := { b with dropsLineFeed := false, lexing := .markup }) h _
  | _ => exact ready.feed _

theorem readTokens (h : b.From d root) (n : Nat) (s : Text) :
    (Builder.readTokens n s b).From d root := by
  induction n generalizing s b with
  | zero => exact h
  | succ n ih =>
      cases s with
      | nil => exact h
      | cons c s =>
          unfold Builder.readTokens
          split
          · exact ih (h.receive _) _
          · refine ih ?_ _
            exact h

theorem read (h : b.From d root) (s : Text) : (b.read s).From d root :=
  (h.readTokens _ _).receive .ending

end Builder.From

theorem Document.from_parseInto (d : Dom) (s : Text) :
    ((Builder.start d).read s).From (d.add .document).1 d.size :=
  Builder.From.read (b := Builder.start d) ⟨.refl, rfl⟩ s

theorem Document.extends_parseInto (d : Dom) (s : Text) : d.Extends (parseInto d s).dom :=
  (Dom.Extends.add .refl .document).trans (from_parseInto d s).1

end LivePage.Html
