import LivePage.Html.Document
import LivePage.Proofs.Html.Forest
import LivePage.Proofs.Render.Markup

/-!
Reading in the body of a document, as long as nothing stands out of place. A text goes to the end of
the innermost open element; a start tag opens a new element there, and its end tag closes that again
and leaves the state as it was.
-/

namespace LivePage.Html

/-- A text as it is read: in the body of a document NUL is left out. -/
def shownText (s : Text) : Text := s.filter (· ≠ '\x00')

def phraseElements : List Text := ["span", "button", "code"]

def blockElements : List Text := ["div", "pre"]

theorem isMarkupName_of_phrase {name : Text} (phrase : name ∈ phraseElements) :
    isMarkupName name = true ∧ name ≠ "body".toList ∧ name ≠ "html".toList := by
  simp only [phraseElements, List.mem_cons, List.not_mem_nil, or_false] at phrase
  rcases phrase with rfl | rfl | rfl <;> decide

theorem isMarkupName_of_block {name : Text} (block : name ∈ blockElements) :
    isMarkupName name = true ∧ name ≠ "body".toList ∧ name ≠ "html".toList := by
  simp only [blockElements, List.mem_cons, List.not_mem_nil, or_false] at block
  rcases block with rfl | rfl <;> decide

theorem length_tokenMarkup_closeTag (name : Text) : 0 < (tokenMarkup (.closeTag name)).length :=
  Nat.succ_pos _

theorem endsText_tokenMarkup_closeTag (name s : Text) :
    EndsText (tokenMarkup (.closeTag name) ++ s) := .inr ⟨'<', _, rfl, rfl⟩

/-- Reading a text from one state comes to reading what is left of it from another. -/
def Reads (s : Text) (b : Builder) (rest : Text) (b' : Builder) : Prop :=
  ∀ n, s.length ≤ n → ∃ n', rest.length ≤ n' ∧
    Builder.readTokens n s b = Builder.readTokens n' rest b'

namespace Reads

theorem refl (s : Text) (b : Builder) : Reads s b s b := fun n enough => ⟨n, enough, rfl⟩

theorem trans {s t u : Text} {b b' b'' : Builder} (first : Reads s b t b')
    (second : Reads t b' u b'') : Reads s b u b'' := by
  intro n enough
  obtain ⟨n', enough', same⟩ := first n enough
  obtain ⟨n'', enough'', same'⟩ := second n' enough'
  exact ⟨n'', enough'', same.trans same'⟩

theorem token {s rest : Text} {b : Builder} {t : Token} (markup : b.lexing = .markup)
    (read : nextToken .markup b.inOtherSpace s = (some t, rest))
    (shorter : rest.length < s.length) : Reads s b rest (b.receive t) := by
  intro n enough
  obtain ⟨n, rfl⟩ := Nat.exists_eq_succ_of_ne_zero (Nat.ne_of_gt (Nat.zero_lt_of_lt
    (Nat.lt_of_lt_of_le shorter enough)))
  refine ⟨n, by omega, ?_⟩
  cases s with
  | nil => exact absurd shorter (Nat.not_lt_zero _)
  | cons c s =>
      rw [← markup] at read
      simp only [Builder.readTokens, read]

theorem readTokens {s : Text} {b b' : Builder} (reads : Reads s b [] b') :
    Builder.readTokens s.length s b = b' := by
  obtain ⟨n, _, same⟩ := reads s.length (Nat.le_refl _)
  rw [same]
  cases n <;> rfl

end Reads

namespace Builder

/-- The innermost open element is an ordinary one in the body; all formatting in force is open. -/
structure InElement (b : Builder) (o : Opened) : Prop where
  current : b.opened.head? = some o
  space : o.name.space = .html
  plain : ∃ name attributes, b.dom.content? o.id = some (.element { name, attributes })
  mode : b.mode = .inBody
  lexing : b.lexing = .markup
  fostering : b.fostering = false
  templates : b.templateModes = []
  settled : b.formatting.takeWhile (fun f => !b.isMarkerOrOpen f) = []

namespace InElement

variable {b : Builder} {o : Opened}

theorem opened (h : b.InElement o) : ∃ rest, b.opened = o :: rest := by
  cases shown : b.opened with
  | nil =>
      have current := h.current
      rw [shown] at current
      cases current
  | cons q rest =>
      have current := h.current
      rw [shown] at current
      cases current
      exact ⟨rest, rfl⟩

theorem present (h : b.InElement o) : o.id < b.dom.size := by
  obtain ⟨_, _, content⟩ := h.plain
  exact Dom.lt_size_of_content? content

theorem inOtherSpace (h : b.InElement o) : b.inOtherSpace = false := by
  obtain ⟨rest, opened⟩ := h.opened
  simp [Builder.inOtherSpace, currentIs, opened, h.space]

theorem isForeign (h : b.InElement o) (t : Token) : b.isForeign t = false := by
  obtain ⟨rest, opened⟩ := h.opened
  simp [Builder.isForeign, opened, h.space]

theorem feed (h : b.InElement o) {t : Token} {b' : Builder} (done : b.inBody t = .done b') :
    b.feed t = b' := by
  have times : 32 + 4 * b.opened.length = (31 + 4 * b.opened.length) + 1 := by omega
  rw [Builder.feed, times, feedTimes, h.isForeign, inMode, h.mode]
  simp only [Bool.false_eq_true, if_false, done]

theorem reconstruct (h : b.InElement o) : b.reconstruct = b := by
  rw [Builder.reconstruct]
  simp only [h.settled, List.isEmpty_nil, if_true]

theorem placeIn (h : b.InElement o) : b.currentPlace = (o.id, none) := by
  obtain ⟨rest, opened⟩ := h.opened
  obtain ⟨name, attributes, content⟩ := h.plain
  have element : b.dom.element? o.id = some { name, attributes } := Dom.element?_of_content? content
  have holder : b.holder o = o.id := by
    rw [Builder.holder, element]
    rfl
  rw [currentPlace, opened]
  simp only [Builder.placeIn, h.fostering, Bool.false_and, Bool.false_eq_true, if_false, holder]

theorem appendText (h : b.InElement o) (s : Text) :
    b.appendText s = { b with dom := b.dom.insertText o.id none s } := by
  rw [Builder.appendText, h.placeIn]

end InElement

/-- The state after some content, with the store grown. -/
def grown (b : Builder) (d : Dom) (frames : Bool) : Builder :=
  { b with dom := d, framesAllowed := frames, dropsLineFeed := false }

theorem InElement.grown {b : Builder} {o : Opened} (h : b.InElement o) {d : Dom}
    (same : d.content? o.id = b.dom.content? o.id) (frames : Bool) :
    (b.grown d frames).InElement o := by
  obtain ⟨name, attributes, content⟩ := h.plain
  exact ⟨h.current, h.space, ⟨name, attributes, same.trans content⟩, h.mode, h.lexing,
    h.fostering, h.templates, h.settled⟩

theorem receive_text {b : Builder} {o : Opened} (h : b.InElement o)
    (drops : b.dropsLineFeed = false) {run : Text} (present : run ≠ []) :
    ∃ frames, b.receive (.text run) =
      b.grown (b.dom.insertText o.id none run) frames := by
  have kept : { b with dropsLineFeed := false } = b := by rw [← drops]
  have blanks : b.mode.splitsBlanks = false := by rw [h.mode]; rfl
  have fed : b.feed (.text run) = b.writeText run := h.feed rfl
  have written : b.receive (.text run) = b.writeText run := by
    cases run with
    | nil => exact absurd rfl present
    | cons c run =>
        rw [receive, kept]
        simp only [List.length_cons, feedText, blanks, Bool.false_eq_true, if_false, fed]
        intro _ dropping
        rw [drops] at dropping
        cases dropping
  rw [written, writeText, h.reconstruct, h.appendText]
  split
  · exact ⟨b.framesAllowed, by simp only [grown, drops]⟩
  · exact ⟨false, by simp only [grown, forbidFrames, drops]⟩

theorem receive_null {b : Builder} {o : Opened} (h : b.InElement o)
    (drops : b.dropsLineFeed = false) : b.receive .null = b := by
  have kept : { b with dropsLineFeed := false } = b := by rw [← drops]
  have fed : b.feed .null = b := h.feed rfl
  simp only [receive, kept, fed]

end Builder

/-- A text has been written into a node up to here, or none has and none stands there. -/
structure Dom.Written (d : Dom) (p : NodeId) (s : Text) (d' : Dom) : Prop where
  grows : d.Grows p (if s.isEmpty then [] else [.text s]) d'
  apart : s = [] → ∀ i ∈ (d'.children p).getLast?, d'.isText i = false

theorem Dom.Written.insertText {d d' : Dom} {p : NodeId} {s : Text} (written : d.Written p s d')
    (present : p < d.size) {run : Text} (more : run ≠ []) :
    d.Written p (s ++ run) (d'.insertText p none run) := by
  have there : (s ++ run).isEmpty = false := by simp [more]
  refine ⟨?_, fun none => absurd (List.append_eq_nil_iff.1 none).2 more⟩
  rw [there]
  have grows := written.grows
  cases s with
  | nil =>
      have still : p < d'.size := by
        rw [grows.size]
        exact Nat.lt_add_right _ present
      exact grows.trans (.of_insertText run still (written.apart rfl)) present
  | cons c s => exact Grows.insertText grows present run

theorem escapeText_append (s t : Text) : escapeText (s ++ t) = escapeText s ++ escapeText t :=
  List.flatMap_append

theorem Builder.grown_self {b : Builder} (drops : b.dropsLineFeed = false) :
    b.grown b.dom b.framesAllowed = b := by
  rw [Builder.grown, ← drops]

theorem reads_run {b : Builder} {o : Opened} (h : b.InElement o) (drops : b.dropsLineFeed = false)
    {d : Dom} (present : o.id < d.size) {before : Text} (written : d.Written o.id before b.dom)
    {run : Text} (null : '\x00' ∉ run) {rest : Text} (ends : EndsText rest) :
    ∃ d' frames, Reads (escapeText run ++ rest) b rest (b.grown d' frames) ∧
      d.Written o.id (before ++ run) d' := by
  by_cases none : run = []
  · subst none
    refine ⟨b.dom, b.framesAllowed, ?_, by rwa [List.append_nil]⟩
    rw [Builder.grown_self drops]
    exact .refl _ b
  · obtain ⟨frames, received⟩ := b.receive_text h drops none
    refine ⟨_, frames, ?_, written.insertText present none⟩
    have longer := List.length_pos_iff.2 (escapeText_ne_nil none)
    rw [← received]
    refine .token h.lexing (nextToken_text _ none null ends) ?_
    rw [List.length_append]
    omega

theorem shown_of_not_mem {s : Text} (null : '\x00' ∉ s) : shownText s = s :=
  List.filter_eq_self.2 fun _ member => decide_eq_true fun same => null (same ▸ member)

theorem shown_append_null {run : Text} (null : '\x00' ∉ run) (s : Text) :
    shownText (run ++ '\x00' :: s) = run ++ shownText s := by
  have first := shown_of_not_mem null
  rw [shownText] at first
  rw [shownText, List.filter_append, first, List.filter_cons_of_neg (by decide)]
  rfl

theorem reads_text {b : Builder} {o : Opened} (h : b.InElement o) (drops : b.dropsLineFeed = false)
    {d : Dom} (present : o.id < d.size) {before : Text} (written : d.Written o.id before b.dom)
    (s : Text) {rest : Text} (ends : EndsText rest) :
    ∃ d' frames, Reads (escapeText s ++ rest) b rest (b.grown d' frames) ∧
      d.Written o.id (before ++ shownText s) d' := by
  by_cases null : '\x00' ∈ s
  · obtain ⟨run, more, rfl, absent⟩ := List.eq_append_cons_of_mem null
    let tail := escapeText more ++ rest
    have split : escapeText (run ++ '\x00' :: more) ++ rest =
        escapeText run ++ '\x00' :: tail := by
      rw [escapeText_append, List.append_assoc]
      rfl
    have stops : EndsText ('\x00' :: tail) := .inr ⟨_, _, rfl, rfl⟩
    obtain ⟨d₁, frames₁, first, written₁⟩ := reads_run h drops present written absent stops
    have h₁ : (b.grown d₁ frames₁).InElement o :=
      h.grown (written₁.grows.content.trans written.grows.content.symm) frames₁
    have dropped : Reads ('\x00' :: tail) (b.grown d₁ frames₁) tail (b.grown d₁ frames₁) := by
      have token := Reads.token (s := '\x00' :: tail) (t := .null) h₁.lexing rfl
        (Nat.lt_succ_self _)
      rwa [Builder.receive_null h₁ rfl] at token
    obtain ⟨d₂, frames₂, second, written₂⟩ := reads_text h₁ rfl present written₁ more ends
    refine ⟨d₂, frames₂, ?_, ?_⟩
    · rw [split]
      exact first.trans (dropped.trans second)
    · rwa [shown_append_null absent, ← List.append_assoc]
  · obtain ⟨d', frames, reads, written'⟩ := reads_run h drops present written null ends
    exact ⟨d', frames, reads, by rwa [shown_of_not_mem null]⟩
termination_by s.length
decreasing_by simp_all; omega

namespace Builder

theorem InElement.addElement {b : Builder} {o : Opened} (h : b.InElement o) {name : Text}
    (ordinary : name ≠ "template".toList) (attributes : Attributes) :
    b.addElement .html name attributes =
      ({ b with dom := (b.dom.add (.element { name, attributes })).1.append o.id b.dom.size },
        ⟨b.dom.size, ⟨.html, name⟩⟩) := by
  let d := (b.dom.add (.element { name, attributes })).1
  have added : b.dom.addElement .html name attributes = (d, b.dom.size) := by
    rw [Dom.addElement, if_neg (fun both => ordinary both.2)]
    rfl
  have same : d.content? o.id = b.dom.content? o.id := Dom.content?_add_of_lt _ _ h.present
  have place : { b with dom := d }.currentPlace = (o.id, none) := by
    obtain ⟨name, attributes, content⟩ := h.plain
    have h' : { b with dom := d }.InElement o :=
      ⟨h.current, h.space, ⟨name, attributes, same.trans content⟩, h.mode, h.lexing, h.fostering,
        h.templates, h.settled⟩
    exact h'.placeIn
  rw [Builder.addElement, added]
  simp only [place]
  rfl

def outerNames : List Text := ["html", "body", "div", "pre"]

/-- Nothing is open but blocks, and no formatting is in force. -/
structure Ready (b : Builder) (o : Opened) : Prop extends InElement b o where
  formatting : b.formatting = []
  outer : ∀ q ∈ b.opened, named outerNames q.name = true
  stands : ∀ q ∈ b.opened, ∃ name attributes,
    b.dom.content? q.id = some (.element { name, attributes })

theorem scopeHolds_of_forall {bounds : ElementClass} {sought : Opened → Bool} {opened : List Opened}
    (none : ∀ q ∈ opened, sought q = false) : scopeHolds bounds sought opened = false := by
  induction opened with
  | nil => rfl
  | cons q rest ih =>
      rw [scopeHolds, none q List.mem_cons_self,
        ih fun r member => none r (List.mem_cons_of_mem q member), Bool.and_false, Bool.or_false]

namespace Ready

variable {b b' : Builder} {o : Opened}

theorem inScopeNamed (h : b.Ready o) {name : Text} (other : name ∉ outerNames)
    (bounds : ElementClass) : b.inScopeNamed bounds name = false := by
  refine scopeHolds_of_forall ?_
  intro q member
  have outer := h.outer q member
  rw [named, Bool.and_eq_true, List.contains_iff_mem] at outer
  have different : q.name.name ≠ name := fun same => other (same ▸ outer.2)
  simp [withName, different]

theorem closeParagraph (h : b.Ready o) : b.closeParagraph = b := by
  rw [Builder.closeParagraph, h.inScopeNamed (by decide)]
  rfl

/-- The state is the same again when all that was opened inside is closed. -/
theorem of_grows (h : b.Ready o) {q : Opened} (inside : b'.InElement q) {ts : List Tree}
    (grows : b.dom.Grows o.id ts b'.dom) {b'' : Builder}
    (same : b'' = { b' with
      opened := b.opened, formatting := [], lexing := .markup,
      dropsLineFeed := b''.dropsLineFeed }) :
    b''.Ready o := by
  have content {i : NodeId} (old : i < b.dom.size) : b'.dom.content? i = b.dom.content? i := by
    by_cases here : i = o.id
    · rw [here, grows.content]
    · exact (grows.same i old here).1
  have stands : ∀ q ∈ b.opened, ∃ name attributes,
      b'.dom.content? q.id = some (.element { name, attributes }) := by
    intro q member
    obtain ⟨name, attributes, shown⟩ := h.stands q member
    exact ⟨name, attributes, (content (Dom.lt_size_of_content? shown)).trans shown⟩
  obtain ⟨name, attributes, shown⟩ := h.plain
  rw [same]
  exact ⟨⟨h.current, h.space, ⟨name, attributes, (content h.present).trans shown⟩, inside.mode,
    rfl, inside.fostering, inside.templates, rfl⟩, rfl, h.outer, stands⟩

end Ready

def within (b : Builder) (o : Opened) (name : Text) (attributes : Attributes)
    (formatting : List Formatting) (frames drops : Bool) : Builder :=
  { b with
    dom := (b.dom.add (.element { name, attributes })).1.append o.id b.dom.size
    opened := ⟨b.dom.size, ⟨.html, name⟩⟩ :: b.opened
    formatting, framesAllowed := frames, dropsLineFeed := drops }

theorem InElement.within {b : Builder} {o : Opened} (h : b.InElement o) (name : Text)
    (attributes : Attributes) {formatting : List Formatting}
    (own : ∀ f ∈ formatting, f.hasId b.dom.size = true) (frames drops : Bool) :
    (b.within o name attributes formatting frames drops).InElement ⟨b.dom.size, ⟨.html, name⟩⟩ := by
  have grows := Dom.Grows.of_element name attributes h.present
  refine ⟨rfl, rfl, ⟨name, attributes, grows.held.1.1⟩, h.mode, h.lexing, h.fostering, h.templates,
    ?_⟩
  cases formatting with
  | nil => rfl
  | cons f formatting =>
      refine List.takeWhile_cons_of_neg ?_
      have hasId := own f List.mem_cons_self
      cases f with
      | marker => cases hasId
      | element id tag =>
          have same : id = b.dom.size := of_decide_eq_true hasId
          simp [isMarkerOrOpen, Builder.within, same]

namespace Ready

variable {b : Builder} {o : Opened}

theorem insertTag (h : b.Ready o) {name : Text} (ordinary : name ≠ "template".toList)
    (attributes : Attributes) :
    b.insertTag ⟨name, attributes, false⟩ =
      b.within o name attributes [] b.framesAllowed b.dropsLineFeed := by
  rw [Builder.insertTag, openElement, h.addElement ordinary]
  simp only [push, Builder.within, ← h.formatting]

theorem openFormatting (h : b.Ready o) {name : Text} (ordinary : name ≠ "template".toList)
    (attributes : Attributes) :
    b.openFormatting ⟨name, attributes, false⟩ =
      b.within o name attributes [.element b.dom.size ⟨name, attributes, false⟩] b.framesAllowed
        b.dropsLineFeed := by
  have unlimited : b.limitFormatting ⟨name, attributes, false⟩ = b := by
    simp [limitFormatting, sinceMarker, h.formatting]
  rw [Builder.openFormatting, unlimited, h.addElement ordinary]
  simp only [push, Builder.within, h.formatting]

theorem openInBody_block (h : b.Ready o) {name : Text} (block : name ∈ blockElements)
    (attributes : Attributes) :
    ∃ frames drops, (drops = true → b.dropsLineFeed = true ∨ name = "pre".toList) ∧
      b.openInBody ⟨name, attributes, false⟩ = b.within o name attributes [] frames drops := by
  simp only [blockElements, List.mem_cons, List.not_mem_nil, or_false] at block
  rcases block with rfl | rfl
  · refine ⟨b.framesAllowed, b.dropsLineFeed, .inl, ?_⟩
    have rule : b.openInBody ⟨"div", attributes, false⟩ =
        b.closeParagraph.insertTag ⟨"div", attributes, false⟩ := rfl
    rw [rule, h.closeParagraph, h.insertTag (by decide)]
  · refine ⟨false, true, fun _ => .inr rfl, ?_⟩
    have rule : b.openInBody ⟨"pre", attributes, false⟩ =
        { (b.closeParagraph.insertTag ⟨"pre", attributes, false⟩).forbidFrames with
          dropsLineFeed := true } := rfl
    rw [rule, h.closeParagraph, h.insertTag (by decide)]
    rfl

def brought (id : NodeId) (name : Text) (attributes : Attributes) : List Formatting :=
  if name = "code".toList then [.element id ⟨name, attributes, false⟩] else []

theorem openInBody_phrase (h : b.Ready o) {name : Text} (phrase : name ∈ phraseElements)
    (attributes : Attributes) :
    ∃ frames, b.openInBody ⟨name, attributes, false⟩ =
      b.within o name attributes (brought b.dom.size name attributes) frames b.dropsLineFeed := by
  simp only [phraseElements, List.mem_cons, List.not_mem_nil, or_false] at phrase
  rcases phrase with rfl | rfl | rfl
  · refine ⟨b.framesAllowed, ?_⟩
    have rule : b.openInBody ⟨"span", attributes, false⟩ =
        b.reconstruct.insertTag ⟨"span", attributes, false⟩ := rfl
    rw [rule, h.reconstruct, h.insertTag (by decide)]
    rfl
  · refine ⟨false, ?_⟩
    have rule : b.openInBody ⟨"button", attributes, false⟩ =
        b.openButton ⟨"button", attributes, false⟩ := rfl
    rw [rule, openButton, h.inScopeNamed (by decide)]
    simp only [Bool.false_eq_true, if_false, h.reconstruct]
    rw [h.insertTag (by decide)]
    rfl
  · refine ⟨b.framesAllowed, ?_⟩
    have rule : b.openInBody ⟨"code", attributes, false⟩ =
        b.reconstruct.openFormatting ⟨"code", attributes, false⟩ := rfl
    rw [rule, h.reconstruct, h.openFormatting (by decide)]
    rfl

end Ready

section Close

variable {b : Builder} {id : NodeId} {name : Text} {rest : List Opened}

theorem withName_self (name : Text) : withName name ⟨.html, name⟩ = true := by simp [withName]

theorem closeAfterImplied_of_current (opened : b.opened = ⟨id, ⟨.html, name⟩⟩ :: rest)
    (explicit : endsImplied ⟨.html, name⟩ = false) :
    (if b.inScopeNamed boundsScope name then b.closeAfterImplied name else b) =
      { b with opened := rest } := by
  have inScope : b.inScopeNamed boundsScope name = true := by
    rw [inScopeNamed, inScope, opened, scopeHolds, withName_self, Bool.true_or]
  rw [inScope, if_pos rfl, closeAfterImplied, impliedEnds, popUntilNamed, popUntil, opened,
    List.dropWhile_cons_of_neg (by simp [explicit]),
    List.dropWhile_cons_of_neg (by simp [withName_self]), List.tail_cons]

theorem closeAny_of_current (opened : b.opened = ⟨id, ⟨.html, name⟩⟩ :: rest) :
    b.closeAny name = { b with opened := rest } := by
  have found : b.opened.find? (fun o => withName name o.name || isSpecial o.name) =
      some ⟨id, ⟨.html, name⟩⟩ := by
    rw [opened, List.find?_cons_of_pos (by simp [withName_self])]
  rw [closeAny, found]
  simp only [withName_self, if_true]
  rw [opened, List.dropWhile_cons_of_neg (by simp), List.tail_cons]

theorem endFormatting_of_current (opened : b.opened = ⟨id, ⟨.html, name⟩⟩ :: rest) {tag : Tag}
    (formatting : b.formatting = [.element id tag]) (named : tag.name = name) :
    b.endFormatting name = { b with opened := rest, formatting := [] } := by
  have force : b.formatting.any (·.hasId id) = true := by simp [formatting, Formatting.hasId]
  have top : b.opened.any (·.id = id) = true := by simp [opened]
  have inScope : scopeHolds boundsScope (fun o => o.id = id) b.opened = true := by
    simp [opened, scopeHolds]
  have sole : splitAtBlock? id b.opened = none := by
    simp [splitAtBlock?, opened]
  have sought : b.sinceMarker = [.element id tag] := by
    simp [sinceMarker, formatting, Formatting.isMarker]
  have erased : b.eraseFormatting id = { b with formatting := [] } := by
    simp [eraseFormatting, formatting, Formatting.hasId]
  have tail : (b.opened.dropWhile fun o => o.id ≠ id).tail = rest := by simp [opened]
  have times : endFormattingTimes name 8 b = { b with opened := rest, formatting := [] } := by
    simp only [endFormattingTimes, sought, List.find?_cons, named, decide_true, top, inScope, sole,
      erased, tail, Bool.not_true, Bool.false_eq_true, if_false]
  unfold endFormatting
  rw [opened]
  simp only [force, Bool.not_true, Bool.and_false, Bool.false_eq_true, if_false]
  exact times

theorem closeInBody_block (opened : b.opened = ⟨id, ⟨.html, name⟩⟩ :: rest)
    (block : name ∈ blockElements) : b.closeInBody name = { b with opened := rest } := by
  simp only [blockElements, List.mem_cons, List.not_mem_nil, or_false] at block
  rcases block with rfl | rfl
  · exact closeAfterImplied_of_current opened (by decide)
  · exact closeAfterImplied_of_current opened (by decide)

theorem closeInBody_phrase (opened : b.opened = ⟨id, ⟨.html, name⟩⟩ :: rest)
    (phrase : name ∈ phraseElements) {attributes : Attributes}
    (formatting : b.formatting = Ready.brought id name attributes) :
    b.closeInBody name = { b with opened := rest, formatting := [] } := by
  simp only [phraseElements, List.mem_cons, List.not_mem_nil, or_false] at phrase
  rcases phrase with rfl | rfl | rfl
  · have closed : b.closeInBody "span" = b.closeAny "span" := rfl
    rw [closed, closeAny_of_current opened, formatting]
    rfl
  · have closed : b.closeInBody "button" =
        if b.inScopeNamed boundsScope "button" then b.closeAfterImplied "button" else b := rfl
    rw [closed, closeAfterImplied_of_current opened (by decide), formatting]
    rfl
  · have closed : b.closeInBody "code" = b.endFormatting "code" := rfl
    rw [closed, endFormatting_of_current opened formatting rfl]

end Close

theorem InElement.undropped {b : Builder} {o : Opened} (h : b.InElement o) :
    { b with dropsLineFeed := false }.InElement o :=
  ⟨h.current, h.space, h.plain, h.mode, h.lexing, h.fostering, h.templates, h.settled⟩

theorem Ready.undropped {b : Builder} {o : Opened} (h : b.Ready o) :
    { b with dropsLineFeed := false }.Ready o :=
  ⟨h.toInElement.undropped, h.formatting, h.outer, h.stands⟩

theorem receive_openTag {b : Builder} {o : Opened} (h : b.InElement o) (tag : Tag) :
    b.receive (.openTag tag) = { b with dropsLineFeed := false }.openInBody tag :=
  h.undropped.feed rfl

theorem receive_closeTag {b : Builder} {o : Opened} (h : b.InElement o) {name : Text}
    (inside : name ≠ "body".toList ∧ name ≠ "html".toList) :
    b.receive (.closeTag name) =
      { b with dropsLineFeed := false, lexing := .markup }.closeInBody name := by
  have h' : { b with dropsLineFeed := false, lexing := .markup }.InElement o :=
    ⟨h.current, h.space, h.plain, h.mode, rfl, h.fostering, h.templates, h.settled⟩
  refine h'.feed ?_
  simp only [inBody, inside.1, inside.2, if_false]

/-- Nothing in an element would be written on by a text. -/
def EndsApart (b : Builder) (o : Opened) : Prop :=
  ∀ i ∈ (b.dom.children o.id).getLast?, b.dom.isText i = false

theorem Ready.within {b : Builder} {o : Opened} (h : b.Ready o) {name : Text}
    (block : name ∈ blockElements) (attributes : Attributes) (frames drops : Bool) :
    (b.within o name attributes [] frames drops).Ready ⟨b.dom.size, ⟨.html, name⟩⟩ := by
  have grows := Dom.Grows.of_element name attributes h.present
  refine ⟨h.toInElement.within name attributes (fun _ none => absurd none List.not_mem_nil) frames
    drops, rfl, ?_, ?_⟩
  · intro q member
    rcases List.mem_cons.1 member with rfl | member
    · simp only [blockElements, List.mem_cons, List.not_mem_nil, or_false] at block
      rcases block with rfl | rfl <;> rfl
    · exact h.outer q member
  · intro q member
    rcases List.mem_cons.1 member with rfl | member
    · exact ⟨name, attributes, grows.held.1.1⟩
    · obtain ⟨name', attributes', shown⟩ := h.stands q member
      refine ⟨name', attributes', Eq.trans ?_ shown⟩
      by_cases here : q.id = o.id
      · rw [here]
        exact grows.content
      · exact (grows.same q.id (Dom.lt_size_of_content? shown) here).1

end Builder

end LivePage.Html
