import LivePage.Proofs.Html.Spine

/-!
Reading that puts each node last. As long as nothing is put in elsewhere than at the innermost open
element, the elements of a document come in the order of their start tags, whatever the rules make
of the end tags and of the formatting in force.
-/

namespace LivePage.Html

namespace Spine

theorem path_bounds (s : Spine) (i : Nat) :
    ∀ q ∈ s.path i, i ≤ q ∧ q < i + Tree.sizeAll s.forest := by
  induction s generalizing i with
  | tip ts => exact nofun
  | branch before name attributes rest ih =>
      have size : Tree.sizeAll (branch before name attributes rest).forest =
          Tree.sizeAll before + (Tree.sizeAll rest.forest + 1) := by
        rw [forest, Tree.sizeAll_append, Tree.sizeAll, Tree.size]
        rfl
      intro q member
      rw [size]
      rcases List.mem_cons.1 member with rfl | member
      · omega
      · have below := ih (i + Tree.sizeAll before + 1) q member
        omega

theorem path_pairwise (s : Spine) (i : Nat) : (s.path i).Pairwise (· < ·) := by
  induction s generalizing i with
  | tip ts => exact .nil
  | branch before name attributes rest ih =>
      refine List.pairwise_cons.2 ⟨fun q member => ?_, ih _⟩
      exact (rest.path_bounds _ q member).1

theorem path_elements {d : Dom} {s : Spine} {i : Nat} (held : Tree.AllHeldAt d i s.forest) :
    ∀ q ∈ s.path i, ∃ name attributes, d.content? q = some (.element { name, attributes }) := by
  induction s generalizing i with
  | tip ts => exact nofun
  | branch before name attributes rest ih =>
      obtain ⟨_, ⟨shown, _, inside⟩, _⟩ := (Tree.allHeldAt_append ..).1 held
      intro q member
      rcases List.mem_cons.1 member with rfl | member
      · exact ⟨name, attributes, shown⟩
      · exact ih inside q member

end Spine

namespace Builder

def rootElement : Opened := ⟨1, ⟨.html, "html"⟩⟩

theorem bodyStart_facts : bodyStart.opened = [bodyElement, rootElement] ∧
    bodyStart.dom.size = 4 ∧ bodyStart.dom.children bodyElement.id = [] := by decide

/-- The open elements of a document stand one in the other, each with nothing behind it. -/
structure Tidy (d : Dom) (inner : List Opened) (s : Spine) : Prop where
  grows : bodyStart.dom.Grows bodyElement.id s.forest d
  within : (inner.reverse.map (·.id)).Sublist (s.path 4)
  space : ∀ q ∈ inner, q.name.space = .html

namespace Tidy

variable {d : Dom} {inner : List Opened} {s : Spine}

theorem ends (h : Tidy d inner s) : d.Ends bodyElement.id 4 s.forest :=
  h.grows.ends bodyStart_facts.2.2 (by decide)

theorem of_turns (h : Tidy d inner s) {d' : Dom} {s' : Spine}
    (turns : d.Turns bodyElement.id 4 s'.forest d') {inner' : List Opened}
    (within : (inner'.reverse.map (·.id)).Sublist (s'.path 4))
    (space : ∀ q ∈ inner', q.name.space = .html) : Tidy d' inner' s' :=
  ⟨turns.grows bodyStart_facts.2.2 h.grows, within, space⟩

theorem of_sublist (h : Tidy d inner s) {fewer : List Opened} (sub : fewer.Sublist inner) :
    Tidy d fewer s :=
  ⟨h.grows, ((sub.reverse).map _).trans h.within, fun q member => h.space q (sub.subset member)⟩

theorem mem_path (h : Tidy d inner s) {q : Opened} (member : q ∈ inner) : q.id ∈ s.path 4 :=
  h.within.subset (List.mem_map_of_mem (List.mem_reverse.2 member))

theorem lt_size (h : Tidy d inner s) {q : Opened} (member : q ∈ inner) :
    4 ≤ q.id ∧ q.id < d.size := by
  rw [h.ends.size]
  exact s.path_bounds 4 q.id (h.mem_path member)

theorem element (h : Tidy d inner s) {q : Opened} (member : q ∈ inner) :
    ∃ name attributes, d.content? q.id = some (.element { name, attributes }) :=
  Spine.path_elements h.ends.held _ (h.mem_path member)

theorem nodup (h : Tidy d inner s) : (inner.map (·.id)).Nodup := by
  have up : (inner.reverse.map (·.id)).Nodup :=
    ((s.path_pairwise 4).imp Nat.ne_of_lt).sublist h.within
  rwa [List.map_reverse, List.nodup_reverse] at up

theorem exists_place (h : Tidy d inner s) :
    ∃ s' : Spine, Tidy d inner s' ∧
      s'.place bodyElement.id 4 = (inner.head?.getD bodyElement).id := by
  cases inner with
  | nil => exact ⟨.tip s.forest, ⟨h.grows, .refl _, nofun⟩, rfl⟩
  | cons o rest =>
      have within := h.within
      rw [List.reverse_cons, List.map_append] at within
      obtain ⟨s', forest', place', within'⟩ := Spine.exists_upTo bodyElement.id within
      refine ⟨s', ⟨forest' ▸ h.grows, ?_, h.space⟩, place'⟩
      rw [List.reverse_cons, List.map_append]
      exact within'

end Tidy

/-- The state of a reader that has put each node last. -/
structure Calm (b : Builder) : Prop where
  tidy : ∃ inner s, b.opened = inner ++ [bodyElement, rootElement] ∧ Tidy b.dom inner s
  lexing : b.lexing = .markup
  fostering : b.fostering = false
  templates : b.templateModes = []

theorem bodyStart_calm : bodyStart.Calm :=
  ⟨⟨[], .tip [], bodyStart_facts.1, .refl _ _, .refl _, nofun⟩, rfl, rfl, rfl⟩

theorem currentPlace_of_content {b : Builder} {o : Opened} {rest : List Opened}
    (opened : b.opened = o :: rest) (fostering : b.fostering = false) {name : Text}
    {attributes : Attributes}
    (content : b.dom.content? o.id = some (.element { name, attributes })) :
    b.currentPlace = (o.id, none) := by
  have holder : b.holder o = o.id := by
    rw [holder, Dom.element?_of_content? content]
    rfl
  rw [currentPlace, opened]
  simp only [placeIn, fostering, Bool.false_and, Bool.false_eq_true, if_false, holder]

namespace Calm

variable {b b' : Builder}

theorem of_eq (h : b.Calm) (dom : b'.dom = b.dom) (opened : b'.opened = b.opened)
    (lexing : b'.lexing = b.lexing) (fostering : b'.fostering = b.fostering)
    (templates : b'.templateModes = b.templateModes) : b'.Calm := by
  refine ⟨?_, lexing.trans h.lexing, fostering.trans h.fostering, templates.trans h.templates⟩
  rw [dom, opened]
  exact h.tidy

theorem undropped (h : b.Calm) : { b with dropsLineFeed := false }.Calm :=
  h.of_eq rfl rfl rfl rfl rfl

/-- No two open elements are one node, and all of them are in the store. -/
theorem nodup (h : b.Calm) :
    (b.opened.map (·.id)).Nodup ∧ ∀ q ∈ b.opened, q.id < b.dom.size := by
  obtain ⟨inner, s, opened, tidy⟩ := h.tidy
  have root : ∀ q ∈ [bodyElement, rootElement], q.id < 4 := by decide
  have size : 4 ≤ b.dom.size := by
    rw [tidy.ends.size]
    exact Nat.le_add_right ..
  rw [opened, List.map_append]
  refine ⟨tidy.nodup.append (by decide) ?_, ?_⟩
  · intro i first second
    obtain ⟨q, member, rfl⟩ := List.mem_map.1 first
    obtain ⟨o, known, same⟩ := List.mem_map.1 second
    have low : q.id < 4 := same ▸ root o known
    exact absurd (tidy.lt_size member).1 (Nat.not_le.2 low)
  · intro q member
    rcases List.mem_append.1 member with member | member
    · exact (tidy.lt_size member).2
    · exact Nat.lt_of_lt_of_le (root q member) size

theorem close (h : b.Calm) {rest inner : List Opened} {fewer : List Opened}
    (opened : b.opened = inner ++ rest) (sub : fewer.Sublist inner)
    (root : [bodyElement, rootElement] <:+ rest) : { b with opened := fewer ++ rest }.Calm := by
  obtain ⟨all, s, shown, tidy⟩ := h.tidy
  obtain ⟨outer, rfl⟩ := root
  rw [opened, ← List.append_assoc, List.append_cancel_right_eq] at shown
  subst shown
  exact ⟨⟨fewer ++ outer, s, (List.append_assoc ..).symm, tidy.of_sublist (sub.append_right outer)⟩,
    h.lexing, h.fostering, h.templates⟩

theorem current (h : b.Calm) : ∃ o rest, b.opened = o :: rest ∧ o.name.space = .html ∧
    ∃ name attributes, b.dom.content? o.id = some (.element { name, attributes }) := by
  obtain ⟨inner, s, opened, tidy⟩ := h.tidy
  cases inner with
  | nil =>
      refine ⟨bodyElement, _, opened, rfl, "body", [], ?_⟩
      rw [tidy.grows.content]
      decide
  | cons o rest =>
      exact ⟨o, _, opened, tidy.space o List.mem_cons_self, tidy.element List.mem_cons_self⟩

theorem inOtherSpace (h : b.Calm) : b.inOtherSpace = false := by
  obtain ⟨o, rest, opened, space, _⟩ := h.current
  simp [Builder.inOtherSpace, currentIs, opened, space]

theorem isForeign (h : b.Calm) (t : Token) : b.isForeign t = false := by
  obtain ⟨o, rest, opened, space, _⟩ := h.current
  simp [Builder.isForeign, opened, space]

theorem feed (h : b.Calm) {t : Token} (done : b.inMode t = .done b') : b.feed t = b' := by
  have times : 32 + 4 * b.opened.length = (31 + 4 * b.opened.length) + 1 := by omega
  rw [Builder.feed, times, feedTimes, h.isForeign]
  simp only [Bool.false_eq_true, if_false, done]

theorem currentPlace (h : b.Calm) {o : Opened} {rest : List Opened} (opened : b.opened = o :: rest) :
    b.currentPlace = (o.id, none) := by
  obtain ⟨o', rest', opened', _, name, attributes, content⟩ := h.current
  rw [opened] at opened'
  obtain ⟨rfl, rfl⟩ := List.cons.inj opened'
  exact currentPlace_of_content opened h.fostering content

theorem exists_spine (h : b.Calm) : ∃ inner s o rest,
    b.opened = inner ++ [bodyElement, rootElement] ∧ Tidy b.dom inner s ∧ b.opened = o :: rest ∧
      s.place bodyElement.id 4 = o.id := by
  obtain ⟨inner, s, opened, tidy⟩ := h.tidy
  obtain ⟨s, tidy, place⟩ := tidy.exists_place
  cases inner with
  | nil => exact ⟨[], s, _, _, opened, tidy, opened, place⟩
  | cons o rest => exact ⟨o :: rest, s, _, _, opened, tidy, opened, place⟩

/-- A new element at the innermost open one, which is left open or not. -/
theorem addElement (h : b.Calm) {name : Text} (ordinary : name ≠ "template".toList)
    (attributes : Attributes) :
    ∃ d : Dom, b.addElement .html name attributes =
        ({ b with dom := d }, ⟨b.dom.size, ⟨.html, name⟩⟩) ∧
      d.elements = b.dom.elements ++ [⟨.html, name, attributes, none⟩] ∧
      d.size = b.dom.size + 1 ∧ { b with dom := d }.Calm ∧
      { b with dom := d, opened := ⟨b.dom.size, ⟨.html, name⟩⟩ :: b.opened }.Calm := by
  obtain ⟨inner, s, o, rest, opened, tidy, current, place⟩ := h.exists_spine
  let e : Content := .element { name, attributes }
  let d := (b.dom.add e).1.append o.id b.dom.size
  have added : b.dom.addElement .html name attributes = ((b.dom.add e).1, b.dom.size) := by
    rw [Dom.addElement, if_neg (fun both => ordinary both.2)]
    rfl
  have there : { b with dom := (b.dom.add e).1 }.currentPlace = (o.id, none) := by
    obtain ⟨_, _, current', _, name', attributes', content⟩ := h.current
    obtain ⟨rfl, rfl⟩ := List.cons.inj (current.symm.trans current')
    exact currentPlace_of_content (b := { b with dom := (b.dom.add e).1 }) current h.fostering
      ((Dom.content?_add_of_lt _ _ (Dom.lt_size_of_content? content)).trans content)
  have ends := tidy.ends.last
  have turns : b.dom.Turns bodyElement.id 4
      (s.put (s.last ++ [.element name attributes []])).forest d := by
    have room : s.place bodyElement.id 4 < b.dom.size := by
      have above := ends.above
      rw [ends.size]
      omega
    have grown := Dom.Turns.of_grows ends (.of_element name attributes room)
    rw [place] at grown
    exact .put tidy.ends (place ▸ grown)
  refine ⟨d, ?_, Dom.elements_insert_add .., (Dom.size_insert ..).trans (Dom.size_add ..), ?_, ?_⟩
  · rw [Builder.addElement, added]
    simp only [there]
    rfl
  · refine ⟨⟨inner, _, opened, tidy.of_turns turns ?_ tidy.space⟩, h.lexing, h.fostering,
      h.templates⟩
    rw [Spine.path_put]
    exact tidy.within
  · refine ⟨⟨⟨b.dom.size, ⟨.html, name⟩⟩ :: inner, s.sprout name attributes,
      congrArg (_ :: ·) opened, tidy.of_turns (s.forest_sprout name attributes ▸ turns) ?_ ?_⟩,
      h.lexing, h.fostering, h.templates⟩
    · have size : b.dom.size = s.start 4 + Tree.sizeAll s.last := ends.size
      rw [List.reverse_cons, List.map_append, Spine.path_sprout, ← size]
      exact tidy.within.append (.refl _)
    · intro q member
      rcases List.mem_cons.1 member with rfl | member
      · rfl
      · exact tidy.space q member

theorem appendText (h : b.Calm) (run : Text) :
    ∃ d : Dom, b.appendText run = { b with dom := d } ∧ d.elements = b.dom.elements ∧
      b.dom.size ≤ d.size ∧ { b with dom := d }.Calm := by
  obtain ⟨inner, s, o, rest, opened, tidy, current, place⟩ := h.exists_spine
  obtain ⟨us, turns⟩ := Dom.exists_turns_insertText tidy.ends.last run
  have turns := Dom.Turns.put tidy.ends turns
  rw [place] at turns
  refine ⟨b.dom.insertText o.id none run, ?_, Dom.elements_insertText .., ?_, ?_⟩
  · rw [Builder.appendText, h.currentPlace current]
  · exact Dom.size_le_insertText ..
  · refine ⟨⟨inner, _, opened, tidy.of_turns turns ?_ tidy.space⟩, h.lexing, h.fostering,
      h.templates⟩
    rw [Spine.path_put]
    exact tidy.within

end Calm

end Builder
end LivePage.Html
