import LivePage.Proofs.Html.Order
import Mathlib.Data.List.TakeWhile

/-!
Running text in a block. Its elements may overlap: an anchor ends the anchor it is in, with all that
is open in that one, and what was formatting there is opened anew. What is left open in the end is
bounded by counting: no name is open, or still in force, more often than its start tags have been
read without an end tag. So where every start tag has got its end tag nothing is left, and only new
elements without the class in question have come in.
-/

namespace LivePage.Html

/-- The elements of running text that stay in force when a block ends. -/
def formattingElements : List Text := ["a", "em", "strong", "u", "code"]

def plainElements : List Text := ["del", "sup", "sub", "span"]

def Attributes.hasClass (attributes : Attributes) (name : Text) : Bool :=
  (⟨.html, [], attributes, none⟩ : Element).hasClass name

def specialBlocks : List Text :=
  ["blockquote", "body", "button", "div", "h1", "h2", "h3", "h4", "h5", "h6", "li", "ol", "p", "pre",
    "section", "td", "th", "ul"]

theorem specialNames_facts : (∀ name ∈ specialBlocks, name ∈ specialNames) ∧
    ∀ name ∈ formattingElements ++ plainElements,
      name ≠ "template".toList ∧ name ∉ specialNames := by
  -- strings are evaluated as lists of their characters
  unfold specialNames textsOf
  repeat rw [String.toList_ofList]
  decide +kernel

theorem ordinary_of_phrasing {name : Text} (known : name ∈ formattingElements ++ plainElements) :
    name ≠ "template".toList ∧ name ∉ specialNames :=
  specialNames_facts.2 name known

def Formatting.isNamed (name : Text) : Formatting → Bool
  | marker => false
  | element _ tag => tag.name = name

namespace Builder

def inForce (own : List Formatting) (name : Text) : Nat := own.countP (Formatting.isNamed name)

/-- Whether an element has the name, and is open without being in force. -/
def strays (own : List Formatting) (name : Text) (q : Opened) : Bool :=
  q.name.name = name && !own.any (·.hasId q.id)

/-- How often a name is in force, or open without being in force. -/
def weight (inner : List Opened) (own : List Formatting) (name : Text) : Nat :=
  inForce own name + inner.countP (strays own name)

section Weight

variable {inner fewer : List Opened} {own : List Formatting} (n : Text)

theorem weight_close (sub : fewer.Sublist inner) : weight fewer own n ≤ weight inner own n :=
  Nat.add_le_add_left sub.countP_le _

theorem weight_open (q : Opened) :
    weight (q :: inner) own n ≤ weight inner own n + if q.name.name = n then 1 else 0 := by
  rw [weight, weight, List.countP_cons, ← Nat.add_assoc]
  refine Nat.add_le_add_left ?_ _
  by_cases same : q.name.name = n
  · rw [if_pos same]
    split <;> omega
  · simp [strays, same]

theorem weight_open_formatting (id : NodeId) (tag : Tag) :
    weight (⟨id, ⟨.html, tag.name⟩⟩ :: inner) (.element id tag :: own) n ≤
      weight inner own n + if tag.name = n then 1 else 0 := by
  have others : inner.countP (strays (.element id tag :: own) n) ≤ inner.countP (strays own n) := by
    refine List.countP_mono_left fun q _ counts => ?_
    simp only [strays, List.any_cons, Bool.and_eq_true, Bool.not_eq_true',
      Bool.or_eq_false_iff] at counts ⊢
    exact ⟨counts.1, counts.2.2⟩
  have new : strays (.element id tag :: own) n ⟨id, ⟨.html, tag.name⟩⟩ = false := by
    simp [strays, Formatting.hasId]
  rw [weight, weight, inForce, inForce, List.countP_cons, List.countP_cons, new]
  simp only [Formatting.isNamed, decide_eq_true_eq, Bool.false_eq_true, if_false]
  omega

theorem erase_of_other {id : NodeId} {f : Formatting} {i : NodeId} (hasId : f.hasId i = true)
    (other : i ≠ id) : f.hasId id = false := by
  cases f with
  | marker => rfl
  | element j tag =>
      have same : j = i := of_decide_eq_true hasId
      exact decide_eq_false (same ▸ other)

theorem strays_erase {id : NodeId} {q : Opened} (other : q.id ≠ id) :
    strays (own.filter fun f => !f.hasId id) n q = strays own n q := by
  have same : (own.filter fun f => !f.hasId id).any (·.hasId q.id) = own.any (·.hasId q.id) := by
    rw [List.any_filter]
    refine congrArg (List.any own) (funext fun f => ?_)
    cases shown : f.hasId q.id with
    | false => exact Bool.and_false _
    | true => rw [erase_of_other shown other]; rfl
  rw [strays, strays, same]

theorem countP_strays_erase {id : NodeId} (others : ∀ q ∈ inner, q.id ≠ id) :
    inner.countP (strays (own.filter fun f => !f.hasId id) n) = inner.countP (strays own n) :=
  List.countP_congr fun q member => by rw [strays_erase n (others q member)]

theorem inForce_erase (own : List Formatting) (id : NodeId) :
    inForce (own.filter fun f => !f.hasId id) n ≤ inForce own n :=
  List.filter_sublist.countP_le

theorem inForce_erase_lt {id : NodeId} {tag : Tag} (listed : .element id tag ∈ own) :
    inForce (own.filter fun f => !f.hasId id) tag.name < inForce own tag.name := by
  obtain ⟨front, back, rfl⟩ := List.append_of_mem listed
  have one : (Formatting.element id tag).isNamed tag.name = true := decide_eq_true rfl
  have gone : (Formatting.element id tag).hasId id = true := decide_eq_true rfl
  have first := inForce_erase tag.name front id
  have second := inForce_erase tag.name back id
  simp only [inForce] at first second ⊢
  rw [List.filter_append, List.filter_cons_of_neg (by rw [gone]; exact Bool.false_ne_true),
    List.countP_append, List.countP_append, List.countP_cons_of_pos one]
  omega

theorem weight_erase {id : NodeId} (sub : fewer.Sublist inner) (gone : ∀ q ∈ fewer, q.id ≠ id) :
    weight fewer (own.filter fun f => !f.hasId id) n ≤ weight inner own n := by
  rw [weight, countP_strays_erase n gone]
  exact Nat.add_le_add (inForce_erase n own id) sub.countP_le

theorem weight_erase_lt {id : NodeId} {tag : Tag} (listed : .element id tag ∈ own)
    (sub : fewer.Sublist inner) (gone : ∀ q ∈ fewer, q.id ≠ id) :
    weight fewer (own.filter fun f => !f.hasId id) tag.name < weight inner own tag.name := by
  rw [weight, countP_strays_erase tag.name gone]
  exact Nat.add_lt_add_of_lt_of_le (inForce_erase_lt listed) sub.countP_le

theorem weight_displace {id : NodeId} {tag : Tag} (listed : .element id tag ∈ own)
    (nodup : (inner.map (·.id)).Nodup) (named : ∀ q ∈ inner, q.id = id → q.name.name = tag.name) :
    weight inner (own.filter fun f => !f.hasId id) n ≤ weight inner own n := by
  by_cases there : ∃ q ∈ inner, q.id = id
  · obtain ⟨q, member, same⟩ := there
    obtain ⟨front, back, rfl⟩ := List.append_of_mem member
    rw [List.map_append, List.map_cons] at nodup
    obtain ⟨_, tail, apart⟩ := List.nodup_append.1 nodup
    have first : ∀ p ∈ front, p.id ≠ id := fun p listed =>
      same ▸ apart p.id (List.mem_map_of_mem listed) q.id List.mem_cons_self
    have second : ∀ p ∈ back, p.id ≠ id := fun p listed here =>
      (List.nodup_cons.1 tail).1 (same ▸ here ▸ List.mem_map_of_mem listed)
    have own_q := named q member same
    rw [weight, weight, List.countP_append, List.countP_append, List.countP_cons, List.countP_cons,
      countP_strays_erase n first, countP_strays_erase n second]
    by_cases here : tag.name = n
    · have less := inForce_erase_lt listed
      rw [here] at less
      split <;> split <;> omega
    · have less := inForce_erase n own id
      have none : strays (own.filter fun f => !f.hasId id) n q = false := by
        simp [strays, own_q, here]
      rw [none]
      simp only [Bool.false_eq_true, if_false]
      omega
  · refine Nat.add_le_add (inForce_erase n own id) (Nat.le_of_eq ?_)
    exact countP_strays_erase n fun q member same => there ⟨q, member, same⟩

end Weight

/-- Where running text stands: the mode, the open elements around it, and the formatting outside. -/
structure Region where
  mode : Mode
  base : List Opened
  past : List Formatting

/-- Nothing that is opened in the text can end or reopen what is around it. -/
structure Region.Fine (r : Region) : Prop where
  mode : r.mode = .inBody ∨ r.mode = .inCell
  bounded : ∃ o rest, r.base = o :: rest ∧ isSpecial o.name = true
  rooted : [bodyElement, rootElement] <:+ r.base
  past : r.past = [] ∨ r.past = [.marker]

def IsEntry (c : Text) (base inner : List Opened) (size : Nat) (f : Formatting) : Prop :=
  ∃ id tag, f = .element id tag ∧ tag.name ∈ formattingElements ∧
    tag.attributes.hasClass c = false ∧ id < size ∧ (∀ q ∈ base, q.id ≠ id) ∧
    ∀ q ∈ inner, q.id = id → q.name.name = tag.name

/-- The state in running text, in which `inner` is open and `own` in force. -/
structure InPhrase (c : Text) (r : Region) (inner : List Opened) (own : List Formatting)
    (b : Builder) : Prop where
  calm : b.Calm
  mode : b.mode = r.mode
  opened : b.opened = inner ++ r.base
  formatting : b.formatting = own ++ r.past
  phrases : ∀ q ∈ inner, named (formattingElements ++ plainElements) q.name = true
  entries : ∀ f ∈ own, IsEntry c r.base inner b.dom.size f

variable {c : Text} {r : Region} {inner : List Opened} {own : List Formatting} {b : Builder}

/-- The elements of a class, in document order as long as the reader is calm. -/
def shown (c : Text) (b : Builder) : List Element := b.dom.elements.filter (·.hasClass c)

theorem shown_of_dom {b' : Builder} (same : b'.dom = b.dom) : shown c b' = shown c b := by
  rw [shown, shown, same]

def ofTag (c : Text) (tag : Tag) : List Element :=
  if tag.attributes.hasClass c then [⟨.html, tag.name, tag.attributes, none⟩] else []

theorem ofTag_of_plain {tag : Tag} (plain : tag.attributes.hasClass c = false) :
    ofTag c tag = [] := by
  rw [ofTag, plain]
  rfl

theorem shown_append {d : Dom} {tag : Tag}
    (elements : d.elements = b.dom.elements ++ [⟨.html, tag.name, tag.attributes, none⟩])
    (b' : Builder) (dom : b'.dom = d) : shown c b' = shown c b ++ ofTag c tag := by
  rw [shown, dom, elements, List.filter_append, shown, List.filter_cons, List.filter_nil]
  rfl

/-- The state after an element of a name has ended, or none was there. -/
def Ended (c : Text) (r : Region) (name : Text) (inner : List Opened) (own : List Formatting)
    (b b' : Builder) : Prop :=
  ∃ fewer own', b'.InPhrase c r fewer own' ∧ b'.dom = b.dom ∧
    (∀ n, weight fewer own' n ≤ weight inner own n) ∧
    (weight fewer own' name < weight inner own name ∨ weight fewer own' name = 0)

/-- What has become of the text: elements that may still count, and none of the class. -/
def Opens (c : Text) (r : Region) (more : Text → Nat) (inner : List Opened)
    (own : List Formatting) (b b' : Builder) : Prop :=
  ∃ inner' own', b'.InPhrase c r inner' own' ∧ shown c b' = shown c b ∧
    ∀ n, weight inner' own' n ≤ weight inner own n + more n

theorem withName_of_find {name : Text} {q : Opened} (shown : withName name q.name = true) :
    q.name.name = name := by
  rw [withName, Bool.and_eq_true, decide_eq_true_eq, decide_eq_true_eq] at shown
  exact shown.2

theorem scopeHolds_of_mem {bounds : ElementClass} {sought : Opened → Bool} {inner : List Opened}
    (free : ∀ q ∈ inner, bounds q.name = false) (there : ∃ q ∈ inner, sought q = true)
    (rest : List Opened) : scopeHolds bounds sought (inner ++ rest) = true := by
  induction inner with
  | nil => obtain ⟨_, member, _⟩ := there; cases member
  | cons p inner ih =>
      rw [List.cons_append, scopeHolds, free p List.mem_cons_self]
      obtain ⟨q, member, meets⟩ := there
      rcases List.mem_cons.1 member with rfl | member
      · rw [meets, Bool.true_or]
      · rw [ih (fun q listed => free q (List.mem_cons_of_mem p listed)) ⟨q, member, meets⟩]
        simp

namespace InPhrase

theorem not_special (h : b.InPhrase c r inner own) {q : Opened} (member : q ∈ inner) :
    isSpecial q.name = false := by
  have known := h.phrases q member
  rw [named, Bool.and_eq_true, List.contains_iff_mem] at known
  have other := (ordinary_of_phrasing known.2).2
  rw [isSpecial, named, Bool.and_eq_false_iff]
  exact .inr (Bool.eq_false_iff.2 fun special => other (List.contains_iff_mem.1 special))

theorem not_marker (h : b.InPhrase c r inner own) {f : Formatting} (member : f ∈ own) :
    f.isMarker = false := by
  obtain ⟨id, tag, rfl, _⟩ := h.entries f member
  rfl

theorem sinceMarker (h : b.InPhrase c r inner own) (fine : r.Fine) : b.sinceMarker = own := by
  have all : ∀ f ∈ own, (!f.isMarker) = true := fun f member => by rw [h.not_marker member]; rfl
  rw [Builder.sinceMarker, h.formatting, List.takeWhile_append_of_pos all]
  rcases fine.past with none | marker
  · rw [none, List.takeWhile_nil, List.append_nil]
  · rw [marker, List.takeWhile_cons_of_neg (by decide), List.append_nil]

theorem nodup (h : b.InPhrase c r inner own) :
    (inner.map (·.id)).Nodup ∧ ∀ q ∈ r.base, ∀ p ∈ inner, p.id ≠ q.id := by
  have all := h.calm.nodup.1
  rw [h.opened, List.map_append] at all
  obtain ⟨first, _, apart⟩ := List.nodup_append.1 all
  exact ⟨first, fun q base p inner =>
    apart p.id (List.mem_map_of_mem inner) q.id (List.mem_map_of_mem base)⟩

theorem close (h : b.InPhrase c r inner own) (fine : r.Fine) {fewer : List Opened}
    (sub : fewer.Sublist inner) :
    { b with opened := fewer ++ r.base }.InPhrase c r fewer own := by
  refine ⟨h.calm.close h.opened sub fine.rooted, h.mode, rfl, h.formatting,
    fun q member => h.phrases q (sub.subset member), fun f member => ?_⟩
  obtain ⟨id, tag, rfl, known, plain, old, outside, named⟩ := h.entries f member
  exact ⟨id, tag, rfl, known, plain, old, outside, fun q listed => named q (sub.subset listed)⟩

/-- Formatting is no longer in force. -/
theorem erase (h : b.InPhrase c r inner own) (fine : r.Fine) (id : NodeId) :
    (b.eraseFormatting id).InPhrase c r inner (own.filter fun f => !f.hasId id) := by
  refine ⟨h.calm.of_eq rfl rfl rfl rfl rfl, h.mode, h.opened, ?_, h.phrases,
    fun f member => h.entries f (List.mem_of_mem_filter member)⟩
  have past : r.past.filter (fun f => !f.hasId id) = r.past := by
    rcases fine.past with none | marker
    · rw [none, List.filter_nil]
    · rw [marker]
      rfl
  rw [eraseFormatting, h.formatting, List.filter_append, past]

/-- The innermost element of a name is closed with all inside, unless there is none. -/
theorem closeAny (h : b.InPhrase c r inner own) (fine : r.Fine) {name : Text}
    (known : name ∈ formattingElements ++ plainElements) (unforced : inForce own name = 0) :
    ∃ fewer : List Opened, fewer.Sublist inner ∧
      b.closeAny name = { b with opened := fewer ++ r.base } ∧
      (weight fewer own name < weight inner own name ∨ weight fewer own name = 0) := by
  obtain ⟨o, rest, base, special⟩ := fine.bounded
  rw [Builder.closeAny, h.opened, List.find?_append]
  cases found : inner.find? fun o => withName name o.name || isSpecial o.name with
  | some q =>
      obtain ⟨meets, front, back, rfl, before⟩ := List.find?_eq_some_iff_append.1 found
      have member : q ∈ front ++ q :: back := by simp
      have called : withName name q.name = true := by
        rwa [h.not_special member, Bool.or_false] at meets
      have nodup := h.nodup.1
      rw [List.map_append, List.map_cons] at nodup
      have ahead : ∀ p ∈ front, decide (p.id ≠ q.id) = true := fun p listed =>
        decide_eq_true ((List.nodup_append.1 nodup).2.2 p.id (List.mem_map_of_mem listed) q.id
          List.mem_cons_self)
      have sub : back.Sublist (front ++ q :: back) :=
        (List.sublist_cons_self q back).trans (List.sublist_append_right ..)
      refine ⟨back, sub, ?_, .inl (Nat.add_lt_add_left ?_ _)⟩
      · simp only [Option.some_or, called, if_true]
        rw [List.append_assoc, List.cons_append, List.dropWhile_append_of_pos ahead,
          List.dropWhile_cons_of_neg (by simp), List.tail_cons]
      · have stray : strays own name q = true := by
          rw [strays, withName_of_find called, decide_eq_true rfl, Bool.true_and,
            Bool.not_eq_true', List.any_eq_false]
          intro f listed hasId
          obtain ⟨id, tag, rfl, _, _, _, _, named⟩ := h.entries f listed
          have same : tag.name = name :=
            (named q member (of_decide_eq_true hasId).symm).symm.trans (withName_of_find called)
          exact List.countP_eq_zero.1 unforced _ listed (decide_eq_true same)
        rw [List.countP_append, List.countP_cons_of_pos stray]
        omega
  | none =>
      have other : withName name o.name = false := by
        rw [withName, Bool.and_eq_false_iff]
        refine .inr (decide_eq_false fun same => (ordinary_of_phrasing known).2 ?_)
        rw [isSpecial, named, Bool.and_eq_true, List.contains_iff_mem] at special
        exact same ▸ special.2
      have first : r.base.find? (fun o => withName name o.name || isSpecial o.name) = some o := by
        rw [base, List.find?_cons_of_pos (by rw [special, Bool.or_true])]
      refine ⟨inner, .refl _, ?_, .inr ?_⟩
      · simp only [Option.none_or, first, other, Bool.false_eq_true, if_false, ← h.opened]
      · have none : inner.countP (strays own name) = 0 := by
          refine List.countP_eq_zero.2 fun q member counts => ?_
          have called : q.name.name = name := by
            rw [strays, Bool.and_eq_true] at counts
            exact of_decide_eq_true counts.1
          have space := h.phrases q member
          rw [named, Bool.and_eq_true] at space
          refine List.find?_eq_none.1 found q member ?_
          rw [withName, space.1, called]
          simp
        rw [weight, unforced, none]

theorem ended_closeAny (h : b.InPhrase c r inner own) (fine : r.Fine) {name : Text}
    (known : name ∈ formattingElements ++ plainElements) (unforced : inForce own name = 0) :
    Ended c r name inner own b (b.closeAny name) := by
  obtain ⟨fewer, sub, closed, less⟩ := h.closeAny fine known unforced
  rw [closed]
  exact ⟨fewer, own, h.close fine sub, rfl, fun n => weight_close n sub, less⟩

theorem boundsScope_of_phrase (h : b.InPhrase c r inner own) :
    ∀ q ∈ inner, boundsScope q.name = false := by
  have all : ∀ name ∈ formattingElements ++ plainElements,
      (textsOf "applet caption html table td th marquee object select template").contains name =
        false := by decide +kernel
  intro q member
  have known := h.phrases q member
  rw [named, Bool.and_eq_true, decide_eq_true_eq, List.contains_iff_mem] at known
  have foreign : decide (Namespace.html = .mathml) = false ∧ decide (Namespace.html = .svg) = false :=
    by decide
  simp only [boundsScope, named, isMathText, isDrawingText, known.1, all _ known.2, foreign,
    Bool.and_false, Bool.false_and, Bool.or_false]

/-- What one round of ending makes of the entry that it finds. -/
def endFound (name : Text) (n : Nat) (b : Builder) : Option Formatting → Builder
  | some (.element id tag) =>
      if !b.opened.any (·.id = id) then b.eraseFormatting id
      else if !scopeHolds boundsScope (fun o => o.id = id) b.opened then b
      else match splitAtBlock? id b.opened with
        | none =>
            let opened := (b.opened.dropWhile fun o => o.id ≠ id).tail
            { b.eraseFormatting id with opened }
        | some (above, block, between) =>
            endFormattingTimes name n (b.moveOut id tag above block between)
  | _ => b.closeAny name

theorem ended_endFormattingTimes (h : b.InPhrase c r inner own) (fine : r.Fine) {name : Text}
    (known : name ∈ formattingElements) (n : Nat) :
    Ended c r name inner own b (endFormattingTimes name (n + 1) b) := by
  have step : endFormattingTimes name (n + 1) b =
      endFound name n b (b.sinceMarker.find? (Formatting.isNamed name)) := rfl
  rw [step, h.sinceMarker fine]
  cases found : own.find? (Formatting.isNamed name) with
  | none =>
      refine h.ended_closeAny fine (List.mem_append_left _ known) (List.countP_eq_zero.2 ?_)
      exact fun f member => List.find?_eq_none.1 found f member
  | some f =>
      have member := List.mem_of_find?_eq_some found
      have called := List.find?_some found
      obtain ⟨id, tag, rfl, _, _, _, outside, _⟩ := h.entries f member
      have same : tag.name = name := of_decide_eq_true called
      have erased := h.erase fine id
      by_cases there : ∃ q ∈ inner, q.id = id
      · obtain ⟨q, listed, here⟩ := there
        obtain ⟨front, back, rfl⟩ := List.append_of_mem listed
        have nodup := h.nodup.1
        rw [List.map_append, List.map_cons] at nodup
        obtain ⟨_, tail, apart⟩ := List.nodup_append.1 nodup
        have ahead : ∀ p ∈ front, decide (p.id ≠ id) = true := fun p listed =>
          decide_eq_true (here ▸ apart p.id (List.mem_map_of_mem listed) q.id List.mem_cons_self)
        have gone : ∀ p ∈ back, p.id ≠ id := fun p listed same =>
          (List.nodup_cons.1 tail).1 (here ▸ same ▸ List.mem_map_of_mem listed)
        have sub : back.Sublist (front ++ q :: back) :=
          (List.sublist_cons_self q back).trans (List.sublist_append_right ..)
        have isOpen : b.opened.any (·.id = id) = true :=
          List.any_eq_true.2 ⟨q, h.opened ▸ List.mem_append_left _ listed, decide_eq_true here⟩
        have inScope : scopeHolds boundsScope (fun o => o.id = id) b.opened = true := by
          rw [h.opened]
          exact scopeHolds_of_mem h.boundsScope_of_phrase ⟨q, listed, decide_eq_true here⟩ _
        have split : b.opened = front ++ q :: (back ++ r.base) := by
          rw [h.opened, List.append_assoc, List.cons_append]
        have passes : decide (q.id ≠ id) = false := decide_eq_false (not_not_intro here)
        have alone : splitAtBlock? id b.opened = none := by
          have above : (front.reverse.dropWhile fun o => !isSpecial o.name) = [] := by
            refine List.dropWhile_eq_nil_iff.2 fun p listed => ?_
            rw [h.not_special (List.mem_append_left _ (List.mem_reverse.1 listed))]
            rfl
          rw [splitAtBlock?, split, List.takeWhile_append_of_pos ahead,
            List.takeWhile_cons_of_neg (by rw [passes]; exact Bool.false_ne_true), List.append_nil]
          simp only [above]
        have tail : (b.opened.dropWhile fun o => o.id ≠ id).tail = back ++ r.base := by
          rw [split, List.dropWhile_append_of_pos ahead,
            List.dropWhile_cons_of_neg (by rw [passes]; exact Bool.false_ne_true), List.tail_cons]
        simp only [endFound, isOpen, inScope, alone, tail, Bool.not_true, Bool.false_eq_true,
          if_false]
        refine ⟨back, _, erased.close fine sub, rfl, fun n => weight_erase n sub gone, .inl ?_⟩
        rw [← same]
        exact weight_erase_lt member sub gone
      · have gone : ∀ p ∈ inner, p.id ≠ id := fun p listed same => there ⟨p, listed, same⟩
        have closed : b.opened.any (·.id = id) = false := by
          rw [h.opened, List.any_append, Bool.or_eq_false_iff]
          exact ⟨List.any_eq_false.2 fun p listed same => gone p listed (of_decide_eq_true same),
            List.any_eq_false.2 fun p listed same => outside p listed (of_decide_eq_true same)⟩
        simp only [endFound, closed, Bool.not_false, if_true]
        refine ⟨inner, _, erased, rfl, fun n => weight_erase n (.refl _) gone, .inl ?_⟩
        rw [← same]
        exact weight_erase_lt member (.refl _) gone

theorem ended_endFormatting (h : b.InPhrase c r inner own) (fine : r.Fine) {name : Text}
    (known : name ∈ formattingElements) : Ended c r name inner own b (b.endFormatting name) := by
  have times := h.ended_endFormattingTimes fine known 7
  unfold endFormatting
  split
  · next o rest shown =>
      split
      · next stray =>
          rw [Bool.and_eq_true, Bool.not_eq_true'] at stray
          -- the innermost element is no block, so it belongs to the text
          obtain ⟨back, rfl, base⟩ : ∃ back, inner = o :: back ∧ rest = back ++ r.base := by
            have opened := h.opened
            rw [shown] at opened
            cases inner with
            | nil =>
                obtain ⟨q, more, base, special⟩ := fine.bounded
                rw [List.nil_append, base] at opened
                obtain ⟨rfl, _⟩ := List.cons.inj opened
                rw [isSpecial, named, Bool.and_eq_true, List.contains_iff_mem] at special
                exact absurd (withName_of_find stray.1 ▸ special.2)
                  (ordinary_of_phrasing (List.mem_append_left _ known)).2
            | cons q back =>
                obtain ⟨rfl, rest⟩ := List.cons.inj opened
                exact ⟨back, rfl, rest⟩
          have sub : back.Sublist (o :: back) := List.sublist_cons_self o back
          have popped : b.pop = { b with opened := back ++ r.base } := by
            rw [pop, shown, List.tail_cons, base]
          have counts : strays own name o = true := by
            have unforced := stray.2
            rw [h.formatting, List.any_append, Bool.or_eq_false_iff] at unforced
            rw [strays, withName_of_find stray.1, unforced.1]
            simp
          rw [popped]
          refine ⟨back, own, h.close fine sub, rfl, fun n => weight_close n sub, .inl ?_⟩
          rw [weight, weight, List.countP_cons_of_pos counts]
          omega
      · exact times
  · next none =>
      rw [h.opened] at none
      obtain ⟨o, rest, base, _⟩ := fine.bounded
      rw [base] at none
      exact absurd none (by simp)

def endAnchor (b : Builder) : Option Formatting → Builder
  | some (.element id _) => ((b.endFormatting "a").eraseFormatting id).removeOpened id
  | _ => b

theorem endOpenAnchor (h : b.InPhrase c r inner own) (fine : r.Fine) :
    ∃ inner' own', b.endOpenAnchor.InPhrase c r inner' own' ∧ b.endOpenAnchor.dom = b.dom ∧
      ∀ n, weight inner' own' n ≤ weight inner own n := by
  have step : b.endOpenAnchor = endAnchor b (b.sinceMarker.find? (Formatting.isNamed "a")) := rfl
  rw [step, h.sinceMarker fine]
  cases found : own.find? (Formatting.isNamed "a") with
  | none => exact ⟨inner, own, h, rfl, fun n => Nat.le_refl _⟩
  | some f =>
      obtain ⟨id, tag, rfl, _, _, _, outside, _⟩ := h.entries f (List.mem_of_find?_eq_some found)
      have anchor : "a".toList ∈ formattingElements := by decide
      obtain ⟨fewer, own', ended, dom, less, _⟩ := h.ended_endFormatting fine anchor
      have erased := ended.erase fine id
      have sub : (fewer.filter fun o => o.id ≠ id).Sublist fewer := List.filter_sublist
      have kept : r.base.filter (fun o => o.id ≠ id) = r.base :=
        List.filter_eq_self.2 fun q member => decide_eq_true (outside q member)
      have removed : ((b.endFormatting "a").eraseFormatting id).removeOpened id =
          { (b.endFormatting "a").eraseFormatting id with
            opened := (fewer.filter fun o => o.id ≠ id) ++ r.base } := by
        rw [removeOpened, erased.opened, List.filter_append, kept]
      have gone : ∀ q ∈ fewer.filter fun o => o.id ≠ id, q.id ≠ id :=
        fun q member => of_decide_eq_true (List.mem_filter.1 member).2
      simp only [endAnchor, removed]
      exact ⟨_, _, erased.close fine sub, dom, fun n => (weight_erase n sub gone).trans (less n)⟩

theorem openEntry (h : b.InPhrase c r inner own) {tag : Tag} (known : tag.name ∈ formattingElements)
    (plain : tag.attributes.hasClass c = false) :
    ∃ d : Dom, b.addElement .html tag.name tag.attributes =
        ({ b with dom := d }, ⟨b.dom.size, ⟨.html, tag.name⟩⟩) ∧
      Opens c r (fun n => if tag.name = n then 1 else 0) inner own b
        { b with
          dom := d, opened := ⟨b.dom.size, ⟨.html, tag.name⟩⟩ :: b.opened
          formatting := .element b.dom.size tag :: b.formatting } := by
  have ordinary := (ordinary_of_phrasing (List.mem_append_left _ known)).1
  obtain ⟨d, added, elements, size, _, calm⟩ := h.calm.addElement ordinary tag.attributes
  have old := h.calm.nodup.2
  rw [h.opened] at old
  refine ⟨d, added, ⟨b.dom.size, ⟨.html, tag.name⟩⟩ :: inner, .element b.dom.size tag :: own,
    ⟨calm.of_eq rfl rfl rfl rfl rfl, h.mode, congrArg (_ :: ·) h.opened,
      congrArg (_ :: ·) h.formatting, ?_, ?_⟩, ?_, fun n => weight_open_formatting n _ tag⟩
  · intro q member
    rcases List.mem_cons.1 member with rfl | member
    · rw [named, Bool.and_eq_true, List.contains_iff_mem]
      exact ⟨rfl, List.mem_append_left _ known⟩
    · exact h.phrases q member
  · intro f member
    rcases List.mem_cons.1 member with rfl | member
    · refine ⟨_, tag, rfl, known, plain, size ▸ Nat.lt_succ_self _, fun q base => ?_, ?_⟩
      · exact Nat.ne_of_lt (old q (List.mem_append_right _ base))
      · intro q listed same
        rcases List.mem_cons.1 listed with rfl | listed
        · rfl
        · exact absurd same (Nat.ne_of_lt (old q (List.mem_append_left _ listed)))
    · obtain ⟨id, other, rfl, known, plain, lower, outside, named⟩ := h.entries f member
      refine ⟨id, other, rfl, known, plain, size ▸ Nat.lt_succ_of_lt lower, outside, ?_⟩
      intro q listed same
      rcases List.mem_cons.1 listed with rfl | listed
      · exact absurd same.symm (Nat.ne_of_lt lower)
      · exact named q listed same
  · rw [shown_append elements _ rfl, ofTag_of_plain plain, List.append_nil]

theorem opens_reopen (closed : List Formatting) : ∀ {b : Builder} {inner : List Opened}
    {own : List Formatting}, b.InPhrase c r inner own →
    (∀ f ∈ closed, ∃ id tag, f = .element id tag ∧ tag.name ∈ formattingElements ∧
      tag.attributes.hasClass c = false) →
    Opens c r (inForce closed) inner own b (b.reopen closed) := by
  induction closed with
  | nil => exact fun h _ => ⟨_, _, h, rfl, fun n => Nat.le_refl _⟩
  | cons f closed ih =>
      intro b inner own h entries
      obtain ⟨id, tag, rfl, known, plain⟩ := entries f List.mem_cons_self
      obtain ⟨d, added, inner₁, own₁, h₁, shown₁, less₁⟩ := h.openEntry known plain
      obtain ⟨inner₂, own₂, h₂, shown₂, less₂⟩ := ih h₁ fun g member =>
        entries g (List.mem_cons_of_mem _ member)
      refine ⟨inner₂, own₂, ?_, ?_, fun n => ?_⟩
      · rw [reopen]
        simp only [added, push]
        exact h₂
      · rw [reopen]
        simp only [added, push]
        exact shown₂.trans shown₁
      · have first : weight inner₁ own₁ n ≤ weight inner own n + if tag.name = n then 1 else 0 :=
          less₁ n
        have second := less₂ n
        have count : inForce (.element id tag :: closed) n =
            inForce closed n + if tag.name = n then 1 else 0 := by
          rw [inForce, List.countP_cons, inForce]
          simp only [Formatting.isNamed, decide_eq_true_eq]
        omega

theorem opens_reconstruct (h : b.InPhrase c r inner own) (fine : r.Fine) :
    Opens c r (fun _ => 0) inner own b b.reconstruct := by
  obtain ⟨closed, kept, rfl, first, ends⟩ : ∃ closed kept, own = closed ++ kept ∧
      (∀ f ∈ closed, b.isMarkerOrOpen f = false) ∧
      (kept ++ r.past).takeWhile (fun f => !b.isMarkerOrOpen f) = [] := by
    refine ⟨own.takeWhile fun f => !b.isMarkerOrOpen f, own.dropWhile fun f => !b.isMarkerOrOpen f,
      List.takeWhile_append_dropWhile.symm, fun f member => ?_, ?_⟩
    · simpa using List.all_eq_true.1 List.all_takeWhile f member
    · cases kept : own.dropWhile fun f => !b.isMarkerOrOpen f with
      | nil => rcases fine.past with past | past <;> rw [past] <;> rfl
      | cons f kept =>
          have stops := List.head?_dropWhile_not (fun f => !b.isMarkerOrOpen f) own
          rw [kept] at stops
          refine List.takeWhile_cons_of_neg ?_
          simpa using stops
  have all : ∀ f ∈ closed, (!b.isMarkerOrOpen f) = true := fun f member => by
    rw [first f member]
    rfl
  have taken : b.formatting.takeWhile (fun f => !b.isMarkerOrOpen f) = closed := by
    rw [h.formatting, List.append_assoc, List.takeWhile_append_of_pos all, ends, List.append_nil]
  by_cases none : closed = []
  · have same : b.reconstruct = b := by
      rw [Builder.reconstruct]
      simp only [taken, none, List.isEmpty_nil, if_true]
    rw [same]
    exact ⟨_, _, h, rfl, fun n => Nat.le_refl _⟩
  · let b₀ : Builder := { b with formatting := kept ++ r.past }
    have reopened : b.reconstruct = b₀.reopen closed.reverse := by
      rw [Builder.reconstruct]
      simp only [taken, List.isEmpty_iff, none, if_false]
      rw [h.formatting, List.append_assoc, List.drop_left]
    have h₀ : b₀.InPhrase c r inner kept :=
      ⟨h.calm.of_eq rfl rfl rfl rfl rfl, h.mode, h.opened, rfl, h.phrases,
        fun f member => h.entries f (List.mem_append_right _ member)⟩
    obtain ⟨inner', own', h', shown', less⟩ := h₀.opens_reopen closed.reverse fun f member => by
      obtain ⟨id, tag, same, known, plain, _⟩ :=
        h.entries f (List.mem_append_left _ (List.mem_reverse.1 member))
      exact ⟨id, tag, same, known, plain⟩
    rw [reopened]
    refine ⟨inner', own', h', shown', fun n => (less n).trans ?_⟩
    -- what is closed is no open element, so the others stray as before
    have stray : inner.countP (strays kept n) = inner.countP (strays (closed ++ kept) n) := by
      refine List.countP_congr fun q member => ?_
      have apart : closed.any (·.hasId q.id) = false := by
        refine List.any_eq_false.2 fun f listed hasId => ?_
        obtain ⟨id, tag, rfl, _⟩ := h.entries f (List.mem_append_left _ listed)
        have closedThere := first _ listed
        rw [isMarkerOrOpen, List.any_eq_false] at closedThere
        refine closedThere q (h.opened ▸ List.mem_append_left _ member) ?_
        exact decide_eq_true (of_decide_eq_true hasId).symm
      rw [strays, strays, List.any_append, apart, Bool.false_or]
    have count : inForce (closed ++ kept) n = inForce closed.reverse n + inForce kept n := by
      rw [inForce, List.countP_append, inForce, List.countP_reverse, inForce]
    rw [weight, weight, stray, count]
    omega

theorem limitFormatting (h : b.InPhrase c r inner own) (fine : r.Fine) (tag : Tag) :
    ∃ own', (b.limitFormatting tag).InPhrase c r inner own' ∧
      (b.limitFormatting tag).dom = b.dom ∧ ∀ n, weight inner own' n ≤ weight inner own n := by
  rw [Builder.limitFormatting, h.sinceMarker fine]
  split
  · exact ⟨own, h, rfl, fun n => Nat.le_refl _⟩
  · split
    · next id tag' last =>
        have member := (List.mem_filter.1 (List.mem_of_getLast? last)).1
        obtain ⟨_, _, same, _, _, _, _, named⟩ := h.entries _ member
        cases same
        exact ⟨_, h.erase fine id, rfl, fun n => weight_displace n member h.nodup.1 named⟩
    · exact ⟨own, h, rfl, fun n => Nat.le_refl _⟩

theorem opens_openFormatting (h : b.InPhrase c r inner own) (fine : r.Fine) {tag : Tag}
    (known : tag.name ∈ formattingElements) (plain : tag.attributes.hasClass c = false) :
    Opens c r (fun n => if tag.name = n then 1 else 0) inner own b (b.openFormatting tag) := by
  obtain ⟨own₁, h₁, dom₁, less₁⟩ := h.limitFormatting fine tag
  obtain ⟨d, added, inner₂, own₂, h₂, shown₂, less₂⟩ := h₁.openEntry known plain
  rw [openFormatting]
  simp only [added, push]
  refine ⟨inner₂, own₂, h₂, shown₂.trans (shown_of_dom dom₁), fun n => ?_⟩
  exact (less₂ n).trans (Nat.add_le_add_right (less₁ n) _)

theorem opens_insertTag (h : b.InPhrase c r inner own) {tag : Tag}
    (known : tag.name ∈ plainElements) :
    ∃ inner' own', (b.insertTag tag).InPhrase c r inner' own' ∧
      shown c (b.insertTag tag) = shown c b ++ ofTag c tag ∧
      ∀ n, weight inner' own' n ≤ weight inner own n + if tag.name = n then 1 else 0 := by
  have phrase : tag.name ∈ formattingElements ++ plainElements := List.mem_append_right _ known
  obtain ⟨d, added, elements, size, _, calm⟩ :=
    h.calm.addElement (ordinary_of_phrasing phrase).1 tag.attributes
  have inserted : b.insertTag tag =
      { b with dom := d, opened := ⟨b.dom.size, ⟨.html, tag.name⟩⟩ :: b.opened } := by
    rw [insertTag, openElement, added]
    rfl
  rw [inserted]
  refine ⟨⟨b.dom.size, ⟨.html, tag.name⟩⟩ :: inner, own, ⟨calm, h.mode,
    congrArg (_ :: ·) h.opened, h.formatting, ?_, ?_⟩, shown_append elements _ rfl,
    fun n => weight_open n _⟩
  · intro q member
    rcases List.mem_cons.1 member with rfl | member
    · rw [named, Bool.and_eq_true, List.contains_iff_mem]
      exact ⟨rfl, phrase⟩
    · exact h.phrases q member
  · intro f member
    obtain ⟨id, other, rfl, known, plain, lower, outside, named⟩ := h.entries f member
    refine ⟨id, other, rfl, known, plain, size ▸ Nat.lt_succ_of_lt lower, outside, ?_⟩
    intro q listed same
    rcases List.mem_cons.1 listed with rfl | listed
    · exact absurd same.symm (Nat.ne_of_lt lower)
    · exact named q listed same

theorem grow (h : b.InPhrase c r inner own) {d : Dom} (calm : { b with dom := d }.Calm)
    (size : b.dom.size ≤ d.size) : { b with dom := d }.InPhrase c r inner own := by
  refine ⟨calm, h.mode, h.opened, h.formatting, h.phrases, ?_⟩
  intro f member
  obtain ⟨id, tag, rfl, known, plain, lower, others⟩ := h.entries f member
  exact ⟨id, tag, rfl, known, plain, Nat.lt_of_lt_of_le lower size, others⟩

theorem of_eq {b' : Builder} (h : b.InPhrase c r inner own) (dom : b'.dom = b.dom)
    (mode : b'.mode = b.mode) (opened : b'.opened = b.opened)
    (formatting : b'.formatting = b.formatting) (lexing : b'.lexing = b.lexing)
    (fostering : b'.fostering = b.fostering) (templates : b'.templateModes = b.templateModes) :
    b'.InPhrase c r inner own := by
  refine ⟨h.calm.of_eq dom opened lexing fostering templates, mode.trans h.mode,
    opened.trans h.opened, formatting.trans h.formatting, h.phrases, ?_⟩
  rw [dom]
  exact h.entries

theorem insertVoid (h : b.InPhrase c r inner own) {tag : Tag}
    (ordinary : tag.name ≠ "template".toList) (plain : tag.attributes.hasClass c = false) :
    (b.insertVoid tag).InPhrase c r inner own ∧ shown c (b.insertVoid tag) = shown c b := by
  obtain ⟨d, added, elements, size, calm, _⟩ := h.calm.addElement ordinary tag.attributes
  have inserted : b.insertVoid tag = { b with dom := d } := by rw [Builder.insertVoid, added]
  have more : shown c { b with dom := d } = shown c b ++ ofTag c tag := shown_append elements _ rfl
  rw [ofTag_of_plain plain, List.append_nil] at more
  rw [inserted]
  exact ⟨h.grow calm (by omega), more⟩

theorem appendText (h : b.InPhrase c r inner own) (run : Text) :
    (b.appendText run).InPhrase c r inner own ∧ shown c (b.appendText run) = shown c b := by
  obtain ⟨d, appended, elements, size, calm⟩ := h.calm.appendText run
  rw [appended]
  exact ⟨h.grow calm size, by rw [shown, elements, shown]⟩

theorem opens_writeText (h : b.InPhrase c r inner own) (fine : r.Fine) (run : Text) :
    Opens c r (fun _ => 0) inner own b (b.writeText run) := by
  obtain ⟨inner', own', h', shown', less⟩ := h.opens_reconstruct fine
  obtain ⟨h'', shown''⟩ := h'.appendText run
  have same : shown c (b.reconstruct.appendText run) = shown c b := shown''.trans shown'
  rw [writeText]
  split
  · exact ⟨inner', own', h'', same, less⟩
  · exact ⟨inner', own', h''.of_eq rfl rfl rfl rfl rfl rfl rfl, same, less⟩

end InPhrase

/-- The state in running text where names may count so often. -/
def Phrase (c : Text) (r : Region) (bound : Text → Nat) (b : Builder) : Prop :=
  ∃ inner own, b.InPhrase c r inner own ∧ ∀ n, weight inner own n ≤ bound n

def more (name : Text) (bound : Text → Nat) (n : Text) : Nat := bound n + if name = n then 1 else 0

end Builder
end LivePage.Html
