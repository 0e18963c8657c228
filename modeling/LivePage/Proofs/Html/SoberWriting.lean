import LivePage.Html.Serialize
import LivePage.Proofs.Html.Kept
import LivePage.Proofs.Html.SoberReading
import LivePage.Proofs.Text.Parts

/-!
Writing a document down so that it is read soberly. Values are escaped, so they come back as they
were but for line breaks and NUL, and the words of a class with them. What is written for a part of
a store is strewn with the tags of its elements; only the text of scripts is written as it stands.
-/

namespace LivePage.Html

theorem escapeTextChar_other {c : Char} (plain : c ∉ ['&', '<', '>', '\xa0']) :
    escapeTextChar c = [c] := by
  simp only [List.mem_cons, List.not_mem_nil, or_false, not_or] at plain
  obtain ⟨amp, lt, gt, blank⟩ := plain
  unfold escapeTextChar
  split <;> first | contradiction | rfl

theorem escapeValueChar_other {c : Char} (plain : c ∉ ['\x22', '&', '<', '>', '\xa0']) :
    escapeValueChar c = [c] := by
  rw [List.mem_cons, not_or] at plain
  rw [escapeValueChar, if_neg plain.1, escapeTextChar_other plain.2]

theorem not_mem_escapedText (s : Text) : '<' ∉ s.flatMap escapeTextChar := by
  intro member
  obtain ⟨c, _, written⟩ := List.mem_flatMap.1 member
  by_cases special : c ∈ ['&', '<', '>', '\xa0']
  · have marks : ∀ c ∈ ['&', '<', '>', '\xa0'], '<' ∉ escapeTextChar c := by decide
    exact marks c special written
  · rw [escapeTextChar_other special, List.mem_singleton] at written
    exact special (written ▸ by decide)

theorem mem_escapeValueChar {c d : Char} (written : d ∈ escapeValueChar c) :
    d ∉ ['\x22', '<'] ∧ (d = c ∨ d ≠ '\x00') := by
  by_cases special : c ∈ ['\x22', '&', '<', '>', '\xa0']
  · have marks : ∀ c ∈ ['\x22', '&', '<', '>', '\xa0'], ∀ d ∈ escapeValueChar c,
        d ∉ ['\x22', '<'] ∧ d ≠ '\x00' := by decide
    exact (marks c special d written).imp_right .inr
  · rw [escapeValueChar_other special, List.mem_singleton] at written
    simp only [List.mem_cons, List.not_mem_nil, or_false, not_or] at special ⊢
    exact ⟨written ▸ ⟨special.1, special.2.2.1⟩, .inl written⟩

theorem not_mem_escapedValue {d : Char} (marked : d ∈ ['\x22', '<']) (s : Text) :
    d ∉ s.flatMap escapeValueChar := by
  intro member
  obtain ⟨c, _, written⟩ := List.mem_flatMap.1 member
  exact (mem_escapeValueChar written).1 marked

theorem writesReferences_value : WritesReferences escapeValueChar := by
  intro c
  by_cases special : c ∈ ['\x22', '&', '<', '>', '\xa0']
  · refine .inr ?_
    simp only [List.mem_cons, List.not_mem_nil, or_false] at special
    rcases special with rfl | rfl | rfl | rfl | rfl
    · exact ⟨by decide, by decide, "quot;", rfl, by decide⟩
    · exact ⟨by decide, by decide, "amp;", rfl, by decide⟩
    · exact ⟨by decide, by decide, "lt;", rfl, by decide⟩
    · exact ⟨by decide, by decide, "gt;", rfl, by decide⟩
    · exact ⟨by decide, by decide, "nbsp;", rfl, by decide⟩
  · exact .inl (escapeValueChar_other special)

theorem decodeFrom_escapeValueChar (c : Char) (s : Text) :
    decodeFrom true 0 (escapeValueChar c ++ s) = c :: decodeFrom true 0 s := by
  by_cases special : c ∈ ['\x22', '&', '<', '>', '\xa0']
  · simp only [List.mem_cons, List.not_mem_nil, or_false] at special
    rcases special with rfl | rfl | rfl | rfl | rfl
    · exact decodeFrom_named true "quot".toList (by decide) (by decide) rfl s
    · exact decodeFrom_named true "amp".toList (by decide) (by decide) rfl s
    · exact decodeFrom_named true "lt".toList (by decide) (by decide) rfl s
    · exact decodeFrom_named true "gt".toList (by decide) (by decide) rfl s
    · exact decodeFrom_named true "nbsp".toList (by decide) (by decide) rfl s
  · have amp : c ≠ '&' := by
      rintro rfl
      exact special (by decide)
    rw [escapeValueChar_other special]
    exact decodeFrom_plain true amp s

theorem replaceNull_escapedValue (s : Text) :
    replaceNull (s.flatMap escapeValueChar) = (replaceNull s).flatMap escapeValueChar := by
  refine replaceNull_flatMap (by decide) (fun c other member => ?_) s
  exact (mem_escapeValueChar member).2.elim (fun same => other same.symm) fun mark => mark rfl

/-- Values that are escaped are read as they were, but for line breaks and NUL. -/
theorem decodeAttribute_escapedValue (s : Text) :
    decodeAttribute (replaceNull (unifyBreaks (s.flatMap escapeValueChar))) = readValue s :=
  decodeAttribute_flatMap writesReferences_value replaceNull_escapedValue
    decodeFrom_escapeValueChar s

theorem split_unifyBreaks (s : Text) : ∃ w ws ws',
    Text.split Text.isAsciiBlank (unifyBreaks s) = w :: ws ∧
      Text.split Text.isAsciiBlank s = w :: ws' ∧ ∀ u ∈ ws, u ≠ [] → u ∈ ws' := by
  induction s using unifyBreaks.induct with
  | case1 => exact ⟨[], [], [], rfl, rfl, List.forall_mem_nil _⟩
  | case2 s ih =>
      obtain ⟨w, ws, ws', after, before, kept⟩ := ih
      refine ⟨[], w :: ws, [] :: w :: ws', ?_, ?_, fun u member present => ?_⟩
      · rw [unifyBreaks, Text.split_cons_of_mem (by decide), after]
      · rw [Text.split_cons_of_mem (by decide), Text.split_cons_of_mem (by decide), before]
      · rcases List.mem_cons.1 member with rfl | member
        · exact List.mem_cons_of_mem _ List.mem_cons_self
        · exact List.mem_cons_of_mem _ (List.mem_cons_of_mem _ (kept u member present))
  | case3 s alone ih =>
      obtain ⟨w, ws, ws', after, before, kept⟩ := ih
      refine ⟨[], w :: ws, w :: ws', ?_, ?_, fun u member present => ?_⟩
      · rw [unifyBreaks, Text.split_cons_of_mem (by decide), after]
        exact alone
      · rw [Text.split_cons_of_mem (by decide), before]
      · rcases List.mem_cons.1 member with rfl | member
        · exact List.mem_cons_self
        · exact List.mem_cons_of_mem _ (kept u member present)
  | case4 c s _ other ih =>
      obtain ⟨w, ws, ws', after, before, kept⟩ := ih
      rw [unifyBreaks_cons other]
      cases blank : Text.isAsciiBlank c with
      | false => exact ⟨c :: w, ws, ws', Text.split_cons_of_not_mem blank after,
          Text.split_cons_of_not_mem blank before, kept⟩
      | true =>
          refine ⟨[], w :: ws, w :: ws', ?_, ?_, fun u member present => ?_⟩
          · rw [Text.split_cons_of_mem blank, after]
          · rw [Text.split_cons_of_mem blank, before]
          · rcases List.mem_cons.1 member with rfl | member
            · exact List.mem_cons_self
            · exact List.mem_cons_of_mem _ (kept u member present)

theorem split_map {p : Char → Bool} {f : Char → Char} (same : ∀ c, p (f c) = p c) (s : Text) :
    Text.split p (s.map f) = (Text.split p s).map (List.map f) := by
  induction s with
  | nil => rfl
  | cons c s ih =>
      obtain ⟨w, ws, words⟩ := Text.exists_split p s
      rw [words] at ih
      rw [List.map_cons]
      cases blank : p c with
      | false =>
          rw [Text.split_cons_of_not_mem ((same c).trans blank) ih, Text.split_cons_of_not_mem blank words]
          rfl
      | true =>
          rw [Text.split_cons_of_mem ((same c).trans blank), Text.split_cons_of_mem blank, words]
          exact congrArg ([] :: ·) ih

/-- A word of a value that is read is one of the value, unless it was NUL in it. -/
theorem mem_split_readValue {w s : Text} (present : w ≠ []) (shown : replacement ∉ w)
    (member : w ∈ Text.split Text.isAsciiBlank (readValue s)) :
    w ∈ Text.split Text.isAsciiBlank s := by
  have same (c : Char) : Text.isAsciiBlank (if c = '\x00' then replacement else c) =
      Text.isAsciiBlank c := by
    split
    · next null => rw [null]; decide
    · rfl
  rw [readValue, replaceNull, split_map same] at member
  obtain ⟨u, listed, rfl⟩ := List.mem_map.1 member
  have absent : '\x00' ∉ u := fun null => shown (List.mem_map.2 ⟨'\x00', null, rfl⟩)
  have kept : replaceNull u = u := replaceNull_of_absent absent
  rw [replaceNull] at kept
  rw [kept] at present ⊢
  obtain ⟨first, ws, ws', after, before, others⟩ := split_unifyBreaks s
  rw [after] at listed
  rw [before]
  rcases List.mem_cons.1 listed with rfl | listed
  · exact List.mem_cons_self
  · exact List.mem_cons_of_mem _ (others u listed present)

def Attributes.reread (attributes : Attributes) : Attributes :=
  attributes.map fun a => { a with value := readValue a.value }

theorem Attributes.get?_reread (attributes : Attributes) (name : Text) :
    attributes.reread.get? name = (attributes.get? name).map readValue := by
  rw [reread, get?, List.find?_map, get?, Option.map_map, Option.map_map]
  rfl

theorem Attributes.contains_reread (attributes : Attributes) (name : Text) :
    attributes.reread.contains name = attributes.contains name := by
  rw [reread, contains, List.any_map]
  rfl

theorem Attributes.hasClass_of_reread {attributes : Attributes} {name : Text}
    (shown : replacement ∉ name) (marked : attributes.reread.hasClass name = true) :
    attributes.hasClass name = true := by
  rw [hasClass, Element.hasClass] at marked ⊢
  rw [get?_reread] at marked
  cases value : attributes.get? "class" with
  | none =>
      rw [value] at marked
      cases marked
  | some s =>
      rw [value, Option.map_some] at marked
      simp only [Bool.and_eq_true, Bool.not_eq_true', List.isEmpty_eq_false_iff,
        List.contains_iff_mem] at marked ⊢
      exact ⟨mem_split_readValue marked.2 shown marked.1, marked.2⟩

/-- The class of an element comes from one of the tags it was read from. -/
theorem Attributes.hasClass_of_addMissing {attributes others : Attributes} {name : Text}
    (marked : (attributes.addMissing others).hasClass name = true) :
    attributes.hasClass name = true ∨ others.hasClass name = true := by
  rw [hasClass, Element.hasClass] at marked
  rw [get?_addMissing] at marked
  cases own : attributes.get? "class" with
  | some value =>
      refine .inl ?_
      rw [own, Option.some_or] at marked
      rw [hasClass, Element.hasClass, own]
      exact marked
  | none =>
      rw [own, Option.none_or] at marked
      exact .inr marked

def Element.spelled (e : Element) : SpelledTag :=
  ⟨e.name, e.attributes.map fun a => ⟨a.name, some (a.value.flatMap escapeValueChar)⟩, false⟩

namespace Element

theorem markup_spelled (e : Element) :
    e.spelled.markup = '<' :: e.name ++ e.attributes.flatMap writeAttribute ++ ['>'] := by
  have attributes : (e.attributes.map fun a =>
      (⟨a.name, some (a.value.flatMap escapeValueChar)⟩ : Spelled)).flatMap Spelled.markup =
        e.attributes.flatMap writeAttribute := List.flatMap_map ..
  rw [SpelledTag.markup, spelled, attributes, List.cons_append, List.cons_append,
    List.append_assoc]
  rfl

theorem valid_spelled {e : Element} (valid : isMarkupName e.name = true)
    (names : ∀ a ∈ e.attributes, isMarkupName a.name = true)
    (distinct : (e.attributes.map (·.name)).Nodup) : e.spelled.Valid := by
  refine ⟨valid, fun a member => ?_, by rwa [spelled, List.map_map]⟩
  obtain ⟨b, listed, rfl⟩ := List.mem_map.1 member
  refine ⟨names b listed, fun value shown => ?_⟩
  cases shown
  exact not_mem_escapedValue (by decide) b.value

theorem unbracketed_spelled (e : Element) : e.spelled.Unbracketed := by
  intro a member value shown
  obtain ⟨b, _, rfl⟩ := List.mem_map.1 member
  cases shown
  exact not_mem_escapedValue (by decide) b.value

theorem attributes_read_spelled (e : Element) :
    e.spelled.read.attributes = e.attributes.reread := by
  simp only [spelled, SpelledTag.read, SpelledTag.unified, SpelledTag.resolved, List.map_map]
  refine List.map_congr_left fun a _ => ?_
  simp only [Function.comp, Spelled.unified, Spelled.resolved, Option.map_some,
    decodeAttribute_escapedValue]

end Element

theorem Strewn.flatMap {ok held : SpelledTag → Prop} {α : Type} {f : α → Text} {xs : List α}
    (each : ∀ x ∈ xs, Strewn ok held (f x)) : Strewn ok held (xs.flatMap f) := by
  induction xs with
  | nil => exact .nil
  | cons x xs ih =>
      obtain ⟨first, others⟩ := List.forall_mem_cons.1 each
      exact first.append (ih others)

/-- No text of ordinary elements is written as it stands, and the void ones hold nothing. -/
theorem ordinary_kinds : ∀ name ∈ ordinaryNames, hasRawText ⟨.html, name⟩ = false ∧
    (isVoid ⟨.html, name⟩ = true → name ∈ hollowNames) ∧ isMarkupName name = true := by
  unfold hasRawText isVoid textsOf
  repeat rw [String.toList_ofList]
  decide +kernel

theorem script_kinds : hasRawText ⟨.html, "script"⟩ = true ∧ isVoid ⟨.html, "script"⟩ = false := by
  unfold hasRawText isVoid textsOf
  repeat rw [String.toList_ofList]
  decide +kernel

namespace Dom

variable {ok held : SpelledTag → Prop} {d : Dom} {part : NodeId → Prop}

/-- Contents that are written as part of a text with such tags. -/
inductive Writes (ok held : SpelledTag → Prop) (d : Dom) (i : NodeId) : Content → Prop
  | document : Writes ok held d i .document
  | text (s : Text) : Writes ok held d i (.text s)
  | comment {s : Text} (simple : IsCommentText s) : Writes ok held d i (.comment s)
  | element {e : Element} (space : e.space = .html) (inside : e.inside = none)
      (name : e.name ∈ ordinaryNames) (hollow : e.name ∈ hollowNames → d.children i = [])
      (valid : e.spelled.Valid) (known : ok e.spelled) : Writes ok held d i (.element e)
  | script {e : Element} {text : NodeId} {run : Text} (space : e.space = .html)
      (inside : e.inside = none) (name : e.name = "script".toList) (valid : e.spelled.Valid)
      (known : held e.spelled) (child : d.children i = [text])
      (body : d.content? text = some (.text run)) (free : Text.contains "</" run = false)
      (unbroken : '\r' ∉ run) : Writes ok held d i (.element e)

/-- A part of a store with all that is below it. -/
structure Part (ok held : SpelledTag → Prop) (d : Dom) (part : NodeId → Prop) : Prop where
  below : ∀ p, part p → ∀ i ∈ d.children p, part i
  writes : ∀ i, part i → ∀ c, d.content? i = some c → d.Writes ok held i c

namespace Part

theorem reaches (h : d.Part ok held part) {p i : NodeId} (inside : part p)
    (reaches : d.Reaches p i) : part i := by
  induction reaches with
  | refl => exact inside
  | tail _ child ih => exact h.below _ ih _ child

/-- What is written for a script is one script of a text, even if its text is left out. -/
theorem strewn_script {e : Element} {run : Text} (name : e.name = "script".toList)
    (valid : e.spelled.Valid) (known : held e.spelled) (free : Text.contains "</" run = false)
    (unbroken : '\r' ∉ run) :
    Strewn ok held (e.spelled.markup ++ run ++ "</".toList ++ e.name ++ ['>']) := by
  have closing : "</".toList ++ (e.name ++ ['>']) = scriptEnd := by
    rw [name]
    rfl
  rw [List.append_assoc, List.append_assoc, List.append_assoc, closing, ← scriptEnd.append_nil]
  exact .script valid known free unbroken .nil

theorem strewn_writeTo (h : d.Part ok held part) (depth : Nat) {i : NodeId} (inside : part i) :
    Strewn ok held (d.writeTo depth false false i) := by
  induction depth generalizing i with
  | zero => exact .nil
  | succ depth ih =>
      have inner := Strewn.flatMap fun j child => ih (h.below i inside j child)
      cases shown : d.content? i with
      | none =>
          rw [writeTo, shown]
          exact .nil
      | some c =>
          cases h.writes i inside c shown with
          | document =>
              rw [writeTo, shown]
              exact inner
          | text s =>
              rw [writeTo, shown]
              exact .text (not_mem_escapedText s)
          | comment simple =>
              rw [writeTo, shown]
              simp only [List.append_assoc]
              exact .comment simple
          | @element e space none name hollow valid known =>
              obtain ⟨raw, void, closing⟩ := ordinary_kinds e.name name
              have content : d.contentsOf e i = d.children i := by rw [contentsOf, none]; rfl
              rw [writeTo, shown]
              simp only [content, space, raw, ← e.markup_spelled, Bool.false_or, Bool.false_eq_true,
                if_false]
              cases empty : isVoid ⟨.html, e.name⟩ with
              | true =>
                  rw [hollow (void empty), if_pos rfl, List.flatMap_nil, List.append_nil]
                  exact .opened valid known
              | false =>
                  rw [if_neg Bool.false_ne_true]
                  have whole := Strewn.around valid known inner
                  simpa [SpelledTag.around, tokenMarkup, Element.spelled] using whole
          | @script e text run space none name valid known child body free unbroken =>
              have content : d.contentsOf e i = [text] := by rw [contentsOf, none]; exact child
              rw [writeTo, shown]
              simp only [content, space, name, script_kinds, List.flatMap_singleton, Bool.or_false,
                Bool.false_eq_true, if_false]
              rw [← name, ← e.markup_spelled]
              cases depth with
              | zero => exact strewn_script name valid known rfl List.not_mem_nil
              | succ depth =>
                  rw [writeTo, body]
                  exact strewn_script name valid known free unbroken

end Part
end Dom

/-- What is written for a document is such a text if all below its root is such a part. -/
theorem Document.strewn_write {ok held : SpelledTag → Prop} {d : Document} {part : NodeId → Prop}
    (h : d.dom.Part ok held part) (root : part d.root) : Strewn ok held d.write := by
  unfold write
  split
  · next body found =>
      have listed : body ∈ d.nodes := List.mem_of_find?_eq_some found
      have inside := h.reaches root (Dom.reaches_of_mem_descendantsTo listed)
      exact .flatMap fun i child => h.strewn_writeTo _ (h.below body inside i child)
  · exact h.strewn_writeTo _ root

end LivePage.Html
