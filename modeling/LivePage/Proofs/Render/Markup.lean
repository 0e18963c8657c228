import LivePage.Proofs.Html.Escaping
import LivePage.Proofs.Html.Tokens
import LivePage.Proofs.Render.Values
import Mathlib.Data.List.Chain
import Mathlib.Tactic.SplitIfs

/-!
Tokens written down with the escaping that rendering uses. Reading the markup of tokens gives those
tokens again, so no value and no text can add a tag or an attribute, or change one.
-/

namespace LivePage
open Html

def attributeMarkup (a : Attribute) : Text := attr a.name (escapeAttribute a.value)

/-- A start tag whose attributes are spelled in some way. -/
def tagMarkup (spell : Attribute → Text) (name : Text) (attributes : Attributes) : Text :=
  '<' :: (name ++ (attributes.flatMap spell ++ ['>']))

/-- A tag or a text as rendering writes it; other tokens are not written. -/
def tokenMarkup : Html.Token → Text
  | .openTag tag => tagMarkup attributeMarkup tag.name tag.attributes
  | .closeTag name => '<' :: '/' :: (name ++ ['>'])
  | .text run => escapeText run
  | _ => []

def markup (tokens : List Html.Token) : Text := tokens.flatMap tokenMarkup

def isMarkupChar (c : Char) : Bool := Text.isAsciiLower c || Text.isAsciiDigit c || c = '-'

/-- The names that are written: lower-case letters, digits and hyphens, a letter first. -/
def isMarkupName (name : Text) : Bool := name.head?.any Text.isAsciiLower && name.all isMarkupChar

/-- Tags with names of that kind, no name twice, and texts that are not empty. -/
def Writable : Html.Token → Prop
  | .openTag tag =>
      isMarkupName tag.name ∧ (∀ a ∈ tag.attributes, isMarkupName a.name ∧ a.value.Plain) ∧
        (tag.attributes.map (·.name)).Nodup ∧ tag.selfClosing = false
  | .closeTag name => isMarkupName name
  | .text run => run ≠ [] ∧ run.Plain
  | _ => False

def isText : Html.Token → Bool
  | .text _ => true
  | _ => false

/-- Two texts side by side would be read as one. -/
def Apart (t u : Html.Token) : Prop := isText t = true → isText u = false

theorem toNat_of_markupChar {c : Char} (name : isMarkupChar c = true) :
    c.toNat = 45 ∨ (48 ≤ c.toNat ∧ c.toNat ≤ 57) ∨ (97 ≤ c.toNat ∧ c.toNat ≤ 122) := by
  simp only [isMarkupChar, Text.isAsciiLower, Text.isAsciiDigit, Bool.or_eq_true,
    Bool.and_eq_true, decide_eq_true_eq] at name
  rcases name with (lower | digit) | rfl
  · exact .inr (.inr lower)
  · exact .inr (.inl digit)
  · exact .inl rfl

/-- No character of a name is one that ends a name, or that reading changes. -/
theorem markupChar_ne {c d : Char} (name : isMarkupChar c = true)
    (other : isMarkupChar d = false) : c ≠ d := by
  rintro rfl
  rw [name] at other
  cases other

theorem isBlank_markupChar {c : Char} (name : isMarkupChar c = true) : isBlank c = false := by
  simp (disch := decide) [isBlank, markupChar_ne name]

theorem endsTagName_markupChar {c : Char} (name : isMarkupChar c = true) :
    endsTagName c = false := by
  simp (disch := decide) [endsTagName, isBlank_markupChar name, markupChar_ne name]

theorem lowerAscii_of_name {name : Text} (chars : ∀ c ∈ name, isMarkupChar c = true) :
    Text.lowerAscii name = name := by
  have each : ∀ c ∈ name, Text.lowerAsciiChar c = id c := by
    intro c member
    have range := toNat_of_markupChar (chars c member)
    have upper : Text.isAsciiUpper c = false := by
      by_contra upper
      simp only [Text.isAsciiUpper, Bool.not_eq_false, Bool.and_eq_true, decide_eq_true_eq,
        Char.le_def, UInt32.le_iff_toNat_le] at upper
      obtain ⟨low, high⟩ := upper
      change 65 ≤ c.toNat at low
      change c.toNat ≤ 90 at high
      omega
    simp [Text.lowerAsciiChar, upper]
  rw [Text.lowerAscii, List.map_congr_left each, List.map_id]

theorem replaceNull_of_absent {s : Text} (absent : '\x00' ∉ s) : replaceNull s = s := by
  have each : ∀ c ∈ s, (if c = '\x00' then replacement else c) = id c := by
    intro c member
    have other : c ≠ '\x00' := fun same => absent (same ▸ member)
    simp [other]
  rw [replaceNull, List.map_congr_left each, List.map_id]

theorem replaceNull_of_name {name : Text} (chars : ∀ c ∈ name, isMarkupChar c = true) :
    replaceNull name = name :=
  replaceNull_of_absent fun member => absurd (chars _ member) (by decide)

theorem isMarkupName_cons {name : Text} (valid : isMarkupName name = true) :
    ∃ c more, name = c :: more ∧ Text.isAsciiAlpha c = true ∧ ∀ d ∈ name, isMarkupChar d = true := by
  cases name with
  | nil => cases valid
  | cons c more =>
      simp only [isMarkupName, List.head?_cons, Option.any_some, Bool.and_eq_true,
        List.all_eq_true] at valid
      refine ⟨c, more, rfl, ?_, valid.2⟩
      simp only [Text.isAsciiAlpha, valid.1, Bool.true_or]

theorem not_mem_markupName_return {name : Text} (valid : isMarkupName name = true) :
    '\r' ∉ name := by
  obtain ⟨_, _, _, _, chars⟩ := isMarkupName_cons valid
  exact fun member => absurd (chars _ member) (by decide)

/-- An attribute as it is read. -/
def readBack (a : Attribute) : Attribute := { a with value := replaceNull a.value }

theorem map_readBack_of_plain {attributes : Attributes} (plain : ∀ a ∈ attributes, a.value.Plain) :
    attributes.map readBack = attributes := by
  have each : ∀ a ∈ attributes, readBack a = id a := by
    intro a member
    have absent : '\x00' ∉ a.value := fun null => (plain a member _ null).1 rfl
    rw [readBack, replaceNull_of_absent absent]
    rfl
  rw [List.map_congr_left each, List.map_id]

/-- Escaping that leaves NUL alone and never writes it may come before or after its replacement. -/
theorem replaceNull_flatMap {escape : Char → Text}
    (null : replaceNull (escape '\x00') = escape replacement)
    (absent : ∀ c, c ≠ '\x00' → '\x00' ∉ escape c) (s : Text) :
    replaceNull (s.flatMap escape) = (replaceNull s).flatMap escape := by
  induction s with
  | nil => rfl
  | cons c s ih =>
      have head : replaceNull (escape c) = escape (if c = '\x00' then replacement else c) := by
        by_cases same : c = '\x00'
        · rw [if_pos same, same, null]
        · rw [if_neg same, replaceNull_of_absent (absent c same)]
      rw [List.flatMap_cons, replaceNull, List.map_append]
      exact congrArg₂ (· ++ ·) head ih

theorem replaceNull_escapeAttribute (s : Text) :
    replaceNull (escapeAttribute s) = escapeAttribute (replaceNull s) := by
  refine replaceNull_flatMap (by decide) (fun c other member => ?_) s
  rcases (mem_escapeAttributeChar member).2 with same | mark
  · exact other same.symm
  · exact absurd mark (by decide)

theorem readAttributes_name (found : Attributes) (seen name s : Text)
    (chars : ∀ c ∈ name, isMarkupChar c = true) :
    readAttributes (.inName seen) found (name ++ '=' :: s) =
      readAttributes (.beforeValue (name.reverse ++ seen)) found s := by
  induction name generalizing seen with
  | nil => rfl
  | cons c name ih =>
      have char := chars c List.mem_cons_self
      have more := ih (c :: seen) fun d member => chars d (List.mem_cons_of_mem c member)
      rw [List.cons_append, readAttributes]
      simp (disch := decide) only [isBlank_markupChar char, markupChar_ne char, if_false, more]
      simp

theorem readAttributes_value (found : Attributes) (name seen value s : Text)
    (closed : '\x22' ∉ value) :
    readAttributes (.quoted '\x22' name seen) found (value ++ '\x22' :: s) =
      readAttributes .afterQuoted (addAttribute found name (value.reverse ++ seen)) s := by
  induction value generalizing seen with
  | nil => rfl
  | cons c value ih =>
      rw [List.mem_cons, not_or] at closed
      rw [List.cons_append, readAttributes, if_neg (Ne.symm closed.1), ih (c :: seen) closed.2]
      simp

theorem addAttribute_fresh (found : Attributes) {name : Text} (valid : isMarkupName name = true)
    (fresh : name ∉ found.map (·.name)) (value : Text) :
    addAttribute found name.reverse value.reverse =
      found ++ [⟨name, decodeAttribute (replaceNull value)⟩] := by
  obtain ⟨_, _, _, _, chars⟩ := isMarkupName_cons valid
  have unknown : Attributes.contains found name = false := by
    simp only [Attributes.contains, List.any_eq_false, decide_eq_true_eq]
    intro b member same
    exact fresh (List.mem_map.2 ⟨b, member, same⟩)
  simp only [addAttribute, List.reverse_reverse, lowerAscii_of_name chars,
    replaceNull_of_name chars, unknown]
  rfl

/-- The states in which another attribute or the end of the tag may come. -/
def AtAttribute (state : TagState) : Prop := state = .beforeName ∨ state = .afterQuoted

/-- A value in quotes is read up to the next quote, and what stands between is resolved. -/
theorem readAttributes_attr {state : TagState} (ready : AtAttribute state) (found : Attributes)
    {name value : Text} (valid : isMarkupName name = true) (closed : '\x22' ∉ value)
    (fresh : name ∉ found.map (·.name)) (s : Text) :
    readAttributes state found (attr name value ++ s) =
      readAttributes .afterQuoted
        (found ++ [⟨name, decodeAttribute (replaceNull value)⟩]) s := by
  obtain ⟨c, more, split, _, chars⟩ := isMarkupName_cons valid
  have blank : readAttributes state found (attr name value ++ s) =
      readAttributes .beforeName found (name ++ '=' :: '\x22' :: (value ++ '\x22' :: s)) := by
    rcases ready with rfl | rfl <;> simp [attr, readAttributes, isBlank]
  have first := chars c (split ▸ List.mem_cons_self)
  have others : ∀ d ∈ more, isMarkupChar d = true :=
    fun d member => chars d (split ▸ List.mem_cons_of_mem c member)
  have backwards : more.reverse ++ [c] = name.reverse := by rw [split, List.reverse_cons]
  rw [blank, split, List.cons_append, readAttributes]
  simp (disch := decide) only [isBlank_markupChar first, markupChar_ne first, if_false]
  rw [if_neg (by decide), readAttributes_name found [c] more _ others, readAttributes,
    if_neg (by decide), if_neg (by decide), if_pos (.inl rfl),
    readAttributes_value found _ [] _ s closed, backwards, List.append_nil,
    addAttribute_fresh found valid fresh, split]

theorem isPrefix_addAttribute (found : Attributes) (name value : Text) :
    found <+: addAttribute found name value := by
  unfold addAttribute
  simp only
  split
  · exact List.prefix_rfl
  · exact List.prefix_append _ _

theorem isPrefix_of_readAttributes {state : TagState} {found attributes : Attributes} {closes : Bool}
    {s rest : Text} (read : readAttributes state found s = some (attributes, closes, rest)) :
    found <+: attributes := by
  fun_induction readAttributes state found s <;> first
    | cases read <;> first
        | exact List.prefix_rfl
        | exact isPrefix_addAttribute ..
    | next ih => exact ih read
    | next ih => exact (isPrefix_addAttribute ..).trans (ih read)

theorem get?_of_readAttributes {state : TagState} (ready : AtAttribute state)
    {found attributes : Attributes} {name : Text} (valid : isMarkupName name = true)
    (fresh : name ∉ found.map (·.name)) (value : Text) {closes : Bool} {s rest : Text}
    (read : readAttributes state found (attr name value ++ s) = some (attributes, closes, rest)) :
    attributes.get? name =
      some (decodeAttribute (replaceNull (value.takeWhile (· ≠ '\x22')))) := by
  let first := value.takeWhile (· ≠ '\x22')
  have closed : '\x22' ∉ first := by
    intro member
    have kept := List.all_eq_true.1 List.all_takeWhile _ member
    simp at kept
  -- what stands behind the first quote is no part of the value
  obtain ⟨behind, split⟩ : ∃ behind, attr name value ++ s = attr name first ++ behind := by
    have parts : value = first ++ value.dropWhile (· ≠ '\x22') :=
      List.takeWhile_append_dropWhile.symm
    cases left : value.dropWhile (· ≠ '\x22') with
    | nil =>
        rw [left, List.append_nil] at parts
        exact ⟨s, congrArg (attr name · ++ s) parts⟩
    | cons c more =>
        have quote : c = '\x22' := by
          have stops := List.head?_dropWhile_not (· ≠ '\x22') value
          rw [left] at stops
          simpa using stops
        refine ⟨more ++ '\x22' :: s, ?_⟩
        rw [left, quote] at parts
        conv => lhs; rw [parts]
        simp [attr]
  rw [split, readAttributes_attr ready found valid closed fresh] at read
  obtain ⟨more, rfl⟩ := isPrefix_of_readAttributes read
  have others : found.find? (fun a => a.name = name) = none := by
    rw [List.find?_eq_none]
    intro a member same
    exact fresh (of_decide_eq_true same ▸ List.mem_map_of_mem member)
  rw [Attributes.get?, List.append_assoc, List.find?_append, others, Option.none_or,
    List.singleton_append, List.find?_cons, decide_eq_true rfl]
  rfl

/-- An attribute is spelled so that it is read as it is, wherever it stands. -/
structure ReadsBack (spell : Attribute → Text) (a : Attribute) : Prop where
  blank : ∃ s, spell a = ' ' :: s
  reads : ∀ {state : TagState}, AtAttribute state → ∀ found : Attributes,
    a.name ∉ found.map (·.name) → ∀ s : Text, readAttributes state found (spell a ++ s) =
      readAttributes .afterQuoted (found ++ [readBack a]) s

theorem readsBack_attributeMarkup {a : Attribute} (valid : isMarkupName a.name = true) :
    ReadsBack attributeMarkup a := by
  refine ⟨⟨_, rfl⟩, fun ready found fresh s => ?_⟩
  rw [attributeMarkup, readAttributes_attr ready found valid (not_mem_escapeAttribute_quote a.value)
    fresh, replaceNull_escapeAttribute, decodeAttribute_escapeAttribute]
  rfl

/-- A value that is spelled as it is has to close nothing and resolve to itself. -/
theorem readsBack_attr {spell : Attribute → Text} {a : Attribute}
    (spelled : spell a = attr a.name a.value) (valid : isMarkupName a.name = true)
    (closed : '\x22' ∉ a.value) (null : '\x00' ∉ a.value)
    (resolved : decodeAttribute a.value = a.value) : ReadsBack spell a := by
  refine ⟨⟨_, spelled⟩, fun ready found fresh s => ?_⟩
  rw [spelled, readAttributes_attr ready found valid closed fresh, readBack,
    replaceNull_of_absent null, resolved]

theorem readAttributes_append {spell : Attribute → Text} {state : TagState}
    (ready : AtAttribute state) (found attributes : Attributes)
    (spelled : ∀ a ∈ attributes, ReadsBack spell a)
    (distinct : ((found ++ attributes).map (·.name)).Nodup) (s : Text) :
    ∃ state', AtAttribute state' ∧ readAttributes state found (attributes.flatMap spell ++ s) =
      readAttributes state' (found ++ attributes.map readBack) s := by
  induction attributes generalizing state found with
  | nil => exact ⟨state, ready, by rw [List.map_nil, List.append_nil]; rfl⟩
  | cons a attributes ih =>
      have fresh : a.name ∉ found.map (·.name) := by
        rw [List.map_append, List.map_cons] at distinct
        exact fun member => (List.nodup_append.1 distinct).2.2 _ member _ List.mem_cons_self rfl
      obtain ⟨state', ready', rest⟩ := ih (.inr rfl) (found ++ [readBack a])
        (fun b member => spelled b (List.mem_cons_of_mem a member))
        (by simpa [readBack] using distinct)
      refine ⟨state', ready', ?_⟩
      rw [List.flatMap_cons, List.append_assoc,
        (spelled a List.mem_cons_self).reads ready found fresh, rest, List.append_assoc,
        List.map_cons, List.singleton_append]

theorem readAttributes_spelled {spell : Attribute → Text} {attributes : Attributes}
    (spelled : ∀ a ∈ attributes, ReadsBack spell a)
    (distinct : (attributes.map (·.name)).Nodup) (s : Text) :
    readAttributes .beforeName [] (attributes.flatMap spell ++ '>' :: s) =
      some (attributes.map readBack, false, s) := by
  obtain ⟨state, ready, read⟩ := readAttributes_append (.inl rfl) [] attributes spelled distinct
    ('>' :: s)
  rw [read, List.nil_append]
  rcases ready with rfl | rfl <;> rfl

theorem readTag_name {name : Text} (valid : isMarkupName name = true) {c : Char}
    (ends : endsTagName c = true) (r : Text) :
    readTag (name ++ c :: r) = (readAttributes .beforeName [] (c :: r)).map fun q =>
      (⟨name, q.1, q.2.1⟩, q.2.2) := by
  obtain ⟨_, _, _, _, chars⟩ := isMarkupName_cons valid
  have inside : ∀ c ∈ name, (!endsTagName c) = true :=
    fun c member => by rw [endsTagName_markupChar (chars c member)]; rfl
  have taken : (name ++ c :: r).takeWhile (fun c => !endsTagName c) = name := by
    rw [List.takeWhile_append_of_pos inside, List.takeWhile_cons_of_neg (by simp [ends]),
      List.append_nil]
  have left : (name ++ c :: r).dropWhile (fun c => !endsTagName c) = c :: r := by
    rw [List.dropWhile_append_of_pos inside, List.dropWhile_cons_of_neg (by simp [ends])]
  simp only [readTag, taken, left, lowerAscii_of_name chars, replaceNull_of_name chars]
  cases readAttributes .beforeName [] (c :: r) with
  | none => rfl
  | some q => rfl

theorem begins_attributes {spell : Attribute → Text} {attributes : Attributes}
    (spelled : ∀ a ∈ attributes, ReadsBack spell a) {s : Text}
    (next : ∃ c r, s = c :: r ∧ endsTagName c = true) :
    ∃ c r, attributes.flatMap spell ++ s = c :: r ∧ endsTagName c = true := by
  cases attributes with
  | nil => exact next
  | cons a attributes =>
      obtain ⟨r, blank⟩ := (spelled a List.mem_cons_self).blank
      rw [List.flatMap_cons, blank]
      exact ⟨' ', _, rfl, rfl⟩

theorem readTag_spelled {spell : Attribute → Text} {name : Text} (valid : isMarkupName name = true)
    (attributes : Attributes) (spelled : ∀ a ∈ attributes, ReadsBack spell a)
    (distinct : (attributes.map (·.name)).Nodup) (s : Text) :
    readTag (name ++ (attributes.flatMap spell ++ '>' :: s)) =
      some (⟨name, attributes.map readBack, false⟩, s) := by
  obtain ⟨c, r, rest, ends⟩ := begins_attributes spelled (s := '>' :: s) ⟨'>', s, rfl, rfl⟩
  have read := readAttributes_spelled spelled distinct s
  rw [rest] at read ⊢
  rw [readTag_name valid ends, read]
  rfl

theorem readTag_markup {name : Text} (valid : isMarkupName name = true) (attributes : Attributes)
    (names : ∀ a ∈ attributes, isMarkupName a.name)
    (distinct : (attributes.map (·.name)).Nodup) (s : Text) :
    readTag (name ++ (attributes.flatMap attributeMarkup ++ '>' :: s)) =
      some (⟨name, attributes.map readBack, false⟩, s) :=
  readTag_spelled valid attributes
    (fun a member => readsBack_attributeMarkup (names a member)) distinct s

theorem readMarkup_name {c : Char} (letter : Text.isAsciiAlpha c = true) (foreign : Bool)
    (s : Text) :
    readMarkup foreign (c :: s) =
      match readTag (c :: s) with
      | some (tag, rest) => (some (.openTag tag), rest)
      | none => (none, []) := by
  have other : ∀ d, Text.isAsciiAlpha d = false → c ≠ d := by
    rintro d no rfl
    rw [letter] at no
    cases no
  unfold readMarkup
  split
  · next h => exact absurd (List.cons.inj h).1 (other '!' (by decide))
  · next h => exact absurd (List.cons.inj h).1 (other '?' (by decide))
  · next h => exact absurd (List.cons.inj h).1 (other '/' (by decide))
  · next h => exact absurd (List.cons.inj h).1 (other '/' (by decide))
  · next h => exact absurd (List.cons.inj h).1 (other '/' (by decide))
  · next h =>
      cases h
      exact (if_pos letter).trans rfl
  · next h => cases h

theorem readMarkup_slash {c : Char} (letter : Text.isAsciiAlpha c = true) (foreign : Bool)
    (s : Text) : readMarkup foreign ('/' :: c :: s) = readEndTag (c :: s) := by
  have bracket : c ≠ '>' := by
    rintro rfl
    cases letter
  unfold readMarkup
  split
  · next h => exact absurd (List.cons.inj h).1 (by decide)
  · next h => exact absurd (List.cons.inj h).1 (by decide)
  · next h => exact absurd (List.cons.inj (List.cons.inj h).2).1 bracket
  · next h => cases h
  · next h =>
      cases h
      rw [if_pos letter]
  · next other h =>
      obtain ⟨slash, more⟩ := List.cons.inj h
      exact absurd more.symm (other c s slash.symm)
  · next h => cases h

theorem nextToken_spelled (foreign : Bool) {spell : Attribute → Text} {name : Text}
    (valid : isMarkupName name = true) {attributes : Attributes}
    (spelled : ∀ a ∈ attributes, ReadsBack spell a)
    (distinct : (attributes.map (·.name)).Nodup) (s : Text) :
    nextToken .markup foreign (tagMarkup spell name attributes ++ s) =
      (some (.openTag ⟨name, attributes.map readBack, false⟩), s) := by
  have read := readTag_spelled valid attributes spelled distinct s
  obtain ⟨c, more, rfl, letter, _⟩ := isMarkupName_cons valid
  have written : tagMarkup spell (c :: more) attributes ++ s =
      '<' :: c :: (more ++ (attributes.flatMap spell ++ '>' :: s)) := by
    simp [tagMarkup]
  rw [List.cons_append] at read
  rw [written, nextToken, readMarkup_name letter, read]

/-- In a tag any value is read up to its first quote, whatever follows. -/
theorem get?_of_nextToken (foreign : Bool) {spell : Attribute → Text} {name : Text}
    (valid : isMarkupName name = true) {before : Attributes}
    (spelled : ∀ a ∈ before, ReadsBack spell a) (distinct : (before.map (·.name)).Nodup)
    {key : Text} (known : isMarkupName key = true) (fresh : key ∉ before.map (·.name))
    (value s : Text) {tag : Tag} {rest : Text}
    (read : nextToken .markup foreign
      ('<' :: (name ++ (before.flatMap spell ++ (attr key value ++ s)))) =
        (some (.openTag tag), rest)) :
    tag.attributes.get? key =
      some (decodeAttribute (replaceNull (value.takeWhile (· ≠ '\x22')))) := by
  obtain ⟨c, r, behind, ends⟩ := begins_attributes spelled (s := attr key value ++ s)
    ⟨' ', _, rfl, rfl⟩
  obtain ⟨state, ready, attributes⟩ := readAttributes_append (.inl rfl) [] before spelled distinct
    (attr key value ++ s)
  have named := readTag_name valid ends r
  rw [behind, List.nil_append] at attributes
  rw [attributes] at named
  obtain ⟨d, more, split, letter, _⟩ := isMarkupName_cons valid
  rw [behind, split, List.cons_append, nextToken, readMarkup_name letter, ← List.cons_append,
    ← split, named] at read
  cases found : readAttributes state (before.map readBack) (attr key value ++ s) with
  | none =>
      rw [found] at read
      cases read
  | some q =>
      obtain ⟨attributes, closes, left⟩ := q
      rw [found] at read
      cases read
      refine get?_of_readAttributes ready known ?_ value found
      rw [List.map_map]
      exact fresh

theorem nextToken_tag (foreign : Bool) {name : Text} (valid : isMarkupName name = true)
    {attributes : Attributes} (names : ∀ a ∈ attributes, isMarkupName a.name)
    (distinct : (attributes.map (·.name)).Nodup) (s : Text) :
    nextToken .markup foreign (tokenMarkup (.openTag ⟨name, attributes, false⟩) ++ s) =
      (some (.openTag ⟨name, attributes.map readBack, false⟩), s) :=
  nextToken_spelled foreign valid
    (fun a member => readsBack_attributeMarkup (names a member)) distinct s

theorem nextToken_openTag (foreign : Bool) (tag : Tag) (writable : Writable (.openTag tag))
    (s : Text) :
    nextToken .markup foreign (tokenMarkup (.openTag tag) ++ s) = (some (.openTag tag), s) := by
  obtain ⟨name, attributes, selfClosing⟩ := tag
  obtain ⟨valid, writable, distinct, closes⟩ := writable
  cases closes
  have read := nextToken_tag foreign valid (fun a member => (writable a member).1) distinct s
  rwa [map_readBack_of_plain fun a member => (writable a member).2] at read

theorem nextToken_closeTag (foreign : Bool) {name : Text} (valid : isMarkupName name = true)
    (s : Text) :
    nextToken .markup foreign (tokenMarkup (.closeTag name) ++ s) = (some (.closeTag name), s) := by
  have read := readTag_markup valid [] (by simp) List.nodup_nil s
  obtain ⟨c, more, rfl, letter, _⟩ := isMarkupName_cons valid
  have written : tokenMarkup (.closeTag (c :: more)) ++ s = '<' :: '/' :: c :: (more ++ '>' :: s) := by
    simp [tokenMarkup]
  rw [List.flatMap_nil, List.nil_append, List.cons_append] at read
  rw [written, nextToken, readMarkup_slash letter, readEndTag, read]

theorem escapeText_ne_nil {s : Text} (present : s ≠ []) : escapeText s ≠ [] := by
  cases s with
  | nil => exact absurd rfl present
  | cons c s =>
      rw [escapeText, List.flatMap_cons]
      simp only [escapeTextChar]
      split_ifs <;> simp

/-- Where text ends: at a bracket, at a NUL, or at the end. -/
def EndsText (s : Text) : Prop := s = [] ∨ ∃ c r, s = c :: r ∧ isTextCharacter c = false

theorem nextToken_text (foreign : Bool) {run : Text} (present : run ≠ []) (null : '\x00' ∉ run)
    {s : Text} (ends : EndsText s) :
    nextToken .markup foreign (escapeText run ++ s) = (some (.text run), s) := by
  have inside : ∀ c ∈ escapeText run, isTextCharacter c = true := by
    intro c member
    have lt : c ≠ '<' := fun same => not_mem_escapeText_bracket run (same ▸ member)
    have other : c ≠ '\x00' := by
      rintro rfl
      exact not_mem_escapeText null (by decide) member
    simp [isTextCharacter, lt, other]
  have taken : (escapeText run ++ s).takeWhile isTextCharacter = escapeText run := by
    rw [List.takeWhile_append_of_pos inside]
    rcases ends with rfl | ⟨c, r, rfl, ends⟩
    · simp
    · rw [List.takeWhile_cons_of_neg (Bool.eq_false_iff.1 ends), List.append_nil]
  have left : (escapeText run ++ s).dropWhile isTextCharacter = s := by
    rw [List.dropWhile_append_of_pos inside]
    rcases ends with rfl | ⟨c, r, rfl, ends⟩
    · rfl
    · rw [List.dropWhile_cons_of_neg (Bool.eq_false_iff.1 ends)]
  have lead : ∀ r, escapeText run ++ s ≠ '<' :: r ∧ escapeText run ++ s ≠ '\x00' :: r := by
    cases written : escapeText run with
    | nil => exact absurd written (escapeText_ne_nil present)
    | cons c more =>
        have text := inside c (written ▸ List.mem_cons_self)
        intro r
        constructor <;> rintro ⟨⟩ <;> cases text
  unfold nextToken
  split
  · next h => exact absurd h (lead _).1
  · next h => exact absurd h (lead _).2
  · rw [taken, left, decodeText_escapeText]
  all_goals contradiction

theorem tokensOf_markup {tokens : List Html.Token} (writable : ∀ t ∈ tokens, Writable t)
    (apart : tokens.IsChain Apart) : tokensOf (markup tokens) = tokens := by
  induction tokens with
  | nil => exact tokensOf_nil
  | cons t tokens ih =>
      have first := writable t List.mem_cons_self
      have rest := ih (fun u member => writable u (List.mem_cons_of_mem t member)) apart.tail
      have split : markup (t :: tokens) = tokenMarkup t ++ markup tokens := List.flatMap_cons
      rw [split]
      cases t with
      | openTag tag =>
          rw [tokensOf_of_nextToken (by simp [tokenMarkup, tagMarkup]) (nextToken_openTag false tag first _), rest]
      | closeTag name =>
          rw [tokensOf_of_nextToken (by simp [tokenMarkup]) (nextToken_closeTag false first _), rest]
      | text run =>
          -- what follows a text begins with a bracket
          have ends : EndsText (markup tokens) := by
            cases tokens with
            | nil => exact .inl rfl
            | cons u tokens =>
                have other : isText u = false := (List.isChain_cons_cons.1 apart).1 rfl
                have shown := writable u (by simp)
                cases u with
                | openTag tag => exact .inr ⟨'<', _, rfl, rfl⟩
                | closeTag name => exact .inr ⟨'<', _, rfl, rfl⟩
                | text run => cases other
                | null | comment _ | doctype _ | ending => exact shown.elim
          have present : escapeText run ++ markup tokens ≠ [] := by
            simp [escapeText_ne_nil first.1]
          have null : '\x00' ∉ run := fun member => (first.2 _ member).1 rfl
          rw [tokenMarkup, tokensOf_of_nextToken present (nextToken_text false first.1 null ends),
            rest]
      | null | comment _ | doctype _ | ending => exact first.elim

theorem not_mem_tokenMarkup_return {t : Html.Token} (writable : Writable t) :
    '\r' ∉ tokenMarkup t := by
  cases t with
  | openTag tag =>
      obtain ⟨valid, attributes, _, _⟩ := writable
      have each : '\r' ∉ tag.attributes.flatMap attributeMarkup := by
        intro member
        obtain ⟨a, listed, member⟩ := List.mem_flatMap.1 member
        obtain ⟨name, plain⟩ := attributes a listed
        have value : '\r' ∉ escapeAttribute a.value :=
          not_mem_escapeAttribute (fun member => (plain _ member).2 rfl) (by decide)
        simp [attributeMarkup, attr, not_mem_markupName_return name, value] at member
      simp [tokenMarkup, tagMarkup, not_mem_markupName_return valid, each]
  | closeTag name => simp [tokenMarkup, not_mem_markupName_return writable]
  | text run =>
      exact not_mem_escapeText (fun member => (writable.2 _ member).2 rfl) (by decide)
  | null | comment _ | doctype _ | ending => exact writable.elim

theorem tokenize_markup {tag : Tag} {tokens : List Html.Token}
    (writable : ∀ t ∈ .openTag tag :: tokens, Writable t)
    (apart : (.openTag tag :: tokens).IsChain Apart) :
    tokenize (markup (.openTag tag :: tokens)) = .openTag tag :: tokens := by
  have breaks : '\r' ∉ markup (.openTag tag :: tokens) := by
    intro member
    obtain ⟨t, listed, member⟩ := List.mem_flatMap.1 member
    exact not_mem_tokenMarkup_return (writable t listed) member
  rw [tokenize, lexedText_of_plain (by simp [markup, tokenMarkup, tagMarkup]) breaks,
    tokensOf_markup writable apart]

end LivePage
