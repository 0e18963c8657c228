import LivePage.Proofs.Html.Pieces

/-!
Line breaks are brought to one form before a document is read. Escaping leaves them as they are, so
that comes to bringing them to that form in each text and each value that was written.
-/

namespace LivePage.Html

/-- Escaping that writes references for some characters, but not for line breaks. -/
def WritesReferences (escape : Char → Text) : Prop :=
  ∀ c, escape c = [c] ∨ c ≠ '\r' ∧ c ≠ '\n' ∧ ∃ s, escape c = '&' :: s ∧ '\r' ∉ s

theorem writesReferences_text : WritesReferences LivePage.escapeTextChar := by
  intro c
  by_cases amp : c = '&'
  · subst amp
    exact .inr ⟨by decide, by decide, "amp;", rfl, by decide⟩
  by_cases lt : c = '<'
  · subst lt
    exact .inr ⟨by decide, by decide, "lt;", rfl, by decide⟩
  by_cases gt : c = '>'
  · subst gt
    exact .inr ⟨by decide, by decide, "gt;", rfl, by decide⟩
  exact .inl (escapeTextChar_plain amp lt gt)

theorem writesReferences_attribute : WritesReferences escapeAttributeChar := by
  intro c
  by_cases quote : c = '\x22'
  · subst quote
    exact .inr ⟨by decide, by decide, "quot;", rfl, by decide⟩
  by_cases apostrophe : c = '\x27'
  · subst apostrophe
    exact .inr ⟨by decide, by decide, "#39;", rfl, by decide⟩
  simp only [escapeAttributeChar, quote, apostrophe, if_false]
  exact writesReferences_text c

section Escape

variable {escape : Char → Text} (references : WritesReferences escape)
include references

/-- What is written for a text begins with a line feed only where the text does. -/
theorem head?_flatMap_escape {s t : Text} (first : s.head? ≠ some '\n')
    (next : t.head? ≠ some '\n') : (s.flatMap escape ++ t).head? ≠ some '\n' := by
  cases s with
  | nil => exact next
  | cons c s =>
      rcases references c with kept | ⟨_, _, r, written, _⟩
      · rw [List.flatMap_cons, kept]
        exact first
      · rw [List.flatMap_cons, written]
        exact fun same => absurd (Option.some.inj same) (by decide)

/-- Line breaks that are written are those of the text, wherever no line feed follows it. -/
theorem unifyBreaks_flatMap_escape (s : Text) {t : Text} (next : t.head? ≠ some '\n') :
    unifyBreaks (s.flatMap escape ++ t) = (unifyBreaks s).flatMap escape ++ unifyBreaks t := by
  have feed : escape '\n' = ['\n'] := (references '\n').resolve_right fun other => other.2.1 rfl
  have back : escape '\r' = ['\r'] := (references '\r').resolve_right fun other => other.1 rfl
  induction s using unifyBreaks.induct with
  | case1 => rfl
  | case2 s ih =>
      have both : (('\r' :: '\n' :: s).flatMap escape ++ t) =
          '\r' :: '\n' :: (s.flatMap escape ++ t) := by
        rw [List.flatMap_cons, List.flatMap_cons, feed, back]
        rfl
      rw [both, unifyBreaks, unifyBreaks, List.flatMap_cons, feed, ih]
      rfl
  | case3 s alone ih =>
      have first : s.head? ≠ some '\n' := by
        intro same
        cases s with
        | nil => cases same
        | cons c s => exact alone s (congrArg (· :: s) (Option.some.inj same))
      have one : (('\r' :: s).flatMap escape ++ t) = '\r' :: (s.flatMap escape ++ t) := by
        rw [List.flatMap_cons, back]
        rfl
      rw [one, unifyBreaks_return (head?_flatMap_escape references first next),
        unifyBreaks_return first, List.flatMap_cons, feed, ih]
      rfl
  | case4 c s _ other ih =>
      have absent : '\r' ∉ escape c := by
        rcases references c with kept | ⟨_, _, r, written, clean⟩
        · rw [kept, List.mem_singleton]
          exact Ne.symm other
        · rw [written, List.mem_cons, not_or]
          exact ⟨by decide, clean⟩
      rw [List.flatMap_cons, List.append_assoc, unifyBreaks_append absent, ih,
        unifyBreaks_cons other, List.flatMap_cons, List.append_assoc]

end Escape

def unifyValue (a : Attribute) : Attribute := { a with value := unifyBreaks a.value }

/-- Line breaks of an attribute are those of what is written for its value. -/
theorem unifyBreaks_attr {name : Text} (valid : isMarkupName name) (value t : Text) :
    unifyBreaks (attr name value ++ t) = attr name (unifyBreaks value) ++ unifyBreaks t := by
  have lead : '\r' ∉ ' ' :: name ++ "=\"".toList := by simp [not_mem_markupName_return valid]
  have split (value s : Text) : attr name value ++ s =
      (' ' :: name ++ "=\"".toList) ++ (value ++ '\x22' :: s) := by simp [attr]
  have quote : ('\x22' :: t).head? ≠ some '\n' := fun same =>
    absurd (Option.some.inj same) (by decide)
  have plain : WritesReferences fun c => [c] := fun _ => .inl rfl
  have kept := unifyBreaks_flatMap_escape plain value quote
  rw [List.flatMap_singleton', List.flatMap_singleton'] at kept
  rw [split, unifyBreaks_append lead, kept, unifyBreaks_cons (by decide), split]

theorem unifyBreaks_attribute {a : Attribute} (valid : isMarkupName a.name) (t : Text) :
    unifyBreaks (attributeMarkup a ++ t) = attributeMarkup (unifyValue a) ++ unifyBreaks t := by
  have none : ([] : Text).head? ≠ some '\n' := nofun
  have escaped := unifyBreaks_flatMap_escape writesReferences_attribute a.value none
  rw [unifyBreaks, List.append_nil, List.append_nil] at escaped
  rw [attributeMarkup, unifyBreaks_attr valid, escapeAttribute, escaped]
  rfl

/-- A spelling under which the line breaks of an attribute are those of its value. -/
def Unifies (spell : Attribute → Text) (a : Attribute) : Prop :=
  ∀ t : Text, unifyBreaks (spell a ++ t) = spell (unifyValue a) ++ unifyBreaks t

theorem unifyBreaks_attributes {spell : Attribute → Text} {attributes : Attributes}
    (unifies : ∀ a ∈ attributes, Unifies spell a) (t : Text) :
    unifyBreaks (attributes.flatMap spell ++ t) =
      (attributes.map unifyValue).flatMap spell ++ unifyBreaks t := by
  induction attributes with
  | nil => rfl
  | cons a attributes ih =>
      have rest := ih fun b member => unifies b (List.mem_cons_of_mem a member)
      rw [List.flatMap_cons, List.append_assoc, unifies a List.mem_cons_self, rest, List.map_cons,
        List.flatMap_cons, List.append_assoc]

theorem unifyBreaks_openTag {spell : Attribute → Text} {name : Text}
    (valid : isMarkupName name = true) {attributes : Attributes}
    (unifies : ∀ a ∈ attributes, Unifies spell a) (t : Text) :
    unifyBreaks (tagMarkup spell name attributes ++ t) =
      tagMarkup spell name (attributes.map unifyValue) ++ unifyBreaks t := by
  have split (attributes : Attributes) (s : Text) : tagMarkup spell name attributes ++ s =
      ('<' :: name) ++ (attributes.flatMap spell ++ '>' :: s) := by simp [tagMarkup]
  have lead : '\r' ∉ '<' :: name := by simp [not_mem_markupName_return valid]
  rw [split, unifyBreaks_append lead, unifyBreaks_attributes unifies, unifyBreaks_cons (by decide),
    split]

theorem unifyBreaks_closeTag {name : Text} (valid : isMarkupName name = true) (t : Text) :
    unifyBreaks (tokenMarkup (.closeTag name) ++ t) =
      tokenMarkup (.closeTag name) ++ unifyBreaks t := by
  refine unifyBreaks_append ?_ t
  simp [tokenMarkup, not_mem_markupName_return valid]

/-- Tags with names that are written, whatever their values are. -/
def IsTag : Token → Prop
  | .openTag tag =>
      isMarkupName tag.name ∧ Piece.Named tag.attributes ∧ tag.selfClosing = false
  | .closeTag name => isMarkupName name
  | _ => False

/-- What a value is read as. -/
def readValue (s : Text) : Text := replaceNull (unifyBreaks s)

/-- Escaping that reading undoes leaves a value as it is but for line breaks and NUL. -/
theorem decodeAttribute_flatMap {escape : Char → Text} (references : WritesReferences escape)
    (replaced : ∀ s : Text, replaceNull (s.flatMap escape) = (replaceNull s).flatMap escape)
    (undone : ∀ c s, decodeFrom true 0 (escape c ++ s) = c :: decodeFrom true 0 s) (s : Text) :
    decodeAttribute (replaceNull (unifyBreaks (s.flatMap escape))) = readValue s := by
  have unified := unifyBreaks_flatMap_escape references s (t := []) nofun
  rw [List.append_nil, unifyBreaks, List.append_nil] at unified
  rw [unified, replaced, readValue]
  exact decodeFrom_flatMap true escape undone _

def readToken : Token → Token
  | .openTag tag =>
      .openTag { tag with
        attributes := tag.attributes.map fun a => { a with value := readValue a.value } }
  | t => t

theorem tokensOf_tags {tokens : List Token} (tags : ∀ t ∈ tokens, IsTag t) :
    tokensOf (unifyBreaks (LivePage.markup tokens)) = tokens.map readToken := by
  induction tokens with
  | nil => exact tokensOf_nil
  | cons t tokens ih =>
      have rest := ih fun u member => tags u (List.mem_cons_of_mem t member)
      have first := tags t List.mem_cons_self
      have split : LivePage.markup (t :: tokens) = tokenMarkup t ++ LivePage.markup tokens :=
        List.flatMap_cons
      rw [split]
      cases t with
      | openTag tag =>
          obtain ⟨name, attributes, selfClosing⟩ := tag
          obtain ⟨valid, names, closes⟩ := first
          cases closes
          have unifies : ∀ a ∈ attributes, Unifies attributeMarkup a :=
            fun a member => unifyBreaks_attribute (names.1 a member)
          have unified : ∀ a ∈ attributes.map unifyValue, isMarkupName a.name = true :=
            List.forall_mem_map.2 names.1
          have distinct : ((attributes.map unifyValue).map (·.name)).Nodup := by
            rw [List.map_map]
            exact names.2
          have read := nextToken_tag false valid unified distinct
            (unifyBreaks (LivePage.markup tokens))
          rw [tokenMarkup] at read
          rw [tokenMarkup, unifyBreaks_openTag valid unifies,
            tokensOf_of_nextToken (by simp [tagMarkup]) read, rest, List.map_map]
          rfl
      | closeTag name =>
          have read := nextToken_closeTag false first (unifyBreaks (LivePage.markup tokens))
          rw [unifyBreaks_closeTag first, tokensOf_of_nextToken (by simp [tokenMarkup]) read, rest]
          rfl
      | text _ | null | comment _ | doctype _ | ending => exact first.elim

/-- Tags side by side are read one by one, with one form of line breaks in their values. -/
theorem tokenize_tags {tokens : List Token} (tags : ∀ t ∈ tokens, IsTag t) :
    tokenize (LivePage.markup tokens) = tokens.map readToken := by
  have lexed : lexedText (LivePage.markup tokens) = unifyBreaks (LivePage.markup tokens) := by
    cases tokens with
    | nil => rfl
    | cons t tokens =>
        have first := tags t List.mem_cons_self
        cases t with
        | openTag _ | closeTag _ => rfl
        | text _ | null | comment _ | doctype _ | ending => exact first.elim
  rw [tokenize, lexed, tokensOf_tags tags]

namespace Piece

mutual

def unified : Piece → Piece
  | text s => text (unifyBreaks s)
  | phrase name attributes s => phrase name (attributes.map unifyValue) (unifyBreaks s)
  | block name attributes inner => block name (attributes.map unifyValue) (unifiedAll inner)

def unifiedAll : List Piece → List Piece
  | [] => []
  | p :: rest => p.unified :: unifiedAll rest

end

theorem unifiedAll_append (ps qs : List Piece) :
    unifiedAll (ps ++ qs) = unifiedAll ps ++ unifiedAll qs := by
  induction ps with
  | nil => rfl
  | cons p ps ih => rw [List.cons_append, unifiedAll, unifiedAll, ih, List.cons_append]

theorem isText_unified (p : Piece) : p.unified.isText = p.isText := by
  cases p <;> rw [unified] <;> rfl

theorem head?_unifiedAll (ps : List Piece) :
    (unifiedAll ps).head?.any isText = ps.head?.any isText := by
  cases ps with
  | nil => rfl
  | cons p ps => exact isText_unified p

theorem Named.unified {attributes : Attributes} (names : Named attributes) :
    Named (attributes.map unifyValue) := by
  refine ⟨?_, by rw [List.map_map]; exact names.2⟩
  intro a member
  obtain ⟨b, listed, rfl⟩ := List.mem_map.1 member
  exact names.1 b listed

mutual

theorem fits_unified : ∀ p : Piece, p.Fits → p.unified.Fits
  | .text _, _ => trivial
  | .phrase _ _ _, fits => ⟨fits.1, fits.2.unified⟩
  | .block _ _ inner, ⟨known, names, fits, pre⟩ =>
      ⟨known, names.unified, fitsAll_unifiedAll inner fits, fun same =>
        (head?_unifiedAll inner).trans (pre same)⟩

theorem fitsAll_unifiedAll : ∀ ps : List Piece, FitsAll ps → FitsAll (unifiedAll ps)
  | [], _ => trivial
  | p :: ps, ⟨first, others, spaced⟩ =>
      ⟨fits_unified p first, fitsAll_unifiedAll ps others, fun text =>
        (head?_unifiedAll ps).trans (spaced (isText_unified p ▸ text))⟩

end

mutual

theorem each_unified {P : Attribute → Prop} :
    ∀ p : Piece, p.Each (fun a => P (unifyValue a)) → p.unified.Each P
  | .text _, _ => trivial
  | .phrase _ _ _, each => List.forall_mem_map.2 each
  | .block _ _ inner, each => ⟨List.forall_mem_map.2 each.1, eachAll_unifiedAll inner each.2⟩

theorem eachAll_unifiedAll {P : Attribute → Prop} :
    ∀ ps : List Piece, EachAll (fun a => P (unifyValue a)) ps → EachAll P (unifiedAll ps)
  | [], _ => trivial
  | p :: ps, each => ⟨each_unified p each.1, eachAll_unifiedAll ps each.2⟩

end

theorem head?_of_endsText {s : Text} (ends : EndsText s) : s.head? ≠ some '\n' := by
  rintro same
  rcases ends with rfl | ⟨c, r, rfl, stops⟩
  · cases same
  · cases same
    cases stops

mutual

theorem unifyBreaks_markup {spell : Attribute → Text} : ∀ (p : Piece) (rest : Text), p.Fits →
    p.Each (Unifies spell) → (p.isText = true → EndsText rest) →
    unifyBreaks (p.markupBy spell ++ rest) = p.unified.markupBy spell ++ unifyBreaks rest
  | .text s, rest, _, _, ends =>
      unifyBreaks_flatMap_escape writesReferences_text s (head?_of_endsText (ends rfl))
  | .phrase name attributes s, rest, ⟨known, names⟩, unifies, _ => by
      have valid := (isMarkupName_of_phrase known).1
      have next : (tokenMarkup (.closeTag name) ++ rest).head? ≠ some '\n' :=
        head?_of_endsText (endsText_tokenMarkup_closeTag name rest)
      rw [markupBy, List.append_assoc, List.append_assoc, unifyBreaks_openTag valid unifies,
        escapeText, unifyBreaks_flatMap_escape writesReferences_text s next,
        unifyBreaks_closeTag valid, unified, markupBy, List.append_assoc, List.append_assoc]
      rfl
  | .block name attributes inner, rest, ⟨known, names, fits, _⟩, unifies, _ => by
      have valid := (isMarkupName_of_block known).1
      rw [markupBy, List.append_assoc, List.append_assoc, unifyBreaks_openTag valid unifies.1,
        unifyBreaks_markupAll inner _ fits unifies.2 (endsText_tokenMarkup_closeTag name rest),
        unifyBreaks_closeTag valid, unified, markupBy, List.append_assoc, List.append_assoc]

theorem unifyBreaks_markupAll {spell : Attribute → Text} : ∀ (ps : List Piece) (rest : Text),
    FitsAll ps → EachAll (Unifies spell) ps → EndsText rest →
    unifyBreaks (markupAllBy spell ps ++ rest) =
      markupAllBy spell (unifiedAll ps) ++ unifyBreaks rest
  | [], _, _, _, _ => rfl
  | p :: ps, rest, ⟨first, others, spaced⟩, unifies, ends => by
      have one := unifyBreaks_markup p (markupAllBy spell ps ++ rest) first unifies.1 fun text =>
        endsText_markupAllBy spell (spaced text) ends
      rw [markupAllBy, List.append_assoc, one, unifyBreaks_markupAll ps rest others unifies.2 ends,
        unifiedAll, markupAllBy, List.append_assoc]

end

end Piece
end LivePage.Html
