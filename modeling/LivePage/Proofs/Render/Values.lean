import LivePage.Render.Image

/-!
Texts that HTML reads as they stand once they are escaped. What the rules take from a token is a part
of one of its texts, so it is such a text if those are.
-/

namespace LivePage

/-- Without the characters that HTML replaces before it reads a text: NUL and the carriage return. -/
def Text.Plain (s : Text) : Prop := ∀ c ∈ s, c ≠ '\x00' ∧ c ≠ '\r'

instance (s : Text) : Decidable s.Plain :=
  List.decidableBAll (fun c => c ≠ '\x00' ∧ c ≠ '\r') s

theorem Text.Plain.of_sublist {s t : Text} (plain : t.Plain) (part : s.Sublist t) : s.Plain :=
  fun c member => plain c (part.subset member)

theorem Text.Plain.append {s t : Text} (first : s.Plain) (second : t.Plain) : (s ++ t).Plain := by
  intro c member
  rcases List.mem_append.1 member with member | member
  · exact first c member
  · exact second c member

theorem trim_sublist (p : Char → Bool) (s : Text) : (Text.trim p s).Sublist s := by
  have tail (t : Text) : (Text.trimEnd p t).Sublist t := by
    have dropped := (List.dropWhile_sublist p (l := t.reverse)).reverse
    rwa [List.reverse_reverse] at dropped
  exact (tail _).trans (List.dropWhile_sublist p)

theorem firstWord_sublist (p : Char → Bool) (s : Text) : (Text.firstWord p s).Sublist s :=
  (List.takeWhile_sublist _).trans (List.dropWhile_sublist p)

theorem isDigit_ofNat {n : Nat} {c : Char} (member : c ∈ Text.ofNat n) : c.isDigit = true :=
  Nat.isDigit_of_mem_toDigits (by decide) (by decide) member

theorem plain_ofNat (n : Nat) : (Text.ofNat n).Plain := by
  intro c member
  have digit := isDigit_ofNat member
  constructor
  · rintro rfl
    cases digit
  · rintro rfl
    cases digit

theorem plain_blockId {lead : Option Text} (plain : ∀ s ∈ lead, s.Plain) (index : Nat) :
    (blockId lead index).Plain := by
  unfold blockId
  split
  · exact .append (by decide) (plain_ofNat index)
  · exact .append (by decide) (plain_ofNat index)
  · next s _ => exact .append (.append (plain s rfl) (by decide)) (plain_ofNat index)

theorem plain_sanitizeUrl {url : Text} (plain : url.Plain) : (sanitizeUrl url).Plain := by
  unfold sanitizeUrl
  split
  · decide
  · exact plain

theorem splitClosing?_sublist {opener closer : Char} {depth : Nat} {escaped : Bool}
    {s inner rest : Text} (found : splitClosing? opener closer depth escaped s = some (inner, rest)) :
    inner.Sublist s ∧ rest.Sublist s := by
  induction s generalizing depth escaped inner with
  | nil => cases escaped <;> cases found
  | cons c s ih =>
      have step {depth : Nat} {escaped : Bool}
          (more : (splitClosing? opener closer depth escaped s).map (fun r => (c :: r.1, r.2)) =
            some (inner, rest)) : inner.Sublist (c :: s) ∧ rest.Sublist (c :: s) := by
        obtain ⟨⟨inner', rest'⟩, closed, same⟩ := Option.map_eq_some_iff.1 more
        cases same
        exact ⟨(ih closed).1.cons_cons c, (ih closed).2.cons c⟩
      cases escaped with
      | true => exact step found
      | false =>
          rw [splitClosing?] at found
          split at found
          · cases found
            exact ⟨List.nil_sublist _, List.sublist_cons_self c _⟩
          · exact step found

theorem splitLabel?_sublist {content inner rest : Text}
    (found : splitLabel? content = some (inner, rest)) :
    inner.Sublist content ∧ rest.Sublist content := by
  have tail : (content.dropWhile fun c => c ≠ '[').Sublist content := List.dropWhile_sublist _
  unfold splitLabel? at found
  split at found
  · cases found
  · next c s shown =>
      rw [shown] at tail
      have parts := splitClosing?_sublist found
      have behind := (List.sublist_cons_self c s).trans tail
      exact ⟨parts.1.trans behind, parts.2.trans behind⟩

theorem destinationOf_sublist (inner : Text) : (destinationOf inner).Sublist inner := by
  have trimmed : (Text.trimBlank inner).Sublist inner := trim_sublist Text.isBlank inner
  unfold destinationOf
  simp only
  split
  · next s shown =>
      rw [shown] at trimmed
      exact (List.takeWhile_sublist _).trans ((List.sublist_cons_self '<' s).trans trimmed)
  · exact (firstWord_sublist _ _).trans trimmed

theorem imageUrl?_sublist {content url : Text} (found : imageUrl? content = some url) :
    url.Sublist content := by
  unfold imageUrl? at found
  split at found
  · next label s shown =>
      obtain ⟨⟨inner, rest⟩, closed, rfl⟩ := Option.map_eq_some_iff.1 found
      have behind := (List.sublist_cons_self '(' s).trans (splitLabel?_sublist shown).2
      exact (destinationOf_sublist inner).trans ((splitClosing?_sublist closed).1.trans behind)
  · cases found

/-- Tokens of images whose texts can all be written. -/
structure ImageToken.Plain (image : ImageToken) : Prop where
  content : image.content.Plain
  attrs : ∀ a ∈ image.attrs, a.2.Plain

theorem plain_attr? {image : ImageToken} (plain : image.Plain) (name : Text) :
    ((image.attr? name).getD []).Plain := by
  unfold ImageToken.attr?
  cases found : image.attrs.lookup name with
  | none => simp [Text.Plain]
  | some value =>
      obtain ⟨before, behind, split, _⟩ := List.lookup_eq_some_iff.1 found
      exact plain.attrs (name, value) (by simp [split])

theorem plain_resolveAlt {image : ImageToken} (plain : image.Plain) : (resolveAlt image).Plain := by
  unfold resolveAlt
  split
  · next alt shown =>
      obtain ⟨⟨inner, rest⟩, found, rfl⟩ := Option.map_eq_some_iff.1 shown
      exact plain.content.of_sublist (splitLabel?_sublist found).1
  · exact plain_attr? plain "alt"

theorem plain_resolveSource {image : ImageToken} (plain : image.Plain) :
    (resolveSource image).Plain := by
  unfold resolveSource
  simp only
  split
  · next url shown =>
      split at shown
      · exact plain.content.of_sublist (imageUrl?_sublist (Option.filter_eq_some_iff.1 shown).1)
      · cases shown
  · exact plain_attr? plain "src"

end LivePage
