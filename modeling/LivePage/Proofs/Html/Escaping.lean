import LivePage.Html.Reference
import LivePage.Render.Escaper

/-!
Escaped text is read back as it was. Each character that escaping writes as a reference is one that
reading resolves to that character again, with the reference's length known exactly, so reading goes
on right behind it whatever follows there.
-/

namespace LivePage
open Html

/-- What holds of all characters of a text is decided by going through the text, and not through all
characters there are. -/
instance (priority := high) decidableForallChar (s : List Char) (p : Char → Prop) [DecidablePred p] :
    Decidable (∀ c ∈ s, p c) := List.decidableBAll p s

theorem decodeFrom_skip (inAttribute : Bool) (skipped s : Text) :
    decodeFrom inAttribute skipped.length (skipped ++ s) = decodeFrom inAttribute 0 s := by
  induction skipped with
  | nil => rfl
  | cons c skipped ih => exact ih

theorem decodeFrom_plain (inAttribute : Bool) {c : Char} (plain : c ≠ '&') (s : Text) :
    decodeFrom inAttribute 0 (c :: s) = c :: decodeFrom inAttribute 0 s := by
  simp only [decodeFrom, plain, if_false]

theorem decodeFrom_reference (inAttribute : Bool) (name characters s : Text)
    (known : reference? inAttribute (name ++ s) = some (characters, name.length)) :
    decodeFrom inAttribute 0 ('&' :: (name ++ s)) = characters ++ decodeFrom inAttribute 0 s := by
  simp only [decodeFrom, if_true, known, decodeFrom_skip]

theorem reference?_letter (inAttribute : Bool) {c : Char} (letter : c ≠ '#') (s : Text) :
    reference? inAttribute (c :: s) = Html.namedReference? inAttribute (c :: s) := by
  unfold reference?
  split
  · next h => exact absurd (List.cons.inj h).1 letter
  · next h => exact absurd (List.cons.inj h).1 letter
  · next h => exact absurd (List.cons.inj h).1 letter
  · rfl

theorem reference?_named (inAttribute : Bool) {name : Text} {r : Text.NamedReference}
    (letters : ∀ c ∈ name, Text.isAsciiAlnum c) (short : name.length ≤ Text.longestReference)
    (known : Text.namedReference? name = some r) (s : Text) :
    reference? inAttribute (name ++ ';' :: s) = some (r.characters, name.length + 1) := by
  have word : (name ++ ';' :: s).takeWhile Text.isAsciiAlnum = name := by
    rw [List.takeWhile_append_of_pos letters, List.takeWhile_cons_of_neg (by decide),
      List.append_nil]
  have rest : (name ++ ';' :: s).dropWhile Text.isAsciiAlnum = ';' :: s := by
    rw [List.dropWhile_append_of_pos letters, List.dropWhile_cons_of_neg (by decide)]
  have named : reference? inAttribute (name ++ ';' :: s) =
      Html.namedReference? inAttribute (name ++ ';' :: s) := by
    cases name with
    | nil => exact reference?_letter inAttribute (by decide) s
    | cons c name =>
        refine reference?_letter inAttribute ?_ _
        rintro rfl
        exact absurd (letters '#' List.mem_cons_self) (by decide)
  rw [named]
  simp only [Html.namedReference?, word, rest, semicolonLength, short, and_self, if_true, known]

theorem decodeFrom_named (inAttribute : Bool) (name : Text) {c : Char}
    (letters : ∀ d ∈ name, Text.isAsciiAlnum d) (short : name.length ≤ Text.longestReference)
    (known : Text.namedReference? name = some ⟨[c], true⟩) (s : Text) :
    decodeFrom inAttribute 0 ('&' :: (name ++ ';' :: s)) = c :: decodeFrom inAttribute 0 s := by
  have found := reference?_named inAttribute letters short known s
  have split : name ++ ';' :: s = (name ++ [';']) ++ s := by simp
  rw [split] at found ⊢
  rw [decodeFrom_reference inAttribute (name ++ [';']) [c] s (by simpa using found)]
  rfl

theorem decodeFrom_apostrophe (inAttribute : Bool) (s : Text) :
    decodeFrom inAttribute 0 ("&#39;".toList ++ s) = '\x27' :: decodeFrom inAttribute 0 s := by
  have number : characterOfCode (Text.readNat 10 "39".toList) = '\x27' := by decide
  have digits : ("39;".toList ++ s).takeWhile Text.isAsciiDigit = "39".toList := by
    exact rfl
  have rest : ("39;".toList ++ s).dropWhile Text.isAsciiDigit = ';' :: s := by
    exact rfl
  have found : reference? inAttribute ("#39;".toList ++ s) = some (['\x27'], 4) := by
    change numericReference? 10 Text.isAsciiDigit 1 ("39;".toList ++ s) = _
    simp only [numericReference?, digits, rest, number]
    rfl
  exact decodeFrom_reference inAttribute "#39;".toList ['\x27'] s found

theorem escapeTextChar_plain {c : Char} (amp : c ≠ '&') (lt : c ≠ '<') (gt : c ≠ '>') :
    escapeTextChar c = [c] := by
  simp only [escapeTextChar, amp, lt, gt, if_false]

theorem escapeAttributeChar_plain {c : Char} (plain : c ∉ ['&', '<', '>', '\x22', '\x27']) :
    escapeAttributeChar c = [c] := by
  simp only [List.mem_cons, List.not_mem_nil, or_false, not_or] at plain
  obtain ⟨amp, lt, gt, quote, apostrophe⟩ := plain
  simp only [escapeAttributeChar, quote, apostrophe, if_false]
  exact escapeTextChar_plain amp lt gt

theorem decodeFrom_escapeTextChar (inAttribute : Bool) (c : Char) (s : Text) :
    decodeFrom inAttribute 0 (escapeTextChar c ++ s) = c :: decodeFrom inAttribute 0 s := by
  by_cases amp : c = '&'
  · subst amp
    exact decodeFrom_named inAttribute "amp".toList (by decide) (by decide) rfl s
  by_cases lt : c = '<'
  · subst lt
    exact decodeFrom_named inAttribute "lt".toList (by decide) (by decide) rfl s
  by_cases gt : c = '>'
  · subst gt
    exact decodeFrom_named inAttribute "gt".toList (by decide) (by decide) rfl s
  rw [escapeTextChar_plain amp lt gt]
  exact decodeFrom_plain inAttribute amp s

theorem decodeFrom_escapeAttributeChar (inAttribute : Bool) (c : Char) (s : Text) :
    decodeFrom inAttribute 0 (escapeAttributeChar c ++ s) =
      c :: decodeFrom inAttribute 0 s := by
  by_cases quote : c = '\x22'
  · subst quote
    exact decodeFrom_named inAttribute "quot".toList (by decide) (by decide) rfl s
  by_cases apostrophe : c = '\x27'
  · subst apostrophe
    exact decodeFrom_apostrophe inAttribute s
  simp only [escapeAttributeChar, quote, apostrophe, if_false]
  exact decodeFrom_escapeTextChar inAttribute c s

/-- Reading undoes any way of escaping that it undoes character by character. -/
theorem decodeFrom_flatMap (inAttribute : Bool) (escape : Char → Text)
    (undone : ∀ c s, decodeFrom inAttribute 0 (escape c ++ s) = c :: decodeFrom inAttribute 0 s)
    (s : Text) : decodeFrom inAttribute 0 (s.flatMap escape) = s := by
  induction s with
  | nil => rfl
  | cons c s ih => rw [List.flatMap_cons, undone, ih]

theorem decodeText_escapeText (s : Text) : decodeText (escapeText s) = s :=
  decodeFrom_flatMap false escapeTextChar (decodeFrom_escapeTextChar false) s

theorem decodeAttribute_escapeAttribute (s : Text) :
    decodeAttribute (escapeAttribute s) = s :=
  decodeFrom_flatMap true escapeAttributeChar (decodeFrom_escapeAttributeChar true) s

/-- Escaping leaves a text as it is that has none of the characters it escapes. -/
theorem escapeAttribute_of_plain {s : Text}
    (plain : ∀ c ∈ s, c ∉ ['&', '<', '>', '\x22', '\x27']) : escapeAttribute s = s := by
  induction s with
  | nil => rfl
  | cons c s ih =>
      have head := escapeAttributeChar_plain (plain c List.mem_cons_self)
      have tail := ih fun d member => plain d (List.mem_cons_of_mem c member)
      rw [escapeAttribute] at tail ⊢
      rw [List.flatMap_cons, head, tail, List.singleton_append]

theorem mem_escapeTextChar {c d : Char} (written : d ∈ escapeTextChar c) :
    d ≠ '<' ∧ (d = c ∨ d ∈ "&ampltg;".toList) := by
  by_cases special : c ∈ ['&', '<', '>']
  · have marks : ∀ c ∈ ['&', '<', '>'], ∀ d ∈ escapeTextChar c,
        d ≠ '<' ∧ d ∈ "&ampltg;".toList := by decide
    exact ⟨(marks c special d written).1, .inr (marks c special d written).2⟩
  · simp only [List.mem_cons, List.not_mem_nil, or_false, not_or] at special
    obtain ⟨amp, lt, gt⟩ := special
    rw [escapeTextChar_plain amp lt gt, List.mem_singleton] at written
    subst written
    exact ⟨lt, .inl rfl⟩

theorem mem_escapeAttributeChar {c d : Char} (written : d ∈ escapeAttributeChar c) :
    d ≠ '\x22' ∧ (d = c ∨ d ∈ "&ampltgquo#39;".toList) := by
  by_cases special : c ∈ ['&', '<', '>', '\x22', '\x27']
  · have marks : ∀ c ∈ ['&', '<', '>', '\x22', '\x27'], ∀ d ∈ escapeAttributeChar c,
        d ≠ '\x22' ∧ d ∈ "&ampltgquo#39;".toList := by decide
    exact ⟨(marks c special d written).1, .inr (marks c special d written).2⟩
  · rw [escapeAttributeChar_plain special, List.mem_singleton] at written
    subst written
    simp only [List.mem_cons, List.not_mem_nil, or_false, not_or] at special
    exact ⟨special.2.2.2.1, .inl rfl⟩

theorem not_mem_escapeText_bracket (s : Text) : '<' ∉ escapeText s := by
  intro written
  obtain ⟨c, _, written⟩ := List.mem_flatMap.1 written
  exact (mem_escapeTextChar written).1 rfl

theorem not_mem_escapeAttribute_quote (s : Text) : '\x22' ∉ escapeAttribute s := by
  intro written
  obtain ⟨c, _, written⟩ := List.mem_flatMap.1 written
  exact (mem_escapeAttributeChar written).1 rfl

theorem not_mem_escapeText {d : Char} {s : Text} (absent : d ∉ s)
    (other : d ∉ "&ampltg;".toList) : d ∉ escapeText s := by
  intro written
  obtain ⟨c, member, written⟩ := List.mem_flatMap.1 written
  rcases (mem_escapeTextChar written).2 with rfl | mark
  · exact absent member
  · exact other mark

theorem not_mem_escapeAttribute {d : Char} {s : Text} (absent : d ∉ s)
    (other : d ∉ "&ampltgquo#39;".toList) : d ∉ escapeAttribute s := by
  intro written
  obtain ⟨c, member, written⟩ := List.mem_flatMap.1 written
  rcases (mem_escapeAttributeChar written).2 with rfl | mark
  · exact absent member
  · exact other mark

end LivePage
