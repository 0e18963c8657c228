import LivePage.Proofs.Chart.Declaration
import LivePage.Proofs.Json.Occurrences

/-!
Declarations in a document whose line breaks are made uniform. The pass over the document knows
nothing of JSON: an escaped line feed in a string, or a backslash in front of an n, is for it the
written form of a line break. What is decoded in the end is the declaration that was printed exactly
if its strings have neither of these, no reference for a quote, and the printed text reads back.
-/

namespace LivePage
open Json

section Lowering

variable {gain : Bool → Nat} {piece by' : Text}

/-- Replacing `piece` by `by'` takes away what the piece counts. -/
structure Lowers (gain : Bool → Nat) (piece by' : Text) : Prop where
  some : piece ≠ []
  before : ∀ within r, weight within (piece ++ r) = gain within + weight false r
  after : ∀ within r, weight within (by' ++ r) = weight false r

theorem weight_cons_mono {s t : Text} (le : ∀ within, weight within s ≤ weight within t)
    (within : Bool) (c : Char) : weight within (c :: s) ≤ weight within (c :: t) := by
  rw [weight, weight]
  split
  · exact Nat.add_le_add_left (le true) 1
  · exact Nat.add_le_add_left (le false) _

theorem Lowers.weight_replace_le (lowers : Lowers gain piece by') (s : Text) :
    ∀ within, weight within (Text.replace piece by' s) ≤ weight within s := by
  induction h : s.length using Nat.strongRecOn generalizing s with
  | ind n ih =>
      intro within
      cases s with
      | nil => exact Nat.le_refl 0
      | cons c s =>
          rcases Text.prefix_or_not piece c s with ⟨r, whole⟩ | no
          · have shorter : r.length < n := by
              have size := congrArg List.length whole
              have some := List.length_pos_of_ne_nil lowers.some
              rw [List.length_append] at size
              omega
            have later := ih r.length shorter r rfl false
            rw [whole, Text.replace_append lowers.some, lowers.before, lowers.after]
            omega
          · rw [Text.replace_cons no]
            exact weight_cons_mono (ih s.length (h ▸ Nat.lt_succ_self _) s rfl) within c

theorem Lowers.weight_replace_lt (lowers : Lowers gain piece by') (gains : ∀ within, 0 < gain within)
    {s : Text} (present : Text.contains piece s = true) :
    ∀ within, weight within (Text.replace piece by' s) < weight within s := by
  induction s with
  | nil =>
      rw [Text.contains, List.isEmpty_iff] at present
      exact absurd present lowers.some
  | cons c s ih =>
      intro within
      rcases Text.prefix_or_not piece c s with ⟨r, whole⟩ | no
      · have later := lowers.weight_replace_le r false
        have less := gains within
        rw [whole, Text.replace_append lowers.some, lowers.before, lowers.after]
        omega
      · rw [Text.contains, no, Bool.false_or] at present
        rw [Text.replace_cons no, weight, weight]
        split
        · exact Nat.add_lt_add_left (ih present true) 1
        · exact Nat.add_lt_add_left (ih present false) _

end Lowering

theorem lowers_doubled : Lowers (fun _ => 1) "\\\\n" ['\n'] where
  some := by decide
  before within r := by cases within <;> simp [weight]
  after within r := by cases within <;> simp [weight]

theorem lowers_single : Lowers (fun within => if within then 0 else 1) "\\n" ['\n'] where
  some := by decide
  before within r := by cases within <;> simp [weight]
  after within r := by cases within <;> simp [weight]

theorem lowers_reference : ∀ r ∈ quoteReferences, Lowers (fun _ => 1) r.1 r.2 := by
  intro r listed
  fin_cases listed
  all_goals
    refine ⟨by decide, fun within r => ?_, fun within r => ?_⟩
    · cases within <;> simp [weight]
    · cases within <;> simp [weight]

theorem weight_foldl_replace_le {pairs : List (Text × Text)}
    (lowers : ∀ r ∈ pairs, Lowers (fun _ => 1) r.1 r.2) (s : Text) :
    weight false (pairs.foldl (fun t r => Text.replace r.1 r.2 t) s) ≤ weight false s := by
  induction pairs generalizing s with
  | nil => exact Nat.le_refl _
  | cons r pairs ih =>
      obtain ⟨first, others⟩ := List.forall_mem_cons.1 lowers
      exact Nat.le_trans (ih others _) (first.weight_replace_le s false)

theorem weight_foldl_replace_lt {pairs : List (Text × Text)}
    (lowers : ∀ r ∈ pairs, Lowers (fun _ => 1) r.1 r.2) {s : Text}
    (present : (pairs.any fun r => Text.contains r.1 s) = true) :
    weight false (pairs.foldl (fun t r => Text.replace r.1 r.2 t) s) < weight false s := by
  induction pairs with
  | nil => cases present
  | cons r pairs ih =>
      obtain ⟨first, others⟩ := List.forall_mem_cons.1 lowers
      rw [List.foldl_cons]
      cases found : Text.contains r.1 s with
      | true =>
          exact Nat.lt_of_le_of_lt (weight_foldl_replace_le others _)
            (first.weight_replace_lt (fun _ => Nat.one_pos) found false)
      | false =>
          rw [List.any_cons, found, Bool.false_or] at present
          rw [Text.replace_of_absent found]
          exact ih others present

theorem weight_unescapeDeclaration_le (s : Text) :
    weight false (unescapeDeclaration s) ≤ weight false s := by
  rw [unescapeDeclaration_eq_ite]
  split
  · exact weight_foldl_replace_le lowers_reference s
  · exact Nat.le_refl _

theorem weight_unescapeDeclaration_lt {s : Text} (present : hasQuoteReference s = true) :
    weight false (unescapeDeclaration s) < weight false s := by
  rw [unescapeDeclaration_eq_ite, if_pos present]
  exact weight_foldl_replace_lt lowers_reference present

/-- Behind an even number of backslashes the written form of a line feed is an escape. -/
theorem weight_replace_single_lt {s : Text} (present : Text.contains "\\n" s = true)
    (undoubled : Text.contains "\\\\n" s = false) :
    weight false (Text.replace "\\n" ['\n'] s) < weight false s := by
  induction h : s.length using Nat.strongRecOn generalizing s with
  | ind n ih =>
      cases s with
      | nil => cases present
      | cons c s =>
          subst h
          rw [Text.contains, Bool.or_eq_false_iff] at undoubled
          rcases Text.prefix_or_not "\\n" c s with ⟨r, whole⟩ | no
          · have later := lowers_single.weight_replace_le r false
            rw [whole, Text.replace_append lowers_single.some, lowers_single.before,
              lowers_single.after]
            simp only [Bool.false_eq_true, if_false]
            omega
          · rw [Text.contains, no, Bool.false_or] at present
            rw [Text.replace_cons no]
            by_cases escape : c = '\\'
            · subst escape
              cases s with
              | nil => cases present
              | cons d r =>
                  -- the character behind the backslash begins no break either
                  have second : ("\\n".toList).isPrefixOf (d :: r) = false := by
                    by_contra found
                    rw [Bool.not_eq_false] at found
                    obtain ⟨r', whole⟩ := List.isPrefixOf_iff_prefix.1 found
                    rw [← whole] at undoubled
                    exact absurd undoubled.1 (by simp [List.isPrefixOf])
                  rw [Text.contains, second, Bool.false_or] at present
                  rw [Text.contains, Bool.or_eq_false_iff] at undoubled
                  have later := ih r.length (by simp) present undoubled.2.2 rfl
                  rw [Text.replace_cons second, weight_backslash, weight_backslash, weight_within,
                    weight_within]
                  omega
            · have later := ih s.length (Nat.lt_succ_self _) present undoubled.2 rfl
              rw [weight_other escape, weight_other escape]
              omega

theorem contains_single_of_doubled {s : Text} (doubled : Text.contains "\\\\n" s = true) :
    Text.contains "\\n" s = true := by
  induction s with
  | nil => cases doubled
  | cons c s ih =>
      rw [Text.contains, Bool.or_eq_true] at doubled
      rw [Text.contains, Bool.or_eq_true]
      rcases doubled with here | later
      · obtain ⟨r, whole⟩ := List.isPrefixOf_iff_prefix.1 here
        change '\\' :: '\\' :: 'n' :: r = c :: s at whole
        cases whole
        exact .inr (Bool.or_eq_true_iff.2 (.inl rfl))
      · exact .inr (ih later)

theorem contains_of_not_mem {c : Char} (piece : Text) (inside : c ∈ piece) {s : Text}
    (absent : c ∉ s) : Text.contains piece s = false := by
  induction s with
  | nil => 
      rw [Text.contains, List.isEmpty_eq_false_iff]
      exact List.ne_nil_of_mem inside
  | cons d s ih =>
      have here : piece.isPrefixOf (d :: s) = false := by
        by_contra found
        rw [Bool.not_eq_false] at found
        exact absent ((List.isPrefixOf_iff_prefix.1 found).subset inside)
      rw [Text.contains, here, ih fun member => absent (List.mem_cons_of_mem d member)]
      rfl

/-- In a text without carriage returns only the two escaped forms are left to replace. -/
theorem normalizeBreaks_of_no_return {s : Text} (plain : '\r' ∉ s) :
    Text.normalizeBreaks s =
      Text.replace "\\n" ['\n'] (Text.replace "\\\\n" ['\n'] s) := by
  have keeps (piece : Text) {t : Text} (plain : '\r' ∉ t) : '\r' ∉ Text.replace piece ['\n'] t := by
    intro member
    rcases Text.mem_replaceFrom member with new | old
    · cases List.mem_singleton.1 new
    · exact plain old
  have absent := keeps "\\n" (keeps "\\\\n" plain)
  simp only [Text.normalizeBreaks, Text.lineBreakForms, List.foldl_cons, List.foldl_nil]
  rw [Text.replace_of_absent (contains_of_not_mem "\r\n" (c := '\r') (by decide) absent),
    Text.replace_of_absent (contains_of_not_mem "\r" (c := '\r') (by decide) absent)]

theorem normalizeBreaks_of_absent {s : Text} (plain : '\r' ∉ s)
    (absent : Text.contains "\\n" s = false) : Text.normalizeBreaks s = s := by
  have doubled : Text.contains "\\\\n" s = false := by
    by_contra found
    rw [contains_single_of_doubled (Bool.not_eq_false _ ▸ found)] at absent
    cases absent
  rw [normalizeBreaks_of_no_return plain, Text.replace_of_absent doubled,
    Text.replace_of_absent absent]

theorem weight_normalizeBreaks_lt {s : Text} (plain : '\r' ∉ s)
    (present : Text.contains "\\n" s = true) :
    weight false (Text.normalizeBreaks s) < weight false s := by
  rw [normalizeBreaks_of_no_return plain]
  cases doubled : Text.contains "\\\\n" s with
  | true =>
      exact Nat.lt_of_le_of_lt (lowers_single.weight_replace_le _ false)
        (lowers_doubled.weight_replace_lt (fun _ => Nat.one_pos) doubled false)
  | false =>
      rw [Text.replace_of_absent doubled]
      exact weight_replace_single_lt present doubled

/-- The strings and keys of a declaration. -/
def Declaration.texts (d : Declaration) : List Text := Json.texts (.object d)

/-- A string that comes through: it has no line feed, no backslash in front of an n, and no
reference for a quote. -/
def Text.Settled (t : Text) : Prop :=
  '\n' ∉ t ∧ Text.contains "\\n" t = false ∧ hasQuoteReference t = false

instance (t : Text) : Decidable t.Settled :=
  inferInstanceAs (Decidable (_ ∧ _ ∧ _))

theorem contains_declaration {first : Char} {piece : Text} (begins : first = '\\' ∨ first = '&')
    (within : '\x22' ∉ piece) (d : Declaration) : Text.contains (first :: piece) d.print =
      d.texts.any fun t => Text.contains (first :: piece) (t.flatMap escapeChar) := by
  have found := contains_print begins within (.object d) []
  rwa [List.append_nil, show Text.contains (first :: piece) [] = false from rfl,
    Bool.or_false] at found

theorem contains_break_declaration (d : Declaration) : Text.contains "\\n" d.print = false ↔
    ∀ t ∈ d.texts, '\n' ∉ t ∧ Text.contains "\\n" t = false := by
  have unquoted : '\x22' ∉ ['n'] := by decide
  have found := contains_declaration (.inl rfl) unquoted d
  change Text.contains "\\n" d.print = _ at found
  rw [found, List.any_eq_false]
  refine forall₂_congr fun t _ => ?_
  rw [← Bool.not_eq_true (Text.contains "\\n" t), ← not_or]
  exact not_congr (contains_break_flatMap_escapeChar t)

theorem contains_reference_declaration (d : Declaration) : ∀ r ∈ quoteReferences,
    Text.contains r.1 d.print = d.texts.any fun t => Text.contains r.1 t := by
  have each (piece : Text) (plain : ∀ c ∈ piece, isEscaped c = false) :
      Text.contains ('&' :: piece) d.print =
        d.texts.any fun t => Text.contains ('&' :: piece) t := by
    have within : '\x22' ∉ piece := fun member => by cases plain _ member
    rw [contains_declaration (.inr rfl) within]
    simp only [contains_flatMap_escapeChar plain]
  intro r listed
  fin_cases listed
  · exact each "quot;" (by decide)
  · exact each "#39;" (by decide)
  · exact each "#x27;" (by decide)

theorem hasQuoteReference_declaration (d : Declaration) : hasQuoteReference d.print = false ↔
    ∀ t ∈ d.texts, hasQuoteReference t = false := by
  simp only [hasQuoteReference, List.any_eq_false, Bool.not_eq_true]
  constructor
  · intro absent t member r listed
    have whole := absent r listed
    rw [contains_reference_declaration d r listed, List.any_eq_false] at whole
    exact Bool.eq_false_iff.2 (whole t member)
  · intro absent r listed
    rw [contains_reference_declaration d r listed, List.any_eq_false]
    exact fun t member => Bool.eq_false_iff.1 (absent t member r listed)

theorem settled_iff (d : Declaration) : (∀ t ∈ d.texts, t.Settled) ↔
    Text.contains "\\n" d.print = false ∧ hasQuoteReference d.print = false := by
  rw [contains_break_declaration, hasQuoteReference_declaration]
  constructor
  · intro settled
    exact ⟨fun t member => ⟨(settled t member).1, (settled t member).2.1⟩,
      fun t member => (settled t member).2.2⟩
  · intro ⟨breaks, references⟩ t member
    exact ⟨(breaks t member).1, (breaks t member).2, references t member⟩

theorem weight_declaration (d : Declaration) : weight false d.print = marksAll d.texts := by
  have count := weight_print (.object d) []
  rwa [List.append_nil] at count

/-- What is lost in the pass or by resolving references is not read again: the text that is left
has too few escapes and ampersands. -/
theorem settled_of_decoded {d : Declaration}
    (decoded : decodeDeclaration (Text.normalizeBreaks d.print) = .ok d) :
    Text.contains "\\n" d.print = false ∧ hasQuoteReference d.print = false := by
  have plain : '\r' ∉ d.print := fun member =>
    ((printable_print (.object d)).plain '\r' member).2 rfl
  have enough := parseObject_weight ((decodeDeclaration_ok_iff _ d).1 decoded)
  have count : weight false d.print = marksAll (fieldTexts d) := weight_declaration d
  have resolved := weight_unescapeDeclaration_le (Text.normalizeBreaks d.print)
  have absent : Text.contains "\\n" d.print = false := by
    by_contra present
    have lost := weight_normalizeBreaks_lt plain (Bool.not_eq_false _ ▸ present)
    omega
  refine ⟨absent, ?_⟩
  rw [normalizeBreaks_of_absent plain absent] at enough
  by_contra present
  have lost := weight_unescapeDeclaration_lt (Bool.not_eq_false _ ▸ present)
  omega

/-- A declaration comes through the pass over the document and through decoding exactly if its
strings do and its printed text reads back; it reads back whenever its numbers do and it is nested
no deeper than the reader goes. -/
theorem normalized_declaration_decodes (d : Declaration) :
    (decodeDeclaration (Text.normalizeBreaks d.print) = .ok d ↔
      (∀ t ∈ d.texts, t.Settled) ∧ Json.parseObject d.print = .ok d) ∧
    (Json.ReadsBack (.object d) 127 → Json.parseObject d.print = .ok d) := by
  refine ⟨?_, parseObject_print⟩
  have plain : '\r' ∉ d.print := fun member =>
    ((printable_print (.object d)).plain '\r' member).2 rfl
  have same (settled : ∀ t ∈ d.texts, t.Settled) :
      decodeDeclaration (Text.normalizeBreaks d.print) = .ok d ↔
        Json.parseObject d.print = .ok d := by
    obtain ⟨breaks, references⟩ := (settled_iff d).1 settled
    rw [decodeDeclaration_ok_iff, normalizeBreaks_of_absent plain breaks,
      unescapeDeclaration_of_none references]
  constructor
  · intro decoded
    have settled := (settled_iff d).2 (settled_of_decoded decoded)
    exact ⟨settled, (same settled).1 decoded⟩
  · intro ⟨settled, parsed⟩
    exact (same settled).2 parsed

/-- Quotes, tabs, ampersands and backslashes of a path come through, in keys as in values. -/
theorem normalized_declaration_decodes_path :
    let d : Declaration := [("C:\\data", .array [.string "say \"hi\"\t& go",
      .number (.real ⟨false, 6755399441055744, 1022⟩), .object [("min", .number (.int (-3)))]])]
    (∀ t ∈ d.texts, t.Settled) ∧ decodeDeclaration (Text.normalizeBreaks d.print) = .ok d := by
  intro d
  obtain ⟨decoded, back⟩ := normalized_declaration_decodes d
  have settled : ∀ t ∈ d.texts, t.Settled := by decide +kernel
  have number : JsonNumber.ReadsBack (.real ⟨false, 6755399441055744, 1022⟩) := by decide +kernel
  have readsBack : Json.ReadsBack (.object d) 127 := by
    have inner : Json.ReadsBack (.object [("min", .number (.int (-3)))]) 125 :=
      ⟨by decide, ⟨by decide, by decide⟩, trivial⟩
    exact ⟨by decide, ⟨trivial, number, inner, trivial⟩, trivial⟩
  exact ⟨settled, decoded.2 ⟨settled, back readsBack⟩⟩

/-- A label of two lines: its line feed is printed as an escape, which the pass takes for a line
break of the document, and what is left is no JSON. -/
theorem normalized_declaration_lines :
    let d : Declaration := [("t", .string "a\nb")]
    Json.parseObject d.print = .ok d ∧
      Text.normalizeBreaks d.print = "\x7b\"t\":\"a\nb\"\x7d" ∧
      ∀ e, decodeDeclaration (Text.normalizeBreaks d.print) ≠ .ok e := by
  intro d
  have broken : (decodeDeclaration (Text.normalizeBreaks d.print)).isOk = false := by
    decide +kernel
  refine ⟨by cbv, by decide +kernel, ?_⟩
  intro e decoded
  rw [decoded] at broken
  cases broken

end LivePage
