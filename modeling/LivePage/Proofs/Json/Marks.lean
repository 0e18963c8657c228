import LivePage.Proofs.Json.Reading
import LivePage.Proofs.Text.Replace

/-!
How much JSON text it takes to say a value. Each character of a string that has to be escaped takes
an escape, and each ampersand takes an ampersand, so a text has no fewer of the two together than
the strings of the value that is read from it; what is printed has exactly as many. A rewriting of
texts that lowers this count therefore loses what was printed.
-/

namespace LivePage.Json

mutual

/-- The strings and keys of a value, in order. -/
def texts : Json → List Text
  | .null | .bool _ | .number _ => []
  | .string s => [s]
  | .array items => itemTexts items
  | .object fields => fieldTexts fields

def itemTexts : List Json → List Text
  | [] => []
  | v :: rest => texts v ++ itemTexts rest

def fieldTexts : List (Text × Json) → List Text
  | [] => []
  | (key, v) :: rest => key :: (texts v ++ fieldTexts rest)

end

theorem itemTexts_cons (v : Json) (rest : List Json) :
    itemTexts (v :: rest) = texts v ++ itemTexts rest := rfl

theorem fieldTexts_cons (key : Text) (v : Json) (rest : List (Text × Json)) :
    fieldTexts ((key, v) :: rest) = key :: (texts v ++ fieldTexts rest) := rfl

/-- Characters that are escaped in a string. -/
def isEscaped (c : Char) : Bool := c = '\x22' || c = '\\' || c.toNat < 32

def marks (s : Text) : Nat := s.countP fun c => isEscaped c || c = '&'

theorem marks_cons (c : Char) (s : Text) :
    marks (c :: s) = (if isEscaped c || c = '&' then 1 else 0) + marks s := by
  rw [marks, List.countP_cons, Nat.add_comm]
  rfl

def marksAll : List Text → Nat
  | [] => 0
  | t :: ts => marks t + marksAll ts

@[simp] theorem marksAll_nil : marksAll [] = 0 := rfl

@[simp] theorem marksAll_cons (t : Text) (ts : List Text) :
    marksAll (t :: ts) = marks t + marksAll ts := rfl

@[simp] theorem marksAll_append (ts us : List Text) :
    marksAll (ts ++ us) = marksAll ts + marksAll us := by
  induction ts with
  | nil => rw [List.nil_append, marksAll_nil, Nat.zero_add]
  | cons t ts ih => rw [List.cons_append, marksAll_cons, marksAll_cons, ih, Nat.add_assoc]

/-- The escapes and ampersands of a text; `within` tells that a backslash stands in front. -/
def weight (within : Bool) : Text → Nat
  | [] => 0
  | c :: s =>
      if !within && c = '\\' then 1 + weight true s
      else (if c = '&' then 1 else 0) + weight false s

theorem weight_backslash (s : Text) : weight false ('\\' :: s) = 1 + weight true s := rfl

theorem weight_within (c : Char) (s : Text) :
    weight true (c :: s) = (if c = '&' then 1 else 0) + weight false s := rfl

theorem weight_other {c : Char} (other : c ≠ '\\') (within : Bool) (s : Text) :
    weight within (c :: s) = (if c = '&' then 1 else 0) + weight false s := by
  simp [weight, other]

theorem weight_bounds (s : Text) :
    weight true s ≤ weight false s ∧ weight false s ≤ weight true s + 1 := by
  induction s with
  | nil => exact ⟨Nat.le_refl 0, Nat.zero_le 1⟩
  | cons c s ih =>
      by_cases escape : c = '\\'
      · subst escape
        rw [weight_backslash, weight_within, if_neg (by decide)]
        omega
      · rw [weight_other escape, weight_other escape]
        omega

theorem weight_le_cons (c : Char) (s : Text) : weight false s ≤ weight false (c :: s) := by
  by_cases escape : c = '\\'
  · subst escape
    rw [weight_backslash]
    have bound := (weight_bounds s).2
    omega
  · rw [weight_other escape]
    omega

theorem weight_suffix {s t : Text} (part : t <:+ s) : weight false t ≤ weight false s := by
  obtain ⟨front, rfl⟩ := part
  induction front with
  | nil => exact Nat.le_refl _
  | cons c front ih => exact Nat.le_trans ih (weight_le_cons c _)

theorem escapeChar_of_plain {c : Char} (plain : isEscaped c = false) : escapeChar c = [c] := by
  simp only [isEscaped, Bool.or_eq_false_iff, decide_eq_false_iff_not] at plain
  obtain ⟨⟨quote, backslash⟩, control⟩ := plain
  have above (d : Char) (low : d.toNat < 32) : c ≠ d := fun same => control (same ▸ low)
  simp [escapeChar, quote, backslash, control, above '\x08' (by decide), above '\x0c' (by decide),
    above '\n' (by decide), above '\r' (by decide), above '\t' (by decide)]

/-- An escape: a backslash, a letter or mark, and the digits of a code if it is one. -/
theorem escapeChar_of_escaped {c : Char} (escaped : isEscaped c = true) :
    ∃ d code, escapeChar c = '\\' :: d :: code ∧ d ≠ '&' ∧ (c ≠ '\n' → d ≠ 'n') ∧
      (c ≠ '\\' → d ≠ '\\') ∧ ∀ e ∈ code, e ≠ '\\' ∧ e ≠ '&' := by
  have digits : ∀ n < 32, ∀ e ∈ Text.padLeft 4 '0' (Text.hexOfNat n), e ≠ '\\' ∧ e ≠ '&' := by
    decide
  unfold escapeChar
  split_ifs with _ backslash _ _ line _ _ control
  · exact ⟨_, _, rfl, by decide, fun _ => by decide, fun _ => by decide, nofun⟩
  · exact ⟨_, _, rfl, by decide, fun _ => by decide, absurd backslash, nofun⟩
  · exact ⟨_, _, rfl, by decide, fun _ => by decide, fun _ => by decide, nofun⟩
  · exact ⟨_, _, rfl, by decide, fun _ => by decide, fun _ => by decide, nofun⟩
  · exact ⟨_, _, rfl, by decide, absurd line, fun _ => by decide, nofun⟩
  · exact ⟨_, _, rfl, by decide, fun _ => by decide, fun _ => by decide, nofun⟩
  · exact ⟨_, _, rfl, by decide, fun _ => by decide, fun _ => by decide, nofun⟩
  · exact ⟨'u', _, rfl, by decide, fun _ => by decide, fun _ => by decide,
      digits c.toNat control⟩
  · simp_all [isEscaped]

theorem weight_append_of_free {s : Text} (free : ∀ c ∈ s, c ≠ '\\' ∧ c ≠ '&') (r : Text) :
    weight false (s ++ r) = weight false r := by
  induction s with
  | nil => rfl
  | cons c s ih =>
      obtain ⟨first, others⟩ := List.forall_mem_cons.1 free
      rw [List.cons_append, weight_other first.1, if_neg first.2, ih others, Nat.zero_add]

theorem weight_escapeChar (c : Char) (r : Text) :
    weight false (escapeChar c ++ r) = (if isEscaped c || c = '&' then 1 else 0) + weight false r := by
  cases escaped : isEscaped c with
  | true =>
      obtain ⟨d, code, written, plain, _, _, free⟩ := escapeChar_of_escaped escaped
      rw [written, List.cons_append, List.cons_append, weight_backslash, weight_within,
        if_neg plain, weight_append_of_free free]
      simp
  | false =>
      have other : c ≠ '\\' := by
        rintro rfl
        cases escaped
      rw [escapeChar_of_plain escaped, List.singleton_append, weight_other other]
      simp

theorem weight_flatMap_escapeChar (s r : Text) :
    weight false (s.flatMap escapeChar ++ r) = marks s + weight false r := by
  induction s with
  | nil => exact (Nat.zero_add _).symm
  | cons c s ih =>
      rw [List.flatMap_cons, List.append_assoc, weight_escapeChar, ih, marks_cons, Nat.add_assoc]

theorem weight_quote (s r : Text) : weight false (quote s ++ r) = marks s + weight false r := by
  rw [quote, List.append_assoc, List.append_assoc, List.singleton_append,
    weight_other (by decide), if_neg (by decide), weight_flatMap_escapeChar, List.singleton_append,
    weight_other (by decide), if_neg (by decide)]
  omega

theorem free_numberText (n : JsonNumber) : ∀ c ∈ numberText n, c ≠ '\\' ∧ c ≠ '&' := by
  refine forall_mem_numberText ?_ (by decide) n
  intro c digit
  constructor
  · rintro rfl
    cases digit
  · rintro rfl
    cases digit

theorem weight_mark {c : Char} (free : c ≠ '\\' ∧ c ≠ '&') (r : Text) :
    weight false (c :: r) = weight false r := by
  rw [weight_other free.1, if_neg free.2, Nat.zero_add]

mutual

theorem weight_print (v : Json) (r : Text) :
    weight false (print v ++ r) = marksAll (texts v) + weight false r := by
  match v with
  | .null =>
      rw [texts, marksAll_nil, Nat.zero_add]
      exact weight_append_of_free (s := "null") (by decide) r
  | .bool true =>
      rw [texts, marksAll_nil, Nat.zero_add]
      exact weight_append_of_free (s := "true") (by decide) r
  | .bool false =>
      rw [texts, marksAll_nil, Nat.zero_add]
      exact weight_append_of_free (s := "false") (by decide) r
  | .number n =>
      rw [print, weight_append_of_free (free_numberText n)]
      exact (Nat.zero_add _).symm
  | .string s => rw [print, weight_quote, texts, marksAll_cons, marksAll_nil, Nat.add_zero]
  | .array items =>
      rw [print, List.append_assoc, List.append_assoc, List.singleton_append,
        weight_mark (by decide), weight_printItems, List.singleton_append, weight_mark (by decide)]
      rfl
  | .object fields =>
      rw [print, List.append_assoc, List.append_assoc, List.singleton_append,
        weight_mark (by decide), weight_printFields, List.singleton_append, weight_mark (by decide)]
      rfl

theorem weight_printItems (items : List Json) (r : Text) :
    weight false (printItems items ++ r) = marksAll (itemTexts items) + weight false r := by
  match items with
  | [] => exact (Nat.zero_add _).symm
  | [v] => rw [printItems, weight_print, itemTexts_cons, itemTexts, List.append_nil]
  | v :: w :: rest =>
      rw [printItems, List.append_assoc, List.append_assoc, weight_print, List.singleton_append,
        weight_mark (by decide), weight_printItems, itemTexts_cons v, marksAll_append, Nat.add_assoc]

theorem weight_printFields (fields : List (Text × Json)) (r : Text) :
    weight false (printFields fields ++ r) = marksAll (fieldTexts fields) + weight false r := by
  match fields with
  | [] => exact (Nat.zero_add _).symm
  | [(key, v)] =>
      rw [printFields, List.append_assoc, List.append_assoc, weight_quote, List.singleton_append,
        weight_mark (by decide), weight_print, fieldTexts_cons, fieldTexts,
        List.append_nil, marksAll_cons, Nat.add_assoc]
  | (key, v) :: f :: rest =>
      rw [printFields, List.append_assoc, List.append_assoc, List.append_assoc, List.append_assoc,
        weight_quote, List.singleton_append, weight_mark (by decide), weight_print,
        List.singleton_append, weight_mark (by decide), weight_printFields,
        fieldTexts_cons key v, marksAll_cons, marksAll_append]
      omega

end

theorem readHex_suffix {s r : Text} {n : Nat} (read : readHex s = .ok (n, r)) : r <:+ s := by
  unfold readHex at read
  split at read
  · cases read
  · simp only at read
    split at read
    · cases read
      exact List.drop_suffix 4 s
    · cases read

theorem readLowSurrogate_suffix {high : Nat} {s r : Text} {c : Char}
    (read : readLowSurrogate high s = .ok (c, r)) : r <:+ s := by
  unfold readLowSurrogate at read
  split at read
  · cases read
  · split at read
    · cases read
    · next s =>
        cases code : readHex s with
        | error f =>
            rw [code] at read
            cases read
        | ok found =>
            rw [code] at read
            simp only [bind, Except.bind] at read
            split at read
            · obtain ⟨_, rfl⟩ := Prod.mk.inj (Except.ok.inj read)
              exact (readHex_suffix code).trans
                ((List.suffix_cons 'u' s).trans (List.suffix_cons '\\' _))
            · cases read
    · cases read
  · cases read

theorem readEscape_suffix {s r : Text} {c : Char} (read : readEscape s = .ok (c, r)) :
    ∃ d s', s = d :: s' ∧ r <:+ s' := by
  unfold readEscape at read
  split at read
  case h_10 s =>
    refine ⟨'u', s, rfl, ?_⟩
    cases code : readHex s with
    | error f =>
        rw [code] at read
        cases read
    | ok found =>
        have part := readHex_suffix code
        rw [code] at read
        simp only [bind, Except.bind] at read
        split at read
        · cases read
        · split at read
          · exact (readLowSurrogate_suffix read).trans part
          · cases read
            exact part
  all_goals
    cases read
    try exact ⟨_, _, rfl, List.suffix_refl _⟩

theorem readChars_weight {fuel : Nat} {seen s t rest : Text}
    (read : readChars fuel seen s = .ok (t, rest)) :
    marks t + weight false rest ≤ marks seen + weight false s := by
  induction fuel generalizing seen s with
  | zero => cases read
  | succ fuel ih =>
      have one (c : Char) : marks (c :: seen) ≤ marks seen + 1 := by
        rw [marks_cons]
        split <;> omega
      unfold readChars at read
      split at read
      · cases read
      · cases read
        have behind := weight_le_cons '\x22' rest
        rw [marks, List.countP_reverse]
        exact Nat.add_le_add_left behind _
      · next s =>
          cases escape : readEscape s with
          | error f =>
              rw [escape] at read
              cases read
          | ok found =>
              rw [escape] at read
              obtain ⟨d, s', rfl, part⟩ := readEscape_suffix escape
              have later := ih read
              have behind := weight_suffix part
              have first := one found.1
              rw [weight_backslash, weight_within]
              omega
      · next c s quote backslash =>
          split at read
          · cases read
          · next control =>
              have later := ih read
              have plain : isEscaped c = false := by
                simp only [isEscaped, Bool.or_eq_false_iff, decide_eq_false_iff_not]
                exact ⟨⟨quote, backslash⟩, control⟩
              simp only [marks_cons, plain, Bool.false_or, decide_eq_true_eq] at later
              rw [weight_other backslash]
              omega

theorem readString_weight {s t rest : Text} (read : readString s = .ok (t, rest)) :
    marks t + weight false rest ≤ weight false s := by
  have bound := readChars_weight read
  rwa [show marks [] = 0 from rfl, Nat.zero_add] at bound

theorem readWord_suffix {word s r : Text} (read : readWord word s = .ok r) : r <:+ s := by
  induction word generalizing s with
  | nil =>
      cases read
      exact List.suffix_refl _
  | cons c word ih =>
      cases s with
      | nil => cases read
      | cons d s =>
          rw [readWord] at read
          split at read
          · exact (ih read).trans (List.suffix_cons d s)
          · cases read

theorem draftWord_weight {word s rest : Text} {v d : Draft} {w : Json}
    (read : draftWord word v s = (d, rest)) (value : d.value = .ok w) :
    d = v ∧ weight false rest ≤ weight false s := by
  unfold draftWord at read
  split at read
  · next found =>
      cases read
      exact ⟨rfl, weight_suffix (readWord_suffix found)⟩
  · cases read
    cases value

theorem draftNumber_weight {negative : Bool} {s rest : Text} {d : Draft} {w : Json}
    (read : draftNumber negative s = (d, rest)) (value : d.value = .ok w) :
    texts w = [] ∧ weight false rest ≤ weight false s := by
  unfold draftNumber at read
  split at read
  · next found =>
      cases read
      cases value
      exact ⟨rfl, weight_suffix (readNumber_takesFront negative _ _ _ found).1⟩
  · cases read
    cases value

theorem weight_skipBlank (s : Text) : weight false (skipBlank s) ≤ weight false s :=
  weight_suffix (List.dropWhile_suffix _)

theorem values_cons {d : Draft} {ds : List Draft} {vs : List Json}
    (values : Draft.values (d :: ds) = .ok vs) :
    ∃ v rest, d.value = .ok v ∧ Draft.values ds = .ok rest ∧ vs = v :: rest := by
  rw [Draft.values] at values
  cases first : d.value with
  | error f =>
      rw [first] at values
      cases values
  | ok v =>
      cases others : Draft.values ds with
      | error f =>
          rw [first, others] at values
          cases values
      | ok rest =>
          rw [first, others] at values
          cases values
          exact ⟨v, rest, rfl, rfl, rfl⟩

theorem fieldValues_cons {key : Text} {d : Draft} {ds : List (Text × Draft)} {seen fields : Fields}
    (values : Draft.fieldValues seen ((key, d) :: ds) = .ok fields) :
    ∃ v, d.value = .ok v ∧ Draft.fieldValues (seen.insert key v) ds = .ok fields := by
  rw [Draft.fieldValues] at values
  cases first : d.value with
  | error f =>
      rw [first] at values
      cases values
  | ok v =>
      rw [first] at values
      exact ⟨v, rfl, values⟩

theorem value_array {ds : List Draft} {stop : Option Fault} {v : Json}
    (value : (Draft.array ds stop).value = .ok v) :
    stop = none ∧ ∃ vs, Draft.values ds = .ok vs ∧ v = .array vs := by
  rw [Draft.value] at value
  cases values : Draft.values ds with
  | error f =>
      rw [values] at value
      cases value
  | ok vs =>
      rw [values] at value
      cases stop with
      | some f => cases value
      | none =>
          cases value
          exact ⟨rfl, vs, rfl, rfl⟩

theorem value_object {ds : List (Text × Draft)} {stop : Option Fault} {v : Json}
    (value : (Draft.object ds stop).value = .ok v) :
    stop = none ∧ ∃ fields, Draft.fieldValues [] ds = .ok fields ∧ v = .object fields := by
  rw [Draft.value] at value
  cases values : Draft.fieldValues [] ds with
  | error f =>
      rw [values] at value
      cases value
  | ok fields =>
      rw [values] at value
      cases stop with
      | some f => cases value
      | none =>
          cases value
          exact ⟨rfl, fields, rfl, rfl⟩

theorem marksAll_insert (fields : Fields) (key : Text) (v : Json) :
    marksAll (fieldTexts (fields.insert key v)) ≤
      marksAll (fieldTexts fields) + (marks key + marksAll (texts v)) := by
  induction fields with
  | nil => simp [Fields.insert, fieldTexts]
  | cons f fields ih =>
      obtain ⟨k, w⟩ := f
      rw [Fields.insert]
      split
      · simp only [fieldTexts_cons, marksAll_cons, marksAll_append]
        omega
      · simp only [fieldTexts_cons, marksAll_cons, marksAll_append]
        omega

mutual

theorem readValue_weight {fuel depth : Nat} {s rest : Text} {d : Draft} {v : Json}
    (read : readValue fuel depth s = (d, rest)) (value : d.value = .ok v) :
    marksAll (texts v) + weight false rest ≤ weight false s := by
  cases fuel with
  | zero =>
      rw [readValue] at read
      cases read
      cases value
  | succ fuel =>
      have blank := weight_skipBlank s
      rw [readValue] at read
      simp only at read
      split at read
      · cases read
        cases value
      case h_2 r shown | h_3 r shown | h_4 r shown =>
        obtain ⟨rfl, behind⟩ := draftWord_weight read value
        cases value
        rw [shown, weight_mark (by decide)] at blank
        simpa [texts] using Nat.le_trans behind blank
      · next r shown =>
          obtain ⟨none, behind⟩ := draftNumber_weight read value
          rw [shown, weight_mark (by decide)] at blank
          simpa [none] using Nat.le_trans behind blank
      · next r shown =>
          rw [shown, weight_mark (by decide)] at blank
          split at read
          · next found =>
              cases read
              cases value
              have inside := readString_weight found
              simpa [texts] using Nat.le_trans inside blank
          · cases read
            cases value
      · next r shown =>
          rw [shown, weight_mark (by decide)] at blank
          split at read
          · cases read
            cases value
          · cases read
            obtain ⟨ended, vs, values, rfl⟩ := value_array value
            have inner := readItems_weight (Prod.ext rfl (Prod.ext ended rfl)) values
            exact Nat.le_trans inner blank
      · next r shown =>
          rw [shown, weight_mark (by decide)] at blank
          split at read
          · cases read
            cases value
          · cases read
            obtain ⟨ended, fields, values, rfl⟩ := value_object value
            have inner := readFields_weight (Prod.ext rfl (Prod.ext ended rfl)) values
            rw [fieldTexts, marksAll_nil, Nat.zero_add] at inner
            exact Nat.le_trans inner blank
      · next c r _ _ _ _ _ _ _ shown =>
          split at read
          · obtain ⟨none, behind⟩ := draftNumber_weight read value
            simpa [none] using Nat.le_trans behind blank
          · cases read
            cases value

theorem readItems_weight {fuel depth : Nat} {first : Bool} {s rest : Text} {ds : List Draft}
    {vs : List Json} (read : readItems fuel depth first s = (ds, none, rest))
    (values : Draft.values ds = .ok vs) :
    marksAll (itemTexts vs) + weight false rest ≤ weight false s := by
  cases fuel with
  | zero =>
      rw [readItems] at read
      cases read
  | succ fuel =>
      have blank := weight_skipBlank s
      rw [readItems] at read
      split at read
      · cases read
      · next r shown =>
          cases read
          cases values
          have behind := weight_le_cons ']' rest
          rw [shown] at blank
          simpa [itemTexts] using Nat.le_trans behind blank
      · next c r _ shown =>
          split at read
          · exact Nat.le_trans (readItem_weight read values) blank
          · split at read
            · have behind := weight_le_cons c r
              have inner := weight_skipBlank r
              rw [shown] at blank
              split at read
              · cases read
              · cases read
              · have bound := readItem_weight read values
                omega
            · cases read

theorem readItem_weight {fuel depth : Nat} {s rest : Text} {ds : List Draft} {vs : List Json}
    (read : readItem fuel depth s = (ds, none, rest)) (values : Draft.values ds = .ok vs) :
    marksAll (itemTexts vs) + weight false rest ≤ weight false s := by
  cases fuel with
  | zero =>
      rw [readItem] at read
      cases read
  | succ fuel =>
      rw [readItem] at read
      split at read
      · cases read
        obtain ⟨v, _, value, _, _⟩ := values_cons values
        cases value
      · cases read
        obtain ⟨v, _, value, _, _⟩ := values_cons values
        cases (value_array value).1
      · cases read
        obtain ⟨v, _, value, _, _⟩ := values_cons values
        cases (value_object value).1
      · next d r _ _ _ found =>
          obtain ⟨ds, stop, rest', inner⟩ :
              ∃ ds stop rest', readItems fuel depth false r = (ds, stop, rest') := ⟨_, _, _, rfl⟩
          rw [inner] at read
          cases read
          obtain ⟨v, others, value, behind, rfl⟩ := values_cons values
          have first := readValue_weight found value
          have later := readItems_weight inner behind
          rw [itemTexts_cons, marksAll_append]
          omega

theorem readFields_weight {fuel depth : Nat} {first : Bool} {s rest : Text}
    {ds : List (Text × Draft)} {seen fields : Fields}
    (read : readFields fuel depth first s = (ds, none, rest))
    (values : Draft.fieldValues seen ds = .ok fields) :
    marksAll (fieldTexts fields) + weight false rest ≤
      marksAll (fieldTexts seen) + weight false s := by
  cases fuel with
  | zero =>
      rw [readFields] at read
      cases read
  | succ fuel =>
      have blank := weight_skipBlank s
      rw [readFields] at read
      split at read
      · cases read
      · next r shown =>
          cases read
          cases values
          have behind := weight_le_cons '\x7d' rest
          rw [shown] at blank
          omega
      · next c r _ shown =>
          have behind := weight_le_cons c r
          rw [shown] at blank
          split at read
          · split at read
            · have bound := readField_weight read values
              omega
            · cases read
          · split at read
            · have inner := weight_skipBlank r
              split at read
              · cases read
              · next r' shown' =>
                  have bound := readField_weight read values
                  have opening := weight_le_cons '\x22' r'
                  rw [shown'] at inner
                  omega
              · cases read
              · cases read
            · cases read

theorem readField_weight {fuel depth : Nat} {s rest : Text} {ds : List (Text × Draft)}
    {seen fields : Fields} (read : readField fuel depth s = (ds, none, rest))
    (values : Draft.fieldValues seen ds = .ok fields) :
    marksAll (fieldTexts fields) + weight false rest ≤
      marksAll (fieldTexts seen) + weight false s := by
  cases fuel with
  | zero =>
      rw [readField] at read
      cases read
  | succ fuel =>
      rw [readField] at read
      split at read
      · cases read
      · next key r named =>
          have name := readString_weight named
          have blank := weight_skipBlank r
          split at read
          · cases read
            obtain ⟨v, value, _⟩ := fieldValues_cons values
            cases value
          · next r' shown =>
              have colon := weight_le_cons ':' r'
              rw [shown] at blank
              split at read
              · cases read
                obtain ⟨v, value, _⟩ := fieldValues_cons values
                cases value
              · cases read
                obtain ⟨v, value, _⟩ := fieldValues_cons values
                cases (value_array value).1
              · cases read
                obtain ⟨v, value, _⟩ := fieldValues_cons values
                cases (value_object value).1
              · next d r'' _ _ _ found =>
                  obtain ⟨ds, stop, rest', inner⟩ :
                      ∃ ds stop rest', readFields fuel depth false r'' = (ds, stop, rest') :=
                    ⟨_, _, _, rfl⟩
                  rw [inner] at read
                  cases read
                  obtain ⟨v, value, values⟩ := fieldValues_cons values
                  have first := readValue_weight found value
                  have later := readFields_weight inner values
                  have written := marksAll_insert seen key v
                  omega
          · cases read
            obtain ⟨v, value, _⟩ := fieldValues_cons values
            cases value

end

/-- A text has no fewer escapes and ampersands than the object that is read from it takes. -/
theorem parseObject_weight {s : Text} {fields : Fields} (parsed : parseObject s = .ok fields) :
    marksAll (fieldTexts fields) ≤ weight false s := by
  rw [parseObject] at parsed
  cases read : draft s with
  | mk d rest =>
      rw [read] at parsed
      simp only at parsed
      split at parsed
      · cases value : Draft.value _ with
        | error f =>
            rw [value] at parsed
            cases parsed
        | ok v =>
            obtain ⟨_, found, _, rfl⟩ := value_object value
            have bound := readValue_weight read value
            rw [value] at parsed
            simp only at parsed
            cases ended : checkEnd rest with
            | error f =>
                rw [ended] at parsed
                cases parsed
            | ok _ =>
                rw [ended] at parsed
                cases parsed
                exact Nat.le_of_add_right_le bound
      all_goals cases parsed

end LivePage.Json
