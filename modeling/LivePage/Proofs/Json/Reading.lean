import LivePage.Proofs.Json.Numbers
import Mathlib.Data.List.Nodup

/-!
Printed JSON reads back. The text of a value, with whatever may follow a value behind it, is read to
that value and leaves what followed. Beside the numbers only nesting sets a limit: the reader gives
up below a depth that the printer knows nothing of.
-/

namespace LivePage.Json

theorem le_byteLength_append (s t : Text) : Text.byteLength s ≤ Text.byteLength (s ++ t) := by
  have grows (n : Nat) : n ≤ t.foldl (fun n c => n + c.utf8Size) n := by
    induction t generalizing n with
    | nil => exact Nat.le_refl n
    | cons c t ih => exact Nat.le_trans (Nat.le_add_right n _) (ih _)
  rw [Text.byteLength, Text.byteLength, List.foldl_append]
  exact grows _

theorem readHex_code {n : Nat} (control : n < 32) (r : Text) :
    readHex (Text.padLeft 4 '0' (Text.hexOfNat n) ++ r) = .ok (n, r) := by
  have code : ∀ n < 32, (Text.padLeft 4 '0' (Text.hexOfNat n)).length = 4 ∧
      4 ≤ Text.byteLength (Text.padLeft 4 '0' (Text.hexOfNat n)) ∧
      (Text.padLeft 4 '0' (Text.hexOfNat n)).all Text.isHexDigit = true ∧
      Text.readNat 16 (Text.padLeft 4 '0' (Text.hexOfNat n)) = n := by
    decide
  obtain ⟨four, bytes, digits, value⟩ := code n control
  have long := le_byteLength_append (Text.padLeft 4 '0' (Text.hexOfNat n)) r
  rw [readHex, if_neg (by omega), List.take_left' four, List.drop_left' four]
  simp [four, digits, value]

theorem readChars_escapeChar (c : Char) (fuel : Nat) (seen r : Text) :
    readChars (fuel + 1) seen (escapeChar c ++ r) = readChars fuel (c :: seen) r := by
  by_cases special : c = '\x22' ∨ c = '\\' ∨ c = '\x08' ∨ c = '\x0c' ∨ c = '\n' ∨ c = '\r' ∨ c = '\t'
  · rcases special with rfl | rfl | rfl | rfl | rfl | rfl | rfl <;> rfl
  · simp only [not_or] at special
    obtain ⟨quote, backslash, back, page, line, ret, tab⟩ := special
    by_cases control : c.toNat < 32
    · have written : escapeChar c =
          '\\' :: 'u' :: Text.padLeft 4 '0' (Text.hexOfNat c.toNat) := by
        simp [escapeChar, quote, backslash, back, page, line, ret, tab, control]
      have escape : readEscape ('u' :: (Text.padLeft 4 '0' (Text.hexOfNat c.toNat) ++ r)) =
          .ok (c, r) := by
        rw [readEscape, readHex_code control]
        have low : ¬(0xdc00 ≤ c.toNat && c.toNat ≤ 0xdfff) = true := by simp; omega
        have high : ¬(0xd800 ≤ c.toNat && c.toNat ≤ 0xdbff) = true := by simp; omega
        simp only [bind, Except.bind, if_neg low, if_neg high, Char.ofNat_toNat]
      rw [written, List.cons_append, List.cons_append, readChars, escape]
      rfl
    · have written : escapeChar c = [c] := by
        simp [escapeChar, quote, backslash, back, page, line, ret, tab, control]
      rw [written, List.singleton_append, readChars, if_neg control]
      · exact quote
      · exact backslash

theorem readChars_quote (s r : Text) {fuel : Nat} (enough : s.length < fuel) (seen : Text) :
    readChars fuel seen (s.flatMap escapeChar ++ '\x22' :: r) = .ok (seen.reverse ++ s, r) := by
  induction s generalizing fuel seen with
  | nil =>
      cases fuel with
      | zero => cases enough
      | succ fuel => rw [List.append_nil]; rfl
  | cons c s ih =>
      cases fuel with
      | zero => cases enough
      | succ fuel =>
          rw [List.flatMap_cons, List.append_assoc, readChars_escapeChar,
            ih (Nat.lt_of_succ_lt_succ enough), List.reverse_cons, List.append_assoc]
          rfl

theorem escapeChar_ne_nil (c : Char) : escapeChar c ≠ [] := by
  unfold escapeChar
  split_ifs <;> nofun

theorem length_le_flatMap_escapeChar (s : Text) : s.length ≤ (s.flatMap escapeChar).length := by
  induction s with
  | nil => exact Nat.le_refl _
  | cons c s ih =>
      have some := List.length_pos_of_ne_nil (escapeChar_ne_nil c)
      rw [List.flatMap_cons, List.length_append, List.length_cons]
      omega

theorem readString_quote (s r : Text) :
    readString (s.flatMap escapeChar ++ '\x22' :: r) = .ok (s, r) := by
  have long := length_le_flatMap_escapeChar s
  refine readChars_quote s r ?_ []
  rw [List.length_append]
  omega

mutual

/-- Values that the reader gives back, nested at most so many levels: the keys of an object are
distinct, and the numbers are those that read back. -/
def ReadsBack : Json → Nat → Prop
  | .null, _ | .bool _, _ | .string _, _ => True
  | .number n, _ => n.ReadsBack
  | .array _, 0 | .object _, 0 => False
  | .array items, levels + 1 => ItemsReadBack items levels
  | .object fields, levels + 1 => (Fields.keys fields).Nodup ∧ FieldsReadBack fields levels

def ItemsReadBack : List Json → Nat → Prop
  | [], _ => True
  | v :: rest, levels => ReadsBack v levels ∧ ItemsReadBack rest levels

def FieldsReadBack : List (Text × Json) → Nat → Prop
  | [], _ => True
  | (_, v) :: rest, levels => ReadsBack v levels ∧ FieldsReadBack rest levels

end

theorem Fields.insert_of_not_mem {fields : Fields} {key : Text} (fresh : key ∉ fields.keys)
    (v : Json) : fields.insert key v = fields ++ [(key, v)] := by
  induction fields with
  | nil => rfl
  | cons f fields ih =>
      rw [Fields.keys, List.map_cons, List.mem_cons, not_or] at fresh
      rw [Fields.insert, if_neg (Ne.symm fresh.1), ih fresh.2]
      rfl

mutual

theorem value_ofJson {v : Json} {levels : Nat} (back : ReadsBack v levels) :
    (Draft.ofJson v).value = .ok v := by
  match v, levels with
  | .null, _ | .bool _, _ | .string _, _ | .number _, _ => rfl
  | .array items, levels + 1 =>
      rw [ReadsBack] at back
      rw [Draft.ofJson, Draft.value, values_ofItems back]
      rfl
  | .object fields, levels + 1 =>
      rw [ReadsBack] at back
      rw [Draft.ofJson, Draft.value, fieldValues_ofFields [] back.1 back.2]
      rfl

theorem values_ofItems {items : List Json} {levels : Nat} (back : ItemsReadBack items levels) :
    Draft.values (Draft.ofItems items) = .ok items := by
  match items with
  | [] => rfl
  | v :: rest =>
      rw [ItemsReadBack] at back
      rw [Draft.ofItems, Draft.values, value_ofJson back.1, values_ofItems back.2]
      rfl

theorem fieldValues_ofFields {fields : List (Text × Json)} {levels : Nat} (seen : Fields)
    (distinct : (Fields.keys (seen ++ fields)).Nodup) (back : FieldsReadBack fields levels) :
    Draft.fieldValues seen (Draft.ofFields fields) = .ok (seen ++ fields) := by
  match fields with
  | [] => rw [List.append_nil]; rfl
  | (key, v) :: rest =>
      rw [FieldsReadBack] at back
      have fresh : key ∉ seen.keys := by
        rw [Fields.keys, List.map_append, List.map_cons] at distinct
        intro member
        exact (List.nodup_append.1 distinct).2.2 key member key List.mem_cons_self rfl
      have whole : seen ++ (key, v) :: rest = seen.insert key v ++ rest := by
        rw [Fields.insert_of_not_mem fresh, List.append_assoc]
        rfl
      rw [whole] at distinct ⊢
      rw [Draft.ofFields, Draft.fieldValues, value_ofJson back.1]
      exact fieldValues_ofFields _ distinct back.2

end

theorem isJsonBlank_of_isAsciiDigit {c : Char} (digit : Text.isAsciiDigit c = true) :
    isJsonBlank c = false := by
  by_contra blank
  simp only [isJsonBlank, Bool.not_eq_false, Bool.or_eq_true, decide_eq_true_eq] at blank
  rcases blank with ((rfl | rfl) | rfl) | rfl <;> cases digit

theorem skipBlank_cons {c : Char} (s : Text) (ink : isJsonBlank c = false) :
    skipBlank (c :: s) = c :: s := by
  simp [skipBlank, ink]

theorem readValue_digit {c : Char} (digit : Text.isAsciiDigit c = true) (fuel depth : Nat)
    (s : Text) : readValue (fuel + 1) depth (c :: s) = draftNumber false (c :: s) := by
  have other (d : Char) (t : Text) (no : Text.isAsciiDigit d = false) : c :: s ≠ d :: t := by
    rintro ⟨⟩
    rw [digit] at no
    cases no
  rw [readValue, skipBlank_cons s (isJsonBlank_of_isAsciiDigit digit)]
  simp only
  split
  · next h => cases h
  · next h => exact absurd h (other 'n' _ rfl)
  · next h => exact absurd h (other 't' _ rfl)
  · next h => exact absurd h (other 'f' _ rfl)
  · next h => exact absurd h (other '-' _ rfl)
  · next h => exact absurd h (other '\x22' _ rfl)
  · next h => exact absurd h (other '[' _ rfl)
  · next h => exact absurd h (other '\x7b' _ rfl)
  · next h =>
      cases h
      rw [if_pos digit]

theorem readValue_number {n : JsonNumber} (back : n.ReadsBack) {rest : Text} (ends : Ends rest)
    (fuel depth : Nat) :
    readValue (fuel + 1) depth (numberText n ++ rest) = (.number n, rest) := by
  obtain ⟨negative, s, written, read⟩ := numberText_signed back
  have longer := (readNumber_takesFront negative).longer read ends
  have number : draftNumber negative (s ++ rest) = (.number n, rest) := by
    rw [draftNumber, longer]
    rfl
  rw [written, List.append_assoc]
  cases negative with
  | true =>
      rw [if_pos rfl, List.singleton_append, readValue, skipBlank_cons _ rfl]
      exact number
  | false =>
      obtain ⟨c, r, rfl, digit⟩ := readNumber_head read
      exact (readValue_digit digit fuel depth (r ++ rest)).trans number

theorem print_head {v : Json} {levels : Nat} (back : ReadsBack v levels) :
    ∃ c s, print v = c :: s ∧ isJsonBlank c = false ∧ c ≠ ']' := by
  match v with
  | .null => exact ⟨_, _, rfl, rfl, by decide⟩
  | .bool true => exact ⟨_, _, rfl, rfl, by decide⟩
  | .bool false => exact ⟨_, _, rfl, rfl, by decide⟩
  | .string s => exact ⟨_, _, rfl, rfl, by decide⟩
  | .array items => exact ⟨_, _, rfl, rfl, by decide⟩
  | .object fields => exact ⟨_, _, rfl, rfl, by decide⟩
  | .number n =>
      rw [ReadsBack] at back
      obtain ⟨negative, s, written, read⟩ := numberText_signed back
      obtain ⟨c, r, rfl, digit⟩ := readNumber_head read
      rw [print, written]
      cases negative with
      | true => exact ⟨_, _, rfl, rfl, by decide⟩
      | false =>
          refine ⟨c, r, rfl, isJsonBlank_of_isAsciiDigit digit, ?_⟩
          rintro rfl
          cases digit

theorem draftWord_append (word : Text) (v : Draft) (rest : Text) :
    draftWord word v (word ++ rest) = (v, rest) := by
  have whole : readWord word (word ++ rest) = .ok rest := by
    induction word with
    | nil => cases rest <;> rfl
    | cons c word ih => rw [List.cons_append, readWord, if_pos rfl, ih]
  rw [draftWord, whole]

theorem readItem_of_value {fuel depth : Nat} {s rest : Text} {v : Json}
    (read : readValue fuel depth s = (Draft.ofJson v, rest)) {items : List Draft} {rest' : Text}
    (more : readItems fuel depth false rest = (items, none, rest')) :
    readItem (fuel + 1) depth s = (Draft.ofJson v :: items, none, rest') := by
  rw [readItem, read]
  cases v <;> simp only [Draft.ofJson, more]

theorem readField_of_value {fuel depth : Nat} {s rest : Text} {key : Text} {v : Json}
    (read : readValue fuel depth s = (Draft.ofJson v, rest)) {fields : List (Text × Draft)}
    {rest' : Text} (more : readFields fuel depth false rest = (fields, none, rest')) :
    readField (fuel + 1) depth (key.flatMap escapeChar ++ '\x22' :: ':' :: s) =
      ((key, Draft.ofJson v) :: fields, none, rest') := by
  rw [readField, readString_quote]
  simp only [skipBlank_cons s (show isJsonBlank ':' = false from rfl), read]
  cases v <;> simp only [Draft.ofJson, more]

theorem readItems_close (fuel depth : Nat) (first : Bool) (rest : Text) :
    readItems (fuel + 1) depth first (']' :: rest) = ([], none, rest) := by
  rw [readItems, skipBlank_cons _ rfl]
  rfl

theorem readItems_first {c : Char} (ink : isJsonBlank c = false) (within : c ≠ ']')
    (fuel depth : Nat) (s : Text) :
    readItems (fuel + 1) depth true (c :: s) = readItem fuel depth (c :: s) := by
  simp [readItems, skipBlank_cons s ink]

theorem readItems_next {c : Char} (ink : isJsonBlank c = false) (within : c ≠ ']')
    (fuel depth : Nat) (s : Text) :
    readItems (fuel + 1) depth false (',' :: c :: s) = readItem fuel depth (c :: s) := by
  have comma : skipBlank (',' :: c :: s) = ',' :: c :: s := skipBlank_cons _ rfl
  simp [readItems, comma, skipBlank_cons s ink, within]

theorem readFields_close (fuel depth : Nat) (first : Bool) (rest : Text) :
    readFields (fuel + 1) depth first ('\x7d' :: rest) = ([], none, rest) := by
  rw [readFields, skipBlank_cons _ rfl]
  rfl

theorem readFields_first (fuel depth : Nat) (s : Text) :
    readFields (fuel + 1) depth true ('\x22' :: s) = readField fuel depth s := by
  rw [readFields, skipBlank_cons _ rfl]
  rfl

theorem readFields_next (fuel depth : Nat) (s : Text) :
    readFields (fuel + 1) depth false (',' :: '\x22' :: s) = readField fuel depth s := by
  rw [readFields, skipBlank_cons _ rfl]
  rfl

theorem length_print_pos {v : Json} {levels : Nat} (back : ReadsBack v levels) :
    0 < (print v).length := by
  obtain ⟨c, s, shown, _, _⟩ := print_head back
  rw [shown]
  exact Nat.succ_pos _

theorem printItems_head {items : List Json} {levels : Nat} (some : items ≠ [])
    (back : ItemsReadBack items levels) :
    ∃ c s, printItems items = c :: s ∧ isJsonBlank c = false ∧ c ≠ ']' := by
  match items with
  | [v] =>
      rw [ItemsReadBack] at back
      exact print_head back.1
  | v :: w :: items =>
      rw [ItemsReadBack] at back
      obtain ⟨c, s, shown, ink, within⟩ := print_head back.1
      refine ⟨c, s ++ [','] ++ printItems (w :: items), ?_, ink, within⟩
      rw [printItems, shown]
      rfl

theorem printFields_head {fields : List (Text × Json)} (some : fields ≠ []) :
    ∃ s, printFields fields = '\x22' :: s := by
  match fields with
  | [(key, v)] => exact ⟨_, rfl⟩
  | (key, v) :: f :: fields => exact ⟨_, rfl⟩

theorem ends_mark {c : Char} (mark : c = ',' ∨ c = ']' ∨ c = '\x7d') (rest : Text) :
    Ends (c :: rest) := by
  rintro d ⟨⟩
  exact mark

mutual

/-- The text of a value is read to that value, whatever follows it, given fuel for its length and a
depth for its nesting. -/
theorem readValue_print {v : Json} {levels fuel depth : Nat} (back : ReadsBack v levels)
    (deep : levels < depth) (enough : 2 * (print v).length ≤ fuel) {rest : Text}
    (ends : Ends rest) : readValue fuel depth (print v ++ rest) = (Draft.ofJson v, rest) := by
  have some := length_print_pos back
  obtain ⟨fuel, rfl⟩ : ∃ n, fuel = n + 1 := ⟨fuel - 1, by omega⟩
  match v, levels with
  | .null, _ =>
      rw [readValue]
      exact draftWord_append "ull" .null rest
  | .bool true, _ =>
      rw [readValue]
      exact draftWord_append "rue" (.bool true) rest
  | .bool false, _ =>
      rw [readValue]
      exact draftWord_append "alse" (.bool false) rest
  | .number n, _ =>
      rw [ReadsBack] at back
      rw [print]
      exact readValue_number back ends fuel depth
  | .string s, _ =>
      have read := readString_quote s rest
      rw [print, quote, List.append_assoc, List.append_assoc, List.singleton_append, readValue,
        skipBlank_cons _ rfl]
      simp only [List.singleton_append, read, Draft.ofJson]
  | .array items, levels + 1 =>
      rw [ReadsBack] at back
      simp only [print, List.length_append, List.length_singleton] at enough
      have inner : readItems fuel (depth - 1) true (printItems items ++ ']' :: rest) =
          (Draft.ofItems items, none, rest) := by
        obtain ⟨fuel, rfl⟩ : ∃ n, fuel = n + 1 := ⟨fuel - 1, by omega⟩
        by_cases empty : items = []
        · subst empty
          exact readItems_close fuel (depth - 1) true rest
        · obtain ⟨c, s, shown, ink, within⟩ := printItems_head empty back
          have deeper : levels < depth - 1 := by omega
          have room : 2 * (printItems items).length < fuel := by omega
          have read := readItem_print empty back deeper room rest
          rwa [shown, List.cons_append, readItems_first ink within, ← List.cons_append, ← shown]
      rw [print, List.append_assoc, List.append_assoc, List.singleton_append,
        List.singleton_append, readValue, skipBlank_cons _ rfl]
      simp only [if_neg (show ¬depth ≤ 1 by omega), inner, Draft.ofJson]
  | .object fields, levels + 1 =>
      rw [ReadsBack] at back
      simp only [print, List.length_append, List.length_singleton] at enough
      have inner : readFields fuel (depth - 1) true (printFields fields ++ '\x7d' :: rest) =
          (Draft.ofFields fields, none, rest) := by
        obtain ⟨fuel, rfl⟩ : ∃ n, fuel = n + 1 := ⟨fuel - 1, by omega⟩
        by_cases empty : fields = []
        · subst empty
          exact readFields_close fuel (depth - 1) true rest
        · obtain ⟨s, shown⟩ := printFields_head empty
          rw [shown, List.cons_append, readFields_first]
          exact readField_print empty back.2 (by omega) (by omega) shown rest
      rw [print, List.append_assoc, List.append_assoc, List.singleton_append,
        List.singleton_append, readValue, skipBlank_cons _ rfl]
      simp only [if_neg (show ¬depth ≤ 1 by omega), inner, Draft.ofJson]

theorem readItem_print {items : List Json} {levels fuel depth : Nat} (some : items ≠ [])
    (back : ItemsReadBack items levels) (deep : levels < depth)
    (enough : 2 * (printItems items).length < fuel) (rest : Text) :
    readItem fuel depth (printItems items ++ ']' :: rest) =
      (Draft.ofItems items, none, rest) := by
  match items with
  | [v] =>
      rw [ItemsReadBack] at back
      have first := length_print_pos back.1
      rw [printItems] at enough ⊢
      obtain ⟨fuel, rfl⟩ : ∃ n, fuel = n + 2 := ⟨fuel - 2, by omega⟩
      exact readItem_of_value
        (readValue_print back.1 deep (by omega) (ends_mark (.inr (.inl rfl)) rest))
        (readItems_close fuel depth false rest)
  | v :: w :: items =>
      rw [ItemsReadBack] at back
      simp only [printItems, List.length_append, List.length_singleton] at enough
      obtain ⟨fuel, rfl⟩ : ∃ n, fuel = n + 2 := ⟨fuel - 2, by omega⟩
      have room : 2 * (printItems (w :: items)).length < fuel := by omega
      have others := readItem_print (List.cons_ne_nil w items) back.2 deep room rest
      obtain ⟨c, s, shown, ink, within⟩ := printItems_head (List.cons_ne_nil w items) back.2
      rw [printItems, List.append_assoc, List.append_assoc, List.singleton_append]
      refine readItem_of_value
        (readValue_print back.1 deep (by omega) (ends_mark (.inl rfl) _)) ?_
      rwa [shown, List.cons_append, readItems_next ink within, ← List.cons_append, ← shown]

theorem readField_print {fields : List (Text × Json)} {levels fuel depth : Nat}
    (some : fields ≠ []) (back : FieldsReadBack fields levels) (deep : levels < depth)
    (enough : 2 * (printFields fields).length < fuel) {s : Text}
    (shown : printFields fields = '\x22' :: s) (rest : Text) :
    readField fuel depth (s ++ '\x7d' :: rest) = (Draft.ofFields fields, none, rest) := by
  match fields with
  | [(key, v)] =>
      rw [FieldsReadBack] at back
      simp only [printFields, List.length_append, List.length_singleton] at enough
      obtain ⟨fuel, rfl⟩ : ∃ n, fuel = n + 2 := ⟨fuel - 2, by omega⟩
      have text : s ++ '\x7d' :: rest =
          key.flatMap escapeChar ++ '\x22' :: ':' :: (print v ++ '\x7d' :: rest) := by
        rw [← (List.cons.inj shown).2]
        simp
      rw [text]
      exact readField_of_value
        (readValue_print back.1 deep (by omega) (ends_mark (.inr (.inr rfl)) rest))
        (readFields_close fuel depth false rest)
  | (key, v) :: f :: fields =>
      rw [FieldsReadBack] at back
      simp only [printFields, List.length_append, List.length_singleton] at enough
      obtain ⟨fuel, rfl⟩ : ∃ n, fuel = n + 2 := ⟨fuel - 2, by omega⟩
      obtain ⟨s', shown'⟩ := printFields_head (List.cons_ne_nil f fields)
      have room : 2 * (printFields (f :: fields)).length < fuel := by omega
      have others := readField_print (List.cons_ne_nil f fields) back.2 deep room shown' rest
      have text : s ++ '\x7d' :: rest = key.flatMap escapeChar ++
          '\x22' :: ':' :: (print v ++ ',' :: '\x22' :: (s' ++ '\x7d' :: rest)) := by
        rw [← List.cons_append, ← List.cons_append, ← List.cons_append, ← shown',
          ← (List.cons.inj shown).2]
        simp
      rw [text]
      refine readField_of_value
        (readValue_print back.1 deep (by omega) (ends_mark (.inl rfl) _)) ?_
      rwa [readFields_next]

end

theorem draft_print {v : Json} (back : ReadsBack v 127) :
    draft (print v) = (Draft.ofJson v, []) := by
  have enough : 2 * (print v).length ≤ stepLimit (print v) := by
    rw [stepLimit]
    omega
  have read := readValue_print back (show 127 < depthLimit by decide) enough ends_nil
  rwa [List.append_nil] at read

theorem parse_print {v : Json} (back : ReadsBack v 127) : parse (print v) = .ok v := by
  have read := draft_print back
  have value := value_ofJson back
  unfold draft at read
  simp only [parse, parseWithin, read, value]
  rfl

theorem parseObject_print {fields : Fields} (back : ReadsBack (.object fields) 127) :
    parseObject (print (.object fields)) = .ok fields := by
  have read := draft_print back
  have value := value_ofJson back
  rw [Draft.ofJson] at read value
  simp only [parseObject, read, value]
  rfl

end LivePage.Json
