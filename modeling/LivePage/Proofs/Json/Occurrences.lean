import LivePage.Proofs.Json.Marks
import Mathlib.Tactic.Tauto

/-!
Pieces of printed JSON. A piece that has no quote and begins with a backslash or an ampersand does
not reach from one string into another, so it occurs in what is printed exactly if it occurs in a
string as that is written.
-/

namespace LivePage

namespace Text

theorem contains_append_cons {d : Char} {piece : Text} (some : piece ≠ []) (absent : d ∉ piece)
    (s r : Text) : contains piece (s ++ d :: r) = (contains piece s || contains piece r) := by
  induction s with
  | nil =>
      have here := isPrefixOf_append_cons absent [] r
      rw [List.nil_append] at here
      rw [List.nil_append, contains, contains, here]
      cases piece with
      | nil => exact absurd rfl some
      | cons p piece => rfl
  | cons c s ih =>
      have here := isPrefixOf_append_cons absent (c :: s) r
      rw [List.cons_append] at here
      rw [List.cons_append, contains, contains, here, ih, Bool.or_assoc]

theorem contains_append_of_free {first : Char} {s : Text} (free : ∀ c ∈ s, c ≠ first)
    (piece r : Text) : contains (first :: piece) (s ++ r) = contains (first :: piece) r := by
  induction s with
  | nil => rfl
  | cons c s ih =>
      obtain ⟨other, others⟩ := List.forall_mem_cons.1 free
      rw [List.cons_append, contains, ih others]
      simp [List.isPrefixOf, Ne.symm other]

theorem contains_cons_of_ne {first c : Char} (other : c ≠ first) (piece r : Text) :
    contains (first :: piece) (c :: r) = contains (first :: piece) r :=
  contains_append_of_free (s := [c]) (List.forall_mem_singleton.2 other) piece r

end Text

namespace Json

section Printed

variable {first : Char} {piece : Text}

theorem contains_mark (begins : first = '\\' ∨ first = '&') {c : Char} (mark : c ≠ '\\' ∧ c ≠ '&')
    (r : Text) :
    Text.contains (first :: piece) (c :: r) = Text.contains (first :: piece) r := by
  refine Text.contains_cons_of_ne ?_ piece r
  rcases begins with rfl | rfl
  · exact mark.1
  · exact mark.2

theorem contains_word (begins : first = '\\' ∨ first = '&') {s : Text} (free : ∀ c ∈ s, c ≠ '\\' ∧ c ≠ '&') (r : Text) :
    Text.contains (first :: piece) (s ++ r) = Text.contains (first :: piece) r := by
  refine Text.contains_append_of_free (fun c member => ?_) piece r
  rcases begins with rfl | rfl
  · exact (free c member).1
  · exact (free c member).2

theorem contains_quote (begins : first = '\\' ∨ first = '&') (within : '\x22' ∉ piece)
    (s r : Text) : Text.contains (first :: piece) (quote s ++ r) =
      (Text.contains (first :: piece) (s.flatMap escapeChar) ||
        Text.contains (first :: piece) r) := by
  have absent : '\x22' ∉ first :: piece := by
    rcases begins with rfl | rfl
    · exact List.not_mem_cons_of_ne_of_not_mem (by decide) within
    · exact List.not_mem_cons_of_ne_of_not_mem (by decide) within
  rw [quote, List.append_assoc, List.append_assoc, List.singleton_append,
    contains_mark begins (by decide), List.singleton_append,
    Text.contains_append_cons (List.cons_ne_nil _ _) absent]

mutual

theorem contains_print (begins : first = '\\' ∨ first = '&') (within : '\x22' ∉ piece)
    (v : Json) (r : Text) : Text.contains (first :: piece) (print v ++ r) =
      (((texts v).any fun t => Text.contains (first :: piece) (t.flatMap escapeChar)) ||
        Text.contains (first :: piece) r) := by
  match v with
  | .null => exact contains_word begins (s := "null") (by decide) r
  | .bool true => exact contains_word begins (s := "true") (by decide) r
  | .bool false => exact contains_word begins (s := "false") (by decide) r
  | .number n => exact contains_word begins (free_numberText n) r
  | .string s => rw [print, contains_quote begins within, texts, List.any_cons, List.any_nil,
      Bool.or_false]
  | .array items =>
      rw [print, List.append_assoc, List.append_assoc, List.singleton_append,
        contains_mark begins (by decide), contains_printItems begins within, List.singleton_append,
        contains_mark begins (by decide), texts]
  | .object fields =>
      rw [print, List.append_assoc, List.append_assoc, List.singleton_append,
        contains_mark begins (by decide), contains_printFields begins within, List.singleton_append,
        contains_mark begins (by decide), texts]

theorem contains_printItems (begins : first = '\\' ∨ first = '&') (within : '\x22' ∉ piece)
    (items : List Json) (r : Text) :
    Text.contains (first :: piece) (printItems items ++ r) =
      (((itemTexts items).any fun t => Text.contains (first :: piece) (t.flatMap escapeChar)) ||
        Text.contains (first :: piece) r) := by
  match items with
  | [] => rfl
  | [v] => rw [printItems, contains_print begins within, itemTexts_cons, itemTexts, List.append_nil]
  | v :: w :: rest =>
      rw [printItems, List.append_assoc, List.append_assoc, contains_print begins within, List.singleton_append,
        contains_mark begins (by decide), contains_printItems begins within, itemTexts_cons v, List.any_append,
        Bool.or_assoc]

theorem contains_printFields (begins : first = '\\' ∨ first = '&') (within : '\x22' ∉ piece)
    (fields : List (Text × Json)) (r : Text) :
    Text.contains (first :: piece) (printFields fields ++ r) =
      (((fieldTexts fields).any fun t => Text.contains (first :: piece) (t.flatMap escapeChar)) ||
        Text.contains (first :: piece) r) := by
  match fields with
  | [] => rfl
  | [(key, v)] =>
      rw [printFields, List.append_assoc, List.append_assoc, contains_quote begins within,
        List.singleton_append, contains_mark begins (by decide), contains_print begins within, fieldTexts_cons,
        fieldTexts, List.append_nil, List.any_cons, Bool.or_assoc]
  | (key, v) :: f :: rest =>
      rw [printFields, List.append_assoc, List.append_assoc, List.append_assoc, List.append_assoc,
        contains_quote begins within, List.singleton_append, contains_mark begins (by decide),
        contains_print begins within, List.singleton_append, contains_mark begins (by decide),
        contains_printFields begins within, fieldTexts_cons key v, List.any_cons, List.any_append]
      simp only [Bool.or_assoc]

end

end Printed

/-- A piece of characters that stand for themselves begins what is written where it begins the
string. -/
theorem isPrefixOf_flatMap_escapeChar {piece : Text} (plain : ∀ c ∈ piece, isEscaped c = false)
    (t : Text) : piece.isPrefixOf (t.flatMap escapeChar) = piece.isPrefixOf t := by
  induction piece generalizing t with
  | nil => simp [List.isPrefixOf]
  | cons p piece ih =>
      obtain ⟨first, others⟩ := List.forall_mem_cons.1 plain
      cases t with
      | nil => rfl
      | cons c t =>
          rw [List.flatMap_cons]
          cases escaped : isEscaped c with
          | false =>
              rw [escapeChar_of_plain escaped, List.singleton_append, List.isPrefixOf,
                List.isPrefixOf, ih others]
          | true =>
              obtain ⟨d, code, written, _⟩ := escapeChar_of_escaped escaped
              have backslash : p ≠ '\\' := by
                rintro rfl
                cases first
              have same : p ≠ c := by
                rintro rfl
                rw [first] at escaped
                cases escaped
              rw [written, List.cons_append, List.isPrefixOf, List.isPrefixOf,
                beq_eq_false_iff_ne.2 backslash, beq_eq_false_iff_ne.2 same]
              rfl

theorem contains_flatMap_escapeChar {piece : Text}
    (plain : ∀ c ∈ piece, isEscaped c = false) (t : Text) :
    Text.contains ('&' :: piece) (t.flatMap escapeChar) = Text.contains ('&' :: piece) t := by
  have whole : ∀ c ∈ '&' :: piece, isEscaped c = false :=
    List.forall_mem_cons.2 ⟨by decide, plain⟩
  induction t with
  | nil => rfl
  | cons c t ih =>
      have here := isPrefixOf_flatMap_escapeChar whole (c :: t)
      rw [List.flatMap_cons] at here ⊢
      cases escaped : isEscaped c with
      | false =>
          rw [escapeChar_of_plain escaped, List.singleton_append] at here ⊢
          rw [Text.contains, Text.contains, here, ih]
      | true =>
          obtain ⟨d, code, written, other, _, _, free⟩ := escapeChar_of_escaped escaped
          have apart : c ≠ '&' := by
            rintro rfl
            cases escaped
          rw [Text.contains_append_of_free _ piece, ih, Text.contains_cons_of_ne apart]
          intro e member
          rw [written] at member
          rcases List.mem_cons.1 member with rfl | member
          · decide
          · rcases List.mem_cons.1 member with rfl | member
            · exact other
            · exact (free e member).2

/-- The written form of a line feed is in a string that has a line feed, or that form itself. -/
theorem contains_break_flatMap_escapeChar (t : Text) :
    Text.contains "\\n" (t.flatMap escapeChar) = true ↔
      '\n' ∈ t ∨ Text.contains "\\n" t = true := by
  induction t with
  | nil => simp [Text.contains]
  | cons c t ih =>
      rw [List.flatMap_cons]
      by_cases line : c = '\n'
      · subst line
        exact iff_of_true (Bool.or_eq_true_iff.2 (.inl rfl)) (.inl List.mem_cons_self)
      · have others : '\n' ∈ c :: t ↔ '\n' ∈ t :=
          ⟨fun member => (List.mem_cons.1 member).resolve_left (Ne.symm line),
            List.mem_cons_of_mem c⟩
        by_cases backslash : c = '\\'
        · subst backslash
          have letter : ['n'].isPrefixOf (t.flatMap escapeChar) = ['n'].isPrefixOf t :=
            isPrefixOf_flatMap_escapeChar (by decide) t
          have written : Text.contains "\\n" (escapeChar '\\' ++ t.flatMap escapeChar) =
              (['n'].isPrefixOf (t.flatMap escapeChar) ||
                Text.contains "\\n" (t.flatMap escapeChar)) := rfl
          have itself : Text.contains "\\n" ('\\' :: t) =
              (['n'].isPrefixOf t || Text.contains "\\n" t) := rfl
          rw [written, itself, letter, others, Bool.or_eq_true, Bool.or_eq_true, ih]
          tauto
        · have same : Text.contains "\\n" (escapeChar c ++ t.flatMap escapeChar) =
              Text.contains "\\n" (t.flatMap escapeChar) := by
            cases escaped : isEscaped c with
            | false =>
                rw [escapeChar_of_plain escaped]
                exact Text.contains_cons_of_ne backslash ['n'] _
            | true =>
                obtain ⟨d, code, written, _, letter, mark, free⟩ := escapeChar_of_escaped escaped
                have behind : Text.contains "\\n" (d :: (code ++ t.flatMap escapeChar)) =
                    Text.contains "\\n" (t.flatMap escapeChar) :=
                  Text.contains_append_of_free (s := d :: code) (List.forall_mem_cons.2
                    ⟨mark backslash, fun e member => (free e member).1⟩) ['n'] _
                have here : ("\\n".toList).isPrefixOf ('\\' :: d :: (code ++ t.flatMap escapeChar)) =
                    false := by
                  simp [List.isPrefixOf, Ne.symm (letter line)]
                rw [written, List.cons_append, List.cons_append, Text.contains, here, behind,
                  Bool.false_or]
          have itself : Text.contains "\\n" (c :: t) = Text.contains "\\n" t :=
            Text.contains_cons_of_ne backslash ['n'] t
          rw [same, itself, ih, others]

end Json
end LivePage
