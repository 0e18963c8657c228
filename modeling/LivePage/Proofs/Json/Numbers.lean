import LivePage.Json.Typed
import LivePage.Proofs.Json.Printing
import Mathlib.Data.List.Basic

/-!
Numbers in JSON text. A number is read from the front of a text up to where it ends, and the mark
that ends a value changes nothing about it. An integer of 64 bits comes back from its decimal text;
any other number does so where its shortest digits, multiplied or divided once, give it again.
-/

namespace LivePage

theorem Text.isAsciiDigit_of_isDigit {c : Char} (digit : c.isDigit = true) :
    Text.isAsciiDigit c = true := by
  simpa [Text.isAsciiDigit, Char.isDigit, Char.le_def] using digit

namespace Json

/-- What may follow a value: nothing, or the mark that separates or closes. -/
def Ends (rest : Text) : Prop := ∀ c ∈ rest.head?, c = ',' ∨ c = ']' ∨ c = '\x7d'

theorem ends_nil : Ends [] := nofun

theorem Ends.not_digit {rest : Text} (ends : Ends rest) {c : Char} (first : c ∈ rest.head?) :
    Text.isAsciiDigit c = false := by
  rcases ends c first with rfl | rfl | rfl <;> rfl

/-- Reading takes a part from the front of a text, and the same part if what ends a value is added
behind. -/
def TakesFront {α : Type} (read : Text → Except Fault (α × Text)) : Prop :=
  ∀ s n t, read s = .ok (n, t) →
    t <:+ s ∧ ∀ rest, Ends rest → read (s ++ rest) = .ok (n, t ++ rest)

theorem dropDigits_append (s : Text) {rest : Text} (ends : Ends rest) :
    (s ++ rest).dropWhile Text.isAsciiDigit = s.dropWhile Text.isAsciiDigit ++ rest := by
  induction s with
  | nil =>
      cases rest with
      | nil => rfl
      | cons c rest => simp [ends.not_digit rfl]
  | cons c s ih => cases digit : Text.isAsciiDigit c <;> simp [digit, ih]

theorem finishReal_takesFront (negative : Bool) (significand : Nat) (exponent : Int) :
    TakesFront (finishReal negative significand exponent) := by
  intro s n t read
  rw [finishReal] at read
  cases known : ofParts? significand exponent with
  | none =>
      rw [known] at read
      cases read
  | some x =>
      rw [known] at read
      cases read
      refine ⟨List.suffix_refl _, fun rest _ => ?_⟩
      rw [finishReal, known]
      rfl

theorem TakesFront.behind {α : Type} {read : Text → Except Fault (α × Text)}
    (takes : TakesFront read) {s t : Text} {n : α} (found : read s = .ok (n, t)) (c : Char) :
    t <:+ c :: s :=
  (takes s n t found).1.trans (List.suffix_cons c s)

theorem TakesFront.longer {α : Type} {read : Text → Except Fault (α × Text)}
    (takes : TakesFront read) {s t : Text} {n : α} (found : read s = .ok (n, t)) {rest : Text}
    (ends : Ends rest) : read (s ++ rest) = .ok (n, t ++ rest) :=
  (takes s n t found).2 rest ends

theorem readExponentDigits_takesFront (negative : Bool) (significand : Nat) (start : Int)
    (positive : Bool) (e : Nat) :
    TakesFront (readExponentDigits negative significand start positive e) := by
  intro s
  induction s generalizing e with
  | nil =>
      intro n t read
      have finish := finishReal_takesFront negative significand
        (clampExponent (if positive then start + e else start - e))
      rw [readExponentDigits] at read
      refine ⟨(finish _ _ _ read).1, fun rest ends => ?_⟩
      have longer := finish.longer read ends
      cases rest with
      | nil => rwa [List.nil_append, readExponentDigits]
      | cons c rest => rwa [List.nil_append, readExponentDigits, ends.not_digit rfl]
  | cons c s ih =>
      intro n t read
      simp only [readExponentDigits, List.cons_append] at read ⊢
      cases digit : Text.isAsciiDigit c with
      | false =>
          simp only [digit, Bool.false_eq_true, if_false] at read ⊢
          exact finishReal_takesFront _ _ _ _ _ _ read
      | true =>
          simp only [digit, if_true] at read ⊢
          split at read
          · next large =>
              simp only [if_pos large]
              split at read
              · cases read
              · next out =>
                  cases read
                  refine ⟨(List.dropWhile_suffix _).trans (List.suffix_cons c s), ?_⟩
                  intro rest ends
                  rw [if_neg out, dropDigits_append s ends]
          · next small =>
              simp only [if_neg small]
              exact ⟨(ih _ n t read).1.trans (List.suffix_cons c s), (ih _ n t read).2⟩

theorem exponentDigits_takesFront (negative : Bool) (significand : Nat) (start : Int)
    (positive : Bool) {c : Char} {r t : Text} {n : JsonNumber} {other : Fault}
    (read : (if Text.isAsciiDigit c then
        readExponentDigits negative significand start positive (Text.hexValue c) r
      else .error other) = .ok (n, t)) :
    t <:+ c :: r ∧ Text.isAsciiDigit c = true ∧ ∀ rest, Ends rest →
      readExponentDigits negative significand start positive (Text.hexValue c) (r ++ rest) =
        .ok (n, t ++ rest) := by
  split at read
  · next digit =>
      have takes := readExponentDigits_takesFront negative significand start positive
        (Text.hexValue c)
      exact ⟨takes.behind read c, digit, fun rest ends => takes.longer read ends⟩
  · cases read

theorem readExponent_takesFront (negative : Bool) (significand : Nat) (start : Int) :
    TakesFront (readExponent negative significand start) := by
  intro s n t read
  cases s with
  | nil => cases read
  | cons d s =>
      by_cases signed : d = '+' ∨ d = '-'
      · cases s with
        | nil => rcases signed with rfl | rfl <;> cases read
        | cons c r =>
            rcases signed with rfl | rfl
            · obtain ⟨part, digit, longer⟩ :=
                exponentDigits_takesFront negative significand start true read
              refine ⟨part.trans (List.suffix_cons _ _), fun rest ends => ?_⟩
              exact (if_pos digit).trans (longer rest ends)
            · obtain ⟨part, digit, longer⟩ :=
                exponentDigits_takesFront negative significand start false read
              refine ⟨part.trans (List.suffix_cons _ _), fun rest ends => ?_⟩
              exact (if_pos digit).trans (longer rest ends)
      · have plain (r : Text) : readExponent negative significand start (d :: r) =
            if Text.isAsciiDigit d then
              readExponentDigits negative significand start true (Text.hexValue d) r
            else .error (.ahead .invalidNumber (d :: r)) := by
          unfold readExponent
          split
          next positive s shown =>
            split at shown
            · next h =>
                cases h
                exact absurd (.inl rfl) signed
            · next h =>
                cases h
                exact absurd (.inr rfl) signed
            · cases shown
              rfl
        rw [plain] at read
        obtain ⟨part, digit, longer⟩ :=
          exponentDigits_takesFront negative significand start true read
        refine ⟨part, fun rest ends => ?_⟩
        rw [List.cons_append, plain, if_pos digit]
        exact longer rest ends

theorem finishFraction_takesFront (negative : Bool) (significand : Nat) (exponent : Int) :
    TakesFront (finishFraction negative significand exponent) := by
  intro s n t read
  have plain (s : Text) (other : ∀ r, s ≠ 'e' :: r ∧ s ≠ 'E' :: r) :
      finishFraction negative significand exponent s =
        finishReal negative significand exponent s := by
    unfold finishFraction
    split
    · exact absurd rfl (other _).1
    · exact absurd rfl (other _).2
    · rfl
  have finish := finishReal_takesFront negative significand exponent
  have power := readExponent_takesFront negative significand exponent
  cases s with
  | nil =>
      refine ⟨(finish _ _ _ read).1, fun rest ends => ?_⟩
      rw [List.nil_append, plain rest]
      · exact finish.longer (s := []) read ends
      · intro r
        constructor
        · rintro rfl
          rcases ends 'e' rfl with h | h | h <;> cases h
        · rintro rfl
          rcases ends 'E' rfl with h | h | h <;> cases h
  | cons c s =>
      by_cases letter : c = 'e' ∨ c = 'E'
      · rcases letter with rfl | rfl
        · exact ⟨power.behind read 'e', fun rest ends => power.longer read ends⟩
        · exact ⟨power.behind read 'E', fun rest ends => power.longer read ends⟩
      · have same (r : Text) := plain (c :: r) fun r' => ⟨fun h => letter (.inl (List.cons.inj h).1),
          fun h => letter (.inr (List.cons.inj h).1)⟩
        rw [same] at read
        simp only [List.cons_append, same]
        exact finish _ _ _ read

theorem readFraction_takesFront (negative : Bool) (start : Int) (significand count : Nat) :
    TakesFront (readFraction negative start significand count) := by
  intro s
  induction s generalizing significand count with
  | nil =>
      intro n t read
      have finish := finishFraction_takesFront negative significand (start - count)
      rw [readFraction] at read
      split at read
      · cases read
      · next some =>
          refine ⟨(finish _ _ _ read).1, fun rest ends => ?_⟩
          have longer := finish.longer read ends
          cases rest with
          | nil => rwa [List.nil_append, readFraction, if_neg some]
          | cons c rest =>
              rwa [List.nil_append, readFraction, ends.not_digit rfl, if_neg Bool.false_ne_true,
                if_neg some]
  | cons c s ih =>
      intro n t read
      have finish := finishFraction_takesFront negative significand (start - count)
      simp only [List.cons_append, readFraction] at read ⊢
      cases digit : Text.isAsciiDigit c with
      | false =>
          simp only [digit, Bool.false_eq_true, if_false] at read ⊢
          split at read
          · cases read
          · next some =>
              simp only [if_neg some]
              exact finish _ _ _ read
      | true =>
          simp only [digit, if_true] at read ⊢
          split at read
          · next large =>
              refine ⟨(finish _ _ _ read).1.trans (List.dropWhile_suffix _), fun rest ends => ?_⟩
              have longer := finish.longer read ends
              rwa [if_pos large, ← List.cons_append, dropDigits_append _ ends]
          · next small =>
              simp only [if_neg small]
              exact ⟨(ih _ _ n t read).1.trans (List.suffix_cons c s), (ih _ _ n t read).2⟩

theorem Ends.ne_point {rest : Text} (ends : Ends rest) {c : Char} (first : c ∈ rest.head?) :
    c ≠ '.' := by
  rcases ends c first with rfl | rfl | rfl <;> decide

theorem readLongInteger_takesFront (negative : Bool) (significand exponent : Nat) :
    TakesFront (readLongInteger negative significand exponent) := by
  intro s
  induction s generalizing exponent with
  | nil =>
      intro n t read
      have finish := finishFraction_takesFront negative significand exponent
      refine ⟨(finish [] _ _ read).1, fun rest ends => ?_⟩
      have longer := finish.longer (s := []) read ends
      cases rest with
      | nil => simpa using read
      | cons c rest =>
          rwa [List.nil_append, readLongInteger, ends.not_digit rfl, if_neg Bool.false_ne_true,
            if_neg (ends.ne_point rfl)]
  | cons c s ih =>
      intro n t read
      simp only [List.cons_append, readLongInteger] at read ⊢
      split at read
      · next digit =>
          simp only [if_pos digit]
          exact ⟨(ih _ n t read).1.trans (List.suffix_cons c s), (ih _ n t read).2⟩
      · next other =>
          simp only [if_neg other]
          split at read
          · next point =>
              have takes := readFraction_takesFront negative exponent significand 0
              simp only [if_pos point]
              exact ⟨takes.behind read c, fun rest ends => takes.longer read ends⟩
          · next point =>
              simp only [if_neg point]
              exact finishFraction_takesFront _ _ _ _ _ _ read

theorem wholeNumber_takesFront (negative : Bool) (n : Nat) :
    TakesFront fun s => if !negative then .ok (.int n, s)
      else if n = 0 || 9223372036854775808 < n then finishReal true n 0 s
      else .ok (.int (-n), s) := by
  intro s m t read
  simp only at read ⊢
  split at read
  · next positive =>
      cases read
      exact ⟨List.suffix_refl _, fun rest _ => if_pos positive⟩
  · next signed =>
      simp only [if_neg signed]
      split at read
      · next large =>
          simp only [if_pos large]
          exact finishReal_takesFront _ _ _ _ _ _ read
      · next small =>
          cases read
          exact ⟨List.suffix_refl _, fun rest _ => if_neg small⟩

theorem finishInteger_takesFront (negative : Bool) (n : Nat) :
    TakesFront (finishInteger negative n) := by
  have plain (s : Text) (other : ∀ r, s ≠ '.' :: r ∧ s ≠ 'e' :: r ∧ s ≠ 'E' :: r) :
      finishInteger negative n s =
        if !negative then .ok (.int n, s)
        else if n = 0 || 9223372036854775808 < n then finishReal true n 0 s
        else .ok (.int (-n), s) := by
    unfold finishInteger
    split
    · exact absurd rfl (other _).1
    · exact absurd rfl (other _).2.1
    · exact absurd rfl (other _).2.2
    · rfl
  have whole := wholeNumber_takesFront negative n
  have fraction := readFraction_takesFront negative 0 n 0
  have power := readExponent_takesFront negative n 0
  intro s m t read
  cases s with
  | nil =>
      refine ⟨(whole [] _ _ read).1, fun rest ends => ?_⟩
      rw [List.nil_append, plain rest]
      · exact whole.longer (s := []) read ends
      · intro r
        refine ⟨?_, ?_, ?_⟩
        all_goals
          rintro rfl
          rcases ends _ rfl with h | h | h <;> cases h
  | cons c s =>
      by_cases special : c = '.' ∨ c = 'e' ∨ c = 'E'
      · rcases special with rfl | rfl | rfl
        · exact ⟨fraction.behind read _, fun rest ends => fraction.longer read ends⟩
        · exact ⟨power.behind read _, fun rest ends => power.longer read ends⟩
        · exact ⟨power.behind read _, fun rest ends => power.longer read ends⟩
      · rw [not_or, not_or] at special
        have same (r : Text) := plain (c :: r) fun _ =>
          ⟨fun h => special.1 (List.cons.inj h).1, fun h => special.2.1 (List.cons.inj h).1,
            fun h => special.2.2 (List.cons.inj h).1⟩
        rw [same] at read
        simp only [List.cons_append, same]
        exact whole _ _ _ read

theorem readInteger_takesFront (negative : Bool) (n : Nat) : TakesFront (readInteger negative n) := by
  intro s
  induction s generalizing n with
  | nil =>
      intro m t read
      have finish := finishInteger_takesFront negative n
      refine ⟨(finish [] _ _ read).1, fun rest ends => ?_⟩
      have longer := finish.longer (s := []) read ends
      cases rest with
      | nil => simpa using read
      | cons c rest =>
          rwa [List.nil_append, readInteger, ends.not_digit rfl, if_neg Bool.false_ne_true]
  | cons c s ih =>
      intro m t read
      simp only [List.cons_append, readInteger] at read ⊢
      split at read
      · next digit =>
          simp only [if_pos digit]
          split at read
          · next large =>
              simp only [if_pos large]
              exact readLongInteger_takesFront _ _ _ _ _ _ read
          · next small =>
              simp only [if_neg small]
              exact ⟨(ih _ m t read).1.trans (List.suffix_cons c s), (ih _ m t read).2⟩
      · next other =>
          simp only [if_neg other]
          exact finishInteger_takesFront _ _ _ _ _ read

theorem readNumber_cons (negative : Bool) {c : Char} {s : Text} (single : c = '0' → s = []) :
    readNumber negative (c :: s) =
      if Text.isAsciiDigit c then readInteger negative (Text.hexValue c) s
      else .error (.ahead .invalidNumber (c :: s)) := by
  unfold readNumber
  split
  · next h => cases h
  · next h =>
      cases h
      cases single rfl
  · next h =>
      cases h
      rfl

theorem readNumber_takesFront (negative : Bool) : TakesFront (readNumber negative) := by
  intro s n t read
  match s with
  | [] => cases read
  | c :: s =>
      by_cases zero : c = '0' ∧ s ≠ []
      · obtain ⟨rfl, more⟩ := zero
        obtain ⟨d, r, rfl⟩ := List.exists_cons_of_ne_nil more
        simp only [List.cons_append, readNumber] at read ⊢
        split at read
        · cases read
        · next other =>
            have takes := finishInteger_takesFront negative 0
            simp only [if_neg other]
            exact ⟨takes.behind read '0', fun rest ends => takes.longer read ends⟩
      · have takes := readInteger_takesFront negative (Text.hexValue c)
        rw [readNumber_cons negative fun first => by simpa [first] using zero] at read
        split at read
        · next digit =>
            refine ⟨takes.behind read c, fun rest ends => ?_⟩
            have longer := takes.longer read ends
            by_cases alone : c = '0' ∧ s ++ rest ≠ []
            · -- a zero that stood alone is now followed by what ends the value
              obtain ⟨rfl, more⟩ := alone
              have none : s = [] := by simpa using zero
              subst none
              obtain ⟨d, r, rfl⟩ := List.exists_cons_of_ne_nil more
              have other : ¬Text.isAsciiDigit d = true := by simp [ends.not_digit rfl]
              rw [List.nil_append, readInteger, if_neg other] at longer
              rwa [List.cons_append, List.nil_append, readNumber, if_neg other]
            · rw [List.cons_append,
                readNumber_cons negative fun first => by simpa [first] using alone, if_pos digit]
              exact longer
        · cases read

theorem hexValue_of_isDigit {c : Char} (digit : c.isDigit = true) :
    Text.hexValue c = c.toNat - '0'.toNat := by
  rw [Text.hexValue, if_pos (Text.isAsciiDigit_of_isDigit digit)]
  rfl

theorem le_ofDigitChars (digits : Text) (n : Nat) : n ≤ Nat.ofDigitChars 10 digits n := by
  rw [Nat.ofDigitChars_eq_ofDigitChars_zero]
  have grows := Nat.le_mul_of_pos_left n (Nat.pow_pos (n := digits.length) (by decide : 0 < 10))
  omega

theorem readInteger_digits (negative : Bool) {digits : Text}
    (decimal : ∀ c ∈ digits, c.isDigit = true) {n : Nat}
    (fits : Nat.ofDigitChars 10 digits n ≤ maxWord) :
    readInteger negative n digits = finishInteger negative (Nat.ofDigitChars 10 digits n) [] := by
  induction digits generalizing n with
  | nil => rfl
  | cons c digits ih =>
      obtain ⟨first, others⟩ := List.forall_mem_cons.1 decimal
      rw [Nat.ofDigitChars_cons] at fits ⊢
      have next : n * 10 + Text.hexValue c = 10 * n + (c.toNat - '0'.toNat) := by
        rw [hexValue_of_isDigit first, Nat.mul_comm]
      have small : ¬maxWord < 10 * n + (c.toNat - '0'.toNat) :=
        Nat.not_lt.2 (Nat.le_trans (le_ofDigitChars digits _) fits)
      rw [readInteger, if_pos (Text.isAsciiDigit_of_isDigit first)]
      simp only [next, if_neg small]
      exact ih others fits

theorem ofNat_zero_cons {n : Nat} {s : Text} (shown : Text.ofNat n = '0' :: s) : s = [] := by
  induction n using Nat.strongRecOn generalizing s with
  | ind n ih =>
      rw [Text.ofNat, Nat.toDigits_eq_if (by decide)] at shown
      split at shown
      · exact (List.cons.inj shown).2.symm
      · next large =>
          obtain ⟨front, whole⟩ : ∃ front, Nat.toDigits 10 (n / 10) = '0' :: front := by
            obtain ⟨d, front, whole⟩ := List.exists_cons_of_ne_nil
              (Nat.toDigits_ne_nil (b := 10) (n := n / 10))
            rw [whole] at shown
            exact ⟨front, (List.cons.inj shown).1 ▸ whole⟩
          have alone := ih (n / 10) (by omega) whole
          have back := Nat.ofDigitChars_ten_toDigits (n := n / 10)
          rw [whole, alone] at back
          have zero : Nat.ofDigitChars 10 ['0'] 0 = 0 := rfl
          omega

theorem readNumber_ofNat (negative : Bool) {n : Nat} (fits : n ≤ maxWord) :
    readNumber negative (Text.ofNat n) = finishInteger negative n [] := by
  have back : Nat.ofDigitChars 10 (Text.ofNat n) 0 = n := Nat.ofDigitChars_ten_toDigits
  have decimal : ∀ c ∈ Text.ofNat n, c.isDigit = true := fun _ => isDigit_ofNat
  have single : ∀ s, Text.ofNat n = '0' :: s → s = [] := fun _ => ofNat_zero_cons
  obtain ⟨c, s, shown⟩ := List.exists_cons_of_ne_nil (Nat.toDigits_ne_nil (b := 10) (n := n))
  rw [Text.ofNat, shown] at back decimal single ⊢
  obtain ⟨first, others⟩ := List.forall_mem_cons.1 decimal
  rw [Nat.ofDigitChars_cons, Nat.mul_zero, Nat.zero_add] at back
  rw [readNumber_cons negative fun zero => single s (zero ▸ rfl),
    if_pos (Text.isAsciiDigit_of_isDigit first), hexValue_of_isDigit first]
  have fitting : Nat.ofDigitChars 10 s (c.toNat - '0'.toNat) ≤ maxWord := back ▸ fits
  rw [readInteger_digits negative others fitting, back]

end Json

/-- Numbers that the reader gives back from their text: the integers of 64 bits, and of the others
those that its one multiplication or division gives exactly. -/
def JsonNumber.ReadsBack : JsonNumber → Prop
  | .int n => -9223372036854775808 ≤ n ∧ n ≤ Json.maxWord
  | .real x =>
      (Json.readNumber x.negative (Json.decimalText x.shortest)).toOption = some (.real x, [])

instance (n : JsonNumber) : Decidable n.ReadsBack :=
  match n with
  | .int _ => inferInstanceAs (Decidable (_ ∧ _))
  | .real _ => inferInstanceAs (Decidable (_ = some _))

namespace Json

theorem readNumber_head {negative : Bool} {s t : Text} {n : JsonNumber}
    (read : readNumber negative s = .ok (n, t)) :
    ∃ c r, s = c :: r ∧ Text.isAsciiDigit c = true := by
  cases s with
  | nil => cases read
  | cons c r =>
      refine ⟨c, r, rfl, ?_⟩
      by_contra other
      have zero : c ≠ '0' := by
        rintro rfl
        exact other rfl
      rw [readNumber_cons negative fun first => absurd first zero, if_neg other] at read
      cases read

theorem numberText_signed {n : JsonNumber} (back : n.ReadsBack) :
    ∃ negative s, numberText n = (if negative then ['-'] else []) ++ s ∧
      readNumber negative s = .ok (n, []) := by
  match n with
  | .real x =>
      refine ⟨x.negative, decimalText x.shortest, rfl, ?_⟩
      rw [JsonNumber.ReadsBack] at back
      cases read : readNumber x.negative (decimalText x.shortest) with
      | error f =>
          rw [read] at back
          cases back
      | ok found =>
          rw [read] at back
          rw [Option.some.inj back]
  | .int (.ofNat n) =>
      refine ⟨false, Text.ofNat n, rfl, ?_⟩
      rw [readNumber_ofNat false (Int.ofNat_le.1 back.2)]
      rfl
  | .int (.negSucc n) =>
      have low := back.1
      refine ⟨true, Text.ofNat (n + 1), rfl, ?_⟩
      rw [readNumber_ofNat true (by rw [maxWord]; omega)]
      have small : ¬(n + 1 = 0 || 9223372036854775808 < n + 1) = true := by
        simp only [Bool.or_eq_true, decide_eq_true_eq]
        omega
      exact if_neg small

end Json
end LivePage
