import LivePage.Json.Printer
import LivePage.Proofs.Render.Values
import Mathlib.Tactic.SplitIfs

/-!
The characters of printed JSON. Control characters in strings are escaped, and all else is written
with digits, letters and marks, so no printed value has a control character in it.
-/

namespace LivePage

/-- Without control characters of ASCII below the space. -/
def Text.Printable (s : Text) : Prop := ∀ c ∈ s, 32 ≤ c.toNat

instance (s : Text) : Decidable s.Printable :=
  List.decidableBAll (fun c : Char => 32 ≤ c.toNat) s

namespace Text

theorem Printable.append {s t : Text} (first : s.Printable) (second : t.Printable) :
    (s ++ t).Printable :=
  List.forall_mem_append.2 ⟨first, second⟩

theorem Printable.plain {s : Text} (printable : s.Printable) : s.Plain := by
  intro c member
  have low := printable c member
  constructor
  · rintro rfl
    exact absurd low (by decide)
  · rintro rfl
    exact absurd low (by decide)

end Text

namespace Json

open Text (Printable)

theorem printable_escapeChar (c : Char) : Printable (escapeChar c) := by
  have code : ∀ n < 32, Printable ("\\u".toList ++ Text.padLeft 4 '0' (Text.hexOfNat n)) := by
    decide
  unfold escapeChar
  split_ifs with _ _ _ _ _ _ _ control
  · decide
  · decide
  · decide
  · decide
  · decide
  · decide
  · decide
  · exact code c.toNat control
  · exact List.forall_mem_singleton.2 (Nat.not_lt.1 control)

theorem printable_quote (s : Text) : (quote s).Printable := by
  refine .append (.append (by decide) ?_) (by decide)
  intro c member
  obtain ⟨d, _, member⟩ := List.mem_flatMap.1 member
  exact printable_escapeChar d c member

section Numbers

variable {p : Char → Prop} (digit : ∀ c, c.isDigit = true → p c)
  (mark : ∀ c ∈ ['-', '+', '.', 'e'], p c)

include digit

theorem forall_mem_ofNat (n : Nat) : ∀ c ∈ Text.ofNat n, p c :=
  fun c member => digit c (isDigit_ofNat member)

include mark

theorem forall_mem_exponentText (e : Int) : ∀ c ∈ exponentText e, p c := by
  have letter := mark 'e' (by decide)
  unfold exponentText
  split
  · have sign := mark '+' (by decide)
    exact List.forall_mem_append.2 ⟨List.forall_mem_cons.2 ⟨letter, List.forall_mem_singleton.2 sign⟩,
      forall_mem_ofNat digit _⟩
  · have sign := mark '-' (by decide)
    exact List.forall_mem_append.2 ⟨List.forall_mem_cons.2 ⟨letter, List.forall_mem_singleton.2 sign⟩,
      forall_mem_ofNat digit _⟩

theorem forall_mem_decimalText (d : Decimal) : ∀ c ∈ decimalText d, p c := by
  have point := mark '.' (by decide)
  have zero := digit '0' rfl
  have digits := forall_mem_ofNat digit d.digits
  have zeros (n : Nat) : ∀ c ∈ List.replicate n '0', p c :=
    fun c member => List.eq_of_mem_replicate member ▸ zero
  unfold decimalText
  simp only
  split_ifs
  · refine List.forall_mem_append.2 ⟨List.forall_mem_append.2 ⟨digits, zeros _⟩, ?_⟩
    exact List.forall_mem_cons.2 ⟨point, List.forall_mem_singleton.2 zero⟩
  · refine List.forall_mem_append.2 ⟨List.forall_mem_append.2 ⟨?_, ?_⟩, ?_⟩
    · exact fun c member => digits c (List.mem_of_mem_take member)
    · exact List.forall_mem_singleton.2 point
    · exact fun c member => digits c (List.mem_of_mem_drop member)
  · refine List.forall_mem_append.2 ⟨List.forall_mem_append.2 ⟨?_, zeros _⟩, digits⟩
    exact List.forall_mem_cons.2 ⟨zero, List.forall_mem_singleton.2 point⟩
  · split
    · exact nofun
    · next c shown =>
        rw [shown] at digits
        exact List.forall_mem_cons.2
          ⟨digits c List.mem_cons_self, forall_mem_exponentText digit mark _⟩
    · next c rest _ shown =>
        rw [shown] at digits
        obtain ⟨first, others⟩ := List.forall_mem_cons.1 digits
        exact List.forall_mem_append.2 ⟨List.forall_mem_cons.2 ⟨first,
          List.forall_mem_cons.2 ⟨point, others⟩⟩, forall_mem_exponentText digit mark _⟩

theorem forall_mem_numberText (n : JsonNumber) : ∀ c ∈ numberText n, p c := by
  have minus := mark '-' (by decide)
  match n with
  | .int (.ofNat n) => exact forall_mem_ofNat digit n
  | .int (.negSucc n) => exact List.forall_mem_cons.2 ⟨minus, forall_mem_ofNat digit (n + 1)⟩
  | .real x =>
      refine List.forall_mem_append.2 ⟨?_, forall_mem_decimalText digit mark _⟩
      split
      · exact List.forall_mem_singleton.2 minus
      · exact nofun

end Numbers

theorem printable_numberText (n : JsonNumber) : (numberText n).Printable := by
  refine forall_mem_numberText ?_ (by decide) n
  intro c digit
  simp only [Char.isDigit, Bool.and_eq_true, decide_eq_true_eq, ge_iff_le,
    UInt32.le_iff_toNat_le] at digit
  exact Nat.le_trans (by decide) digit.1

mutual

theorem printable_print (v : Json) : (print v).Printable := by
  cases v with
  | null => decide
  | bool b => cases b <;> decide
  | number n => exact printable_numberText n
  | string s => exact printable_quote s
  | array items => exact .append (.append (by decide) (printable_printItems items)) (by decide)
  | object fields => exact .append (.append (by decide) (printable_printFields fields)) (by decide)

theorem printable_printItems (items : List Json) : (printItems items).Printable := by
  match items with
  | [] => exact nofun
  | [v] => exact printable_print v
  | v :: w :: rest =>
      exact .append (.append (printable_print v) (by decide)) (printable_printItems (w :: rest))

theorem printable_printFields (fields : List (Text × Json)) : (printFields fields).Printable := by
  match fields with
  | [] => exact nofun
  | [(k, v)] => exact .append (.append (printable_quote k) (by decide)) (printable_print v)
  | (k, v) :: f :: rest =>
      have first := ((printable_quote k).append (t := [':']) (by decide)).append (printable_print v)
      exact .append (.append first (by decide)) (printable_printFields (f :: rest))

end

end Json
end LivePage
