import LivePage.Proofs.Json.Marks

/-!
A backslash between the two characters that open an end tag changes nothing about what is read from
JSON text. Outside of strings a text with an end tag is no JSON, with or without the backslash; in a
string the slash may be written as an escape. This module follows the reader through numbers and
strings; what it makes of whole texts is another matter.
-/

namespace LivePage.Json

/-- The text with a backslash between the two characters that open an end tag. -/
def shielded (s : Text) : Text := Text.replace "</" "<\\/" s

@[simp] theorem shielded_nil : shielded [] = [] := rfl

theorem shielded_cons {c : Char} (other : c ≠ '<') (s : Text) :
    shielded (c :: s) = c :: shielded s := by
  have absent : ("</".toList).isPrefixOf (c :: s) = false := by
    simp [List.isPrefixOf, Ne.symm other]
  exact Text.replace_cons absent _

/-- What stands behind a bracket is read as before, but for a backslash in front of a slash. -/
theorem shielded_bracket (s : Text) :
    (∃ r, s = '/' :: r ∧ shielded ('<' :: s) = '<' :: '\\' :: shielded s) ∨
      shielded ('<' :: s) = '<' :: shielded s := by
  by_cases slash : s.head? = some '/'
  · obtain ⟨r, rfl⟩ := List.head?_eq_some_iff.1 slash
    exact .inl ⟨r, rfl, rfl⟩
  · refine .inr (Text.replace_cons ?_ _)
    cases s with
    | nil => rfl
    | cons d s =>
        have other : '/' ≠ d := fun same => slash (congrArg some same.symm)
        simp [List.isPrefixOf, other]

theorem exists_shielded_cons (c : Char) (s : Text) : ∃ t, shielded (c :: s) = c :: t := by
  by_cases bracket : c = '<'
  · subst bracket
    obtain ⟨_, _, shown⟩ | shown := shielded_bracket s
    · exact ⟨_, shown⟩
    · exact ⟨_, shown⟩
  · exact ⟨_, shielded_cons bracket s⟩

theorem length_le_shielded (s : Text) : s.length ≤ (shielded s).length := by
  induction s with
  | nil => exact Nat.le_refl 0
  | cons c s ih =>
      by_cases bracket : c = '<'
      · subst bracket
        obtain ⟨_, _, shown⟩ | shown := shielded_bracket s
        · rw [shown]
          simp only [List.length_cons]
          omega
        · rw [shown]
          exact Nat.succ_le_succ ih
      · rw [shielded_cons bracket]
        exact Nat.succ_le_succ ih

theorem shielded_append {p : Text} (free : '<' ∉ p) (s : Text) :
    shielded (p ++ s) = p ++ shielded s := by
  induction p with
  | nil => rfl
  | cons c p ih =>
      rw [List.mem_cons, not_or] at free
      rw [List.cons_append, shielded_cons (Ne.symm free.1), ih free.2, List.cons_append]

theorem prefix_of_prefix_shielded {p s : Text} (free : '<' ∉ p) (leads : p <+: shielded s) :
    p <+: s := by
  induction p generalizing s with
  | nil => exact List.nil_prefix
  | cons c p ih =>
      rw [List.mem_cons, not_or] at free
      cases s with
      | nil => exact leads
      | cons d s =>
          have first : c = d := by
            obtain ⟨t, shown⟩ := exists_shielded_cons d s
            rw [shown, List.cons_prefix_cons] at leads
            exact leads.1
          subst first
          rw [shielded_cons (Ne.symm free.1), List.cons_prefix_cons] at leads
          exact List.cons_prefix_cons.2 ⟨rfl, ih free.2 leads.2⟩

theorem dropWhile_shielded {p : Char → Bool} (bracket : p '<' = false) (s : Text) :
    (shielded s).dropWhile p = shielded (s.dropWhile p) := by
  induction s with
  | nil => rfl
  | cons c s ih =>
      cases passed : p c with
      | true =>
          have other : c ≠ '<' := by
            rintro rfl
            rw [bracket] at passed
            cases passed
          rw [shielded_cons other, List.dropWhile_cons, List.dropWhile_cons, if_pos passed,
            if_pos passed, ih]
      | false =>
          obtain ⟨t, shown⟩ := exists_shielded_cons c s
          have stays (r : Text) : (c :: r).dropWhile p = c :: r := by
            simp [passed]
          rw [stays, shown, stays]

theorem skipBlank_shielded (s : Text) : skipBlank (shielded s) = shielded (skipBlank s) :=
  dropWhile_shielded rfl s

/-- Both fail, or both give the same, and leave texts of which the second is the first shielded. -/
inductive Alike {α : Type} (within : Text) :
    Except Fault (α × Text) → Except Fault (α × Text) → Prop where
  | ok {x : α} {r : Text} : r <:+ within → Alike within (.ok (x, r)) (.ok (x, shielded r))
  | error {f g : Fault} : Alike within (.error f) (.error g)

def Follows {α : Type} (read : Text → Except Fault (α × Text)) : Prop :=
  ∀ s, Alike s (read s) (read (shielded s))

section Alike

variable {α β : Type} {s : Text} {x y : Except Fault (α × Text)}

theorem Alike.mono {t : Text} (alike : Alike s x y) (part : s <:+ t) : Alike t x y := by
  cases alike with
  | ok behind => exact .ok (behind.trans part)
  | error => exact .error

theorem Alike.behind (alike : Alike s x y) (c : Char) : Alike (c :: s) x y :=
  alike.mono (List.suffix_cons c s)

theorem Alike.bind {f : α × Text → Except Fault (β × Text)} (alike : Alike s x y)
    (next : ∀ a r, Alike r (f (a, r)) (f (a, shielded r))) : Alike s (x >>= f) (y >>= f) := by
  cases alike with
  | ok behind => exact (next _ _).mono behind
  | error => exact .error

end Alike

theorem Follows.of_head {α : Type} {read finish : Text → Except Fault (α × Text)}
    (follows : Follows finish) {c : Char} (same : ∀ t, read (c :: t) = finish (c :: t)) (s : Text) :
    Alike (c :: s) (read (c :: s)) (read (shielded (c :: s))) := by
  have alike := follows (c :: s)
  obtain ⟨t, shown⟩ := exists_shielded_cons c s
  rw [shown] at alike ⊢
  rwa [same, same]

theorem ne_bracket_of_digit {c : Char} (digit : Text.isAsciiDigit c = true) : c ≠ '<' := by
  rintro rfl
  cases digit

theorem finishReal_follows (negative : Bool) (significand : Nat) (exponent : Int) :
    Follows (finishReal negative significand exponent) := by
  intro s
  unfold finishReal
  cases ofParts? significand exponent with
  | none => exact .error
  | some x => exact .ok (List.suffix_refl s)

theorem readExponentDigits_follows (negative : Bool) (significand : Nat) (start : Int)
    (positive : Bool) (e : Nat) :
    Follows (readExponentDigits negative significand start positive e) := by
  intro s
  induction s generalizing e with
  | nil =>
      rw [shielded_nil, readExponentDigits]
      exact finishReal_follows _ _ _ []
  | cons c s ih =>
      cases digit : Text.isAsciiDigit c with
      | false =>
          have finish := finishReal_follows negative significand
            (clampExponent (if positive then start + e else start - e))
          refine finish.of_head (fun t => ?_) s
          simp only [readExponentDigits, digit, Bool.false_eq_true, if_false]
      | true =>
          rw [shielded_cons (ne_bracket_of_digit digit)]
          simp only [readExponentDigits, digit, if_true]
          split
          · split
            · exact .error
            · rw [dropWhile_shielded rfl]
              exact .ok ((List.dropWhile_suffix _).trans (List.suffix_cons c s))
          · exact (ih _).behind c

/-- The digits of an exponent, of which there is one at least. -/
def readExponentFrom (negative : Bool) (significand : Nat) (start : Int) (positive : Bool)
    (s : Text) : Except Fault (JsonNumber × Text) :=
  match s with
  | [] => .error (.here .endInValue [])
  | c :: r =>
      if Text.isAsciiDigit c then
        readExponentDigits negative significand start positive (Text.hexValue c) r
      else .error (.ahead .invalidNumber s)

theorem readExponent_cons (negative : Bool) (significand : Nat) (start : Int) (c : Char) (s : Text) :
    readExponent negative significand start (c :: s) =
      if c = '+' then readExponentFrom negative significand start true s
      else if c = '-' then readExponentFrom negative significand start false s
      else readExponentFrom negative significand start true (c :: s) := by
  by_cases plus : c = '+'
  · subst plus
    rfl
  · by_cases minus : c = '-'
    · subst minus
      rfl
    · rw [if_neg plus, if_neg minus]
      unfold readExponent
      split
      next positive r shown =>
        split at shown
        · next h => exact absurd (List.cons.inj h).1 plus
        · next h => exact absurd (List.cons.inj h).1 minus
        · cases shown
          rfl

theorem readExponentFrom_follows (negative : Bool) (significand : Nat) (start : Int)
    (positive : Bool) : Follows (readExponentFrom negative significand start positive) := by
  intro s
  cases s with
  | nil => exact .error
  | cons c s =>
      cases digit : Text.isAsciiDigit c with
      | false =>
          obtain ⟨t, shown⟩ := exists_shielded_cons c s
          rw [shown]
          simp only [readExponentFrom, digit, Bool.false_eq_true, if_false]
          exact .error
      | true =>
          rw [shielded_cons (ne_bracket_of_digit digit)]
          simp only [readExponentFrom, digit, if_true]
          exact (readExponentDigits_follows _ _ _ _ _ s).behind c

theorem readExponent_follows (negative : Bool) (significand : Nat) (start : Int) :
    Follows (readExponent negative significand start) := by
  intro s
  cases s with
  | nil => exact .error
  | cons c s =>
      by_cases plus : c = '+'
      · subst plus
        exact (readExponentFrom_follows negative significand start true s).behind _
      · by_cases minus : c = '-'
        · subst minus
          exact (readExponentFrom_follows negative significand start false s).behind _
        · refine (readExponentFrom_follows negative significand start true).of_head (fun t => ?_) s
          rw [readExponent_cons, if_neg plus, if_neg minus]

theorem finishFraction_cons (negative : Bool) (significand : Nat) (exponent : Int) (c : Char)
    (s : Text) : finishFraction negative significand exponent (c :: s) =
      if c = 'e' ∨ c = 'E' then readExponent negative significand exponent s
      else finishReal negative significand exponent (c :: s) := by
  unfold finishFraction
  split <;> simp_all

theorem finishFraction_follows (negative : Bool) (significand : Nat) (exponent : Int) :
    Follows (finishFraction negative significand exponent) := by
  intro s
  cases s with
  | nil => exact finishReal_follows negative significand exponent []
  | cons c s =>
      by_cases letter : c = 'e' ∨ c = 'E'
      · have other : c ≠ '<' := by rcases letter with rfl | rfl <;> decide
        rw [shielded_cons other, finishFraction_cons, finishFraction_cons, if_pos letter,
          if_pos letter]
        exact (readExponent_follows negative significand exponent s).behind c
      · refine (finishReal_follows negative significand exponent).of_head (fun t => ?_) s
        rw [finishFraction_cons, if_neg letter]

theorem readFraction_follows (negative : Bool) (start : Int) (significand count : Nat) :
    Follows (readFraction negative start significand count) := by
  intro s
  induction s generalizing significand count with
  | nil =>
      have finish := finishFraction_follows negative significand (start - count) []
      rw [shielded_nil] at finish ⊢
      rw [readFraction]
      split
      · exact .error
      · exact finish
  | cons c s ih =>
      have finish := finishFraction_follows negative significand (start - count) (c :: s)
      cases digit : Text.isAsciiDigit c with
      | false =>
          obtain ⟨t, shown⟩ := exists_shielded_cons c s
          rw [shown] at finish ⊢
          simp only [readFraction, digit, Bool.false_eq_true, if_false]
          split
          · exact .error
          · exact finish
      | true =>
          have dropped := finishFraction_follows negative significand (start - count)
            ((c :: s).dropWhile Text.isAsciiDigit)
          have other := ne_bracket_of_digit digit
          rw [← dropWhile_shielded rfl, shielded_cons other] at dropped
          rw [shielded_cons other]
          simp only [readFraction, digit, if_true]
          split
          · exact dropped.mono (List.dropWhile_suffix _)
          · exact (ih _ _).behind c

theorem readLongInteger_follows (negative : Bool) (significand exponent : Nat) :
    Follows (readLongInteger negative significand exponent) := by
  intro s
  induction s generalizing exponent with
  | nil => exact finishReal_follows negative significand exponent []
  | cons c s ih =>
      cases digit : Text.isAsciiDigit c with
      | true =>
          rw [shielded_cons (ne_bracket_of_digit digit)]
          simp only [readLongInteger, digit, if_true]
          exact (ih _).behind c
      | false =>
          by_cases point : c = '.'
          · subst point
            exact (readFraction_follows negative exponent significand 0 s).behind _
          · refine (finishFraction_follows negative significand exponent).of_head (fun t => ?_) s
            simp only [readLongInteger, digit, Bool.false_eq_true, if_false, if_neg point]

/-- An integer that has ended, in the reading of its sign. -/
def wholeNumber (negative : Bool) (n : Nat) (s : Text) : Except Fault (JsonNumber × Text) :=
  if !negative then .ok (.int n, s)
  else if n = 0 || 9223372036854775808 < n then finishReal true n 0 s
  else .ok (.int (-n), s)

theorem finishInteger_cons (negative : Bool) (n : Nat) (c : Char) (s : Text) :
    finishInteger negative n (c :: s) =
      if c = '.' then readFraction negative 0 n 0 s
      else if c = 'e' ∨ c = 'E' then readExponent negative n 0 s
      else wholeNumber negative n (c :: s) := by
  unfold finishInteger wholeNumber
  split <;> simp_all

theorem wholeNumber_follows (negative : Bool) (n : Nat) : Follows (wholeNumber negative n) := by
  intro s
  unfold wholeNumber
  split
  · exact .ok (List.suffix_refl s)
  · split
    · exact finishReal_follows true n 0 s
    · exact .ok (List.suffix_refl s)

theorem finishInteger_follows (negative : Bool) (n : Nat) : Follows (finishInteger negative n) := by
  intro s
  cases s with
  | nil => exact wholeNumber_follows negative n []
  | cons c s =>
      by_cases point : c = '.'
      · subst point
        exact (readFraction_follows negative 0 n 0 s).behind _
      · by_cases letter : c = 'e' ∨ c = 'E'
        · have other : c ≠ '<' := by rcases letter with rfl | rfl <;> decide
          simp only [shielded_cons other, finishInteger_cons, if_neg point, if_pos letter]
          exact (readExponent_follows negative n 0 s).behind c
        · refine (wholeNumber_follows negative n).of_head (fun t => ?_) s
          rw [finishInteger_cons, if_neg point, if_neg letter]

theorem readInteger_follows (negative : Bool) (n : Nat) : Follows (readInteger negative n) := by
  intro s
  induction s generalizing n with
  | nil => exact finishInteger_follows negative n []
  | cons c s ih =>
      cases digit : Text.isAsciiDigit c with
      | true =>
          have long := readLongInteger_follows negative n 0 (c :: s)
          have other := ne_bracket_of_digit digit
          rw [shielded_cons other] at long ⊢
          simp only [readInteger, digit, if_true]
          split
          · exact long
          · exact (ih _).behind c
      | false =>
          refine (finishInteger_follows negative n).of_head (fun t => ?_) s
          simp only [readInteger, digit, Bool.false_eq_true, if_false]

/-- A number takes one character at least. -/
theorem readNumber_follows (negative : Bool) (c : Char) (s : Text) :
    Alike s (readNumber negative (c :: s)) (readNumber negative (shielded (c :: s))) := by
  cases digit : Text.isAsciiDigit c with
  | false =>
      have zero : c ≠ '0' := by
        rintro rfl
        cases digit
      obtain ⟨t, shown⟩ := exists_shielded_cons c s
      rw [shown, readNumber_cons negative fun first => absurd first zero,
        readNumber_cons negative fun first => absurd first zero, digit]
      exact .error
  | true =>
      rw [shielded_cons (ne_bracket_of_digit digit)]
      by_cases leading : c = '0' ∧ s ≠ []
      · obtain ⟨rfl, more⟩ := leading
        obtain ⟨d, r, rfl⟩ := List.exists_cons_of_ne_nil more
        have finish := finishInteger_follows negative 0 (d :: r)
        obtain ⟨t, shown⟩ := exists_shielded_cons d r
        rw [shown] at finish ⊢
        simp only [readNumber]
        split
        · exact .error
        · exact finish
      · have alone : c = '0' → s = [] := fun first => by simpa [first] using leading
        have alone' : c = '0' → shielded s = [] := fun first => by rw [alone first, shielded_nil]
        rw [readNumber_cons negative alone, readNumber_cons negative alone', if_pos digit,
          if_pos digit]
        exact readInteger_follows negative _ s

theorem length_le_byteLength (s : Text) : s.length ≤ Text.byteLength s := by
  have grows (n : Nat) : n + s.length ≤ s.foldl (fun n c => n + c.utf8Size) n := by
    induction s generalizing n with
    | nil => exact Nat.le_refl n
    | cons c s ih =>
        have size := c.utf8Size_pos
        have rest := ih (n + c.utf8Size)
        simp only [List.length_cons, List.foldl_cons]
        omega
  have whole := grows 0
  rwa [Nat.zero_add] at whole

theorem readHex_eq_ok_iff {s r : Text} {n : Nat} :
    readHex s = .ok (n, r) ↔
      ∃ p, p.length = 4 ∧ p.all Text.isHexDigit = true ∧ s = p ++ r ∧ n = Text.readNat 16 p := by
  constructor
  · intro read
    unfold readHex at read
    split at read
    · cases read
    · simp only at read
      split at read
      · next valid =>
          cases read
          rw [Bool.and_eq_true, decide_eq_true_eq] at valid
          exact ⟨s.take 4, valid.1, valid.2, (List.take_append_drop 4 s).symm, rfl⟩
      · cases read
  · rintro ⟨p, four, digits, rfl, rfl⟩
    have bytes := Nat.le_trans (length_le_byteLength p) (le_byteLength_append p r)
    rw [readHex, if_neg (by omega), List.take_left' four, List.drop_left' four]
    simp [four, digits]

theorem not_mem_bracket_of_hex {p : Text} (digits : p.all Text.isHexDigit = true) : '<' ∉ p := by
  intro member
  have digit := List.all_eq_true.1 digits '<' member
  cases digit

theorem readHex_follows : Follows readHex := by
  intro s
  cases read : readHex s with
  | ok found =>
      obtain ⟨p, four, digits, rfl, value⟩ := readHex_eq_ok_iff.1 read
      have same : readHex (shielded (p ++ found.2)) = .ok (found.1, shielded found.2) :=
        readHex_eq_ok_iff.2
          ⟨p, four, digits, shielded_append (not_mem_bracket_of_hex digits) found.2, value⟩
      rw [same]
      exact .ok (List.suffix_append p found.2)
  | error f =>
      cases read' : readHex (shielded s) with
      | error g => exact .error
      | ok found =>
          -- digits that a shielded text begins with were there before
          obtain ⟨p, four, digits, shown, value⟩ := readHex_eq_ok_iff.1 read'
          obtain ⟨r, rfl⟩ := prefix_of_prefix_shielded (not_mem_bracket_of_hex digits)
            (shown ▸ List.prefix_append p found.2)
          have same : readHex (p ++ r) = .ok (found.1, r) :=
            readHex_eq_ok_iff.2 ⟨p, four, digits, rfl, value⟩
          rw [same] at read
          cases read

theorem readLowSurrogate_follows (high : Nat) : Follows (readLowSurrogate high) := by
  have other {c : Char} (no : c ≠ '\\') (s : Text) :
      ∃ f, readLowSurrogate high (c :: s) = .error f := by
    unfold readLowSurrogate
    split
    · next h => cases h
    · next h => exact absurd (List.cons.inj h).1 no
    · exact ⟨_, rfl⟩
  have behind {c : Char} (no : c ≠ 'u') (s : Text) :
      ∃ f, readLowSurrogate high ('\\' :: c :: s) = .error f := by
    simp only [readLowSurrogate]
    split
    · next h => cases h
    · next h => exact absurd (List.cons.inj h).1 no
    · exact ⟨_, rfl⟩
  intro s
  match s with
  | [] => exact .error
  | c :: s =>
      by_cases backslash : c = '\\'
      · subst backslash
        match s with
        | [] => exact .error
        | d :: s =>
            by_cases letter : d = 'u'
            · subst letter
              refine (Alike.bind (readHex_follows s) ?_).mono
                ((List.suffix_cons _ s).trans (List.suffix_cons _ _))
              intro low r
              simp only
              split
              · exact .ok (List.suffix_refl r)
              · exact .error
            · obtain ⟨t, shown⟩ := exists_shielded_cons d s
              obtain ⟨f, fails⟩ := behind letter s
              obtain ⟨g, fails'⟩ := behind letter t
              rw [shielded_cons (by decide), shown, fails, fails']
              exact .error
      · obtain ⟨t, shown⟩ := exists_shielded_cons c s
        obtain ⟨f, fails⟩ := other backslash s
        obtain ⟨g, fails'⟩ := other backslash t
        rw [shown, fails, fails']
        exact .error

/-- The characters that an escape of one letter or mark stands for. -/
def simpleEscape? (c : Char) : Option Char :=
  if c = '\x22' then some '\x22'
  else if c = '\\' then some '\\'
  else if c = '/' then some '/'
  else if c = 'b' then some '\x08'
  else if c = 'f' then some '\x0c'
  else if c = 'n' then some '\n'
  else if c = 'r' then some '\r'
  else if c = 't' then some '\t'
  else none

/-- The character with the code that is written in digits. -/
def readCode (s : Text) : Except Fault (Char × Text) := do
  let (n, r) ← readHex s
  if 0xdc00 ≤ n && n ≤ 0xdfff then .error (.here .loneSurrogate r)
  else if 0xd800 ≤ n && n ≤ 0xdbff then readLowSurrogate n r
  else .ok (Char.ofNat n, r)

theorem readEscape_cons (c : Char) (s : Text) :
    readEscape (c :: s) =
      match simpleEscape? c with
      | some d => .ok (d, s)
      | none => if c = 'u' then readCode s else .error (.ahead .invalidEscape (c :: s)) := by
  unfold readEscape
  split
  case h_11 =>
    simp_all [simpleEscape?]
  all_goals
    next h =>
      cases h
      try rfl

theorem readCode_follows : Follows readCode := by
  intro s
  refine Alike.bind (readHex_follows s) ?_
  intro n r
  simp only
  split
  · exact .error
  · split
    · exact readLowSurrogate_follows n r
    · exact .ok (List.suffix_refl r)

theorem simpleEscape?_bracket : simpleEscape? '<' = none := rfl

theorem readEscape_follows (c : Char) (s : Text) :
    Alike s (readEscape (c :: s)) (readEscape (shielded (c :: s))) := by
  by_cases bracket : c = '<'
  · subst bracket
    obtain ⟨t, shown⟩ := exists_shielded_cons '<' s
    rw [shown, readEscape_cons, readEscape_cons, simpleEscape?_bracket]
    exact .error
  · rw [shielded_cons bracket, readEscape_cons, readEscape_cons]
    cases simpleEscape? c with
    | some d => exact .ok (List.suffix_refl s)
    | none =>
        simp only
        split
        · exact readCode_follows s
        · exact .error

theorem readChars_escape (fuel : Nat) (seen s : Text) :
    readChars (fuel + 1) seen ('\\' :: s) =
      readEscape s >>= fun x => readChars fuel (x.1 :: seen) x.2 := rfl

theorem readChars_char {c : Char} (quote : c ≠ '\x22') (backslash : c ≠ '\\') (fuel : Nat)
    (seen s : Text) :
    readChars (fuel + 1) seen (c :: s) =
      if c.toNat < 32 then .error (.ahead .controlCharacter (c :: s))
      else readChars fuel (c :: seen) s := by
  rw [readChars]
  · exact quote
  · exact backslash

/-- Both texts take as many steps as the first has characters, so fuel enough for it is enough for
both. -/
theorem readChars_follows {fuel fuel' : Nat} {s : Text} (enough : s.length < fuel)
    (enough' : s.length < fuel') (seen : Text) :
    Alike s (readChars fuel seen s) (readChars fuel' seen (shielded s)) := by
  induction h : s.length using Nat.strongRecOn generalizing s fuel fuel' seen with
  | ind n ih =>
      subst h
      obtain ⟨fuel, rfl⟩ : ∃ k, fuel = k + 1 := ⟨fuel - 1, by omega⟩
      obtain ⟨fuel', rfl⟩ : ∃ k, fuel' = k + 1 := ⟨fuel' - 1, by omega⟩
      have later {t : Text} (shorter : t.length < s.length) {fuel fuel' : Nat}
          (room : t.length < fuel) (room' : t.length < fuel') (seen : Text) :
          Alike t (readChars fuel seen t) (readChars fuel' seen (shielded t)) :=
        ih t.length shorter room room' seen rfl
      cases s with
      | nil => exact .error
      | cons c s =>
          simp only [List.length_cons] at enough enough' later
          by_cases quote : c = '\x22'
          · subst quote
            exact .ok (List.suffix_cons _ s)
          by_cases backslash : c = '\\'
          · subst backslash
            rw [shielded_cons (by decide), readChars_escape, readChars_escape]
            cases s with
            | nil => exact .error
            | cons d s =>
                have escape := readEscape_follows d s
                revert escape
                generalize readEscape (d :: s) = x
                generalize readEscape (shielded (d :: s)) = y
                intro escape
                cases escape with
                | error => exact .error
                | @ok x r part =>
                    have length := part.length_le
                    simp only [List.length_cons] at enough enough' later
                    have rest : Alike r (readChars fuel (x :: seen) r)
                        (readChars fuel' (x :: seen) (shielded r)) :=
                      later (by omega) (by omega) (by omega) _
                    exact rest.mono
                      (part.trans ((List.suffix_cons d s).trans (List.suffix_cons _ _)))
          by_cases bracket : c = '<'
          · subst bracket
            obtain ⟨r, rfl, shown⟩ | shown := shielded_bracket s
            · -- the escaped slash is read in one step, as the slash is
              simp only [List.length_cons] at enough enough' later
              obtain ⟨fuel, rfl⟩ : ∃ k, fuel = k + 1 := ⟨fuel - 1, by omega⟩
              obtain ⟨fuel', rfl⟩ : ∃ k, fuel' = k + 1 := ⟨fuel' - 1, by omega⟩
              have rest : Alike r (readChars fuel ('/' :: '<' :: seen) r)
                  (readChars fuel' ('/' :: '<' :: seen) (shielded r)) :=
                later (by omega) (by omega) (by omega) _
              rw [shown, shielded_cons (by decide)]
              exact rest.mono ((List.suffix_cons _ r).trans (List.suffix_cons _ _))
            · rw [shown, readChars_char quote backslash, readChars_char quote backslash]
              exact (later (by omega) (by omega) (by omega) _).behind _
          · rw [shielded_cons bracket, readChars_char quote backslash,
              readChars_char quote backslash]
            split
            · exact .error
            · exact (later (by omega) (by omega) (by omega) _).behind _

theorem readString_follows : Follows readString := by
  intro s
  have longer := length_le_shielded s
  exact readChars_follows (by omega) (by omega) []

end LivePage.Json
