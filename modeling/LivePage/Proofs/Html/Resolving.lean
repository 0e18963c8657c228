import LivePage.Proofs.Html.Tokens

/-!
Resolving references never makes a text longer: no reference stands for more characters than its
name has. So a text that is as long as before is the text it was.
-/

namespace LivePage

namespace Text

/-- Whether no name in a string of rows is shorter than what it stands for. -/
def ShortRows (s : Text) : Prop :=
  ∀ row ∈ (split (fun c => c = ' ') s).filterMap readRow, row.2.characters.length ≤ row.1.length

instance (s : Text) : Decidable (ShortRows s) := List.decidableBAll _ _

theorem shortRows_namedReferenceRows : ∀ s ∈ namedReferenceRows, ShortRows s.toList := by
  unfold namedReferenceRows
  -- a string is evaluated as the list of its characters, row by row
  repeat' first
    | exact List.forall_mem_nil _
    | refine List.forall_mem_cons.2 ⟨by rw [String.toList_ofList]; decide +kernel, ?_⟩

theorem mem_of_foldl_insert {rows : List (Text × NamedReference)} {name : Text} {r : NamedReference}
    (table : Std.HashMap String NamedReference)
    (found : (rows.foldl (fun table row => table.insert (String.ofList row.1) row.2) table)[
      String.ofList name]? = some r) :
    table[String.ofList name]? = some r ∨ (name, r) ∈ rows := by
  induction rows generalizing table with
  | nil => exact .inl found
  | cons row rows ih =>
      rcases ih _ found with before | later
      · rw [Std.HashMap.getElem?_insert] at before
        split at before
        · next same =>
            have key : row.1 = name := String.ofList_injective (eq_of_beq same)
            cases before
            exact .inr (key ▸ List.mem_cons_self)
        · exact .inl before
      · exact .inr (List.mem_cons_of_mem row later)

theorem length_namedReference? {name : Text} {r : NamedReference}
    (known : namedReference? name = some r) : r.characters.length ≤ name.length := by
  have row : (name, r) ∈ (namedReferenceRows.flatMap fun s =>
      split (fun c => c = ' ') s.toList).filterMap readRow → r.characters.length ≤ name.length := by
    intro member
    obtain ⟨text, listed, read⟩ := List.mem_filterMap.1 member
    obtain ⟨s, string, part⟩ := List.mem_flatMap.1 listed
    exact shortRows_namedReferenceRows s string _ (List.mem_filterMap.2 ⟨text, part, read⟩)
  unfold namedReference? at known
  split at known
  · next same => cases known; subst same; decide
  split at known
  · next same => cases known; subst same; decide
  split at known
  · next same => cases known; subst same; decide
  split at known
  · next same => cases known; subst same; decide
  split at known
  · next same => cases known; subst same; decide
  rcases mem_of_foldl_insert {} known with none | member
  · simp at none
  · exact row member

end Text

namespace Html

theorem semicolonLength_le (s : Text) : semicolonLength s ≤ s.length := by
  unfold semicolonLength
  split
  · exact Nat.le_add_left 1 _
  · exact Nat.zero_le _

/-- What a reference stands for is no longer than the reference, and that lies in the text. -/
def Resolved.Fits (r : Resolved) (s : Text) : Prop := r.1.length ≤ r.2 ∧ r.2 ≤ s.length

theorem fits_numericReference? {base lead : Nat} {isDigit : Char → Bool} {s : Text} {r : Resolved}
    (found : numericReference? base isDigit lead s = some r) :
    r.1.length ≤ r.2 ∧ r.2 ≤ lead + s.length := by
  unfold numericReference? at found
  simp only at found
  split at found
  · cases found
  · next some =>
      cases found
      have parts : (s.takeWhile isDigit).length + (s.dropWhile isDigit).length = s.length := by
        rw [← List.length_append, List.takeWhile_append_dropWhile]
      have digits : 0 < (s.takeWhile isDigit).length :=
        List.length_pos_iff.2 fun none => some (List.isEmpty_iff.2 none)
      have mark := semicolonLength_le (s.dropWhile isDigit)
      simp only [List.length_singleton]
      omega

theorem fits_bareReference? {s : Text} {r : Resolved} {k : Nat} (short : k ≤ s.length)
    (found : bareReference? s k = some r) : r.Fits s := by
  induction k with
  | zero => cases found
  | succ k ih =>
      unfold bareReference? at found
      split at found
      · next named known =>
          split at found
          · cases found
            have characters := Text.length_namedReference? known
            rw [List.length_take, Nat.min_eq_left short] at characters
            exact ⟨characters, short⟩
          · exact ih (Nat.le_of_succ_le short) found
      · exact ih (Nat.le_of_succ_le short) found

theorem fits_namedReference? {inAttribute : Bool} {s : Text} {r : Resolved}
    (found : namedReference? inAttribute s = some r) : r.Fits s := by
  have parts : (s.takeWhile Text.isAsciiAlnum).length + (s.dropWhile Text.isAsciiAlnum).length =
      s.length := by rw [← List.length_append, List.takeWhile_append_dropWhile]
  unfold namedReference? at found
  simp only at found
  split at found
  · next named complete =>
      split at complete
      · next ends =>
          cases found
          have characters := Text.length_namedReference? complete
          have mark := semicolonLength_le (s.dropWhile Text.isAsciiAlnum)
          exact ⟨by simp only; omega, by simp only; omega⟩
      · cases complete
  · split at found
    · cases found
    · next characters n bare =>
        obtain ⟨short, inside⟩ := fits_bareReference? (Nat.min_le_left _ _) bare
        split at found
        · cases found
        · cases found
          exact ⟨short, by simp only at inside ⊢; omega⟩

theorem fits_reference? {inAttribute : Bool} {s : Text} {r : Resolved}
    (found : reference? inAttribute s = some r) : r.Fits s := by
  unfold reference? at found
  split at found
  · obtain ⟨short, inside⟩ := fits_numericReference? found
    exact ⟨short, by simp only [List.length_cons]; omega⟩
  · obtain ⟨short, inside⟩ := fits_numericReference? found
    exact ⟨short, by simp only [List.length_cons]; omega⟩
  · obtain ⟨short, inside⟩ := fits_numericReference? found
    exact ⟨short, by simp only [List.length_cons]; omega⟩
  · exact fits_namedReference? found

theorem decodeFrom_shorter (inAttribute : Bool) (skip : Nat) (s : Text) :
    decodeFrom inAttribute skip s = s.drop skip ∨
      (decodeFrom inAttribute skip s).length < s.length - skip := by
  induction s generalizing skip with
  | nil => exact .inl (by simp [decodeFrom])
  | cons c s ih =>
      cases skip with
      | succ skip =>
          rw [decodeFrom, List.drop_succ_cons, List.length_cons, Nat.add_sub_add_right]
          exact ih skip
      | zero =>
          rw [decodeFrom, List.drop_zero, List.length_cons, Nat.sub_zero]
          split
          · next amp =>
              split
              · next characters n found =>
                  obtain ⟨short, inside⟩ := fits_reference? found
                  have rest : (decodeFrom inAttribute n s).length ≤ s.length - n := by
                    rcases ih n with same | shorter
                    · exact same ▸ Nat.le_of_eq List.length_drop
                    · exact Nat.le_of_lt shorter
                  right
                  rw [List.length_append]
                  simp only at short inside
                  omega
              · rcases ih 0 with same | shorter
                · exact .inl (by rw [same, amp, List.drop_zero])
                · exact .inr (by rw [List.length_cons]; omega)
          · rcases ih 0 with same | shorter
            · exact .inl (by rw [same, List.drop_zero])
            · exact .inr (by rw [List.length_cons]; omega)

theorem decodeAttribute_eq_self {s : Text} (long : s.length ≤ (decodeAttribute s).length) :
    decodeAttribute s = s :=
  (decodeFrom_shorter true 0 s).resolve_right (Nat.not_lt.2 long)

theorem length_unifyBreaks (s : Text) : (unifyBreaks s).length ≤ s.length := by
  induction s using unifyBreaks.induct with
  | case1 => exact Nat.le_refl 0
  | case2 s ih =>
      rw [unifyBreaks, List.length_cons, List.length_cons, List.length_cons]
      omega
  | case3 s alone ih =>
      rw [unifyBreaks, List.length_cons, List.length_cons]
      · exact Nat.succ_le_succ ih
      · exact alone
  | case4 c s _ other ih =>
      rw [unifyBreaks_cons other, List.length_cons, List.length_cons]
      exact Nat.succ_le_succ ih

theorem not_mem_unifyBreaks_return (s : Text) : '\r' ∉ unifyBreaks s := by
  induction s using unifyBreaks.induct with
  | case1 => exact List.not_mem_nil
  | case2 s ih => simp [unifyBreaks, ih]
  | case3 s alone ih =>
      rw [unifyBreaks]
      · simp [ih]
      · exact alone
  | case4 c s _ other ih =>
      rw [unifyBreaks_cons other, List.mem_cons, not_or]
      exact ⟨Ne.symm other, ih⟩

end Html
end LivePage
