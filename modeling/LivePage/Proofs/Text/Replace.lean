import LivePage.Text.Basic

/-!
Replacing a piece of a text. A text without the piece stays as it is; when what comes in is shorter
than the piece, a text with the piece becomes shorter, so those texts are the only ones that stay.
-/

namespace LivePage.Text

theorem replace_of_absent {piece by' s : Text} (absent : contains piece s = false) :
    replace piece by' s = s := by
  unfold replace
  induction s with
  | nil => rfl
  | cons c s ih =>
      rw [contains, Bool.or_eq_false_iff] at absent
      rw [replaceFrom, absent.1, ih absent.2]
      rfl

theorem replaceFrom_eq_drop (piece by' : Text) (n : Nat) (s : Text) :
    replaceFrom piece by' n s = replace piece by' (s.drop n) := by
  induction n generalizing s with
  | zero => rfl
  | succ n ih =>
      cases s with
      | nil => rfl
      | cons c s => exact ih s

theorem replace_append {piece : Text} (some : piece ≠ []) (by' s : Text) :
    replace piece by' (piece ++ s) = by' ++ replace piece by' s := by
  obtain ⟨c, rest, rfl⟩ := List.exists_cons_of_ne_nil some
  have found : (c :: rest).isPrefixOf (c :: (rest ++ s)) = true :=
    List.isPrefixOf_iff_prefix.2 (List.prefix_append (c :: rest) s)
  rw [List.cons_append, replace, replaceFrom, if_pos found, replaceFrom_eq_drop,
    List.length_cons, Nat.add_sub_cancel, List.drop_left]

theorem replace_cons {piece : Text} {c : Char} {s : Text}
    (no : piece.isPrefixOf (c :: s) = false) (by' : Text) :
    replace piece by' (c :: s) = c :: replace piece by' s := by
  rw [replace, replaceFrom, no]
  rfl

/-- What has not the first character of the piece stays, whatever comes behind it. -/
theorem replace_append_of_notMem {piece p : Text} {d : Char} (begins : piece.head? = some d)
    (absent : d ∉ p) (by' s : Text) :
    replace piece by' (p ++ s) = p ++ replace piece by' s := by
  obtain ⟨more, rfl⟩ := List.head?_eq_some_iff.1 begins
  induction p with
  | nil => rfl
  | cons c p ih =>
      rw [List.mem_cons, not_or] at absent
      have no : (d :: more).isPrefixOf (c :: (p ++ s)) = false := by
        simp [List.isPrefixOf, absent.1]
      rw [List.cons_append, replace_cons no, ih absent.2, List.cons_append]

/-- A text begins with the piece, or its first character stays as it is. -/
theorem prefix_or_not (piece : Text) (c : Char) (s : Text) :
    (∃ r, c :: s = piece ++ r) ∨ piece.isPrefixOf (c :: s) = false := by
  cases found : piece.isPrefixOf (c :: s) with
  | true =>
      obtain ⟨r, whole⟩ := List.isPrefixOf_iff_prefix.1 found
      exact .inl ⟨r, whole.symm⟩
  | false => exact .inr rfl

theorem isPrefixOf_append_cons {d : Char} {piece : Text} (absent : d ∉ piece) (s r : Text) :
    piece.isPrefixOf (s ++ d :: r) = piece.isPrefixOf s := by
  induction piece generalizing s with
  | nil => simp [List.isPrefixOf]
  | cons p piece ih =>
      rw [List.mem_cons, not_or] at absent
      cases s with
      | nil => simp [List.isPrefixOf, Ne.symm absent.1]
      | cons c s => simp [List.isPrefixOf, ih absent.2]

/-- A character that no piece has behind its first parts a text where it stands. -/
theorem replace_append_cons {piece : Text} {c : Char} (some : piece ≠ []) (apart : c ∉ piece.tail)
    (by' s r : Text) :
    replace piece by' (s ++ c :: r) = replace piece by' s ++ replace piece by' (c :: r) := by
  induction h : s.length using Nat.strongRecOn generalizing s with
  | ind n ih =>
      subst h
      cases s with
      | nil => rfl
      | cons d s =>
          rcases prefix_or_not piece d s with ⟨t, whole⟩ | no
          · have shorter : t.length < (d :: s).length := by
              have present := List.length_pos_iff.2 some
              rw [whole, List.length_append]
              omega
            rw [whole, List.append_assoc, replace_append some, replace_append some,
              ih t.length shorter t rfl, List.append_assoc]
          · obtain ⟨p, more, rfl⟩ := List.exists_cons_of_ne_nil some
            have parted : more.isPrefixOf (s ++ c :: r) = more.isPrefixOf s :=
              isPrefixOf_append_cons apart s r
            have still : (p :: more).isPrefixOf (d :: (s ++ c :: r)) = false := by
              rwa [List.isPrefixOf, parted, ← List.isPrefixOf]
            rw [List.cons_append, replace_cons still, replace_cons no,
              ih s.length (Nat.lt_succ_self _) s rfl, List.cons_append]

/-- What is in a text after replacing was in it before, or has come in. -/
theorem mem_replaceFrom {piece by' : Text} {skip : Nat} {s : Text} {c : Char}
    (member : c ∈ replaceFrom piece by' skip s) : c ∈ by' ∨ c ∈ s := by
  induction s generalizing skip with
  | nil => simp [replaceFrom] at member
  | cons d s ih =>
      cases skip with
      | succ skip => exact (ih member).imp_right (List.mem_cons_of_mem d)
      | zero =>
          rw [replaceFrom] at member
          split at member
          · rcases List.mem_append.1 member with new | old
            · exact .inl new
            · exact (ih old).imp_right (List.mem_cons_of_mem d)
          · rcases List.mem_cons.1 member with rfl | old
            · exact .inr List.mem_cons_self
            · exact (ih old).imp_right (List.mem_cons_of_mem d)

/-- Replacing a piece by one that begins with the same character keeps the first character. -/
theorem head?_replace {piece by' : Text} (present : piece ≠ []) (same : by'.head? = piece.head?)
    (s : Text) : (replace piece by' s).head? = s.head? := by
  unfold replace
  cases s with
  | nil => rfl
  | cons c s =>
      rw [replaceFrom]
      split
      · next found =>
          obtain ⟨p, pieces, rfl⟩ := List.exists_cons_of_ne_nil present
          obtain ⟨rest, whole⟩ := List.isPrefixOf_iff_prefix.1 found
          cases by' with
          | nil => cases same
          | cons b bs =>
              rw [← whole]
              exact same
      · rfl

theorem length_replaceFrom_le {piece by' : Text} (shorter : by'.length < piece.length)
    (skip : Nat) (s : Text) : (replaceFrom piece by' skip s).length ≤ s.length - skip := by
  induction s generalizing skip with
  | nil => simp [replaceFrom]
  | cons c s ih =>
      cases skip with
      | succ skip =>
          have rest := ih skip
          simp only [replaceFrom, List.length_cons]
          omega
      | zero =>
          rw [replaceFrom]
          split
          · next found =>
              have whole := (List.isPrefixOf_iff_prefix.1 found).length_le
              have rest := ih (piece.length - 1)
              simp only [List.length_append, List.length_cons] at whole ⊢
              omega
          · have rest := ih 0
            simp only [List.length_cons]
            omega

theorem length_replace_lt {piece by' : Text} (shorter : by'.length < piece.length) {s : Text}
    (present : contains piece s = true) : (replace piece by' s).length < s.length := by
  unfold replace
  induction s with
  | nil =>
      rw [contains, List.isEmpty_iff] at present
      subst present
      cases shorter
  | cons c s ih =>
      rw [replaceFrom]
      split
      · next found =>
          have whole := (List.isPrefixOf_iff_prefix.1 found).length_le
          have rest := length_replaceFrom_le shorter (piece.length - 1) s
          simp only [List.length_append, List.length_cons] at whole ⊢
          omega
      · next missing =>
          rw [contains, Bool.eq_false_iff.2 missing, Bool.false_or] at present
          have rest := ih present
          simp only [List.length_cons]
          omega

theorem length_replace_le {piece by' : Text} (shorter : by'.length < piece.length) (s : Text) :
    (replace piece by' s).length ≤ s.length :=
  length_replaceFrom_le shorter 0 s

theorem length_foldl_replace_le {pairs : List (Text × Text)}
    (shorter : ∀ r ∈ pairs, r.2.length < r.1.length) (s : Text) :
    (pairs.foldl (fun t r => replace r.1 r.2 t) s).length ≤ s.length := by
  induction pairs generalizing s with
  | nil => exact Nat.le_refl _
  | cons r pairs ih =>
      have first := length_replace_le (shorter r List.mem_cons_self) s
      have rest := ih (fun q member => shorter q (List.mem_cons_of_mem r member))
        (replace r.1 r.2 s)
      exact Nat.le_trans rest first

/-- Replacing pieces one kind after the other leaves a text as it is only if it has none of them. -/
theorem foldl_replace_eq_self_iff {pairs : List (Text × Text)}
    (shorter : ∀ r ∈ pairs, r.2.length < r.1.length) (s : Text) :
    pairs.foldl (fun t r => replace r.1 r.2 t) s = s ↔
      ∀ r ∈ pairs, contains r.1 s = false := by
  induction pairs with
  | nil => simp
  | cons r pairs ih =>
      have later : ∀ q ∈ pairs, q.2.length < q.1.length :=
        fun q member => shorter q (List.mem_cons_of_mem r member)
      rw [List.foldl_cons, List.forall_mem_cons]
      cases present : contains r.1 s with
      | false => simp [replace_of_absent present, ih later]
      | true =>
          -- the first replacement shortens the text, and no later one makes up for it
          have first := length_replace_lt (shorter r List.mem_cons_self) present
          have rest := length_foldl_replace_le later (replace r.1 r.2 s)
          constructor
          · intro same
            rw [same] at rest
            omega
          · intro absent
            cases absent.1

end LivePage.Text
