import LivePage.Text.Basic

/-!
Texts in parts. A text is split at a character into the only parts that do not have it and give the
text when they are joined by it.
-/

namespace LivePage.Text

variable {c : Char}

theorem splitFirst?_eq_some_iff {s before behind : Text} :
    splitFirst? c s = some (before, behind) ↔ c ∉ before ∧ s = before ++ c :: behind := by
  induction s generalizing before with
  | nil => simp [splitFirst?]
  | cons d s ih =>
      rw [splitFirst?]
      by_cases here : d = c
      · subst here
        cases before with
        | nil => simp
        | cons e before =>
            simp only [if_true, Option.some.injEq, Prod.mk.injEq, List.mem_cons, not_or]
            constructor
            · rintro ⟨⟨⟩, -⟩
            · rintro ⟨⟨other, -⟩, same⟩
              exact absurd (List.cons.inj same).1 other
      · rw [if_neg here, Option.map_eq_some_iff]
        constructor
        · rintro ⟨⟨front, rest⟩, found, same⟩
          cases same
          obtain ⟨free, rfl⟩ := ih.1 found
          exact ⟨by simp [Ne.symm here, free], rfl⟩
        · rintro ⟨free, same⟩
          cases before with
          | nil => exact absurd (List.cons.inj same).1 here
          | cons e before =>
              obtain ⟨rfl, rfl⟩ := List.cons.inj same
              rw [List.mem_cons, not_or] at free
              exact ⟨(before, behind), ih.2 ⟨free.2, rfl⟩, rfl⟩

variable {p : Char → Bool}

theorem exists_split (p : Char → Bool) (s : Text) : ∃ w ws, split p s = w :: ws := by
  cases s with
  | nil => exact ⟨[], [], rfl⟩
  | cons c s =>
      rw [split]
      split
      · exact ⟨[], _, rfl⟩
      · split
        · exact ⟨_, _, rfl⟩
        · exact ⟨_, _, rfl⟩

theorem split_cons_of_mem (blank : p c = true) (s : Text) : split p (c :: s) = [] :: split p s := by
  rw [split, if_pos blank]

theorem split_cons_of_not_mem (plain : p c = false) {s w : Text} {ws : List Text}
    (words : split p s = w :: ws) : split p (c :: s) = (c :: w) :: ws := by
  rw [split, if_neg (Bool.eq_false_iff.1 plain), words]

theorem split_of_free {s : Text} (free : ∀ d ∈ s, p d = false) : split p s = [s] := by
  induction s with
  | nil => rfl
  | cons d s ih =>
      obtain ⟨first, rest⟩ := List.forall_mem_cons.1 free
      exact split_cons_of_not_mem first (ih rest)

theorem join_split (c : Char) (s : Text) : join [c] (split (· = c) s) = s := by
  induction s with
  | nil => rfl
  | cons d s ih =>
      obtain ⟨w, ws, words⟩ := exists_split (· = c) s
      rw [words] at ih
      by_cases here : d = c
      · rw [split_cons_of_mem (decide_eq_true here), words, join, ih, here]
        · rfl
        · exact nofun
      · rw [split_cons_of_not_mem (decide_eq_false here) words, ← ih]
        cases ws with
        | nil => rfl
        | cons next rest => rfl

theorem not_mem_of_mem_split {s part : Text} (member : part ∈ split (· = c) s) : c ∉ part := by
  induction s generalizing part with
  | nil =>
      rw [split, List.mem_singleton] at member
      rw [member]
      exact List.not_mem_nil
  | cons d s ih =>
      obtain ⟨w, ws, words⟩ := exists_split (· = c) s
      by_cases here : d = c
      · rw [split_cons_of_mem (decide_eq_true here)] at member
        rcases List.mem_cons.1 member with rfl | member
        · exact List.not_mem_nil
        · exact ih member
      · rw [split_cons_of_not_mem (decide_eq_false here) words] at member
        rw [words] at ih
        rcases List.mem_cons.1 member with rfl | member
        · rw [List.mem_cons, not_or]
          exact ⟨Ne.symm here, ih List.mem_cons_self⟩
        · exact ih (List.mem_cons_of_mem _ member)

end LivePage.Text
