import LivePage.Proofs.Text.Scanning

/-!
Replacements in succession. Forms that cannot meet in a text, and have no character that is written
for one, may be replaced one kind after the other as well as in one scan: a replacement neither
makes nor breaks a form for the next. Such a scan replaces a form wherever it stands, whatever
stands before and behind it.
-/

namespace LivePage

namespace Text

theorem scan_nil (s : Text) : scan [] s = s := by
  induction s with
  | nil => rfl
  | cons c s ih => rw [scan_char rfl, ih]

/-- Forms that cannot meet: each begins with a mark that is nowhere else in it, and none begins
another. What is written for a form is one character, which is in no form. -/
structure Apart (mark : Char) (forms : List (Text × Text)) : Prop where
  marked : ∀ form ∈ forms, form.1.head? = some mark ∧ mark ∉ form.1.tail
  distinct : ∀ form ∈ forms, ∀ other ∈ forms, form.1 <+: other.1 → form = other
  single : ∀ form ∈ forms, form.2.length = 1
  foreign : ∀ form ∈ forms, ∀ other ∈ forms, ∀ c ∈ other.2, c ∉ form.1

namespace Apart

variable {mark : Char} {forms : List (Text × Text)} {form other : Text × Text}

theorem eq_cons (apart : Apart mark forms) (listed : form ∈ forms) :
    form.1 = mark :: form.1.tail :=
  (List.cons_head?_tail (apart.marked form listed).1).symm

theorem present (apart : Apart mark forms) : ∀ form ∈ forms, form.1 ≠ [] := by
  intro form listed
  rw [apart.eq_cons listed]
  exact List.cons_ne_nil mark form.1.tail

theorem written (apart : Apart mark forms) : ∀ form ∈ forms, form.2 ≠ [] := by
  intro form listed none
  have single := apart.single form listed
  rw [none] at single
  cases single

theorem later (apart : Apart mark (form :: forms)) : Apart mark forms where
  marked f listed := apart.marked f (List.mem_cons_of_mem form listed)
  distinct f listed g within :=
    apart.distinct f (List.mem_cons_of_mem form listed) g (List.mem_cons_of_mem form within)
  single f listed := apart.single f (List.mem_cons_of_mem form listed)
  foreign f listed g within :=
    apart.foreign f (List.mem_cons_of_mem form listed) g (List.mem_cons_of_mem form within)

theorem eq_of_prefix (apart : Apart mark forms) (listed : form ∈ forms) (within : other ∈ forms)
    {s : Text} (first : form.1 <+: s) (second : other.1 <+: s) : form = other := by
  rcases List.prefix_or_prefix_of_prefix first second with leads | leads
  · exact apart.distinct form listed other within leads
  · exact (apart.distinct other within form listed leads).symm

theorem longest?_form (apart : Apart mark forms) (listed : form ∈ forms) (rest : Text) :
    longest? forms (form.1 ++ rest) = some form := by
  have begins : form.1 <+: form.1 ++ rest := List.prefix_append form.1 rest
  cases found : longest? forms (form.1 ++ rest) with
  | none => exact absurd begins (longest?_none_iff.1 found form listed)
  | some other =>
      obtain ⟨within, leads, _⟩ := longest?_some found
      rw [apart.eq_of_prefix listed within begins leads]

theorem scan_form (apart : Apart mark forms) (listed : form ∈ forms) (rest : Text) :
    scan forms (form.1 ++ rest) = form.2 ++ scan forms rest :=
  Text.scan_form (apart.present form listed) (apart.longest?_form listed rest)

theorem replace_other (apart : Apart mark forms) (listed : form ∈ forms) (within : other ∈ forms)
    (differ : other ≠ form) (rest : Text) :
    replace form.1 form.2 (other.1 ++ rest) = other.1 ++ replace form.1 form.2 rest := by
  have missing : form.1.isPrefixOf (mark :: (other.1.tail ++ rest)) = false := by
    rw [← Bool.not_eq_true, List.isPrefixOf_iff_prefix, ← List.cons_append, ← apart.eq_cons within]
    intro leads
    exact differ (apart.eq_of_prefix within listed (List.prefix_append other.1 rest) leads)
  rw [apart.eq_cons within, List.cons_append, replace_cons missing,
    replace_append_of_notMem (apart.marked form listed).1 (apart.marked other within).2,
    List.cons_append]

theorem scan_replace (apart : Apart mark (form :: forms)) (s : Text) :
    scan forms (replace form.1 form.2 s) = scan (form :: forms) s := by
  have first : form ∈ form :: forms := List.mem_cons_self
  induction s using scan_induction apart.present with
  | nil => rfl
  | form f rest listed found ih =>
      rw [apart.scan_form listed, ← ih]
      rcases eq_or_ne f form with rfl | differ
      · rw [replace_append (apart.present f listed), scan_append_foreign apart.later.present]
        exact fun other within => apart.foreign other (List.mem_cons_of_mem f within) f listed
      · have within := (List.mem_cons.1 listed).resolve_left differ
        rw [apart.replace_other first listed differ, apart.later.scan_form within]
  | char c s none ih =>
      have absent := longest?_none_iff.1 none
      have missing : form.1.isPrefixOf (c :: s) = false := by
        rw [← Bool.not_eq_true, List.isPrefixOf_iff_prefix]
        exact absent form first
      rw [scan_char none, ← ih, replace_cons missing, scan_char]
      refine longest?_none_iff.2 fun other within leads => ?_
      have second := List.mem_cons_of_mem form within
      -- no form comes about, as the character that comes in is in none
      obtain ⟨b, single⟩ := List.length_eq_one_iff.1 (apart.single form first)
      have foreign := apart.foreign other second form first
      rw [← replace_cons missing, single] at leads
      rw [single, List.forall_mem_singleton] at foreign
      exact absent other second (prefix_of_prefix_replace (apart.present form first) foreign leads)

/-- Forms that are apart are replaced one kind after the other as one scan replaces them. -/
theorem foldl_replace (apart : Apart mark forms) (s : Text) :
    forms.foldl (fun t form => replace form.1 form.2 t) s = scan forms s := by
  induction forms generalizing s with
  | nil => exact (scan_nil s).symm
  | cons form forms ih => rw [List.foldl_cons, ih apart.later, apart.scan_replace]

theorem scan_append_mark (apart : Apart mark forms) (s t : Text) :
    scan forms (s ++ mark :: t) = scan forms s ++ scan forms (mark :: t) := by
  induction s using scan_induction apart.present with
  | nil => rfl
  | form form rest listed found ih =>
      rw [List.append_assoc, apart.scan_form listed, apart.scan_form listed, ih, List.append_assoc]
  | char c s none ih =>
      have absent := longest?_none_iff.1 none
      rw [List.cons_append, scan_char none, scan_char, ih, List.cons_append]
      refine longest?_none_iff.2 fun form listed leads => ?_
      -- behind its mark a form has none, so it ends in front of the next one
      rw [apart.eq_cons listed, List.cons_prefix_cons, ← List.isPrefixOf_iff_prefix,
        isPrefixOf_append_cons (apart.marked form listed).2, List.isPrefixOf_iff_prefix,
        ← List.cons_prefix_cons, ← apart.eq_cons listed] at leads
      exact absent form listed leads

theorem scan_append_form (apart : Apart mark forms) (listed : form ∈ forms) (before after : Text) :
    scan forms (before ++ (form.1 ++ after)) =
      scan forms before ++ (form.2 ++ scan forms after) := by
  have parted := apart.scan_append_mark before (form.1.tail ++ after)
  rwa [← List.cons_append, ← apart.eq_cons listed, apart.scan_form listed] at parted

theorem scan_idem (apart : Apart mark forms) (s : Text) :
    scan forms (scan forms s) = scan forms s :=
  scan_scan apart.present apart.written apart.foreign s

end Apart

end Text

end LivePage
