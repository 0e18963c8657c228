import Mathlib.Data.List.MinMax
import LivePage.Proofs.Text.Normalized

/-!
One scan in the place of several replacements. A scan goes through a text from left to right: where
forms begin it takes the longest of them and writes what stands for it, and any other character it
copies. The four replacements that make line breaks uniform are one such scan, in which a carriage
return belongs to a break that follows it, however that break is written.
-/

namespace LivePage

namespace Text

/-- The longest form that a text begins with. -/
def longest? (forms : List (Text × Text)) (s : Text) : Option (Text × Text) :=
  (forms.filter fun form => form.1.isPrefixOf s).argmax fun form => form.1.length

/-- The pieces of a text from left to right, `skip` characters of the last form still to be passed. -/
def cutFrom (forms : List (Text × Text)) : Nat → Text → List (Text × Text)
  | _, [] => []
  | skip + 1, _ :: s => cutFrom forms skip s
  | 0, c :: s =>
      match longest? forms (c :: s) with
      | some form => form :: cutFrom forms (form.1.length - 1) s
      | none => ([c], [c]) :: cutFrom forms 0 s

/-- The pieces of a text, each with what is written for it: forms, and characters at which no form
begins. -/
def cut (forms : List (Text × Text)) (s : Text) : List (Text × Text) := cutFrom forms 0 s

/-- What is written for the pieces of a text. -/
def scan (forms : List (Text × Text)) (s : Text) : Text := (cut forms s).flatMap Prod.snd

section Scan

variable {forms : List (Text × Text)} {form : Text × Text}

theorem longest?_some {s : Text} (found : longest? forms s = some form) :
    form ∈ forms ∧ form.1 <+: s ∧ ∀ other ∈ forms, other.1 <+: s → other.1.length ≤ form.1.length := by
  have member := List.mem_filter.1 (List.argmax_mem found)
  refine ⟨member.1, List.isPrefixOf_iff_prefix.1 member.2, ?_⟩
  intro other listed begins
  have among : other ∈ forms.filter fun form => form.1.isPrefixOf s :=
    List.mem_filter.2 ⟨listed, List.isPrefixOf_iff_prefix.2 begins⟩
  exact List.le_of_mem_argmax (f := fun form : Text × Text => form.1.length) among found

theorem longest?_none_iff {s : Text} :
    longest? forms s = none ↔ ∀ other ∈ forms, ¬ other.1 <+: s := by
  rw [longest?, List.argmax_eq_none, List.filter_eq_nil_iff]
  simp only [List.isPrefixOf_iff_prefix]

theorem cutFrom_eq_drop (skip : Nat) (s : Text) : cutFrom forms skip s = cut forms (s.drop skip) := by
  induction skip generalizing s with
  | zero => rfl
  | succ skip ih =>
      cases s with
      | nil => rfl
      | cons c s => exact ih s

theorem cut_form {rest : Text} (present : form.1 ≠ [])
    (found : longest? forms (form.1 ++ rest) = some form) :
    cut forms (form.1 ++ rest) = form :: cut forms rest := by
  obtain ⟨c, more, whole⟩ := List.exists_cons_of_ne_nil present
  have behind : (more ++ rest).drop (form.1.length - 1) = rest := by
    rw [whole, List.length_cons, Nat.add_sub_cancel, List.drop_left]
  rw [whole, List.cons_append] at found ⊢
  rw [cut, cutFrom, found]
  simp only [cutFrom_eq_drop, behind]

theorem cut_char {c : Char} {s : Text} (none : longest? forms (c :: s) = none) :
    cut forms (c :: s) = ([c], [c]) :: cut forms s := by
  rw [cut, cutFrom, none]
  rfl

theorem scan_form {rest : Text} (present : form.1 ≠ [])
    (found : longest? forms (form.1 ++ rest) = some form) :
    scan forms (form.1 ++ rest) = form.2 ++ scan forms rest := by
  rw [scan, cut_form present found]
  rfl

theorem scan_char {c : Char} {s : Text} (none : longest? forms (c :: s) = none) :
    scan forms (c :: s) = c :: scan forms s := by
  rw [scan, cut_char none]
  rfl

@[elab_as_elim]
theorem scan_induction {forms : List (Text × Text)} {motive : Text → Prop}
    (present : ∀ form ∈ forms, form.1 ≠ [])
    (nil : motive [])
    (form : ∀ form rest, form ∈ forms → longest? forms (form.1 ++ rest) = some form →
      motive rest → motive (form.1 ++ rest))
    (char : ∀ c s, longest? forms (c :: s) = none → motive s → motive (c :: s)) (s : Text) :
    motive s := by
  induction h : s.length using Nat.strongRecOn generalizing s with
  | ind n ih =>
      subst h
      cases s with
      | nil => exact nil
      | cons c s =>
          cases found : longest? forms (c :: s) with
          | none => exact char c s found (ih s.length (Nat.lt_succ_self _) s rfl)
          | some f =>
              obtain ⟨listed, ⟨rest, whole⟩, _⟩ := longest?_some found
              have some := List.length_pos_iff.2 (present f listed)
              have shorter : rest.length < (c :: s).length := by
                rw [← whole, List.length_append]
                omega
              rw [← whole] at found ⊢
              exact form f rest listed found (ih rest.length shorter rest rfl)

theorem flatMap_fst_cut (present : ∀ form ∈ forms, form.1 ≠ []) (s : Text) :
    (cut forms s).flatMap Prod.fst = s := by
  induction s using scan_induction present with
  | nil => rfl
  | form f rest listed found ih => rw [cut_form (present f listed) found, List.flatMap_cons, ih]
  | char c s none ih =>
      rw [cut_char none, List.flatMap_cons, ih]
      rfl

theorem mem_cut (present : ∀ form ∈ forms, form.1 ≠ []) {s : Text} :
    ∀ piece ∈ cut forms s, piece ∈ forms ∨ ∃ c, piece = ([c], [c]) := by
  induction s using scan_induction present with
  | nil => exact nofun
  | form f rest listed found ih =>
      rw [cut_form (present f listed) found, List.forall_mem_cons]
      exact ⟨.inl listed, ih⟩
  | char c s none ih =>
      rw [cut_char none, List.forall_mem_cons]
      exact ⟨.inr ⟨c, rfl⟩, ih⟩

theorem scan_cons_foreign {c : Char} (present : ∀ form ∈ forms, form.1 ≠ [])
    (foreign : ∀ form ∈ forms, c ∉ form.1) (s : Text) :
    scan forms (c :: s) = c :: scan forms s := by
  refine scan_char (longest?_none_iff.2 fun form listed leads => ?_)
  obtain ⟨d, more, whole⟩ := List.exists_cons_of_ne_nil (present form listed)
  rw [whole, List.cons_prefix_cons] at leads
  rw [leads.1] at whole
  exact foreign form listed (whole ▸ List.mem_cons_self)

theorem scan_append_foreign {p : Text} (present : ∀ form ∈ forms, form.1 ≠ [])
    (foreign : ∀ form ∈ forms, ∀ c ∈ p, c ∉ form.1) (s : Text) :
    scan forms (p ++ s) = p ++ scan forms s := by
  induction p with
  | nil => rfl
  | cons c p ih =>
      rw [List.cons_append, scan_cons_foreign present fun form listed =>
        foreign form listed c List.mem_cons_self]
      rw [ih fun form listed d member => foreign form listed d (List.mem_cons_of_mem c member)]
      rfl

/-- A text that begins a scanned text began the text that was scanned, if nothing in it is
written for a form. -/
theorem prefix_of_prefix_scan {p : Text} (present : ∀ form ∈ forms, form.1 ≠ [])
    (written : ∀ form ∈ forms, form.2 ≠ []) (apart : ∀ form ∈ forms, ∀ c ∈ form.2, c ∉ p) {s : Text}
    (leads : p <+: scan forms s) : p <+: s := by
  induction s using scan_induction present generalizing p with
  | nil => exact leads
  | form form rest listed found ih =>
      cases p with
      | nil => exact List.nil_prefix
      | cons d p =>
          obtain ⟨c, more, whole⟩ := List.exists_cons_of_ne_nil (written form listed)
          rw [scan_form (present form listed) found, whole, List.cons_append,
            List.cons_prefix_cons] at leads
          have first : c ∈ form.2 := whole ▸ List.mem_cons_self
          exact absurd (leads.1 ▸ List.mem_cons_self) (apart form listed c first)
  | char c s none ih =>
      cases p with
      | nil => exact List.nil_prefix
      | cons d p =>
          rw [scan_char none, List.cons_prefix_cons] at leads
          have later := ih (fun form listed c member within =>
            apart form listed c member (List.mem_cons_of_mem d within)) leads.2
          exact List.cons_prefix_cons.2 ⟨leads.1, later⟩

/-- If no form has a character that is written for one, a second scan finds nothing. -/
theorem scan_scan (present : ∀ form ∈ forms, form.1 ≠ []) (written : ∀ form ∈ forms, form.2 ≠ [])
    (apart : ∀ form ∈ forms, ∀ other ∈ forms, ∀ c ∈ other.2, c ∉ form.1) (s : Text) :
    scan forms (scan forms s) = scan forms s := by
  induction s using scan_induction present with
  | nil => rfl
  | form form rest listed found ih =>
      rw [scan_form (present form listed) found, scan_append_foreign present
        fun other within => apart other within form listed, ih]
  | char c s none ih =>
      have absent := longest?_none_iff.1 none
      rw [scan_char none, scan_char, ih]
      refine longest?_none_iff.2 fun form listed leads => ?_
      rw [← scan_char none] at leads
      exact absent form listed
        (prefix_of_prefix_scan present written (apart form listed) leads)

end Scan

/-- The breaks that may stand behind a carriage return: an escaped one or a line feed. -/
def bareBreaks : List Text := ["\\\\n", "\\n", "\n"]

/-- A break is written bare or behind a carriage return, or it is a carriage return alone. -/
def breakForms : List (Text × Text) :=
  (['\r'] :: bareBreaks ++ bareBreaks.map ('\r' :: ·)).map fun form => (form, ['\n'])

def unescapeBreaks (s : Text) : Text := replace "\\n" ['\n'] (replace "\\\\n" ['\n'] s)

/-- The carriage returns of a text as line feeds, those in front of one joined with it. -/
def foldReturns (s : Text) : Text := replace "\r" ['\n'] (replace "\r\n" ['\n'] s)

theorem normalizeBreaks_eq_fold (s : Text) :
    normalizeBreaks s = foldReturns (unescapeBreaks s) := rfl

theorem unescapeBreaks_bare {form : Text} (bare : form ∈ bareBreaks) (s : Text) :
    unescapeBreaks (form ++ s) = '\n' :: unescapeBreaks s := by
  simp only [bareBreaks, List.mem_cons, List.not_mem_nil, or_false] at bare
  unfold unescapeBreaks
  rcases bare with rfl | rfl | rfl
  · rw [replace_append (by decide), List.singleton_append, replace_cons rfl]
  · have kept : replace "\\\\n" ['\n'] ("\\n".toList ++ s) =
        "\\n".toList ++ replace "\\\\n" ['\n'] s := rfl
    rw [kept, replace_append (by decide), List.singleton_append]
  · rfl

theorem unescapeBreaks_cons {c : Char} {s : Text} (other : ∀ form ∈ bareBreaks, ¬ form <+: c :: s) :
    unescapeBreaks (c :: s) = c :: unescapeBreaks s := by
  have absent (form : Text) (listed : form ∈ bareBreaks) : form.isPrefixOf (c :: s) = false := by
    rw [← Bool.not_eq_true, List.isPrefixOf_iff_prefix]
    exact other form listed
  have first := replace_cons (absent "\\\\n" (by decide)) ['\n']
  -- The first replacement brings no escape about, as what comes in is a line feed.
  have later : ("\\n".toList).isPrefixOf (c :: replace "\\\\n" ['\n'] s) = false := by
    rw [← first, ← Bool.not_eq_true, List.isPrefixOf_iff_prefix]
    intro leads
    exact other "\\n" (by decide) (prefix_of_prefix_replace (by decide) (by decide) leads)
  rw [unescapeBreaks, first, replace_cons later]
  rfl

theorem unescapeBreaks_return (s : Text) : unescapeBreaks ('\r' :: s) = '\r' :: unescapeBreaks s := rfl

theorem foldReturns_feed (s : Text) : foldReturns ('\r' :: '\n' :: s) = '\n' :: foldReturns s := rfl

theorem foldReturns_alone {s : Text} (alone : s.head? ≠ some '\n') :
    foldReturns ('\r' :: s) = '\n' :: foldReturns s := by
  have single : ("\r\n".toList).isPrefixOf ('\r' :: s) = false := by
    cases s with
    | nil => rfl
    | cons c s =>
        have other : '\n' ≠ c := fun same => alone (congrArg some same.symm)
        simp [List.isPrefixOf, other]
  rw [foldReturns, replace_cons single]
  rfl

theorem foldReturns_cons {c : Char} (other : c ≠ '\r') (s : Text) :
    foldReturns (c :: s) = c :: foldReturns s := by
  have pair : ("\r\n".toList).isPrefixOf (c :: s) = false := by
    simp [List.isPrefixOf, Ne.symm other]
  have single : ("\r".toList).isPrefixOf (c :: replace "\r\n" ['\n'] s) = false := by
    simp [List.isPrefixOf, Ne.symm other]
  rw [foldReturns, replace_cons pair, replace_cons single]
  rfl

/-- A line feed comes first only if a break does that needs no carriage return. -/
theorem head?_unescapeBreaks {s : Text} (other : ∀ form ∈ bareBreaks, ¬ form <+: s) :
    (unescapeBreaks s).head? ≠ some '\n' := by
  cases s with
  | nil => nofun
  | cons c s =>
      rw [unescapeBreaks_cons other]
      rintro ⟨⟩
      exact other "\n" (by decide) (List.prefix_append "\n".toList s)

theorem normalizeBreaks_bare {form : Text} (bare : form ∈ bareBreaks) (s : Text) :
    normalizeBreaks (form ++ s) = '\n' :: normalizeBreaks s := by
  rw [normalizeBreaks_eq_fold, unescapeBreaks_bare bare, foldReturns_cons (by decide)]
  rfl

theorem normalizeBreaks_return_bare {form : Text} (bare : form ∈ bareBreaks) (s : Text) :
    normalizeBreaks ('\r' :: (form ++ s)) = '\n' :: normalizeBreaks s := by
  rw [normalizeBreaks_eq_fold, unescapeBreaks_return, unescapeBreaks_bare bare, foldReturns_feed]
  rfl

theorem normalizeBreaks_return {s : Text} (alone : ∀ form ∈ bareBreaks, ¬ form <+: s) :
    normalizeBreaks ('\r' :: s) = '\n' :: normalizeBreaks s := by
  rw [normalizeBreaks_eq_fold, unescapeBreaks_return, foldReturns_alone (head?_unescapeBreaks alone)]
  rfl

theorem normalizeBreaks_cons {c : Char} {s : Text} (plain : c ≠ '\r')
    (other : ∀ form ∈ bareBreaks, ¬ form <+: c :: s) :
    normalizeBreaks (c :: s) = c :: normalizeBreaks s := by
  rw [normalizeBreaks_eq_fold, unescapeBreaks_cons other, foldReturns_cons plain]
  rfl

theorem mem_breakForms {form : Text × Text} : form ∈ breakForms ↔
    form.2 = ['\n'] ∧ (form.1 = ['\r'] ∨ form.1 ∈ bareBreaks ∨
      ∃ bare ∈ bareBreaks, form.1 = '\r' :: bare) := by
  obtain ⟨written, feed⟩ := form
  simp only [breakForms, List.mem_map, List.mem_append, List.mem_cons]
  constructor
  · rintro ⟨_, (rfl | bare) | ⟨bare, listed, rfl⟩, ⟨⟩⟩
    · exact ⟨rfl, .inl rfl⟩
    · exact ⟨rfl, .inr (.inl bare)⟩
    · exact ⟨rfl, .inr (.inr ⟨bare, listed, rfl⟩)⟩
  · rintro ⟨rfl, rfl | bare | ⟨bare, listed, rfl⟩⟩
    · exact ⟨_, .inl (.inl rfl), rfl⟩
    · exact ⟨_, .inl (.inr bare), rfl⟩
    · exact ⟨_, .inr ⟨bare, listed, rfl⟩, rfl⟩

theorem unescapeBreaks_append_return (s t : Text) :
    unescapeBreaks (s ++ '\r' :: t) = unescapeBreaks s ++ '\r' :: unescapeBreaks t := by
  have kept : replace "\\\\n" ['\n'] ('\r' :: t) = '\r' :: replace "\\\\n" ['\n'] t := rfl
  unfold unescapeBreaks
  rw [replace_append_cons (by decide) (by decide), kept,
    replace_append_cons (by decide) (by decide)]
  rfl

theorem normalizeBreaks_append_return (s t : Text) :
    normalizeBreaks (s ++ '\r' :: t) = normalizeBreaks s ++ normalizeBreaks ('\r' :: t) := by
  have single (s t : Text) :
      replace "\r" ['\n'] (s ++ t) = replace "\r" ['\n'] s ++ replace "\r" ['\n'] t := by
    cases t with
    | nil => rw [List.append_nil]; exact (List.append_nil _).symm
    | cons c t => exact replace_append_cons (by decide) List.not_mem_nil _ s t
  rw [normalizeBreaks_eq_fold, normalizeBreaks_eq_fold, normalizeBreaks_eq_fold,
    unescapeBreaks_append_return, unescapeBreaks_return, foldReturns,
    replace_append_cons (by decide) (by decide), single]
  rfl

theorem breakForms_present : ∀ form ∈ breakForms, form.1 ≠ [] := by decide

theorem normalizeBreaks_scan (s : Text) : normalizeBreaks s = scan breakForms s := by
  induction s using scan_induction breakForms_present with
  | nil => rfl
  | form form rest listed found ih =>
      obtain ⟨feed, written⟩ := mem_breakForms.1 listed
      rw [scan_form (breakForms_present form listed) found, feed, ← ih, List.singleton_append]
      rcases written with alone | bare | ⟨bare, within, joined⟩
      · -- a longer form would begin here if a break stood behind the carriage return
        have longest := (longest?_some found).2.2
        rw [alone] at longest ⊢
        refine normalizeBreaks_return ?_
        intro bare within leads
        have longer := longest ('\r' :: bare, ['\n'])
          (mem_breakForms.2 ⟨rfl, .inr (.inr ⟨bare, within, rfl⟩)⟩)
          (List.cons_prefix_cons.2 ⟨rfl, leads⟩)
        have some : bare ≠ [] := by
          rintro rfl
          exact absurd within (by decide)
        exact some (List.length_eq_zero_iff.1 (Nat.le_zero.1 (Nat.le_of_succ_le_succ longer)))
      · exact normalizeBreaks_bare bare rest
      · rw [joined]
        exact normalizeBreaks_return_bare within rest
  | char c s none ih =>
      have absent := longest?_none_iff.1 none
      rw [scan_char none, ← ih]
      refine normalizeBreaks_cons ?_ ?_
      · rintro rfl
        exact absent (['\r'], ['\n']) (mem_breakForms.2 ⟨rfl, .inl rfl⟩)
          (List.prefix_append ['\r'] s)
      · intro bare within
        exact absent (bare, ['\n']) (mem_breakForms.2 ⟨rfl, .inr (.inl within)⟩)

/-- Line breaks are made uniform by one scan, which takes the longest break that begins at a place
and writes a line feed for it. Its pieces are the text in order, and each is a break or a character
that is kept. In particular a carriage return and a break behind it give one line feed, whatever
stands before and behind them. -/
theorem normalizeBreaks_eq_scan (s : Text) :
    normalizeBreaks s = scan breakForms s ∧
    (cut breakForms s).flatMap Prod.fst = s ∧
    (∀ piece ∈ cut breakForms s, piece ∈ breakForms ∨ ∃ c, piece = ([c], [c])) ∧
    ∀ bare ∈ bareBreaks, ∀ before after : Text,
      normalizeBreaks (before ++ '\r' :: (bare ++ after)) =
        normalizeBreaks before ++ '\n' :: normalizeBreaks after := by
  refine ⟨normalizeBreaks_scan s, flatMap_fst_cut breakForms_present s,
    mem_cut breakForms_present, ?_⟩
  intro bare within before after
  rw [normalizeBreaks_append_return, normalizeBreaks_return_bare within]

/-- Three backslashes behind a carriage return are no break, though two of them begin one. -/
theorem normalizeBreaks_eq_scan_mixed :
    let s : Text := "a\r\\\\\\n\r\r\\nb"
    normalizeBreaks s = "a\n\\\n\n\nb".toList ∧
      (['\\'], ['\\']) ∈ cut breakForms s ∧
      "\\n".toList ∈ bareBreaks ∧
      normalizeBreaks s = normalizeBreaks "a\r\\\\\\n\r" ++ '\n' :: normalizeBreaks "b" := by
  intro s
  obtain ⟨scanned, _, _, joined⟩ := normalizeBreaks_eq_scan s
  have within : "\\n".toList ∈ bareBreaks := by decide
  refine ⟨scanned.trans (by decide +kernel), by decide +kernel, within, ?_⟩
  exact joined "\\n" within "a\r\\\\\\n\r" "b"

end Text

end LivePage
