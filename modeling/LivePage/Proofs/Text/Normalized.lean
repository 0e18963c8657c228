import LivePage.Render.Processor
import LivePage.Proofs.Text.Replace

/-!
Texts whose line breaks are made uniform. Every form of a break is replaced by a line feed. A piece
without line feeds that is there after a replacement lies between those that came in, and so was
there before: the forms without a line feed stay away once they are gone, whatever is replaced after
them, and a second pass finds nothing to do.
-/

namespace LivePage

namespace Text

theorem contains_iff_isInfixOf {piece s : Text} : contains piece s = true ↔ piece <:+: s := by
  induction s with
  | nil => rw [contains, List.isEmpty_iff, List.infix_nil]
  | cons c s ih => rw [contains, Bool.or_eq_true, ih, List.isPrefixOf_iff_prefix, List.infix_cons_iff]

theorem contains_singleton_iff {c : Char} {s : Text} : contains [c] s = true ↔ c ∈ s := by
  rw [contains_iff_isInfixOf]
  constructor
  · intro found
    exact found.subset List.mem_cons_self
  · intro member
    obtain ⟨before, after, whole⟩ := List.append_of_mem member
    exact ⟨before, after, by rw [whole, List.append_assoc, List.singleton_append]⟩

section Foreign

variable {mark piece : Text} {b : Char}

/-- What a text begins with after replacing, up to the first character that came in, it began with
before. -/
theorem prefix_of_prefix_replace (some : piece ≠ []) (foreign : b ∉ mark) {s : Text}
    (leads : mark <+: replace piece [b] s) : mark <+: s := by
  induction mark generalizing s with
  | nil => exact List.nil_prefix
  | cons d mark ih =>
      obtain ⟨other, later⟩ := not_or.1 (mt List.mem_cons.2 foreign)
      cases s with
      | nil => exact leads
      | cons c s =>
          rcases prefix_or_not piece c s with ⟨r, whole⟩ | no
          · rw [whole, replace_append some, List.singleton_append, List.cons_prefix_cons] at leads
            exact absurd leads.1.symm other
          · rw [replace_cons no, List.cons_prefix_cons] at leads
            exact List.cons_prefix_cons.2 ⟨leads.1, ih later leads.2⟩

theorem infix_of_infix_replace (some : piece ≠ []) (foreign : b ∉ mark) {s : Text}
    (found : mark <:+: replace piece [b] s) : mark <:+: s := by
  induction h : s.length using Nat.strongRecOn generalizing s with
  | ind n ih =>
      subst h
      cases s with
      | nil => exact found
      | cons c s =>
          rcases prefix_or_not piece c s with ⟨r, whole⟩ | no
          · have shorter : r.length < (c :: s).length := by
              have present := List.length_pos_iff.2 some
              rw [whole, List.length_append]
              omega
            rw [whole, replace_append some, List.singleton_append, List.infix_cons_iff] at found
            rw [whole]
            rcases found with here | later
            · cases mark with
              | nil => exact List.nil_infix
              | cons d mark =>
                  rw [List.cons_prefix_cons] at here
                  exact absurd (here.1 ▸ List.mem_cons_self) foreign
            · exact (ih r.length shorter later rfl).trans (List.suffix_append piece r).isInfix
          · have whole := found
            rw [replace_cons no, List.infix_cons_iff, ← replace_cons no] at whole
            rcases whole with here | later
            · exact (prefix_of_prefix_replace some foreign here).isInfix
            · exact (ih s.length (Nat.lt_succ_self _) later rfl).trans (List.suffix_cons c s).isInfix

theorem not_infix_replace (some : piece ≠ []) (foreign : b ∉ piece) (s : Text) :
    ¬ piece <:+: replace piece [b] s := by
  induction h : s.length using Nat.strongRecOn generalizing s with
  | ind n ih =>
      subst h
      intro found
      cases s with
      | nil => exact some (List.infix_nil.1 found)
      | cons c s =>
          rcases prefix_or_not piece c s with ⟨r, whole⟩ | no
          · have shorter : r.length < (c :: s).length := by
              have present := List.length_pos_iff.2 some
              rw [whole, List.length_append]
              omega
            rw [whole, replace_append some, List.singleton_append, List.infix_cons_iff] at found
            rcases found with here | later
            · obtain ⟨d, piece', rfl⟩ := List.exists_cons_of_ne_nil some
              rw [List.cons_prefix_cons] at here
              exact foreign (here.1 ▸ List.mem_cons_self)
            · exact ih r.length shorter r rfl later
          · have whole := found
            rw [replace_cons no, List.infix_cons_iff, ← replace_cons no] at whole
            rcases whole with here | later
            · have began := prefix_of_prefix_replace some foreign here
              rw [← List.isPrefixOf_iff_prefix, no] at began
              cases began
            · exact ih s.length (Nat.lt_succ_self _) s rfl later

end Foreign

/-- The pass that replaces pieces of several forms by `b`, one form after the other. -/
def unify (b : Char) (forms : List Text) (s : Text) : Text :=
  forms.foldl (fun t form => replace form [b] t) s

section Forms

variable {b : Char} {forms : List Text} {s : Text}

theorem infix_of_infix_unify (present : ∀ form ∈ forms, form ≠ []) {mark : Text}
    (foreign : b ∉ mark) (found : mark <:+: unify b forms s) : mark <:+: s := by
  induction forms generalizing s with
  | nil => exact found
  | cons form forms ih =>
      obtain ⟨first, others⟩ := List.forall_mem_cons.1 present
      exact infix_of_infix_replace first foreign (ih others found)

theorem not_infix_unify (present : ∀ form ∈ forms, form ≠ []) (s : Text) :
    ∀ form ∈ forms, b ∉ form → ¬ form <:+: unify b forms s := by
  induction forms generalizing s with
  | nil => simp
  | cons form forms ih =>
      obtain ⟨first, others⟩ := List.forall_mem_cons.1 present
      rw [List.forall_mem_cons]
      refine ⟨?_, ih others (replace form [b] s)⟩
      intro foreign found
      exact not_infix_replace first foreign s (infix_of_infix_unify others foreign found)

theorem unify_of_absent (absent : ∀ form ∈ forms, ¬ form <:+: s) : unify b forms s = s := by
  induction forms with
  | nil => rfl
  | cons form forms ih =>
      obtain ⟨first, others⟩ := List.forall_mem_cons.1 absent
      have missing : contains form s = false := by
        rwa [← Bool.not_eq_true, contains_iff_isInfixOf]
      rw [unify, List.foldl_cons, replace_of_absent missing]
      exact ih others

theorem unify_ne_nil (present : s ≠ []) : unify b forms s ≠ [] := by
  induction forms generalizing s with
  | nil => exact present
  | cons form forms ih =>
      obtain ⟨c, s, rfl⟩ := List.exists_cons_of_ne_nil present
      have first : replace form [b] (c :: s) ≠ [] := by
        rw [replace, replaceFrom]
        split <;> simp
      exact ih first

end Forms

theorem normalizeBreaks_eq_unify (s : Text) : normalizeBreaks s = unify '\n' lineBreakForms s := rfl

/-- A pair of a carriage return and a line feed may come about behind another carriage return, but
the form that is replaced last is its first character. -/
theorem normalizeBreaks_normal (s : Text) :
    '\r' ∉ normalizeBreaks s ∧ ¬ ['\\', 'n'] <:+: normalizeBreaks s := by
  have present : ∀ form ∈ lineBreakForms, form ≠ [] := by decide
  have absent := not_infix_unify (b := '\n') present s
  rw [normalizeBreaks_eq_unify, ← contains_singleton_iff, contains_iff_isInfixOf]
  exact ⟨absent ['\r'] (by decide) (by decide), absent ['\\', 'n'] (by decide) (by decide)⟩

/-- A text stays as it is exactly if it has neither a carriage return nor a backslash in front of
an n: each of the four forms has one of the two in it. -/
theorem normalizeBreaks_eq_self_iff {s : Text} :
    normalizeBreaks s = s ↔ '\r' ∉ s ∧ ¬ ['\\', 'n'] <:+: s := by
  constructor
  · intro same
    have normal := normalizeBreaks_normal s
    rwa [same] at normal
  · rintro ⟨plain, unescaped⟩
    refine unify_of_absent ?_
    intro form listed found
    simp only [lineBreakForms, List.mem_cons, List.not_mem_nil, or_false] at listed
    rcases listed with rfl | rfl | rfl | rfl
    · exact unescaped ((by decide : ['\\', 'n'] <:+: ['\\', '\\', 'n']).trans found)
    · exact unescaped found
    · exact plain (found.subset (by decide))
    · exact plain (found.subset (by decide))

theorem normalizeBreaks_idem (s : Text) :
    normalizeBreaks (normalizeBreaks s) = normalizeBreaks s :=
  normalizeBreaks_eq_self_iff.2 (normalizeBreaks_normal s)

theorem isEmpty_normalizeBreaks (s : Text) : (normalizeBreaks s).isEmpty = s.isEmpty := by
  cases s with
  | nil => rfl
  | cons c s =>
      have present : normalizeBreaks (c :: s) ≠ [] := unify_ne_nil (List.cons_ne_nil c s)
      rw [List.isEmpty_eq_false_iff.2 present]
      rfl

end Text

namespace Processor

theorem render_normalizeBreaks {m : Type → Type} [Monad m] (p : Processor m) (s : Text) :
    p.render (Text.normalizeBreaks s) = p.render s := by
  unfold render
  rw [Text.isEmpty_normalizeBreaks, Text.normalizeBreaks_idem]

/-- A text with uniform line breaks has no carriage return and no backslash in front of an n, so it
is its own uniform text, and every processor renders it as the text it came from. -/
theorem uniform_breaks (s : Text) :
    ('\r' ∉ Text.normalizeBreaks s ∧ ¬ ['\\', 'n'] <:+: Text.normalizeBreaks s) ∧
    Text.normalizeBreaks (Text.normalizeBreaks s) = Text.normalizeBreaks s ∧
    ∀ (m : Type → Type) [Monad m] (p : Processor m),
      p.render s = p.render (Text.normalizeBreaks s) := by
  refine ⟨Text.normalizeBreaks_normal s, Text.normalizeBreaks_idem s, ?_⟩
  intro m _ p
  exact (p.render_normalizeBreaks s).symm

end Processor

/-- Backslashes in front of an escaped break are kept, but for the one that escapes it. -/
example : Text.normalizeBreaks "a\\\\\\nb\r\r\nc\\" = "a\\\nb\n\nc\\".toList := by decide

end LivePage
