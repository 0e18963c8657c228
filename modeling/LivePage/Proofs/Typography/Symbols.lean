import LivePage.Typography.Typographer
import LivePage.Proofs.Text.Scanning

/-!
The written forms of the four symbols, and their replacement as one scan of a text. No form has a
character of another symbol and none begins inside another, so it does not matter that a scan takes
the longest, and a text in which symbols were set has no form left.
-/

namespace LivePage
namespace Typographer

/-- What is written for a symbol. The letters may be of either case. -/
def symbolForms : List (Text × Text) :=
  [("(c)", ['©']), ("(C)", ['©']), ("(r)", ['®']), ("(R)", ['®']), ("(tm)", ['™']), ("(tM)", ['™']),
    ("(Tm)", ['™']), ("(TM)", ['™']), ("+-", ['±'])]

theorem symbolForms_present : ∀ form ∈ symbolForms, form.1 ≠ [] := by decide

theorem symbols_form (rest : Text) :
    ∀ form ∈ symbolForms, symbols (form.1 ++ rest) = form.2 ++ symbols rest := by
  simp only [symbolForms, List.forall_mem_cons]
  exact ⟨rfl, rfl, rfl, rfl, rfl, rfl, rfl, rfl, rfl, nofun⟩

theorem exists_form_of_symbolAt? {s : Text} {found : Char × Nat} (here : symbolAt? s = some found) :
    ∃ form ∈ symbolForms, form.1 <+: s := by
  have begins {w : Text} (symbol rest : Text) (listed : (w, symbol) ∈ symbolForms) :
      ∃ form ∈ symbolForms, form.1 <+: w ++ rest :=
    ⟨_, listed, List.prefix_append w rest⟩
  unfold symbolAt? at here
  split at here
  · next rest => exact begins (w := "+-") ['±'] rest (by decide)
  · next c rest =>
      split at here
      · next letter =>
          simp only [Bool.or_eq_true, decide_eq_true_eq] at letter
          rcases letter with rfl | rfl
          · exact begins (w := "(c)") ['©'] rest (by decide)
          · exact begins (w := "(C)") ['©'] rest (by decide)
      · split at here
        · next letter =>
            simp only [Bool.or_eq_true, decide_eq_true_eq] at letter
            rcases letter with rfl | rfl
            · exact begins (w := "(r)") ['®'] rest (by decide)
            · exact begins (w := "(R)") ['®'] rest (by decide)
        · cases here
  · next c d rest _ =>
      split at here
      · next letters =>
          simp only [Bool.and_eq_true, Bool.or_eq_true, decide_eq_true_eq] at letters
          rcases letters with ⟨rfl | rfl, rfl | rfl⟩
          · exact begins (w := "(tm)") ['™'] rest (by decide)
          · exact begins (w := "(tM)") ['™'] rest (by decide)
          · exact begins (w := "(Tm)") ['™'] rest (by decide)
          · exact begins (w := "(TM)") ['™'] rest (by decide)
      · cases here
  · cases here

theorem symbols_cons {c : Char} {s : Text} (none : Text.longest? symbolForms (c :: s) = none) :
    symbols (c :: s) = c :: symbols s := by
  have absent : symbolAt? (c :: s) = .none := by
    cases here : symbolAt? (c :: s) with
    | none => rfl
    | some found =>
        obtain ⟨form, listed, leads⟩ := exists_form_of_symbolAt? here
        exact absurd leads (Text.longest?_none_iff.1 none form listed)
  rw [symbols, symbolsFrom, absent]
  rfl

theorem symbols_eq_scan (s : Text) : symbols s = Text.scan symbolForms s := by
  induction s using Text.scan_induction symbolForms_present with
  | nil => rfl
  | form form rest listed found ih =>
      rw [symbols_form rest form listed, ih,
        Text.scan_form (symbolForms_present form listed) found]
  | char c s none ih => rw [symbols_cons none, ih, Text.scan_char none]

theorem symbols_symbols (s : Text) : symbols (symbols s) = symbols s := by
  rw [symbols_eq_scan, symbols_eq_scan]
  exact Text.scan_scan symbolForms_present (by decide) (by decide) s

/-- A character of a text with symbols was there, or it is a symbol. -/
theorem mem_symbols {c : Char} {s : Text} (member : c ∈ symbols s) :
    c ∈ s ∨ ∃ form ∈ symbolForms, c ∈ form.2 := by
  induction s using Text.scan_induction symbolForms_present with
  | nil => cases member
  | form form rest listed found ih =>
      rw [symbols_form rest form listed, List.mem_append] at member
      rcases member with new | old
      · exact .inr ⟨form, listed, new⟩
      · exact (ih old).imp_left (List.mem_append_right form.1)
  | char d s none ih =>
      rw [symbols_cons none, List.mem_cons] at member
      rcases member with rfl | old
      · exact .inl List.mem_cons_self
      · exact (ih old).imp_left (List.mem_cons_of_mem d)

end Typographer
end LivePage
