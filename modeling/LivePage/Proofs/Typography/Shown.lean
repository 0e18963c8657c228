import Mathlib.Data.List.TakeWhile
import LivePage.Proofs.Render.Scheme
import LivePage.Proofs.Typography.Typeset

/-!
What typography leaves of a text that is shown. A quote in another style takes the place of one
character, and a symbol that of several, so the characters that are no blanks are counted: where as
many are left as there were, no symbol was set and every character has its place. A text that reads
the same after trimming has then not been touched anywhere.
-/

namespace LivePage
open Markdown

/-- The characters of a text that are no blanks. -/
def ink (s : Text) : Text := s.filter fun c => !Text.isBlank c

theorem ink_append (s t : Text) : ink (s ++ t) = ink s ++ ink t := List.filter_append s t

theorem ink_trimBlank (s : Text) : ink (Text.trimBlank s) = ink s :=
  filter_trim (fun c blank => by rw [blank]; rfl) s

theorem ink_eq_nil {s : Text} : ink s = [] ↔ ∀ c ∈ s, Text.isBlank c = true := by
  simp [ink, List.filter_eq_nil_iff]

/-- A text of blanks only is trimmed to nothing. -/
theorem trimBlank_eq_nil {s : Text} : Text.trimBlank s = [] ↔ ink s = [] := by
  constructor
  · intro none
    rw [← ink_trimBlank, none]
    rfl
  · intro blank
    rw [Text.trimBlank, Text.trim, Text.trimStart, List.dropWhile_eq_nil_iff.2 (ink_eq_nil.1 blank)]
    rfl

/-- The same character, or neither of both a blank. -/
def Alike (c d : Char) : Prop := c = d ∨ (Text.isBlank c = false ∧ Text.isBlank d = false)

theorem Alike.refl (c : Char) : Alike c c := .inl rfl

section Alike

variable {s t : Text}

theorem Alike.isBlank {c d : Char} (alike : Alike c d) : Text.isBlank c = Text.isBlank d := by
  rcases alike with rfl | ⟨first, second⟩
  · rfl
  · rw [first, second]

theorem length_ink_of_alike (alike : List.Forall₂ Alike s t) : (ink s).length = (ink t).length := by
  induction alike with
  | nil => rfl
  | @cons c d s t first _ ih =>
      have blank := first.isBlank
      cases shown : Text.isBlank d with
      | true => simpa [ink, blank, shown] using ih
      | false => simpa [ink, blank, shown] using ih

theorem forall₂_dropWhile (alike : List.Forall₂ Alike s t) :
    List.Forall₂ Alike (s.dropWhile Text.isBlank) (t.dropWhile Text.isBlank) := by
  induction alike with
  | nil => exact .nil
  | @cons c d s t first others ih =>
      rw [List.dropWhile_cons, List.dropWhile_cons, first.isBlank]
      split
      · exact ih
      · exact .cons first others

theorem eq_of_dropWhile (alike : List.Forall₂ Alike s t)
    (same : s.dropWhile Text.isBlank = t.dropWhile Text.isBlank) : s = t := by
  induction alike with
  | nil => rfl
  | @cons c d s t first others ih =>
      rw [List.dropWhile_cons, List.dropWhile_cons, first.isBlank] at same
      split at same
      · next blank =>
          have equal : c = d := first.resolve_right fun shown => by
            rw [shown.2] at blank
            cases blank
          rw [equal, ih same]
      · exact same

theorem forall₂_alike_refl (s : Text) : List.Forall₂ Alike s s :=
  List.forall₂_same.2 fun c _ => .refl c

/-- Blanks at the ends do not tell texts apart that are alike. -/
theorem eq_of_trimBlank (alike : List.Forall₂ Alike s t)
    (same : Text.trimBlank s = Text.trimBlank t) : s = t := by
  refine eq_of_dropWhile alike (List.reverse_injective ?_)
  have inner := List.rel_reverse (forall₂_dropWhile alike)
  exact eq_of_dropWhile inner (List.reverse_injective same)

end Alike

/-- One text has fewer characters that show than another, but some if that has any; and if it has
as many, the texts are alike. -/
structure Thins (after before : Text) : Prop where
  le : (ink after).length ≤ (ink before).length
  alike : (ink after).length = (ink before).length → List.Forall₂ Alike after before
  shows : ink after = [] → ink before = []

namespace Thins

variable {after before after' before' : Text}

theorem of_alike (alike : List.Forall₂ Alike after before) : Thins after before := by
  have same := length_ink_of_alike alike
  refine ⟨same.le, fun _ => alike, fun none => ?_⟩
  rwa [← List.length_eq_zero_iff, ← same, List.length_eq_zero_iff]

theorem refl (s : Text) : Thins s s := of_alike (forall₂_alike_refl s)

/-- If as much shows of both texts together, as much shows of each. -/
theorem split (first : Thins after before) (second : Thins after' before')
    (same : (ink (after ++ after')).length = (ink (before ++ before')).length) :
    List.Forall₂ Alike after before ∧ List.Forall₂ Alike after' before' := by
  rw [ink_append, ink_append, List.length_append, List.length_append] at same
  have le := first.le
  have le' := second.le
  exact ⟨first.alike (by omega), second.alike (by omega)⟩

theorem append (first : Thins after before) (second : Thins after' before') :
    Thins (after ++ after') (before ++ before') where
  le := by
    rw [ink_append, ink_append, List.length_append, List.length_append]
    exact Nat.add_le_add first.le second.le
  alike same := by
    obtain ⟨alike, alike'⟩ := first.split second same
    exact List.rel_append alike alike'
  shows none := by
    rw [ink_append, List.append_eq_nil_iff] at none
    rw [ink_append, first.shows none.1, second.shows none.2, List.append_nil]

theorem eq_of_append (first : Thins after before) (second : Thins after' before')
    (same : after ++ after' = before ++ before') : after = before ∧ after' = before' := by
  obtain ⟨alike, _⟩ := first.split second (by rw [same])
  exact List.append_inj same alike.length_eq

theorem eq_of_trimBlank (thins : Thins after before)
    (same : Text.trimBlank after = Text.trimBlank before) : after = before := by
  have equal : (ink after).length = (ink before).length := by
    rw [← ink_trimBlank after, ← ink_trimBlank before, same]
  exact LivePage.eq_of_trimBlank (thins.alike equal) same

end Thins

namespace Markdown

/-- Values whose nodes show the texts below them. -/
def Value.carriesText : Value → Bool
  | .link _ | .emph | .strong | .strikethrough | .superscript | .subscript => true
  | _ => false

namespace Node

theorem inlineTextAll_cons (n : Node) (rest : List Node) :
    inlineTextAll (n :: rest) = inlineTextAll [n] ++ inlineTextAll rest := by
  obtain ⟨v, span, children⟩ := n
  cases v <;> exact congrArg (· ++ inlineTextAll rest) (List.append_nil _).symm

theorem inlineTextAll_carrier {n : Node} (carries : n.value.carriesText = true) :
    inlineTextAll [n] = inlineTextAll n.children := by
  obtain ⟨v, span, children⟩ := n
  cases v <;> cases carries <;> exact List.append_nil _

theorem inlineTextAll_other {n : Node} (carries : n.value.carriesText = false)
    (children : List Node) : inlineTextAll [.mk n.value n.span children] = inlineTextAll [n] := by
  obtain ⟨v, span, _⟩ := n
  cases v <;> cases carries <;> rfl

theorem inlineTextAll_below {n : Node} {children : List Node}
    (same : n.value.carriesText = true → inlineTextAll children = inlineTextAll n.children) :
    inlineTextAll [.mk n.value n.span children] = inlineTextAll [n] := by
  cases carries : n.value.carriesText with
  | true =>
      rw [inlineTextAll_carrier carries, ← same carries]
      exact inlineTextAll_carrier (n := .mk n.value n.span children) carries
  | false => exact inlineTextAll_other carries children

theorem inlineTextAll_append (ns others : List Node) :
    inlineTextAll (ns ++ others) = inlineTextAll ns ++ inlineTextAll others := by
  induction ns with
  | nil => rfl
  | cons n ns ih =>
      rw [List.cons_append, inlineTextAll_cons, ih, inlineTextAll_cons n ns, List.append_assoc]

end Node
end Markdown

namespace Typographer
open Node

/-- A text without any written form of a symbol. -/
def Formless (s : Text) : Prop := ∀ form ∈ symbolForms, ¬ form.1 <:+: s

instance (s : Text) : Decidable (Formless s) :=
  inferInstanceAs (Decidable (∀ form ∈ symbolForms, ¬ form.1 <:+: s))

theorem ink_of_form : ∀ form ∈ symbolForms,
    0 < (ink form.2).length ∧ (ink form.2).length < (ink form.1).length := by
  decide

theorem scan_of_formless {s : Text} (formless : Formless s) : Text.scan symbolForms s = s := by
  induction s using Text.scan_induction symbolForms_present with
  | nil => rfl
  | form form rest listed found ih =>
      exact absurd (List.prefix_append form.1 rest).isInfix (formless form listed)
  | char c s none ih =>
      have later : Formless s := fun form listed inside =>
        formless form listed (inside.trans (List.suffix_cons c s).isInfix)
      rw [Text.scan_char none, ih later]

/-- Setting symbols finds no form, or it takes from what shows, but not all. -/
theorem formless_or_ink_lt (s : Text) :
    Formless s ∨ (0 < (ink (Text.scan symbolForms s)).length ∧
      (ink (Text.scan symbolForms s)).length < (ink s).length) := by
  induction s using Text.scan_induction symbolForms_present with
  | nil => exact .inl fun form listed inside => symbolForms_present form listed (List.infix_nil.1 inside)
  | form form rest listed found ih =>
      obtain ⟨some, fewer⟩ := ink_of_form form listed
      have le : (ink (Text.scan symbolForms rest)).length ≤ (ink rest).length := by
        rcases ih with formless | ⟨_, lt⟩
        · rw [scan_of_formless formless]
        · exact lt.le
      rw [Text.scan_form (symbolForms_present form listed) found, ink_append, ink_append,
        List.length_append, List.length_append]
      exact .inr ⟨by omega, by omega⟩
  | char c s none ih =>
      rcases ih with formless | ⟨some, fewer⟩
      · refine .inl fun form listed inside => ?_
        rcases List.infix_cons_iff.1 inside with here | later
        · exact Text.longest?_none_iff.1 none form listed here
        · exact formless form listed later
      · have lead (t : Text) : (ink (c :: t)).length = (ink [c]).length + (ink t).length := by
          rw [← List.singleton_append, ink_append, List.length_append]
        rw [Text.scan_char none, lead, lead s]
        exact .inr ⟨by omega, by omega⟩

theorem formless_of_blank {s : Text} (blank : ink s = []) : Formless s := by
  intro form listed inside
  have none : ink form.1 = [] := List.infix_nil.1 (blank ▸ inside.filter _)
  have fewer := (ink_of_form form listed).2
  rw [none] at fewer
  cases fewer

theorem thins_scan {s before : Text} (alike : List.Forall₂ Alike s before) :
    Thins (Text.scan symbolForms s) before := by
  have same := length_ink_of_alike alike
  rcases formless_or_ink_lt s with formless | ⟨some, fewer⟩
  · rw [scan_of_formless formless]
    exact .of_alike alike
  · refine ⟨by omega, fun equal => absurd equal (by omega), fun none => ?_⟩
    rw [none] at some
    cases some

/-- The style has no blanks among its quotes. -/
def Visible (quotes : QuoteStyle) : Prop := ∀ c ∈ quotes.toText, Text.isBlank c = false

instance (quotes : QuoteStyle) : Decidable (Visible quotes) :=
  inferInstanceAs (Decidable (∀ c ∈ quotes.toText, Text.isBlank c = false))

theorem not_isCurlyQuote_of_isBlank {c : Char} (blank : Text.isBlank c = true) :
    isCurlyQuote c = false := by
  cases curly : isCurlyQuote c with
  | false => rfl
  | true =>
      simp only [isCurlyQuote, Bool.or_eq_true, decide_eq_true_eq] at curly
      rcases curly with ((rfl | rfl) | rfl) | rfl <;> cases blank

theorem alike_map {quotes : QuoteStyle} (visible : Visible quotes) (c : Char) :
    Alike (quotes.map c) c := by
  cases curly : isCurlyQuote c with
  | false => exact .inl (map_of_not_isCurlyQuote quotes curly)
  | true =>
      simp only [Visible, QuoteStyle.toText, List.forall_mem_cons] at visible
      obtain ⟨doubleOpen, doubleClose, singleOpen, singleClose, _⟩ := visible
      simp only [isCurlyQuote, Bool.or_eq_true, decide_eq_true_eq] at curly
      rcases curly with ((rfl | rfl) | rfl) | rfl
      · exact .inr ⟨doubleOpen, by decide⟩
      · exact .inr ⟨doubleClose, by decide⟩
      · exact .inr ⟨singleOpen, by decide⟩
      · exact .inr ⟨singleClose, by decide⟩

theorem alike_styleAligned {quotes : QuoteStyle} (visible : Visible quotes) (origins : List Char)
    (s : Text) : List.Forall₂ Alike (styleAligned quotes origins s) s := by
  induction s generalizing origins with
  | nil =>
      rw [styleAligned.eq_def]
      exact .nil
  | cons c s ih =>
      rw [styleAligned.eq_def]
      split
      · next h => cases h
      · next h =>
          cases h
          split
          · split
            · exact .cons (.refl c) (ih [])
            · refine .cons ?_ (ih _)
              split
              · exact .refl c
              · exact alike_map visible c
          · exact .cons (.refl c) (ih _)

theorem alike_styledText {t : Typographer} (visible : Visible t.quotes) (span : Span) (s : Text) :
    List.Forall₂ Alike (t.styledText span s) s := by
  have same := forall₂_alike_refl s
  unfold styledText styleQuotes
  split
  · exact same
  · simp only
    split
    · exact same
    split
    · exact List.forall₂_map_left_iff.2 (List.forall₂_same.2 fun c _ => alike_map visible c)
    split
    · exact same
    · split
      · exact alike_styleAligned visible _ s
      · exact same

theorem styledText_of_plain {t : Typographer} {s : Text} (plain : ∀ c ∈ s, isCurlyQuote c = false)
    (span : Span) : t.styledText span s = s := by
  have none : s.any isCurlyQuote = false := List.any_eq_false.2 fun c member => by
    rw [plain c member]
    exact Bool.false_ne_true
  unfold styledText styleQuotes
  rw [none]
  simp

theorem styledRun_cons (t : Typographer) (n : Node) (run : List Node) :
    t.styledRun (n :: run) = (n.text?.map (t.styledText n.span)).getD [] ++ t.styledRun run := rfl

theorem alike_styledRun {t : Typographer} (visible : Visible t.quotes) (run : List Node) :
    List.Forall₂ Alike (t.styledRun run) (runText run) := by
  induction run with
  | nil => exact .nil
  | cons n run ih =>
      rw [styledRun_cons, runText, List.flatMap_cons]
      refine List.rel_append ?_ ih
      cases n.text? with
      | none => exact .nil
      | some s => exact alike_styledText visible n.span s

theorem styledRun_of_plain {t : Typographer} {run : List Node}
    (plain : ∀ c ∈ runText run, isCurlyQuote c = false) : t.styledRun run = runText run := by
  induction run with
  | nil => rfl
  | cons n run ih =>
      rw [runText, List.flatMap_cons, List.forall_mem_append] at plain
      rw [styledRun_cons, runText, List.flatMap_cons]
      refine congrArg₂ _ ?_ (ih plain.2)
      cases text : n.text? with
      | none => rfl
      | some s =>
          rw [text] at plain
          exact styledText_of_plain plain.1 n.span

/-- A run that stays as it is has no form, and its quotes are in the style already. -/
theorem eq_and_formless_of_scan {t : Typographer} (visible : Visible t.quotes) {run : List Node}
    (same : Text.scan symbolForms (t.styledRun run) = runText run) :
    t.styledRun run = runText run ∧ Formless (runText run) := by
  have length := length_ink_of_alike (alike_styledRun visible run)
  rcases formless_or_ink_lt (t.styledRun run) with formless | ⟨_, fewer⟩
  · rw [scan_of_formless formless] at same
    exact ⟨same, same ▸ formless⟩
  · rw [same] at fewer
    omega

theorem inlineTextAll_run {run : List Node} (texts : AllTexts run) :
    inlineTextAll run = runText run := by
  induction run with
  | nil => rfl
  | cons n run ih =>
      obtain ⟨isText, later⟩ := List.forall_mem_cons.1 texts
      obtain ⟨s, text⟩ := Option.isSome_iff_exists.1 isText
      rw [runText_text text, eq_of_text? text, ← ih later]
      rfl

/-- Siblings whose shown texts stay: every run of texts that is shown has no form of a symbol, and
its quotes are in the style already. -/
inductive Keeps (t : Typographer) : List Node → Prop where
  | nil : Keeps t []
  | other {n : Node} {rest : List Node} :
      n.text? = none → (n.value.carriesText = true → Keeps t n.children) → Keeps t rest →
      Keeps t (n :: rest)
  | run {first : Node} {more rest : List Node} :
      (∀ n ∈ first :: more, n.text?.isSome) → (∀ n ∈ rest.head?, n.text? = none) →
      t.styledRun (first :: more) = runText (first :: more) → Formless (runText (first :: more)) →
      Keeps t rest → Keeps t (first :: more ++ rest)

section Keeps

variable {t : Typographer} {nodes : List Node}

theorem inlineTextAll_applyAll_run {first : Node} {more rest : List Node}
    (texts : AllTexts (first :: more)) (ends : Bounded rest) :
    inlineTextAll (t.applyAll (first :: more ++ rest)) =
      Text.scan symbolForms (t.styledRun (first :: more)) ++ inlineTextAll (t.applyAll rest) := by
  rw [applyAll_run t texts ends]
  rfl

theorem Keeps.inlineTextAll_eq (keeps : Keeps t nodes) :
    inlineTextAll (t.applyAll nodes) = inlineTextAll nodes := by
  induction keeps with
  | nil => rfl
  | @other n rest other _ _ below after =>
      rw [applyAll_other t other, inlineTextAll_cons, inlineTextAll_cons n, after,
        inlineTextAll_below below]
  | run texts ends styled formless _ after =>
      rw [inlineTextAll_applyAll_run texts ends, inlineTextAll_append, inlineTextAll_run texts, styled,
        scan_of_formless formless, after]

theorem thins_other {n : Node} {children : List Node}
    (below : Thins (inlineTextAll children) (inlineTextAll n.children)) :
    Thins (inlineTextAll [.mk n.value n.span children]) (inlineTextAll [n]) := by
  cases carries : n.value.carriesText with
  | true =>
      rw [inlineTextAll_carrier carries]
      exact (inlineTextAll_carrier (n := .mk n.value n.span children) carries).symm ▸ below
  | false =>
      rw [inlineTextAll_other carries]
      exact .refl _

theorem thins_applyAll (visible : Visible t.quotes) (nodes : List Node) :
    Thins (inlineTextAll (t.applyAll nodes)) (inlineTextAll nodes) := by
  induction nodes using run_induction with
  | nil => exact .refl []
  | other n rest other below after =>
      rw [applyAll_other t other, inlineTextAll_cons, inlineTextAll_cons n]
      exact (thins_other below).append after
  | run first more rest texts ends _ after =>
      rw [inlineTextAll_applyAll_run texts ends, inlineTextAll_append, inlineTextAll_run texts]
      exact (thins_scan (alike_styledRun visible _)).append after

/-- A shown text stays only if every run of it does. -/
theorem keeps_of_inlineTextAll_eq (visible : Visible t.quotes) (nodes : List Node)
    (same : inlineTextAll (t.applyAll nodes) = inlineTextAll nodes) : Keeps t nodes := by
  induction nodes using run_induction with
  | nil => exact .nil
  | other n rest other below after =>
      rw [applyAll_other t other, inlineTextAll_cons, inlineTextAll_cons n] at same
      obtain ⟨here, later⟩ := (thins_other (thins_applyAll visible n.children)).eq_of_append
        (thins_applyAll visible rest) same
      refine .other other (fun carries => below ?_) (after later)
      rw [← inlineTextAll_carrier carries, ← here]
      exact (inlineTextAll_carrier (n := .mk n.value n.span _) carries).symm
  | run first more rest texts ends _ after =>
      rw [inlineTextAll_applyAll_run texts ends, inlineTextAll_append, inlineTextAll_run texts] at same
      obtain ⟨here, later⟩ := (thins_scan (alike_styledRun visible _)).eq_of_append
        (thins_applyAll visible rest) same
      obtain ⟨styled, formless⟩ := eq_and_formless_of_scan visible here
      exact .run texts ends styled formless (after later)

theorem keeps_of_blank (t : Typographer) (nodes : List Node)
    (blank : ink (inlineTextAll nodes) = []) : Keeps t nodes := by
  induction nodes using run_induction with
  | nil => exact .nil
  | other n rest other below after =>
      rw [inlineTextAll_cons, ink_append, List.append_eq_nil_iff] at blank
      refine .other other (fun carries => below ?_) (after blank.2)
      rw [← inlineTextAll_carrier carries]
      exact blank.1
  | run first more rest texts ends _ after =>
      rw [inlineTextAll_append, inlineTextAll_run texts, ink_append, List.append_eq_nil_iff] at blank
      have plain := styledRun_of_plain (t := t) fun c member =>
        not_isCurlyQuote_of_isBlank (ink_eq_nil.1 blank.1 c member)
      exact .run texts ends plain (formless_of_blank blank.1) (after blank.2)

end Keeps

end Typographer
end LivePage
