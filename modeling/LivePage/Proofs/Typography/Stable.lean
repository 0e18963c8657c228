import LivePage.Proofs.Typography.Typeset

/-!
When typesetting without a source is stable. Every text is then mapped by the style, so a second time
its characters are mapped again; runs and symbols are settled after the first time. Whether that
changes anything depends on the style alone, and a style that maps one of its own characters on shows
it in a text of one character.
-/

namespace LivePage
open Markdown

theorem map_curly (c : Char) : QuoteStyle.curly.map c = c := by
  unfold QuoteStyle.map QuoteStyle.curly
  split_ifs with open2 close2 open1 close1
  · exact open2.symm
  · exact close2.symm
  · exact open1.symm
  · exact close1.symm
  · rfl

namespace Typographer

theorem styledText_sourceless (q : QuoteStyle) (span : Span) (s : Text) :
    styledText ⟨q, none⟩ span s = s.map q.map := by
  rw [styledText]
  split
  · next curly =>
      have curly : q = QuoteStyle.curly := curly
      have same : q.map = id := by
        funext c
        rw [curly, map_curly]
        rfl
      rw [same, List.map_id]
  · have none : (([] : Text).any isCurlyQuote) = false := rfl
    simp only [Option.getD_none, none, Bool.false_eq_true, if_false, styleQuotes]
    split
    · next plain =>
        have straight : ∀ c ∈ s, isCurlyQuote c = false := by simpa using plain
        exact ((List.map_congr_left fun c member =>
          map_of_not_isCurlyQuote q (straight c member)).trans (List.map_id s)).symm
    · rfl

def Steady (q : QuoteStyle) : Prop := ∀ c, isCurlyQuote c = true → q.map (q.map c) = q.map c

/-- A text in which no quote is left to be mapped and no form of a symbol to be replaced. -/
def Settled (q : QuoteStyle) (n : Node) : Prop :=
  ∀ s, n.text? = some s → s.map q.map = s ∧ symbols s = s

section Settled

variable {q : QuoteStyle}

theorem map_map_of_steady (steady : Steady q) (c : Char) : q.map (q.map c) = q.map c := by
  cases curly : isCurlyQuote c with
  | true => exact steady c curly
  | false => rw [map_of_not_isCurlyQuote q curly, map_of_not_isCurlyQuote q curly]

theorem not_isCurlyQuote_of_symbol : ∀ form ∈ symbolForms, ∀ c ∈ form.2, isCurlyQuote c = false := by
  decide

theorem settled_run (steady : Steady q) (run : List Node) :
    let s := Text.scan symbolForms (styledRun ⟨q, none⟩ run)
    s.map q.map = s ∧ symbols s = s := by
  intro s
  have scanned : s = symbols (styledRun ⟨q, none⟩ run) := (symbols_eq_scan _).symm
  refine ⟨?_, by rw [scanned, symbols_symbols]⟩
  refine (List.map_congr_left fun c member => ?_).trans (List.map_id s)
  rw [scanned] at member
  rcases mem_symbols member with styled | ⟨form, listed, symbol⟩
  · obtain ⟨n, _, inside⟩ := List.mem_flatMap.1 styled
    cases text : n.text? with
    | none =>
        rw [text] at inside
        cases inside
    | some t =>
        rw [text, Option.map_some, Option.getD_some, styledText_sourceless] at inside
        obtain ⟨d, _, rfl⟩ := List.mem_map.1 inside
        exact map_map_of_steady steady d
  · exact map_of_not_isCurlyQuote q (not_isCurlyQuote_of_symbol form listed c symbol)

theorem Typeset.settled {nodes after : List Node} (steady : Steady q)
    (typeset : Typeset ⟨q, none⟩ nodes after) : EachOf (Settled q) after := by
  induction typeset with
  | nil => trivial
  | @other n _ _ _ other _ _ below after =>
      refine ⟨⟨fun s text => ?_, below⟩, after⟩
      have none : n.text? = some s := text
      rw [other] at none
      cases none
  | run _ _ _ _ below after =>
      refine ⟨⟨?_, below⟩, after⟩
      rintro s ⟨⟩
      exact settled_run steady _

theorem each_iff {p : Node → Prop} {n : Node} : Each p n ↔ p n ∧ EachOf p n.children := by
  cases n
  exact Iff.rfl

theorem applyAll_of_settled (nodes : List Node) (parted : nodes.IsChain Parted)
    (inside : EachOf (fun n => n.children.IsChain Parted) nodes)
    (settled : EachOf (Settled q) nodes) : applyAll ⟨q, none⟩ nodes = nodes := by
  induction nodes using run_induction with
  | nil => rfl
  | other n rest other below after =>
      have inner := each_iff.1 inside.1
      rw [applyAll_other _ other, below inner.1 inner.2 (each_iff.1 settled.1).2,
        after (List.isChain_cons.1 parted).2 inside.2 settled.2]
      obtain ⟨v, span, children⟩ := n
      rfl
  | run first more rest texts ends below after =>
      obtain ⟨isText, others⟩ := List.forall_mem_cons.1 texts
      cases more with
      | cons next more =>
          have none := (List.isChain_cons_cons.1 parted).1 isText
          have text := others next List.mem_cons_self
          rw [none] at text
          cases text
      | nil =>
          obtain ⟨s, text⟩ := Option.isSome_iff_exists.1 isText
          obtain ⟨mapped, scanned⟩ := (each_iff.1 settled.1).1 s text
          have inner := each_iff.1 inside.1
          have whole : styledRun ⟨q, none⟩ [first] = s := by
            rw [styledRun, List.flatMap_singleton, text, Option.map_some, Option.getD_some,
              styledText_sourceless, mapped]
          rw [applyAll_run _ texts ends, whole, ← symbols_eq_scan, scanned,
            below inner.1 inner.2 (each_iff.1 settled.1).2,
            after (List.isChain_cons.1 parted).2 inside.2 settled.2, ← eq_of_text? text]
          rfl

end Settled

def documentOf (s : Text) : Node :=
  .mk .document default [.mk .paragraph default [.mk (.text s) default []]]

theorem symbols_singleton (c : Char) : symbols [c] = [c] := by
  refine symbols_cons (Text.longest?_none_iff.2 fun form listed leads => ?_)
  have long : ∀ form ∈ symbolForms, 2 ≤ form.1.length := by decide
  have short := leads.length_le
  have enough := long form listed
  simp only [List.length_cons, List.length_nil] at short
  omega

theorem apply_documentOf_singleton (q : QuoteStyle) (c : Char) :
    apply ⟨q, none⟩ (documentOf [c]) = documentOf [q.map c] := by
  have mapped := styledText_sourceless q default [c]
  have shown : apply ⟨q, none⟩ (documentOf [c]) =
      documentOf (symbols (styledText ⟨q, none⟩ default [c])) := by
    rw [apply, restyle_eq]
    rfl
  rw [shown, mapped, List.map_singleton, symbols_singleton]

theorem documentOf_injective {s t : Text} (same : documentOf s = documentOf t) : s = t := by
  unfold documentOf at same
  simpa using same

/-- Without a source a second time changes no tree exactly if the style maps no curly quote to one
that it maps on. -/
theorem apply_idempotent_iff (q : QuoteStyle) :
    (∀ root : Node, apply ⟨q, none⟩ (apply ⟨q, none⟩ root) = apply ⟨q, none⟩ root) ↔
      ∀ c, isCurlyQuote c = true → q.map (q.map c) = q.map c := by
  constructor
  · intro idempotent c _
    have twice := idempotent (documentOf [c])
    rw [apply_documentOf_singleton, apply_documentOf_singleton] at twice
    exact (List.cons.inj (documentOf_injective twice)).1
  · intro steady root
    have typeset := typeset_applyAll ⟨q, none⟩ [root]
    have again := applyAll_of_settled _ typeset.parted.1 typeset.parted.2 (typeset.settled steady)
    rw [applyAll_singleton, applyAll_singleton] at again
    exact (List.cons.inj again).1

/-- A style that swaps double quotes swaps them back. -/
example :
    let q : QuoteStyle := ⟨'”', '“', '‘', '’'⟩
    apply ⟨q, none⟩ (apply ⟨q, none⟩ (documentOf "“a”")) = documentOf "“a”" := by
  rfl

end Typographer
end LivePage
