import LivePage.Proofs.Html.Grid
import LivePage.Proofs.Markdown.Inlines
import LivePage.Proofs.Render.Fences

/-!
Blocks as they are written. Line feeds stand between them, depending on what stands before; but
wherever a block is written, its markup leads back to the place where it stands, and brings in the
elements of the class that its fences stand for.
-/

namespace LivePage
open Markdown Html Builder

namespace Markdown

/-- Output goes on by a text, with no note begun. -/
structure Output.Adds (o : Output) (s : Text) (o' : Output) : Prop where
  reversed : o'.reversed = s.reverse ++ o.reversed
  notes : o'.notes = o.notes

namespace Output

variable {o o' o'' : Output} {s t : Text}

theorem Adds.refl (o : Output) : o.Adds [] o := ⟨rfl, rfl⟩

theorem Adds.trans (first : o.Adds s o') (second : o'.Adds t o'') : o.Adds (s ++ t) o'' := by
  refine ⟨?_, second.notes.trans first.notes⟩
  rw [second.reversed, first.reversed, List.reverse_append, List.append_assoc]

theorem adds_write (o : Output) (s : Text) : o.Adds s (o.write s) := ⟨rfl, rfl⟩

theorem Adds.write (first : o.Adds s o') (t : Text) : o.Adds (s ++ t) (o'.write t) :=
  first.trans (o'.adds_write t)

theorem Adds.around (tag : SpelledTag) (inner : (o.write tag.markup).Adds s o') :
    o.Adds (tag.around s) (o'.write (tokenMarkup (.closeTag tag.name))) :=
  (o.adds_write _).trans (inner.write _)

/-- A new line is begun by at most one line feed, and by none where nothing is written yet. -/
theorem exists_adds_fresh (o : Output) :
    ∃ lead, o.Adds lead o.fresh ∧ Lines lead ∧ (o.reversed = [] → lead = []) := by
  rw [fresh]
  split
  · exact ⟨[], .refl o, List.forall_mem_nil _, fun _ => rfl⟩
  · split
    · exact ⟨[], .refl o, List.forall_mem_nil _, fun _ => rfl⟩
    · next shown _ =>
        refine ⟨['\n'], o.adds_write _, List.forall_mem_singleton.2 rfl, fun none => ?_⟩
        rw [shown] at none
        cases none

end Output
end Markdown

/-- The link back from a note to one of its references. -/
def backTag (address suffix : Text) (note : Nat) : SpelledTag :=
  ⟨"a", [⟨"href", some ("#fnref-".toList ++ address ++ suffix)⟩,
    ⟨"class", some "footnote-backref"⟩, ⟨"data-footnote-backref", none⟩,
    ⟨"data-footnote-backref-idx", some (Text.ofNat note ++ suffix)⟩,
    ⟨"aria-label", some ("Back to reference ".toList ++ Text.ofNat note ++ suffix)⟩], false⟩

theorem valid_backTag {address suffix : Text} (note : Nat) (plain : '\x22' ∉ address)
    (digits : '\x22' ∉ suffix) : (backTag address suffix note).Valid := by
  have number := not_mem_ofNat note (d := '\x22') (by decide)
  refine valid_spelledTag (by decide) rfl ?_
  simp [plain, digits, number]

/-- What tells the `n`-th reference to a note from the first one. -/
def backSuffix (n : Nat) : Text := if n ≠ 1 then '-' :: Text.ofNat n else []

theorem quote_not_mem_backSuffix (n : Nat) : '\x22' ∉ backSuffix n := by
  have number := not_mem_ofNat n (d := '\x22') (by decide)
  unfold backSuffix
  split <;> simp [number]

/-- The number of a reference, unless it is the first one. -/
def backMark (n : Nat) : Text := if n ≠ 1 then markTag.around (Text.ofNat n) else []

theorem backLinks_succ (name : Text) (note count n : Nat) :
    backLinks name note (count + 1) n = (if n ≠ 1 then [' '] else []) ++
      ((backTag (escapeAddress name) (backSuffix n) note).around ("↩".toList ++ backMark n) ++
        backLinks name note count (n + 1)) := by
  have mark : backMark n = if n ≠ 1 then
      "<sup class=\"footnote-ref\">".toList ++ Text.ofNat n ++ "</sup>".toList else [] := by
    unfold backMark
    split
    · rw [SpelledTag.around, List.append_assoc]
      rfl
    · rfl
  rw [mark]
  simp only [backLinks, backSuffix, backTag, SpelledTag.around, SpelledTag.markup,
    List.flatMap_cons, List.flatMap_nil, Spelled.markup, attr, tokenMarkup, List.append_assoc,
    List.cons_append, List.nil_append, List.append_nil]
  rfl

theorem runs_backLinks (name : Text) (note count n : Nat) :
    Runs chartClass (backLinks name note count n) := by
  induction count generalizing n with
  | zero => exact .nil
  | succ count ih =>
      have marked : Runs chartClass (backMark n) := by
        unfold backMark
        split
        · exact runs_mark (.of_text (not_mem_ofNat n (by decide)))
        · exact .nil
      have lead : Runs chartClass (if n ≠ 1 then [' '] else []) := by
        split
        · exact .of_text (by decide)
        · exact .nil
      have arrow : Runs chartClass "↩".toList := .of_text (by decide)
      have valid := valid_backTag note (quote_not_mem_escapeAddress name)
        (quote_not_mem_backSuffix n)
      have known : "a".toList ∈ formattingElements ++ plainElements := by decide
      have anchor := Runs.of_element valid known (c := chartClass) rfl (arrow.append marked)
      rw [backLinks_succ]
      exact lead.append (anchor.append (ih (n + 1)))

theorem exists_adds_writeBack (o : Output) (note : Text × Nat) :
    ∃ s, o.Adds s (writeBack o note).1 ∧ Runs chartClass s := by
  rw [writeBack]
  split
  · exact ⟨[], .refl o, .nil⟩
  · exact ⟨_, ⟨rfl, rfl⟩, runs_backLinks note.1 o.notes note.2 1⟩

section Blocks

variable {m : Type → Type} (o : Overrides m) (options : Options) (html : HtmlOptions) (i : Nat)
  (around : Surroundings) (out : Output)

theorem adds_inlines {ns : List Markdown.Node} (inlines : Markdown.Node.areInlines ns = true) :
    ∃ s, Runs chartClass s ∧ ∀ around out, Output.Adds out s
      (writeNodes html around out (o.revisedAll (builtinAnswers options) i ns)) := by
  obtain ⟨s, writes, runs⟩ := inscribed_inlines o options html i ns inlines
  refine ⟨s, runs, fun around out => ?_⟩
  rw [writes.writeNodes]
  exact out.adds_write s

def cellTag (head : Bool) (alignment : Markdown.Alignment) : SpelledTag :=
  ⟨if head then "th" else "td", match alignment with
    | .none => []
    | .left => [⟨"align", some "left"⟩]
    | .center => [⟨"align", some "center"⟩]
    | .right => [⟨"align", some "right"⟩], false⟩

theorem markup_cellTag (head : Bool) (alignment : Markdown.Alignment) :
    (cellTag head alignment).markup =
      '<' :: (if head then "th".toList else "td") ++ alignmentText alignment ++ ['>'] := by
  cases head <;> cases alignment <;> rfl

theorem grids_cell (head : Bool) (alignment : Markdown.Alignment) {s : Text}
    (runs : Runs chartClass s) : Grids chartClass .inRow ((cellTag head alignment).around s) := by
  have known : (if head then "th".toList else "td") ∈ ["th".toList, "td"] := by
    cases head <;> decide
  refine .of_cell known ?_ ?_ runs
  · cases head <;> cases alignment <;> exact valid_spelledTag (by decide) rfl (by decide)
  · cases head <;> cases alignment <;> rfl

theorem adds_cell {n : Markdown.Node} (cell : n.isCell = true) :
    ∃ n', o.revised (builtinAnswers options) i n = [n'] ∧ ∀ around out, ∃ s,
      Output.Adds out s (writeNode html around out n') ∧ Grids chartClass .inRow s := by
  obtain ⟨v, span, children⟩ := n
  cases v
  case tableCell =>
      obtain ⟨s, runs, adds⟩ := adds_inlines o options html (i + 1) cell
      refine ⟨_, rfl, fun around out => ?_⟩
      obtain ⟨lead, fresh, lines, _⟩ := out.exists_adds_fresh
      let tag := cellTag around.head (around.columns.headD .none)
      refine ⟨lead ++ tag.around s, ?_, .append (.of_lines lines) (grids_cell _ _ runs)⟩
      rw [writeNode]
      simp only [← markup_cellTag]
      exact fresh.trans (.around tag (adds {} _))
  all_goals cases cell

theorem adds_cells {ns : List Markdown.Node} (cells : ns.all Markdown.Node.isCell = true) :
    ∃ s, Output.Adds out s
        (writeNodes html around out (o.revisedAll (builtinAnswers options) i ns)) ∧
      Grids chartClass .inRow s := by
  induction ns generalizing i around out with
  | nil => exact ⟨[], .refl out, .nil⟩
  | cons n rest ih =>
      rw [List.all_cons, Bool.and_eq_true] at cells
      obtain ⟨n', shape, adds⟩ := adds_cell o options html i cells.1
      rw [Overrides.revisedAll, shape, List.singleton_append, writeNodes]
      obtain ⟨s, first, grids⟩ := adds _ out
      obtain ⟨t, others, more⟩ := ih (i + n.size) _ _ cells.2
      exact ⟨s ++ t, first.trans others, grids.append more⟩

theorem adds_row {ns : List Markdown.Node} (cells : ns.all Markdown.Node.isCell = true) :
    ∃ s, Output.Adds out (SpelledTag.around ⟨"tr", [], false⟩ s)
        ((writeNodes html around (out.write "<tr>")
          (o.revisedAll (builtinAnswers options) i ns)).fresh.write "</tr>") ∧
      Grids chartClass .inRow s := by
  obtain ⟨s, adds, grids⟩ := adds_cells o options html i around (out.write "<tr>") cells
  obtain ⟨lead, fresh, lines, _⟩ := (writeNodes html around (out.write "<tr>")
    (o.revisedAll (builtinAnswers options) i ns)).exists_adds_fresh
  exact ⟨s ++ lead, .around _ (adds.trans fresh), grids.append (.of_lines lines)⟩

theorem adds_head {n : Markdown.Node} (row : n.isRow true = true) :
    ∃ n', o.revised (builtinAnswers options) i n = [n'] ∧ n'.value = .tableRow true ∧
      ∀ around out, ∃ s, Output.Adds out s (writeNode html around out n') ∧
        Grids chartClass .inTable s := by
  obtain ⟨v, span, children⟩ := n
  cases v
  case tableRow head =>
      rw [Markdown.Node.isRow, Bool.and_eq_true, decide_eq_true_eq] at row
      obtain ⟨rfl, cells⟩ := row
      refine ⟨_, rfl, rfl, fun around out => ?_⟩
      obtain ⟨lead, fresh, lines, _⟩ := out.exists_adds_fresh
      obtain ⟨s, adds, grids⟩ := adds_row o options html (i + 1)
        { columns := around.columns, head := true } (out.fresh.write "<thead>\n") cells
      obtain ⟨behind, broken, lines', _⟩ := (((writeNodes html
        { columns := around.columns, head := true } ((out.fresh.write "<thead>\n").write "<tr>")
        (o.revisedAll (builtinAnswers options) (i + 1) children)).fresh.write
          "</tr>")).exists_adds_fresh
      let row : Text := SpelledTag.around ⟨"tr", [], false⟩ s
      have whole := fresh.trans ((out.fresh.adds_write "<thead>\n").trans
        ((adds.trans broken).write "</thead>"))
      refine ⟨lead ++ SpelledTag.around ⟨"thead", [], false⟩ ("\n".toList ++ (row ++ behind)), ?_,
        .append (.of_lines lines) (.of_section (by decide) ?_)⟩
      · have text :
            lead ++ SpelledTag.around ⟨"thead", [], false⟩ ("\n".toList ++ (row ++ behind)) =
              lead ++ ("<thead>\n".toList ++ (row ++ behind ++ "</thead>".toList)) := by
          rw [SpelledTag.around, List.append_assoc "\n".toList]
          rfl
        rw [text]
        exact whole
      · exact .append (.of_lines (List.forall_mem_singleton.2 rfl))
          (.append (.of_row grids) (.of_lines lines'))
  all_goals cases row

theorem adds_bodyRow {n : Markdown.Node} (row : n.isRow false = true) :
    ∃ n', o.revised (builtinAnswers options) i n = [n'] ∧ n'.value = .tableRow false ∧
      ∀ around out, ∃ lead s, Lines lead ∧ Grids chartClass .inTableBody s ∧
        (around.afterHead = true →
          Output.Adds out (lead ++ ("<tbody>\n".toList ++ s)) (writeNode html around out n')) ∧
        (around.afterHead = false →
          Output.Adds out (lead ++ s) (writeNode html around out n')) := by
  obtain ⟨v, span, children⟩ := n
  cases v
  case tableRow head =>
      rw [Markdown.Node.isRow, Bool.and_eq_true, decide_eq_true_eq] at row
      obtain ⟨rfl, cells⟩ := row
      refine ⟨_, rfl, rfl, fun around out => ?_⟩
      obtain ⟨lead, fresh, lines, _⟩ := out.exists_adds_fresh
      cases after : around.afterHead with
      | true =>
          obtain ⟨s, adds, grids⟩ := adds_row o options html (i + 1)
            { columns := around.columns, head := false } (out.fresh.write "<tbody>\n") cells
          refine ⟨lead, _, lines, .of_row grids, fun _ => ?_, by intro other; cases other⟩
          rw [writeNode, after]
          exact fresh.trans ((out.fresh.adds_write _).trans adds)
      | false =>
          obtain ⟨s, adds, grids⟩ := adds_row o options html (i + 1)
            { columns := around.columns, head := false } out.fresh cells
          refine ⟨lead, _, lines, .of_row grids, (by intro other; cases other), fun _ => ?_⟩
          rw [writeNode, after]
          exact fresh.trans adds
  all_goals cases row

theorem adds_rows {ns : List Markdown.Node} (rows : ns.all (Markdown.Node.isRow false) = true)
    (after : around.afterHead = false) :
    ∃ s, Output.Adds out s
        (writeNodes html around out (o.revisedAll (builtinAnswers options) i ns)) ∧
      Grids chartClass .inTableBody s := by
  induction ns generalizing i around out with
  | nil => exact ⟨[], .refl out, .nil⟩
  | cons n rest ih =>
      rw [List.all_cons, Bool.and_eq_true] at rows
      obtain ⟨n', shape, value, adds⟩ := adds_bodyRow o options html i rows.1
      rw [Overrides.revisedAll, shape, List.singleton_append, writeNodes, value]
      let others := o.revisedAll (builtinAnswers options) (i + n.size) rest
      obtain ⟨lead, s, lines, grids, _, first⟩ := adds { around with last := others.isEmpty } out
      obtain ⟨t, others, more⟩ := ih (i + n.size) { around with afterHead := false } _ rows.2 rfl
      exact ⟨lead ++ s ++ t, (first after).trans others,
        .append (.append (.of_lines lines) grids) more⟩

theorem adds_body {n : Markdown.Node} {rest : List Markdown.Node}
    (rows : (n :: rest).all (Markdown.Node.isRow false) = true) (after : around.afterHead = true) :
    o.revisedAll (builtinAnswers options) i (n :: rest) ≠ [] ∧
      ∃ s, Output.Adds out s ((writeNodes html around out
        (o.revisedAll (builtinAnswers options) i (n :: rest))).fresh.write "</tbody>\n") ∧
      Grids chartClass .inTable s := by
  rw [List.all_cons, Bool.and_eq_true] at rows
  obtain ⟨n', shape, value, adds⟩ := adds_bodyRow o options html i rows.1
  let others := o.revisedAll (builtinAnswers options) (i + n.size) rest
  obtain ⟨lead, s, lines, row, first, _⟩ := adds { around with last := others.isEmpty } out
  obtain ⟨t, second, more⟩ := adds_rows o options html (i + n.size)
    { around with afterHead := false } (writeNode html { around with last := others.isEmpty } out n') rows.2 rfl
  obtain ⟨behind, fresh, lines', _⟩ := (writeNodes html { around with afterHead := false }
    (writeNode html { around with last := others.isEmpty } out n') others).exists_adds_fresh
  have whole := (first after).trans (second.trans (fresh.write "</tbody>\n"))
  have feed : Lines "\n" := List.forall_mem_singleton.2 rfl
  have inner : Grids chartClass .inTableBody ("\n".toList ++ (s ++ (t ++ behind))) :=
    .append (.of_lines feed) (.append row (.append more (.of_lines lines')))
  have text : lead ++ (SpelledTag.around ⟨"tbody", [], false⟩
      ("\n".toList ++ (s ++ (t ++ behind))) ++ "\n".toList) =
        (lead ++ ("<tbody>\n".toList ++ s)) ++ (t ++ (behind ++ "</tbody>\n".toList)) := by
    simp only [SpelledTag.around, List.append_assoc]
    rfl
  have body : Grids chartClass .inTable (SpelledTag.around ⟨"tbody", [], false⟩
      ("\n".toList ++ (s ++ (t ++ behind)))) := .of_section (by decide) inner
  rw [Overrides.revisedAll, shape, List.singleton_append, writeNodes, value]
  refine ⟨List.cons_ne_nil _ _, _, ?_, .append (.of_lines lines) (.append body (.of_lines feed))⟩
  rw [text]
  exact whole

theorem adds_grid {ns : List Markdown.Node} (grid : Markdown.Node.isGrid ns = true) :
    let inner := o.revisedAll (builtinAnswers options) i ns
    let written := writeNodes html around out inner
    ∃ s, Output.Adds out s (if 2 ≤ inner.length then written.fresh.write "</tbody>\n" else written) ∧
      Grids chartClass .inTable s := by
  intro inner written
  cases ns with
  | nil => cases grid
  | cons n rows =>
      rw [Markdown.Node.isGrid, Bool.and_eq_true] at grid
      obtain ⟨n', shape, value, adds⟩ := adds_head o options html i grid.1
      let below := o.revisedAll (builtinAnswers options) (i + n.size) rows
      have all : inner = n' :: below := congrArg (· ++ below) shape
      have written_eq : written = writeNodes html { around with afterHead := true }
          (writeNode html { around with last := below.isEmpty } out n') below := by
        simp only [written, all, writeNodes, value]
      obtain ⟨s, first, grids⟩ := adds { around with last := below.isEmpty } out
      cases rows with
      | nil =>
          rw [all, written_eq]
          exact ⟨s, first, grids⟩
      | cons n₁ rest =>
          obtain ⟨some, t, second, more⟩ := adds_body o options html (i + n.size)
            { around with afterHead := true }
            (writeNode html { around with last := below.isEmpty } out n') grid.2 rfl
          have several : 2 ≤ inner.length := by
            rw [all, List.length_cons]
            exact Nat.succ_le_succ (List.length_pos_iff.2 some)
          rw [if_pos several, written_eq]
          exact ⟨s ++ t, first.trans second, grids.append more⟩

end Blocks

theorem fenceToken?_of_all {p : Markdown.Node → Bool}
    (each : ∀ n, p n = true → ∀ k ∈ n.preorder, k.fenceToken? = none) :
    ∀ ns : List Markdown.Node, ns.all p = true →
      ∀ k ∈ Markdown.Node.preorderAll ns, k.fenceToken? = none
  | [], _ => List.forall_mem_nil _
  | n :: rest, all => by
      rw [List.all_cons, Bool.and_eq_true] at all
      exact List.forall_mem_append.2 ⟨each n all.1, fenceToken?_of_all each rest all.2⟩

theorem fenceToken?_of_cell (n : Markdown.Node) (cell : n.isCell = true) :
    ∀ k ∈ n.preorder, k.fenceToken? = none := by
  obtain ⟨v, span, children⟩ := n
  cases v
  case tableCell => exact List.forall_mem_cons.2 ⟨rfl, fenceToken?_of_inlines children cell⟩
  all_goals cases cell

theorem fenceToken?_of_row (head : Bool) (n : Markdown.Node) (row : n.isRow head = true) :
    ∀ k ∈ n.preorder, k.fenceToken? = none := by
  obtain ⟨v, span, children⟩ := n
  cases v
  case tableRow header =>
      rw [Markdown.Node.isRow, Bool.and_eq_true] at row
      exact List.forall_mem_cons.2 ⟨rfl, fenceToken?_of_all fenceToken?_of_cell children row.2⟩
  all_goals cases row

theorem fenceToken?_of_grid (ns : List Markdown.Node) (grid : Markdown.Node.isGrid ns = true) :
    ∀ k ∈ Markdown.Node.preorderAll ns, k.fenceToken? = none := by
  cases ns with
  | nil => cases grid
  | cons n rows =>
      rw [Markdown.Node.isGrid, Bool.and_eq_true] at grid
      exact List.forall_mem_append.2 ⟨fenceToken?_of_row true n grid.1,
        fenceToken?_of_all (fenceToken?_of_row false) rows grid.2⟩

end LivePage
