import LivePage.Markdown.Block
import LivePage.Proofs.Markdown.Grammar

/-!
What the block structure of a document is made of. No text whatsoever is read into finished HTML:
raw nodes only come from the rules, and tildes stand for themselves. Only fences have labels,
headings have six levels and stand in no line, and footnotes need their extension. The reader of
blocks is followed here the way it is written.
-/

namespace LivePage.Markdown

/-- What a part of a document may hold: footnotes, and headings. -/
structure Scope where
  notes : Bool
  headings : Bool

/-- Values of nodes that stand in a line. -/
def Value.isInline (v : Value) : Bool := v.isInlineLeaf || v.isSpan

/-- What may stand below a value: no headings where that is in a line. -/
def Scope.below (scope : Scope) (v : Value) : Scope :=
  ⟨scope.notes, !v.isInline && scope.headings⟩

/-- The values that parsing makes. -/
def Value.isParsed (scope : Scope) : Value → Bool
  | .raw _ => false
  | .tildes s => s = "~~".toList
  | .heading level => scope.headings && decide (1 ≤ level ∧ level ≤ 6)
  | .codeBlock block => block.fenced || block.info.isEmpty
  | .footnoteDefinition _ _ | .footnoteReference _ _ _ => scope.notes
  | _ => true

/-- Trees of such values. -/
inductive Node.Parsed : Scope → Node → Prop
  | mk {scope : Scope} {v : Value} {span : Span} {children : List Node}
      (own : v.isParsed scope = true) (below : ∀ n ∈ children, Parsed (scope.below v) n) :
      Parsed scope (.mk v span children)

/-- The values of blocks. -/
def Value.isParsedBlock (notes : Bool) (v : Value) : Bool := !v.isInline && v.isParsed ⟨notes, true⟩

inductive Block.Parsed (notes : Bool) : Block → Prop
  | mk {v : Value} {content : Content} {blank : Bool} {children : List Block}
      (own : v.isParsedBlock notes = true) (below : ∀ b ∈ children, Parsed notes b) :
      Parsed notes (.mk v content blank children)

variable {notes : Bool} {scope : Scope}

def Kind.isParsed (notes : Bool) : Kind → Bool
  | .heading level _ => 1 ≤ level ∧ level ≤ 6
  | .footnoteDefinition _ => notes
  | _ => true

structure Frame.Parsed (notes : Bool) (f : Frame) : Prop where
  kind : f.kind.isParsed notes = true
  children : ∀ b ∈ f.children, b.Parsed notes

theorem Block.parsed_leaf {v : Value} (own : v.isParsedBlock notes = true) (content : Content)
    (blank : Bool) : (Block.mk v content blank []).Parsed notes :=
  .mk own (List.forall_mem_nil _)

theorem Block.Parsed.markBlank {b : Block} (parsed : b.Parsed notes) :
    b.markBlank.Parsed notes := by
  cases parsed with
  | mk own below => exact .mk own below

namespace Frame

variable {f : Frame}

theorem children_takeDefinitions (f : Frame) (refs : References) :
    (f.takeDefinitions refs).2.children = f.children ∧ (f.takeDefinitions refs).2.kind = f.kind := by
  unfold takeDefinitions
  simp only
  split <;> exact ⟨rfl, rfl⟩

theorem Parsed.takeDefinitions (parsed : f.Parsed notes) (refs : References) :
    (f.takeDefinitions refs).2.Parsed notes := by
  obtain ⟨children, kind⟩ := f.children_takeDefinitions refs
  exact ⟨kind ▸ parsed.kind, children ▸ parsed.children⟩

theorem Parsed.close (parsed : f.Parsed notes) (refs : References) :
    ∀ b ∈ (f.close refs).2, b.Parsed notes := by
  have inner : ∀ b ∈ f.children.reverse, b.Parsed notes :=
    fun b member => parsed.children b (List.mem_reverse.1 member)
  intro b closed
  unfold Frame.close at closed
  cases kind : f.kind
  case paragraph tried =>
      simp only [kind] at closed
      split at closed
      · cases closed
      · cases closed
        refine .mk rfl fun b member => ?_
        rw [(f.children_takeDefinitions refs).1] at member
        exact inner b member
  case footnoteDefinition name =>
      have own := parsed.kind
      rw [kind] at own
      simp only [kind] at closed
      cases closed
      exact .mk own inner
  case heading level setext =>
      have own := parsed.kind
      rw [kind] at own
      simp only [kind] at closed
      cases closed
      exact .mk own inner
  case fence mark length indent =>
      have fenced : (fencedCode f).fenced = true := by
        unfold fencedCode
        split <;> rfl
      simp only [kind] at closed
      cases closed
      refine .mk ?_ inner
      exact Bool.or_eq_true_iff.2 (.inl fenced)
  all_goals
    simp only [kind] at closed
    cases closed
    exact .mk rfl inner

end Frame

def Reading.Parsed (notes : Bool) (r : Reading) : Prop := ∀ f ∈ r.stack, f.Parsed notes

namespace Reading

variable {r : Reading}

theorem Parsed.closeTop (parsed : r.Parsed notes) : r.closeTop.Parsed notes := by
  unfold Reading.closeTop
  split
  · next f outer rest stack =>
      rw [Reading.Parsed, stack, List.forall_mem_cons, List.forall_mem_cons] at parsed
      obtain ⟨top, around, others⟩ := parsed
      refine List.forall_mem_cons.2 ⟨⟨around.kind, ?_⟩, others⟩
      refine List.forall_mem_append.2 ⟨fun b member => ?_, around.children⟩
      exact top.close r.references b (Option.mem_toList.1 member)
  · exact parsed

theorem Parsed.closeMany (parsed : r.Parsed notes) (n : Nat) : (closeMany n r).Parsed notes := by
  induction n generalizing r with
  | zero => exact parsed
  | succ n ih => exact ih parsed.closeTop

theorem Parsed.makeRoom (parsed : r.Parsed notes) (child : Kind) (n : Nat) :
    (makeRoom child n r).Parsed notes := by
  induction n generalizing r with
  | zero => exact parsed
  | succ n ih =>
      unfold Reading.makeRoom
      split
      · split
        · exact parsed
        · exact ih parsed.closeTop
      · exact parsed

theorem Parsed.updateTop (parsed : r.Parsed notes) {update : Frame → Frame}
    (keeps : ∀ f : Frame, f.Parsed notes → (update f).Parsed notes) :
    (r.updateTop update).Parsed notes := by
  unfold Reading.updateTop
  split
  · next f rest stack =>
      rw [Reading.Parsed, stack, List.forall_mem_cons] at parsed
      exact List.forall_mem_cons.2 ⟨keeps f parsed.1, parsed.2⟩
  · exact parsed

end Reading

structure Progress.Parsed (notes : Bool) (p : Progress) : Prop where
  reading : p.reading.Parsed notes
  left : ∀ f ∈ p.left, f.Parsed notes

theorem Frame.Parsed.addLine {f : Frame} (parsed : f.Parsed notes) (cursor : Cursor) :
    (f.addLine cursor).Parsed notes := ⟨parsed.kind, parsed.children⟩

theorem parsed_meetAll (refs : References) {stack inner : List Frame}
    (met : ∀ f ∈ stack, f.Parsed notes) (ahead : ∀ f ∈ inner, f.Parsed notes) (cursor : Cursor) :
    match meetAll refs stack inner cursor with
    | .inl r => r.Parsed notes
    | .inr p => p.Parsed notes := by
  induction inner generalizing stack cursor with
  | nil => exact ⟨met, List.forall_mem_nil _⟩
  | cons f inner ih =>
      obtain ⟨first, others⟩ := List.forall_mem_cons.1 ahead
      have both : ∀ g ∈ f :: stack, g.Parsed notes := List.forall_mem_cons.2 ⟨first, met⟩
      unfold meetAll
      cases f.meet (!f.children.isEmpty || !inner.isEmpty) cursor with
      | continues cursor => exact ih both others cursor
      | leaves => exact ⟨met, ahead⟩
      | closes => exact Reading.Parsed.closeTop both

namespace Progress

variable {p : Progress}

theorem Parsed.closeLeft (parsed : p.Parsed notes) : p.closeLeft.Parsed notes := by
  refine ⟨Reading.Parsed.closeMany ?_ _, List.forall_mem_nil _⟩
  refine List.forall_mem_append.2 ⟨fun f member => ?_, parsed.reading⟩
  exact parsed.left f (List.mem_reverse.1 member)

theorem Parsed.judgeList (parsed : p.Parsed notes) (child : Kind) :
    (p.judgeList child).Parsed notes := by
  refine ⟨parsed.reading.updateTop fun f known => ?_, parsed.left⟩
  split
  · exact ⟨known.kind, known.children⟩
  · exact known

theorem Parsed.openBlock (parsed : p.Parsed notes) {frame : Frame} (new : frame.Parsed notes)
    (cursor : Cursor) : (p.openBlock frame cursor).Parsed notes := by
  have room := (parsed.judgeList frame.kind).closeLeft.reading.makeRoom frame.kind
    (((p.judgeList frame.kind).closeLeft).reading.stack.length)
  exact ⟨List.forall_mem_cons.2 ⟨new, room⟩, List.forall_mem_nil _⟩

theorem Parsed.top (parsed : p.Parsed notes) {f : Frame} (top : p.top? = some f) :
    f.Parsed notes :=
  parsed.reading f (List.mem_of_mem_head? top)

end Progress

theorem Frame.parsed_new {kind : Kind} (known : kind.isParsed notes = true) (line column : Nat) :
    Frame.Parsed notes { kind, line, column } :=
  ⟨known, List.forall_mem_nil _⟩

theorem parsed_openItem {p : Progress} (parsed : p.Parsed notes) (line : Nat)
    (marker : ListMarker) (length : Nat) : (openItem p line marker length).Parsed notes := by
  have list : (p.openBlock { kind := .list marker, line, column := p.cursor.atText.offset + 1 }
      p.cursor).Parsed notes := parsed.openBlock (Frame.parsed_new rfl _ _) p.cursor
  unfold openItem
  extract_lets there column behind padded width
  split
  rename_i fits around _ _ _ _
  have ready : around.Parsed notes := by
    simp only [around]
    split
    · exact parsed
    · exact list
  exact ready.openBlock (Frame.parsed_new rfl _ _) _

theorem parsed_cellBlocks (line base n : Nat) (cells : List Cell) :
    ∀ b ∈ cellBlocks line base n cells, b.Parsed notes := by
  induction n generalizing cells with
  | zero => exact List.forall_mem_nil _
  | succ n ih =>
      cases cells with
      | nil => exact List.forall_mem_cons.2 ⟨Block.parsed_leaf rfl _ _, ih []⟩
      | cons cell rest => exact List.forall_mem_cons.2 ⟨Block.parsed_leaf rfl _ _, ih rest⟩

theorem parsed_leadingParagraph (f : Frame) (row : Row) :
    ∀ b ∈ leadingParagraph f row, b.Parsed notes := by
  unfold leadingParagraph
  split
  · exact List.forall_mem_nil _
  · exact List.forall_mem_singleton.2 (Block.parsed_leaf rfl _ _)

theorem parsed_openTable {p q : Progress} (parsed : p.Parsed notes) {f : Frame} {line : Nat}
    (opened : openTable p f line = some q) : q.Parsed notes := by
  unfold openTable at opened
  extract_lets rest at opened
  split at opened
  · cases opened
  split at opened
  case h_2 => cases opened
  split at opened
  case isFalse => cases opened
  extract_lets columns header table at opened
  split at opened
  case h_2 => cases opened
  next top outer above stack =>
  cases opened
  have known := parsed.reading
  rw [Reading.Parsed, stack, List.forall_mem_cons, List.forall_mem_cons] at known
  obtain ⟨_, around, others⟩ := known
  have head : header.Parsed notes := .mk rfl (parsed_cellBlocks _ _ _ _)
  refine ⟨List.forall_mem_cons.2 ⟨⟨rfl, List.forall_mem_singleton.2 head⟩, ?_⟩, List.forall_mem_nil _⟩
  refine List.forall_mem_cons.2 ⟨⟨around.kind, ?_⟩, others⟩
  exact List.forall_mem_append.2 ⟨parsed_leadingParagraph f _, around.children⟩

theorem parsed_markTried {p : Progress} (parsed : p.Parsed notes) : (markTried p).Parsed notes := by
  refine ⟨parsed.reading.updateTop fun f known => ?_, parsed.left⟩
  split
  · exact ⟨rfl, known.children⟩
  · exact known

theorem parsed_openRow {p q : Progress} (parsed : p.Parsed notes) {f : Frame}
    {columns : List Alignment} {line : Nat} (opened : openRow p f columns line = some q) :
    q.Parsed notes := by
  unfold openRow at opened
  split at opened
  · cases opened
  · obtain ⟨row, _, rfl⟩ := Option.map_eq_some_iff.1 opened
    refine parsed.openBlock ⟨rfl, fun b member => ?_⟩ _
    exact parsed_cellBlocks _ _ _ _ b (List.mem_reverse.1 member)

theorem atxHeading?_level {s text : Text} {level : Nat} (found : atxHeading? s = some (level, text)) :
    1 ≤ level ∧ level ≤ 6 := by
  unfold atxHeading? at found
  simp only at found
  split at found
  · next bounds =>
      rw [Bool.and_eq_true, decide_eq_true_eq, decide_eq_true_eq] at bounds
      split at found
      · cases found
        exact bounds
      · split at found
        · cases found
          exact bounds
        · cases found
  · cases found

theorem setextLevel?_level {s : Text} {level : Nat} (found : setextLevel? s = some level) :
    1 ≤ level ∧ level ≤ 6 := by
  unfold setextLevel? at found
  simp only at found
  split at found
  · cases found
    decide
  · split at found
    · cases found
      decide
    · cases found

/-- A paragraph whose definitions are taken off it may stay as it is, or become another block. -/
theorem parsed_underlined {r : Reading} (parsed : r.Parsed notes) {f : Frame} {above : List Frame}
    (stack : r.stack = f :: above) {kind : Kind} (known : kind.isParsed notes = true) :
    let taken := (f.takeDefinitions r.references).2
    (∀ g ∈ taken :: above, g.Parsed notes) ∧
      ∀ g ∈ { taken with kind } :: above, g.Parsed notes := by
  intro taken
  rw [Reading.Parsed, stack] at parsed
  obtain ⟨top, others⟩ := List.forall_mem_cons.1 parsed
  have left : taken.Parsed notes := top.takeDefinitions r.references
  exact ⟨List.forall_mem_cons.2 ⟨left, others⟩,
    List.forall_mem_cons.2 ⟨⟨known, left.children⟩, others⟩⟩

theorem parsed_lookOnce {options : BlockOptions} (known : options.footnotes = notes)
    {p q : Progress} (parsed : p.Parsed notes) {line depth : Nat} {lazy : Bool}
    (opened : lookOnce options line depth lazy p = some q) : q.Parsed notes := by
  have begins {kind : Kind} (plain : kind.isParsed notes = true) (column : Nat) (cursor : Cursor) :
      (p.openBlock { kind, line, column } cursor).Parsed notes :=
    parsed.openBlock (Frame.parsed_new plain line column) cursor
  unfold lookOnce at opened
  extract_lets there column rest inner atParagraph footnote at opened
  split at opened
  · split at opened
    · cases opened
      exact begins rfl _ _
    · cases opened
  split at opened
  · cases opened
    exact begins rfl _ _
  split at opened
  · next found =>
      cases opened
      refine begins ?_ _ _
      exact decide_eq_true (atxHeading?_level found)
  split at opened
  · cases opened
    exact begins rfl _ _
  split at opened
  · cases opened
    exact begins rfl _ _
  split at opened
  · cases opened
    exact begins rfl _ _
  split at opened
  · -- a paragraph that an underline makes a heading
    next level found =>
    have heading : (Kind.heading level true).isParsed notes = true :=
      decide_eq_true (setextLevel?_level (congrArg Prod.snd found))
    split at opened
    · next f above stack =>
        obtain ⟨kept, headed⟩ := parsed_underlined parsed.reading stack heading
        simp only at opened
        split at opened
        · cases opened
          exact ⟨kept, parsed.left⟩
        · cases opened
          exact ⟨headed, parsed.left⟩
    · cases opened
  split at opened
  · cases opened
    exact begins rfl _ _
  obtain ⟨note, found⟩ : ∃ note, footnote = note := ⟨_, rfl⟩
  rw [found] at opened
  cases note with
  | some note =>
      cases opened
      have enabled : notes = true := by
        subst known
        cases enabled : options.footnotes with
        | true => rfl
        | false => simp [footnote, enabled] at found
      refine begins ?_ _ _
      exact enabled
  | none =>
      simp only at opened
      split at opened
      · cases opened
        exact parsed_openItem parsed line _ _
      split at opened
      · cases opened
      rw [show inner = p.top? from rfl] at opened
      split at opened
      · split at opened
        · exact parsed_openTable parsed opened
        · exact parsed_openRow parsed opened
        · cases opened
      · cases opened

theorem parsed_openBlocks {options : BlockOptions} (known : options.footnotes = notes)
    (line fuel depth : Nat) (lazy : Bool) {p : Progress} (parsed : p.Parsed notes) :
    (openBlocks options line fuel depth lazy p).Parsed notes := by
  induction fuel generalizing depth lazy p with
  | zero => exact parsed
  | succ fuel ih =>
      unfold openBlocks
      split
      · exact parsed
      · split
        · next q opened =>
            have next := parsed_lookOnce known parsed opened
            split
            · exact next
            · exact ih _ _ next
        · extract_lets isTried
          split
          · exact parsed_markTried parsed
          · exact parsed

theorem parsed_markBlankLine {p : Progress} (parsed : p.Parsed notes) (line : Nat) :
    (markBlankLine p line).Parsed notes := by
  unfold markBlankLine
  extract_lets blank mark left stack
  have marked (f : Frame) (known : f.Parsed notes) : (mark f).Parsed notes := by
    refine ⟨known.kind, ?_⟩
    simp only [mark]
    split
    · next b rest children =>
        have inner := known.children
        rw [children, List.forall_mem_cons] at inner
        exact List.forall_mem_cons.2 ⟨inner.1.markBlank, inner.2⟩
    · exact known.children
  refine ⟨?_, ?_⟩
  · have frames := parsed.reading
    simp only [Reading.Parsed, stack]
    split
    · next f above shown =>
        rw [Reading.Parsed, shown, List.forall_mem_cons] at frames
        refine List.forall_mem_cons.2 ⟨marked f frames.1, fun g member => ?_⟩
        obtain ⟨g, listed, rfl⟩ := List.mem_map.1 member
        exact ⟨(frames.2 g listed).kind, (frames.2 g listed).children⟩
    · exact List.forall_mem_nil _
  · have frames := parsed.left
    simp only [left]
    split
    · next f inner shown =>
        rw [shown, List.forall_mem_cons] at frames
        exact List.forall_mem_cons.2 ⟨⟨frames.1.kind, frames.1.children⟩, frames.2⟩
    · exact frames

theorem Reading.Parsed.addLine {r : Reading} (parsed : r.Parsed notes) (cursor : Cursor) :
    (r.updateTop fun f => f.addLine cursor).Parsed notes :=
  parsed.updateTop fun _ known => known.addLine cursor

theorem parsed_addText {p : Progress} (parsed : p.Parsed notes) (line : Nat) :
    (addText p line).Parsed notes := by
  have ready := parsed_markBlankLine parsed line
  have left := ready.closeLeft
  unfold addText
  simp only
  split
  · -- the line continues a paragraph although it leaves a block around it
    refine Reading.Parsed.addLine (r := { stack := _, references := _ }) ?_ _
    refine List.forall_mem_append.2 ⟨fun f member => ?_, ready.reading⟩
    exact ready.left f (List.mem_reverse.1 member)
  split
  · exact left.reading
  split
  · exact left.reading.addLine _
  · exact left.reading.addLine _
  · split
    · exact (left.reading.addLine _).closeTop
    · exact left.reading.addLine _
  · split
    · exact left.reading
    · split
      all_goals
        split
        · exact left.reading
        · exact left.reading.addLine _
  · split
    · exact left.reading
    · exact left.reading.addLine _
  · split
    · exact left.reading
    · exact (left.openBlock ((Frame.parsed_new rfl _ _).addLine _) _).reading

theorem parsed_readLine {options : BlockOptions} (known : options.footnotes = notes) {r : Reading}
    (parsed : r.Parsed notes) (line : Nat) (text : Text) :
    (readLine options r line text).Parsed notes := by
  unfold readLine
  extract_lets cursor
  have ahead : ∀ f ∈ r.stack.reverse, f.Parsed notes :=
    fun f member => parsed f (List.mem_reverse.1 member)
  have met := parsed_meetAll r.references (List.forall_mem_nil _) ahead cursor
  split
  · next shown =>
      rw [shown] at met
      exact met
  · next shown =>
      rw [shown] at met
      exact parsed_addText (parsed_openBlocks known _ _ _ _ met) line

theorem parsed_readLines {options : BlockOptions} (known : options.footnotes = notes) {r : Reading}
    (parsed : r.Parsed notes) (line : Nat) (lines : List Text) :
    (readLines options r line lines).Parsed notes := by
  induction lines generalizing r line with
  | nil => exact parsed
  | cons text lines ih => exact ih (parsed_readLine known parsed line text) (line + 1)

theorem parsed_readBlocks (options : BlockOptions) (s : Text) :
    (readBlocks options s).1.Parsed options.footnotes := by
  have leaf : (default : Block).Parsed options.footnotes :=
    Block.parsed_leaf (v := .document) rfl _ _
  have begun : Reading.Parsed options.footnotes
      ⟨[{ kind := .document, line := 1, column := 1 }], []⟩ :=
    List.forall_mem_singleton.2 (Frame.parsed_new rfl _ _)
  unfold readBlocks
  extract_lets start r closed
  have read : closed.Parsed options.footnotes := (parsed_readLines rfl begun _ _).closeMany _
  split
  · next f above shown =>
      cases done : (f.close closed.references).2 with
      | none =>
          simp only [Option.getD_none]
          exact leaf
      | some block =>
          simp only [Option.getD_some]
          refine Frame.Parsed.close ?_ closed.references block done
          exact read f (shown ▸ List.mem_cons_self)
  · exact leaf

end LivePage.Markdown
