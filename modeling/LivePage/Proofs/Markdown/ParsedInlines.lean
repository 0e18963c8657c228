import LivePage.Markdown.Inline
import LivePage.Proofs.Markdown.ParsedBlocks

/-!
Inlines that are read hold no headings and no finished HTML, whichever reader made them, and so do
the blocks around them once they are nodes.
-/

namespace LivePage.Markdown

variable {notes : Bool} {scope : Scope}

/-- A piece stands for such a node, without headings. -/
def Piece.Parsed (notes : Bool) (p : Piece) : Prop := p.toNode.Parsed ⟨notes, false⟩

theorem Node.parsed_inline {v : Value} {span : Span} {children : List Node}
    (own : v.isParsed ⟨notes, false⟩ = true) (below : ∀ n ∈ children, n.Parsed ⟨notes, false⟩) :
    (Node.mk v span children).Parsed ⟨notes, false⟩ := by
  refine .mk own ?_
  rwa [Scope.below, Bool.and_false]

/-- What is parsed without headings is parsed with them too. -/
theorem Node.Parsed.widen {n : Node} (parsed : n.Parsed scope) : n.Parsed ⟨scope.notes, true⟩ := by
  induction parsed with
  | @mk scope v span children own below ih =>
      refine .mk ?_ fun n member => ?_
      · cases v with
        | heading level => exact (Bool.and_eq_true_iff.1 own).2
        | _ => exact own
      · have inner := below n member
        cases inline : v.isInline with
        | true =>
            rw [Scope.below, inline] at inner
            rwa [Scope.below, inline]
        | false =>
            have wide := ih n member
            rwa [Scope.below, inline]

theorem parsed_leaf {v : Value} (own : v.isParsed scope = true) (span : Span) :
    (Node.mk v span []).Parsed scope :=
  .mk own (List.forall_mem_nil _)

theorem parsed_text (s : Text) (span : Span) : (textNode s span).Parsed scope := parsed_leaf rfl span

theorem Piece.parsed_run (r : Run) : (Piece.run r).Parsed notes := parsed_text _ _

theorem Piece.parsed_bracket (b : Bracket) : (Piece.bracket b).Parsed notes := parsed_text _ _

theorem Run.isParsed_value (options : EmphasisOptions) (r : Run) (n : Nat) :
    (r.value options n).isParsed scope = true := by
  unfold Run.value
  split
  · split
    · rfl
    · split
      · rfl
      · rfl
  · split
    · rfl
    · split <;> rfl

theorem findOpener_mem {start : Nat} {closer opener : Run} {between pieces inner before : List Piece}
    {clashed : Bool}
    (found : findOpener start closer between clashed pieces = .ok (inner, opener, before)) :
    (∀ p ∈ inner, p ∈ between ∨ p ∈ pieces) ∧ ∀ p ∈ before, p ∈ pieces := by
  have onward {piece : Piece} {between pieces : List Piece} (later :
      (∀ p ∈ inner, p ∈ piece :: between ∨ p ∈ pieces) ∧ ∀ p ∈ before, p ∈ pieces) :
      (∀ p ∈ inner, p ∈ between ∨ p ∈ piece :: pieces) ∧ ∀ p ∈ before, p ∈ piece :: pieces := by
    refine ⟨fun p member => ?_, fun p member => List.mem_cons_of_mem _ (later.2 p member)⟩
    rcases later.1 p member with passed | ahead
    · rcases List.mem_cons.1 passed with rfl | passed
      · exact .inr List.mem_cons_self
      · exact .inl passed
    · exact .inr (List.mem_cons_of_mem _ ahead)
  induction pieces generalizing between clashed with
  | nil => cases found
  | cons piece pieces ih =>
      cases piece with
      | run r =>
          rw [findOpener] at found
          split at found
          · cases found
          split at found
          · split at found
            · exact onward (ih found)
            · cases found
              refine ⟨fun p member => .inl (List.mem_reverse.1 member), fun p member => ?_⟩
              exact List.mem_cons_of_mem _ member
          · exact onward (ih found)
      | node n => exact onward (ih found)
      | bracket b => exact onward (ih found)

theorem parsed_matchRuns (options : EmphasisOptions) (fuel : Nat) (starts : SearchStarts)
    {done ahead : List Piece} (passed : ∀ p ∈ done, p.Parsed notes)
    (left : ∀ p ∈ ahead, p.Parsed notes) :
    ∀ p ∈ matchRuns options fuel starts done ahead, p.Parsed notes := by
  have settled (r : Run) :
      (if r.canOpen then Piece.run r else .node (textNode r.shown r.span)).Parsed notes := by
    split
    · exact Piece.parsed_run r
    · exact parsed_text _ _
  induction fuel generalizing starts done ahead with
  | zero =>
      refine List.forall_mem_append.2 ⟨fun p member => ?_, passed⟩
      exact left p (List.mem_reverse.1 member)
  | succ fuel ih =>
      cases ahead with
      | nil => exact passed
      | cons piece ahead =>
          obtain ⟨first, others⟩ := List.forall_mem_cons.1 left
          cases piece with
          | node n => exact ih starts (List.forall_mem_cons.2 ⟨first, passed⟩) others
          | bracket b => exact ih starts (List.forall_mem_cons.2 ⟨first, passed⟩) others
          | run closer =>
              rw [matchRuns]
              split
              · exact ih starts (List.forall_mem_cons.2 ⟨first, passed⟩) others
              split
              · -- no opener: the run may still open, or is text
                refine ih _ (List.forall_mem_cons.2 ⟨settled _, passed⟩) others
              · next between opener before found =>
                  obtain ⟨inner, front⟩ := findOpener_mem found
                  have inside : ∀ p ∈ between, p.Parsed notes := fun p member =>
                    passed p ((inner p member).resolve_left List.not_mem_nil)
                  have behind : ∀ p ∈ before, p.Parsed notes := fun p member =>
                    passed p (front p member)
                  split
                  · refine ih _ (List.forall_mem_cons.2 ⟨parsed_text _ _, ?_⟩) others
                    refine List.forall_mem_append.2 ⟨inside, ?_⟩
                    exact List.forall_mem_cons.2 ⟨parsed_text _ _, behind⟩
                  · extract_lets used leftOver nodes span made before' closer' ahead'
                    split
                    · refine List.forall_mem_append.2 ⟨fun p member => ?_, ?_⟩
                      · exact others p (List.mem_reverse.1 member)
                      · exact List.forall_mem_cons.2 ⟨first, passed⟩
                    · refine ih _ (List.forall_mem_cons.2 ⟨?_, ?_⟩) ?_
                      · refine Node.parsed_inline (Run.isParsed_value options opener used) fun n member => ?_
                        obtain ⟨p, listed, rfl⟩ := List.mem_map.1 member
                        exact inside p (List.mem_reverse.1 listed)
                      · simp only [before']
                        split
                        · exact behind
                        · exact List.forall_mem_cons.2 ⟨Piece.parsed_run _, behind⟩
                      · simp only [ahead']
                        split
                        · exact others
                        · exact List.forall_mem_cons.2 ⟨Piece.parsed_run _, others⟩

theorem parsed_matchPieces (options : EmphasisOptions) {pieces : List Piece}
    (parsed : ∀ p ∈ pieces, p.Parsed notes) : ∀ n ∈ matchPieces options pieces, n.Parsed ⟨notes, false⟩ := by
  intro n member
  obtain ⟨p, listed, rfl⟩ := List.mem_map.1 member
  exact parsed_matchRuns options _ _ (List.forall_mem_nil _) parsed p (List.mem_reverse.1 listed)

def InlineState.Parsed (notes : Bool) (st : InlineState) : Prop :=
  ∀ p ∈ st.pieces, p.Parsed notes

namespace InlineState

variable {st : InlineState}

theorem Parsed.congr {st' : InlineState} (parsed : st.Parsed notes)
    (same : st'.pieces = st.pieces) : st'.Parsed notes := by
  rwa [InlineState.Parsed, same]

theorem pieces_advance (n : Nat) (st : InlineState) : (st.advance n).pieces = st.pieces := by
  induction n generalizing st with
  | zero => rfl
  | succ n ih =>
      rw [advance]
      split
      · rfl
      · exact ih _

theorem Parsed.advance (parsed : st.Parsed notes) (n : Nat) : (st.advance n).Parsed notes :=
  parsed.congr (pieces_advance n st)

theorem Parsed.advanceTo (parsed : st.Parsed notes) (rest : Text) :
    (st.advanceTo rest).Parsed notes :=
  parsed.advance _

theorem Parsed.push (parsed : st.Parsed notes) {piece : Piece} (new : piece.Parsed notes) :
    (st.push piece).Parsed notes :=
  List.forall_mem_cons.2 ⟨new, parsed⟩

theorem Parsed.pushText (parsed : st.Parsed notes) (source : InlineSource) (start : InlineState)
    (s : Text) : (st.pushText source start s).Parsed notes :=
  parsed.push (parsed_text s _)

theorem Parsed.pushLeaf (parsed : st.Parsed notes) {v : Value}
    (own : v.isParsed ⟨notes, false⟩ = true) (span : Span) : (st.pushNode v span []).Parsed notes :=
  parsed.push (parsed_leaf own span)

theorem Parsed.pushLink (parsed : st.Parsed notes) (target : Target) (span : Span) (s : Text)
    (inner : Span) : (st.pushNode (.link target) span [textNode s inner]).Parsed notes :=
  parsed.push (.mk rfl (List.forall_mem_singleton.2 (parsed_text s inner)))

theorem Parsed.countLines (parsed : st.Parsed notes) (start : InlineState) :
    (st.countLines start).Parsed notes := by
  unfold InlineState.countLines
  simp only
  split
  · exact parsed
  · exact parsed

theorem Parsed.dropBlanks (parsed : st.Parsed notes) : st.dropBlanks.Parsed notes :=
  parsed.advanceTo _

end InlineState

section Readers

variable {source : InlineSource} {st : InlineState}

theorem parsed_readBreak (parsed : st.Parsed notes) : (readBreak st).Parsed notes := by
  unfold readBreak
  extract_lets hard next
  refine InlineState.Parsed.dropBlanks ?_
  refine InlineState.Parsed.pushLeaf (parsed.advance 1) ?_ _
  split <;> rfl

theorem parsed_readCode (parsed : st.Parsed notes) : (readCode source st).Parsed notes := by
  unfold readCode
  simp only
  split
  · exact (parsed.advance _).pushText _ _ _
  · refine InlineState.Parsed.countLines ?_ _
    exact InlineState.Parsed.pushLeaf (parsed.advanceTo _) rfl _

theorem parsed_readBackslash (parsed : st.Parsed notes) :
    (readBackslash source st).Parsed notes := by
  unfold readBackslash
  split
  · split
    · exact (parsed.advance 2).pushText _ _ _
    split
    · refine InlineState.Parsed.dropBlanks ?_
      exact InlineState.Parsed.pushLeaf (parsed.advance 2) rfl _
    · exact (parsed.advance 1).pushText _ _ _
  · exact (parsed.advance 1).pushText _ _ _

theorem parsed_readReference (parsed : st.Parsed notes) :
    (readReference source st).Parsed notes := by
  unfold readReference
  split
  · exact (parsed.advanceTo _).pushText _ _ _
  · exact (parsed.advance 1).pushText _ _ _

theorem parsed_readAngle (parsed : st.Parsed notes) : (readAngle source st).Parsed notes := by
  unfold readAngle
  simp only
  split
  · exact (parsed.advanceTo _).pushLink _ _ _ _
  · exact (parsed.advanceTo _).pushLink _ _ _ _
  · refine InlineState.Parsed.countLines ?_ _
    exact InlineState.Parsed.pushLeaf (parsed.advanceTo _) rfl _
  · exact (parsed.advance 1).pushText _ _ _

theorem parsed_takeBack (n : Nat) {pieces : List Piece} (parsed : ∀ p ∈ pieces, p.Parsed notes) :
    ∀ p ∈ takeBack n pieces, p.Parsed notes := by
  induction pieces generalizing n with
  | nil => cases n <;> exact parsed
  | cons piece rest ih =>
      obtain ⟨first, others⟩ := List.forall_mem_cons.1 parsed
      cases n with
      | zero => exact parsed
      | succ n =>
          unfold takeBack
          split
          · simp only
            split
            · cases first with
              | mk _ below => exact List.forall_mem_cons.2 ⟨.mk rfl below, others⟩
            · exact ih _ others
          · exact parsed

theorem parsed_readColon (parsed : st.Parsed notes) : (readColon source st).Parsed notes := by
  unfold readColon
  simp only
  split
  · refine InlineState.Parsed.pushLink ?_ _ _ _ _
    exact parsed_takeBack _ (parsed.advance _)
  · exact (parsed.advance 1).pushText _ _ _

theorem parsed_readW (parsed : st.Parsed notes) : (readW source st).Parsed notes := by
  unfold readW
  simp only
  split
  · exact (parsed.advance _).pushLink _ _ _ _
  · exact (parsed.advance 1).pushText _ _ _

theorem parsed_readRun (mark : Char) (parsed : st.Parsed notes) :
    (readRun source mark st).Parsed notes := by
  unfold readRun
  extract_lets isQuote n next
  split
  simp only
  split
  · exact (parsed.advance n).push (Piece.parsed_run _)
  · exact (parsed.advance n).pushText _ _ _

theorem parsed_readHyphen (parsed : st.Parsed notes) : (readHyphen source st).Parsed notes := by
  unfold readHyphen
  simp only
  split
  · exact (parsed.advance _).pushText _ _ _
  · exact (parsed.advance 1).pushText _ _ _

theorem parsed_readPeriod (parsed : st.Parsed notes) : (readPeriod source st).Parsed notes := by
  unfold readPeriod
  split
  · exact (parsed.advance 1).pushText _ _ _
  split
  · exact (parsed.advance 3).pushText _ _ _
  · exact (parsed.advance 2).pushText _ _ _
  · exact (parsed.advance 1).pushText _ _ _

theorem parsed_markFollowed {pieces : List Piece} (parsed : ∀ p ∈ pieces, p.Parsed notes) :
    ∀ p ∈ markFollowed pieces, p.Parsed notes := by
  induction pieces with
  | nil => exact parsed
  | cons piece rest ih =>
      obtain ⟨first, others⟩ := List.forall_mem_cons.1 parsed
      unfold markFollowed
      split
      · next h => cases h
      · next h =>
          cases h
          exact List.forall_mem_cons.2 ⟨Piece.parsed_bracket _, others⟩
      · next h =>
          cases h
          exact List.forall_mem_cons.2 ⟨first, ih others⟩

theorem parsed_readOpenBracket (image : Bool) (parsed : st.Parsed notes) :
    (readOpenBracket source image st).Parsed notes := by
  refine List.forall_mem_cons.2 ⟨Piece.parsed_bracket _, parsed_markFollowed ?_⟩
  exact parsed.advance _

theorem parsed_readMark (parsed : st.Parsed notes) : (readMark source st).Parsed notes := by
  unfold readMark
  split
  · split
    · exact (parsed.advance 1).pushText _ _ _
    · exact parsed_readOpenBracket true parsed
  · exact parsed_readOpenBracket true parsed
  · exact (parsed.advance 1).pushText _ _ _

theorem splitBracket?_mem {passed pieces behind before : List Piece} {bracket : Bracket}
    (found : splitBracket? passed pieces = some (behind, bracket, before)) :
    (∀ p ∈ behind, p ∈ passed ∨ p ∈ pieces) ∧ ∀ p ∈ before, p ∈ pieces := by
  induction pieces generalizing passed with
  | nil => cases found
  | cons piece pieces ih =>
      unfold splitBracket? at found
      split at found
      · next h => cases h
      · next h =>
          cases h
          cases found
          exact ⟨fun p member => .inl member, fun p member => List.mem_cons_of_mem _ member⟩
      · next h =>
          cases h
          obtain ⟨inner, front⟩ := ih found
          refine ⟨fun p member => ?_, fun p member => List.mem_cons_of_mem _ (front p member)⟩
          rcases inner p member with listed | ahead
          · rcases List.mem_cons.1 listed with rfl | listed
            · exact .inr List.mem_cons_self
            · exact .inl listed
          · exact .inr (List.mem_cons_of_mem _ ahead)

theorem parsed_readCloseBracket (known : source.options.footnotes = notes)
    (parsed : st.Parsed notes) : (readCloseBracket source st).Parsed notes := by
  unfold readCloseBracket
  extract_lets next
  have ready : next.Parsed notes := parsed.advance 1
  split
  · exact ready.pushText _ _ _
  · next behind bracket before found =>
      obtain ⟨inner, front⟩ := splitBracket?_mem found
      have inside : ∀ p ∈ behind, p.Parsed notes := fun p member =>
        ready p ((inner p member).resolve_left List.not_mem_nil)
      have outside : ∀ p ∈ before, p.Parsed notes := fun p member => ready p (front p member)
      have text : InlineState.Parsed notes { next with
          pieces := behind.reverse ++ Piece.node (Piece.bracket bracket).toNode :: before } := by
        refine List.forall_mem_append.2 ⟨fun p member => inside p (List.mem_reverse.1 member), ?_⟩
        exact List.forall_mem_cons.2 ⟨Piece.parsed_bracket bracket, outside⟩
      simp only
      split
      · exact text.pushText _ _ _
      split
      · refine List.forall_mem_cons.2 ⟨Node.parsed_inline ?_ (parsed_matchPieces _ inside), outside⟩
        split <;> rfl
      split
      · next name found =>
          have enabled : notes = true := by
            subst known
            cases enabled : source.options.footnotes with
            | true => rfl
            | false => simp [enabled] at found
          refine List.forall_mem_append.2 ⟨fun p member => ?_, ?_⟩
          · exact inside p (List.mem_filter.1 (List.mem_reverse.1 member)).1
          · refine List.forall_mem_cons.2 ⟨?_, outside⟩
            refine Node.Parsed.mk ?_ (List.forall_mem_nil _)
            exact enabled
      · exact text.pushText _ _ _

theorem parsed_readPlain (parsed : st.Parsed notes) : (readPlain source st).Parsed notes := by
  unfold readPlain
  extract_lets special shown next atLineEnd trimmed
  split
  · exact parsed.advance _
  · exact (parsed.advance _).push (parsed_text _ _)

theorem parsed_readInline (known : source.options.footnotes = notes) (parsed : st.Parsed notes) :
    (readInline source st).Parsed notes := by
  have ite {c : Prop} [Decidable c] {x y : InlineState} (h : x.Parsed notes) (h' : y.Parsed notes) :
      (if c then x else y).Parsed notes := by
    split
    · exact h
    · exact h'
  unfold readInline
  split
  · exact parsed
  · refine ite (parsed_readBreak parsed) (ite (parsed_readCode parsed)
      (ite (parsed_readBackslash parsed) (ite (parsed_readReference parsed)
        (ite (parsed_readAngle parsed) (ite (parsed_readColon parsed) (ite (parsed_readW parsed) ?_))))))
    refine ite (parsed_readHyphen parsed) (ite (parsed_readPeriod parsed)
      (ite (parsed_readOpenBracket false parsed) (ite (parsed_readCloseBracket known parsed)
        (ite (parsed_readMark parsed) (ite (parsed_readRun _ parsed) ?_)))))
    exact ite (parsed_readRun _ parsed) (parsed_readPlain parsed)

theorem parsed_readAll (known : source.options.footnotes = notes) (fuel : Nat)
    (parsed : st.Parsed notes) : (readAll source fuel st).Parsed notes := by
  induction fuel generalizing st with
  | zero => exact parsed
  | succ fuel ih =>
      rw [readAll]
      split
      · exact parsed
      · exact ih (parsed_readInline known parsed)

end Readers

theorem parsed_readInlines (options : InlineOptions) (references : References) (content : Content) :
    ∀ n ∈ readInlines options references content, n.Parsed ⟨options.footnotes, false⟩ := by
  refine parsed_matchPieces _ fun p member => ?_
  refine parsed_readAll rfl _ ?_ p (List.mem_reverse.1 member)
  exact List.forall_mem_nil _

mutual

theorem parsed_toNode (options : InlineOptions) (references : References) :
    ∀ b : Block, b.Parsed options.footnotes →
      (b.toNode options references).Parsed ⟨options.footnotes, true⟩
  | .mk v content blank children, .mk own below => by
      have read := parsed_readInlines options references content
      have inner := parsed_toNodes options references children below
      unfold Block.toNode
      split
      · exact .mk rfl fun n member => (read n member).widen
      · exact .mk own fun n member => (read n member).widen
      · exact .mk rfl fun n member => (read n member).widen
      · obtain ⟨block, known⟩ := Bool.and_eq_true_iff.1 own
        refine .mk known ?_
        rwa [Scope.below, block]

theorem parsed_toNodes (options : InlineOptions) (references : References) :
    ∀ bs : List Block, (∀ b ∈ bs, b.Parsed options.footnotes) →
      ∀ n ∈ Block.toNodes options references bs, n.Parsed ⟨options.footnotes, true⟩
  | [], _ => List.forall_mem_nil _
  | b :: rest, parsed => by
      obtain ⟨first, others⟩ := List.forall_mem_cons.1 parsed
      exact List.forall_mem_cons.2 ⟨parsed_toNode options references b first,
        parsed_toNodes options references rest others⟩

end

theorem isInline_toNode {b : Block} (options : InlineOptions) (references : References)
    (parsed : b.Parsed notes) : (b.toNode options references).value.isInline = false := by
  cases parsed with
  | mk own _ =>
      unfold Block.toNode
      split
      · rfl
      · rfl
      · rfl
      · exact Bool.not_eq_true' _ ▸ (Bool.and_eq_true_iff.1 own).1

end LivePage.Markdown
