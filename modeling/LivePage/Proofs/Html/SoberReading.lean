import LivePage.Proofs.Html.BodyRules
import LivePage.Proofs.Html.Sober

/-!
Reading a sober document. Its start tags are of ordinary names, and whatever rules they meet, in
whatever order they come, the builder stays sober; so do scripts, which are read up to some end tag
of the document.
-/

namespace LivePage.Html

def ordinaryNames : List Text := holderNames.tail ++ hollowNames

def Token.Sober (good : Text → Attributes → Prop) : Token → Prop
  | .openTag tag => tag.name ∈ ordinaryNames ∧ good tag.name tag.attributes
  | .comment s => IsCommentText s
  | .doctype _ => False
  | _ => True

namespace Builder

/-- The parts of tables, which have no meaning outside of tables. -/
def rowNames : List Text := ["head", "tbody", "td", "th", "thead", "tr"]

theorem askedAt_rest : AllAskedAt startNames ["html"] 0 ∧ AllAskedAt startNames ["script"] 1 ∧
    AllAskedAt startNames ["body"] 2 ∧ AllAskedAt startNames rowNames 33 := by
  unfold startNames headContentNames blockNames headingNames formattingNames textsOf
  repeat rw [String.toList_ofList]
  decide +kernel

theorem openInBody_root (b : Builder) {tag : Tag} (known : tag.name = "html".toList) :
    b.openInBody tag = b.mergeRoot tag := if_pos known

theorem openInBody_row (b : Builder) {tag : Tag} (known : tag.name ∈ rowNames) :
    b.openInBody tag = b := by
  have asked := askedAt_rest.2.2.2 _ known
  simp only [startNames, AskedAt] at asked
  simp only [openInBody, among, List.contains_iff_mem, ← @List.mem_singleton Text, asked, if_true,
    if_false]

theorem openInBody_script (b : Builder) {tag : Tag} (known : tag.name ∈ ["script".toList]) :
    b.openInBody tag = b.openHeadContent tag := by
  have asked := askedAt_rest.2.1 _ known
  simp only [startNames, AskedAt] at asked
  simp only [openInBody, List.contains_iff_mem, ← @List.mem_singleton Text, asked, if_true,
    if_false]

theorem ordinary_cases : ∀ name ∈ ordinaryNames, name = "html".toList ∨ name ∈ ["body".toList] ∨
    name ∈ plainBlocks ∨ name ∈ headingNames ∨ name ∈ ["pre".toList] ∨ name ∈ ["li".toList] ∨
    name ∈ ["button".toList] ∨ name ∈ ["a".toList] ∨ name ∈ ["em".toList, "strong", "u", "code"] ∨
    name ∈ ["table".toList] ∨ name ∈ voidElements ∨ name ∈ ["input".toList] ∨ name ∈ ["hr".toList] ∨
    name ∈ plainElements ∨ name ∈ rowNames := by
  unfold headingNames textsOf
  rw [String.toList_ofList]
  decide +kernel

theorem not_headContent : ∀ name ∈ ordinaryNames, headContentNames.contains name = false := by
  unfold headContentNames textsOf
  repeat rw [String.toList_ofList]
  decide +kernel

theorem ne_of_ordinary {name : Text} (known : name ∈ ordinaryNames) (other : Text)
    (unusual : other ∉ ordinaryNames) : name ≠ other := by
  rintro rfl
  exact unusual known

namespace Sober

variable {good : Text → Attributes → Prop} {l : Lexing} {b : Builder}

section Tags

variable (h : b.Sober good l) {tag : Tag}
include h

theorem openListItem (names : List Text) (known : tag.name ∈ holderNames)
    (fine : good tag.name tag.attributes) : (b.openListItem names tag).Sober good l := by
  unfold Builder.openListItem
  refine insertTag (closeParagraph ?_) known fine
  split
  · exact h.forbidFrames.closeNamed _
  · exact h.forbidFrames

theorem openButton (known : tag.name ∈ holderNames) (fine : good tag.name tag.attributes) :
    (b.openButton tag).Sober good l :=
  ((ite (h.closeAfterImplied _) h).reconstruct.insertTag known fine).forbidFrames

theorem openInput (known : tag.name ∈ holderNames ++ hollowNames)
    (fine : good tag.name tag.attributes) :
    (b.openInput tag).Sober good l := by
  have ready : (if b.inScopeNamed boundsScope "select" then b.popUntilNamed "select"
      else b).Sober good l := ite (h.popUntil _) h
  have put := ready.reconstruct.insertVoid known fine
  exact ite put put.forbidFrames

theorem openRule (known : tag.name ∈ holderNames ++ hollowNames)
    (fine : good tag.name tag.attributes) :
    (b.openRule tag).Sober good l :=
  ((ite (h.closeParagraph.impliedEnds _) h.closeParagraph).insertVoid known fine).forbidFrames

theorem openBody (known : tag.name ∈ ["body".toList]) (fine : good tag.name tag.attributes) :
    (b.openInBody tag).Sober good l := by
  have spine : tag.name ∈ spineNames := List.mem_cons_of_mem _ known
  have asked := askedAt_rest.2.2.1 _ known
  simp only [startNames, AskedAt] at asked
  simp only [openInBody, List.contains_iff_mem, ← @List.mem_singleton Text, asked, if_true,
    if_false]
  split
  · exact ite h (h.addMissing _ spine fine).forbidFrames
  · exact h

theorem openInBody (known : tag.name ∈ ordinaryNames) (fine : good tag.name tag.attributes) :
    (b.openInBody tag).Sober good l := by
  have all : ∀ name ∈ ordinaryNames, name ∈ holderNames ++ hollowNames := by decide +kernel
  have any := all _ known
  rcases ordinary_cases _ known with root | body | block | heading | pre | item | button | anchor |
    formatting | table | void | input | rule | plain | row
  · rw [openInBody_root b root]
    exact h.mergeRoot root fine
  · exact h.openBody body fine
  · have holder : ∀ name ∈ plainBlocks, name ∈ holderNames := by decide
    rw [openInBody_block b block]
    exact h.closeParagraph.insertTag (holder _ block) fine
  · have holder : ∀ name ∈ headingNames, name ∈ holderNames := by decide
    rw [openInBody_heading b heading]
    exact (ite h.closeParagraph.pop h.closeParagraph).insertTag (holder _ heading) fine
  · have holder : ∀ name ∈ ["pre".toList], name ∈ holderNames := by decide
    have put := (h.closeParagraph.insertTag (holder _ pre) fine).forbidFrames
    rw [openInBody_pre b pre]
    exact { put with }
  · have holder : ∀ name ∈ ["li".toList], name ∈ holderNames := by decide
    rw [openInBody_item b item]
    exact h.openListItem _ (holder _ item) fine
  · have holder : ∀ name ∈ ["button".toList], name ∈ holderNames := by decide
    rw [openInBody_button b button]
    exact h.openButton (holder _ button) fine
  · have holder : ∀ name ∈ ["a".toList], name ∈ holderNames := by decide
    rw [openInBody_anchor b anchor]
    exact h.endOpenAnchor.reconstruct.openFormatting (holder _ anchor) fine
  · have holder : ∀ name ∈ ["em".toList, "strong", "u", "code"], name ∈ holderNames := by decide
    rw [openInBody_formatting b formatting]
    exact h.reconstruct.openFormatting (holder _ formatting) fine
  · have holder : ∀ name ∈ ["table".toList], name ∈ holderNames := by decide
    rw [openInBody_table b table]
    exact ((ite h h.closeParagraph).insertTag (holder _ table) fine).forbidFrames.setMode _ rfl
  · rw [openInBody_void b void]
    exact (h.reconstruct.insertVoid any fine).forbidFrames
  · rw [openInBody_input b input]
    exact h.openInput any fine
  · rw [openInBody_rule b rule]
    exact h.openRule any fine
  · have holder : ∀ name ∈ plainElements, name ∈ holderNames := by decide
    rw [openInBody_plain b plain]
    exact h.reconstruct.insertTag (holder _ plain) fine
  · rw [openInBody_row b row]
    exact h

end Tags

/-- The open elements of a sober document lead to no mode for columns, templates or frame sets. -/
theorem isFlow_modeOf {opened : List Opened} (bear : ∀ o ∈ opened, b.dom.Bears o) :
    (b.modeOf opened).isFlow = true := by
  induction opened with
  | nil => rfl
  | cons o rest ih =>
      obtain ⟨bears, others⟩ := List.forall_mem_cons.1 bear
      have absent (name : Text) (other : name ∉ holderNames) : withName name o.name = false := by
        rw [withName, Bool.and_eq_false_iff]
        exact .inr (decide_eq_false fun same => other (same ▸ bears.name))
      have caption := absent "caption" (by decide)
      have columns := absent "colgroup" (by decide)
      have template := absent "template" (by decide)
      have frames := absent "frameset" (by decide)
      unfold modeOf
      simp only [caption, columns, template, frames, Bool.false_eq_true, if_false]
      split_ifs
      all_goals first | rfl | exact ih others

theorem resetMode (h : b.Sober good l) : b.resetMode.Sober good l :=
  h.setMode _ (isFlow_modeOf h.opened)

theorem closeTemplate (h : b.Sober good l) : b.closeTemplate.Sober good l := by
  have closed :=
    ((h.impliedEnds endsImpliedThoroughly).popUntil (withName "template")).clearToMarker
  refine ite (resetMode ?_) h
  exact { closed with }

theorem closeForm (h : b.Sober good l) : b.closeForm.Sober good l := by
  refine ite (ite (h.closeAfterImplied _) h) ?_
  split
  · exact h
  · have left : { b with form := none }.Sober good l := { h with }
    exact ite ((left.impliedEnds _).removeOpened _) left

theorem closeInBody (h : b.Sober good l) (name : Text) : (b.closeInBody name).Sober good l := by
  have paragraph : "p".toList ∈ holderNames ∧ "p".toList ≠ "script".toList := by decide
  unfold Builder.closeInBody
  refine ite h.closeTemplate (ite (ite (h.closeAfterImplied name) h) (ite h.closeForm (ite
    ((ite h (h.insertImplied paragraph.1 paragraph.2)).closeNamed _) (ite (ite (h.closeNamed name) h) (ite
    (ite (h.closeNamed name) h) (ite (ite ((h.impliedEnds _).popUntil _) h) (ite
    (h.endFormatting name) (ite (ite (h.closeAfterImplied name).clearToMarker h) ?_))))))))
  split
  · next same =>
      have known : (Tag.mk name [] false).name ∈ holderNames ++ hollowNames := by
        rw [same]
        decide
      have other : name ≠ "script".toList := by
        rw [same]
        decide
      exact (h.reconstruct.insertVoid known (h.dom.lasting.nil _ other)).forbidFrames
  · exact h.closeAny name

theorem writeText (h : b.Sober good l) (run : Text) : (b.writeText run).Sober good l :=
  ite (h.reconstruct.appendText run) (h.reconstruct.appendText run).forbidFrames

theorem endTemplates (h : b.Sober good l) : b.endTemplates.builder.Sober good l := by
  have closed := (h.popUntil (withName "template")).clearToMarker
  refine next (resetMode ?_) h
  exact { closed with }

variable {token : Token}

theorem inBody (h : b.Sober good l) (sober : token.Sober good) :
    (b.inBody token).builder.Sober good l := by
  cases token with
  | text run => exact h.writeText run
  | comment s => exact h.appendComment sober
  | openTag tag => exact h.openInBody sober.1 sober.2
  | closeTag name =>
      exact next (ite (h.setMode _ rfl) h) (next (next (h.setMode _ rfl) h) (h.closeInBody name))
  | ending => exact next h h.endTemplates
  | null => exact h
  | doctype _ => exact h

theorem nextElse {c : Prop} [Decidable c] {x y : Next} (other : ¬c) (h : y.builder.Sober good l) :
    (if c then x else y).builder.Sober good l := by
  rwa [if_neg other]

theorem nextThen {c : Prop} [Decidable c] {x y : Next} (h : c → x.builder.Sober good l)
    (h' : y.builder.Sober good l) : (if c then x else y).builder.Sober good l := by
  split
  · next holds => exact h holds
  · exact h'

theorem inInitial (h : b.Sober good l) (sober : token.Sober good) :
    (b.inInitial token).builder.Sober good l := by
  have lenient : ({ b with lenient := true }.setMode .beforeHtml).Sober good l :=
    { h with mode := .inl rfl }
  cases token with
  | comment s => exact h.commentInDocument sober
  | text run => exact next h lenient
  | _ => exact lenient

theorem beforeHtml (h : b.Sober good l) (sober : token.Sober good) :
    (b.beforeHtml token).builder.Sober good l := by
  have implied := (h.openRoot (h.dom.lasting.nil _ (by decide))).setMode .beforeHead rfl
  cases token with
  | comment s => exact h.commentInDocument sober
  | text run => exact next h implied
  | openTag tag =>
      exact nextThen (fun same => (h.openRoot (same ▸ sober.2)).setMode _ rfl) implied
  | closeTag name => exact next implied h
  | _ => exact implied

theorem beforeHead (h : b.Sober good l) (sober : token.Sober good) :
    (b.beforeHead token).builder.Sober good l := by
  have implied := h.openHead (h.dom.lasting.nil _ (by decide))
  cases token with
  | comment s => exact h.appendComment sober
  | text run => exact next h implied
  | openTag tag =>
      refine nextThen (fun same => h.mergeRoot same sober.2) (nextThen ?_ implied)
      exact fun same => h.openHead (same ▸ sober.2)
  | closeTag name => exact next implied h
  | _ => exact implied

theorem inHead (h : b.Sober good l) (sober : token.Sober good) :
    (b.inHead token).builder.Sober good l := by
  have leave := h.pop.setMode .afterHead rfl
  cases token with
  | text run => exact next (h.appendText run) leave
  | comment s => exact h.appendComment sober
  | openTag tag =>
      have script := ne_of_ordinary sober.1 "noscript" (by decide)
      have none : ¬(headContentNames.contains tag.name || tag.name = "noscript".toList) = true := by
        rw [not_headContent _ sober.1, Bool.false_or, decide_eq_true_eq]
        exact script
      exact nextThen (fun same => h.mergeRoot same sober.2) (nextElse none (next h leave))
  | closeTag name => exact next leave (next leave (next h.closeTemplate h))
  | _ => exact leave

theorem afterHead (h : b.Sober good l) (sober : token.Sober good) :
    (b.afterHead token).builder.Sober good l := by
  have body : "body".toList ∈ holderNames := by decide
  have implied := (h.insertImplied body (by decide)).setMode .inBody rfl
  cases token with
  | text run => exact next (h.appendText run) implied
  | comment s => exact h.appendComment sober
  | openTag tag =>
      have frames := ne_of_ordinary sober.1 "frameset" (by decide)
      have none := Bool.eq_false_iff.1 (not_headContent _ sober.1)
      refine nextThen (fun same => h.mergeRoot same sober.2) (nextThen ?_ (nextElse frames
        (nextElse none (next h implied))))
      exact fun same => (h.insertTag (same ▸ body) sober.2).forbidFrames.setMode _ rfl
  | closeTag name => exact next h.closeTemplate (next implied h)
  | _ => exact implied

theorem inText (h : b.Sober good l) : (b.inText token).builder.Sober good l := by
  have ended : (b.pop.setMode b.resumed).Sober good l := h.pop.setMode _ h.resumed
  cases token with
  | text run => exact h.appendText run
  | closeTag name => exact ended
  | ending => exact ended
  | _ => exact h

theorem map {step : Next} {f : Builder → Builder} (h : step.builder.Sober good l)
    (kept : ∀ b : Builder, b.Sober good l → (f b).Sober good l) :
    (step.map f).builder.Sober good l := by
  cases step with
  | done b => exact kept b h
  | again b => exact kept b h

theorem foster (h : b.Sober good l) (sober : token.Sober good) :
    (b.foster token).builder.Sober good l := by
  have fostering : { b with fostering := true }.Sober good l := { h with }
  exact map (fostering.inBody sober) fun _ h => { h with }

theorem fosterText (h : b.Sober good l) (run : Text) : (b.fosterText run).Sober good l := by
  have fostering : { b with fostering := true }.Sober good l := { h with }
  exact { fostering.writeText run with }

theorem closeTable (h : b.Sober good l) : b.closeTable.Sober good l := (h.popUntil _).resetMode

theorem inTable (h : b.Sober good l) (flow : b.mode.isFlow = true) (sober : token.Sober good) :
    (b.inTable token).builder.Sober good l := by
  have back : (b.popBackTo boundsTable).Sober good l := h.popBackTo _
  have fostered := h.foster sober
  have pending : { b with resumed := b.mode, mode := .inTableText, tableText := [] }.Sober good l :=
    { h with mode := .inr (.inl rfl), resumed := flow }
  cases token with
  | text run => exact next pending fostered
  | null => exact next pending fostered
  | comment s => exact h.appendComment sober
  | openTag tag =>
      obtain ⟨known, fine⟩ := sober
      have bodies : ∀ name ∈ textsOf "tbody tfoot thead", name ∈ ordinaryNames →
          name ∈ holderNames := by decide +kernel
      have implied : "tbody".toList ∈ holderNames := by decide
      have content : ¬among "style script template" tag.name = true := by
        have other : ∀ name ∈ textsOf "style script template", name ∉ ordinaryNames := by
          decide +kernel
        exact fun asked => other _ (List.contains_iff_mem.1 asked) known
      refine nextElse (ne_of_ordinary known _ (by decide)) (nextElse
        (ne_of_ordinary known _ (by decide)) (nextElse (ne_of_ordinary known _ (by decide)) ?_))
      refine nextThen (fun part => ?_) (next ((back.insertImplied implied (by decide)).setMode _
        rfl) (next (next h.closeTable h) (nextElse content (next (h.insertVoid ?_ fine)
          (nextElse ?_ fostered)))))
      · have holder := bodies _ (List.contains_iff_mem.1 part) known
        exact (back.insertTag holder fine).setMode _ rfl
      · have all : ∀ name ∈ ordinaryNames, name ∈ holderNames ++ hollowNames := by decide +kernel
        exact all _ known
      · exact ne_of_ordinary known _ (by decide)
  | closeTag name => exact next (ite h.closeTable h) (next h (next h.closeTemplate fostered))
  | ending => exact h.inBody sober
  | doctype _ => exact h

theorem flushTableText (h : b.Sober good l) : b.flushTableText.Sober good l := by
  have emptied : { b with tableText := [] }.Sober good l := { h with }
  exact ite emptied (ite (emptied.appendText _) (emptied.fosterText _))

theorem inTableText (h : b.Sober good l) : (b.inTableText token).builder.Sober good l := by
  have flushed : (b.flushTableText.setMode b.resumed).Sober good l :=
    h.flushTableText.setMode _ h.resumed
  cases token with
  | null => exact h
  | text run => exact { h with }
  | _ => exact flushed

theorem inTableBody (h : b.Sober good l) (flow : b.mode.isFlow = true) (sober : token.Sober good) :
    (b.inTableBody token).builder.Sober good l := by
  have back : (b.popBackTo holdsRows).Sober good l := h.popBackTo _
  have leave : (if b.inScope boundsTable (named (textsOf "table tbody tfoot")) then
      (b.popBackTo holdsRows).pop.againIn .inTable else .done b).builder.Sober good l :=
    next (back.pop.setMode _ rfl) h
  have table := h.inTable flow sober
  have row : "tr".toList ∈ holderNames := by decide
  cases token with
  | openTag tag =>
      refine nextThen ?_ (next ((back.insertImplied row (by decide)).setMode _ rfl)
        (next leave table))
      exact fun same => (back.insertTag (same ▸ row) sober.2).setMode _ rfl
  | closeTag name => exact next (ite (back.pop.setMode _ rfl) h) (next leave (next h table))
  | _ => exact table

theorem inRow (h : b.Sober good l) (flow : b.mode.isFlow = true) (sober : token.Sober good) :
    (b.inRow token).builder.Sober good l := by
  have back : (b.popBackTo holdsCells).Sober good l := h.popBackTo _
  have leave : (if b.inScopeNamed boundsTable "tr" then
      (b.popBackTo holdsCells).pop.againIn .inTableBody else .done b).builder.Sober good l :=
    next (back.pop.setMode _ rfl) h
  have table := h.inTable flow sober
  have cells : ∀ name ∈ textsOf "th td", name ∈ holderNames := by decide +kernel
  cases token with
  | openTag tag =>
      refine nextThen ?_ (next leave table)
      exact fun asked => (back.insertTag (cells _ (List.contains_iff_mem.1 asked))
        sober.2).pushMarker.setMode _ rfl
  | closeTag name =>
      exact next (ite (back.pop.setMode _ rfl) h) (next leave (next (next leave h) (next h table)))
  | _ => exact table

theorem closeCell (h : b.Sober good l) : b.closeCell.Sober good l :=
  ((h.impliedEnds _).popUntil _).clearToMarker.setMode _ rfl

theorem inCell (h : b.Sober good l) (sober : token.Sober good) :
    (b.inCell token).builder.Sober good l := by
  have body := h.inBody sober
  cases token with
  | openTag tag => exact next (next h.closeCell h) body
  | closeTag name =>
      have closed := (h.closeAfterImplied name).clearToMarker.setMode .inRow rfl
      exact next (ite closed h) (next h (next (next h.closeCell h) body))
  | _ => exact body

theorem afterBody (h : b.Sober good l) (sober : token.Sober good) :
    (b.afterBody token).builder.Sober good l := by
  have back : (b.setMode .inBody).Sober good l := h.setMode _ rfl
  cases token with
  | text run => exact next (h.writeText run) back
  | comment s => exact h.commentInRoot sober
  | openTag tag => exact nextThen (fun same => h.mergeRoot same sober.2) back
  | closeTag name => exact next (h.setMode _ rfl) back
  | ending => exact h
  | _ => exact back

theorem afterEnd (h : b.Sober good l) (sober : token.Sober good) :
    (b.afterEnd token).builder.Sober good l := by
  have back : (b.setMode .inBody).Sober good l := h.setMode _ rfl
  cases token with
  | text run => exact next (h.writeText run) back
  | comment s => exact h.commentInDocument sober
  | openTag tag => exact nextThen (fun same => h.mergeRoot same sober.2) back
  | ending => exact h
  | _ => exact back

theorem inMode (h : b.Sober good l) (sober : token.Sober good) :
    (b.inMode token).builder.Sober good l := by
  have flow := h.mode
  unfold Builder.inMode
  cases mode : b.mode
  case initial => exact h.inInitial sober
  case beforeHtml => exact h.beforeHtml sober
  case beforeHead => exact h.beforeHead sober
  case inHead => exact h.inHead sober
  case afterHead => exact h.afterHead sober
  case inBody => exact h.inBody sober
  case inText => exact h.inText
  case inTable => exact h.inTable (by rw [mode]; rfl) sober
  case inTableText => exact h.inTableText
  case inTableBody => exact h.inTableBody (by rw [mode]; rfl) sober
  case inRow => exact h.inRow (by rw [mode]; rfl) sober
  case inCell => exact h.inCell sober
  case afterBody => exact h.afterBody sober
  case afterEnd => exact h.afterEnd sober
  all_goals
    rw [mode] at flow
    rcases flow with flow | flow | ⟨flow, _⟩ <;> cases flow

theorem isForeign (h : b.Sober good l) (token : Token) : b.isForeign token = false := by
  unfold Builder.isForeign
  split
  · rfl
  · next o rest opened =>
      rw [if_pos (h.opened o (opened ▸ List.mem_cons_self)).space]

theorem feedTimes (h : b.Sober good l) (sober : token.Sober good) (n : Nat) :
    (Builder.feedTimes token n b).Sober good l := by
  induction n generalizing b with
  | zero => exact h
  | succ n ih =>
      have applied := h.inMode sober
      rw [Builder.feedTimes, h.isForeign, if_neg Bool.false_ne_true]
      cases step : b.inMode token with
      | done b' =>
          rw [step] at applied
          exact applied
      | again b' =>
          rw [step] at applied
          exact ih applied

theorem feed (h : b.Sober good l) (sober : token.Sober good) : (b.feed token).Sober good l :=
  h.feedTimes sober _

theorem feedText (h : b.Sober good l) (n : Nat) (s : Text) :
    (Builder.feedText n s b).Sober good l := by
  induction n generalizing s b with
  | zero => exact h
  | succ n ih =>
      cases s with
      | nil => exact h
      | cons c s =>
          have text (run : Text) : (Token.text run).Sober good := trivial
          exact ite (ih (h.feed (text _)) _) (h.feed (text _))

theorem receive (h : b.Sober good .markup) (sober : token.Sober good) :
    (b.receive token).Sober good .markup := by
  have ready : { b with dropsLineFeed := false }.Sober good .markup := { h with }
  cases token with
  | text run => exact ready.feedText _ _
  | doctype declaration => exact sober.elim
  | closeTag name =>
      have ready : { b with dropsLineFeed := false, lexing := .markup }.Sober good .markup :=
        { h with lexing := rfl }
      exact ready.feed sober
  | _ => exact ready.feed sober

end Sober

/-- A builder in a script of such a document. -/
structure InScript (good : Text → Attributes → Prop) (b : Builder) : Prop where
  sober : b.Sober good .script
  mode : b.mode = .inText

/-- How often the start tag of a script is looked at again at most. -/
def scriptSteps : Mode → Nat
  | .inTableText => 5
  | .initial => 4
  | .beforeHtml => 3
  | .beforeHead => 2
  | .afterBody | .afterEnd => 1
  | _ => 0

theorem scriptSteps_lt {mode : Mode} (flow : mode.isFlow = true) : scriptSteps mode < 5 := by
  cases mode <;> first | decide | cases flow

section Scripts

variable {good : Text → Attributes → Prop} {b : Builder} {tag : Tag}

theorem Sober.openHeadContent (h : b.Sober good .markup) (flow : b.mode.isFlow = true)
    (script : tag.name = "script".toList) (fine : good tag.name tag.attributes) :
    (b.openHeadContent tag).InScript good := by
  have known : tag.name ∈ holderNames := by
    rw [script]
    decide
  have opened : b.openHeadContent tag = b.openText tag .script := by
    simp only [Builder.openHeadContent, script]
    rfl
  rw [opened]
  exact ⟨{ h.insertTag known fine with
    mode := .inr (.inr ⟨rfl, rfl⟩)
    resumed := flow
    lexing := rfl }, rfl⟩

theorem InScript.removeOpened (h : b.InScript good) (id : NodeId) :
    (b.removeOpened id).InScript good := ⟨h.sober.removeOpened id, h.mode⟩

theorem Sober.backInHead (h : b.Sober good .markup) (flow : b.mode.isFlow = true)
    (script : tag.name = "script".toList) (fine : good tag.name tag.attributes) :
    (b.backInHead tag).InScript good := by
  unfold Builder.backInHead
  split
  · next o shown =>
      exact ((h.push (h.head o shown)).openHeadContent (b := b.push o) flow script
        fine).removeOpened o.id
  · exact h.openHeadContent flow script fine

theorem inTable_script (b : Builder) (script : tag.name = "script".toList) :
    b.inTable (.openTag tag) = .done (b.openHeadContent tag) := by
  have asked : among "style script template" "script" = true ∧
      among "tbody tfoot thead" "script" = false ∧ among "td th tr" "script" = false := by
    unfold among textsOf
    repeat rw [String.toList_ofList]
    decide +kernel
  simp only [inTable, script, asked, Bool.false_eq_true, if_false, if_true]
  rfl

theorem Sober.inMode_script (h : b.Sober good .markup) (script : tag.name = "script".toList)
    (fine : good tag.name tag.attributes) :
    (∃ b', b.inMode (.openTag tag) = .done b' ∧ b'.InScript good) ∨
      ∃ b', b.inMode (.openTag tag) = .again b' ∧ b'.Sober good .markup ∧
        scriptSteps b'.mode < scriptSteps b.mode := by
  have flow := h.mode
  have known : tag.name ∈ ["script".toList] := List.mem_singleton.2 script
  have body : b.inBody (.openTag tag) = .done (b.openHeadContent tag) := by
    rw [Builder.inBody, openInBody_script b known]
  have content : headContentNames.contains "script".toList = true := by
    unfold headContentNames textsOf
    repeat rw [String.toList_ofList]
    decide +kernel
  have row : among "caption col colgroup tbody tfoot thead" "script" = false ∧
      among "caption col colgroup tbody tfoot thead tr" "script" = false ∧
      among "caption col colgroup tbody td tfoot th thead tr" "script" = false ∧
      among "th td" "script" = false := by
    unfold among textsOf
    repeat rw [String.toList_ofList]
    decide +kernel
  have others : "script".toList ≠ "html".toList ∧ "script".toList ≠ "head".toList ∧
      "script".toList ≠ "body".toList ∧ "script".toList ≠ "frameset".toList ∧
      "script".toList ≠ "tr".toList := by decide
  have nil := h.dom.lasting.nil
  unfold Builder.inMode
  cases mode : b.mode <;> rw [mode] at flow
  case initial =>
      exact .inr ⟨_, rfl, { h with mode := .inl rfl }, Nat.lt_succ_self 3⟩
  case beforeHtml =>
      refine .inr ⟨_, ?_, (h.openRoot (nil _ (by decide))).setMode .beforeHead rfl,
        Nat.lt_succ_self 2⟩
      simp only [Builder.beforeHtml, script, others, if_false]
      rfl
  case beforeHead =>
      refine .inr ⟨_, ?_, h.openHead (nil _ (by decide)), Nat.zero_lt_two⟩
      simp only [Builder.beforeHead, script, others, if_false]
  case inHead =>
      refine .inl ⟨_, ?_, h.openHeadContent (by rw [mode]; rfl) script fine⟩
      simp only [Builder.inHead, script, others, content, Bool.true_or, if_false, if_true]
  case afterHead =>
      refine .inl ⟨_, ?_, h.backInHead (by rw [mode]; rfl) script fine⟩
      simp only [Builder.afterHead, script, others, content, if_false, if_true]
  case inBody => exact .inl ⟨_, body, h.openHeadContent (by rw [mode]; rfl) script fine⟩
  case inTable =>
      exact .inl ⟨_, b.inTable_script script, h.openHeadContent (by rw [mode]; rfl) script fine⟩
  case inTableText =>
      exact .inr ⟨_, rfl, h.flushTableText.setMode _ h.resumed, scriptSteps_lt h.resumed⟩
  case inTableBody =>
      refine .inl ⟨_, ?_, h.openHeadContent (by rw [mode]; rfl) script fine⟩
      simp only [Builder.inTableBody, script, others, row, Bool.false_eq_true, if_false]
      exact b.inTable_script script
  case inRow =>
      refine .inl ⟨_, ?_, h.openHeadContent (by rw [mode]; rfl) script fine⟩
      simp only [Builder.inRow, script, row, Bool.false_eq_true, if_false]
      exact b.inTable_script script
  case inCell =>
      refine .inl ⟨_, ?_, h.openHeadContent (by rw [mode]; rfl) script fine⟩
      simp only [Builder.inCell, script, row, Bool.false_eq_true, if_false]
      exact body
  case afterBody =>
      refine .inr ⟨_, ?_, h.setMode .inBody rfl, Nat.zero_lt_one⟩
      simp only [Builder.afterBody, script, others, if_false]
      rfl
  case afterEnd =>
      refine .inr ⟨_, ?_, h.setMode .inBody rfl, Nat.zero_lt_one⟩
      simp only [Builder.afterEnd, script, others, if_false]
      rfl
  case inText => rcases flow with flow | flow | ⟨_, other⟩ <;> contradiction
  all_goals rcases flow with flow | flow | ⟨flow, _⟩ <;> cases flow

theorem Sober.feedTimes_script (h : b.Sober good .markup) (script : tag.name = "script".toList)
    (fine : good tag.name tag.attributes) {n : Nat} (enough : scriptSteps b.mode < n) :
    (Builder.feedTimes (.openTag tag) n b).InScript good := by
  induction n generalizing b with
  | zero => cases enough
  | succ n ih =>
      rw [Builder.feedTimes, h.isForeign, if_neg Bool.false_ne_true]
      rcases h.inMode_script script fine with ⟨b', step, inside⟩ | ⟨b', step, sober, less⟩
      · rw [step]
        exact inside
      · rw [step]
        exact ih sober (by omega)

theorem Sober.receive_script (h : b.Sober good .markup) (script : tag.name = "script".toList)
    (fine : good tag.name tag.attributes) : (b.receive (.openTag tag)).InScript good := by
  have ready : { b with dropsLineFeed := false }.Sober good .markup := { h with }
  refine ready.feedTimes_script script fine ?_
  have few : ∀ mode, scriptSteps mode ≤ 5 := by
    intro mode
    cases mode <;> decide
  have := few b.mode
  change scriptSteps b.mode < 32 + 4 * b.opened.length
  omega

namespace InScript

variable (h : b.InScript good)
include h

theorem unmarked : { b with dropsLineFeed := false }.InScript good := ⟨{ h.sober with }, h.mode⟩

theorem inMode (token : Token) : b.inMode token = b.inText token := by
  rw [Builder.inMode, h.mode]

theorem feed_text (s : Text) : b.feed (.text s) = b.appendText s := by
  have enough : 32 + 4 * b.opened.length = 31 + 4 * b.opened.length + 1 := by omega
  rw [Builder.feed, enough, Builder.feedTimes, h.sober.isForeign, if_neg Bool.false_ne_true,
    h.inMode]
  rfl

theorem receive_text (run : Text) : (b.receive (.text run)).InScript good := by
  have ready := h.unmarked
  have written (n : Nat) (s : Text) :
      (Builder.feedText n s { b with dropsLineFeed := false }).InScript good := by
    cases n with
    | zero => exact ready
    | succ n =>
        cases s with
        | nil => exact ready
        | cons c s =>
            have whole : { b with dropsLineFeed := false }.mode.splitsBlanks = false := by
              rw [ready.mode]
              rfl
            rw [Builder.feedText, whole, if_neg Bool.false_ne_true, ready.feed_text]
            exact ⟨ready.sober.appendText (c :: s), h.mode⟩
  exact written _ _

theorem receive_closeTag (name : Text) : (b.receive (.closeTag name)).Sober good .markup := by
  have enough : 32 + 4 * b.opened.length = 31 + 4 * b.opened.length + 1 := by omega
  have plain : { b with dropsLineFeed := false, lexing := .markup }.isForeign (.closeTag name) =
      false := h.sober.isForeign (.closeTag name)
  have rule : { b with dropsLineFeed := false, lexing := .markup }.inMode (.closeTag name) =
      .done ({ b with dropsLineFeed := false, lexing := .markup }.pop.setMode b.resumed) := by
    rw [Builder.inMode, h.mode]
    rfl
  rw [Builder.receive, Builder.feed, enough, Builder.feedTimes, plain, if_neg Bool.false_ne_true,
    rule]
  exact { h.sober.pop with mode := .inl h.sober.resumed, lexing := rfl }

theorem receive_ending : (b.receive .ending).Sober good .script := by
  have ending : Token.ending.Sober good := trivial
  exact h.unmarked.sober.feed ending

end InScript
end Scripts
end Builder

/-- Kinds of tags that are read soberly, of scripts and of other elements. Where there are scripts
no tag has an angle bracket inside. -/
structure Readable (good : Text → Attributes → Prop) (ok held : SpelledTag → Prop) : Prop where
  lasting : Lasting good
  plain : ∀ tag, ok tag → tag.name ∈ ordinaryNames ∧ good tag.name tag.read.attributes
  script : ∀ tag, held tag → tag.name = "script".toList ∧ good tag.name tag.read.attributes
  unbracketed : ∀ tag, held tag → ∀ other, ok other ∨ held other → other.Unbracketed

theorem SpelledTag.Unbracketed.unified {tag : SpelledTag} (plain : tag.Unbracketed) :
    tag.unified.Unbracketed := by
  intro a member value shown
  obtain ⟨b, listed, rfl⟩ := List.mem_map.1 member
  obtain ⟨own, spelled, rfl⟩ := Option.map_eq_some_iff.1 shown
  exact not_mem_unifyBreaks (plain b listed own spelled) (by decide)

section Documents

variable {good : Text → Attributes → Prop} {ok held : SpelledTag → Prop}

theorem Readable.endsWell (readable : Readable good ok held) {tag : SpelledTag}
    (script : Unified held tag) {s : Text} (strewn : Strewn (Unified ok) (Unified held) s) :
    Strewn.EndsWell (Unified ok) (Unified held) s := by
  obtain ⟨t, known, _⟩ := script
  refine strewn.endsWell fun tag any => ?_
  rcases any with ⟨u, own, rfl⟩ | ⟨u, own, rfl⟩
  · exact (readable.unbracketed t known u (.inl own)).unified
  · exact (readable.unbracketed t known u (.inr own)).unified

theorem Readable.sober_of_stems (readable : Readable good ok held) {token : Token}
    (stems : token.Stems (Unified ok)) : token.Sober good := by
  cases token with
  | openTag tag =>
      obtain ⟨_, ⟨t, known, rfl⟩, rfl⟩ := stems
      exact readable.plain t known
  | comment s => exact stems
  | doctype _ | ending => exact stems.elim
  | closeTag _ | text _ | null => trivial

namespace Builder

variable {b : Builder}

theorem Sober.not_inOtherSpace {l : Lexing} (h : b.Sober good l) : b.inOtherSpace = false := by
  rw [inOtherSpace, currentIs]
  cases opened : b.opened with
  | nil => rfl
  | cons o rest =>
      have space := (h.opened o (opened ▸ List.mem_cons_self)).space
      simp [space]

theorem sober_readTokens (readable : Readable good ok held) (n : Nat) (s : Text)
    (state : (b.Sober good .markup ∧ Strewn (Unified ok) (Unified held) s) ∨
      (b.InScript good ∧ Strewn.EndsWell (Unified ok) (Unified held) s ∧ ∃ tag, Unified held tag)) :
    (readTokens n s b).Sober good .markup ∨ (readTokens n s b).InScript good := by
  induction n generalizing s b with
  | zero => exact state.imp And.left And.left
  | succ n ih =>
      by_cases present : s = []
      · subst present
        exact state.imp And.left And.left
      obtain ⟨c, r, rfl⟩ := List.exists_cons_of_ne_nil present
      rcases state with ⟨sober, strewn⟩ | ⟨script, ends, tag, known⟩
      · rcases strewn.nextToken_cases present false with ⟨token, rest, read, stems, more⟩ |
          ⟨tag, run, rest, known, read, free, more⟩
        · simp only [readTokens, sober.lexing, sober.not_inOtherSpace, read]
          exact ih rest (.inl ⟨sober.receive (readable.sober_of_stems stems), more⟩)
        · simp only [readTokens, sober.lexing, sober.not_inOtherSpace, read]
          obtain ⟨t, own, rfl⟩ := id known
          obtain ⟨script, fine⟩ := readable.script t own
          have ends := (readable.endsWell known more).scriptRun free more
          exact ih _ (.inr ⟨sober.receive_script script fine, ends, _, known⟩)
      · rcases ends.nextToken_cases present false with ⟨run, rest, read, more⟩ |
          ⟨name, rest, read, more⟩
        · simp only [readTokens, script.sober.lexing, script.sober.not_inOtherSpace, read]
          exact ih rest (.inr ⟨script.receive_text run, more, tag, known⟩)
        · simp only [readTokens, script.sober.lexing, script.sober.not_inOtherSpace, read]
          exact ih rest (.inl ⟨script.receive_closeTag name, more⟩)

theorem sober_start (lasting : Lasting good) : (start .empty).Sober good .markup := by
  have empty : Dom.empty.Sober good := ⟨lasting, fun _ _ => nofun, fun _ _ => nofun⟩
  have document : Content.document.Sober good := trivial
  have added := (Dom.SoberFrom.refl empty).add document
  refine ⟨added.sober, ⟨.document, rfl, trivial⟩, List.forall_mem_nil _, fun _ _ => nofun, nofun,
    .inl rfl, rfl, rfl⟩

end Builder

theorem Document.sober_parse (readable : Readable good ok held) {s : Text}
    (strewn : Strewn ok held s) : (parse s).dom.Sober good := by
  have start := Builder.sober_start readable.lasting
  have ending : Token.ending.Sober good := trivial
  change (((Builder.start .empty).readTokens (lexedText s).length (lexedText s)).receive
    .ending).dom.Sober good
  rcases Builder.sober_readTokens readable (lexedText s).length (lexedText s)
    (.inl ⟨start, strewn.lexed⟩) with sober | script
  · exact (sober.receive ending).dom
  · exact script.receive_ending.dom

end Documents
end LivePage.Html
