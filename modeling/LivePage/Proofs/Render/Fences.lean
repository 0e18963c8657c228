import LivePage.Proofs.Html.Page
import LivePage.Proofs.Render.Templates

/-!
Rendered fences as pieces of a page. Reading one gives a block with the trees of its template: a
code block has one button, which points to the one element with an identifier; a chart has no
button, and its element has the identifier.
-/

namespace LivePage
open Html

def lines (ps : List Piece) : List Piece := ps.flatMap fun p => [p, .text "\n"]

def chartPiece (label content id : Text) (height : Nat) : Piece :=
  .block "div" [⟨"class", "echarts-block-wrapper"⟩] (.text "\n" :: lines
    [.block "div" [⟨"class", "code-header"⟩] [.phrase "span" [⟨"class", "code-lang"⟩] label],
      .block "div" [⟨"id", id⟩, ⟨"class", "echarts-chart"⟩, ⟨"data-option", content⟩,
        ⟨"style", chartStyle height⟩] []])

def languagePieces (language : Text) : List Piece :=
  if language.isEmpty then [] else [.phrase "span" [⟨"class", "code-lang"⟩] language]

def buttonAttributes (id : Text) : Attributes :=
  [⟨"class", "copy-btn"⟩, ⟨"type", "button"⟩, ⟨"data-action", "copy-code"⟩, ⟨"data-target", id⟩]

def codeAttributes (language id : Text) : Attributes := [⟨"id", id⟩, ⟨"class", codeClass language⟩]

def codePiece (copyLabel language content id : Text) : Piece :=
  .block "div" [⟨"class", "code-block-wrapper"⟩] (.text "\n" :: lines
    [.block "div" [⟨"class", "code-header"⟩]
        (languagePieces language ++ [.phrase "button" (buttonAttributes id) copyLabel]),
      .block "pre" [] [.phrase "code" (codeAttributes language id) content]])

def fencePiece (options : Options) (token : FenceToken) (id : Text) : Piece :=
  if isChartFence options token then
    chartPiece options.chartLabel token.content id options.chartHeight
  else codePiece options.copyLabel (fenceLanguage token) token.content id

theorem fencePiece_eq_block (options : Options) (token : FenceToken) (id : Text) :
    ∃ attributes inner, fencePiece options token id = .block "div" attributes inner := by
  unfold fencePiece
  split
  · exact ⟨_, _, rfl⟩
  · exact ⟨_, _, rfl⟩

theorem lines_cons (p : Piece) (ps : List Piece) :
    lines (p :: ps) = p :: .text "\n" :: lines ps := rfl

theorem lines_nil : lines [] = [] := rfl

theorem markupAllBy_languagePieces (spell : Attribute → Text) (language : Text) :
    Piece.markupAllBy spell (languagePieces language) = markupBy spell (languageTokens language) := by
  unfold languagePieces languageTokens
  split
  · rfl
  · simp only [Piece.markupAllBy, Piece.markupBy, markupBy_append, markupBy_run, markupBy_cons,
      markupBy_nil, opening, tokenMarkupBy, List.append_assoc, List.append_nil]

/-- Pieces and tokens of a fence are written alike, however attributes are spelled. -/
theorem markupBy_fencePiece (spell : Attribute → Text) (options : Options) (token : FenceToken)
    (id : Text) :
    (fencePiece options token id).markupBy spell ++ "\n".toList =
      markupBy spell (fenceTokens options token id) := by
  have newline : escapeText "\n" = "\n".toList := rfl
  have token' : tokenMarkup (.text "\n") = "\n".toList := rfl
  unfold fencePiece fenceTokens
  cases isChartFence options token with
  | true =>
      simp only [if_true, chartPiece, chartTokens, lines_cons, lines_nil, Piece.markupAllBy,
        Piece.markupBy, markupBy_append, markupBy_run, markupBy_cons, markupBy_nil, opening,
        tokenMarkupBy, newline, token', List.append_assoc, List.nil_append, List.append_nil]
  | false =>
      simp only [Bool.false_eq_true, if_false, codePiece, codeTokens, lines_cons, lines_nil,
        Piece.markupAllBy, Piece.markupBy, Piece.markupAllBy_append, markupAllBy_languagePieces,
        markupBy_append, markupBy_run, markupBy_cons, markupBy_nil, opening, tokenMarkupBy,
        buttonAttributes, codeAttributes, newline, token', List.append_assoc, List.append_nil]

theorem markup_fencePiece (options : Options) (token : FenceToken) (id : Text) :
    (fencePiece options token id).markup ++ "\n".toList = markup (fenceTokens options token id) := by
  rw [← Piece.markupBy_attributeMarkup, markupBy_fencePiece, markupBy_attributeMarkup]

theorem markupAll_lines (ps : List Piece) :
    Piece.markupAll (lines ps) = ps.flatMap fun p => p.markup ++ "\n".toList := by
  induction ps with
  | nil => rfl
  | cons p ps ih =>
      have newline : (Piece.text "\n").markup = "\n".toList := rfl
      rw [lines_cons, Piece.markupAll, Piece.markupAll, newline, ih, List.flatMap_cons,
        List.append_assoc]

theorem named_of_areMarkupNames {attributes : Attributes}
    (names : areMarkupNames (attributes.map (·.name)) = true) : Piece.Named attributes := by
  rw [areMarkupNames, Bool.and_eq_true, List.all_eq_true, decide_eq_true_eq] at names
  exact ⟨fun a member => names.1 a.name (List.mem_map_of_mem member), names.2⟩

theorem fits_div {attributes : Attributes} (names : areMarkupNames (attributes.map (·.name)) = true)
    {inner : List Piece} (fits : Piece.FitsAll inner) : (Piece.block "div" attributes inner).Fits :=
  ⟨by decide, named_of_areMarkupNames names, fits, fun same => absurd same (by decide)⟩

theorem fits_phrase {name : Text} (known : name ∈ phraseElements) {attributes : Attributes}
    (names : areMarkupNames (attributes.map (·.name)) = true) (s : Text) :
    (Piece.phrase name attributes s).Fits :=
  ⟨known, named_of_areMarkupNames names⟩

theorem fitsAll_lines {ps : List Piece} (fits : ∀ p ∈ ps, p.Fits ∧ p.isText = false) :
    Piece.FitsAll (lines ps) ∧ (lines ps).head?.any Piece.isText = false := by
  induction ps with
  | nil => exact ⟨trivial, rfl⟩
  | cons p ps ih =>
      obtain ⟨first, tag⟩ := fits p List.mem_cons_self
      obtain ⟨others, apart⟩ := ih fun q member => fits q (List.mem_cons_of_mem p member)
      refine ⟨⟨first, ⟨trivial, others, fun _ => apart⟩, ?_⟩, tag⟩
      intro text
      rw [tag] at text
      cases text

theorem fits_wrapper {attributes : Attributes}
    (names : areMarkupNames (attributes.map (·.name)) = true) {ps : List Piece}
    (fits : ∀ p ∈ ps, p.Fits ∧ p.isText = false) :
    (Piece.block "div" attributes (.text "\n" :: lines ps)).Fits := by
  obtain ⟨others, apart⟩ := fitsAll_lines fits
  exact fits_div names ⟨trivial, others, fun _ => apart⟩

theorem fits_chartPiece (label content id : Text) (height : Nat) :
    (chartPiece label content id height).Fits := by
  have named : (Piece.phrase "span" [⟨"class", "code-lang"⟩] label).Fits :=
    fits_phrase (by decide) rfl label
  refine fits_wrapper rfl
    (List.forall_mem_cons.2 ⟨⟨?_, rfl⟩, List.forall_mem_singleton.2 ⟨?_, rfl⟩⟩)
  · exact fits_div rfl ⟨named, trivial, fun _ => rfl⟩
  · exact fits_div rfl trivial

theorem fits_codePiece (copyLabel language content id : Text) :
    (codePiece copyLabel language content id).Fits := by
  have named : (Piece.phrase "span" [⟨"class", "code-lang"⟩] language).Fits :=
    fits_phrase (by decide) rfl language
  have button : (Piece.phrase "button" (buttonAttributes id) copyLabel).Fits :=
    fits_phrase (by decide) rfl copyLabel
  have code : (Piece.phrase "code" (codeAttributes language id) content).Fits :=
    fits_phrase (by decide) rfl content
  refine fits_wrapper rfl
    (List.forall_mem_cons.2 ⟨⟨?_, rfl⟩, List.forall_mem_singleton.2 ⟨?_, rfl⟩⟩)
  · refine fits_div rfl ?_
    unfold languagePieces
    split
    · exact ⟨button, trivial, fun _ => rfl⟩
    · exact ⟨named, ⟨button, trivial, fun _ => rfl⟩, fun _ => rfl⟩
  · exact ⟨by decide, named_of_areMarkupNames rfl, ⟨code, trivial, fun _ => rfl⟩, fun _ => rfl⟩

theorem fits_fencePiece (options : Options) (token : FenceToken) (id : Text) :
    (fencePiece options token id).Fits ∧ (fencePiece options token id).isText = false := by
  unfold fencePiece
  split
  · exact ⟨fits_chartPiece .., rfl⟩
  · exact ⟨fits_codePiece .., rfl⟩

theorem isEmpty_unifyBreaks (s : Text) : (unifyBreaks s).isEmpty = s.isEmpty := by
  fun_cases unifyBreaks s <;> rfl

theorem unifyBreaks_of_plain {s : Text} (plain : s.Plain) : unifyBreaks s = s :=
  unifyBreaks_of_absent fun member => (plain _ member).2 rfl

theorem unifyBreaks_codeClass (language : Text) :
    unifyBreaks (codeClass language) = codeClass (unifyBreaks language) := by
  have lead : '\r' ∉ "hljs ".toList := by decide
  unfold codeClass
  rw [isEmpty_unifyBreaks]
  split
  · rfl
  · rw [unifyBreaks_append lead]

theorem unified_chartPiece (label content id : Text) (height : Nat) :
    (chartPiece label content id height).unified =
      chartPiece (unifyBreaks label) (unifyBreaks content) (unifyBreaks id) height := by
  have style := unifyBreaks_of_plain (plain_chartStyle height)
  simp only [chartPiece, lines_cons, lines_nil, Piece.unified, Piece.unifiedAll, List.map_cons,
    List.map_nil, unifyValue, style]
  rfl

theorem unified_codePiece (copyLabel language content id : Text) :
    (codePiece copyLabel language content id).unified = codePiece (unifyBreaks copyLabel)
      (unifyBreaks language) (unifyBreaks content) (unifyBreaks id) := by
  have named : Piece.unifiedAll (languagePieces language) =
      languagePieces (unifyBreaks language) := by
    unfold languagePieces
    rw [isEmpty_unifyBreaks]
    split <;> rfl
  simp only [codePiece, lines_cons, lines_nil, Piece.unified, Piece.unifiedAll,
    Piece.unifiedAll_append, named, buttonAttributes, codeAttributes, List.map_cons, List.map_nil,
    unifyValue, unifyBreaks_codeClass]
  rfl

/-- Tests that fail for everything in the templates but buttons, code and placeholders. -/
structure PassesOver (p : Tree → Bool) : Prop where
  text : ∀ s, p (.text s) = false
  chart : ∀ inner, p (.element "div" [⟨"class", "echarts-block-wrapper"⟩] inner) = false
  code : ∀ inner, p (.element "div" [⟨"class", "code-block-wrapper"⟩] inner) = false
  header : ∀ inner, p (.element "div" [⟨"class", "code-header"⟩] inner) = false
  label : ∀ inner, p (.element "span" [⟨"class", "code-lang"⟩] inner) = false
  lines : ∀ inner, p (.element "pre" [] inner) = false

theorem passesOver_isNamed {name : Text}
    (known : name ∈ ["button".toList, "code".toList]) : PassesOver (Tree.isNamed name) := by
  have other : ∀ container ∈ ["div".toList, "span".toList, "pre".toList], container ≠ name := by
    intro container member
    rintro rfl
    revert known
    revert container
    decide
  have fails {container : Text} (member : container ∈ ["div".toList, "span".toList, "pre".toList])
      (attributes : Attributes) (inner : List Tree) :
      Tree.isNamed name (.element container attributes inner) = false :=
    decide_eq_false (other container member)
  exact ⟨fun _ => rfl, fails (by decide) _, fails (by decide) _, fails (by decide) _,
    fails (by decide) _, fails (by decide) _⟩

theorem passesOver_id : PassesOver (Tree.hasAttribute "id") :=
  ⟨fun _ => rfl, fun _ => rfl, fun _ => rfl, fun _ => rfl, fun _ => rfl, fun _ => rfl⟩

theorem passesOver_class : PassesOver (Tree.hasClass "echarts-chart") :=
  ⟨fun _ => rfl, fun _ => rfl, fun _ => rfl, fun _ => rfl, fun _ => rfl, fun _ => rfl⟩

/-- The button that copies the element with an identifier. -/
def buttonTree (id label : Text) : Tree :=
  .element "button" (buttonAttributes id) (Piece.textTrees label)

def codeTree (language content id : Text) : Tree :=
  .element "code" ((codeAttributes language id).map readBack) (Piece.textTrees content)

def chartTree (content id : Text) (height : Nat) : Tree :=
  .element "div" (List.map readBack [⟨"id", id⟩, ⟨"class", "echarts-chart"⟩,
    ⟨"data-option", content⟩, ⟨"style", chartStyle height⟩]) []

/-- What a fence puts on a page. -/
def fenceTrees (options : Options) (token : FenceToken) (id : Text) : List Tree :=
  (fencePiece options token id).unified.trees

/-- The elements of a fence that say which block it is. -/
def fenceParts (options : Options) (token : FenceToken) (id : Text) : List Tree :=
  if isChartFence options token then
    [chartTree (unifyBreaks token.content) id options.chartHeight]
  else [buttonTree id (unifyBreaks options.copyLabel),
    codeTree (unifyBreaks (fenceLanguage token)) (unifyBreaks token.content) id]

section Parts

variable {p : Tree → Bool} (passes : PassesOver p)
include passes

theorem foundAll_languagePieces (i : Nat) (language : Text) :
    Tree.foundAll p i (Piece.treesAll (languagePieces language)) = [] := by
  have plain : [⟨"class", "code-lang"⟩].map readBack = [⟨"class", "code-lang"⟩] := rfl
  unfold languagePieces
  split
  · rfl
  · simp only [Piece.treesAll, Piece.trees, plain, List.append_nil, Tree.foundAll_element,
      passes.label, Bool.false_eq_true, if_false, Piece.foundAll_textTrees passes.text,
      Tree.foundAll_nil]

theorem foundAll_chartPiece (label content id : Text) (height i : Nat) :
    (Tree.foundAll p i (chartPiece label content id height).trees).map (·.2) =
      [chartTree content id height].filter p := by
  have marks (name : Text) : [⟨"class", name⟩].map readBack = [⟨"class", replaceNull name⟩] := rfl
  have names : replaceNull "echarts-block-wrapper" = "echarts-block-wrapper" ∧
      replaceNull "code-header" = "code-header" ∧ replaceNull "code-lang" = "code-lang" :=
    ⟨rfl, rfl, rfl⟩
  simp only [chartPiece, lines_cons, lines_nil, Piece.trees, Piece.treesAll, Tree.foundAll_append,
    Tree.foundAll_element, Tree.foundAll_nil, Piece.foundAll_textTrees passes.text, List.append_nil,
    List.nil_append, marks, names, passes.chart, passes.header, passes.label, Bool.false_eq_true, if_false,
    List.filter_cons, List.filter_nil, chartTree]
  split <;> rfl

theorem foundAll_codePiece (copyLabel language content id : Text) (i : Nat) :
    (Tree.foundAll p i (codePiece copyLabel language content id).trees).map (·.2) =
      List.filter p [.element "button" ((buttonAttributes id).map readBack)
        (Piece.textTrees copyLabel), codeTree language content id] := by
  have marks (name : Text) : [⟨"class", name⟩].map readBack = [⟨"class", replaceNull name⟩] := rfl
  have names : replaceNull "code-block-wrapper" = "code-block-wrapper" ∧
      replaceNull "code-header" = "code-header" := ⟨rfl, rfl⟩
  simp only [codePiece, lines_cons, lines_nil, Piece.trees, Piece.treesAll, Piece.treesAll_append,
    Tree.foundAll_append, Tree.foundAll_element, Tree.foundAll_nil,
    Piece.foundAll_textTrees passes.text, foundAll_languagePieces passes, List.append_nil,
    List.nil_append, marks, names, List.map_nil, passes.code, passes.header, passes.lines,
    Bool.false_eq_true, if_false, List.filter_cons, List.filter_nil, codeTree]
  split <;> split <;> rfl

end Parts

section Fence

variable (options : Options) (token : FenceToken) {id : Text} (plain : id.Plain)
include plain

theorem foundAll_fenceTrees {p : Tree → Bool} (passes : PassesOver p) (i : Nat) :
    (Tree.foundAll p i (fenceTrees options token id)).map (·.2) =
      (fenceParts options token id).filter p := by
  unfold fenceTrees fencePiece fenceParts
  cases isChartFence options token with
  | true =>
      rw [if_pos rfl, unified_chartPiece, unifyBreaks_of_plain plain]
      exact foundAll_chartPiece passes ..
  | false =>
      have kept : (buttonAttributes id).map readBack = buttonAttributes id := by
        refine map_readBack_of_plain ?_
        simp only [buttonAttributes, List.forall_mem_cons, List.not_mem_nil, false_imp_iff,
          implies_true, and_true]
        exact ⟨by decide, by decide, by decide, plain⟩
      rw [if_neg Bool.false_ne_true, unified_codePiece, unifyBreaks_of_plain plain,
        foundAll_codePiece passes, kept]
      rfl

theorem buttons_fenceTrees (i : Nat) :
    (isChartFence options token = true ∧
      Tree.foundAll (Tree.isNamed "button") i (fenceTrees options token id) = []) ∨
    (isChartFence options token = false ∧ ∃ b label,
      Tree.foundAll (Tree.isNamed "button") i (fenceTrees options token id) =
        [(b, buttonTree id label)]) := by
  have found := foundAll_fenceTrees options token plain (passesOver_isNamed (by decide)) i
    (p := Tree.isNamed "button")
  unfold fenceParts at found
  cases chart : isChartFence options token with
  | true =>
      rw [chart, if_pos rfl] at found
      exact .inl ⟨rfl, List.map_eq_nil_iff.1 found⟩
  | false =>
      rw [chart, if_neg Bool.false_ne_true] at found
      obtain ⟨⟨b, t⟩, one, rfl⟩ := List.map_eq_singleton_iff.1 found
      exact .inr ⟨rfl, b, _, one⟩

/-- The element with the identifier is the placeholder of a chart, or holds the code. -/
theorem ids_fenceTrees (i : Nat) : ∃ c t,
    Tree.foundAll (Tree.hasAttribute "id") i (fenceTrees options token id) = [(c, t)] ∧
      t.attribute? "id" = some id ∧
      (isChartFence options token = false →
        t.textContent = shownText (unifyBreaks token.content)) := by
  have kept : replaceNull id = id := replaceNull_of_absent fun null => (plain _ null).1 rfl
  have found := foundAll_fenceTrees options token plain passesOver_id i
  unfold fenceParts at found
  cases chart : isChartFence options token with
  | true =>
      rw [chart, if_pos rfl] at found
      obtain ⟨⟨c, t⟩, one, rfl⟩ := List.map_eq_singleton_iff.1 found
      exact ⟨c, _, one, congrArg some kept, nofun⟩
  | false =>
      rw [chart, if_neg Bool.false_ne_true] at found
      obtain ⟨⟨c, t⟩, one, rfl⟩ := List.map_eq_singleton_iff.1 found
      exact ⟨c, _, one, congrArg some kept, fun _ => Piece.textContentAll_textTrees _⟩

end Fence

/-- The markup of fences, one behind the other, each with its number. -/
def fencesPieces (options : Options) (fences : List (FenceToken × Nat)) : List Piece :=
  lines (fences.map fun f => fencePiece options f.1 (blockId none f.2))

def fencesTrees (options : Options) (fences : List (FenceToken × Nat)) : List Tree :=
  Piece.treesAll (Piece.unifiedAll (fencesPieces options fences))

theorem fencesTrees_cons (options : Options) (f : FenceToken × Nat)
    (fences : List (FenceToken × Nat)) : fencesTrees options (f :: fences) =
      fenceTrees options f.1 (blockId none f.2) ++
        ([.text "\n"] ++ fencesTrees options fences) := rfl

theorem fits_fencesPieces (options : Options) (fences : List (FenceToken × Nat)) :
    Piece.FitsAll (fencesPieces options fences) := by
  refine (fitsAll_lines ?_).1
  intro p member
  obtain ⟨f, _, rfl⟩ := List.mem_map.1 member
  exact fits_fencePiece ..

theorem foundAll_fencesTrees_cons {p : Tree → Bool} (text : ∀ s, p (.text s) = false)
    (options : Options) (i : Nat) (f : FenceToken × Nat) (fences : List (FenceToken × Nat)) :
    ∃ j, Tree.foundAll p i (fencesTrees options (f :: fences)) =
      Tree.foundAll p i (fenceTrees options f.1 (blockId none f.2)) ++
        Tree.foundAll p j (fencesTrees options fences) := by
  rw [fencesTrees_cons, Tree.foundAll_append, Tree.foundAll_append, Tree.foundAll_text (text _),
    List.nil_append]
  exact ⟨_, rfl⟩

/-- The buttons of a page are those of its code blocks, in their order. -/
theorem buttons_fencesTrees (options : Options) (fences : List (FenceToken × Nat)) (i : Nat) :
    List.Forall₂ (fun q f => ∃ label, q.2 = buttonTree (blockId none f.2) label)
      (Tree.foundAll (Tree.isNamed "button") i (fencesTrees options fences))
      (fences.filter fun f => !isChartFence options f.1) := by
  induction fences generalizing i with
  | nil => exact .nil
  | cons f fences ih =>
      obtain ⟨j, found⟩ := foundAll_fencesTrees_cons (p := Tree.isNamed "button") (fun _ => rfl)
        options i f fences
      have plain : (blockId none f.2).Plain := plain_blockId (by simp) f.2
      rw [found]
      rcases buttons_fenceTrees options f.1 plain i with
        ⟨chart, none⟩ | ⟨code, b, label, one⟩
      · rw [none, List.filter_cons_of_neg (by simp [chart])]
        exact ih j
      · rw [one, List.filter_cons_of_pos (by simp [code])]
        exact .cons ⟨label, rfl⟩ (ih j)

/-- The elements with identifiers are those of its blocks, in their order. -/
theorem ids_fencesTrees (options : Options) {fences : List (FenceToken × Nat)}
    (plain : ∀ f ∈ fences, f.1.content.Plain) (i : Nat) :
    List.Forall₂ (fun q f => q.2.attribute? "id" = some (blockId none f.2) ∧
        (isChartFence options f.1 = false → q.2.textContent = f.1.content))
      (Tree.foundAll (Tree.hasAttribute "id") i (fencesTrees options fences)) fences := by
  induction fences generalizing i with
  | nil => exact .nil
  | cons f fences ih =>
      obtain ⟨j, found⟩ := foundAll_fencesTrees_cons (p := Tree.hasAttribute "id") (fun _ => rfl)
        options i f fences
      have id : (blockId none f.2).Plain := plain_blockId (by simp) f.2
      have content := plain f List.mem_cons_self
      obtain ⟨c, t, one, shown, holds⟩ := ids_fenceTrees options f.1 id i
      rw [found, one]
      refine .cons ⟨shown, fun code => ?_⟩
        (ih (fun g member => plain g (List.mem_cons_of_mem f member)) j)
      rw [holds code, unifyBreaks_of_plain content]
      exact shown_of_not_mem fun null => (content _ null).1 rfl

variable {m : Type → Type} [Monad m] [LawfulMonad m]

def fenceBlock (options : Options) (f : FenceToken × Nat) : Block :=
  ⟨blockId none f.2,
    if isChartFence options f.1 then .chart else .code (fenceLanguage f.1),
    markup (fenceTokens options f.1 (blockId none f.2))⟩

theorem mapM_renderFence (options : Options) (fences : List (FenceToken × Nat)) :
    fences.mapM (fun f => renderFence (m := m) ⟨.html, options, none⟩ f.1 (blockId none f.2)) =
      pure (fences.map (fenceBlock options)) := by
  have each : (fun f : FenceToken × Nat => renderFence (m := m) ⟨.html, options, none⟩ f.1
      (blockId none f.2)) = fun f => pure (fenceBlock options f) := by
    funext f
    exact renderFence_markup options f.1 (unescaped_blockId (by simp) f.2)
  rw [each, List.mapM_pure]

theorem kind_fenceBlock (options : Options) (f : FenceToken × Nat) :
    (fenceBlock options f).kind = .chart ↔ isChartFence options f.1 = true := by
  rw [fenceBlock]
  cases isChartFence options f.1 <;> simp

theorem codeBlocks_fenceBlocks (options : Options) (fences : List (FenceToken × Nat)) :
    (fences.zip (fences.map (fenceBlock options))).filter
        (fun written => written.2.kind ≠ .chart) =
      (fences.filter fun f => !isChartFence options f.1).map fun f => (f, fenceBlock options f) := by
  have same : ∀ f ∈ fences, decide ((fenceBlock options f).kind ≠ .chart) =
      !isChartFence options f.1 := by
    intro f _
    have kind := kind_fenceBlock options f
    cases chart : isChartFence options f.1 with
    | true => simp [kind.2 chart]
    | false =>
        have code : (fenceBlock options f).kind ≠ .chart := fun same => by
          rw [kind.1 same] at chart
          cases chart
        simp [code]
  rw [← List.map_prod_left_eq_zip, List.filter_map]
  exact congrArg _ (List.filter_congr same)

theorem html_fenceBlocks (options : Options) (fences : List (FenceToken × Nat)) :
    (fences.map (fenceBlock options)).flatMap (·.html) =
      Piece.markupAll (fencesPieces options fences) := by
  rw [fencesPieces, markupAll_lines, List.flatMap_map, List.flatMap_map]
  simp only [markup_fencePiece]
  rfl

theorem parse_fences (options : Options) (fences : List (FenceToken × Nat)) :
    (Document.parse (Piece.markupAll (fencesPieces options fences))).Holds
      (pageTree (fencesTrees options fences)) := by
  refine Document.parse_markup (fits_fencesPieces options fences) ?_
  intro p first
  cases fences with
  | nil => cases first
  | cons f fences =>
      obtain ⟨attributes, inner, block⟩ := fencePiece_eq_block options f.1 (blockId none f.2)
      exact ⟨attributes, inner, (Option.some.inj first).symm.trans block⟩

end LivePage
