import LivePage.Proofs.Markdown.Inlines
import LivePage.Proofs.Render.Fences
import LivePage.Proofs.Text.Parts

/-!
Fences whose markup has the class of placeholders: charts, and code whose language is the class. The
element that has the class carries the identifier of the block.
-/

namespace LivePage
open Html Builder

/-- A chart, or code in a language that is the class of placeholders. -/
def Block.isMarked (b : Block) : Bool := b.kind = .chart ∨ b.kind = .code chartClass

/-- The identifiers of the blocks that have the class, as attributes hold them. -/
def marks (blocks : List Block) : List (Option Text) :=
  (blocks.filter Block.isMarked).map fun b => some b.id

theorem marks_append (blocks others : List Block) :
    marks (blocks ++ others) = marks blocks ++ marks others := by
  rw [marks, List.filter_append, List.map_append]
  rfl

theorem replaceNull_eq_iff {s t : Text} (null : '\x00' ∉ t) (replaced : replacement ∉ t) :
    replaceNull s = t ↔ s = t := by
  constructor
  · intro same
    have absent : '\x00' ∉ s := fun member =>
      replaced (same ▸ List.mem_map.2 ⟨'\x00', member, rfl⟩)
    rwa [replaceNull_of_absent absent] at same
  · rintro rfl
    exact replaceNull_of_absent null

theorem isAsciiBlank_of_language {token : FenceToken} {d : Char}
    (member : d ∈ fenceLanguage token) : Text.isAsciiBlank d = false := by
  have stays : Text.isBlank d = false := by
    have kept := List.mem_takeWhile_imp member
    rwa [Bool.not_eq_true'] at kept
  refine Bool.eq_false_iff.2 fun blank => ?_
  have marks : ∀ d ∈ [' ', '\t', '\n', '\x0c', '\r'], Text.isBlank d = true := by decide
  have listed : d ∈ [' ', '\t', '\n', '\x0c', '\r'] := by
    simpa [Text.isAsciiBlank, or_assoc] using blank
  rw [marks d listed] at stays
  cases stays

theorem isAsciiBlank_of_replaceNull {s : Text} (free : ∀ d ∈ s, Text.isAsciiBlank d = false) :
    ∀ d ∈ replaceNull s, Text.isAsciiBlank d = false := by
  intro d member
  obtain ⟨e, listed, rfl⟩ := List.mem_map.1 member
  split
  · rfl
  · exact free e listed

/-- The language is the only class of code that may be that of placeholders. -/
theorem hasClass_code {language : Text} (free : ∀ d ∈ language, Text.isAsciiBlank d = false)
    (id : Text) : (escapedTag "code" (codeAttributes language id)).read.attributes.hasClass
      chartClass = decide (language = chartClass) := by
  have unified : unifyBreaks language = language := by
    refine unifyBreaks_of_absent fun member => ?_
    have blank : Text.isAsciiBlank '\r' = true := rfl
    rw [free _ member] at blank
    cases blank
  have shown : (escapedTag "code" (codeAttributes language id)).read.attributes.get? "class" =
      some (replaceNull (codeClass language)) := by
    rw [read_escapedTag]
    have name : ("id".toList = "class".toList) ↔ False := by decide
    simp only [codeAttributes, List.map_cons, List.map_nil, unifyBreaks_codeClass, unified,
      Attributes.get?, List.find?, name, decide_false, decide_true, Option.map_some]
  have some : chartClass.isEmpty = false := rfl
  rw [Attributes.hasClass, Element.hasClass]
  simp only [shown, some, Bool.not_false, Bool.and_true]
  cases language with
  | nil => rfl
  | cons d s =>
      have words : Text.split Text.isAsciiBlank (replaceNull (codeClass (d :: s))) =
          "hljs".toList :: [replaceNull (d :: s)] := by
        have split : Text.split Text.isAsciiBlank (replaceNull (codeClass (d :: s))) =
            "hljs".toList :: Text.split Text.isAsciiBlank (replaceNull (d :: s)) := rfl
        rw [split, Text.split_of_free (isAsciiBlank_of_replaceNull free)]
      have other : (chartClass == "hljs".toList) = false := rfl
      have same := replaceNull_eq_iff (s := d :: s) (t := chartClass) (by decide) (by decide)
      rw [words, List.contains_cons, List.contains_cons, List.contains_nil, other, Bool.false_or,
        Bool.or_false]
      refine Bool.eq_iff_iff.2 ?_
      rw [beq_iff_eq, decide_eq_true_iff, eq_comm, same]

theorem markup_block (name : Text) (attributes : Attributes) (inner : List Piece) :
    (Piece.block name attributes inner).markup =
      (escapedTag name attributes).around (Piece.markupAll inner) := by
  rw [SpelledTag.around, markup_escapedTag]
  rfl

theorem markup_phrase (name : Text) (attributes : Attributes) (s : Text) :
    (Piece.phrase name attributes s).markup =
      (escapedTag name attributes).around (escapeText s) := by
  rw [SpelledTag.around, markup_escapedTag]
  rfl

theorem flows_div (attributes : Attributes)
    (names : areMarkupNames (attributes.map (·.name)) = true) {inner : List Piece}
    {es : List Element} (flows : Flows chartClass (Piece.markupAll inner) es) :
    Flows chartClass (Piece.block "div" attributes inner).markup
      (ofTag chartClass (escapedTag "div" attributes).read ++ es) := by
  have known : "div".toList ∈ freeBlocks ∧ "div".toList ∈ flowElements := by decide
  rw [markup_block]
  exact .of_block (valid_escapedTag (by decide) names) known.1 known.2 flows

theorem flows_feed : Flows chartClass (Piece.text "\n").markup [] := .of_text (by decide)

theorem flows_nil : Flows chartClass (Piece.markupAll []) [] := .nil

theorem flows_cons {p : Piece} {ps : List Piece} {es us : List Element}
    (first : Flows chartClass p.markup es) (others : Flows chartClass (Piece.markupAll ps) us) :
    Flows chartClass (Piece.markupAll (p :: ps)) (es ++ us) :=
  first.append others

theorem flows_lines_pair {p q : Piece} {es us : List Element} (first : Flows chartClass p.markup es)
    (second : Flows chartClass q.markup us) :
    Flows chartClass (Piece.markupAll (.text "\n" :: lines [p, q])) (es ++ us) := by
  have whole := flows_cons flows_feed (flows_cons first (flows_cons flows_feed
    (flows_cons second (flows_cons flows_feed flows_nil))))
  simp only [List.nil_append, List.append_nil] at whole
  exact whole

theorem flows_span (label : Text) :
    Flows chartClass (Piece.phrase "span" [⟨"class", "code-lang"⟩] label).markup [] := by
  have known : "span".toList ∈ formattingElements ++ plainElements := by decide
  have text : Runs chartClass (escapeText label) := .of_text (not_mem_escapeText_bracket label)
  rw [markup_phrase]
  exact .of_runs (.of_element (valid_escapedTag (by decide) rfl) known rfl text)

theorem flows_button (id label : Text) :
    Flows chartClass (Piece.phrase "button" (buttonAttributes id) label).markup [] := by
  have text : Runs chartClass (escapeText label) := .of_text (not_mem_escapeText_bracket label)
  have plain : ofTag chartClass (escapedTag "button" (buttonAttributes id)).read = [] := by
    refine ofTag_of_plain ?_
    rw [read_escapedTag]
    rfl
  have valid : (escapedTag "button" (buttonAttributes id)).Valid := valid_escapedTag (by decide) rfl
  have whole := Flows.of_button valid rfl text
  rwa [plain, ← markup_phrase] at whole

theorem flows_wrapper (mark : Text) {inner : List Piece} {es : List Element}
    (other : mark ∈ ["echarts-block-wrapper".toList, "code-block-wrapper", "code-header"])
    (flows : Flows chartClass (Piece.markupAll inner) es) :
    Flows chartClass (Piece.block "div" [⟨"class", mark⟩] inner).markup es := by
  have whole := flows_div [⟨"class", mark⟩] rfl flows
  have plain : ofTag chartClass (escapedTag "div" [⟨"class", mark⟩]).read = [] := by
    refine ofTag_of_plain ?_
    simp only [List.mem_cons, List.not_mem_nil, or_false] at other
    rcases other with rfl | rfl | rfl <;> rfl
  rwa [plain, List.nil_append] at whole

/-- The element of a chart that carries its declaration. -/
def chartTag (content id : Text) (height : Nat) : SpelledTag :=
  escapedTag "div" [⟨"id", id⟩, ⟨"class", chartClass⟩, ⟨"data-option", content⟩,
    ⟨"style", chartStyle height⟩]

def codeTag (language id : Text) : SpelledTag := escapedTag "code" (codeAttributes language id)

theorem flows_chartPiece (label content id : Text) (height : Nat) :
    Flows chartClass (chartPiece label content id height).markup
      (ofTag chartClass (chartTag content id height).read) := by
  have header := flows_wrapper "code-header" (by decide) (flows_cons (flows_span label) flows_nil)
  have chart := flows_div [⟨"id", id⟩, ⟨"class", chartClass⟩, ⟨"data-option", content⟩,
    ⟨"style", chartStyle height⟩] rfl flows_nil
  have whole := flows_wrapper "echarts-block-wrapper" (by decide)
    (flows_lines_pair header chart)
  rw [List.append_nil] at whole
  exact whole

theorem flows_languagePieces (language : Text) :
    Flows chartClass (Piece.markupAll (languagePieces language)) [] := by
  unfold languagePieces
  split
  · exact .nil
  · exact flows_cons (flows_span language) flows_nil

theorem flows_codePiece (copyLabel language content id : Text) :
    Flows chartClass (codePiece copyLabel language content id).markup
      (ofTag chartClass (codeTag language id).read) := by
  have button := (flows_languagePieces language).append
    (flows_cons (flows_button id copyLabel) flows_nil)
  rw [← Piece.markupAll_append] at button
  have header := flows_wrapper "code-header" (by decide) button
  have outer : (escapedTag "pre" []).Valid := valid_escapedTag (by decide) rfl
  have inner : (codeTag language id).Valid := valid_escapedTag (by decide) rfl
  have code := Flows.of_code (c := chartClass) outer (by decide) inner
    (not_mem_escapeText_bracket content)
  have lines : Flows chartClass
      (Piece.block "pre" [] [.phrase "code" (codeAttributes language id) content]).markup
        (ofTag chartClass (codeTag language id).read) := by
    rw [markup_block, Piece.markupAll, Piece.markupAll, List.append_nil, markup_phrase]
    exact code
  exact flows_wrapper "code-block-wrapper" (by decide) (flows_lines_pair header lines)

theorem flows_fence (options : Options) (token : FenceToken) {id : Text} (plain : id.Plain)
    (html : Text) : ∃ es, Flows chartClass (markup (fenceTokens options token id)) es ∧
      es.map (·.attributes.get? "id") = marks [⟨id, if isChartFence options token then .chart
        else .code (fenceLanguage token), html⟩] := by
  have kept : replaceNull (unifyBreaks id) = id := by
    rw [unifyBreaks_of_plain plain]
    exact replaceNull_of_absent fun null => (plain _ null).1 rfl
  have feed : Flows chartClass "\n".toList [] := .of_text (by decide)
  rw [← markup_fencePiece, fencePiece]
  cases isChartFence options token with
  | true =>
      have shown : (chartTag token.content id options.chartHeight).read.attributes.get? "id" =
          some id := by
        rw [chartTag, read_escapedTag]
        exact congrArg some kept
      have marked : (chartTag token.content id options.chartHeight).read.attributes.hasClass
          chartClass = true := by
        rw [chartTag, read_escapedTag]
        rfl
      refine ⟨_, (flows_chartPiece _ _ _ _).append feed, ?_⟩
      rw [List.append_nil, ofTag, if_pos marked]
      exact congrArg (fun value => [value]) shown
  | false =>
      have shown : (codeTag (fenceLanguage token) id).read.attributes.get? "id" = some id := by
        rw [codeTag, read_escapedTag]
        exact congrArg some kept
      have free : ∀ d ∈ fenceLanguage token, Text.isAsciiBlank d = false :=
        fun d member => isAsciiBlank_of_language member
      have marked := hasClass_code free id
      refine ⟨_, (flows_codePiece _ _ _ _).append feed, ?_⟩
      rw [List.append_nil, ofTag, codeTag, marked]
      by_cases same : fenceLanguage token = chartClass
      · rw [if_pos (decide_eq_true same), same]
        exact congrArg (fun value => [value]) shown
      · have other : Block.isMarked ⟨id, .code (fenceLanguage token), html⟩ = false := by
          simp [Block.isMarked, same]
        rw [if_neg (by simp [same]), if_neg Bool.false_ne_true, marks, List.filter_cons_of_neg]
        · rfl
        · simp [other]

end LivePage
