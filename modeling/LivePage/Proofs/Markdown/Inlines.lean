import LivePage.Chart.Engine
import LivePage.Markdown.Html
import LivePage.Proofs.Html.Flowing
import LivePage.Proofs.Markdown.Grammar
import LivePage.Proofs.Render.Templates
import LivePage.Proofs.Render.Visits

/-!
Inlines as they are written. An inline is written the same wherever it stands, as running text in
which every element has its end tag and no element has the class of placeholders.
-/

namespace LivePage
open Markdown Html Builder

def escapedTag (name : Text) (attributes : Attributes) : SpelledTag :=
  ⟨name, attributes.map fun a => ⟨a.name, some (escapeAttribute a.value)⟩, false⟩

theorem markup_escapedTag (name : Text) (attributes : Attributes) :
    (escapedTag name attributes).markup = tokenMarkup (.openTag ⟨name, attributes, false⟩) := by
  rw [SpelledTag.markup, escapedTag, List.flatMap_map]
  rfl

/-- A tag is valid if its names are, and no value would end before it is to end. -/
theorem valid_spelledTag {name : Text} {attributes : List Spelled} {closes : Bool}
    (valid : isMarkupName name = true) (names : areMarkupNames (attributes.map (·.name)) = true)
    (values : ∀ value ∈ attributes.filterMap (·.value), '\x22' ∉ value) :
    SpelledTag.Valid ⟨name, attributes, closes⟩ := by
  rw [areMarkupNames, Bool.and_eq_true, List.all_eq_true, decide_eq_true_eq] at names
  refine ⟨valid, fun a member => ⟨names.1 _ (List.mem_map_of_mem member), ?_⟩, names.2⟩
  exact fun value shown => values value (List.mem_filterMap.2 ⟨a, member, shown⟩)

theorem valid_escapedTag {name : Text} (valid : isMarkupName name = true) {attributes : Attributes}
    (names : areMarkupNames (attributes.map (·.name)) = true) :
    (escapedTag name attributes).Valid := by
  refine valid_spelledTag valid (by rwa [List.map_map]) fun value member => ?_
  obtain ⟨a, listed, shown⟩ := List.mem_filterMap.1 member
  obtain ⟨b, _, rfl⟩ := List.mem_map.1 listed
  cases shown
  exact not_mem_escapeAttribute_quote b.value

/-- Values are read as they were, but for line breaks and NUL. -/
theorem read_escapedTag (name : Text) (attributes : Attributes) :
    (escapedTag name attributes).read =
      ⟨name, attributes.map fun a => ⟨a.name, replaceNull (unifyBreaks a.value)⟩, false⟩ := by
  have value (s : Text) : decodeAttribute (replaceNull (unifyBreaks (escapeAttribute s))) =
      replaceNull (unifyBreaks s) :=
    decodeAttribute_flatMap writesReferences_attribute replaceNull_escapeAttribute
      (decodeFrom_escapeAttributeChar true) s
  simp only [escapedTag, SpelledTag.read, SpelledTag.unified, SpelledTag.resolved, List.map_map]
  congr 1
  refine List.map_congr_left fun a _ => ?_
  simp only [Function.comp, Spelled.unified, Spelled.resolved, Option.map_some, value]

theorem mem_escapeHtml {d : Char} {s : Text} (member : d ∈ escapeHtml s) : d ≠ '<' ∧ d ≠ '\x22' := by
  obtain ⟨e, _, written⟩ := List.mem_flatMap.1 member
  by_cases quote : e = '\x22'
  · have marks : ∀ d ∈ "&quot;".toList, d ≠ '<' ∧ d ≠ '\x22' := by decide
    rw [if_pos quote] at written
    exact marks d written
  · rw [if_neg quote] at written
    obtain ⟨bracket, same | mark⟩ := mem_escapeTextChar written
    · exact ⟨bracket, same ▸ quote⟩
    · have marks : ∀ d ∈ "&ampltg;".toList, d ≠ '\x22' := by decide
      exact ⟨bracket, marks d mark⟩

theorem bracket_not_mem_escapeHtml (s : Text) : '<' ∉ escapeHtml s :=
  fun member => (mem_escapeHtml member).1 rfl

theorem quote_not_mem_hexByte (b : UInt8) : '\x22' ∉ hexByte b := by
  have all : ∀ n < 256, '\x22' ∉ hexByte (UInt8.ofNat n) := by decide +kernel
  have known := all b.toNat b.toNat_lt
  rwa [UInt8.ofNat_toNat] at known

theorem quote_not_mem_escapeAddress (s : Text) : '\x22' ∉ escapeAddress s := by
  intro member
  obtain ⟨e, _, written⟩ := List.mem_flatMap.1 member
  rw [escapeAddressChar] at written
  split at written
  · next plain =>
      rw [List.mem_singleton] at written
      subst written
      exact absurd plain (by decide)
  · split at written
    · exact absurd written (by decide)
    · split at written
      · exact absurd written (by decide)
      · obtain ⟨b, _, written⟩ := List.mem_flatMap.1 written
        exact quote_not_mem_hexByte b written

theorem not_mem_ofNat (n : Nat) {d : Char} (other : d.isDigit = false) : d ∉ Text.ofNat n := by
  intro member
  rw [isDigit_ofNat member] at other
  cases other

namespace Markdown

theorem Output.write_write (o : Output) (s t : Text) : (o.write s).write t = o.write (s ++ t) := by
  simp [Output.write]

/-- Nodes that are written as one text, wherever they stand. -/
inductive Writes (options : HtmlOptions) : List Node → Text → Prop
  | nil : Writes options [] []
  | cons {n : Node} {s : Text} {ns : List Node} {t : Text}
      (one : ∀ around o, writeNode options around o n = o.write s) (others : Writes options ns t) :
      Writes options (n :: ns) (s ++ t)

namespace Writes

variable {options : HtmlOptions} {ns ms : List Node} {s t : Text}

theorem single {n : Node} (one : ∀ around o, writeNode options around o n = o.write s) :
    Writes options [n] s := by
  have whole := Writes.cons one .nil
  rwa [List.append_nil] at whole

theorem append (first : Writes options ns s) (second : Writes options ms t) :
    Writes options (ns ++ ms) (s ++ t) := by
  induction first with
  | nil => exact second
  | cons one _ ih =>
      rw [List.append_assoc]
      exact .cons one ih

theorem writeNodes (writes : Writes options ns s) (around : Surroundings) (o : Output) :
    Markdown.writeNodes options around o ns = o.write s := by
  induction writes generalizing around o with
  | nil => rfl
  | cons one _ ih => rw [Markdown.writeNodes, one, ih, Output.write_write]

theorem between (writes : Writes options ns s) (around : Surroundings) (o : Output)
    (before behind : Text) :
    (Markdown.writeNodes options around (o.write before) ns).write behind =
      o.write (before ++ (s ++ behind)) := by
  rw [writes.writeNodes, Output.write_write, Output.write_write]

end Writes
end Markdown

theorem runs_plainTag (name : Text) {s : Text} (valid : isMarkupName name = true)
    (known : name ∈ formattingElements ++ plainElements) (runs : Runs chartClass s) :
    Runs chartClass (SpelledTag.around ⟨name, [], false⟩ s) :=
  .of_element (SpelledTag.valid_bare valid) known rfl runs

theorem runs_break : Runs chartClass "<br />\n" := by
  have tag : Runs chartClass (SpelledTag.markup ⟨"br", [], true⟩) :=
    .of_void (SpelledTag.valid_bare (by decide)) (by decide) rfl
  exact tag.append (.of_text (by decide))

theorem markup_opening_eq (name : Text) (attributes : Attributes) :
    markup [opening name attributes] = (escapedTag name attributes).markup := by
  rw [markup_escapedTag]
  exact List.append_nil _

def linkTag (url title : Text) : SpelledTag :=
  escapedTag "a" ([⟨"href", url⟩] ++ titleAttribute title ++
    [⟨"target", "_blank"⟩, ⟨"rel", "noopener noreferrer"⟩])

theorem valid_linkTag (url title : Text) : (linkTag url title).Valid := by
  refine valid_escapedTag (by decide) ?_
  cases title <;> rfl

theorem hasClass_linkTag (url title : Text) :
    (linkTag url title).read.attributes.hasClass chartClass = false := by
  rw [linkTag, read_escapedTag]
  cases title <;> rfl

theorem markup_linkTokens (url title : Text) :
    markup (linkTokens url title) = (linkTag url title).markup :=
  markup_opening_eq ..

theorem runs_link (url title : Text) {s : Text} (runs : Runs chartClass s) :
    Runs chartClass (markup (linkTokens url title) ++ (s ++ renderLinkClose)) := by
  have known : "a".toList ∈ formattingElements ++ plainElements := by decide
  rw [markup_linkTokens]
  exact .of_element (valid_linkTag url title) known (hasClass_linkTag url title) runs

def wrapperTag : SpelledTag := escapedTag "span" [⟨"class", "markdown-image-wrapper"⟩]

theorem valid_wrapperTag : wrapperTag.Valid := valid_escapedTag (by decide) rfl

def imageTag (source alt title : Text) : SpelledTag :=
  escapedTag "img" ([⟨"src", source⟩, ⟨"alt", alt⟩] ++ titleAttribute title ++
    [⟨"loading", "lazy"⟩, ⟨"data-action", "preview-image"⟩, ⟨"data-preview-src", source⟩])

theorem valid_imageTag (source alt title : Text) : (imageTag source alt title).Valid := by
  refine valid_escapedTag (by decide) ?_
  cases title <;> rfl

theorem hasClass_imageTag (source alt title : Text) :
    (imageTag source alt title).read.attributes.hasClass chartClass = false := by
  rw [imageTag, read_escapedTag]
  cases title <;> rfl

theorem markup_imageTokens (source alt title : Text) :
    markup (imageTokens source alt title) =
      wrapperTag.around (imageTag source alt title).markup := by
  rw [SpelledTag.around, wrapperTag, imageTag, markup_escapedTag, markup_escapedTag, imageTokens,
    markup, List.flatMap_cons, List.flatMap_cons, List.flatMap_cons, List.flatMap_nil,
    List.append_nil]
  rfl

theorem runs_image (source alt title : Text) :
    Runs chartClass (markup (imageTokens source alt title)) := by
  have void : "img".toList ∈ voidElements := by decide
  have known : "span".toList ∈ formattingElements ++ plainElements := by decide
  have image : Runs chartClass (imageTag source alt title).markup :=
    .of_void (valid_imageTag ..) void (hasClass_imageTag ..)
  rw [markup_imageTokens]
  exact .of_element valid_wrapperTag known rfl image

def markTag : SpelledTag := ⟨"sup", [⟨"class", some "footnote-ref"⟩], false⟩

theorem valid_markTag : markTag.Valid := valid_spelledTag (by decide) rfl (by decide)

theorem runs_mark {s : Text} (runs : Runs chartClass s) : Runs chartClass (markTag.around s) :=
  .of_element valid_markTag (by decide) rfl runs

def referenceTag (name : Text) (number : Nat) : SpelledTag :=
  ⟨"a", [⟨"href", some ("#fn-".toList ++ escapeAddress name)⟩,
    ⟨"id", some ("fnref-".toList ++ escapeAddress name ++
      (if 1 < number then '-' :: Text.ofNat number else []))⟩, ⟨"data-footnote-ref", none⟩], false⟩

theorem valid_referenceTag (name : Text) (number : Nat) : (referenceTag name number).Valid := by
  have address := quote_not_mem_escapeAddress name
  have tail : '\x22' ∉ (if 1 < number then '-' :: Text.ofNat number else []) := by
    have digits := not_mem_ofNat number (d := '\x22') (by decide)
    split <;> simp [digits]
  refine valid_spelledTag (by decide) rfl ?_
  simp [address, tail]

theorem around_referenceTag (name : Text) (number index : Nat) :
    markTag.around ((referenceTag name number).around (Text.ofNat index)) =
      "<sup class=\"footnote-ref\"><a href=\"#fn-".toList ++ escapeAddress name ++
      "\" id=\"".toList ++ ("fnref-".toList ++ escapeAddress name ++
        (if 1 < number then '-' :: Text.ofNat number else [])) ++
      "\" data-footnote-ref>".toList ++ Text.ofNat index ++ "</a></sup>".toList := by
  simp only [SpelledTag.around, SpelledTag.markup, referenceTag, List.flatMap_cons,
    List.flatMap_nil, Spelled.markup, attr, tokenMarkup, List.append_assoc, List.cons_append,
    List.nil_append, List.append_nil]
  rfl

theorem runs_reference (name : Text) (number index : Nat) :
    Runs chartClass (markTag.around ((referenceTag name number).around (Text.ofNat index))) := by
  have known : "a".toList ∈ formattingElements ++ plainElements := by decide
  have plain : (referenceTag name number).read.attributes.hasClass chartClass = false := rfl
  have index : Runs chartClass (Text.ofNat index) := .of_text (not_mem_ofNat index (by decide))
  exact runs_mark (.of_element (valid_referenceTag name number) known plain index)

/-- What the built-in rules give, with escaping for HTML and no highlighter. -/
def builtinAnswers (options : Options) : Answers :=
  ⟨some (renderFence (m := Id) ⟨.html, options, none⟩),
    some (renderLinkOpen (m := Id) ⟨.html, options, none⟩),
    some (renderImage (m := Id) ⟨.html, options, none⟩)⟩

section Builtin

variable {m : Type → Type} [Monad m] [LawfulMonad m]

theorem chartPlaceholder_eq_pure (options : Options) (content id : Text) :
    chartPlaceholder (m := m) ⟨.html, options, none⟩ content id =
      pure (chartPlaceholder (m := Id) ⟨.html, options, none⟩ content id) := by
  unfold chartPlaceholder
  simp only [Escaper.html, pure_bind]
  rfl

theorem codeBlock_eq_pure (options : Options) (content language id : Text) :
    codeBlock (m := m) ⟨.html, options, none⟩ content language id =
      pure (codeBlock (m := Id) ⟨.html, options, none⟩ content language id) := by
  have plain : highlighted? (m := m) ⟨.html, options, none⟩ content language = none := by
    simp [highlighted?]
  have plain' : highlighted? (m := Id) ⟨.html, options, none⟩ content language = none := by
    simp [highlighted?]
  conv_lhs => unfold codeBlock
  cases language with
  | nil =>
      simp only [List.isEmpty_nil, if_true, Escaper.html, pure_bind]
      refine congrArg pure ?_
      rw [codeBlock]
      rfl
  | cons c language =>
      simp only [plain, List.isEmpty_cons, Bool.false_eq_true, if_false]
      simp only [Escaper.html, pure_bind] at plain' ⊢
      refine congrArg pure ?_
      rw [codeBlock]
      simp only [plain']
      rfl

theorem renderFence_eq_pure (options : Options) (token : FenceToken) (id : Text) :
    renderFence (m := m) ⟨.html, options, none⟩ token id =
      pure (renderFence (m := Id) ⟨.html, options, none⟩ token id) := by
  unfold renderFence
  dsimp only
  rw [chartPlaceholder_eq_pure, codeBlock_eq_pure]
  split
  · rw [pure_bind]
    rfl
  · rw [pure_bind]
    rfl

theorem renderLinkOpen_eq_pure (options : Options) (token : LinkToken) :
    renderLinkOpen (m := m) ⟨.html, options, none⟩ token =
      pure (renderLinkOpen (m := Id) ⟨.html, options, none⟩ token) := by
  rw [renderLinkOpen_markup, renderLinkOpen_markup]
  rfl

theorem renderImage_eq_pure (options : Options) (token : Token) :
    renderImage (m := m) ⟨.html, options, none⟩ token =
      pure (renderImage (m := Id) ⟨.html, options, none⟩ token) := by
  cases token with
  | image image =>
      rw [renderImage_markup, renderImage_markup]
      rfl
  | fence _ | linkOpen _ | other _ => rfl

theorem gives_builtin {o : Overrides m} {options : Options} (rules : o.rules = .builtin)
    (context : o.context = ⟨.html, options, none⟩) : o.Gives (builtinAnswers options) := by
  refine ⟨?_, ?_, ?_⟩
  · rw [rules, context]
    exact congrArg some (funext fun token => funext fun id => renderFence_eq_pure options token id)
  · rw [rules, context]
    exact congrArg some (funext fun token => renderLinkOpen_eq_pure options token)
  · rw [rules, context]
    exact congrArg some (funext fun token => renderImage_eq_pure options token)

end Builtin

section Inlines

variable {m : Type → Type} (o : Overrides m) (options : Options) (html : HtmlOptions) {i : Nat}
  {v : Value} {span : Span} {children : List Markdown.Node}

/-- What stands in the place of some nodes is written as running text. -/
def Inscribed (ns : List Markdown.Node) : Prop := ∃ s, Writes html ns s ∧ Runs chartClass s

theorem inscribed_element (name : Text) (valid : isMarkupName name = true)
    (known : name ∈ formattingElements ++ plainElements)
    (written : ∀ around out ns, writeNode html around out (.mk v span ns) =
      (writeNodes html {} (out.write (SpelledTag.markup ⟨name, [], false⟩)) ns).write
        (tokenMarkup (.closeTag name)))
    (inner : Inscribed html children) : Inscribed html [.mk v span children] := by
  obtain ⟨s, writes, runs⟩ := inner
  refine ⟨_, .single fun around out => ?_, runs_plainTag name valid known runs⟩
  rw [written, writes.between]
  rfl

theorem inscribed_text {s : Text}
    (written : ∀ around out, writeNode html around out (.mk v span []) = out.write s)
    (runs : Runs chartClass s) : Inscribed html [.mk v span []] :=
  ⟨s, .single written, runs⟩

theorem inscribed_leaf (leaf : v.isInlineLeaf = true) : Inscribed html [.mk v span []] := by
  cases v
  case text s =>
      exact inscribed_text html (fun _ _ => rfl) (.of_text (bracket_not_mem_escapeHtml s))
  case softBreak =>
      refine inscribed_text html (fun _ _ => rfl) ?_
      cases html.hardBreaks with
      | true => exact runs_break
      | false => exact .of_text (by decide)
  case lineBreak => exact inscribed_text html (fun _ _ => rfl) runs_break
  case code s =>
      have text : Runs chartClass (escapeHtml s) := .of_text (bracket_not_mem_escapeHtml s)
      refine inscribed_text html (fun around out => ?_)
        (runs_plainTag "code" (by decide) (by decide) text)
      rw [writeNode, List.append_assoc]
      rfl
  case footnoteReference name number index =>
      refine inscribed_text html (fun around out => ?_) (runs_reference name number index)
      rw [around_referenceTag]
      rfl
  all_goals cases leaf

theorem inscribed_link (target : Target) {inner : List Markdown.Node}
    (content : Inscribed html inner) :
    Inscribed html (o.revisedNode (builtinAnswers options) i (.mk (.link target) span children)
      inner) := by
  obtain ⟨s, writes, runs⟩ := content
  have opens := renderLinkOpen_markup (m := Id) options ⟨target.url, target.title⟩
  have raw (s : Text) : Writes html [.mk (.raw s) default []] s := .single fun _ _ => rfl
  have whole := (raw (renderLinkOpen (m := Id) ⟨.html, options, none⟩
    ⟨target.url, target.title⟩)).append (writes.append (raw renderLinkClose))
  refine ⟨_, whole, ?_⟩
  rw [opens]
  exact runs_link _ _ runs

theorem inscribed_image (target : Target) (inner : List Markdown.Node) :
    Inscribed html (o.revisedNode (builtinAnswers options) i (.mk (.image target) span children)
      inner) := by
  let token := imageToken o.source o.starts (.mk (.image target) span children) target
  have image := renderImage_markup (m := Id) options token
  refine ⟨renderImage (m := Id) ⟨.html, options, none⟩ (.image token), .single fun _ _ => rfl, ?_⟩
  rw [image]
  exact runs_image _ _ _

theorem inscribed_span (spans : v.isSpan = true) {inner : List Markdown.Node}
    (content : Inscribed html inner) :
    Inscribed html (o.revisedNode (builtinAnswers options) i (.mk v span children) inner) := by
  cases v
  case link target => exact inscribed_link o options html target content
  case image target => exact inscribed_image o options html target inner
  case tildes s =>
      obtain ⟨t, writes, runs⟩ := content
      have plain : '<' ∉ s := fun member => by
        have only := List.all_eq_true.1 spans '<' member
        cases only
      refine ⟨s ++ (t ++ s), .single fun around out => ?_,
        .append (.of_text plain) (.append runs (.of_text plain))⟩
      rw [writeNode, writes.between]
  case emph => exact inscribed_element html "em" (by decide) (by decide) (fun _ _ _ => rfl) content
  case strong =>
      exact inscribed_element html "strong" (by decide) (by decide) (fun _ _ _ => rfl) content
  case strikethrough =>
      exact inscribed_element html "del" (by decide) (by decide) (fun _ _ _ => rfl) content
  case superscript =>
      exact inscribed_element html "sup" (by decide) (by decide) (fun _ _ _ => rfl) content
  case subscript =>
      exact inscribed_element html "sub" (by decide) (by decide) (fun _ _ _ => rfl) content
  case underline =>
      exact inscribed_element html "u" (by decide) (by decide) (fun _ _ _ => rfl) content
  all_goals cases spans

mutual

theorem inscribed_inline (i : Nat) : ∀ n : Markdown.Node, n.isInline = true →
    Inscribed html (o.revised (builtinAnswers options) i n)
  | .mk v span children, inline => by
      rw [Markdown.Node.isInline] at inline
      rw [Overrides.revised]
      cases leaf : v.isInlineLeaf with
      | true =>
          rw [leaf, if_pos rfl, List.isEmpty_iff] at inline
          subst inline
          have kept : o.revisedNode (builtinAnswers options) i (.mk v span [])
              (o.revisedAll (builtinAnswers options) (i + 1) []) = [.mk v span []] := by
            cases v <;> first | rfl | cases leaf
          rw [kept]
          exact inscribed_leaf html leaf
      | false =>
          rw [leaf, if_neg Bool.false_ne_true, Bool.and_eq_true] at inline
          exact inscribed_span o options html inline.1 (inscribed_inlines (i + 1) children inline.2)

theorem inscribed_inlines (i : Nat) : ∀ ns : List Markdown.Node,
    Markdown.Node.areInlines ns = true →
      Inscribed html (o.revisedAll (builtinAnswers options) i ns)
  | [], _ => ⟨[], .nil, .nil⟩
  | n :: rest, inlines => by
      rw [Markdown.Node.areInlines, Bool.and_eq_true] at inlines
      obtain ⟨s, writes, runs⟩ := inscribed_inline i n inlines.1
      obtain ⟨t, others, more⟩ := inscribed_inlines (i + n.size) rest inlines.2
      exact ⟨s ++ t, writes.append others, runs.append more⟩

end

end Inlines

mutual

theorem fenceToken?_of_inline : ∀ n : Markdown.Node, n.isInline = true →
    ∀ k ∈ n.preorder, k.fenceToken? = none
  | .mk v span children, inline => by
      rw [Markdown.Node.isInline] at inline
      have below : Markdown.Node.areInlines children = true := by
        split at inline
        · rw [List.isEmpty_iff] at inline
          subst inline
          rfl
        · exact (Bool.and_eq_true_iff.1 inline).2
      refine List.forall_mem_cons.2 ⟨?_, fenceToken?_of_inlines children below⟩
      cases v <;> first | rfl | cases inline

theorem fenceToken?_of_inlines : ∀ ns : List Markdown.Node, Markdown.Node.areInlines ns = true →
    ∀ k ∈ Markdown.Node.preorderAll ns, k.fenceToken? = none
  | [], _ => List.forall_mem_nil _
  | n :: rest, inlines => by
      rw [Markdown.Node.areInlines, Bool.and_eq_true] at inlines
      exact List.forall_mem_append.2
        ⟨fenceToken?_of_inline n inlines.1, fenceToken?_of_inlines rest inlines.2⟩

end

end LivePage
