import LivePage.Proofs.Render.Markup

/-!
What the rules for fences, links and images write, read as HTML. Each rule has one sequence of tags
for each of its branches, with the same names of attributes whatever the document holds; every value
and every text is read as it was given. A fence writes its identifier as it is, so its tags are
written by any spelling of attributes that does so too; escaping is one if it leaves the identifier.
-/

namespace LivePage
open Html

def opening (name : Text) (attributes : Attributes) : Html.Token :=
  .openTag ⟨name, attributes, false⟩

def run (s : Text) : List Html.Token := if s.isEmpty then [] else [.text s]

def chartStyle (height : Nat) : Text :=
  "width: 100%; height: ".toList ++ Text.ofNat height ++ "px; max-width: 100%;".toList

def chartTokens (label content id : Text) (height : Nat) : List Html.Token :=
  [opening "div" [⟨"class", "echarts-block-wrapper"⟩], .text "\n",
    opening "div" [⟨"class", "code-header"⟩], opening "span" [⟨"class", "code-lang"⟩]]
  ++ run label
  ++ [.closeTag "span", .closeTag "div", .text "\n"]
  ++ [opening "div" [⟨"id", id⟩, ⟨"class", "echarts-chart"⟩, ⟨"data-option", content⟩,
    ⟨"style", chartStyle height⟩]]
  ++ [.closeTag "div", .text "\n", .closeTag "div", .text "\n"]

def languageTokens (language : Text) : List Html.Token :=
  if language.isEmpty then []
  else [opening "span" [⟨"class", "code-lang"⟩]] ++ run language ++ [.closeTag "span"]

def codeClass (language : Text) : Text :=
  if language.isEmpty then "hljs" else "hljs ".toList ++ language

def codeTokens (copyLabel language content id : Text) : List Html.Token :=
  [opening "div" [⟨"class", "code-block-wrapper"⟩], .text "\n",
    opening "div" [⟨"class", "code-header"⟩]]
  ++ languageTokens language
  ++ [opening "button" [⟨"class", "copy-btn"⟩, ⟨"type", "button"⟩, ⟨"data-action", "copy-code"⟩,
    ⟨"data-target", id⟩]]
  ++ run copyLabel
  ++ [.closeTag "button", .closeTag "div", .text "\n", opening "pre" []]
  ++ [opening "code" [⟨"id", id⟩, ⟨"class", codeClass language⟩]]
  ++ run content
  ++ [.closeTag "code", .closeTag "pre", .text "\n", .closeTag "div", .text "\n"]

/-- An attribute for a title, unless that is empty. -/
def titleAttribute (title : Text) : Attributes :=
  if title.isEmpty then [] else [⟨"title", title⟩]

def linkTokens (url title : Text) : List Html.Token :=
  [opening "a" ([⟨"href", url⟩] ++ titleAttribute title ++
    [⟨"target", "_blank"⟩, ⟨"rel", "noopener noreferrer"⟩])]

def imageTokens (source alt title : Text) : List Html.Token :=
  [opening "span" [⟨"class", "markdown-image-wrapper"⟩],
    opening "img" ([⟨"src", source⟩, ⟨"alt", alt⟩] ++ titleAttribute title ++
      [⟨"loading", "lazy"⟩, ⟨"data-action", "preview-image"⟩, ⟨"data-preview-src", source⟩]),
    .closeTag "span"]

theorem markup_opening (name : Text) (attributes : Attributes) :
    markup [opening name attributes] =
      '<' :: name ++ attributes.flatMap attributeMarkup ++ ['>'] := by
  simp [markup, opening, tokenMarkup, tagMarkup]

/-- Texts that escaping leaves as they are. -/
def Unescaped (s : Text) : Prop := escapeAttribute s = s

theorem escapeAttribute_append (s t : Text) :
    escapeAttribute (s ++ t) = escapeAttribute s ++ escapeAttribute t :=
  List.flatMap_append

theorem unescaped_append {s t : Text} (first : Unescaped s) (second : Unescaped t) :
    Unescaped (s ++ t) := by
  rw [Unescaped, escapeAttribute_append, first, second]

theorem unescaped_ofNat (n : Nat) : Unescaped (Text.ofNat n) := by
  refine escapeAttribute_of_plain ?_
  intro c member special
  have digit := isDigit_ofNat member
  have marks : ∀ d ∈ ['&', '<', '>', '\x22', '\x27'], d.isDigit = false := by decide
  rw [marks c special] at digit
  cases digit

theorem unescaped_chartStyle (height : Nat) : Unescaped (chartStyle height) :=
  unescaped_append (unescaped_append rfl (unescaped_ofNat height)) rfl

theorem unescaped_blockId {lead : Option Text} (stable : ∀ s ∈ lead, Unescaped s) (index : Nat) :
    Unescaped (blockId lead index) := by
  unfold blockId
  split
  · exact unescaped_append rfl (unescaped_ofNat index)
  · exact unescaped_append rfl (unescaped_ofNat index)
  · next s _ => exact unescaped_append (unescaped_append (stable s rfl) rfl) (unescaped_ofNat index)

theorem escapeAttribute_codeClass (language : Text) :
    escapeAttribute (codeClass language) =
      if language.isEmpty then "hljs".toList else "hljs ".toList ++ escapeAttribute language := by
  have lead : escapeAttribute "hljs ".toList = "hljs ".toList := rfl
  unfold codeClass
  split
  · rfl
  · rw [escapeAttribute_append, lead]

variable {m : Type → Type} [Monad m] [LawfulMonad m]

/-- Tokens as they are written, with attributes spelled in some way. -/
def tokenMarkupBy (spell : Attribute → Text) : Html.Token → Text
  | .openTag tag => tagMarkup spell tag.name tag.attributes
  | t => tokenMarkup t

def markupBy (spell : Attribute → Text) (tokens : List Html.Token) : Text :=
  tokens.flatMap (tokenMarkupBy spell)

theorem markupBy_nil (spell : Attribute → Text) : markupBy spell [] = [] := rfl

theorem markupBy_cons (spell : Attribute → Text) (t : Html.Token) (tokens : List Html.Token) :
    markupBy spell (t :: tokens) = tokenMarkupBy spell t ++ markupBy spell tokens :=
  List.flatMap_cons

theorem markupBy_append (spell : Attribute → Text) (tokens others : List Html.Token) :
    markupBy spell (tokens ++ others) = markupBy spell tokens ++ markupBy spell others :=
  List.flatMap_append

theorem markupBy_run (spell : Attribute → Text) (s : Text) :
    markupBy spell (run s) = escapeText s := by
  cases s with
  | nil => rfl
  | cons c s => exact List.append_nil _

theorem markupBy_opening (spell : Attribute → Text) (name : Text) (attributes : Attributes) :
    markupBy spell [opening name attributes] = tagMarkup spell name attributes :=
  List.append_nil _

theorem markupBy_attributeMarkup (tokens : List Html.Token) :
    markupBy attributeMarkup tokens = markup tokens := by
  refine List.flatMap_congr fun t _ => ?_
  cases t <;> rfl

/-- Identifiers are written as they are, all other values escaped. -/
def spellId (a : Attribute) : Text :=
  if a.name ∈ ["id".toList, "data-target".toList] then attr a.name a.value else attributeMarkup a

theorem spellId_identifier (name : Text) (identifier : name ∈ ["id".toList, "data-target".toList])
    (value : Text) : spellId ⟨name, value⟩ = attr name value :=
  if_pos identifier

theorem spellId_other (name : Text) (other : name ∉ ["id".toList, "data-target".toList])
    (value : Text) : spellId ⟨name, value⟩ = attr name (escapeAttribute value) :=
  if_neg other

/-- Spellings that write an identifier as it is, and all other values escaped. -/
structure Spells (spell : Attribute → Text) (id : Text) : Prop where
  identifier : ∀ name ∈ ["id".toList, "data-target".toList], spell ⟨name, id⟩ = attr name id
  other : ∀ name ∉ ["id".toList, "data-target".toList], ∀ value,
    spell ⟨name, value⟩ = attr name (escapeAttribute value)

theorem spells_spellId (id : Text) : Spells spellId id :=
  ⟨fun name identifier => spellId_identifier name identifier id, spellId_other⟩

theorem spells_attributeMarkup {id : Text} (stable : Unescaped id) : Spells attributeMarkup id :=
  ⟨fun name _ => congrArg (attr name) stable, fun _ _ _ => rfl⟩

def attributesOf : Html.Token → Attributes
  | .openTag tag => tag.attributes
  | _ => []

section Spelled

variable {spell : Attribute → Text} {id : Text} (spells : Spells spell id)
include spells

theorem Spells.markup_of_others {tokens : List Html.Token}
    (others : ∀ t ∈ tokens, ∀ a ∈ attributesOf t, a.name ∉ ["id".toList, "data-target".toList]) :
    markup tokens = markupBy spell tokens := by
  refine List.flatMap_congr fun t member => ?_
  cases t with
  | openTag tag =>
      have same : ∀ a ∈ tag.attributes, attributeMarkup a = spell a :=
        fun a listed => (spells.other a.name (others _ member a listed) a.value).symm
      simp only [tokenMarkup, tokenMarkupBy, tagMarkup, List.flatMap_congr same]
  | _ => rfl

theorem chartPlaceholder_spelled (options : Options) (content : Text) :
    chartPlaceholder (m := m) ⟨.html, options, none⟩ content id =
      pure (markupBy spell (chartTokens options.chartLabel content id options.chartHeight)) := by
  have lead : "<div class=\"echarts-block-wrapper\">\n<div class=\"code-header\">".toList
      ++ "<span class=\"code-lang\">".toList =
      markupBy spell [opening "div" [⟨"class", "echarts-block-wrapper"⟩], .text "\n",
        opening "div" [⟨"class", "code-header"⟩], opening "span" [⟨"class", "code-lang"⟩]] := by
    rw [← spells.markup_of_others]
    · rfl
    · decide
  have middle : "</span></div>\n<div".toList =
      markupBy spell [.closeTag "span", .closeTag "div", .text "\n"] ++ "<div".toList := rfl
  have tail : "></div>\n</div>\n".toList =
      '>' :: markupBy spell [.closeTag "div", .text "\n", .closeTag "div", .text "\n"] := rfl
  have style : "width: 100%; height: ".toList ++ Text.ofNat options.chartHeight
      ++ "px; max-width: 100%;".toList = chartStyle options.chartHeight := rfl
  have chart : markupBy spell [opening "div" [⟨"id", id⟩, ⟨"class", "echarts-chart"⟩,
      ⟨"data-option", content⟩, ⟨"style", chartStyle options.chartHeight⟩]] =
      "<div".toList ++ (attr "id" id ++ (attr "class" "echarts-chart"
        ++ (attr "data-option" (escapeAttribute content)
        ++ (attr "style" (chartStyle options.chartHeight) ++ ['>'])))) := by
    have own := spells.identifier "id" (by decide)
    have mark : spell ⟨"class", "echarts-chart"⟩ = attr "class" "echarts-chart" :=
      spells.other "class" (by decide) _
    have option := spells.other "data-option" (by decide) content
    have computed := spells.other "style" (by decide) (chartStyle options.chartHeight)
    rw [unescaped_chartStyle] at computed
    simp only [markupBy_opening, tagMarkup, List.flatMap_cons, List.flatMap_nil, own, mark, option,
      computed, List.append_assoc, List.nil_append]
    rfl
  unfold chartPlaceholder chartTokens
  simp only [Escaper.html, pure_bind, markupBy_append, markupBy_run, style, lead, middle, tail,
    chart]
  simp only [List.append_assoc, List.singleton_append]

theorem markupBy_languageTokens (language : Text) :
    markupBy spell (languageTokens language) =
      if language.isEmpty then []
      else "<span class=\"code-lang\">".toList ++ escapeText language ++ "</span>".toList := by
  have lead : "<span class=\"code-lang\">".toList =
      markupBy spell [opening "span" [⟨"class", "code-lang"⟩]] := by
    rw [← spells.markup_of_others]
    · rfl
    · decide
  have tail : "</span>".toList = markupBy spell [.closeTag "span"] := rfl
  unfold languageTokens
  split
  · rfl
  · rw [markupBy_append, markupBy_append, ← lead, markupBy_run, ← tail]

theorem codeBlock_spelled (options : Options) (content language : Text) :
    codeBlock (m := m) ⟨.html, options, none⟩ content language id =
      pure (markupBy spell (codeTokens options.copyLabel language content id)) := by
  have lead : "<div class=\"code-block-wrapper\">\n<div class=\"code-header\">".toList =
      markupBy spell [opening "div" [⟨"class", "code-block-wrapper"⟩], .text "\n",
        opening "div" [⟨"class", "code-header"⟩]] := by
    rw [← spells.markup_of_others]
    · rfl
    · decide
  have middle : "</button></div>\n<pre><code".toList =
      markupBy spell [.closeTag "button", .closeTag "div", .text "\n", opening "pre" []]
        ++ "<code".toList := rfl
  have tail : "</code></pre>\n</div>\n".toList =
      markupBy spell [.closeTag "code", .closeTag "pre", .text "\n", .closeTag "div", .text "\n"] :=
    rfl
  have button : markupBy spell [opening "button" [⟨"class", "copy-btn"⟩, ⟨"type", "button"⟩,
      ⟨"data-action", "copy-code"⟩, ⟨"data-target", id⟩]] =
      "<button class=\"copy-btn\" type=\"button\" data-action=\"copy-code\"".toList
        ++ (attr "data-target" id ++ ['>']) := by
    have target := spells.identifier "data-target" (by decide)
    have first : spell ⟨"class", "copy-btn"⟩ = attr "class" "copy-btn" :=
      spells.other "class" (by decide) _
    have second : spell ⟨"type", "button"⟩ = attr "type" "button" :=
      spells.other "type" (by decide) _
    have third : spell ⟨"data-action", "copy-code"⟩ = attr "data-action" "copy-code" :=
      spells.other "data-action" (by decide) _
    have fixed : '<' :: "button".toList ++ (attr "class" "copy-btn" ++
        (attr "type" "button" ++ attr "data-action" "copy-code")) =
        "<button class=\"copy-btn\" type=\"button\" data-action=\"copy-code\"".toList := rfl
    rw [← fixed]
    simp only [markupBy_opening, tagMarkup, List.flatMap_cons, List.flatMap_nil, target, first,
      second, third, List.append_assoc, List.nil_append, List.cons_append]
  have code : markupBy spell [opening "code" [⟨"id", id⟩, ⟨"class", codeClass language⟩]] =
      "<code".toList ++ (attr "id" id ++ (attr "class" (escapeAttribute (codeClass language))
        ++ ['>'])) := by
    have own := spells.identifier "id" (by decide)
    have classes := spells.other "class" (by decide) (codeClass language)
    simp only [markupBy_opening, tagMarkup, List.flatMap_cons, List.flatMap_nil, own, classes,
      List.append_assoc, List.nil_append]
    rfl
  have plain : highlighted? (m := m) ⟨.html, options, none⟩ content language = none := by
    simp [highlighted?]
  unfold codeBlock codeTokens
  simp only [plain, markupBy_append, markupBy_run, markupBy_languageTokens spells, button, code,
    escapeAttribute_codeClass]
  cases language with
  | nil =>
      simp only [Escaper.html, pure_bind, List.isEmpty_nil, if_true, lead, middle, tail]
      simp only [List.append_assoc, List.singleton_append]
  | cons c language =>
      simp only [Escaper.html, pure_bind, List.isEmpty_cons, Bool.false_eq_true, if_false, lead,
        middle, tail]
      simp only [List.append_assoc, List.singleton_append]

end Spelled

theorem markup_titled (name title : Text) (before behind : Attributes) :
    markup [opening name (before ++ titleAttribute title ++ behind)] =
      '<' :: name ++ before.flatMap attributeMarkup
        ++ (if title.isEmpty then [] else attr "title" (escapeAttribute title))
        ++ behind.flatMap attributeMarkup ++ ['>'] := by
  rw [markup_opening, List.flatMap_append, List.flatMap_append]
  cases title with
  | nil => simp [titleAttribute]
  | cons c title => simp [titleAttribute, attributeMarkup]

theorem renderLinkOpen_markup (options : Options) (token : LinkToken) :
    renderLinkOpen (m := m) ⟨.html, options, none⟩ token =
      pure (markup (linkTokens (sanitizeUrl token.url) token.title)) := by
  have hardening : [⟨"target", "_blank"⟩, ⟨"rel", "noopener noreferrer"⟩].flatMap attributeMarkup
      ++ ['>'] = linkHardening := rfl
  have lead : '<' :: "a".toList = "<a".toList := rfl
  unfold renderLinkOpen linkTokens
  rw [markup_titled, List.append_assoc _ _ ['>'], hardening, lead]
  cases title : token.title with
  | nil => simp [Escaper.html, attributeMarkup]
  | cons c title => simp [Escaper.html, attributeMarkup]

def imageTitle (image : ImageToken) : Text := (image.attr? "title").getD []

theorem filter_imageTitle (image : ImageToken) :
    ((image.attr? "title").filter fun t => !t.isEmpty) =
      if (imageTitle image).isEmpty then none else some (imageTitle image) := by
  unfold imageTitle
  cases image.attr? "title" with
  | none => rfl
  | some t => cases t <;> rfl

theorem renderImage_markup (options : Options) (image : ImageToken) :
    renderImage (m := m) ⟨.html, options, none⟩ (.image image) =
      pure (markup (imageTokens (sanitizeUrl (resolveSource image)) (resolveAlt image)
        (imageTitle image))) := by
  have lead : "<span class=\"markdown-image-wrapper\"><img".toList =
      markup [opening "span" [⟨"class", "markdown-image-wrapper"⟩]] ++ '<' :: "img".toList := rfl
  have tail : "></span>".toList = '>' :: markup [.closeTag "span"] := rfl
  have split (t u v : Html.Token) : markup [t, u, v] = markup [t] ++ (markup [u] ++ markup [v]) := by
    simp [markup]
  have behind (source : Text) : [⟨"loading", "lazy"⟩, ⟨"data-action", "preview-image"⟩,
      ⟨"data-preview-src", source⟩].flatMap attributeMarkup = attr "loading" "lazy"
        ++ (attr "data-action" "preview-image" ++ attr "data-preview-src" (escapeAttribute source)) := by
    have fixed : [⟨"loading", "lazy"⟩, ⟨"data-action", "preview-image"⟩].flatMap attributeMarkup =
        attr "loading" "lazy" ++ attr "data-action" "preview-image" := rfl
    rw [← List.append_assoc, ← fixed]
    simp [attributeMarkup]
  unfold renderImage imageTokens
  rw [split, markup_titled, behind]
  simp only [filter_imageTitle, Escaper.html, pure_bind, lead, tail]
  cases (imageTitle image) with
  | nil => simp [attributeMarkup]
  | cons c title => simp [attributeMarkup]

theorem plain_chartStyle (height : Nat) : (chartStyle height).Plain :=
  .append (.append (by decide) (plain_ofNat height)) (by decide)

theorem plain_codeClass {language : Text} (plain : language.Plain) : (codeClass language).Plain := by
  unfold codeClass
  split
  · decide
  · exact .append (by decide) plain

instance (t : Html.Token) : Decidable (Writable t) :=
  match t with
  | .openTag tag =>
      inferInstanceAs (Decidable (isMarkupName tag.name ∧
        (∀ a ∈ tag.attributes, isMarkupName a.name ∧ a.value.Plain) ∧
        (tag.attributes.map (·.name)).Nodup ∧ tag.selfClosing = false))
  | .closeTag name => inferInstanceAs (Decidable (isMarkupName name))
  | .text run => inferInstanceAs (Decidable (run ≠ [] ∧ run.Plain))
  | .null | .comment _ | .doctype _ | .ending => inferInstanceAs (Decidable False)

/-- Whether names are names that are written, and different ones. -/
def areMarkupNames (names : List Text) : Bool := names.all isMarkupName && decide names.Nodup

theorem writable_opening {name : Text} {attributes : Attributes} (valid : isMarkupName name)
    (names : areMarkupNames (attributes.map (·.name)))
    (plain : ∀ a ∈ attributes, a.value.Plain) : Writable (opening name attributes) := by
  rw [areMarkupNames, Bool.and_eq_true, List.all_eq_true, decide_eq_true_eq] at names
  refine ⟨valid, ?_, names.2, rfl⟩
  intro a member
  exact ⟨names.1 a.name (List.mem_map_of_mem member), plain a member⟩

theorem writable_run {s : Text} (plain : s.Plain) : ∀ t ∈ run s, Writable t := by
  intro t member
  cases s with
  | nil => cases member
  | cons c s =>
      rw [List.mem_singleton.1 member]
      exact ⟨List.cons_ne_nil c s, plain⟩

theorem writable_chartTokens {label content id : Text} (labelPlain : label.Plain)
    (contentPlain : content.Plain) (idPlain : id.Plain) (height : Nat) :
    ∀ t ∈ chartTokens label content id height, Writable t := by
  unfold chartTokens
  simp only [List.forall_mem_append, and_assoc]
  refine ⟨by decide, writable_run labelPlain, by decide, ?_, by decide⟩
  refine List.forall_mem_singleton.2 (writable_opening (by decide) rfl ?_)
  simp only [List.forall_mem_cons, List.not_mem_nil, false_imp_iff, implies_true, and_true]
  exact ⟨idPlain, by decide, contentPlain, plain_chartStyle height⟩

theorem writable_codeTokens {copyLabel language content id : Text} (copyPlain : copyLabel.Plain)
    (languagePlain : language.Plain) (contentPlain : content.Plain) (idPlain : id.Plain) :
    ∀ t ∈ codeTokens copyLabel language content id, Writable t := by
  have shown : ∀ t ∈ languageTokens language, Writable t := by
    unfold languageTokens
    split
    · intro t member
      cases member
    · simp only [List.forall_mem_append, and_assoc]
      exact ⟨by decide, writable_run languagePlain, by decide⟩
  unfold codeTokens
  simp only [List.forall_mem_append, and_assoc]
  refine ⟨by decide, shown, ?_, writable_run copyPlain, by decide, ?_, writable_run contentPlain,
    by decide⟩
  · refine List.forall_mem_singleton.2 (writable_opening (by decide) rfl ?_)
    simp only [List.forall_mem_cons, List.not_mem_nil, false_imp_iff, implies_true, and_true]
    exact ⟨by decide, by decide, by decide, idPlain⟩
  · refine List.forall_mem_singleton.2 (writable_opening (by decide) rfl ?_)
    simp only [List.forall_mem_cons, List.not_mem_nil, false_imp_iff, implies_true, and_true]
    exact ⟨idPlain, plain_codeClass languagePlain⟩

theorem plain_titleAttribute {title : Text} (plain : title.Plain) :
    ∀ a ∈ titleAttribute title, a.value.Plain := by
  intro a member
  unfold titleAttribute at member
  split at member
  · cases member
  · rw [List.mem_singleton.1 member]
    exact plain

theorem writable_linkTokens {url title : Text} (urlPlain : url.Plain) (titlePlain : title.Plain) :
    ∀ t ∈ linkTokens url title, Writable t := by
  refine List.forall_mem_singleton.2 (writable_opening (by decide) ?_ ?_)
  · cases title <;> rfl
  · simp only [List.forall_mem_append, List.forall_mem_cons, List.not_mem_nil, false_imp_iff,
      implies_true, and_true]
    exact ⟨⟨urlPlain, plain_titleAttribute titlePlain⟩, by decide, by decide⟩

theorem writable_imageTokens {source alt title : Text} (sourcePlain : source.Plain)
    (altPlain : alt.Plain) (titlePlain : title.Plain) :
    ∀ t ∈ imageTokens source alt title, Writable t := by
  have image : Writable (opening "img" ([⟨"src", source⟩, ⟨"alt", alt⟩] ++ titleAttribute title ++
      [⟨"loading", "lazy"⟩, ⟨"data-action", "preview-image"⟩, ⟨"data-preview-src", source⟩])) := by
    refine writable_opening (by decide) ?_ ?_
    · cases title <;> rfl
    · simp only [List.forall_mem_append, List.forall_mem_cons, List.not_mem_nil, false_imp_iff,
        implies_true, and_true]
      exact ⟨⟨⟨sourcePlain, altPlain⟩, plain_titleAttribute titlePlain⟩, by decide, by decide,
        sourcePlain⟩
  unfold imageTokens
  simp only [List.forall_mem_cons, List.not_mem_nil, false_imp_iff, implies_true, and_true]
  exact ⟨by decide, image, by decide⟩

def isSpaced : List Html.Token → Bool
  | t :: u :: tokens => !(isText t && isText u) && isSpaced (u :: tokens)
  | _ => true

theorem isChain_of_isSpaced {tokens : List Html.Token} (spaced : isSpaced tokens = true) :
    tokens.IsChain Apart := by
  induction tokens with
  | nil => exact .nil
  | cons t tokens ih =>
      cases tokens with
      | nil => exact .singleton t
      | cons u tokens =>
          simp only [isSpaced, Bool.and_eq_true, Bool.not_eq_true', Bool.and_eq_false_iff] at spaced
          refine List.isChain_cons_cons.2 ⟨?_, ih spaced.2⟩
          intro text
          rcases spaced.1 with other | other
          · rw [text] at other
            cases other
          · exact other

theorem apart_chartTokens (label content id : Text) (height : Nat) :
    (chartTokens label content id height).IsChain Apart := by
  refine isChain_of_isSpaced ?_
  cases label <;> rfl

theorem apart_codeTokens (copyLabel language content id : Text) :
    (codeTokens copyLabel language content id).IsChain Apart := by
  refine isChain_of_isSpaced ?_
  cases copyLabel <;> cases language <;> cases content <;> rfl

/-- A tag with the names of its attributes, without their values. -/
def withoutValues : Html.Token → Html.Token
  | .openTag tag => opening tag.name (tag.attributes.map fun a => ⟨a.name, []⟩)
  | t => t

/-- The tags of a document with the names of their attributes. -/
def skeleton (tokens : List Html.Token) : List Html.Token :=
  (tokens.filter fun t => !isText t).map withoutValues

def bare (name : Text) (attributes : List Text) : Html.Token :=
  opening name (attributes.map fun n => ⟨n, []⟩)

def chartSkeleton : List Html.Token :=
  [bare "div" ["class"], bare "div" ["class"], bare "span" ["class"], .closeTag "span",
    .closeTag "div", bare "div" ["id", "class", "data-option", "style"], .closeTag "div",
    .closeTag "div"]

def codeSkeleton (labelled : Bool) : List Html.Token :=
  [bare "div" ["class"], bare "div" ["class"]]
  ++ (if labelled then [bare "span" ["class"], .closeTag "span"] else [])
  ++ [bare "button" ["class", "type", "data-action", "data-target"], .closeTag "button",
    .closeTag "div", bare "pre" [], bare "code" ["id", "class"], .closeTag "code",
    .closeTag "pre", .closeTag "div"]

def linkSkeleton (titled : Bool) : List Html.Token :=
  [bare "a" (["href"] ++ (if titled then ["title"] else []) ++ ["target", "rel"])]

def imageSkeleton (titled : Bool) : List Html.Token :=
  [bare "span" ["class"], bare "img" (["src", "alt"] ++ (if titled then ["title"] else [])
    ++ ["loading", "data-action", "data-preview-src"]), .closeTag "span"]

theorem skeleton_chartTokens (label content id : Text) (height : Nat) :
    skeleton (chartTokens label content id height) = chartSkeleton := by
  cases label <;> rfl

theorem skeleton_codeTokens (copyLabel language content id : Text) :
    skeleton (codeTokens copyLabel language content id) = codeSkeleton (!language.isEmpty) := by
  cases copyLabel <;> cases language <;> cases content <;> rfl

theorem skeleton_linkTokens (url title : Text) :
    skeleton (linkTokens url title) = linkSkeleton (!title.isEmpty) := by
  cases title <;> rfl

theorem skeleton_imageTokens (source alt title : Text) :
    skeleton (imageTokens source alt title) = imageSkeleton (!title.isEmpty) := by
  cases title <;> rfl

/-- HTML that reads as the given tokens, with a skeleton that none of their texts has a part in. -/
def ReadsAs (html : Text) (tokens tags : List Html.Token) : Prop :=
  tokenize html = tokens ∧ skeleton tokens = tags

def isChartFence (options : Options) (token : FenceToken) : Bool :=
  !(Text.trimBlank token.info).isEmpty && Text.trimBlank token.info = options.chartLanguage

def fenceLanguage (token : FenceToken) : Text :=
  Text.firstWord Text.isBlank (Text.trimBlank token.info)

def fenceTokens (options : Options) (token : FenceToken) (id : Text) : List Html.Token :=
  if isChartFence options token then
    chartTokens options.chartLabel token.content id options.chartHeight
  else codeTokens options.copyLabel (fenceLanguage token) token.content id

def fenceSkeleton (options : Options) (token : FenceToken) : List Html.Token :=
  if isChartFence options token then chartSkeleton
  else codeSkeleton (!(fenceLanguage token).isEmpty)

theorem renderFence_spelled (options : Options) (token : FenceToken) {spell : Attribute → Text}
    {id : Text} (spells : Spells spell id) :
    renderFence (m := m) ⟨.html, options, none⟩ token id =
      pure ⟨id, if isChartFence options token then .chart else .code (fenceLanguage token),
        markupBy spell (fenceTokens options token id)⟩ := by
  have chart := chartPlaceholder_spelled (m := m) spells options token.content
  have code := codeBlock_spelled (m := m) spells options token.content (fenceLanguage token)
  have split : isChartFence options token = (!(Text.trimBlank token.info).isEmpty &&
    Text.trimBlank token.info = options.chartLanguage) := rfl
  unfold renderFence fenceTokens
  simp only [chart, ← split]
  cases isChartFence options token with
  | true => simp only [if_true, pure_bind]
  | false =>
      rw [fenceLanguage] at code ⊢
      simp only [Bool.false_eq_true, if_false, code, pure_bind]

theorem renderFence_markup (options : Options) (token : FenceToken) {id : Text}
    (stable : Unescaped id) :
    renderFence (m := m) ⟨.html, options, none⟩ token id =
      pure ⟨id, if isChartFence options token then .chart else .code (fenceLanguage token),
        markup (fenceTokens options token id)⟩ := by
  rw [← markupBy_attributeMarkup]
  exact renderFence_spelled options token (spells_attributeMarkup stable)

theorem renderFence_reads (options : Options) (label : options.chartLabel.Plain)
    (copyLabel : options.copyLabel.Plain) (index : Nat) (token : FenceToken)
    (content : token.content.Plain) (info : token.info.Plain) :
    ∃ block, renderFence (m := m) ⟨.html, options, none⟩ token (blockId none index) = pure block ∧
      ReadsAs block.html (fenceTokens options token (blockId none index))
        (fenceSkeleton options token) := by
  have id : (blockId none index).Plain := plain_blockId (by simp) index
  refine ⟨_, renderFence_markup options token (unescaped_blockId (by simp) index), ?_⟩
  unfold fenceTokens fenceSkeleton
  cases isChartFence options token with
  | true =>
      exact ⟨tokenize_markup (writable_chartTokens label content id _) (apart_chartTokens ..),
        skeleton_chartTokens ..⟩
  | false =>
      have language : (fenceLanguage token).Plain :=
        (info.of_sublist (trim_sublist _ _)).of_sublist (firstWord_sublist _ _)
      exact ⟨tokenize_markup (writable_codeTokens copyLabel language content id)
        (apart_codeTokens ..), skeleton_codeTokens ..⟩

theorem renderLinkOpen_reads (options : Options) (token : LinkToken) (url : token.url.Plain)
    (title : token.title.Plain) :
    ∃ html, renderLinkOpen (m := m) ⟨.html, options, none⟩ token = pure html ∧
      ReadsAs html (linkTokens (sanitizeUrl token.url) token.title)
        (linkSkeleton (!token.title.isEmpty)) := by
  refine ⟨_, renderLinkOpen_markup options token, ?_, skeleton_linkTokens _ _⟩
  exact tokenize_markup (writable_linkTokens (plain_sanitizeUrl url) title) (.singleton _)

theorem renderImage_reads (options : Options) (image : ImageToken) (plain : image.Plain) :
    ∃ html, renderImage (m := m) ⟨.html, options, none⟩ (.image image) = pure html ∧
      ReadsAs html (imageTokens (sanitizeUrl (resolveSource image)) (resolveAlt image)
        (imageTitle image)) (imageSkeleton (!(imageTitle image).isEmpty)) := by
  refine ⟨_, renderImage_markup options image, ?_, skeleton_imageTokens _ _ _⟩
  exact tokenize_markup (writable_imageTokens (plain_sanitizeUrl (plain_resolveSource plain))
    (plain_resolveAlt plain) (plain_attr? plain "title")) (isChain_of_isSpaced rfl)

/-- No text of a document adds, removes or changes a tag or an attribute: what the rules write reads
as the tags of the branch taken, and each text reads as it was given. -/
theorem rendered_reads (options : Options) (unprefixed : options.idPrefix = none)
    (label : options.chartLabel.Plain) (copyLabel : options.copyLabel.Plain) (index : Nat) :
    (∀ token : FenceToken, token.content.Plain → token.info.Plain → ∃ block,
      renderFence (m := m) ⟨.html, options, none⟩ token (blockId options.idPrefix index) =
        pure block ∧
      ReadsAs block.html (fenceTokens options token (blockId options.idPrefix index))
        (fenceSkeleton options token)) ∧
    (∀ token : LinkToken, token.url.Plain → token.title.Plain → ∃ html,
      renderLinkOpen (m := m) ⟨.html, options, none⟩ token = pure html ∧
      ReadsAs html (linkTokens (sanitizeUrl token.url) token.title)
        (linkSkeleton (!token.title.isEmpty))) ∧
    (∀ image : ImageToken, image.Plain → ∃ html,
      renderImage (m := m) ⟨.html, options, none⟩ (.image image) = pure html ∧
      ReadsAs html (imageTokens (sanitizeUrl (resolveSource image)) (resolveAlt image)
        (imageTitle image)) (imageSkeleton (!(imageTitle image).isEmpty))) := by
  rw [unprefixed]
  exact ⟨renderFence_reads options label copyLabel index, renderLinkOpen_reads options,
    renderImage_reads options⟩

theorem rendered_reads_scripts :
    (∃ block, renderFence (m := Id) ⟨.html, {}, none⟩ ⟨"</div><script>", "echarts"⟩
        (blockId none 0) = pure block ∧
      ReadsAs block.html (chartTokens "Chart" "</div><script>" "code-block-0" 300) chartSkeleton) ∧
    (∃ html, renderLinkOpen (m := Id) ⟨.html, {}, none⟩ ⟨"javascript:a", "\x22 x=&#39;"⟩ =
        pure html ∧
      ReadsAs html (linkTokens "" "\x22 x=&#39;") (linkSkeleton true)) ∧
    (∃ html, renderImage (m := Id) ⟨.html, {}, none⟩ (.image ⟨"![<b>](u)", []⟩) = pure html ∧
      ReadsAs html (imageTokens "u" "<b>" "") (imageSkeleton false)) := by
  have reads := rendered_reads (m := Id) {} rfl (by decide) (by decide) 0
  have chart : fenceTokens {} ⟨"</div><script>", "echarts"⟩ (blockId none 0) =
      chartTokens "Chart" "</div><script>" "code-block-0" 300 := by decide +kernel
  have tags : fenceSkeleton {} ⟨"</div><script>", "echarts"⟩ = chartSkeleton := by decide +kernel
  have denied : sanitizeUrl "javascript:a" = "".toList := by decide +kernel
  have source : sanitizeUrl (resolveSource ⟨"![<b>](u)", []⟩) = "u".toList := by decide +kernel
  have alt : resolveAlt ⟨"![<b>](u)", []⟩ = "<b>".toList := by decide +kernel
  have fence := reads.1 ⟨"</div><script>", "echarts"⟩ (by decide) (by decide)
  have link := reads.2.1 ⟨"javascript:a", "\x22 x=&#39;"⟩ (by decide) (by decide)
  have image := reads.2.2 ⟨"![<b>](u)", []⟩ ⟨by decide, by simp⟩
  rw [chart, tags] at fence
  rw [denied] at link
  rw [source, alt] at image
  exact ⟨fence, link, image⟩

end LivePage
