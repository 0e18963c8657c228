import LivePage.Chart.Engine
import LivePage.Proofs.Render.Templates
import LivePage.Proofs.Text.Succession
import Mathlib

/-!
Chart declarations between the fence and the chart. Reading the attribute gives the body of the fence
as it stands. Decoding then resolves the references for quotes that the body itself has, so what it
reads is the body exactly if there are none. They are resolved one kind after the other, which comes
to one scan of the text, as a quote belongs to no reference.
-/

namespace LivePage
open Html

theorem resolveQuotes?_eq_none_iff (s : Text) :
    resolveQuotes? s = none ↔ hasQuoteReference s = false := by
  unfold resolveQuotes?
  split <;> simp [*]

theorem unescapeDeclaration_eq_ite (s : Text) :
    unescapeDeclaration s =
      if hasQuoteReference s then quoteReferences.foldl (fun t r => Text.replace r.1 r.2 t) s
      else s := by
  unfold unescapeDeclaration resolveQuotes?
  split <;> rfl

theorem unescapeDeclaration_of_none {s : Text} (none : hasQuoteReference s = false) :
    unescapeDeclaration s = s := by
  rw [unescapeDeclaration_eq_ite, none]
  rfl

theorem unescapeDeclaration_eq_self_iff (s : Text) :
    unescapeDeclaration s = s ↔ hasQuoteReference s = false := by
  constructor
  · intro same
    by_contra present
    rw [Bool.not_eq_false] at present
    rw [unescapeDeclaration_eq_ite, if_pos present,
      Text.foldl_replace_eq_self_iff (by decide) s] at same
    obtain ⟨r, listed, found⟩ := List.any_eq_true.1 present
    rw [same r listed] at found
    cases found
  · exact unescapeDeclaration_of_none

theorem quoteReferences_apart : Text.Apart '&' quoteReferences where
  marked := by decide
  distinct := by decide
  single := by decide
  foreign := by decide

theorem hasQuoteReference_eq_false_iff (s : Text) :
    hasQuoteReference s = false ↔ ∀ r ∈ quoteReferences, Text.contains r.1 s = false := by
  simp only [hasQuoteReference, List.any_eq_false, Bool.not_eq_true]

theorem unescapeDeclaration_scan (s : Text) :
    unescapeDeclaration s = Text.scan quoteReferences s := by
  rw [← quoteReferences_apart.foldl_replace]
  cases present : hasQuoteReference s with
  | true => rw [unescapeDeclaration_eq_ite, if_pos present]
  | false =>
      have absent := (hasQuoteReference_eq_false_iff s).1 present
      rw [unescapeDeclaration_of_none present]
      exact ((Text.foldl_replace_eq_self_iff (by decide) s).2 absent).symm

theorem unescapeDeclaration_idem (s : Text) :
    unescapeDeclaration (unescapeDeclaration s) = unescapeDeclaration s := by
  simp only [unescapeDeclaration_scan, quoteReferences_apart.scan_idem]

theorem not_infix_unescapeDeclaration (s : Text) :
    ∀ r ∈ quoteReferences, ¬ r.1 <:+: unescapeDeclaration s := by
  intro r listed found
  have settled := (unescapeDeclaration_eq_self_iff _).1 (unescapeDeclaration_idem s)
  have absent := (hasQuoteReference_eq_false_iff _).1 settled r listed
  rw [Text.contains_iff_isInfixOf.2 found] at absent
  cases absent

/-- References are resolved by one scan, which writes a quote for each and copies every other
character. Wherever a reference stands, its quote stands between what the text before it and the
text behind it resolve to. No reference is left, so resolving a second time changes nothing, and no
new text is made exactly if the scan leaves the text as it is. -/
theorem unescapeDeclaration_eq_scan (s : Text) :
    let references : List (Text × Text) := [("&quot;", "\""), ("&#39;", "'"), ("&#x27;", "'")]
    unescapeDeclaration s = Text.scan references s ∧
    (∀ reference ∈ references, ∀ before after : Text,
      unescapeDeclaration (before ++ (reference.1 ++ after)) =
        unescapeDeclaration before ++ (reference.2 ++ unescapeDeclaration after)) ∧
    unescapeDeclaration (unescapeDeclaration s) = unescapeDeclaration s ∧
    (∀ reference ∈ references, ¬ reference.1 <:+: unescapeDeclaration s) ∧
    (resolveQuotes? s = none ↔ Text.scan references s = s) := by
  intro references
  refine ⟨unescapeDeclaration_scan s, ?_, unescapeDeclaration_idem s,
    not_infix_unescapeDeclaration s, ?_⟩
  · intro reference listed before after
    simp only [unescapeDeclaration_scan]
    exact quoteReferences_apart.scan_append_form listed before after
  · calc resolveQuotes? s = none
      _ ↔ hasQuoteReference s = false := resolveQuotes?_eq_none_iff s
      _ ↔ unescapeDeclaration s = s := (unescapeDeclaration_eq_self_iff s).symm
      _ ↔ Text.scan quoteReferences s = s := by rw [unescapeDeclaration_scan]

/-- A reference that another one parts is none, and stays none once the quote of that one is in. -/
theorem unescapeDeclaration_eq_scan_parted :
    let s : Text := "&#3&quot;9;&#x2&#39;7;&&amp;quot;"
    unescapeDeclaration s = "&#3\"9;&#x2'7;&&amp;quot;".toList ∧
      ("&#39;".toList, "'".toList) ∈ quoteReferences ∧
      unescapeDeclaration s = unescapeDeclaration "&#3&quot;9;&#x2" ++
        ("'" ++ unescapeDeclaration "7;&&amp;quot;") ∧
      ¬ "&#39;".toList <:+: unescapeDeclaration s ∧
      resolveQuotes? s ≠ none := by
  intro s
  obtain ⟨scanned, replaced, _, gone, kept⟩ := unescapeDeclaration_eq_scan s
  have listed : ("&#39;".toList, "'".toList) ∈ quoteReferences := by decide
  refine ⟨scanned.trans (by decide +kernel), listed, ?_, gone _ listed, ?_⟩
  · exact replaced _ listed "&#3&quot;9;&#x2" "7;&&amp;quot;"
  · exact fun none => absurd (kept.1 none) (by decide +kernel)

theorem isAsciiDigit_of_isBlank {c : Char} (blank : Text.isBlank c = true) :
    Text.isAsciiDigit c = false := by
  by_contra digit
  simp only [Text.isAsciiDigit, Bool.not_eq_false, Bool.and_eq_true, decide_eq_true_eq,
    Char.le_def, UInt32.le_iff_toNat_le] at digit
  obtain ⟨low, high⟩ := digit
  change 48 ≤ c.toNat at low
  change c.toNat ≤ 57 at high
  simp only [Text.isBlank, Bool.or_eq_true, Bool.and_eq_true, decide_eq_true_eq] at blank
  omega

theorem readValue_of_allBlank {s : Text} (blank : Text.isAllBlank s = true) (fuel depth : Nat) :
    ∃ f rest, Json.readValue (fuel + 1) depth s = (.broken f, rest) := by
  have skipped : ∀ c ∈ Json.skipBlank s, Text.isBlank c = true := by
    intro c member
    exact List.all_eq_true.1 blank c ((List.dropWhile_sublist _).subset member)
  rw [Json.readValue]
  cases shown : Json.skipBlank s with
  | nil => exact ⟨_, _, rfl⟩
  | cons c r =>
      have first := skipped c (shown ▸ List.mem_cons_self)
      have other (d : Char) (t : Text) (no : Text.isBlank d = false) : c :: r ≠ d :: t := by
        rintro ⟨⟩
        rw [first] at no
        cases no
      have digit := isAsciiDigit_of_isBlank first
      simp only
      split
      · next h => exact absurd h (List.cons_ne_nil c r)
      · next h => exact absurd h (other 'n' _ (by decide))
      · next h => exact absurd h (other 't' _ (by decide))
      · next h => exact absurd h (other 'f' _ (by decide))
      · next h => exact absurd h (other '-' _ (by decide))
      · next h => exact absurd h (other '\x22' _ (by decide))
      · next h => exact absurd h (other '[' _ (by decide))
      · next h => exact absurd h (other '\x7b' _ (by decide))
      · next h =>
          cases h
          rw [digit]
          exact ⟨_, _, rfl⟩

theorem parseObject_of_allBlank {s : Text} (blank : Text.isAllBlank s = true) (d : Declaration) :
    Json.parseObject s ≠ .ok d := by
  obtain ⟨f, rest, read⟩ := readValue_of_allBlank blank (3 * s.length) Json.depthLimit
  intro parsed
  rw [Json.parseObject, Json.draft, Json.stepLimit, read] at parsed
  cases parsed

/-- A declaration is decoded to the fields of the object that its text is once references are
resolved. -/
theorem decodeDeclaration_ok_iff (raw : Text) (d : Declaration) :
    decodeDeclaration raw = .ok d ↔ Json.parseObject (unescapeDeclaration raw) = .ok d := by
  unfold decodeDeclaration
  simp only
  cases blank : Text.isAllBlank (unescapeDeclaration raw) with
  | true =>
      rw [if_pos rfl]
      constructor
      · intro decoded
        cases decoded
      · intro parsed
        exact absurd parsed (parseObject_of_allBlank blank d)
  | false =>
      rw [if_neg Bool.false_ne_true]
      cases Json.parseObject (unescapeDeclaration raw) with
      | ok fields => simp [Except.mapError]
      | error e => simp [Except.mapError]

/-- The declaration that the first element with one carries. -/
def optionValue? (tokens : List Html.Token) : Option Text :=
  tokens.findSome? fun t => match t with
    | .openTag tag => tag.attributes.get? optionAttribute
    | _ => none

theorem optionValue?_chartTokens (label content id : Text) (height : Nat) :
    optionValue? (chartTokens label content id height) = some content := by
  cases label <;> rfl

variable {m : Type → Type} [Monad m] [LawfulMonad m]

theorem optionValue?_renderFence (options : Options) (label : options.chartLabel.Plain)
    (lead : Option Text) (stable : ∀ s ∈ lead, Unescaped s ∧ s.Plain) (index : Nat)
    (token : FenceToken) (chart : isChartFence options token = true)
    (content : token.content.Plain) :
    ∃ block, renderFence (m := m) ⟨.html, options, none⟩ token (blockId lead index) = pure block ∧
      optionValue? (tokenize block.html) = some token.content := by
  have plain := plain_blockId (fun s member => (stable s member).2) index
  refine ⟨_, renderFence_markup options token
    (unescaped_blockId (fun s member => (stable s member).1) index), ?_⟩
  have tokens : fenceTokens options token (blockId lead index) =
      chartTokens options.chartLabel token.content (blockId lead index) options.chartHeight :=
    if_pos chart
  have read := tokenize_markup (writable_chartTokens label content plain options.chartHeight)
    (apart_chartTokens ..)
  rw [tokens]
  exact (congrArg optionValue? read).trans (optionValue?_chartTokens ..)

/-- What is read from the attribute is the body of the fence, and resolving references leaves that
as it is exactly if it has no reference for a quote. Without one, a chart is decoded to an object
exactly if the body is the text of that object; with one, the text is the body with its references
resolved. -/
theorem declaration_of_fence (options : Options)
    (lead : ∀ s ∈ options.idPrefix, Unescaped s ∧ s.Plain) (label : options.chartLabel.Plain)
    (index : Nat) (token : FenceToken) (chart : isChartFence options token = true)
    (content : token.content.Plain) :
    ∃ block, renderFence (m := m) ⟨.html, options, none⟩ token
        (blockId options.idPrefix index) = pure block ∧
      ∃ raw, optionValue? (tokenize block.html) = some raw ∧ raw = token.content ∧
        (unescapeDeclaration raw = token.content ↔ hasQuoteReference token.content = false) ∧
        (hasQuoteReference token.content = false → ∀ d,
          decodeDeclaration raw = .ok d ↔ Json.parseObject token.content = .ok d) ∧
        ∀ d, decodeDeclaration raw = .ok d ↔
          Json.parseObject (unescapeDeclaration token.content) = .ok d := by
  obtain ⟨block, rendered, value⟩ :=
    optionValue?_renderFence (m := m) options label options.idPrefix lead index token chart content
  refine ⟨block, rendered, token.content, value, rfl, unescapeDeclaration_eq_self_iff _, ?_,
    decodeDeclaration_ok_iff _⟩
  intro none d
  rw [decodeDeclaration_ok_iff, unescapeDeclaration_of_none none]

theorem declaration_of_fence_series : ∃ block,
    renderFence (m := Id) ⟨.html, {}, none⟩ ⟨"\x7b\"series\":[]\x7d", "echarts"⟩
      (blockId none 1) = pure block ∧
    ∃ raw, optionValue? (tokenize block.html) = some raw ∧
      decodeDeclaration raw = .ok [("series", .array [])] := by
  obtain ⟨block, rendered, raw, value, _, _, decoded, _⟩ :=
    declaration_of_fence (m := Id) {} nofun (by decide) 1 ⟨"\x7b\"series\":[]\x7d", "echarts"⟩
      (by decide +kernel) (by decide)
  exact ⟨block, rendered, raw, value, (decoded (by decide +kernel) _).2 (by cbv)⟩

/-- A body with a reference in a string is the text of an object, but not of the one that is
decoded: the reference becomes a quote, which ends the string. -/
theorem declaration_of_fence_quote : ∃ block raw,
    renderFence (m := Id) ⟨.html, {}, none⟩ ⟨"\x7b\"t\":\"&quot;\"\x7d", "echarts"⟩
      (blockId none 1) = pure block ∧
    optionValue? (tokenize block.html) = some raw ∧
    unescapeDeclaration raw ≠ "\x7b\"t\":\"&quot;\"\x7d".toList ∧
    Json.parseObject "\x7b\"t\":\"&quot;\"\x7d" = .ok [("t", .string "&quot;")] ∧
    ∀ d, decodeDeclaration raw ≠ .ok d := by
  obtain ⟨block, rendered, value⟩ := optionValue?_renderFence (m := Id) {} (by decide) none nofun 1
    ⟨"\x7b\"t\":\"&quot;\"\x7d", "echarts"⟩ (by decide +kernel) (by decide)
  have broken : (Json.parseObject (unescapeDeclaration "\x7b\"t\":\"&quot;\"\x7d")).isOk = false := by
    cbv
  refine ⟨block, _, rendered, value, by decide +kernel, by cbv, ?_⟩
  intro d decoded
  rw [(decodeDeclaration_ok_iff _ d).1 decoded] at broken
  cases broken

end LivePage
