import LivePage.Proofs.Html.Scripts
import LivePage.Proofs.Html.Spelling

/-!
Texts with markup strewn over them, in whatever order. Nothing is asked of how the tags match: each
tag is read as it is spelled wherever it stands, since the text between does not begin markup, and
comments end where they are meant to. So a page that is put together from such parts has no other
start tags than theirs. A script may be read on behind its own end tag, but it ends with an end tag
of the text all the same, so that what follows is such a text again.
-/

namespace LivePage.Html

/-- Text that ends no comment and begins no markup. -/
abbrev IsCommentText (s : Text) : Prop := ∀ c ∈ s, c ∉ ['-', '<', '>', '\r']

/-- Texts made of start tags of a kind, end tags, comments without hyphens or brackets in them,
scripts with start tags of another kind and without end tags in them, and text that does not begin
markup. -/
inductive Strewn (ok held : SpelledTag → Prop) : Text → Prop
  | nil : Strewn ok held []
  | char {c : Char} {s : Text} (plain : c ≠ '<') (rest : Strewn ok held s) : Strewn ok held (c :: s)
  | openTag {tag : SpelledTag} {s : Text} (valid : tag.Valid) (known : ok tag)
      (rest : Strewn ok held s) : Strewn ok held (tag.markup ++ s)
  | closeTag {name s : Text} (valid : isMarkupName name = true) (rest : Strewn ok held s) :
      Strewn ok held (tokenMarkup (.closeTag name) ++ s)
  | remark {s t : Text} (simple : IsCommentText s) (rest : Strewn ok held t) :
      Strewn ok held ("<!--".toList ++ (s ++ ("-->".toList ++ t)))
  | script {tag : SpelledTag} {run s : Text} (valid : tag.Valid) (known : held tag)
      (free : Text.contains "</" run = false) (unbroken : '\r' ∉ run) (rest : Strewn ok held s) :
      Strewn ok held (tag.markup ++ (run ++ (scriptEnd ++ s)))

namespace Strewn

variable {ok held : SpelledTag → Prop} {s t : Text}

theorem append (first : Strewn ok held s) (second : Strewn ok held t) :
    Strewn ok held (s ++ t) := by
  induction first with
  | nil => exact second
  | char plain _ ih => exact .char plain ih
  | openTag valid known _ ih =>
      rw [List.append_assoc]
      exact .openTag valid known ih
  | closeTag valid _ ih =>
      rw [List.append_assoc]
      exact .closeTag valid ih
  | remark simple _ ih =>
      simp only [List.append_assoc]
      exact .remark simple ih
  | script valid known free unbroken _ ih =>
      simp only [List.append_assoc]
      exact .script valid known free unbroken ih

theorem text (plain : '<' ∉ s) : Strewn ok held s := by
  induction s with
  | nil => exact .nil
  | cons c s ih =>
      rw [List.mem_cons, not_or] at plain
      exact .char (Ne.symm plain.1) (ih plain.2)

theorem opened {tag : SpelledTag} (valid : tag.Valid) (known : ok tag) :
    Strewn ok held tag.markup :=
  List.append_nil tag.markup ▸ .openTag valid known .nil

theorem closed {name : Text} (valid : isMarkupName name = true) :
    Strewn ok held (tokenMarkup (.closeTag name)) :=
  List.append_nil (tokenMarkup (.closeTag name)) ▸ .closeTag valid .nil

theorem comment (simple : IsCommentText s) :
    Strewn ok held ("<!--".toList ++ (s ++ "-->".toList)) :=
  .remark simple .nil

theorem around {tag : SpelledTag} (valid : tag.Valid) (known : ok tag) (inner : Strewn ok held s) :
    Strewn ok held (tag.around s) :=
  .openTag valid known (inner.append (.closed valid.name))

theorem weaken {ok' held' : SpelledTag → Prop} (weaker : ∀ tag, tag.Valid → ok tag → ok' tag)
    (weaker' : ∀ tag, tag.Valid → held tag → held' tag) (strewn : Strewn ok held s) :
    Strewn ok' held' s := by
  induction strewn with
  | nil => exact .nil
  | char plain _ ih => exact .char plain ih
  | openTag valid known _ ih => exact .openTag valid (weaker _ valid known) ih
  | closeTag valid _ ih => exact .closeTag valid ih
  | remark simple _ ih => exact .remark simple ih
  | script valid known free unbroken _ ih =>
      exact .script valid (weaker' _ valid known) free unbroken ih

theorem mono {ok' held' : SpelledTag → Prop} (weaker : ∀ tag, ok tag → ok' tag)
    (weaker' : ∀ tag, held tag → held' tag) (strewn : Strewn ok held s) : Strewn ok' held' s :=
  strewn.weaken (fun tag _ => weaker tag) fun tag _ => weaker' tag

theorem valid (strewn : Strewn ok held s) :
    Strewn (fun tag => tag.Valid ∧ ok tag) (fun tag => tag.Valid ∧ held tag) s :=
  strewn.weaken (fun _ => And.intro) fun _ => And.intro

/-- The first character may be left out unless it begins markup. -/
theorem tail {c : Char} (strewn : Strewn ok held (c :: s)) (plain : c ≠ '<') :
    Strewn ok held s := by
  generalize whole : c :: s = t at strewn
  cases strewn with
  | nil => cases whole
  | char _ rest =>
      cases whole
      exact rest
  | openTag | closeTag | remark | script => exact absurd (List.cons.inj whole).1 plain

theorem dropWhile {p : Char → Bool} (bracket : p '<' = false) (strewn : Strewn ok held s) :
    Strewn ok held (s.dropWhile p) := by
  induction s with
  | nil => exact strewn
  | cons c s ih =>
      rw [List.dropWhile_cons]
      split
      · next passed =>
          refine ih (strewn.tail ?_)
          rintro rfl
          rw [bracket] at passed
          cases passed
      · exact strewn

end Strewn

/-- The tags of a kind, with one form of line breaks. -/
def Unified (ok : SpelledTag → Prop) (tag : SpelledTag) : Prop := ∃ t, ok t ∧ tag = t.unified

theorem Strewn.unified {ok held : SpelledTag → Prop} {s : Text} (strewn : Strewn ok held s) :
    Strewn (Unified ok) (Unified held) (unifyBreaks s) := by
  induction strewn with
  | nil => exact .nil
  | @char c s plain _ ih =>
      by_cases other : c = '\r'
      · subst other
        by_cases feed : s.head? = some '\n'
        · obtain ⟨r, rfl⟩ : ∃ r, s = '\n' :: r := by
            cases s with
            | nil => cases feed
            | cons d r => exact ⟨r, by rw [Option.some.inj feed]⟩
          rw [unifyBreaks_cons (by decide)] at ih
          rw [unifyBreaks]
          exact ih
        · rw [unifyBreaks_return feed]
          exact .char (by decide) ih
      · rw [unifyBreaks_cons other]
        exact .char plain ih
  | openTag valid known _ ih =>
      rw [unifyBreaks_spelledTag valid]
      exact .openTag valid.unified ⟨_, known, rfl⟩ ih
  | closeTag valid _ ih =>
      rw [unifyBreaks_closeTag valid]
      exact .closeTag valid ih
  | @remark s _ simple _ ih =>
      have inside : '\r' ∉ s := fun member => simple '\r' member (by decide)
      rw [unifyBreaks_append (by decide), unifyBreaks_append inside, unifyBreaks_append (by decide)]
      exact .remark simple ih
  | script valid known free unbroken _ ih =>
      rw [unifyBreaks_spelledTag valid, unifyBreaks_append unbroken,
        unifyBreaks_append (s := scriptEnd) (by decide)]
      exact .script valid.unified ⟨_, known, rfl⟩ free unbroken ih

theorem Strewn.lexed {ok held : SpelledTag → Prop} {s : Text} (strewn : Strewn ok held s) :
    Strewn (Unified ok) (Unified held) (lexedText s) := by
  unfold lexedText
  split
  · exact (strewn.tail (by decide)).unified
  · exact strewn.unified

theorem after?_cons_of_ne {c d : Char} (other : c ≠ d) (lead s : Text) :
    Text.after? (c :: lead) (d :: s) = none := by
  rw [Text.after?, if_neg other]

theorem commentBody_simple {s : Text} (simple : IsCommentText s) (seen rest : Text) :
    commentBody seen (s ++ ("-->".toList ++ rest)) = (seen.reverse ++ s, rest) := by
  induction s generalizing seen with
  | nil =>
      rw [List.append_nil]
      rfl
  | cons c s ih =>
      have other : '-' ≠ c := by
        rintro rfl
        exact simple '-' List.mem_cons_self (by decide)
      have later := ih (fun d member => simple d (List.mem_cons_of_mem c member)) (c :: seen)
      rw [List.cons_append, commentBody]
      rw [show Text.after? "-->" (c :: (s ++ ("-->".toList ++ rest))) = none from
          after?_cons_of_ne other _ _,
        show Text.after? "--!>" (c :: (s ++ ("-->".toList ++ rest))) = none from
          after?_cons_of_ne other _ _]
      simp only
      rw [later, List.reverse_cons, List.append_assoc, List.singleton_append]

theorem nextToken_comment (foreign : Bool) {s : Text} (simple : IsCommentText s) (rest : Text) :
    nextToken .markup foreign ("<!--".toList ++ (s ++ ("-->".toList ++ rest))) =
      (some (.comment (replaceNull s)), rest) := by
  have body := commentBody_simple simple [] rest
  rw [List.reverse_nil, List.nil_append] at body
  have content : readComment (s ++ ("-->".toList ++ rest)) = (s, rest) := by
    cases s with
    | nil => rfl
    | cons c s =>
        have other := simple c List.mem_cons_self
        unfold readComment
        split
        · next h => exact absurd ((List.cons.inj h).1 ▸ other) (by decide)
        · next h => exact absurd ((List.cons.inj h).1 ▸ other) (by decide)
        · exact body
  change nextToken .markup foreign ('<' :: '!' :: '-' :: '-' :: (s ++ ("-->".toList ++ rest))) = _
  simp only [nextToken, readMarkup, readDeclaration]
  rw [show Text.after? "--" ('-' :: '-' :: (s ++ ("-->".toList ++ rest))) =
    some (s ++ ("-->".toList ++ rest)) from rfl]
  simp only [content]

theorem isCommentText_replaceNull {s : Text} (simple : IsCommentText s) :
    IsCommentText (replaceNull s) := by
  intro c member
  obtain ⟨d, listed, shown⟩ := List.mem_map.1 member
  split at shown
  · rw [← shown]
    decide
  · exact shown ▸ simple d listed

def Token.Stems (ok : SpelledTag → Prop) : Token → Prop
  | .openTag tag => ∃ t : SpelledTag, ok t ∧ tag = t.resolved
  | .closeTag name => isMarkupName name = true
  | .text _ | .null => True
  | .comment s => IsCommentText s
  | .doctype _ | .ending => False

theorem nextToken_plain (foreign : Bool) {c : Char} (bracket : c ≠ '<') (null : c ≠ '\x00')
    (s : Text) : nextToken .markup foreign (c :: s) =
      (some (.text (decodeText ((c :: s).takeWhile isTextCharacter))),
        (c :: s).dropWhile isTextCharacter) := by
  unfold nextToken
  split
  · next same => exact absurd (List.cons.inj same).1 bracket
  · next same => exact absurd (List.cons.inj same).1 null
  · rfl
  all_goals contradiction

namespace Strewn

variable {ok held : SpelledTag → Prop} {s : Text}

/-- The text begins with a token of its own and goes on as such a text, or a script begins. -/
theorem nextToken_cases (strewn : Strewn ok held s) (present : s ≠ []) (foreign : Bool) :
    (∃ token rest, nextToken .markup foreign s = (some token, rest) ∧ token.Stems ok ∧
      Strewn ok held rest) ∨
    ∃ tag run rest, held tag ∧ nextToken .markup foreign s =
        (some (.openTag tag.resolved), run ++ (scriptEnd ++ rest)) ∧
      Text.contains "</" run = false ∧ Strewn ok held rest := by
  have whole := strewn
  cases strewn with
  | nil => exact absurd rfl present
  | @char c s plain rest =>
      refine .inl ?_
      by_cases null : c = '\x00'
      · subst null
        exact ⟨.null, s, rfl, trivial, rest⟩
      · exact ⟨_, _, nextToken_plain foreign plain null s, trivial, whole.dropWhile (by decide)⟩
  | @openTag tag s valid known rest =>
      exact .inl ⟨_, _, nextToken_markup foreign valid s, ⟨tag, known, rfl⟩, rest⟩
  | @closeTag name s valid rest =>
      exact .inl ⟨_, _, nextToken_closeTag foreign valid s, valid, rest⟩
  | @remark s t simple rest =>
      exact .inl ⟨_, _, nextToken_comment foreign simple t, isCommentText_replaceNull simple, rest⟩
  | @script tag run s valid known free _ rest =>
      exact .inr ⟨tag, run, s, known, nextToken_markup foreign valid _, free, rest⟩

theorem tokensOf_stems (s : Text) (strewn : Strewn ok (fun _ => False) s) :
    ∀ token ∈ tokensOf s, token.Stems ok := by
  cases s with
  | nil =>
      rw [tokensOf_nil]
      exact List.forall_mem_nil _
  | cons c s =>
      have present : c :: s ≠ [] := List.cons_ne_nil c s
      rcases strewn.nextToken_cases present false with ⟨token, rest, read, stems, more⟩ | script
      · have shorter : rest.length < (c :: s).length := by
          have := nextToken_shorter false c s
          rwa [read] at this
        rw [tokensOf_of_nextToken present read]
        exact List.forall_mem_cons.2 ⟨stems, tokensOf_stems rest more⟩
      · obtain ⟨_, _, _, none, _⟩ := script
        exact none.elim
termination_by s.length

theorem stems (strewn : Strewn ok (fun _ => False) s) :
    ∀ token ∈ tokenize s, token.Stems (Unified ok) := by
  have without (tag : SpelledTag) (script : Unified (fun _ => False) tag) : False := by
    obtain ⟨_, none, _⟩ := script
    exact none
  exact tokensOf_stems _ (strewn.lexed.mono (fun _ => id) without)

end Strewn

/-- A tag without angle brackets in its values. -/
def SpelledTag.Unbracketed (tag : SpelledTag) : Prop :=
  ∀ a ∈ tag.attributes, ∀ value ∈ a.value, '<' ∉ value

theorem not_mem_markupName {name : Text} (valid : isMarkupName name = true) {d : Char}
    (other : isMarkupChar d = false) : d ∉ name := by
  obtain ⟨_, _, _, _, chars⟩ := isMarkupName_cons valid
  exact fun member => markupChar_ne (chars d member) other rfl

theorem SpelledTag.Unbracketed.markup_tail {tag : SpelledTag} (plain : tag.Unbracketed)
    (valid : tag.Valid) :
    '<' ∉ tag.name ++ (tag.attributes.flatMap Spelled.markup ++ ending tag.closes) := by
  have name := not_mem_markupName valid.name (d := '<') (by decide)
  have ending : '<' ∉ ending tag.closes := by cases tag.closes <;> decide
  have attributes : '<' ∉ tag.attributes.flatMap Spelled.markup := by
    intro member
    obtain ⟨a, listed, inside⟩ := List.mem_flatMap.1 member
    have own := not_mem_markupName (valid.attributes a listed).1 (d := '<') (by decide)
    have value := plain a listed
    obtain ⟨aname, avalue⟩ := a
    cases avalue with
    | none => simp [Spelled.markup] at inside; exact own inside
    | some v =>
        have absent := value v rfl
        simp [Spelled.markup, attr, own, absent] at inside
  simp [name, ending, attributes]

/-- An end tag in a text that begins with a piece of markup begins with the piece or behind it. -/
theorem endTag_behind {body s front t : Text} (free : '<' ∉ body)
    (split : '<' :: body ++ s = front ++ '<' :: '/' :: t) :
    front = [] ∨ ∃ between, s = between ++ '<' :: '/' :: t := by
  rcases List.append_eq_append_iff.1 split with ⟨between, _, found⟩ | ⟨more, found, behind⟩
  · exact .inr ⟨between, found⟩
  · cases front with
    | nil => exact .inl rfl
    | cons c front =>
        obtain ⟨rfl, rest⟩ := List.cons.inj found
        cases more with
        | nil => exact .inr ⟨[], behind.symm⟩
        | cons d more =>
            obtain ⟨rfl, _⟩ := List.cons.inj behind
            exact absurd (rest ▸ List.mem_append_right front List.mem_cons_self) free

/-- No end tag begins in a text without one, even if an angle bracket follows. -/
theorem endTag_behind_free {run r front t : Text} (free : Text.contains "</" run = false)
    (split : run ++ '<' :: r = front ++ '<' :: '/' :: t) :
    ∃ between, '<' :: r = between ++ '<' :: '/' :: t := by
  induction run generalizing front with
  | nil => exact ⟨front, split⟩
  | cons c run ih =>
      rw [Text.contains, Bool.or_eq_false_iff] at free
      cases front with
      | cons d front => exact ih free.2 (List.cons.inj split).2
      | nil =>
          obtain ⟨rfl, rest⟩ := List.cons.inj split
          cases run with
          | nil => exact absurd (List.cons.inj rest).1 (by decide)
          | cons d run =>
              obtain ⟨rfl, _⟩ := List.cons.inj rest
              exact absurd free.1 (Bool.eq_false_iff.not.2 (not_not_intro rfl))

namespace Strewn

variable {ok held : SpelledTag → Prop} {s : Text}

/-- Every end tag in the text is one of its parts, with such a text behind. -/
def EndsWell (ok held : SpelledTag → Prop) (s : Text) : Prop :=
  ∀ front t, s = front ++ '<' :: '/' :: t → Strewn ok held ('<' :: '/' :: t)

theorem EndsWell.suffix {t : Text} (ends : EndsWell ok held s) (behind : t <:+ s) :
    EndsWell ok held t := by
  obtain ⟨before, rfl⟩ := behind
  rintro front r rfl
  exact ends (before ++ front) r (List.append_assoc ..).symm

theorem EndsWell.closeTag {name : Text} (rest : EndsWell ok held s)
    (valid : isMarkupName name = true) (strewn : Strewn ok held s) :
    EndsWell ok held (tokenMarkup (.closeTag name) ++ s) := by
  intro front t split
  have free : '<' ∉ '/' :: (name ++ ['>']) := by
    have absent := not_mem_markupName valid (d := '<') (by decide)
    simp [absent]
  have markup : tokenMarkup (.closeTag name) = '<' :: '/' :: (name ++ ['>']) := by
    simp [tokenMarkup]
  rw [markup] at split
  rcases endTag_behind free split with rfl | ⟨between, rfl⟩
  · rw [List.nil_append, ← markup] at split
    exact split ▸ .closeTag valid strewn
  · exact rest between t rfl

theorem EndsWell.scriptRun {run : Text} (rest : EndsWell ok held s)
    (free : Text.contains "</" run = false) (strewn : Strewn ok held s) :
    EndsWell ok held (run ++ (scriptEnd ++ s)) := by
  intro front t split
  obtain ⟨between, behind⟩ := endTag_behind_free free split
  have valid : isMarkupName "script" = true := by decide
  exact rest.closeTag valid strewn between t behind

theorem endTag_behind_tag {tag : SpelledTag} {front t : Text} (valid : tag.Valid)
    (plain : tag.Unbracketed) (split : tag.markup ++ s = front ++ '<' :: '/' :: t) :
    ∃ between, s = between ++ '<' :: '/' :: t := by
  rcases endTag_behind (plain.markup_tail valid) split with rfl | between
  · obtain ⟨c, more, name, letter, _⟩ := isMarkupName_cons valid.name
    rw [SpelledTag.markup, name] at split
    have first : c = '/' := (List.cons.inj (List.cons.inj split).2).1
    rw [first] at letter
    exact absurd letter (by decide)
  · exact between

/-- Without angle brackets in the values of tags an end tag can only begin as a part of the text. -/
theorem endsWell (plain : ∀ tag, ok tag ∨ held tag → tag.Unbracketed) (strewn : Strewn ok held s) :
    EndsWell ok held s := by
  induction strewn with
  | nil =>
      intro front t split
      exact absurd split (by simp)
  | @char c s other _ ih =>
      intro front t split
      cases front with
      | nil => exact absurd (List.cons.inj split).1 other
      | cons d front => exact ih front t (List.cons.inj split).2
  | openTag valid known _ ih =>
      intro front t split
      obtain ⟨between, rfl⟩ := endTag_behind_tag valid (plain _ (.inl known)) split
      exact ih between t rfl
  | closeTag valid rest ih => exact ih.closeTag valid rest
  | @remark s r simple _ ih =>
      intro front t split
      have free : '<' ∉ "!--".toList ++ (s ++ "-->".toList) := by
        have inside : '<' ∉ s := fun member => simple '<' member (by decide)
        simp [inside]
      have whole : "<!--".toList ++ (s ++ ("-->".toList ++ r)) =
          '<' :: ("!--".toList ++ (s ++ "-->".toList)) ++ r := by simp
      rw [whole] at split
      rcases endTag_behind free split with rfl | ⟨between, rfl⟩
      · exact absurd (List.cons.inj (List.cons.inj split).2).1 (by decide)
      · exact ih between t rfl
  | @script tag run s valid known free _ rest ih =>
      intro front t split
      obtain ⟨between, behind⟩ := endTag_behind_tag valid (plain _ (.inr known)) split
      exact ih.scriptRun free rest between t behind

theorem readEndTag_of_strewn {t : Text} (strewn : Strewn ok held ('<' :: '/' :: t)) :
    ∃ name rest, readEndTag t = (some (.closeTag name), rest) ∧ Strewn ok held rest := by
  generalize whole : '<' :: '/' :: t = s at strewn
  cases strewn with
  | nil => cases whole
  | char plain _ => exact absurd (List.cons.inj whole).1.symm plain
  | @openTag tag s valid | @script tag run s valid =>
      obtain ⟨c, more, name, letter, _⟩ := isMarkupName_cons valid.name
      rw [SpelledTag.markup, name] at whole
      have first : '/' = c := (List.cons.inj (List.cons.inj whole).2).1
      rw [← first] at letter
      exact absurd letter (by decide)
  | @closeTag name s valid rest =>
      have inner : t = name ++ '>' :: s := by simpa [tokenMarkup] using whole
      have read := readTag_markup valid [] (List.forall_mem_nil _) .nil s
      have tag : readTag (name ++ '>' :: s) = some (⟨name, [], false⟩, s) := by simpa using read
      refine ⟨name, s, ?_, rest⟩
      rw [inner, readEndTag, tag]
  | remark => exact absurd (List.cons.inj (List.cons.inj whole).2).1 (by decide)

theorem splitScript_behind (state : ScriptState) (s : Text) :
    (splitScript state s).1 ++ (splitScript state s).2 = s ∧
      ((splitScript state s).2 = [] ∨ ∃ t, (splitScript state s).2 = '<' :: '/' :: t) := by
  induction s generalizing state with
  | nil => exact ⟨rfl, .inl rfl⟩
  | cons c s ih =>
      rw [splitScript]
      split
      · next ends =>
          simp only [Bool.and_eq_true, decide_eq_true_eq] at ends
          obtain ⟨⟨rfl, _⟩, begins⟩ := ends
          refine ⟨rfl, .inr ?_⟩
          unfold beginsEndTag at begins
          split at begins
          · exact ⟨_, rfl⟩
          · cases begins
      · obtain ⟨whole, behind⟩ := ih (state.next c s)
        exact ⟨congrArg (c :: ·) whole, behind⟩

/-- In a script text is read up to an end tag, and then that, behind which such a text follows. -/
theorem EndsWell.nextToken_cases (ends : EndsWell ok held s) (present : s ≠ []) (foreign : Bool) :
    (∃ run rest, nextToken .script foreign s = (some (.text run), rest) ∧ EndsWell ok held rest) ∨
    ∃ name rest, nextToken .script foreign s = (some (.closeTag name), rest) ∧
      Strewn ok held rest := by
  obtain ⟨whole, behind⟩ := splitScript_behind .plain s
  have read : nextToken .script foreign s = textOrEndTag replaceNull (splitScript .plain s) := by
    cases s <;> rfl
  rw [read]
  generalize splitScript .plain s = parts at whole behind
  obtain ⟨before, after⟩ := parts
  cases before with
  | cons c before => exact .inl ⟨_, after, rfl, ends.suffix ⟨c :: before, whole⟩⟩
  | nil =>
      have same : after = s := whole
      rcases behind with none | ⟨t, begins⟩
      · exact absurd (same.symm.trans none) present
      · have begins : after = '<' :: '/' :: t := begins
        have strewn := ends [] t (same.symm.trans begins)
        obtain ⟨name, rest, read, more⟩ := readEndTag_of_strewn strewn
        rw [begins]
        exact .inr ⟨name, rest, read, more⟩

end Strewn
end LivePage.Html
