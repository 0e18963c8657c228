import LivePage.Html.Lexer
import Mathlib.Tactic.IntervalCases
import Mathlib.Tactic.SplitIfs

/-!
Where a script ends. A text without end tags is read up to the end tag behind it, unless it hides
that: in a comment that it opens a script begins, and the comment is still open at the end of the
text. Then the end tag is taken for that of the inner script, and reading goes on behind it.
-/

namespace LivePage.Html

/-- Whether the start tag of a script begins somewhere. -/
def hasScriptTag : Text → Bool
  | [] => false
  | c :: s => (c = '<' && beginsScript s) || hasScriptTag s

/-- Whether somewhere a comment is opened in which a script begins and which is not closed. -/
def hidesEnd : Text → Bool
  | [] => false
  | c :: s =>
      (c = '<' && Text.startsWith s "!--" && hasScriptTag s && !Text.contains "-->" s) || hidesEnd s

/-- Whether a comment is closed in a text that stands behind so many hyphens. -/
def closesAfter (hyphens : Nat) (s : Text) : Bool :=
  Text.contains "-->" (List.replicate hyphens '-' ++ s)

namespace ScriptState

/-- Whether a text that is read from this state on hides the end tag behind it. -/
def hides : ScriptState → Text → Bool
  | plain, s => hidesEnd s
  | opening 1, s => (hasScriptTag s && !closesAfter 1 s) || hidesEnd s
  | opening _, s => (hasScriptTag s && !closesAfter 0 s) || hidesEnd s
  | commented hyphens, s => (hasScriptTag s && !closesAfter hyphens s) || hidesEnd s
  | nested hyphens, s => !closesAfter hyphens s || hidesEnd s

def Fits : ScriptState → Text → Prop
  | plain, _ => True
  | opening 3, s => ∃ r, s = '!' :: '-' :: '-' :: r
  | opening 2, s => ∃ r, s = '-' :: '-' :: r
  | opening 1, s => ∃ r, s = '-' :: r
  | opening _, _ => False
  | commented hyphens, _ | nested hyphens, _ => hyphens ≤ 2

/-- The state after a text with `follow` behind it. -/
def after (follow : Text) : ScriptState → Text → ScriptState
  | state, [] => state
  | state, c :: s => after follow (state.next c (s ++ follow)) s

end ScriptState

theorem isPrefixOf_append_bracket {piece : Text} (free : '<' ∉ piece) (s r : Text) :
    piece.isPrefixOf (s ++ '<' :: r) = piece.isPrefixOf s := by
  induction piece generalizing s with
  | nil => rfl
  | cons d piece ih =>
      rw [List.mem_cons, not_or] at free
      cases s with
      | nil =>
          have other : (d == '<') = false := beq_eq_false_iff_ne.2 (Ne.symm free.1)
          simp [List.isPrefixOf, other]
      | cons c s => simp [List.isPrefixOf, ih free.2]

theorem startsWithFold_eq (s lead : Text) :
    startsWithFold s lead = lead.isPrefixOf (Text.lowerAscii s) := by
  rw [startsWithFold, Bool.eq_iff_iff, decide_eq_true_eq, List.isPrefixOf_iff_prefix,
    List.prefix_iff_eq_take, Text.lowerAscii, Text.lowerAscii, List.map_take, eq_comm]

theorem startsWithFold_append_bracket {lead : Text} (free : '<' ∉ lead) (s r : Text) :
    startsWithFold (s ++ '<' :: r) lead = startsWithFold s lead := by
  rw [startsWithFold_eq, startsWithFold_eq, Text.lowerAscii, List.map_append, List.map_cons]
  exact isPrefixOf_append_bracket free _ _

theorem beginsScript_append_bracket (s r : Text) : beginsScript (s ++ '<' :: r) = beginsScript s := by
  unfold beginsScript
  rw [startsWithFold_append_bracket (by decide)]
  rcases Nat.lt_trichotomy s.length 6 with short | exact_ | long
  · have none : startsWithFold s "script" = false := by
      rw [startsWithFold_eq, Bool.eq_false_iff, ne_eq, List.isPrefixOf_iff_prefix]
      intro lead
      have := lead.length_le
      simp [Text.lowerAscii] at this
      omega
    rw [none]
    rfl
  · rw [List.drop_append_of_le_length (Nat.le_of_eq exact_.symm), List.drop_of_length_le (Nat.le_of_eq exact_)]
    rfl
  · rw [List.drop_append_of_le_length (Nat.le_of_lt long)]
    cases behind : s.drop 6 with
    | nil =>
        rw [List.drop_eq_nil_iff] at behind
        omega
    | cons c t => rfl

theorem startsWith_append_bracket {lead : Text} (free : '<' ∉ lead) (s r : Text) :
    Text.startsWith (s ++ '<' :: r) lead = Text.startsWith s lead :=
  isPrefixOf_append_bracket free s r

theorem hidesEnd_cons {c : Char} (other : c ≠ '<') (s : Text) : hidesEnd (c :: s) = hidesEnd s := by
  simp [hidesEnd, other]

theorem hasScriptTag_cons {c : Char} (other : c ≠ '<') (s : Text) :
    hasScriptTag (c :: s) = hasScriptTag s := by
  simp [hasScriptTag, other]

theorem closesAfter_hyphen {hyphens : Nat} (few : hyphens ≤ 2) (s : Text) :
    closesAfter hyphens ('-' :: s) = closesAfter (min 2 (hyphens + 1)) s := by
  interval_cases hyphens
  · rfl
  · rfl
  · have third : Text.contains "-->" ('-' :: '-' :: '-' :: s) =
        Text.contains "-->" ('-' :: '-' :: s) := by
      rw [Text.contains]
      rfl
    exact third

theorem closesAfter_other {hyphens : Nat} (few : hyphens ≤ 2) {c : Char} (other : c ≠ '-')
    (open_ : c = '>' → hyphens ≠ 2) (s : Text) :
    closesAfter hyphens (c :: s) = closesAfter 0 s := by
  have first : ('-' == c) = false := beq_eq_false_iff_ne.2 (Ne.symm other)
  interval_cases hyphens
  · simp [closesAfter, Text.contains, List.isPrefixOf, first]
  · simp [closesAfter, Text.contains, List.isPrefixOf, first]
  · have third : ('>' == c) = false := beq_eq_false_iff_ne.2 fun same => open_ same.symm rfl
    simp [closesAfter, Text.contains, List.isPrefixOf, first, third]

theorem beginsEndTag_of_free {c : Char} {s : Text} (free : Text.contains "</" (c :: s) = false)
    (bracket : c = '<') (name r : Text) : beginsEndTag name (s ++ '<' :: r) = false := by
  subst bracket
  cases s with
  | nil => rfl
  | cons d s =>
      have other : d ≠ '/' := by
        rintro rfl
        simp [Text.contains, List.isPrefixOf] at free
      unfold beginsEndTag
      split
      · next h => exact absurd (List.cons.inj h).1 other
      · rfl

theorem hidesEnd_bracket (s : Text) :
    hidesEnd ('<' :: s) =
      ((Text.startsWith s "!--" && (hasScriptTag s && !closesAfter 0 s)) || hidesEnd s) := by
  rw [hidesEnd, decide_eq_true rfl, Bool.true_and, Bool.and_assoc]
  rfl

theorem or_hidesEnd_bracket {closed : Bool} {s : Text}
    (weaker : (hasScriptTag s && !closesAfter 0 s) = true → closed = true) :
    (closed || hidesEnd ('<' :: s)) = (closed || hidesEnd s) := by
  rw [hidesEnd_bracket]
  cases closed with
  | true => rfl
  | false =>
      have none : (hasScriptTag s && !closesAfter 0 s) = false :=
        Bool.eq_false_iff.2 fun present => Bool.false_ne_true (weaker present)
      rw [none, Bool.and_false, Bool.false_or]

namespace ScriptState

theorem next_commented {hyphens : Nat} (few : hyphens ≤ 2) (c : Char) (s r : Text) :
    ((commented hyphens).next c (s ++ '<' :: r)).hides s = (commented hyphens).hides (c :: s) ∧
      ((commented hyphens).next c (s ++ '<' :: r)).Fits s := by
  unfold next
  simp only [beginsScript_append_bracket]
  split_ifs with hyphen closing script
  · subst hyphen
    refine ⟨?_, Nat.min_le_left _ _⟩
    simp only [hides, closesAfter_hyphen few, hidesEnd_cons (show '-' ≠ '<' by decide),
      hasScriptTag_cons (show '-' ≠ '<' by decide)]
  · simp only [Bool.and_eq_true, decide_eq_true_eq] at closing
    obtain ⟨rfl, rfl⟩ := closing
    refine ⟨?_, trivial⟩
    have closed : closesAfter 2 ('>' :: s) = true := rfl
    simp only [hides, closed, hidesEnd_cons (show '>' ≠ '<' by decide), Bool.not_true,
      Bool.and_false, Bool.false_or]
  · simp only [Bool.and_eq_true, decide_eq_true_eq] at script
    obtain ⟨rfl, begins⟩ := script
    refine ⟨?_, Nat.zero_le 2⟩
    have tag : hasScriptTag ('<' :: s) = true := by rw [hasScriptTag, begins]; rfl
    simp only [hides, tag, Bool.true_and, closesAfter_other few hyphen (by simp)]
    refine (or_hidesEnd_bracket ?_).symm
    intro both
    exact (Bool.and_eq_true_iff.1 both).2
  · have open_ : c = '>' → hyphens ≠ 2 := by simpa using closing
    refine ⟨?_, Nat.zero_le 2⟩
    simp only [hides, closesAfter_other few hyphen open_]
    by_cases bracket : c = '<'
    · subst bracket
      have tag : hasScriptTag ('<' :: s) = hasScriptTag s := by
        rw [hasScriptTag, Bool.eq_false_iff.2 script, Bool.false_or]
      rw [tag, or_hidesEnd_bracket id]
    · rw [hidesEnd_cons bracket, hasScriptTag_cons bracket]

theorem next_nested {hyphens : Nat} (few : hyphens ≤ 2) (c : Char) (s r : Text)
    (free : Text.contains "</" (c :: s) = false) :
    ((nested hyphens).next c (s ++ '<' :: r)).hides s = (nested hyphens).hides (c :: s) ∧
      ((nested hyphens).next c (s ++ '<' :: r)).Fits s := by
  unfold next
  simp only
  split_ifs with hyphen closing ends
  · subst hyphen
    refine ⟨?_, Nat.min_le_left _ _⟩
    simp only [hides, closesAfter_hyphen few, hidesEnd_cons (show '-' ≠ '<' by decide)]
  · simp only [Bool.and_eq_true, decide_eq_true_eq] at closing
    obtain ⟨rfl, rfl⟩ := closing
    refine ⟨?_, trivial⟩
    have closed : closesAfter 2 ('>' :: s) = true := rfl
    simp only [hides, closed, hidesEnd_cons (show '>' ≠ '<' by decide), Bool.not_true,
      Bool.false_or]
  · simp only [Bool.and_eq_true, decide_eq_true_eq] at ends
    rw [beginsEndTag_of_free free ends.1] at ends
    exact absurd ends.2 Bool.false_ne_true
  · have open_ : c = '>' → hyphens ≠ 2 := by simpa using closing
    refine ⟨?_, Nat.zero_le 2⟩
    simp only [hides, closesAfter_other few hyphen open_]
    by_cases bracket : c = '<'
    · subst bracket
      refine (or_hidesEnd_bracket ?_).symm
      intro both
      exact (Bool.and_eq_true_iff.1 both).2
    · rw [hidesEnd_cons bracket]

theorem next_plain (c : Char) (s r : Text) :
    (plain.next c (s ++ '<' :: r)).hides s = plain.hides (c :: s) ∧
      (plain.next c (s ++ '<' :: r)).Fits s := by
  unfold next
  simp only
  rw [startsWith_append_bracket (by decide)]
  split_ifs with mark
  · simp only [Bool.and_eq_true, decide_eq_true_eq] at mark
    obtain ⟨rfl, lead⟩ := mark
    refine ⟨?_, ?_⟩
    · simp only [hides]
      rw [hidesEnd_bracket, lead, Bool.true_and]
    · obtain ⟨r, rfl⟩ := List.isPrefixOf_iff_prefix.1 lead
      exact ⟨r, rfl⟩
  · refine ⟨?_, trivial⟩
    simp only [hides]
    by_cases bracket : c = '<'
    · subst bracket
      have lead : Text.startsWith s "!--" = false := by simpa using mark
      rw [hidesEnd_bracket, lead, Bool.false_and, Bool.false_or]
    · rw [hidesEnd_cons bracket]

/-- One step: what a text hides from a state on is what its rest hides from the next state on. -/
theorem hides_next {state : ScriptState} {c : Char} {s : Text} (fits : state.Fits (c :: s))
    (free : Text.contains "</" (c :: s) = false) (r : Text) :
    (state.next c (s ++ '<' :: r)).hides s = state.hides (c :: s) ∧
      (state.next c (s ++ '<' :: r)).Fits s := by
  cases state with
  | plain => exact next_plain c s r
  | commented hyphens => exact next_commented fits c s r
  | nested hyphens => exact next_nested fits c s r free
  | opening left =>
      match left, fits with
      | 3, fits =>
          obtain ⟨t, same⟩ := fits
          cases same
          exact ⟨rfl, t, rfl⟩
      | 2, fits =>
          obtain ⟨t, same⟩ := fits
          cases same
          exact ⟨rfl, t, rfl⟩
      | 1, fits =>
          obtain ⟨t, same⟩ := fits
          cases same
          exact ⟨rfl, Nat.le_refl 2⟩

/-- A state in which an end tag is hidden, or is not. -/
def AtEnd (hidden : Bool) : ScriptState → Prop
  | plain | commented _ => hidden = false
  | nested _ => hidden = true
  | opening _ => False

/-- A whole text without end tags. -/
theorem atEnd_after {state : ScriptState} {s : Text} (fits : state.Fits s)
    (free : Text.contains "</" s = false) (r : Text) :
    (state.after ('<' :: r) s).AtEnd (state.hides s) := by
  induction s generalizing state with
  | nil =>
      cases state with
      | plain => rfl
      | commented hyphens => rfl
      | nested hyphens =>
          have few : hyphens ≤ 2 := fits
          have never : closesAfter hyphens [] = false := by interval_cases hyphens <;> rfl
          simp [AtEnd, after, hides, never]
      | opening left =>
          match left, fits with
          | 3, fits | 2, fits | 1, fits =>
              obtain ⟨t, same⟩ := fits
              cases same
  | cons c s ih =>
      have rest : Text.contains "</" s = false := by
        rw [Text.contains, Bool.or_eq_false_iff] at free
        exact free.2
      obtain ⟨same, fits⟩ := hides_next fits free r
      rw [after, ← same]
      exact ih fits rest

end ScriptState

/-- A text without end tags is passed over, whatever state it leads to. -/
theorem splitScript_append (state : ScriptState) {s : Text}
    (free : Text.contains "</" s = false) (r : Text) :
    splitScript state (s ++ '<' :: r) =
      (s ++ (splitScript (state.after ('<' :: r) s) ('<' :: r)).1,
        (splitScript (state.after ('<' :: r) s) ('<' :: r)).2) := by
  induction s generalizing state with
  | nil => rfl
  | cons c s ih =>
      have rest : Text.contains "</" s = false := by
        rw [Text.contains, Bool.or_eq_false_iff] at free
        exact free.2
      have inside : (c = '<' && state.canEnd && beginsEndTag "script" (s ++ '<' :: r)) = false := by
        by_cases bracket : c = '<'
        · rw [beginsEndTag_of_free free bracket, Bool.and_false]
        · rw [decide_eq_false bracket, Bool.false_and, Bool.false_and]
      rw [List.cons_append, splitScript, inside, if_neg Bool.false_ne_true, ih _ rest]
      rfl

def scriptEnd : Text := "</script>"

theorem splitScript_scriptEnd {state : ScriptState} (visible : state.AtEnd false) (rest : Text) :
    splitScript state (scriptEnd ++ rest) = ([], scriptEnd ++ rest) := by
  cases state with
  | plain | commented _ => rfl
  | nested _ => cases visible
  | opening _ => cases visible

/-- An end tag that is hidden is part of the text, with what follows it. -/
theorem splitScript_scriptEnd_hidden {state : ScriptState} (hidden : state.AtEnd true) (rest : Text) :
    ∃ more behind, splitScript state (scriptEnd ++ rest) = (scriptEnd ++ more, behind) := by
  cases state with
  | plain | commented _ => cases hidden
  | opening _ => cases hidden
  | nested hyphens => exact ⟨_, _, rfl⟩

end LivePage.Html
