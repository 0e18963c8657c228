import LivePage.Html.Lexer
import Mathlib.Tactic.SplitIfs

/-!
A text read as markup from end to end. What any reader leaves is a tail of what it was given, and a
token takes at least one character, so reading token by token reaches the end.
-/

namespace LivePage.Html

theorem after?_suffix {lead s rest : Text} (found : Text.after? lead s = some rest) :
    rest <:+ s := by
  induction lead generalizing s with
  | nil =>
      cases found
      exact List.suffix_refl rest
  | cons c lead ih =>
      cases s with
      | nil => cases found
      | cons d s =>
          simp only [Text.after?] at found
          split at found
          · exact (ih found).trans (List.suffix_cons d s)
          · cases found

theorem readAttributes_cons {state : TagState} {found attributes : Attributes} {closes : Bool}
    {c : Char} {s rest : Text}
    (read : readAttributes state found (c :: s) = some (attributes, closes, rest)) :
    rest = s ∨ ∃ state' found', readAttributes state' found' s = some (attributes, closes, rest) := by
  cases state <;> simp only [readAttributes] at read <;> split_ifs at read <;>
    first
    | exact .inr ⟨_, _, read⟩
    | (cases read; exact .inl rfl)

theorem readAttributes_suffix {state : TagState} {found attributes : Attributes} {closes : Bool}
    {s rest : Text} (read : readAttributes state found s = some (attributes, closes, rest)) :
    rest <:+ s := by
  induction s generalizing state found with
  | nil => cases state <;> cases read
  | cons c s ih =>
      rcases readAttributes_cons read with rfl | ⟨state', found', more⟩
      · exact List.suffix_cons c rest
      · exact (ih more).trans (List.suffix_cons c s)

theorem readTag_suffix {s rest : Text} {tag : Tag} (read : readTag s = some (tag, rest)) :
    rest <:+ s := by
  unfold readTag at read
  split at read
  · next attributes closes rest' found =>
      cases read
      exact (readAttributes_suffix found).trans (List.dropWhile_suffix _)
  · cases read

theorem upToBracket_suffix (s : Text) : (upToBracket s).2 <:+ s :=
  (List.drop_suffix 1 _).trans (List.dropWhile_suffix _)

theorem commentBody_suffix (seen s : Text) : (commentBody seen s).2 <:+ s := by
  induction s generalizing seen with
  | nil => exact List.suffix_refl []
  | cons c s ih =>
      rw [commentBody]
      cases closed : Text.after? "-->" (c :: s) with
      | some rest => exact after?_suffix closed
      | none =>
          cases marked : Text.after? "--!>" (c :: s) with
          | some rest => exact after?_suffix marked
          | none => exact (ih (c :: seen)).trans (List.suffix_cons c s)

theorem readComment_suffix (s : Text) : (readComment s).2 <:+ s := by
  unfold readComment
  split
  · exact List.suffix_cons '>' _
  · exact (List.suffix_cons '>' _).trans (List.suffix_cons '-' _)
  · exact commentBody_suffix [] s

theorem sectionBody_suffix (seen s : Text) : (sectionBody seen s).2 <:+ s := by
  induction s generalizing seen with
  | nil => exact List.suffix_refl []
  | cons c s ih =>
      simp only [sectionBody]
      split
      · next found => exact after?_suffix found
      · exact (ih (c :: seen)).trans (List.suffix_cons c s)

theorem readDeclaration_suffix (foreign : Bool) (s : Text) :
    (readDeclaration foreign s).2 <:+ s := by
  unfold readDeclaration
  split
  · next found => exact (readComment_suffix _).trans (after?_suffix found)
  · split
    · exact (upToBracket_suffix _).trans (List.drop_suffix 7 s)
    · split
      · next found => exact (sectionBody_suffix [] _).trans (after?_suffix found)
      · exact upToBracket_suffix s

theorem readMarkup_suffix (foreign : Bool) (s : Text) : (readMarkup foreign s).2 <:+ s := by
  unfold readMarkup
  split
  · exact (readDeclaration_suffix foreign _).trans (List.suffix_cons '!' _)
  · exact upToBracket_suffix _
  · exact (List.suffix_cons '>' _).trans (List.suffix_cons '/' _)
  · exact List.nil_suffix
  · next c r _ =>
      split
      · unfold readEndTag
        split
        · next read => exact (readTag_suffix read).trans (List.suffix_cons '/' _)
        · exact List.nil_suffix
      · exact (upToBracket_suffix _).trans (List.suffix_cons '/' _)
  · split
    · split
      · next read => exact readTag_suffix read
      · exact List.nil_suffix
    · exact List.suffix_refl _
  · exact List.nil_suffix

theorem nextToken_shorter (foreign : Bool) (c : Char) (s : Text) :
    (nextToken .markup foreign (c :: s)).2.length < (c :: s).length := by
  unfold nextToken
  split
  · next h =>
      cases h
      exact Nat.lt_succ_of_le (readMarkup_suffix foreign _).length_le
  · next h =>
      cases h
      exact Nat.lt_succ_self _
  · next bracket null =>
      have text : isTextCharacter c = true := by
        have lt : c ≠ '<' := fun h => bracket s (by rw [h])
        have nul : c ≠ '\x00' := fun h => null s (by rw [h])
        simp [isTextCharacter, lt, nul]
      rw [List.dropWhile_cons_of_pos text]
      exact Nat.lt_succ_of_le (List.dropWhile_suffix isTextCharacter).length_le
  all_goals contradiction

/-- The tokens of a text that is markup from end to end. -/
def tokensOf : Text → List Token
  | [] => []
  | c :: s =>
      (nextToken .markup false (c :: s)).1.toList ++ tokensOf (nextToken .markup false (c :: s)).2
termination_by s => s.length
decreasing_by exact nextToken_shorter false c s

/-- The tokens of a document that is markup from end to end. -/
def tokenize (s : Text) : List Token := tokensOf (lexedText s)

theorem tokensOf_nil : tokensOf [] = [] := by rw [tokensOf]

theorem tokensOf_of_nextToken {s rest : Text} {t : Token} (present : s ≠ [])
    (read : nextToken .markup false s = (some t, rest)) : tokensOf s = t :: tokensOf rest := by
  cases s with
  | nil => exact absurd rfl present
  | cons c s =>
      rw [tokensOf, read]
      rfl

theorem unifyBreaks_cons {c : Char} (other : c ≠ '\r') (s : Text) :
    unifyBreaks (c :: s) = c :: unifyBreaks s := by
  rw [unifyBreaks]
  · exact fun _ same => absurd same other
  · exact fun same => absurd same other

theorem unifyBreaks_return {s : Text} (other : s.head? ≠ some '\n') :
    unifyBreaks ('\r' :: s) = '\n' :: unifyBreaks s := by
  rw [unifyBreaks]
  rintro r rfl
  exact other rfl

theorem unifyBreaks_append {s : Text} (absent : '\r' ∉ s) (t : Text) :
    unifyBreaks (s ++ t) = s ++ unifyBreaks t := by
  induction s with
  | nil => rfl
  | cons c s ih =>
      rw [List.mem_cons, not_or] at absent
      rw [List.cons_append, unifyBreaks_cons (Ne.symm absent.1), ih absent.2, List.cons_append]

theorem unifyBreaks_of_absent {s : Text} (absent : '\r' ∉ s) : unifyBreaks s = s := by
  have none := unifyBreaks_append absent []
  rwa [List.append_nil, unifyBreaks, List.append_nil] at none

/-- Without carriage returns and a byte order mark a text is lexed as it stands. -/
theorem lexedText_of_plain {s : Text} (lead : s.head? ≠ some '\ufeff') (breaks : '\r' ∉ s) :
    lexedText s = s := by
  unfold lexedText
  split
  · exact absurd rfl lead
  · exact unifyBreaks_of_absent breaks

end LivePage.Html
