import LivePage.Markdown.Inline
import LivePage.Proofs.Render.Fences
import LivePage.Render.Rules

/-!
The address of an inline image. The parser reads it from the text behind the label; the rule for
images reads the markup of the image once more, and shows the address as it is written there, where
the parser has resolved it. The two agree on addresses in which nothing is to be resolved, and where
the markup shows no address to the rule.
-/

namespace LivePage
open Html Markdown

/-- How many brackets a text leaves open, and whether its last character is a backslash that counts;
nothing, if it closes one that it has not opened. -/
def depthAfter? (opener closer : Char) : Nat → Bool → Text → Option (Nat × Bool)
  | depth, escaped, [] => some (depth, escaped)
  | depth, true, _ :: s => depthAfter? opener closer depth false s
  | depth, false, c :: s =>
      if c = closer then
        if depth = 0 then none else depthAfter? opener closer (depth - 1) false s
      else depthAfter? opener closer (if c = opener then depth + 1 else depth) (c = '\\') s

theorem depthAfter?_append (opener closer : Char) (depth : Nat) (escaped : Bool) (s t : Text) :
    depthAfter? opener closer depth escaped (s ++ t) =
      (depthAfter? opener closer depth escaped s).bind fun r => depthAfter? opener closer r.1 r.2 t := by
  fun_induction depthAfter? opener closer depth escaped s with
  | case1 => rfl
  | case2 depth c s ih => exact ih
  | case3 s => simp [depthAfter?]
  | case4 depth s inner ih => simp [depthAfter?, inner, ih]
  | case5 depth c s stays ih => 
      rw [List.cons_append, depthAfter?, if_neg stays]
      exact ih

theorem depthAfter?_of_plain {opener closer : Char} {s : Text}
    (plain : ∀ c ∈ s, c ≠ opener ∧ c ≠ closer ∧ c ≠ '\\') (depth : Nat) :
    depthAfter? opener closer depth false s = some (depth, false) := by
  induction s with
  | nil => rfl
  | cons c s ih =>
      obtain ⟨other, stays, backslash⟩ := plain c List.mem_cons_self
      rw [depthAfter?, if_neg stays, if_neg other, decide_eq_false backslash]
      exact ih fun d member => plain d (List.mem_cons_of_mem c member)

theorem splitClosing?_append {opener closer : Char} (distinct : opener ≠ closer)
    (backslash : closer ≠ '\\') {depth depth' : Nat} {escaped escaped' : Bool} {s : Text}
    (inside : depthAfter? opener closer depth escaped s = some (depth', escaped')) (t : Text) :
    splitClosing? opener closer (depth + 1) escaped (s ++ t) =
      (splitClosing? opener closer (depth' + 1) escaped' t).map fun r => (s ++ r.1, r.2) := by
  induction s generalizing depth escaped with
  | nil =>
      cases inside
      exact Option.map_id'.symm
  | cons c s ih =>
      have step {n : Nat} {e : Bool} (more : depthAfter? opener closer n e s = some (depth', escaped')) :
          (splitClosing? opener closer (n + 1) e (s ++ t)).map (fun r => (c :: r.1, r.2)) =
            (splitClosing? opener closer (depth' + 1) escaped' t).map fun r => (c :: s ++ r.1, r.2) := by
        rw [ih more, Option.map_map]
        rfl
      cases escaped with
      | true => exact step inside
      | false =>
          rw [depthAfter?] at inside
          rw [List.cons_append, splitClosing?]
          split at inside
          · next closes =>
              split at inside
              · cases inside
              · next inner =>
                  obtain ⟨n, rfl⟩ := Nat.exists_eq_succ_of_ne_zero inner
                  subst closes
                  have deeper : (decide (c = c) && decide (n.succ + 1 ≤ 1)) = false := by simp
                  rw [deeper, if_neg Bool.false_ne_true, if_neg (Ne.symm distinct), if_pos rfl,
                    decide_eq_false backslash]
                  exact step inside
          · next stays =>
              have here : (decide (c = closer) && decide (depth + 1 ≤ 1)) = false := by simp [stays]
              rw [here, if_neg Bool.false_ne_true]
              simp only [stays, if_false]
              have depths : (if c = opener then depth + 1 + 1 else depth + 1) =
                  (if c = opener then depth + 1 else depth) + 1 := by split <;> rfl
              rw [depths]
              exact step inside

theorem head?_of_splitClosing? {opener closer : Char} {depth : Nat} {escaped : Bool} {c : Char}
    {s : Text} {r : Text × Text} (other : c ≠ closer)
    (found : splitClosing? opener closer depth escaped (c :: s) = some r) :
    r.1.head? = some c := by
  have step {n : Nat} {e : Bool}
      (more : (splitClosing? opener closer n e s).map (fun r => (c :: r.1, r.2)) = some r) :
      r.1.head? = some c := by
    obtain ⟨_, _, rfl⟩ := Option.map_eq_some_iff.1 more
    rfl
  cases escaped with
  | true => exact step found
  | false =>
      rw [splitClosing?, decide_eq_false other, Bool.false_and, if_neg Bool.false_ne_true] at found
      exact step found

/-- A bare address closes nothing, and if a closing bracket stands behind it that one counts. -/
theorem depthAfter?_of_bareAddress? {depth : Nat} {seen s address rest : Text}
    (found : bareAddress? depth seen s = some (address, rest)) :
    ∃ written escaped, address = seen.reverse ++ written ∧ s = written ++ rest ∧
      depthAfter? '(' ')' depth false written = some (0, escaped) ∧
      (rest.head? = some ')' → escaped = false) ∧ (address = [] → rest.head? = some ')') ∧
      rest ≠ [] := by
  fun_induction bareAddress? depth seen s with
  | case1 => cases found
  | case2 depth seen c s punctuation ih =>
      obtain ⟨written, escaped, rfl, rfl, inside, ends⟩ := ih found
      exact ⟨'\\' :: c :: written, escaped, by simp, rfl, inside, ends⟩
  | case3 depth seen c s other ih =>
      obtain ⟨written, escaped, rfl, split, inside, ends, empty, present⟩ := ih found
      have marks : c ≠ ')' ∧ c ≠ '(' ∧ c ≠ '\\' := by
        refine ⟨?_, ?_, ?_⟩ <;> rintro rfl <;> exact other rfl
      have address : ('\\' :: seen).reverse ++ written = seen.reverse ++ '\\' :: written := by simp
      cases written with
      | nil =>
          -- what stands behind the backslash is no bracket, so nothing is lost by passing over it
          subst split
          refine ⟨['\\'], true, by simp, rfl, ?_, fun bracket => ?_, empty, present⟩
          · cases inside
            rfl
          · exact absurd (Option.some.inj bracket) marks.1
      | cons d written =>
          obtain ⟨rfl, rfl⟩ := List.cons.inj split
          refine ⟨'\\' :: c :: written, escaped, address, rfl, ?_, ends, empty, present⟩
          rw [depthAfter?, if_neg marks.1, if_neg marks.2.1, decide_eq_false marks.2.2] at inside
          exact inside
  | case4 => cases found
  | case5 depth seen s room _ ih =>
      obtain ⟨written, escaped, rfl, rfl, inside, ends⟩ := ih found
      exact ⟨'(' :: written, escaped, by simp, rfl, inside, ends⟩
  | case6 seen s =>
      cases found
      exact ⟨[], false, (List.append_nil _).symm, rfl, rfl, fun _ => rfl, fun _ => rfl, nofun⟩
  | case7 depth seen s deep _ _ ih =>
      obtain ⟨written, escaped, rfl, rfl, inside, ends⟩ := ih found
      refine ⟨')' :: written, escaped, by simp, rfl, ?_, ends⟩
      rw [depthAfter?, if_pos rfl, if_neg deep]
      exact inside
  | case8 => cases found
  | case9 depth seen c s _ _ _ _ here =>
      cases found
      rw [Bool.or_eq_true, not_or, decide_eq_true_eq, not_not] at here
      refine ⟨[], false, (List.append_nil _).symm, rfl, here.2 ▸ rfl, fun _ => rfl, ?_, nofun⟩
      exact fun none => absurd (List.isEmpty_iff.2 (List.reverse_eq_nil_iff.1 none)) here.1
  | case10 depth seen c s last opener closer _ ih =>
      obtain ⟨written, escaped, rfl, rfl, inside, ends, empty, present⟩ := ih found
      refine ⟨c :: written, escaped, by simp, rfl, ?_, ends, empty, present⟩
      have plain : c ≠ '\\' := by
        rintro rfl
        cases written with
        | nil =>
            obtain ⟨d, more, rfl⟩ := List.exists_cons_of_ne_nil present
            exact last d more rfl rfl
        | cons d written => exact last d _ rfl rfl
      rw [depthAfter?, if_neg closer, if_neg opener, decide_eq_false plain]
      exact inside

theorem angleAddress?_append {seen s address rest : Text}
    (found : angleAddress? seen s = some (address, rest)) :
    ∃ written, address = seen.reverse ++ written ∧ s = written ++ '>' :: rest := by
  fun_induction angleAddress? seen s with
  | case1 => cases found
  | case2 seen s =>
      cases found
      exact ⟨[], (List.append_nil _).symm, rfl⟩
  | case3 => cases found
  | case4 => cases found
  | case5 seen d s _ _ ih =>
      obtain ⟨written, rfl, rfl⟩ := ih found
      exact ⟨'\\' :: d :: written, by simp, rfl⟩
  | case6 seen c s _ _ _ ih =>
      obtain ⟨written, rfl, rfl⟩ := ih found
      exact ⟨c :: written, by simp, rfl⟩

theorem address?_cases {s address rest : Text} (found : address? s = some (address, rest)) :
    s = '<' :: (address ++ '>' :: rest) ∨
    (s.head? ≠ some '<' ∧ s = address ++ rest ∧ ∃ escaped,
      depthAfter? '(' ')' 0 false address = some (0, escaped) ∧
        (rest.head? = some ')' → escaped = false) ∧
        (address = [] → rest.head? = some ')')) := by
  unfold address? at found
  split at found
  · next r =>
      left
      split at found
      · cases found
      · obtain ⟨written, rfl, rfl⟩ := angleAddress?_append found
        rfl
  · next other =>
      right
      obtain ⟨written, escaped, rfl, split, inside, ends, empty, _⟩ :=
        depthAfter?_of_bareAddress? found
      refine ⟨fun first => ?_, split, escaped, inside, ends, empty⟩
      cases s with
      | nil => cases first
      | cons c s => exact other s (congrArg (· :: s) (Option.some.inj first))

theorem suffix_titleEnd {opener : Option Char} {close : Char} {best : Option Text} {escaped : Bool}
    {s rest : Text} (found : titleEnd opener close best escaped s = some rest) :
    rest <:+ s ∨ best = some rest := by
  induction s generalizing best escaped with
  | nil => exact .inr found
  | cons c s ih =>
      have behind {t : Text} (part : t <:+ s) : t <:+ c :: s := part.trans (List.suffix_cons c s)
      rw [titleEnd] at found
      split at found
      · split at found
        · rcases ih found with part | here
          · exact .inl (behind part)
          · cases here
            exact .inl (behind (List.suffix_rfl))
        · cases found
          exact .inl (behind (List.suffix_rfl))
      · split at found
        · exact .inr found
        · exact (ih found).imp_left behind

theorem suffix_title? {s title rest : Text} (found : title? s = some (title, rest)) :
    rest <:+ s := by
  unfold title? at found
  simp only at found
  obtain ⟨r, ended, same⟩ := Option.map_eq_some_iff.1 found
  cases same
  split at ended
  · next t =>
      exact ((suffix_titleEnd ended).resolve_right nofun).trans (List.suffix_cons _ t)
  · next t =>
      exact ((suffix_titleEnd ended).resolve_right nofun).trans (List.suffix_cons _ t)
  · next t =>
      exact ((suffix_titleEnd ended).resolve_right nofun).trans (List.suffix_cons _ t)
  · cases ended

theorem suffix_dropSpaces (s : Text) : dropSpaces s <:+ s := List.dropWhile_suffix _

theorem after?_close {s rest : Text} (found : Text.after? ")" s = some rest) : s = ')' :: rest := by
  cases s with
  | nil => cases found
  | cons c s =>
      change (if ')' = c then some s else none) = some rest at found
      split at found
      · next same =>
          cases found
          rw [same]
      · cases found

theorem inlineTarget?_address {s rest : Text} {target : Target}
    (found : inlineTarget? ('(' :: s) = some (target, rest)) : ∃ address behind c,
      address? (dropSpaces s) = some (address, c :: behind) ∧ target.url = cleanUrl address ∧
      (c = ')' ∨ isSpace c = true) ∧ rest <:+ behind := by
  unfold inlineTarget? at found
  simp only [Option.bind_eq_bind] at found
  obtain ⟨⟨address, r⟩, read, found⟩ := Option.bind_eq_some_iff.1 found
  simp only at found
  obtain ⟨last, closed, same⟩ := Option.bind_eq_some_iff.1 found
  cases same
  have ends := after?_close closed
  have left : rest <:+ ')' :: rest := List.suffix_cons ')' rest
  split at ends
  · next still =>
      have same : dropSpaces r = r := (suffix_dropSpaces r).eq_of_length still
      rw [same] at ends
      rw [ends] at read
      exact ⟨address, rest, ')', read, rfl, .inl rfl, List.suffix_rfl⟩
  · next spaced =>
      cases r with
      | nil => exact absurd rfl spaced
      | cons c behind =>
          have blank : isSpace c = true := by
            by_contra other
            exact spaced (congrArg List.length (List.dropWhile_cons_of_neg other))
          have dropped : dropSpaces (c :: behind) = dropSpaces behind :=
            List.dropWhile_cons_of_pos blank
          refine ⟨address, behind, c, read, rfl, .inr blank, ?_⟩
          have title : ((title? (dropSpaces behind)).getD ([], dropSpaces behind)).2 <:+ behind := by
            cases found : title? (dropSpaces behind) with
            | none => exact suffix_dropSpaces behind
            | some t => exact (suffix_title? found).trans (suffix_dropSpaces behind)
          rw [dropped] at ends
          exact (left.trans (ends ▸ suffix_dropSpaces _)).trans title

theorem isBlank_of_isSpace {c : Char} (space : isSpace c = true) : Text.isBlank c = true := by
  simp only [isSpace, Bool.or_eq_true, decide_eq_true_eq] at space
  rcases space with ((((rfl | rfl) | rfl) | rfl) | rfl) | rfl <;> rfl

theorem trimEnd_append_cons {p : Char → Bool} {c : Char} (kept : p c = false) (s t : Text) :
    Text.trimEnd p (s ++ c :: t) = s ++ c :: Text.trimEnd p t := by
  have split : (s ++ c :: t).reverse = t.reverse ++ c :: s.reverse := by simp
  unfold Text.trimEnd
  rw [split, List.dropWhile_append]
  cases left : t.reverse.dropWhile p with
  | nil => simp [List.dropWhile_cons_of_neg, kept]
  | cons d r => simp

theorem prefix_trimEnd (p : Char → Bool) (s : Text) : Text.trimEnd p s <+: s := by
  have part := List.reverse_prefix.2 (List.dropWhile_suffix p (l := s.reverse))
  rwa [List.reverse_reverse] at part

theorem trimBlank_append {lead : Text} (blank : ∀ c ∈ lead, Text.isBlank c = true) (s : Text) :
    Text.trimBlank (lead ++ s) = Text.trimBlank s := by
  unfold Text.trimBlank Text.trim Text.trimStart
  rw [List.dropWhile_append_of_pos blank]

theorem destinationOf_blank {s : Text} (blank : ∀ c ∈ s, Text.isBlank c = true) :
    destinationOf s = [] := by
  have none : Text.trimBlank s = [] := by
    have dropped := trimBlank_append blank []
    rwa [List.append_nil] at dropped
  rw [destinationOf, none]
  rfl

theorem destinationOf_angle {lead address : Text} (blank : ∀ c ∈ lead, Text.isBlank c = true)
    (whole : '>' ∉ address) (rest : Text) :
    destinationOf (lead ++ '<' :: (address ++ '>' :: rest)) = address := by
  have trimmed : Text.trimBlank (lead ++ '<' :: (address ++ '>' :: rest)) =
      '<' :: (address ++ '>' :: Text.trimEnd Text.isBlank rest) := by
    rw [trimBlank_append blank]
    exact trimEnd_append_cons (p := Text.isBlank) (c := '>') rfl ('<' :: address) rest
  have inside : ∀ c ∈ address, decide (c ≠ '>') = true :=
    fun c member => decide_eq_true fun same => whole (same ▸ member)
  unfold destinationOf
  simp only [trimmed]
  rw [List.takeWhile_append_of_pos inside, List.takeWhile_cons_of_neg (by decide), List.append_nil]

theorem destinationOf_bare {lead address : Text} (blank : ∀ c ∈ lead, Text.isBlank c = true)
    (whole : ∀ c ∈ address, Text.isBlank c = false) (bare : address.head? ≠ some '<')
    (present : address ≠ []) {rest : Text} (apart : ∀ c ∈ rest.head?, Text.isBlank c = true) :
    destinationOf (lead ++ (address ++ rest)) = address := by
  let more := Text.trimEnd Text.isBlank rest
  have stays (t : Text) : (address ++ t).dropWhile Text.isBlank = address ++ t := by
    obtain ⟨c, r, rfl⟩ := List.exists_cons_of_ne_nil present
    exact List.dropWhile_cons_of_neg (by simp [whole c List.mem_cons_self])
  have trimmed : Text.trimBlank (lead ++ (address ++ rest)) = address ++ more := by
    obtain ⟨init, c, rfl⟩ := (List.eq_nil_or_concat' address).resolve_left present
    have kept := whole c (by simp)
    rw [trimBlank_append blank, Text.trimBlank, Text.trim, Text.trimStart, stays,
      List.append_assoc, List.append_assoc]
    exact trimEnd_append_cons kept init rest
  have inside : ∀ c ∈ address, (!Text.isBlank c) = true := fun c member => by simp [whole c member]
  have stops : more.takeWhile (fun c => !Text.isBlank c) = [] := by
    have part : more <+: rest := prefix_trimEnd Text.isBlank rest
    cases left : more with
    | nil => rfl
    | cons c r =>
        obtain ⟨t, split⟩ := part
        rw [left] at split
        exact List.takeWhile_cons_of_neg (by simp [apart c (split ▸ rfl)])
  have word : Text.firstWord Text.isBlank (address ++ more) = address := by
    rw [Text.firstWord, stays, List.takeWhile_append_of_pos inside, stops, List.append_nil]
  unfold destinationOf
  simp only [trimmed]
  split
  · next s shown =>
      obtain ⟨c, r, rfl⟩ := List.exists_cons_of_ne_nil present
      obtain ⟨same, _⟩ := List.cons.inj shown
      exact absurd (congrArg some same) bare
  · exact word

section Closing

variable {lead address : Text} (spaces : ∀ c ∈ lead, isSpace c = true)
include spaces

theorem isBlank_of_spaces : ∀ c ∈ lead, Text.isBlank c = true := fun c member =>
  isBlank_of_isSpace (spaces c member)

theorem depthAfter?_spaces : depthAfter? '(' ')' 0 false lead = some (0, false) := by
  refine depthAfter?_of_plain (fun c member => ?_) 0
  refine ⟨?_, ?_, ?_⟩ <;> rintro rfl <;> exact absurd (spaces _ member) (by decide)

/-- An address in angle brackets is taken as it is, wherever the rule finds its parenthesis. -/
theorem map_destinationOf_angle (closesNothing : (depthAfter? '(' ')' 0 false address).isSome)
    (whole : '>' ∉ address) (t : Text) :
    (splitClosing? '(' ')' 1 false (lead ++ '<' :: (address ++ '>' :: t))).map
        (fun r => destinationOf r.1) =
      (splitClosing? '(' ')' 1 false (lead ++ '<' :: (address ++ '>' :: t))).map
        fun _ => address := by
  let before := lead ++ '<' :: (address ++ ['>'])
  have form : lead ++ '<' :: (address ++ '>' :: t) = before ++ t := by simp [before]
  obtain ⟨⟨depth, escaped⟩, inside⟩ := Option.isSome_iff_exists.1 closesNothing
  have within : depthAfter? '(' ')' 0 false before = some (depth, false) := by
    have bracket : depthAfter? '(' ')' 0 false ('<' :: (address ++ ['>'])) =
        depthAfter? '(' ')' 0 false (address ++ ['>']) := rfl
    rw [depthAfter?_append, depthAfter?_spaces spaces, Option.bind_some, bracket,
      depthAfter?_append, inside]
    cases escaped <;> rfl
  rw [form, splitClosing?_append (by decide) (by decide) within, Option.map_map, Option.map_map]
  refine Option.map_congr fun r _ => ?_
  have taken := destinationOf_angle (isBlank_of_spaces spaces) whole r.1
  simpa [before] using taken

/-- A bare address is taken as it is: the rule closes right behind it, or goes on with a blank. -/
theorem map_destinationOf_bare {escaped : Bool} {c : Char}
    (inside : depthAfter? '(' ')' 0 false address = some (0, escaped))
    (whole : ∀ c ∈ address, Text.isBlank c = false) (bare : address.head? ≠ some '<')
    (next : c = ')' ∨ isSpace c = true) (ends : c = ')' → escaped = false)
    (empty : address = [] → c = ')') (t : Text) :
    (splitClosing? '(' ')' 1 false (lead ++ (address ++ c :: t))).map
        (fun r => destinationOf r.1) =
      (splitClosing? '(' ')' 1 false (lead ++ (address ++ c :: t))).map fun _ => address := by
  have within : depthAfter? '(' ')' 0 false (lead ++ address) = some (0, escaped) := by
    rw [depthAfter?_append, depthAfter?_spaces spaces]
    exact inside
  rw [← List.append_assoc, splitClosing?_append (by decide) (by decide) within, Option.map_map,
    Option.map_map]
  refine Option.map_congr fun r closed => ?_
  change destinationOf ((lead ++ address) ++ r.1) = address
  rw [List.append_assoc]
  have blank := isBlank_of_spaces spaces
  by_cases bracket : c = ')'
  · subst bracket
    cases ends rfl
    cases closed
    cases address with
    | nil => exact destinationOf_blank (by rwa [List.nil_append, List.append_nil])
    | cons d address => exact destinationOf_bare blank whole bare nofun nofun
  · have present : address ≠ [] := fun none => bracket (empty none)
    refine destinationOf_bare blank whole bare present fun e first => ?_
    rw [head?_of_splitClosing? bracket closed] at first
    cases first
    exact isBlank_of_isSpace (next.resolve_left bracket)

end Closing

theorem contains_of_isInfix {piece s : Text} (inside : piece <:+: s) :
    Text.contains piece s = true := by
  obtain ⟨before, behind, rfl⟩ := inside
  induction before with
  | nil =>
      have first : piece.isPrefixOf (piece ++ behind) = true :=
        List.isPrefixOf_iff_prefix.2 (List.prefix_append piece behind)
      cases whole : piece ++ behind with
      | nil => 
        obtain ⟨rfl, _⟩ := List.append_eq_nil_iff.1 whole
        rw [List.nil_append, whole]
        rfl
      | cons c s =>
          rw [List.nil_append, whole, Text.contains, ← whole, first, Bool.true_or]
  | cons c before ih =>
      rw [List.cons_append, List.cons_append, Text.contains, ih, Bool.or_true]

/-- The markup of an inline image: its label, and what stands behind the opening parenthesis. -/
def inlineMarkup (label s : Text) : Text := "![".toList ++ (label ++ ("](".toList ++ s))

theorem imageStyle_inlineMarkup (label s : Text) : imageStyle (inlineMarkup label s) = .inline := by
  refine if_pos (contains_of_isInfix ?_)
  exact ((List.prefix_append _ s).isInfix.trans (List.suffix_append label _).isInfix).trans
    (List.suffix_append _ _).isInfix

theorem splitLabel?_inlineMarkup {label : Text}
    (matched : depthAfter? '[' ']' 0 false label = some (0, false)) (s : Text) :
    splitLabel? (inlineMarkup label s) = some (label, '(' :: s) := by
  have passed := splitClosing?_append (by decide) (by decide) matched (']' :: '(' :: s)
  have closes : splitClosing? '[' ']' (0 + 1) false (']' :: '(' :: s) = some ([], '(' :: s) := rfl
  rw [closes, Option.map_some, List.append_nil] at passed
  exact passed

/-- How an inline image is written, and what the parser makes of it, whatever comes behind. The rule
finds the closing bracket of the label where the parser does, and nothing in the address ends it
early: a bare one has no blank, and one in angle brackets closes nothing. -/
structure WrittenInline (label s behind address : Text) (target : Target) : Prop where
  matched : depthAfter? '[' ']' 0 false label = some (0, false)
  target : inlineTarget? ('(' :: (s ++ behind)) = some (target, behind)
  read : ∃ rest, address? (dropSpaces (s ++ behind)) = some (address, rest)
  bare : (dropSpaces (s ++ behind)).head? ≠ some '<' → ∀ c ∈ address, Text.isBlank c = false
  angle : (dropSpaces (s ++ behind)).head? = some '<' →
    (depthAfter? '(' ')' 0 false address).isSome ∧ '>' ∉ address

namespace WrittenInline

variable {label s behind address : Text} {target : Target}
  (written : WrittenInline label s behind address target)
include written

theorem url : target.url = cleanUrl address := by
  obtain ⟨found, _, _, read, url, _⟩ := inlineTarget?_address written.target
  obtain ⟨rest, same⟩ := written.read
  rw [same] at read
  cases read
  exact url

theorem imageUrl?_eq : imageUrl? (inlineMarkup label s) =
    (splitClosing? '(' ')' 1 false s).map fun _ => address := by
  obtain ⟨found, after, c, read, url, next, t, rfl⟩ := inlineTarget?_address written.target
  obtain ⟨rest, same⟩ := written.read
  rw [same] at read
  cases read
  let lead := (s ++ behind).takeWhile isSpace
  have spaces : ∀ c ∈ lead, isSpace c = true := fun c member =>
    List.all_eq_true.1 List.all_takeWhile c member
  have split : s ++ behind = lead ++ dropSpaces (s ++ behind) :=
    List.takeWhile_append_dropWhile.symm
  have shown : imageUrl? (inlineMarkup label s) =
      (splitClosing? '(' ')' 1 false s).map fun r => destinationOf r.1 := by
    rw [imageUrl?, splitLabel?_inlineMarkup written.matched]
    rfl
  rw [shown]
  rcases address?_cases same with angle | ⟨bare, plain, escaped, inside, ends, empty⟩
  · obtain ⟨closesNothing, whole⟩ := written.angle (by rw [angle]; rfl)
    rw [angle] at split
    have form : s = lead ++ '<' :: (address ++ '>' :: c :: t) :=
      List.append_cancel_right (split.trans (by simp))
    rw [form]
    exact map_destinationOf_angle spaces closesNothing whole (c :: t)
  · have whole := written.bare bare
    have first : address.head? ≠ some '<' := fun first =>
      bare (by rw [plain, List.head?_append, first]; rfl)
    rw [plain] at split
    have form : s = lead ++ (address ++ c :: t) :=
      List.append_cancel_right (split.trans (by simp))
    rw [form]
    exact map_destinationOf_bare spaces inside whole first next
      (fun closes => ends (congrArg some closes)) (fun none => Option.some.inj (empty none)) t

theorem resolveSource_eq {image : ImageToken} (content : image.content = inlineMarkup label s)
    (source : image.attr? "src" = some target.url) :
    resolveSource image = if (splitClosing? '(' ')' 1 false s).isSome then address
      else target.url := by
  unfold resolveSource
  rw [content, imageStyle_inlineMarkup, source]
  simp only [written.imageUrl?_eq]
  cases splitClosing? '(' ')' 1 false s with
  | none => rfl
  | some r =>
      cases address with
      | nil => exact written.url
      | cons c address => rfl

end WrittenInline

theorem cleanUrl_of_plain {address : Text}
    (plain : ∀ c ∈ address, c ≠ '&' ∧ c ≠ '\\' ∧ isSpace c = false) : cleanUrl address = address := by
  have trimmed : Text.trim isSpace address = address := by
    have stays (s : Text) (none : ∀ c ∈ s, isSpace c = false) : s.dropWhile isSpace = s := by
      cases s with
      | nil => rfl
      | cons c s => exact List.dropWhile_cons_of_neg (by simp [none c List.mem_cons_self])
    have backwards : ∀ c ∈ address.reverse, isSpace c = false :=
      fun c member => (plain c (List.mem_reverse.1 member)).2.2
    rw [Text.trim, Text.trimStart, stays address fun c member => (plain c member).2.2,
      Text.trimEnd, stays _ backwards, List.reverse_reverse]
  have resolved : resolveReferences address = address := by
    unfold resolveReferences
    clear trimmed
    induction address with
    | nil => rfl
    | cons c s ih =>
        rw [resolveFrom, if_neg (plain c List.mem_cons_self).1,
          ih fun d member => plain d (List.mem_cons_of_mem c member)]
  rw [cleanUrl, trimmed, resolved]
  clear trimmed resolved
  induction address with
  | nil => rfl
  | cons c s ih =>
      rw [dropEscapes, ih fun d member => plain d (List.mem_cons_of_mem c member)]
      exact fun _ _ same => absurd same (plain c List.mem_cons_self).2.1

theorem tokenize_image (source alt title : Text) : ∃ attributes : Attributes,
    tokenize (markup (imageTokens source alt title)) =
      [opening "span" [⟨"class", "markdown-image-wrapper"⟩], opening "img" attributes,
        .closeTag "span"] ∧
    attributes.get? "alt" = some (readValue alt) ∧
    attributes.get? "src" = some (readValue source) ∧
    attributes.get? "data-preview-src" = some (readValue source) := by
  have tags : ∀ t ∈ imageTokens source alt title, IsTag t := by
    have wrapper : IsTag (opening "span" [⟨"class", "markdown-image-wrapper"⟩]) :=
      ⟨by decide, named_of_areMarkupNames rfl, rfl⟩
    have image : IsTag (opening "img" ([⟨"src", source⟩, ⟨"alt", alt⟩] ++ titleAttribute title ++
        [⟨"loading", "lazy"⟩, ⟨"data-action", "preview-image"⟩, ⟨"data-preview-src", source⟩])) := by
      refine ⟨rfl, named_of_areMarkupNames ?_, rfl⟩
      cases title <;> rfl
    have ending : IsTag (.closeTag "span") := rfl
    unfold imageTokens
    simp only [List.forall_mem_cons, List.not_mem_nil, false_imp_iff, implies_true, and_true]
    exact ⟨wrapper, image, ending⟩
  refine ⟨_, tokenize_tags tags, rfl, rfl, ?_⟩
  cases title <;> rfl

theorem tokenize_imageTokens (source alt title : Text) : ∃ attributes : Attributes,
    tokenize (markup (imageTokens source alt title)) =
      [opening "span" [⟨"class", "markdown-image-wrapper"⟩], opening "img" attributes,
        .closeTag "span"] ∧
    attributes.get? "src" = some (readValue source) ∧
    attributes.get? "data-preview-src" = some (readValue source) := by
  obtain ⟨attributes, tokens, _, shown⟩ := tokenize_image source alt title
  exact ⟨attributes, tokens, shown⟩

variable {m : Type → Type} [Monad m] [LawfulMonad m]

/-- An inline image shows its address as it is written wherever the rule finds the parenthesis that
closes it, and the resolved one where it does not; its preview shows the same. So what is shown is
what the parser resolved if and only if both are written alike after cleaning. -/
theorem inline_image_source (options : Options) {label s behind address : Text} {target : Target}
    (written : WrittenInline label s behind address target) {source : Text} {starts : List Nat}
    {node : Markdown.Node} (shown : imageMarkup? source starts node.span = some (inlineMarkup label s)) :
    let image := imageToken source starts node target
    let closes := (splitClosing? '(' ')' 1 false s).isSome
    let src := readValue (sanitizeUrl (if closes then address else target.url))
    image.attr? "src" = some target.url ∧ target.url = cleanUrl address ∧
    ∃ (html : Text) (attributes : Attributes),
      renderImage (m := m) ⟨.html, options, none⟩ (.image image) = pure html ∧
      tokenize html = [opening "span" [⟨"class", "markdown-image-wrapper"⟩],
        opening "img" attributes, .closeTag "span"] ∧
      attributes.get? "src" = some src ∧ attributes.get? "data-preview-src" = some src ∧
      (src = readValue (sanitizeUrl target.url) ↔ closes → readValue (sanitizeUrl address) =
        readValue (sanitizeUrl (cleanUrl address))) ∧
      ((∀ c ∈ address, c ≠ '&' ∧ c ≠ '\\' ∧ isSpace c = false) →
        src = readValue (sanitizeUrl target.url)) := by
  intro image closes src
  have content : image.content = inlineMarkup label s := by
    change (imageMarkup? source starts node.span).getD _ = _
    rw [shown]
    rfl
  have source' : image.attr? "src" = some target.url := rfl
  have shows : resolveSource image = if closes then address else target.url :=
    written.resolveSource_eq content rfl
  have agrees : src = readValue (sanitizeUrl target.url) ↔ closes →
      readValue (sanitizeUrl address) = readValue (sanitizeUrl (cleanUrl address)) := by
    change readValue (sanitizeUrl (if closes then address else target.url)) = _ ↔ _
    rw [written.url]
    split
    · next found => exact ⟨fun same _ => same, fun same => same found⟩
    · next none => exact ⟨fun _ found => absurd found none, fun _ => rfl⟩
  obtain ⟨attributes, tokens, first, preview⟩ :=
    tokenize_imageTokens (sanitizeUrl (resolveSource image)) (resolveAlt image) (imageTitle image)
  rw [shows] at first preview
  refine ⟨rfl, written.url, _, attributes, renderImage_markup options image, tokens, first, preview,
    agrees, fun plain => agrees.2 fun _ => ?_⟩
  rw [cleanUrl_of_plain plain]

/-- A label with brackets, and an address with parentheses. -/
theorem inline_image_source_brackets :
    let label : Text := "A [small] cat"
    let s : Text := " https://x.test/cat_(1).png \"Kitty\")"
    let target : Target := ⟨"https://x.test/cat_(1).png", "Kitty"⟩
    let node : Markdown.Node := .mk (.image target) ⟨⟨1, 5⟩, ⟨1, 57⟩⟩ []
    let source : Text := "See ![A [small] cat]( https://x.test/cat_(1).png \"Kitty\").\n"
    WrittenInline label s ".\n" "https://x.test/cat_(1).png" target ∧
    imageMarkup? source [0] node.span = some (inlineMarkup label s) ∧
    ∃ (html : Text) (attributes : Attributes),
      renderImage (m := Id) ⟨.html, {}, none⟩ (.image (imageToken source [0] node target)) =
        pure html ∧
      tokenize html = [opening "span" [⟨"class", "markdown-image-wrapper"⟩],
        opening "img" attributes, .closeTag "span"] ∧
      attributes.get? "src" = some "https://x.test/cat_(1).png".toList := by
  intro label s target node source
  have written : WrittenInline label s ".\n" "https://x.test/cat_(1).png" target :=
    ⟨by decide +kernel, by decide +kernel, ⟨" \"Kitty\").\n", by decide +kernel⟩,
      fun _ => by decide +kernel, fun bracket => absurd bracket (by decide +kernel)⟩
  have shown : imageMarkup? source [0] node.span = some (inlineMarkup label s) := by
    decide +kernel
  obtain ⟨_, _, html, attributes, rendered, tokens, src, _, _, plain⟩ :=
    inline_image_source (m := Id) {} written shown
  have same : readValue (sanitizeUrl target.url) = "https://x.test/cat_(1).png".toList := by
    decide +kernel
  refine ⟨written, shown, html, attributes, rendered, tokens, ?_⟩
  rw [src, plain (by decide +kernel), same]

/-- A character reference in the address is shown as it is written. -/
theorem inline_image_source_reference :
    let target : Target := ⟨"x?a=1&b=2", []⟩
    let node : Markdown.Node := .mk (.image target) ⟨⟨1, 1⟩, ⟨1, 19⟩⟩ []
    let image := imageToken "![a](x?a=1&amp;b=2)\n" [0] node target
    let html : Text := renderImage (m := Id) ⟨.html, {}, none⟩ (.image image)
    inlineTarget? "(x?a=1&amp;b=2)\n" = some (target, "\n".toList) ∧
      Text.contains (attr "src" "x?a=1&amp;amp;b=2") html = true ∧
      Text.contains (attr "data-preview-src" "x?a=1&amp;amp;b=2") html = true ∧
      decodeAttribute "x?a=1&amp;amp;b=2" = "x?a=1&amp;b=2".toList ∧
      sanitizeUrl target.url = "x?a=1&b=2".toList := by
  decide +kernel

end LivePage
