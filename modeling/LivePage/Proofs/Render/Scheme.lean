import LivePage.Render.Link

/-!
The scheme of an address as browsers read it. They strip controls and spaces at both ends, drop tabs
and line ends inside, and take what then stands before the first colon, if it is a letter followed by
letters, digits and a few marks. Sanitizing reads addresses in a coarser way and looks at their first
characters only; for every address that has a scheme both ways come to the same end.
-/

namespace LivePage

namespace Browser

/-- Controls of ASCII and the space, which are stripped at the ends. -/
def isEdge (c : Char) : Bool := c.toNat ≤ 32

def isTabOrLineEnd (c : Char) : Bool := c = '\t' || c = '\n' || c = '\r'

/-- The address without what browsers ignore in it. -/
def cleaned (url : Text) : Text := (Text.trim isEdge url).filter fun c => !isTabOrLineEnd c

def isSchemeChar (c : Char) : Bool := Text.isAsciiAlnum c || c = '+' || c = '-' || c = '.'

/-- A scheme from some character on, in lowercase letters. -/
def schemeFrom? : Text → Option Text
  | [] => none
  | c :: s =>
      if isSchemeChar c then (schemeFrom? s).map (Text.lowerAsciiChar c :: ·)
      else if c = ':' then some []
      else none

/-- The scheme of an address, in lowercase letters. -/
def scheme? (url : Text) : Option Text :=
  match cleaned url with
  | [] => none
  | c :: s =>
      if Text.isAsciiAlpha c then (schemeFrom? s).map (Text.lowerAsciiChar c :: ·) else none

/-- The address in lowercase letters without any blanks of ASCII and controls of Unicode. -/
def folded (url : Text) : Text :=
  Text.lowerAscii (url.filter fun c => !Text.isAsciiBlank c && !Text.isControl c)

end Browser

open Browser

theorem filter_dropWhile {p q : Char → Bool} (apart : ∀ c, p c = true → q c = false) (s : Text) :
    (s.dropWhile p).filter q = s.filter q := by
  induction s with
  | nil => rfl
  | cons c s ih =>
      cases dropped : p c with
      | true =>
          rw [List.dropWhile_cons_of_pos dropped, ih,
            List.filter_cons_of_neg (by simp [apart c dropped])]
      | false => rw [List.dropWhile_cons_of_neg (by simp [dropped])]

theorem filter_trim {p q : Char → Bool} (apart : ∀ c, p c = true → q c = false) (s : Text) :
    (Text.trim p s).filter q = s.filter q := by
  rw [Text.trim, Text.trimEnd, List.filter_reverse, filter_dropWhile apart, List.filter_reverse,
    List.reverse_reverse, Text.trimStart, filter_dropWhile apart]

theorem keeps_of_toNat {c : Char} (high : 32 < c.toNat) (low : c.toNat < 127) :
    (!Text.isAsciiBlank c && !Text.isControl c) = true := by
  have ne (d : Char) (other : d.toNat ≤ 32) : c ≠ d := fun same => by
    subst same
    omega
  simp [Text.isAsciiBlank, Text.isControl, ne ' ' (by decide), ne '\t' (by decide),
    ne '\n' (by decide), ne '\x0c' (by decide), ne '\r' (by decide)]
  omega

theorem folded_cleaned (url : Text) : folded (cleaned url) = folded url := by
  have edges (c : Char) (edge : isEdge c = true) :
      (!Text.isAsciiBlank c && !Text.isControl c) = false := by
    rw [isEdge, decide_eq_true_eq] at edge
    rcases Nat.lt_or_eq_of_le edge with low | space
    · simp [Text.isControl, low]
    · rw [show c = ' ' from Char.toNat_inj.1 space]
      rfl
  have inside (c : Char) (kept : (!Text.isAsciiBlank c && !Text.isControl c) = true) :
      (!isTabOrLineEnd c) = true := by
    simp only [Text.isAsciiBlank, isTabOrLineEnd, Bool.and_eq_true, Bool.not_eq_true',
      Bool.or_eq_false_iff, decide_eq_false_iff_not] at kept ⊢
    obtain ⟨⟨⟨⟨⟨_, tab⟩, feed⟩, _⟩, back⟩, _⟩ := kept
    exact ⟨⟨tab, feed⟩, back⟩
  rw [folded, folded, cleaned, List.filter_filter, ← filter_trim edges url]
  congr 1
  refine List.filter_congr fun c _ => ?_
  cases kept : !Text.isAsciiBlank c && !Text.isControl c with
  | true => rw [inside c kept, Bool.and_self]
  | false => rw [Bool.false_and]

theorem toNat_of_schemeChar {c : Char} (known : isSchemeChar c = true) :
    c.toNat = 43 ∨ c.toNat = 45 ∨ c.toNat = 46 ∨ (48 ≤ c.toNat ∧ c.toNat ≤ 57) ∨
      (65 ≤ c.toNat ∧ c.toNat ≤ 90) ∨ (97 ≤ c.toNat ∧ c.toNat ≤ 122) := by
  simp only [isSchemeChar, Text.isAsciiAlnum, Text.isAsciiAlpha, Text.isAsciiLower,
    Text.isAsciiUpper, Text.isAsciiDigit, Bool.or_eq_true, Bool.and_eq_true, decide_eq_true_eq]
    at known
  rcases known with ((((lower | upper) | digit) | rfl) | rfl) | rfl
  · exact .inr (.inr (.inr (.inr (.inr lower))))
  · exact .inr (.inr (.inr (.inr (.inl upper))))
  · exact .inr (.inr (.inr (.inl digit)))
  · exact .inl rfl
  · exact .inr (.inl rfl)
  · exact .inr (.inr (.inl rfl))

theorem keeps_schemeChar {c : Char} (known : isSchemeChar c = true) :
    (!Text.isAsciiBlank c && !Text.isControl c) = true := by
  have range := toNat_of_schemeChar known
  exact keeps_of_toNat (by omega) (by omega)

theorem lowerAsciiChar_ne_colon {c : Char} (known : isSchemeChar c = true) :
    Text.lowerAsciiChar c ≠ ':' := by
  have small : ∀ n < 128, isSchemeChar (Char.ofNat n) = true →
      Text.lowerAsciiChar (Char.ofNat n) ≠ ':' := by decide +kernel
  have range := toNat_of_schemeChar known
  rw [← Char.ofNat_toNat c] at known ⊢
  exact small c.toNat (by omega) known

theorem schemeFrom?_eq_some {s scheme : Text} (found : schemeFrom? s = some scheme) :
    ∃ name rest, s = name ++ ':' :: rest ∧ (∀ c ∈ name, isSchemeChar c = true) ∧
      scheme = Text.lowerAscii name := by
  induction s generalizing scheme with
  | nil => cases found
  | cons c s ih =>
      rw [schemeFrom?] at found
      split at found
      · next known =>
          obtain ⟨scheme', found', rfl⟩ := Option.map_eq_some_iff.1 found
          obtain ⟨name, rest, rfl, chars, rfl⟩ := ih found'
          exact ⟨c :: name, rest, rfl, List.forall_mem_cons.2 ⟨known, chars⟩, rfl⟩
      · split at found
        · next colon =>
            cases found
            exact ⟨[], s, by rw [colon]; rfl, List.forall_mem_nil _, rfl⟩
        · cases found

theorem folded_of_scheme {url scheme : Text} (found : scheme? url = some scheme) :
    ∃ rest, folded url = scheme ++ ':' :: rest ∧ ':' ∉ scheme := by
  obtain ⟨name, rest, shown, chars, rfl⟩ : ∃ name rest, cleaned url = name ++ ':' :: rest ∧
      (∀ c ∈ name, isSchemeChar c = true) ∧ scheme = Text.lowerAscii name := by
    unfold scheme? at found
    split at found
    · cases found
    · next c s shown =>
        split at found
        · next letter =>
            obtain ⟨scheme', found', rfl⟩ := Option.map_eq_some_iff.1 found
            obtain ⟨name, rest, rfl, chars, rfl⟩ := schemeFrom?_eq_some found'
            have known : isSchemeChar c = true := by
              rw [isSchemeChar, Text.isAsciiAlnum, letter, Bool.true_or, Bool.true_or, Bool.true_or,
                Bool.true_or]
            exact ⟨c :: name, rest, shown, List.forall_mem_cons.2 ⟨known, chars⟩, rfl⟩
        · cases found
  refine ⟨folded rest, ?_, ?_⟩
  · have kept : name.filter (fun c => !Text.isAsciiBlank c && !Text.isControl c) = name :=
      List.filter_eq_self.2 fun c member => keeps_schemeChar (chars c member)
    rw [← folded_cleaned, shown, folded, List.filter_append, kept, Text.lowerAscii, List.map_append]
    rfl
  · intro member
    obtain ⟨c, listed, same⟩ := List.mem_map.1 member
    exact lowerAsciiChar_ne_colon (chars c listed) same

theorem startsWith_schemeView {lead : Text} (short : lead.length ≤ 16) (url : Text) :
    Text.startsWith (schemeView url) lead = true ↔ lead <+: folded url := by
  have view : schemeView url = (folded url).take 16 := List.map_take
  rw [view, Text.startsWith, List.isPrefixOf_iff_prefix, List.prefix_take_iff]
  exact and_iff_left short

theorem isPrefix_colon_iff {name scheme rest : Text} (plain : ':' ∉ name) (other : ':' ∉ scheme) :
    name ++ [':'] <+: scheme ++ ':' :: rest ↔ scheme = name := by
  constructor
  · rintro ⟨behind, same⟩
    have first := congrArg (List.takeWhile fun c => decide (c ≠ ':')) same
    have all {s : Text} (absent : ':' ∉ s) : ∀ c ∈ s, decide (c ≠ ':') = true :=
      fun c member => decide_eq_true fun same => absent (same ▸ member)
    rw [List.append_assoc, List.singleton_append, List.takeWhile_append_of_pos (all plain),
      List.takeWhile_append_of_pos (all other), List.takeWhile_cons_of_neg (by decide),
      List.takeWhile_cons_of_neg (by decide), List.append_nil, List.append_nil] at first
    exact first.symm
  · rintro rfl
    exact ⟨rest, by rw [List.append_assoc]; rfl⟩

/-- An address with a scheme is refused exactly if that scheme is one that runs scripts or reaches
local files, or holds data other than an image of a few kinds; else it stays as it is. -/
theorem sanitizeUrl_of_scheme {url scheme : Text} (found : Browser.scheme? url = some scheme) :
    sanitizeUrl url =
      if scheme ∈ ["javascript".toList, "vbscript".toList, "file".toList] ∨
          scheme = "data".toList ∧ ∀ image ∈ ["data:image/gif;".toList, "data:image/png;".toList,
            "data:image/jpeg;".toList, "data:image/webp;".toList], ¬ image <+: Browser.folded url
      then [] else url := by
  obtain ⟨rest, shown, plain⟩ := folded_of_scheme found
  have named (name : Text) (short : name.length < 16) (other : ':' ∉ name) :
      Text.startsWith (schemeView url) (name ++ [':']) = true ↔ scheme = name := by
    have length : (name ++ [':']).length ≤ 16 := by
      rw [List.length_append]
      exact short
    rw [startsWith_schemeView length, shown, isPrefix_colon_iff other plain]
  have denied : deniedSchemes.any (Text.startsWith (schemeView url)) = true ↔
      scheme ∈ ["javascript".toList, "vbscript".toList, "file".toList] := by
    have colons : deniedSchemes =
        ["javascript".toList ++ [':'], "vbscript".toList ++ [':'], "file".toList ++ [':']] := by
      decide
    simp only [colons, List.any_cons, List.any_nil, Bool.or_false, Bool.or_eq_true,
      named "javascript" (by decide) (by decide), named "vbscript" (by decide) (by decide),
      named "file" (by decide) (by decide), List.mem_cons, List.not_mem_nil, or_false]
  have data : Text.startsWith (schemeView url) "data:" = true ↔ scheme = "data".toList :=
    named "data" (by decide) (by decide)
  have images : (!allowedData.any (Text.startsWith (schemeView url))) = true ↔
      ∀ image ∈ allowedData, ¬ image <+: Browser.folded url := by
    have short : ∀ image ∈ allowedData, image.length ≤ 16 := by decide
    rw [Bool.not_eq_true', List.any_eq_false]
    exact forall₂_congr fun image listed => not_congr (startsWith_schemeView (short image listed) url)
  have dangerous : isDangerousUrl url = true ↔ _ :=
    (Bool.or_eq_true ..).to_iff.trans (or_congr denied ((Bool.and_eq_true ..).to_iff.trans
      (and_congr data images)))
  rw [sanitizeUrl]
  exact ite_congr (propext dangerous) (fun _ => rfl) fun _ => rfl

/-- A scheme with a tab and a line end inside, behind a control and a space. -/
theorem sanitizeUrl_of_scheme_split :
    Browser.scheme? "\x01 jAva\tscr\nipt:alert(1)" = some "javascript".toList ∧
      sanitizeUrl "\x01 jAva\tscr\nipt:alert(1)" = [] := by
  have found : Browser.scheme? "\x01 jAva\tscr\nipt:alert(1)" = some "javascript".toList := by
    decide
  exact ⟨found, (sanitizeUrl_of_scheme found).trans (if_pos (.inl (by decide)))⟩

end LivePage
