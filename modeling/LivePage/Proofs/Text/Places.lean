import LivePage.Text.Span
import Mathlib.Data.List.TakeWhile

/-!
Places and bytes. The place of a byte is told by the line feeds in front of it; the span between two
places is read back with the starts of the lines as the bytes from the one to the other. A line feed
is one byte that occurs in no other character, so lines may be counted in the bytes of a text.
-/

namespace LivePage.Text

/-- The bytes of a text in UTF-8. -/
def bytes (s : Text) : List UInt8 := s.flatMap String.utf8EncodeChar

def lastLineStart (before : List UInt8) : Nat :=
  before.length - (before.reverse.takeWhile fun b => b ≠ 10).length

/-- The place of the byte at an offset. -/
def placeOf (source : Text) (offset : Nat) : Place :=
  let before := (bytes source).take offset
  ⟨1 + before.count 10, offset - lastLineStart before + 1⟩

/-- An offset at which a character begins, or the text ends. -/
def IsBoundary (source : Text) (offset : Nat) : Prop :=
  ∃ lead, lead <+: source ∧ (bytes lead).length = offset

theorem bytes_cons (c : Char) (s : Text) : bytes (c :: s) = String.utf8EncodeChar c ++ bytes s := rfl

theorem bytes_append (s t : Text) : bytes (s ++ t) = bytes s ++ bytes t := List.flatMap_append

theorem feed_not_mem_utf8EncodeChar {c : Char} (other : c ≠ '\n') :
    10 ∉ String.utf8EncodeChar c := by
  have low (n : Nat) : UInt8.ofNat n = 10 → n % 256 = 10 := fun same => by
    have bytes := congrArg UInt8.toNat same
    rwa [UInt8.toNat_ofNat'] at bytes
  have value : c.val.toNat ≠ 10 := fun same => other (Char.ext (UInt32.toNat_inj.1 same))
  intro member
  unfold String.utf8EncodeChar at member
  simp only at member
  split at member
  · have same := low _ (List.mem_singleton.1 member).symm
    omega
  -- the further bytes, and the first one of several, are all beyond ASCII
  split at member
  · simp only [List.mem_cons, List.not_mem_nil, or_false] at member
    rcases member with same | same <;> have same := low _ same.symm <;> omega
  split at member
  · simp only [List.mem_cons, List.not_mem_nil, or_false] at member
    rcases member with same | same | same <;> have same := low _ same.symm <;> omega
  · simp only [List.mem_cons, List.not_mem_nil, or_false] at member
    rcases member with same | same | same | same <;> have same := low _ same.symm <;> omega

theorem count_bytes (s : Text) : (bytes s).count 10 = s.count '\n' := by
  induction s with
  | nil => rfl
  | cons c s ih =>
      rw [bytes_cons, List.count_append, ih, List.count_cons]
      by_cases feed : c = '\n'
      · subst feed
        exact Nat.add_comm 1 _
      · rw [List.count_eq_zero.2 (feed_not_mem_utf8EncodeChar feed)]
        simp [feed]

/-- Offsets behind the line feeds among bytes that lie behind `at'` others. -/
def feedEnds (at' : Nat) : List UInt8 → List Nat
  | [] => []
  | b :: s => if b = 10 then (at' + 1) :: feedEnds (at' + 1) s else feedEnds (at' + 1) s

theorem feedEnds_append (at' : Nat) (s t : List UInt8) :
    feedEnds at' (s ++ t) = feedEnds at' s ++ feedEnds (at' + s.length) t := by
  induction s generalizing at' with
  | nil => rfl
  | cons b s ih =>
      rw [List.cons_append, feedEnds, feedEnds, ih, List.length_cons, Nat.add_right_comm,
        ← Nat.add_assoc]
      split <;> rfl

theorem feedEnds_of_not_mem {s : List UInt8} (none : 10 ∉ s) (at' : Nat) : feedEnds at' s = [] := by
  induction s generalizing at' with
  | nil => rfl
  | cons b s ih =>
      rw [List.mem_cons, not_or] at none
      rw [feedEnds, if_neg (Ne.symm none.1), ih none.2]

theorem lineStartsFrom_eq_feedEnds (at' : Nat) (s : Text) :
    lineStartsFrom at' s = feedEnds at' (bytes s) := by
  induction s generalizing at' with
  | nil => rfl
  | cons c s ih =>
      rw [lineStartsFrom, bytes_cons, feedEnds_append, String.length_utf8EncodeChar, ih]
      by_cases feed : c = '\n'
      · subst feed
        rfl
      · rw [feedEnds_of_not_mem (feed_not_mem_utf8EncodeChar feed)]
        exact if_neg feed

theorem lineStarts_eq_feedEnds (s : Text) : lineStarts s = 0 :: feedEnds 0 (bytes s) :=
  congrArg (0 :: ·) (lineStartsFrom_eq_feedEnds 0 s)

theorem length_feedEnds (at' : Nat) (s : List UInt8) : (feedEnds at' s).length = s.count 10 := by
  induction s generalizing at' with
  | nil => rfl
  | cons b s ih =>
      rw [feedEnds, List.count_cons]
      split
      · next feed => simp [ih, feed]
      · next other => simp [ih, other]

theorem lt_of_mem_feedEnds {at' offset : Nat} {s : List UInt8} (member : offset ∈ feedEnds at' s) :
    at' < offset := by
  induction s generalizing at' with
  | nil => cases member
  | cons b s ih =>
      rw [feedEnds] at member
      split at member
      · rcases List.mem_cons.1 member with rfl | later
        · exact Nat.lt_succ_self at'
        · exact Nat.lt_of_succ_lt (ih later)
      · exact Nat.lt_of_succ_lt (ih member)

theorem feedEnds_increasing (at' : Nat) (s : List UInt8) : (feedEnds at' s).Pairwise (· < ·) := by
  induction s generalizing at' with
  | nil => exact .nil
  | cons b s ih =>
      rw [feedEnds]
      split
      · exact List.pairwise_cons.2 ⟨fun _ later => lt_of_mem_feedEnds later, ih _⟩
      · exact ih _

theorem lineStarts_increasing (s : Text) : (lineStarts s).Pairwise (· < ·) := by
  rw [lineStarts_eq_feedEnds]
  exact List.pairwise_cons.2 ⟨fun _ later => lt_of_mem_feedEnds later, feedEnds_increasing 0 _⟩

theorem length_lineStarts (s : Text) : (lineStarts s).length = s.count '\n' + 1 := by
  rw [lineStarts_eq_feedEnds, List.length_cons, length_feedEnds, count_bytes]

theorem lastLineStart_le (before : List UInt8) : lastLineStart before ≤ before.length :=
  Nat.sub_le _ _

theorem lastLineStart_of_not_mem {before : List UInt8} (none : 10 ∉ before) :
    lastLineStart before = 0 := by
  have whole : before.reverse.takeWhile (fun b => b ≠ 10) = before.reverse := by
    refine List.takeWhile_eq_self_iff.2 fun b member => decide_eq_true fun feed => none ?_
    exact feed ▸ List.mem_reverse.1 member
  rw [lastLineStart, whole, List.length_reverse, Nat.sub_self]

theorem lastLineStart_cons {b : UInt8} {before : List UInt8} (feed : 10 ∈ b :: before) :
    lastLineStart (b :: before) = lastLineStart before + 1 := by
  have short : (before.reverse.takeWhile fun b => b ≠ 10).length ≤ before.length :=
    before.length_reverse ▸ (List.takeWhile_prefix _).length_le
  have stops : (before.reverse ++ [b]).takeWhile (fun b => b ≠ 10) =
      before.reverse.takeWhile fun b => b ≠ 10 := by
    rw [List.takeWhile_append]
    split
    · next whole =>
        have all := List.IsPrefix.eq_of_length (List.takeWhile_prefix _) whole
        have here : 10 = b := (List.mem_cons.1 feed).resolve_right fun later =>
          absurd rfl (of_decide_eq_true
            (List.takeWhile_eq_self_iff.1 all 10 (List.mem_reverse.2 later)))
        subst here
        rw [all]
        exact List.append_nil _
    · rfl
  rw [lastLineStart, List.reverse_cons, stops, List.length_cons, lastLineStart]
  omega

theorem getElem?_feedEnds (at' offset : Nat) (s : List UInt8) :
    (at' :: feedEnds at' s)[(s.take offset).count 10]? =
      some (at' + lastLineStart (s.take offset)) := by
  induction s generalizing at' offset with
  | nil => simp [lastLineStart]
  | cons b s ih =>
      cases offset with
      | zero => rfl
      | succ offset =>
          have next := ih (at' + 1) offset
          rw [List.take_succ_cons, List.count_cons, feedEnds]
          by_cases feed : b = 10
          · subst feed
            rw [if_pos rfl, lastLineStart_cons List.mem_cons_self]
            simpa [Nat.add_assoc, Nat.add_comm 1] using next
          · have stays : (b == 10) = false := beq_false_of_ne feed
            rw [if_neg feed, stays]
            simp only [Bool.false_eq_true, if_false, Nat.add_zero]
            by_cases later : 10 ∈ s.take offset
            · obtain ⟨n, count⟩ := Nat.exists_eq_succ_of_ne_zero
                (Nat.ne_of_gt (List.count_pos_iff.2 later))
              rw [count, List.getElem?_cons_succ] at next ⊢
              rw [next, lastLineStart_cons (List.mem_cons_of_mem b later)]
              exact congrArg some (by omega)
            · have none : 10 ∉ b :: s.take offset := by simp [later, Ne.symm feed]
              rw [List.count_eq_zero.2 later, lastLineStart_of_not_mem none]
              rfl

theorem lineStarts_placeOf (source : Text) (offset : Nat) :
    (lineStarts source)[(placeOf source offset).line - 1]? =
      some (lastLineStart ((bytes source).take offset)) := by
  have found := getElem?_feedEnds 0 offset (bytes source)
  rw [Nat.zero_add] at found
  rw [lineStarts_eq_feedEnds, placeOf, Nat.add_sub_cancel_left]
  exact found

theorem range?_placeOf (source : Text) {first last : Nat} (present : first < last) :
    (Span.mk (placeOf source first) (placeOf source (last - 1))).range? (lineStarts source) =
      some (first, last) := by
  have before (offset : Nat) : lastLineStart ((bytes source).take offset) ≤ offset :=
    Nat.le_trans (lastLineStart_le _) (List.length_take_le _ _)
  have left := before first
  have right := before (last - 1)
  have lines : (placeOf source first).line ≠ 0 ∧ (placeOf source (last - 1)).line ≠ 0 ∧
      (placeOf source first).column ≠ 0 := by
    simp only [placeOf]
    omega
  have begins : lastLineStart ((bytes source).take first) +
      ((placeOf source first).column - 1) = first := by
    simp only [placeOf]
    omega
  have ends : lastLineStart ((bytes source).take (last - 1)) +
      (placeOf source (last - 1)).column = last := by
    simp only [placeOf]
    omega
  rw [Span.range?, if_neg (by simp [lines]), lineStarts_placeOf, lineStarts_placeOf]
  simp only [Option.bind_some, begins, ends, present, if_true]

theorem length_bytes_cons (c : Char) (s : Text) :
    (bytes (c :: s)).length = c.utf8Size + (bytes s).length := by
  rw [bytes_cons, List.length_append, String.length_utf8EncodeChar]

theorem dropBytes?_size_add (c : Char) (n : Nat) (s : Text) :
    dropBytes? (c.utf8Size + n) (c :: s) = dropBytes? n s := by
  obtain ⟨k, size⟩ := Nat.exists_eq_add_one.2 c.utf8Size_pos
  have left : k + n + 1 - (k + 1) = n := by omega
  rw [size, Nat.add_right_comm, dropBytes?, size, if_pos (by omega), left]

theorem takeBytes?_size_add (c : Char) (n : Nat) (s : Text) :
    takeBytes? (c.utf8Size + n) (c :: s) = (takeBytes? n s).map (c :: ·) := by
  obtain ⟨k, size⟩ := Nat.exists_eq_add_one.2 c.utf8Size_pos
  have left : k + n + 1 - (k + 1) = n := by omega
  rw [size, Nat.add_right_comm, takeBytes?, size, if_pos (by omega), left]

theorem dropBytes?_append (lead s : Text) : dropBytes? (bytes lead).length (lead ++ s) = some s := by
  induction lead with
  | nil => cases s <;> rfl
  | cons c lead ih => rw [length_bytes_cons, List.cons_append, dropBytes?_size_add, ih]

theorem takeBytes?_append (shown s : Text) :
    takeBytes? (bytes shown).length (shown ++ s) = some shown := by
  induction shown with
  | nil => cases s <;> rfl
  | cons c shown ih =>
      rw [length_bytes_cons, List.cons_append, takeBytes?_size_add, ih, Option.map_some]

theorem slice?_append (lead shown s : Text) :
    slice? (lead ++ (shown ++ s)) (bytes lead).length (bytes (lead ++ shown)).length =
      some shown := by
  rw [slice?, bytes_append, List.length_append, if_pos (Nat.le_add_right _ _), dropBytes?_append,
    Nat.add_sub_cancel_left]
  exact takeBytes?_append shown s

theorem exists_between {source : Text} {first last : Nat} (begins : IsBoundary source first)
    (ends : IsBoundary source last) (ordered : first < last) :
    ∃ lead shown rest, source = lead ++ (shown ++ rest) ∧ (bytes lead).length = first ∧
      (bytes (lead ++ shown)).length = last := by
  obtain ⟨lead, front, rfl⟩ := begins
  obtain ⟨longer, ⟨rest, whole⟩, rfl⟩ := ends
  rcases List.prefix_or_prefix_of_prefix front ⟨rest, whole⟩ with ⟨shown, rfl⟩ | ⟨more, rfl⟩
  · exact ⟨lead, shown, rest, by rw [← whole, List.append_assoc], rfl, rfl⟩
  · rw [bytes_append, List.length_append] at ordered
    omega

/-- The starts of the lines are increasing from zero on, one more than there are line feeds. With
them the span from the place of the first byte of a range to that of its last, both included, is read
back as the range, and as the text that has these bytes. -/
theorem places_round_trip (source : Text) :
    ((lineStarts source).Pairwise (· < ·) ∧ (lineStarts source).head? = some 0 ∧
      (lineStarts source).length = source.count '\n' + 1) ∧
    ∀ first last, IsBoundary source first → IsBoundary source last → first < last →
      let span : Span := ⟨placeOf source first, placeOf source (last - 1)⟩
      span.range? (lineStarts source) = some (first, last) ∧
      ∃ shown, span.slice? (lineStarts source) source = some shown ∧
        bytes shown = ((bytes source).take last).drop first := by
  refine ⟨⟨lineStarts_increasing source, rfl, length_lineStarts source⟩, ?_⟩
  intro first last begins ends present span
  have range := range?_placeOf source present
  obtain ⟨lead, shown, rest, rfl, rfl, rfl⟩ := exists_between begins ends present
  refine ⟨range, shown, ?_, ?_⟩
  · rw [Span.slice?, range]
    exact slice?_append lead shown rest
  · rw [← List.append_assoc, bytes_append (lead ++ shown), List.take_left, bytes_append,
      List.drop_left]

/-- A range that begins behind a character of two bytes and ends behind a line feed. -/
theorem places_round_trip_feeds :
    let source : Text := "é\n日b\n"
    let span : Span := ⟨placeOf source 2, placeOf source (8 - 1)⟩
    IsBoundary source 2 ∧ IsBoundary source 8 ∧ 2 < 8 ∧ span = ⟨⟨1, 3⟩, ⟨2, 5⟩⟩ ∧
      span.range? (lineStarts source) = some (2, 8) ∧
      ∃ shown, span.slice? (lineStarts source) source = some shown ∧
        bytes shown = ((bytes source).take 8).drop 2 := by
  intro source span
  have begins : IsBoundary source 2 := ⟨"é", by decide +kernel, by decide +kernel⟩
  have ends : IsBoundary source 8 := ⟨source, List.prefix_rfl, by decide +kernel⟩
  have ordered : 2 < 8 := by decide
  exact ⟨begins, ends, ordered, by decide +kernel,
    (places_round_trip source).2 2 8 begins ends ordered⟩

end LivePage.Text
