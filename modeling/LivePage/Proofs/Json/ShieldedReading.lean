import LivePage.Proofs.Json.Shielding

/-!
JSON text says the same with its end tags shielded, whatever text it is: both texts are read to the
same value, or neither is JSON. The reader goes through the two texts in step, and the fuel that
suffices for the first suffices for both. Where reading fails the faults may differ in their places.
-/

namespace LivePage.Json

def Draft.Sound (d : Draft) : Prop := ∃ v, d.value = .ok v

def SoundField (field : Text × Draft) : Prop := field.2.Sound

theorem not_sound_broken (f : Fault) : ¬(Draft.broken f).Sound := by
  rintro ⟨v, value⟩
  cases value

theorem not_soundField_broken (key : Text) (f : Fault) : ¬SoundField (key, .broken f) :=
  not_sound_broken f

theorem exists_values_iff {ds : List Draft} :
    (∃ vs, Draft.values ds = .ok vs) ↔ ∀ d ∈ ds, d.Sound := by
  induction ds with
  | nil => exact ⟨fun _ => nofun, fun _ => ⟨[], rfl⟩⟩
  | cons d ds ih =>
      rw [List.forall_mem_cons, ← ih]
      constructor
      · rintro ⟨vs, values⟩
        obtain ⟨v, rest, value, others, _⟩ := values_cons values
        exact ⟨⟨v, value⟩, rest, others⟩
      · rintro ⟨⟨v, value⟩, rest, others⟩
        exact ⟨v :: rest, by rw [Draft.values, value, others]; rfl⟩

theorem exists_fieldValues_iff {ds : List (Text × Draft)} (seen : Fields) :
    (∃ fields, Draft.fieldValues seen ds = .ok fields) ↔ ∀ d ∈ ds, SoundField d := by
  induction ds generalizing seen with
  | nil => exact ⟨fun _ => nofun, fun _ => ⟨seen, rfl⟩⟩
  | cons d ds ih =>
      obtain ⟨key, d⟩ := d
      rw [List.forall_mem_cons]
      constructor
      · rintro ⟨fields, values⟩
        obtain ⟨v, value, others⟩ := fieldValues_cons values
        exact ⟨⟨v, value⟩, (ih _).1 ⟨fields, others⟩⟩
      · rintro ⟨⟨v, value⟩, others⟩
        obtain ⟨fields, values⟩ := (ih (seen.insert key v)).2 others
        exact ⟨fields, by rw [Draft.fieldValues, value]; exact values⟩

/-- A list that was read to its end and has no fault in it. -/
def Whole {β : Type} (sound : β → Prop) (list : List β × Option Fault) : Prop :=
  (∀ x ∈ list.1, sound x) ∧ list.2 = none

theorem sound_array_iff {ds : List Draft} {stop : Option Fault} :
    (Draft.array ds stop).Sound ↔ Whole Draft.Sound (ds, stop) := by
  rw [Whole, ← exists_values_iff]
  constructor
  · rintro ⟨v, value⟩
    obtain ⟨ended, vs, values, _⟩ := value_array value
    exact ⟨⟨vs, values⟩, ended⟩
  · rintro ⟨⟨vs, values⟩, rfl⟩
    exact ⟨.array vs, by rw [Draft.value, values]; rfl⟩

theorem sound_object_iff {ds : List (Text × Draft)} {stop : Option Fault} :
    (Draft.object ds stop).Sound ↔ Whole SoundField (ds, stop) := by
  rw [Whole, ← exists_fieldValues_iff []]
  constructor
  · rintro ⟨v, value⟩
    obtain ⟨ended, fields, values, _⟩ := value_object value
    exact ⟨⟨fields, values⟩, ended⟩
  · rintro ⟨⟨fields, values⟩, rfl⟩
    exact ⟨.object fields, by rw [Draft.value, values]; rfl⟩

/-- Both have a fault, or both are the same, and leave texts of which the second is the first
shielded. -/
inductive Agree {α : Type} (sound : α → Prop) (bound : Nat) : α × Text → α × Text → Prop where
  | same {x : α} {r : Text} :
      sound x → r.length < bound → Agree sound bound (x, r) (x, shielded r)
  | broken {x y : α} {r t : Text} : ¬sound x → ¬sound y → Agree sound bound (x, r) (y, t)

/-- A list, the fault that ended it, and what was left. -/
abbrev ListRead (β : Type) := List β × Option Fault × Text

def ListRead.parted {β : Type} (read : ListRead β) : (List β × Option Fault) × Text :=
  ((read.1, read.2.1), read.2.2)

def AgreeAll {β : Type} (sound : β → Prop) (bound : Nat) (read read' : ListRead β) : Prop :=
  Agree (Whole sound) bound read.parted read'.parted

section Agree

variable {α β : Type} {bound bound' : Nat}

theorem Agree.mono {sound : α → Prop} {x y : α × Text} (agree : Agree sound bound x y)
    (room : bound ≤ bound') : Agree sound bound' x y := by
  cases agree with
  | same fine short => exact .same fine (Nat.lt_of_lt_of_le short room)
  | broken bad bad' => exact .broken bad bad'

theorem AgreeAll.mono {sound : β → Prop} {x y : ListRead β} (agree : AgreeAll sound bound x y)
    (room : bound ≤ bound') : AgreeAll sound bound' x y :=
  Agree.mono agree room

theorem AgreeAll.stopped {sound : β → Prop} {xs ys : List β} {f g : Fault} {r t : Text} :
    AgreeAll sound bound (xs, some f, r) (ys, some g, t) :=
  .broken (fun whole => nomatch whole.2) (fun whole => nomatch whole.2)

theorem AgreeAll.ended {sound : β → Prop} {r : Text} (short : r.length < bound) :
    AgreeAll sound bound ([], none, r) ([], none, shielded r) :=
  .same ⟨nofun, rfl⟩ short

theorem AgreeAll.cons {sound : β → Prop} {x y : ListRead β} (agree : AgreeAll sound bound x y)
    {b : β} (fine : sound b) :
    AgreeAll sound bound (b :: x.1, x.2.1, x.2.2) (b :: y.1, y.2.1, y.2.2) := by
  obtain ⟨xs, stop, r⟩ := x
  obtain ⟨ys, stop', t⟩ := y
  have longer {bs : List β} {f : Option Fault} :
      Whole sound (b :: bs, f) ↔ Whole sound (bs, f) := by
    rw [Whole, Whole, List.forall_mem_cons, and_iff_right fine]
  unfold AgreeAll ListRead.parted at agree ⊢
  cases agree with
  | same whole short => exact .same (longer.2 whole) short
  | broken bad bad' => exact .broken (mt longer.1 bad) (mt longer.1 bad')

theorem AgreeAll.faulty {sound : β → Prop} {b b' : β} (bad : ¬sound b) (bad' : ¬sound b')
    {xs ys : List β} {stop stop' : Option Fault} {r t : Text} :
    AgreeAll sound bound (b :: xs, stop, r) (b' :: ys, stop', t) :=
  .broken (fun whole => bad (whole.1 b List.mem_cons_self))
    (fun whole => bad' (whole.1 b' List.mem_cons_self))

/-- Drafts of the lists agree if they are sound just when the lists are. -/
theorem AgreeAll.draft {sound : β → Prop} {draft : List β → Option Fault → Draft}
    (sound_iff : ∀ xs stop, (draft xs stop).Sound ↔ Whole sound (xs, stop)) {x y : ListRead β}
    (agree : AgreeAll sound bound x y) :
    Agree Draft.Sound bound (draft x.1 x.2.1, x.2.2) (draft y.1 y.2.1, y.2.2) := by
  obtain ⟨xs, stop, r⟩ := x
  obtain ⟨ys, stop', t⟩ := y
  unfold AgreeAll ListRead.parted at agree
  cases agree with
  | same whole short => exact .same ((sound_iff xs stop).2 whole) short
  | broken bad bad' =>
      exact .broken (mt (sound_iff xs stop).1 bad) (mt (sound_iff ys stop').1 bad')

theorem AgreeAll.array {x y : ListRead Draft} (agree : AgreeAll Draft.Sound bound x y) :
    Agree Draft.Sound bound (.array x.1 x.2.1, x.2.2) (.array y.1 y.2.1, y.2.2) :=
  agree.draft fun _ _ => sound_array_iff

theorem AgreeAll.object {x y : ListRead (Text × Draft)}
    (agree : AgreeAll SoundField bound x y) :
    Agree Draft.Sound bound (.object x.1 x.2.1, x.2.2) (.object y.1 y.2.1, y.2.2) :=
  agree.draft fun _ _ => sound_object_iff

end Agree

theorem readWord_follows {word : Text} (free : '<' ∉ word) (s : Text) :
    (∃ r, readWord word s = .ok r ∧ readWord word (shielded s) = .ok (shielded r)) ∨
      ∃ f g, readWord word s = .error f ∧ readWord word (shielded s) = .error g := by
  induction word generalizing s with
  | nil => exact .inl ⟨s, rfl, rfl⟩
  | cons c word ih =>
      rw [List.mem_cons, not_or] at free
      cases s with
      | nil => exact .inr ⟨_, _, rfl, rfl⟩
      | cons d s =>
          by_cases same : c = d
          · subst same
            rw [shielded_cons (Ne.symm free.1), readWord, readWord, if_pos rfl, if_pos rfl]
            exact ih free.2 s
          · obtain ⟨t, shown⟩ := exists_shielded_cons d s
            rw [shown, readWord, readWord, if_neg same, if_neg same]
            exact .inr ⟨_, _, rfl, rfl⟩

theorem draftWord_agree {word : Text} (free : '<' ∉ word) {v : Draft} (fine : v.Sound) (s : Text) :
    Agree Draft.Sound (s.length + 1) (draftWord word v s) (draftWord word v (shielded s)) := by
  obtain ⟨r, read, read'⟩ | ⟨f, g, read, read'⟩ := readWord_follows free s
  · rw [draftWord, draftWord, read, read']
    exact .same fine (Nat.lt_succ_of_le (readWord_suffix read).length_le)
  · rw [draftWord, draftWord, read, read']
    exact .broken (not_sound_broken f) (not_sound_broken g)

theorem draftNumber_agree (negative : Bool) (s : Text) :
    Agree Draft.Sound s.length (draftNumber negative s) (draftNumber negative (shielded s)) := by
  cases s with
  | nil => exact .broken (not_sound_broken _) (not_sound_broken _)
  | cons c s =>
      have alike := readNumber_follows negative c s
      unfold draftNumber
      generalize readNumber negative (c :: s) = x at alike
      generalize readNumber negative (shielded (c :: s)) = y at alike
      cases alike with
      | ok behind => exact .same ⟨_, rfl⟩ (Nat.lt_succ_of_le behind.length_le)
      | error => exact .broken (not_sound_broken _) (not_sound_broken _)

theorem readValue_first {s r : Text} {c : Char} (shown : skipBlank s = c :: r) (fuel depth : Nat) :
    readValue (fuel + 1) depth s =
      if c = 'n' then draftWord "ull" .null r
      else if c = 't' then draftWord "rue" (.bool true) r
      else if c = 'f' then draftWord "alse" (.bool false) r
      else if c = '-' then draftNumber true r
      else if c = '\x22' then
        match readString r with
        | .ok (t, r) => (.string t, r)
        | .error f => (.broken f, r)
      else if c = '[' then
        if depth ≤ 1 then (.broken (.ahead .tooDeep (c :: r)), c :: r)
        else
          let read := readItems fuel (depth - 1) true r
          (.array read.1 read.2.1, read.2.2)
      else if c = '\x7b' then
        if depth ≤ 1 then (.broken (.ahead .tooDeep (c :: r)), c :: r)
        else
          let read := readFields fuel (depth - 1) true r
          (.object read.1 read.2.1, read.2.2)
      else if Text.isAsciiDigit c then draftNumber false (c :: r)
      else (.broken (.ahead .expectedValue (c :: r)), c :: r) := by
  rw [readValue, shown]
  simp only
  split
  case h_9 => simp_all
  all_goals
    next h =>
      cases h
      try rfl

theorem readItem_of_sound {fuel depth : Nat} {s r : Text} {d : Draft}
    (read : readValue fuel depth s = (d, r)) (fine : d.Sound) :
    readItem (fuel + 1) depth s =
      (d :: (readItems fuel depth false r).1, (readItems fuel depth false r).2) := by
  rw [readItem, read]
  split
  · next h =>
      cases h
      exact absurd fine (not_sound_broken _)
  · next h =>
      cases h
      cases (sound_array_iff.1 fine).2
  · next h =>
      cases h
      cases (sound_object_iff.1 fine).2
  · next h =>
      cases h
      rfl

theorem readItem_head {fuel depth : Nat} {s r : Text} {d : Draft}
    (read : readValue fuel depth s = (d, r)) :
    ∃ ds stop rest, readItem (fuel + 1) depth s = (d :: ds, stop, rest) := by
  rw [readItem, read]
  split
  all_goals
    next h =>
      cases h
      exact ⟨_, _, _, rfl⟩

def readItemsBehind (fuel depth : Nat) (s : Text) : ListRead Draft :=
  match s with
  | [] => ([], some (.ahead .endInValue []), [])
  | ']' :: r => ([], some (.ahead .trailingComma (']' :: r)), r)
  | s => readItem fuel depth s

theorem readItems_nil {s : Text} (shown : skipBlank s = []) (fuel depth : Nat) (first : Bool) :
    readItems (fuel + 1) depth first s = ([], some (.ahead .endInList []), []) := by
  simp [readItems, shown]

theorem readItems_cons {s r : Text} {c : Char} (shown : skipBlank s = c :: r) (fuel depth : Nat)
    (first : Bool) :
    readItems (fuel + 1) depth first s =
      if c = ']' then ([], none, r)
      else if first then readItem fuel depth (c :: r)
      else if c = ',' then readItemsBehind fuel depth (skipBlank r)
      else ([], some (.ahead .expectedCommaInList (c :: r)), c :: r) := by
  by_cases close : c = ']'
  · subst close
    simp [readItems, shown]
  · simp only [readItems, shown, if_neg close]
    rfl

theorem readItemsBehind_cons {c : Char} {r : Text} (fuel depth : Nat) :
    readItemsBehind fuel depth (c :: r) =
      if c = ']' then ([], some (.ahead .trailingComma (']' :: r)), r)
      else readItem fuel depth (c :: r) := by
  by_cases close : c = ']'
  · subst close
    rfl
  · simp [readItemsBehind, close]

def readFieldsBehind (fuel depth : Nat) (s : Text) : ListRead (Text × Draft) :=
  match s with
  | [] => ([], some (.ahead .endInValue []), [])
  | '\x22' :: r => readField fuel depth r
  | '\x7d' :: r => ([], some (.ahead .trailingComma ('\x7d' :: r)), r)
  | s => ([], some (.ahead .keyNotString s), s)

theorem readFields_nil {s : Text} (shown : skipBlank s = []) (fuel depth : Nat) (first : Bool) :
    readFields (fuel + 1) depth first s = ([], some (.ahead .endInObject []), []) := by
  simp [readFields, shown]

theorem readFields_cons {s r : Text} {c : Char} (shown : skipBlank s = c :: r) (fuel depth : Nat)
    (first : Bool) :
    readFields (fuel + 1) depth first s =
      if c = '\x7d' then ([], none, r)
      else if first then
        if c = '\x22' then readField fuel depth r
        else ([], some (.ahead .keyNotString (c :: r)), c :: r)
      else if c = ',' then readFieldsBehind fuel depth (skipBlank r)
      else ([], some (.ahead .expectedCommaInObject (c :: r)), c :: r) := by
  by_cases close : c = '\x7d'
  · subst close
    simp [readFields, shown]
  · simp only [readFields, shown, if_neg close]
    rfl

theorem readFieldsBehind_cons {c : Char} {r : Text} (fuel depth : Nat) :
    readFieldsBehind fuel depth (c :: r) =
      if c = '\x22' then readField fuel depth r
      else if c = '\x7d' then ([], some (.ahead .trailingComma ('\x7d' :: r)), r)
      else ([], some (.ahead .keyNotString (c :: r)), c :: r) := by
  by_cases quote : c = '\x22'
  · subst quote
    rfl
  · by_cases close : c = '\x7d'
    · subst close
      rfl
    · simp [readFieldsBehind, quote, close]

def readNamed (fuel depth : Nat) (key s : Text) : ListRead (Text × Draft) :=
  match readValue fuel depth s with
  | (.broken f, rest) => ([(key, .broken f)], none, rest)
  | (.array items (some f), rest) => ([(key, .array items (some f))], none, rest)
  | (.object fields (some f), rest) => ([(key, .object fields (some f))], none, rest)
  | (v, rest) =>
      let (fields, stop, rest) := readFields fuel depth false rest
      ((key, v) :: fields, stop, rest)

theorem readNamed_of_sound {fuel depth : Nat} {key s r : Text} {d : Draft}
    (read : readValue fuel depth s = (d, r)) (fine : d.Sound) :
    readNamed fuel depth key s =
      ((key, d) :: (readFields fuel depth false r).1, (readFields fuel depth false r).2) := by
  rw [readNamed, read]
  split
  · next h =>
      cases h
      exact absurd fine (not_sound_broken _)
  · next h =>
      cases h
      cases (sound_array_iff.1 fine).2
  · next h =>
      cases h
      cases (sound_object_iff.1 fine).2
  · next h =>
      cases h
      rfl

theorem readNamed_head {fuel depth : Nat} (key : Text) {s r : Text} {d : Draft}
    (read : readValue fuel depth s = (d, r)) :
    ∃ ds stop rest, readNamed fuel depth key s = ((key, d) :: ds, stop, rest) := by
  rw [readNamed, read]
  split
  all_goals
    next h =>
      cases h
      exact ⟨_, _, _, rfl⟩

def readFieldBehind (fuel depth : Nat) (key s : Text) : ListRead (Text × Draft) :=
  match s with
  | [] => ([(key, .broken (.ahead .endInObject []))], none, [])
  | ':' :: s => readNamed fuel depth key s
  | s => ([(key, .broken (.ahead .expectedColon s))], none, s)

theorem readField_error {s : Text} {f : Fault} (read : readString s = .error f)
    (fuel depth : Nat) : readField (fuel + 1) depth s = ([], some f, s) := by
  simp [readField, read]

theorem readField_ok {s r : Text} {key : Text} (read : readString s = .ok (key, r))
    (fuel depth : Nat) :
    readField (fuel + 1) depth s = readFieldBehind fuel depth key (skipBlank r) := by
  rw [readField, read]
  rfl

theorem readFieldBehind_cons {c : Char} {key r : Text} (fuel depth : Nat) :
    readFieldBehind fuel depth key (c :: r) =
      if c = ':' then readNamed fuel depth key r
      else ([(key, .broken (.ahead .expectedColon (c :: r)))], none, c :: r) := by
  by_cases colon : c = ':'
  · subst colon
    rfl
  · simp [readFieldBehind, colon]

theorem draftString_agree (s : Text) :
    Agree Draft.Sound (s.length + 1)
      (match readString s with
        | .ok (t, r) => (.string t, r)
        | .error f => (.broken f, s))
      (match readString (shielded s) with
        | .ok (t, r) => (.string t, r)
        | .error f => (.broken f, shielded s)) := by
  have alike := readString_follows s
  generalize readString s = x at alike
  generalize readString (shielded s) = y at alike
  cases alike with
  | ok behind => exact .same ⟨_, rfl⟩ (Nat.lt_succ_of_le behind.length_le)
  | error => exact .broken (not_sound_broken _) (not_sound_broken _)

theorem length_skipBlank_le (s : Text) : (skipBlank s).length ≤ s.length :=
  (List.dropWhile_suffix _).length_le

mutual

theorem readValue_agree {fuel fuel' depth : Nat} {s : Text} (enough : 3 * s.length + 1 ≤ fuel)
    (enough' : 3 * s.length + 1 ≤ fuel') :
    Agree Draft.Sound s.length (readValue fuel depth s) (readValue fuel' depth (shielded s)) := by
  obtain ⟨fuel, rfl⟩ : ∃ k, fuel = k + 1 := ⟨fuel - 1, by omega⟩
  obtain ⟨fuel', rfl⟩ : ∃ k, fuel' = k + 1 := ⟨fuel' - 1, by omega⟩
  have shown' := skipBlank_shielded s
  have part := length_skipBlank_le s
  cases shown : skipBlank s with
  | nil =>
      rw [shown, shielded_nil] at shown'
      rw [readValue, readValue, shown, shown']
      exact .broken (not_sound_broken _) (not_sound_broken _)
  | cons c r =>
      rw [shown] at shown' part
      rw [List.length_cons] at part
      by_cases bracket : c = '<'
      · subst bracket
        obtain ⟨t, whole⟩ := exists_shielded_cons '<' r
        rw [readValue_first shown, readValue_first (shown'.trans whole)]
        exact .broken (not_sound_broken _) (not_sound_broken _)
      · rw [shielded_cons bracket] at shown'
        rw [readValue_first shown, readValue_first shown']
        split_ifs with _ _ _ _ _ _ deep _ deep
        · exact (draftWord_agree (by decide) ⟨_, rfl⟩ r).mono part
        · exact (draftWord_agree (by decide) ⟨_, rfl⟩ r).mono part
        · exact (draftWord_agree (by decide) ⟨_, rfl⟩ r).mono part
        · exact (draftNumber_agree true r).mono (by omega)
        · exact (draftString_agree r).mono part
        · exact .broken (not_sound_broken _) (not_sound_broken _)
        · exact (readItems_agree (by omega) (by omega)).array.mono (by omega)
        · exact .broken (not_sound_broken _) (not_sound_broken _)
        · exact (readFields_agree (by omega) (by omega)).object.mono (by omega)
        · have number := draftNumber_agree false (c :: r)
          rw [shielded_cons bracket] at number
          exact number.mono part
        · exact .broken (not_sound_broken _) (not_sound_broken _)

theorem readItems_agree {fuel fuel' depth : Nat} {first : Bool} {s : Text}
    (enough : 3 * s.length + 3 ≤ fuel) (enough' : 3 * s.length + 3 ≤ fuel') :
    AgreeAll Draft.Sound s.length (readItems fuel depth first s)
      (readItems fuel' depth first (shielded s)) := by
  obtain ⟨fuel, rfl⟩ : ∃ k, fuel = k + 1 := ⟨fuel - 1, by omega⟩
  obtain ⟨fuel', rfl⟩ : ∃ k, fuel' = k + 1 := ⟨fuel' - 1, by omega⟩
  have shown' := skipBlank_shielded s
  have part := length_skipBlank_le s
  cases shown : skipBlank s with
  | nil =>
      rw [shown, shielded_nil] at shown'
      rw [readItems_nil shown, readItems_nil shown']
      exact .stopped
  | cons c r =>
      rw [shown] at shown' part
      have item : AgreeAll Draft.Sound s.length (readItem fuel depth (c :: r))
          (readItem fuel' depth (shielded (c :: r))) :=
        (readItem_agree (by omega) (by omega)).mono part
      rw [List.length_cons] at part
      obtain ⟨t, whole⟩ := exists_shielded_cons c r
      rw [whole] at item shown'
      rw [readItems_cons shown, readItems_cons shown']
      split_ifs with close _ comma
      · subst close
        rw [shielded_cons (by decide)] at whole
        cases whole
        exact .ended part
      · exact item
      · subst comma
        rw [shielded_cons (by decide)] at whole
        cases whole
        rw [skipBlank_shielded]
        have inner := length_skipBlank_le r
        generalize skipBlank r = rest at inner ⊢
        cases rest with
        | nil => exact .stopped
        | cons d r' =>
            have next : AgreeAll Draft.Sound s.length (readItem fuel depth (d :: r'))
                (readItem fuel' depth (shielded (d :: r'))) :=
              (readItem_agree (by omega) (by omega)).mono (by omega)
            obtain ⟨t', whole'⟩ := exists_shielded_cons d r'
            rw [whole'] at next ⊢
            rw [readItemsBehind_cons, readItemsBehind_cons]
            split_ifs
            · exact .stopped
            · exact next
      · exact .stopped

theorem readItem_agree {fuel fuel' depth : Nat} {s : Text} (enough : 3 * s.length + 2 ≤ fuel)
    (enough' : 3 * s.length + 2 ≤ fuel') :
    AgreeAll Draft.Sound s.length (readItem fuel depth s) (readItem fuel' depth (shielded s)) := by
  obtain ⟨fuel, rfl⟩ : ∃ k, fuel = k + 1 := ⟨fuel - 1, by omega⟩
  obtain ⟨fuel', rfl⟩ : ∃ k, fuel' = k + 1 := ⟨fuel' - 1, by omega⟩
  have value : Agree Draft.Sound s.length (readValue fuel depth s)
      (readValue fuel' depth (shielded s)) := readValue_agree (by omega) (by omega)
  generalize read : readValue fuel depth s = x at value
  generalize read' : readValue fuel' depth (shielded s) = y at value
  cases value with
  | @same d r fine short =>
      have rest : AgreeAll Draft.Sound r.length (readItems fuel depth false r)
          (readItems fuel' depth false (shielded r)) := readItems_agree (by omega) (by omega)
      rw [readItem_of_sound read fine, readItem_of_sound read' fine]
      exact (rest.cons fine).mono (by omega)
  | broken bad bad' =>
      obtain ⟨ds, stop, rest, head⟩ := readItem_head read
      obtain ⟨ds', stop', rest', head'⟩ := readItem_head read'
      rw [head, head']
      exact .faulty bad bad'

theorem readFields_agree {fuel fuel' depth : Nat} {first : Bool} {s : Text}
    (enough : 3 * s.length + 3 ≤ fuel) (enough' : 3 * s.length + 3 ≤ fuel') :
    AgreeAll SoundField s.length (readFields fuel depth first s)
      (readFields fuel' depth first (shielded s)) := by
  obtain ⟨fuel, rfl⟩ : ∃ k, fuel = k + 1 := ⟨fuel - 1, by omega⟩
  obtain ⟨fuel', rfl⟩ : ∃ k, fuel' = k + 1 := ⟨fuel' - 1, by omega⟩
  have shown' := skipBlank_shielded s
  have part := length_skipBlank_le s
  cases shown : skipBlank s with
  | nil =>
      rw [shown, shielded_nil] at shown'
      rw [readFields_nil shown, readFields_nil shown']
      exact .stopped
  | cons c r =>
      rw [shown] at shown' part
      rw [List.length_cons] at part
      obtain ⟨t, whole⟩ := exists_shielded_cons c r
      rw [whole] at shown'
      rw [readFields_cons shown, readFields_cons shown']
      split_ifs with close _ quote comma
      · subst close
        rw [shielded_cons (by decide)] at whole
        cases whole
        exact .ended part
      · subst quote
        rw [shielded_cons (by decide)] at whole
        cases whole
        exact (readField_agree (by omega) (by omega)).mono (by omega)
      · exact .stopped
      · subst comma
        rw [shielded_cons (by decide)] at whole
        cases whole
        rw [skipBlank_shielded]
        have inner := length_skipBlank_le r
        generalize skipBlank r = rest at inner ⊢
        cases rest with
        | nil => exact .stopped
        | cons d r' =>
            rw [List.length_cons] at inner
            obtain ⟨t', whole'⟩ := exists_shielded_cons d r'
            rw [whole', readFieldsBehind_cons, readFieldsBehind_cons]
            split_ifs with quote
            · subst quote
              rw [shielded_cons (by decide)] at whole'
              cases whole'
              exact (readField_agree (by omega) (by omega)).mono (by omega)
            · exact .stopped
            · exact .stopped
      · exact .stopped

theorem readField_agree {fuel fuel' depth : Nat} {s : Text} (enough : 3 * s.length + 2 ≤ fuel)
    (enough' : 3 * s.length + 2 ≤ fuel') :
    AgreeAll SoundField s.length (readField fuel depth s)
      (readField fuel' depth (shielded s)) := by
  obtain ⟨fuel, rfl⟩ : ∃ k, fuel = k + 1 := ⟨fuel - 1, by omega⟩
  obtain ⟨fuel', rfl⟩ : ∃ k, fuel' = k + 1 := ⟨fuel' - 1, by omega⟩
  have named := readString_follows s
  generalize read : readString s = x at named
  generalize read' : readString (shielded s) = y at named
  cases named with
  | error =>
      rw [readField_error read, readField_error read']
      exact .stopped
  | @ok key r behind =>
      have short := behind.length_le
      rw [readField_ok read, readField_ok read', skipBlank_shielded]
      have part := length_skipBlank_le r
      generalize skipBlank r = rest at part ⊢
      cases rest with
      | nil => exact .faulty (not_soundField_broken key _) (not_soundField_broken key _)
      | cons c r' =>
          rw [List.length_cons] at part
          obtain ⟨t, whole⟩ := exists_shielded_cons c r'
          rw [whole, readFieldBehind_cons, readFieldBehind_cons]
          split_ifs with colon
          · subst colon
            rw [shielded_cons (by decide)] at whole
            cases whole
            have value : Agree Draft.Sound r'.length (readValue fuel depth r')
                (readValue fuel' depth (shielded r')) := readValue_agree (by omega) (by omega)
            generalize given : readValue fuel depth r' = x at value
            generalize given' : readValue fuel' depth (shielded r') = y at value
            cases value with
            | @same d rest fine shorter =>
                have more : AgreeAll SoundField rest.length
                    (readFields fuel depth false rest)
                    (readFields fuel' depth false (shielded rest)) :=
                  readFields_agree (by omega) (by omega)
                have field : SoundField (key, d) := fine
                rw [readNamed_of_sound given fine, readNamed_of_sound given' fine]
                exact (more.cons field).mono (by omega)
            | @broken d d' _ _ bad bad' =>
                obtain ⟨ds, stop, rest, head⟩ := readNamed_head key given
                obtain ⟨ds', stop', rest', head'⟩ := readNamed_head key given'
                have field : ¬SoundField (key, d) := bad
                have field' : ¬SoundField (key, d') := bad'
                rw [head, head']
                exact .faulty field field'
          · exact .faulty (not_soundField_broken key _) (not_soundField_broken key _)

end

theorem draft_agree (s : Text) : Agree Draft.Sound s.length (draft s) (draft (shielded s)) := by
  have longer := length_le_shielded s
  refine readValue_agree (Nat.le_refl _) ?_
  rw [stepLimit]
  omega

theorem toOption_checkEnd_shielded (r : Text) :
    (checkEnd (shielded r)).toOption = (checkEnd r).toOption := by
  unfold checkEnd
  rw [skipBlank_shielded]
  cases skipBlank r with
  | nil => rfl
  | cons c r =>
      obtain ⟨t, shown⟩ := exists_shielded_cons c r
      rw [shown]
      rfl

theorem toOption_eq_none_of_not_sound {d : Draft} (bad : ¬d.Sound) : d.value.toOption = none := by
  cases value : d.value with
  | error f => rfl
  | ok v => exact absurd ⟨v, value⟩ bad

/-- A text is read to a value if its draft has that value and only blanks follow it. -/
theorem toOption_parse {s r : Text} {d : Draft} (read : draft s = (d, r)) :
    (parse s).toOption = d.value.toOption.bind fun v => (checkEnd r).toOption.map fun _ => v := by
  unfold draft at read
  rw [parse, parseWithin, read]
  simp only
  cases d.value with
  | error f => rfl
  | ok v => cases checkEnd r <;> rfl

/-- A text and the same text shielded are read to one value, or neither is JSON. -/
theorem toOption_parse_shielded (s : Text) :
    (parse (shielded s)).toOption = (parse s).toOption := by
  have agree := draft_agree s
  generalize read : draft s = x at agree
  generalize read' : draft (shielded s) = y at agree
  cases agree with
  | @same d r fine _ =>
      rw [toOption_parse read, toOption_parse read', toOption_checkEnd_shielded]
  | broken bad bad' =>
      rw [toOption_parse read, toOption_parse read', toOption_eq_none_of_not_sound bad,
        toOption_eq_none_of_not_sound bad']
      rfl

def fields? : Json → Option Fields
  | .object fields => some fields
  | _ => none

theorem toOption_mapError {α ε ε' : Type} (f : ε → ε') (x : Except ε α) :
    (x.mapError f).toOption = x.toOption := by
  cases x <;> rfl

theorem toOption_parseObject (s : Text) :
    (parseObject s).toOption = (parse s).toOption.bind fields? := by
  rcases read : draft s with ⟨d, r⟩
  rw [toOption_parse read, parseObject, read, toOption_mapError]
  cases d with
  | null => cases checkEnd r <;> rfl
  | bool b => cases checkEnd r <;> rfl
  | number n => cases checkEnd r <;> rfl
  | string t => cases checkEnd r <;> rfl
  | broken f => rfl
  | array ds stop =>
      cases value : (Draft.array ds stop).value with
      | error f => rfl
      | ok v =>
          obtain ⟨_, vs, _, rfl⟩ := value_array value
          cases checkEnd r <;> rfl
  | object ds stop =>
      cases value : (Draft.object ds stop).value with
      | error f => rfl
      | ok v =>
          obtain ⟨_, fields, _, rfl⟩ := value_object value
          cases checkEnd r <;> rfl

/-- What is read of an object that was shielded is what is read of the object. -/
theorem toOption_parseObject_shielded (s : Text) :
    (parseObject (shielded s)).toOption = (parseObject s).toOption := by
  rw [toOption_parseObject, toOption_parseObject, toOption_parse_shielded]

end LivePage.Json
