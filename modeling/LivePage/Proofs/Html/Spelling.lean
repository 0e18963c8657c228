import LivePage.Proofs.Html.Phrasing

/-!
Reading a page part by part. A tag is read at once, but a text only when it is known where it ends,
so what has been passed of it is kept pending. That way each part of a page can be followed on its
own, wherever texts meet that come from different parts; line breaks are brought to one form under
way.
-/

namespace LivePage.Html

/-- An attribute in the text of a page. -/
structure Spelled where
  name : Text
  value : Option Text

namespace Spelled

def markup (a : Spelled) : Text :=
  match a.value with
  | some value => attr a.name value
  | none => ' ' :: a.name

def resolved (a : Spelled) : Attribute :=
  ⟨a.name, match a.value with
    | some value => decodeAttribute (replaceNull value)
    | none => []⟩

def Valid (a : Spelled) : Prop := isMarkupName a.name = true ∧ ∀ value ∈ a.value, '\x22' ∉ value

def unified (a : Spelled) : Spelled := ⟨a.name, a.value.map unifyBreaks⟩

end Spelled

/-- A start tag in the text of a page. -/
structure SpelledTag where
  name : Text
  attributes : List Spelled
  closes : Bool

namespace SpelledTag

def ending (closes : Bool) : Text := if closes then " />" else ">"

def markup (t : SpelledTag) : Text :=
  '<' :: (t.name ++ (t.attributes.flatMap Spelled.markup ++ ending t.closes))

def resolved (t : SpelledTag) : Tag := ⟨t.name, t.attributes.map Spelled.resolved, t.closes⟩

structure Valid (t : SpelledTag) : Prop where
  name : isMarkupName t.name = true
  attributes : ∀ a ∈ t.attributes, a.Valid
  distinct : (t.attributes.map (·.name)).Nodup

/-- A tag without attributes. -/
theorem valid_bare {name : Text} {closes : Bool} (valid : isMarkupName name = true) :
    Valid ⟨name, [], closes⟩ :=
  ⟨valid, List.forall_mem_nil _, .nil⟩

def unified (t : SpelledTag) : SpelledTag := ⟨t.name, t.attributes.map Spelled.unified, t.closes⟩

def read (t : SpelledTag) : Tag := t.unified.resolved

def around (t : SpelledTag) (s : Text) : Text := t.markup ++ (s ++ tokenMarkup (.closeTag t.name))

end SpelledTag

theorem mem_unifyBreaks {c : Char} {s : Text} (member : c ∈ unifyBreaks s) : c ∈ s ∨ c = '\n' := by
  induction s using unifyBreaks.induct with
  | case1 => cases member
  | case2 s ih =>
      rw [unifyBreaks, List.mem_cons] at member
      rcases member with rfl | member
      · exact .inr rfl
      · exact (ih member).imp_left fun listed =>
          List.mem_cons_of_mem _ (List.mem_cons_of_mem _ listed)
  | case3 s alone ih =>
      rw [unifyBreaks] at member
      · rcases List.mem_cons.1 member with rfl | member
        · exact .inr rfl
        · exact (ih member).imp_left (List.mem_cons_of_mem _)
      · exact alone
  | case4 c s _ other ih =>
      rw [unifyBreaks_cons other] at member
      rcases List.mem_cons.1 member with rfl | member
      · exact .inl List.mem_cons_self
      · exact (ih member).imp_left (List.mem_cons_of_mem _)

theorem not_mem_unifyBreaks {c : Char} {s : Text} (absent : c ∉ s) (other : c ≠ '\n') :
    c ∉ unifyBreaks s := fun member => (mem_unifyBreaks member).elim absent other

/-- What may follow an attribute: the end of the tag, or a blank and something to read. -/
def GoesOn (s : Text) : Prop :=
  (∃ r, s = '>' :: r) ∨ ∃ c r, s = ' ' :: c :: r ∧ isBlank c = false ∧ c ≠ '='

theorem goesOn_ending (closes : Bool) (s : Text) : GoesOn (SpelledTag.ending closes ++ s) := by
  cases closes with
  | false => exact .inl ⟨s, rfl⟩
  | true => exact .inr ⟨'/', _, rfl, by decide, by decide⟩

theorem Spelled.Valid.goesOn {a : Spelled} (valid : a.Valid) (s : Text) : GoesOn (a.markup ++ s) := by
  obtain ⟨c, more, split, _, chars⟩ := isMarkupName_cons valid.1
  have first := chars c (split ▸ List.mem_cons_self)
  have begins : ∃ r, a.markup ++ s = ' ' :: c :: r := by
    rw [markup]
    cases a.value with
    | none => exact ⟨more ++ s, by rw [split]; rfl⟩
    | some value =>
        refine ⟨more ++ "=\"".toList ++ value ++ ['\x22'] ++ s, ?_⟩
        simp only [attr, split]
        rfl
  obtain ⟨r, begins⟩ := begins
  exact .inr ⟨c, r, begins, isBlank_markupChar first, markupChar_ne first (by decide)⟩

theorem goesOn_attributes {attributes : List Spelled} (valid : ∀ a ∈ attributes, a.Valid)
    {s : Text} (goes : GoesOn s) : GoesOn (attributes.flatMap Spelled.markup ++ s) := by
  cases attributes with
  | nil => exact goes
  | cons a attributes =>
      rw [List.flatMap_cons, List.append_assoc]
      exact (valid a List.mem_cons_self).goesOn _

theorem readAttributes_bare (found : Attributes) (seen name : Text)
    (chars : ∀ c ∈ name, isMarkupChar c = true) {s : Text} (goes : GoesOn s) :
    readAttributes (.inName seen) found (name ++ s) =
      readAttributes .afterQuoted (addAttribute found (name.reverse ++ seen) []) s := by
  induction name generalizing seen with
  | nil =>
      rcases goes with ⟨r, rfl⟩ | ⟨c, r, rfl, blank, equals⟩
      · rfl
      · simp only [List.nil_append, List.reverse_nil, readAttributes, blank, equals]
        rfl
  | cons c name ih =>
      have char := chars c List.mem_cons_self
      have rest := ih (c :: seen) fun d member => chars d (List.mem_cons_of_mem c member)
      rw [List.cons_append, readAttributes]
      simp (disch := decide) only [isBlank_markupChar char, markupChar_ne char, if_false, rest]
      simp

theorem readAttributes_valueless {state : TagState} (ready : AtAttribute state)
    (found : Attributes) {name : Text} (valid : isMarkupName name = true)
    (fresh : name ∉ found.map (·.name)) {s : Text} (goes : GoesOn s) :
    readAttributes state found (' ' :: name ++ s) =
      readAttributes .afterQuoted (found ++ [⟨name, []⟩]) s := by
  obtain ⟨c, more, split, _, chars⟩ := isMarkupName_cons valid
  have blank : readAttributes state found (' ' :: name ++ s) =
      readAttributes .beforeName found (name ++ s) := by
    rcases ready with rfl | rfl <;> simp [readAttributes, isBlank]
  have first := chars c (split ▸ List.mem_cons_self)
  have others : ∀ d ∈ more, isMarkupChar d = true :=
    fun d member => chars d (split ▸ List.mem_cons_of_mem c member)
  have backwards : more.reverse ++ [c] = name.reverse := by rw [split, List.reverse_cons]
  have added := addAttribute_fresh found valid fresh []
  rw [blank, split, List.cons_append, readAttributes]
  simp (disch := decide) only [isBlank_markupChar first, markupChar_ne first, if_false]
  rw [if_neg (by decide), readAttributes_bare found [c] more others goes, backwards]
  rw [List.reverse_nil] at added
  rw [added, split]
  rfl

theorem readAttributes_all {state : TagState} (ready : AtAttribute state) (found : Attributes)
    {attributes : List Spelled} (valid : ∀ a ∈ attributes, a.Valid)
    (distinct : (found.map (·.name) ++ attributes.map (·.name)).Nodup) {s : Text}
    (goes : GoesOn s) :
    ∃ state', AtAttribute state' ∧
      readAttributes state found (attributes.flatMap Spelled.markup ++ s) =
        readAttributes state' (found ++ attributes.map Spelled.resolved) s := by
  induction attributes generalizing state found with
  | nil => exact ⟨state, ready, by rw [List.map_nil, List.append_nil]; rfl⟩
  | cons a attributes ih =>
      have later : ∀ b ∈ attributes, b.Valid := fun b member => valid b (List.mem_cons_of_mem a member)
      have fresh : a.name ∉ found.map (·.name) := fun member =>
        (List.nodup_append.1 distinct).2.2 _ member _ List.mem_cons_self rfl
      obtain ⟨state', ready', rest⟩ := ih (.inr rfl) (found ++ [a.resolved]) later (by
        rw [List.map_append, List.append_assoc]
        exact distinct)
      have known := valid a List.mem_cons_self
      have next := goesOn_attributes later goes
      refine ⟨state', ready', ?_⟩
      rw [List.flatMap_cons, List.append_assoc, List.map_cons, List.append_cons, ← rest]
      obtain ⟨name, value⟩ := a
      cases value with
      | none => exact readAttributes_valueless ready found known.1 fresh next
      | some value => exact readAttributes_attr ready found known.1 (known.2 value rfl) fresh _

theorem nextToken_markup (foreign : Bool) {t : SpelledTag} (valid : t.Valid) (s : Text) :
    nextToken .markup foreign (t.markup ++ s) = (some (.openTag t.resolved), s) := by
  let behind := t.attributes.flatMap Spelled.markup ++ (SpelledTag.ending t.closes ++ s)
  have ending := goesOn_ending t.closes s
  obtain ⟨state, ready, read⟩ := readAttributes_all (.inl rfl) [] valid.attributes
    valid.distinct ending
  have closed : readAttributes state ([] ++ t.attributes.map Spelled.resolved)
      (SpelledTag.ending t.closes ++ s) =
        some (t.attributes.map Spelled.resolved, t.closes, s) := by
    rcases ready with rfl | rfl <;> cases t.closes <;> rfl
  obtain ⟨c, r, begins, ends⟩ : ∃ c r, behind = c :: r ∧ endsTagName c = true := by
    rcases goesOn_attributes valid.attributes ending with ⟨r, shown⟩ | ⟨c, r, shown, _⟩
    · exact ⟨'>', r, shown, rfl⟩
    · exact ⟨' ', c :: r, shown, rfl⟩
  have attributes : readAttributes .beforeName [] behind =
      some (t.attributes.map Spelled.resolved, t.closes, s) := read.trans closed
  have tag : readTag (t.name ++ behind) = some (t.resolved, s) := by
    rw [begins] at attributes ⊢
    rw [readTag_name valid.name ends, attributes]
    rfl
  have written : t.markup ++ s = '<' :: (t.name ++ behind) := by
    simp [SpelledTag.markup, behind]
  obtain ⟨c, more, split, letter, _⟩ := isMarkupName_cons valid.name
  rw [split, List.cons_append] at tag written
  rw [written, nextToken, readMarkup_name letter, tag]

theorem Spelled.Valid.unified {a : Spelled} (valid : a.Valid) : a.unified.Valid := by
  obtain ⟨name, value⟩ := a
  cases value with
  | none => exact valid
  | some value =>
      refine ⟨valid.1, fun _ shown => ?_⟩
      cases shown
      exact not_mem_unifyBreaks (valid.2 value rfl) (by decide)

theorem SpelledTag.Valid.unified {t : SpelledTag} (valid : t.Valid) : t.unified.Valid := by
  refine ⟨valid.name, fun a member => ?_, ?_⟩
  · obtain ⟨a, listed, rfl⟩ := List.mem_map.1 member
    exact (valid.attributes a listed).unified
  · have names : t.unified.attributes.map (·.name) = t.attributes.map (·.name) := List.map_map
    rw [names]
    exact valid.distinct

theorem unifyBreaks_spelled {a : Spelled} (valid : a.Valid) (s : Text) :
    unifyBreaks (a.markup ++ s) = a.unified.markup ++ unifyBreaks s := by
  obtain ⟨name, value⟩ := a
  cases value with
  | some value => exact unifyBreaks_attr valid.1 value s
  | none =>
      refine unifyBreaks_append ?_ s
      simp [Spelled.markup, not_mem_markupName_return valid.1]

theorem unifyBreaks_allSpelled {attributes : List Spelled} (valid : ∀ a ∈ attributes, a.Valid)
    (s : Text) : unifyBreaks (attributes.flatMap Spelled.markup ++ s) =
      (attributes.map Spelled.unified).flatMap Spelled.markup ++ unifyBreaks s := by
  induction attributes with
  | nil => rfl
  | cons a attributes ih =>
      rw [List.flatMap_cons, List.append_assoc, unifyBreaks_spelled (valid a List.mem_cons_self),
        ih fun b member => valid b (List.mem_cons_of_mem a member), List.map_cons,
        List.flatMap_cons, List.append_assoc]

theorem unifyBreaks_spelledTag {t : SpelledTag} (valid : t.Valid) (s : Text) :
    unifyBreaks (t.markup ++ s) = t.unified.markup ++ unifyBreaks s := by
  have ending : '\r' ∉ SpelledTag.ending t.closes := by cases t.closes <;> decide
  have split (t : SpelledTag) (s : Text) : t.markup ++ s = '<' :: (t.name ++
      (t.attributes.flatMap Spelled.markup ++ (SpelledTag.ending t.closes ++ s))) := by
    simp [SpelledTag.markup]
  rw [split, unifyBreaks_cons (by decide), unifyBreaks_append (not_mem_markupName_return valid.name),
    unifyBreaks_allSpelled valid.attributes, unifyBreaks_append ending, split]
  rfl

theorem unifyBreaks_append_of_head (s : Text) {t : Text} (next : t.head? ≠ some '\n') :
    unifyBreaks (s ++ t) = unifyBreaks s ++ unifyBreaks t := by
  have plain : WritesReferences fun c => [c] := fun _ => .inl rfl
  have kept := unifyBreaks_flatMap_escape plain s next
  rwa [List.flatMap_singleton', List.flatMap_singleton'] at kept

theorem nextToken_run (foreign : Bool) {run : Text} (present : run ≠ [])
    (inside : ∀ c ∈ run, isTextCharacter c = true) {s : Text} (ends : EndsText s) :
    nextToken .markup foreign (run ++ s) = (some (.text (decodeText run)), s) := by
  have stop : s.takeWhile isTextCharacter = [] ∧ s.dropWhile isTextCharacter = s := by
    rcases ends with rfl | ⟨c, r, rfl, ends⟩
    · exact ⟨rfl, rfl⟩
    · exact ⟨List.takeWhile_cons_of_neg (Bool.eq_false_iff.1 ends),
        List.dropWhile_cons_of_neg (Bool.eq_false_iff.1 ends)⟩
  obtain ⟨c, more, rfl⟩ := List.exists_cons_of_ne_nil present
  have first := inside c List.mem_cons_self
  have plain : c ≠ '<' ∧ c ≠ '\x00' := by
    rw [isTextCharacter, Bool.and_eq_true, decide_eq_true_eq, decide_eq_true_eq] at first
    exact first
  unfold nextToken
  split
  · next h => exact absurd (List.cons.inj h).1 plain.1
  · next h => exact absurd (List.cons.inj h).1 plain.2
  · rw [List.takeWhile_append_of_pos inside, List.dropWhile_append_of_pos inside, stop.1, stop.2,
      List.append_nil]
  all_goals contradiction

namespace Builder

/-- States that text leaves as they are, without new elements of the class. -/
structure Stable (c : Text) (C : Builder → Prop) : Prop where
  calm : ∀ b, C b → b.Calm
  text : ∀ b run, C b → C (b.receive (.text run)) ∧ shown c (b.receive (.text run)) = shown c b
  null : ∀ b, C b → C (b.receive .null) ∧ shown c (b.receive .null) = shown c b

/-- What a pending text is followed by when it is read: a tag, or nothing. -/
def AtTag (s : Text) : Prop := s = [] ∨ ∃ r, s = '<' :: r

theorem head?_of_atTag {s : Text} (next : AtTag s) : s.head? ≠ some '\n' := by
  rcases next with rfl | ⟨r, rfl⟩
  · nofun
  · exact fun same => absurd (Option.some.inj same) (by decide)

theorem atTag_unifyBreaks {s : Text} (next : AtTag s) : AtTag (unifyBreaks s) := by
  rcases next with rfl | ⟨r, rfl⟩
  · exact .inl rfl
  · exact .inr ⟨unifyBreaks r, unifyBreaks_cons (by decide) r⟩

/-- Text that does not begin with NUL begins with a run, which is read at once. -/
theorem exists_nextToken_run (foreign : Bool) {c : Char} {s : Text} (null : c ≠ '\x00')
    (plain : '<' ∉ c :: s) :
    ∃ run back, run ++ back = c :: s ∧ run ≠ [] ∧ ∀ rest, AtTag rest →
      nextToken .markup foreign (run ++ (back ++ rest)) =
        (some (.text (decodeText run)), back ++ rest) := by
  have text : isTextCharacter c = true := by
    rw [isTextCharacter, Bool.and_eq_true, decide_eq_true_eq, decide_eq_true_eq]
    exact ⟨fun same => plain (same ▸ List.mem_cons_self), null⟩
  have present : (c :: s).takeWhile isTextCharacter ≠ [] := by
    rw [List.takeWhile_cons_of_pos text]
    exact List.cons_ne_nil _ _
  refine ⟨_, _, List.takeWhile_append_dropWhile (p := isTextCharacter), present,
    fun rest next => ?_⟩
  refine nextToken_run foreign present
    (fun e member => List.all_eq_true.1 List.all_takeWhile e member) ?_
  cases left : (c :: s).dropWhile isTextCharacter with
  | nil =>
      rcases next with rfl | ⟨r, rfl⟩
      · exact .inl rfl
      · exact .inr ⟨'<', r, rfl, rfl⟩
  | cons e more =>
      have stops := List.head?_dropWhile_not isTextCharacter (c :: s)
      rw [left] at stops
      exact .inr ⟨e, more ++ rest, rfl, by simpa using stops⟩

variable {c : Text} {C : Builder → Prop}

theorem Stable.reads_runs (stable : Stable c C) {b : Builder} (h : C b) (s : Text)
    (plain : '<' ∉ s) : ∃ b', C b' ∧ shown c b' = shown c b ∧
      ∀ rest, AtTag rest → Reads (s ++ rest) b rest b' := by
  cases s with
  | nil => exact ⟨b, h, rfl, fun rest _ => .refl rest b⟩
  | cons d s =>
      have calm := stable.calm b h
      by_cases null : d = '\x00'
      · subst null
        obtain ⟨first, shown₁⟩ := stable.null b h
        obtain ⟨b', last, shown₂, reads⟩ :=
          stable.reads_runs first s fun member => plain (List.mem_cons_of_mem _ member)
        refine ⟨b', last, shown₂.trans shown₁, fun rest next => ?_⟩
        exact (Reads.token (s := '\x00' :: (s ++ rest)) calm.lexing rfl
          (Nat.lt_succ_self _)).trans (reads rest next)
      · obtain ⟨run, back, split, present, token⟩ := exists_nextToken_run b.inOtherSpace null plain
        have shorter : back.length < (d :: s).length := by
          rw [← split, List.length_append]
          exact Nat.lt_add_of_pos_left (List.length_pos_iff.2 present)
        have absent : '<' ∉ back := fun member => plain (split ▸ List.mem_append_right run member)
        obtain ⟨first, shown₁⟩ := stable.text b (decodeText run) h
        obtain ⟨b', last, shown₂, reads⟩ := stable.reads_runs first back absent
        refine ⟨b', last, shown₂.trans shown₁, fun rest next => ?_⟩
        have read := token rest next
        rw [← List.append_assoc, split] at read
        refine (Reads.token calm.lexing read ?_).trans (reads rest next)
        rw [List.length_append, List.length_append]
        omega
termination_by s.length

def Settles (c : Text) (K : Text → Builder → Prop) (C : Builder → Prop) : Prop :=
  ∀ t b, K t b → ∃ b', C b' ∧ shown c b' = shown c b ∧
    ∀ rest, AtTag rest → Reads (unifyBreaks (t ++ rest)) b (unifyBreaks rest) b'

def Pending (C : Builder → Prop) (t : Text) (b : Builder) : Prop := '<' ∉ t ∧ C b

theorem pending_nil {b : Builder} (h : C b) : Pending C [] b := ⟨List.not_mem_nil, h⟩

theorem Stable.settles (stable : Stable c C) : Settles c (Pending C) C := by
  intro t b h
  obtain ⟨b', h', shown', runs⟩ := stable.reads_runs h.2 (unifyBreaks t)
    (not_mem_unifyBreaks h.1 (by decide))
  refine ⟨b', h', shown', fun rest next => ?_⟩
  rw [unifyBreaks_append_of_head t (head?_of_atTag next)]
  exact runs _ (atTag_unifyBreaks next)

/-- Whatever is pending and whatever follows, part of a page leads from one kind of states to
another, with such elements of the class. -/
def Leads (c : Text) (K : Text → Builder → Prop) (s : Text) (es : List Element)
    (K' : Text → Builder → Prop) : Prop :=
  ∀ t b rest, K t b → ∃ t' b',
    Reads (unifyBreaks (t ++ (s ++ rest))) b (unifyBreaks (t' ++ rest)) b' ∧
      K' t' b' ∧ shown c b' = shown c b ++ es

section Leads

variable {K K' K'' : Text → Builder → Prop} {s s' : Text} {es es' : List Element}

theorem Leads.nil : Leads c K [] [] K :=
  fun t b _ h => ⟨t, b, .refl _ b, h, (List.append_nil _).symm⟩

theorem Leads.trans (first : Leads c K s es K') (second : Leads c K' s' es' K'') :
    Leads c K (s ++ s') (es ++ es') K'' := by
  intro t b rest h
  obtain ⟨t₁, b₁, reads₁, h₁, shown₁⟩ := first t b (s' ++ rest) h
  obtain ⟨t₂, b₂, reads₂, h₂, shown₂⟩ := second t₁ b₁ rest h₁
  refine ⟨t₂, b₂, ?_, h₂, by rw [shown₂, shown₁, List.append_assoc]⟩
  rw [List.append_assoc]
  exact reads₁.trans reads₂

theorem leads_text (plain : '<' ∉ s) : Leads c (Pending C) s [] (Pending C) := by
  intro t b rest h
  refine ⟨t ++ s, b, ?_, ⟨?_, h.2⟩, (List.append_nil _).symm⟩
  · rw [List.append_assoc]
    exact .refl _ b
  · rw [List.mem_append, not_or]
    exact ⟨h.1, plain⟩

theorem leads_exists {ι : Type} {L L' : ι → Text → Builder → Prop}
    (each : ∀ i, Leads c (L i) s es (L' i)) :
    Leads c (fun t b => ∃ i, L i t b) s es (fun t b => ∃ i, L' i t b) := by
  rintro t b rest ⟨i, h⟩
  obtain ⟨t', b', reads, h', shown'⟩ := each i t b rest h
  exact ⟨t', b', reads, ⟨i, h'⟩, shown'⟩

theorem leads_of_forall {ι : Type} {L : ι → Text → Builder → Prop}
    (each : ∀ i, Leads c (L i) s es K') : Leads c (fun t b => ∃ i, L i t b) s es K' := by
  rintro t b rest ⟨i, h⟩
  exact each i t b rest h

theorem leads_around {ι : Type} {L : ι → Text → Builder → Prop} {tag : SpelledTag}
    (opens : Leads c K tag.markup es (fun t b => ∃ i, L i t b))
    (inner : ∀ i, Leads c (L i) s es' (L i))
    (closes : ∀ i, Leads c (L i) (tokenMarkup (.closeTag tag.name)) [] K') :
    Leads c K (tag.around s) (es ++ es') K' := by
  have whole := opens.trans ((leads_exists inner).trans (leads_of_forall closes))
  rwa [List.append_nil] at whole

theorem leads_markup (settles : Settles c K C) (begins : ∀ rest : Text, AtTag (s ++ rest))
    (step : ∀ b rest, C b → ∃ b', Reads (unifyBreaks (s ++ rest)) b (unifyBreaks rest) b' ∧
      K' [] b' ∧ shown c b' = shown c b ++ es) : Leads c K s es K' := by
  intro p b rest h
  obtain ⟨b₁, h₁, shown₁, runs⟩ := settles p b h
  obtain ⟨b₂, reads, h₂, shown₂⟩ := step b₁ rest h₁
  exact ⟨[], b₂, (runs _ (begins rest)).trans reads, h₂, by rw [shown₂, shown₁]⟩

theorem leads_openTag (settles : Settles c K C) (calm : ∀ b, C b → b.Calm) {tag : SpelledTag}
    (valid : tag.Valid) (step : ∀ b, C b → K' [] (b.receive (.openTag tag.read)) ∧
      shown c (b.receive (.openTag tag.read)) = shown c b ++ es) :
    Leads c K tag.markup es K' := by
  refine leads_markup settles (fun rest => .inr ⟨_, rfl⟩) fun b rest h => ?_
  refine ⟨_, ?_, step b h⟩
  rw [unifyBreaks_spelledTag valid]
  refine .token (calm b h).lexing (nextToken_markup _ valid.unified _) ?_
  rw [SpelledTag.markup, List.cons_append, List.length_cons, List.length_append]
  omega

theorem leads_closeTag (settles : Settles c K C) (calm : ∀ b, C b → b.Calm) {name : Text}
    (valid : isMarkupName name = true) (step : ∀ b, C b → K' [] (b.receive (.closeTag name)) ∧
      shown c (b.receive (.closeTag name)) = shown c b ++ es) :
    Leads c K (tokenMarkup (.closeTag name)) es K' := by
  refine leads_markup settles (fun rest => .inr ⟨_, rfl⟩) fun b rest h => ?_
  refine ⟨_, ?_, step b h⟩
  rw [unifyBreaks_closeTag valid]
  refine .token (calm b h).lexing (nextToken_closeTag _ valid _) ?_
  have longer := length_tokenMarkup_closeTag name
  rw [List.length_append]
  omega

end Leads

end Builder
end LivePage.Html
