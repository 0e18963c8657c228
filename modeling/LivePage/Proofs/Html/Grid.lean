import LivePage.Proofs.Html.Flowing

/-!
Tables. Between the tags of a table stand line feeds alone, and these are kept until a tag comes.
Each part of a table has a mode of its own, which the end tag of the part leaves again. Cells hold
running text, as blocks do.
-/

namespace LivePage.Html

/-- A text of nothing but line feeds. -/
def Lines (s : Text) : Prop := ∀ d ∈ s, d = '\n'

theorem Lines.append {s t : Text} (first : Lines s) (second : Lines t) : Lines (s ++ t) :=
  List.forall_mem_append.2 ⟨first, second⟩

theorem Lines.not_mem {s : Text} (lines : Lines s) {d : Char} (other : d ≠ '\n') : d ∉ s :=
  fun member => other (lines d member)

theorem decodeText_of_lines {s : Text} (lines : Lines s) : decodeText s = s := by
  have kept : escapeText s = s := by
    induction s with
    | nil => rfl
    | cons d s ih =>
        obtain ⟨rfl, rest⟩ := List.forall_mem_cons.1 lines
        exact congrArg ('\n' :: ·) (ih rest)
  have same := decodeText_escapeText s
  rwa [kept] at same

theorem isBlankRun_of_lines {s : Text} (lines : Lines s) : isBlankRun s = true := by
  refine List.all_eq_true.2 fun d member => ?_
  rw [lines d member]
  rfl

namespace Builder

variable {c s : Text} {r : Region} {b b' : Builder} {es us : List Element}

theorem Calm.feed_again {b₁ : Builder} (h : b.Calm) (h₁ : b₁.Calm) {t : Token}
    (again : b.inMode t = .again b₁) (done : b₁.inMode t = .done b') : b.feed t = b' := by
  have times : 32 + 4 * b.opened.length = (30 + 4 * b.opened.length) + 2 := by omega
  rw [Builder.feed, times, feedTimes, h.isForeign]
  simp only [Bool.false_eq_true, if_false, again]
  rw [feedTimes, h₁.isForeign]
  simp only [Bool.false_eq_true, if_false, done]

/-- A place in a table, right inside an element of the name. -/
structure Region.Part (r : Region) (mode : Mode) (name : Text) : Prop where
  mode : r.mode = mode
  past : r.past = []
  base : ∃ id outer, r.base = ⟨id, ⟨.html, name⟩⟩ :: outer
  rooted : [bodyElement, rootElement] <:+ r.base

/-- The modes of the parts of a table, with the elements that they belong to. -/
def tableParts : List (Mode × Text) :=
  [(.inTable, "table"), (.inTableBody, "thead"), (.inTableBody, "tbody"), (.inRow, "tr")]

/-- The next tag is treated as it would be in another state, which is settled. -/
structure TreatedAs (b b₀ : Builder) : Prop where
  openTag : ∀ tag b', b₀.inMode (.openTag tag) = .done b' → b.receive (.openTag tag) = b'
  closeTag : ∀ name b', b₀.inMode (.closeTag name) = .done b' → b.receive (.closeTag name) = b'

def Awaits (c : Text) (r : Region) (b : Builder) : Prop :=
  b.Calm ∧ ∃ b₀, Rest c r b₀ ∧ shown c b₀ = shown c b ∧ TreatedAs b b₀

theorem Rest.awaits (h : Rest c r b) : Awaits c r b := by
  have calm := h.inPhrase.calm
  have same : { b with dropsLineFeed := false, lexing := .markup } =
      { b with dropsLineFeed := false } := by rw [← calm.lexing]
  refine ⟨calm, { b with dropsLineFeed := false }, h.inPhrase.undropped.rest, rfl,
    fun tag b' done => calm.undropped.feed done, fun name b' done => ?_⟩
  rw [receive]
  simp only [same]
  exact calm.undropped.feed done

theorem settles_awaits (fine : r.Fine) : Settles c (Pending (Rest c r)) (Awaits c r) := by
  intro t b h
  obtain ⟨b', h', same, reads⟩ := (stable_rest fine).settles t b h
  exact ⟨b', Rest.awaits h', same, reads⟩

section Part

variable {mode : Mode} {name : Text} (part : r.Part mode name)
include part

theorem Region.Part.feed_text (known : (mode, name) ∈ tableParts) (h : Rest c r b) (run : Text) :
    b.feed (.text run) = { b with resumed := mode, mode := .inTableText, tableText := [run] } := by
  have calm := h.inPhrase.calm
  have mode' : b.mode = mode := h.inPhrase.mode.trans part.mode
  obtain ⟨id, outer, base⟩ := part.base
  have opened : b.opened = ⟨id, ⟨.html, name⟩⟩ :: outer := h.inPhrase.opened.trans base
  have fosters : ∀ p ∈ tableParts, fosters ⟨.html, p.2⟩ = true := by decide +kernel
  have current : b.currentIs Html.fosters = true := by
    rw [currentIs, opened]
    exact fosters _ known
  have tabled : b.inMode (.text run) = b.inTable (.text run) := by
    simp only [tableParts, List.mem_cons, Prod.mk.injEq, List.not_mem_nil, or_false] at known
    rw [inMode, mode']
    rcases known with ⟨rfl, _⟩ | ⟨rfl, _⟩ | ⟨rfl, _⟩ | ⟨rfl, _⟩ <;> rfl
  have again : b.inMode (.text run) =
      .again { b with resumed := mode, mode := .inTableText, tableText := [] } := by
    rw [tabled, inTable, current, mode']
    rfl
  let kept : Builder := { b with resumed := mode, mode := .inTableText, tableText := [] }
  have calm' : kept.Calm := calm.of_eq rfl rfl rfl rfl rfl
  exact calm.feed_again calm' again rfl

theorem Region.Part.splitsBlanks (known : (mode, name) ∈ tableParts) (h : Rest c r b) :
    b.mode.splitsBlanks = false := by
  have all : ∀ p ∈ tableParts, p.1.splitsBlanks = false := by decide
  rw [h.inPhrase.mode, part.mode]
  exact all _ known

theorem Region.Part.awaits_text (h : Rest c r b) {run : Text}
    (present : run ≠ []) (lines : Lines run) :
    Awaits c r { b with resumed := mode, mode := .inTableText, tableText := [run] } := by
  let kept : Builder := { b with resumed := mode, mode := .inTableText, tableText := [run] }
  let asked : Builder := { kept with dropsLineFeed := false }
  let flushed : Builder := { asked with tableText := [] }
  have calm : kept.Calm := h.inPhrase.calm.of_eq rfl rfl rfl rfl rfl
  have calmAsked : asked.Calm := calm.of_eq rfl rfl rfl rfl rfl
  have calmFlushed : flushed.Calm := calm.of_eq rfl rfl rfl rfl rfl
  obtain ⟨d, appended, elements, _, calm'⟩ := calmFlushed.appendText run
  let b₀ : Builder := { flushed with dom := d, mode }
  have calm₀ : b₀.Calm := calm'.of_eq rfl rfl rfl rfl rfl
  have written : asked.flushTableText.setMode mode = b₀ := by
    have whole : [run].reverse.flatten = run := List.append_nil run
    have some : run.isEmpty = false := List.isEmpty_eq_false_iff.2 present
    rw [flushTableText]
    simp only [asked, kept, whole, some, isBlankRun_of_lines lines, Bool.false_eq_true, if_false,
      if_true]
    exact congrArg (setMode · mode) appended
  have same : { asked with lexing := .markup } = asked := by
    have lexing : asked.lexing = .markup := calmAsked.lexing
    rw [← lexing]
  refine ⟨calm, b₀, InPhrase.rest ⟨calm₀, part.mode.symm, h.inPhrase.opened, h.inPhrase.formatting,
    List.forall_mem_nil _, List.forall_mem_nil _⟩, ?_, fun tag b' done => ?_, fun n b' done => ?_⟩
  · rw [shown, elements, shown]
  · exact calmAsked.feed_again calm₀ (congrArg Next.again written) done
  · change Builder.feed { asked with lexing := .markup } (.closeTag n) = b'
    rw [same]
    exact calmAsked.feed_again calm₀ (congrArg Next.again written) done

end Part

def Lined (C : Builder → Prop) (t : Text) (b : Builder) : Prop := Lines t ∧ C b

theorem leads_lines {C : Builder → Prop} (lines : Lines s) : Leads c (Lined C) s [] (Lined C) := by
  intro t b rest h
  refine ⟨t ++ s, b, ?_, ⟨h.1.append lines, h.2⟩, (List.append_nil _).symm⟩
  rw [List.append_assoc]
  exact .refl _ b

theorem Region.Part.settles {mode : Mode} {name : Text} (part : r.Part mode name)
    (known : (mode, name) ∈ tableParts) : Settles c (Lined (Rest c r)) (Awaits c r) := by
  intro t b h
  obtain ⟨lines, rest⟩ := h
  by_cases none : t = []
  · subst none
    exact ⟨b, rest.awaits, rfl, fun rest _ => .refl _ b⟩
  · have calm := rest.inPhrase.calm
    have h₀ : Rest c r { b with dropsLineFeed := false } := rest.inPhrase.undropped.rest
    have unified : unifyBreaks t = t := unifyBreaks_of_absent (lines.not_mem (by decide))
    have inside : ∀ d ∈ t, isTextCharacter d = true := fun d member => by
      rw [lines d member]
      rfl
    have received : ∀ run : Text, Lines run →
        Awaits c r (feedText run.length run { b with dropsLineFeed := false }) ∧
          shown c (feedText run.length run { b with dropsLineFeed := false }) = shown c b := by
      intro run lines
      cases run with
      | nil => exact ⟨h₀.awaits, rfl⟩
      | cons d run =>
          simp only [List.length_cons, feedText, part.splitsBlanks known h₀, Bool.false_eq_true,
            if_false, part.feed_text known h₀]
          exact ⟨part.awaits_text h₀ (List.cons_ne_nil d run) lines, rfl⟩
    obtain ⟨run, same, blank⟩ : ∃ run : Text, b.receive (.text t) =
        feedText run.length run { b with dropsLineFeed := false } ∧ Lines run := by
      refine ⟨_, rfl, ?_⟩
      split
      · exact (List.forall_mem_cons.1 lines).2
      · exact lines
    refine ⟨b.receive (.text t), ?_, ?_, fun more next => ?_⟩
    · rw [same]
      exact (received run blank).1
    · rw [same]
      exact (received run blank).2
    · have ends : EndsText (unifyBreaks more) := by
        rcases atTag_unifyBreaks next with none | ⟨m, shown⟩
        · exact .inl none
        · exact .inr ⟨'<', m, shown, rfl⟩
      have token := nextToken_run b.inOtherSpace none inside ends
      rw [decodeText_of_lines lines] at token
      rw [unifyBreaks_append_of_head t (head?_of_atTag next), unified]
      refine .token calm.lexing token ?_
      rw [List.length_append]
      exact Nat.lt_add_of_pos_left (List.length_pos_iff.2 none)

theorem InPhrase.moved (h : b.InPhrase c r [] []) {mode : Mode} {past : List Formatting}
    (dom : b'.dom = b.dom) (opened : b'.opened = b.opened) (lexing : b'.lexing = b.lexing)
    (fostering : b'.fostering = b.fostering) (templates : b'.templateModes = b.templateModes)
    (mode' : b'.mode = mode) (formatting : b'.formatting = past) :
    Rest c ⟨mode, r.base, past⟩ b' :=
  InPhrase.rest ⟨h.calm.of_eq dom opened lexing fostering templates, mode', opened.trans h.opened,
    formatting, List.forall_mem_nil _, List.forall_mem_nil _⟩

theorem InPhrase.left {q : Opened} {mode : Mode} {past : List Formatting}
    (h : b.InPhrase c ⟨mode, q :: r.base, past⟩ [] [])
    (rooted : [bodyElement, rootElement] <:+ r.base)
    (dom : b'.dom = b.dom) (opened : b'.opened = r.base) (lexing : b'.lexing = b.lexing)
    (fostering : b'.fostering = b.fostering) (templates : b'.templateModes = b.templateModes)
    (mode' : b'.mode = r.mode) (formatting : b'.formatting = r.past) : Rest c r b' := by
  have all : b.opened = [q] ++ r.base := h.opened
  have closed := h.calm.close all (List.nil_sublist _) rooted
  exact InPhrase.rest ⟨closed.of_eq dom opened lexing fostering templates, mode', opened,
    formatting, List.forall_mem_nil _, List.forall_mem_nil _⟩

theorem leads_nested {K : Text → Builder → Prop} {L : NodeId → Text → Builder → Prop}
    {inside : NodeId → Region} {tag : SpelledTag} (valid : tag.Valid)
    (outside : Settles c K (Awaits c r)) (start : ∀ b, Rest c r b → K [] b)
    (within : ∀ id, Settles c (L id) (Awaits c (inside id)))
    (start' : ∀ id b, Rest c (inside id) b → L id [] b)
    (opens : ∀ b, Rest c r b → ∃ id b', b.inMode (.openTag tag.read) = .done b' ∧
      Rest c (inside id) b' ∧ shown c b' = shown c b ++ ofTag c tag.read)
    (closes : ∀ id b, Rest c (inside id) b → ∃ b', b.inMode (.closeTag tag.name) = .done b' ∧
      Rest c r b' ∧ shown c b' = shown c b)
    (inner : ∀ id, Leads c (L id) s es (L id)) :
    Leads c K (tag.around s) (ofTag c tag.read ++ es) K := by
  refine leads_around (leads_openTag outside (fun b h => h.1) valid fun b h => ?_) inner
    fun id => leads_closeTag (within id) (fun b h => h.1) valid.name fun b h => ?_
  · obtain ⟨_, b₀, rest, same, treated⟩ := h
    obtain ⟨id, b', done, entered, more⟩ := opens b₀ rest
    rw [treated.openTag _ _ done]
    exact ⟨⟨id, start' id b' entered⟩, by rw [more, same]⟩
  · obtain ⟨_, b₀, rest, same, treated⟩ := h
    obtain ⟨b', done, left, more⟩ := closes id b₀ rest
    rw [treated.closeTag _ _ done]
    exact ⟨start b' left, by rw [more, same, List.append_nil]⟩

theorem popBackTo_of_current {q : Opened} {rest : List Opened} (opened : b.opened = q :: rest)
    {p : ElementClass} (holds : p q.name = true) : b.popBackTo p = b := by
  rw [popBackTo, opened, List.dropWhile_cons_of_neg (by simp [holds]), ← opened]

def Region.entered (r : Region) (mode : Mode) (past : List Formatting) (name : Text) (id : NodeId) :
    Region := ⟨mode, ⟨id, ⟨.html, name⟩⟩ :: r.base, past⟩

theorem Region.part_entered (rooted : [bodyElement, rootElement] <:+ r.base) (mode : Mode)
    (name : Text) (id : NodeId) : (r.entered mode [] name id).Part mode name :=
  ⟨rfl, rfl, ⟨id, r.base, rfl⟩, rooted.trans (List.suffix_cons ..)⟩

/-- Markup that leads back in one of the parts of a table, with no element of the class. -/
def Grids (c : Text) (mode : Mode) (s : Text) : Prop :=
  ∀ (r : Region) name, (mode, name) ∈ tableParts → r.Part mode name →
    Leads c (Lined (Rest c r)) s [] (Lined (Rest c r))

section Transitions

variable {id : NodeId} {name : Text}

theorem holdsCells_row : holdsCells ⟨.html, "tr"⟩ = true := by decide +kernel

theorem boundsTable_table : boundsTable ⟨.html, "table"⟩ = true := by decide +kernel

theorem inScopeNamed_of_current {rest : List Opened}
    (opened : b.opened = ⟨id, ⟨.html, name⟩⟩ :: rest) (bounds : ElementClass) : b.inScopeNamed bounds name = true :=
  inScope_of_current opened (withName_self name) bounds

theorem Rest.current {mode : Mode} {past : List Formatting}
    (h : Rest c (r.entered mode past name id) b) : b.opened = ⟨id, ⟨.html, name⟩⟩ :: r.base :=
  h.inPhrase.opened

theorem Rest.enter (h : Rest c r b) (tag : Tag) (ordinary : tag.name ≠ "template".toList) :
    ∃ id, ∀ b' mode past, b'.dom = (b.insertTag tag).dom → b'.opened = (b.insertTag tag).opened →
      b'.lexing = b.lexing → b'.fostering = b.fostering → b'.templateModes = b.templateModes →
      b'.mode = mode → b'.formatting = past →
      Rest c (r.entered mode past tag.name id) b' ∧ shown c b' = shown c b ++ ofTag c tag := by
  obtain ⟨id, inside, same⟩ := h.inPhrase.insertTag ordinary
  refine ⟨id, fun b' mode past dom opened lexing fostering templates mode' formatting =>
    ⟨inside.moved dom opened (lexing.trans ?_) (fostering.trans ?_) (templates.trans ?_) mode'
      formatting, (shown_of_dom dom).trans same⟩⟩
  all_goals
    rw [insertTag, openElement]
    rfl

theorem opens_cell (part : r.Part .inRow "tr") (h : Rest c r b)
    (known : name ∈ ["th".toList, "td"]) (attributes : Attributes) (closes : Bool) :
    ∃ id b', b.inMode (.openTag ⟨name, attributes, closes⟩) = .done b' ∧
      Rest c (r.entered .inCell [.marker] name id) b' ∧
      shown c b' = shown c b ++ ofTag c ⟨name, attributes, closes⟩ := by
  obtain ⟨i, outer, base⟩ := part.base
  have back : b.popBackTo holdsCells = b :=
    popBackTo_of_current (h.inPhrase.opened.trans base) holdsCells_row
  have mode : b.mode = .inRow := h.inPhrase.mode.trans part.mode
  have none : b.formatting = [] := h.inPhrase.formatting.trans part.past
  have rule : b.inMode (.openTag ⟨name, attributes, closes⟩) =
      .done (((b.popBackTo holdsCells).insertTag ⟨name, attributes, closes⟩).pushMarker.setMode
        .inCell) := by
    rw [inMode, mode]
    simp only [List.mem_cons, List.not_mem_nil, or_false] at known
    rcases known with rfl | rfl <;> rfl
  have ordinary : ∀ name ∈ ["th".toList, "td"], name ≠ "template".toList := by decide
  obtain ⟨id, entered⟩ := h.enter ⟨name, attributes, closes⟩ (ordinary _ known)
  rw [back] at rule
  have marked : Formatting.marker :: b.formatting = [.marker] := by rw [none]
  exact ⟨id, _, rule, entered _ _ _ rfl rfl rfl rfl rfl rfl marked⟩

theorem closes_cell (part : r.Part .inRow "tr") (known : name ∈ ["th".toList, "td"])
    (h : Rest c (r.entered .inCell [.marker] name id) b) :
    ∃ b', b.inMode (.closeTag name) = .done b' ∧ Rest c r b' ∧ shown c b' = shown c b := by
  have mode : b.mode = .inCell := h.inPhrase.mode
  have marker : b.formatting = [.marker] := h.inPhrase.formatting
  have explicit : ∀ name ∈ ["th".toList, "td"], endsImplied ⟨.html, name⟩ = false := by
    decide +kernel
  have rule : b.inMode (.closeTag name) = .done (if b.inScopeNamed boundsTable name then
      (b.closeAfterImplied name).clearToMarker.setMode .inRow else b) := by
    rw [inMode, mode]
    simp only [List.mem_cons, List.not_mem_nil, or_false] at known
    rcases known with rfl | rfl <;> rfl
  have closed : b.closeAfterImplied name = { b with opened := r.base } := by
    rw [closeAfterImplied, impliedEnds_of_current h.current (explicit _ known), popUntilNamed,
      popUntil_of_current h.current (withName_self name)]
  rw [inScopeNamed_of_current h.current, if_pos rfl, closed] at rule
  refine ⟨_, rule, h.inPhrase.left part.rooted rfl rfl rfl rfl rfl part.mode.symm ?_, rfl⟩
  rw [part.past]
  simp only [setMode, clearToMarker, marker]
  rfl

theorem opens_row (part : r.Part .inTableBody name) (known : name ∈ ["thead".toList, "tbody"])
    (h : Rest c r b) : ∃ id b', b.inMode (.openTag ⟨"tr", [], false⟩) = .done b' ∧
      Rest c (r.entered .inRow [] "tr" id) b' ∧
      shown c b' = shown c b ++ ofTag c ⟨"tr", [], false⟩ := by
  obtain ⟨i, outer, base⟩ := part.base
  have holds : ∀ name ∈ ["thead".toList, "tbody"], holdsRows ⟨.html, name⟩ = true := by
    decide +kernel
  have back : b.popBackTo holdsRows = b :=
    popBackTo_of_current (h.inPhrase.opened.trans base) (holds _ known)
  have rule : b.inMode (.openTag ⟨"tr", [], false⟩) =
      .done (((b.popBackTo holdsRows).insertTag ⟨"tr", [], false⟩).setMode .inRow) := by
    rw [inMode, h.inPhrase.mode, part.mode]
    rfl
  obtain ⟨id, entered⟩ := h.enter ⟨"tr", [], false⟩ (by decide)
  rw [back] at rule
  exact ⟨id, _, rule,
    entered _ _ _ rfl rfl rfl rfl rfl rfl (h.inPhrase.formatting.trans part.past)⟩

theorem closes_row (part : r.Part .inTableBody name) (h : Rest c (r.entered .inRow [] "tr" id) b) :
    ∃ b', b.inMode (.closeTag "tr") = .done b' ∧ Rest c r b' ∧ shown c b' = shown c b := by
  have mode : b.mode = .inRow := h.inPhrase.mode
  have none : b.formatting = [] := h.inPhrase.formatting
  have rule : b.inMode (.closeTag "tr") = .done (if b.inScopeNamed boundsTable "tr" then
      (b.popBackTo holdsCells).pop.setMode .inTableBody else b) := by
    rw [inMode, mode]
    rfl
  have back : b.popBackTo holdsCells = b := popBackTo_of_current h.current holdsCells_row
  rw [inScopeNamed_of_current h.current, if_pos rfl, back] at rule
  exact ⟨_, rule, h.inPhrase.left part.rooted rfl (congrArg List.tail h.current) rfl rfl rfl
    part.mode.symm (none.trans part.past.symm), rfl⟩

theorem opens_section (part : r.Part .inTable "table") (h : Rest c r b)
    (known : name ∈ ["thead".toList, "tbody"]) :
    ∃ id b', b.inMode (.openTag ⟨name, [], false⟩) = .done b' ∧
      Rest c (r.entered .inTableBody [] name id) b' ∧
      shown c b' = shown c b ++ ofTag c ⟨name, [], false⟩ := by
  obtain ⟨i, outer, base⟩ := part.base
  have back : b.popBackTo boundsTable = b :=
    popBackTo_of_current (h.inPhrase.opened.trans base) boundsTable_table
  have rule : b.inMode (.openTag ⟨name, [], false⟩) =
      .done (((b.popBackTo boundsTable).insertTag ⟨name, [], false⟩).setMode .inTableBody) := by
    rw [inMode, h.inPhrase.mode, part.mode]
    simp only [List.mem_cons, List.not_mem_nil, or_false] at known
    rcases known with rfl | rfl <;> rfl
  have ordinary : ∀ name ∈ ["thead".toList, "tbody"], name ≠ "template".toList := by decide
  obtain ⟨id, entered⟩ := h.enter ⟨name, [], false⟩ (ordinary _ known)
  rw [back] at rule
  exact ⟨id, _, rule,
    entered _ _ _ rfl rfl rfl rfl rfl rfl (h.inPhrase.formatting.trans part.past)⟩

theorem closes_section (part : r.Part .inTable "table") (known : name ∈ ["thead".toList, "tbody"])
    (h : Rest c (r.entered .inTableBody [] name id) b) :
    ∃ b', b.inMode (.closeTag name) = .done b' ∧ Rest c r b' ∧ shown c b' = shown c b := by
  have mode : b.mode = .inTableBody := h.inPhrase.mode
  have none : b.formatting = [] := h.inPhrase.formatting
  have holds : ∀ name ∈ ["thead".toList, "tbody"], holdsRows ⟨.html, name⟩ = true := by
    decide +kernel
  have rule : b.inMode (.closeTag name) = .done (if b.inScopeNamed boundsTable name then
      (b.popBackTo holdsRows).pop.setMode .inTable else b) := by
    rw [inMode, mode]
    simp only [List.mem_cons, List.not_mem_nil, or_false] at known
    rcases known with rfl | rfl <;> rfl
  have back : b.popBackTo holdsRows = b := popBackTo_of_current h.current (holds _ known)
  rw [inScopeNamed_of_current h.current, if_pos rfl, back] at rule
  exact ⟨_, rule, h.inPhrase.left part.rooted rfl (congrArg List.tail h.current) rfl rfl rfl
    part.mode.symm (none.trans part.past.symm), rfl⟩

theorem opens_table (flow : r.Flow) (h : Rest c r b) :
    ∃ id b', b.inMode (.openTag ⟨"table", [], false⟩) = .done b' ∧
      Rest c (r.entered .inTable [] "table" id) b' ∧
      shown c b' = shown c b ++ ofTag c ⟨"table", [], false⟩ := by
  have rule : b.inMode (.openTag ⟨"table", [], false⟩) =
      .done (b.openInBody ⟨"table", [], false⟩) := by
    rw [inMode, h.inPhrase.mode, flow.mode]
    rfl
  rw [openInBody_table _ (by decide), h.inPhrase.closeParagraph flow, ite_self] at rule
  obtain ⟨id, entered⟩ := h.enter ⟨"table", [], false⟩ (by decide)
  exact ⟨id, _, rule,
    entered _ _ _ rfl rfl rfl rfl rfl rfl (h.inPhrase.formatting.trans flow.past)⟩

theorem modeOf_of_flow (flow : r.Flow) (b : Builder) : b.modeOf r.base = .inBody := by
  obtain ⟨outer, base, flows⟩ := flow.base
  rw [base]
  clear base
  induction outer with
  | nil => rfl
  | cons o outer ih =>
      have known := flows o List.mem_cons_self
      rw [named, Bool.and_eq_true, decide_eq_true_eq, List.contains_iff_mem] at known
      have passes : ∀ name ∈ flowElements, ∀ rest : List Opened,
          b.modeOf (⟨0, ⟨.html, name⟩⟩ :: rest) = b.modeOf rest := by
        simp only [flowElements, List.forall_mem_cons, List.not_mem_nil, false_imp_iff,
          implies_true, and_true]
        exact ⟨fun _ => rfl, fun _ => rfl, fun _ => rfl, fun _ => rfl, fun _ => rfl, fun _ => rfl⟩
      have same : b.modeOf (o :: (outer ++ [bodyElement, rootElement])) =
          b.modeOf (outer ++ [bodyElement, rootElement]) := by
        obtain ⟨i, ⟨space, name⟩⟩ := o
        obtain ⟨rfl, listed⟩ := known
        exact passes name listed _
      exact same.trans (ih fun q member => flows q (List.mem_cons_of_mem o member))

theorem closes_table (flow : r.Flow) (h : Rest c (r.entered .inTable [] "table" id) b) :
    ∃ b', b.inMode (.closeTag "table") = .done b' ∧ Rest c r b' ∧ shown c b' = shown c b := by
  have mode : b.mode = .inTable := h.inPhrase.mode
  have none : b.formatting = [] := h.inPhrase.formatting
  have rule : b.inMode (.closeTag "table") = .done (if b.inScopeNamed boundsTable "table" then
      (b.popUntilNamed "table").resetMode else b) := by
    rw [inMode, mode]
    rfl
  rw [inScopeNamed_of_current h.current, if_pos rfl, popUntilNamed,
    popUntil_of_current h.current (withName_self _)] at rule
  refine ⟨_, rule, h.inPhrase.left flow.rooted rfl rfl rfl rfl rfl ?_ (none.trans flow.past.symm),
    rfl⟩
  rw [flow.mode]
  exact modeOf_of_flow flow _

end Transitions

namespace Grids

variable {mode : Mode} {t : Text}

theorem nil : Grids c mode [] := fun _ _ _ _ => .nil

theorem append (first : Grids c mode s) (second : Grids c mode t) : Grids c mode (s ++ t) :=
  fun r name known part => (first r name known part).trans (second r name known part)

theorem of_lines (lines : Lines s) : Grids c mode s := fun _ _ _ _ => leads_lines lines

theorem of_nested {r : Region} {outer inner : Mode} {name parent : Text}
    (part : r.Part outer parent) (known : (outer, parent) ∈ tableParts)
    (known' : (inner, name) ∈ tableParts) (valid : isMarkupName name = true)
    (opens : ∀ b, Rest c r b → ∃ id b', b.inMode (.openTag ⟨name, [], false⟩) = .done b' ∧
      Rest c (r.entered inner [] name id) b' ∧ shown c b' = shown c b ++ ofTag c ⟨name, [], false⟩)
    (closes : ∀ id b, Rest c (r.entered inner [] name id) b → ∃ b',
      b.inMode (.closeTag name) = .done b' ∧ Rest c r b' ∧ shown c b' = shown c b)
    (grids : Grids c inner s) :
    Leads c (Lined (Rest c r)) (SpelledTag.around ⟨name, [], false⟩ s) [] (Lined (Rest c r)) := by
  have empty : Lines [] := List.forall_mem_nil _
  have entered (id : NodeId) := Region.part_entered part.rooted inner name id
  exact leads_nested (SpelledTag.valid_bare valid) (part.settles known)
    (fun b h => ⟨empty, h⟩) (fun id => (entered id).settles known') (fun id b h => ⟨empty, h⟩) opens closes
    fun id => grids _ name known' (entered id)

theorem of_cell {name : Text} (known : name ∈ ["th".toList, "td"]) {attributes : List Spelled}
    (valid : SpelledTag.Valid ⟨name, attributes, false⟩)
    (plain : (SpelledTag.read ⟨name, attributes, false⟩).attributes.hasClass c = false)
    (runs : Runs c s) : Grids c .inRow (SpelledTag.around ⟨name, attributes, false⟩ s) := by
  intro r row member part
  have row : row = "tr".toList := by
    simp only [tableParts, List.mem_cons, Prod.mk.injEq, List.not_mem_nil, or_false] at member
    tauto
  subst row
  have special : ∀ name ∈ ["th".toList, "td"], name ∈ specialBlocks := by decide
  have fine (id : NodeId) : (r.entered .inCell [.marker] name id).Fine :=
    ⟨.inr rfl, ⟨_, _, rfl, isSpecial_of_mem (special _ known)⟩, part.rooted.trans (List.suffix_cons ..), .inr rfl⟩
  have empty : Lines [] := List.forall_mem_nil _
  have whole := leads_nested (c := c) valid (part.settles member) (fun b h => ⟨empty, h⟩)
    (fun id => settles_awaits (fine id)) (fun id b h => pending_nil h)
    (fun b h => opens_cell part h known _ false) (fun id b h => closes_cell part known h)
    fun id => runs _ (fun _ => 0) (fine id)
  rwa [ofTag_of_plain plain] at whole

theorem of_row (grids : Grids c .inRow s) :
    Grids c .inTableBody (SpelledTag.around ⟨"tr", [], false⟩ s) := by
  intro r name member part
  have known : name ∈ ["thead".toList, "tbody"] := by
    simp only [tableParts, List.mem_cons, Prod.mk.injEq, List.not_mem_nil, or_false] at member ⊢
    tauto
  exact of_nested part member (by decide) (by decide) (fun b h => opens_row part known h)
    (fun id b h => closes_row part h) grids

theorem of_section {name : Text} (known : name ∈ ["thead".toList, "tbody"])
    (grids : Grids c .inTableBody s) :
    Grids c .inTable (SpelledTag.around ⟨name, [], false⟩ s) := by
  intro r table member part
  have table : table = "table".toList := by
    simp only [tableParts, List.mem_cons, Prod.mk.injEq, List.not_mem_nil, or_false] at member
    tauto
  subst table
  have parts : ∀ name ∈ ["thead".toList, "tbody"],
      (Mode.inTableBody, name) ∈ tableParts ∧ isMarkupName name = true := by decide
  obtain ⟨listed, valid⟩ := parts _ known
  exact of_nested part member listed valid (fun b h => opens_section part h known)
    (fun id b h => closes_section part known h) grids

end Grids

theorem Flows.of_table (grids : Grids c .inTable s) :
    Flows c (SpelledTag.around ⟨"table", [], false⟩ s) [] := by
  intro r flow
  have empty : Lines [] := List.forall_mem_nil _
  have known : (Mode.inTable, "table".toList) ∈ tableParts := by decide
  have entered (id : NodeId) := Region.part_entered flow.rooted .inTable "table" id
  exact leads_nested (SpelledTag.valid_bare (by decide)) (settles_awaits flow.fine)
    (fun b h => pending_nil h) (fun id => (entered id).settles known) (fun id b h => ⟨empty, h⟩)
    (fun b h => opens_table flow h) (fun id b h => closes_table flow h)
    fun id => grids _ _ known (entered id)

end Builder
end LivePage.Html
