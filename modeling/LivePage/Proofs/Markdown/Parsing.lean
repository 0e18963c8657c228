import LivePage.Proofs.Markdown.ParsedInlines
import LivePage.Render.Processor

/-!
Every text parses into a tree of the values that parsing makes: notes are placed, texts joined, mail
linked and tasks marked without making others. No null is left in it. Typography only changes texts.
-/

namespace LivePage.Markdown

variable {notes : Bool} {scope : Scope}

theorem Node.Parsed.value {n : Node} (parsed : n.Parsed scope) : n.value.isParsed scope = true := by
  cases parsed with
  | mk own _ => exact own

theorem Node.Parsed.children {n : Node} (parsed : n.Parsed scope) :
    ∀ c ∈ n.children, c.Parsed (scope.below n.value) := by
  cases parsed with
  | mk _ below => exact below

mutual

theorem parsed_collectNotes {found : List Note} (old : ∀ n ∈ found, n.node.Parsed ⟨notes, true⟩) :
    ∀ {headings : Bool} (n : Node), n.Parsed ⟨notes, headings⟩ →
      ∀ note ∈ collectNotes found n, note.node.Parsed ⟨notes, true⟩
  | _, .mk v span children, .mk own below => by
      unfold collectNotes
      split
      · refine List.forall_mem_append.2 ⟨fun n member => old n (List.mem_filter.1 member).1, ?_⟩
        exact List.forall_mem_singleton.2 (Node.Parsed.mk own below).widen
      · exact parsed_collectNotesAll old children below

theorem parsed_collectNotesAll {found : List Note} (old : ∀ n ∈ found, n.node.Parsed ⟨notes, true⟩) :
    ∀ {headings : Bool} (ns : List Node), (∀ n ∈ ns, n.Parsed ⟨notes, headings⟩) →
      ∀ note ∈ collectNotesAll found ns, note.node.Parsed ⟨notes, true⟩
  | _, [], _ => old
  | _, n :: rest, parsed => by
      obtain ⟨first, others⟩ := List.forall_mem_cons.1 parsed
      exact parsed_collectNotesAll (parsed_collectNotes old n first) rest others

end

theorem parsed_refer {found : List Note} (old : ∀ n ∈ found, n.node.Parsed scope) (key : Text) :
    ∀ n ∈ refer key found, n.node.Parsed scope := by
  intro n member
  obtain ⟨n, listed, rfl⟩ := List.mem_map.1 member
  split
  · exact old n listed
  · exact old n listed

mutual

theorem parsed_numberReferences {found : List Note} (old : ∀ n ∈ found, n.node.Parsed ⟨notes, true⟩) :
    ∀ {scope : Scope} (n : Node), n.Parsed scope →
      (∀ note ∈ (numberReferences found n).1, note.node.Parsed ⟨notes, true⟩) ∧
        (numberReferences found n).2.Parsed scope
  | _, .mk v span children, .mk own below => by
      unfold numberReferences
      split
      · simp only
        split
        · exact ⟨parsed_refer old _, .mk own (List.forall_mem_nil _)⟩
        · exact ⟨parsed_refer old _, .mk rfl (List.forall_mem_nil _)⟩
      · obtain ⟨same, inner⟩ := parsed_numberReferencesAll old children below
        exact ⟨same, .mk own inner⟩

theorem parsed_numberReferencesAll {found : List Note}
    (old : ∀ n ∈ found, n.node.Parsed ⟨notes, true⟩) :
    ∀ {scope : Scope} (ns : List Node), (∀ n ∈ ns, n.Parsed scope) →
      (∀ note ∈ (numberReferencesAll found ns).1, note.node.Parsed ⟨notes, true⟩) ∧
        ∀ n ∈ (numberReferencesAll found ns).2, n.Parsed scope
  | _, [], _ => ⟨old, List.forall_mem_nil _⟩
  | _, n :: rest, parsed => by
      obtain ⟨first, others⟩ := List.forall_mem_cons.1 parsed
      obtain ⟨counted, one⟩ := parsed_numberReferences old n first
      obtain ⟨same, more⟩ := parsed_numberReferencesAll counted rest others
      exact ⟨same, List.forall_mem_cons.2 ⟨one, more⟩⟩

end

mutual

theorem parsed_notesOf :
    ∀ {headings : Bool} (n : Node), n.Parsed ⟨notes, headings⟩ →
      ∀ entry ∈ notesOf n, entry.2.Parsed ⟨notes, true⟩
  | _, .mk v span children, .mk own below => by
      unfold notesOf
      split
      · exact List.forall_mem_singleton.2 (Node.Parsed.mk own below).widen
      · exact parsed_notesOfAll children below

theorem parsed_notesOfAll :
    ∀ {headings : Bool} (ns : List Node), (∀ n ∈ ns, n.Parsed ⟨notes, headings⟩) →
      ∀ entry ∈ notesOfAll ns, entry.2.Parsed ⟨notes, true⟩
  | _, [], _ => List.forall_mem_nil _
  | _, n :: rest, parsed => by
      obtain ⟨first, others⟩ := List.forall_mem_cons.1 parsed
      exact List.forall_mem_append.2 ⟨parsed_notesOf n first, parsed_notesOfAll rest others⟩

end

mutual

theorem parsed_dropNotes :
    ∀ {scope : Scope} (n : Node), n.Parsed scope → (dropNotes n).Parsed scope
  | _, .mk _ _ children, .mk own below => .mk own (parsed_dropNotesAll children below)

theorem parsed_dropNotesAll : ∀ {scope : Scope} (ns : List Node), (∀ n ∈ ns, n.Parsed scope) →
    ∀ n ∈ dropNotesAll ns, n.Parsed scope
  | _, [], _ => List.forall_mem_nil _
  | _, n :: rest, parsed => by
      obtain ⟨first, others⟩ := List.forall_mem_cons.1 parsed
      unfold dropNotesAll
      split
      · exact parsed_dropNotesAll rest others
      · exact List.forall_mem_cons.2 ⟨parsed_dropNotes n first, parsed_dropNotesAll rest others⟩

end

theorem value_numberReferences {n : Node} (found : List Note) (block : n.value.isInline = false) :
    (numberReferences found n).2.value = n.value := by
  obtain ⟨v, span, children⟩ := n
  unfold numberReferences
  split
  · cases block
  · rfl

theorem value_dropNotes (n : Node) : (dropNotes n).value = n.value := by
  cases n
  rfl

theorem parsed_placeNotes {root : Node} (parsed : root.Parsed ⟨true, true⟩)
    (block : root.value.isInline = false) : (placeNotes root).Parsed ⟨true, true⟩ := by
  obtain ⟨kept, numbered⟩ := parsed_numberReferences
    (parsed_collectNotes (List.forall_mem_nil _) root parsed) root parsed
  have value := value_numberReferences (collectNotes [] root) block
  unfold placeNotes
  simp only
  split
  · exact numbered
  · have dropped := parsed_dropNotes _ numbered
    have same := (value_dropNotes (numberReferences (collectNotes [] root) root).2).trans value
    refine .mk dropped.value (List.forall_mem_append.2 ⟨dropped.children, fun n member => ?_⟩)
    rw [same, Scope.below, block]
    obtain ⟨note, used, rfl⟩ := List.mem_map.1 member
    have listed := (List.mem_filter.1 (List.mem_mergeSort.1 used)).1
    have found : Node.Parsed ⟨true, true⟩
        (((notesOf (numberReferences (collectNotes [] root) root).2).reverse.lookup note.key).getD
          note.node) := by
      cases entry : ((notesOf (numberReferences (collectNotes [] root) root).2).reverse.lookup
          note.key) with
      | none => exact kept note listed
      | some node =>
          obtain ⟨before, after, shown, _⟩ := List.lookup_eq_some_iff.1 entry
          refine parsed_notesOf _ numbered (note.key, node) (List.mem_reverse.1 ?_)
          simp [shown]
    exact .mk rfl fun n below => (found.children n below).widen

theorem parsed_linkMails (fuel : Nat) (parts : Parts) (span : Span) (s : Text) :
    ∀ n ∈ linkMails fuel parts span s, n.Parsed scope := by
  induction fuel generalizing parts span s with
  | zero => exact List.forall_mem_singleton.2 (parsed_text _ _)
  | succ fuel ih =>
      unfold linkMails
      split
      · exact List.forall_mem_singleton.2 (parsed_text _ _)
      · simp only
        refine List.forall_mem_append.2 ⟨?_, List.forall_mem_cons.2 ⟨?_, ?_⟩⟩
        · split
          · exact List.forall_mem_nil _
          · exact List.forall_mem_singleton.2 (parsed_text _ _)
        · exact .mk rfl (List.forall_mem_singleton.2 (parsed_text _ _))
        · split
          · exact List.forall_mem_nil _
          · exact ih _ _ _

theorem parsed_joinTexts {ns : List Node} (parsed : ∀ n ∈ ns, n.Parsed scope) :
    ∀ entry ∈ joinTexts ns, entry.1.Parsed scope := by
  induction ns with
  | nil => exact List.forall_mem_nil _
  | cons n rest ih =>
      obtain ⟨first, others⟩ := List.forall_mem_cons.1 parsed
      have later := ih others
      cases first with
      | mk own below =>
      unfold joinTexts
      split
      · next joined =>
          rw [joined, List.forall_mem_cons] at later
          exact List.forall_mem_cons.2 ⟨.mk rfl below, later.2⟩
      · exact List.forall_mem_cons.2 ⟨.mk rfl below, later⟩
      · exact List.forall_mem_cons.2 ⟨.mk own below, later⟩

theorem parsed_linkTexts (mail : Bool) (entries : List (Node × Parts))
    (parsed : ∀ entry ∈ entries, entry.1.Parsed scope) :
    ∀ n ∈ linkTexts mail entries, n.Parsed scope := by
  induction entries with
  | nil => exact List.forall_mem_nil _
  | cons entry rest ih =>
      obtain ⟨⟨v, span, children⟩, parts⟩ := entry
      obtain ⟨first, others⟩ := List.forall_mem_cons.1 parsed
      unfold linkTexts
      refine List.forall_mem_append.2 ⟨?_, ih others⟩
      split
      · split
        · exact List.forall_mem_nil _
        split
        · exact parsed_linkMails _ _ _ _
        · exact List.forall_mem_singleton.2 first
      · exact List.forall_mem_singleton.2 first

mutual

theorem parsed_tidy (mail : Bool) :
    ∀ {scope : Scope} (n : Node), n.Parsed scope → (tidy mail n).Parsed scope
  | _, .mk v span children, .mk own below => by
      unfold tidy
      exact .mk own (parsed_linkTexts _ _ (parsed_joinTexts (parsed_tidyAll _ children below)))

theorem parsed_tidyAll (mail : Bool) : ∀ {scope : Scope} (ns : List Node),
    (∀ n ∈ ns, n.Parsed scope) → ∀ n ∈ tidyAll mail ns, n.Parsed scope
  | _, [], _ => List.forall_mem_nil _
  | _, n :: rest, parsed => by
      obtain ⟨first, others⟩ := List.forall_mem_cons.1 parsed
      exact List.forall_mem_cons.2 ⟨parsed_tidy mail n first, parsed_tidyAll mail rest others⟩

end

theorem joinLead_mem {s : Text} {span : Span} {ns : List Node} :
    ∀ n ∈ (joinLead s span ns).2.2, n ∈ ns := by
  induction ns generalizing s span with
  | nil => exact fun n member => member
  | cons first rest ih =>
      intro n member
      unfold joinLead at member
      split at member
      · next shown =>
          cases shown
          exact List.mem_cons_of_mem _ (ih n member)
      · exact member

theorem parsed_takeBox? {children rest : List Node} {done : Bool}
    (parsed : ∀ n ∈ children, n.Parsed scope) (taken : takeBox? children = some (done, rest)) :
    ∀ n ∈ rest, n.Parsed scope := by
  unfold takeBox? at taken
  split at taken
  · obtain ⟨⟨ticked, s'⟩, _, shown⟩ := Option.map_eq_some_iff.1 taken
    cases shown
    refine List.forall_mem_cons.2 ⟨parsed_text _ _, fun n member => ?_⟩
    exact parsed n (List.mem_cons_of_mem _ (joinLead_mem n member))
  · cases taken

theorem parsed_markTask {n : Node} (parsed : n.Parsed scope) : (markTask n).Parsed scope := by
  unfold markTask
  split
  · have inner := parsed.children
    obtain ⟨first, others⟩ := List.forall_mem_cons.1 inner
    split
    · next taken =>
        refine .mk rfl (List.forall_mem_cons.2 ⟨.mk rfl ?_, others⟩)
        exact parsed_takeBox? first.children taken
    · exact .mk rfl (List.forall_mem_cons.2 ⟨first, others⟩)
  · exact parsed

mutual

theorem parsed_markTasks :
    ∀ {scope : Scope} (n : Node), n.Parsed scope → (markTasks n).Parsed scope
  | _, .mk v span children, .mk own below => by
      have inner := parsed_markTasksAll children below
      unfold markTasks
      simp only
      split
      · refine .mk own fun n member => ?_
        obtain ⟨n, listed, rfl⟩ := List.mem_map.1 member
        exact parsed_markTask (inner n listed)
      · exact .mk own inner

theorem parsed_markTasksAll : ∀ {scope : Scope} (ns : List Node), (∀ n ∈ ns, n.Parsed scope) →
    ∀ n ∈ markTasksAll ns, n.Parsed scope
  | _, [], _ => List.forall_mem_nil _
  | _, n :: rest, parsed => by
      obtain ⟨first, others⟩ := List.forall_mem_cons.1 parsed
      exact List.forall_mem_cons.2 ⟨parsed_markTasks n first, parsed_markTasksAll rest others⟩

end

mutual

theorem parsed_mapValues {f : Value → Span → Value}
    (below : ∀ v span, (f v span).isInline = v.isInline)
    (keeps : ∀ scope v span, v.isParsed scope = true → (f v span).isParsed scope = true) :
    ∀ {scope : Scope} (n : Node), n.Parsed scope → (n.mapValues f).Parsed scope
  | _, .mk v span children, .mk own inner => by
      refine .mk (keeps _ v span own) ?_
      rw [Scope.below, below]
      exact parsed_mapAllValues below keeps children inner

theorem parsed_mapAllValues {f : Value → Span → Value}
    (below : ∀ v span, (f v span).isInline = v.isInline)
    (keeps : ∀ scope v span, v.isParsed scope = true → (f v span).isParsed scope = true) :
    ∀ {scope : Scope} (ns : List Node), (∀ n ∈ ns, n.Parsed scope) →
      ∀ n ∈ Node.mapAllValues f ns, n.Parsed scope
  | _, [], _ => List.forall_mem_nil _
  | _, n :: rest, parsed => by
      obtain ⟨first, others⟩ := List.forall_mem_cons.1 parsed
      exact List.forall_mem_cons.2
        ⟨parsed_mapValues below keeps n first, parsed_mapAllValues below keeps rest others⟩

end

theorem Value.isInline_showNull (v : Value) : v.showNull.isInline = v.isInline := by
  cases v <;> rfl

theorem Value.isParsed_showNull {v : Value} (parsed : v.isParsed scope = true) :
    v.showNull.isParsed scope = true := by
  cases v with
  | codeBlock code =>
      obtain ⟨fenced, info, literal⟩ := code
      cases info with
      | nil => exact parsed
      | cons c info => exact parsed
  | _ => exact parsed

/-- Every text parses into such a tree, footnotes only where they are asked for. -/
theorem parsed_parse (options : ParseOptions)
    (agree : options.blocks.footnotes = options.inlines.footnotes) (s : Text) :
    (parse options s).Parsed ⟨options.inlines.footnotes, true⟩ := by
  have blocks := parsed_readBlocks options.blocks s
  rw [agree] at blocks
  have root := parsed_toNode options.inlines (readBlocks options.blocks s).2 _ blocks
  have block := isInline_toNode options.inlines (readBlocks options.blocks s).2 blocks
  unfold parse
  simp only
  refine parsed_mapValues (fun v _ => v.isInline_showNull) (fun _ _ _ => Value.isParsed_showNull) _
    (parsed_tidy _ _ (parsed_markTasks _ ?_))
  split
  · next enabled =>
      rw [enabled] at root ⊢
      exact parsed_placeNotes root block
  · exact root

mutual

theorem mapValues_mapValues (f g : Value → Span → Value) : ∀ n : Node,
    (n.mapValues f).mapValues g = n.mapValues fun v span => g (f v span) span
  | .mk _ _ children => by
      rw [Node.mapValues, Node.mapValues, Node.mapValues, mapAllValues_mapAllValues f g children]

theorem mapAllValues_mapAllValues (f g : Value → Span → Value) : ∀ ns : List Node,
    Node.mapAllValues g (Node.mapAllValues f ns) =
      Node.mapAllValues (fun v span => g (f v span) span) ns
  | [] => rfl
  | n :: rest => by
      rw [Node.mapAllValues, Node.mapAllValues, Node.mapAllValues, mapValues_mapValues f g n,
        mapAllValues_mapAllValues f g rest]

end

theorem replaceNull_replaceNull (s : Text) :
    Html.replaceNull (Html.replaceNull s) = Html.replaceNull s := by
  rw [Html.replaceNull, Html.replaceNull, List.map_map]
  refine List.map_congr_left fun c _ => ?_
  by_cases null : c = '\x00'
  · simp only [Function.comp_apply, if_pos null]
    decide
  · simp only [Function.comp_apply, if_neg null]

theorem Value.showNull_showNull (v : Value) : v.showNull.showNull = v.showNull := by
  cases v <;> simp only [Value.showNull, Target.showNull, replaceNull_replaceNull]

/-- A document has no nulls, whatever its text holds. -/
theorem showNull_parse (options : ParseOptions) (s : Text) :
    (parse options s).mapValues (fun v _ => v.showNull) = parse options s := by
  unfold parse
  simp only [mapValues_mapValues, Value.showNull_showNull]

theorem parsed_joinFirst {n : Node} {rest : List Node} (first : n.Parsed scope)
    (others : ∀ n ∈ rest, n.Parsed scope) :
    ∀ k ∈ Typographer.joinFirst n rest, k.Parsed scope := by
  unfold Typographer.joinFirst
  split
  · cases first with
    | mk _ below => exact List.forall_mem_cons.2 ⟨.mk rfl below, (List.forall_mem_cons.1 others).2⟩
  · exact List.forall_mem_cons.2 ⟨first, others⟩

mutual

theorem parsed_join :
    ∀ {scope : Scope} (n : Node), n.Parsed scope → (Typographer.join n).Parsed scope
  | _, .mk _ _ children, .mk own below => .mk own (parsed_joinAll children below)

theorem parsed_joinAll : ∀ {scope : Scope} (ns : List Node), (∀ n ∈ ns, n.Parsed scope) →
    ∀ n ∈ Typographer.joinAll ns, n.Parsed scope
  | _, [], _ => List.forall_mem_nil _
  | _, n :: rest, parsed => by
      obtain ⟨first, others⟩ := List.forall_mem_cons.1 parsed
      exact parsed_joinFirst (parsed_join n first) (parsed_joinAll rest others)

end

theorem parsed_typography (t : Typographer) {root : Node} (parsed : root.Parsed scope) :
    (t.apply root).Parsed scope := by
  have styled : (t.restyle root).Parsed scope := by
    unfold Typographer.restyle
    split
    · exact parsed
    · refine parsed_mapValues (fun v span => ?_) (fun _ v span own => ?_) root parsed
      · split <;> rfl
      · split
        · rfl
        · exact own
  refine parsed_mapValues (fun v span => ?_) (fun _ v span own => ?_) _ (parsed_join _ styled)
  · split <;> rfl
  · split
    · rfl
    · exact own

theorem parsed_styled {m : Type → Type} (p : Processor m) (source : Text) :
    (p.styled source (parse p.options.parseOptions source)).Parsed ⟨p.options.gfm, true⟩ := by
  have parsed := parsed_parse p.options.parseOptions rfl source
  unfold Processor.styled
  split
  · exact parsed_typography _ parsed
  · exact parsed

end LivePage.Markdown
