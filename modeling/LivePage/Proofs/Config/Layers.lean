import LivePage.Proofs.Config.Contents

/-!
Layers of a configuration, path by path. An upper layer decides a path if it has something there or
lets nothing stand there. What it decides it imposes, up to what else an object holds; all other
paths stay as they were. So of many layers the last one that decides a path has its way there.

The laws need the upper layer to be keyed: a key that came twice would be merged twice.
-/

namespace LivePage.Json

theorem merge_of_leaf_above (below : Json) {above : Json} (leaf : above.isObject = false) :
    merge below above = above := by
  rw [merge]
  rintro _ fields _ rfl
  cases leaf

theorem merge_of_leaf_below {below : Json} (leaf : below.isObject = false) (above : Json) :
    merge below above = above := by
  rw [merge]
  rintro fields _ rfl
  cases leaf

theorem mergeFields_cons (below : Fields) (key : Text) (v : Json) (above : Fields) :
    mergeFields below ((key, v) :: above) =
      mergeFields (below.insert key (merge ((below.get? key).getD .null) v)) above := by
  rw [mergeFields]
  cases below.get? key with
  | none => rw [Option.getD_none, merge_of_leaf_below rfl]
  | some w => rfl

theorem get?_mergeFields {above : Fields} (distinct : above.keys.Nodup) (below : Fields)
    (key : Text) :
    Fields.get? (mergeFields below above) key =
      ((above.get? key).map (merge ((below.get? key).getD .null))).or (below.get? key) := by
  induction above generalizing below with
  | nil => rw [mergeFields]; rfl
  | cons f above ih =>
      obtain ⟨k, v⟩ := f
      obtain ⟨fresh, distinct⟩ := List.nodup_cons.1 distinct
      rw [mergeFields_cons, ih distinct, Fields.get?_insert]
      by_cases here : k = key
      · subst here
        simp [Fields.get?, Fields.get?_eq_none_iff.2 fresh]
      · simp [Fields.get?, here]

/-- The keys of the lower layer stay where they are, and the new ones of the upper follow. -/
theorem keys_mergeFields {above : Fields} (distinct : above.keys.Nodup) (below : Fields) :
    Fields.keys (mergeFields below above) =
      below.keys ++ above.keys.filter (· ∉ below.keys) := by
  induction above generalizing below with
  | nil => rw [mergeFields]; simp [Fields.keys]
  | cons f above ih =>
      obtain ⟨k, v⟩ := f
      obtain ⟨fresh, distinct⟩ := List.nodup_cons.1 distinct
      have first : Fields.keys ((k, v) :: above) = k :: Fields.keys above := rfl
      rw [mergeFields_cons, ih distinct, Fields.keys_insert, first]
      by_cases old : k ∈ below.keys
      · simp [old]
      · have others : (Fields.keys above).filter (· ∉ below.keys ++ [k]) =
            (Fields.keys above).filter (· ∉ below.keys) := by
          apply List.filter_congr
          intro key member
          have other : key ≠ k := fun same => fresh (same ▸ member)
          simp [other]
        rw [if_neg old, others, List.filter_cons_of_pos (by simpa using old), List.append_assoc,
          List.singleton_append]

theorem field?_merge (below : Json) {above : Json} (keyed : above.Keyed)
    (table : above.isObject = true) (key : Text) :
    (merge below above).field? key =
      ((above.field? key).map (merge ((below.field? key).getD .null))).or (below.field? key) := by
  cases lower : below.isObject with
  | false =>
      have copied : merge .null = id := funext (merge_of_leaf_below rfl)
      rw [merge_of_leaf_below lower, field?_of_not_isObject lower, Option.getD_none, copied,
        Option.map_id, Option.or_none]
      rfl
  | true =>
      cases below with
      | object fields =>
          cases above with
          | object upper =>
              rw [merge]
              exact get?_mergeFields (keyed_object_iff.1 keyed).1 fields key
          | _ => cases table
      | _ => cases lower

theorem at?_merge_cons (below : Json) {above v : Json} (keyed : above.Keyed) {key : Text}
    (inside : above.field? key = some v) (path : List Text) :
    (merge below above).at? (key :: path) =
      (merge ((below.field? key).getD .null) v).at? path := by
  have table : above.isObject = true := by
    cases above with
    | object fields => rfl
    | _ => cases inside
  rw [at?_cons, field?_merge below keyed table, inside]
  rfl

theorem at?_merge_of_leaf {below above v : Json} {path : List Text} (keyed : above.Keyed)
    (found : above.at? path = some v) (leaf : v.isObject = false) :
    (merge below above).at? path = some v := by
  induction path generalizing below above with
  | nil =>
      cases found
      rw [merge_of_leaf_above below leaf, at?_nil]
  | cons key path ih =>
      obtain ⟨u, inside, found⟩ := Option.bind_eq_some_iff.1 found
      rw [at?_merge_cons below keyed inside]
      exact ih (keyed.field inside) found

/-- The keys of the object at a path, none if there is no object. -/
def keysAt (v : Json) (path : List Text) : List Text :=
  match v.at? path with
  | some (.object fields) => Fields.keys fields
  | _ => []

theorem keysAt_cons (v : Json) (key : Text) (path : List Text) :
    v.keysAt (key :: path) = ((v.field? key).getD .null).keysAt path := by
  rw [keysAt, at?_cons]
  cases v.field? key with
  | some w => rfl
  | none =>
      cases path with
      | nil => rfl
      | cons k path => rfl

theorem at?_merge_of_object (below : Json) {above : Json} {fields : Fields} {path : List Text}
    (keyed : above.Keyed) (found : above.at? path = some (.object fields)) :
    ∃ merged : Fields, (merge below above).at? path = some (.object merged) ∧
      merged.keys = below.keysAt path ++ fields.keys.filter (· ∉ below.keysAt path) := by
  induction path generalizing below above with
  | nil =>
      cases found
      cases below with
      | object lower =>
          exact ⟨mergeFields lower fields, by rw [merge, at?_nil],
            keys_mergeFields (keyed_object_iff.1 keyed).1 lower⟩
      | _ => exact ⟨fields, by rw [merge_of_leaf_below rfl, at?_nil], by simp [keysAt]⟩
  | cons key path ih =>
      obtain ⟨u, inside, found⟩ := Option.bind_eq_some_iff.1 found
      rw [at?_merge_cons below keyed inside, keysAt_cons]
      exact ih _ (keyed.field inside) found

theorem at?_merge_of_not_decides {below above : Json} {path : List Text} (keyed : above.Keyed)
    (free : ¬above.Decides path) : (merge below above).at? path = below.at? path := by
  induction path generalizing below above with
  | nil => exact absurd above.decides_nil free
  | cons key path ih =>
      rw [decides_cons, not_or, Bool.not_eq_false] at free
      obtain ⟨table, undecided⟩ := free
      cases inside : above.field? key with
      | none =>
          rw [at?_cons, at?_cons, field?_merge below keyed table, inside]
          rfl
      | some u =>
          have free : ¬u.Decides path := fun decided => undecided ⟨u, inside, decided⟩
          rw [at?_merge_cons below keyed inside, ih (keyed.field inside) free, at?_cons]
          cases below.field? key with
          | some w => rfl
          | none =>
              cases path with
              | nil => exact absurd u.decides_nil free
              | cons k path => rfl

/-- What stands at a path; of an object, only that it is one. -/
def outline? (v : Json) (path : List Text) : Option Json :=
  (v.at? path).map fun w => if w.isObject then .object [] else w

theorem outline?_merge_of_decides {below above : Json} {path : List Text} (keyed : above.Keyed)
    (decided : above.Decides path) :
    (merge below above).outline? path = above.outline? path := by
  rcases decided with present | ⟨way, w, lead, proper, found, leaf⟩
  · obtain ⟨v, found⟩ := Option.isSome_iff_exists.1 present
    cases kind : v.isObject with
    | false => rw [outline?, outline?, at?_merge_of_leaf keyed found kind, found]
    | true =>
        cases v with
        | object fields =>
            obtain ⟨merged, stands, -⟩ := at?_merge_of_object below keyed found
            rw [outline?, outline?, stands, found]
            rfl
        | _ => cases kind
  · have below' : (merge below above).Blocks path :=
      ⟨way, w, lead, proper, at?_merge_of_leaf keyed found leaf, leaf⟩
    rw [outline?, outline?, at?_of_blocks below', at?_of_blocks ⟨way, w, lead, proper, found, leaf⟩]

mutual

theorem keyed_merge {below above : Json} (lower : below.Keyed) (upper : above.Keyed) :
    (merge below above).Keyed := by
  match below, above with
  | .object fields, .object fields' =>
      rw [merge]
      exact keyed_mergeFields lower (keyed_object_iff.1 upper).2
  | .object _, .null | .object _, .bool _ | .object _, .number _ | .object _, .string _
  | .object _, .array _ => rwa [merge_of_leaf_above _ rfl]
  | .null, _ | .bool _, _ | .number _, _ | .string _, _ | .array _, _ =>
      rwa [merge_of_leaf_below rfl]

theorem keyed_mergeFields {below : Fields} {above : List (Text × Json)}
    (lower : Keyed (.object below)) (values : ∀ f ∈ above, f.2.Keyed) :
    Keyed (.object (mergeFields below above)) := by
  match above with
  | [] =>
      rw [mergeFields]
      exact lower
  | (key, v) :: above =>
      have found : ((below.get? key).getD .null).Keyed := by
        cases inside : below.get? key with
        | none => exact .null
        | some w => exact (keyed_object_iff.1 lower).2 _ (Fields.mem_of_get? inside)
      have first := keyed_merge found (values (key, v) List.mem_cons_self)
      rw [mergeFields_cons]
      exact keyed_mergeFields (lower.insert first key) fun f member =>
        values f (List.mem_cons_of_mem _ member)

end

theorem mergeAll_append (earlier later : List Json) :
    mergeAll (earlier ++ later) = later.foldl merge (mergeAll earlier) := List.foldl_append

theorem at?_foldl_merge {layers : List Json} (keyed : ∀ v ∈ layers, v.Keyed) {path : List Text}
    (free : ∀ v ∈ layers, ¬v.Decides path) (below : Json) :
    (layers.foldl merge below).at? path = below.at? path := by
  induction layers generalizing below with
  | nil => rfl
  | cons v layers ih =>
      rw [List.forall_mem_cons] at keyed free
      rw [List.foldl_cons, ih keyed.2 free.2, at?_merge_of_not_decides keyed.1 free.1]

theorem keyed_foldl_merge {layers : List Json} (keyed : ∀ v ∈ layers, v.Keyed) {below : Json}
    (lower : below.Keyed) : (layers.foldl merge below).Keyed := by
  induction layers generalizing below with
  | nil => exact lower
  | cons v layers ih =>
      rw [List.forall_mem_cons] at keyed
      exact ih keyed.2 (keyed_merge lower keyed.1)

/-- Layers by paths. A layer over another gives a path its own value unless that is an object. Of an
object it gives the keys, behind those that stand there below, and where it has nothing and blocks
nothing the lower layer stays as it is. What configuration files hold is keyed, and merging keeps it
so. Of many layers the last one that decides a path has its way there, and a path that later ones
leave alone holds what the earlier ones made of it. -/
theorem merge_by_path :
    (∀ below above : Json, above.Keyed → ∀ path,
      (∀ v, above.at? path = some v → v.isObject = false →
        (merge below above).at? path = some v) ∧
      (∀ fields, above.at? path = some (.object fields) → ∃ merged : Fields,
        (merge below above).at? path = some (.object merged) ∧
          merged.keys =
            below.keysAt path ++ (Fields.keys fields).filter (· ∉ below.keysAt path)) ∧
      (above.at? path = none →
        (∀ way v, way <+: path → above.at? way = some v → v.isObject = true) →
          (merge below above).at? path = below.at? path)) ∧
    (∀ path content v, Config.readContent path content = .ok v → v.Keyed) ∧
    ∀ earlier later : List Json, (∀ v ∈ earlier ++ later, v.Keyed) →
      (mergeAll (earlier ++ later)).Keyed ∧
      ∀ path, (∀ v ∈ later, ¬v.Decides path) →
        (mergeAll (earlier ++ later)).at? path = (mergeAll earlier).at? path ∧
        ∀ last ∈ earlier.getLast?, last.Decides path →
          (mergeAll (earlier ++ later)).outline? path = last.outline? path := by
  refine ⟨fun below above keyed path => ⟨?_, ?_, ?_⟩, ?_, fun earlier later keyed => ?_⟩
  · exact fun v found leaf => at?_merge_of_leaf keyed found leaf
  · exact fun fields found => at?_merge_of_object below keyed found
  · intro absent unblocked
    apply at?_merge_of_not_decides keyed
    rintro (present | ⟨way, v, lead, -, found, leaf⟩)
    · rw [absent] at present
      cases present
    · rw [unblocked way v lead found] at leaf
      cases leaf
  · exact fun path content v read => Config.keyed_readContent read
  · refine ⟨keyed_foldl_merge keyed keyed_empty, fun path free => ?_⟩
    have later' : ∀ v ∈ later, v.Keyed := fun v member => keyed v (List.mem_append_right _ member)
    have kept : (mergeAll (earlier ++ later)).at? path = (mergeAll earlier).at? path := by
      rw [mergeAll_append, at?_foldl_merge later' free]
    refine ⟨kept, fun last ends decided => ?_⟩
    obtain ⟨before, rfl⟩ := List.getLast?_eq_some_iff.1 ends
    have upper : last.Keyed := keyed last (by simp)
    rw [outline?, kept, mergeAll_append, List.foldl_cons, List.foldl_nil]
    exact outline?_merge_of_decides upper decided

/-- The middle of three layers has its way with the quotes, the first with the line breaks. -/
theorem merge_by_path_three :
    let site : Json := .object [("markdown",
      .object [("breaks", .bool false), ("quotes", .object [("open", .null)])])]
    let user : Json := .object [("markdown", .object [("quotes", .string "curly")])]
    let last : Json := .object [("markdown", .object []), ("hydrate", .bool true)]
    let merged := mergeAll [site, user, last]
    (∀ v ∈ [site, user, last], v.Keyed) ∧ merged.Keyed ∧
      merged.outline? ["markdown", "quotes"] = some (.string "curly") ∧
      merged.outline? ["markdown", "quotes", "open"] = none ∧
      merged.outline? ["markdown", "breaks"] = some (.bool false) := by
  intro site user last merged
  have keyed : ∀ v ∈ [site, user, last], v.Keyed := by
    simp [site, user, last, keyed_object_iff, Fields.keys, Keyed.null, Keyed.bool, Keyed.string]
  have laws := merge_by_path.2.2
  refine ⟨keyed, (laws [site, user, last] [] keyed).1, ?_, ?_, ?_⟩
  · refine (((laws [site, user] [last] keyed).2 _ ?_).2 user rfl (.inl rfl)).trans rfl
    simp [last, decides_cons, isObject, field?, Fields.get?]
  · refine (((laws [site, user] [last] keyed).2 _ ?_).2 user rfl ?_).trans rfl
    · simp [last, decides_cons, isObject, field?, Fields.get?]
    · simp [user, decides_cons, isObject, field?, Fields.get?]
  · refine (((laws [site] [user, last] keyed).2 _ ?_).2 site rfl (.inl rfl)).trans rfl
    simp [user, last, decides_cons, isObject, field?, Fields.get?]

end LivePage.Json
