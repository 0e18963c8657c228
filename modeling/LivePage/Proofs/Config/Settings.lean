import LivePage.Config.Override
import LivePage.Proofs.Json.Paths
import LivePage.Proofs.Text.Parts

/-!
Settings over a configuration. A setting is made as a whole or refused, and a refused one leaves
nothing behind: tables are put in only where there is nothing, and behind nothing nothing is in the
way. What a setting changes is its own path, up to tables that lead to it, so settings of which
neither path leads to the other may change places.
-/

namespace LivePage
open Json

namespace Json

theorem not_blocks_empty (path : List Text) : ¬Blocks (.object []) path := by
  cases path with
  | nil => exact not_blocks_nil _
  | cons key path =>
      rw [blocks_cons]
      rintro (leaf | ⟨w, inside, -⟩)
      · cases leaf
      · cases inside

theorem blocks_getD {found : Option Json} {path : List Text} :
    (found.getD (.object [])).Blocks path ↔ ∃ w, found = some w ∧ w.Blocks path := by
  cases found with
  | none => simpa using not_blocks_empty path
  | some w => simp

end Json

namespace Override

def steps (o : Override) : List Text := o.path ++ [o.key]

variable (o : Override) {path : List Text} {v : Json}

theorem set_eq_ok_iff (path : List Text) (v : Json) :
    (o.set path v).2 = .ok () ↔ ¬v.Blocks (path ++ [o.key]) := by
  induction path generalizing v with
  | nil =>
      rw [List.nil_append, blocks_cons]
      cases v with
      | object fields => simp [set, isObject, not_blocks_nil]
      | _ => simp [set, isObject]
  | cons step path ih =>
      rw [List.cons_append, blocks_cons]
      cases v with
      | object fields =>
          simp only [set, ih, blocks_getD, isObject, field?, Bool.true_eq_false, false_or]
      | _ => simp [set, isObject]

theorem at?_set_way (made : (o.set path v).2 = .ok ()) {way : List Text} (lead : way <+: path) :
    ∃ w, (o.set path v).1.at? way = some w ∧ w.isObject = true := by
  induction path generalizing v way with
  | nil =>
      cases List.prefix_nil.1 lead
      cases v with
      | object fields => exact ⟨_, rfl, rfl⟩
      | _ => cases made
  | cons step path ih =>
      cases v with
      | object fields =>
          cases way with
          | nil => exact ⟨_, rfl, rfl⟩
          | cons key way =>
              obtain ⟨same, behind⟩ := List.cons_prefix_cons.1 lead
              subst same
              simp only [set, at?_cons, field?, Fields.get?_insert, if_true,
                Option.bind_some] at made ⊢
              exact ih made behind
      | _ => cases made

theorem at?_set_of_apart {other : List Text} (before : ¬other <+: path ++ [o.key])
    (behind : ¬path ++ [o.key] <+: other) : (o.set path v).1.at? other = v.at? other := by
  induction path generalizing v other with
  | nil =>
      cases other with
      | nil => exact absurd List.nil_prefix before
      | cons key other =>
          cases v with
          | object fields =>
              have different : o.key ≠ key := by
                rintro rfl
                exact behind (by simp)
              simp [set, at?_cons, field?, Fields.get?_insert, different]
          | _ => rfl
  | cons step path ih =>
      cases other with
      | nil => exact absurd List.nil_prefix before
      | cons key other =>
          cases v with
          | object fields =>
              simp only [set, at?_cons, field?, Fields.get?_insert]
              by_cases same : step = key
              · subst same
                rw [List.cons_append, List.prefix_cons_inj] at before behind
                rw [if_pos rfl, Option.bind_some, ih before behind]
                cases Fields.get? fields step with
                | some w => rfl
                | none =>
                    cases other with
                    | nil => exact absurd List.nil_prefix before
                    | cons k other => rfl
              · rw [if_neg same]
          | _ => rfl

/-- A text sets a path to a value. Its first equals sign stands behind the steps of the path, written
with dots between them and maybe blanks around, and before what gives the value. -/
inductive Sets : Text → List Text → Json → Prop
  | intro {name right : Text} {path : List Text} :
      '=' ∉ name → Text.trimBlank name ≠ [] → path ≠ [] → (∀ step ∈ path, '.' ∉ step) →
        Text.trimBlank name = Text.join ['.'] path →
          Sets (name ++ '=' :: right) path (readValue (Text.trimBlank right))

theorem parse_append {name : Text} (absent : '=' ∉ name) (right : Text) :
    parse (name ++ '=' :: right) =
      if Text.trimBlank name = [] then .error (.emptyKey (name ++ '=' :: right))
      else
        let steps := Text.split (· = '.') (Text.trimBlank name)
        .ok ⟨steps.dropLast, steps.getLast?.getD [], readValue (Text.trimBlank right)⟩ := by
  rw [parse, Text.splitFirst?_eq_some_iff.2 ⟨absent, rfl⟩]
  simp only [List.isEmpty_iff]

theorem dropLast_append_getLast?_getD {parts : List Text} (present : parts ≠ []) :
    parts.dropLast ++ [parts.getLast?.getD []] = parts := by
  rw [List.getLast?_eq_some_getLast present, Option.getD_some,
    List.dropLast_append_getLast present]

theorem sets_of_parse {s : Text} {o : Override} (read : parse s = .ok o) :
    Sets s o.steps o.value := by
  cases parts : Text.splitFirst? '=' s with
  | none =>
      rw [parse, parts] at read
      cases read
  | some found =>
      obtain ⟨absent, rfl⟩ := Text.splitFirst?_eq_some_iff.1 parts
      rw [parse_append absent] at read
      split at read
      · cases read
      · next named =>
          cases read
          obtain ⟨w, ws, words⟩ := Text.exists_split (· = '.') (Text.trimBlank found.1)
          have present : Text.split (· = '.') (Text.trimBlank found.1) ≠ [] := by simp [words]
          rw [steps, dropLast_append_getLast?_getD present]
          exact .intro absent named present (fun _ => Text.not_mem_of_mem_split)
            (Text.join_split ..).symm

end Override

namespace Json

/-- Equal up to the order of keys: in objects the same keys stand in any order, with values under
them that are again equal so. -/
inductive Reordered : Json → Json → Prop
  | same (v : Json) : Reordered v v
  | object {fields fields' : Fields} : fields.keys.Perm fields'.keys →
      (∀ key v w, fields.get? key = some v → fields'.get? key = some w → Reordered v w) →
        Reordered (.object fields) (.object fields')

theorem reordered_insert {x y : Json} (h : Reordered x y) (fields : Fields) (key : Text) :
    Reordered (.object (fields.insert key x)) (.object (fields.insert key y)) := by
  refine .object (by rw [Fields.keys_insert, Fields.keys_insert]) fun k v w found found' => ?_
  rw [Fields.get?_insert] at found found'
  by_cases here : key = k
  · rw [if_pos here] at found found'
    cases found
    cases found'
    exact h
  · rw [if_neg here] at found found'
    cases found.symm.trans found'
    exact .same v

theorem reordered_insert_insert {key other : Text} (different : key ≠ other) (fields : Fields)
    (x y : Json) :
    Reordered (.object (Fields.insert (fields.insert key x) other y))
      (.object (Fields.insert (fields.insert other y) key x)) := by
  refine .object ?_ fun k v w found found' => ?_
  · simp only [Fields.keys_insert]
    by_cases old : key ∈ fields.keys
    · by_cases old' : other ∈ fields.keys
      · simp [old, old']
      · simp [old, old']
    · by_cases old' : other ∈ fields.keys
      · simp [old, old']
      · simp only [old, old', if_false, List.mem_append, List.mem_singleton, different,
          Ne.symm different, or_self, List.append_assoc]
        exact (List.Perm.swap other key []).append_left fields.keys
  · simp only [Fields.get?_insert] at found found'
    by_cases here : key = k
    · subst here
      simp only [if_true, Ne.symm different, if_false] at found found'
      cases found.symm.trans found'
      exact .same v
    · simp only [here, if_false] at found found'
      cases found.symm.trans found'
      exact .same v

end Json

namespace Override

/-- Whether anything is in the way of a path is not changed by a setting that does not lead to it. -/
theorem blocks_set_iff (o : Override) {path other : List Text} {v : Json}
    (made : (o.set path v).2 = .ok ()) (apart : ¬path ++ [o.key] <+: other) :
    (o.set path v).1.Blocks other ↔ v.Blocks other := by
  have free := (o.set_eq_ok_iff path v).1 made
  have same {way : List Text} (lead : way <+: other) (w : Json) (leaf : w.isObject = false) :
      (o.set path v).1.at? way = some w ↔ v.at? way = some w := by
    by_cases before : way <+: path ++ [o.key]
    · have proper : way ≠ path ++ [o.key] := fun same => apart (same ▸ lead)
      constructor
      · intro found
        have inside : way <+: path := (List.prefix_concat_iff.1 before).resolve_left proper
        obtain ⟨u, stands, table⟩ := o.at?_set_way made inside
        cases stands.symm.trans found
        cases leaf.symm.trans table
      · exact fun found => absurd ⟨way, w, before, proper, found, leaf⟩ free
    · have behind : ¬path ++ [o.key] <+: way := fun more => apart (more.trans lead)
      rw [o.at?_set_of_apart before behind]
  constructor
  · rintro ⟨way, w, lead, proper, found, leaf⟩
    exact ⟨way, w, lead, proper, (same lead w leaf).1 found, leaf⟩
  · rintro ⟨way, w, lead, proper, found, leaf⟩
    exact ⟨way, w, lead, proper, (same lead w leaf).2 found, leaf⟩

theorem reordered_set (a b : Override) {path path' : List Text}
    (before : ¬path ++ [a.key] <+: path' ++ [b.key])
    (behind : ¬path' ++ [b.key] <+: path ++ [a.key]) (v : Json) :
    Reordered (b.set path' (a.set path v).1).1 (a.set path (b.set path' v).1).1 := by
  induction path generalizing path' v with
  | nil =>
      cases v with
      | object fields =>
          cases path' with
          | nil =>
              have different : a.key ≠ b.key := fun same => before (by simp [same])
              exact reordered_insert_insert different fields a.value b.value
          | cons step path' =>
              have different : a.key ≠ step := fun same => before (by simp [same])
              simp only [set, Fields.get?_insert, different, if_false]
              exact reordered_insert_insert different fields a.value _
      | _ => cases path' <;> exact .same _
  | cons step path ih =>
      cases v with
      | object fields =>
          cases path' with
          | nil =>
              have different : step ≠ b.key := fun same => behind (by simp [same])
              simp only [set, Fields.get?_insert, different.symm, if_false]
              exact reordered_insert_insert different fields _ b.value
          | cons step' path' =>
              by_cases same : step = step'
              · subst same
                rw [List.cons_append, List.cons_append, List.prefix_cons_inj] at before behind
                simp only [set, Fields.get?_insert, if_true, Option.getD_some,
                  Fields.insert_insert]
                exact reordered_insert (ih before behind _) fields step
              · simp only [set, Fields.get?_insert, same, Ne.symm same, if_false]
                exact reordered_insert_insert same fields _ _
      | _ => cases path' <;> exact .same _

end Override

namespace Json

theorem override_of_parse {s : Text} {o : Override} (read : Override.parse s = .ok o) (v : Json) :
    v.override s = o.set o.path v := by
  rw [override, read]
  rfl

theorem override_of_error {s : Text} {e : OverrideError} (failed : Override.parse s = .error e)
    (v : Json) : v.override s = (v, .error e) := by
  rw [override, failed]

theorem exists_parse_of_override {v : Json} {s : Text} (made : (v.override s).2 = .ok ()) :
    ∃ o, Override.parse s = .ok o ∧ (o.set o.path v).2 = .ok () := by
  cases read : Override.parse s with
  | error e =>
      rw [override_of_error read] at made
      cases made
  | ok o => exact ⟨o, rfl, by rwa [override_of_parse read] at made⟩

theorem overrideAll_singleton (v : Json) (s : Text) : v.overrideAll [s] = v.override s := by
  rw [overrideAll]
  rcases v.override s with ⟨w, e | _⟩
  · rfl
  · rfl

theorem overrideAll_cons_of_ok {v : Json} {s : Text} (made : (v.override s).2 = .ok ())
    (settings : List Text) :
    v.overrideAll (s :: settings) = (v.override s).1.overrideAll settings := by
  rw [overrideAll]
  rcases outcome : v.override s with ⟨w, e | _⟩
  · rw [outcome] at made
    cases made
  · rfl

theorem overrideAll_cons_of_error {v : Json} {s : Text} {e : OverrideError}
    (refused : (v.override s).2 = .error e) (settings : List Text) :
    (v.overrideAll (s :: settings)).2 = .error e := by
  rw [overrideAll]
  rcases outcome : v.override s with ⟨w, e' | _⟩
  · rw [outcome] at refused
    exact refused
  · rw [outcome] at refused
    cases refused

end Json

namespace Override

/-- The paths of two settings do not lead one to the other. -/
def Apart (s t : Text) : Prop :=
  ∀ path value path' value', Sets s path value → Sets t path' value' →
    ¬path <+: path' ∧ ¬path' <+: path

theorem Apart.symm {s t : Text} (apart : Apart s t) : Apart t s :=
  fun path value path' value' sets sets' => (apart path' value' path value sets' sets).symm

/-- Settings that are apart and can be made in one order can be made in the other. -/
theorem Apart.swap {s t : Text} (apart : Apart s t) {v : Json}
    (made : (v.overrideAll [s, t]).2 = .ok ()) :
    (v.overrideAll [t, s]).2 = .ok () ∧
      Reordered (v.overrideAll [s, t]).1 (v.overrideAll [t, s]).1 := by
  have first : (v.override s).2 = .ok () := by
    cases outcome : (v.override s).2 with
    | ok => rfl
    | error e =>
        rw [overrideAll_cons_of_error outcome] at made
        cases made
  rw [overrideAll_cons_of_ok first, overrideAll_singleton] at made ⊢
  obtain ⟨a, readA, madeA⟩ := exists_parse_of_override first
  obtain ⟨b, readB, madeB⟩ := exists_parse_of_override made
  obtain ⟨before, behind⟩ := apart _ _ _ _ (sets_of_parse readA) (sets_of_parse readB)
  rw [steps, steps] at before behind
  rw [override_of_parse readA, set_eq_ok_iff, blocks_set_iff a madeA before] at madeB
  have early : (b.set b.path v).2 = .ok () := (b.set_eq_ok_iff b.path v).2 madeB
  have late : (a.set a.path (b.set b.path v).1).2 = .ok () := by
    rw [set_eq_ok_iff, blocks_set_iff b early behind, ← set_eq_ok_iff]
    exact madeA
  rw [← override_of_parse readB] at early
  rw [overrideAll_cons_of_ok early, overrideAll_singleton]
  simp only [override_of_parse readA, override_of_parse readB]
  exact ⟨late, reordered_set a b before behind v⟩

end Override

end LivePage
