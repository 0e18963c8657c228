import LivePage.Config.Sources
import LivePage.Proofs.Json.Marks
import LivePage.Proofs.Json.Paths

/-!
Whatever a configuration file says, the value that is read from it is keyed. In JSON a key that
comes again gives its field another value. In TOML it is refused, and tables grow by keys that they
do not have.
-/

namespace LivePage

namespace Json

mutual

theorem keyed_value {d : Draft} {v : Json} (value : d.value = .ok v) : v.Keyed := by
  match d with
  | .null | .bool _ | .number _ | .string _ =>
      cases value
      constructor
  | .array items stop =>
      obtain ⟨-, vs, values, rfl⟩ := value_array value
      exact .array (keyed_values values)
  | .object fields stop =>
      obtain ⟨-, found, values, rfl⟩ := value_object value
      exact keyed_fieldValues keyed_empty values
  | .broken f => cases value

theorem keyed_values {ds : List Draft} {vs : List Json} (values : Draft.values ds = .ok vs) :
    ∀ v ∈ vs, v.Keyed := by
  match ds with
  | [] =>
      cases values
      exact nofun
  | d :: ds =>
      obtain ⟨v, rest, first, others, rfl⟩ := values_cons values
      exact List.forall_mem_cons.2 ⟨keyed_value first, keyed_values others⟩

theorem keyed_fieldValues {ds : List (Text × Draft)} {seen fields : Fields}
    (before : Keyed (.object seen)) (values : Draft.fieldValues seen ds = .ok fields) :
    Keyed (.object fields) := by
  match ds with
  | [] =>
      cases values
      exact before
  | (key, d) :: ds =>
      obtain ⟨v, first, others⟩ := fieldValues_cons values
      exact keyed_fieldValues (before.insert (keyed_value first) key) others

end

theorem keyed_parse {s : Text} {v : Json} (parsed : parse s = .ok v) : v.Keyed := by
  rw [parse, parseWithin] at parsed
  simp only at parsed
  split at parsed
  · cases parsed
  · next value =>
      split at parsed
      · cases parsed
      · cases parsed
        exact keyed_value value

end Json

namespace Toml

/-- No table in an item has a key twice. -/
inductive Item.Keyed : Item → Prop
  | value {v : Json} : v.Keyed → Keyed (.value v)
  | table {kind : TableKind} {items : Items} :
      (items.map Prod.fst).Nodup → (∀ p ∈ items, Keyed p.2) → Keyed (.table kind items)
  | tables {tables : List Items} :
      (∀ items ∈ tables, (items.map Prod.fst).Nodup) →
        (∀ items ∈ tables, ∀ p ∈ items, Keyed p.2) → Keyed (.tables tables)

namespace Items

structure Keyed (items : Items) : Prop where
  distinct : (items.map Prod.fst).Nodup
  within : ∀ p ∈ items, p.2.Keyed

theorem Keyed.nil : Keyed [] := ⟨List.nodup_nil, nofun⟩

variable {items after : Items} {key : Text}

theorem Keyed.get? (keyed : items.Keyed) {item : Item} (found : items.get? key = some item) :
    item.Keyed := by
  obtain ⟨p, first, rfl⟩ := Option.map_eq_some_iff.1 found
  exact keyed.within p (List.mem_of_find?_eq_some first)

theorem Keyed.put (keyed : items.Keyed) {item : Item} (value : item.Keyed) (key : Text) :
    (items.put key item).Keyed := by
  rw [Items.put]
  split
  · constructor
    · have same : (items.map fun p => if p.1 = key then (key, item) else p).map Prod.fst =
          items.map Prod.fst := by
        rw [List.map_map]
        apply List.map_congr_left
        intro p _
        by_cases here : p.1 = key
        · simp [here]
        · simp [here]
      rw [same]
      exact keyed.distinct
    · intro p member
      obtain ⟨q, before, rfl⟩ := List.mem_map.1 member
      split
      · exact value
      · exact keyed.within q before
  · next fresh =>
      constructor
      · rw [List.map_append, List.map_singleton, ← List.concat_eq_append]
        refine keyed.distinct.concat fun member => fresh ?_
        obtain ⟨p, before, here⟩ := List.mem_map.1 member
        exact List.any_eq_true.2 ⟨p, before, decide_eq_true here⟩
      · intro p member
        rcases List.mem_append.1 member with before | new
        · exact keyed.within p before
        · rw [List.mem_singleton.1 new]
          exact value

/-- A change of one table keeps the document keyed if it keeps that table so. -/
theorem Keyed.change {dotted : Bool} {f : TableKind → Items → Option Items}
    (keeps : ∀ kind items after, Keyed items → f kind items = some after → after.Keyed)
    {path : List Text} {kind : TableKind} (keyed : items.Keyed)
    (changed : Items.change dotted f path kind items = some after) : after.Keyed := by
  induction path generalizing kind items after with
  | nil => exact keeps kind items after keyed changed
  | cons key path ih =>
      rw [Items.change] at changed
      split at changed
      · obtain ⟨inner, inside, rfl⟩ := Option.map_eq_some_iff.1 changed
        obtain ⟨distinct, within⟩ := ih .nil inside
        exact keyed.put (.table distinct within) key
      · next found =>
          split at changed
          · cases changed
          · cases keyed.get? found with
            | table distinct within =>
                obtain ⟨inner, inside, rfl⟩ := Option.map_eq_some_iff.1 changed
                obtain ⟨distinct, within⟩ := ih ⟨distinct, within⟩ inside
                exact keyed.put (.table distinct within) key
      · next found =>
          cases keyed.get? found with
          | tables distinct within =>
              obtain ⟨last, inside, rfl⟩ := Option.map_eq_some_iff.1 changed
              rw [List.forall_mem_cons] at distinct within
              obtain ⟨distinct', within'⟩ := ih ⟨distinct.1, within.1⟩ inside
              exact keyed.put (.tables (List.forall_mem_cons.2 ⟨distinct', distinct.2⟩)
                (List.forall_mem_cons.2 ⟨within', within.2⟩)) key
      · cases changed

theorem Keyed.add {path : List Text} {v : Json} {kind : TableKind} (keyed : items.Keyed)
    (value : v.Keyed) (added : Items.add path key v kind items = some after) : after.Keyed := by
  refine keyed.change (fun kind items after keyed inserted => ?_) added
  split at inserted
  · cases inserted
  · cases inserted
    exact keyed.put (.value value) key

theorem Keyed.declare (keyed : items.Keyed) (kind : TableKind)
    (declared : Items.declare key kind items = some after) : after.Keyed := by
  rw [Items.declare] at declared
  split at declared
  · cases declared
    exact keyed.put (.table Keyed.nil.distinct Keyed.nil.within) key
  · next found =>
      cases declared
      cases keyed.get? found with
      | table distinct within => exact keyed.put (.table distinct within) key
  · cases declared

theorem Keyed.extend (keyed : items.Keyed) (kind : TableKind)
    (extended : Items.extend key kind items = some after) : after.Keyed := by
  rw [Items.extend] at extended
  split at extended
  · cases extended
    exact keyed.put (.tables (List.forall_mem_singleton.2 Keyed.nil.distinct)
      (List.forall_mem_singleton.2 Keyed.nil.within)) key
  · next found =>
      cases extended
      cases keyed.get? found with
      | tables distinct within =>
          exact keyed.put (.tables (List.forall_mem_cons.2 ⟨Keyed.nil.distinct, distinct⟩)
            (List.forall_mem_cons.2 ⟨Keyed.nil.within, within⟩)) key
  · cases extended

end Items

theorem keyed_sortFields {fields : Json.Fields} (keyed : Json.Keyed (.object fields)) :
    Json.Keyed (.object (sortFields fields)) := by
  have sorted : (sortFields fields).Perm fields := List.mergeSort_perm ..
  obtain ⟨distinct, within⟩ := Json.keyed_object_iff.1 keyed
  exact .object ((sorted.map Prod.fst).nodup_iff.2 distinct) fun f member =>
    within f (sorted.mem_iff.1 member)

theorem keys_fieldsOf (items : Items) : (fieldsOf items).keys = items.map Prod.fst := by
  induction items with
  | nil => rfl
  | cons p items ih =>
      rw [List.map_cons, ← ih]
      rfl

mutual

theorem Item.Keyed.toJson {item : Item} (keyed : item.Keyed) : item.toJson.Keyed := by
  match item, keyed with
  | .value v, .value value => exact value
  | .table kind items, .table distinct within =>
      exact keyed_sortFields (.object (keys_fieldsOf items ▸ distinct) (keyed_fieldsOf within))
  | .tables tables, .tables distinct within =>
      rw [Item.toJson]
      exact .array fun v member =>
        keyed_objectsOf distinct within v (List.mem_reverse.1 member)

theorem keyed_fieldsOf {items : List (Text × Item)} (within : ∀ p ∈ items, p.2.Keyed) :
    ∀ f ∈ fieldsOf items, f.2.Keyed := by
  match items with
  | [] => exact nofun
  | (key, item) :: items =>
      rw [List.forall_mem_cons] at within
      exact List.forall_mem_cons.2 ⟨within.1.toJson, keyed_fieldsOf within.2⟩

theorem keyed_objectsOf {tables : List (List (Text × Item))}
    (distinct : ∀ items ∈ tables, (items.map Prod.fst).Nodup)
    (within : ∀ items ∈ tables, ∀ p ∈ items, p.2.Keyed) : ∀ v ∈ objectsOf tables, v.Keyed := by
  match tables with
  | [] => exact nofun
  | items :: tables =>
      rw [List.forall_mem_cons] at distinct within
      exact List.forall_mem_cons.2
        ⟨keyed_sortFields (.object (keys_fieldsOf items ▸ distinct.1) (keyed_fieldsOf within.1)),
          keyed_objectsOf distinct.2 within.2⟩

end

theorem Items.Keyed.toJson {items : Items} (keyed : items.Keyed) (kind : TableKind) :
    (Item.table kind items).toJson.Keyed :=
  (Item.Keyed.table keyed.distinct keyed.within).toJson

theorem keyed_integer? {negative : Bool} {n : Nat} {v : Json} (read : integer? negative n = some v) :
    v.Keyed := by
  rw [integer?] at read
  split at read
  · obtain ⟨-, same⟩ := Option.ite_none_right_eq_some.1 read
    cases same
    exact .number _
  · obtain ⟨-, same⟩ := Option.ite_none_right_eq_some.1 read
    cases same
    exact .number _

theorem keyed_basedInteger? {base : Nat} {isDigit : Char → Bool} {s : Text} {v : Json}
    (read : basedInteger? base isDigit s = some v) : v.Keyed := by
  obtain ⟨d, -, read⟩ := Option.bind_eq_some_iff.1 read
  exact keyed_integer? read

theorem keyed_unsigned? {negative : Bool} {s : Text} {v : Json}
    (read : unsigned? negative s = some v) : v.Keyed := by
  simp only [unsigned?] at read
  split at read
  · cases read
  · exact keyed_integer? read
  · split at read
    all_goals
      obtain ⟨f, -, more⟩ := Option.bind_eq_some_iff.1 read
      split at more
      all_goals
        obtain ⟨e, -, last⟩ := Option.bind_eq_some_iff.1 more
        obtain ⟨x, -, same⟩ := Option.bind_eq_some_iff.1 last
        cases same
        exact .number _

theorem keyed_word? {s : Text} {v : Json} (read : word? s = some v) : v.Keyed := by
  rw [word?] at read
  split at read
  · cases read
    exact .bool true
  split at read
  · cases read
    exact .bool false
  rcases Option.or_eq_some_iff.1 read with number | ⟨-, time⟩
  · unfold number? at number
    split at number
    · exact keyed_basedInteger? number
    · exact keyed_basedInteger? number
    · exact keyed_basedInteger? number
    · split at number
      split at number
      · cases number
        exact .null
      · exact keyed_unsigned? number
  · obtain ⟨-, same⟩ := Option.ite_none_right_eq_some.1 time
    cases same
    exact .object (List.nodup_singleton _) (List.forall_mem_singleton.2 (.string s))

mutual

theorem keyed_readValue {depth n : Nat} {s r : Text} {v : Json}
    (read : readValue depth n s = some (v, r)) : v.Keyed := by
  match n with
  | 0 =>
      unfold readValue at read
      cases read
  | n + 1 =>
      unfold readValue at read
      split at read
      · obtain ⟨t, -, same⟩ := Option.map_eq_some_iff.1 read
        cases same
        exact .string _
      · obtain ⟨t, -, same⟩ := Option.map_eq_some_iff.1 read
        cases same
        exact .string _
      · split at read
        · cases read
        · exact keyed_readItems (List.forall_mem_nil Json.Keyed) read
      · split at read
        · cases read
        · exact keyed_readFields .nil read
      · obtain ⟨w, word, same⟩ := Option.map_eq_some_iff.1 read
        cases same
        exact keyed_word? word

theorem keyed_readItems {depth n : Nat} {seen : List Json} {s r : Text} {v : Json}
    (before : ∀ w ∈ seen, w.Keyed) (read : readItems depth n seen s = some (v, r)) : v.Keyed := by
  match n with
  | 0 =>
      unfold readItems at read
      cases read
  | n + 1 =>
      unfold readItems at read
      split at read
      · cases read
      · cases read
        exact .array fun w member => before w (List.mem_reverse.1 member)
      · split at read
        · cases read
        · next item =>
            have longer := List.forall_mem_cons.2 ⟨keyed_readValue item, before⟩
            split at read
            · exact keyed_readItems longer read
            · cases read
              exact .array fun w member => longer w (List.mem_reverse.1 member)
            · cases read

theorem keyed_readFields {depth n : Nat} {seen : Items} {s r : Text} {v : Json}
    (before : seen.Keyed) (read : readFields depth n seen s = some (v, r)) : v.Keyed := by
  match n with
  | 0 =>
      unfold readFields at read
      cases read
  | n + 1 =>
      unfold readFields at read
      split at read
      · cases read
      · cases read
        exact before.toJson .declared
      · split at read
        · cases read
        · next field =>
            have longer := keyed_readField before field
            split at read
            · exact keyed_readFields longer read
            · cases read
              exact longer.toJson .declared
            · cases read

theorem keyed_readField {depth n : Nat} {items after : Items} {s r : Text} (before : items.Keyed)
    (read : readField depth n items s = some (after, r)) : after.Keyed := by
  match n with
  | 0 =>
      unfold readField at read
      cases read
  | n + 1 =>
      unfold readField at read
      split at read
      · split at read
        · next value =>
            obtain ⟨found, added, same⟩ := Option.map_eq_some_iff.1 read
            cases same
            exact before.add (keyed_readValue value) added
        · cases read
      · cases read

end

namespace Reading

variable {d after : Reading} {s r : Text}

theorem keyed_open? {isList : Bool} {path : List Text} (before : d.root.Keyed)
    (opened : d.open? isList path = some after) : after.root.Keyed := by
  obtain ⟨root, changed, rfl⟩ := Option.map_eq_some_iff.1 opened
  refine before.change (fun kind items after keyed started => ?_) changed
  cases isList with
  | true => exact keyed.extend kind started
  | false => exact keyed.declare kind started

theorem keyed_write? {path : List Text} {v : Json} (before : d.root.Keyed) (value : v.Keyed)
    (written : d.write? path v = some after) : after.root.Keyed := by
  obtain ⟨root, changed, rfl⟩ := Option.map_eq_some_iff.1 written
  exact before.change (fun kind items after keyed added => keyed.add value added) changed

theorem keyed_header? (before : d.root.Keyed) (read : d.header? s = some (after, r)) :
    after.root.Keyed := by
  unfold header? at read
  split at read
  · split at read
    · obtain ⟨found, opened, same⟩ := Option.map_eq_some_iff.1 read
      cases same
      exact keyed_open? before opened
    · cases read
  · split at read
    · obtain ⟨found, opened, same⟩ := Option.map_eq_some_iff.1 read
      cases same
      exact keyed_open? before opened
    · cases read

theorem keyed_pair? (before : d.root.Keyed) (read : d.pair? s = some (after, r)) :
    after.root.Keyed := by
  rw [pair?] at read
  split at read
  · split at read
    · next value =>
        obtain ⟨found, written, same⟩ := Option.map_eq_some_iff.1 read
        cases same
        exact keyed_write? before (keyed_readValue value) written
    · cases read
  · cases read

theorem keyed_lines? {n : Nat} (before : d.root.Keyed) (read : d.lines? n s = some after) :
    after.root.Keyed := by
  induction n generalizing d s with
  | zero => cases read
  | succ n ih =>
      rw [lines?] at read
      split at read
      · cases read
      · cases read
        exact before
      · simp only at read
        split at read
        · cases read
        · next statement =>
            split at read
            · refine ih ?_ read
              split at statement
              · exact keyed_header? before statement
              · exact keyed_pair? before statement
            · cases read

end Reading

theorem keyed_parse? {s : Text} {v : Json} (parsed : parse? s = some v) : v.Keyed := by
  obtain ⟨d, read, rfl⟩ := Option.map_eq_some_iff.1 parsed
  exact (Reading.keyed_lines? .nil read).toJson .declared

end Toml

theorem Config.keyed_readContent {path content : Text} {v : Json}
    (read : readContent path content = .ok v) : v.Keyed := by
  rw [readContent] at read
  split at read
  · cases read
  split at read
  · cases parsed : Json.parse content with
    | error e =>
        rw [parsed] at read
        cases read
    | ok w =>
        rw [parsed] at read
        cases read
        exact Json.keyed_parse parsed
  split at read
  · split at read
    · next parsed =>
        cases read
        exact Toml.keyed_parse? parsed
    · cases read
  · cases read

end LivePage
