import Mathlib.Data.List.Nodup
import LivePage.Json.Basic

/-!
Values at paths. A path leads through objects only, so what is not an object blocks every path that
goes on behind it. Writing a field changes what stands under its key and nothing else. Values that
come from texts are keyed: no object in them has a key twice.
-/

namespace LivePage.Json

namespace Fields

theorem get?_insert (fields : Fields) (key other : Text) (v : Json) :
    (fields.insert key v).get? other = if key = other then some v else fields.get? other := by
  induction fields with
  | nil => rfl
  | cons f fields ih =>
      obtain ⟨k, w⟩ := f
      by_cases here : k = key
      · subst here
        simp only [insert, if_true, get?]
        split <;> rfl
      · simp only [insert, here, if_false, get?, ih]
        by_cases same : key = other
        · simp [same, show k ≠ other from same ▸ here]
        · simp [same]

theorem keys_insert (fields : Fields) (key : Text) (v : Json) :
    (fields.insert key v).keys =
      if key ∈ fields.keys then fields.keys else fields.keys ++ [key] := by
  induction fields with
  | nil => rfl
  | cons f fields ih =>
      obtain ⟨k, w⟩ := f
      by_cases here : k = key
      · simp [insert, here, keys]
      · have other : key ≠ k := Ne.symm here
        simp only [insert, here, if_false, keys, List.map_cons] at ih ⊢
        rw [ih]
        by_cases member : key ∈ fields.map Prod.fst
        · simp [member]
        · simp [member, other]

theorem get?_eq_none_iff {fields : Fields} {key : Text} :
    fields.get? key = none ↔ key ∉ fields.keys := by
  induction fields with
  | nil => simp [get?, keys]
  | cons f fields ih =>
      by_cases here : f.1 = key
      · simp [get?, keys, here]
      · simp only [get?, here, if_false, ih, keys, List.map_cons, List.mem_cons, not_or]
        exact (and_iff_right (Ne.symm here)).symm

theorem mem_of_get? {fields : Fields} {key : Text} {v : Json} (found : fields.get? key = some v) :
    (key, v) ∈ fields := by
  induction fields with
  | nil => cases found
  | cons f fields ih =>
      by_cases here : f.1 = key
      · simp only [get?, here, if_true, Option.some.injEq] at found
        subst here found
        exact List.mem_cons_self
      · simp only [get?, here, if_false] at found
        exact List.mem_cons_of_mem f (ih found)

theorem mem_insert {fields : Fields} {key : Text} {v : Json} {f : Text × Json}
    (member : f ∈ fields.insert key v) : f = (key, v) ∨ f ∈ fields := by
  induction fields with
  | nil => exact .inl (List.mem_singleton.1 member)
  | cons g fields ih =>
      obtain ⟨k, w⟩ := g
      by_cases here : k = key
      · simp only [insert, here, if_true, List.mem_cons] at member ⊢
        exact member.imp_right .inr
      · simp only [insert, here, if_false, List.mem_cons] at member ⊢
        rcases member with first | member
        · exact .inr (.inl first)
        · exact (ih member).imp_right .inr

theorem insert_insert (fields : Fields) (key : Text) (v w : Json) :
    Fields.insert (fields.insert key v) key w = fields.insert key w := by
  induction fields with
  | nil => simp [insert]
  | cons f fields ih =>
      by_cases here : f.1 = key
      · simp [insert, here]
      · simp [insert, here, ih]

theorem nodup_keys_insert {fields : Fields} (distinct : fields.keys.Nodup) (key : Text)
    (v : Json) : (fields.insert key v).keys.Nodup := by
  rw [keys_insert]
  split
  · exact distinct
  · next fresh =>
      rw [← List.concat_eq_append]
      exact distinct.concat fresh

end Fields

/-- No object in a value has a key twice. -/
inductive Keyed : Json → Prop
  | null : Keyed .null
  | bool (b : Bool) : Keyed (.bool b)
  | number (n : JsonNumber) : Keyed (.number n)
  | string (s : Text) : Keyed (.string s)
  | array {items : List Json} : (∀ v ∈ items, Keyed v) → Keyed (.array items)
  | object {fields : Fields} :
      fields.keys.Nodup → (∀ f ∈ fields, Keyed f.2) → Keyed (.object fields)

theorem keyed_object_iff {fields : Fields} :
    Keyed (.object fields) ↔ fields.keys.Nodup ∧ ∀ f ∈ fields, f.2.Keyed := by
  constructor
  · rintro (_ | _ | _ | _ | _ | ⟨distinct, within⟩)
    exact ⟨distinct, within⟩
  · exact fun h => .object h.1 h.2

theorem keyed_empty : Keyed (.object []) := .object List.nodup_nil fun _ => nofun

theorem Keyed.insert {fields : Fields} (keyed : Keyed (.object fields)) {v : Json}
    (value : v.Keyed) (key : Text) : Keyed (.object (fields.insert key v)) := by
  rw [keyed_object_iff] at keyed ⊢
  refine ⟨Fields.nodup_keys_insert keyed.1 key v, fun f member => ?_⟩
  rcases Fields.mem_insert member with rfl | before
  · exact value
  · exact keyed.2 f before

theorem Keyed.field {v w : Json} {key : Text} (keyed : v.Keyed) (found : v.field? key = some w) :
    w.Keyed := by
  cases v with
  | object fields => exact (keyed_object_iff.1 keyed).2 _ (Fields.mem_of_get? found)
  | _ => cases found

@[simp]
theorem at?_nil (v : Json) : v.at? [] = some v := rfl

theorem at?_cons (v : Json) (key : Text) (path : List Text) :
    v.at? (key :: path) = (v.field? key).bind fun w => w.at? path := rfl

theorem field?_of_not_isObject {v : Json} (leaf : v.isObject = false) (key : Text) :
    v.field? key = none := by
  cases v with
  | object fields => cases leaf
  | _ => rfl

/-- On the way to a path stands something that is not an object. -/
def Blocks (v : Json) (path : List Text) : Prop :=
  ∃ way w, way <+: path ∧ way ≠ path ∧ v.at? way = some w ∧ w.isObject = false

/-- Something stands at a path, or what is on the way lets nothing stand there. -/
def Decides (v : Json) (path : List Text) : Prop := (v.at? path).isSome ∨ v.Blocks path

theorem not_blocks_nil (v : Json) : ¬v.Blocks [] := by
  rintro ⟨way, w, lead, proper, -⟩
  exact proper (List.prefix_nil.1 lead)

theorem blocks_cons {v : Json} {key : Text} {path : List Text} :
    v.Blocks (key :: path) ↔ v.isObject = false ∨ ∃ w, v.field? key = some w ∧ w.Blocks path := by
  constructor
  · rintro ⟨way, u, lead, proper, found, leaf⟩
    cases way with
    | nil =>
        cases found
        exact .inl leaf
    | cons k way =>
        obtain ⟨same, behind⟩ := List.cons_prefix_cons.1 lead
        subst same
        obtain ⟨w, inside, found⟩ := Option.bind_eq_some_iff.1 found
        exact .inr ⟨w, inside, way, u, behind, fun same => proper (same ▸ rfl), found, leaf⟩
  · rintro (leaf | ⟨w, inside, way, u, lead, proper, found, leaf⟩)
    · exact ⟨[], v, List.nil_prefix, (List.cons_ne_nil key path).symm, rfl, leaf⟩
    · refine ⟨key :: way, u, (List.prefix_cons_inj key).2 lead, ?_, ?_, leaf⟩
      · exact fun same => proper (List.cons.inj same).2
      · rw [at?_cons, inside]
        exact found

theorem decides_nil (v : Json) : v.Decides [] := .inl rfl

theorem decides_cons {v : Json} {key : Text} {path : List Text} :
    v.Decides (key :: path) ↔
      v.isObject = false ∨ ∃ w, v.field? key = some w ∧ w.Decides path := by
  rw [Decides, blocks_cons, at?_cons]
  cases inside : v.field? key with
  | none => simp
  | some w =>
      simp only [Option.bind_some, Option.some.injEq, exists_eq_left', Decides]
      exact or_left_comm

theorem at?_of_blocks {v : Json} {path : List Text} (blocked : v.Blocks path) :
    v.at? path = none := by
  induction path generalizing v with
  | nil => exact absurd blocked v.not_blocks_nil
  | cons key path ih =>
      rw [at?_cons]
      rcases blocks_cons.1 blocked with leaf | ⟨w, inside, blocked⟩
      · rw [field?_of_not_isObject leaf]
        rfl
      · rw [inside]
        exact ih blocked

end LivePage.Json
