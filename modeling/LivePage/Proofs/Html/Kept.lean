import LivePage.Proofs.Html.Reading
import LivePage.Proofs.Html.Store

/-!
Attributes that are never lost. Between two states of a store elements may stay elements and keep an
attribute; each operation does that, but for one that erases this very attribute.
-/

namespace LivePage.Html

namespace Attributes

theorem contains_eq (attributes : Attributes) (name : Text) :
    attributes.contains name = decide (name ∈ attributes.map (·.name)) := by
  rw [contains, Bool.eq_iff_iff]
  simp

theorem contains_set (attributes : Attributes) (name value other : Text) :
    (attributes.set name value).contains other = (attributes.contains other || name = other) := by
  unfold set
  split
  · next present =>
      have names : (attributes.map fun a => if a.name = name then { a with value := value } else a).map
          (·.name) = attributes.map (·.name) := by
        rw [List.map_map]
        refine List.map_congr_left ?_
        intro a _
        simp only [Function.comp_apply]
        split <;> rfl
      rw [contains_eq, names, ← contains_eq]
      by_cases same : name = other
      · rw [← same, present]
        rfl
      · simp [same]
  · simp [contains]

theorem set_of_not_contains {attributes : Attributes} {name : Text}
    (absent : attributes.contains name = false) (value : Text) :
    attributes.set name value = attributes ++ [⟨name, value⟩] := by
  rw [set, absent, if_neg Bool.false_ne_true]

theorem get?_append_of_ne (attributes : Attributes) {name other : Text} (value : Text)
    (different : name ≠ other) :
    get? (attributes ++ [⟨name, value⟩]) other = attributes.get? other := by
  simp [get?, List.find?_append, different]

theorem isSome_get? (attributes : Attributes) (name : Text) :
    (attributes.get? name).isSome = attributes.contains name := by
  rw [get?, Option.isSome_map, Bool.eq_iff_iff, List.find?_isSome, contains, List.any_eq_true]

theorem get?_addMissing (attributes others : Attributes) (name : Text) :
    (attributes.addMissing others).get? name = (attributes.get? name).or (others.get? name) := by
  rw [addMissing, get?, List.find?_append, Option.map_or]
  cases own : attributes.get? name with
  | some value =>
      rw [get?] at own
      rw [own, Option.some_or, Option.some_or]
  | none =>
      have absent : attributes.contains name = false := by rw [← isSome_get?, own]; rfl
      have kept : (others.filter fun a => !attributes.contains a.name).find?
          (fun a => a.name = name) = others.find? fun a => a.name = name := by
        rw [List.find?_filter]
        congr 1
        funext a
        by_cases same : a.name = name
        · simp [same, absent]
        · simp [same]
      rw [get?] at own
      rw [own, kept, Option.none_or, Option.none_or, get?]

theorem contains_addMissing (attributes others : Attributes) (name : Text) :
    (attributes.addMissing others).contains name =
      (attributes.contains name || others.contains name) := by
  rw [← isSome_get?, get?_addMissing, Option.isSome_or, isSome_get?, isSome_get?]

theorem contains_of_contains_addMissing {attributes others : Attributes} {name : Text}
    (present : attributes.contains name = true) :
    (attributes.addMissing others).contains name = true := by
  rw [contains_addMissing, present, Bool.true_or]

theorem nodup_addMissing {attributes others : Attributes}
    (distinct : (attributes.map (·.name)).Nodup) (distinct' : (others.map (·.name)).Nodup) :
    ((attributes.addMissing others).map (·.name)).Nodup := by
  rw [addMissing, List.map_append]
  refine List.nodup_append.2 ⟨distinct, ?_, fun name old other new same => ?_⟩
  · exact distinct'.sublist (List.filter_sublist.map _)
  · obtain ⟨a, listed, rfl⟩ := List.mem_map.1 new
    have absent := (List.mem_filter.1 listed).2
    rw [contains_eq, ← same] at absent
    simp [old] at absent

theorem contains_erase {attributes : Attributes} {name other : Text} (different : name ≠ other) :
    (attributes.erase name).contains other = attributes.contains other := by
  induction attributes with
  | nil => rfl
  | cons a rest ih =>
      rw [erase]
      split
      · next same =>
          have head : ¬a.name = other := fun h => different (same.symm.trans h)
          have tail : contains (a :: rest) other = contains rest other := by
            simp [contains, head]
          rw [tail]
          cases last : rest.getLast? with
          | none =>
              rw [List.getLast?_eq_none_iff] at last
              rw [last]
          | some b =>
              obtain ⟨front, rfl⟩ := List.getLast?_eq_some_iff.1 last
              simp [contains, Bool.or_comm]
      · have tail : List.any (erase rest name) (fun a => a.name = other) =
            List.any rest (fun a => a.name = other) := ih
        simp only [contains, List.any_cons, tail]

end Attributes

namespace Dom

/-- Elements stay elements, and keep an attribute of that name. -/
def Keeps (name : Text) (d d' : Dom) : Prop :=
  ∀ i e, d.element? i = some e → ∃ e', d'.element? i = some e' ∧
    (e.attributes.contains name = true → e'.attributes.contains name = true)

namespace Keeps

variable {name : Text} {d d' d'' : Dom}

theorem refl (name : Text) (d : Dom) : Keeps name d d :=
  fun _ e shown => ⟨e, shown, id⟩

theorem trans (first : Keeps name d d') (second : Keeps name d' d'') : Keeps name d d'' := by
  intro i e shown
  obtain ⟨e', shown', kept⟩ := first i e shown
  obtain ⟨e'', shown'', kept'⟩ := second i e' shown'
  exact ⟨e'', shown'', fun present => kept' (kept present)⟩

theorem hasAttribute (keeps : Keeps name d d') {i : NodeId}
    (present : d.hasAttribute i name = true) : d'.hasAttribute i name = true := by
  unfold Dom.hasAttribute at present ⊢
  cases shown : d.element? i with
  | none =>
      rw [shown] at present
      cases present
  | some e =>
      rw [shown] at present
      obtain ⟨e', shown', kept⟩ := keeps i e shown
      rw [shown']
      exact kept present

theorem of_content (same : ∀ i < d.size, d'.content? i = d.content? i) : Keeps name d d' := by
  intro i e shown
  have stored := lt_size_of_content? (content?_of_element? shown)
  exact ⟨e, (element?_congr (same i stored)).trans shown, id⟩

theorem add (d : Dom) (c : Content) : Keeps name d (d.add c).1 :=
  of_content fun _ old => content?_add_of_lt d c old

theorem insert (d : Dom) (p : NodeId) (mark : Option NodeId) (i : NodeId) :
    Keeps name d (d.insert p mark i) :=
  of_content fun j _ => content?_insert d p mark i j

theorem detach (d : Dom) (i : NodeId) : Keeps name d (d.detach i) :=
  of_content fun j _ => content?_detach d i j

theorem removeChildren (d : Dom) (i : NodeId) : Keeps name d (d.removeChildren i) :=
  of_content fun j _ => content?_removeChildren d i j

theorem extendText (d : Dom) (i : NodeId) (more : Text) : Keeps name d (d.extendText i more) := by
  intro j e shown
  refine ⟨e, element?_of_content? ?_, id⟩
  rw [content?_extendText, content?_of_element? shown]
  split <;> rfl

theorem mapAttributes (d : Dom) (i : NodeId) {f : Attributes → Attributes}
    (kept : ∀ attributes : Attributes, attributes.contains name = true →
      (f attributes).contains name = true) : Keeps name d (d.mapAttributes i f) := by
  intro j e shown
  by_cases same : i = j
  · subst same
    exact ⟨_, element?_of_content? (content?_mapAttributes_self shown f), kept e.attributes⟩
  · refine ⟨e, ?_, id⟩
    rw [element?_congr (content?_mapAttributes_of_ne d f same), shown]

theorem setAttribute (d : Dom) (i : NodeId) (other value : Text) :
    Keeps name d (d.setAttribute i other value) := by
  refine mapAttributes d i ?_
  intro attributes present
  rw [Attributes.contains_set, present]
  rfl

theorem eraseAttribute (d : Dom) (i : NodeId) {other : Text} (different : other ≠ name) :
    Keeps name d (d.eraseAttribute i other) := by
  refine mapAttributes d i ?_
  intro attributes present
  rw [Attributes.contains_erase different, present]

theorem of_extends (grown : d.Extends d') : Keeps name d d' := by
  induction grown with
  | refl => exact refl name d
  | add _ c ih => exact ih.trans (add _ c)
  | insert _ p mark i ih => exact ih.trans (insert _ p mark i)
  | detach _ i ih => exact ih.trans (detach _ i)
  | extendText _ i more ih => exact ih.trans (extendText _ i more)
  | addMissing _ i attributes ih =>
      exact ih.trans (mapAttributes _ i fun _ => Attributes.contains_of_contains_addMissing)

end Keeps
end Dom
end LivePage.Html
