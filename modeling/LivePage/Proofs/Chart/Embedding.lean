import LivePage.Chart.Engine
import LivePage.Proofs.Html.Kept

/-!
What the engine that embeds scripts does to a store. It adds two nodes, a script and the text in it,
and puts the script behind what the element holds; all else stays as it is.
-/

namespace LivePage
open Html

def scriptElement : Element :=
  { name := "script", attributes := [⟨"type", "application/json"⟩, ⟨"class", "echarts-option"⟩] }

namespace Html.Dom

/-- The store with a declaration embedded in an element. -/
def embed (d : Dom) (container : NodeId) (declaration : Declaration) : Dom :=
  let (d, script) := d.add (.element scriptElement)
  let (d, text) := d.add (.text (scriptText declaration))
  (d.append script text).append container script

/-- A new script, with the declaration in a new text, behind the children of an element. -/
structure Embeds (d d' : Dom) (container : NodeId) (declaration : Declaration)
    (script text : NodeId) : Prop where
  new : d.size ≤ script ∧ d.size ≤ text
  behind : d'.children container = d.children container ++ [script]
  element : d'.content? script = some (.element scriptElement)
  inside : d'.children script = [text]
  body : d'.content? text = some (.text (scriptText declaration))
  leaf : d'.children text = []

theorem size_embed (d : Dom) (container : NodeId) (declaration : Declaration) :
    (d.embed container declaration).size = d.size + 2 := by
  unfold embed append
  rw [size_insert, size_insert, size_add, size_add]

theorem content?_embed (d : Dom) (container : NodeId) (declaration : Declaration) (i : NodeId) :
    (d.embed container declaration).content? i =
      if i = d.size + 1 then some (.text (scriptText declaration))
      else if i = d.size then some (.element scriptElement) else d.content? i := by
  unfold embed append
  rw [content?_insert, content?_insert, content?_add, content?_add, size_add]

theorem content?_embed_of_lt (d : Dom) (container : NodeId) (declaration : Declaration) {i : NodeId}
    (old : i < d.size) : (d.embed container declaration).content? i = d.content? i := by
  rw [content?_embed, if_neg (Nat.ne_of_lt (Nat.lt_succ_of_lt old)), if_neg (Nat.ne_of_lt old)]

theorem children_embed {d : Dom} {container : NodeId} (present : container < d.size)
    (declaration : Declaration) (i : NodeId) :
    (d.embed container declaration).children i =
      if i = container then d.children i ++ [d.size]
      else if i = d.size then [d.size + 1] else d.children i := by
  let script := (d.add (.element scriptElement)).1
  let added := (script.add (.text (scriptText declaration))).1
  have size : script.size = d.size + 1 := size_add d _
  have room : d.size < added.size := by
    rw [size_add, size]
    omega
  have same (q : NodeId) : added.children q = d.children q := by rw [children_add, children_add]
  have text : added.content? script.size = some (.text (scriptText declaration)) :=
    content?_add_self script _
  have element : added.content? d.size = some (.element scriptElement) := by
    rw [content?_add_of_lt script _ (size ▸ Nat.lt_succ_self d.size)]
    exact content?_add_self d _
  -- Both nodes are new, so they are no one's children before they are put in.
  have first (q : NodeId) : (added.append d.size script.size).children q =
      if d.size = q then d.children q ++ [script.size] else d.children q := by
    rw [children_append_of_loose text rfl room, same]
    intro q
    rw [same]
    exact not_mem_children_of_size_le (size ▸ Nat.le_succ d.size) q
  have second (q : NodeId) : d.size ∉ (added.append d.size script.size).children q := by
    intro member
    rw [first] at member
    split at member
    · rcases List.mem_append.1 member with old | new
      · exact not_mem_children_of_size_le (Nat.le_refl _) q old
      · rw [List.mem_singleton, size] at new
        exact Nat.succ_ne_self _ new.symm
    · exact not_mem_children_of_size_le (Nat.le_refl _) q member
  have shown : (added.append d.size script.size).content? d.size = some (.element scriptElement) :=
    (content?_insert added d.size none script.size d.size).trans element
  refine (children_append_of_loose shown rfl ?_ second i).trans ?_
  · rw [append, size_insert]
    exact Nat.lt_trans present room
  · rw [first, size]
    by_cases here : i = container
    · rw [if_pos here.symm, if_pos here, if_neg (here ▸ Nat.ne_of_gt present)]
    · rw [if_neg (Ne.symm here), if_neg here]
      by_cases script : i = d.size
      · rw [if_pos script.symm, if_pos script, script, children_of_size_le (Nat.le_refl _)]
        rfl
      · rw [if_neg (Ne.symm script), if_neg script]

theorem keeps_embed (name : Text) (d : Dom) (container : NodeId) (declaration : Declaration) :
    d.Keeps name (d.embed container declaration) := by
  have script : d.Keeps name (d.add (.element scriptElement)).1 := .add d _
  have added := script.trans (.add _ (.text (scriptText declaration)))
  exact (added.trans (.insert _ d.size none _)).trans (.insert _ container none d.size)

theorem sameAt_embed {d : Dom} {container : NodeId} (present : container < d.size)
    (declaration : Declaration) {i : NodeId} (old : i < d.size) (other : i ≠ container) :
    d.SameAt (d.embed container declaration) i := by
  refine ⟨content?_embed_of_lt d container declaration old, ?_⟩
  rw [children_embed present, if_neg other, if_neg (Nat.ne_of_lt old)]

theorem embeds_embed {d : Dom} {container : NodeId} (present : container < d.size)
    (declaration : Declaration) :
    d.Embeds (d.embed container declaration) container declaration d.size (d.size + 1) := by
  have script : d.size ≠ container := Nat.ne_of_gt present
  have text : d.size + 1 ≠ container := Nat.ne_of_gt (Nat.lt_succ_of_lt present)
  refine ⟨⟨Nat.le_refl _, Nat.le_succ _⟩, ?_, ?_, ?_, ?_, ?_⟩
  · rw [children_embed present, if_pos rfl]
  · rw [content?_embed, if_neg (Nat.ne_of_lt (Nat.lt_succ_self _)), if_pos rfl]
  · rw [children_embed present, if_neg script, if_pos rfl]
  · rw [content?_embed, if_pos rfl]
  · rw [children_embed present, if_neg text, if_neg (Nat.succ_ne_self _),
      children_of_size_le (Nat.le_succ _)]

/-- An earlier store in which the element had the same children may be taken for the first one. -/
theorem Embeds.of_children {d d' d'' : Dom} {container script text : NodeId}
    {declaration : Declaration} (embeds : d'.Embeds d'' container declaration script text)
    (same : d'.children container = d.children container) (grown : d.size ≤ d'.size) :
    d.Embeds d'' container declaration script text :=
  ⟨⟨Nat.le_trans grown embeds.new.1, Nat.le_trans grown embeds.new.2⟩, same ▸ embeds.behind,
    embeds.element, embeds.inside, embeds.body, embeds.leaf⟩

/-- Later changes that leave the element and the new nodes alone leave the script there. -/
theorem Embeds.frame {d d' d'' : Dom} {container script text : NodeId} {declaration : Declaration}
    (embeds : d.Embeds d' container declaration script text) (present : container < d'.size)
    (same : ∀ i < d'.size, i = container ∨ d.size ≤ i → d'.SameAt d'' i) :
    d.Embeds d'' container declaration script text := by
  have atScript := same script (lt_size_of_content? embeds.element) (.inr embeds.new.1)
  have atText := same text (lt_size_of_content? embeds.body) (.inr embeds.new.2)
  refine ⟨embeds.new, ?_, ?_, ?_, ?_, ?_⟩
  · exact (same container present (.inl rfl)).2.trans embeds.behind
  · exact atScript.1.trans embeds.element
  · exact atScript.2.trans embeds.inside
  · exact atText.1.trans embeds.body
  · exact atText.2.trans embeds.leaf

end Html.Dom

theorem embedScript_eq {m : Type → Type} [Pure m] (dom : Dom) (container : NodeId)
    (declaration : Declaration) :
    (embedScript dom container declaration : m Drawing) =
      pure ⟨dom.embed container declaration, none⟩ := rfl

end LivePage
