import LivePage.Actions.Host

/-!
Previews told to listeners that subscribe others meanwhile. Who is told is fixed when a preview
begins, so what is subscribed during it stands behind and is told from the next preview on. No
listener is told while the list is borrowed, so no access to the list meets another.

Listeners subscribe and do nothing else: none begins a preview of its own.
-/

namespace LivePage

/-- What is done with previews from outside. -/
inductive PreviewTurn (L : Type) where
  | subscribe (listener : L)
  | preview (url : Text)
  deriving DecidableEq

variable {L : Type}

namespace Host

theorem subscribe_eq (h : Host L) (listener : L) :
    h.subscribe listener =
      { h with
        listeners := h.listeners ++ [listener]
        accesses := h.accesses ++ [⟨.exclusive, h.borrows⟩] } := rfl

theorem foldl_subscribe (added : List L) (h : Host L) :
    added.foldl subscribe h =
      { h with
        listeners := h.listeners ++ added
        accesses := h.accesses ++ added.map fun _ => ⟨.exclusive, h.borrows⟩ } := by
  induction added generalizing h with
  | nil => simp
  | cons a added ih => simp [ih, subscribe_eq]

/-- Whom those who are told of a preview subscribe, one after another, from the effects so far on. -/
def newcomers (subscribes : List (Effect L) → L → PreviewEvent → List L) (event : PreviewEvent) :
    List (Effect L) → List L → List L
  | _, [] => []
  | shown, listener :: told =>
      let shown := shown ++ [.preview listener event]
      subscribes shown listener event ++ newcomers subscribes event shown told

theorem foldl_deliver (event : PreviewEvent) (told : List L) (h : Host L) :
    told.foldl (deliver event) h =
      { h with
        effects := h.effects ++ told.map (.preview · event)
        listeners := h.listeners ++ newcomers h.subscribes event h.effects told
        accesses := h.accesses ++
          (newcomers h.subscribes event h.effects told).map fun _ => ⟨.exclusive, h.borrows⟩ } := by
  induction told generalizing h with
  | nil => simp [newcomers]
  | cons listener told ih =>
      rw [List.foldl_cons, ih, deliver, foldl_subscribe, newcomers]
      simp only [emit, List.map_append, List.map_cons, List.append_assoc, List.singleton_append]

/-- Whom the listeners of a host subscribe during a preview. -/
def enlisted (h : Host L) (event : PreviewEvent) : List L :=
  newcomers h.subscribes event h.effects h.listeners

theorem preview_eq (h : Host L) (url : Text) :
    h.preview url =
      { h with
        effects := h.effects ++ h.listeners.map (.preview · ⟨previewEventName, url⟩)
        listeners := h.listeners ++ h.enlisted ⟨previewEventName, url⟩
        accesses := h.accesses ++ ⟨.shared, h.borrows⟩ ::
          (h.enlisted ⟨previewEventName, url⟩).map fun _ => ⟨.exclusive, h.borrows⟩ } := by
  simp only [preview, borrowing, foldl_deliver, List.tail_cons, List.append_assoc,
    List.singleton_append]
  rfl

/-- The list of listeners is not borrowed, and whenever it was, nothing else had it borrowed. -/
structure Unborrowed (h : Host L) : Prop where
  now : h.borrows = []
  ever : ∀ a ∈ h.accesses, a.lasting = []

end Host

namespace PreviewTurn

def take (h : Host L) : PreviewTurn L → Host L
  | subscribe listener => h.subscribe listener
  | preview url => h.preview url

/-- The subscriptions that a turn makes, in their order. -/
def subscriptions (h : Host L) : PreviewTurn L → List L
  | subscribe listener => [listener]
  | preview url => h.enlisted ⟨previewEventName, url⟩

variable (h : Host L) (t : PreviewTurn L)

theorem listeners_take : (t.take h).listeners = h.listeners ++ t.subscriptions h := by
  cases t with
  | subscribe listener => rfl
  | preview url =>
      rw [take, Host.preview_eq]
      rfl

theorem effects_take : h.effects <+: (t.take h).effects := by
  cases t with
  | subscribe listener => exact List.prefix_rfl
  | preview url =>
      rw [take, Host.preview_eq]
      exact List.prefix_append ..

theorem unborrowed_take {h : Host L} (unborrowed : h.Unborrowed) : (t.take h).Unborrowed := by
  have accessed {made : List Access} (alone : ∀ a ∈ made, a.lasting = h.borrows) :
      ∀ a ∈ h.accesses ++ made, a.lasting = [] := by
    rw [List.forall_mem_append]
    exact ⟨unborrowed.ever, fun a member => (alone a member).trans unborrowed.now⟩
  cases t with
  | subscribe listener => exact ⟨unborrowed.now, accessed (by simp)⟩
  | preview url =>
      rw [take, Host.preview_eq]
      exact ⟨unborrowed.now, accessed (by simp)⟩

end PreviewTurn

namespace Host

def announce (h : Host L) (turns : List (PreviewTurn L)) : Host L := turns.foldl PreviewTurn.take h

/-- The subscriptions that a run makes, in their order. -/
def subscriptions (h : Host L) : List (PreviewTurn L) → List L
  | [] => []
  | t :: turns => t.subscriptions h ++ (t.take h).subscriptions turns

variable (h : Host L) (turns : List (PreviewTurn L))

theorem announce_append (later : List (PreviewTurn L)) :
    h.announce (turns ++ later) = (h.announce turns).announce later := List.foldl_append

theorem subscriptions_append (later : List (PreviewTurn L)) :
    h.subscriptions (turns ++ later) =
      h.subscriptions turns ++ (h.announce turns).subscriptions later := by
  induction turns generalizing h with
  | nil => rfl
  | cons t turns ih =>
      rw [List.cons_append, subscriptions, ih, subscriptions, List.append_assoc]
      rfl

theorem listeners_announce : (h.announce turns).listeners = h.listeners ++ h.subscriptions turns := by
  induction turns generalizing h with
  | nil => exact (List.append_nil _).symm
  | cons t turns ih =>
      rw [subscriptions, ← List.append_assoc, ← t.listeners_take]
      exact ih _

theorem effects_announce : h.effects <+: (h.announce turns).effects := by
  induction turns generalizing h with
  | nil => exact List.prefix_rfl
  | cons t turns ih => exact (t.effects_take h).trans (ih _)

variable {h}

theorem Unborrowed.announce (unborrowed : h.Unborrowed) : (h.announce turns).Unborrowed := by
  induction turns generalizing h with
  | nil => exact unborrowed
  | cons t turns ih => exact ih (t.unborrowed_take unborrowed)

/-- A preview is told once for each subscription that was there before the run or made in it so far. -/
theorem effects_preview_announce (past : List (PreviewTurn L)) (url : Text) :
    ((h.announce past).preview url).effects =
      (h.announce past).effects ++
        (h.listeners ++ h.subscriptions past).map (.preview · ⟨previewEventName, url⟩) := by
  rw [preview_eq, listeners_announce]

/-- Previews in a run of subscriptions and previews, in which those who are told of a preview
subscribe whom they like. Each preview is told once for each subscription made before it began, in
the order of the subscriptions, and for none made during it. A later preview is told for these as
well, in their place between those made before and those made after. What has been told stays told,
and whenever the list of listeners is borrowed, nothing else has it borrowed. -/
theorem previews_once_per_subscription (h : Host L) (unborrowed : h.Unborrowed)
    (turns : List (PreviewTurn L)) :
    (h.announce turns).borrows = [] ∧ (∀ a ∈ (h.announce turns).accesses, a.lasting = []) ∧
    (h.announce turns).listeners = h.listeners ++ h.subscriptions turns ∧
    ∀ past url later, turns = past ++ .preview url :: later →
      let before := h.announce past
      let after := before.preview url
      let during := before.enlisted ⟨previewEventName, url⟩
      h.subscriptions turns = h.subscriptions past ++ during ++ after.subscriptions later ∧
      after.effects = before.effects ++
        (h.listeners ++ h.subscriptions past).map (.preview · ⟨previewEventName, url⟩) ∧
      after.effects <+: (h.announce turns).effects ∧
      ∀ between url' rest, later = between ++ .preview url' :: rest →
        ((after.announce between).preview url').effects =
          (after.announce between).effects ++
            (h.listeners ++ h.subscriptions past ++ during ++ after.subscriptions between).map
              (.preview · ⟨previewEventName, url'⟩) := by
  obtain ⟨now, ever⟩ := unborrowed.announce turns
  refine ⟨now, ever, h.listeners_announce turns, ?_⟩
  rintro past url later rfl before after during
  have grown : after.listeners = h.listeners ++ h.subscriptions past ++ during := by
    rw [← h.listeners_announce past]
    exact PreviewTurn.listeners_take before (.preview url)
  refine ⟨?_, effects_preview_announce past url, ?_, ?_⟩
  · rw [subscriptions_append, List.append_assoc]
    rfl
  · rw [announce_append]
    exact after.effects_announce later
  · rintro between url' rest -
    rw [effects_preview_announce, grown]

/-- The first listener brings a second one twice, which hears nothing of the preview that brought it
and every later one twice. -/
theorem previews_once_per_subscription_nested :
    let h : Host Nat := { subscribes := fun _ listener _ => if listener = 1 then [2, 2] else [] }
    let past : List (PreviewTurn Nat) := [.subscribe 1, .preview "a.png", .subscribe 3]
    let a : PreviewEvent := ⟨previewEventName, "a.png"⟩
    let b : PreviewEvent := ⟨previewEventName, "b.png"⟩
    h.Unborrowed ∧ (∀ access ∈ (h.announce past).accesses, access.lasting = []) ∧
      ((h.announce past).preview "b.png").effects =
        [.preview 1 a, .preview 1 b, .preview 2 b, .preview 2 b, .preview 3 b] := by
  intro h past a b
  have unborrowed : h.Unborrowed := ⟨rfl, by simp [h]⟩
  refine ⟨unborrowed, (previews_once_per_subscription h unborrowed past).2.1, ?_⟩
  obtain ⟨-, -, -, told⟩ :=
    previews_once_per_subscription h unborrowed (past ++ [.preview "b.png"])
  exact ((told past "b.png" [] rfl).2.1).trans rfl

end Host
end LivePage
