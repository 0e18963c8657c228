import LivePage.Proofs.Actions.Session
import LivePage.Proofs.Html.Ancestors

/-!
Clicks on a page. A click belongs to the nearest element at or above it that names an action, and
what it does is what was registered last under that name. Elements further out have no say in it,
also if nothing was registered.

Handlers may do anything here. Only the last law is about the two that pages register: these fail
without a trace.
-/

namespace LivePage
open Html

namespace Registry

variable {σ : Type}

def ofCalls (calls : List (Text × Handler σ)) : Registry σ :=
  calls.foldl (fun r c => r.register c.1 c.2) {}

theorem find?_foldl_register {calls : List (Text × Handler σ)} {name : Text}
    (absent : name ∉ calls.map Prod.fst) (r : Registry σ) :
    (calls.foldl (fun r c => r.register c.1 c.2) r).find? name = r.find? name := by
  induction calls generalizing r with
  | nil => rfl
  | cons c calls ih =>
      rw [List.map_cons, List.mem_cons, not_or] at absent
      rw [List.foldl_cons, ih absent.2, find?_register, if_neg (Ne.symm absent.1)]

theorem find?_ofCalls_of_not_mem {calls : List (Text × Handler σ)} {name : Text}
    (absent : name ∉ calls.map Prod.fst) : (ofCalls calls).find? name = none :=
  find?_foldl_register absent {}

theorem find?_ofCalls_last {later : List (Text × Handler σ)} {name : Text}
    (absent : name ∉ later.map Prod.fst) (earlier : List (Text × Handler σ)) (handler : Handler σ) :
    (ofCalls (earlier ++ (name, handler) :: later)).find? name = some handler := by
  rw [ofCalls, List.foldl_append, List.foldl_cons, find?_foldl_register absent, find?_register,
    if_pos rfl]

variable {d : Document} {clicked e : NodeId} {name : Text}

theorem dispatch_of_outside
    (outside : ∀ j, d.dom.Encloses j clicked → d.dom.attribute? j actionAttribute = none)
    (r : Registry σ) (state : σ) : r.dispatch d clicked state = (state, .ok none) := by
  have nowhere : actionAt? d clicked = none := Dom.nearestTo?_size_eq_none_iff.2 outside
  rw [dispatch, nowhere]

theorem actionAt?_of_nearest (nearest : d.dom.Nearest actionAttribute e name clicked) :
    actionAt? d clicked = some (e, name) := Dom.nearestTo?_size_iff.2 nearest

theorem dispatch_of_unregistered (nearest : d.dom.Nearest actionAttribute e name clicked)
    {r : Registry σ} (unregistered : r.find? name = none) (state : σ) :
    r.dispatch d clicked state = (state, .error (.unknownAction name)) := by
  rw [dispatch, actionAt?_of_nearest nearest]
  simp only [unregistered]

theorem dispatch_of_registered (nearest : d.dom.Nearest actionAttribute e name clicked)
    {r : Registry σ} {handler : Handler σ} (registered : r.find? name = some handler) (state : σ) :
    r.dispatch d clicked state =
      ((handler d e state).1, (handler d e state).2.map fun _ => some name) := by
  rw [dispatch, actionAt?_of_nearest nearest]
  simp only [registered]
  rcases handler d e state with ⟨after, error | _⟩
  · rfl
  · rfl

end Registry

variable {L : Type}

theorem PageAction.handler_of_error {action : PageAction} {d : Document} {e : NodeId} {h : Host L}
    {error : ActionError} (failed : (action.handler d e h).2 = .error error) :
    (action.handler d e h).1 = h := by
  cases action with
  | copying messages =>
      rcases copyHandler_cases messages d e h with ⟨_, quiet⟩ | ⟨_, _, _, _, written⟩
      · rw [handler, quiet]
      · rw [handler, written] at failed
        cases failed
  | previewing => exact (previewHandler_quiet d e h).2.2 error failed

theorem Registry.dispatch_ofActions_of_error {actions : List (Text × PageAction)} {d : Document}
    {clicked : NodeId} {h : Host L} {error : ActionError}
    (failed : ((Registry.ofActions actions).dispatch d clicked h).2 = .error error) :
    ((Registry.ofActions actions).dispatch d clicked h).1 = h := by
  cases found : actionAt? d clicked with
  | none => rw [dispatch, found]
  | some named =>
      obtain ⟨e, name⟩ := named
      have nearest := Dom.nearestTo?_size_iff.1 found
      have registered := find?_ofActions (L := L) actions name
      cases last : PageAction.named? actions name with
      | none =>
          rw [last] at registered
          rw [dispatch_of_unregistered nearest registered]
      | some action =>
          rw [last] at registered
          rw [dispatch_of_registered nearest registered] at failed ⊢
          cases outcome : (action.handler d e h).2 with
          | error _ => exact PageAction.handler_of_error outcome
          | ok _ =>
              simp only [outcome] at failed
              cases failed

/-- A click where no element at or above names an action does nothing. Otherwise one element is the
nearest to do so, and the click belongs to it. It fails and does nothing if the name was not
registered, wherever an element further out may lead. If it was, the handler registered last does
its work, once and for that element, and its answer is the answer. If the handlers are those of
copying and of previewing, a click that fails leaves the host as it was: no write, no notification,
no preview. -/
theorem Registry.dispatch_nearest :
    (∀ (σ : Type) (calls : List (Text × Handler σ)) (d : Document) (clicked : NodeId) (state : σ),
      let answer := (Registry.ofCalls calls).dispatch d clicked state
      ((∀ j, d.dom.Encloses j clicked → d.dom.attribute? j actionAttribute = none) →
        answer = (state, .ok none)) ∧
      (∀ j name, d.dom.Encloses j clicked → d.dom.attribute? j actionAttribute = some name →
        ∃! found : NodeId × Text, d.dom.Nearest actionAttribute found.1 found.2 clicked) ∧
      ∀ e name, d.dom.Nearest actionAttribute e name clicked →
        (name ∉ calls.map Prod.fst → answer = (state, .error (.unknownAction name))) ∧
        ∀ earlier (handler : Handler σ) later, calls = earlier ++ (name, handler) :: later →
          name ∉ later.map Prod.fst →
            answer = ((handler d e state).1, (handler d e state).2.map fun _ => some name)) ∧
    ∀ (L : Type) (actions : List (Text × PageAction)) (d : Document) (clicked : NodeId)
      (h : Host L) (error : ActionError),
      ((Registry.ofActions actions).dispatch d clicked h).2 = .error error →
        ((Registry.ofActions actions).dispatch d clicked h).1 = h := by
  refine ⟨fun σ calls d clicked state => ⟨?_, ?_, ?_⟩, fun L actions d clicked h error failed => ?_⟩
  · exact fun outside => dispatch_of_outside outside _ state
  · intro j name encloses carried
    obtain ⟨e, value, nearest⟩ := encloses.exists_nearest carried
    refine ⟨(e, value), nearest, fun other nearest' => ?_⟩
    obtain ⟨same, shared⟩ := nearest'.unique nearest
    exact Prod.ext same shared
  · rintro e name nearest
    refine ⟨fun absent => ?_, ?_⟩
    · exact dispatch_of_unregistered nearest (find?_ofCalls_of_not_mem absent) state
    · rintro earlier handler later rfl absent
      exact dispatch_of_registered nearest (find?_ofCalls_last absent earlier handler) state
  · exact dispatch_ofActions_of_error failed

/-- An action inside another, whose name is not registered, and the other one, whose name is
registered twice. -/
theorem Registry.dispatch_nearest_nested :
    let outer : Dom × NodeId := Dom.empty.addElement .html "div" [⟨actionAttribute, copyCode⟩]
    let inner : Dom × NodeId := outer.1.addElement .html "span" [⟨actionAttribute, "zoom"⟩]
    let within : Dom × NodeId := (inner.1.append outer.2 inner.2).add (.text "a")
    let beside : Dom × NodeId := (within.1.append inner.2 within.2).add (.comment "b")
    let d : Document := ⟨beside.1.append outer.2 beside.2, outer.2⟩
    let calls : List (Text × Handler (List (Nat × NodeId))) :=
      [(copyCode, fun _ e log => (log ++ [(1, e)], .ok ())),
        (copyCode, fun _ e log => (log ++ [(2, e)], .error (.missingAttribute targetAttribute)))]
    let host : Host Nat := { listeners := [1] }
    let copied := (Registry.ofActions [(copyCode, .copying {})]).dispatch d beside.2 host
    (Registry.ofCalls calls).dispatch d within.2 [] = ([], .error (.unknownAction "zoom")) ∧
      (Registry.ofCalls calls).dispatch d beside.2 [] =
        ([(2, outer.2)], .error (.missingAttribute targetAttribute)) ∧
      (Registry.ofCalls calls).dispatch d d.dom.size [] = ([], .ok none) ∧
      copied.2 = .error (.missingAttribute targetAttribute) ∧ copied.1 = host := by
  intro outer inner within beside d calls host copied
  have inside : d.dom.Nearest actionAttribute inner.2 "zoom" within.2 :=
    .above (by decide) (by decide) (.here (by decide))
  have next : d.dom.Nearest actionAttribute outer.2 copyCode beside.2 :=
    .above (by decide) (by decide) (.here (by decide))
  have outside : ∀ j, d.dom.Encloses j d.dom.size → d.dom.attribute? j actionAttribute = none := by
    intro j encloses
    rcases Relation.ReflTransGen.cases_head encloses with rfl | ⟨p, parent, _⟩
    · decide
    · have alone : d.dom.parent? d.dom.size = none := by decide
      cases alone.symm.trans parent
  have law := dispatch_nearest.1 (List (Nat × NodeId)) calls d
  have failed : copied.2 = .error (.missingAttribute targetAttribute) := by decide +kernel
  refine ⟨?_, ?_, (law d.dom.size []).1 outside, failed, ?_⟩
  · exact ((law within.2 []).2.2 inner.2 "zoom" inside).1 (by decide)
  · exact ((law beside.2 []).2.2 outer.2 copyCode next).2 [_] _ [] rfl (by decide)
  · exact dispatch_nearest.2 Nat [(copyCode, .copying {})] d beside.2 host _ failed

end LivePage
