import Mathlib.Data.List.Induction
import Mathlib.Data.List.InsertIdx
import Mathlib.Data.List.Nodup
import LivePage.Actions.Standard

/-!
A page in use. Copies are asked for by identifier, through a handler or by clicks, the document
changes in between, and the clipboard completes its writes at once or in any order later. A history
says what has been asked for and what has been completed; a session is recounted turn by turn by
one history, in which every request stands once, every completion once and behind its request.
What the host shows is that history, and its pending writes are the requests left open.

The document may change in any way, and no notification asks for a copy itself.
-/

namespace LivePage
open Html

/-- The actions that a page registers. -/
inductive PageAction where
  | copying (messages : CopyMessages)
  | previewing
  deriving DecidableEq, Inhabited

variable {L : Type}

def PageAction.handler : PageAction → Handler (Host L)
  | copying messages => copyHandler messages
  | previewing => previewHandler

/-- The last action that was registered under a name. -/
def PageAction.named? (actions : List (Text × PageAction)) (name : Text) : Option PageAction :=
  (actions.reverse.find? fun a => a.1 = name).map Prod.snd

def Registry.ofActions (actions : List (Text × PageAction)) : Registry (Host L) :=
  actions.foldl (fun r a => r.register a.1 a.2.handler) {}

theorem Registry.ofActions_standard (messages : CopyMessages) :
    Registry.ofActions [(copyCode, .copying messages), (previewImage, .previewing)] =
      Registry.standard (L := L) messages := rfl

theorem Registry.find?_register {σ : Type} (r : Registry σ) (name other : Text)
    (handler : Handler σ) :
    (r.register name handler).find? other = if name = other then some handler else r.find? other := by
  rw [register, find?, find?, List.find?_append]
  by_cases same : name = other
  · subst same
    have absent : (r.handlers.filter fun h => h.1 ≠ name).find? (fun h => h.1 = name) = none := by
      rw [List.find?_eq_none]
      intro h member
      simpa using (List.mem_filter.1 member).2
    rw [absent, if_pos rfl]
    simp
  · have kept : (r.handlers.filter fun h => h.1 ≠ name).find? (fun h => h.1 = other) =
        r.handlers.find? fun h => h.1 = other := by
      rw [List.find?_filter]
      congr 1
      funext h
      by_cases shared : h.1 = other
      · simp [shared, Ne.symm same]
      · simp [shared]
    rw [kept, if_neg same]
    simp [same]

theorem Registry.find?_ofActions (actions : List (Text × PageAction)) (name : Text) :
    (Registry.ofActions (L := L) actions).find? name =
      (PageAction.named? actions name).map PageAction.handler := by
  induction actions using List.reverseRecOn with
  | nil => rfl
  | append_singleton actions a ih =>
      rw [ofActions, List.foldl_concat, find?_register, PageAction.named?, List.reverse_concat,
        List.find?_cons]
      by_cases same : a.1 = name
      · simp [same]
      · simp only [same, if_false, decide_false]
        exact ih

/-- A page in use: the document as it stands, and the host. -/
structure Session (L : Type) where
  document : Document
  host : Host L

/-- What is done on a page. -/
inductive Turn where
  | edit (change : Document → Document)
  | arrange (clipboard : Clipboard)
  | copy (messages : CopyMessages) (id : Text)
  | handle (action : PageAction) (element : NodeId)
  | click (actions : List (Text × PageAction)) (node : NodeId)
  | complete (place : Nat) (error : Option ClipboardError)

namespace Turn

def take (s : Session L) : Turn → Session L × Except ActionError Unit
  | edit change => ({ s with document := change s.document }, .ok ())
  | arrange clipboard => ({ s with host := { s.host with clipboard := clipboard } }, .ok ())
  | copy messages id =>
      let after := copyElement messages s.document id s.host
      ({ s with host := after.1 }, after.2)
  | handle action element =>
      let after := action.handler s.document element s.host
      ({ s with host := after.1 }, after.2)
  | click actions node =>
      let after := (Registry.ofActions actions).dispatch s.document node s.host
      ({ s with host := after.1 }, after.2.map fun _ => ())
  | complete place error => ({ s with host := s.host.finish place error }, .ok ())

/-- The messages of the copy that a turn asks for, if it asks for one. -/
def copying? (d : Document) : Turn → Option CopyMessages
  | copy messages _ => some messages
  | handle (.copying messages) _ => some messages
  | click actions node =>
      match (Registry.actionAt? d node).bind fun found => PageAction.named? actions found.2 with
      | some (.copying messages) => some messages
      | _ => none
  | _ => none

/-- The identifier that a turn gives for what it copies. -/
def target? (d : Document) : Turn → Option Text
  | copy _ id => some id
  | handle _ element => d.dom.attribute? element targetAttribute
  | click _ node =>
      (Registry.actionAt? d node).bind fun found => d.dom.attribute? found.1 targetAttribute
  | _ => none

end Turn

def Session.play (s : Session L) (turns : List Turn) : Session L :=
  turns.foldl (fun s t => (t.take s).1) s

/-- A copy that was asked for: how many were before it, the element, and the text it had. -/
structure CopyRequest where
  number : Nat
  id : Text
  text : Text
  messages : CopyMessages
  deriving DecidableEq

def CopyRequest.pending (w : CopyRequest) : PendingWrite := ⟨w.id, w.messages⟩

inductive Happening where
  | requested (w : CopyRequest)
  | completed (w : CopyRequest) (error : Option ClipboardError)
  deriving DecidableEq

namespace Happening

def request? : Happening → Option CopyRequest
  | requested w => some w
  | completed _ _ => none

def completion? : Happening → Option CopyRequest
  | requested _ => none
  | completed w _ => some w

/-- A request is a write, and its completion a notification of how the write has ended. -/
def effect : Happening → Effect L
  | requested w => .write w.text
  | completed w none => .success w.messages.success
  | completed w (some _) => .failure w.messages.failure

end Happening

abbrev History := List Happening

namespace History

def requests (history : History) : List CopyRequest := history.filterMap Happening.request?

def completions (history : History) : List CopyRequest := history.filterMap Happening.completion?

/-- The requests that have not been completed, in the order in which they were made. -/
def outstanding (history : History) : List CopyRequest :=
  history.requests.filter (· ∉ history.completions)

/-- Requests are numbered in order, none is completed twice, and none before it was made. -/
structure Orderly (history : History) : Prop where
  numbered : history.requests.map CopyRequest.number = List.range history.requests.length
  once : history.completions.Nodup
  caused : ∀ {past w error rest}, history = past ++ .completed w error :: rest →
    .requested w ∈ past

@[simp]
theorem requests_append (past news : History) :
    requests (past ++ news) = past.requests ++ requests news := List.filterMap_append

@[simp]
theorem completions_append (past news : History) :
    completions (past ++ news) = past.completions ++ completions news := List.filterMap_append

@[simp]
theorem requests_requested (w : CopyRequest) : requests [.requested w] = [w] := rfl

@[simp]
theorem requests_completed (w : CopyRequest) (error : Option ClipboardError) :
    requests [.completed w error] = [] := rfl

@[simp]
theorem completions_requested (w : CopyRequest) : completions [.requested w] = [] := rfl

@[simp]
theorem completions_completed (w : CopyRequest) (error : Option ClipboardError) :
    completions [.completed w error] = [w] := rfl

theorem mem_requests {history : History} {w : CopyRequest} :
    w ∈ history.requests ↔ .requested w ∈ history := by
  rw [requests, List.mem_filterMap]
  constructor
  · rintro ⟨happening, member, made⟩
    cases happening with
    | requested v =>
        cases made
        exact member
    | completed v error => cases made
  · intro member
    exact ⟨_, member, rfl⟩

theorem Orderly.nil : Orderly [] := by
  refine ⟨rfl, List.nodup_nil, ?_⟩
  intro past w error rest split
  cases List.append_eq_nil_iff.1 split.symm |>.2

theorem Orderly.nodup_requests {history : History} (orderly : history.Orderly) :
    history.requests.Nodup := by
  apply List.Nodup.of_map CopyRequest.number
  rw [orderly.numbered]
  exact List.nodup_range

theorem Orderly.mem_requests_of_completed {history : History} (orderly : history.Orderly)
    {w : CopyRequest} (member : w ∈ history.completions) : w ∈ history.requests := by
  obtain ⟨happening, listed, done⟩ := List.mem_filterMap.1 member
  cases happening with
  | requested v => cases done
  | completed v error =>
      cases done
      obtain ⟨past, rest, split⟩ := List.append_of_mem listed
      rw [split, requests_append]
      exact List.mem_append_left _ (mem_requests.2 (orderly.caused split))

theorem Orderly.caused_concat {history : History} (orderly : history.Orderly) {news : Happening}
    (possible : ∀ w error, news = .completed w error → .requested w ∈ history)
    {past : History} {w : CopyRequest} {error : Option ClipboardError} {rest : History}
    (split : history ++ [news] = past ++ .completed w error :: rest) : .requested w ∈ past := by
  rcases List.eq_nil_or_concat' rest with rfl | ⟨before, last, rfl⟩
  · obtain ⟨same, ended⟩ := List.append_inj' split rfl
    subst same
    exact possible w error (List.singleton_inj.1 ended)
  · rw [← List.cons_append, ← List.append_assoc] at split
    exact orderly.caused (List.append_inj' split rfl).1

def next (history : History) (id text : Text) (messages : CopyMessages) : CopyRequest :=
  ⟨history.requests.length, id, text, messages⟩

variable {history : History} {id text : Text} {messages : CopyMessages}

theorem Orderly.next_not_mem (orderly : history.Orderly) :
    history.next id text messages ∉ history.requests := by
  intro member
  have listed := List.mem_map_of_mem (f := CopyRequest.number) member
  rw [orderly.numbered] at listed
  exact Nat.lt_irrefl _ (List.mem_range.1 listed)

theorem Orderly.request (orderly : history.Orderly) :
    Orderly (history ++ [.requested (history.next id text messages)]) where
  numbered := by
    rw [requests_append, requests_requested, List.map_append, orderly.numbered,
      List.length_append, List.length_singleton, List.range_succ]
    rfl
  once := by
    rw [completions_append, completions_requested, List.append_nil]
    exact orderly.once
  caused := by
    intro past w error rest split
    apply orderly.caused_concat ?_ split
    rintro w error ⟨⟩

theorem Orderly.outstanding_request (orderly : history.Orderly) :
    outstanding (history ++ [.requested (history.next id text messages)]) =
      history.outstanding ++ [history.next id text messages] := by
  have fresh : history.next id text messages ∉ history.completions :=
    fun member => orderly.next_not_mem (orderly.mem_requests_of_completed member)
  simp [outstanding, fresh]

variable {w : CopyRequest}

theorem Orderly.complete (orderly : history.Orderly) (waits : w ∈ history.outstanding)
    (error : Option ClipboardError) : Orderly (history ++ [.completed w error]) := by
  obtain ⟨made, left⟩ := List.mem_filter.1 waits
  refine ⟨?_, ?_, ?_⟩
  · rw [requests_append, requests_completed, List.append_nil]
    exact orderly.numbered
  · rw [completions_append, completions_completed]
    exact (List.concat_eq_append ▸ (List.nodup_concat _ _).2 ⟨of_decide_eq_true left, orderly.once⟩)
  · intro past v error' rest split
    apply orderly.caused_concat ?_ split
    rintro _ _ ⟨⟩
    exact mem_requests.1 made

theorem Orderly.outstanding_complete (orderly : history.Orderly) {place : Nat}
    (waits : history.outstanding[place]? = some w) (error : Option ClipboardError) :
    outstanding (history ++ [.completed w error]) = history.outstanding.eraseIdx place := by
  obtain ⟨inside, here⟩ := List.getElem?_eq_some_iff.1 waits
  have distinct : history.outstanding.Nodup := orderly.nodup_requests.filter _
  have erased : history.outstanding.eraseIdx place = history.outstanding.filter (· ≠ w) := by
    rw [← distinct.erase_getElem place inside, here, distinct.erase_eq_filter]
    apply List.filter_congr
    intro v _
    simp [bne, beq_eq_decide]
  rw [erased, outstanding, outstanding, List.filter_filter, requests_append, requests_completed,
    List.append_nil, completions_append, completions_completed]
  apply List.filter_congr
  intro v _
  simp [and_comm]

end History

/-- Whether an effect is a preview, which no copy has. -/
def Effect.isPreview : Effect L → Bool
  | preview _ _ => true
  | _ => false

namespace Host

/-- The effects so far, without previews. -/
def shown (h : Host L) : List (Effect L) := h.effects.filter fun e => !e.isPreview

theorem shown_emit (h : Host L) (e : Effect L) :
    (h.emit e).shown = h.shown ++ [e].filter fun e => !e.isPreview := List.filter_append ..

theorem shown_conclude (h : Host L) (w : CopyRequest) (error : Option ClipboardError) :
    (h.conclude w.pending error).shown = h.shown ++ [(Happening.completed w error).effect] := by
  cases error with
  | none => exact shown_emit ..
  | some e => exact shown_emit ..

@[simp]
theorem pending_conclude (h : Host L) (w : PendingWrite) (error : Option ClipboardError) :
    (h.conclude w error).pending = h.pending := by
  cases error with
  | none => rfl
  | some e => rfl

theorem shown_deliver (event : PreviewEvent) (h : Host L) (listener : L) :
    (h.deliver event listener).shown = h.shown ∧
      (h.deliver event listener).pending = h.pending := by
  have subscribed (added : List L) (h : Host L) :
      (added.foldl subscribe h).shown = h.shown ∧ (added.foldl subscribe h).pending = h.pending := by
    induction added generalizing h with
    | nil => exact ⟨rfl, rfl⟩
    | cons a added ih => exact ih (h.subscribe a)
  have emitted : (h.emit (.preview listener event)).shown = h.shown := by
    rw [shown_emit]
    exact List.append_nil _
  obtain ⟨shown, pending⟩ := subscribed
    ((h.emit (.preview listener event)).subscribes (h.emit (.preview listener event)).effects
      listener event) (h.emit (.preview listener event))
  exact ⟨shown.trans emitted, pending⟩

theorem shown_preview (h : Host L) (url : Text) :
    (h.preview url).shown = h.shown ∧ (h.preview url).pending = h.pending := by
  have delivered (event : PreviewEvent) (listeners : List L) (h : Host L) :
      (listeners.foldl (deliver event) h).shown = h.shown ∧
        (listeners.foldl (deliver event) h).pending = h.pending := by
    induction listeners generalizing h with
    | nil => exact ⟨rfl, rfl⟩
    | cons listener listeners ih =>
        obtain ⟨shown, pending⟩ := shown_deliver event h listener
        obtain ⟨more, later⟩ := ih (h.deliver event listener)
        exact ⟨more.trans shown, later.trans pending⟩
  exact delivered _ h.listeners _

end Host

/-- What a clipboard adds to a request that it takes: its completion, if it does not wait. -/
def Clipboard.settles (w : CopyRequest) : Clipboard → History
  | prompt error => [.completed w error]
  | deferred => []

theorem copyElement_cases (messages : CopyMessages) (d : Document) (id : Text) (h : Host L) :
    (∃ e, copyElement messages d id h = (h, .error e)) ∨
      ∃ i, d.findById? id = some i ∧
        copyElement messages d id h = (h.write (d.dom.textContent i) ⟨id, messages⟩, .ok ()) := by
  cases found : d.findById? id with
  | none => exact .inl ⟨.targetNotFound id, by rw [copyElement, found]⟩
  | some i => exact .inr ⟨i, rfl, by rw [copyElement, found]⟩

theorem copyHandler_cases (messages : CopyMessages) (d : Document) (e : NodeId) (h : Host L) :
    (∃ error, copyHandler messages d e h = (h, .error error)) ∨
      ∃ id i, d.dom.attribute? e targetAttribute = some id ∧ d.findById? id = some i ∧
        copyHandler messages d e h = (h.write (d.dom.textContent i) ⟨id, messages⟩, .ok ()) := by
  cases target : d.dom.attribute? e targetAttribute with
  | none => exact .inl ⟨.missingAttribute targetAttribute, by rw [copyHandler, target]⟩
  | some id =>
      have copies : copyHandler messages d e h = copyElement messages d id h := by
        rw [copyHandler, target]
      rw [copies]
      rcases copyElement_cases messages d id h with failed | ⟨i, found, written⟩
      · exact .inl failed
      · exact .inr ⟨id, i, rfl, found, written⟩

theorem previewHandler_quiet (d : Document) (e : NodeId) (h : Host L) :
    (previewHandler d e h).1.shown = h.shown ∧ (previewHandler d e h).1.pending = h.pending ∧
      ∀ error, (previewHandler d e h).2 = .error error → (previewHandler d e h).1 = h := by
  cases source : d.dom.attribute? e previewAttribute with
  | none =>
      simp only [previewHandler, source]
      exact ⟨trivial, trivial, fun _ _ => trivial⟩
  | some url =>
      simp only [previewHandler, source]
      obtain ⟨shown, pending⟩ := h.shown_preview url
      refine ⟨shown, pending, ?_⟩
      rintro error ⟨⟩

theorem Registry.dispatch_ofActions {actions : List (Text × PageAction)} {d : Document}
    {node e : NodeId} {name : Text} {action : PageAction}
    (nearest : Registry.actionAt? d node = some (e, name))
    (named : PageAction.named? actions name = some action) (h : Host L) :
    ((Registry.ofActions actions).dispatch d node h).1 = (action.handler d e h).1 ∧
      ((Registry.ofActions actions).dispatch d node h).2.map (fun _ => ()) =
        (action.handler d e h).2 := by
  have registered : (Registry.ofActions (L := L) actions).find? name = some action.handler := by
    rw [find?_ofActions, named]
    rfl
  rw [dispatch, nearest]
  simp only [registered]
  rcases answered : action.handler d e h with ⟨after, error | _⟩
  · exact ⟨rfl, rfl⟩
  · exact ⟨rfl, rfl⟩

namespace Turn

variable {s : Session L} {t : Turn}

/-- A turn that asks for a copy fails without a trace, or writes the text that its target has. -/
theorem take_of_copying {messages : CopyMessages} (copying : t.copying? s.document = some messages) :
    (∃ e, t.take s = (s, .error e)) ∨
      ∃ id i, t.target? s.document = some id ∧ s.document.findById? id = some i ∧
        t.take s =
          (⟨s.document, s.host.write (s.document.dom.textContent i) ⟨id, messages⟩⟩, .ok ()) := by
  cases t with
  | edit _ | arrange _ | complete _ _ => cases copying
  | copy m id =>
      cases copying
      rcases copyElement_cases messages s.document id s.host with ⟨e, failed⟩ | ⟨i, found, written⟩
      · exact .inl ⟨e, by rw [take, failed]⟩
      · exact .inr ⟨id, i, rfl, found, by rw [take, written]⟩
  | handle action element =>
      cases action with
      | previewing => cases copying
      | copying m =>
          cases copying
          rcases copyHandler_cases messages s.document element s.host with
            ⟨e, failed⟩ | ⟨id, i, target, found, written⟩
          · exact .inl ⟨e, by rw [take, PageAction.handler, failed]⟩
          · exact .inr ⟨id, i, target, found, by rw [take, PageAction.handler, written]⟩
  | click actions node =>
      cases nearest : Registry.actionAt? s.document node with
      | none => simp [copying?, nearest] at copying
      | some clicked =>
          obtain ⟨element, name⟩ := clicked
          have named : PageAction.named? actions name = some (.copying messages) := by
            simp only [copying?, nearest, Option.bind_some] at copying
            split at copying
            · next m found => rw [found, Option.some.inj copying]
            · cases copying
          have handled := Registry.dispatch_ofActions nearest named s.host
          rcases copyHandler_cases messages s.document element s.host with
            ⟨e, failed⟩ | ⟨id, i, target, found, written⟩
          · exact .inl ⟨e, by rw [take, handled.1, handled.2, PageAction.handler, failed]⟩
          · refine .inr ⟨id, i, ?_, found, ?_⟩
            · rw [target?, nearest, Option.bind_some, target]
            · rw [take, handled.1, handled.2, PageAction.handler, written]

/-- A turn that asks for no copy and completes none shows nothing but previews. -/
theorem take_of_not_copying (other : t.copying? s.document = none)
    (runs : ∀ place error, t ≠ .complete place error) :
    (t.take s).1.host.shown = s.host.shown ∧ (t.take s).1.host.pending = s.host.pending ∧
      ∀ e, (t.take s).2 = .error e → (t.take s).1 = s := by
  cases t with
  | edit _ | arrange _ =>
      refine ⟨rfl, rfl, ?_⟩
      rintro e ⟨⟩
  | copy _ _ => cases other
  | complete place error => exact absurd rfl (runs place error)
  | handle action element =>
      cases action with
      | copying m => cases other
      | previewing =>
          obtain ⟨shown, pending, failed⟩ := previewHandler_quiet s.document element s.host
          refine ⟨shown, pending, ?_⟩
          intro e refused
          exact congrArg (Session.mk s.document) (failed e refused)
  | click actions node =>
      -- the click is outside of actions, on one that nobody registered, or on a preview
      cases nearest : Registry.actionAt? s.document node with
      | none =>
          rw [take, Registry.dispatch, nearest]
          refine ⟨rfl, rfl, ?_⟩
          rintro e ⟨⟩
      | some clicked =>
          obtain ⟨element, name⟩ := clicked
          simp only [copying?, nearest, Option.bind_some] at other
          cases named : PageAction.named? actions name with
          | none =>
              have unknown : (Registry.ofActions (L := L) actions).find? name = none := by
                rw [Registry.find?_ofActions, named]
                rfl
              rw [take, Registry.dispatch, nearest]
              simp only [unknown]
              exact ⟨trivial, trivial, fun _ _ => trivial⟩
          | some action =>
              cases action with
              | copying m => simp [named] at other
              | previewing =>
                  obtain ⟨shown, pending, failed⟩ :=
                    previewHandler_quiet s.document element s.host
                  have handled := Registry.dispatch_ofActions nearest named s.host
                  simp only [take, handled.1, handled.2]
                  refine ⟨shown, pending, ?_⟩
                  intro e refused
                  exact congrArg (Session.mk s.document) (failed e refused)

end Turn

/-- What a turn adds to the history of a session. -/
structure Turn.Adds (past : History) (s : Session L) (t : Turn) (news : History) : Prop where
  /-- Every request is shown as one write and every completion as one notification, and nothing
  else is shown but previews. -/
  shown : (t.take s).1.host.shown = s.host.shown ++ news.map Happening.effect
  /-- A copy that succeeds is one request for the text that its target has now. -/
  copied : ∀ messages, t.copying? s.document = some messages → (t.take s).2 = .ok () →
    ∃ id i, t.target? s.document = some id ∧ s.document.findById? id = some i ∧
      let w := past.next id (s.document.dom.textContent i) messages
      news = .requested w :: s.host.clipboard.settles w
  refused : ∀ e, (t.take s).2 = .error e → (t.take s).1 = s ∧ news = []
  /-- A write is completed as the clipboard says, if it has not been before. -/
  ended : ∀ place error, t = .complete place error →
    news = (past.outstanding[place]?.map (Happening.completed · error)).toList
  silent : t.copying? s.document = none → (∀ place error, t ≠ .complete place error) → news = []

/-- A session is recounted by what its turns add to the history, one after another. -/
inductive Session.Recounts : History → Session L → List Turn → History → Prop where
  | nil (past : History) (s : Session L) : Recounts past s [] []
  | cons {past : History} {s : Session L} {t : Turn} {news : History} {turns : List Turn}
      {rest : History} : t.Adds past s news →
      Recounts (past ++ news) (t.take s).1 turns rest → Recounts past s (t :: turns) (news ++ rest)

/-- The pending writes of a host are the requests that an orderly history leaves open. -/
structure Host.Balanced (past : History) (h : Host L) : Prop where
  orderly : past.Orderly
  pending : h.pending = past.outstanding.map CopyRequest.pending

def Host.await (h : Host L) (w : CopyRequest) : Host L :=
  { h.emit (.write w.text) with pending := h.pending ++ [w.pending] }

theorem Host.write_deferred {h : Host L} (deferred : h.clipboard = .deferred) (w : CopyRequest) :
    h.write w.text w.pending = h.await w := by
  cases h
  cases deferred
  rfl

/-- A write that is taken at once is one that waits, and that is completed before anything else. -/
theorem Host.write_prompt {h : Host L} {error : Option ClipboardError}
    (prompt : h.clipboard = .prompt error) (w : CopyRequest) :
    h.write w.text w.pending = (h.await w).finish h.pending.length error := by
  have emitted : (h.emit (.write w.text)).clipboard = .prompt error := prompt
  have last : (h.await w).pending[h.pending.length]? = some w.pending :=
    List.getElem?_concat_length
  have before : (h.await w).pending.eraseIdx h.pending.length = h.pending := by
    rw [await, List.eraseIdx_append_of_length_le (Nat.le_refl _), Nat.sub_self]
    exact List.append_nil _
  simp only [write, emitted, finish, last, before]
  rfl

namespace Host.Balanced

variable {past : History} {h : Host L}

theorem await (balanced : h.Balanced past) (id text : Text) (messages : CopyMessages) :
    (h.await (past.next id text messages)).Balanced
      (past ++ [.requested (past.next id text messages)]) where
  orderly := balanced.orderly.request
  pending := by
    rw [balanced.orderly.outstanding_request, List.map_append, ← balanced.pending]
    rfl

/-- Completing the write at a place completes the request at that place. -/
theorem finish (balanced : h.Balanced past) {place : Nat} {w : CopyRequest}
    (waits : past.outstanding[place]? = some w) (error : Option ClipboardError) :
    (h.finish place error).shown = h.shown ++ [(Happening.completed w error).effect] ∧
      (h.finish place error).Balanced (past ++ [.completed w error]) := by
  have kept : h.pending[place]? = some w.pending := by
    rw [balanced.pending, List.getElem?_map, waits]
    rfl
  have finished : h.finish place error =
      Host.conclude { h with pending := h.pending.eraseIdx place } w.pending error := by
    rw [Host.finish, kept]
  rw [finished]
  refine ⟨shown_conclude .., ?_, ?_⟩
  · exact balanced.orderly.complete (List.mem_of_getElem? waits) error
  · rw [pending_conclude, balanced.orderly.outstanding_complete waits, balanced.pending,
      List.eraseIdx_map]

theorem write (balanced : h.Balanced past) (id text : Text) (messages : CopyMessages) :
    let w := past.next id text messages
    let news : History := .requested w :: h.clipboard.settles w
    (h.write text ⟨id, messages⟩).shown = h.shown ++ news.map Happening.effect ∧
      (h.write text ⟨id, messages⟩).Balanced (past ++ news) := by
  intro w news
  have waiting := balanced.await id text messages
  have shown : (h.await w).shown = h.shown ++ [.write text] := h.shown_emit _
  change (h.write w.text w.pending).shown = _ ∧ (h.write w.text w.pending).Balanced _
  cases clipboard : h.clipboard with
  | deferred =>
      rw [Host.write_deferred clipboard]
      simp only [news, clipboard, Clipboard.settles]
      exact ⟨shown, waiting⟩
  | prompt error =>
      have last : (History.outstanding (past ++ [.requested w]))[h.pending.length]? = some w := by
        rw [balanced.orderly.outstanding_request, balanced.pending, List.length_map]
        exact List.getElem?_concat_length
      obtain ⟨concluded, balance⟩ := waiting.finish last error
      rw [Host.write_prompt clipboard, concluded, shown, List.append_assoc]
      rw [List.append_assoc] at balance
      simp only [news, clipboard, Clipboard.settles]
      exact ⟨rfl, balance⟩

end Host.Balanced

namespace Turn

variable {past : History} {s : Session L} {t : Turn}

/-- A turn that asks for a copy adds nothing, or the request and what the clipboard makes of it. -/
theorem exists_adds_of_copying (balanced : s.host.Balanced past) {messages : CopyMessages}
    (copying : t.copying? s.document = some messages) :
    ∃ news, t.Adds past s news ∧ (t.take s).1.host.Balanced (past ++ news) := by
  have other : ∀ place error, t ≠ .complete place error := by
    rintro place error rfl
    cases copying
  have asked : t.copying? s.document ≠ none := by
    rw [copying]
    exact Option.some_ne_none _
  rcases take_of_copying copying with ⟨e, failed⟩ | ⟨id, i, target, found, written⟩
  · refine ⟨[], ⟨?_, ?_, ?_, ?_, ?_⟩, ?_⟩
    · rw [failed]
      exact (List.append_nil _).symm
    · intro m _ succeeded
      rw [failed] at succeeded
      cases succeeded
    · intro _ _
      exact ⟨by rw [failed], rfl⟩
    · intro place error ends
      exact absurd ends (other place error)
    · intro _ _
      rfl
    · rw [failed, List.append_nil]
      exact balanced
  · obtain ⟨shown, kept⟩ := balanced.write id (s.document.dom.textContent i) messages
    refine ⟨.requested (past.next id (s.document.dom.textContent i) messages) ::
      s.host.clipboard.settles (past.next id (s.document.dom.textContent i) messages),
      ⟨?_, ?_, ?_, ?_, ?_⟩, ?_⟩
    · rw [written]
      exact shown
    · intro m same _
      obtain rfl : messages = m := Option.some.inj (copying.symm.trans same)
      exact ⟨id, i, target, found, rfl⟩
    · intro e refused
      rw [written] at refused
      cases refused
    · intro place error ends
      exact absurd ends (other place error)
    · intro none _
      exact absurd none asked
    · rw [written]
      exact kept

theorem exists_adds_of_complete (balanced : s.host.Balanced past) (place : Nat)
    (error : Option ClipboardError) :
    ∃ news, (complete place error).Adds past s news ∧
      ((complete place error).take s).1.host.Balanced (past ++ news) := by
  suffices added : ∃ news : History,
      news = (past.outstanding[place]?.map (Happening.completed · error)).toList ∧
      (s.host.finish place error).shown = s.host.shown ++ news.map Happening.effect ∧
      (s.host.finish place error).Balanced (past ++ news) by
    obtain ⟨news, ended, shown, kept⟩ := added
    refine ⟨news, ⟨shown, ?_, ?_, ?_, ?_⟩, kept⟩
    · rintro m ⟨⟩
    · rintro e ⟨⟩
    · rintro _ _ ⟨⟩
      exact ended
    · intro _ other
      exact absurd rfl (other place error)
  cases waits : past.outstanding[place]? with
  | some w =>
      obtain ⟨shown, kept⟩ := balanced.finish waits error
      exact ⟨[.completed w error], rfl, shown, kept⟩
  | none =>
      have nothing : s.host.pending[place]? = none := by
        rw [balanced.pending, List.getElem?_map, waits]
        rfl
      have same : s.host.finish place error = s.host := by rw [Host.finish, nothing]
      rw [same]
      refine ⟨[], rfl, (List.append_nil _).symm, ?_⟩
      rw [List.append_nil]
      exact balanced

theorem exists_adds (balanced : s.host.Balanced past) (t : Turn) :
    ∃ news, t.Adds past s news ∧ (t.take s).1.host.Balanced (past ++ news) := by
  by_cases ends : ∃ place error, t = complete place error
  · obtain ⟨place, error, rfl⟩ := ends
    exact exists_adds_of_complete balanced place error
  have other : ∀ place error, t ≠ complete place error :=
    fun place error same => ends ⟨place, error, same⟩
  cases copying : t.copying? s.document with
  | some messages => exact exists_adds_of_copying balanced copying
  | none =>
      obtain ⟨shown, pending, refused⟩ := take_of_not_copying copying other
      refine ⟨[], ⟨?_, ?_, ?_, ?_, ?_⟩, ?_⟩
      · rw [shown]
        exact (List.append_nil _).symm
      · intro m asks
        cases copying.symm.trans asks
      · intro e failed
        exact ⟨refused e failed, rfl⟩
      · intro place error same
        exact absurd same (other place error)
      · intro _ _
        rfl
      · rw [List.append_nil]
        exact ⟨balanced.orderly, pending.trans balanced.pending⟩

end Turn

theorem Session.exists_recounts {past : History} {s : Session L} (balanced : s.host.Balanced past)
    (turns : List Turn) :
    ∃ history, s.Recounts past turns history ∧
      (s.play turns).host.shown = s.host.shown ++ history.map Happening.effect ∧
      (s.play turns).host.Balanced (past ++ history) := by
  induction turns generalizing past s with
  | nil =>
      refine ⟨[], .nil past s, (List.append_nil _).symm, ?_⟩
      rw [List.append_nil]
      exact balanced
  | cons t turns ih =>
      obtain ⟨news, adds, kept⟩ := Turn.exists_adds balanced t
      obtain ⟨rest, recounts, shown, ending⟩ := ih kept
      refine ⟨news ++ rest, .cons adds recounts, ?_, ?_⟩
      · rw [List.map_append, ← List.append_assoc, ← adds.shown]
        exact shown
      · rw [← List.append_assoc]
        exact ending

/-- Whatever is done on a page whose clipboard is idle, one orderly history recounts it turn by
turn. Up to previews the host shows that history and nothing else, and the writes still pending are
the requests that the history leaves open. -/
theorem Session.exists_orderly_recount (s : Session L) (idle : s.host.pending = [])
    (turns : List Turn) :
    ∃ history : History, history.Orderly ∧ s.Recounts [] turns history ∧
      (s.play turns).host.shown = s.host.shown ++ history.map Happening.effect ∧
      (s.play turns).host.pending = history.outstanding.map CopyRequest.pending := by
  have balanced : s.host.Balanced [] := ⟨.nil, idle⟩
  obtain ⟨history, recounts, shown, ending⟩ := exists_recounts balanced turns
  exact ⟨history, ending.orderly, recounts, shown, ending.pending⟩

/-- Two copies completed in the other order, the first of them failing, after the page was emptied
and a third copy was refused. -/
theorem Session.exists_orderly_recount_reordered :
    let page := Document.parse
      "<pre id=a>one</pre><pre id=b>two</pre><button data-action=copy-code data-target=a></button>"
    let button := (page.firstNamed? "button").getD 0
    let actions : List (Text × PageAction) := [(copyCode, .copying {})]
    let s : Session Unit := ⟨page, { clipboard := .deferred }⟩
    let turns : List Turn :=
      [.click actions button, .copy {} "b", .edit fun _ => Document.parse "", .copy {} "a",
        .complete 1 none, .complete 0 (some .denied)]
    s.host.pending = [] ∧
      (∃ history : History, history.Orderly ∧ s.Recounts [] turns history ∧
        (s.play turns).host.shown = s.host.shown ++ history.map Happening.effect ∧
        (s.play turns).host.pending = history.outstanding.map CopyRequest.pending) ∧
      (s.play turns).host.effects =
        [.write "one", .write "two", .success "Copied", .failure "Copy failed"] := by
  intro page button actions s turns
  refine ⟨rfl, s.exists_orderly_recount rfl turns, ?_⟩
  decide +kernel

end LivePage
