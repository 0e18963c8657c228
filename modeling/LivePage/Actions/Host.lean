import LivePage.Recovery

/-!
The host of a page: its clipboard, which may answer at once or later, the messages it shows, and the
listeners that take image previews. What it does is kept in order as effects. A listener may
subscribe others while it is told of a preview; those hear of the next one.
-/

namespace LivePage

inductive ClipboardError where
  | denied
  | unavailable (reason : Text)
  deriving DecidableEq, Inhabited

def ClipboardError.message : ClipboardError → Text
  | denied => "clipboard access denied"
  | unavailable reason => "clipboard unavailable: ".toList ++ reason

/-- How the clipboard takes a write: at once, with an error if it fails, or when the host completes
it. -/
inductive Clipboard where
  | prompt (error : Option ClipboardError)
  | deferred
  deriving DecidableEq, Inhabited

/-- What the user is shown after a copy. -/
structure CopyMessages where
  success : Text := "Copied"
  failure : Text := "Copy failed"
  deriving DecidableEq, Inhabited

/-- A write that has not been completed, with the element it copies. -/
structure PendingWrite where
  id : Text
  messages : CopyMessages
  deriving DecidableEq, Inhabited

structure PreviewEvent where
  name : Text
  url : Text
  deriving DecidableEq, Inhabited

def previewEventName : Text := "markdown-preview-image"

inductive Effect (L : Type) where
  | write (text : Text)
  | success (message : Text)
  | failure (message : Text)
  | preview (listener : L) (event : PreviewEvent)
  deriving DecidableEq, Inhabited

/-- How the list of listeners is borrowed: for reading, which others may do as well, or for changing,
which one does alone. -/
inductive Borrow where
  | shared
  | exclusive
  deriving DecidableEq, Inhabited

/-- A borrow of the list of listeners, with those that had not ended when it began. -/
structure Access where
  borrow : Borrow
  lasting : List Borrow
  deriving DecidableEq, Inhabited

structure Host (L : Type) where
  clipboard : Clipboard := .prompt none
  pending : List PendingWrite := []
  /-- The listeners in the order in which they were subscribed. -/
  listeners : List L := []
  /-- The borrows of that list that have not ended, the last one first. -/
  borrows : List Borrow := []
  accesses : List Access := []
  /-- Whom a listener subscribes when it is told of a preview, after the effects so far. -/
  subscribes : List (Effect L) → L → PreviewEvent → List L := fun _ _ _ => []
  effects : List (Effect L) := []
  logs : List LogRecord := []

namespace Host

variable {L : Type}

instance : Inhabited (Host L) := ⟨{}⟩

def emit (h : Host L) (e : Effect L) : Host L := { h with effects := h.effects ++ [e] }

def conclude (h : Host L) (w : PendingWrite) (error : Option ClipboardError) : Host L :=
  match error with
  | none => h.emit (.success w.messages.success)
  | some e =>
      let message := "Failed to copy ".toList ++ w.id ++ " to clipboard: ".toList ++ e.message
      let h : Host L := { h with logs := h.logs ++ [⟨.warn, message⟩] }
      h.emit (.failure w.messages.failure)

def write (h : Host L) (text : Text) (w : PendingWrite) : Host L :=
  let h := h.emit (.write text)
  match h.clipboard with
  | .prompt error => h.conclude w error
  | .deferred => { h with pending := h.pending ++ [w] }

def finish (h : Host L) (place : Nat) (error : Option ClipboardError) : Host L :=
  match h.pending[place]? with
  | none => h
  | some w =>
      let h : Host L := { h with pending := h.pending.eraseIdx place }
      h.conclude w error

/-- Ends the pending writes in their order, at most so many, and all in the same way. -/
def finishFirst (error : Option ClipboardError) : Nat → Host L → Host L
  | 0, h => h
  | n + 1, h => finishFirst error n (h.finish 0 error)

def complete (h : Host L) (error : Option ClipboardError) : Host L :=
  finishFirst error h.pending.length h

/-- Does a work for which the list of listeners is borrowed as long as it lasts. -/
def borrowing {α : Type} (h : Host L) (borrow : Borrow) (work : Host L → Host L × α) :
    Host L × α :=
  let access : Access := ⟨borrow, h.borrows⟩
  let (h, result) :=
    work { h with borrows := borrow :: h.borrows, accesses := h.accesses ++ [access] }
  ({ h with borrows := h.borrows.tail }, result)

def subscribe (h : Host L) (listener : L) : Host L :=
  (h.borrowing .exclusive fun h => ({ h with listeners := h.listeners ++ [listener] }, ())).1

def deliver (event : PreviewEvent) (h : Host L) (listener : L) : Host L :=
  let h := h.emit (.preview listener event)
  (h.subscribes h.effects listener event).foldl subscribe h

/-- Tells those who were subscribed before of a preview. They are copied from the list first, which
is free again when they are told. -/
def preview (h : Host L) (url : Text) : Host L :=
  let event : PreviewEvent := ⟨previewEventName, url⟩
  let (h, told) := h.borrowing .shared fun h => (h, h.listeners)
  told.foldl (deliver event) h

end Host
end LivePage
