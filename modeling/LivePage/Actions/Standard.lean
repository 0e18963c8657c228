import LivePage.Actions.Host
import LivePage.Actions.Registry

/-!
The actions that rendered pages use: copying the text of a code block, and previewing an image.
-/

namespace LivePage

open Html

/-- The attribute with the identifier of the element that is copied. -/
def targetAttribute : Text := "data-target"

/-- The attribute with the address of the image that is previewed. -/
def previewAttribute : Text := "data-preview-src"

def copyCode : Text := "copy-code"

def previewImage : Text := "preview-image"

variable {L : Type}

def copyElement (messages : CopyMessages) (d : Document) (id : Text) (h : Host L) :
    Host L × Except ActionError Unit :=
  match d.findById? id with
  | none => (h, .error (.targetNotFound id))
  | some i => (h.write (d.dom.textContent i) ⟨id, messages⟩, .ok ())

/-- Copies the element that the action's own element points to. -/
def copyHandler (messages : CopyMessages) : Handler (Host L) := fun d i h =>
  match d.dom.attribute? i targetAttribute with
  | none => (h, .error (.missingAttribute targetAttribute))
  | some id => copyElement messages d id h

def previewHandler : Handler (Host L) := fun d i h =>
  match d.dom.attribute? i previewAttribute with
  | none => (h, .error (.missingAttribute previewAttribute))
  | some url => (h.preview url, .ok ())

/-- Both actions under the names that rendered pages give them. -/
def Registry.standard (messages : CopyMessages) : Registry (Host L) :=
  let copying := ({} : Registry (Host L)).register copyCode (copyHandler messages)
  copying.register previewImage previewHandler

end LivePage
