import LivePage.Html.Node

/-!
A store of documents. Whatever is done to it, parents and children stay in step, so a walk down from
a document meets every node at most once. A node that is taken out stays in the store with all below
it, and may be put in again.
-/

namespace LivePage.Html

structure Dom where
  nodes : Array Node
  inStep : Node.InStep nodes

namespace Dom

def empty : Dom := ⟨#[], .empty⟩

instance : Inhabited Dom := ⟨empty⟩

def size (d : Dom) : Nat := d.nodes.size

def content? (d : Dom) (i : NodeId) : Option Content := d.nodes[i]?.map (·.content)

def parent? (d : Dom) (i : NodeId) : Option NodeId := Node.parentIn d.nodes i

def children (d : Dom) (i : NodeId) : List NodeId := Node.childrenIn d.nodes i

def element? (d : Dom) (i : NodeId) : Option Element :=
  match d.content? i with
  | some (.element e) => some e
  | _ => none

def isText (d : Dom) (i : NodeId) : Bool :=
  match d.content? i with
  | some (.text _) => true
  | _ => false

def attribute? (d : Dom) (i : NodeId) (name : Text) : Option Text :=
  (d.element? i).bind fun e => e.attributes.get? name

def hasAttribute (d : Dom) (i : NodeId) (name : Text) : Bool :=
  (d.element? i).any fun e => e.attributes.contains name

def add (d : Dom) (c : Content) : Dom × NodeId :=
  (⟨d.nodes.push { content := c }, d.inStep.push c⟩, d.size)

/-- Adds an element that stands alone, with a fragment for its content if it is a template. -/
def addElement (d : Dom) (space : Namespace) (name : Text) (attributes : Attributes) :
    Dom × NodeId :=
  if space = .html ∧ name = "template".toList then
    let (d, inside) := d.add .fragment
    d.add (.element { space, name, attributes, inside := some inside })
  else d.add (.element { space, name, attributes })

def mapAttributesOf (f : Attributes → Attributes) : Content → Content
  | .element e => .element { e with attributes := f e.attributes }
  | c => c

/-- Changes the attributes of an element; any other node stays as it is. -/
def mapAttributes (d : Dom) (i : NodeId) (f : Attributes → Attributes) : Dom :=
  ⟨d.nodes.modify i fun n => { n with content := mapAttributesOf f n.content },
    d.inStep.modify i _ (fun _ => rfl) (fun _ => rfl) fun n => by
      cases n with
      | mk c _ _ => cases c <;> rfl⟩

def setAttribute (d : Dom) (i : NodeId) (name value : Text) : Dom :=
  d.mapAttributes i (·.set name value)

def eraseAttribute (d : Dom) (i : NodeId) (name : Text) : Dom := d.mapAttributes i (·.erase name)

def extendTextOf (more : Text) : Content → Content
  | .text s => .text (s ++ more)
  | c => c

def extendText (d : Dom) (i : NodeId) (more : Text) : Dom :=
  ⟨d.nodes.modify i fun n => { n with content := extendTextOf more n.content },
    d.inStep.modify i _ (fun _ => rfl) (fun _ => rfl) fun n => by
      cases n with
      | mk c _ _ => cases c <;> rfl⟩

def detach (d : Dom) (i : NodeId) : Dom := ⟨Node.unlink d.nodes i, d.inStep.unlink i⟩

/-- Makes a node a child of `p`, before `mark` if that is a child of `p` and else behind the others.
If it had a parent it is taken out there. Documents and fragments are no one's children. -/
def insert (d : Dom) (p : NodeId) (mark : Option NodeId) (i : NodeId) : Dom :=
  let nodes := Node.unlink d.nodes i
  match h : nodes[i]? with
  | none => d
  | some n =>
      if kind : n.content.isRoot = false then
        ⟨Node.link nodes p mark i,
          (d.inStep.unlink i).link p mark i (Array.getElem?_eq_some_iff.1 h).1
            (by rw [Node.parentIn_unlink, if_pos rfl])
            (fun m hm => by rw [Option.some.inj (hm.symm.trans h)]; exact kind)⟩
      else d

def append (d : Dom) (p i : NodeId) : Dom := d.insert p none i

def moveChildren (d : Dom) (source target : NodeId) : Dom :=
  (d.children source).foldl (fun d i => d.append target i) d

def removeChildren (d : Dom) (i : NodeId) : Dom := (d.children i).foldl detach d

/-- The child before `mark`, or the last one. -/
def childBefore (mark : Option NodeId) (children : List NodeId) : Option NodeId :=
  match mark with
  | none => children.getLast?
  | some m => (children.takeWhile (· ≠ m)).getLast?

/-- Puts text at a place, in the text node before it if there is one. -/
def insertText (d : Dom) (p : NodeId) (mark : Option NodeId) (s : Text) : Dom :=
  match childBefore mark (d.children p) with
  | some i =>
      if d.isText i then d.extendText i s
      else
        let (d, t) := d.add (.text s)
        d.insert p mark t
  | none =>
      let (d, t) := d.add (.text s)
      d.insert p mark t

/-- A node and all below it in document order, down to a depth. -/
def descendantsTo (d : Dom) : Nat → NodeId → List NodeId
  | 0, _ => []
  | depth + 1, i => i :: (d.children i).flatMap (d.descendantsTo depth)

/-- A node and all below it in document order. What hangs together is no deeper than the store has
nodes. -/
def descendants (d : Dom) (i : NodeId) : List NodeId := d.descendantsTo d.size i

def ancestorsTo (d : Dom) : Nat → NodeId → List NodeId
  | 0, _ => []
  | height + 1, i =>
      i :: match d.parent? i with
        | some p => d.ancestorsTo height p
        | none => []

def ancestors (d : Dom) (i : NodeId) : List NodeId := d.ancestorsTo d.size i

def textContent (d : Dom) (i : NodeId) : Text :=
  (d.descendants i).flatMap fun j =>
    match d.content? j with
    | some (.text s) => s
    | _ => []

/-- The first element at or below `i` with that identifier. -/
def findById? (d : Dom) (i : NodeId) (id : Text) : Option NodeId :=
  (d.descendants i).find? fun j => d.attribute? j "id" = some id

end Dom
end LivePage.Html
