import LivePage.Json.Basic

/-!
The tables of a document. A header declares a table once; it may follow headers of tables inside it,
which imply it, but not dotted keys that made it. Dotted keys reach only into tables that they made.
A header in double brackets adds a table to a list, and later paths lead into the last one.
-/

namespace LivePage.Toml

inductive TableKind where
  | implied
  | dotted
  | declared
  deriving DecidableEq, Inhabited

inductive Item where
  | value (v : Json)
  | table (kind : TableKind) (items : List (Text × Item))
  | tables (items : List (List (Text × Item)))
  deriving Inhabited

abbrev Items := List (Text × Item)

namespace Items

def get? (items : Items) (key : Text) : Option Item :=
  (items.find? fun p => p.1 = key).map Prod.snd

def put (items : Items) (key : Text) (item : Item) : Items :=
  if items.any (fun p => p.1 = key) then
    items.map fun p => if p.1 = key then (key, item) else p
  else items ++ [(key, item)]

/-- Changes the table at a path. Tables that are missing are made, by dotted keys or by a header. -/
def change (dotted : Bool) (f : TableKind → Items → Option Items) :
    List Text → TableKind → Items → Option Items
  | [], kind, items => f kind items
  | key :: path, _, items =>
      match items.get? key with
      | none =>
          let kind : TableKind := if dotted then .dotted else .implied
          (change dotted f path kind []).map fun inner => items.put key (.table kind inner)
      | some (.table kind inner) =>
          if dotted && kind = .declared then none
          else (change dotted f path kind inner).map fun inner => items.put key (.table kind inner)
      | some (.tables (last :: others)) =>
          (change dotted f path .declared last).map fun last =>
            items.put key (.tables (last :: others))
      | some _ => none

/-- Writes a value under a new key. A key of its own belongs to a table that was declared, and the
last part of a dotted key to one that dotted keys made. -/
def add (path : List Text) (key : Text) (v : Json) (kind : TableKind) (items : Items) :
    Option Items :=
  let insert (kind : TableKind) (items : Items) : Option Items :=
    if (kind = .dotted) = path.isEmpty || (items.get? key).isSome then none
    else some (items.put key (.value v))
  change true insert path kind items

def declare (key : Text) (_ : TableKind) (items : Items) : Option Items :=
  match items.get? key with
  | none => some (items.put key (.table .declared []))
  | some (.table .implied inner) => some (items.put key (.table .declared inner))
  | some _ => none

def extend (key : Text) (_ : TableKind) (items : Items) : Option Items :=
  match items.get? key with
  | none => some (items.put key (.tables [[]]))
  | some (.tables others) => some (items.put key (.tables ([] :: others)))
  | some _ => none

end Items

def sortFields (fields : Json.Fields) : Json.Fields :=
  fields.mergeSort fun p q => !Text.lt q.1 p.1

mutual

def Item.toJson : Item → Json
  | .value v => v
  | .table _ items => .object (sortFields (fieldsOf items))
  | .tables items => .array (objectsOf items).reverse

def fieldsOf : List (Text × Item) → Json.Fields
  | [] => []
  | (key, item) :: rest => (key, item.toJson) :: fieldsOf rest

def objectsOf : List (List (Text × Item)) → List Json
  | [] => []
  | items :: rest => .object (sortFields (fieldsOf items)) :: objectsOf rest

end

end LivePage.Toml
