import LivePage.Toml.Scalar
import LivePage.Toml.Table

/-!
Reading a TOML document as a JSON value: tables are objects with their keys in order, and a date or
time is an object of its own.
-/

namespace LivePage.Toml

def skipBlanks (s : Text) : Text := s.dropWhile isBlank

/-- Drops a comment, if one stands here; nothing if it has a forbidden character. -/
def afterComment? (s : Text) : Option Text :=
  match s with
  | '#' :: r =>
      let comment := r.takeWhile fun c => c ≠ '\n'
      let rest := r.dropWhile fun c => c ≠ '\n'
      let body := match comment.reverse, rest with
        | '\r' :: b, '\n' :: _ => b.reverse
        | _, _ => comment
      if body.any isForbidden then none else some rest
  | _ => some s

/-- Drops blanks and a comment, and the line break behind them; nothing if anything else follows. -/
def endLine? (s : Text) : Option Text :=
  match afterComment? (skipBlanks s) with
  | some [] => some []
  | some r => afterBreak? r
  | none => none

def skipLines : Nat → Text → Option Text
  | 0, s => some s
  | n + 1, s =>
      match afterComment? (skipBlanks s) with
      | none => none
      | some r =>
          match afterBreak? r with
          | some r => skipLines n r
          | none => some r

def skipFiller (s : Text) : Option Text := skipLines (s.length + 1) s

def readSimpleKey (s : Text) : Read Text :=
  match s with
  | '\x22' :: '\x22' :: '\x22' :: _ => none
  | '\x27' :: '\x27' :: '\x27' :: _ => none
  | '\x22' :: _ | '\x27' :: _ => readString s
  | _ =>
      let key := s.takeWhile isBareKey
      if key.isEmpty then none else some (key, s.dropWhile isBareKey)

def readKey : Nat → Text → Read (List Text)
  | 0, _ => none
  | n + 1, s =>
      match readSimpleKey (skipBlanks s) with
      | none => none
      | some (key, r) =>
          match skipBlanks r with
          | '.' :: r => (readKey n r).map fun (path, r) => (key :: path, r)
          | r => some ([key], r)

def readKeyOf (s : Text) : Read (List Text) := readKey (s.length + 1) s

def nestingLimit : Nat := 80

mutual

/-- A value; `depth` more may be nested, and `n` bounds the number of steps. -/
def readValue (depth : Nat) : Nat → Text → Read Json
  | 0, _ => none
  | n + 1, s =>
      match s with
      | '\x22' :: _ | '\x27' :: _ => (readString s).map fun (t, r) => (.string t, r)
      | '[' :: r =>
          match depth with
          | 0 => none
          | depth + 1 => readItems depth n [] r
      | '\x7b' :: r =>
          match depth with
          | 0 => none
          | depth + 1 => readFields depth n [] r
      | _ =>
          let (word, r) := readWord s
          (word? word).map fun v => (v, r)

/-- The items of an array up to its end; `seen` is kept with the last one first. -/
def readItems (depth : Nat) : Nat → List Json → Text → Read Json
  | 0, _, _ => none
  | n + 1, seen, s =>
      match skipFiller s with
      | none => none
      | some (']' :: r) => some (.array seen.reverse, r)
      | some r =>
          match readValue depth n r with
          | none => none
          | some (v, r) =>
              match skipFiller r with
              | some (',' :: r) => readItems depth n (v :: seen) r
              | some (']' :: r) => some (.array (v :: seen).reverse, r)
              | _ => none

def readFields (depth : Nat) : Nat → Items → Text → Read Json
  | 0, _, _ => none
  | n + 1, seen, s =>
      match skipFiller s with
      | none => none
      | some ('\x7d' :: r) => some ((Item.table .declared seen).toJson, r)
      | some r =>
          match readField depth n seen r with
          | none => none
          | some (seen, r) =>
              match skipFiller r with
              | some (',' :: r) => readFields depth n seen r
              | some ('\x7d' :: r) => some ((Item.table .declared seen).toJson, r)
              | _ => none

def readField (depth : Nat) : Nat → Items → Text → Read Items
  | 0, _, _ => none
  | n + 1, items, s =>
      match readKeyOf s with
      | some (path, '=' :: r) =>
          match readValue depth n (skipBlanks r) with
          | some (v, r) =>
              (Items.add path.dropLast (path.getLastD []) v .declared items).map
                fun items => (items, r)
          | none => none
      | _ => none

end

/-- The document read so far, and the path of the table that keys go into. -/
structure Reading where
  root : Items := []
  table : List Text := []
  deriving Inhabited

namespace Reading

def open? (d : Reading) (isList : Bool) (path : List Text) : Option Reading :=
  let start := if isList then Items.extend else Items.declare
  (Items.change false (start (path.getLastD [])) path.dropLast .declared d.root).map fun root =>
    ⟨root, path⟩

def write? (d : Reading) (path : List Text) (v : Json) : Option Reading :=
  let add := Items.add path.dropLast (path.getLastD []) v
  (Items.change false add d.table .declared d.root).map fun root => { d with root }

def header? (d : Reading) (s : Text) : Read Reading :=
  match s with
  | '[' :: r =>
      match readKeyOf r with
      | some (path, ']' :: ']' :: r) => (d.open? true path).map fun d => (d, r)
      | _ => none
  | _ =>
      match readKeyOf s with
      | some (path, ']' :: r) => (d.open? false path).map fun d => (d, r)
      | _ => none

def pair? (d : Reading) (s : Text) : Read Reading :=
  match readKeyOf s with
  | some (path, '=' :: r) =>
      match readValue nestingLimit (2 * r.length + 4) (skipBlanks r) with
      | some (v, r) => (d.write? path v).map fun d => (d, r)
      | none => none
  | _ => none

/-- Reads at most so many lines. -/
def lines? (d : Reading) : Nat → Text → Option Reading
  | 0, _ => none
  | n + 1, s =>
      match skipFiller s with
      | none => none
      | some [] => some d
      | some r =>
          let statement := match r with
            | '[' :: r => d.header? r
            | _ => d.pair? r
          match statement with
          | none => none
          | some (d, r) =>
              match endLine? r with
              | some r => lines? d n r
              | none => none

end Reading

/-- Reads a document; a byte order mark may stand in front. -/
def parse? (s : Text) : Option Json :=
  let s := match s with
    | '\ufeff' :: r => r
    | _ => s
  (Reading.lines? {} (s.length + 1) s).map fun d => (Item.table .declared d.root).toJson

end LivePage.Toml
