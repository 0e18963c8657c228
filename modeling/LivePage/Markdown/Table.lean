import LivePage.Markdown.Scan

/-!
Rows of tables. A row is split into cells at the bars that no backslash precedes; outer bars and the
blanks around a cell do not belong to it. In several lines only the last can be a row, and the lines
in front of it are a paragraph of their own.
-/

namespace LivePage.Markdown

/-- A cell, with the number of bytes of its row in front of it. -/
structure Cell where
  content : Text
  offset : Nat
  deriving DecidableEq, Inhabited

/-- The cells of a row, which begins after `lead` characters, `leadBytes` bytes. -/
structure Row where
  lead : Nat
  leadBytes : Nat
  cells : List Cell
  deriving DecidableEq, Inhabited

def isRowSpace (c : Char) : Bool := c = ' ' || c = '\t' || c = '\x0b' || c = '\x0c'

/-- Whether a line can stand under the head of a table: hyphens in each column, with colons at their
ends for the alignment. -/
def isDelimiterRow (s : Text) : Bool :=
  let isColumn (part : Text) : Bool :=
    let part := Text.trim isRowSpace part
    let part := if part.head? = some ':' then part.drop 1 else part
    let part := if part.getLast? = some ':' then part.dropLast else part
    !part.isEmpty && part.all fun c => c = '-'
  let inner := if s.head? = some '|' then s.drop 1 else s
  let parts := Text.split (fun c => c = '|') inner
  let parts := match parts.getLast? with
    | some last => if 2 ≤ parts.length && last.all isRowSpace then parts.dropLast else parts
    | none => parts
  parts.all isColumn

def alignmentOf (cell : Text) : Alignment :=
  if cell.head? = some ':' then
    if cell.getLast? = some ':' then .center else .left
  else if cell.getLast? = some ':' then .right
  else .none

/-- The content of a cell, up to a bar that no backslash precedes or to the end of its line. -/
def cellText : Bool → Text → Text
  | _, [] => []
  | escaped, c :: s =>
      if c = '\n' || (c = '|' && !escaped) then [] else c :: cellText (c = '\\') s

def unescapeBars : Text → Text
  | [] => []
  | '\\' :: '|' :: s => '|' :: unescapeBars s
  | c :: s => c :: unescapeBars s

def dropBar (s : Text) : Text :=
  match s with
  | '|' :: r => r.dropWhile isRowSpace
  | s => s

/-- Reads cells, of which `found` holds those of the current line in reverse. `whole` and `bytes`
are the sizes of the text in front of `s`. -/
def readCells (lead leadBytes : Nat) : Nat → List Cell → Nat → Nat → Text → Option Row
  | 0, _, _, _, _ => none
  | fuel + 1, found, whole, bytes, s =>
      match s with
      | [] => if found.isEmpty then none else some ⟨lead, leadBytes, found.reverse⟩
      | _ =>
          let content := cellText false s
          let afterCell := s.drop content.length
          let afterBar := dropBar afterCell
          let barred := afterBar.length ≠ afterCell.length
          let found :=
            if content.isEmpty && !barred then found
            else ⟨Text.trim isSpace (unescapeBars content), bytes - leadBytes⟩ :: found
          let readTo (rest : Text) : Nat × Nat :=
            (whole + (s.length - rest.length),
              bytes + Text.byteLength (s.take (s.length - rest.length)))
          if barred then
            let (whole, bytes) := readTo afterBar
            readCells lead leadBytes fuel found whole bytes afterBar
          else match afterCell.dropWhile isRowSpace with
            | '\n' :: rest =>
                let (whole, bytes) := readTo rest
                if rest.isEmpty then
                  if found.isEmpty then none else some ⟨lead, leadBytes, found.reverse⟩
                else
                  let inner := dropBar rest
                  let skipped := rest.length - inner.length
                  readCells whole bytes fuel [] (whole + skipped) (bytes + skipped) inner
            | _ => none

def row? (s : Text) : Option Row :=
  let inner := dropBar s
  let skipped := s.length - inner.length
  readCells 0 0 (s.length + 1) [] skipped skipped inner

end LivePage.Markdown
