import LivePage.Markdown.Scan

/-!
A place in a line. Tabs end at columns that are multiples of four, and a tab may be consumed in
part; then the place stays in front of it, at a column inside it.
-/

namespace LivePage.Markdown

structure Cursor where
  rest : Text
  offset : Nat
  column : Nat
  insideTab : Bool
  deriving DecidableEq, Inhabited

namespace Cursor

def ofLine (line : Text) : Cursor := ⟨line, 0, 0, false⟩

def tabWidth (column : Nat) : Nat := 4 - column % 4

/-- Moves over columns; the rest of a tab that is wider stays ahead. -/
def advanceColumns : Nat → Cursor → Cursor
  | 0, cursor => cursor
  | n + 1, cursor =>
      match cursor.rest with
      | [] => cursor
      | '\t' :: s =>
          let width := tabWidth cursor.column
          if n + 1 < width then ⟨cursor.rest, cursor.offset, cursor.column + (n + 1), true⟩
          else advanceColumns (n + 1 - width) ⟨s, cursor.offset + 1, cursor.column + width, false⟩
      | c :: s => advanceColumns n ⟨s, cursor.offset + c.utf8Size, cursor.column + c.utf8Size, false⟩
termination_by n => n
decreasing_by
  · simp only [tabWidth]; omega
  · omega

def advanceChars : Nat → Cursor → Cursor
  | 0, cursor => cursor
  | n + 1, cursor =>
      match cursor.rest with
      | [] => cursor
      | '\t' :: s =>
          advanceChars n ⟨s, cursor.offset + 1, cursor.column + tabWidth cursor.column, false⟩
      | c :: s => advanceChars n ⟨s, cursor.offset + c.utf8Size, cursor.column + c.utf8Size, false⟩

/-- Moves to where `rest`, an end of the line, begins. -/
def advanceTo (rest : Text) (cursor : Cursor) : Cursor :=
  cursor.advanceChars (cursor.rest.length - rest.length)

def atText (cursor : Cursor) : Cursor := cursor.advanceTo (dropTabs cursor.rest)

def atEnd (cursor : Cursor) : Cursor := cursor.advanceTo []

def indent (cursor : Cursor) : Nat := cursor.atText.column - cursor.column

def isBlank (cursor : Cursor) : Bool := isBlankLine cursor.rest

def skipBlank (cursor : Cursor) : Cursor :=
  match cursor.rest with
  | c :: _ => if Text.isSpaceOrTab c then cursor.advanceColumns 1 else cursor
  | [] => cursor

def skipBlanks : Nat → Cursor → Cursor
  | 0, cursor => cursor
  | n + 1, cursor => skipBlanks n cursor.skipBlank

/-- The text ahead as content of a block: of a tab consumed in part, the columns that are left. -/
def content (cursor : Cursor) : Text :=
  match cursor.insideTab, cursor.rest with
  | true, _ :: s => List.replicate (tabWidth cursor.column) ' ' ++ s
  | _, s => s

def contentOffset (cursor : Cursor) : Nat :=
  if cursor.insideTab then cursor.offset + 1 else cursor.offset

end Cursor
end LivePage.Markdown
