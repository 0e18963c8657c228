import LivePage.Text.Basic

/-!
Places in a text. A place is a line and a column, both counted from one, columns in bytes; a span
runs from its first to its last place, both included. A span covers a range of bytes of the text.
-/

namespace LivePage

structure Place where
  line : Nat
  column : Nat
  deriving DecidableEq, Inhabited

structure Span where
  start : Place
  stop : Place
  deriving DecidableEq, Inhabited

namespace Text

/-- Byte offsets at which the lines begin that lie behind `at'` bytes. -/
def lineStartsFrom (at' : Nat) : Text → List Nat
  | [] => []
  | c :: s =>
      let next := at' + c.utf8Size
      if c = '\n' then next :: lineStartsFrom next s else lineStartsFrom next s

def lineStarts (s : Text) : List Nat := 0 :: lineStartsFrom 0 s

/-- What follows the first `n` bytes, if a character ends there. -/
def dropBytes? : Nat → Text → Option Text
  | 0, s => some s
  | _ + 1, [] => none
  | n + 1, c :: s => if c.utf8Size ≤ n + 1 then dropBytes? (n + 1 - c.utf8Size) s else none

/-- The first `n` bytes, if a character ends there. -/
def takeBytes? : Nat → Text → Option Text
  | 0, _ => some []
  | _ + 1, [] => none
  | n + 1, c :: s =>
      if c.utf8Size ≤ n + 1 then (takeBytes? (n + 1 - c.utf8Size) s).map (c :: ·) else none

def slice? (s : Text) (start stop : Nat) : Option Text :=
  if start ≤ stop then (dropBytes? start s).bind (takeBytes? (stop - start)) else none

end Text

/-- The bytes that a span covers in a text with these line starts, unless there are none. -/
def Span.range? (span : Span) (starts : List Nat) : Option (Nat × Nat) :=
  if span.start.line = 0 || span.stop.line = 0 || span.start.column = 0 then none
  else
    (starts[span.start.line - 1]?).bind fun a =>
      (starts[span.stop.line - 1]?).bind fun b =>
        let first := a + (span.start.column - 1)
        let last := b + span.stop.column
        if first < last then some (first, last) else none

def Span.slice? (span : Span) (starts : List Nat) (source : Text) : Option Text :=
  (span.range? starts).bind fun r => source.slice? r.1 r.2

end LivePage
