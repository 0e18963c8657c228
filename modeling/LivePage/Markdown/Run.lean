import LivePage.Markdown.Node

/-!
Runs of marks that may begin and end emphasis. Inline text is read into pieces: finished nodes,
runs, and brackets that may open a link. Runs are matched from left to right: a run that can close
looks back for the nearest run of its mark that can open, and what lies between becomes one node.
-/

namespace LivePage.Markdown

/-- A run of one mark. `shown` is its text as far as it is not used up; `length` is the number of
bytes it had at first, and `position` the place behind it in its block. -/
structure Run where
  mark : Char
  shown : Text
  length : Nat
  canOpen : Bool
  canClose : Bool
  position : Nat
  span : Span
  deriving Inhabited

/-- A bracket that may open a link or an image, and the text behind it. -/
structure Bracket where
  image : Bool
  followed : Bool
  behind : Text
  span : Span
  deriving Inhabited

inductive Piece where
  | node (n : Node)
  | run (r : Run)
  | bracket (b : Bracket)
  deriving Inhabited

def textNode (s : Text) (span : Span) : Node := .mk (.text s) span []

/-- A piece that has not become anything else stands for its text. -/
def Piece.toNode : Piece → Node
  | node n => n
  | run r => textNode r.shown r.span
  | bracket b => textNode (if b.image then "![" else "[") b.span

def Piece.text? : Piece → Option Text
  | node n => n.text?
  | run r => some r.shown
  | bracket b => some (if b.image then "![" else "[")

/-- Which marks make which nodes. -/
structure EmphasisOptions where
  strikethrough : Bool
  deriving DecidableEq, Inhabited

namespace Run

def isQuoteMark (r : Run) : Bool := r.mark = '\x22' || r.mark = '\x27'

/-- The lengths of two runs forbid a match: one of them can both open and close, and the sum is a
multiple of three, but not both are. -/
def lengthsClash (opener closer : Run) : Bool :=
  (closer.canOpen || opener.canClose) && (opener.length + closer.length) % 3 = 0 &&
    !(opener.length % 3 = 0 && closer.length % 3 = 0)

def searchClass (r : Run) : Char × Nat :=
  if r.mark = '*' then (r.mark, r.length % 3 + (if r.canOpen then 3 else 0)) else (r.mark, 0)

/-- Takes `n` marks off the end. -/
def dropLast (r : Run) (n : Nat) : Run :=
  { r with
    shown := r.shown.take (r.shown.length - n)
    span := { r.span with stop := { r.span.stop with column := r.span.stop.column - n } } }

/-- Takes `n` marks off the start. -/
def dropFirst (r : Run) (n : Nat) : Run :=
  { r with
    shown := r.shown.drop n
    span := { r.span with start := { r.span.start with column := r.span.start.column + n } } }

/-- The node that `n` marks on either side make. -/
def value (options : EmphasisOptions) (r : Run) (n : Nat) : Value :=
  if r.mark = '~' then
    if n = 1 then .subscript
    else if options.strikethrough then .strikethrough
    else .tildes "~~"
  else if r.mark = '^' then .superscript
  else if n = 1 then .emph
  else .strong

end Run

/-- For each class of closers, the position from which on openers are worth a look. -/
abbrev SearchStarts := List ((Char × Nat) × Nat)

def SearchStarts.from (starts : SearchStarts) (r : Run) : Nat :=
  (starts.lookup r.searchClass).getD 0

def SearchStarts.set (starts : SearchStarts) (r : Run) : SearchStarts :=
  (r.searchClass, r.position) :: starts

/-- Looks back for the opener of a closer: the pieces between the two, latest first, the opener, and
the pieces in front of it. Without one, it is told whether lengths alone stood in the way. -/
def findOpener (from' : Nat) (closer : Run) :
    List Piece → Bool → List Piece → Except Bool (List Piece × Run × List Piece)
  | _, clashed, [] => .error clashed
  | between, clashed, .run r :: before =>
      if r.position < from' then .error clashed
      else if r.canOpen && r.mark = closer.mark then
        if r.lengthsClash closer then findOpener from' closer (.run r :: between) true before
        else .ok (between.reverse, r, before)
      else findOpener from' closer (.run r :: between) clashed before
  | between, clashed, piece :: before => findOpener from' closer (piece :: between) clashed before

def settle (pieces : List Piece) : List Piece := pieces.map fun p => .node p.toNode

def closingQuote (r : Run) : Run := { r with shown := if r.mark = '\x27' then ['’'] else ['”'] }

def openingQuote (r : Run) : Run := { r with shown := if r.mark = '\x27' then ['‘'] else ['“'] }

/-- Matches the runs of `ahead`; `done` holds the pieces in front of them, latest first. The nodes
come out latest first. -/
def matchRuns (options : EmphasisOptions) :
    Nat → SearchStarts → List Piece → List Piece → List Piece
  | 0, _, done, ahead => ahead.reverse ++ done
  | _ + 1, _, done, [] => done
  | fuel + 1, starts, done, .run closer :: ahead =>
      if !closer.canClose then matchRuns options fuel starts (.run closer :: done) ahead
      else
        match findOpener (starts.from closer) closer [] false done with
        | .error clashed =>
            let closer := if closer.isQuoteMark then closingQuote closer else closer
            let starts := if clashed then starts else starts.set closer
            let piece : Piece :=
              if closer.canOpen then .run closer else .node (textNode closer.shown closer.span)
            matchRuns options fuel starts (piece :: done) ahead
        | .ok (between, opener, before) =>
            if closer.isQuoteMark then
              let shut := closingQuote closer
              let openQuote := openingQuote opener
              matchRuns options fuel starts
                (.node (textNode shut.shown shut.span) ::
                  between ++ .node (textNode openQuote.shown openQuote.span) :: before) ahead
            else
              let used := if 2 ≤ opener.shown.length && 2 ≤ closer.shown.length then 2 else 1
              let leftOver := opener.shown.length - used
              if options.strikethrough && closer.mark = '~' &&
                  (0 < leftOver || opener.shown.length ≠ closer.shown.length) then
                ahead.reverse ++ .run closer :: done
              else
                let inner := between.reverse.map Piece.toNode
                let span : Span := ⟨opener.span.start, closer.span.stop⟩
                let made : Piece := .node (.mk (opener.value options used) span inner)
                let before := if leftOver = 0 then before else .run (opener.dropLast used) :: before
                let closer := closer.dropFirst used
                let ahead := if closer.shown.isEmpty then ahead else .run closer :: ahead
                matchRuns options fuel starts (made :: before) ahead
  | fuel + 1, starts, done, piece :: ahead => matchRuns options fuel starts (piece :: done) ahead

/-- Steps that matching takes at most: a step passes a piece or uses up a mark. -/
def matchSteps (pieces : List Piece) : Nat :=
  pieces.foldl (fun n p => n + 1 + (p.text?.getD []).length) 1

/-- The nodes that pieces stand for, once their runs are matched. -/
def matchPieces (options : EmphasisOptions) (pieces : List Piece) : List Node :=
  (matchRuns options (matchSteps pieces) [] [] pieces).reverse.map Piece.toNode

end LivePage.Markdown
