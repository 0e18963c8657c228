import LivePage.Html.Token
import LivePage.Markdown.Footnote
import LivePage.Markdown.Inline

/-!
Parsing of a whole document: blocks, then their inlines, then footnotes. Last, texts that are
neighbours are joined; a box at the start of a list item makes it a task, and addresses of mail
become links, except inside links and images. Nulls stay in the text until the tree is finished, so
that positions count the characters of the source.
-/

namespace LivePage.Markdown

structure ParseOptions where
  blocks : BlockOptions
  inlines : InlineOptions
  deriving DecidableEq, Inhabited

/-- A text as the texts it was joined from: the last column and the number of bytes of each. -/
abbrev Parts := List (Nat × Nat)

/-- Takes `n` bytes off the front of the parts, and tells the column at which they end. -/
def Parts.take : Nat → Parts → Nat × Parts
  | n, [] => (n, [])
  | n, [(column, size)] => (column - (size - n), [(column, size - n)])
  | n, (column, size) :: rest =>
      if n < size then (column - (size - n), (column, size - n) :: rest)
      else if n = size then (column, rest)
      else Parts.take (n - size) rest

def depthAfter (depth : Int) (c : Char) : Int :=
  if c = '[' then depth + 1 else if c = ']' then depth - 1 else depth

/-- The first address of mail outside of brackets: the text in front of it, its link's address, what
is shown of it, and the text behind it. -/
def findMail? : Int → Text → Text → Option (Text × Text × Text × Text)
  | _, _, [] => none
  | depth, before, c :: s =>
      let depth' := depthAfter depth c
      if 0 < depth' || c ≠ '@' then findMail? depth' (c :: before) s
      else match mailAddress? before s with
        | some (url, name, host) =>
            some ((before.drop name.length).reverse, url, name ++ '@' :: host, s.drop host.length)
        | none => findMail? depth' (c :: before) s

def linkMails : Nat → Parts → Span → Text → List Node
  | 0, _, span, s => [textNode s span]
  | fuel + 1, parts, span, s =>
      match findMail? 0 [] s with
      | none => [textNode s span]
      | some (front, url, shown, behind) =>
          let line := span.stop.line
          let (frontEnd, parts) := Parts.take (Text.byteLength front) parts
          let (linkEnd, parts) := Parts.take (Text.byteLength shown) parts
          let frontSpan := { span with stop := { span.stop with column := frontEnd } }
          let linkSpan : Span := ⟨⟨line, frontEnd + 1⟩, ⟨line, linkEnd⟩⟩
          let link : Node := .mk (.link ⟨url, []⟩) linkSpan [textNode shown linkSpan]
          let frontNodes := if front.isEmpty then [] else [textNode front frontSpan]
          let restSpan : Span := ⟨⟨line, linkEnd + 1⟩, span.stop⟩
          let restNodes := if behind.isEmpty then [] else linkMails fuel parts restSpan behind
          frontNodes ++ link :: restNodes

/-- Joins texts that are neighbours; each comes with the parts that it was joined from. -/
def joinTexts : List Node → List (Node × Parts)
  | [] => []
  | .mk v span children :: rest =>
      match v, joinTexts rest with
      | .text s, (.mk (.text t) next _, parts) :: others =>
          let stop := { span.stop with column := next.stop.column }
          (.mk (.text (s ++ t)) { span with stop } children,
            (span.stop.column, Text.byteLength s) :: parts) :: others
      | .text s, others =>
          (.mk v span children, [(span.stop.column, Text.byteLength s)]) :: others
      | _, others => (.mk v span children, []) :: others

/-- A box at the start of a text: whether it is ticked, and the text behind it. -/
def taskBox? (s : Text) : Option (Bool × Text) :=
  match dropSpaces s with
  | '[' :: c :: ']' :: r =>
      if c = ' ' || c = 'x' || c = 'X' then
        match r with
        | [] => some (c ≠ ' ', [])
        | d :: rest => if isSpace d then some (c ≠ ' ', rest) else none
      else none
  | _ => none

mutual

/-- Joins the texts below a node and makes links of addresses of mail outside of links and images.
-/
def tidy (mail : Bool) : Node → Node
  | .mk v span children =>
      let mail := match v with
        | .link _ | .image _ => false
        | _ => mail
      .mk v span (linkTexts mail (joinTexts (tidyAll mail children)))

def tidyAll (mail : Bool) : List Node → List Node
  | [] => []
  | n :: rest => tidy mail n :: tidyAll mail rest

def linkTexts (mail : Bool) : List (Node × Parts) → List Node
  | [] => []
  | (.mk v span children, parts) :: rest =>
      let own := match v with
        | .text s =>
            if s.isEmpty then []
            else if mail then linkMails s.length parts span s
            else [Node.mk v span children]
        | _ => [Node.mk v span children]
      own ++ linkTexts mail rest

end

def joinLead (s : Text) (span : Span) : List Node → Text × Span × List Node
  | .mk (.text t) next _ :: rest =>
      joinLead (s ++ t) { span with stop := { span.stop with column := next.stop.column } } rest
  | rest => (s, span, rest)

def takeBox? (children : List Node) : Option (Bool × List Node) :=
  match children with
  | .mk (.text s) span _ :: rest =>
      let (s, span, rest) := joinLead s span rest
      (taskBox? s).map fun (done, s') =>
        let gone := Text.byteLength s - Text.byteLength s'
        let start := { span.start with column := span.start.column + gone }
        (done, textNode s' { span with start } :: rest)
  | _ => none

/-- Makes a task of an item whose first paragraph begins with a box. -/
def markTask : Node → Node
  | .mk .item span (.mk .paragraph inner children :: rest) =>
      match takeBox? children with
      | some (done, children) => .mk (.taskItem done) span (.mk .paragraph inner children :: rest)
      | none => .mk .item span (.mk .paragraph inner children :: rest)
  | n => n

mutual

def markTasks : Node → Node
  | .mk v span children =>
      let children := markTasksAll children
      match v with
      | .list _ => .mk v span (children.map markTask)
      | v => .mk v span children

def markTasksAll : List Node → List Node
  | [] => []
  | n :: rest => markTasks n :: markTasksAll rest

end

def Target.showNull (target : Target) : Target :=
  ⟨Html.replaceNull target.url, Html.replaceNull target.title⟩

def Value.showNull : Value → Value
  | .codeBlock ⟨fenced, info, literal⟩ =>
      .codeBlock ⟨fenced, Html.replaceNull info, Html.replaceNull literal⟩
  | .htmlBlock literal => .htmlBlock (Html.replaceNull literal)
  | .footnoteDefinition name references =>
      .footnoteDefinition (Html.replaceNull name) references
  | .text s => .text (Html.replaceNull s)
  | .code s => .code (Html.replaceNull s)
  | .htmlInline s => .htmlInline (Html.replaceNull s)
  | .link target => .link target.showNull
  | .image target => .image target.showNull
  | .footnoteReference name number index =>
      .footnoteReference (Html.replaceNull name) number index
  | v => v

def parse (options : ParseOptions) (s : Text) : Node :=
  let (blocks, references) := readBlocks options.blocks s
  let root := blocks.toNode options.inlines references
  let root := if options.inlines.footnotes then placeNotes root else root
  (tidy options.inlines.autolinks (markTasks root)).mapValues fun v _ => v.showNull

end LivePage.Markdown
