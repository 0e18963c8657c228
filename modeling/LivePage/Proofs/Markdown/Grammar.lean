import LivePage.Markdown.Node

/-!
Which nodes stand where in a document. The parser makes trees like these: inlines stand in
paragraphs, headings, cells and other inlines, blocks in the document, in quotes, items and notes,
items in lists, and rows of cells in tables, the head first. Leaves have no children. There is no raw
HTML in such a tree.
-/

namespace LivePage.Markdown

namespace Value

/-- Inlines without children. -/
def isInlineLeaf : Value → Bool
  | text _ | softBreak | lineBreak | code _ | footnoteReference _ _ _ => true
  | _ => false

def isSpan : Value → Bool
  | emph | strong | strikethrough | superscript | subscript | underline | link _ | image _ => true
  | tildes s => s.all (· = '~')
  | _ => false

def isItem : Value → Bool
  | item | taskItem _ => true
  | _ => false

end Value

namespace Node

mutual

def isInline : Node → Bool
  | mk v _ children =>
      if v.isInlineLeaf then children.isEmpty else v.isSpan && areInlines children

def areInlines : List Node → Bool
  | [] => true
  | n :: rest => n.isInline && areInlines rest

end

def isCell : Node → Bool
  | mk .tableCell _ children => areInlines children
  | _ => false

/-- A row of cells, in the head of a table or below it. -/
def isRow (header : Bool) : Node → Bool
  | mk (.tableRow head) _ children => head = header && children.all isCell
  | _ => false

def isGrid : List Node → Bool
  | head :: rows => head.isRow true && rows.all (isRow false)
  | [] => false

mutual

def isBlock : Node → Bool
  | mk v _ children =>
      match v with
      | .paragraph => areInlines children
      | .heading level => decide (1 ≤ level ∧ level ≤ 6) && areInlines children
      | .thematicBreak => children.isEmpty
      | .codeBlock code => (code.fenced || code.info.isEmpty) && children.isEmpty
      | .blockQuote => areBlocks children
      | .list _ => areItems children
      | .table _ => isGrid children
      | _ => false

def areBlocks : List Node → Bool
  | [] => true
  | n :: rest => n.isBlock && areBlocks rest

def areItems : List Node → Bool
  | [] => true
  | mk v _ children :: rest => v.isItem && areBlocks children && areItems rest

end

def isNote : Node → Bool
  | mk (.footnoteDefinition _ _) _ children => areBlocks children
  | _ => false

def isDocument : Node → Bool
  | mk .document _ children => children.all fun n => n.isBlock || n.isNote
  | _ => false

end Node
end LivePage.Markdown
