import AbapLowering.Tree

/-!
# Laying out trees

A cursor that hands out positions while a tree is put together: every statement takes one row, and
its tokens stand from left to right with one blank between them.
-/

namespace AbapLowering

/-- Row and column of the next token. -/
structure Cursor where
  row : UInt32
  col : UInt32
  deriving DecidableEq

namespace Cursor

/-- The start of a row. -/
def atRow (row : UInt32) : Cursor := ⟨row, 1⟩

/-- The very first position. -/
def start : Cursor := atRow 1

end Cursor

/-- Building with a cursor. -/
abbrev Layout := StateM Cursor

namespace Layout

/-- Hand out a token at the cursor. -/
def token (text : String) : Layout Token := do
  let cursor ← get
  set { cursor with col := cursor.col + UInt32.ofNat text.length + 1 }
  return ⟨text, cursor.row, cursor.col⟩

/-- A plain field. -/
def field (name : String) : Layout FieldChain :=
  return .ofField (← token name)

/-- A plain field symbol. -/
def fieldSymbol (name : String) : Layout FieldChain :=
  return .ofFieldSymbol (← token name)

/-- A component of a structure, `a-b-c`. -/
def componentChain (head : String) (path : List String) : Layout FieldChain := do
  let chain ← field head
  let names ← path.mapM token
  return { chain with segments := names.map .component }

/-- An attribute of an object, `ref->attr`. -/
def attributeChain (head member : String) : Layout FieldChain := do
  let chain ← field head
  let name ← token member
  return { chain with segments := [.attribute name] }

/-- A static attribute, `zcl_class=>attr`. -/
def staticChain (className member : String) : Layout FieldChain := do
  let head ← token className
  let name ← token member
  return { FieldChain.ofHead (.classRef head) with segments := [.static name] }

/-- A plain field that is read. -/
def source (name : String) : Layout Source :=
  return .field (← field name)

/-- A plain field symbol that is read. -/
def fieldSymbolSource (name : String) : Layout Source :=
  return .field (← fieldSymbol name)

/-- A field compared for equality. -/
def equal (left : String) (right : Source) : Layout Condition :=
  return .compare (← source left) .eq right

/-- A field asked whether it is initial. -/
def isInitial (name : String) (negated : Bool) : Layout Condition :=
  return .predicate (← source name) .initial negated

/-- Finish the row as a statement. It spans the row from its first column to the blank after the
last token. -/
def statementWithText (statement : Statement) (text : String) : Layout Node := do
  let cursor ← get
  set (Cursor.atRow (cursor.row + 1))
  let last := if cursor.col ≤ 2 then 1 else cursor.col - 1
  return .leaf ⟨statement, ⟨⟨cursor.row, 1⟩, ⟨cursor.row, last⟩⟩, text⟩

/-- Finish the row as a statement whose text is its name. -/
def statement (statement : Statement) : Layout Node :=
  statementWithText statement statement.name

/-- A structure over nodes. The cursor stays where it is. -/
def branch (kind : StructureKind) (children : List Node) : Layout Node :=
  return .branch (.spanning kind children)

/-- A whole tree over nodes. -/
def root (children : List Node) : Layout StructureNode :=
  return .spanning .program children

end Layout

end AbapLowering
