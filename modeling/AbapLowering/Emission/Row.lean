import AbapLowering.Emission.Condition
import AbapLowering.Statement

/-!
# Rows of tables

Statements that sort internal tables and put in, change, take out or read their rows, and those that
do the same with tables of the database.
-/

namespace AbapLowering

namespace Row

/-! ## Internal tables -/

/-- A component to sort by. -/
def sortKey (key : SortKey) : String :=
  let component := "\x7bcomponent: \"" ++ Text.toLower key.component ++ "\""
  component ++ (if key.descending then ", descending: true" else "") ++ "\x7d"

/-- SORT. -/
def sort (target : FieldChain) (descending : Bool) (keys : List SortKey) : Emit String := do
  let order :=
    if keys.isEmpty then [] else ["by: [" ++ ",".intercalate (keys.map sortKey) ++ "]"]
  return runtimeCall "sort"
    ((← target.emitTarget) ++ "," ++ braced ", " (partIf descending "descending: true" ++ order))

/-- APPEND of rows to a table. -/
def appendRows (table : String) (source : Source) (lines : Bool) (assigning : Option FieldChain) :
    Emit String := do
  let value ← source.emit
  let assigning ← Emit.namedIfGiven "assigning" assigning FieldChain.emitTarget
  return runtimeCall "append" (braced ", "
    (["source: " ++ value, "target: " ++ table] ++ partIf lines "lines: true" ++ assigning))

/-- APPEND. -/
def append (source : AppendSource) (target : FieldChain) (assigning : Option FieldChain) :
    Emit String := do
  let table ← target.emitTarget
  match source with
  | .value source => appendRows table source false assigning
  | .linesOf source => appendRows table source true assigning
  | .initialLine =>
    match assigning with
    | some symbol => return (← symbol.emitTarget) ++ ".assign(" ++ table ++ ".appendInitial());"
    | none => return table ++ ".appendInitial();"

/-- What is inserted. -/
def inserted : InsertData → Emit String
  | .value source => return "data: " ++ (← source.emit)
  | .initialLine => return "initial: true"

/-- INSERT into an internal table. -/
def insert (data : InsertData) (table : FieldChain) (index : Option Source)
    (assigning : Option FieldChain) : Emit String := do
  let data ← inserted data
  let index ← Emit.namedIfGiven "index" index Source.emit
  let assigning ← Emit.namedIfGiven "assigning" assigning FieldChain.emitTarget
  let table ← Emit.named "table" table.emitTarget
  return runtimeCall "insertInternal" (braced ", " ([data] ++ index ++ assigning ++ [table]))

/-- MODIFY of an internal table. -/
def modify (table : FieldChain) (index row : Option Source) : Emit String := do
  let table ← table.emitTarget
  let index ← Emit.namedIfGiven "index" index Source.emit
  let row ← Emit.namedIfGiven "from" row Source.emit
  return runtimeCall "modifyInternal" (table ++ "," ++ braced "," (index ++ row))

/-- DELETE from an internal table. -/
def delete (table : FieldChain) (filter : Option Condition) (adjacent : Bool)
    (index row : Option Source) : Emit String := do
  let table ← table.emitTarget
  let filter ← Emit.namedIfGiven "where" filter Condition.emitRowFilter
  let index ← Emit.namedIfGiven "index" index Source.emit
  let row ← Emit.namedIfGiven "from" row Source.emit
  return runtimeCall "deleteInternal"
    (table ++ "," ++ braced "," (filter ++ partIf adjacent "adjacent: true" ++ index ++ row))

/-- READ TABLE. -/
def read (table : Source) (index : Option Source) (into referenceInto assigning : Option FieldChain)
    (withKey : Option Condition) (binarySearch : Bool) : Emit String := do
  let table ← table.emit
  let index ← Emit.namedIfGiven "index" index Source.emit
  let into ← Emit.namedIfGiven "into" into FieldChain.emitTarget
  let referenceInto ← Emit.namedIfGiven "referenceInto" referenceInto FieldChain.emitTarget
  let assigning ← Emit.namedIfGiven "assigning" assigning FieldChain.emitTarget
  let withKey ← Emit.namedIfGiven "withKey" withKey Condition.emitRowFilter
  return runtimeCall "readTable" (table ++ "," ++ braced ","
    (index ++ into ++ referenceInto ++ assigning ++ withKey
      ++ partIf binarySearch "binarySearch: true"))

/-! ## Database tables -/

/-- The limit that a query sets on its rows. -/
def limit? (single : Bool) (upTo : Option UInt32) : Option UInt32 :=
  if single then some 1 else upTo

/-- The part of a query after the table's name. -/
def querySuffix (filter : Option String) (limit : Option UInt32) : String :=
  (match filter with
    | some condition => " WHERE " ++ Literal.sql (Text.trim condition)
    | none => "")
  ++ (match limit with
    | some n => " LIMIT " ++ toString n
    | none => "")

/-- SELECT: the query is one SQL command, into which a name that is read at run time is spliced. -/
def select (target : FieldChain) (fields : String) (table : DatabaseTable) (filter : Option String)
    (single : Bool) (upTo : Option UInt32) : Emit String := do
  let target ← target.emitTarget
  let start := "SELECT " ++ Literal.sql (Text.trim fields) ++ " FROM "
  let rest := querySuffix filter (limit? single upTo)
  let query ← match table with
    | .named name => pure ("\"" ++ start ++ Text.toLower name ++ rest ++ "\"")
    | .dynamic chain => do
      let name ← chain.emit .read
      pure ("\"" ++ start ++ "\" + " ++ name ++ ".get() + \"" ++ rest ++ "\"")
  return runtimeCall "select" (target ++ ", " ++ query)

/-- The name of a database table. -/
def tableName : DatabaseTable → Emit String
  | .named name => return "\"" ++ Text.toLower name ++ "\""
  | .dynamic chain => chain.emit .read

/-- INSERT into a database table. -/
def insertDatabase (table : DatabaseTable) (values : Source) : Emit String := do
  let table ← tableName table
  return runtimeCall "insertDatabase" (table ++ ", \x7b\"values\": " ++ (← values.emit) ++ "\x7d")

/-- The runtime statement of a change. -/
def changeFunction : DatabaseChange → String
  | .modify => "modifyDatabase"
  | .update => "updateDatabase"
  | .delete => "deleteDatabase"

/-- The rows of a change. -/
def changedRows : DatabaseSource → Emit String
  | .row source => return "\"values\": " ++ (← source.emit)
  | .table source => return "\"table\": " ++ (← source.emit)

/-- MODIFY, UPDATE and DELETE of a database table. -/
def changeDatabase (change : DatabaseChange) (table : DatabaseTable) (rows : DatabaseSource) :
    Emit String := do
  let table ← tableName table
  let rows ← changedRows rows
  return runtimeCall (changeFunction change) (table ++ ", " ++ braced ", " [rows])

end Row

end AbapLowering
