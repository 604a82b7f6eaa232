import AbapLowering.Statement.Json

/-!
# Syntax trees

A source file is a tree of structures, such as a class implementation or an IF block, whose leaves
are statements. Main fact: a structure built over children spans them all (`StructureNode.spanning`).
-/

namespace AbapLowering

/-- A statement, where it stands, and its text for messages. -/
structure StatementNode where
  statement : Statement
  span : Span
  text : String
  deriving Inhabited

/-- Kinds of structures. -/
inductive StructureKind where
  | program
  | body
  | classDefinition
  | classImplementation
  | interfaceUnit
  | method
  | form
  | functionModule
  | ifBranch
  | elseIfBranch
  | elseBranch
  | doLoop
  | whileLoop
  | loop
  | caseOf
  | whenBranch
  | tryBlock
  | catchBranch
  | other
  deriving DecidableEq

namespace StructureKind

/-- All kinds. -/
def all : List StructureKind := [.program, .body, .classDefinition, .classImplementation,
  .interfaceUnit, .method, .form, .functionModule, .ifBranch, .elseIfBranch, .elseBranch, .doLoop,
  .whileLoop, .loop, .caseOf, .whenBranch, .tryBlock, .catchBranch, .other]

/-- The tag of a kind. -/
def tag : StructureKind → String
  | .program => "program"
  | .body => "body"
  | .classDefinition => "class_definition"
  | .classImplementation => "class_implementation"
  | .interfaceUnit => "interface"
  | .method => "method"
  | .form => "form"
  | .functionModule => "function_module"
  | .ifBranch => "if"
  | .elseIfBranch => "else_if"
  | .elseBranch => "else"
  | .doLoop => "do"
  | .whileLoop => "while"
  | .loop => "loop"
  | .caseOf => "case"
  | .whenBranch => "when"
  | .tryBlock => "try"
  | .catchBranch => "catch"
  | .other => "other"

instance : Codec StructureKind := .ofNames all tag

end StructureKind

mutual

/-- A node of a syntax tree. -/
inductive Node where
  | branch (node : StructureNode)
  | leaf (node : StatementNode)

/-- A structure with its children in order. -/
structure StructureNode where
  kind : StructureKind
  children : List Node
  span : Span

end

instance : Inhabited Node := ⟨.leaf default⟩
instance : Inhabited StructureNode := ⟨⟨.other, [], default⟩⟩

namespace Node

/-- Where a node stands. -/
def span : Node → Span
  | .branch node => node.span
  | .leaf node => node.span

/-- The statement, if the node is one. -/
def statement? : Node → Option StatementNode
  | .branch _ => none
  | .leaf node => some node

end Node

namespace StructureNode

/-- The smallest span around some nodes, and the very first position for none. -/
def spanOf : List Node → Span
  | [] => default
  | child :: rest => rest.foldl (fun span node => span.merge node.span) child.span

/-- The structure of some children, spanning them all. -/
def spanning (kind : StructureKind) (children : List Node) : StructureNode :=
  ⟨kind, children, spanOf children⟩

/-- The statements among the children, in order. -/
def statements (node : StructureNode) : List StatementNode :=
  node.children.filterMap Node.statement?

/-- The first statement among the children. -/
def firstStatement? (node : StructureNode) : Option StatementNode :=
  node.statements.head?

end StructureNode

mutual

/-- Every statement below a structure, depth first. -/
def StructureNode.allStatements : StructureNode → List StatementNode
  | ⟨_, children, _⟩ => allStatementsOf children

/-- Every statement below some nodes, depth first. -/
def allStatementsOf : List Node → List StatementNode
  | [] => []
  | node :: rest => node.allStatements ++ allStatementsOf rest

/-- Every statement at or below a node, depth first. -/
def Node.allStatements : Node → List StatementNode
  | .branch node => node.allStatements
  | .leaf node => [node]

end

theorem StructureNode.allStatements_eq (node : StructureNode) :
    node.allStatements = allStatementsOf node.children := by
  cases node
  rw [StructureNode.allStatements]

/-- The statements of a structure are among those below it. -/
theorem mem_allStatementsOf {node : StatementNode} {nodes : List Node}
    (h : node ∈ nodes.filterMap Node.statement?) : node ∈ allStatementsOf nodes := by
  induction nodes with
  | nil => cases h
  | cons first rest ih =>
    rw [allStatementsOf, List.mem_append]
    cases first with
    | leaf first =>
      have hmem : node ∈ first :: rest.filterMap Node.statement? := h
      rcases List.mem_cons.mp hmem with rfl | h
      · exact .inl List.mem_cons_self
      · exact .inr (ih h)
    | branch first =>
      exact .inr (ih h)

/-! ## JSON form -/

namespace StatementNode

/-- The fields of a statement node. -/
def fields (node : StatementNode) : List (String × Json) :=
  [("statement", encode node.statement), ("span", encode node.span), ("text", encode node.text)]

/-- The statement node whose fields an object holds. -/
def ofJson? (j : Json) : Option StatementNode := do
  some {
    statement := ← j.get "statement"
    span := ← j.get "span"
    text := ← j.getD "text" "" }

end StatementNode

mutual

/-- The fields of a structure. -/
def StructureNode.fields : StructureNode → List (String × Json)
  | ⟨kind, children, span⟩ =>
    [("kind", encode kind), ("children", .arr (nodesToJson children)), ("span", encode span)]

/-- Nodes as JSON. -/
def nodesToJson : List Node → List Json
  | [] => []
  | node :: rest => node.toJson :: nodesToJson rest

/-- A node as JSON: the fields of what it is, and field `node` to say which. -/
def Node.toJson : Node → Json
  | .branch node => .tagged "node" "structure" node.fields
  | .leaf node => .tagged "node" "statement" node.fields

end

/-- The node that a JSON value stands for. -/
def Node.ofJson? (j : Json) : Option Node := do
  match ← j.tag? "node" with
  | "structure" =>
    some (.branch {
      kind := ← j.get "kind"
      children := ← j.defaulted "children" [] fun v _ => v.items? fun w _ => ofJson? w
      span := ← j.get "span" })
  | "statement" => (StatementNode.ofJson? j).map .leaf
  | _ => none
termination_by sizeOf j
decreasing_by all_goals omega

instance : Codec Node := ⟨Node.toJson, Node.ofJson?⟩

instance : Codec StructureNode where
  encode node := .obj node.fields
  decode? j := do
    some {
      kind := ← j.get "kind"
      children := ← j.getD "children" []
      span := ← j.get "span" }

end AbapLowering
