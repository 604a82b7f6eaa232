import AbapLowering.Project
import AbapLowering.Proofs.Codec.Scope
import AbapLowering.Proofs.Codec.Statement

/-!
# Projects written and read

A project is read from what is written for it and from every variation of that: fields that hold
their defaults may be left out, fields of other names may be added, and fields may be reordered, in
every object at any depth (`Project.decode?_of_variation`).
-/

namespace AbapLowering

open FieldForm (required optional defaulted)

/-! ## Syntax trees -/

/-- The forms of the fields of a statement node. -/
def StatementNode.fieldForms (node : StatementNode) : List FieldForm :=
  [required "statement" (formOf node.statement), required "span" (formOf node.span),
    defaulted "text" (node.text = "") (formOf node.text)]

instance : LawfulCodec StructureKind := .ofNames _ _ (by intro kind; cases kind <;> rfl)

mutual

/-- The forms of the fields of a structure. -/
def StructureNode.fieldForms : StructureNode → List FieldForm
  | ⟨kind, children, span⟩ =>
    [required "kind" (formOf kind),
      defaulted "children" (children = []) (.list (nodeForms children)),
      required "span" (formOf span)]

/-- The forms of nodes. -/
def nodeForms : List Node → List Form
  | [] => []
  | node :: rest => node.toForm :: nodeForms rest

/-- The form of a node. -/
def Node.toForm : Node → Form
  | .branch node => .tagged "node" "structure" node.fieldForms
  | .leaf node => .tagged "node" "statement" node.fieldForms

end

/-- The fields of a structure. -/
theorem StructureNode.keys_fieldForms (node : StructureNode) :
    node.fieldForms.map FieldForm.key = ["kind", "children", "span"] := by
  cases node; rfl

mutual

/-- The fields of a structure are written as their forms. -/
theorem StructureNode.write_fieldForms : ∀ node : StructureNode,
    Form.jsonFields node.fieldForms = node.fields ∧ Form.FieldsDistinct node.fieldForms
  | ⟨_, children, _⟩ => by
    simp [StructureNode.fieldForms, StructureNode.fields, write_nodeForms children]

/-- Nodes are written one by one. -/
theorem write_nodeForms : ∀ nodes : List Node,
    Form.ItemsWrite (nodeForms nodes) (nodesToJson nodes)
  | [] => ⟨rfl, trivial⟩
  | node :: rest => by
    simp [nodeForms, nodesToJson, node.writes_toForm, write_nodeForms rest]

theorem Node.writes_toForm : ∀ node : Node, node.toForm.Writes node.toJson
  | .branch node => by
    simp [Node.toForm, Node.toJson, node.write_fieldForms, node.keys_fieldForms]
  | .leaf node => by
    simp [Node.toForm, Node.toJson, StatementNode.fieldForms, StatementNode.fields]

end

/-- The fields of a statement stand beside those of its node. -/
theorem StatementNode.ofJson?_of_fieldsVary {node : StatementNode}
    {members : List (String × Json)} (h : Form.FieldsVary node.fieldForms members) :
    StatementNode.ofJson? (.obj members) = some node := by
  obtain ⟨hstatement, hspan, htext, -⟩ := h
  simp [StatementNode.ofJson?, hstatement.get, hspan.get, htext.getD]

mutual

/-- A node is read from every variation of its form. -/
theorem Node.ofJson?_of_varies :
    ∀ (node : Node) {j : Json}, node.toForm.Varies j → Node.ofJson? j = some node
  | .branch ⟨_, children, _⟩, _, h => by
    obtain ⟨members, rfl, hnode, hkind, hchildren, hspan, -⟩ := h
    have hread := hchildren.defaulted fun _ hv => hv.items? fun _ => mapM_nodes children
    rw [Node.ofJson?]
    simp [hnode.tag?, hkind.get, hread, hspan.get]
  | .leaf _, _, h => by
    obtain ⟨members, rfl, hnode, hfields⟩ := h
    rw [Node.ofJson?]
    simp [hnode.tag?, StatementNode.ofJson?_of_fieldsVary hfields]

/-- Nodes are read again one by one. -/
theorem mapM_nodes : ∀ (nodes : List Node) {values : List Json},
    Form.ItemsVary (nodeForms nodes) values → values.mapM Node.ofJson? = some nodes
  | [], _, rfl => rfl
  | node :: rest, _, ⟨value, others, rfl, hvalue, hothers⟩ => by
    simp [node.ofJson?_of_varies hvalue, mapM_nodes rest hothers]

end

instance : LawfulCodec Node where
  formOf := Node.toForm
  json_formOf node := node.writes_toForm.1
  distinct_formOf node := node.writes_toForm.2
  formOf_ne_null node := by cases node <;> nofun
  decode?_of_varies := Node.ofJson?_of_varies _

theorem nodeForms_eq_map : ∀ nodes : List Node, nodeForms nodes = nodes.map formOf
  | [] => rfl
  | node :: rest => congrArg (node.toForm :: ·) (nodeForms_eq_map rest)

instance : LawfulCodec StructureNode where
  formOf node := .record node.fieldForms
  json_formOf node := by simp [encode, node.write_fieldForms]
  distinct_formOf node := by simp [node.keys_fieldForms, node.write_fieldForms]
  formOf_ne_null node := nofun
  decode?_of_varies {node _} h := by
    obtain ⟨kind, children, span⟩ := node
    obtain ⟨members, rfl, hkind, hchildren, hspan, -⟩ := h
    -- the forms of the nodes are given by recursion, those of a list are mapped over it
    rw [nodeForms_eq_map] at hchildren
    have hread := hchildren.getD (a := children)
    simp [decode?, hkind.get, hread, hspan.get]

/-! ## Units and projects -/

instance : LawfulCodec SourceUnit where
  formOf u := .record [required "filename" (formOf u.file), required "object" (formOf u.object),
    required "root" (formOf u.root), required "scopes" (formOf u.scopes)]
  json_formOf u := by simp [encode]
  distinct_formOf u := by simp
  formOf_ne_null u := nofun
  decode?_of_varies h := by
    obtain ⟨members, rfl, hfile, hobject, hroot, hscopes, -⟩ := h
    simp [decode?, hfile.get, hobject.get, hroot.get, hscopes.get]

instance : LawfulCodec Project where
  formOf p := .record [defaulted "registry" (p.registry = .empty) (formOf p.registry),
    required "units" (formOf p.units)]
  json_formOf p := by simp [encode]
  distinct_formOf p := by simp
  formOf_ne_null p := nofun
  decode?_of_varies h := by
    obtain ⟨members, rfl, hregistry, hunits, -⟩ := h
    simp [decode?, hregistry.getD, hunits.get]

namespace Project

/-- A project is read from what is written for it, and from every JSON value that varies from it:
with fields left out that hold their defaults, with fields added that no type knows, and with the
fields of its objects and the entries of its maps in any order. -/
theorem decode?_of_variation (p : Project) :
    (formOf p).json = encode p ∧ decode? (encode p) = some p ∧
      ∀ j, (formOf p).Varies j → decode? j = some p :=
  ⟨LawfulCodec.json_formOf p, LawfulCodec.decode?_encode p,
    fun _ => LawfulCodec.decode?_of_varies⟩

/-- The statement `WRITE 'a'.`, without its text. -/
def writing : StatementNode :=
  ⟨.write (.constant (.text "a")) false, ⟨⟨1, 1⟩, ⟨1, 10⟩⟩, ""⟩

/-- A program of one statement. -/
def writingProgram : SourceUnit where
  file := "zfoo.prog.abap"
  object := ⟨.prog, "ZFOO"⟩
  root := ⟨.program, [.leaf writing], writing.span⟩
  scopes := .single .program "zfoo" "zfoo.prog.abap" writing.span

/-- A project of that program, with its fields in another order, without the registry, the text of
the statement and whether it starts a new line, and with a version and the number of a line. -/
def writingVaried : Json :=
  .obj [("units", .arr [
      .obj [("scopes", encode writingProgram.scopes),
        ("root", .obj [
          ("children", .arr [
            .obj [("statement", .obj [("source", encode (Source.constant (.text "a"))),
                ("kind", .str "write")]),
              ("line", .int 1), ("node", .str "statement"), ("span", encode writing.span)]]),
          ("kind", .str "program"), ("span", encode writing.span)]),
        ("object", encode writingProgram.object), ("filename", .str "zfoo.prog.abap")]]),
    ("version", .int 2)]

/-- A project that is written in another order, with fields left out and unknown ones, is read as it
is. -/
theorem decode?_of_variation_writing :
    (formOf (⟨.empty, [writingProgram]⟩ : Project)).Varies writingVaried ∧
      decode? writingVaried = some (⟨.empty, [writingProgram]⟩ : Project) := by
  have hspan := LawfulCodec.varies_encode writing.span
  have hstatement : (formOf writing.statement).Varies
      (.obj [("source", encode (Source.constant (.text "a"))), ("kind", .str "write")]) :=
    ⟨_, rfl, .inr ⟨_, rfl, rfl⟩, .inr ⟨_, rfl, LawfulCodec.varies_encode _⟩, .inl ⟨rfl, rfl⟩,
      trivial⟩
  -- reordered, with a field that is not known and one left out
  have hroot : (formOf writingProgram.root).Varies (.obj [
      ("children", .arr [
        .obj [("statement", .obj [("source", encode (Source.constant (.text "a"))),
            ("kind", .str "write")]),
          ("line", .int 1), ("node", .str "statement"), ("span", encode writing.span)]]),
      ("kind", .str "program"), ("span", encode writing.span)]) :=
    ⟨_, rfl, .inr ⟨_, rfl, rfl⟩,
      .inr ⟨_, rfl, _, rfl, _, _, rfl,
        ⟨_, rfl, .inr ⟨_, rfl, rfl⟩, .inr ⟨_, rfl, hstatement⟩, .inr ⟨_, rfl, hspan⟩,
          .inl ⟨rfl, rfl⟩, trivial⟩, rfl⟩,
      .inr ⟨_, rfl, hspan⟩, trivial⟩
  have hvaries : (formOf (⟨.empty, [writingProgram]⟩ : Project)).Varies writingVaried :=
    ⟨_, rfl, .inl ⟨rfl, rfl⟩,
      .inr ⟨_, rfl, _, rfl, _, _, rfl,
        ⟨_, rfl, .inr ⟨_, rfl, rfl⟩, .inr ⟨_, rfl, LawfulCodec.varies_encode _⟩,
          .inr ⟨_, rfl, hroot⟩, .inr ⟨_, rfl, LawfulCodec.varies_encode _⟩, trivial⟩, rfl⟩,
      trivial⟩
  exact ⟨hvaries, (decode?_of_variation ⟨.empty, [writingProgram]⟩).2.2 _ hvaries⟩

end Project

end AbapLowering
