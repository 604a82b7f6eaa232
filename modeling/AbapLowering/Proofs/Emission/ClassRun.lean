import AbapLowering.Proofs.Code.Linewise
import AbapLowering.Proofs.Emission.Outcome

/-!
# The run of a class implementation

Nodes are emitted one after the other, each in the state that the one before leaves (`EmitsEach`). The
methods of a class stand among its children or below a structure of their own, whose code is that of
its children (`memberNodes`). So the code of a class is that of its header, of a constructor if one is
inserted there, of the nodes around it and of the static part (`ClassRun`). If no two statements have
one span, every class that is emitted has such a run (`StructureNode.exists_classRun`).
-/

namespace AbapLowering

/-! ## Nodes one after the other -/

/-- A node that is emitted, its code, and the states before and after. -/
structure EmittedNode where
  node : Node
  start : EmissionState
  code : Code
  stop : EmissionState

/-- Nodes that are emitted one after the other, each in the state that the one before leaves. -/
inductive EmitsEach (context : Context) : EmissionState → List EmittedNode → EmissionState → Prop
  | nil (s : EmissionState) : EmitsEach context s [] s
  | cons {node : Node} {s t s' : EmissionState} {code : Code} {rest : List EmittedNode} :
    node.emit context s = .ok code t → EmitsEach context t rest s' →
    EmitsEach context s (⟨node, s, code, t⟩ :: rest) s'

/-- The code of nodes, one after the other. -/
def codeOf : List EmittedNode → Code
  | [] => .empty
  | piece :: rest => piece.code ++ codeOf rest

/-- The code of pieces behind others. -/
theorem codeOf_append (pieces others : List EmittedNode) :
    codeOf (pieces ++ others) = codeOf pieces ++ codeOf others := by
  induction pieces with
  | nil => rfl
  | cons piece rest ih => rw [List.cons_append, codeOf, codeOf, ih, Code.append_assoc]

namespace EmitsEach

variable {context : Context} {s t s' : EmissionState} {pieces others : List EmittedNode}

/-- One run after another. -/
theorem append (h : EmitsEach context s pieces t) (hothers : EmitsEach context t others s') :
    EmitsEach context s (pieces ++ others) s' := by
  induction h with
  | nil => exact hothers
  | cons hfirst _ ih => exact .cons hfirst (ih hothers)

/-- Each piece is emitted from its state to its state. -/
theorem emit_of_mem (h : EmitsEach context s pieces s') {piece : EmittedNode}
    (hmem : piece ∈ pieces) : piece.node.emit context piece.start = .ok piece.code piece.stop := by
  induction h with
  | nil => cases hmem
  | cons hfirst _ ih =>
    rcases List.mem_cons.mp hmem with rfl | hmem
    · exact hfirst
    · exact ih hmem

end EmitsEach

variable {context : Context} {s s' : EmissionState} {code : Code}

/-- The code of nodes falls into the pieces of each. -/
theorem exists_of_emitNodes {nodes : List Node} (h : emitNodes nodes context s = .ok code s') :
    ∃ pieces, pieces.map (·.node) = nodes ∧ EmitsEach context s pieces s' ∧
      codeOf pieces = code := by
  induction nodes generalizing s code with
  | nil =>
    cases h
    exact ⟨[], rfl, .nil _, rfl⟩
  | cons node rest ih =>
    rw [emitNodes] at h
    obtain ⟨first, t, hfirst, h⟩ := Emit.bind_eq_ok h
    obtain ⟨others, t', hothers, h⟩ := Emit.bind_eq_ok h
    cases h
    obtain ⟨pieces, hnodes, hpieces, rfl⟩ := ih hothers
    exact ⟨⟨node, s, first, t⟩ :: pieces, by rw [List.map_cons, hnodes], .cons hfirst hpieces, rfl⟩

/-! ## Where methods stand -/

/-- What a node of a class stands for: its children if it is a method structure, or else itself. -/
def Node.spread : Node → List Node
  | .branch ⟨.method, children, _⟩ => children
  | node => [node]

/-- The nodes of a class among which its methods stand. -/
def memberNodes (children : List Node) : List Node := children.flatMap Node.spread

/-- The code of a node falls into pieces if it only spreads its children. -/
theorem Node.exists_of_emit {node : Node} (h : node.emit context s = .ok code s') :
    ∃ pieces, pieces.map (·.node) = node.spread ∧ EmitsEach context s pieces s' ∧
      codeOf pieces = code := by
  have hsingle : ∃ pieces, pieces.map (·.node) = [node] ∧ EmitsEach context s pieces s' ∧
      codeOf pieces = code :=
    ⟨[⟨node, s, code, s'⟩], rfl, .cons h (.nil s'), Code.append_empty code⟩
  cases node with
  | leaf node => exact hsingle
  | branch node =>
    obtain ⟨kind, children, span⟩ := node
    cases kind with
    | method =>
      rw [Node.emit, StructureNode.emit.eq_def] at h
      exact exists_of_emitNodes h
    | _ => exact hsingle

theorem statements_sublist (nodes : List Node) :
    (nodes.filterMap Node.statement?).Sublist (allStatementsOf nodes) := by
  induction nodes with
  | nil => exact .refl []
  | cons node rest ih =>
    rw [allStatementsOf]
    cases node with
    | leaf node => exact ih.cons_cons node
    | branch node => exact ih.trans (List.sublist_append_right _ _)

/-- The statements among which methods stand are statements of the class, in the same order. -/
theorem statements_memberNodes_sublist (children : List Node) :
    ((memberNodes children).filterMap Node.statement?).Sublist (allStatementsOf children) := by
  induction children with
  | nil => exact .refl []
  | cons node rest ih =>
    have hspread : (node.spread.filterMap Node.statement?).Sublist node.allStatements := by
      cases node with
      | leaf node => exact .refl [node]
      | branch node =>
        obtain ⟨kind, children, span⟩ := node
        cases kind with
        | method =>
          rw [Node.allStatements, StructureNode.allStatements]
          exact statements_sublist children
        | _ => exact List.nil_sublist _
    rw [memberNodes, List.flatMap_cons, List.filterMap_append, allStatementsOf]
    exact hspread.append ih

/-! ## The body of a class -/

namespace StructureNode

variable {inserted : Option (Span × Token)}

/-- Beside the header nothing is inserted after the code of a node. -/
theorem exists_of_emitClassBody_cons {node : Node} {rest : List Node}
    (hbeside : ∀ statement, node.statement? = some statement →
      inserted.filter (fun (header, _) => statement.span == header) = none)
    (h : emitClassBody inserted (node :: rest) context s = .ok code s') :
    ∃ first t others, node.emit context s = .ok first t ∧
      emitClassBody inserted rest context t = .ok others s' ∧ first ++ others = code := by
  cases node with
  | leaf node =>
    rw [emitClassBody] at h
    obtain ⟨first, t, hfirst, h⟩ := Emit.bind_eq_ok h
    rw [hbeside node rfl] at h
    obtain ⟨none, t', hnone, h⟩ := Emit.bind_eq_ok h
    cases hnone
    obtain ⟨others, t', hothers, h⟩ := Emit.bind_eq_ok h
    cases h
    exact ⟨first, t, others, hfirst, hothers,
      congrArg (· ++ others) (Code.append_empty first).symm⟩
  | branch node =>
    rw [emitClassBody] at h
    obtain ⟨first, t, hfirst, h⟩ := Emit.bind_eq_ok h
    obtain ⟨others, t', hothers, h⟩ := Emit.bind_eq_ok h
    cases h
    exact ⟨first, t, others, hfirst, hothers, rfl⟩

/-- Beside the header the code of a class is that of its nodes. -/
theorem exists_of_emitClassBody {nodes : List Node}
    (hbeside : ∀ node ∈ nodes.filterMap Node.statement?,
      inserted.filter (fun (header, _) => node.span == header) = none)
    (h : emitClassBody inserted nodes context s = .ok code s') :
    ∃ pieces, pieces.map (·.node) = memberNodes nodes ∧ EmitsEach context s pieces s' ∧
      codeOf pieces = code := by
  induction nodes generalizing s code with
  | nil =>
    cases h
    exact ⟨[], rfl, .nil _, rfl⟩
  | cons node rest ih =>
    obtain ⟨first, t, others, hfirst, hothers, rfl⟩ := exists_of_emitClassBody_cons
      (fun statement hstatement =>
        hbeside statement (List.mem_filterMap.mpr ⟨node, List.mem_cons_self, hstatement⟩)) h
    -- none of the others is the header either
    have hrest : ∀ statement ∈ rest.filterMap Node.statement?,
        inserted.filter (fun (header, _) => statement.span == header) = none := by
      intro statement hmem
      obtain ⟨other, hother, hstatement⟩ := List.mem_filterMap.mp hmem
      exact hbeside statement
        (List.mem_filterMap.mpr ⟨other, List.mem_cons_of_mem _ hother, hstatement⟩)
    obtain ⟨pieces, hnodes, hpieces, rfl⟩ := Node.exists_of_emit hfirst
    obtain ⟨more, hmore, hemits, rfl⟩ := ih hrest hothers
    refine ⟨pieces ++ more, ?_, hpieces.append hemits, codeOf_append pieces more⟩
    rw [List.map_append, hnodes, hmore, memberNodes, memberNodes, List.flatMap_cons]

/-- The body of a class is emitted in two parts. -/
theorem emitClassBody_append (nodes others : List Node) :
    emitClassBody inserted (nodes ++ others) = do
      let first ← emitClassBody inserted nodes
      return first ++ (← emitClassBody inserted others) := by
  induction nodes with
  | nil =>
    rw [List.nil_append, emitClassBody, pure_bind]
    exact (bind_pure _).symm
  | cons node rest ih =>
    cases node with
    | leaf node =>
      rw [List.cons_append, emitClassBody, emitClassBody, ih]
      cases inserted.filter fun (header, _) => node.span == header with
      | none => simp only [bind_assoc, pure_bind, Code.append_assoc]
      | some header => simp only [bind_assoc, pure_bind, Code.append_assoc]
    | branch node =>
      rw [List.cons_append, emitClassBody, emitClassBody, ih]
      simp only [bind_assoc, pure_bind, Code.append_assoc]

end StructureNode

/-- The name of the method that a statement begins, if it begins one. -/
def StatementNode.method? (node : StatementNode) : Option Token :=
  match node.statement with
  | .method name => some name
  | _ => none

/-- Whether a statement begins or ends a method. -/
def StatementNode.marksMethod (node : StatementNode) : Bool :=
  match node.statement with
  | .method _ | .endMethod => true
  | _ => false

/-- Whether a statement begins a method of some name. -/
def StatementNode.startsMethod (node : StatementNode) (word : String) : Bool :=
  node.method?.any fun name => Text.sameIgnoringCase name.text word

/-- Whether a method of the class is the constructor. -/
def hasExplicit (children : List Node) : Bool :=
  (allStatementsOf children).any (·.startsMethod "constructor")

theorem StructureNode.hasConstructor_eq (kind : StructureKind) (children : List Node) (span : Span) :
    hasConstructor ⟨kind, children, span⟩ = hasExplicit children := by
  rw [hasConstructor, StructureNode.allStatements, hasExplicit]
  refine congrArg _ (funext fun node => ?_)
  obtain ⟨statement, span, text⟩ := node
  cases statement <;> rfl

/-- The constructor that is inserted for a class: one that is made, unless a method is one. -/
inductive Inserts (context : Context) (name : Token) :
    (explicit : Bool) → EmissionState → Option String → EmissionState → Prop
  | nothing (s : EmissionState) : Inserts context name true s none s
  | text {s s' : EmissionState} {text : String} :
    Members.defaultConstructor name context s = .ok text s' →
    Inserts context name false s (some text) s'

namespace Inserts

variable {name : Token} {explicit : Bool} {inserted : Option String}

/-- A constructor is inserted unless there is one. -/
theorem isSome_eq (h : Inserts context name explicit s inserted s') :
    inserted.isSome = !explicit := by
  cases h <;> rfl

/-- What is inserted is the default constructor. -/
theorem emit_of_eq_some {text : String} (h : Inserts context name explicit s inserted s')
    (hinserted : inserted = some text) :
    Members.defaultConstructor name context s = .ok text s' := by
  cases h with
  | nothing => cases hinserted
  | text h =>
    cases hinserted
    exact h

/-- Nothing is emitted where nothing is inserted. -/
theorem stop_eq (h : Inserts context name true s inserted s') : s' = s := by
  cases h
  rfl

end Inserts

/-- How a class implementation is emitted: the nodes up to its header, which is its first statement, a
constructor unless a method is one, the nodes after it, and the static part. -/
structure ClassRun (children : List Node) (context : Context) (s : EmissionState) (code : Code)
    (s' : EmissionState) where
  name : Token
  before : List EmittedNode
  header : EmittedNode
  inserted : Option String
  resumed : EmissionState
  after : List EmittedNode
  ended : EmissionState
  tail : Code
  header_eq : ∃ opening, (children.filterMap Node.statement?).head? = some opening ∧
    header.node = .leaf opening ∧ opening.statement = .classImplementation name
  nodes_eq : (before ++ header :: after).map (·.node) = memberNodes children
  emits_before : EmitsEach context s (before ++ [header]) header.stop
  inserts : Inserts context name (hasExplicit children) header.stop inserted resumed
  emits_after : EmitsEach context resumed after ended
  emits_tail : StructureNode.emitClassEnd name context ended = .ok tail s'
  code_eq : code = codeOf (before ++ [header]) ++ inserted.elim .empty (Code.tagged name.start)
    ++ codeOf after ++ tail

namespace StructureNode

/-- The opening statement of a structure comes after structures only. -/
theorem exists_of_firstStatement? {node : StructureNode} {opening : StatementNode}
    (h : node.firstStatement? = some opening) :
    ∃ earlier later, node.children = earlier ++ .leaf opening :: later ∧
      earlier.filterMap Node.statement? = [] := by
  obtain ⟨kind, children, span⟩ := node
  induction children with
  | nil => cases h
  | cons child rest ih =>
    cases child with
    | leaf child =>
      cases h
      exact ⟨[], rest, rfl, rfl⟩
    | branch child =>
      obtain ⟨earlier, later, hrest, hearlier⟩ := ih h
      exact ⟨.branch child :: earlier, later, congrArg _ hrest, hearlier⟩

/-- The class that a structure implements stands in its opening statement. -/
theorem implementedClass_eq_ok {opening : StatementNode} {name : Token}
    (h : implementedClass opening context s = .ok name s') :
    opening.statement = .classImplementation name ∧ s' = s := by
  have hcases : (∃ header, opening.statement = .classImplementation header ∧
      implementedClass opening = pure header) ∨ ∃ why, implementedClass opening = Emit.fail why := by
    unfold implementedClass
    split
    next header hheader => exact .inl ⟨header, hheader, rfl⟩
    next => exact .inr ⟨_, rfl⟩
  rcases hcases with ⟨header, hstatement, hpure⟩ | ⟨why, hfail⟩
  · rw [hpure] at h
    cases h
    exact ⟨hstatement, rfl⟩
  · rw [hfail] at h
    cases h

/-- The header, a constructor unless there is one already, and what follows. -/
theorem exists_of_emitClassBody_header {opening : StatementNode} {later : List Node} {name : Token}
    {explicit : Bool}
    (h : emitClassBody (if explicit then none else some (opening.span, name))
      (.leaf opening :: later) context s = .ok code s') :
    ∃ line t inserted resumed rest, opening.emitLine context s = .ok line t ∧
      Inserts context name explicit t inserted resumed ∧
      emitClassBody (if explicit then none else some (opening.span, name)) later context resumed =
        .ok rest s' ∧
      code = line ++ inserted.elim .empty (Code.tagged name.start) ++ rest := by
  rw [emitClassBody] at h
  obtain ⟨line, t, hline, h⟩ := Emit.bind_eq_ok h
  -- where a constructor is written, none is put in behind the header
  cases explicit with
  | true =>
    obtain ⟨part, t₁, hpart, h⟩ := Emit.bind_eq_ok h
    cases hpart
    obtain ⟨rest, t', hrest, h⟩ := Emit.bind_eq_ok h
    cases h
    exact ⟨line, t, none, t, rest, hline, .nothing t, hrest, rfl⟩
  | false =>
    rw [if_neg Bool.false_ne_true, Option.filter_some, if_pos (beq_self_eq_true _)] at h
    obtain ⟨text, resumed, htext, h⟩ := Emit.bind_eq_ok h
    obtain ⟨part, t₁, hpart, h⟩ := Emit.bind_eq_ok h
    cases hpart
    obtain ⟨rest, t', hrest, h⟩ := Emit.bind_eq_ok h
    cases h
    exact ⟨line, t, some text, resumed, rest, hline, .text htext, hrest, rfl⟩

/-- Every class that is emitted has a run. -/
theorem exists_classRun {children : List Node} {span : Span}
    (h : StructureNode.emit ⟨.classImplementation, children, span⟩ context s = .ok code s')
    (hspans : ((allStatementsOf children).map (·.span)).Nodup) :
    Nonempty (ClassRun children context s code s') := by
  rw [StructureNode.emit.eq_def] at h
  obtain ⟨opening, t, hopening, h⟩ := Emit.bind_eq_ok h
  obtain ⟨hfirst, hstart⟩ := opening_eq_ok hopening
  obtain ⟨name, u, hname, h⟩ := Emit.bind_eq_ok h
  obtain ⟨hstatement, hkept⟩ := implementedClass_eq_ok hname
  rw [hkept, hstart] at h
  obtain ⟨earlier, later, hchildren, hearlier⟩ := exists_of_firstStatement? hfirst
  dsimp only at hchildren
  subst hchildren
  -- the span of the header is that of no other statement
  have hothers : ∀ node ∈ later.filterMap Node.statement?, node.span ≠ opening.span := by
    intro node hnode heq
    have hnodup := ((statements_sublist _).map (·.span)).nodup hspans
    rw [List.filterMap_append, hearlier, List.nil_append] at hnodup
    have hheader : opening.span ∉ (later.filterMap Node.statement?).map (·.span) :=
      (List.nodup_cons.mp hnodup).1
    exact hheader (List.mem_map.mpr ⟨node, hnode, heq⟩)
  dsimp only at h
  rw [hasConstructor_eq] at h
  obtain ⟨body, ended, hbody, h⟩ := Emit.bind_eq_ok h
  obtain ⟨tail, _, htail, h⟩ := Emit.bind_eq_ok h
  cases h
  rw [emitClassBody_append] at hbody
  obtain ⟨first, t₁, hbefore, hbody⟩ := Emit.bind_eq_ok hbody
  obtain ⟨rest, t₂, hrest, hbody⟩ := Emit.bind_eq_ok hbody
  cases hbody
  obtain ⟨before, hbeforeNodes, hearlierEach, rfl⟩ :=
    exists_of_emitClassBody (by
      rw [hearlier]
      exact fun _ hnode => absurd hnode List.not_mem_nil) hbefore
  obtain ⟨line, t₃, inserted, resumed, others, hline, hinserts, hafter, rfl⟩ :=
    exists_of_emitClassBody_header hrest
  obtain ⟨after, hafterNodes, hlaterEach, rfl⟩ := exists_of_emitClassBody (by
    intro node hnode
    split
    · rfl
    · simp [hothers node hnode]) hafter
  refine ⟨⟨name, before, ⟨.leaf opening, t₁, line, t₃⟩, inserted, resumed, after, ended, tail,
    ⟨opening, hfirst, rfl, hstatement⟩, ?_, hearlierEach.append (.cons hline (.nil t₃)), hinserts,
    hlaterEach, htail, ?_⟩⟩
  · rw [List.map_append, List.map_cons, hbeforeNodes, hafterNodes, memberNodes, memberNodes,
      memberNodes, List.flatMap_append, List.flatMap_cons]
    rfl
  · rw [codeOf_append, codeOf, codeOf, Code.append_empty]
    simp only [Code.append_assoc]

end StructureNode

end AbapLowering
