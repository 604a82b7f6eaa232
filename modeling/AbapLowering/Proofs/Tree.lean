import AbapLowering.Proofs.Location
import AbapLowering.Tree
import Mathlib.Data.List.Forall2

/-!
# Spans and order of trees

A tree that is put together from statements spans all that is in it, and its statements are listed
from left to right.

- `Node.BuiltFrom`: trees over some statements, each structure with the smallest span around its
  children. All statements of such a tree are among these, and it covers them (`Node.BuiltFrom.covers`);
- `Node.At`: the way down to a statement, as the numbers of the children that are passed. The
  statements of a node are listed with their ways in lexicographic order
  (`Node.inOrder_allStatements`).
-/

namespace AbapLowering

/-! ## Spans -/

namespace StructureNode

/-- The span around nodes covers each of them. -/
theorem covers_foldl_merge (nodes : List Node) (s : Span) :
    (nodes.foldl (fun span node => span.merge node.span) s).Covers s ∧
      ∀ node ∈ nodes, (nodes.foldl (fun span node => span.merge node.span) s).Covers node.span := by
  induction nodes generalizing s with
  | nil => exact ⟨.refl s, by simp⟩
  | cons node rest ih =>
    obtain ⟨hstart, hrest⟩ := ih (s.merge node.span)
    exact ⟨hstart.trans (Span.covers_merge_left ..), List.forall_mem_cons.mpr
      ⟨hstart.trans (Span.covers_merge_right ..), hrest⟩⟩

/-- The span of some nodes covers each of them. -/
theorem covers_spanOf {nodes : List Node} {node : Node} (h : node ∈ nodes) :
    (spanOf nodes).Covers node.span := by
  cases nodes with
  | nil => cases h
  | cons first rest =>
    obtain ⟨hfirst, hrest⟩ := covers_foldl_merge rest first.span
    rcases List.mem_cons.mp h with rfl | h
    · exact hfirst
    · exact hrest node h

end StructureNode

/-- A statement is below one of the nodes. -/
theorem mem_allStatementsOf_iff {s : StatementNode} {nodes : List Node} :
    s ∈ allStatementsOf nodes ↔ ∃ node ∈ nodes, s ∈ node.allStatements := by
  induction nodes with
  | nil => simp [allStatementsOf]
  | cons node rest ih => simp [allStatementsOf, ih]

/-- A tree over some statements, in which each structure spans its children. -/
inductive Node.BuiltFrom (statements : List StatementNode) : Node → Prop
  | leaf {s : StatementNode} : s ∈ statements → BuiltFrom statements (.leaf s)
  | branch {kind : StructureKind} {children : List Node} :
    (∀ child ∈ children, child.BuiltFrom statements) →
    BuiltFrom statements (.branch (.spanning kind children))

/-- A tree over some statements has no others, and covers those it has. -/
theorem Node.BuiltFrom.covers {statements : List StatementNode} {node : Node}
    (h : node.BuiltFrom statements) :
    ∀ s ∈ node.allStatements, s ∈ statements ∧ node.span.Covers s.span := by
  induction h with
  | @leaf own hown =>
    intro s hs
    rw [allStatements, List.mem_singleton] at hs
    subst hs
    exact ⟨hown, .refl s.span⟩
  | @branch kind children _ ih =>
    intro s hs
    rw [allStatements, StructureNode.allStatements_eq] at hs
    obtain ⟨child, hchild, hs⟩ := mem_allStatementsOf_iff.mp hs
    obtain ⟨hmem, hcovers⟩ := ih child hchild s hs
    exact ⟨hmem, (StructureNode.covers_spanOf hchild).trans hcovers⟩

/-! ## Order -/

/-- The way down to a statement: in each structure the number of the child, counted from zero. -/
inductive Node.At : Node → List Nat → StatementNode → Prop
  | leaf (s : StatementNode) : At (.leaf s) [] s
  | branch {parent : StructureNode} {i : Nat} {child : Node} {path : List Nat} {s : StatementNode} :
    parent.children[i]? = some child → child.At path s → At (.branch parent) (i :: path) s

/-- Some statements are all that ways lead to, one for each way, in the order of the ways: what
stands further left comes first. -/
def InOrder (leads : List Nat → StatementNode → Prop) (statements : List StatementNode) : Prop :=
  ∃ paths : List (List Nat), paths.Pairwise (· < ·) ∧ List.Forall₂ leads paths statements ∧
    ∀ path, path ∈ paths ↔ ∃ s, leads path s

/-- The way down to a statement from some nodes, the first of which has a number. -/
def AtFrom (first : Nat) (nodes : List Node) (path : List Nat) (s : StatementNode) : Prop :=
  ∃ i child rest, nodes[i]? = some child ∧ path = (first + i) :: rest ∧ child.At rest s

theorem atFrom_cons_iff {first : Nat} {node : Node} {rest : List Node} {path : List Nat}
    {s : StatementNode} : AtFrom first (node :: rest) path s ↔
      (∃ below, path = first :: below ∧ node.At below s) ∨ AtFrom (first + 1) rest path s := by
  constructor
  · rintro ⟨i, child, below, hchild, rfl, hat⟩
    cases i with
    | zero =>
      obtain rfl := Option.some.inj hchild
      exact .inl ⟨below, rfl, hat⟩
    | succ i => exact .inr ⟨i, child, below, hchild, by rw [Nat.add_right_comm]; rfl, hat⟩
  · rintro (⟨below, rfl, hat⟩ | ⟨i, child, below, hchild, rfl, hat⟩)
    · exact ⟨0, node, below, rfl, rfl, hat⟩
    · exact ⟨i + 1, child, below, hchild, by rw [Nat.add_right_comm]; rfl, hat⟩

/-- What stands below a node comes before what stands below the nodes further right. -/
theorem InOrder.cons {first : Nat} {node : Node} {rest : List Node}
    {own others : List StatementNode} (hown : InOrder node.At own)
    (hothers : InOrder (AtFrom (first + 1) rest) others) :
    InOrder (AtFrom first (node :: rest)) (own ++ others) := by
  obtain ⟨paths, hpairwise, hleads, hall⟩ := hown
  obtain ⟨paths', hpairwise', hleads', hall'⟩ := hothers
  refine ⟨paths.map (first :: ·) ++ paths', ?_, ?_, fun path => ?_⟩
  · refine List.pairwise_append.mpr ⟨?_, hpairwise', ?_⟩
    · exact List.pairwise_map.mpr (hpairwise.imp List.cons_lt_cons_self.mpr)
    · intro path hpath path' hpath'
      obtain ⟨below, -, rfl⟩ := List.mem_map.mp hpath
      obtain ⟨_, i, child, below', -, rfl, -⟩ := (hall' path').mp hpath'
      exact .rel (by omega)
  · refine List.rel_append ?_ ?_
    · refine List.forall₂_map_left_iff.mpr (hleads.imp fun below s hat => ?_)
      exact atFrom_cons_iff.mpr (.inl ⟨below, rfl, hat⟩)
    · exact hleads'.imp fun path s hat => atFrom_cons_iff.mpr (.inr hat)
  · simp only [List.mem_append, List.mem_map, hall, hall', atFrom_cons_iff, exists_or]
    refine or_congr ⟨?_, ?_⟩ Iff.rfl
    · rintro ⟨below, ⟨s, hat⟩, rfl⟩
      exact ⟨s, below, rfl, hat⟩
    · rintro ⟨s, below, rfl, hat⟩
      exact ⟨below, ⟨s, hat⟩, rfl⟩

mutual

/-- The statements of a node are listed depth first. -/
theorem Node.inOrder_allStatements : ∀ node : Node, InOrder node.At node.allStatements
  | .leaf s => by
    refine ⟨[[]], by simp, .cons (.leaf s) .nil, fun path => ?_⟩
    rw [List.mem_singleton]
    constructor
    · rintro rfl
      exact ⟨s, .leaf s⟩
    · rintro ⟨_, ⟨⟩⟩
      rfl
  | .branch node => node.inOrder_allStatements

/-- All statements are listed in the order of their places. -/
theorem StructureNode.inOrder_allStatements : ∀ node : StructureNode,
    InOrder (Node.branch node).At node.allStatements
  | ⟨kind, children, span⟩ => by
    have hleads : (Node.branch ⟨kind, children, span⟩).At = AtFrom 0 children := by
      funext path s
      refine propext ⟨?_, ?_⟩
      · rintro (_ | ⟨hchild, hat⟩)
        exact ⟨_, _, _, hchild, by rw [Nat.zero_add], hat⟩
      · rintro ⟨i, child, rest, hchild, rfl, hat⟩
        rw [Nat.zero_add]
        exact .branch hchild hat
    rw [StructureNode.allStatements, hleads]
    exact inOrder_allStatementsOf 0 children

theorem inOrder_allStatementsOf (first : Nat) : ∀ nodes : List Node,
    InOrder (AtFrom first nodes) (allStatementsOf nodes)
  | [] => by
    refine ⟨[], .nil, .nil, fun path => ?_⟩
    simp [AtFrom]
  | node :: rest => by
    rw [allStatementsOf]
    exact .cons node.inOrder_allStatements (inOrder_allStatementsOf (first + 1) rest)

end

end AbapLowering
