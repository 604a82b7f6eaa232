import AbapLowering.Proofs.AsyncFunctions

/-!
# Branches in emitted code

Chains of branches, TRY blocks, and their runs. Calls, statements and guards are not looked into: what
they do is up to the machine that runs the code.

- `runBranches`: a chain is run from the first header on. The guards in a header are run when its
  turn comes, and then its tests, up to the first that holds;
- `Dispatch.own`, `Dispatch.strayed`: code for branches whose headers have guards. The guards of the
  first header are run before the chain. The guards of the others are folded into the headers or,
  astray, put on lines of their own, which are then in the block before;
- `Dispatch.keeps_own`, `Dispatch.keeps_strayed_iff`: the former does what the branches do, the latter
  keeps guards out of the blocks only if there are none.
-/

namespace AbapLowering

namespace Script

/-! ## Runs -/

/-- How a run stops before it comes to its end. -/
inductive Exit (ε : Type) where
  | exception (value : ε)
  /-- By `return`, `break` or `continue`. -/
  | jump (statement : String)

/-- A run over states `ω`. What a run has done remains when it stops. -/
abbrev Run (ω ε : Type) := EStateM (Exit ε) ω

/-- What runs emitted code. -/
structure Machine (ω ε : Type) where
  /-- Runs statements, given what `e` stands for. -/
  exec : Option ε → String → Run ω ε Unit
  /-- Evaluates a condition, given what `e` stands for. -/
  holds : Option ε → String → Run ω ε Bool
  /-- Whether a value is an instance of the class at an address. -/
  isInstance : ε → String → Run ω ε Bool
  /-- Sets a target to a value. -/
  assign : String → ε → Run ω ε Unit
  /-- Raised by code that reads `e` where it stands for nothing. -/
  unbound : ε

variable {ω ε : Type}

/-- Run a handler for an exception. Jumps are not caught. -/
def Run.catching {α : Type} (body : Run ω ε α) (handler : ε → Run ω ε α) : Run ω ε α := fun s =>
  match body s with
  | .error (.exception value) t => handler value t
  | outcome => outcome

/-- What `e` stands for. -/
def Machine.caught (m : Machine ω ε) : Option ε → Run ω ε ε
  | some value => pure value
  | none => throw (.exception m.unbound)

/-! ## Headers and blocks -/

/-- A question that a header asks. -/
inductive Test where
  | call (text : String)
  | instanceOf (address : String)

namespace Test

def text : Test → String
  | call text => text
  | instanceOf address => "e instanceof " ++ address

def run (m : Machine ω ε) (e : Option ε) : Test → Run ω ε Bool
  | call text => m.holds e text
  | instanceOf address => do m.isInstance (← m.caught e) address

end Test

/-- What a branch is taken on: one of its tests holds, once some guards have been run. -/
structure Header where
  guards : List String
  tests : List Test

namespace Header

/-- The code between the parentheses. -/
def text (h : Header) : String :=
  Emit.guardCall h.guards ++ " || ".intercalate (h.tests.map Test.text)

def run (m : Machine ω ε) (e : Option ε) (h : Header) : Run ω ε Bool := do
  h.guards.forM (m.exec e)
  h.tests.anyM (Test.run m e)

/-- A header without its guards. -/
def bare (h : Header) : Header := { h with guards := [] }

end Header

/-- A piece of a block. -/
inductive Piece where
  | guard (line : String)
  | code (text : String)
  /-- A target is set to the exception at hand. -/
  | keep (target : String)
  | rethrow

namespace Piece

def text : Piece → String
  | guard line => line ++ "\n"
  | code text => text
  | keep target => target ++ ".set(e);\n"
  | rethrow => "throw e;\n"

def run (m : Machine ω ε) (e : Option ε) : Piece → Run ω ε Unit
  | guard line => m.exec e line
  | code text => m.exec e text
  | keep target => do m.assign target (← m.caught e)
  | rethrow => do throw (.exception (← m.caught e))

end Piece

def textOfBlock (block : List Piece) : String := String.join (block.map Piece.text)

def runBlock (m : Machine ω ε) (e : Option ε) (block : List Piece) : Run ω ε Unit :=
  block.forM (Piece.run m e)

@[simp] theorem textOfBlock_nil : textOfBlock [] = "" := rfl

/-- The text of a block is that of its pieces. -/
@[simp] theorem textOfBlock_append (block others : List Piece) :
    textOfBlock (block ++ others) = textOfBlock block ++ textOfBlock others := by
  simp [textOfBlock, String.join_append]

@[simp] theorem textOfBlock_code (text : String) : textOfBlock [.code text] = text := by
  simp [textOfBlock, Piece.text, String.join_cons]

/-- Guards are lines of their own. -/
@[simp] theorem textOfBlock_guards (lines : List String) :
    textOfBlock (lines.map .guard) = Emit.endLines lines := by
  simp [textOfBlock, Emit.endLines, Piece.text, Function.comp_def]

/-! ## Chains -/

/-- A branch. One without header is taken if its turn comes. -/
structure Branch where
  header : Option Header
  block : List Piece

namespace Branch

/-- The guards of the header. -/
def guards (b : Branch) : List String := b.header.elim [] Header.guards

/-- A branch without the guards of its header. -/
def bare (b : Branch) : Branch := { b with header := b.header.map Header.bare }

/-- Whether there are no guards of a header in the block. -/
def IsClear (b : Branch) : Prop := ∀ line, .guard line ∉ b.block

/-- Whether a branch is taken if its turn comes, given what the tests answer. -/
def Applies (ρ : Test → Bool) (b : Branch) : Prop := ∀ h ∈ b.header, h.tests.any ρ = true

instance (ρ : Test → Bool) (b : Branch) : Decidable (b.Applies ρ) :=
  inferInstanceAs (Decidable (∀ h ∈ b.header, h.tests.any ρ = true))

end Branch

/-- The line that starts a branch. -/
def branchStart (first : Bool) : Option Header → String
  | some h => (if first then "if (" else "\x7d else if (") ++ h.text ++ ") \x7b\n"
  | none => if first then "if (true) \x7b\n" else "\x7d else \x7b\n"

/-- Branches one after the other, each from the text of its start on. -/
def textFrom (start : Bool → Option Header → String) (first : Bool) : List Branch → String
  | [] => ""
  | b :: rest => start first b.header ++ (textOfBlock b.block ++ textFrom start false rest)

/-- The last branch of a chain comes last in the text. -/
theorem textFrom_concat (start : Bool → Option Header → String) (first : Bool)
    {branches : List Branch} (h : branches ≠ []) (b : Branch) :
    textFrom start first (branches ++ [b]) =
      textFrom start first branches ++ (start false b.header ++ textOfBlock b.block) := by
  have hrest : ∀ rest : List Branch, textFrom start false (rest ++ [b]) =
      textFrom start false rest ++ (start false b.header ++ textOfBlock b.block) := by
    intro rest
    induction rest with
    | nil => simp [textFrom]
    | cons c rest ih => simp only [List.cons_append, textFrom, ih, String.append_assoc]
  -- only the start of the first branch depends on `first`
  cases branches with
  | nil => exact absurd rfl h
  | cons c rest => simp only [List.cons_append, textFrom, hrest, String.append_assoc]

/-- Take the first branch that applies. -/
def runBranches (m : Machine ω ε) (e : Option ε) : List Branch → Run ω ε Unit
  | [] => pure ()
  | ⟨none, block⟩ :: _ => runBlock m e block
  | ⟨some h, block⟩ :: rest => do
    if ← h.run m e then runBlock m e block else runBranches m e rest

/-- Whether branches make a chain: each header asks something, and only the last branch may do
without. -/
def IsChain : List Branch → Prop
  | [] => True
  | [b] => ∀ h ∈ b.header, h.tests ≠ []
  | b :: next :: rest => (∃ h, b.header = some h ∧ h.tests ≠ []) ∧ IsChain (next :: rest)

/-- Each header of a chain has a test. -/
theorem IsChain.tests_ne_nil : ∀ {branches : List Branch}, IsChain branches →
    ∀ b ∈ branches, ∀ h ∈ b.header, h.tests ≠ []
  | [b], hchain, c, hc, h, hh => by
    rw [List.mem_singleton.mp hc] at hh
    exact hchain h hh
  | b :: next :: rest, ⟨⟨whole, hwhole, htests⟩, hrest⟩, c, hc, h, hh => by
    rcases List.mem_cons.mp hc with rfl | hc
    · rw [hwhole] at hh
      cases hh
      exact htests
    · exact hrest.tests_ne_nil c hc h hh

/-- Guards that let pass do nothing. -/
theorem forM_of_pass {m : Machine ω ε} {e : Option ε} {lines : List String}
    (h : ∀ line ∈ lines, m.exec e line = pure ()) : lines.forM (m.exec e) = pure () := by
  induction lines with
  | nil => rfl
  | cons line rest ih =>
    obtain ⟨hline, hrest⟩ := List.forall_mem_cons.mp h
    change (do
      m.exec e line
      rest.forM (m.exec e)) = pure ()
    rw [hline, pure_bind, ih hrest]

/-- Tests that only answer are asked up to the first that holds. -/
theorem anyM_of_answers {m : Machine ω ε} {e : Option ε} {ρ : Test → Bool} {tests : List Test}
    (h : ∀ test ∈ tests, test.run m e = pure (ρ test)) :
    tests.anyM (Test.run m e) = pure (tests.any ρ) := by
  induction tests with
  | nil => rfl
  | cons test rest ih =>
    obtain ⟨htest, hrest⟩ := List.forall_mem_cons.mp h
    rw [List.anyM, htest, pure_bind, List.any_cons]
    cases ρ test with
    | true => rfl
    | false => exact ih hrest

/-- The run of branches whose guards let pass and whose tests only answer: the block of the first
branch that applies is run, and nothing else. -/
theorem runBranches_eq_find? {m : Machine ω ε} {e : Option ε} {ρ : Test → Bool} :
    ∀ {branches : List Branch},
      (∀ b ∈ branches, ∀ h ∈ b.header, (∀ line ∈ h.guards, m.exec e line = pure ()) ∧
        ∀ test ∈ h.tests, test.run m e = pure (ρ test)) →
      runBranches m e branches =
        ((branches.find? fun b => b.Applies ρ).elim (pure ()) fun b => runBlock m e b.block)
  | [], _ => rfl
  | ⟨none, block⟩ :: rest, _ => by
    have happlies : Branch.Applies ρ ⟨none, block⟩ := nofun
    rw [List.find?_cons_of_pos (by simpa using happlies)]
    rfl
  | ⟨some h, block⟩ :: rest, hall => by
    obtain ⟨hfirst, hrest⟩ := List.forall_mem_cons.mp hall
    obtain ⟨hguards, htests⟩ := hfirst h rfl
    have happlies : Branch.Applies ρ ⟨some h, block⟩ ↔ h.tests.any ρ = true := by
      simp [Branch.Applies]
    rw [runBranches, Header.run, forM_of_pass hguards, pure_bind, anyM_of_answers htests, pure_bind]
    by_cases hholds : h.tests.any ρ = true
    · rw [if_pos hholds, List.find?_cons_of_pos (by simpa using happlies.mpr hholds)]
      rfl
    · rw [if_neg hholds, List.find?_cons_of_neg (by simpa using mt happlies.mp hholds),
        runBranches_eq_find? hrest]

/-! ## Code for branches -/

/-- Lines that are run first, and then a chain. -/
structure Dispatch where
  before : List String
  branches : List Branch

namespace Dispatch

/-- The code up to the end of the last block. -/
def openText (d : Dispatch) : String :=
  Emit.endLines d.before ++ textFrom branchStart true d.branches

/-- The code; a chain is closed if there is one. -/
def text (d : Dispatch) : String :=
  d.openText ++ if d.branches.isEmpty then "" else "\x7d\n"

def run (m : Machine ω ε) (e : Option ε) (d : Dispatch) : Run ω ε Unit := do
  d.before.forM (m.exec e)
  runBranches m e d.branches

/-- Whether code keeps the guards of some branches with their headers: none is in a block, and the
code does what the branches do. -/
def Keeps (branches : List Branch) (d : Dispatch) : Prop :=
  (∀ b ∈ d.branches, b.IsClear) ∧
    ∀ {ω ε : Type} (m : Machine ω ε) (e : Option ε), d.run m e = runBranches m e branches

end Dispatch

/-- The guards of the first header. -/
def guardsAhead : List Branch → List String
  | [] => []
  | b :: _ => b.guards

/-- The first branch without the guards of its header, and the others. -/
def bareFirst : List Branch → List Branch
  | [] => []
  | b :: rest => b.bare :: rest

/-- Without the guards of its first header a chain is one. -/
theorem isChain_bareFirst {branches : List Branch} (h : IsChain branches) :
    IsChain (bareFirst branches) := by
  cases branches with
  | nil => exact h
  | cons b rest =>
    obtain ⟨header, block⟩ := b
    cases rest with
    | nil =>
      intro bare hbare
      obtain ⟨whole, hwhole, rfl⟩ := Option.map_eq_some_iff.mp hbare
      exact h whole hwhole
    | cons next others =>
      obtain ⟨⟨whole, hwhole, htests⟩, hrest⟩ := h
      exact ⟨⟨whole.bare, congrArg (Option.map Header.bare) hwhole, htests⟩, hrest⟩

/-- Branches without the guards of their headers. Those of the next header are in the block. -/
def strayedFrom : List Branch → List Branch
  | [] => []
  | b :: rest =>
    { b.bare with block := b.block ++ (guardsAhead rest).map .guard } :: strayedFrom rest

/-- The start of a branch with its guards folded in, but for the first. -/
def foldedStart (first : Bool) (header : Option Header) : String :=
  if first then Emit.endLines (header.elim [] Header.guards) ++
    branchStart true (header.map Header.bare)
  else branchStart false header

/-- The start of a branch with its guards on lines of their own. -/
def strayedStart (first : Bool) (header : Option Header) : String :=
  Emit.endLines (header.elim [] Header.guards) ++ branchStart first (header.map Header.bare)

namespace Dispatch

/-- The guards of the first header are run ahead, the others remain. -/
def own (branches : List Branch) : Dispatch := ⟨guardsAhead branches, bareFirst branches⟩

/-- All guards are on lines of their own ahead of the line that starts their branch. -/
def strayed (branches : List Branch) : Dispatch := ⟨guardsAhead branches, strayedFrom branches⟩

/-! ### Texts -/

/-- Branches that keep their guards have the text with folded headers. -/
theorem openText_own (branches : List Branch) :
    (own branches).openText = textFrom foldedStart true branches := by
  have hrest : ∀ rest : List Branch,
      textFrom foldedStart false rest = textFrom branchStart false rest := by
    intro rest
    induction rest with
    | nil => rfl
    | cons b rest ih =>
      rw [textFrom, textFrom, ih]
      rfl
  cases branches with
  | nil => rfl
  | cons b rest =>
    rw [textFrom, hrest, foldedStart, if_pos rfl, String.append_assoc]
    rfl

/-- What is ahead of a branch is at the end of the block before. -/
theorem textFrom_strayedStart (first : Bool) (branches : List Branch) :
    textFrom strayedStart first branches =
      Emit.endLines (guardsAhead branches) ++ textFrom branchStart first (strayedFrom branches) := by
  induction branches generalizing first with
  | nil => simp [textFrom, strayedFrom, guardsAhead, Emit.endLines]
  | cons b rest ih =>
    rw [textFrom, ih, strayedFrom, textFrom, strayedStart, textOfBlock_append, textOfBlock_guards]
    simp only [String.append_assoc]
    rfl

/-- Branches whose guards stray have the text with guards in the branch before. -/
theorem openText_strayed (branches : List Branch) :
    (strayed branches).openText = textFrom strayedStart true branches :=
  (textFrom_strayedStart true branches).symm

/-! ### Guards -/

variable {branches : List Branch}

/-- Branches that keep their guards are run from the first one on. -/
theorem run_own (m : Machine ω ε) (e : Option ε) (branches : List Branch) :
    (own branches).run m e = runBranches m e branches := by
  cases branches with
  | nil => exact pure_bind _ _
  | cons b rest =>
    obtain ⟨header, block⟩ := b
    cases header with
    | none => exact pure_bind _ _
    | some h =>
      -- the header runs its guards first, so they may as well be run before the chain
      change (do
        h.guards.forM (m.exec e)
        if ← h.bare.run m e then runBlock m e block else runBranches m e rest) = _
      rw [runBranches]
      simp only [Header.run, bind_assoc]
      rfl

/-- Guards that stay with their headers, or are run before the chain, are where they belong. -/
theorem keeps_own (h : ∀ b ∈ branches, b.IsClear) : (own branches).Keeps branches := by
  refine ⟨?_, fun m e => run_own m e branches⟩
  cases branches with
  | nil => nofun
  | cons b rest =>
    obtain ⟨hfirst, hrest⟩ := List.forall_mem_cons.mp h
    exact List.forall_mem_cons.mpr ⟨hfirst, hrest⟩

theorem strayedFrom_eq_bareFirst (h : ∀ b ∈ branches.tail, b.guards = []) :
    strayedFrom branches = bareFirst branches := by
  have hbare : ∀ {b : Branch}, b.guards = [] → b.bare = b := by
    rintro ⟨_ | header, block⟩ hnone
    · rfl
    · obtain ⟨guards, tests⟩ := header
      obtain rfl : guards = [] := hnone
      rfl
  induction branches with
  | nil => rfl
  | cons b rest ih =>
    have hahead : guardsAhead rest = [] := by
      cases rest with
      | nil => rfl
      | cons next others => exact h next List.mem_cons_self
    have hrest : strayedFrom rest = rest := by
      cases rest with
      | nil => rfl
      | cons next others =>
        have hnext : next.bare = next := hbare (h next List.mem_cons_self)
        rw [ih fun c hc => h c (List.mem_cons_of_mem _ hc), bareFirst, hnext]
    rw [strayedFrom, bareFirst, hahead, hrest, List.map_nil, List.append_nil]
    rfl

/-- Guards on lines of their own are where they belong only in front of the first branch. -/
theorem keeps_strayed_iff (h : ∀ b ∈ branches, b.IsClear) :
    (strayed branches).Keeps branches ↔ ∀ b ∈ branches.tail, b.guards = [] := by
  constructor
  · rintro ⟨hclear, -⟩
    change ∀ b ∈ strayedFrom branches, b.IsClear at hclear
    clear h
    induction branches with
    | nil => nofun
    | cons b rest ih =>
      obtain ⟨hfirst, hrest⟩ := List.forall_mem_cons.mp hclear
      cases rest with
      | nil => nofun
      | cons next others =>
        refine List.forall_mem_cons.mpr ⟨?_, ih hrest⟩
        rw [List.eq_nil_iff_forall_not_mem]
        intro line hline
        -- a guard of the next header would be in the block of this branch
        have hmem : Piece.guard line ∈ b.block ++ next.guards.map .guard :=
          List.mem_append_right _ (List.mem_map_of_mem hline)
        exact hfirst line hmem
  · intro hnone
    have hsame : strayed branches = own branches := by
      rw [strayed, own, strayedFrom_eq_bareFirst hnone]
    rw [hsame]
    exact keeps_own h

end Dispatch

/-! ## CASE and TRY -/

/-- An operand is put into a temporary, and then branches are dispatched on. -/
structure CaseStatement where
  before : List String
  operand : String
  value : String
  dispatch : Dispatch

namespace CaseStatement

/-- The statement that evaluates the operand. -/
def assignment (c : CaseStatement) : String := "let " ++ c.operand ++ " = " ++ c.value ++ ";"

def text (c : CaseStatement) : String :=
  Emit.endLines c.before ++ (c.assignment ++ "\n") ++ c.dispatch.text

def run {ω ε : Type} (m : Machine ω ε) (e : Option ε) (c : CaseStatement) : Run ω ε Unit := do
  c.before.forM (m.exec e)
  m.exec e c.assignment
  c.dispatch.run m e

end CaseStatement

/-- The branch that raises the exception at hand again. -/
def rethrowing : Branch := ⟨none, [.rethrow]⟩

/-- A block, and what is done with an exception that it raises. -/
structure TryStatement where
  body : String
  handlers : Dispatch

namespace TryStatement

def text (t : TryStatement) : String :=
  "try \x7b\n" ++ t.body ++ "\x7d catch (e) \x7b\n" ++ t.handlers.text ++ "\x7d\n"

def run (m : Machine ω ε) (e : Option ε) (t : TryStatement) : Run ω ε Unit :=
  (m.exec e t.body).catching fun value => t.handlers.run m (some value)

end TryStatement

end Script

end AbapLowering
