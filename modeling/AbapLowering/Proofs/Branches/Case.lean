import AbapLowering.Proofs.Branches
import AbapLowering.Proofs.Emission.Dispatch

/-!
# CASE

The code of a CASE puts the operand into a temporary that nothing else gets, and then selects a
branch: the first WHEN one of whose values equals the operand, or else WHEN OTHERS.

- `StructureNode.IsInOrder`: each WHEN has a value, WHEN OTHERS comes last, and statements stand in
  different places. Then the branches make a chain (`isChain_of_emitWhen`), and each body is all that
  follows the statement that opens it (`nodesWithout_eq_remaining`);
- `StructureNode.selects_emit_case`: all that is promised of the code of a CASE.
-/

namespace AbapLowering

open Script

/-! ## Temporaries -/

namespace Emit

variable {α β : Type} {context : Context} {s s' : EmissionState}

/-- Temporaries are never taken back. -/
theorem Built.issued_le {effects : Effects} {m : Emit α} (h : m.Built effects) (context : Context)
    (s : EmissionState) : s.issued ≤ (m.endState context s).issued ∧
      (effects.temporaries = false → (m.endState context s).issued = s.issued) := by
  refine h.endState_induct (Q := fun t => s.issued ≤ t.issued ∧
    (effects.temporaries = false → t.issued = s.issued)) (fun t t' hstep ht => ?_) context
    ⟨Nat.le_refl _, fun _ => rfl⟩
  cases hstep with
  | temporary hdraws =>
    refine ⟨Nat.le_succ_of_le ht.1, fun hnone => ?_⟩
    rw [hdraws] at hnone
    cases hnone
  | _ => exact ht

/-- Temporaries are only drawn, never given back. -/
theorem Assembled.issued_le {m : Emit α} (h : m.Assembled) :
    ∀ {s a s'}, m context s = .ok a s' → s.issued ≤ s'.issued := by
  induction h with
  | built hbuilt =>
    intro s a s' h
    have hle := (hbuilt.issued_le context s).1
    rwa [endState_of_ok h] at hle
  | countStatement =>
    rintro s _ _ ⟨⟩
    exact Nat.le_refl _
  | bind _ _ ihm ihf =>
    intro s b s'' h
    obtain ⟨a, s', ha, hb⟩ := bind_eq_ok h
    exact Nat.le_trans (ihm ha) (ihf a hb)

theorem Assembled.mapM {f : α → Emit β} (h : ∀ a, (f a).Assembled) (items : List α) :
    (items.mapM f).Assembled := by
  induction items with
  | nil => exact .pure _
  | cons a rest ih =>
    rw [List.mapM_cons]
    exact .bind (h a) fun _ => .bind ih fun _ => .pure _

/-- A branch is assembled from its header and its body. -/
theorem Assembled.branch {head : Emit BranchHead} {body : Emit Code} (hhead : head.Built .all)
    (hbody : body.Assembled) : (Emit.branch head body).Assembled :=
  .after hhead fun _ => .after (.drain rfl) fun _ => .bind hbody fun _ => .pure _

end Emit

/-- So is each branch of a `CASE`. -/
theorem StructureNode.assembled_emitWhen (operand : String) (node : StructureNode) :
    (emitWhen operand node).Assembled := by
  refine .after (built_opening node _) fun opening => .branch ?_ (assembled_emitNodes _)
  unfold whenHead
  split
  · refine .bind (.mapM _ fun value => .bind ?_ fun _ => .pure _) fun _ => .pure _
    have hvalue : value.emit.Built (.guarding false false) := value.built
    exact hvalue.mono
  · exact .pure _
  · exact .fail _

/-! ## Bodies -/

/-- The nodes but for the first statement. -/
def remaining : List Node → List Node
  | [] => []
  | .leaf _ :: rest => rest
  | .branch node :: rest => .branch node :: remaining rest

/-- The first of some statements in different places is the only one with its span. -/
theorem nodesWithout_eq_remaining {opening : StatementNode} : ∀ {nodes : List Node},
    (nodes.filterMap Node.statement?).head? = some opening →
    ((allStatementsOf nodes).map (·.span)).Nodup →
    nodesWithout opening.span nodes = remaining nodes
  | [], h, _ => by cases h
  | .leaf node :: rest, h, hapart => by
    obtain rfl : node = opening := Option.some.inj h
    -- nothing after it has its span, so nothing else is left out
    have hothers : node.span ∉ (allStatementsOf rest).map (·.span) :=
      (List.nodup_cons.mp hapart).1
    rw [nodesWithout, remaining, List.filter_cons_of_neg (by simp [Node.statement?]),
      List.filter_eq_self]
    intro other hother
    cases hstatement : other.statement? with
    | none => rfl
    | some statement =>
      have hmem : statement ∈ allStatementsOf rest :=
        mem_allStatementsOf (List.mem_filterMap.mpr ⟨other, hother, hstatement⟩)
      have hspan : statement.span ≠ node.span := fun hsame =>
        hothers (hsame ▸ List.mem_map_of_mem hmem)
      simpa using hspan
  | .branch node :: rest, h, hapart => by
    have hrest : ((allStatementsOf rest).map (·.span)).Nodup := by
      rw [allStatementsOf, List.map_append] at hapart
      exact hapart.sublist (List.sublist_append_right _ _)
    rw [nodesWithout, remaining, List.filter_cons_of_pos (by simp [Node.statement?])]
    exact congrArg _ (nodesWithout_eq_remaining h hrest)

/-- The statements of a structure are among those of the nodes that it is one of. -/
theorem sublist_of_mem_structuresOf {node : StructureNode} : ∀ {nodes : List Node},
    node ∈ structuresOf nodes → node.allStatements.Sublist (allStatementsOf nodes)
  | [], h => by cases h
  | .leaf _ :: rest, h => by
    have hrest : node ∈ structuresOf rest := h
    exact (sublist_of_mem_structuresOf hrest).trans (List.sublist_append_right _ _)
  | .branch first :: rest, h => by
    rw [allStatementsOf]
    rcases List.mem_cons.mp h with rfl | h
    · exact List.sublist_append_left _ _
    · exact (sublist_of_mem_structuresOf h).trans (List.sublist_append_right _ _)

/-! ## Chains -/

namespace StructureNode

/-- Whether the children of a CASE are in order. -/
structure IsInOrder (children : List Node) : Prop where
  values : ∀ w ∈ structuresOf children, w.beginsWith? ≠ some (.whenOneOf [])
  others : ∀ w ∈ (structuresOf children).dropLast, w.beginsWith? ≠ some .whenOthers
  apart : ((allStatementsOf children).map (·.span)).Nodup

variable {context : Context} {s s' : EmissionState} {operand : String}

/-- WHEN has a test for each of its values, and WHEN OTHERS has no header. -/
theorem header_of_emitWhen {node : StructureNode} {b : Branch}
    (h : emitWhen operand node context s = .ok b s') :
    (node.beginsWith? = some .whenOthers ∧ b.header = none) ∨
      ∃ values guards, ∃ calls : List String, node.beginsWith? = some (.whenOneOf values) ∧
        b.header = some ⟨guards, calls.map .call⟩ ∧ calls.length = values.length ∧
        ∀ call ∈ calls, call.toList.head? = some 'a' := by
  obtain ⟨⟨statement, span, text⟩, _, hopening, h⟩ := Emit.bind_eq_ok h
  obtain ⟨head, t, hhead, h⟩ := Emit.bind_eq_ok h
  rw [Emit.bind_of_ok (Emit.drain_apply context t)] at h
  obtain ⟨inner, u, -, h⟩ := Emit.bind_eq_ok h
  cases h
  rw [beginsWith?, (opening_eq_ok hopening).1, Option.map_some]
  cases statement with
  | whenOthers =>
    cases hhead
    exact .inl ⟨rfl, rfl⟩
  | whenOneOf values =>
    obtain ⟨calls, _, hcalls, hhead⟩ := Emit.bind_eq_ok hhead
    cases hhead
    -- each test is a call of the runtime
    have hresults := results_of_mapM (P := fun call => call.toList.head? = some 'a')
      (fun {item context s call s'} h => by
        obtain ⟨value, _, -, h⟩ := Emit.bind_eq_ok h
        cases h
        simp) hcalls
    exact .inr ⟨values, t.hoisted, calls, rfl, rfl, hresults⟩
  | _ => cases hhead

/-- The tests of a `WHEN` are calls, one for each alternative. -/
theorem calls_of_emitWhen {node : StructureNode} {b : Branch}
    (h : emitWhen operand node context s = .ok b s') : ∀ header ∈ b.header, ∃ calls : List String,
      header.tests = calls.map .call ∧ ∀ call ∈ calls, call.toList.head? = some 'a' := by
  rcases header_of_emitWhen h with ⟨-, hnone⟩ | ⟨values, guards, calls, -, hsome, -, hstart⟩
  · simp [hnone]
  · rw [hsome]
    rintro _ ⟨⟩
    exact ⟨calls, rfl, hstart⟩

/-- The branches are a chain if no `WHEN` is empty and `WHEN OTHERS` comes last. -/
theorem isChain_of_emitWhen : ∀ {whens : List StructureNode} {branches : List Branch}
    {s : EmissionState}, (∀ w ∈ whens, w.beginsWith? ≠ some (.whenOneOf [])) →
    (∀ w ∈ whens.dropLast, w.beginsWith? ≠ some .whenOthers) →
    whens.mapM (emitWhen operand) context s = .ok branches s' → IsChain branches
  | [], branches, s, _, _, h => by
    cases h
    trivial
  | w :: rest, branches, s, hvalues, hothers, h => by
    rw [List.mapM_cons] at h
    obtain ⟨b, t, hb, h⟩ := Emit.bind_eq_ok h
    obtain ⟨bs, u, hbs, h⟩ := Emit.bind_eq_ok h
    cases h
    obtain ⟨hfirst, hrest⟩ := List.forall_mem_cons.mp hvalues
    have htests : ∀ header ∈ b.header, header.tests ≠ [] := by
      rcases header_of_emitWhen hb with ⟨-, hnone⟩ | ⟨values, guards, calls, hbegins, hsome, hlength, -⟩
      · simp [hnone]
      · rw [hsome]
        rintro _ ⟨⟩ hnil
        have hcalls : calls = [] := by simpa using hnil
        rw [hcalls] at hlength
        have hempty : values = [] := List.length_eq_zero_iff.mp hlength.symm
        exact hfirst (hempty ▸ hbegins)
    -- only the last branch may do without a header, and it is the last if no WHEN is left
    cases rest with
    | nil =>
      cases hbs
      exact htests
    | cons next others =>
      obtain ⟨hnot, hlast⟩ := List.forall_mem_cons.mp hothers
      have hchain := isChain_of_emitWhen hrest hlast hbs
      cases bs with
      | nil => exact absurd (Emit.forall₂_of_mapM hbs) nofun
      | cons b' bs =>
        refine ⟨?_, hchain⟩
        rcases header_of_emitWhen hb with ⟨hbegins, -⟩ | ⟨values, guards, calls, -, hsome, -⟩
        · exact absurd hbegins hnot
        · exact ⟨_, hsome, htests _ hsome⟩

end StructureNode

/-! ## Headers -/

namespace Script

open Logic

/-- Alternatives joined by `||` hold if one of them does. -/
theorem means_disjunction : ∀ {calls : List String} (n : Nat), calls ≠ [] →
    ∃ ts, Lexeme.atoms ts = numbered n calls ∧ Lexeme.code ts = " || ".intercalate calls ∧
      Means Operator.or.strength ts fun ρ => (List.range' n calls.length).any ρ
  | [], _, h => absurd rfl h
  | [call], n, _ => by
    refine ⟨[.atom (.check call n)], rfl, by simp [Lexeme.text, Atom.text], ?_⟩
    simpa using (Means.check call n).mono (by decide)
  | call :: next :: rest, n, _ => by
    have hrest : next :: rest ≠ [] := List.cons_ne_nil next rest
    obtain ⟨us, hatoms, hcode, hmeans⟩ := means_disjunction (n + 1) hrest
    refine ⟨[.atom (.check call n)] ++ .operator .or :: us, ?_, ?_, ?_⟩
    · rw [Lexeme.atoms_append, Lexeme.atoms_operator, hatoms]
      rfl
    · rw [Lexeme.code_append, Lexeme.code_cons (.operator .or), hcode,
        String.intercalate_cons_cons]
      simp [Lexeme.text, Atom.text, String.append_assoc]
    · have hfirst := (Means.check call n).mono (n := Operator.or.strength) (by decide)
      exact hfirst.append .or hmeans

/-- The code of a header runs its guards and then asks whether one of its tests holds: there is no
other way to read it. -/
theorem Header.hasValue_text (guards : List String) {calls : List String} (hne : calls ≠ [])
    (hstart : ∀ call ∈ calls, call.toList.head? = some 'a') :
    HasValue (blockOf guards ++ numbered 0 calls) (Header.text ⟨guards, calls.map .call⟩)
      fun ρ => (List.range calls.length).any ρ := by
  obtain ⟨ts, hatoms, hcode, hmeans⟩ := means_disjunction 0 hne
  obtain ⟨us, hatoms', hcode', hmeans'⟩ := hmeans.guarded guards
  have htext : Header.text ⟨guards, calls.map .call⟩ = Lexeme.code us := by
    have htests : (calls.map Test.call).map Test.text = calls := by
      simp [Test.text, Function.comp_def]
    rw [Header.text, htests, hcode', hcode, Emit.guardCall]
    split
    · exact String.empty_append
    · exact String.toList_inj.mp (by simp [Emit.guardFunction, Arrow.text])
  rw [hatoms] at hatoms'
  rw [htext, ← hatoms', List.range_eq_range']
  refine hmeans'.hasValue ?_
  rw [hatoms']
  intro call number hmem
  rcases List.mem_append.mp hmem with hblock | hcall
  · unfold blockOf at hblock
    split at hblock <;> simp at hblock
  · exact callsStart_numbered hstart 0 call number hcall

end Script

/-! ## The statement -/

/-- What is promised of the code of a CASE whose children are in order:

- the operand is evaluated once, before any branch, into a temporary that is given out to nothing
  else, and whose name no other of the 2³² temporaries around it has;
- there is a branch for each WHEN, whose body is the code of all that follows the statement that opens
  it, in order. The branches make a chain, which is closed once, if there are any;
- each header has just one reading: its guards are run, and it holds iff one of its checks does;
- the chain does what its branches do, and whatever the checks come to, the body of the first WHEN
  one of whose values equals the operand is run, else that of WHEN OTHERS, else nothing. -/
theorem StructureNode.selects_emit_case {context : Context} {s s' : EmissionState}
    {children : List Node} {span : Span} {code : Code} (hcase : IsInOrder children)
    (h : StructureNode.emit ⟨.caseOf, children, span⟩ context s = .ok code s') :
    let operand := Identifier.temporary (s.issued + 1)
    ∃ source value t branches,
      beginsWith? ⟨.caseOf, children, span⟩ = some (.caseOf source) ∧
      source.emit context { s with issued := s.issued + 1 } = .ok value t ∧
      t.issued = s.issued + 1 ∧ s.issued < s'.issued ∧
      (∀ n, n ≠ s.issued + 1 → n < s.issued + 1 + UInt32.size → s.issued + 1 < n + UInt32.size →
        Identifier.temporary n ≠ operand) ∧
      (structuresOf children).mapM (emitWhen operand) context (t.withQueue []) = .ok branches s' ∧
      (∀ w ∈ structuresOf children, ∀ opening, w.firstStatement? = some opening →
        nodesWithout opening.span w.children = remaining w.children) ∧
      let c : CaseStatement := ⟨t.hoisted, operand, value, .own branches⟩
      code.text = c.text ∧ IsChain c.dispatch.branches ∧
      (∀ b ∈ branches, ∀ header ∈ b.header, ∃ calls, header.tests = calls.map .call ∧
        Logic.HasValue (blockOf header.guards ++ numbered 0 calls) header.text
          fun ρ => (List.range calls.length).any ρ) ∧
      ∀ {ω ε : Type} (m : Machine ω ε) (e : Option ε),
        (c.run m e = (do
          c.before.forM (m.exec e)
          m.exec e c.assignment
          runBranches m e branches)) ∧
        ∀ ρ : Test → Bool,
          (∀ b ∈ branches, ∀ header ∈ b.header, (∀ line ∈ header.guards, m.exec e line = pure ()) ∧
            ∀ test ∈ header.tests, test.run m e = pure (ρ test)) →
          c.run m e = (do
            c.before.forM (m.exec e)
            m.exec e c.assignment
            (branches.find? fun b => b.Applies ρ).elim (pure ()) fun b => runBlock m e b.block) := by
  obtain ⟨opening, source, value, t, branches, hfirst, hsource, hvalue, hbranches, htext⟩ :=
    exists_branches_of_emit_case h
  have hissued : t.issued = s.issued + 1 := by
    have hbuilt : source.emit.Built (.guarding false false) := source.built
    have hsame := (hbuilt.issued_le context { s with issued := s.issued + 1 }).2 rfl
    rwa [Emit.endState_of_ok hvalue] at hsame
  have hgrows : (t.withQueue []).issued ≤ s'.issued :=
    (Emit.Assembled.mapM (assembled_emitWhen _) _).issued_le hbranches
  change t.issued ≤ s'.issued at hgrows
  have hchain := isChain_of_emitWhen hcase.values hcase.others hbranches
  refine ⟨source, value, t, branches, ?_, hvalue, hissued, by omega, fun n hne hlt hlt' heq => ?_,
    hbranches, ?_, htext, isChain_bareFirst hchain, ?_, ?_⟩
  · rw [beginsWith?, hfirst, Option.map_some, hsource]
  · -- numbers that are no further apart leave different rests
    have hrest := Identifier.temporary_eq_iff.mp heq
    rw [show UInt32.size = 4294967296 from rfl] at hlt hlt' hrest
    omega
  · intro w hw opening hopening
    refine nodesWithout_eq_remaining hopening ?_
    have hsublist := (sublist_of_mem_structuresOf hw).map (·.span)
    rw [w.allStatements_eq] at hsublist
    exact hcase.apart.sublist hsublist
  · intro b hb header hheader
    have hcalls := (results_of_mapM (fun {_ _ _ _ _} => calls_of_emitWhen) hbranches).2
    obtain ⟨guards, tests⟩ := header
    obtain ⟨calls, rfl, hstart⟩ := hcalls b hb ⟨guards, tests⟩ hheader
    have hne : calls ≠ [] := by simpa using hchain.tests_ne_nil b hb _ hheader
    exact ⟨calls, rfl, Header.hasValue_text guards hne hstart⟩
  · intro ω ε m e
    have hrun : (Dispatch.own branches).run m e = runBranches m e branches :=
      Dispatch.run_own m e branches
    refine ⟨by rw [CaseStatement.run, hrun], fun ρ hρ => ?_⟩
    rw [CaseStatement.run, hrun, runBranches_eq_find? hρ]

namespace SourceUnit

/-- The children of a CASE with a WHEN for two values, one for the result of a method of a class in
parentheses, and WHEN OTHERS. -/
def selecting : List Node :=
  let number (value : Int64) : Source := .constant (.integer value)
  let bar : MethodCall := ⟨.dynamic (.literal "zcl_foo"), .named ⟨"bar", ⟨4, 18⟩⟩, .none⟩
  [.leaf ⟨.caseOf (.field (.ofField ⟨"foo", ⟨1, 6⟩⟩)), ⟨⟨1, 1⟩, ⟨1, 9⟩⟩, "CASE foo."⟩,
    .branch ⟨.whenBranch, [
      .leaf ⟨.whenOneOf [number 1, number 2], ⟨⟨2, 1⟩, ⟨2, 12⟩⟩, "WHEN 1 OR 2."⟩,
      .leaf ⟨.continueLoop, ⟨⟨3, 1⟩, ⟨3, 9⟩⟩, "CONTINUE."⟩], ⟨⟨2, 1⟩, ⟨3, 9⟩⟩⟩,
    .branch ⟨.whenBranch, [
      .leaf ⟨.whenOneOf [.call bar], ⟨⟨4, 1⟩, ⟨4, 25⟩⟩, "WHEN ('zcl_foo')=>bar( )."⟩],
      ⟨⟨4, 1⟩, ⟨4, 25⟩⟩⟩,
    .branch ⟨.whenBranch, [
      .leaf ⟨.whenOthers, ⟨⟨5, 1⟩, ⟨5, 12⟩⟩, "WHEN OTHERS."⟩,
      .leaf ⟨.exitLoop, ⟨⟨6, 1⟩, ⟨6, 5⟩⟩, "EXIT."⟩], ⟨⟨5, 1⟩, ⟨6, 5⟩⟩⟩,
    .leaf ⟨.endCase, ⟨⟨7, 1⟩, ⟨7, 8⟩⟩, "ENDCASE."⟩]

/-- Its code: the guards of the second WHEN are in its header. -/
def selectingText : String :=
  let foo : Guard := ⟨.classOfCall, "abap.Classes['ZCL_FOO']"⟩
  Emit.endLines ["let unique1 = foo;",
    "if (abap.compare.eq(unique1, constant_1) || abap.compare.eq(unique1, constant_2)) \x7b",
    "continue;",
    "\x7d else if (" ++ Emit.guardCall foo.lines
      ++ "abap.compare.eq(unique1, await abap.Classes['ZCL_FOO'].bar())) \x7b",
    "\x7d else \x7b",
    "break;",
    "\x7d"]

/-- The branches have alternatives, and the last one takes all others. -/
theorem isInOrder_selecting : StructureNode.IsInOrder selecting where
  values := by
    intro w hw
    simp only [selecting, structuresOf, List.filterMap_cons, List.filterMap_nil, List.mem_cons,
      List.not_mem_nil, or_false] at hw
    rcases hw with rfl | rfl | rfl <;> rintro ⟨⟩
  others := by
    intro w hw
    simp only [selecting, structuresOf, List.filterMap_cons, List.filterMap_nil, List.dropLast,
      List.mem_cons, List.not_mem_nil, or_false] at hw
    rcases hw with rfl | rfl <;> rintro ⟨⟩
  apart := by
    change [(⟨⟨1, 1⟩, ⟨1, 9⟩⟩ : Span), ⟨⟨2, 1⟩, ⟨2, 12⟩⟩, ⟨⟨3, 1⟩, ⟨3, 9⟩⟩, ⟨⟨4, 1⟩, ⟨4, 25⟩⟩,
      ⟨⟨5, 1⟩, ⟨5, 12⟩⟩, ⟨⟨6, 1⟩, ⟨6, 5⟩⟩, ⟨⟨7, 1⟩, ⟨7, 8⟩⟩].Nodup
    decide

theorem selects_emit_selecting :
    StructureNode.codeAlone? ⟨.caseOf, selecting, ⟨⟨1, 1⟩, ⟨7, 8⟩⟩⟩ = some selectingText ∧
      ∃ guards value branches,
        selectingText = CaseStatement.text ⟨guards, "unique1", value, .own branches⟩ ∧
        IsChain (bareFirst branches) := by
  have hcode : StructureNode.codeAlone? ⟨.caseOf, selecting, ⟨⟨1, 1⟩, ⟨7, 8⟩⟩⟩ =
      some selectingText := by
    decide +kernel
  obtain ⟨code, s', hemit, hread⟩ := StructureNode.exists_of_codeAlone? hcode
  obtain ⟨source, value, t, branches, -, -, -, -, -, -, -, htext, hchain, -, -⟩ :=
    StructureNode.selects_emit_case isInOrder_selecting hemit
  rw [hread] at htext
  exact ⟨hcode, t.hoisted, value, branches, htext, hchain⟩

end SourceUnit

end AbapLowering
