import AbapLowering.Proofs.Emission.BuiltTree

/-!
# Statements that are emitted one after the other

- `Emit.Effects.Step`: what one effect can do to the state. What each step keeps still holds after what
  is built (`Emit.Built.endState_induct`);
- `Emit.Dispatches`: emitting that dispatches some statements in order, each once, and whose code
  contains their lines in that order. If it stops, then at one of these statements or between two
  of them;
- what is built dispatches nothing (`Dispatches.after`), and what follows dispatches what remains
  (`Dispatches.bind`).
-/

namespace AbapLowering

/-- The code of a statement's line is this in some state. -/
def StatementNode.HasLine (node : StatementNode) (context : Context) (line : Code) : Prop :=
  ∃ s s', node.emitLine context s = .ok line s'

namespace Emit

variable {α β : Type}

/-! ## Counting -/

/-- The state that emitting ends in, whether or not it fails. -/
def endState (m : Emit α) (context : Context) (s : EmissionState) : EmissionState :=
  match m context s with
  | .ok _ s' | .error _ s' => s'

theorem endState_of_ok {m : Emit α} {context : Context} {s s' : EmissionState} {a : α}
    (h : m context s = .ok a s') : m.endState context s = s' := by
  rw [endState, h]

theorem endState_of_error {m : Emit α} {context : Context} {s s' : EmissionState} {why : Abort}
    (h : m context s = .error why s') : m.endState context s = s' := by
  rw [endState, h]

/-- What holds after one effect and is kept by the next holds after both. -/
theorem endState_bind_induct (Q : EmissionState → Prop) {m : Emit α} {f : α → Emit β}
    {context : Context} {s : EmissionState} (hm : Q (m.endState context s))
    (hf : ∀ a s', Q s' → Q ((f a).endState context s')) : Q ((m >>= f).endState context s) := by
  cases hrun : m context s with
  | error why s' =>
    rw [endState_of_error hrun] at hm
    rw [endState, bind_apply, hrun]
    exact hm
  | ok a s' =>
    rw [endState_of_ok hrun] at hm
    rw [endState, bind_apply, hrun]
    exact hf a s' hm

/-- What one effect can do to the state. -/
inductive Effects.Step (effects : Effects) (s : EmissionState) : EmissionState → Prop
  | slot (slot : Option CacheSlot) : Step effects s { s with slot := slot }
  | hoisted (lines : List String) : Step effects s { s with hoisted := lines }
  | integer (value : Int64) :
    Step effects s { s with integers := insertAscending value s.integers }
  | registrations (lines : List String) : Step effects s { s with registrations := lines }
  | diagnostics (diagnostics : List Diagnostic) :
    Step effects s { s with diagnostics := diagnostics }
  | temporary : effects.temporaries = true → Step effects s { s with issued := s.issued + 1 }

/-- What each step keeps still holds after what is built, whether or not it fails. -/
theorem Built.endState_induct {effects : Effects} {Q : EmissionState → Prop}
    (hstep : ∀ s s', effects.Step s s' → Q s → Q s') {m : Emit α} (h : m.Built effects)
    (context : Context) {s : EmissionState} (hs : Q s) : Q (m.endState context s) := by
  induction h generalizing s with
  | bind _ _ ihm ihf => exact endState_bind_induct Q (ihm hs) fun a _ hs' => ihf a hs'
  | onView _ _ ih => exact ih context hs
  -- a question moves the slot, whether it has an answer or not
  | ask question =>
    unfold endState Emit.ask
    cases (question context.view).run context.view.graph context.view.file s.slot with
    | ok _ slot => exact hstep s _ (.slot slot) hs
    | error _ slot => exact hstep s _ (.slot slot) hs
  | typeConstructor type =>
    rw [endState, typeConstructor_apply]
    cases type.constructor context.config.isLenient <;> exact hs
  | requireTarget kind target =>
    rw [endState, requireTarget_apply]
    by_cases hmissing : context.config.checkFallbackExceptions &&
        !context.view.registry.contains kind.exception
    · rw [if_pos hmissing]
      exact hs
    · rw [if_neg hmissing]
      exact hstep s _ (.hoisted _) hs
  | integer value => exact hstep s _ (.integer value) hs
  | drain => exact hstep s _ (.hoisted []) hs
  | register line =>
    change Q (if line ∈ s.registrations then s else _)
    split
    · exact hs
    · exact hstep s _ (.registrations _) hs
  | warn message position => exact hstep s _ (.diagnostics _) hs
  | temporary hdraws => exact hstep s _ (.temporary hdraws) hs
  | _ => exact hs

/-- What is built meets no statement. -/
theorem Built.statements_eq {effects : Effects} {m : Emit α} (h : m.Built effects) (context : Context)
    (s : EmissionState) : (m.endState context s).statements = s.statements := by
  refine h.endState_induct (Q := fun t => t.statements = s.statements) (fun t t' hstep ht => ?_)
    context rfl
  cases hstep <;> exact ht

/-! ## Statements in order -/

/-- Where emitting stopped among the statements that it meets in turn, after `count` others. -/
inductive StopsAmong (context : Context) (count : Nat) (nodes : List StatementNode) (why : Abort)
    (s : EmissionState) : Prop
  /-- After the line of one and before the next was met. -/
  | between {done rest} : nodes = done ++ rest → (∀ node ∈ done, ∃ line, node.HasLine context line) →
    s.statements = count + done.length → StopsAmong context count nodes why s
  /-- At one of them, since it has no line. -/
  | within {done node rest t} : nodes = done ++ node :: rest →
    (∀ node ∈ done, ∃ line, node.HasLine context line) →
    s.statements = count + done.length + 1 → node.emitLine context t = .error why s →
    StopsAmong context count nodes why s

variable {nodes others : List StatementNode}

namespace StopsAmong

variable {context : Context} {count : Nat} {why : Abort} {s : EmissionState}

theorem append (h : StopsAmong context count nodes why s) (others : List StatementNode) :
    StopsAmong context count (nodes ++ others) why s := by
  cases h with
  | between hnodes hdone hcount =>
    exact .between (by rw [hnodes, List.append_assoc]) hdone hcount
  | within hnodes hdone hcount hstop =>
    exact .within (by rw [hnodes, List.append_assoc, List.cons_append]) hdone hcount hstop

theorem prepend
    (hnodes : ∀ node ∈ nodes, ∃ line, node.HasLine context line)
    (h : StopsAmong context (count + nodes.length) others why s) :
    StopsAmong context count (nodes ++ others) why s := by
  cases h with
  | @between done rest hothers hdone hcount =>
    have hall : nodes ++ others = nodes ++ done ++ rest := by rw [hothers, List.append_assoc]
    refine .between hall (List.forall_mem_append.mpr ⟨hnodes, hdone⟩) ?_
    rw [hcount, List.length_append, Nat.add_assoc]
  | @within done node rest t hothers hdone hcount hstop =>
    have hall : nodes ++ others = nodes ++ done ++ node :: rest := by
      rw [hothers, List.append_assoc]
    refine .within hall (List.forall_mem_append.mpr ⟨hnodes, hdone⟩) ?_ hstop
    rw [hcount, List.length_append, ← Nat.add_assoc]

end StopsAmong

/-- Emitting that meets some statements in order and gives code in which their lines follow some
fragments. -/
def Dispatches (before : List Fragment) (nodes : List StatementNode) (m : Emit Code) : Prop :=
  ∀ context s, match m context s with
    | .ok code s' => s'.statements = s.statements + nodes.length ∧
      ∃ lines : List (StatementNode × Code), lines.map Prod.fst = nodes ∧
        (∀ line ∈ lines, line.1.HasLine context line.2) ∧
        (before ++ lines.flatMap (·.2.fragments)).Sublist code.fragments
    | .error why s' => StopsAmong context s.statements nodes why s'

namespace Dispatches

variable {before : List Fragment}

theorem pure {code : Code} (h : before.Sublist code.fragments) :
    Dispatches before [] (Pure.pure code) := by
  intro context s
  exact ⟨rfl, [], rfl, by simp, by simpa using h⟩

/-- Nothing follows what fails. -/
theorem fail (error : LoweringError) (f : α → Emit Code) :
    Dispatches before nodes (Emit.fail error >>= f) := by
  intro context s
  exact .between (List.nil_append nodes).symm (by simp) rfl

/-- What is built before dispatches nothing. -/
theorem after {m : Emit α} {f : α → Emit Code} (hm : m.Built .all)
    (hf : ∀ a, Dispatches before nodes (f a)) : Dispatches before nodes (m >>= f) := by
  intro context s
  rw [bind_apply]
  have hcount := hm.statements_eq context s
  cases hrun : m context s with
  | error why s' =>
    rw [endState_of_error hrun] at hcount
    exact .between (List.nil_append nodes).symm (by simp) hcount
  | ok a s' =>
    rw [endState_of_ok hrun] at hcount
    have hrest := hf a context s'
    rwa [hcount] at hrest

/-- The statements of what comes first, then those of what follows, which puts its code after. -/
theorem bind {m : Emit Code} {f : Code → Emit Code} (hm : Dispatches [] nodes m)
    (hf : ∀ code, Dispatches (before ++ code.fragments) others (f code)) :
    Dispatches before (nodes ++ others) (m >>= f) := by
  intro context s
  rw [bind_apply]
  have hfirst := hm context s
  cases hrun : m context s with
  -- the first part stopped, and nothing of the second was dispatched
  | error why s' =>
    rw [hrun] at hfirst
    exact StopsAmong.append hfirst others
  | ok code s' =>
    rw [hrun] at hfirst
    obtain ⟨hcount, lines, hnodes, hlines, hsublist⟩ := hfirst
    have hrest := hf code context s'
    dsimp only
    cases hnext : f code context s' with
    | error why s'' =>
      rw [hnext] at hrest
      have hrest : StopsAmong context s'.statements others why s'' := hrest
      rw [hcount] at hrest
      refine StopsAmong.prepend (fun node hnode => ?_) hrest
      rw [← hnodes] at hnode
      obtain ⟨line, hline, rfl⟩ := List.mem_map.mp hnode
      exact ⟨line.2, hlines line hline⟩
    -- the statements of both parts, in order
    | ok whole s'' =>
      rw [hnext] at hrest
      obtain ⟨hcount', more, hothers, hmore, hsublist'⟩ := hrest
      refine ⟨?_, lines ++ more, by rw [List.map_append, hnodes, hothers],
        List.forall_mem_append.mpr ⟨hlines, hmore⟩, ?_⟩
      · rw [hcount', hcount, List.length_append, Nat.add_assoc]
      · rw [List.flatMap_append, ← List.append_assoc]
        have hall : (before ++ lines.flatMap (·.2.fragments)).Sublist (before ++ code.fragments) :=
          (List.append_sublist_append_left before).mpr (by simpa using hsublist)
        exact ((List.append_sublist_append_right _).mpr hall).trans hsublist'

/-- A value that is only named. -/
theorem of_pure {a : α} {f : α → Emit Code} (hf : Dispatches before nodes (f a)) :
    Dispatches before nodes (Pure.pure a >>= f) := hf

/-- What comes last, and code around its own. -/
theorem last {m : Emit Code} {f : Code → Code} (hm : Dispatches [] nodes m)
    (hf : ∀ code, (before ++ code.fragments).Sublist (f code).fragments) :
    Dispatches before nodes (m >>= fun code => Pure.pure (f code)) := by
  rw [← List.append_nil nodes]
  exact .bind hm fun code => .pure (hf code)

/-- One after the other. -/
theorem andThen {m m' : Emit Code} (hm : Dispatches [] nodes m) (hm' : Dispatches [] others m') :
    Dispatches [] (nodes ++ others) (do
      let first ← m
      return first ++ (← m')) :=
  .bind hm fun _ => .last hm' fun _ => .refl _

end Dispatches

end Emit

/-- A statement's line dispatches this statement. -/
theorem StatementNode.dispatches_emitLine (node : StatementNode) :
    node.emitLine.Dispatches [] [node] := by
  intro context s
  -- the line counts its statement, and nothing that is emitted for it counts another
  have hcount : (node.emitLine.endState context s).statements = s.statements + 1 := by
    have hbuilt : Emit.Built .all (do
        let code ← node.emit
        let hoisted ← Emit.takeHoisted
        return Code.tagged node.span.start hoisted ++ .tagged node.span.start code
          ++ .plain "\n") :=
      .bind node.built.mono fun _ => .bind .takeHoisted fun _ => .pure _
    exact hbuilt.statements_eq context { s with statements := s.statements + 1 }
  cases hrun : node.emitLine context s with
  | error why s' =>
    rw [Emit.endState_of_error hrun] at hcount
    exact .within (List.nil_append [node]).symm (by simp) hcount hrun
  | ok line s' =>
    rw [Emit.endState_of_ok hrun] at hcount
    exact ⟨hcount, [(node, line)], rfl, by simpa using ⟨s, s', hrun⟩, by simp⟩

end AbapLowering
