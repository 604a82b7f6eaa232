import AbapLowering.Proofs.Branches
import AbapLowering.Proofs.Code.Script

/-!
# TRY

The code of a TRY with handlers is one block that catches everything, hands an exception to the first
handler that is meant for its class, and raises it again if there is none. Two things are amiss. The
guards of a handler but the first are run at the end of the handler before, and a TRY without
handlers has no second block at all, so that its code is no statement.

- `Dispatch.run_strayed_of_applies`, `Dispatch.run_strayed_of_none`: what is done with an exception;
- `Reading.IsClosed`: a text after which nothing is open. Such a text followed by a closing brace is
  the only one of its kind (`Reading.eq_of_isClosed`), so a TRY without handlers is no `TryStatement`;
- `StructureNode.catches_emit_try`: all that is promised of the code of a TRY.
-/

namespace AbapLowering

namespace Script

/-! ## Closed texts -/

namespace Reading

/-- Whether nothing is open after a text. -/
def IsClosed (s : String) : Prop := start.read s.toList = some start

instance (s : String) : Decidable (IsClosed s) :=
  inferInstanceAs (Decidable (start.read s.toList = some start))

/-- What is closed before a brace that closes something else is determined by the brace. -/
theorem eq_of_isClosed {a b c d : String} (ha : IsClosed a) (hb : IsClosed b)
    (h : a ++ "\x7d" ++ c = b ++ "\x7d" ++ d) : a = b := by
  -- the longer of two such texts would go on after a brace that nothing is open for
  have hlonger : ∀ {s t : String} {rest : List Char}, IsClosed s → IsClosed t →
      t.toList ≠ s.toList ++ '\x7d' :: rest := by
    intro s t rest hs ht hlong
    rw [IsClosed, hlong, read_append_of hs] at ht
    cases ht
  have hchars : a.toList ++ '\x7d' :: c.toList = b.toList ++ '\x7d' :: d.toList := by
    simpa using congrArg String.toList h
  rcases List.append_eq_append_iff.mp hchars with ⟨middle, hmiddle, hrest⟩ | ⟨middle, hmiddle, hrest⟩
  · cases middle with
    | nil => exact String.toList_inj.mp (by simpa using hmiddle.symm)
    | cons brace rest =>
      obtain ⟨rfl, -⟩ := List.cons.inj hrest
      exact absurd hmiddle (hlonger ha hb)
  · cases middle with
    | nil => exact String.toList_inj.mp (by simpa using hmiddle)
    | cons brace rest =>
      obtain ⟨rfl, -⟩ := List.cons.inj hrest
      exact absurd hmiddle (hlonger hb ha)

end Reading

/-- A block that is tried, and nothing more, is no complete statement. -/
theorem TryStatement.text_ne {body : String} (hbody : Reading.IsClosed body) {t : TryStatement}
    (ht : Reading.IsClosed t.body) : t.text ≠ "try \x7b\n" ++ body ++ "\x7d\n" := by
  intro h
  have hsplit : t.body ++ "\x7d" ++ (" catch (e) \x7b\n" ++ t.handlers.text ++ "\x7d\n") =
      body ++ "\x7d" ++ "\n" := by
    have hchars := congrArg String.toList h
    rw [TryStatement.text] at hchars
    exact String.toList_inj.mp (by simpa using hchars)
  have hsame := Reading.eq_of_isClosed ht hbody hsplit
  rw [hsame] at hsplit
  have hchars := congrArg String.toList hsplit
  simp at hchars

/-! ## Handlers -/

variable {ω ε : Type}

/-- The handlers of a TRY make a chain if each asks something. -/
theorem isChain_strayedFrom_iff (handlers : List Branch) :
    IsChain (strayedFrom (handlers ++ [rethrowing])) ↔
      ∀ b ∈ handlers, ∃ h, b.header = some h ∧ h.tests ≠ [] := by
  induction handlers with
  | nil => exact ⟨nofun, fun _ => nofun⟩
  | cons b rest ih =>
    obtain ⟨next, others, hnext⟩ : ∃ next others, strayedFrom (rest ++ [rethrowing]) = next :: others := by
      cases rest <;> exact ⟨_, _, rfl⟩
    rw [hnext] at ih
    rw [List.cons_append, strayedFrom, hnext, IsChain, ih, List.forall_mem_cons]
    refine and_congr_left fun _ => ⟨?_, ?_⟩
    · rintro ⟨bare, hbare, htests⟩
      obtain ⟨h, hh, rfl⟩ := Option.map_eq_some_iff.mp hbare
      exact ⟨h, hh, htests⟩
    · rintro ⟨h, hh, htests⟩
      exact ⟨h.bare, congrArg (Option.map Header.bare) hh, htests⟩

variable {m : Machine ω ε} {value : ε} {ρ : Test → Bool}

/-- What answers are given on the way through some branches. -/
def Answers (m : Machine ω ε) (e : Option ε) (ρ : Test → Bool) (branches : List Branch) : Prop :=
  ∀ b ∈ branches, ∀ h ∈ b.header, ∀ test ∈ h.tests, test.run m e = pure (ρ test)

theorem Header.run_bare {e : Option ε} {h : Header}
    (htests : ∀ test ∈ h.tests, test.run m e = pure (ρ test)) :
    h.bare.run m e = pure (h.tests.any ρ) :=
  (pure_bind _ _).trans (anyM_of_answers htests)

theorem runBlock_guards (m : Machine ω ε) (e : Option ε) (block : List Piece) (lines : List String) :
    runBlock m e (block ++ lines.map .guard) = (do
      runBlock m e block
      lines.forM (m.exec e)) := by
  refine List.forM_append.trans ?_
  rw [List.forM_map]
  rfl

/-- Branches that do not apply are passed over. -/
theorem runBranches_strayedFrom {e : Option ε} {before rest : List Branch}
    (hanswers : Answers m e ρ before) (hbefore : ∀ b ∈ before, ¬ b.Applies ρ) :
    runBranches m e (strayedFrom (before ++ rest)) = runBranches m e (strayedFrom rest) := by
  induction before with
  | nil => rfl
  | cons b others ih =>
    obtain ⟨hfirst, hothers⟩ := List.forall_mem_cons.mp hbefore
    obtain ⟨htests, hlater⟩ := List.forall_mem_cons.mp hanswers
    obtain ⟨_ | h, block⟩ := b
    · exact absurd nofun hfirst
    · have hfails : h.tests.any ρ = false := by simpa [Branch.Applies] using hfirst
      have hrun : h.bare.run m e = pure (h.tests.any ρ) := Header.run_bare (htests h rfl)
      rw [List.cons_append, strayedFrom, Branch.bare, Option.map_some, runBranches, hrun, pure_bind,
        hfails, if_neg Bool.false_ne_true]
      exact ih hlater hothers

namespace Dispatch

theorem guardsAhead_append (handlers : List Branch) :
    guardsAhead (handlers ++ [rethrowing]) = guardsAhead handlers := by
  cases handlers <;> rfl

/-- The first handler that is meant for an exception is run, and then the guards of the next. -/
theorem run_strayed_of_applies {before after : List Branch} {b : Branch}
    (hanswers : Answers m (some value) ρ (before ++ b :: after))
    (hbefore : ∀ c ∈ before, ¬ c.Applies ρ) (happlies : b.Applies ρ) :
    (strayed (before ++ b :: after ++ [rethrowing])).run m (some value) = (do
      (guardsAhead (before ++ b :: after)).forM (m.exec (some value))
      runBlock m (some value) b.block
      (guardsAhead after).forM (m.exec (some value))) := by
  obtain ⟨hpassed, hrest⟩ := List.forall_mem_append.mp hanswers
  obtain ⟨htests, -⟩ := List.forall_mem_cons.mp hrest
  -- the guards of the next handler are at the end of the block of this one
  have htaken : runBranches m (some value) (strayedFrom (b :: (after ++ [rethrowing]))) =
      runBlock m (some value) (b.block ++ (guardsAhead (after ++ [rethrowing])).map .guard) := by
    obtain ⟨_ | h, block⟩ := b
    · rfl
    · have hrun : h.bare.run m (some value) = pure (h.tests.any ρ) :=
        Header.run_bare (htests h rfl)
      rw [strayedFrom, Branch.bare, Option.map_some, runBranches, hrun, pure_bind,
        happlies h rfl, if_pos rfl]
  rw [run, strayed, guardsAhead_append, List.append_assoc, List.cons_append]
  dsimp only
  rw [runBranches_strayedFrom hpassed hbefore, htaken, guardsAhead_append, runBlock_guards]

/-- What no handler is meant for is raised again. -/
theorem run_strayed_of_none {handlers : List Branch}
    (hanswers : Answers m (some value) ρ handlers) (hnone : ∀ b ∈ handlers, ¬ b.Applies ρ) :
    (strayed (handlers ++ [rethrowing])).run m (some value) = (do
      (guardsAhead handlers).forM (m.exec (some value))
      throw (.exception value)) := by
  have hraised : runBranches m (some value) (strayedFrom [rethrowing]) =
      throw (.exception value) := rfl
  rw [run, strayed, guardsAhead_append]
  dsimp only
  rw [runBranches_strayedFrom hanswers hnone, hraised]

end Dispatch

end Script

open Script

/-! ## The statement -/

namespace StructureNode

variable {context : Context} {s s' : EmissionState}

/-- The classes that a handler is meant for. -/
def handledClasses (node : StructureNode) : List Token :=
  match node.beginsWith? with
  | some (.catchClasses classes _) => classes
  | _ => []

/-- A handler has a test for each of its classes. -/
theorem header_of_emitHandler {node : StructureNode} {b : Branch}
    (h : emitHandler node context s = .ok b s') : ∃ guards, ∃ addresses : List String,
      b.header = some ⟨guards, addresses.map .instanceOf⟩ ∧
        addresses.length = node.handledClasses.length := by
  obtain ⟨⟨statement, span, text⟩, _, hopening, h⟩ := Emit.bind_eq_ok h
  obtain ⟨head, t, hhead, h⟩ := Emit.bind_eq_ok h
  rw [Emit.bind_of_ok (Emit.drain_apply context t)] at h
  obtain ⟨inner, u, -, h⟩ := Emit.bind_eq_ok h
  cases h
  rw [handledClasses, beginsWith?, (opening_eq_ok hopening).1, Option.map_some]
  cases statement with
  | catchClasses classes into =>
    obtain ⟨addresses, t₁, haddresses, hhead⟩ := Emit.bind_eq_ok hhead
    have hlength := (Emit.forall₂_of_mapM haddresses).length_eq.symm
    refine ⟨t.hoisted, addresses, ?_, hlength⟩
    cases into with
    | none =>
      cases hhead
      rfl
    | some target =>
      obtain ⟨object, t₂, -, hhead⟩ := Emit.bind_eq_ok hhead
      cases hhead
      rfl
  | _ => cases hhead

theorem asks_iff {nodes : List StructureNode} {handlers : List Branch}
    (h : List.Forall₂ (fun node b => ∃ t t', emitHandler node context t = .ok b t') nodes handlers) :
    (∀ b ∈ handlers, ∃ header, b.header = some header ∧ header.tests ≠ []) ↔
      ∀ node ∈ nodes, node.handledClasses ≠ [] := by
  induction h with
  | nil => exact ⟨nofun, nofun⟩
  | cons hfirst _ ih =>
    obtain ⟨t, t', hemit⟩ := hfirst
    obtain ⟨guards, addresses, hheader, hlength⟩ := header_of_emitHandler hemit
    rw [List.forall_mem_cons, List.forall_mem_cons, ih]
    refine and_congr_left fun _ => ?_
    simp [hheader, ← List.length_pos_iff, hlength]

/-- What is promised of the code of a TRY that is emitted where nothing waits:

- without a handler, the code ends after the block that is tried, and is no complete statement where
  that block is closed;
- with handlers, it is a statement that tries the block. An exception goes to the first handler that
  is meant for it, which first keeps it, and what no handler is meant for is raised again. The code is
  complete iff each handler names a class. In front of all headers the guards of the first are
  run, and after each handler those of the next: the code does just what the handlers do iff no
  handler but the first has guards. -/
theorem catches_emit_try {children : List Node} {span : Span} {code : Code} (hs : s.hoisted = [])
    (h : StructureNode.emit ⟨.tryBlock, children, span⟩ context s = .ok code s') :
    ∃ body t handlers, emitNodes (triedOf children) context s = .ok body t ∧
      (handlersOf children).mapM emitHandler context t = .ok handlers s' ∧
      (handlersOf children = [] → code.text = "try \x7b\n" ++ body.text ++ "\x7d\n" ∧
        (Reading.IsClosed body.text → ∀ other : TryStatement, Reading.IsClosed other.body →
          other.text ≠ code.text)) ∧
      (handlersOf children ≠ [] →
        let statement : TryStatement := ⟨body.text, .strayed (handlers ++ [rethrowing])⟩
        code.text = statement.text ∧
        (IsChain statement.handlers.branches ↔
          ∀ node ∈ handlersOf children, node.handledClasses ≠ []) ∧
        (statement.handlers.Keeps (handlers ++ [rethrowing]) ↔ ∀ b ∈ handlers.tail, b.guards = []) ∧
        ∀ {ω ε : Type} (m : Machine ω ε) (e : Option ε),
          statement.run m e = (m.exec e body.text).catching
            (fun value => statement.handlers.run m (some value)) ∧
          ∀ (value : ε) (ρ : Test → Bool), Answers m (some value) ρ handlers →
            (∀ before b after, handlers = before ++ b :: after → (∀ c ∈ before, ¬ c.Applies ρ) →
              b.Applies ρ → statement.handlers.run m (some value) = (do
                (guardsAhead handlers).forM (m.exec (some value))
                runBlock m (some value) b.block
                (guardsAhead after).forM (m.exec (some value)))) ∧
            ((∀ b ∈ handlers, ¬ b.Applies ρ) → statement.handlers.run m (some value) = (do
              (guardsAhead handlers).forM (m.exec (some value))
              throw (.exception value)))) := by
  obtain ⟨body, t, handlers, hbody, hhandlers, htext⟩ := exists_handlers_of_emit_try hs h
  have hmatch := Emit.forall₂_of_mapM hhandlers
  refine ⟨body, t, handlers, hbody, hhandlers, fun hnone => ?_, fun hsome => ?_⟩
  -- without handlers there is no `catch`, and the text is no statement
  · obtain rfl : handlers = [] := by
      rw [hnone] at hmatch
      cases hmatch
      rfl
    refine ⟨htext, fun hclosed other hother => ?_⟩
    rw [htext]
    exact TryStatement.text_ne hclosed hother
  -- with handlers the exception is passed from one to the next
  · obtain ⟨first, rest, rfl⟩ := Emit.exists_cons_of_mapM hhandlers hsome
    refine ⟨htext, ?_, keeps_handlers_iff hhandlers, fun m e => ⟨rfl, fun value ρ hanswers => ⟨?_, ?_⟩⟩⟩
    · exact (isChain_strayedFrom_iff _).trans (asks_iff hmatch)
    · intro before b after hsplit hbefore happlies
      rw [hsplit] at hanswers ⊢
      exact Dispatch.run_strayed_of_applies hanswers hbefore happlies
    · exact Dispatch.run_strayed_of_none hanswers

end StructureNode

namespace SourceUnit

/-- A TRY with a handler that keeps the exception, and one for two classes. -/
def catching : List Node :=
  let target : FieldChain := .ofField ⟨"lx", ⟨3, 17⟩⟩
  [.leaf ⟨.tryBody, ⟨⟨1, 1⟩, ⟨1, 4⟩⟩, "TRY."⟩,
    .leaf ⟨.continueLoop, ⟨⟨2, 1⟩, ⟨2, 9⟩⟩, "CONTINUE."⟩,
    .branch ⟨.catchBranch, [
      .leaf ⟨.catchClasses [⟨"cx_a", ⟨3, 7⟩⟩] (some target), ⟨⟨3, 1⟩, ⟨3, 19⟩⟩,
        "CATCH cx_a INTO lx."⟩,
      .leaf ⟨.exitLoop, ⟨⟨4, 1⟩, ⟨4, 5⟩⟩, "EXIT."⟩], ⟨⟨3, 1⟩, ⟨4, 5⟩⟩⟩,
    .branch ⟨.catchBranch, [
      .leaf ⟨.catchClasses [⟨"cx_b", ⟨5, 7⟩⟩, ⟨"cx_c", ⟨5, 12⟩⟩] none, ⟨⟨5, 1⟩, ⟨5, 16⟩⟩,
        "CATCH cx_b cx_c."⟩], ⟨⟨5, 1⟩, ⟨5, 16⟩⟩⟩,
    .leaf ⟨.endTry, ⟨⟨6, 1⟩, ⟨6, 7⟩⟩, "ENDTRY."⟩]

theorem catches_emit_catching :
    let text := Emit.endLines ["try \x7b", "continue;", "\x7d catch (e) \x7b",
      "if (e instanceof abap.Classes['CX_A']) \x7b", "lx.set(e);", "break;",
      "\x7d else if (e instanceof abap.Classes['CX_B'] || e instanceof abap.Classes['CX_C']) \x7b",
      "\x7d else \x7b", "throw e;", "\x7d", "\x7d"]
    StructureNode.codeAlone? ⟨.tryBlock, catching, ⟨⟨1, 1⟩, ⟨6, 7⟩⟩⟩ = some text ∧ ∃ body handlers,
      text = TryStatement.text ⟨body, .strayed (handlers ++ [rethrowing])⟩ ∧
      IsChain (strayedFrom (handlers ++ [rethrowing])) := by
  intro text
  have hcode : StructureNode.codeAlone? ⟨.tryBlock, catching, ⟨⟨1, 1⟩, ⟨6, 7⟩⟩⟩ = some text := by
    decide +kernel
  obtain ⟨code, s', hemit, hread⟩ := StructureNode.exists_of_codeAlone? hcode
  obtain ⟨body, t, handlers, -, -, -, hsome⟩ := StructureNode.catches_emit_try rfl hemit
  obtain ⟨htext, hchain, -, -⟩ := hsome (by simp [catching, StructureNode.handlersOf, structuresOf,
    StructureNode.isCatch])
  rw [hread] at htext
  exact ⟨hcode, body.text, handlers, htext, hchain.mpr (by decide)⟩

/-- A TRY without handlers, and with nothing to try. -/
def tryingNothing : SourceUnit :=
  let opening : StatementNode := ⟨.tryBody, ⟨⟨1, 1⟩, ⟨1, 4⟩⟩, "TRY."⟩
  let closing : StatementNode := ⟨.endTry, ⟨⟨2, 1⟩, ⟨2, 7⟩⟩, "ENDTRY."⟩
  { file := "zfoo.prog.abap"
    object := ⟨.prog, "ZFOO"⟩
    root := ⟨.program, [.branch ⟨.tryBlock, [.leaf opening, .leaf closing], ⟨⟨1, 1⟩, ⟨2, 7⟩⟩⟩],
      ⟨⟨1, 1⟩, ⟨2, 7⟩⟩⟩
    scopes := ⟨#[.fresh .program "zfoo" "zfoo.prog.abap" ⟨⟨1, 1⟩, ⟨9, 1⟩⟩ none]⟩ }

/-- Its code stops after the block that is tried. -/
theorem lower_tryingNothing :
    (tryingNothing.lower .standard .empty 0).1.toOption.map (·.code) = some "try \x7b\n\x7d\n" ∧
      ∀ t : TryStatement, Reading.IsClosed t.body → t.text ≠ "try \x7b\n\x7d\n" := by
  refine ⟨by decide +kernel, fun t ht => ?_⟩
  have hbody : Reading.IsClosed "" := rfl
  exact TryStatement.text_ne hbody ht

end SourceUnit

end AbapLowering
