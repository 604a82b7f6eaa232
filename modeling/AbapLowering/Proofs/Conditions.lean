import AbapLowering.Emission.Flow
import AbapLowering.Proofs.Code.Logic
import AbapLowering.Proofs.Emission.Outcome

/-!
# What code for conditions means

The code of a condition has the truth value of the condition, whatever its checks come to, and so
has the condition of a loop or branch that runs guards first (`Condition.hasValue_emit`).

- `Condition.checks`, `Condition.value`: the checks of a condition in their order, and its truth
  value under truth values for them;
- the code of a condition that is no disjunction binds at least like a conjunction, that of any
  condition at least like a disjunction (`Condition.means_emit`).
-/

namespace AbapLowering

open Logic

/-! ## Checks -/

/-- A question about operands whose answer is a truth value at run time. -/
inductive Check where
  | compare (left : Source) (operator : CompareOperator) (right : Source)
  | predicate (operand : Source) (property : Predicate)
  | within (operand range : Source)

namespace Check

/-- The call of a check. -/
def emit : Check → Emit String
  | compare left operator right => Condition.emitCompare left operator right
  | predicate operand property => Condition.emitPredicate operand property false
  | within operand range => Condition.emitWithin operand range false

variable {context : Context} {s s' : EmissionState}

/-- The call of a check begins like all calls of the runtime. -/
theorem head?_of_emit {check : Check} {call : String} (h : check.emit context s = .ok call s') :
    call.toList.head? = some 'a' := by
  cases check with
  | compare left operator right =>
    rw [emit, Condition.emitCompare] at h
    obtain ⟨_, _, -, h⟩ := Emit.bind_eq_ok h
    obtain ⟨_, _, -, h⟩ := Emit.bind_eq_ok h
    cases h
    simp
  | predicate operand property =>
    rw [emit, Condition.emitPredicate] at h
    obtain ⟨_, _, -, h⟩ := Emit.bind_eq_ok h
    cases h
    simp [Condition.negateIf]
  | within operand range =>
    rw [emit, Condition.emitWithin] at h
    obtain ⟨_, _, -, h⟩ := Emit.bind_eq_ok h
    obtain ⟨_, _, -, h⟩ := Emit.bind_eq_ok h
    cases h
    simp [Condition.negateIf]

/-- A negated predicate is a negation of the check. -/
theorem emitPredicate_of_emit {operand : Source} {property : Predicate} {call : String}
    (h : (predicate operand property).emit context s = .ok call s') (negated : Bool) :
    Condition.emitPredicate operand property negated context s =
      .ok (Condition.negateIf negated call) s' := by
  rw [emit, Condition.emitPredicate] at h
  obtain ⟨text, _, htext, h⟩ := Emit.bind_eq_ok h
  cases h
  exact Emit.bind_of_ok htext _

/-- A negated range is a negation of the check. -/
theorem emitWithin_of_emit {operand range : Source} {call : String}
    (h : (within operand range).emit context s = .ok call s') (negated : Bool) :
    Condition.emitWithin operand range negated context s =
      .ok (Condition.negateIf negated call) s' := by
  rw [emit, Condition.emitWithin] at h
  obtain ⟨first, _, hfirst, h⟩ := Emit.bind_eq_ok h
  obtain ⟨second, _, hsecond, h⟩ := Emit.bind_eq_ok h
  cases h
  exact (Emit.bind_of_ok hfirst _).trans (Emit.bind_of_ok hsecond _)

end Check

/-! ## Conditions -/

mutual

/-- No part of the condition is unsupported, and conjunctions and disjunctions have items. -/
def Condition.IsComplete : Condition → Prop
  | .compare _ _ _ | .predicate _ _ _ | .within _ _ _ => True
  | .not inner | .paren inner => inner.IsComplete
  | .and items | .or items => items ≠ [] ∧ allComplete items
  | .unsupported _ _ _ => False

/-- All items are complete. -/
def allComplete : List Condition → Prop
  | [] => True
  | item :: rest => item.IsComplete ∧ allComplete rest

end

mutual

/-- The checks of a condition, from left to right. -/
def Condition.checks : Condition → List Check
  | .compare left operator right => [.compare left operator right]
  | .predicate operand predicate _ => [.predicate operand predicate]
  | .within operand range _ => [.within operand range]
  | .not inner | .paren inner => inner.checks
  | .and items | .or items => checksOf items
  | .unsupported _ _ _ => []

/-- The checks of some conditions. -/
def checksOf : List Condition → List Check
  | [] => []
  | item :: rest => item.checks ++ checksOf rest

end

mutual

/-- The truth value of a condition whose checks are numbered from `n` on. -/
def Condition.value (ρ : Nat → Bool) (n : Nat) : Condition → Bool
  | .compare _ _ _ => ρ n
  | .predicate _ _ negated | .within _ _ negated => negated != ρ n
  | .not inner => !inner.value ρ n
  | .and items => allHold ρ n items
  | .or items => anyHolds ρ n items
  | .paren inner => inner.value ρ n
  | .unsupported _ _ _ => false

/-- Whether all conditions are true. -/
def allHold (ρ : Nat → Bool) (n : Nat) : List Condition → Bool
  | [] => true
  | item :: rest => item.value ρ n && allHold ρ (n + item.checks.length) rest

/-- Whether a condition is true. -/
def anyHolds (ρ : Nat → Bool) (n : Nat) : List Condition → Bool
  | [] => false
  | item :: rest => item.value ρ n || anyHolds ρ (n + item.checks.length) rest

end

/-- The calls of checks, numbered from `n` on. -/
def numbered (n : Nat) (calls : List String) : List Atom :=
  (calls.zipIdx n).map fun (call, number) => .check call number

/-- Checks are numbered on. -/
theorem numbered_append (n : Nat) (calls others : List String) :
    numbered n (calls ++ others) = numbered n calls ++ numbered (n + calls.length) others := by
  simp [numbered, List.zipIdx_append]

/-- The calls of checks begin with a letter. -/
theorem callsStart_numbered {calls : List String}
    (h : ∀ call ∈ calls, call.toList.head? = some 'a') (n : Nat) :
    Lexeme.CallsStart (numbered n calls) := by
  intro call number hmem
  obtain ⟨⟨other, i⟩, hother, heq⟩ := List.mem_map.mp hmem
  cases heq
  exact h call (List.fst_mem_of_mem_zipIdx hother)

section

variable {context : Context} {s s' : EmissionState}

/-- Emitting one item after the other gives one result for each, of the kind that items give. -/
theorem results_of_mapM {α β : Type} {f : α → Emit β} {P : β → Prop}
    (hf : ∀ {item context s b s'}, f item context s = .ok b s' → P b) :
    ∀ {items : List α} {results : List β} {s : EmissionState},
      items.mapM f context s = .ok results s' →
        results.length = items.length ∧ ∀ b ∈ results, P b := by
  intro items results s h
  have hmatch := Emit.forall₂_of_mapM h
  refine ⟨hmatch.length_eq.symm, ?_⟩
  clear h
  induction hmatch with
  | nil => nofun
  | cons hfirst _ ih =>
    obtain ⟨t, t', hfirst⟩ := hfirst
    exact List.forall_mem_cons.mpr ⟨hf hfirst, ih⟩

/-- There is one call for each check. -/
theorem calls_of_mapM {checks : List Check} {calls : List String}
    (h : checks.mapM Check.emit context s = .ok calls s') :
    calls.length = checks.length ∧ ∀ call ∈ calls, call.toList.head? = some 'a' :=
  results_of_mapM Check.head?_of_emit h

end

/-! ## Meaning of emitted code -/

/-- Where the checks can be emitted, one after the other, the code is emitted with their calls in it,
binds with some strength at least, and has a value that depends on the checks. -/
def EmitsMeaning (m : Emit String) (checks : List Check) (k : Nat)
    (value : (Nat → Bool) → Nat → Bool) : Prop :=
  ∀ (context : Context) (s s' : EmissionState) (calls : List String) (n : Nat),
    checks.mapM Check.emit context s = .ok calls s' →
      ∃ ts, m context s = .ok (Lexeme.code ts) s' ∧ Lexeme.atoms ts = numbered n calls ∧
        Means k ts fun ρ => value ρ n

namespace EmitsMeaning

variable {m : Emit String} {checks : List Check} {k l : Nat} {value : (Nat → Bool) → Nat → Bool}

/-- The meaning stays in a place for something weaker. -/
theorem mono (h : EmitsMeaning m checks k value) (hle : l ≤ k) : EmitsMeaning m checks l value := by
  intro context s s' calls n hcalls
  obtain ⟨ts, hemit, hatoms, hmeans⟩ := h context s s' calls n hcalls
  exact ⟨ts, hemit, hatoms, hmeans.mono hle⟩

/-- Parentheses keep the meaning. -/
theorem parens (h : EmitsMeaning m checks 0 value) :
    EmitsMeaning (return Condition.inParens (← m)) checks 5 value := by
  intro context s s' calls n hcalls
  obtain ⟨ts, hemit, hatoms, hmeans⟩ := h context s s' calls n hcalls
  have hcode : Lexeme.code (.opened :: ts ++ [.closed]) = Condition.inParens (Lexeme.code ts) := by
    simp [Lexeme.text, Condition.inParens, String.append_assoc]
  refine ⟨.opened :: ts ++ [.closed], ?_, by simpa using hatoms, hmeans.parens⟩
  rw [Emit.bind_of_ok hemit, hcode]
  rfl

/-- A negation has the opposite meaning. -/
theorem no (h : EmitsMeaning m checks 4 value) :
    EmitsMeaning (return "!" ++ (← m)) checks 4 fun ρ n => !value ρ n := by
  intro context s s' calls n hcalls
  obtain ⟨ts, hemit, hatoms, hmeans⟩ := h context s s' calls n hcalls
  refine ⟨.no :: ts, ?_, by simpa using hatoms, hmeans.no⟩
  rw [Emit.bind_of_ok hemit, Lexeme.code_cons]
  rfl

/-- A negation, with what is negated in parentheses. -/
theorem negation (h : EmitsMeaning m checks 0 value) :
    EmitsMeaning (return "!" ++ Condition.inParens (← m)) checks 4 fun ρ n => !value ρ n := by
  simpa using (h.parens.mono (by decide)).no

/-- A check on its own. -/
theorem ofCheck (check : Check) : EmitsMeaning check.emit [check] 5 fun ρ n => ρ n := by
  intro context s s' calls n hcalls
  rw [List.mapM_cons] at hcalls
  obtain ⟨call, _, hcall, hcalls⟩ := Emit.bind_eq_ok hcalls
  rw [List.mapM_nil] at hcalls
  obtain ⟨_, _, hnil, hcalls⟩ := Emit.bind_eq_ok hcalls
  cases hnil
  cases hcalls
  have hcode : Lexeme.code [.atom (.check call n)] = call := by simp [Lexeme.text, Atom.text]
  exact ⟨[.atom (.check call n)], hcode.symm ▸ hcall, rfl, .check call n⟩

/-- A check that is negated if asked to. -/
theorem ofNegatable {check : Check} {m : Bool → Emit String}
    (hm : ∀ {context s call s'}, check.emit context s = .ok call s' → ∀ negated,
      m negated context s = .ok (Condition.negateIf negated call) s') (negated : Bool) :
    EmitsMeaning (m negated) [check] 3 fun ρ n => negated != ρ n := by
  intro context s s' calls n hcalls
  obtain ⟨ts, hemit, hatoms, hmeans⟩ := ofCheck check context s s' calls n hcalls
  cases negated with
  | false => exact ⟨ts, hm hemit false, hatoms, by simpa using hmeans.mono (by decide)⟩
  | true =>
    have hcode : Lexeme.code (ts ++ [.operator .same, .falsity]) =
        Condition.negateIf true (Lexeme.code ts) := by
      simp [Condition.negateIf, Lexeme.text]
    refine ⟨ts ++ [.operator .same, .falsity], hcode ▸ hm hemit true, by simpa using hatoms, ?_⟩
    simpa using (hmeans.mono (by decide)).refuted

end EmitsMeaning

/-- A predicate means its check, or not. -/
theorem means_emitPredicate (operand : Source) (property : Predicate) (negated : Bool) :
    EmitsMeaning (Condition.emitPredicate operand property negated) [.predicate operand property] 3
      fun ρ n => negated != ρ n :=
  .ofNegatable Check.emitPredicate_of_emit negated

theorem means_emitWithin (operand range : Source) (negated : Bool) :
    EmitsMeaning (Condition.emitWithin operand range negated) [.within operand range] 3
      fun ρ n => negated != ρ n :=
  .ofNegatable Check.emitWithin_of_emit negated

/-- The texts of some items come to one text, with an operator between them. -/
def EmitsJoined (m : Emit (List String)) (o : Operator) (checks : List Check)
    (value : (Nat → Bool) → Nat → Bool) : Prop :=
  ∀ (context : Context) (s s' : EmissionState) (calls : List String) (n : Nat),
    checks.mapM Check.emit context s = .ok calls s' →
      ∃ first rest ts, m context s = .ok (first :: rest) s' ∧
        (Lexeme.operator o).text.intercalate (first :: rest) = Lexeme.code ts ∧
        Lexeme.atoms ts = numbered n calls ∧ Means o.strength ts fun ρ => value ρ n

namespace EmitsJoined

variable {o : Operator} {first : Emit String} {others : Emit (List String)}
  {checks checks' : List Check} {v w : (Nat → Bool) → Nat → Bool}

/-- One condition alone is joined by any operator. -/
theorem single (hfirst : EmitsMeaning first checks o.strength v) :
    EmitsJoined (return [← first]) o checks v := by
  intro context s s' calls n hcalls
  obtain ⟨ts, hemit, hatoms, hmeans⟩ := hfirst context s s' calls n hcalls
  refine ⟨Lexeme.code ts, [], ts, ?_, String.intercalate_singleton, hatoms, hmeans⟩
  rw [Emit.bind_of_ok hemit]
  rfl

/-- A condition in front of others is joined to them by the operator. -/
theorem cons (hfirst : EmitsMeaning first checks o.strength v)
    (hothers : EmitsJoined others o checks' w) :
    EmitsJoined (return (← first) :: (← others)) o (checks ++ checks') fun ρ n =>
      o.apply (v ρ n) (w ρ (n + checks.length)) := by
  intro context s s' calls n hcalls
  rw [List.mapM_append] at hcalls
  obtain ⟨callsFirst, s₁, hcallsFirst, hcalls⟩ := Emit.bind_eq_ok hcalls
  obtain ⟨callsOthers, _, hcallsOthers, hcalls⟩ := Emit.bind_eq_ok hcalls
  cases hcalls
  obtain ⟨ts, hemit, hatoms, hmeans⟩ := hfirst context s s₁ callsFirst n hcallsFirst
  obtain ⟨text, rest, us, hemitOthers, hcode, hatomsOthers, hmeansOthers⟩ :=
    hothers context s₁ s' callsOthers (n + checks.length) hcallsOthers
  refine ⟨Lexeme.code ts, text :: rest, ts ++ .operator o :: us, ?_, ?_, ?_,
    hmeans.append o hmeansOthers⟩
  · rw [Emit.bind_of_ok hemit, Emit.bind_of_ok hemitOthers]
    rfl
  · rw [String.intercalate_cons_cons, hcode, Lexeme.code_append, Lexeme.code_cons,
      String.append_assoc]
  · rw [Lexeme.atoms_append, Lexeme.atoms_operator, hatoms, hatomsOthers, numbered_append,
      (calls_of_mapM hcallsFirst).1]

/-- The items of a conjunction or disjunction with the operator between them. -/
theorem meaning (h : EmitsJoined others o checks v) :
    EmitsMeaning (return (Lexeme.operator o).text.intercalate (← others)) checks o.strength v := by
  intro context s s' calls n hcalls
  obtain ⟨first, rest, ts, hemit, hcode, hatoms, hmeans⟩ := h context s s' calls n hcalls
  refine ⟨ts, ?_, hatoms, hmeans⟩
  rw [Emit.bind_of_ok hemit, hcode]
  rfl

end EmitsJoined

/-! ## Meaning of conditions -/

namespace Condition

/-- How strong the code of a condition binds at least. -/
def strength (c : Condition) : Nat :=
  if c.isDisjunction then Operator.or.strength else Operator.and.strength

/-- Every condition binds more weakly than a comparison. -/
theorem strength_le (c : Condition) {k : Nat} (h : 2 ≤ k) : c.strength ≤ k := by
  refine Nat.le_trans ?_ h
  unfold strength
  split <;> decide

theorem le_strength (c : Condition) : Operator.or.strength ≤ c.strength := by
  unfold strength
  split <;> decide

/-- The text of an item of a conjunction. -/
def emitConjunct (item : Condition) : Emit String := do
  let text ← item.emit
  return if item.isDisjunction then inParens text else text

end Condition

/-- Conditions that all have to hold are emitted one by one. -/
theorem emitConjuncts_cons (item : Condition) (rest : List Condition) :
    emitConjuncts (item :: rest) = do return (← item.emitConjunct) :: (← emitConjuncts rest) := by
  simp [emitConjuncts, Condition.emitConjunct]

theorem emitConjuncts_singleton (item : Condition) :
    emitConjuncts [item] = do return [← item.emitConjunct] := by
  simp [emitConjuncts, Condition.emitConjunct]

theorem emitDisjuncts_singleton (item : Condition) :
    emitDisjuncts [item] = do return [← item.emit] := by
  simp [emitDisjuncts]

theorem emitDisjuncts_cons (item : Condition) (rest : List Condition) :
    emitDisjuncts (item :: rest) = do return (← item.emit) :: (← emitDisjuncts rest) := by
  simp [emitDisjuncts]

/-- Disjunctions among the items of a conjunction stand in parentheses. -/
theorem means_emitConjunct {item : Condition}
    (h : EmitsMeaning item.emit item.checks item.strength item.value) :
    EmitsMeaning item.emitConjunct item.checks Operator.and.strength
      (fun ρ n => item.value ρ n) := by
  unfold Condition.emitConjunct
  unfold Condition.strength at h
  split at h
  next hdisjunction =>
    simp only [hdisjunction, if_true]
    exact (h.mono (Nat.zero_le _)).parens.mono (by decide)
  next hdisjunction => simpa [hdisjunction] using h

mutual

/-- The code of a condition means what the condition means. -/
theorem Condition.means_emit : ∀ c : Condition, c.IsComplete →
    EmitsMeaning c.emit c.checks c.strength fun ρ n => c.value ρ n
  | .compare left operator right, _ =>
    (EmitsMeaning.ofCheck (.compare left operator right)).mono (Condition.strength_le _ (by decide))
  | .predicate operand property negated, _ =>
    (means_emitPredicate operand property negated).mono (Condition.strength_le _ (by decide))
  | .within operand range negated, _ =>
    (means_emitWithin operand range negated).mono (Condition.strength_le _ (by decide))
  -- the negation of these two turns into the opposite test
  | .not (.predicate operand property negated), _ => by
    have hcheck := (means_emitPredicate operand property (!negated)).mono
      (Condition.strength_le (.not (.predicate operand property negated)) (by decide))
    simpa [Condition.emit, Condition.checks, Condition.value] using hcheck
  | .not (.within operand range negated), _ => by
    have hcheck := (means_emitWithin operand range (!negated)).mono
      (Condition.strength_le (.not (.within operand range negated)) (by decide))
    simpa [Condition.emit, Condition.checks, Condition.value] using hcheck
  | .not (.compare left operator right), _ =>
    ((EmitsMeaning.ofCheck (.compare left operator right)).mono (by decide)).no.mono
      (Condition.strength_le _ (by decide))
  -- anything else is negated as a whole, in parentheses
  | .not (.paren inner), h =>
    ((Condition.means_emit inner h).mono (Nat.zero_le _)).negation.mono
      (Condition.strength_le _ (by decide))
  | .not (.not inner), h =>
    ((Condition.means_emit (.not inner) h).mono (Nat.zero_le _)).negation.mono
      (Condition.strength_le _ (by decide))
  | .not (.and items), h =>
    ((Condition.means_emit (.and items) h).mono (Nat.zero_le _)).negation.mono
      (Condition.strength_le _ (by decide))
  | .not (.or items), h =>
    ((Condition.means_emit (.or items) h).mono (Nat.zero_le _)).negation.mono
      (Condition.strength_le _ (by decide))
  | .not (.unsupported _ _ _), h => h.elim
  | .and items, h => (means_emitConjuncts items h.1 h.2).meaning
  | .or items, h => (means_emitDisjuncts items h.1 h.2).meaning
  | .paren inner, h =>
    ((Condition.means_emit inner h).mono (Nat.zero_le _)).parens.mono
      (Condition.strength_le _ (by decide))
  | .unsupported _ _ _, h => h.elim

/-- Conditions joined by `&&` hold if all of them do. -/
theorem means_emitConjuncts : ∀ items : List Condition, items ≠ [] → allComplete items →
    EmitsJoined (emitConjuncts items) .and (checksOf items) fun ρ n => allHold ρ n items
  | [], h, _ => absurd rfl h
  | [item], _, h => by
    have hitem := means_emitConjunct (Condition.means_emit item h.1)
    rw [emitConjuncts_singleton]
    simpa [checksOf, allHold] using EmitsJoined.single hitem
  | item :: next :: rest, _, h => by
    have hitem := means_emitConjunct (Condition.means_emit item h.1)
    rw [emitConjuncts_cons]
    exact .cons hitem (means_emitConjuncts (next :: rest) (by simp) h.2)

/-- Conditions joined by `||` hold if one of them does. -/
theorem means_emitDisjuncts : ∀ items : List Condition, items ≠ [] → allComplete items →
    EmitsJoined (emitDisjuncts items) .or (checksOf items) fun ρ n => anyHolds ρ n items
  | [], h, _ => absurd rfl h
  | [item], _, h => by
    have hitem := (Condition.means_emit item h.1).mono item.le_strength
    rw [emitDisjuncts_singleton]
    simpa [checksOf, anyHolds] using EmitsJoined.single hitem
  | item :: next :: rest, _, h => by
    have hitem := (Condition.means_emit item h.1).mono item.le_strength
    rw [emitDisjuncts_cons]
    exact .cons hitem (means_emitDisjuncts (next :: rest) (by simp) h.2)

end

/-! ## Guarded conditions -/

/-- The lines that run before a condition, if there are any. -/
def blockOf (lines : List String) : List Atom :=
  if lines.isEmpty then [] else [.block lines]

/-- Guards run before the condition and leave its value as it is. -/
theorem Logic.Means.guarded {ts : List Lexeme} {v : (Nat → Bool) → Bool} (h : Means 1 ts v)
    (lines : List String) : ∃ us, Lexeme.atoms us = blockOf lines ++ Lexeme.atoms ts ∧
      Lexeme.code us = (if lines.isEmpty then Lexeme.code ts
        else "(() => \x7b " ++ " ".intercalate lines ++ " \x7d)(), " ++ Lexeme.code ts) ∧
      Means 0 us v := by
  unfold blockOf
  split
  · exact ⟨ts, rfl, rfl, h.mono (by decide)⟩
  · obtain ⟨e, he, hvalue⟩ := h
    have hblock : Derives Operator.comma.strength [.atom (.block lines)] (.atom (.block lines)) :=
      (Derives.atom _).mono (by decide)
    refine ⟨[.atom (.block lines)] ++ .operator .comma :: ts, by simp, String.toList_inj.mp ?_,
      _, Derives.binary .comma hblock he, hvalue⟩
    simp [Lexeme.text, Atom.text]

/-- The code of a condition means what the condition means: read with the calls of its checks in it,
by the strength of its operators, it makes just one expression, which has the truth value of the
condition whatever the checks come to. Where guards wait for a loop or a branch, they run first and
the condition keeps its value. -/
theorem Condition.hasValue_emit (c : Condition) (hc : c.IsComplete) {context : Context}
    {s s' : EmissionState} {calls : List String}
    (hcalls : c.checks.mapM Check.emit context s = .ok calls s') :
    ∃ text guarded, c.emit context s = .ok text s' ∧
      HasValue (numbered 0 calls) text (fun ρ => c.value ρ 0) ∧
      Flow.whileTrue c context s =
        .ok ("while (" ++ guarded ++ ") \x7b") { s' with hoisted := [] } ∧
      Flow.elseIf c context s =
        .ok ("\x7d else if (" ++ guarded ++ ") \x7b") { s' with hoisted := [] } ∧
      HasValue (blockOf s'.hoisted ++ numbered 0 calls) guarded (fun ρ => c.value ρ 0) := by
  obtain ⟨ts, hemit, hatoms, hmeans⟩ := c.means_emit hc context s s' calls 0 hcalls
  have hstart := callsStart_numbered (calls_of_mapM hcalls).2 0
  obtain ⟨us, hatoms', hcode, hmeans'⟩ := (hmeans.mono c.le_strength).guarded s'.hoisted
  rw [hatoms] at hatoms'
  have hguarded := Emit.guarded_apply (Lexeme.code ts) context s'
  rw [← hcode] at hguarded
  refine ⟨Lexeme.code ts, Lexeme.code us, hemit, ?_, ?_, ?_, ?_⟩
  · rw [← hatoms]
    exact (hmeans.mono (Nat.zero_le _)).hasValue (hatoms ▸ hstart)
  · rw [Flow.whileTrue, Emit.bind_of_ok hemit, Emit.bind_of_ok hguarded]
    rfl
  · rw [Flow.elseIf, Emit.bind_of_ok hemit, Emit.bind_of_ok hguarded]
    rfl
  · rw [← hatoms']
    refine hmeans'.hasValue ?_
    rw [hatoms']
    intro call number hmem
    refine hstart call number ((List.mem_append.mp hmem).resolve_left fun h => ?_)
    -- the guards are a function of their own, and no call
    unfold blockOf at h
    split at h <;> simp at h

/-! ## A nested condition -/

namespace NestedCondition

def context : Context :=
  ⟨⟨⟨#[.fresh .program "z" "z.prog.abap" ⟨⟨1, 1⟩, ⟨9, 1⟩⟩ none]⟩, .empty, "z.prog.abap",
    ⟨.prog, "Z"⟩⟩, .standard⟩

/-- The call of a method that is named at run time, for which guards wait. -/
def call : MethodCall :=
  ⟨.implicit, .dynamic (.literal "m"), ⟨none, [], [], [], none, []⟩⟩

/-- A conjunction of a comparison and a disjunction that stands in no parentheses in the tree. -/
def condition : Condition :=
  let a : Source := .field (.ofField ⟨"a", ⟨1, 1⟩⟩)
  .and [.compare a .eq a, .or [.predicate (.call call) .initial true, .not (.within a a false)]]

/-- The calls of the checks and how many lines wait after them. -/
def outcome : Option (List String × Nat) :=
  match condition.checks.mapM Check.emit context (.initial 0) with
  | .ok calls s => some (calls, s.hoisted.length)
  | .error _ _ => none

/-- Three checks, one of them an awaited call that is guarded. -/
theorem exists_calls : ∃ s', s'.hoisted.length = 2 ∧
    condition.checks.mapM Check.emit context (.initial 0) =
      .ok ["abap.compare.eq(a, a)", "abap.compare.initial(await this.m())", "abap.compare.in(a, a)"]
        s' := by
  have houtcome : outcome = some (["abap.compare.eq(a, a)", "abap.compare.initial(await this.m())",
    "abap.compare.in(a, a)"], 2) := by decide +kernel
  unfold outcome at houtcome
  split at houtcome
  next calls s hcalls =>
    obtain ⟨rfl, hlines⟩ := Prod.mk.inj (Option.some.inj houtcome)
    exact ⟨s, hlines, hcalls⟩
  next => cases houtcome

/-- With the disjunction in parentheses, and negations taken into the checks. -/
theorem hasValue_emit_condition : ∃ (text guarded : String) (s' : EmissionState),
    s'.hoisted.length = 2 ∧ condition.emit context (.initial 0) = .ok text s' ∧
      let calls := ["abap.compare.eq(a, a)", "abap.compare.initial(await this.m())",
        "abap.compare.in(a, a)"]
      HasValue (numbered 0 calls) text (fun ρ => ρ 0 && (!ρ 1 || !ρ 2)) ∧
      HasValue (blockOf s'.hoisted ++ numbered 0 calls) guarded
        (fun ρ => ρ 0 && (!ρ 1 || !ρ 2)) := by
  obtain ⟨s', hlines, hcalls⟩ := exists_calls
  obtain ⟨text, guarded, hemit, hvalue, -, -, hguarded⟩ :=
    condition.hasValue_emit ⟨by simp, trivial, ⟨by simp, trivial, trivial, trivial⟩, trivial⟩ hcalls
  have hmeaning (ρ : Nat → Bool) : condition.value ρ 0 = (ρ 0 && (!ρ 1 || !ρ 2)) := by
    simp [condition, Condition.value, allHold, anyHolds, Condition.checks]
  simp only [hmeaning] at hvalue hguarded
  exact ⟨text, guarded, s', hlines, hemit, hvalue, hguarded⟩

end NestedCondition

end AbapLowering
