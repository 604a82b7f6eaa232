import AbapLowering.Proofs.Members
import AbapLowering.Proofs.Scope.Method

/-!
# The lines that set up an instance

A constructor sets up the instance of a class, which is found from a position, with the interfaces that
are found from the scope there.

- `LeadsTo`: from a state a position leads to a scope and to the class around it. What METHOD asks before
  does not change that (`LeadsTo.of_enclosingMethod`);
- `SetsUp`: lines set up an instance of a class, with the interfaces that are found from a scope;
- a constructor that is inserted consists of such lines (`Members.exists_of_defaultConstructor`), and from
  positions that lead to the same definitions they are the same but for the call of the superclass
  (`Members.exists_defaultConstructor`).
-/

namespace AbapLowering

/-! ## The class around a position -/

namespace View

/-- The class around a scope. -/
def classFrom (v : View) (scope : Option ScopeId) : Except GraphFault (Option ClassDefinition) := do
  v.classOf (← scope.elim (.ok none) fun scope => v.graph.enclosing? scope classScopes)

/-- The class at a position is the class of the scope around it. -/
theorem classAt_eq {v : View} (p : Position) : v.classAt p = .around p v.classFrom := by
  have hclassAt : v.classAt p = v.enclosing p classScopes >>= fun owner =>
      Query.ofWalk (v.classOf owner) := by
    refine congrArg (v.enclosing p classScopes >>= ·) (funext fun owner => ?_)
    cases owner <;> rfl
  rw [hclassAt, enclosing_eq, Query.around, Query.around, Query.bind_assoc]
  refine congrArg (Query.scopeAround p >>= ·) (funext fun found => ?_)
  rw [classFrom]
  cases found.elim (.ok none) fun scope => v.graph.enclosing? scope classScopes <;> rfl

/-- From two scopes some names and all that they include lead to the same interfaces. -/
def AgreeOn (v : View) (scope scope' : Option ScopeId) (names : List String) : Prop :=
  ∀ name, Reaches (v.findInterface? scope) names name →
    v.findInterface? scope name = v.findInterface? scope' name

end View

/-- From a state a position leads to a scope and to the class around it. -/
structure LeadsTo (context : Context) (s : EmissionState) (p : Position) (scope : Option ScopeId)
    (c : ClassDefinition) : Prop where
  scope_eq : ∃ t, Emit.ask (fun _ => Query.scopeAround p) context s = .ok scope t
  class_eq : ∃ t, Emit.ask (fun v => v.classAt p) context s = .ok (some c) t

namespace Emit

variable {α : Type} {context : Context} {s t u : EmissionState} {p : Position}

/-- An answer depends on nothing but the scope that was found last. -/
theorem ask_of_slot_eq {question : View → Query α} {a : α} (hslot : u.slot = s.slot)
    (h : ask question context s = .ok a t) : ∃ t', ask question context u = .ok a t' := by
  obtain ⟨slot, hrun, -⟩ := ask_eq_ok_iff.mp h
  exact ⟨{ u with slot }, ask_eq_ok_iff.mpr ⟨slot, by rw [hslot]; exact hrun, rfl⟩⟩

/-- The search for the method around a position finds the scope there, and nothing else remains. -/
theorem exists_scopeAround_of_enclosingMethod {m? : Option EnclosingMethod}
    (h : ask (fun v => v.enclosingMethod p) context s = .ok m? t) :
    ∃ found, ask (fun _ => Query.scopeAround p) context s = .ok found t := by
  unfold View.enclosingMethod at h
  obtain ⟨inner?, t₁, hinner, h⟩ := exists_of_ask_bind h
  obtain ⟨found, hfound, -⟩ := (ask_around_iff (View.enclosing_eq _ _)).mp hinner
  cases inner? with
  | none =>
    cases h
    exact ⟨found, hfound⟩
  | some inner =>
    obtain ⟨scope, inner⟩ := inner
    obtain ⟨definition, t₂, hdefinition, h⟩ := exists_of_ask_bind h
    cases h
    -- looking for the definition asks for the same place again, which moves nothing
    have hkept : t₂ = t₁ := by
      unfold View.methodDefinition at hdefinition
      cases hparts : View.splitQualified? inner.name with
      | some parts =>
        simp only [hparts] at hdefinition
        obtain ⟨i, _, hi, hdefinition⟩ := exists_of_ask_bind hdefinition
        cases hdefinition
        exact (walk_eq_ok_iff.mp hi).2
      | none =>
        simp only [hparts] at hdefinition
        obtain ⟨c, _, hc, hdefinition⟩ := exists_of_ask_bind hdefinition
        cases hdefinition
        obtain ⟨found', hfound', -⟩ := (ask_around_iff (View.classAt_eq p)).mp hc
        cases (ask_scopeAround_again hfound).symm.trans hfound'
        rfl
    rw [hkept]
    exact ⟨found, hfound⟩

end Emit

namespace LeadsTo

variable {context : Context} {s t t' : EmissionState} {p : Position} {scope : Option ScopeId}
  {c : ClassDefinition}

/-- The answers to two questions say where a class is and what it is. -/
theorem of_asks (hclass : Emit.ask (fun v => v.classAt p) context s = .ok (some c) t)
    (hscope : Emit.ask (fun _ => Query.scopeAround p) context t = .ok scope t') :
    LeadsTo context s p scope c := by
  obtain ⟨found, hfound, -⟩ := (Emit.ask_around_iff (View.classAt_eq p)).mp hclass
  cases (Emit.ask_scopeAround_again hfound).symm.trans hscope
  exact ⟨⟨t, hfound⟩, ⟨t, hclass⟩⟩

/-- Where the class is found depends on what was looked up last, and on nothing else of a state. -/
theorem of_slot_eq (hslot : s.slot = t.slot) (h : LeadsTo context t p scope c) :
    LeadsTo context s p scope c := by
  obtain ⟨⟨_, hscope⟩, ⟨_, hclass⟩⟩ := h
  exact ⟨Emit.ask_of_slot_eq hslot hscope, Emit.ask_of_slot_eq hslot hclass⟩

/-- After the search for the method around a position it leads to the same class as before. -/
theorem of_enclosingMethod {m? : Option EnclosingMethod}
    (hm : Emit.ask (fun v => v.enclosingMethod p) context s = .ok m? t)
    (h : LeadsTo context t p scope c) : LeadsTo context s p scope c := by
  obtain ⟨found, hfound⟩ := Emit.exists_scopeAround_of_enclosingMethod hm
  have hagain := Emit.ask_scopeAround_again hfound
  obtain ⟨⟨_, hscope⟩, ⟨_, hclass⟩⟩ := h
  cases hagain.symm.trans hscope
  obtain ⟨_, hfound', hwalk⟩ := (Emit.ask_around_iff (View.classAt_eq p)).mp hclass
  cases hagain.symm.trans hfound'
  exact ⟨⟨t, hfound⟩, ⟨t, (Emit.ask_around_iff (View.classAt_eq p)).mpr ⟨scope, hfound, hwalk⟩⟩⟩

end LeadsTo

/-! ## The lines that set up an instance -/

/-- Emitting whose result does not depend on the state. -/
def Emit.Steady {α : Type} (m : Emit α) : Prop :=
  ∀ context s a s', m context s = .ok a s' → ∀ t, ∃ t', m context t = .ok a t'

namespace Emit.Steady

variable {α β : Type}

theorem pure (a : α) : Steady (Pure.pure a : Emit α) := by
  rintro _ _ _ _ ⟨⟩ t
  exact ⟨t, rfl⟩

/-- One after the other, where both leave what was looked up. -/
theorem bind {m : Emit α} {f : α → Emit β} (hm : Steady m) (hf : ∀ a, Steady (f a)) :
    Steady (m >>= f) := by
  intro context s b s' h t
  obtain ⟨a, s₁, ha, hb⟩ := bind_eq_ok h
  obtain ⟨t₁, ha'⟩ := hm _ _ _ _ ha t
  obtain ⟨t', hb'⟩ := hf a _ _ _ _ hb t₁
  exact ⟨t', (bind_of_ok ha' f).trans hb'⟩

theorem onContext {f : Context → Emit α} (hf : ∀ context, Steady (f context)) :
    Steady (read >>= f) :=
  fun context s a s' h t => hf context context s a s' h t

/-- A list of effects that leave what was looked up. -/
theorem mapM {f : α → Emit β} (hf : ∀ a, Steady (f a)) (items : List α) :
    Steady (items.mapM f) := by
  induction items with
  | nil => exact .pure []
  | cons a rest ih =>
    rw [List.mapM_cons]
    exact .bind (hf a) fun _ => .bind ih fun _ => .pure _

end Emit.Steady

namespace Members

open Emit (Steady)

/-- To set up an attribute looks nothing up. -/
theorem steady_instanceLine (name : String) (type : DataType) : (instanceLine name type).Steady := by
  refine .bind (fun context s text s' h t => ⟨t, ?_⟩) fun _ => .pure _
  rw [Emit.typeConstructor_apply, (Emit.typeConstructor_eq_ok h).2]

theorem steady_interfaceLines (visit : InterfaceVisit) : (interfaceLines visit).Steady := by
  have hvisited : (visited "attributes" visit).Steady := by
    intro context s found s' h t
    obtain ⟨hfound, -⟩ := visited_eq_ok h
    rw [visited, hfound]
    cases found with
    | some i => exact ⟨t, rfl⟩
    | none => exact ⟨warned t "attributes" [visit.name], rfl⟩
  refine .bind hvisited fun found => ?_
  cases found with
  | none => exact .pure []
  | some i => exact .mapM (fun _ => steady_instanceLine _ _) _

/-- The lines of a constructor look nothing up by position. -/
theorem steady_constructorLines (c : ClassDefinition) (scope : Option ScopeId) (forward : Bool) :
    (constructorLines c scope forward).Steady :=
  .bind (.mapM (fun _ => steady_instanceLine _ _) _) fun _ =>
    .onContext fun _ => .bind (.mapM steady_interfaceLines _) fun _ => .pure _

/-- The call of the superclass, which gets what was passed. -/
def superCall (c : ClassDefinition) : List String :=
  partIf c.superClass.isSome "await super.constructor_(INPUT);"

/-- With the call of the superclass, the lines are the same after it. -/
theorem constructorLines_forward (c : ClassDefinition) (scope : Option ScopeId) :
    constructorLines c scope true = do
      let lines ← constructorLines c scope false
      return superCall c ++ lines := by
  simp only [constructorLines, bind_assoc, pure_bind, Bool.true_and, Bool.false_and, superCall,
    partIf, Bool.false_eq_true, if_false, List.nil_append, List.append_assoc]

end Members

/-- Lookups that agree on what can be reached take the same walk. -/
theorem visitInterfaces_congr {find find' : String → Except GraphFault (Option InterfaceDefinition)}
    {roots : List String} (h : ∀ name, Reaches find roots name → find name = find' name)
    (order : WalkOrder) {unseen waiting : List String}
    (hwaiting : ∀ name ∈ waiting, Reaches find roots name) :
    visitInterfaces order find unseen waiting = visitInterfaces order find' unseen waiting := by
  induction unseen, waiting using visitInterfaces.induct order find with
  | case1 unseen => rw [visitInterfaces, visitInterfaces]
  | case2 unseen name waiting hunseen visit ih =>
    obtain ⟨hname, hrest⟩ := List.forall_mem_cons.mp hwaiting
    -- what is put in line is reached as well
    have hnext : ∀ next ∈ visit.enqueue order waiting, Reaches find roots next := by
      intro next hnext
      unfold InterfaceVisit.enqueue at hnext
      split at hnext
      next => cases hnext
      next => exact hrest next hnext
      next i hfound =>
        have hmem : next ∈ i.implementing ∨ next ∈ waiting := by
          cases order <;> simpa [WalkOrder.enqueue, or_comm] using hnext
        rcases hmem with hmem | hmem
        · exact .included hname hfound hmem
        · exact hrest next hmem
    rw [visitInterfaces, visitInterfaces, if_pos hunseen, if_pos hunseen, ← h name hname]
    exact congrArg (visit :: ·) (ih hnext)
  | case3 unseen name waiting hunseen ih =>
    rw [visitInterfaces, visitInterfaces, if_neg hunseen, if_neg hunseen]
    exact ih (List.forall_mem_cons.mp hwaiting).2

/-- The interfaces of a class are the same from two scopes that agree. -/
theorem View.AgreeOn.visits_eq {v : View} {scope scope' : Option ScopeId} {names : List String}
    (h : v.AgreeOn scope scope' names) (order : WalkOrder) :
    v.visits order scope names = v.visits order scope' names :=
  visitInterfaces_congr h order fun _ hname => .root hname

/-- Lines set up an instance of a class, whose interfaces are found from a scope: maybe the call of
the superclass, the reference to itself, the attributes of the class, those of its interfaces, aliases
and constants. -/
def SetsUp (context : Context) (scope : Option ScopeId) (c : ClassDefinition) (forward : Bool)
    (lines : List String) : Prop :=
  Members.AreConstructorLines context.config c forward
    (interfacesOf (context.view.visits .depthFirst scope c.implementing)) lines

/-- A constructor with some lines. -/
def constructorText (lines : List String) : String :=
  "async constructor_(INPUT) \x7b\n" ++ Emit.endLines lines ++ "return this;\n\x7d\n"

namespace Members

variable {context : Context} {s s' t : EmissionState} {name : Token} {c : ClassDefinition}
  {scope scope' : Option ScopeId}

/-- The constructor that is inserted has the lines that set up an instance, and no others. -/
theorem exists_of_defaultConstructor {text : String}
    (h : defaultConstructor name context s = .ok text s') :
    ∃ scope c lines, LeadsTo context s name.start scope c ∧ SetsUp context scope c true lines ∧
      text = constructorText lines := by
  obtain ⟨c, t, hc, h⟩ := Emit.bind_eq_ok h
  obtain ⟨scope, t₁, hscope, h⟩ := Emit.bind_eq_ok h
  obtain ⟨lines, t₂, hlines, h⟩ := Emit.bind_eq_ok h
  cases h
  obtain ⟨found, t₃, hfound, hc⟩ := Emit.bind_eq_ok hc
  cases found with
  | none => cases hc
  | some c =>
    cases hc
    exact ⟨scope, c, lines, .of_asks hfound hscope, (constructorLines_eq_ok hlines).2.2, rfl⟩

/-- The interfaces are all that a scope is needed for. -/
theorem constructorLines_congr {forward : Bool}
    (hagree : context.view.AgreeOn scope scope' c.implementing) :
    constructorLines c scope forward context s = constructorLines c scope' forward context s := by
  rw [constructorLines, constructorLines, Emit.bind_apply, Emit.bind_apply]
  cases c.attributes.inst.mapM (fun a => instanceLine (Identifier.plain a.name) a.type) context s with
  | error why t => rfl
  | ok own t =>
    dsimp only
    rw [Emit.read_bind, Emit.read_bind, hagree.visits_eq]

/-- A position that leads to the same class and interfaces gives the same lines, after the call of the
superclass. -/
theorem exists_defaultConstructor {lines : List String}
    (hleads : LeadsTo context t name.start scope' c)
    (hagree : context.view.AgreeOn scope scope' c.implementing)
    (h : constructorLines c scope false context s = .ok lines s') :
    ∃ t', defaultConstructor name context t = .ok (constructorText (superCall c ++ lines)) t' := by
  obtain ⟨⟨_, hscope⟩, ⟨t₁, hclass⟩⟩ := hleads
  obtain ⟨found, hfound, -⟩ := (Emit.ask_around_iff (View.classAt_eq _)).mp hclass
  have hagain := Emit.ask_scopeAround_again hfound
  have hsame : scope' = found := by
    cases hscope.symm.trans hfound
    rfl
  rw [← hsame] at hagain
  rw [constructorLines_congr hagree] at h
  obtain ⟨t₂, hlines⟩ := steady_constructorLines _ _ _ _ _ _ _ h t₁
  have hclassOf : classOf name context t = .ok c t₁ := by
    rw [classOf, Emit.bind_of_ok hclass]
    rfl
  refine ⟨t₂, ?_⟩
  rw [defaultConstructor, Emit.bind_of_ok hclassOf, Emit.bind_of_ok hagain,
    constructorLines_forward, bind_assoc, Emit.bind_of_ok hlines]
  rfl

end Members

end AbapLowering
