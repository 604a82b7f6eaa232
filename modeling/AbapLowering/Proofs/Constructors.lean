import AbapLowering.Proofs.Code.LowerCase
import AbapLowering.Proofs.Constructors.Lines
import AbapLowering.Proofs.Emission.ClassRun
import AbapLowering.Proofs.MethodResults

/-!
# The constructor of a class

Three places decide on the constructor of a class: a scan of all statements tells whether one is inserted
after the header, METHOD names its function by what is written there, and whether METHOD sets up the
instance depends on the scope that is found around it.

- `ClassRun.members`: the members of an emitted class, those that methods begin and the constructor that
  is inserted;
- `ClassRun.FollowsScopes`: each METHOD and its ENDMETHOD lie in the scope of the method;
- `StructureNode.emits_one_constructor`: every class has one constructor, which is inserted after the
  header unless a method is it, and which begins with the lines that set up the instance.
-/

namespace AbapLowering

open Text (sameIgnoringCase)

/-! ## Methods in a run -/

namespace EmittedNode

/-- The name of the method that a node begins, if it begins one. -/
def method? (piece : EmittedNode) : Option Token := piece.node.statement?.bind (·.method?)

/-- Whether a node ends a method. -/
def EndsMethod (piece : EmittedNode) : Prop :=
  ∃ node, piece.node = .leaf node ∧ node.statement = .endMethod

/-- The member of a class that a node begins, under the name by which it is emitted. -/
def member? (piece : EmittedNode) : Option String :=
  piece.method?.map fun name => Identifier.method name.text

/-- The code of a node is some text on a line of its own, after what was queued. -/
def HasText (piece : EmittedNode) (text : String) : Prop :=
  ∃ queued, piece.code = .tagged piece.node.span.start queued ++
    .tagged piece.node.span.start text ++ .plain "\n"

/-- The method around a node is that of some name. -/
def LiesInMethod (piece : EmittedNode) (context : Context) (name : Token) : Prop :=
  ∃ m t, Emit.ask (fun v => v.enclosingMethod piece.node.span.start) context piece.start =
    .ok (some m) t ∧ sameIgnoringCase m.name name.text = true

/-- The code of a node is the start of a method: its name, its parameters, and the lines that set up
the instance. -/
def StartsMember (piece : EmittedNode) (context : Context) (name : Token) (setup : List String) :
    Prop :=
  ∃ reach ∈ ["", "static "], ∃ parameters blocks,
    List.Forall₂ (Flow.IsBlock context.config.isLenient) parameters blocks ∧
    piece.HasText ("\n".intercalate ((reach ++ "async " ++ Identifier.method name.text
      ++ "(INPUT) \x7b") :: blocks.flatten ++ setup))

end EmittedNode

namespace ClassRun

variable {children : List Node} {context : Context} {s s' : EmissionState} {code : Code}

/-- All nodes of a run. -/
def pieces (run : ClassRun children context s code s') : List EmittedNode :=
  run.before ++ run.header :: run.after

/-- The members of the class in the order in which they are emitted: those that methods begin, and the
constructor that is inserted. -/
def members (run : ClassRun children context s code s') : List String :=
  (run.before ++ [run.header]).filterMap (·.member?) ++
    (run.inserted.map fun _ => "constructor_").toList ++ run.after.filterMap (·.member?)

/-- One node begins a method and another one ends it: no method begins or ends between them. -/
def Closes (run : ClassRun children context s code s') (opening closing : EmittedNode) : Prop :=
  closing.EndsMethod ∧ ∃ earlier between later,
    run.pieces = earlier ++ opening :: between ++ closing :: later ∧
    ∀ piece ∈ between, piece.method? = none ∧ ¬ piece.EndsMethod

/-- Each METHOD and its ENDMETHOD lie in the scope of the method. -/
def FollowsScopes (run : ClassRun children context s code s') : Prop :=
  ∀ opening ∈ run.pieces, ∀ name, opening.method? = some name →
    opening.LiesInMethod context name ∧
    ∀ closing, run.Closes opening closing → closing.LiesInMethod context name

end ClassRun

/-! ## What METHOD and ENDMETHOD emit in a run -/

theorem Text.sameIgnoringCase_congr {a b : String} (h : sameIgnoringCase a b = true)
    (word : String) : sameIgnoringCase a word = sameIgnoringCase b word := by
  have hfolded := beq_iff_eq.mp h
  rw [sameIgnoringCase, hfolded, sameIgnoringCase]

namespace Flow

variable {context : Context} {s s' : EmissionState} {p : Position} {name : Token}

theorem parameterLines_eq_ok {parameter : MethodParameter} {lines : List String}
    (h : parameterLines parameter context s = .ok lines s') :
    s' = s ∧ IsBlock context.config.isLenient parameter lines := by
  refine ⟨?_, isBlock_of_parameterLines h⟩
  obtain ⟨type, t, htype, h⟩ := Emit.bind_eq_ok h
  cases h
  exact (Emit.typeConstructor_eq_ok htype).1

/-- METHOD where the definition of the method is found. -/
theorem methodAt_of_ask {m : EnclosingMethod} {d : MethodDefinition} {t t₁ : EmissionState}
    {blocks : List (List String)} {setup : List String}
    (hm : Emit.ask (fun v => v.enclosingMethod p) context s = .ok (some m) t)
    (hd : m.definition = some d)
    (hblocks : d.parameters.mapM parameterLines context t = .ok blocks t₁)
    (hsetup : setupLines (some m) p name context t₁ = .ok setup s') :
    methodAt p name context s = .ok ("\n".intercalate (((if d.isStatic then "static " else "")
      ++ "async " ++ Identifier.method name.text ++ "(INPUT) \x7b") :: blocks.flatten ++ setup))
      s' := by
  rw [methodAt, Emit.bind_of_ok hm, Option.bind_some, hd, Option.isNone_some,
    if_neg Bool.false_ne_true, Option.map_some, Option.getD_some]
  dsimp only
  rw [Emit.bind_of_ok hblocks, Emit.bind_of_ok hsetup]
  rfl

/-- METHOD sets up the instance iff the scope around it is that of a constructor. -/
theorem exists_of_setupLines {m : EnclosingMethod} {setup : List String}
    (h : setupLines (some m) p name context s = .ok setup s') :
    (m.isConstructor = false → setup = []) ∧
    (m.isConstructor = true → ∃ scope c u, LeadsTo context s p scope c ∧
      Members.constructorLines c scope false context u = .ok setup s') := by
  rw [setupLines, Option.any_some] at h
  constructor
  · intro hconstructor
    rw [hconstructor] at h
    cases h
    rfl
  · intro hconstructor
    rw [hconstructor, if_pos rfl] at h
    obtain ⟨found, t, hfound, h⟩ := Emit.bind_eq_ok h
    cases found with
    | none => cases h
    | some c =>
      obtain ⟨scope, u, hscope, h⟩ := Emit.bind_eq_ok h
      exact ⟨scope, c, u, .of_asks hfound hscope, h⟩

end Flow

namespace EmittedNode

variable {piece : EmittedNode} {context : Context} {name : Token} {s : EmissionState}

theorem exists_leaf_of_method? (h : piece.method? = some name) :
    ∃ node, piece.node = .leaf node ∧ node.statement = .method name := by
  obtain ⟨node, hnode, hmethod⟩ := Option.bind_eq_some_iff.mp h
  have hleaf : piece.node = .leaf node := by
    cases hpiece : piece.node with
    | branch _ =>
      rw [hpiece] at hnode
      cases hnode
    | leaf _ =>
      rw [hpiece] at hnode
      cases hnode
      rfl
  refine ⟨node, hleaf, ?_⟩
  unfold StatementNode.method? at hmethod
  split at hmethod
  next header hheader =>
    cases hmethod
    exact hheader
  next => cases hmethod

/-- A statement is emitted on a line of its own, and counting it leaves the scope found last. -/
theorem exists_text {node : StatementNode} (hnode : piece.node = .leaf node)
    (h : piece.node.emit context piece.start = .ok piece.code piece.stop) :
    ∃ s text t, s.slot = piece.start.slot ∧ node.emit context s = .ok text t ∧
      piece.HasText text := by
  rw [hnode, Node.emit, StatementNode.emitLine] at h
  obtain ⟨_, s, hcount, h⟩ := Emit.bind_eq_ok h
  obtain ⟨text, t, htext, h⟩ := Emit.bind_eq_ok h
  obtain ⟨queued, u, -, h⟩ := Emit.bind_eq_ok h
  refine ⟨s, text, t, ?_, htext, queued, ?_⟩
  · cases hcount
    rfl
  · rw [hnode]
    exact (EStateM.Result.ok.inj h).1.symm

/-- In the scope of a method of some name METHOD and ENDMETHOD find a constructor iff this is its
name. -/
theorem LiesInMethod.exists_method (h : piece.LiesInMethod context name)
    (hslot : s.slot = piece.start.slot) :
    ∃ m t, Emit.ask (fun v => v.enclosingMethod piece.node.span.start) context s = .ok (some m) t ∧
      m.isConstructor = sameIgnoringCase name.text "constructor" := by
  obtain ⟨m, t, hm, hname⟩ := h
  obtain ⟨t', hm'⟩ := Emit.ask_of_slot_eq hslot hm
  exact ⟨m, t', hm', Text.sameIgnoringCase_congr hname "constructor"⟩

/-- METHOD starts a member, which in the scope of the method sets up the instance iff it is named like
the constructor. -/
theorem exists_startsMember (hmethod : piece.method? = some name)
    (h : piece.node.emit context piece.start = .ok piece.code piece.stop) :
    ∃ setup, piece.StartsMember context name setup ∧ (piece.LiesInMethod context name →
      (sameIgnoringCase name.text "constructor" = false → setup = []) ∧
      (sameIgnoringCase name.text "constructor" = true → ∃ scope c u u',
        LeadsTo context piece.start piece.node.span.start scope c ∧
        Members.constructorLines c scope false context u = .ok setup u')) := by
  obtain ⟨node, hnode, hstatement⟩ := exists_leaf_of_method? hmethod
  obtain ⟨s, text, s', hslot, htext, hline⟩ := exists_text hnode h
  rw [StatementNode.emit, hstatement] at htext
  obtain ⟨m?, t, t₁, t₂, blocks, setup, hm, hkept, hblocks, hsetup, rfl⟩ :=
    Flow.exists_of_methodAt htext
  obtain ⟨hsame, hparameters⟩ := Emit.mapM_eq_ok Flow.parameterLines_eq_ok hblocks
  refine ⟨setup, ⟨_, ?_, _, blocks, hparameters, hline⟩, fun hlies => ?_⟩
  · split <;> simp
  · obtain ⟨m, t', hm', hconstructor⟩ := hlies.exists_method hslot
    rw [hnode] at hm'
    cases hm.symm.trans hm'
    rw [← hconstructor]
    obtain ⟨hnone, hsome⟩ := Flow.exists_of_setupLines hsetup
    refine ⟨hnone, fun hyes => ?_⟩
    obtain ⟨scope, c, u, hleads, hlines⟩ := hsome hyes
    have hstart : LeadsTo context s node.span.start scope c :=
      .of_enclosingMethod hm (.of_slot_eq (hsame ▸ hkept.symm) hleads)
    rw [hnode]
    exact ⟨scope, c, u, s', .of_slot_eq hslot.symm hstart, hlines⟩

/-- In the scope of a constructor ENDMETHOD hands back the instance. -/
theorem hasText_of_endsMethod (hends : piece.EndsMethod)
    (h : piece.node.emit context piece.start = .ok piece.code piece.stop)
    (hlies : piece.LiesInMethod context name)
    (hname : sameIgnoringCase name.text "constructor" = true) :
    piece.HasText "return this;\n\x7d" := by
  obtain ⟨node, hnode, hstatement⟩ := hends
  obtain ⟨s, text, s', hslot, htext, hline⟩ := exists_text hnode h
  obtain ⟨m, t, hm, hconstructor⟩ := hlies.exists_method hslot
  rw [hnode] at hm
  rw [StatementNode.emit, hstatement] at htext
  have hreturn : text = (Flow.result? m).elim "\x7d" fun value => "return " ++ value ++ ";\n\x7d" := by
    have hend := htext.symm.trans (Flow.endMethodAt_of_ask hm)
    exact (EStateM.Result.ok.inj hend).1
  rw [Flow.result?, hconstructor, hname] at hreturn
  rw [hreturn] at hline
  exact hline

end EmittedNode

/-! ## One constructor -/

/-- The names that become that of the constructor. -/
theorem Identifier.method_eq_constructor_iff (name : String) :
    method name = "constructor_" ↔
      sameIgnoringCase name "constructor" = true ∨ sameIgnoringCase name "constructor_" = true := by
  have hreserved : plain name = "constructor" ↔ sameIgnoringCase name "constructor" = true :=
    plain_eq_iff (by decide) (by decide) (by decide) (by decide) name
  have hother : plain name = "constructor_" ↔ sameIgnoringCase name "constructor_" = true :=
    plain_eq_iff (by decide) (by decide) (by decide) (by decide) name
  rw [method, ← hreserved, ← hother]
  split
  next hname => exact iff_of_true rfl (.inl hname)
  next hname => exact (or_iff_right hname).symm

namespace ClassRun

variable {children : List Node} {context : Context} {s s' : EmissionState} {code : Code}

theorem emit_of_mem_pieces {run : ClassRun children context s code s'} {piece : EmittedNode}
    (h : piece ∈ run.pieces) :
    piece.node.emit context piece.start = .ok piece.code piece.stop := by
  have hparts : piece ∈ run.before ++ [run.header] ∨ piece ∈ run.after := by
    rw [pieces] at h
    simp only [List.mem_append, List.mem_cons, List.not_mem_nil, or_false] at h ⊢
    tauto
  rcases hparts with h | h
  · exact run.emits_before.emit_of_mem h
  · exact run.emits_after.emit_of_mem h

/-- Where nothing is inserted, the nodes are emitted one after the other. -/
theorem emits_pieces (run : ClassRun children context s code s')
    (hexplicit : hasExplicit children = true) : EmitsEach context s run.pieces run.ended := by
  have hresumed : run.resumed = run.header.stop := by
    have hinserts := run.inserts
    rw [hexplicit] at hinserts
    exact hinserts.stop_eq
  have hafter := run.emits_after
  rw [hresumed] at hafter
  have hall := run.emits_before.append hafter
  rwa [List.append_assoc] at hall

/-- The members of a run are counted by its methods and by what is inserted. -/
theorem count_members (run : ClassRun children context s code s') (word : String) :
    run.members.count word =
      ((memberNodes children).filterMap Node.statement?).countP
        (fun node => (node.method?.map fun name => Identifier.method name.text) == some word) +
      ((run.inserted.map fun _ => "constructor_").toList).count word := by
  have hpieces : run.pieces.filterMap (·.member?) =
      ((memberNodes children).filterMap Node.statement?).filterMap
        fun node => node.method?.map fun name => Identifier.method name.text := by
    rw [← run.nodes_eq, List.filterMap_filterMap, List.filterMap_map]
    refine List.filterMap_congr fun piece _ => ?_
    rw [EmittedNode.member?, EmittedNode.method?, Option.map_bind]
    rfl
  rw [← List.count_filterMap, ← hpieces, pieces, members]
  simp only [List.filterMap_append, List.filterMap_cons, List.filterMap_nil, List.count_append]
  cases run.header.member? <;> simp [List.count_cons] <;> omega

end ClassRun

theorem StatementNode.marksMethod_of_startsMethod {node : StatementNode} {word : String}
    (h : node.startsMethod word = true) : node.marksMethod = true := by
  unfold startsMethod method? at h
  unfold marksMethod
  split at h
  next name hname => rw [hname]
  next => cases h

namespace StructureNode

variable {children : List Node} {context : Context} {s s' : EmissionState} {code : Code}

/-- Of the methods and the constructor that is inserted just one is emitted as the constructor. -/
theorem count_constructor
    (hplaced : ∀ node ∈ allStatementsOf children, node.marksMethod = true →
      .leaf node ∈ memberNodes children)
    (hone : (allStatementsOf children).countP (·.startsMethod "constructor") ≤ 1)
    (hfree : ∀ node ∈ allStatementsOf children, node.startsMethod "constructor_" = false)
    (run : ClassRun children context s code s') : run.members.count "constructor_" = 1 := by
  have hsublist := statements_memberNodes_sublist children
  -- only a method of this name is spelled like the constructor
  have hmethods : ((memberNodes children).filterMap Node.statement?).countP
      (fun node => (node.method?.map fun name => Identifier.method name.text) ==
        some "constructor_") =
      ((memberNodes children).filterMap Node.statement?).countP (·.startsMethod "constructor") := by
    refine List.countP_congr fun node hnode => ?_
    have hother := hfree node (hsublist.subset hnode)
    unfold StatementNode.startsMethod at hother ⊢
    cases hmethod : node.method? with
    | none => simp
    | some name =>
      rw [hmethod, Option.any_some] at hother
      simp [Identifier.method_eq_constructor_iff, hother]
  have hinserted : ((run.inserted.map fun _ => "constructor_").toList).count "constructor_" =
      if hasExplicit children then 0 else 1 := by
    have hsome := run.inserts.isSome_eq
    cases hrun : run.inserted <;> cases hexplicit : hasExplicit children <;> simp_all
  rw [run.count_members, hmethods, hinserted]
  -- one method starts it, or none does and one is put in
  by_cases hexplicit : hasExplicit children = true
  · obtain ⟨node, hnode, hstarts⟩ := List.any_eq_true.mp hexplicit
    have hleaf := hplaced node hnode (StatementNode.marksMethod_of_startsMethod hstarts)
    have hmem : node ∈ (memberNodes children).filterMap Node.statement? :=
      List.mem_filterMap.mpr ⟨_, hleaf, rfl⟩
    have hpos : 0 < ((memberNodes children).filterMap Node.statement?).countP
        (·.startsMethod "constructor") := List.countP_pos_iff.mpr ⟨node, hmem, hstarts⟩
    have hle := hsublist.countP_le (p := (·.startsMethod "constructor"))
    rw [if_pos hexplicit]
    omega
  · have hnone : ((memberNodes children).filterMap Node.statement?).countP
        (·.startsMethod "constructor") = 0 := by
      refine List.countP_eq_zero.mpr fun node hnode hstarts => hexplicit ?_
      exact List.any_eq_true.mpr ⟨node, hsublist.subset hnode, hstarts⟩
    rw [hnone, if_neg hexplicit]

/-- A method that is the constructor is met in the run. -/
theorem exists_constructor_piece
    (hplaced : ∀ node ∈ allStatementsOf children, node.marksMethod = true →
      .leaf node ∈ memberNodes children)
    (hexplicit : hasExplicit children = true) (run : ClassRun children context s code s') :
    ∃ piece ∈ run.pieces, ∃ name, piece.method? = some name ∧
      sameIgnoringCase name.text "constructor" = true := by
  obtain ⟨node, hnode, hstarts⟩ := List.any_eq_true.mp hexplicit
  have hleaf := hplaced node hnode (StatementNode.marksMethod_of_startsMethod hstarts)
  rw [← run.nodes_eq] at hleaf
  obtain ⟨piece, hpiece, heq⟩ := List.mem_map.mp hleaf
  obtain ⟨name, hmethod, hname⟩ := Option.any_eq_true _ _ |>.mp hstarts
  exact ⟨piece, hpiece, name, by rw [EmittedNode.method?, heq]; exact hmethod, hname⟩

/-- Every class that can be emitted has one constructor if no two statements have one span, methods
begin and end among the children of the class and of its method structures, and of them at most one is
the constructor and none has the name that it is emitted under. If no method is the constructor, one is
inserted right after the header, and consists of the lines that set up the instance, the call of the
superclass first. Otherwise, where METHOD and ENDMETHOD find the scope of their method, the constructor
begins with those lines, after its parameters and before any other statement, other methods do not
have them, and the constructor hands back the instance. The lines are those which would have been
inserted but for the call of the superclass, where the header leads to the same class and the same
interfaces. -/
theorem emits_one_constructor {span : Span}
    (h : StructureNode.emit ⟨.classImplementation, children, span⟩ context s = .ok code s')
    (hspans : ((allStatementsOf children).map (·.span)).Nodup)
    (hplaced : ∀ node ∈ allStatementsOf children, node.marksMethod = true →
      .leaf node ∈ memberNodes children)
    (hone : (allStatementsOf children).countP (·.startsMethod "constructor") ≤ 1)
    (hfree : ∀ node ∈ allStatementsOf children, node.startsMethod "constructor_" = false) :
    Nonempty (ClassRun children context s code s') ∧
    ∀ run : ClassRun children context s code s',
      run.members.count "constructor_" = 1 ∧
      run.inserted.isSome = !hasExplicit children ∧
      (hasExplicit children = true → ∃ piece ∈ run.pieces, ∃ name, piece.method? = some name ∧
        sameIgnoringCase name.text "constructor" = true) ∧
      (∀ text, run.inserted = some text → ∃ scope c lines,
        LeadsTo context run.header.stop run.name.start scope c ∧
        SetsUp context scope c true lines ∧ text = constructorText lines) ∧
      ∀ piece ∈ run.pieces, ∀ name, piece.method? = some name → ∃ setup,
        piece.StartsMember context name setup ∧ (run.FollowsScopes →
          (sameIgnoringCase name.text "constructor" = false → setup = []) ∧
          (sameIgnoringCase name.text "constructor" = true →
            (∀ closing, run.Closes piece closing → closing.HasText "return this;\n\x7d") ∧
            ∃ scope c, LeadsTo context piece.start piece.node.span.start scope c ∧
              SetsUp context scope c false setup ∧
              ∀ scope', LeadsTo context run.header.stop run.name.start scope' c →
                context.view.AgreeOn scope scope' c.implementing →
                ∃ t, Members.defaultConstructor run.name context run.header.stop =
                  .ok (constructorText (Members.superCall c ++ setup)) t)) := by
  refine ⟨exists_classRun h hspans, fun run => ⟨count_constructor hplaced hone hfree run,
    run.inserts.isSome_eq, fun hexplicit => exists_constructor_piece hplaced hexplicit run,
    fun text htext => ?_, fun piece hpiece name hmethod => ?_⟩⟩
  -- the one that is put in where none is written
  · exact Members.exists_of_defaultConstructor (run.inserts.emit_of_eq_some htext)
  -- the methods that are written, of which one may be the constructor
  · obtain ⟨setup, hstarts, hsetup⟩ :=
      EmittedNode.exists_startsMember hmethod (run.emit_of_mem_pieces hpiece)
    refine ⟨setup, hstarts, fun hscopes => ?_⟩
    obtain ⟨hlies, hclosing⟩ := hscopes piece hpiece name hmethod
    obtain ⟨hplain, hconstructor⟩ := hsetup hlies
    refine ⟨hplain, fun hname => ⟨fun closing hcloses => ?_, ?_⟩⟩
    · have hmem : closing ∈ run.pieces := by
        obtain ⟨-, earlier, between, later, hpieces, -⟩ := hcloses
        rw [hpieces]
        exact List.mem_append_right _ List.mem_cons_self
      exact EmittedNode.hasText_of_endsMethod hcloses.1 (run.emit_of_mem_pieces hmem)
        (hclosing closing hcloses) hname
    · obtain ⟨scope, c, u, u', hleads, hlines⟩ := hconstructor hname
      refine ⟨scope, c, hleads, (Members.constructorLines_eq_ok hlines).2.2, ?_⟩
      intro scope' hheader hagree
      exact Members.exists_defaultConstructor hheader hagree hlines

end StructureNode

namespace SourceUnit

/-- A class with an attribute and a constructor of its own. -/
def pointClass : ClassDefinition :=
  { name := "zcl_point", isGlobal := true, file := "zcl_point.clas.abap", implementing := []
    attributes := ⟨[⟨"X", .integer none, none⟩], [], []⟩, aliases := [], superClass := none
    methods := [⟨"CONSTRUCTOR", false, []⟩] }

/-- The header of its implementation. -/
def pointHeader : StatementNode :=
  ⟨.classImplementation ⟨"zcl_point", ⟨1, 7⟩⟩, ⟨⟨1, 1⟩, ⟨1, 32⟩⟩, "CLASS zcl_point IMPLEMENTATION."⟩

/-- The start of its constructor. -/
def pointOpening : StatementNode :=
  ⟨.method ⟨"Constructor", ⟨2, 10⟩⟩, ⟨⟨2, 3⟩, ⟨2, 22⟩⟩, "METHOD Constructor."⟩

/-- The end of its constructor. -/
def pointClosing : StatementNode := ⟨.endMethod, ⟨⟨3, 3⟩, ⟨3, 13⟩⟩, "ENDMETHOD."⟩

/-- The end of its implementation. -/
def pointEnd : StatementNode := ⟨.endBlock .classBlock, ⟨⟨4, 1⟩, ⟨4, 10⟩⟩, "ENDCLASS."⟩

/-- What its implementation is made of. -/
def pointChildren : List Node :=
  [.leaf pointHeader, .branch ⟨.method, [.leaf pointOpening, .leaf pointClosing],
    ⟨⟨2, 3⟩, ⟨3, 13⟩⟩⟩, .leaf pointEnd]

/-- This implementation. -/
def constructing : SourceUnit :=
  { file := "zcl_point.clas.abap"
    object := ⟨.clas, "ZCL_POINT"⟩
    root := ⟨.program, [.branch ⟨.classImplementation, pointChildren, ⟨⟨1, 1⟩, ⟨4, 10⟩⟩⟩],
      ⟨⟨1, 1⟩, ⟨4, 10⟩⟩⟩
    scopes := ⟨#[{ Scope.fresh .classImplementation "zcl_point" "zcl_point.clas.abap"
        ⟨⟨1, 1⟩, ⟨4, 11⟩⟩ none with children := [⟨1⟩] },
      .fresh .method "constructor" "zcl_point.clas.abap" ⟨⟨2, 3⟩, ⟨3, 14⟩⟩ (some .root)]⟩ }

/-- This unit, in which the class is known. -/
def pointContext : Context :=
  ⟨constructing.view (Registry.empty.addClass pointClass), .standard⟩

/-- A state after some statements of this unit. -/
def pointState (slot : Option CacheSlot) (statements : Nat) : EmissionState :=
  { EmissionState.initial 0 with slot, statements }

/-- The scope of the constructor. -/
def pointSlot : CacheSlot := ⟨⟨⟨2, 3⟩, ⟨3, 14⟩⟩, ⟨1⟩⟩

/-- The class implements no interfaces. -/
theorem visits_pointClass (order : WalkOrder) (scope : Option ScopeId) :
    pointContext.view.visits order scope pointClass.implementing = [] := by
  rw [View.visits, pointClass, visitInterfaces]

theorem exists_setup_point : ∃ setup, Flow.setupLines
    (some ⟨⟨1⟩, "constructor", pointClass.methods.head?⟩) ⟨2, 3⟩ ⟨"Constructor", ⟨2, 10⟩⟩
    pointContext (pointState (some pointSlot) 2) = .ok setup (pointState (some pointSlot) 2) := by
  have hclass : Emit.ask (fun v => v.classAt ⟨2, 3⟩) pointContext (pointState (some pointSlot) 2) =
      .ok (some pointClass) (pointState (some pointSlot) 2) := rfl
  have hscope : Emit.ask (fun _ => Query.scopeAround ⟨2, 3⟩) pointContext
      (pointState (some pointSlot) 2) = .ok (some ⟨1⟩) (pointState (some pointSlot) 2) := rfl
  have hown : pointClass.attributes.inst.mapM
      (fun a => Members.instanceLine (Identifier.plain a.name) a.type) pointContext
      (pointState (some pointSlot) 2) =
      .ok ["this.x = new abap.types.Integer();"] (pointState (some pointSlot) 2) := rfl
  rw [Flow.setupLines, if_pos (by decide), Emit.bind_of_ok hclass]
  dsimp only
  rw [Emit.bind_of_ok hscope, Members.constructorLines, Emit.bind_of_ok hown, Emit.read_bind,
    visits_pointClass]
  exact ⟨_, rfl⟩

theorem exists_emit_pointOpening : ∃ code, (Node.leaf pointOpening).emit pointContext
    (pointState none 1) = .ok code (pointState (some pointSlot) 2) := by
  have hmethod : Emit.ask (fun v => v.enclosingMethod ⟨2, 3⟩) pointContext (pointState none 2) =
      .ok (some ⟨⟨1⟩, "constructor", pointClass.methods.head?⟩) (pointState (some pointSlot) 2) := rfl
  have hparameters : List.mapM Flow.parameterLines [] pointContext (pointState (some pointSlot) 2) =
      .ok [] (pointState (some pointSlot) 2) := rfl
  obtain ⟨setup, hsetup⟩ := exists_setup_point
  obtain ⟨text, htext⟩ : ∃ text, pointOpening.emit pointContext (pointState none 2) =
      .ok text (pointState (some pointSlot) 2) :=
    ⟨_, Flow.methodAt_of_ask hmethod rfl hparameters hsetup⟩
  have hcount : Emit.countStatement pointContext (pointState none 1) =
      .ok () (pointState none 2) := rfl
  rw [Node.emit, StatementNode.emitLine, Emit.bind_of_ok hcount, Emit.bind_of_ok htext]
  exact ⟨_, rfl⟩

theorem exists_emitClassEnd_point : ∃ code s', StructureNode.emitClassEnd ⟨"zcl_point", ⟨1, 7⟩⟩
    pointContext (pointState (some pointSlot) 4) = .ok code s' := by
  have hclass : ∀ slot ∈ [some pointSlot, none], Members.classOf ⟨"zcl_point", ⟨1, 7⟩⟩ pointContext
      (pointState slot 4) = .ok pointClass (pointState none 4) := by
    intro slot hslot
    simp only [List.mem_cons, List.not_mem_nil, or_false] at hslot
    rcases hslot with rfl | rfl <;> rfl
  have hscope : Emit.ask (fun v => v.scopeAt ⟨1, 7⟩ "class statics") pointContext
      (pointState none 4) = .ok .root (pointState none 4) := rfl
  have hstatics : Members.collectStatics pointClass .root pointContext (pointState none 4) =
      .ok [] (pointState none 4) := by
    rw [Members.collectStatics, Emit.read_bind, visits_pointClass]
    rfl
  obtain ⟨part, hpart⟩ : ∃ part, Members.staticPart ⟨"zcl_point", ⟨1, 7⟩⟩ pointContext
      (pointState (some pointSlot) 4) = .ok part (pointState none 4) := by
    rw [Members.staticPart, Emit.bind_of_ok (hclass _ (by simp)), Emit.bind_of_ok hscope,
      Emit.bind_of_ok hstatics]
    exact ⟨_, rfl⟩
  rw [StructureNode.emitClassEnd, Emit.bind_of_ok hpart, Emit.bind_of_ok (hclass _ (by simp))]
  exact ⟨_, _, rfl⟩

theorem exists_emitClassBody_point : ∃ code, emitClassBody none pointChildren pointContext
    (.initial 0) = .ok code (pointState (some pointSlot) 4) := by
  obtain ⟨header, hheader⟩ : ∃ code, pointHeader.emitLine pointContext (.initial 0) =
    .ok code (pointState none 1) := ⟨_, rfl⟩
  obtain ⟨opening, hopening⟩ := exists_emit_pointOpening
  obtain ⟨method, hmethod⟩ : ∃ code, StructureNode.emit ⟨.method, [.leaf pointOpening,
      .leaf pointClosing], ⟨⟨2, 3⟩, ⟨3, 13⟩⟩⟩ pointContext (pointState none 1) =
      .ok code (pointState (some pointSlot) 3) := by
    rw [StructureNode.emit.eq_def]
    dsimp only
    rw [emitNodes, Emit.bind_of_ok hopening]
    exact ⟨_, rfl⟩
  rw [pointChildren, emitClassBody, Emit.bind_of_ok hheader, Option.filter_none]
  dsimp only
  rw [pure_bind, emitClassBody, bind_assoc, Emit.bind_of_ok hmethod]
  exact ⟨_, rfl⟩

theorem exists_emit_point : ∃ code s',
    StructureNode.emit ⟨.classImplementation, pointChildren, ⟨⟨1, 1⟩, ⟨4, 10⟩⟩⟩ pointContext
      (.initial 0) = .ok code s' := by
  have hopening : StructureNode.opening ⟨.classImplementation, pointChildren, ⟨⟨1, 1⟩, ⟨4, 10⟩⟩⟩
      "ClassImplementation" pointContext (.initial 0) = .ok pointHeader (.initial 0) := rfl
  have hname : StructureNode.implementedClass pointHeader pointContext (.initial 0) =
      .ok ⟨"zcl_point", ⟨1, 7⟩⟩ (.initial 0) := rfl
  have hexplicit : hasExplicit pointChildren = true := by decide
  obtain ⟨body, hbody⟩ := exists_emitClassBody_point
  obtain ⟨tail, s', htail⟩ := exists_emitClassEnd_point
  rw [StructureNode.emit.eq_def]
  dsimp only
  rw [Emit.bind_of_ok hopening, Emit.bind_of_ok hname, StructureNode.hasConstructor_eq,
    if_pos hexplicit, Emit.bind_of_ok hbody, Emit.bind_of_ok htail]
  exact ⟨_, _, rfl⟩

theorem followsScopes_point {code : Code} {s' : EmissionState}
    (run : ClassRun pointChildren pointContext (.initial 0) code s') : run.FollowsScopes := by
  have hemits := run.emits_pieces (by decide)
  have hnodes : run.pieces.map (·.node) =
    [.leaf pointHeader, .leaf pointOpening, .leaf pointClosing, .leaf pointEnd] := run.nodes_eq
  unfold ClassRun.FollowsScopes ClassRun.Closes
  generalize run.pieces = pieces at hemits hnodes ⊢
  obtain ⟨header, rest, rfl, hheader, hnodes⟩ := List.map_eq_cons_iff.mp hnodes
  obtain ⟨opening, rest, rfl, hopening, hnodes⟩ := List.map_eq_cons_iff.mp hnodes
  obtain ⟨closing, rest, rfl, hclosing, hnodes⟩ := List.map_eq_cons_iff.mp hnodes
  obtain ⟨last, rest, rfl, hlast, hnodes⟩ := List.map_eq_cons_iff.mp hnodes
  obtain rfl := List.map_eq_nil_iff.mp hnodes
  -- the scope of the constructor is found at METHOD, and it is still remembered at ENDMETHOD
  have hlies : ∀ piece ∈ [opening, closing],
      piece.LiesInMethod pointContext ⟨"Constructor", ⟨2, 10⟩⟩ := by
    cases hemits with
    | @cons _ _ t₀ _ _ _ hfirst hemits =>
    cases hemits with
    | @cons _ _ t₁ _ _ _ hsecond hemits =>
    cases hemits with
    | @cons _ _ t₂ _ _ _ hthird hemits =>
    dsimp only at hheader hopening hclosing
    subst hheader hopening hclosing
    obtain ⟨_, hheader⟩ : ∃ code, (Node.leaf pointHeader).emit pointContext (.initial 0) =
      .ok code (pointState none 1) := ⟨_, rfl⟩
    cases hheader.symm.trans hfirst
    have hslot : t₁.slot = some pointSlot := by
      obtain ⟨_, hopening⟩ := exists_emit_pointOpening
      cases hopening.symm.trans hsecond
      rfl
    have hagain : ∃ m t, Emit.ask (fun v => v.enclosingMethod ⟨3, 3⟩) pointContext
        (pointState (some pointSlot) 2) = .ok (some m) t ∧
        sameIgnoringCase m.name "Constructor" = true := ⟨_, _, rfl, by decide⟩
    obtain ⟨m, t, hm, hname⟩ := hagain
    obtain ⟨t', hm'⟩ := Emit.ask_of_slot_eq (u := t₁) hslot hm
    intro piece hpiece
    simp only [List.mem_cons, List.not_mem_nil, or_false] at hpiece
    rcases hpiece with rfl | rfl
    · exact ⟨_, _, rfl, by decide⟩
    · exact ⟨m, t', hm', hname⟩
  have hmarks : header.method? = none ∧ closing.method? = none ∧ last.method? = none ∧
      opening.method? = some ⟨"Constructor", ⟨2, 10⟩⟩ := by
    simp only [EmittedNode.method?, hheader, hopening, hclosing, hlast]
    exact ⟨rfl, rfl, rfl, rfl⟩
  obtain ⟨hheaderName, hclosingName, hlastName, hopeningName⟩ := hmarks
  intro piece hpiece name hname
  simp only [List.mem_cons, List.not_mem_nil, or_false] at hpiece
  obtain rfl : piece = opening := by
    rcases hpiece with rfl | rfl | rfl | rfl
    · cases hheaderName.symm.trans hname
    · rfl
    · cases hclosingName.symm.trans hname
    · cases hlastName.symm.trans hname
  cases hopeningName.symm.trans hname
  refine ⟨hlies piece (by simp), fun ends hends => ?_⟩
  obtain ⟨⟨node, hnode, hstatement⟩, earlier, between, later, hpieces, -⟩ := hends
  have hmem : ends ∈ [header, piece, closing, last] := by
    rw [hpieces]
    exact List.mem_append_right _ List.mem_cons_self
  simp only [List.mem_cons, List.not_mem_nil, or_false] at hmem
  rcases hmem with rfl | rfl | rfl | rfl
  · cases hheader.symm.trans hnode
    cases hstatement
  · cases hopening.symm.trans hnode
    cases hstatement
  · exact hlies ends (by simp)
  · cases hlast.symm.trans hnode
    cases hstatement

/-- The class has its own constructor only, which sets up the instance before anything else. -/
theorem emits_one_constructor_point : ∃ code s',
    ∃ run : ClassRun pointChildren pointContext (.initial 0) code s',
      run.FollowsScopes ∧ run.members.count "constructor_" = 1 ∧ run.inserted = none ∧
      ∃ piece ∈ run.pieces, ∃ name setup scope c, piece.StartsMember pointContext name setup ∧
        SetsUp pointContext scope c false setup := by
  -- all statements are leaves of the class itself
  have hplaced : ∀ node ∈ allStatementsOf pointChildren, node.marksMethod = true →
      .leaf node ∈ memberNodes pointChildren := by
    intro node hnode _
    have hall : allStatementsOf pointChildren =
        [pointHeader, pointOpening, pointClosing, pointEnd] := rfl
    have hmembers : memberNodes pointChildren =
        [.leaf pointHeader, .leaf pointOpening, .leaf pointClosing, .leaf pointEnd] := rfl
    rw [hall] at hnode
    rw [hmembers]
    simpa using hnode
  have hexplicit : hasExplicit pointChildren = true := by decide
  obtain ⟨code, s', h⟩ := exists_emit_point
  obtain ⟨⟨run⟩, hrun⟩ := StructureNode.emits_one_constructor h (by decide) hplaced
    (by decide) (by decide)
  obtain ⟨hcount, hinserted, hmet, -, hmethods⟩ := hrun run
  obtain ⟨piece, hpiece, name, hmethod, hname⟩ := hmet hexplicit
  obtain ⟨setup, hstarts, hsetup⟩ := hmethods piece hpiece name hmethod
  have hscopes := followsScopes_point run
  obtain ⟨-, scope, c, -, hlines, -⟩ := (hsetup hscopes).2 hname
  rw [hexplicit] at hinserted
  have hnone : run.inserted = none := Option.not_isSome_iff_eq_none.mp (by rw [hinserted]; decide)
  exact ⟨code, s', run, hscopes, hcount, hnone, piece, hpiece, name, setup, scope, c, hstarts,
    hlines⟩

end SourceUnit

end AbapLowering
