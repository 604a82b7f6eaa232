import AbapLowering.Proofs.Blocks.Statement

/-!
# Statements around blocks

What opens and closes blocks: branches, loops, classes, methods and forms, together with the members
that a class gets. The lines of all members leave the blocks as they are, those of a constructor
that is inserted open one and close it again.
-/

namespace AbapLowering

open Script
open Script.Reading (readLine)
open Emit (Keeps)

variable {w : Wording} {v : View}

/-! ## Members -/

/-- What is met on a walk is what is found under the name. -/
theorem found_of_mem_visitInterfaces {order : WalkOrder}
    {find : String → Except GraphFault (Option InterfaceDefinition)} {unseen names : List String}
    {visit : InterfaceVisit} (h : visit ∈ visitInterfaces order find unseen names) :
    visit.found = find visit.name := by
  fun_induction visitInterfaces order find unseen names with
  | case1 => cases h
  | case2 unseen name waiting _ _ ih =>
    rcases List.mem_cons.mp h with rfl | h
    · rfl
    · exact ih h
  | case3 unseen name waiting _ ih => exact ih h

/-- All kinds of attributes are worded like the definition. -/
theorem Definition.Worded.attribute {d : Definition} (h : d.Worded w) {a : Attribute}
    (ha : a ∈ d.attributes.inst ∨ a ∈ d.attributes.statics ∨ a ∈ d.attributes.constants) :
    a.Worded w := by
  refine h.attributes a ?_
  simpa [Attributes.all, or_assoc] using ha

namespace Members

/-- The names and values of a static member. -/
structure StaticMember.Worded (w : Wording) (m : StaticMember) : Prop where
  name : w.Word m.name
  type : m.type.Worded w
  value : ∀ value ∈ m.value, value.Worded w

/-- An attribute is set up on one line. -/
theorem keeps_instanceLine {name : String} (hname : w.Word name) {type : DataType}
    (htype : type.Worded w) : (instanceLine name type).Keeps w v (Inline w) :=
  .bind (Emit.keeps_typeConstructor htype) fun _ htext =>
    .pure (((((Reads.fixed rfl).andName hname rfl).andFixed rfl).andInline htext).andFixed rfl)

/-- What an interface provides is worded like the view. -/
theorem keeps_visited (hv : v.Worded w) (what : String) {order : WalkOrder}
    {scope : Option ScopeId} {names : List String} {visit : InterfaceVisit}
    (h : visit ∈ v.visits order scope names) :
    (visited what visit).Keeps w v fun found => ∀ i ∈ found, i.toDefinition.Worded w := by
  have hfound := found_of_mem_visitInterfaces h
  unfold visited
  split
  next => exact .throw _
  next i hi =>
    refine .pure ?_
    rintro _ ⟨⟩
    exact hv.findInterface (hfound.symm.trans hi)
  next => exact .bind (.warn _ _) fun _ _ => .pure nofun

theorem keeps_interfaceLines (hv : v.Worded w) {order : WalkOrder} {scope : Option ScopeId}
    {names : List String} {visit : InterfaceVisit} (h : visit ∈ v.visits order scope names) :
    (interfaceLines visit).Keeps w v (InlineAll w) := by
  refine .bind (keeps_visited hv _ h) fun found hfound => ?_
  cases found with
  | none => exact .pure .nil
  | some i =>
    have hi := hfound i rfl
    refine .mapM fun a ha => ?_
    have hworded := hi.attribute (.inl ha)
    exact keeps_instanceLine (hi.name.interfaceMember hworded.name) hworded.type

/-- An alias is set up on one line. -/
theorem inline_aliasLine {a : Alias} (hname : w.Word a.name) (hcomponent : w.Word a.component) :
    Inline w (aliasLine a) :=
  ((((Reads.fixed rfl).andName hname.plain rfl).andFixed rfl).andName hcomponent.plain rfl).andFixed
    rfl

theorem inline_constantLine {className : String} (hclass : w.Word className) {a : Attribute}
    (h : w.Word a.name) : Inline w (constantLine className a) :=
  ((((((Reads.fixed rfl).andName h.plain rfl).andFixed rfl).andName hclass rfl).andFixed
    rfl).andName h.plain rfl).andFixed rfl

/-- No line of a constructor opens or closes a block. -/
theorem keeps_constructorLines (hv : v.Worded w) {c : ClassDefinition} (h : c.Worded w)
    (scope : Option ScopeId) (forward : Bool) :
    (constructorLines c scope forward).Keeps w v (InlineAll w) := by
  have hc := h.definition
  refine .bind (P := InlineAll w) (.mapM fun a ha => ?_) fun own hown => ?_
  · have hworded := hc.attribute (.inl ha)
    exact keeps_instanceLine hworded.name.plain hworded.type
  refine .bind .read fun context hcontext => ?_
  subst hcontext
  refine .bind (.mapM fun visit hvisit => keeps_interfaceLines hv hvisit) fun provided hprovided =>
    .pure ?_
  have hfixed : InlineAll w ["this.me = new abap.types.ABAPObject();", "this.me.set(this);"] :=
    .cons (.fixed rfl) (.single (.fixed rfl))
  refine ((((InlineAll.append (.partIf (.fixed rfl)) hfixed).append hown).append ?_).append
    ?_).append ?_
  · exact .flatten hprovided
  · exact List.forall_mem_map.mpr fun a ha =>
      inline_aliasLine (hc.aliases a ha).1 (hc.aliases a ha).2
  · exact List.forall_mem_map.mpr fun a ha =>
      inline_constantLine hc.name.toLower (hc.attribute (.inr (.inr ha))).name

/-- The class around a token is worded like the view. -/
theorem keeps_classOf (hv : v.Worded w) (name : Token) :
    (classOf name).Keeps w v (ClassDefinition.Worded w) := by
  refine .bind (.ask (hv.classAt name.start)) fun found hfound => ?_
  cases found with
  | none => exact .fail _
  | some c => exact .pure (hfound c rfl)

/-- A constructor that is inserted opens a block and closes it again. -/
theorem keeps_defaultConstructor (hv : v.Worded w) (name : Token) :
    (defaultConstructor name).Keeps w v fun text => ∀ d, Leads w d text d := by
  refine .bind (keeps_classOf hv name) fun c hc => ?_
  refine .bind (.asked _) fun scope _ => ?_
  refine .bind (keeps_constructorLines hv hc _ _) fun lines hlines => .pure fun d => ?_
  have hopen : Leads w d ("async constructor_(INPUT) \x7b" ++ "\n") (d + 1) :=
    .line (.opens (.fixed rfl) rfl)
  have hclose : Leads w (d + 1) ("return this;" ++ "\n" ++ "\x7d" ++ "\n") d :=
    .andThen (.inline (.fixed rfl)) (.line .closes)
  exact (hopen.append (.inlines hlines)).append hclose

/-! ### Static members -/

/-- Static members are named by words if their spelling keeps words. -/
theorem worded_staticMembers {d : Definition} (h : d.Worded w) {spell : String → String}
    (hspell : ∀ name, w.Word name → w.Word (spell name)) :
    ∀ m ∈ staticMembers d.attributes spell, StaticMember.Worded w m := by
  refine List.forall_mem_map.mpr fun a ha => ?_
  have hworded := h.attribute (.inr (List.mem_append.mp ha))
  exact ⟨hspell _ hworded.name, hworded.type, hworded.value⟩

theorem keeps_interfaceMembers (hv : v.Worded w) {order : WalkOrder} {scope : Option ScopeId}
    {names : List String} {visit : InterfaceVisit} (h : visit ∈ v.visits order scope names) :
    (interfaceMembers visit).Keeps w v fun members => ∀ m ∈ members, StaticMember.Worded w m := by
  refine .bind (keeps_visited hv _ h) fun found hfound => ?_
  cases found with
  | none => exact .pure nofun
  | some i =>
    have hi := hfound i rfl
    exact .pure (worded_staticMembers hi fun _ hname => hi.name.interfaceMember hname)

mutual

/-- Each leaf of an initial value is set on one line. -/
theorem inline_valueLines {target : String} (htarget : Inline w target) :
    ∀ value : AttributeValue, value.Worded w → InlineAll w (valueLines target value)
  | .scalar text, h => by
    refine .single ?_
    have hset := htarget.append (.value h)
    rwa [← String.append_assoc, ← String.append_assoc] at hset
  | .structured components, h => inline_componentLines htarget components h

theorem inline_componentLines {target : String} (htarget : Inline w target) :
    ∀ components : List ComponentValue, valuesWorded w components →
      InlineAll w (componentLines target components)
  | [], _ => .nil
  | ⟨_, value⟩ :: rest, ⟨hname, hvalue, hrest⟩ =>
    .append (inline_valueLines (Inline.andWord (htarget.andFixed rfl) hname.plain) value hvalue)
      (inline_componentLines htarget rest hrest)

end

/-- A static member is declared and set on lines of their own. -/
theorem keeps_staticLines {className : String} (hclass : w.Word className) {m : StaticMember}
    (h : StaticMember.Worded w m) : (staticLines className m).Keeps w v (InlineAll w) := by
  refine .bind (Emit.keeps_typeConstructor h.type) fun text htext => .pure ?_
  have htarget : Inline w (className ++ "." ++ m.name) :=
    Inline.andWord (hclass.inline.andFixed rfl) h.name
  refine .cons ((htarget.joined rfl htext).andFixed rfl) ?_
  cases hvalue : m.value with
  | none => exact .nil
  | some value => exact inline_valueLines htarget value (h.value value hvalue)

/-- The alias of a static member is set on one line. -/
theorem inline_staticAliasLine {className : String} (hclass : w.Word className)
    (members : List StaticMember) {a : Alias} (hname : w.Word a.name)
    (hcomponent : w.Word a.component) :
    ∀ line ∈ staticAliasLine? className members a, Inline w line := by
  intro line hline
  unfold staticAliasLine? at hline
  dsimp only at hline
  split at hline
  next =>
    cases hline
    have hleft : Inline w (className ++ "." ++ Identifier.plain a.name) :=
      Inline.andWord (hclass.inline.andFixed rfl) hname.plain
    exact ((((hleft.andFixed rfl).andName hclass rfl).andFixed rfl).andName hcomponent.plain
      rfl).andFixed rfl
  next => cases hline

/-- The static members of a class and its interfaces are worded like the view. -/
theorem keeps_collectStatics (hv : v.Worded w) {c : ClassDefinition} (h : c.Worded w)
    (scope : ScopeId) :
    (collectStatics c scope).Keeps w v fun members => ∀ m ∈ members, StaticMember.Worded w m := by
  refine .bind .read fun context hcontext => ?_
  subst hcontext
  refine .bind (.mapM fun visit hvisit => keeps_interfaceMembers hv hvisit)
    fun provided hprovided => .pure fun m hm => ?_
  rcases List.mem_append.mp hm with hm | hm
  · exact worded_staticMembers h.definition (fun _ hname => hname.plain) m hm
  · obtain ⟨members, hmembers, hm⟩ := List.mem_flatten.mp hm
    exact hprovided members hmembers m hm

/-- The lines that some static members are declared by. -/
theorem keeps_declarations {className : String} (hclass : w.Word className)
    {members : List StaticMember} (h : ∀ m ∈ members, StaticMember.Worded w m) :
    (members.mapM (staticLines className)).Keeps w v fun lines => InlineAll w lines.flatten :=
  .mono (.mapM fun m hm => keeps_staticLines hclass (h m hm)) fun _ hparts => .flatten hparts

/-- The static section of a class leaves the open blocks as they are. -/
theorem keeps_staticPart (hv : v.Worded w) {name : Token} (h : w.Word name.text) :
    (staticPart name).Keeps w v fun text => ∀ d, Leads w d text d := by
  have hname : w.Word name.lower := h.toLower
  refine .bind (keeps_classOf hv name) fun c hc => ?_
  refine .bind (.asked _) fun scope _ => ?_
  refine .bind (keeps_collectStatics hv hc scope) fun members hmembers => ?_
  refine .bind (keeps_declarations hname hmembers) fun lines hlines => .pure fun d => ?_
  refine .inlines ((hlines.append fun line hline => ?_).append (.partIf ?_))
  · obtain ⟨a, ha, hline⟩ := List.mem_filterMap.mp hline
    have haliases := hc.definition.aliases a ha
    exact inline_staticAliasLine hname members haliases.1 haliases.2 line hline
  · exact ((Reads.fixed rfl).andName hname rfl).andFixed rfl

/-- The interface that is found is worded like the view. -/
theorem keeps_interfaceOf (hv : v.Worded w) (name : Token) :
    (interfaceOf name).Keeps w v fun i => i.toDefinition.Worded w := by
  refine .bind (.asked _) fun scope _ => ?_
  refine .bind (.ask (hv.interfaceAt name.start)) fun found hfound => ?_
  cases found with
  | some i => exact .pure (hfound i rfl)
  | none =>
    refine .bind (.walk (P := fun found => ∀ i ∈ found, i.toDefinition.Worded w) ?_)
      fun found hfound => ?_
    · rintro found hfind i rfl
      exact hv.findInterface hfind
    · cases found with
      | none => exact .fail _
      | some i => exact .pure (hfound i rfl)

theorem keeps_interfacePart {name : Token} (h : w.Word name.text) {i : InterfaceDefinition}
    (hi : i.toDefinition.Worded w) :
    (interfacePart name i).Keeps w v fun text => ∀ d, Leads w d text d := by
  have hname : w.Word name.lower := h.toLower
  have hmembers := worded_staticMembers hi fun _ hmember => hname.interfaceMember hmember
  exact .bind (keeps_declarations hname hmembers) fun _ hlines => .pure fun _ => .inlines hlines

/-- A registration is one line, and waits for the end of the unit. -/
theorem keeps_register (hv : v.Worded w) {d : Definition} (hd : d.Worded w) {name : Token}
    (h : w.Word name.text) : (register d name).Keeps w v fun _ => True := by
  refine .bind .read fun context hcontext => ?_
  subst hcontext
  exact .register (((((hv.key hd).inline_lookup).andFixed rfl).andName h.toLower rfl).andFixed rfl)

end Members

/-! ## Declarations -/

namespace DataObject

/-- An initial value is a literal in its marks. -/
theorem inline_initialValue {value : Constant} (h : value.Unbroken) :
    Inline w (Literal.initialValue value) := by
  match value, h with
  | .integer value, _ => exact (Wording.word_toString_int value.toInt).inline
  | .text _, h => exact .fixed (readLine_quoted h)
  | .backtick _, h => exact .fixed (readLine_string h)

/-- The value of a data object stands on a line of its own. -/
theorem keeps_declare {name : Token} {type : DataType} {value : Option Constant}
    (hname : w.Word name.text) (htype : type.Worded w)
    (hvalue : ∀ constant ∈ value, constant.Unbroken) :
    (declare name type value).Keeps w v (Shifts w 0 0) := by
  refine .bind (Emit.keeps_typeConstructor htype) fun text htext => ?_
  have hdeclaration : Inline w ("let " ++ Identifier.plain name.text ++ " = " ++ text ++ ";") :=
    (Inline.joined ((Reads.fixed rfl).andName hname.plain rfl) rfl htext).andFixed rfl
  cases value with
  | none => exact .pure (.inline hdeclaration)
  | some constant =>
    have hset : Inline w (Identifier.plain name.text ++ ".set(" ++ Literal.initialValue constant
        ++ ");") :=
      (hname.plain.inline.joined rfl (inline_initialValue (hvalue constant rfl))).andFixed rfl
    refine .pure fun d => ?_
    simpa only [String.append_assoc] using (Leads.inline hdeclaration).andThen (.inline hset)

theorem inline_declareFieldSymbol {name : Token} (h : w.Word name.text) :
    Inline w (declareFieldSymbol name) :=
  ((Reads.fixed rfl).andName h.fieldSymbol rfl).andFixed rfl

end DataObject

/-! ## Flow of control -/

/-- To put feeds between lines and one behind them is to end each line. -/
theorem Emit.intercalate_feed {lines : List String} (h : lines ≠ []) :
    "\n".intercalate lines ++ "\n" = endLines lines := by
  induction lines with
  | nil => exact absurd rfl h
  | cons line rest ih =>
    rw [endLines_cons]
    cases rest with
    | nil => exact (String.append_empty).symm
    | cons second rest =>
      rw [String.intercalate_cons_cons, String.append_assoc, ih (by simp)]

/-- What a method hands back is a name. -/
theorem Flow.word_result {m : EnclosingMethod} (h : ∀ d ∈ m.definition, d.Worded w)
    {result : String} (hresult : result? m = some result) : w.Word result := by
  unfold result? at hresult
  split at hresult
  next =>
    cases hresult
    exact .of_strict (by decide)
  next =>
    obtain ⟨p, hp, rfl⟩ := Option.map_eq_some_iff.mp hresult
    obtain ⟨d, hd, hp⟩ := Option.bind_eq_some_iff.mp hp
    exact ((h d hd).parameters p (List.mem_of_find?_eq_some hp)).name.plain

namespace Flow

section

variable (hv : v.Worded w)

include hv

/-- IF opens one block. -/
theorem keeps_ifThen {condition : Condition} (h : condition.Worded w) :
    (ifThen condition).Keeps w v (Shifts w 0 1) :=
  .bind (condition.keeps hv h) fun _ htext => .pure (.opening (htext.labelled _ rfl) _ rfl rfl)

/-- ELSEIF closes a block and opens another. -/
theorem keeps_elseIf {condition : Condition} (h : condition.Worded w) :
    (elseIf condition).Keeps w v (Shifts w 1 1) :=
  .bind (condition.keeps hv h) fun _ htext => .bind (.guarded htext) fun _ hguarded =>
    .pure (.turning _ rfl rfl hguarded _ rfl rfl)

/-- WHILE opens one block; the guards in its header are closed there. -/
theorem keeps_whileTrue {condition : Condition} (h : condition.Worded w) :
    (whileTrue condition).Keeps w v (Shifts w 0 1) :=
  .bind (condition.keeps hv h) fun _ htext => .bind (.guarded htext) fun _ hguarded =>
    .pure (.opening (hguarded.labelled _ rfl) _ rfl rfl)

/-- The head of a loop stands between two other lines. -/
theorem keeps_doTimes {times : Option Source} (h : ∀ source ∈ times, source.Worded w) :
    (doTimes times).Keeps w v (Shifts w 0 1) := by
  cases times with
  | some times =>
    refine .bind .temporary fun count hcount => ?_
    refine .bind .temporary fun index hindex => ?_
    refine .bind (times.keeps hv (h times rfl)) fun value hvalue => .pure fun d => ?_
    have hlimit : Inline w ("const " ++ count ++ " = " ++ value ++ ".get();") :=
      (Inline.joined ((Reads.fixed rfl).andName hcount rfl) rfl hvalue).andFixed rfl
    have hhead : Inline w ("for (let " ++ index ++ " = 0; " ++ index ++ " < " ++ count ++ "; "
        ++ index) :=
      (((((((Reads.fixed rfl).andName hindex rfl).andFixed rfl).andName hindex rfl).andFixed
        rfl).andName hcount rfl).andFixed rfl).andName hindex rfl
    have hset : Inline w ("abap.builtin.sy.get().index.set(" ++ index ++ " + 1);") :=
      ((Reads.fixed rfl).andName hindex rfl).andFixed rfl
    have hloop := Shifts.opening hhead "++) \x7b" rfl rfl d
    have hlines := ((Leads.inline hlimit).andThen hloop).andThen (.inline hset)
    rw [show ".get();\nfor (let " = ".get();" ++ "\n" ++ "for (let " from rfl,
      show "++) \x7b\nabap.builtin.sy.get().index.set(" =
        "++) \x7b" ++ "\n" ++ "abap.builtin.sy.get().index.set(" from rfl]
    simpa only [String.append_assoc, Nat.add_zero] using hlines
  | none =>
    refine .bind .temporary fun index hindex => .pure fun d => ?_
    have hstart : Inline w ("let " ++ index ++ " = 1;") :=
      ((Reads.fixed rfl).andName hindex rfl).andFixed rfl
    have hhead : Leads w d ("while (true) \x7b" ++ "\n") (d + 1) := .line (.opens (.fixed rfl) rfl)
    have hset : Inline w ("abap.builtin.sy.get().index.set(" ++ index ++ "++);") :=
      ((Reads.fixed rfl).andName hindex rfl).andFixed rfl
    have hlines := ((Leads.inline hstart).andThen hhead).andThen (.inline hset)
    rw [show " = 1;\nwhile (true) \x7b\nabap.builtin.sy.get().index.set(" = " = 1;" ++ "\n"
      ++ "while (true) \x7b" ++ "\n" ++ "abap.builtin.sy.get().index.set(" from rfl]
    simpa only [String.append_assoc, Nat.add_zero] using hlines

/-- What is done with the current row stands on a line of its own. -/
theorem keeps_loopOutput {row : String} (hrow : w.Word row) {output : LoopOutput}
    (h : output.Worded w) : (loopOutput row output).Keeps w v fun text =>
      ∀ head d d', Leads w d (head ++ "\n") d' → Leads w d (head ++ text ++ "\n") d' := by
  have hline : ∀ place between : String, Inline w place →
      readLine .start between = some .start → ∀ head d d', Leads w d (head ++ "\n") d' →
        Leads w d (head ++ ("\n" ++ place ++ between ++ row ++ ");") ++ "\n") d' := by
    intro place between hplace hbetween head d d' hhead
    have hset : Inline w (place ++ between ++ row ++ ");") :=
      ((hplace.andFixed hbetween).andName hrow rfl).andFixed rfl
    simpa only [String.append_assoc] using hhead.andThen (.inline hset)
  cases output with
  | into target =>
    exact .bind (FieldChain.keeps_emitTarget hv h) fun place hplace =>
      .pure (hline place ".set(" hplace rfl)
  | assigning target =>
    exact .bind (FieldChain.keeps_emitTarget hv h) fun place hplace =>
      .pure (hline place ".assign(" hplace rfl)
  | referenceInto target =>
    exact .bind (FieldChain.keeps_emitTarget hv h) fun place hplace =>
      .pure (hline place ".assign(" hplace rfl)
  | nothing =>
    refine .pure fun head d d' hhead => ?_
    rwa [String.append_empty]

/-- LOOP AT opens one block, and what is done with the row stands inside. -/
theorem keeps_loopAt {table : Source} {output : LoopOutput} {filter : Option Condition}
    (htable : table.Worded w) (houtput : output.Worded w)
    (hfilter : ∀ condition ∈ filter, condition.Worded w) :
    (loopAt table output filter).Keeps w v (Shifts w 0 1) := by
  refine .bind .temporary fun row hrow => ?_
  refine .bind (table.keeps hv htable) fun table htable => ?_
  have hrest : ∀ options, Inline w options → Keeps w v (do
      return "for (const " ++ row ++ " of abap.statements.loop(" ++ table ++ options ++ ")) \x7b"
        ++ (← loopOutput row output)) (Shifts w 0 1) := by
    intro options hoptions
    have hhead : Inline w ("for (const " ++ row ++ " of abap.statements.loop(" ++ table
        ++ options) :=
      (Inline.joined ((Reads.fixed rfl).andName hrow rfl) rfl htable).andInline hoptions
    exact .bind (keeps_loopOutput hv hrow houtput) fun _ htext =>
      .pure fun d => htext _ d (d + 1) (Shifts.opening hhead _ rfl rfl d)
  cases filter with
  | none => exact .bind (.pure (.fixed rfl)) hrest
  | some condition =>
    refine .bind (condition.keeps_emitRowFilter hv (hfilter condition rfl)) fun _ htext => ?_
    exact .bind (.pure (P := Inline w) (((Reads.fixed rfl).andInline htext).andFixed rfl)) hrest

theorem keeps_assert {condition : Condition} (h : condition.Worded w) :
    (assert condition).Keeps w v (Inline w) :=
  .bind (condition.keeps hv h) fun _ htext => .pure (htext.runtimeCall rfl)

/-! ## Methods and classes -/

/-- The value that a method returns is named by a word. -/
theorem keeps_resultAt (position : Position) :
    (resultAt position).Keeps w v fun result => ∀ name ∈ result, w.Word name := by
  refine .bind (.ask (hv.enclosingMethod position)) fun enclosing henclosing => .pure ?_
  intro name hname
  obtain ⟨m, hm, hname⟩ := Option.bind_eq_some_iff.mp hname
  exact word_result (henclosing m hm) hname

/-- RETURN stands on one line. -/
theorem keeps_returnAt (position : Position) : (returnAt position).Keeps w v (Inline w) := by
  refine .bind (keeps_resultAt hv position) fun result hresult => ?_
  cases result with
  | none => exact .pure (.fixed rfl)
  | some name => exact .pure (((Reads.fixed rfl).andName (hresult name rfl) rfl).andFixed rfl)

/-- The end of a method closes its block. -/
theorem keeps_endMethodAt (position : Position) :
    (endMethodAt position).Keeps w v (Shifts w 1 0) := by
  refine .bind (keeps_resultAt hv position) fun result hresult => ?_
  cases result with
  | none => exact .pure fun d => .line .closes
  | some name =>
    refine .pure fun d => ?_
    have hreturn : Inline w ("return " ++ name ++ ";") :=
      ((Reads.fixed rfl).andName (hresult name rfl) rfl).andFixed rfl
    have hlines : Leads w (d + 1) ("return " ++ name ++ ";" ++ "\n" ++ "\x7d" ++ "\n") d :=
      .andThen (.inline hreturn) (.line .closes)
    rw [show ";\n\x7d" = ";" ++ "\n" ++ "\x7d" from rfl]
    simpa only [String.append_assoc, Nat.add_zero] using hlines

omit hv in
/-- What takes a parameter opens a block and closes it on the same line. -/
theorem keeps_parameterLines {p : MethodParameter} (h : p.Worded w) :
    (parameterLines p).Keeps w v (InlineAll w) := by
  have hname := h.name.plain
  refine .bind (Emit.keeps_typeConstructor h.type) fun text htext => .pure ?_
  have hdeclaration : Inline w ("let " ++ Identifier.plain p.name ++ " = " ++ text ++ ";") :=
    (Inline.joined ((Reads.fixed rfl).andName hname rfl) rfl htext).andFixed rfl
  refine .cons hdeclaration (.partIf ?_)
  exact ((((((Reads.fixed rfl).andName hname rfl).andFixed rfl).andName hname rfl).andFixed
    rfl).andName hname rfl).andFixed rfl

/-- The lines that set up a method leave its block open. -/
theorem keeps_setupLines (enclosing : Option EnclosingMethod) (position : Position)
    (name : Token) : (setupLines enclosing position name).Keeps w v (InlineAll w) := by
  unfold setupLines
  split
  · refine .bind (.ask (hv.classAt position)) fun found hfound => ?_
    cases found with
    | none => exact .fail _
    | some c =>
      exact .bind (.asked _) fun scope _ =>
        Members.keeps_constructorLines hv (hfound c rfl) scope false
  · exact .pure .nil

/-- The header of a method opens one block, and its setup stands inside. -/
theorem keeps_methodAt (position : Position) {name : Token} (h : w.Word name.text) :
    (methodAt position name).Keeps w v (Shifts w 0 1) := by
  refine .bind (.ask (hv.enclosingMethod position)) fun enclosing henclosing => ?_
  have hdefinition : ∀ definition ∈ enclosing.bind (·.definition), definition.Worded w := by
    intro definition hmem
    obtain ⟨m, hm, hmem⟩ := Option.bind_eq_some_iff.mp hmem
    exact henclosing m hm definition hmem
  -- without a definition there are no parameters
  have hformals : ∀ p ∈ ((enclosing.bind (·.definition)).map (·.parameters)).getD [],
      p.Worded w := by
    cases hfound : enclosing.bind (·.definition) with
    | none => exact nofun
    | some definition => exact (hdefinition definition hfound).parameters
  -- the header opens a block, and the lines below it stay inside
  have hrest : ∀ reach, Inline w reach → Keeps w v (do
      let parameters ←
        (((enclosing.bind (·.definition)).map (·.parameters)).getD []).mapM parameterLines
      let setup ← setupLines enclosing position name
      return "\n".intercalate ((reach ++ "async " ++ Identifier.method name.text ++ "(INPUT) \x7b")
        :: parameters.flatten ++ setup)) (Shifts w 0 1) := by
    intro reach hreach
    refine .bind (.mapM fun p hp => keeps_parameterLines (hformals p hp)) fun parts hparts => ?_
    refine .bind (keeps_setupLines hv enclosing position name) fun setup hsetup => .pure fun d => ?_
    have hlines : InlineAll w (parts.flatten ++ setup) := .append (.flatten hparts) hsetup
    have hhead : Inline w (reach ++ "async " ++ Identifier.method name.text) :=
      Inline.andWord (hreach.andFixed rfl) h.method
    rw [List.cons_append, Emit.intercalate_feed (by simp), Emit.endLines_cons]
    exact (Shifts.opening hhead _ rfl rfl d).append (.inlines hlines)
  have hreach : Inline w
      (if (enclosing.bind (·.definition)).any (·.isStatic) then "static " else "") := by
    split <;> exact .fixed rfl
  dsimp only
  split
  · exact .bind (.warn _ _) fun _ _ => hrest _ hreach
  · exact hrest _ hreach

/-- The header of a class opens one block. -/
theorem keeps_classHeader {name : Token} (h : w.Word name.text) :
    (classHeader name).Keeps w v (Shifts w 0 1) := by
  refine .bind (.asked _) fun scope _ => ?_
  refine .bind (.walk (P := fun found => ∀ c ∈ found, c.Worded w) ?_) fun found hfound => ?_
  · rintro found hfind c rfl
    exact hv.findClass hfind
  have hhead : Inline w ("class " ++ name.lower) := (Reads.fixed rfl).andName h.toLower rfl
  split
  next superClass hsuper =>
    obtain ⟨c, hc, hsuper⟩ := Option.bind_eq_some_iff.mp hsuper
    refine .bind (.classAddress hv ((hfound c hc).superClass _ hsuper) _) fun _ haddress => .pure ?_
    exact .opening (hhead.joined rfl haddress) _ rfl rfl
  next => exact .pure (.opening hhead _ rfl rfl)

end

end Flow

end AbapLowering
