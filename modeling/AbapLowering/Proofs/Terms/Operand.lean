import AbapLowering.Proofs.Terms.Calls
import AbapLowering.Proofs.Terms.Naming

/-!
# Operands as terms

The code of an operand is a term of the emitted language, in which an `await` stands iff there are
calls in the operand. All operands but calls bind like a member access; the code of a call is an
`await` before what binds so (`Source.Spells`).
-/

namespace AbapLowering

open Script
open Emit (Writes)

-- the theorems of a mutual block hand the names of the view on to each other
set_option linter.unusedSectionVars false

variable {v : View} {b c : Bool} {s t name : String}

/-! ## Terms -/

namespace Script

/-- A strictly worded name stays within its text. -/
theorem within?_of_word (h : Wording.strict.Word s) :
    (Mode.text .single).within? s.toList = some (.text .single) := by
  have hunbroken := h.isUnbroken
  have hslash := h '\\' (by decide)
  have hmark := h '\x27' (by decide)
  have hquote : Quote.single ≠ .back := by decide
  rw [IsUnbroken] at hunbroken
  generalize s.toList = cs at hunbroken hslash hmark
  induction cs with
  | nil => rfl
  | cons c rest ih =>
    rw [List.mem_cons, not_or] at hslash hmark
    obtain ⟨hbreak, hrest⟩ := List.forall_mem_cons.mp hunbroken
    rw [Mode.within?, List.foldlM_cons, Mode.next?,
      modeInText_of_ne hquote (Ne.symm hslash.1) (Ne.symm hmark.1) hbreak]
    exact ih hrest hslash.2 hmark.2

namespace Term

/-- The same text is the same term. -/
theorem of_eq {form : Form} (h : Term form b s) (heq : s.toList = t.toList) : Term form b t :=
  String.toList_inj.mp heq ▸ h

/-- A member is called. -/
theorem invoke (h : Term .access b s) (name : String) (ht : Term .list c t)
    (hname : IsWord name := by decide) :
    Term .access (b || c) (s ++ "." ++ name ++ "(" ++ t ++ ")") := (h.member hname).call ht

/-- A member is called without parameters. -/
theorem invokeBare (h : Term .access b s) (name : String) (hname : IsWord name := by decide) :
    Term .access b (s ++ "." ++ name ++ "()") := by
  have hcall := h.invoke name .nothing hname
  rw [Bool.or_false] at hcall
  exact hcall.of_eq (by simp)

theorem get (h : Term .access b s) : Term .access b (s ++ ".get()") :=
  (h.invokeBare "get").of_eq (by simp)

/-- What belongs to the runtime. -/
theorem runtime (name : String) (hname : IsWord name := by decide) :
    Term .access false ("abap." ++ name) :=
  (Term.member (.name (s := "abap") (by decide)) hname).of_eq (by simp)

/-- A class is looked up by its quoted key. -/
theorem lookup {key : String} (h : Wording.strict.Word key) :
    Term .access false (ClassKey.lookup key) := by
  have hindex := (runtime "Classes").index (.plain (.text (within?_of_word h)))
  exact hindex.of_eq (by simp [ClassKey.lookup])

/-- A value that is set. -/
theorem set (h : Term .access b s) (ht : Term .operand c t) :
    Term .access (b || c) (s ++ ".set(" ++ t ++ ")") :=
  (h.invoke "set" (.single ht)).of_eq (by simp)

/-- A quoted text is a term if it has no breaks. -/
theorem quoted {raw : String} (h : IsUnbroken raw) : Term .access false (Literal.quoted raw) := by
  refine .text ?_
  rw [String.toList_ofList]
  exact within?_escape (show Quote.single ≠ .back from nofun)
    fun c hc => h c (mem_of_mem_collapseDoubled hc)

/-- A string is a term whatever it contains, as it is escaped. -/
theorem string (raw : String) : Term .access false (Literal.string raw) := by
  obtain ⟨m, hm, hwithin⟩ := @within?_escapeBackticked (Text.collapseDoubled '\x60' raw.toList)
    (.text .back) (.inl rfl) nofun
  refine .template ?_
  have hpiece := Term.literal (s := String.ofList _) (by rwa [String.toList_ofList]) (.finish hm)
  rwa [String.append_empty] at hpiece

/-- An instance of a class, as the code for it starts. -/
theorem created (path : List String) (start : String) (h : Term .list b t)
    (hpath : ∀ word ∈ path, IsWord word := by decide)
    (hstart : "new " ++ ".".intercalate path ++ "(" = start := by decide) :
    Term .access b (start ++ t ++ ")") := hstart ▸ .create hpath h

/-- A character literal is a new object with a quoted text. -/
theorem characterOperand {raw : String} (h : IsUnbroken raw) :
    Term .access false (Literal.characterOperand raw) := by
  have hkey : IsWord "length" := by decide
  have hlength := Term.object (.field hkey (.number (Literal.length raw)))
  have hclass := created ["abap", "types", "Character"] "new abap.types.Character("
    (.single hlength)
  change Term .access false ("new abap.types.Character(\x7blength: "
    ++ toString (Literal.length raw) ++ "\x7d).set(" ++ Literal.quoted raw ++ ")")
  exact (hclass.set (.plain (quoted h))).of_eq (by simp)

theorem stringOperand (h : Term .access b s) : Term .access b (Literal.stringOperand s) := by
  have hclass := created ["abap", "types", "String"] "new abap.types.String(" .nothing
  change Term .access b ("new abap.types.String().set(" ++ s ++ ")")
  exact (hclass.set (.plain h)).of_eq (by simp)

end Term

end Script

/-! ### Named parts -/

/-- Parts that name operands; it is marked whether an `await` stands in one of them. -/
inductive Fields : Bool → List String → Prop
  | nil : Fields false []
  | cons {b c key s parts} : IsWord key → Term .operand b s → Fields c parts →
      Fields (b || c) ((key ++ ": " ++ s) :: parts)

namespace Fields

variable {parts others : List String}

/-- Fields behind fields, where an `await` may stand in either. -/
theorem append (h : Fields b parts) (h' : Fields c others) : Fields (b || c) (parts ++ others) := by
  induction h with
  | nil => exact h'
  | cons hkey hs _ ih =>
    rw [Bool.or_assoc]
    exact .cons hkey hs ih

theorem single (key : String) (h : Term .operand b s) (hkey : IsWord key := by decide) :
    Fields b [key ++ ": " ++ s] := by
  rw [← Bool.or_false b]
  exact .cons hkey h .nil

/-- Fields with commas between them are the inside of an object. -/
theorem intercalate (h : Fields b parts) (hne : parts ≠ []) :
    Term .fields b (", ".intercalate parts) := by
  induction h with
  | nil => exact absurd rfl hne
  | @cons b c key s parts hkey hs hparts ih =>
    cases parts with
    | nil =>
      cases hparts
      rw [Bool.or_false, String.intercalate_singleton]
      exact .field hkey hs
    | cons second rest =>
      rw [String.intercalate_cons_cons]
      exact .fields hkey hs (ih (by simp))

/-- Fields in braces are an object. -/
theorem braced (h : Fields b parts) (hne : parts ≠ []) : Term .operand b (braced ", " parts) :=
  .object (h.intercalate hne)

/-- Named parameters are passed together, if there are any. -/
theorem arguments (h : Fields b parts) :
    Term .list b (if parts.isEmpty then "" else AbapLowering.braced ", " parts) := by
  cases parts with
  | nil =>
    cases h
    exact .nothing
  | cons first rest => exact .single (h.braced (by simp))

end Fields

/-- An operand under its name. -/
theorem Emit.Writes.named {g : Bool} {value : Emit String} {P : String → Prop} {key : String}
    (hkey : IsWord key) (h : Writes v g value P) (hP : ∀ text, P text → Term .operand b text) :
    Writes v g (Emit.named key value) fun part => Fields b [part] :=
  h.map fun text htext => .single key (hP text htext) hkey

/-! ## Steps of chains -/

namespace Operand

/-- A step: what it is put after stays an access. -/
def IsStep (step : String) : Prop := ∀ b s, Term .access b s → Term .access b (s ++ step)

/-- A member is a step behind anything that binds like an access. -/
theorem isStep_member (hname : IsWord name) : IsStep (".get()." ++ name) := fun _ _ h =>
  (h.get.member hname).of_eq (by simp)

theorem isStep_static (hname : IsWord name) : IsStep ("." ++ name) := fun _ _ h =>
  (h.member hname).of_eq (by simp)

/-- Steps behind each other are a step. -/
theorem isStep_join {α : Type} {items : List α} {steps : List String}
    (h : List.Forall₂ (fun _ step => IsStep step) items steps) : IsStep (String.join steps) := by
  induction h with
  | nil => exact fun b s hs => hs.of_eq (by simp)
  | cons hfirst _ ih =>
    intro b s hs
    rw [String.join_cons, ← String.append_assoc]
    exact ih _ _ (hfirst _ _ hs)

/-- What a chain starts with binds like an access; an interface is part of names. -/
structure Head.Named (b : Bool) (head : Head) : Prop where
  text : Term .access b head.text
  interfaceName : ∀ owner ∈ head.interfaceName, IsWord owner

/-- The formal parameter that takes an unnamed one. -/
def Callee.Named : Callee → Prop
  | .dynamic => True
  | .named _ definition =>
    ∀ m ∈ definition, ∀ p ∈ m.defaultImporting?, IsWord (Text.toLower p.name)

/-- A component of a row is reached by steps. -/
theorem access_rowComponent {path : List Token}
    (h : ∀ token ∈ path, IsWord (Identifier.plain token.text)) :
    Term .access false (rowComponent path) := by
  have hrow : Term .access false "i" := .name (by decide)
  cases path with
  | nil => exact hrow
  | cons first rest =>
    obtain ⟨hfirst, hrest⟩ := List.forall_mem_cons.mp h
    unfold rowComponent
    have hsteps : List.Forall₂ (fun _ step => IsStep step) rest
        (rest.map fun step => ".get()." ++ Identifier.plain step.text) := by
      rw [List.forall₂_map_right_iff, List.forall₂_same]
      exact fun token htoken => isStep_member (hrest token htoken)
    refine isStep_join hsteps _ _ ?_
    split
    · exact hrow
    · exact isStep_static hfirst _ _ hrow

section

variable (hv : v.Named)

include hv

/-- A class is addressed without an `await`. -/
theorem writes_classAddress (hname : Wording.strict.Word name) (position : Position) :
    Writes v false (Emit.classAddress name position) (Term .access false) :=
  (Writes.ask (hv.classAddress hname position)).mono fun _ ⟨_, hkey, heq⟩ => heq ▸ .lookup hkey

/-- A qualified name is an access or a name. -/
theorem writes_qualifiedName {token : Token} (h : IsIdentifier (Identifier.plain token.text)) :
    Writes v false (Emit.qualifiedName token) (Term .access false) := by
  have hword := h.toIsWord
  refine .after (.ask (hv.resolve token)) fun resolution hresolution => ?_
  cases resolution with
  | localName => exact .pure (.name h)
  | staticAttribute owner => exact .pure ((Term.name hresolution).member hword)
  | superReference => exact .pure (.name (by decide))
  | instanceAttribute =>
    exact .pure (((Term.name (s := "this") (by decide)).member hword).of_eq (by simp))
  | builtin =>
    have hbuiltin := (Term.runtime "builtin").member hword
    exact .pure (hbuiltin.of_eq (by simp))
  | interfaceAttribute owner =>
    exact (writes_classAddress hv hresolution.1 token.start).map fun _ haddress =>
      haddress.member (isWord_interfaceMember hresolution.2 hword)
  | foreignAttribute owner =>
    exact (writes_classAddress hv hresolution.1 token.start).map fun _ haddress =>
      haddress.member hword

/-- A class at the head of a chain binds like an access. -/
theorem writes_classHead {token : Token} (hname : Wording.strict.Word token.text)
    (hlower : IsWord token.lower) : Writes v false (classHead token) (Head.Named false) := by
  refine .after (.ask (.true _)) fun isInterface _ => ?_
  refine (writes_classAddress hv hname token.start).map fun _ haddress => ⟨haddress, ?_⟩
  dsimp only
  split
  · rintro owner ⟨⟩
    exact hlower
  · exact nofun

/-- The name of a member with its owner is a word. -/
theorem writes_memberName {token : Token} (h : IsWord (Identifier.plain token.text)) :
    Writes v false (memberName token) IsWord := by
  refine .after (.ask (hv.attributeInterface token)) fun found hfound => ?_
  cases found with
  | none => exact .pure h
  | some owner =>
    refine .pure ?_
    split
    · exact h
    · exact isWord_interfaceMember (hfound owner rfl) h

/-- Each segment of a chain is a step. -/
theorem writes_segment {interfaceName : Option String}
    (howner : ∀ owner ∈ interfaceName, IsWord owner) {step : ChainSegment} (h : step.Named) :
    Writes v false (segment interfaceName step) IsStep := by
  match step, h with
  | .component _, h => exact .pure (isStep_member h)
  | .attribute _, h => exact (writes_memberName hv h).map fun _ hname => isStep_member hname
  | .static _, h =>
    refine .pure (isStep_static ?_)
    cases interfaceName with
    | none => exact h
    | some owner => exact isWord_interfaceMember (howner owner rfl) h
  | .dereference, _ =>
    refine .pure fun b s hs => ?_
    exact (hs.invokeBare "getPointer").of_eq (by simp)

/-- A chain binds like an access, and has an `await` if its head has one. -/
theorem writes_path {head : Head} (hhead : head.Named b) {segments : List ChainSegment}
    (h : ∀ step ∈ segments, step.Named) : Writes v false (path head segments) (Term .access b) := by
  have hsteps : Writes v (guardsAwait (segments.flatMap fun _ => []))
      (segments.mapM (segment head.interfaceName))
      (List.Forall₂ (fun _ step => IsStep step) segments) :=
    .mapM fun step hstep => writes_segment hv hhead.interfaceName (h step hstep)
  rw [List.flatMap_eq_nil_iff.mpr fun _ _ => rfl] at hsteps
  exact hsteps.map fun _ hsteps => isStep_join hsteps _ _ hhead.text

/-- A method of something is a member of it. -/
theorem writes_namedMethod {base : String} (hbase : Term .access b base) {token : Token}
    (h : IsWord (Identifier.plain token.text)) :
    Writes v false (namedMethod base token) fun found =>
      Term .access b found.1 ∧ found.2.Named := by
  refine .after (.ask (hv.methodReference token)) fun found hfound => ?_
  cases found with
  | none => exact .pure ⟨hbase.member h, nofun⟩
  | some called =>
    obtain ⟨hname, hformal⟩ := hfound called rfl
    refine .pure ⟨hbase.member hname, ?_⟩
    rintro _ ⟨⟩
    exact hformal

omit hv in
/-- An unnamed argument is an argument or an object with it. -/
theorem writes_singleParameter {callee : Callee} (hcallee : callee.Named) (h : Term .operand b s) :
    Writes v false (singleParameter callee s) (Term .list b) := by
  unfold singleParameter
  split
  · exact .pure (.single h)
  next anchor definition =>
    split
    next formal hformal =>
      obtain ⟨m, hm, hdefault⟩ := Option.bind_eq_some_iff.mp hformal
      refine .pure (.single ?_)
      have hobject := Term.object (.field (hcallee m hm formal hdefault) h)
      exact hobject.of_eq (by simp)
    next => exact .after (.warn _ _) fun _ _ => .pure (.single h)

omit hv in
/-- A substring is taken by a call with an object of options. -/
theorem access_substring (access : Access) {base : String} (hbase : Term .access b base)
    {options : List String} (h : Fields c options) :
    Term .access (b || c) (substring access base options) := by
  unfold substring
  split
  next hnone =>
    obtain rfl := List.isEmpty_iff.mp hnone
    cases h
    rwa [Bool.or_false]
  next hsome =>
    have hobject := h.braced (by simpa using hsome)
    cases access with
    | read =>
      exact (hbase.invoke "getOffset" (.single hobject)).of_eq (by simp)
    | write =>
      have hlist := Term.more ", " (.plain hbase) (.single hobject) (by simp)
      have hclass := Term.created ["abap", "OffsetLength"] "new abap.OffsetLength(" hlist
      exact hclass.of_eq (by simp)

end

end Operand

/-! ## Operands -/

/-- What the code of an operand is. -/
def Source.Spells : Source → String → Prop
  | .call _, text => ∃ b operand, Term .access b operand ∧ text = "await " ++ operand
  | source, text => Term .access (awaits source.calls) text

/-- Whether an operand is a call. -/
def Source.IsCall : Source → Prop
  | .call _ => True
  | _ => False

namespace Source.Spells

variable {source : Source}

/-- However an operand is spelled, it is a term with an `await` iff it contains calls. -/
theorem operand (h : source.Spells s) : Term .operand (awaits source.calls) s := by
  cases source with
  | call call =>
    obtain ⟨b, operand, hterm, rfl⟩ := h
    obtain ⟨receiver, method, parameters⟩ := call
    exact .await (.plain hterm)
  | _ => exact .plain h

/-- The code stays an operand of its kind when a member is called on what it ends with. -/
theorem get (h : source.Spells s) : Term .operand (awaits source.calls) (s ++ ".get()") := by
  cases source with
  | call call =>
    obtain ⟨b, operand, hterm, rfl⟩ := h
    obtain ⟨receiver, method, parameters⟩ := call
    exact (Term.await (.plain hterm.get)).of_eq (by simp)
  | _ => exact .plain (Term.get h)

end Source.Spells

section

variable (hv : v.Named)

include hv

open Operand

mutual

/-- An operand is spelled with an `await` for each call. -/
theorem Source.writes : ∀ source : Source, source.Named →
    source.emit.Writes v (guardsAwait source.calls) source.Spells
  | .constant (.integer value), _ =>
    (Writes.integer value).mono fun _ heq => heq ▸ .name (isIdentifier_integer value)
  | .constant (.text _), h => .pure (Term.characterOperand h)
  | .constant (.backtick raw), _ => .pure (Term.stringOperand (Term.string raw))
  | .template parts, h => by
    rw [Source.emit, Source.calls]
    exact (writes_emitTemplate parts _ h).map fun _ htext =>
      Term.stringOperand (Term.template htext)
  | .field chain, h => by
    rw [Source.emit, Source.calls]
    exact chain.writes .read h
  | .call call, h => by
    rw [Source.emit, Source.calls]
    exact call.writes h
  | .builtin name (some single) _, ⟨hname, hsingle⟩ => by
    rw [Source.emit, Source.calls]
    refine (single.writes hsingle).map fun text htext => ?_
    have hfunction := (Term.runtime "builtin").member hname
    have hkey : IsWord "val" := by decide
    have hobject := Term.object (.field hkey htext.operand)
    exact (hfunction.call (.single hobject)).of_eq (by simp)
  | .builtin name none parameters, ⟨hname, hparameters⟩ => by
    rw [Source.emit, Source.calls]
    refine (writes_emitBindings parameters hparameters).map fun parts hparts => ?_
    have hfunction := (Term.runtime "builtin").member hname
    exact (hfunction.call hparts.arguments).of_eq (by simp)
  -- operators are functions of the runtime
  | .arithmetic left operator right, ⟨hleft, hright⟩ => by
    rw [Source.emit, Source.calls, guardsAwait_append]
    refine .bind (left.writes hleft) fun first hfirst => (right.writes hright).map
      fun second hsecond => ?_
    have hword : IsWord operator.name := by cases operator <;> decide
    have hfunction := (Term.runtime "operators").member hword
    have hlist := Term.more "," hfirst.operand (.single hsecond.operand) (by simp)
    rw [← awaits_append] at hlist
    exact (hfunction.call hlist).of_eq (by simp)
  | .component path, h => .pure (access_rowComponent h)
  | .unsupported name text span, _ => .fail _

/-- The parts of a template are its pieces, with an `await` if some operand in it has one. -/
theorem writes_emitTemplate : ∀ (parts : List TemplatePart) (m : Mode), partsNamed m parts →
    (emitTemplate parts).Writes v (guardsAwait (callsOfParts parts))
      (Term (.pieces m) (awaits (callsOfParts parts)))
  | [], _, hm => .pure (.finish hm)
  | part :: rest, m, ⟨m', hpart, hrest⟩ => by
    rw [emitTemplate, callsOfParts, guardsAwait_append, awaits_append]
    exact .bind (part.writes hpart) fun first hfirst =>
      (writes_emitTemplate rest m' hrest).map fun text htext => hfirst _ _ htext

theorem TemplatePart.writes {m m' : Mode} : ∀ part : TemplatePart, part.Named m m' →
    part.emit.Writes v (guardsAwait part.calls) fun text => ∀ c rest, Term (.pieces m') c rest →
      Term (.pieces m) (awaits part.calls || c) (text ++ rest)
  | .text raw, h => .pure fun c rest hrest => .literal h hrest
  | .embed source, ⟨h, hm, hm'⟩ => by
    rw [TemplatePart.emit, TemplatePart.calls]
    subst hm'
    refine (source.writes h).map fun text htext c rest hrest => ?_
    exact (Term.substitution hm htext.get hrest).of_eq (by simp)

/-- A chain binds like an access. -/
theorem FieldChain.writes (access : Access) : ∀ chain : FieldChain, chain.Named →
    (chain.emit access).Writes v (guardsAwait chain.calls) (Term .access (awaits chain.calls))
  | ⟨head, segments, offset, length⟩, ⟨hhead, hsegments, hoffset, hlength⟩ => by
    rw [FieldChain.emit, FieldChain.calls]
    simp only [guardsAwait_append, awaits_append]
    refine .bind (head.writes hhead) fun start hstart => ?_
    refine .after (writes_path hv hstart hsegments) fun base hbase => ?_
    refine .bind (writes_emitOffset offset hoffset) fun first hfirst => ?_
    refine (writes_emitLength length hlength).map fun second hsecond => ?_
    exact access_substring access hbase (hfirst.append hsecond)

/-- The head of a chain is a name or a call in parentheses, or the address of a class. -/
theorem ChainHead.writes : ∀ head : ChainHead, head.Named →
    head.emit.Writes v (guardsAwait head.calls) (Head.Named (awaits head.calls))
  | .field _, h => (writes_qualifiedName hv h).map fun _ htext => ⟨htext, nofun⟩
  | .fieldSymbol _, h => .pure ⟨.name h, nofun⟩
  | .classRef _, ⟨hname, hlower⟩ => writes_classHead hv hname hlower
  | .call call, h => by
    rw [ChainHead.emit, ChainHead.calls]
    refine (call.writes h).map fun _ htext => ⟨?_, nofun⟩
    exact .parens (show (Source.call call).Spells _ from htext).operand

/-- An offset is a field of an object of options. -/
theorem writes_emitOffset : ∀ offset : Option Offset, offsetNamed offset →
    (emitOffset offset).Writes v (guardsAwait (callsOfOffset offset))
      (Fields (awaits (callsOfOffset offset)))
  | none, _ => .pure .nil
  | some (.literal value), _ =>
    .pure (.single "offset" (.number value.toNat))
  | some (.field chain), h => by
    rw [emitOffset, callsOfOffset]
    refine (chain.writes .read h).map fun _ htext => ?_
    exact .single "offset" (.plain htext.get)

theorem writes_emitLength : ∀ length : Option Length, lengthNamed length →
    (emitLength length).Writes v (guardsAwait (callsOfLength length))
      (Fields (awaits (callsOfLength length)))
  | none, _ => .pure .nil
  | some (.literal value), _ =>
    .pure (.single "length" (.number value.toNat))
  | some (.field chain), h => by
    rw [emitLength, callsOfLength]
    refine (chain.writes .read h).map fun _ htext => ?_
    exact .single "length" (.plain htext.get)
  | some .rest, _ => .pure .nil

/-- A call is an `await` in front of what is called. -/
theorem MethodCall.writes : ∀ call : MethodCall, call.Named →
    call.emit.Writes v (guardsAwait call.calls) (Source.Spells (.call call))
  | ⟨receiver, method, parameters⟩, ⟨hreceiver, hmethod, hparameters⟩ => by
    rw [MethodCall.emit.eq_def, MethodCall.calls, guardsAwait_cons, MethodCall.guardAwaits]
    simp only [guardsAwait_append]
    -- all calls but that of the superclass constructor go on from their receiver in this way
    have hrest : ∀ base : String, Term .access (awaits receiver.calls) base →
        Writes v ((guardsAwait method.calls || method.guardAwaits receiver)
          || guardsAwait parameters.calls) (do
            let callee ← method.emit base
            return "await " ++ callee.1 ++ "(" ++ (← parameters.emit callee.2) ++ ")")
          (Source.Spells (.call ⟨receiver, method, parameters⟩)) := by
      intro base hbase
      refine .bind (method.writes hbase hmethod) fun callee ⟨hcallee, hterm⟩ => ?_
      refine (parameters.writes hcallee hparameters).map fun text htext => ?_
      exact ⟨_, _, hterm.call htext, String.toList_inj.mp (by simp)⟩
    split
    next name given heq =>
      cases heq
      split
      · have hcallee : (Callee.named name none).Named := nofun
        refine (parameters.writes hcallee hparameters).map fun text htext => ?_
        have hgiven : ∃ c, Term .list c (if text.isEmpty then "INPUT" else text) := by
          split
          · exact ⟨false, .single (.plain (.name (by decide)))⟩
          · exact ⟨_, htext⟩
        obtain ⟨c, hgiven⟩ := hgiven
        have hsuper := (Term.name (s := "super") (by decide)).invoke "constructor_" hgiven
        exact ⟨_, _, hsuper, String.toList_inj.mp (by simp)⟩
      · exact hrest "super" (.name (by decide))
    next heq =>
      cases heq
      refine .cast (.bind (receiver.writes hreceiver) hrest) ?_
      ac_rfl

/-- A receiver binds like an access, also where it is left out. -/
theorem Receiver.writes : ∀ receiver : Receiver, receiver.Named →
    receiver.emit.Writes v (guardsAwait receiver.calls || receiver.guardAwaits)
      (Term .access (awaits receiver.calls))
  | .implicit, _ => .pure (.name (by decide))
  | .object chain, h => by
    rw [Receiver.emit, Receiver.calls, Receiver.guardAwaits, Bool.or_false]
    exact (chain.writes .read h).map fun _ htext => htext.get
  | .static className, h => writes_classAddress hv h className.start
  | .super, _ => .pure (.name (by decide))
  | .dynamic name, h => by
    rw [Receiver.emit, Receiver.calls, Receiver.guardAwaits]
    exact .bind (name.writes_emitClass h) fun _ htext =>
      (Writes.requireTarget _ htext).map fun _ _ => htext

theorem MethodRef.writes {receiver : Receiver} {base : String}
    (hbase : Term .access (awaits receiver.calls) base) : ∀ method : MethodRef, method.Named →
      (method.emit base).Writes v (guardsAwait method.calls || method.guardAwaits receiver)
        fun found => found.2.Named ∧
          Term .access (awaits receiver.calls || awaits method.calls) found.1
  | .named name, h => by
    rw [MethodRef.emit, MethodRef.calls, awaits_nil, Bool.or_false]
    exact (writes_namedMethod hv hbase h).mono fun _ ⟨hterm, hcallee⟩ => ⟨hcallee, hterm⟩
  | .dynamic name, h => by
    rw [MethodRef.emit, MethodRef.calls, MethodRef.guardAwaits]
    exact .bind (name.writes_emitMethod hbase h) fun _ htext =>
      (Writes.requireTarget _ htext).map fun _ _ => ⟨trivial, htext⟩

/-- A class in parentheses. -/
theorem DynamicName.writes_emitClass : ∀ name : DynamicName, (Receiver.dynamic name).Named →
    name.emitClass.Writes v (guardsAwait name.calls) (Term .access (awaits name.calls))
  | .literal _, h => .pure (.lookup (Wording.Word.trim h).toUpper)
  | .field chain, h => by
    rw [DynamicName.emitClass, DynamicName.calls]
    refine (chain.writes .read h).map fun _ htext => ?_
    exact ((Term.runtime "Classes").index (.plain htext.get)).of_eq (by simp)

/-- A method in parentheses. -/
theorem DynamicName.writes_emitMethod {b : Bool} {base : String} (hbase : Term .access b base) :
    ∀ name : DynamicName, (MethodRef.dynamic name).Named →
      (name.emitMethod base).Writes v (guardsAwait name.calls)
        (Term .access (b || awaits name.calls))
  | .literal _, h => by
    rw [DynamicName.emitMethod, DynamicName.calls, awaits_nil, Bool.or_false]
    exact .pure (hbase.member h)
  | .field chain, h => by
    rw [DynamicName.emitMethod, DynamicName.calls]
    refine (chain.writes .read h).map fun _ htext => ?_
    exact (hbase.index (.plain (htext.get.invokeBare "toLowerCase"))).of_eq (by simp)

/-- Parameters are one argument or none. -/
theorem CallParameters.writes {callee : Callee} (hcallee : callee.Named) :
    ∀ parameters : CallParameters, parameters.Named →
      (parameters.emit callee).Writes v (guardsAwait parameters.calls)
        (Term .list (awaits parameters.calls))
  | ⟨some single, _, _, _, _, _⟩, h => by
    rw [CallParameters.emit, CallParameters.calls, ← Bool.or_false (guardsAwait _)]
    exact .bind (single.writes h) fun _ htext => writes_singleParameter hcallee htext.operand
  | ⟨none, exporting, importing, changing, _, _⟩, ⟨hexporting, himporting, hchanging⟩ => by
    rw [CallParameters.emit, CallParameters.calls]
    simp only [guardsAwait_append, awaits_append]
    refine .bind (writes_emitBindings exporting hexporting) fun given hgiven => ?_
    refine .bind (writes_emitTargetBindings importing himporting) fun taken htaken => ?_
    refine (writes_emitTargetBindings changing hchanging).map fun changed hchanged => ?_
    rw [← Bool.or_assoc]
    exact ((hgiven.append htaken).append hchanged).arguments

/-- Actual parameters are fields of an object. -/
theorem writes_emitBindings : ∀ bindings : List Binding, bindingsNamed bindings →
    (emitBindings bindings).Writes v (guardsAwait (callsOfBindings bindings))
      (Fields (awaits (callsOfBindings bindings)))
  | [], _ => .pure .nil
  | ⟨name, value⟩ :: rest, ⟨hname, hvalue, hrest⟩ => by
    rw [emitBindings, callsOfBindings, guardsAwait_append, awaits_append]
    exact .bind (.named hname (value.writes hvalue) fun _ htext => htext.operand)
      fun first hfirst => (writes_emitBindings rest hrest).map fun parts hparts =>
        hfirst.append hparts

theorem writes_emitTargetBindings : ∀ bindings : List TargetBinding, targetsNamed bindings →
    (emitTargetBindings bindings).Writes v (guardsAwait (callsOfTargets bindings))
      (Fields (awaits (callsOfTargets bindings)))
  | [], _ => .pure .nil
  | ⟨name, target⟩ :: rest, ⟨hname, htarget, hrest⟩ => by
    rw [emitTargetBindings, callsOfTargets, guardsAwait_append, awaits_append]
    exact .bind (.named hname (target.writes .write htarget) fun _ htext => .plain htext)
      fun first hfirst => (writes_emitTargetBindings rest hrest).map fun parts hparts =>
        hfirst.append hparts

end

end

end AbapLowering
