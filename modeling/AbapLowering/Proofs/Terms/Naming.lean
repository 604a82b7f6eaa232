import AbapLowering.Proofs.Blocks.Wording
import AbapLowering.Proofs.Code.Terms

/-!
# Names that can be spelled

Whether the names of an operand are spelled as names that the grammar of the emitted code knows
(`Source.Named`, `Condition.Named`), and whether those are that the scopes and the global objects
bring in (`View.Named`). A name is asked for no more than what it is emitted as. The literal part of
a template stays within the template.
-/

namespace AbapLowering

open Script

/-! ## Operands -/

/-- The name of a step. -/
def ChainSegment.Named : ChainSegment → Prop
  | .component name | .attribute name | .static name => IsWord (Identifier.plain name.text)
  | .dereference => True

mutual

/-- The names of an operand that is read. -/
def Source.Named : Source → Prop
  | .constant value => value.Unbroken
  | .template parts => partsNamed (.text .back) parts
  | .field chain => chain.Named
  | .call call => call.Named
  | .builtin name (some single) _ => IsWord (Identifier.plain name.text) ∧ single.Named
  | .builtin name none parameters => IsWord (Identifier.plain name.text) ∧ bindingsNamed parameters
  | .arithmetic left _ right => left.Named ∧ right.Named
  | .component path => ∀ name ∈ path, IsWord (Identifier.plain name.text)
  | .unsupported _ _ _ => True

/-- The pieces of a template, from some place of it on. -/
def partsNamed (m : Mode) : List TemplatePart → Prop
  | [] => m.IsTemplate
  | part :: rest => ∃ m', part.Named m m' ∧ partsNamed m' rest

/-- A piece of a template, between two places of it. -/
def TemplatePart.Named (m m' : Mode) : TemplatePart → Prop
  | .text raw => m.within? (Literal.template raw).toList = some m'
  | .embed source => source.Named ∧ m.IsTemplate ∧ m' = .text .back

/-- The names of a field chain. -/
def FieldChain.Named : FieldChain → Prop
  | ⟨head, segments, offset, length⟩ =>
    head.Named ∧ (∀ segment ∈ segments, segment.Named) ∧ offsetNamed offset ∧ lengthNamed length

/-- What a chain starts with; a class may turn out to be an interface, which is part of names. -/
def ChainHead.Named : ChainHead → Prop
  | .field name => IsIdentifier (Identifier.plain name.text)
  | .fieldSymbol name => IsIdentifier (Identifier.fieldSymbol name.text)
  | .classRef name => Wording.strict.Word name.text ∧ IsWord name.lower
  | .call call => call.Named

/-- Where a substring starts. -/
def offsetNamed : Option Offset → Prop
  | some (.field chain) => chain.Named
  | some (.literal _) | none => True

/-- How long a substring is. -/
def lengthNamed : Option Length → Prop
  | some (.field chain) => chain.Named
  | some (.literal _) | some .rest | none => True

/-- The names of a call. -/
def MethodCall.Named : MethodCall → Prop
  | ⟨receiver, method, parameters⟩ => receiver.Named ∧ method.Named ∧ parameters.Named

/-- What a method is called on. -/
def Receiver.Named : Receiver → Prop
  | .implicit | .super => True
  | .object chain => chain.Named
  | .static className => Wording.strict.Word className.text
  | .dynamic (.literal value) => Wording.strict.Word value
  | .dynamic (.field chain) => chain.Named

/-- The method that is called. -/
def MethodRef.Named : MethodRef → Prop
  | .named name => IsWord (Identifier.plain name.text)
  | .dynamic (.literal value) => IsWord (Identifier.plain (Text.trim value))
  | .dynamic (.field chain) => chain.Named

/-- The parameters of a call. -/
def CallParameters.Named : CallParameters → Prop
  | ⟨some single, _, _, _, _, _⟩ => single.Named
  | ⟨none, exporting, importing, changing, _, _⟩ =>
    bindingsNamed exporting ∧ targetsNamed importing ∧ targetsNamed changing

/-- Named operands that are read. -/
def bindingsNamed : List Binding → Prop
  | [] => True
  | ⟨name, value⟩ :: rest => IsWord name.lower ∧ value.Named ∧ bindingsNamed rest

/-- Named operands that are written. -/
def targetsNamed : List TargetBinding → Prop
  | [] => True
  | ⟨name, target⟩ :: rest => IsWord name.lower ∧ target.Named ∧ targetsNamed rest

end

mutual

/-- The names of a condition. -/
def Condition.Named : Condition → Prop
  | .compare left _ right => left.Named ∧ right.Named
  | .predicate operand _ _ => operand.Named
  | .within operand range _ => operand.Named ∧ range.Named
  | .not inner | .paren inner => inner.Named
  | .and items | .or items => conditionsNamed items
  | .unsupported _ _ _ => True

/-- The names of some conditions. -/
def conditionsNamed : List Condition → Prop
  | [] => True
  | item :: rest => item.Named ∧ conditionsNamed rest

end

/-! ## Scopes and global objects -/

/-- The names that a scope brings in. -/
structure Scope.Named (s : Scope) : Prop where
  owner : s.kind = .classImplementation ∨ s.kind = .interfaceBody →
    IsIdentifier (Text.toLower s.name)
  classes : ∀ c ∈ s.classes.values, Wording.strict.Word c.name
  interfaces : ∀ i ∈ s.interfaces.values, Wording.strict.Word i.name
  references : ∀ reference ∈ s.references, ∀ definition owner ownerKind,
    reference.resolved = some (.method definition owner ownerKind) →
      IsWord (View.callName reference.kind definition owner ownerKind) ∧
        ∀ p ∈ definition.defaultImporting?, IsWord (Text.toLower p.name)

/-- The names that the scopes and the global objects bring in. -/
structure View.Named (v : View) : Prop where
  scopes : ∀ s ∈ v.graph.scopes.toList, s.Named
  owners : ∀ object ∈ v.registry.files.values,
    Wording.strict.Word object.name ∧ IsIdentifier (Text.toLower object.name)

/-- A program without declarations brings in no names. -/
theorem View.named_of_program {v : View} {name file : String} {coverage : Span}
    (hscopes : v.graph.scopes.toList = [.fresh .program name file coverage none])
    (hobjects : v.registry.files.values = []) : v.Named := by
  refine ⟨fun s hs => ?_, fun object hobject => ?_⟩
  · rw [hscopes, List.mem_singleton] at hs
    subst hs
    refine ⟨?_, nofun, nofun, nofun⟩
    rintro (h | h) <;> cases h
  · rw [hobjects] at hobject
    cases hobject

/-- What a name is bound to. -/
def Resolution.Named : Resolution → Prop
  | .staticAttribute owner => IsIdentifier owner
  | .interfaceAttribute owner | .foreignAttribute owner =>
    Wording.strict.Word owner ∧ IsWord owner
  | .localName | .superReference | .instanceAttribute | .builtin => True

namespace View.Named

variable {v : View} (hv : v.Named)

include hv

/-- The owner that a name is bound to is a word. -/
theorem resolve (token : Token) : (v.resolve token).All Resolution.Named := by
  refine (v.resolve_isFrom token).mono fun resolution hfrom => ?_
  cases resolution with
  | staticAttribute =>
    obtain ⟨s, hs, hkind, rfl⟩ := hfrom
    exact (hv.scopes s hs).owner (.inl hkind)
  | interfaceAttribute | foreignAttribute =>
    obtain ⟨object, hobject, rfl⟩ := hfrom
    obtain ⟨hword, hlower⟩ := hv.owners object hobject
    exact ⟨hword.toLower, hlower.toIsWord⟩
  | _ => trivial

/-- The interface of an attribute is a word. -/
theorem attributeInterface (token : Token) :
    (v.attributeInterface? token).All fun found => ∀ owner ∈ found, IsWord owner := by
  refine (v.attributeInterface_isFrom token).mono fun found hfrom owner howner => ?_
  rcases hfrom owner howner with ⟨s, hs, hkind, rfl⟩ | ⟨object, hobject, rfl⟩
  · exact ((hv.scopes s hs).owner (.inr hkind)).toIsWord
  · exact (hv.owners object hobject).2.toIsWord

/-- The method that a call means is a word, and so is the parameter for an unnamed argument. -/
theorem methodReference (token : Token) :
    (v.methodReference? token).All fun found => ∀ called ∈ found, IsWord called.name ∧
      ∀ p ∈ called.definition.defaultImporting?, IsWord (Text.toLower p.name) := by
  refine (v.methodReference_isFrom token).mono fun found hfrom called hcalled => ?_
  obtain ⟨s, hs, reference, hreference, definition, owner, ownerKind, hresolved, rfl⟩ :=
    hfrom called hcalled
  exact (hv.scopes s hs).references reference hreference definition owner ownerKind hresolved

/-- The key of a definition. -/
theorem key {d : Definition} (hd : Wording.strict.Word d.name) :
    Wording.strict.Word (ClassKey.ofDefinition v.registry d) := by
  unfold ClassKey.ofDefinition
  split
  · exact hd.toUpper
  · exact Wording.Word.ofOwner
      (fun _ howner => (hv.owners _ (View.mem_of_ownerOf? howner)).1) hd

/-- A class is addressed by its quoted key. -/
theorem classAddress {name : String} (hname : Wording.strict.Word name) (position : Position) :
    (v.classAddress name position).All fun address =>
      ∃ key, Wording.strict.Word key ∧ address = ClassKey.lookup key :=
  v.classAddress_isFrom name position hname.toUpper
    (fun s hs c hc => hv.key ((hv.scopes s hs).classes c hc))
    fun s hs i hi => hv.key ((hv.scopes s hs).interfaces i hi)

end View.Named

/-! ## Spelling -/

/-- Words are in ASCII. -/
theorem toNat_lt_of_isWordChar {c : Char} (h : isWordChar c = true) : c.toNat < 128 := by
  simp only [isWordChar, Bool.or_eq_true, beq_iff_eq] at h
  rcases h with (h | rfl) | rfl
  · have hrange := Template.toNat_of_isAlphanum h
    omega
  · decide
  · decide

theorem isWordChar_lowerAscii {c : Char} (h : isWordChar c = true) :
    isWordChar (Text.lowerAscii c) = true ∧ (Text.lowerAscii c).isDigit = c.isDigit := by
  have hall : ∀ n < 128, isWordChar (Char.ofNat n) = true →
      isWordChar (Text.lowerAscii (Char.ofNat n)) = true ∧
        (Text.lowerAscii (Char.ofNat n)).isDigit = (Char.ofNat n).isDigit := by decide
  simpa using hall c.toNat (toNat_lt_of_isWordChar h) (by simpa using h)

/-- A member of an interface is spelled as one word. -/
theorem isWord_interfaceMember {owner member : String} (howner : IsWord owner)
    (hmember : IsWord (Identifier.plain member)) :
    IsWord (Identifier.interfaceMember owner member) := by
  have hascii : Text.IsAscii owner := fun c hc => toNat_lt_of_isWordChar (howner.chars c hc)
  have hchars : (Identifier.interfaceMember owner member).toList =
      owner.toList.map Text.lowerAscii ++ '$' :: (Identifier.plain member).toList := by
    rw [Identifier.interfaceMember, String.toList_append, String.toList_append,
      Text.toList_toLower hascii]
    simp
  constructor
  · rw [hchars]
    intro c hc
    rcases List.mem_append.mp hc with hc | hc
    · obtain ⟨x, hx, rfl⟩ := List.mem_map.mp hc
      exact (isWordChar_lowerAscii (howner.chars x hx)).1
    · rcases List.mem_cons.mp hc with rfl | hc
      · rfl
      · exact hmember.chars c hc
  · have hstart := howner.start
    have hlower := howner.chars
    rw [hchars]
    cases hlist : owner.toList with
    | nil => simp [hlist] at hstart
    | cons x rest =>
      have hx := (isWordChar_lowerAscii (hlower x (by simp [hlist]))).2
      simpa [hlist, hx] using hstart
  -- `await` holds no dollar sign
  · intro heq
    have hdollar : '$' ∈ (Identifier.interfaceMember owner member).toList := by simp [hchars]
    rw [heq] at hdollar
    exact absurd hdollar (by decide)

/-- The constant of an integer is an identifier. -/
theorem isIdentifier_integer (value : Int64) : IsIdentifier (Identifier.integer value) := by
  have hhead := Identifier.head?_integer value
  have hscore : '_' ∈ (Identifier.integer value).toList := by
    rw [Identifier.integer]
    split <;> simp
  have hreserved : ∀ word ∈ reservedWords, '_' ∉ word.toList := by decide
  refine ⟨⟨fun c hc => ?_, by simp [hhead], fun heq => ?_⟩, fun hmem => ?_⟩
  · rcases Identifier.mem_integer hc with h | rfl
    · simp [isWordChar, h]
    · rfl
  · exact hreserved _ (by decide) (heq ▸ hscore)
  · exact hreserved _ hmem hscore

end AbapLowering
