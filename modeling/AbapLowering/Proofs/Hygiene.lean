import AbapLowering.Lowering
import AbapLowering.Proofs.Code.Spelling
import AbapLowering.Proofs.Mention.Tree
import AbapLowering.Proofs.Scope.Around

/-!
# Hygiene

Code binds names of its own: `i` for a row, `e` for an exception, temporaries, and the operands that
stand for integers. None of them is kept away from the names of the source:

- `Marked.Hygienic`: where such a name is bound no variable, parameter or field symbol is spelled
  so, and different names of the source are spelled differently;
- this holds just if no name reads so in lower case where it is used, and no two different names
  read alike (`Marked.hygienic_iff`);
- so it is for the code of each unit, in which just the mentions of its source are spelled
  (`SourceUnit.lower_hygienic_iff`).
-/

namespace AbapLowering

/-! ## Names of the source and names of the code -/

/-- A name that code binds itself. -/
inductive GeneratedName where
  | bound (binder : Binder)
  | temporary (n : Nat)
  | integer (value : Int64)

namespace GeneratedName

/-- How it is spelled. -/
def text : GeneratedName → String
  | bound binder => binder.name
  | temporary n => Identifier.temporary n
  | integer value => Identifier.integer value

/-- Generated names contain neither a tilde nor a dollar sign. -/
theorem not_mem_text (g : GeneratedName) : '~' ∉ g.text.toList ∧ '$' ∉ g.text.toList := by
  cases g with
  | bound binder => cases binder <;> decide
  | temporary n =>
    constructor
    · exact fun h => absurd (Template.isAlphanum_of_mem_temporary h) (by decide)
    · exact fun h => absurd (Template.isAlphanum_of_mem_temporary h) (by decide)
  | integer value =>
    constructor
    · exact fun h => absurd (Identifier.mem_integer h) (by decide)
    · exact fun h => absurd (Identifier.mem_integer h) (by decide)

theorem head?_text (g : GeneratedName) : g.text.toList.head? ≠ some 'f' := by
  cases g with
  | bound binder => cases binder <;> decide
  | temporary n => simp [text, Identifier.head?_temporary]
  | integer value => simp [text, Identifier.head?_integer]

end GeneratedName

namespace Occurrence

/-- Whether it stands for a variable, parameter or field symbol. -/
def IsUserName : Occurrence → Prop
  | plain _ | symbol _ => True
  | integer _ | other _ => False

/-- How a name of the source reads in lower case. -/
def folded : Occurrence → String
  | plain name => Text.toLower name
  | symbol name => "fs_" ++ Text.toLower (Identifier.bare name) ++ "_"
  | integer value => Identifier.integer value
  | other text => text

/-- Whether two names of the source are the same; case does not matter. -/
def SameName : Occurrence → Occurrence → Prop
  | plain a, plain b => Text.toLower a = Text.toLower b
  | symbol a, symbol b =>
    Text.toLower (Identifier.bare a) = Text.toLower (Identifier.bare b)
  | _, _ => False

variable {o p : Occurrence}

/-- A name of the user is spelled from its form in lower case. -/
theorem text_eq_dollared (h : o.IsUserName) : o.text = Identifier.dollared o.folded := by
  cases o with
  | plain name => exact Identifier.plain_eq_dollared name
  | symbol name => exact Identifier.fieldSymbol_eq_dollared name
  | integer value => exact h.elim
  | other text => exact h.elim

/-- A name is spelled like one that code binds just if it reads so in lower case, and a field symbol
never does. -/
theorem text_eq_generated_iff (h : o.IsUserName) (g : GeneratedName) :
    o.text = g.text ↔ ∃ x, o = .plain x ∧ Text.toLower x = g.text := by
  rw [text_eq_dollared h, Identifier.dollared_eq_iff_eq g.not_mem_text.1 g.not_mem_text.2]
  cases o with
  | plain name => simp [folded]
  | symbol name =>
    have hne : "fs_" ++ Text.toLower (Identifier.bare name) ++ "_" ≠ g.text := by
      intro heq
      apply g.head?_text
      rw [← heq]
      simp
    simpa [folded] using hne
  | integer value => exact h.elim
  | other text => exact h.elim

/-- Two names of the user are spelled alike if their forms are. -/
theorem text_eq_text_iff (ho : o.IsUserName) (hp : p.IsUserName) :
    o.text = p.text ↔ Identifier.Alike o.folded p.folded := by
  rw [text_eq_dollared ho, text_eq_dollared hp, Identifier.dollared_eq_iff]

end Occurrence

example : Identifier.plain "fs_row_" = Identifier.fieldSymbol "<Row>" := by decide

/-! ## Hygiene of marked texts -/

/-- Which scopes the uses of a marked text lie in. Hygiene is the same question for all of them, so
the scopes of temporaries and integers need not be read off the code. -/
structure Scoping where
  /-- The names that code binds around a use. -/
  bound : Use → GeneratedName → Prop
  /-- Whether two uses lie in one scope of the source. -/
  together : Use → Use → Prop

/-- Where code binds a name, no variable, parameter or field symbol is spelled like it, and
different names of one scope are spelled differently. -/
def Marked.Hygienic (scoping : Scoping) (m : Marked) : Prop :=
  (∀ u ∈ m.uses, u.occurrence.IsUserName →
    ∀ g, scoping.bound u g → u.occurrence.text ≠ g.text) ∧
  ∀ a ∈ m.uses, ∀ b ∈ m.uses, a.occurrence.IsUserName → b.occurrence.IsUserName →
    scoping.together a b → ¬ a.occurrence.SameName b.occurrence →
      a.occurrence.text ≠ b.occurrence.text

/-- The names of the source read unlike those that are bound where they are used, and unlike each
other. -/
def Marked.NamedApart (scoping : Scoping) (m : Marked) : Prop :=
  (∀ u ∈ m.uses, ∀ x, u.occurrence = .plain x →
    ∀ g, scoping.bound u g → Text.toLower x ≠ g.text) ∧
  ∀ a ∈ m.uses, ∀ b ∈ m.uses, a.occurrence.IsUserName → b.occurrence.IsUserName →
    scoping.together a b → ¬ a.occurrence.SameName b.occurrence →
      ¬ Identifier.Alike a.occurrence.folded b.occurrence.folded

/-- A text is hygienic if its uses are named apart from the binders around them. -/
theorem Marked.hygienic_iff (scoping : Scoping) (m : Marked) :
    m.Hygienic scoping ↔ m.NamedApart scoping := by
  unfold Hygienic NamedApart
  refine and_congr ⟨fun h u hu x hx g hg heq => ?_, fun h u hu huser g hg heq => ?_⟩ ?_
  · have huser : u.occurrence.IsUserName := by
      rw [hx]
      trivial
    exact h u hu huser g hg ((Occurrence.text_eq_generated_iff huser g).mpr ⟨x, hx, heq⟩)
  · obtain ⟨x, hx, hlower⟩ := (Occurrence.text_eq_generated_iff huser g).mp heq
    exact h u hu x hx g hg hlower
  · refine forall₄_congr fun a _ b _ => forall₄_congr fun ha hb _ _ => ?_
    exact not_congr (Occurrence.text_eq_text_iff ha hb)

/-! ## Hygiene of units -/

/-- In the code of a unit just the mentions of its source are spelled, and in whichever scopes they
lie, the code is hygienic just if the names read unlike those that are bound there and unlike each
other. -/
theorem SourceUnit.lower_hygienic_iff {u : SourceUnit} {config : Config} {registry : Registry}
    {issued issued' : Nat} {out : LoweredUnit}
    (h : u.lower config registry issued = (.ok out, issued')) :
    ∃ body state, ∃ marked : Marked,
      u.root.emitRoot ⟨u.view registry, config⟩ (.initial issued) = .ok body state ∧
      out = u.assemble config (u.ownerWarning? registry) body state ∧
      marked.plain = body.text ∧ marked.mentions = u.root.rootMentions ∧
      marked.Faithful (u.view registry) ∧
      ∀ scoping, marked.Hygienic scoping ↔ marked.NamedApart scoping := by
  unfold lower at h
  split at h
  · cases h
  split at h
  next body state hemit =>
    cases h
    obtain ⟨marked, hplain, hmentions, hfaithful⟩ := u.root.marks_emitRoot _ _ _ _ hemit
    exact ⟨body, state, marked, hemit, rfl, hplain, hmentions, hfaithful,
      fun scoping => marked.hygienic_iff scoping⟩
  next => cases h

/-! ## A variable called like the row -/

/-- The scopes of rows and exceptions, and one scope for all names of the source. -/
def Scoping.ofBinders : Scoping where
  bound u g := ∃ binder ∈ u.mention.binders, g = .bound binder
  together _ _ := True

namespace SourceUnit

/-- A program that deletes the rows of a table in which a component equals a variable `i`. -/
def comparingRows : SourceUnit :=
  let filter : Condition :=
    .compare (.component [⟨"field", ⟨1, 23⟩⟩]) .eq (.field (.ofField ⟨"i", ⟨1, 31⟩⟩))
  let delete : StatementNode :=
    ⟨.deleteInternal (.ofField ⟨"lt_tab", ⟨1, 8⟩⟩) (some filter) false none none,
      ⟨⟨1, 1⟩, ⟨1, 33⟩⟩, "DELETE lt_tab WHERE field = i."⟩
  { file := "zfoo.prog.abap"
    object := ⟨.prog, "ZFOO"⟩
    root := ⟨.program, [.leaf delete], ⟨⟨1, 1⟩, ⟨1, 33⟩⟩⟩
    scopes := ⟨#[.fresh .program "zfoo" "zfoo.prog.abap" ⟨⟨1, 1⟩, ⟨9, 1⟩⟩ none]⟩ }

theorem eq_root_of_scope? {id : ScopeId} {s : Scope}
    (h : comparingRows.scopes.scope? id = some s) : id = .root := by
  have hlt : id.index < 1 := (Array.getElem?_eq_some_iff.mp h).1
  exact congrArg ScopeId.mk (UInt32.toNat_inj.mp (Nat.lt_one_iff.mp hlt))

/-- Whatever scope was found last, the variable is none of a class: only the root exists. -/
theorem resolve_comparingRows {r : Resolution}
    (h : (comparingRows.view .empty).Answers
      ((comparingRows.view .empty).resolve ⟨"i", ⟨1, 31⟩⟩) r) : r = .localName := by
  obtain ⟨slot, slot', h⟩ := h
  obtain ⟨id, slot, -, h⟩ := Query.run_bind_eq_ok_iff.mp h
  obtain ⟨declared, slot, hdeclared, h⟩ := Query.run_bind_eq_ok_iff.mp h
  cases hs : comparingRows.scopes.scope? id with
  | none =>
    have hs : (comparingRows.view .empty).graph.scope? id = none := hs
    simp [View.declaration?, ScopeGraph.climb, ScopeGraph.climbFrom, ScopeGraph.scope, hs]
      at hdeclared
    cases hdeclared
  | some s =>
    obtain rfl := eq_root_of_scope? hs
    cases hdeclared
    cases h
    rfl

/-- Inside the condition the variable is spelled like the row, and compared with its component. -/
theorem lower_comparingRows :
    (comparingRows.lower .standard .empty 0).1.toOption.map (·.code) =
        some ("abap.statements.deleteInternal(lt_tab,"
          ++ "\x7bwhere: (i) => \x7breturn abap.compare.eq(i.field, i);\x7d\x7d);\n") ∧
      ((comparingRows.view .empty).resolve ⟨"i", ⟨1, 31⟩⟩).direct comparingRows.scopes
        comparingRows.file = .ok .localName := by
  constructor
  · decide +kernel
  · rfl

theorem not_hygienic_comparingRows :
    ∃ out body state, ∃ marked : Marked,
      comparingRows.lower .standard .empty 0 = (.ok out, 0) ∧
      comparingRows.root.emitRoot ⟨comparingRows.view .empty, .standard⟩ (.initial 0) =
        .ok body state ∧
      marked.plain = body.text ∧ marked.mentions = comparingRows.root.rootMentions ∧
      marked.Faithful (comparingRows.view .empty) ∧ ¬ marked.Hygienic .ofBinders := by
  -- whether the unit can be lowered is computed, what it is lowered to is not needed
  have hsucceeds : (comparingRows.lower .standard .empty 0).1.toOption.isSome ∧
      (comparingRows.lower .standard .empty 0).2 = 0 := by decide +kernel
  obtain ⟨out, hout⟩ : ∃ out, comparingRows.lower .standard .empty 0 = (.ok out, 0) := by
    revert hsucceeds
    rcases comparingRows.lower .standard .empty 0 with ⟨_ | out, issued⟩
    · rintro ⟨⟨⟩, -⟩
    · rintro ⟨-, rfl⟩
      exact ⟨out, rfl⟩
  obtain ⟨body, state, marked, hemit, -, hplain, hmentions, hfaithful, hiff⟩ :=
    lower_hygienic_iff hout
  refine ⟨out, body, state, marked, hout, hemit, hplain, hmentions, hfaithful, fun hygienic => ?_⟩
  -- the variable is mentioned inside the filter, where the row is bound
  have hmem : (⟨.name ⟨"i", ⟨1, 31⟩⟩, [.row]⟩ : Mention) ∈ marked.mentions := by
    rw [hmentions]
    exact .tail _ (.head _)
  obtain ⟨use, huse, hmention⟩ := List.mem_map.mp hmem
  have hlocal : use.occurrence = .plain "i" := by
    have hoccurs := hfaithful use huse
    rw [hmention] at hoccurs
    obtain ⟨resolution, hanswers, hoccurrence⟩ := hoccurs
    rwa [resolve_comparingRows hanswers, if_pos rfl] at hoccurrence
  have hbound : Scoping.ofBinders.bound use (.bound .row) := ⟨.row, by simp [hmention], rfl⟩
  exact ((hiff .ofBinders).mp hygienic).1 use huse "i" hlocal _ hbound rfl

end SourceUnit

end AbapLowering
