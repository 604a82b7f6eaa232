import AbapLowering.Proofs.Blocks.Tree
import AbapLowering.Proofs.PositionMap

/-!
# Indentation follows the blocks

Indentation only looks at the first and the last character of each line. Where the blocks of a unit
are nested, that is enough (`SourceUnit.lower_indents`): no line has to leave a level when there is
none, and none is left in the end. If names and templates also keep clear of what JavaScript gives a
meaning of its own, the level of every line is the number of blocks that are open there.

In a template they need not: the backslash of an escaped brace is dropped after a dollar too, so
that a substitution begins that the source does not have (`SourceUnit.lower_dollarTemplate`).
-/

namespace AbapLowering

open Script
open StatementNode (Fit)

/-- Whether the texts and names of a unit, and those that its scopes and the global objects bring
in, are worded in some way, its statements stand in different places, and its blocks are nested. -/
structure SourceUnit.HasBlocks (w : Wording) (registry : Registry) (u : SourceUnit) : Prop where
  statements : Fit w u.root.allStatements
  surroundings : (u.view registry).Worded w
  nested : u.root.HasNestedBlocks

namespace SourceUnit

/-- The code that is indented: that of the tree and the lines that register its classes. -/
def indentable? (u : SourceUnit) (config : Config) (registry : Registry) (issued : Nat) :
    Option String :=
  match u.root.emitRoot ⟨u.view registry, config⟩ (.initial issued) with
  | .ok body state => some (body.text ++ Emit.endLines (registration config state.registrations))
  | .error _ _ => none

/-- The code of a tree, and the lines that register its classes, leave no block open. -/
theorem leads_emitRoot {w : Wording} {registry : Registry} {u : SourceUnit}
    (h : u.HasBlocks w registry) {config : Config} {issued : Nat} {body : Code}
    {state : EmissionState}
    (hemit : u.root.emitRoot ⟨u.view registry, config⟩ (.initial issued) = .ok body state) :
    Leads w 0 (body.text ++ Emit.endLines (registration config state.registrations)) 0 := by
  have hfit : Fit w (allStatementsOf u.root.children) := u.root.allStatements_eq ▸ h.statements
  have hinitial : (EmissionState.initial issued).Inline w := ⟨nofun, nofun⟩
  obtain ⟨hstate, hbody⟩ :=
    keeps_emitNodes h.surroundings u.root.children hfit h.nested _ _ _ _ hemit hinitial
  refine (hbody 0).append (.inlines ?_)
  unfold registration
  split
  · exact .nil
  · exact hstate.registrations

/-- Whatever a unit with nested blocks is lowered to, the level that indentation keeps never has to
stop at zero, and is zero after the last line; with strict wording it is, on every line, the number
of blocks that a reader finds open. -/
theorem lower_indents {u : SourceUnit} {config : Config} {registry : Registry} {issued : Nat}
    {out : LoweredUnit} (hout : (u.lower config registry issued).1 = .ok out) {w : Wording}
    (h : u.HasBlocks w registry) :
    ∃ integers raw, u.indentable? config registry issued = some raw ∧
      out.code = Emit.endLines (prelude config integers) ++
        (if config.indent then Indentation.indent raw else raw) ∧
      Indentation.IsBalanced raw.toList ∧ (w = .strict → FollowsBlocks raw.toList) := by
  obtain ⟨body, state, hemit, rfl⟩ := exists_of_lower_eq_ok hout
  have hleads := leads_emitRoot h hemit
  refine ⟨state.integers, _, ?_, rfl, hleads.isBalanced, ?_⟩
  · rw [indentable?, hemit]
  · rintro rfl
    exact hleads.followsBlocks

/-! ## Braces in templates -/

/-- A program that writes a template, and then a text in a branch. -/
def writing (template : String) : SourceUnit :=
  let first : StatementNode :=
    ⟨.write (.template [.text template]) false, ⟨⟨1, 1⟩, ⟨1, 13⟩⟩, "WRITE |" ++ template ++ "|."⟩
  let opening : StatementNode :=
    ⟨.ifThen (.compare (.field (.ofField ⟨"a", ⟨2, 4⟩⟩)) .eq (.field (.ofField ⟨"b", ⟨2, 8⟩⟩))),
      ⟨⟨2, 1⟩, ⟨2, 10⟩⟩, "IF a = b."⟩
  let second : StatementNode :=
    ⟨.write (.constant (.text "x")) false, ⟨⟨3, 3⟩, ⟨3, 13⟩⟩, "WRITE 'x'."⟩
  let closing : StatementNode := ⟨.endBlock .ifBlock, ⟨⟨4, 1⟩, ⟨4, 7⟩⟩, "ENDIF."⟩
  { file := "zfoo.prog.abap"
    object := ⟨.prog, "ZFOO"⟩
    root := ⟨.program, [.leaf first, .branch ⟨.ifBranch, [.leaf opening, .leaf second,
      .leaf closing], ⟨⟨2, 1⟩, ⟨4, 7⟩⟩⟩], ⟨⟨1, 1⟩, ⟨4, 7⟩⟩⟩
    scopes := ⟨#[.fresh .program "zfoo" "zfoo.prog.abap" ⟨⟨1, 1⟩, ⟨9, 1⟩⟩ none]⟩ }

theorem hasBlocks_writing {w : Wording} {template : String}
    (h : w.Part (.text .back) template (.text .back)) : (writing template).HasBlocks w .empty where
  statements := by
    have hname : ∀ name : Token, w.Word name.text → (FieldChain.ofField name).Worded w :=
      fun _ hname => ⟨hname, by rintro _ ⟨⟩, trivial, trivial⟩
    refine ⟨?_, ?_⟩
    · intro node hnode
      change node ∈ [_, _, _, _] at hnode
      simp only [List.mem_cons, List.not_mem_nil, or_false] at hnode
      -- the template, the condition, a plain text and the end
      rcases hnode with rfl | rfl | rfl | rfl
      · exact ⟨rfl, .text .back, h, .inl rfl⟩
      · exact ⟨hname _ (.of_strict (by decide)), hname _ (.of_strict (by decide))⟩
      · refine ⟨rfl, ?_⟩
        simp [Source.Worded, Constant.Unbroken, IsUnbroken, isBreak]
      · trivial
    · change [(⟨⟨1, 1⟩, ⟨1, 13⟩⟩ : Span), ⟨⟨2, 1⟩, ⟨2, 10⟩⟩, ⟨⟨3, 3⟩, ⟨3, 13⟩⟩,
        ⟨⟨4, 1⟩, ⟨4, 7⟩⟩].Nodup
      decide
  surroundings := by
    refine ⟨fun s hs => ?_, ?_, ?_, ?_⟩
    · obtain rfl := List.mem_singleton.mp hs
      refine ⟨.of_strict (by decide), ?_, ?_, ?_, ?_⟩ <;> rintro _ ⟨⟩
    all_goals rintro _ ⟨⟩
  nested := rfl

/-- An escaped brace in a template is no block. -/
theorem lower_indents_escapedBrace :
    ∃ raw, (writing "\\\x7b").indentable? .standard .empty 0 = some raw ∧
      Indentation.IsBalanced raw.toList ∧ FollowsBlocks raw.toList := by
  have hpart : Wording.strict.Part (.text .back) "\\\x7b" (.text .back) :=
    ⟨by simp [IsUnbroken, isBreak], .inl rfl, by decide⟩
  have hsucceeds : ((writing "\\\x7b").lower .standard .empty 0).1.toOption.isSome := by
    decide +kernel
  obtain ⟨out, hout⟩ : ∃ out, ((writing "\\\x7b").lower .standard .empty 0).1 = .ok out := by
    revert hsucceeds
    rcases ((writing "\\\x7b").lower .standard .empty 0).1 with _ | out
    · rintro ⟨⟩
    · exact fun _ => ⟨out, rfl⟩
  obtain ⟨integers, raw, hraw, -, hbalanced, hfollows⟩ :=
    lower_indents hout (hasBlocks_writing hpart)
  exact ⟨raw, hraw, hbalanced, hfollows rfl⟩

/-- After a dollar the escaped brace begins a substitution, in which all that follows is read: the
line in the branch is on the first level, but no block is open there. -/
theorem lower_dollarTemplate :
    (writing "$\\\x7b").HasBlocks .loose .empty ∧
      ∃ raw, (writing "$\\\x7b").indentable? .standard .empty 0 = some raw ∧
        ¬ FollowsBlocks raw.toList := by
  let first := "abap.statements.write(new abap.types.String().set(\x60$\x7b\x60));"
  let opening := "if (abap.compare.eq(a, b)) \x7b"
  let second := "abap.statements.write(new abap.types.Character(\x7blength: 1\x7d).set('x'));"
  refine ⟨hasBlocks_writing ⟨by simp [IsUnbroken, isBreak], rfl⟩,
    Emit.endLines [first, opening, second, "\x7d"], by decide +kernel, fun hfollows => ?_⟩
  have hlines : Text.splitLines (Emit.endLines [first, opening, second, "\x7d"]).toList =
      [first.toList, opening.toList] ++ second.toList :: ["\x7d".toList, []] := by decide +kernel
  have hlevel := hfollows _ _ _ hlines
  revert hlevel
  decide +kernel

end SourceUnit

end AbapLowering
