import AbapLowering.Proofs.Code.Nesting
import AbapLowering.Proofs.Emission.BuiltTree
import AbapLowering.Proofs.PositionMap
import Mathlib.Data.List.DropRight

/-!
# What indentation keeps

Indentation moves blanks only. A line keeps its trimmed text, and that text alone tells how far the
line is moved, so indenting a second time changes nothing.

- `Indentation.Follows`: the rule for the levels of lines, one line after the other;
- `Config.SameChecks`: two configurations that differ at most in what is done with emitted code.
  Emitting does not tell them apart (`Emit.Assembled.eq_of_sameChecks`);
- `Indentation.indent_stable`: the rule holds of every text, and a unit that is lowered with
  indentation is the indented unit, the declarations before its code included.
-/

namespace AbapLowering

namespace Text

/-! ## Lines -/

/-- A line and the lines behind it. -/
theorem joinLines_cons (line : List Char) {lines : List (List Char)} (h : lines ≠ []) :
    joinLines (line :: lines) = line ++ '\n' :: joinLines lines := by
  obtain ⟨next, others, rfl⟩ := List.exists_cons_of_ne_nil h
  rfl

/-- All lines but the last are ended. -/
theorem joinLines_concat (front : List (List Char)) (last : List Char) :
    joinLines (front ++ [last]) = front.flatMap (· ++ ['\n']) ++ last := by
  induction front with
  | nil => rfl
  | cons line rest ih =>
    rw [List.cons_append, joinLines_cons line (by simp), ih]
    simp

/-- A text has an end of a line at its end if it has one at all and nothing follows the last. -/
theorem getLast?_eq_feed_iff (cs : List Char) :
    cs.getLast? = some '\n' ↔ '\n' ∈ cs ∧ (splitLines cs).getLast? = some [] := by
  obtain ⟨front, last, hsplit⟩ : ∃ front last, splitLines cs = front ++ [last] :=
    ⟨_, _, (List.dropLast_append_getLast (splitLines_ne_nil cs)).symm⟩
  have hjoined : cs = front.flatMap (· ++ ['\n']) ++ last := by
    rw [← joinLines_concat, ← hsplit, joinLines_splitLines]
  have hmem : last ∈ splitLines cs := by simp [hsplit]
  have hlast : '\n' ∉ last := not_mem_of_mem_splitLines hmem
  rw [hsplit, List.getLast?_concat, Option.some_inj]
  constructor
  · intro h
    refine ⟨List.mem_of_getLast? h, ?_⟩
    by_contra hne
    rw [hjoined, List.getLast?_append_of_ne_nil _ hne] at h
    exact hlast (List.mem_of_getLast? h)
  · rintro ⟨hfeed, rfl⟩
    rw [List.append_nil] at hjoined
    rcases List.eq_nil_or_concat front with rfl | ⟨before, line, rfl⟩
    · rw [hjoined] at hfeed
      cases hfeed
    · rw [hjoined, List.concat_eq_append, List.flatMap_append, List.flatMap_singleton,
        ← List.append_assoc, List.getLast?_concat]

/-! ## Trimming -/

/-- The end is dropped once. -/
theorem dropEnd_dropEnd (p : Char → Bool) (cs : List Char) :
    dropEnd p (dropEnd p cs) = dropEnd p cs := by
  rw [dropEnd, dropEnd, List.reverse_reverse, List.dropWhile_idempotent]

theorem trimChars_trimChars (cs : List Char) : trimChars (trimChars cs) = trimChars cs := by
  have hdrop : trimChars cs = dropEnd isBlank (cs.dropWhile isBlank) := rfl
  -- what the blanks are dropped from starts with a character that is none, so it is all kept
  cases hrest : cs.dropWhile isBlank with
  | nil =>
    rw [hdrop, hrest]
    rfl
  | cons x rest =>
    have hx : isBlank x = false := by
      have hhead := List.head?_dropWhile_not isBlank cs
      rw [hrest] at hhead
      simpa using hhead
    rw [hdrop, hrest, dropEnd_cons hx, trimChars_cons hx, dropEnd_dropEnd]

/-- To trim a line takes its indentation away. -/
theorem trimChars_replicate_append (k : Nat) (cs : List Char) :
    trimChars (List.replicate k ' ' ++ cs) = trimChars cs := by
  have hblank : ∀ c ∈ List.replicate k ' ', isBlank c = true := by
    intro c hc
    rw [List.eq_of_mem_replicate hc]
    rfl
  rw [trimChars, List.dropWhile_append_of_pos hblank, trimChars]

/-- Characters between two that are not blank are left alone. -/
theorem trimChars_of_ends {x y : Char} (hx : isBlank x = false) (hy : isBlank y = false)
    (cs : List Char) : trimChars (x :: (cs ++ [y])) = x :: (cs ++ [y]) := by
  rw [trimChars_cons hx, dropEnd, List.reverse_append, List.reverse_singleton,
    List.singleton_append, List.dropWhile_cons_of_neg (by simp [hy])]
  simp

end Text

open Text

namespace Indentation

/-! ## Lines that are indented -/

/-- Whether lines are written by the rule. The level starts at zero. A line that starts with a
closing brace leaves a level, if there is one to leave, before it is written; a line that ends with an
opening brace enters one after it. A line is written trimmed, after two blanks for each level, and a
blank line is left empty. -/
def Follows (lines written : List (List Char)) : Prop :=
  ∃ level : Nat → Nat, level 0 = 0 ∧ ∀ i line, lines[i]? = some line →
    let text := trimChars line
    let own := if text.head? = some '\x7d' then level i - 1 else level i
    written[i]? = some (if text = [] then [] else List.replicate (2 * own) ' ' ++ text) ∧
      level (i + 1) = if text.getLast? = some '\x7b' then own + 1 else own

theorem getElem?_indentLines_of_levelThrough {lines : List (List Char)} {i : Nat}
    {line : List Char} (h : lines[i]? = some line) (level : Nat) :
    (indentLines level lines)[i]? =
      some (place (levelAt (levelThrough level (lines.take i)) (trimChars line))
        (trimChars line)) := by
  induction lines generalizing level i with
  | nil => simp at h
  | cons first rest ih =>
    cases i with
    | zero =>
      obtain rfl : first = line := by simpa using h
      rfl
    | succ i => exact ih h _

/-- The levels of the lines follow the rule. -/
theorem follows_indentLines (lines : List (List Char)) : Follows lines (indentLines 0 lines) := by
  -- the level before a line is the one that the lines before it lead to
  refine ⟨fun i => levelThrough 0 (lines.take i), rfl, fun i line h => ⟨?_, ?_⟩⟩
  · rw [getElem?_indentLines_of_levelThrough h, place, levelAt]
    simp only [List.isEmpty_iff]
  · dsimp only
    rw [List.take_add_one, h, Option.toList_some, levelThrough_append]
    rfl

/-- Only an empty line is empty where it is placed. -/
theorem place_eq_nil_iff {level : Nat} {line : List Char} : place level line = [] ↔ line = [] := by
  cases line <;> simp [place]

/-- A line that was placed has the text that it had. -/
theorem trimChars_place (level : Nat) (line : List Char) :
    trimChars (place level (trimChars line)) = trimChars line := by
  rw [place]
  split
  next h =>
    rw [List.isEmpty_iff.mp h]
    rfl
  next => rw [trimChars_replicate_append, trimChars_trimChars]

/-- Indentation changes blanks around lines only. -/
theorem map_trimChars_indentLines (level : Nat) (lines : List (List Char)) :
    (indentLines level lines).map trimChars = lines.map trimChars := by
  induction lines generalizing level with
  | nil => rfl
  | cons line rest ih => rw [indentLines, List.map_cons, List.map_cons, trimChars_place, ih]

/-- How lines are indented depends on their trimmed texts alone. -/
theorem indentLines_map_trimChars (level : Nat) (lines : List (List Char)) :
    indentLines level (lines.map trimChars) = indentLines level lines := by
  induction lines generalizing level with
  | nil => rfl
  | cons line rest ih =>
    rw [List.map_cons, indentLines, indentLines]
    simp only [trimChars_trimChars, ih]

/-- Lines that are indented stay where they are. -/
theorem indentLines_indentLines (level : Nat) (lines : List (List Char)) :
    indentLines level (indentLines level lines) = indentLines level lines := by
  rw [← indentLines_map_trimChars level (indentLines level lines), map_trimChars_indentLines,
    indentLines_map_trimChars]

/-! ## Texts that are indented -/

theorem toList_indent (code : String) :
    (indent code).toList = joinLines (indentLines 0 (splitLines code.toList)) := by
  rw [indent, String.toList_ofList]

/-- Indentation is idempotent. -/
theorem indent_indent (code : String) : indent (indent code) = indent code := by
  rw [indent, splitLines_indent, indentLines_indentLines, ← indent]

/-- Indented code has the end of a line at its end if the code has one somewhere and its last line is
blank. -/
theorem endsLine_indent_iff (code : String) : EndsLine (indent code) ↔
    '\n' ∈ code.toList ∧ ∀ line ∈ (splitLines code.toList).getLast?, trimChars line = [] := by
  -- no end of a line comes or goes, so only the last line can make a difference
  rw [EndsLine, getLast?_eq_feed_iff, ← List.count_pos_iff, count_indent, List.count_pos_iff]
  refine and_congr_right fun _ => ?_
  obtain ⟨last, hlast⟩ := Option.isSome_iff_exists.mp
    (List.getLast?_isSome.mpr (splitLines_ne_nil code.toList))
  have hplace := hlast
  rw [List.getLast?_eq_getElem?] at hplace
  obtain ⟨own, hwritten⟩ := getElem?_indentLines hplace 0
  rw [splitLines_indent, List.getLast?_eq_getElem?, length_indentLines, hwritten, Option.some_inj,
    place_eq_nil_iff, hlast]
  simp

/-! ### Lines before the code -/

/-- A line that indentation leaves alone, on the outermost level. -/
structure IsFlat (line : List Char) : Prop where
  trimmed : trimChars line = line
  head : line.head? ≠ some '\x7d'
  last : line.getLast? ≠ some '\x7b'
  unbroken : '\n' ∉ line

theorem place_zero (line : List Char) : place 0 line = line := by
  cases line <;> rfl

/-- A flat line leaves the lines behind it at their levels. -/
theorem IsFlat.indentLines_cons {line : List Char} (h : IsFlat line) (rest : List (List Char)) :
    indentLines 0 (line :: rest) = line :: indentLines 0 rest := by
  rw [indentLines]
  simp only [h.trimmed, levelAt, if_neg h.head, levelAfter, if_neg h.last, place_zero]

theorem indent_line_append {line : String} (h : IsFlat line.toList) (code : String) :
    indent (line ++ "\n" ++ code) = line ++ "\n" ++ indent code := by
  have hsplit : splitLines (line ++ "\n" ++ code).toList =
      line.toList :: splitLines code.toList := by
    have hfeed : splitLines ('\n' :: code.toList) = [] :: splitLines code.toList := by
      rw [splitLines, if_pos rfl]
    rw [String.toList_append, String.toList_append, List.append_assoc]
    simpa using splitLines_append h.unbroken hfeed
  have hne : indentLines 0 (splitLines code.toList) ≠ [] := by
    intro hnil
    have hlength := length_indentLines 0 (splitLines code.toList)
    rw [hnil] at hlength
    exact splitLines_ne_nil _ (List.length_eq_zero_iff.mp hlength.symm)
  refine String.toList_inj.mp ?_
  rw [toList_indent, hsplit, h.indentLines_cons, joinLines_cons _ hne, ← toList_indent]
  simp

/-- Lines that indentation leaves alone may stand before the code or be put there afterwards. -/
theorem indent_endLines_append {lines : List String} (h : ∀ line ∈ lines, IsFlat line.toList)
    (code : String) :
    indent (Emit.endLines lines ++ code) = Emit.endLines lines ++ indent code := by
  induction lines with
  | nil => simp [Emit.endLines]
  | cons line rest ih =>
    obtain ⟨hline, hrest⟩ := List.forall_mem_cons.mp h
    rw [Emit.endLines_cons, String.append_assoc, indent_line_append hline, ih hrest,
      ← String.append_assoc]

end Indentation

/-! ## Emitting without a look at the layout -/

/-- Whether two configurations make the same checks, whatever is done with emitted code. -/
structure Config.SameChecks (c c' : Config) : Prop where
  unknownTypes : c.unknownTypes = c'.unknownTypes
  checkFallbackExceptions : c.checkFallbackExceptions = c'.checkFallbackExceptions

namespace Emit

variable {α : Type} {c c' : Config}

theorem Built.eq_of_sameChecks {effects : Effects} {m : Emit α} (h : m.Built effects)
    (hchecks : c.SameChecks c') (v : View) (s : EmissionState) : m ⟨v, c⟩ s = m ⟨v, c'⟩ s := by
  induction h generalizing s with
  | bind _ _ ihm ihf =>
    rw [bind_apply, bind_apply, ihm]
    split
    · exact ihf _ _
    · rfl
  | onView _ hview ih =>
    rw [read_bind, read_bind, hview ⟨v, c⟩ ⟨v, c'⟩ rfl]
    exact ih _ _
  | typeConstructor type =>
    rw [typeConstructor_apply, typeConstructor_apply, Config.isLenient, Config.isLenient,
      hchecks.unknownTypes]
  | requireTarget kind target =>
    rw [requireTarget_apply, requireTarget_apply, hchecks.checkFallbackExceptions]
  | _ => rfl

/-- All emitting is the same under configurations that check alike. -/
theorem Assembled.eq_of_sameChecks {m : Emit α} (h : m.Assembled) (hchecks : c.SameChecks c')
    (v : View) (s : EmissionState) : m ⟨v, c⟩ s = m ⟨v, c'⟩ s := by
  induction h generalizing s with
  | built hm => exact hm.eq_of_sameChecks hchecks v s
  | countStatement => rfl
  | bind _ _ ihm ihf =>
    rw [bind_apply, bind_apply, ihm]
    split
    · exact ihf _ _
    · rfl

end Emit

/-! ## Units -/

/-- A configuration with indentation switched on or off. -/
def Config.withIndent (c : Config) (indent : Bool) : Config := { c with indent }

namespace SourceUnit

open Indentation

theorem isFlat_integerDeclaration (value : Int64) : IsFlat (integerDeclaration value).toList := by
  obtain ⟨inner, hinner⟩ : ∃ inner, (integerDeclaration value).toList = 'c' :: (inner ++ [';']) :=
    ⟨"onst ".toList ++ (Identifier.integer value).toList ++ " = new abap.types.Integer().set(".toList
      ++ (toString value.toInt).toList ++ [')'], by simp [integerDeclaration]⟩
  have hunbroken := not_mem_integerDeclaration value
  rw [hinner] at hunbroken ⊢
  refine ⟨trimChars_of_ends (by decide) (by decide) inner, by simp, ?_, hunbroken⟩
  rw [← List.cons_append, List.getLast?_concat]
  simp

/-- Declarations of integers are flat. -/
theorem isFlat_prelude (config : Config) (integers : List Int64) :
    ∀ line ∈ prelude config integers, IsFlat line.toList := by
  intro line hline
  rw [prelude] at hline
  split at hline
  · obtain ⟨value, -, rfl⟩ := List.mem_map.mp hline
    exact isFlat_integerDeclaration value
  · cases hline

/-- What is written with indentation is the indentation of what is written without. -/
theorem code_assemble_withIndent (u : SourceUnit) (config : Config) (warnings : List Diagnostic)
    (body : Code) (state : EmissionState) :
    (u.assemble (config.withIndent true) warnings body state).code =
      indent (u.assemble (config.withIndent false) warnings body state).code :=
  (indent_endLines_append (isFlat_prelude (config.withIndent false) state.integers) _).symm

/-- Lowering with indentation comes to the same as indenting what is lowered without. -/
theorem lower_withIndent (u : SourceUnit) (config : Config) (registry : Registry) (issued : Nat) :
    let plain := u.lower (config.withIndent false) registry issued
    let indented := u.lower (config.withIndent true) registry issued
    indented.2 = plain.2 ∧ (∀ why, indented.1 = .error why ↔ plain.1 = .error why) ∧
      ∀ out, plain.1 = .ok out → ∃ positionMap,
        indented.1 = .ok { out with code := indent out.code, positionMap } := by
  intro plain indented
  have hchecks : (config.withIndent true).SameChecks (config.withIndent false) := ⟨rfl, rfl⟩
  have hemit := u.root.assembled_emitRoot.eq_of_sameChecks hchecks (u.view registry)
    (.initial issued)
  -- emitting is the same, and only what is assembled in the end is indented or not
  simp only [plain, indented, lower]
  cases u.validate with
  | error why => exact ⟨rfl, fun _ => Iff.rfl, nofun⟩
  | ok =>
    dsimp only
    rw [hemit]
    cases u.root.emitRoot ⟨u.view registry, config.withIndent false⟩ (.initial issued) with
    | error why state => exact ⟨rfl, fun _ => Iff.rfl, nofun⟩
    | ok body state =>
      refine ⟨rfl, fun _ => ⟨nofun, nofun⟩, ?_⟩
      rintro out ⟨⟩
      have hcode := u.code_assemble_withIndent config (u.ownerWarning? registry) body state
      refine ⟨(u.assemble (config.withIndent true) (u.ownerWarning? registry) body
        state).positionMap, ?_⟩
      rw [← hcode]
      rfl

end SourceUnit

/-! ## The result -/

/-- Indentation keeps the number of lines and their trimmed texts, writes them by the rule for levels
and changes nothing a second time. The end of a line at the end of the code is kept; one that had
only blanks after it comes to stand there. A unit that is lowered with indentation is the unit that
is lowered without, indented as a whole. -/
theorem Indentation.indent_stable :
    (∀ code : String,
      let lines := splitLines code.toList
      let written := splitLines (indent code).toList
      written.length = lines.length ∧
        (EndsLine code → EndsLine (indent code)) ∧
        (EndsLine (indent code) ↔
          '\n' ∈ code.toList ∧ ∀ line ∈ lines.getLast?, trimChars line = []) ∧
        written.map trimChars = lines.map trimChars ∧
        Follows lines written ∧
        indent (indent code) = indent code) ∧
    ∀ (u : SourceUnit) (config : Config) (registry : Registry) (issued : Nat),
      let plain := u.lower (config.withIndent false) registry issued
      let indented := u.lower (config.withIndent true) registry issued
      indented.2 = plain.2 ∧ (∀ why, indented.1 = .error why ↔ plain.1 = .error why) ∧
        ∀ out, plain.1 = .ok out → ∃ positionMap,
          indented.1 = .ok { out with code := indent out.code, positionMap } := by
  refine ⟨fun code => ?_, fun u => u.lower_withIndent⟩
  dsimp only
  -- a last line that is blank would lose its line feed
  have hends : EndsLine code → EndsLine (indent code) := by
    intro h
    obtain ⟨hfeed, hlast⟩ := (getLast?_eq_feed_iff _).mp h
    refine (endsLine_indent_iff code).mpr ⟨hfeed, ?_⟩
    rw [hlast]
    rintro _ ⟨⟩
    rfl
  refine ⟨?_, hends, endsLine_indent_iff code, ?_, ?_, indent_indent code⟩
  · rw [splitLines_indent, length_indentLines]
  · rw [splitLines_indent, map_trimChars_indentLines]
  · rw [splitLines_indent]
    exact follows_indentLines _

namespace SourceUnit

open Indentation

/-- An integer is written in a loop. -/
def counting : SourceUnit :=
  let opening : StatementNode := ⟨.doTimes none, ⟨⟨1, 1⟩, ⟨1, 4⟩⟩, "DO."⟩
  let write : StatementNode :=
    ⟨.write (.constant (.integer 1)) false, ⟨⟨2, 3⟩, ⟨2, 11⟩⟩, "WRITE 1."⟩
  let closing : StatementNode := ⟨.endBlock .doBlock, ⟨⟨3, 1⟩, ⟨3, 7⟩⟩, "ENDDO."⟩
  { file := "zfoo.prog.abap"
    object := ⟨.prog, "ZFOO"⟩
    root := ⟨.program, [.branch ⟨.doLoop, [.leaf opening, .leaf write, .leaf closing],
      ⟨⟨1, 1⟩, ⟨3, 7⟩⟩⟩], ⟨⟨1, 1⟩, ⟨3, 7⟩⟩⟩
    scopes := ⟨#[.fresh .program "zfoo" "zfoo.prog.abap" ⟨⟨1, 1⟩, ⟨9, 1⟩⟩ none]⟩ }

theorem lower_counting_withIndent :
    let code := Emit.endLines ["const constant_1 = new abap.types.Integer().set(1);",
      "let unique1 = 1;", "while (true) \x7b", "abap.builtin.sy.get().index.set(unique1++);",
      "abap.statements.write(constant_1);", "\x7d"]
    EndsLine (indent code) ∧ indent (indent code) = indent code ∧
      ∃ out positionMap,
        (counting.lower (Config.standard.withIndent false) .empty 0).1 = .ok out ∧ out.code = code ∧
        (counting.lower (Config.standard.withIndent true) .empty 0).1 =
          .ok { out with code := indent code, positionMap } := by
  intro code
  obtain ⟨hstable, hunits⟩ := indent_stable
  obtain ⟨-, hends, -, -, -, hagain⟩ := hstable code
  refine ⟨hends (by decide +kernel), hagain, ?_⟩
  have hlower : (counting.lower (Config.standard.withIndent false) .empty 0).1.toOption.map
      (·.code) = some code := by
    decide +kernel
  cases hplain : (counting.lower (Config.standard.withIndent false) .empty 0).1 with
  | error why =>
    rw [hplain] at hlower
    cases hlower
  | ok out =>
    have hcode : out.code = code := by
      rw [hplain] at hlower
      exact Option.some_inj.mp hlower
    obtain ⟨positionMap, hout⟩ := (hunits counting .standard .empty 0).2.2 out hplain
    exact ⟨out, positionMap, rfl, hcode, hcode ▸ hout⟩

end SourceUnit

end AbapLowering
