import AbapLowering.Proofs.Code.Lines
import AbapLowering.Proofs.Code.Reads
import AbapLowering.Proofs.Emission.Linewise

/-!
# Nesting of lines

Indentation only looks at how a line starts and ends, a reader at every character.
`Nests w d lines d'`: each line opens a block, closes one, does both or neither, and from `d` open
blocks on they lead to `d'`. Main facts about such lines, with no block open before and after them:

- the level of a line that starts with a closing brace is never zero before it, and zero is the
  level after the last line (`Nests.isBalanced`);
- with strict wording the level of every line is the number of blocks that a reader finds open there
  (`Nests.followsBlocks`).
-/

namespace AbapLowering

open Text

namespace Indentation

/-- The level that a line leaves, from the level that the line before left. -/
def levelPast (level : Nat) (line : List Char) : Nat :=
  levelAfter (levelAt level (trimChars line)) (trimChars line)

/-- The level that some lines leave. -/
def levelThrough (level : Nat) (lines : List (List Char)) : Nat := lines.foldl levelPast level

theorem levelThrough_append (level : Nat) (before after : List (List Char)) :
    levelThrough level (before ++ after) = levelThrough (levelThrough level before) after :=
  List.foldl_append

/-- Every closing brace that indentation looks at has a level to leave, and all levels are left. -/
structure IsBalanced (code : List Char) : Prop where
  held : ∀ before line after, splitLines code = before ++ line :: after →
    (trimChars line).head? = some '\x7d' → 0 < levelThrough 0 before
  settled : levelThrough 0 (splitLines code) = 0

end Indentation

open Indentation

namespace Script

open Reading

/-- The number of blocks that are open after some code; there is none if it is no code. -/
def blocksAfter? (cs : List Char) : Option Nat := (start.read cs).map blocks

/-- The part of a line that indentation looks at before it places the line. -/
def lineStart (line : List Char) : List Char :=
  if (trimChars line).head? = some '\x7d' then line.takeWhile isBlank ++ ['\x7d'] else []

/-- The level of every line is the number of blocks that are open there. -/
def FollowsBlocks (code : List Char) : Prop :=
  ∀ before line after, splitLines code = before ++ line :: after →
    blocksAfter? (before.flatMap (· ++ ['\n']) ++ lineStart line) =
      some (levelAt (levelThrough 0 before) (trimChars line))

/-! ## Lines -/

/-- Whether a line leads from a number of open blocks to another. -/
inductive Line (w : Wording) : Nat → String → Nat → Prop
  | inline {d : Nat} {s : String} : Inline w s → Line w d s d
  | opens {d : Nat} {s : String} : Reads w .start s ⟨.code, [.brace]⟩ →
    s.toList.getLast? = some '\x7b' → Line w d s (d + 1)
  | closes {d : Nat} : Line w (d + 1) "\x7d" d
  | turns {d : Nat} {s : String} : Reads w ⟨.code, [.brace]⟩ s ⟨.code, [.brace]⟩ →
    s.toList.head? = some '\x7d' → s.toList.getLast? = some '\x7b' → Line w (d + 1) s (d + 1)

/-- Whether lines lead from a number of open blocks to another. -/
inductive Nests (w : Wording) : Nat → List String → Nat → Prop
  | nil {d : Nat} : Nests w d [] d
  | cons {d d' d'' : Nat} {s : String} {rest : List String} : Line w d s d' → Nests w d' rest d'' →
    Nests w d (s :: rest) d''

variable {w : Wording} {d d' d'' : Nat} {s : String} {lines others : List String}

namespace Line

theorem isUnbroken (h : Line w d s d') : IsUnbroken s := by
  cases h with
  | inline h => exact h.isUnbroken
  | opens h _ => exact h.isUnbroken
  | closes => simp [IsUnbroken, isBreak]
  | turns h _ _ => exact h.isUnbroken

/-- A trimmed line starts with a brace that the line starts with. -/
theorem head?_trimChars_of {cs : List Char} {x : Char} (hx : isBlank x = false)
    (h : cs.head? = some x) : (trimChars cs).head? = some x := by
  obtain ⟨rest, rfl⟩ := List.head?_eq_some_iff.mp h
  rw [trimChars_cons hx, List.head?_cons]

theorem getLast?_trimChars_of {cs : List Char} {x : Char} (hx : isBlank x = false)
    (h : cs.getLast? = some x) : (trimChars cs).getLast? = some x := by
  obtain ⟨front, rfl⟩ := List.getLast?_eq_some_iff.mp h
  rw [getLast?_trimChars, List.reverse_append, List.reverse_singleton, List.singleton_append,
    List.dropWhile_cons_of_neg (by simp [hx]), List.head?_cons]

/-- Only a line within an open block starts with a closing brace, and it leaves a level. -/
theorem level_eq (h : Line w d s d') :
    ((trimChars s.toList).head? = some '\x7d' ∧ s.toList.head? = some '\x7d' ∧
      ∃ outer, d = outer + 1 ∧ levelAt d (trimChars s.toList) = outer) ∨
    ((trimChars s.toList).head? ≠ some '\x7d' ∧ levelAt d (trimChars s.toList) = d) := by
  have houter : ∀ {r' : Reading}, Reads w .start s r' →
      (trimChars s.toList).head? ≠ some '\x7d' ∧ levelAt d (trimChars s.toList) = d := by
    intro r' h
    have hne : (trimChars s.toList).head? ≠ some '\x7d' := by
      rw [head?_trimChars]
      exact h.head?_ne rfl
    exact ⟨hne, if_neg hne⟩
  cases h with
  | inline h => exact .inr (houter h)
  | opens h _ => exact .inr (houter h)
  | closes => exact .inl ⟨rfl, rfl, d', rfl, rfl⟩
  | @turns outer _ h hhead _ =>
    have htrimmed := head?_trimChars_of (by decide) hhead
    exact .inl ⟨htrimmed, hhead, outer, rfl, if_pos htrimmed⟩

/-- Indentation counts the blocks. -/
theorem levelPast_eq (h : Line w d s d') : levelPast d s.toList = d' := by
  rw [levelPast]
  cases h with
  | inline h =>
    have hhead := h.head?_ne rfl
    have hlast := h.getLast?_ne rfl
    rw [← head?_trimChars] at hhead
    rw [← getLast?_trimChars] at hlast
    rw [levelAt, if_neg hhead, levelAfter, if_neg hlast]
  | opens h hlast =>
    have hhead := h.head?_ne rfl
    rw [← head?_trimChars] at hhead
    rw [levelAt, if_neg hhead, levelAfter, if_pos (getLast?_trimChars_of (by decide) hlast)]
  | closes => rfl
  | turns h hhead hlast =>
    rw [levelAt, if_pos (head?_trimChars_of (by decide) hhead), levelAfter,
      if_pos (getLast?_trimChars_of (by decide) hlast)]
    rfl

/-- A reader of strictly worded lines meets the blocks. -/
theorem read_eq (h : Line .strict d s d') :
    read ⟨.code, .replicate d .brace⟩ s.toList = some ⟨.code, .replicate d' .brace⟩ := by
  have hread : ∀ {r r' : Reading}, Reads .strict r s r' → ∀ base,
      (r.above base).read s.toList = some (r'.above base) :=
    fun h base => read_above (readLine_eq_some_iff.mp h.readLine_eq).2 base
  cases h with
  | inline h => exact hread h _
  | opens h _ => exact hread h (.replicate d .brace)
  | closes => rfl
  | @turns outer _ h _ _ => exact hread h (.replicate outer .brace)

end Line

namespace Nests

theorem append (h : Nests w d lines d') (h' : Nests w d' others d'') :
    Nests w d (lines ++ others) d'' := by
  induction h with
  | nil => exact h'
  | cons hline _ ih => exact .cons hline (ih h')

/-- Lines that neither open nor close a block. -/
theorem inline (h : ∀ s ∈ lines, Inline w s) : Nests w d lines d := by
  induction lines with
  | nil => exact .nil
  | cons s rest ih =>
    obtain ⟨hs, hrest⟩ := List.forall_mem_cons.mp h
    exact .cons (.inline hs) (ih hrest)

/-- The lines are those of the text. -/
theorem splitLines_eq (h : Nests w d lines d') :
    splitLines (Emit.endLines lines).toList = lines.map String.toList ++ [[]] := by
  induction h with
  | nil => rfl
  | @cons d d' d'' s rest hline _ ih =>
    have hfeed : '\n' ∉ s.toList := fun hmem => by simpa [isBreak] using hline.isUnbroken _ hmem
    have hrest : splitLines ('\n' :: (Emit.endLines rest).toList) =
        [] :: (rest.map String.toList ++ [[]]) := by rw [splitLines, if_pos rfl, ih]
    rw [Emit.endLines_cons, String.append_assoc, String.toList_append, String.toList_append]
    exact (splitLines_append hfeed hrest).trans (by simp)

theorem levelThrough_eq (h : Nests w d lines d') :
    levelThrough d (lines.map String.toList) = d' := by
  induction h with
  | nil => rfl
  | cons hline _ ih =>
    rw [List.map_cons, levelThrough, List.foldl_cons, hline.levelPast_eq]
    exact ih

theorem read_eq (h : Nests .strict d lines d') :
    read ⟨.code, .replicate d .brace⟩ ((lines.map String.toList).flatMap (· ++ ['\n'])) =
      some ⟨.code, .replicate d' .brace⟩ := by
  induction h with
  | nil => rfl
  | cons hline _ ih =>
    rw [List.map_cons, List.flatMap_cons, List.append_assoc, read_append_of hline.read_eq]
    exact ih

/-- At every line some blocks are open, and the line goes on from there. -/
theorem exists_line (h : Nests w d lines d') {before after : List (List Char)} {line : List Char}
    (hlines : splitLines (Emit.endLines lines).toList = before ++ line :: after) :
    ∃ front d₁ s d₂, before = front.map String.toList ∧ line = String.toList s ∧
      Nests w d front d₁ ∧ Line w d₁ s d₂ := by
  rw [h.splitLines_eq] at hlines
  induction h generalizing before with
  | @nil d =>
    cases before with
    | nil =>
      obtain ⟨rfl, -⟩ := List.cons.inj hlines
      exact ⟨[], d, "", d, rfl, rfl, .nil, .inline (.fixed rfl)⟩
    | cons first rest => simp at hlines
  | @cons d d' d'' s rest hline _ ih =>
    cases before with
    | nil =>
      obtain ⟨rfl, -⟩ := List.cons.inj hlines
      exact ⟨[], d, s, d', rfl, rfl, .nil, hline⟩
    | cons first others =>
      obtain ⟨rfl, hrest⟩ := List.cons.inj hlines
      obtain ⟨front, d₁, t, d₂, rfl, rfl, hfront, ht⟩ := ih hrest
      exact ⟨s :: front, d₁, t, d₂, rfl, rfl, .cons hline hfront, ht⟩

theorem isBalanced (h : Nests w 0 lines 0) : IsBalanced (Emit.endLines lines).toList where
  held := by
    intro before line after hlines hhead
    obtain ⟨front, d₁, s, d₂, rfl, rfl, hfront, hline⟩ := h.exists_line hlines
    rw [hfront.levelThrough_eq]
    rcases hline.level_eq with ⟨-, -, outer, rfl, -⟩ | ⟨hne, -⟩
    · exact outer.succ_pos
    · exact absurd hhead hne
  settled := by
    rw [h.splitLines_eq, levelThrough_append, h.levelThrough_eq]
    rfl

theorem followsBlocks (h : Nests .strict 0 lines 0) :
    FollowsBlocks (Emit.endLines lines).toList := by
  intro before line after hlines
  obtain ⟨front, d₁, s, d₂, rfl, rfl, hfront, hline⟩ := h.exists_line hlines
  rw [hfront.levelThrough_eq, blocksAfter?]
  have hread := hfront.read_eq
  rw [List.replicate_zero] at hread
  rw [start, read_append_of hread, lineStart]
  rcases hline.level_eq with ⟨htrimmed, hhead, outer, rfl, hlevel⟩ | ⟨hne, hlevel⟩
  · obtain ⟨rest, hrest⟩ := List.head?_eq_some_iff.mp hhead
    rw [if_pos htrimmed, hlevel, hrest, List.takeWhile_cons_of_neg (by decide)]
    simp [Reading.read, step, close, blocks, List.replicate_succ]
  · rw [if_neg hne, hlevel]
    simp [Reading.read, blocks]

end Nests

/-! ## Texts of lines -/

/-- Whether a text is made of lines, each of them ended, that lead from a number of open blocks to
another. -/
def Leads (w : Wording) (d : Nat) (text : String) (d' : Nat) : Prop :=
  ∃ lines, text = Emit.endLines lines ∧ Nests w d lines d'

namespace Leads

variable {text other : String}

theorem empty : Leads w d "" d := ⟨[], rfl, .nil⟩

theorem append (h : Leads w d text d') (h' : Leads w d' other d'') :
    Leads w d (text ++ other) d'' := by
  obtain ⟨lines, rfl, hlines⟩ := h
  obtain ⟨others, rfl, hothers⟩ := h'
  refine ⟨lines ++ others, ?_, hlines.append hothers⟩
  simp [Emit.endLines, String.join_append]

theorem line (h : Line w d s d') : Leads w d (s ++ "\n") d' := by
  refine ⟨[s], ?_, .cons h .nil⟩
  rw [Emit.endLines_cons]
  exact (String.append_empty).symm

theorem inline (h : Inline w s) : Leads w d (s ++ "\n") d := line (.inline h)

/-- Lines that neither open nor close a block. -/
theorem inlines (h : InlineAll w lines) : Leads w d (Emit.endLines lines) d :=
  ⟨lines, rfl, .inline h⟩

/-- A text between whose lines a line feed is written. -/
theorem andThen (h : Leads w d (text ++ "\n") d') (h' : Leads w d' (other ++ "\n") d'') :
    Leads w d (text ++ "\n" ++ other ++ "\n") d'' := by
  rw [String.append_assoc]
  exact h.append h'

/-- The last line feed may stand in the last piece of a text. -/
theorem fed {last : String} (line : String) (hlast : last = line ++ "\n")
    (h : Leads w d (text ++ line ++ "\n") d') : Leads w d (text ++ last) d' := by
  rw [hlast, ← String.append_assoc]
  exact h

/-- Blocks that are open around a text do not matter. -/
theorem within {before after : Nat} (h : ∀ d, Leads w (d + before) text (d + after)) (n d : Nat) :
    Leads w (d + (n + before)) text (d + (n + after)) := by
  rw [← Nat.add_assoc, ← Nat.add_assoc]
  exact h (d + n)

theorem isBalanced (h : Leads w 0 text 0) : IsBalanced text.toList := by
  obtain ⟨lines, rfl, hlines⟩ := h
  exact hlines.isBalanced

theorem followsBlocks (h : Leads .strict 0 text 0) : FollowsBlocks text.toList := by
  obtain ⟨lines, rfl, hlines⟩ := h
  exact hlines.followsBlocks

end Leads

/-- Whether the lines of a text, the last of which is not ended yet, lead from `before` open blocks
to `after`, whatever else is open around them. -/
def Shifts (w : Wording) (before after : Nat) (text : String) : Prop :=
  ∀ d, Leads w (d + before) (text ++ "\n") (d + after)

namespace Shifts

variable {text : String}

theorem within {before after : Nat} (h : Shifts w before after text) (n : Nat) :
    Shifts w (n + before) (n + after) text := Leads.within h n

/-- A line that leads from code to code. -/
theorem inline (h : Inline w s) : Shifts w 0 0 s := fun _ => .inline h

/-- A line that opens a block. -/
theorem opening (h : Inline w text) (last : String)
    (hlast : readLine .start last = some ⟨.code, [.brace]⟩)
    (hbrace : last.toList.getLast? = some '\x7b') : Shifts w 0 1 (text ++ last) := by
  refine fun _ => .line (.opens (h.andFixed hlast) ?_)
  rw [String.toList_append, List.getLast?_append, hbrace, Option.some_or]

/-- A line that closes a block and opens another. -/
theorem turning (first : String) (hfirst : readLine ⟨.code, [.brace]⟩ first = some .start)
    (hclosing : first.toList.head? = some '\x7d') (h : Inline w text) (last : String)
    (hlast : readLine .start last = some ⟨.code, [.brace]⟩)
    (hbrace : last.toList.getLast? = some '\x7b') : Shifts w 1 1 (first ++ text ++ last) := by
  refine fun _ => .line (.turns (((Reads.fixed hfirst).andInline h).andFixed hlast) ?_ ?_)
  · rw [String.toList_append, String.toList_append, List.append_assoc, List.head?_append, hclosing,
      Option.some_or]
  · rw [String.toList_append, List.getLast?_append, hbrace, Option.some_or]

end Shifts

end Script

end AbapLowering
