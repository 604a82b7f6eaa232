import AbapLowering.Code.Identifier
import AbapLowering.Proofs.Code.Lines
import Mathlib.Data.List.Induction

/-!
# Templates

A text with places for temporaries, which are numbered on from where a unit starts:

- `Template.text t c`: the text where `c` temporaries were given out before;
- `Template.holes`: the numbers of the temporaries in it, counted from the start of the unit;
- a temporary is one word (`isAlphanum_of_mem_temporary`). So how a text is cut into lines, trimmed
  and indented does not depend on the numbers, and the result is a template with the same holes
  (`exists_indent`), and the same is true of how far its lines are indented (`exists_blankWidths`).
-/

namespace AbapLowering

/-- A character, or a place for a temporary. -/
inductive Symbol where
  | char (x : Char)
  | hole (n : Nat)
  deriving DecidableEq

/-- A text with places for temporaries. -/
abbrev Template := List Symbol

/-- What a symbol stands for after `c` temporaries. -/
def Symbol.fill (c : Nat) : Symbol → List Char
  | .char x => [x]
  | .hole n => (Identifier.temporary (c + n)).toList

/-- The number of a place. -/
def Symbol.hole? : Symbol → Option Nat
  | .char _ => none
  | .hole n => some n

/-- Whether a symbol is a blank character. -/
def Symbol.isBlank : Symbol → Bool
  | .char x => Text.isBlank x
  | .hole _ => false

namespace Template

/-- The characters of a template after `c` temporaries. -/
def fill (c : Nat) (t : Template) : List Char := t.flatMap (Symbol.fill c)

/-- The text of a template after `c` temporaries. -/
def text (t : Template) (c : Nat) : String := String.ofList (fill c t)

/-- The numbers of the temporaries in a template. -/
def holes (t : Template) : List Nat := t.filterMap Symbol.hole?

/-- A text without temporaries. -/
def literal (s : String) : Template := s.toList.map .char

/-- The `n`th temporary of the unit. -/
def temporary (n : Nat) : Template := [.hole n]

variable {t u : Template} {c : Nat}

@[simp] theorem fill_nil : fill c [] = [] := rfl

@[simp] theorem fill_cons (s : Symbol) : fill c (s :: t) = s.fill c ++ fill c t := rfl

@[simp] theorem fill_append : fill c (t ++ u) = fill c t ++ fill c u := List.flatMap_append

/-- Characters stand for themselves. -/
@[simp] theorem fill_map_char (cs : List Char) : fill c (cs.map Symbol.char) = cs := by
  induction cs with
  | nil => rfl
  | cons x rest ih => simp [ih, Symbol.fill]

@[simp] theorem text_nil : text [] c = "" := rfl

@[simp] theorem text_append : text (t ++ u) c = text t c ++ text u c := by
  simp [text, String.ofList_append]

/-- A text without temporaries is the same wherever the unit starts. -/
@[simp] theorem text_literal (s : String) : text (literal s) c = s := by
  simp [text, literal]

/-- A temporary is numbered on from where the unit starts. -/
@[simp] theorem text_temporary (n : Nat) :
    text (temporary n) c = Identifier.temporary (c + n) := by
  simp [text, temporary, Symbol.fill]

@[simp] theorem holes_nil : holes [] = [] := rfl

@[simp] theorem holes_char (x : Char) : holes (.char x :: t) = holes t := rfl

@[simp] theorem holes_hole (n : Nat) : holes (.hole n :: t) = n :: holes t := rfl

@[simp] theorem holes_append : holes (t ++ u) = holes t ++ holes u := List.filterMap_append

@[simp] theorem holes_map_char (cs : List Char) : holes (cs.map Symbol.char) = [] := by
  induction cs with
  | nil => rfl
  | cons x rest ih => simpa using ih

/-- There are no temporaries in a literal text. -/
@[simp] theorem holes_literal (s : String) : holes (literal s) = [] := holes_map_char _

@[simp] theorem holes_temporary (n : Nat) : holes (temporary n) = [n] := rfl

/-! ## Temporaries are words -/

/-- A number is written in digits. -/
theorem isAlphanum_of_mem_digits {n : Nat} {x : Char} (h : x ∈ (toString n).toList) :
    x.isAlphanum = true := by
  rw [Nat.toString_eq_ofList_toDigits, String.toList_ofList] at h
  have hdigit := Nat.isDigit_of_mem_toDigits (by decide) (by decide) h
  rw [Char.isAlphanum, hdigit, Bool.or_true]

/-- A temporary is one word. -/
theorem isAlphanum_of_mem_temporary {n : Nat} {x : Char}
    (h : x ∈ (Identifier.temporary n).toList) : x.isAlphanum = true := by
  rw [Identifier.temporary, String.toList_append, List.mem_append] at h
  have hword : "unique".toList.all Char.isAlphanum = true := by decide
  rcases h with h | h
  · exact List.all_eq_true.mp hword x h
  · exact isAlphanum_of_mem_digits (n := (UInt32.ofNat n).toNat) h

/-- The name of a temporary is not empty. -/
theorem temporary_ne_nil (n : Nat) : (Identifier.temporary n).toList ≠ [] := by
  simp [Identifier.temporary]

/-- It begins with a letter or digit. -/
theorem exists_cons_temporary (n : Nat) :
    ∃ x xs, (Identifier.temporary n).toList = x :: xs ∧ x.isAlphanum = true := by
  obtain ⟨x, xs, hxs⟩ := List.exists_cons_of_ne_nil (temporary_ne_nil n)
  exact ⟨x, xs, hxs, isAlphanum_of_mem_temporary (hxs ▸ List.mem_cons_self)⟩

/-- It ends with a letter or digit. -/
theorem exists_concat_temporary (n : Nat) :
    ∃ xs x, (Identifier.temporary n).toList = xs ++ [x] ∧ x.isAlphanum = true := by
  have hne := temporary_ne_nil n
  refine ⟨_, _, (List.dropLast_concat_getLast hne).symm, ?_⟩
  exact isAlphanum_of_mem_temporary (List.getLast_mem hne)

/-- Digits and letters have codes in these ranges. -/
theorem toNat_of_isAlphanum {x : Char} (h : x.isAlphanum = true) :
    (48 ≤ x.toNat ∧ x.toNat ≤ 57) ∨ (65 ≤ x.toNat ∧ x.toNat ≤ 90) ∨
      (97 ≤ x.toNat ∧ x.toNat ≤ 122) := by
  delta Char.isAlphanum Char.isAlpha Char.isUpper Char.isLower Char.isDigit at h
  simp only [Bool.or_eq_true, Bool.and_eq_true, decide_eq_true_eq, ge_iff_le,
    UInt32.le_iff_toNat_le] at h
  have hval : x.val.toNat = x.toNat := rfl
  simp only [hval] at h
  simp at h
  omega

/-- No letter or digit is blank. -/
theorem isBlank_of_isAlphanum {x : Char} (h : x.isAlphanum = true) : Text.isBlank x = false := by
  -- no blank has a code within the ranges of digits and letters
  have hrange := toNat_of_isAlphanum h
  simp only [Text.isBlank, Bool.or_eq_false_iff, Bool.and_eq_false_iff, decide_eq_false_iff_not,
    beq_eq_false_iff_ne]
  omega

/-- What separates words does not stand in a temporary. -/
theorem not_mem_temporary {n : Nat} {x : Char} (h : x.isAlphanum = false) :
    x ∉ (Identifier.temporary n).toList := by
  intro hmem
  rw [isAlphanum_of_mem_temporary hmem] at h
  cases h

/-- No template but the empty one is filled to nothing. -/
theorem fill_eq_nil_iff : fill c t = [] ↔ t = [] := by
  cases t with
  | nil => simp
  | cons s rest =>
    cases s with
    | char x => simp [Symbol.fill]
    | hole n =>
      rw [fill_cons, Symbol.fill, List.append_eq_nil_iff]
      simp [Identifier.temporary]

/-- A text begins with a separator iff its template does. -/
theorem head?_fill_eq_some_iff {x : Char} (hx : x.isAlphanum = false) :
    (fill c t).head? = some x ↔ t.head? = some (.char x) := by
  cases t with
  | nil => simp
  | cons s rest =>
    cases s with
    | char y => simp [Symbol.fill]
    | hole n =>
      obtain ⟨y, ys, hys, halphanum⟩ := exists_cons_temporary (c + n)
      have hy : y ≠ x := by
        rintro rfl
        rw [hx] at halphanum
        cases halphanum
      simp [Symbol.fill, hys, hy]

/-- A text ends with a separator iff its template does. -/
theorem getLast?_fill_eq_some_iff {x : Char} (hx : x.isAlphanum = false) :
    (fill c t).getLast? = some x ↔ t.getLast? = some (.char x) := by
  cases t using List.reverseRecOn with
  | nil => simp
  | append_singleton rest s =>
    cases s with
    | char y => simp [Symbol.fill]
    | hole n =>
      obtain ⟨ys, y, hys, halphanum⟩ := exists_concat_temporary (c + n)
      have hy : y ≠ x := by
        rintro rfl
        rw [hx] at halphanum
        cases halphanum
      rw [fill_append, fill_cons, fill_nil, List.append_nil, Symbol.fill, hys, ← List.append_assoc]
      simp [hy]

/-! ## Trimming -/

/-- Blanks are dropped from the start of a template as from its text. -/
theorem dropWhile_fill :
    (fill c t).dropWhile Text.isBlank = fill c (t.dropWhile Symbol.isBlank) := by
  induction t with
  | nil => rfl
  | cons s rest ih =>
    cases s with
    | char x => by_cases hx : Text.isBlank x = true <;> simp [Symbol.fill, Symbol.isBlank, hx, ih]
    | hole n =>
      obtain ⟨x, xs, hxs, halphanum⟩ := exists_cons_temporary (c + n)
      simp [Symbol.fill, Symbol.isBlank, hxs, isBlank_of_isAlphanum halphanum]

/-- No temporary is dropped with the blanks. -/
theorem holes_dropWhile : holes (t.dropWhile Symbol.isBlank) = holes t := by
  induction t with
  | nil => rfl
  | cons s rest ih =>
    cases s with
    | char x =>
      by_cases hx : Text.isBlank x = true <;> simp [Symbol.isBlank, hx, ih]
    | hole n => simp [Symbol.isBlank]

theorem dropEnd_append_singleton (p : Char → Bool) (cs : List Char) (x : Char) :
    Text.dropEnd p (cs ++ [x]) = if p x then Text.dropEnd p cs else cs ++ [x] := by
  by_cases hx : p x = true <;> simp [Text.dropEnd, hx]

/-- Blanks are dropped from the end of a template as from its text. -/
theorem exists_dropEnd (t : Template) :
    ∃ u, (∀ c, Text.dropEnd Text.isBlank (fill c t) = fill c u) ∧ holes u = holes t := by
  induction t using List.reverseRecOn with
  | nil => exact ⟨[], fun _ => rfl, rfl⟩
  | append_singleton rest s ih =>
    cases s with
    | char x =>
      by_cases hx : Text.isBlank x = true
      · obtain ⟨u, hu, hholes⟩ := ih
        refine ⟨u, fun c => ?_, by rw [hholes, holes_append]; simp [holes, Symbol.hole?]⟩
        simpa [Symbol.fill, dropEnd_append_singleton, hx] using hu c
      · exact ⟨_, fun c => by simp [Symbol.fill, dropEnd_append_singleton, hx], rfl⟩
    | hole n =>
      refine ⟨_, fun c => ?_, rfl⟩
      obtain ⟨xs, x, hxs, halphanum⟩ := exists_concat_temporary (c + n)
      rw [fill_append, fill_cons, fill_nil, List.append_nil, Symbol.fill, hxs, ← List.append_assoc,
        dropEnd_append_singleton, isBlank_of_isAlphanum halphanum]
      simp

/-- A template can be trimmed. -/
theorem exists_trimChars (t : Template) :
    ∃ u, (∀ c, Text.trimChars (fill c t) = fill c u) ∧ holes u = holes t := by
  obtain ⟨u, hu, hholes⟩ := exists_dropEnd (t.dropWhile Symbol.isBlank)
  refine ⟨u, fun c => ?_, hholes.trans holes_dropWhile⟩
  rw [Text.trimChars, dropWhile_fill, hu]

/-! ## Lines -/

/-- A template can be cut into lines, all at once for all numbers. -/
theorem exists_splitLines (t : Template) :
    ∃ piece pieces, (∀ c, Text.splitLines (fill c t) = (piece :: pieces).map (fill c)) ∧
      (piece :: pieces).flatMap holes = holes t := by
  induction t with
  | nil => exact ⟨[], [], fun _ => rfl, rfl⟩
  | cons s rest ih =>
    obtain ⟨piece, pieces, hpieces, hholes⟩ := ih
    cases s with
    | char x =>
      by_cases hx : x = '\n'
      · refine ⟨[], piece :: pieces, fun c => ?_, by simpa using hholes⟩
        simp [Symbol.fill, Text.splitLines, hx, hpieces]
      · refine ⟨.char x :: piece, pieces, fun c => ?_, by simpa using hholes⟩
        simp [Symbol.fill, Text.splitLines, hx, hpieces]
    | hole n =>
      -- a temporary contains no line feed, so it is put before the first piece
      refine ⟨.hole n :: piece, pieces, fun c => ?_, by simpa using hholes⟩
      rw [fill_cons, Symbol.fill, Text.splitLines_append (not_mem_temporary rfl) (hpieces c)]
      rfl

/-- Lines that are templates can be joined. -/
theorem exists_joinLines (lines : List Template) :
    ∃ t, (∀ c, Text.joinLines (lines.map (fill c)) = fill c t) ∧
      holes t = lines.flatMap holes := by
  induction lines with
  | nil => exact ⟨[], fun _ => rfl, rfl⟩
  | cons line rest ih =>
    obtain ⟨t, ht, hholes⟩ := ih
    cases rest with
    | nil => exact ⟨line, fun _ => rfl, by simp⟩
    | cons next others =>
      refine ⟨line ++ .char '\n' :: t, fun c => ?_, ?_⟩
      · simpa [Text.joinLines, Symbol.fill] using ht c
      · simpa using hholes

/-- A text has as many line feeds as its template. -/
theorem count_feed_fill : (fill c t).count '\n' = t.count (.char '\n') := by
  induction t with
  | nil => rfl
  | cons s rest ih =>
    rw [fill_cons, List.count_append, ih]
    cases s with
    | char x => by_cases hx : x = '\n' <;> simp [Symbol.fill, hx]; omega
    | hole n =>
      rw [Symbol.fill, List.count_eq_zero.mpr (not_mem_temporary rfl)]
      simp

/-! ## Indentation -/

/-- The level of a line depends on its first character, which is no temporary if it is a brace. -/
theorem levelAt_fill (level : Nat) : Indentation.levelAt level (fill c t) =
    if t.head? = some (.char '\x7d') then level - 1 else level := by
  simp only [Indentation.levelAt, head?_fill_eq_some_iff (x := '\x7d') rfl]

/-- The level after a line depends on its last character. -/
theorem levelAfter_fill (level : Nat) : Indentation.levelAfter level (fill c t) =
    if t.getLast? = some (.char '\x7b') then level + 1 else level := by
  simp only [Indentation.levelAfter, getLast?_fill_eq_some_iff (x := '\x7b') rfl]

/-- A line that is a template can be put at a level. -/
theorem exists_place (level : Nat) (t : Template) :
    ∃ u, (∀ c, Indentation.place level (fill c t) = fill c u) ∧ holes u = holes t := by
  by_cases ht : t = []
  · exact ⟨[], fun c => by simp [ht, Indentation.place], by simp [ht]⟩
  · refine ⟨(List.replicate (2 * level) ' ').map .char ++ t, fun c => ?_, ?_⟩
    · rw [Indentation.place, if_neg (by simpa [fill_eq_nil_iff] using ht), fill_append,
        fill_map_char]
    · rw [holes_append, holes_map_char, List.nil_append]

/-- Lines that are templates can be indented. -/
theorem exists_indentLines (level : Nat) (lines : List Template) :
    ∃ placed : List Template,
      (∀ c, Indentation.indentLines level (lines.map (fill c)) = placed.map (fill c)) ∧
        placed.flatMap holes = lines.flatMap holes := by
  induction lines generalizing level with
  | nil => exact ⟨[], fun _ => rfl, rfl⟩
  | cons line rest ih =>
    obtain ⟨trimmed, htrimmed, htrimmedHoles⟩ := exists_trimChars line
    -- the levels depend on braces at the ends of lines, which no temporary writes
    let own := if trimmed.head? = some (.char '\x7d') then level - 1 else level
    obtain ⟨first, hfirst, hfirstHoles⟩ := exists_place own trimmed
    obtain ⟨others, hothers, hothersHoles⟩ :=
      ih (if trimmed.getLast? = some (.char '\x7b') then own + 1 else own)
    refine ⟨first :: others, fun c => ?_, ?_⟩
    · simp only [List.map_cons, Indentation.indentLines, htrimmed, levelAt_fill, levelAfter_fill]
      rw [← hfirst, ← hothers]
    · simp [hfirstHoles, htrimmedHoles, hothersHoles]

/-- Indentation does not depend on the numbers of temporaries. -/
theorem exists_indent (t : Template) :
    ∃ u, (∀ c, Indentation.indent (text t c) = text u c) ∧ holes u = holes t := by
  obtain ⟨piece, pieces, hpieces, hpiecesHoles⟩ := exists_splitLines t
  obtain ⟨placed, hplaced, hplacedHoles⟩ := exists_indentLines 0 (piece :: pieces)
  obtain ⟨u, hu, huHoles⟩ := exists_joinLines placed
  refine ⟨u, fun c => ?_, huHoles.trans (hplacedHoles.trans hpiecesHoles)⟩
  rw [Indentation.indent, text, String.toList_ofList, hpieces, hplaced, hu, text]

/-! ## Blank starts -/

/-- A carriage return can be dropped from the end of a template. -/
theorem exists_dropReturn (t : Template) :
    ∃ u, ∀ c, Text.dropReturn (fill c t) = fill c u := by
  by_cases hlast : t.getLast? = some (.char '\r')
  · obtain ⟨rest, rfl⟩ := List.getLast?_eq_some_iff.mp hlast
    exact ⟨rest, fun c => by simp [Text.dropReturn, Symbol.fill]⟩
  · refine ⟨t, fun c => ?_⟩
    have hfill := mt (getLast?_fill_eq_some_iff (c := c) (x := '\r') rfl).mp hlast
    unfold Text.dropReturn
    split
    next rest heq => exact absurd (by rw [← List.head?_reverse, heq]; rfl) hfill
    next => rfl

/-- The lines of a text are templates if its pieces are. -/
theorem exists_linesOfPieces (pieces : List Template) :
    ∃ lines : List Template, ∀ c,
      Text.linesOfPieces (pieces.map (fill c)) = lines.map (fill c) := by
  induction pieces with
  | nil => exact ⟨[], fun _ => rfl⟩
  | cons piece rest ih =>
    cases rest with
    | nil =>
      by_cases hpiece : piece = []
      · exact ⟨[], fun c => by simp [hpiece, Text.linesOfPieces]⟩
      · exact ⟨[piece], fun c => by simp [Text.linesOfPieces, fill_eq_nil_iff, hpiece]⟩
    | cons next others =>
      obtain ⟨line, hline⟩ := exists_dropReturn piece
      obtain ⟨lines, hlines⟩ := ih
      exact ⟨line :: lines, fun c => by simpa [Text.linesOfPieces, hline] using hlines c⟩

/-- How far a line is indented does not depend on the numbers. -/
theorem exists_blankWidth (t : Template) : ∃ width, ∀ c, Text.blankWidth (fill c t) = width := by
  induction t with
  | nil => exact ⟨0, fun _ => rfl⟩
  | cons s rest ih =>
    cases s with
    | char x =>
      obtain ⟨width, hwidth⟩ := ih
      by_cases hx : Text.isBlank x = true
      · refine ⟨x.utf8Size + width, fun c => ?_⟩
        simp [Text.blankWidth, Text.byteLength, Symbol.fill, hx, ← hwidth c]
      · exact ⟨0, fun c => by simp [Text.blankWidth, Text.byteLength, Symbol.fill, hx]⟩
    | hole n =>
      -- the blanks end where a temporary starts
      refine ⟨0, fun c => ?_⟩
      obtain ⟨x, xs, hxs, halphanum⟩ := exists_cons_temporary (c + n)
      simp [Text.blankWidth, Text.byteLength, Symbol.fill, hxs, isBlank_of_isAlphanum halphanum]

/-- How far lines are indented does not depend on the numbers of temporaries. -/
theorem exists_blankWidths (t : Template) :
    ∃ widths, ∀ c, PositionMap.blankWidths (text t c) = widths := by
  obtain ⟨piece, pieces, hpieces, -⟩ := exists_splitLines t
  obtain ⟨lines, hlines⟩ := exists_linesOfPieces (piece :: pieces)
  choose width hwidth using exists_blankWidth
  refine ⟨(lines.map width).toArray, fun c => ?_⟩
  rw [PositionMap.blankWidths, Text.lines, text, String.toList_ofList, hpieces, hlines]
  simp [hwidth, Function.comp_def]

end Template

end AbapLowering
