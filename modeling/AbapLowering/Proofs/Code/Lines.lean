import AbapLowering.Code.Indentation
import AbapLowering.Code.PositionMap

/-!
# Where lines are found again

Code is put after other lines and its lines are indented anew. Main facts about a line that starts
with a character that is not blank:

- after lines that were ended, a text has its own lines (`getElem?_splitLines_append`);
- indentation leaves the line where it is and only changes the blanks before that character
  (`getElem?_splitLines_indent`);
- the blank start of the line is as wide as the number of these blanks
  (`getD_blankWidths_of_line`).
-/

namespace AbapLowering

namespace Text

/-! ## Splitting -/

/-- What stands before the first feed belongs to the first line. -/
theorem splitLines_append {w rest : List Char} (hw : '\n' ∉ w) {piece : List Char}
    {pieces : List (List Char)} (h : splitLines rest = piece :: pieces) :
    splitLines (w ++ rest) = (w ++ piece) :: pieces := by
  induction w with
  | nil => exact h
  | cons x w ih =>
    rw [List.mem_cons, not_or] at hw
    simp [splitLines, ih hw.2, Ne.symm hw.1]

theorem splitLines_cons_of_ne {x : Char} (hx : x ≠ '\n') (rest : List Char) :
    ∃ piece pieces, splitLines rest = piece :: pieces ∧
      splitLines (x :: rest) = (x :: piece) :: pieces := by
  obtain ⟨piece, pieces, hpieces⟩ := List.exists_cons_of_ne_nil (splitLines_ne_nil rest)
  exact ⟨piece, pieces, hpieces, by simp [splitLines, hx, hpieces]⟩

/-- There is one line more than there are feeds. -/
theorem length_splitLines (cs : List Char) : (splitLines cs).length = cs.count '\n' + 1 := by
  induction cs with
  | nil => rfl
  | cons x rest ih =>
    by_cases hx : x = '\n'
    · rw [splitLines, if_pos hx, List.length_cons, ih, hx, List.count_cons_self]
    · obtain ⟨piece, pieces, hpieces, hsplit⟩ := splitLines_cons_of_ne hx rest
      rw [hsplit, List.count_cons_of_ne hx, ← ih, hpieces]
      rfl

/-- Whether the lines of a text and the places on each line, its end included, can be counted in 32
bits. -/
structure Addressable (cs : List Char) : Prop where
  lines : (splitLines cs).length < UInt32.size
  columns : ∀ line ∈ splitLines cs, line.length + 1 < UInt32.size

instance (cs : List Char) : Decidable (Addressable cs) :=
  decidable_of_iff ((splitLines cs).length < UInt32.size ∧
      ∀ line ∈ splitLines cs, line.length + 1 < UInt32.size)
    ⟨fun h => ⟨h.1, h.2⟩, fun h => ⟨h.lines, h.columns⟩⟩

/-- Whether what comes after some characters starts a line. -/
def BeforeLine (cs : List Char) : Prop := cs = [] ∨ cs.getLast? = some '\n'

/-- After lines that were ended, a text has its own lines. -/
theorem getElem?_splitLines_append {before : List Char} (h : BeforeLine before) (cs : List Char)
    (i : Nat) : (splitLines (before ++ cs))[before.count '\n' + i]? = (splitLines cs)[i]? := by
  induction before with
  | nil => simp
  | cons x rest ih =>
    have hrest : BeforeLine rest := by
      cases rest with
      | nil => exact .inl rfl
      | cons next others => simpa [BeforeLine, List.getLast?_cons_cons] using h
    by_cases hx : x = '\n'
    · have hcount : (x :: rest).count '\n' + i = rest.count '\n' + i + 1 := by
        rw [hx, List.count_cons_self]
        omega
      rw [hcount, hx, List.cons_append, splitLines, if_pos rfl, List.getElem?_cons_succ]
      exact ih hrest
    · -- the feed that ends the lines before is still to come
      have hfeed : 0 < rest.count '\n' := by
        refine List.count_pos_iff.mpr ?_
        rcases hrest with rfl | hlast
        · simp [BeforeLine, hx] at h
        · exact List.mem_of_getLast? hlast
      obtain ⟨piece, pieces, hpieces, hsplit⟩ := splitLines_cons_of_ne hx (rest ++ cs)
      have hcount : (x :: rest).count '\n' + i = (rest.count '\n' + i - 1) + 1 := by
        rw [List.count_cons_of_ne hx]
        omega
      have hrest := ih hrest
      rw [show rest.count '\n' + i = (rest.count '\n' + i - 1) + 1 by omega, hpieces,
        List.getElem?_cons_succ] at hrest
      rw [hcount, List.cons_append, hsplit, List.getElem?_cons_succ]
      exact hrest

/-- There is no feed within a line. -/
theorem not_mem_of_mem_splitLines {cs piece : List Char} (h : piece ∈ splitLines cs) :
    '\n' ∉ piece := by
  induction cs generalizing piece with
  | nil =>
    rw [splitLines, List.mem_singleton] at h
    simp [h]
  | cons x rest ih =>
    by_cases hx : x = '\n'
    · rw [splitLines, if_pos hx, List.mem_cons] at h
      rcases h with rfl | h
      · simp
      · exact ih h
    · obtain ⟨first, others, hfirst, hsplit⟩ := splitLines_cons_of_ne hx rest
      rw [hsplit, List.mem_cons] at h
      rcases h with rfl | h
      · have hmem : first ∈ splitLines rest := by simp [hfirst]
        simpa [Ne.symm hx] using ih hmem
      · exact ih (by simp [hfirst, h])

/-- Joining and splitting again gives the lines back, if no line contains a feed. -/
theorem splitLines_joinLines {lines : List (List Char)} (hne : lines ≠ [])
    (hlines : ∀ line ∈ lines, '\n' ∉ line) : splitLines (joinLines lines) = lines := by
  induction lines with
  | nil => exact absurd rfl hne
  | cons line rest ih =>
    obtain ⟨hline, hrest⟩ := List.forall_mem_cons.mp hlines
    cases rest with
    | nil =>
      have hsplit : splitLines (line ++ []) = [line ++ []] := splitLines_append hline rfl
      simpa [joinLines] using hsplit
    | cons next others =>
      have hsplit : splitLines ('\n' :: joinLines (next :: others)) = [] :: next :: others := by
        rw [splitLines, if_pos rfl, ih (by simp) hrest]
      simpa [joinLines] using splitLines_append hline hsplit

/-! ## Trimming -/

theorem dropEnd_cons {p : Char → Bool} {x : Char} (hx : p x = false) (cs : List Char) :
    dropEnd p (x :: cs) = x :: dropEnd p cs := by
  rw [dropEnd, List.reverse_cons, List.dropWhile_append]
  split
  next h => simp [dropEnd, List.isEmpty_iff.mp h, hx]
  next => simp [dropEnd]

/-- A text that begins with no blank is trimmed at its end only. -/
theorem trimChars_cons {x : Char} (hx : isBlank x = false) (cs : List Char) :
    trimChars (x :: cs) = x :: dropEnd isBlank cs := by
  rw [trimChars, List.dropWhile_cons_of_neg (by simp [hx]), dropEnd_cons hx]

/-- To trim adds nothing. -/
theorem mem_of_mem_trimChars {x : Char} {cs : List Char} (h : x ∈ trimChars cs) : x ∈ cs := by
  rw [trimChars, dropEnd, List.mem_reverse] at h
  have hmem := (List.dropWhile_sublist _).mem h
  exact (List.dropWhile_sublist _).mem (List.mem_reverse.mp hmem)

/-- What is no blank stands in a trimmed text as often as in the text. -/
theorem count_trimChars {x : Char} (hx : isBlank x = false) (cs : List Char) :
    (trimChars cs).count x = cs.count x := by
  have hdrop : ∀ cs : List Char, (cs.dropWhile isBlank).count x = cs.count x := by
    intro cs
    induction cs with
    | nil => rfl
    | cons c rest ih =>
      by_cases hc : isBlank c = true
      · have hne : c ≠ x := by
          rintro rfl
          rw [hx] at hc
          cases hc
        rw [List.dropWhile_cons_of_pos hc, ih, List.count_cons_of_ne hne]
      · rw [List.dropWhile_cons_of_neg hc]
  rw [trimChars, dropEnd, List.count_reverse, hdrop, List.count_reverse, hdrop]

/-- A line without its return is the line, or the return follows it. -/
theorem dropReturn_eq_or (line : List Char) :
    dropReturn line = line ∨ line = dropReturn line ++ ['\r'] := by
  unfold dropReturn
  split
  next rest heq =>
    refine .inr ?_
    have hline := congrArg List.reverse heq
    simpa using hline
  next => exact .inl rfl

theorem exists_dropReturn_append {x : Char} (hx : x ≠ '\r') (cs rest : List Char) :
    ∃ rest', dropReturn (cs ++ x :: rest) = cs ++ x :: rest' := by
  rcases dropReturn_eq_or (cs ++ x :: rest) with heq | heq
  · exact ⟨rest, heq⟩
  · -- the return stands after `x`
    obtain ⟨rest', rfl⟩ : ∃ rest', rest = rest' ++ ['\r'] := by
      refine List.getLast?_eq_some_iff.mp ?_
      have hlast := congrArg List.getLast? heq
      cases rest with
      | nil => simp [hx] at hlast
      | cons next others => simpa [List.getLast?_append, List.getLast?_cons_cons] using hlast
    have hall : dropReturn (cs ++ x :: (rest' ++ ['\r'])) ++ ['\r'] = cs ++ x :: rest' ++ ['\r'] := by
      rw [← heq]
      simp
    exact ⟨rest', List.append_cancel_right hall⟩

/-! ## Blank starts -/

/-- Indentation is as wide as it has blanks. -/
theorem blankWidth_replicate {x : Char} (hx : isBlank x = false) (k : Nat) (rest : List Char) :
    blankWidth (List.replicate k ' ' ++ x :: rest) = k := by
  have hblank : isBlank ' ' = true := by decide
  induction k with
  | zero => simp [blankWidth, byteLength, hx]
  | succ k ih =>
    rw [blankWidth] at ih
    rw [List.replicate_succ, List.cons_append, blankWidth, List.takeWhile_cons_of_pos hblank,
      byteLength, List.foldr_cons]
    rw [byteLength] at ih
    rw [ih]
    have hwidth : ' '.utf8Size = 1 := by decide
    omega

/-- A line that is not empty is counted, perhaps without a return at its end. -/
theorem getElem?_linesOfPieces {pieces : List (List Char)} {i : Nat} {piece : List Char}
    (h : pieces[i]? = some piece) (hne : piece ≠ []) :
    (linesOfPieces pieces)[i]? = some piece ∨
      (linesOfPieces pieces)[i]? = some (dropReturn piece) := by
  induction pieces generalizing i with
  | nil => simp at h
  | cons first rest ih =>
    cases rest with
    | nil =>
      cases i with
      | zero =>
        obtain rfl : first = piece := by simpa using h
        exact .inl (by simp [linesOfPieces, hne])
      | succ i => simp at h
    | cons next others =>
      cases i with
      | zero =>
        obtain rfl : first = piece := by simpa using h
        exact .inr rfl
      | succ i => exact ih h

end Text

open Text

/-- The blank start of a line that some blanks and another character start is as wide as these
blanks. -/
theorem PositionMap.getD_blankWidths_of_line {text : String} {i k : Nat} {x : Char}
    {rest : List Char} (hx : isBlank x = false)
    (h : (splitLines text.toList)[i]? = some (List.replicate k ' ' ++ x :: rest)) :
    (blankWidths text).getD i 0 = k := by
  have hreturn : x ≠ '\r' := by
    rintro rfl
    exact absurd hx (by decide)
  have hline : ∃ rest', (lines text)[i]? = some (List.replicate k ' ' ++ x :: rest') := by
    rcases getElem?_linesOfPieces h (by simp) with hsame | hshort
    · exact ⟨rest, hsame⟩
    · obtain ⟨rest', hrest'⟩ := exists_dropReturn_append hreturn (List.replicate k ' ') rest
      exact ⟨rest', by rw [lines, hshort, hrest']⟩
  obtain ⟨rest', hline⟩ := hline
  rw [blankWidths, Array.getD_eq_getD_getElem?, Array.getElem?_map, List.getElem?_toArray, hline]
  exact blankWidth_replicate hx k rest'

namespace Indentation

/-! ## Indentation -/

/-- Indentation neither adds nor drops lines. -/
theorem length_indentLines (level : Nat) (lines : List (List Char)) :
    (indentLines level lines).length = lines.length := by
  induction lines generalizing level with
  | nil => rfl
  | cons line rest ih => rw [indentLines, List.length_cons, ih, List.length_cons]

/-- Each line is trimmed and put at some level. -/
theorem getElem?_indentLines {lines : List (List Char)} {i : Nat} {line : List Char}
    (h : lines[i]? = some line) (level : Nat) :
    ∃ own, (indentLines level lines)[i]? = some (place own (trimChars line)) := by
  induction lines generalizing level i with
  | nil => simp at h
  | cons first rest ih =>
    cases i with
    | zero =>
      obtain rfl : first = line := by simpa using h
      exact ⟨_, rfl⟩
    | succ i => exact ih h _

theorem not_mem_indentLines {lines : List (List Char)} (h : ∀ line ∈ lines, '\n' ∉ line)
    (level : Nat) : ∀ line ∈ indentLines level lines, '\n' ∉ line := by
  induction lines generalizing level with
  | nil => simp [indentLines]
  | cons first rest ih =>
    obtain ⟨hfirst, hrest⟩ := List.forall_mem_cons.mp h
    refine List.forall_mem_cons.mpr ⟨?_, ih hrest _⟩
    rw [place]
    split
    · simp
    · simpa [List.mem_append, List.mem_replicate] using mt mem_of_mem_trimChars hfirst

/-- The lines of indented code are the indented lines. -/
theorem splitLines_indent (code : String) :
    splitLines (indent code).toList = indentLines 0 (splitLines code.toList) := by
  rw [indent, String.toList_ofList]
  refine splitLines_joinLines ?_ (not_mem_indentLines (fun _ => not_mem_of_mem_splitLines) 0)
  obtain ⟨piece, pieces, hpieces⟩ := List.exists_cons_of_ne_nil (splitLines_ne_nil code.toList)
  simp [hpieces, indentLines]

/-- Indented code has as many lines as before. -/
theorem count_indent (code : String) : (indent code).toList.count '\n' = code.toList.count '\n' := by
  have hlength := length_indentLines 0 (splitLines code.toList)
  rw [← splitLines_indent, length_splitLines, length_splitLines] at hlength
  exact Nat.succ.inj hlength

/-- A line stays where it is, with other blanks before it. -/
theorem getElem?_splitLines_indent {code : String} {i : Nat} {x : Char} {rest : List Char}
    (hx : isBlank x = false) (h : (splitLines code.toList)[i]? = some (x :: rest)) :
    ∃ k rest', (splitLines (indent code).toList)[i]? =
      some (List.replicate k ' ' ++ x :: rest') := by
  obtain ⟨own, hown⟩ := getElem?_indentLines h 0
  rw [splitLines_indent, hown, trimChars_cons hx]
  exact ⟨2 * own, _, rfl⟩

end Indentation

end AbapLowering
