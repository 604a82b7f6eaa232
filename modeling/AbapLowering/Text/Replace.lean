/-!
# Replacing characters and doubled quotes

The few substitutions that names and literals need: one character by a text, and a doubled quote by
the quote itself, read from left to right without overlap.
-/

namespace AbapLowering.Text

/-- Write `replacement` for every `c`. -/
def replaceChar (c : Char) (replacement : List Char) (cs : List Char) : List Char :=
  cs.flatMap fun d => if d = c then replacement else [d]

/-- Write a doubled `q` once; pairs are taken from left to right. -/
def collapseDoubled (q : Char) : List Char → List Char
  | c :: d :: rest =>
    if c = q ∧ d = q then q :: collapseDoubled q rest
    else c :: collapseDoubled q (d :: rest)
  | cs => cs

/-- What follows `start` in a text that begins with it. -/
def afterStart? : List Char → List Char → Option (List Char)
  | [], cs => some cs
  | s :: start, c :: cs => if s = c then afterStart? start cs else none
  | _ :: _, [] => none

/-- What comes before `tail` in a text that ends with it. -/
def beforeEnd? (tail cs : List Char) : Option (List Char) :=
  (afterStart? tail.reverse cs.reverse).map List.reverse

/-- What is left behind a start was preceded by it. -/
theorem eq_append_of_afterStart? {start cs rest : List Char}
    (h : afterStart? start cs = some rest) : cs = start ++ rest := by
  fun_induction afterStart? start cs with
  | case1 cs => exact Option.some.inj h
  | case2 s start cs ih => rw [ih h, List.cons_append]
  | case3 => cases h
  | case4 => cases h

/-- A start can be taken away. -/
theorem afterStart?_append (start rest : List Char) :
    afterStart? start (start ++ rest) = some rest := by
  induction start with
  | nil => rfl
  | cons s start ih => rwa [List.cons_append, afterStart?, if_pos rfl]

theorem beforeEnd?_append (stem tail : List Char) : beforeEnd? tail (stem ++ tail) = some stem := by
  rw [beforeEnd?, List.reverse_append, afterStart?_append, Option.map_some, List.reverse_reverse]

/-- What is left before an end was followed by it. -/
theorem beforeEnd?_eq_some_iff {tail cs stem : List Char} :
    beforeEnd? tail cs = some stem ↔ cs = stem ++ tail := by
  constructor
  · intro h
    obtain ⟨back, hback, rfl⟩ := Option.map_eq_some_iff.mp h
    simpa using congrArg List.reverse (eq_append_of_afterStart? hback)
  · rintro rfl
    exact beforeEnd?_append stem tail

end AbapLowering.Text
