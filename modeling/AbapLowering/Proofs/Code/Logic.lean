import AbapLowering.Code

/-!
# The grammar of logical code

Code for conditions is made of a few lexemes, among them calls that are not looked into. What such
code means is fixed by the strength of its operators: `!` binds stronger than `===`, this stronger
than `&&`, this stronger than `||`, and a comma binds weakest. Main facts: code is read in one way
only, as lexemes (`Lexeme.eq_of_code_eq`) and as an expression (`Derives.unique`).
-/

namespace AbapLowering

namespace Logic

/-! ## Expressions -/

/-- Operators between two operands, from the weakest. -/
inductive Operator where
  | comma
  | or
  | and
  | same
  deriving DecidableEq

namespace Operator

/-- How strong an operator binds. -/
def strength : Operator → Nat
  | comma => 0
  | or => 1
  | and => 2
  | same => 3

/-- What an operator makes of two truth values. -/
def apply : Operator → Bool → Bool → Bool
  | comma, _, b => b
  | or, a, b => a || b
  | and, a, b => a && b
  | same, a, b => a == b

/-- Operators differ in strength. -/
theorem strength_injective {o p : Operator} (h : o.strength = p.strength) : o = p := by
  cases o <;> cases p <;> simp_all [strength]

/-- Every operator is weaker than a negation. -/
theorem strength_lt (o : Operator) : o.strength < 4 := by cases o <;> decide

/-- Every operator is associative. -/
theorem apply_assoc (o : Operator) (a b c : Bool) :
    o.apply (o.apply a b) c = o.apply a (o.apply b c) := by
  cases o <;> cases a <;> cases b <;> cases c <;> rfl

end Operator

/-- A part of code that is not looked into. -/
inductive Atom where
  /-- The call of a check, and its number among all checks. -/
  | check (call : String) (number : Nat)
  /-- A function that runs some lines, called on the spot. -/
  | block (lines : List String)
  deriving DecidableEq

/-- The code of an atom. -/
def Atom.text : Atom → String
  | check call _ => call
  | block lines => "(() => \x7b " ++ " ".intercalate lines ++ " \x7d)()"

/-- Expressions; parentheses leave no trace. -/
inductive Expr where
  | atom (a : Atom)
  | falsity
  | no (inner : Expr)
  | binary (o : Operator) (left right : Expr)

/-- The truth value of an expression under truth values for the checks. A block has no result, which
counts as false. -/
def Expr.value (ρ : Nat → Bool) : Expr → Bool
  | atom (.check _ number) => ρ number
  | atom (.block _) => false
  | falsity => false
  | no inner => !inner.value ρ
  | binary o left right => o.apply (left.value ρ) (right.value ρ)

/-! ## Lexemes -/

/-- What logical code is made of. -/
inductive Lexeme where
  | atom (a : Atom)
  | falsity
  | no
  | operator (o : Operator)
  | opened
  | closed
  deriving DecidableEq

namespace Lexeme

/-- The code of a lexeme. -/
def text : Lexeme → String
  | atom a => a.text
  | falsity => "false"
  | no => "!"
  | operator .comma => ", "
  | operator .or => " || "
  | operator .and => " && "
  | operator .same => " === "
  | opened => "("
  | closed => ")"

/-- The code of some lexemes. -/
def code (ts : List Lexeme) : String := String.join (ts.map text)

/-- The atoms among some lexemes. -/
def atoms (ts : List Lexeme) : List Atom :=
  ts.filterMap fun
    | atom a => some a
    | _ => none

@[simp] theorem code_nil : code [] = "" := rfl

@[simp] theorem code_cons (t : Lexeme) (ts : List Lexeme) : code (t :: ts) = t.text ++ code ts := by
  simp [code, String.join_cons]

/-- The code of lexemes behind others. -/
@[simp] theorem code_append (ts us : List Lexeme) : code (ts ++ us) = code ts ++ code us := by
  simp [code, String.join_append]

@[simp] theorem atoms_nil : atoms [] = [] := rfl

@[simp] theorem atoms_atom (a : Atom) (ts : List Lexeme) :
    atoms (.atom a :: ts) = a :: atoms ts := rfl

@[simp] theorem atoms_falsity (ts : List Lexeme) : atoms (.falsity :: ts) = atoms ts := rfl

@[simp] theorem atoms_no (ts : List Lexeme) : atoms (.no :: ts) = atoms ts := rfl

@[simp] theorem atoms_operator (o : Operator) (ts : List Lexeme) :
    atoms (.operator o :: ts) = atoms ts := rfl

@[simp] theorem atoms_opened (ts : List Lexeme) : atoms (.opened :: ts) = atoms ts := rfl

@[simp] theorem atoms_closed (ts : List Lexeme) : atoms (.closed :: ts) = atoms ts := rfl

@[simp] theorem atoms_append (ts us : List Lexeme) : atoms (ts ++ us) = atoms ts ++ atoms us :=
  List.filterMap_append

/-! ### Reading lexemes -/

/-- Calls start like all calls of checks do. -/
def CallsStart (atoms : List Atom) : Prop :=
  ∀ call number, .check call number ∈ atoms → call.toList.head? = some 'a'

/-- The first character of a lexeme. -/
def initial : Lexeme → Char
  | atom (.check _ _) => 'a'
  | atom (.block _) => '('
  | falsity => 'f'
  | no => '!'
  | operator .comma => ','
  | operator _ => ' '
  | opened => '('
  | closed => ')'

/-- No lexeme is empty, and its first character is known. -/
theorem exists_text_eq_cons {t : Lexeme} (hstart : CallsStart (atoms [t])) :
    ∃ rest, t.text.toList = t.initial :: rest := by
  cases t with
  | atom a =>
    cases a with
    | check call number => exact List.head?_eq_some_iff.mp (hstart call number (by simp))
    | block lines => exact ⟨_, by simp [text, Atom.text, initial]; rfl⟩
  | operator o => cases o <;> exact ⟨_, rfl⟩
  | falsity | no | opened | closed => exact ⟨_, rfl⟩

theorem CallsStart.head {t : Lexeme} {ts : List Lexeme} (h : CallsStart (atoms (t :: ts))) :
    CallsStart (atoms [t]) := by
  intro call number hmem
  refine h call number ?_
  have hsplit : atoms (t :: ts) = atoms [t] ++ atoms ts := atoms_append [t] ts
  rw [hsplit]
  exact List.mem_append_left _ hmem

theorem CallsStart.tail {t : Lexeme} {ts : List Lexeme} (h : CallsStart (atoms (t :: ts))) :
    CallsStart (atoms ts) := by
  intro call number hmem
  refine h call number ?_
  have hsplit : atoms (t :: ts) = atoms [t] ++ atoms ts := atoms_append [t] ts
  rw [hsplit]
  exact List.mem_append_right _ hmem

/-- The characters of code are those of its first lexeme and of the rest. -/
theorem toList_code_cons (t : Lexeme) (ts : List Lexeme) :
    (code (t :: ts)).toList = t.text.toList ++ (code ts).toList := by simp

/-- The first character of code is that of its first lexeme. -/
theorem exists_of_code_eq_cons {ts : List Lexeme} (hstart : CallsStart (atoms ts)) {c : Char}
    {x : List Char} (h : (code ts).toList = c :: x) :
    ∃ t us, ts = t :: us ∧ t.initial = c ∧ t.text.toList ++ (code us).toList = c :: x := by
  cases ts with
  | nil => simp at h
  | cons t us =>
    obtain ⟨rest, hrest⟩ := exists_text_eq_cons hstart.head
    rw [toList_code_cons] at h
    refine ⟨t, us, rfl, ?_, h⟩
    rw [hrest] at h
    exact (List.cons.inj h).1

/-- Only the closing parenthesis begins with one. -/
theorem eq_closed_of_initial {t : Lexeme} (h : t.initial = ')') : t = closed := by
  unfold initial at h
  split at h <;> simp_all

/-- Only operators between operands begin with a blank. -/
theorem exists_operator_of_initial {t : Lexeme} (h : t.initial = ' ') : ∃ o, t = operator o := by
  unfold initial at h
  split at h <;> simp_all

/-- Only the opening parenthesis begins with one, but for functions that are called on the spot. -/
theorem eq_opened_of_initial {t : Lexeme} (h : t.initial = '(') (hatom : ∀ a, t ≠ atom a) :
    t = opened := by
  unfold initial at h
  split at h <;> simp_all

/-- A pair of parentheses is not followed by an arrow. -/
theorem code_ne_arrow {ts : List Lexeme} (hstart : CallsStart (atoms ts)) (x : List Char) :
    (code ts).toList ≠ '(' :: ')' :: ' ' :: '=' :: '>' :: x := by
  intro h
  obtain ⟨t, us, rfl, ht, h⟩ := exists_of_code_eq_cons hstart h
  obtain rfl : t = opened := by
    refine eq_opened_of_initial ht ?_
    rintro (⟨_, _⟩ | ⟨_⟩) rfl
    · simp [initial] at ht
    · simp [text, Atom.text] at h
  have hclosed : (code us).toList = ')' :: ' ' :: '=' :: '>' :: x := by simpa [text] using h
  obtain ⟨t, us, rfl, ht, h⟩ := exists_of_code_eq_cons hstart.tail hclosed
  obtain rfl := eq_closed_of_initial ht
  have harrow : (code us).toList = ' ' :: '=' :: '>' :: x := by simpa [text] using h
  obtain ⟨t, us, rfl, ht, h⟩ := exists_of_code_eq_cons hstart.tail.tail harrow
  obtain ⟨o, rfl⟩ := exists_operator_of_initial ht
  cases o <;> simp [text] at h

/-- An atom is not read as a lexeme of another kind. -/
theorem code_atom_ne {a : Atom} {t : Lexeme} {ts us : List Lexeme} (ht : ∀ b, t ≠ atom b)
    (ha : CallsStart [a]) (hstart : CallsStart (atoms (t :: ts))) :
    code (.atom a :: us) ≠ code (t :: ts) := by
  intro h
  have h := congrArg String.toList h
  obtain ⟨rest, hrest⟩ := exists_text_eq_cons hstart.head
  obtain ⟨rest', hrest'⟩ := exists_text_eq_cons (t := .atom a) ha
  have hinitial : t.initial = (atom a).initial := by
    rw [toList_code_cons, toList_code_cons, hrest, hrest'] at h
    exact (List.cons.inj h).1.symm
  cases a with
  | check =>
    unfold initial at hinitial
    split at hinitial <;> simp_all
  | block lines =>
    obtain rfl := eq_opened_of_initial hinitial ht
    refine code_ne_arrow hstart.tail
      (" \x7b ".toList ++ ((" ".intercalate lines) ++ " \x7d)()").toList
      ++ (code us).toList) ?_
    rw [toList_code_cons, toList_code_cons] at h
    simpa [text, Atom.text] using h.symm

/-- Lexemes that are no atoms are read apart. -/
theorem eq_of_append_eq {t u : Lexeme} {x y : List Char} (ht : ∀ a, t ≠ atom a)
    (hu : ∀ a, u ≠ atom a) (h : t.text.toList ++ x = u.text.toList ++ y) : t = u := by
  cases t with
  | atom a => exact absurd rfl (ht a)
  | operator o =>
    cases u with
    | atom a => exact absurd rfl (hu a)
    | operator p => cases o <;> cases p <;> simp_all [text]
    | falsity | no | opened | closed => cases o <;> simp [text] at h
  | falsity | no | opened | closed =>
    cases u with
    | atom a => exact absurd rfl (hu a)
    | operator p => cases p <;> simp [text] at h
    | falsity | no | opened | closed => simp_all [text]

/-- Code is read as lexemes in one way only, given its atoms. -/
theorem eq_of_code_eq {ts us : List Lexeme} (hatoms : atoms ts = atoms us)
    (hstart : CallsStart (atoms ts)) (hcode : code ts = code us) : ts = us := by
  induction ts generalizing us with
  | nil =>
    cases us with
    | nil => rfl
    | cons u us =>
      have hstart' : CallsStart (atoms (u :: us)) := hatoms ▸ hstart
      obtain ⟨rest, hrest⟩ := exists_text_eq_cons hstart'.head
      have hcode := congrArg String.toList hcode
      rw [toList_code_cons, hrest] at hcode
      simp at hcode
  | cons t ts ih =>
    cases us with
    | nil =>
      obtain ⟨rest, hrest⟩ := exists_text_eq_cons hstart.head
      have hcode := congrArg String.toList hcode
      rw [toList_code_cons, hrest] at hcode
      simp at hcode
    | cons u us =>
      have hstart' : CallsStart (atoms (u :: us)) := hatoms ▸ hstart
      -- both lexemes are the same, and so is what follows
      have heq : t = u := by
        by_cases ht : ∃ a, t = atom a
        · obtain ⟨a, rfl⟩ := ht
          by_cases hu : ∃ b, u = atom b
          · obtain ⟨b, rfl⟩ := hu
            rw [(List.cons.inj hatoms).1]
          · exact absurd hcode (code_atom_ne (not_exists.mp hu) hstart.head hstart')
        · by_cases hu : ∃ b, u = atom b
          · obtain ⟨b, rfl⟩ := hu
            exact absurd hcode.symm (code_atom_ne (not_exists.mp ht) hstart'.head hstart)
          · have hchars : t.text.toList ++ (code ts).toList = u.text.toList ++ (code us).toList := by
              rw [← toList_code_cons, ← toList_code_cons, hcode]
            exact eq_of_append_eq (not_exists.mp ht) (not_exists.mp hu) hchars
      subst heq
      have hrest : code ts = code us := by simpa using hcode
      have hrestAtoms : atoms ts = atoms us := by
        have hsplit : atoms [t] ++ atoms ts = atoms [t] ++ atoms us := by
          rw [← atoms_append, ← atoms_append]
          exact hatoms
        exact List.append_cancel_left hsplit
      rw [ih hrestAtoms hstart.tail hrest]

end Lexeme

/-! ## Grammar -/

/-- Expressions by the strength of their weakest operator: what binds with strength 4 may be negated,
and what binds with strength 5 stands on its own. -/
inductive Derives : Nat → List Lexeme → Expr → Prop where
  | atom (a : Atom) : Derives 5 [.atom a] (.atom a)
  | falsity : Derives 5 [.falsity] .falsity
  | parens {ts e} : Derives 0 ts e → Derives 5 (.opened :: ts ++ [.closed]) e
  | no {ts e} : Derives 4 ts e → Derives 4 (.no :: ts) (.no e)
  | binary {ts us a b} (o : Operator) : Derives o.strength ts a → Derives (o.strength + 1) us b →
      Derives o.strength (ts ++ .operator o :: us) (.binary o a b)
  | weaken {n ts e} : Derives (n + 1) ts e → Derives n ts e

/-- An expression can be read where a weaker one could stand. -/
theorem Derives.mono {n m : Nat} {ts : List Lexeme} {e : Expr} (h : Derives m ts e) (hle : n ≤ m) :
    Derives n ts e := by
  induction hle with
  | refl => exact h
  | step _ ih => exact ih h.weaken

/-! ## Reading from left to right -/

namespace Reader

/-- Complete the operators at hand that bind at least as strong. -/
def reduce (n : Nat) : List (Expr × Operator) → Expr → List (Expr × Operator) × Expr
  | [], e => ([], e)
  | (left, o) :: pending, e =>
    if n ≤ o.strength then reduce n pending (.binary o left e) else ((left, o) :: pending, e)

/-- What is open inside one pair of parentheses: operators with their left operands, the last first,
and the negations read since. -/
structure Frame where
  pending : List (Expr × Operator)
  negations : Nat

/-- What was read so far: the frames around, the frame at hand, and the operand that ends it. -/
structure State where
  outer : List Frame
  inner : Frame
  operand : Option Expr

/-- Negate a number of times. -/
def negate (e : Expr) : Nat → Expr
  | 0 => e
  | k + 1 => .no (negate e k)

/-- Negations are counted from either end. -/
theorem negate_no (e : Expr) (k : Nat) : negate (.no e) k = negate e (k + 1) := by
  induction k with
  | zero => rfl
  | succ k ih => rw [negate, ih]; rfl

/-- An operand is complete. -/
def State.complete (outer : List Frame) (inner : Frame) (e : Expr) : State :=
  ⟨outer, ⟨inner.pending, 0⟩, some (negate e inner.negations)⟩

/-- Read one lexeme. -/
def step (s : State) : Lexeme → Option State
  | .atom a => if s.operand.isNone then some (.complete s.outer s.inner (.atom a)) else none
  | .falsity => if s.operand.isNone then some (.complete s.outer s.inner .falsity) else none
  | .no =>
    if s.operand.isNone then some ⟨s.outer, ⟨s.inner.pending, s.inner.negations + 1⟩, none⟩ else none
  | .opened => if s.operand.isNone then some ⟨s.inner :: s.outer, ⟨[], 0⟩, none⟩ else none
  | .operator o => s.operand.map fun e =>
    let (pending, left) := reduce o.strength s.inner.pending e
    ⟨s.outer, ⟨(left, o) :: pending, 0⟩, none⟩
  | .closed =>
    match s.operand, s.outer with
    | some e, frame :: outer => some (.complete outer frame (reduce 0 s.inner.pending e).2)
    | _, _ => none

/-- The expression that some lexemes make. -/
def parse? (ts : List Lexeme) : Option Expr :=
  match ts.foldlM step ⟨[], ⟨[], 0⟩, none⟩ with
  | some ⟨[], inner, some e⟩ => some (reduce 0 inner.pending e).2
  | _ => none

/-- To reduce by more and then by less strength is to reduce by the lesser at once. -/
theorem reduce_reduce {n m : Nat} (h : n ≤ m) (pending : List (Expr × Operator)) (e : Expr) :
    reduce n (reduce m pending e).1 (reduce m pending e).2 = reduce n pending e := by
  induction pending generalizing e with
  | nil => rfl
  | cons entry pending ih =>
    obtain ⟨left, o⟩ := entry
    by_cases hm : m ≤ o.strength
    · have hn : n ≤ o.strength := Nat.le_trans h hm
      simp only [reduce, hm, hn, if_true, ih]
    · simp only [reduce, hm, if_false]

/-- All operators at hand bind weaker. -/
def Weaker (n : Nat) (pending : List (Expr × Operator)) : Prop :=
  ∀ entry ∈ pending, entry.2.strength < n

/-- Operators that are all weaker are left waiting. -/
theorem reduce_of_weaker {n : Nat} {pending : List (Expr × Operator)} (h : Weaker n pending)
    (e : Expr) : reduce n pending e = (pending, e) := by
  cases pending with
  | nil => rfl
  | cons entry pending =>
    have hentry := h entry List.mem_cons_self
    rw [reduce, if_neg (by omega)]

/-- After the code of an expression its value waits to be completed by weaker operators only. -/
theorem foldlM_step {n : Nat} {ts : List Lexeme} {e : Expr} (h : Derives n ts e)
    (outer : List Frame) (inner : Frame) (hweaker : Weaker n inner.pending)
    (hnegations : n < 4 → inner.negations = 0) :
    ∃ pending u, ts.foldlM step ⟨outer, inner, none⟩ = some ⟨outer, ⟨pending, 0⟩, some u⟩ ∧
      reduce n pending u = (inner.pending, negate e inner.negations) := by
  induction h generalizing outer inner with
  | atom a => exact ⟨inner.pending, _, rfl, reduce_of_weaker hweaker _⟩
  | falsity => exact ⟨inner.pending, _, rfl, reduce_of_weaker hweaker _⟩
  -- a frame is opened, and the closing parenthesis completes it
  | @parens ts e _ ih =>
    obtain ⟨pending, u, hrun, hreduce⟩ :=
      ih (inner :: outer) ⟨[], 0⟩ (by simp [Weaker]) fun _ => rfl
    refine ⟨inner.pending, negate e inner.negations, ?_, reduce_of_weaker hweaker _⟩
    rw [List.cons_append, List.foldlM_cons]
    change (ts ++ [Lexeme.closed]).foldlM step ⟨inner :: outer, ⟨[], 0⟩, none⟩ = _
    rw [List.foldlM_append, hrun]
    simp [step, hreduce, State.complete, negate]
  -- counted until its operand is complete
  | @no ts e _ ih =>
    obtain ⟨pending, u, hrun, hreduce⟩ :=
      ih outer ⟨inner.pending, inner.negations + 1⟩ hweaker fun h => absurd h (by omega)
    exact ⟨pending, u, hrun, by rw [hreduce, negate_no]⟩
  -- the left operand is reduced before the operator is pushed, the right one stands above it
  | @binary ts us a b o _ _ ihleft ihright =>
    have hzero := hnegations o.strength_lt
    obtain ⟨pending, u, hrun, hreduce⟩ := ihleft outer inner hweaker hnegations
    have hpending : Weaker (o.strength + 1) ((a, o) :: inner.pending) := by
      refine List.forall_mem_cons.mpr ⟨Nat.lt_succ_self _, fun entry hentry => ?_⟩
      exact Nat.lt_succ_of_lt (hweaker entry hentry)
    obtain ⟨pending', u', hrun', hreduce'⟩ :=
      ihright outer ⟨(a, o) :: inner.pending, 0⟩ hpending fun _ => rfl
    refine ⟨pending', u', ?_, ?_⟩
    · rw [List.foldlM_append, hrun, Option.bind_eq_bind, Option.bind_some, List.foldlM_cons]
      simp only [step, Option.map_some, hreduce, hzero, negate, Option.bind_eq_bind,
        Option.bind_some, hrun']
    · rw [← reduce_reduce (Nat.le_succ _), hreduce', reduce, if_pos (Nat.le_refl _),
        reduce_of_weaker hweaker, hzero]
      rfl
  | @weaken n ts e _ ih =>
    have hstronger : Weaker (n + 1) inner.pending := fun entry hentry =>
      Nat.lt_succ_of_lt (hweaker entry hentry)
    obtain ⟨pending, u, hrun, hreduce⟩ := ih outer inner hstronger fun h => hnegations (by omega)
    refine ⟨pending, u, hrun, ?_⟩
    rw [← reduce_reduce (Nat.le_succ n), hreduce, reduce_of_weaker hweaker]

/-- The parser finds each expression that can be derived. -/
theorem parse?_of_derives {ts : List Lexeme} {e : Expr} (h : Derives 0 ts e) : parse? ts = some e := by
  obtain ⟨pending, u, hrun, hreduce⟩ := foldlM_step h [] ⟨[], 0⟩ (by simp [Weaker]) fun _ => rfl
  simp [parse?, hrun, hreduce, negate]

end Reader

/-- Lexemes make one expression at most. -/
theorem Derives.unique {ts : List Lexeme} {e e' : Expr} (h : Derives 0 ts e)
    (h' : Derives 0 ts e') :
    e = e' :=
  Option.some.inj ((Reader.parse?_of_derives h).symm.trans (Reader.parse?_of_derives h'))

/-! ## Values -/

/-- Some lexemes have a value that depends on the checks. -/
def Means (n : Nat) (ts : List Lexeme) (value : (Nat → Bool) → Bool) : Prop :=
  ∃ e, Derives n ts e ∧ ∀ ρ, e.value ρ = value ρ

namespace Means

variable {n m : Nat} {ts us : List Lexeme} {v w : (Nat → Bool) → Bool}

/-- Code has its value also where a weaker expression could stand. -/
theorem mono (h : Means m ts v) (hle : n ≤ m) : Means n ts v := by
  obtain ⟨e, he, hvalue⟩ := h
  exact ⟨e, he.mono hle, hvalue⟩

/-- The call of a check has the value of the check. -/
theorem check (call : String) (number : Nat) :
    Means 5 [.atom (.check call number)] fun ρ => ρ number :=
  ⟨_, .atom _, fun _ => rfl⟩

/-- Parentheses keep the value. -/
theorem parens (h : Means 0 ts v) : Means 5 (.opened :: ts ++ [.closed]) v := by
  obtain ⟨e, he, hvalue⟩ := h
  exact ⟨e, he.parens, hvalue⟩

/-- A negation has the opposite value. -/
theorem no (h : Means 4 ts v) : Means 4 (.no :: ts) fun ρ => !v ρ := by
  obtain ⟨e, he, hvalue⟩ := h
  exact ⟨_, he.no, fun ρ => by rw [Expr.value, hvalue]⟩

/-- Comparing with false negates. -/
theorem refuted (h : Means 4 ts v) :
    Means 3 (ts ++ [.operator .same, .falsity]) fun ρ => !v ρ := by
  obtain ⟨e, he, hvalue⟩ := h
  refine ⟨.binary .same e .falsity, .binary .same he.weaken Derives.falsity.weaken, fun ρ => ?_⟩
  simp only [Expr.value, hvalue, Operator.apply]
  cases v ρ <;> rfl

/-- Operands of one operator can be put together from both sides, since it is associative. -/
theorem append (o : Operator) (h : Means o.strength ts v) (h' : Means o.strength us w) :
    Means o.strength (ts ++ .operator o :: us) fun ρ => o.apply (v ρ) (w ρ) := by
  obtain ⟨e, he, hvalue⟩ := h
  obtain ⟨e', he', hvalue'⟩ := h'
  suffices ∃ whole, Derives o.strength (ts ++ .operator o :: us) whole ∧
      ∀ ρ, whole.value ρ = o.apply (e.value ρ) (e'.value ρ) by
    obtain ⟨whole, hwhole, hvalues⟩ := this
    exact ⟨whole, hwhole, fun ρ => by rw [hvalues, hvalue, hvalue']⟩
  clear hvalue hvalue'
  generalize hn : o.strength = n at he he'
  induction he' with
  | atom | falsity | parens | no => exact absurd hn (by have := o.strength_lt; omega)
  | @binary ts' us' a b o' ha hb iha _ =>
    obtain rfl := Operator.strength_injective hn
    obtain ⟨whole, hwhole, hvalues⟩ := iha rfl he
    refine ⟨.binary o whole b, ?_, fun ρ => ?_⟩
    · simpa using Derives.binary o hwhole hb
    · simp only [Expr.value, hvalues, Operator.apply_assoc]
  | weaken hstronger =>
    subst hn
    exact ⟨_, .binary o he hstronger, fun _ => rfl⟩

end Means

/-! ## Reading code -/

/-- Code with these atoms in it, in their order, makes an expression. -/
def Reads (atoms : List Atom) (code : String) (e : Expr) : Prop :=
  ∃ ts, Lexeme.atoms ts = atoms ∧ Lexeme.code ts = code ∧ Derives 0 ts e

/-- Code with these atoms in it makes just one expression, which has this value. -/
def HasValue (atoms : List Atom) (code : String) (value : (Nat → Bool) → Bool) : Prop :=
  ∃ e, (∀ e', Reads atoms code e' ↔ e' = e) ∧ ∀ ρ, e.value ρ = value ρ

/-- Code that means a value has it by the only way to read it. -/
theorem Means.hasValue {ts : List Lexeme} {v : (Nat → Bool) → Bool} (h : Means 0 ts v)
    (hstart : Lexeme.CallsStart (Lexeme.atoms ts)) :
    HasValue (Lexeme.atoms ts) (Lexeme.code ts) v := by
  obtain ⟨e, he, hvalue⟩ := h
  refine ⟨e, fun e' => ⟨?_, ?_⟩, hvalue⟩
  · rintro ⟨us, hatoms, hcode, he'⟩
    obtain rfl := Lexeme.eq_of_code_eq hatoms (hatoms ▸ hstart) hcode
    exact he'.unique he
  · rintro rfl
    exact ⟨ts, rfl, rfl, he⟩

end Logic

end AbapLowering
