import AbapLowering.Proofs.Code.Script
import Mathlib.Data.List.Basic
import Mathlib.Data.List.Induction

/-!
# The words of code

What stands outside of the texts of emitted code falls into words. Main facts:

- `Script.words`: the words of some code;
- whether `await` is among them is told piece by piece (`Awaiting`): pieces between which there is a
  character that belongs to no word have no more words together than each of them
  (`mem_wordsOf_append`).
-/

namespace AbapLowering

namespace Script

open Reading

/-- What words are made of. -/
def isWordChar (c : Char) : Bool := c.isAlphanum || c == '_' || c == '$'

/-- Characters as the reader finds them, with a blank in place of each that belongs to a text. -/
def Reading.outside (r : Reading) : List Char → List Char
  | [] => []
  | c :: rest =>
    (if r.mode = .code then c else ' ') :: match r.step c with
      | some next => next.outside rest
      | none => []

/-- The parts between characters that belong to no word. -/
def wordsOf (cs : List Char) : List (List Char) := cs.splitOnP (!isWordChar ·)

/-- The words of some code, outside of its texts; what is substituted in a template is code. -/
def words (s : String) : List String := (wordsOf (start.outside s.toList)).map String.ofList

/-- Whether code has the word `await` in it. -/
def HasAwait (s : String) : Prop := "await" ∈ words s

instance (s : String) : Decidable (HasAwait s) := inferInstanceAs (Decidable (_ ∈ _))

/-! ## Words of characters -/

section

variable {w cs ds : List Char}

/-- Word characters alone are one word. -/
theorem wordsOf_of_word (h : ∀ c ∈ cs, isWordChar c = true) : wordsOf cs = [cs] :=
  List.splitOnP_eq_singleton fun c hc => by rw [h c hc, Bool.not_true]

/-- A character that belongs to no word parts the words. -/
theorem wordsOf_append_cons (cs ds : List Char) {c : Char} (hc : isWordChar c = false) :
    wordsOf (cs ++ c :: ds) = wordsOf cs ++ wordsOf ds :=
  List.splitOnP_append_cons cs ds (by rw [hc, Bool.not_false])

/-- No word goes on from some characters to others. -/
def Apart (cs ds : List Char) : Prop :=
  (∀ c ∈ cs.getLast?, isWordChar c = false) ∨ ∀ c ∈ ds.head?, isWordChar c = false

/-- Where pieces are apart, they have just the words of each. -/
theorem mem_wordsOf_append (hw : w ≠ []) (h : Apart cs ds) :
    w ∈ wordsOf (cs ++ ds) ↔ w ∈ wordsOf cs ∨ w ∈ wordsOf ds := by
  have hnil : w ∉ wordsOf [] := by simpa [wordsOf] using hw
  rcases h with hlast | hhead
  · cases cs using List.reverseRecOn with
    | nil => simp [hnil]
    | append_singleton before c =>
      have hc : isWordChar c = false := hlast c (by simp)
      have hbefore : wordsOf (before ++ [c]) = wordsOf before ++ wordsOf [] :=
        wordsOf_append_cons before [] hc
      rw [List.append_assoc, List.singleton_append, wordsOf_append_cons before ds hc, hbefore]
      simp [hnil]
  · cases ds with
    | nil => simp [hnil]
    | cons c after =>
      have hc : isWordChar c = false := hhead c rfl
      have hafter : wordsOf (c :: after) = wordsOf [] ++ wordsOf after :=
        wordsOf_append_cons [] after hc
      rw [wordsOf_append_cons cs after hc, hafter]
      simp [hnil]

/-- There are no words in blanks. -/
theorem not_mem_wordsOf_blanks (hw : w ≠ []) (n : Nat) : w ∉ wordsOf (List.replicate n ' ') := by
  induction n with
  | zero => simpa [wordsOf] using hw
  | succ n ih =>
    have hsplit : wordsOf (' ' :: List.replicate n ' ') =
        wordsOf [] ++ wordsOf (List.replicate n ' ') := wordsOf_append_cons [] _ rfl
    rw [List.replicate_succ, hsplit, List.mem_append, not_or]
    exact ⟨by simpa [wordsOf] using hw, ih⟩

end

/-! ## What the reader finds -/

/-- From `r` the reader finds the code `cs` in a piece, and comes to `r'`. -/
structure Shows (r : Reading) (s : String) (cs : List Char) (r' : Reading) : Prop where
  read : r.read s.toList = some r'
  outside : r.outside s.toList = cs

/-- What stands outside of texts is found piece by piece. -/
theorem outside_append_of {r r' : Reading} {cs : List Char} (h : r.read cs = some r')
    (ds : List Char) : r.outside (cs ++ ds) = r.outside cs ++ r'.outside ds := by
  induction cs generalizing r with
  | nil =>
    cases h
    rfl
  | cons c rest ih =>
    obtain ⟨next, hnext, hrest⟩ := Option.bind_eq_some_iff.mp h
    simp only [List.cons_append, Reading.outside, hnext, ih hrest]

/-- Pieces behind each other show what both show. -/
theorem Shows.append {r r' r'' : Reading} {s t : String} {cs ds : List Char} (h : Shows r s cs r')
    (h' : Shows r' t ds r'') : Shows r (s ++ t) (cs ++ ds) r'' where
  read := by rw [String.toList_append, read_append_of h.read, h'.read]
  outside := by rw [String.toList_append, outside_append_of h.read, h.outside, h'.outside]

/-- Characters that neither begin a text nor open or close anything. -/
def isPlain (c : Char) : Bool :=
  c != '\x7b' && c != '\x7d' && c != '\x27' && c != '\x22' && c != '\x60' && c != '/'

/-- A plain character leads from code to code. -/
theorem step_of_isPlain {c : Char} (h : isPlain c = true) (opened : List Bracket) :
    step ⟨.code, opened⟩ c = some ⟨.code, opened⟩ := by
  simp only [isPlain, Bool.and_eq_true, bne_iff_ne, ne_eq] at h
  obtain ⟨⟨⟨⟨⟨hopen, hclose⟩, hsingle⟩, hdouble⟩, hback⟩, hslash⟩ := h
  rw [step, if_neg hopen, if_neg hclose, modeInCode, if_neg hsingle, if_neg hdouble, if_neg hback,
    if_neg hslash]
  rfl

/-- Plain code shows itself. -/
theorem Shows.plain {s : String} (h : s.toList.all isPlain = true) (opened : List Bracket) :
    Shows ⟨.code, opened⟩ s s.toList ⟨.code, opened⟩ := by
  have hall : ∀ cs : List Char, cs.all isPlain = true →
      Reading.read ⟨.code, opened⟩ cs = some ⟨.code, opened⟩ ∧
        Reading.outside ⟨.code, opened⟩ cs = cs := by
    intro cs hcs
    induction cs with
    | nil => exact ⟨rfl, rfl⟩
    | cons c rest ih =>
      rw [List.all_cons, Bool.and_eq_true] at hcs
      have hstep := step_of_isPlain hcs.1 opened
      obtain ⟨hread, houtside⟩ := ih hcs.2
      simp only [Reading.read, Reading.outside, hstep, Option.bind_some, hread, houtside, if_true,
        and_self]
  exact ⟨(hall _ h).1, (hall _ h).2⟩

/-- What stays within a text is no code. -/
theorem Shows.within {m m' : Mode} {s : String} (h : m.within? s.toList = some m')
    (opened : List Bracket) :
    Shows ⟨m, opened⟩ s (List.replicate s.toList.length ' ') ⟨m', opened⟩ := by
  refine ⟨read_of_within? h, ?_⟩
  generalize s.toList = cs at h
  induction cs generalizing m with
  | nil => rfl
  | cons c rest ih =>
    obtain ⟨next, hnext, hrest⟩ := Option.bind_eq_some_iff.mp h
    have hmode : m ≠ .code := by
      rintro rfl
      cases hnext
    simp only [Reading.outside, step_of_next? hnext, if_neg hmode, ih hrest, List.length_cons,
      List.replicate_succ]

/-! ## Pieces that await -/

/-- What is looked for. -/
def awaitWord : List Char := "await".toList

theorem awaitWord_ne_nil : awaitWord ≠ [] := by decide

/-- A piece of code that has the word `await` in it iff `b` says so. It opens nothing that it does
not close, and closes nothing else. -/
def Awaiting (b : Bool) (s : String) : Prop :=
  ∀ opened, ∃ cs, Shows ⟨.code, opened⟩ s cs ⟨.code, opened⟩ ∧ (awaitWord ∈ wordsOf cs ↔ b = true)

/-- Plain code without the word `await`. -/
def isSilent (d : String) : Bool := d.toList.all isPlain && decide (awaitWord ∉ wordsOf d.toList)

/-- A piece of fixed code without the word `await`. -/
structure Silent (s : String) (cs : List Char) : Prop where
  shows : ∀ opened, Shows ⟨.code, opened⟩ s cs ⟨.code, opened⟩
  silent : awaitWord ∉ wordsOf cs

/-- Whether no word can go on beyond the end of a piece. -/
def endsApart (cs : List Char) : Bool := cs.getLast?.all (!isWordChar ·)

/-- Whether no word can go on into a piece. -/
def startsApart (cs : List Char) : Bool := cs.head?.all (!isWordChar ·)

/-- Plain code without the word is silent. -/
theorem Silent.plain {s : String} (h : s.toList.all isPlain = true)
    (hs : awaitWord ∉ wordsOf s.toList) : Silent s s.toList := ⟨Shows.plain h, hs⟩

/-- A piece that ends with a separator is apart from what follows. -/
theorem Apart.of_endsApart {cs ds : List Char} (h : endsApart cs = true) : Apart cs ds :=
  .inl fun c hc => by simpa [endsApart, Option.mem_def.mp hc] using h

theorem Apart.of_startsApart {cs ds : List Char} (h : startsApart ds = true) : Apart cs ds :=
  .inr fun c hc => by simpa [startsApart, Option.mem_def.mp hc] using h

namespace Awaiting

variable {b c : Bool} {s t d : String} {ds : List Char}

/-- Code of this kind has the word iff it says so. -/
theorem iff (h : Awaiting b s) : HasAwait s ↔ b = true := by
  obtain ⟨cs, hshows, hiff⟩ := h []
  rw [← hiff, HasAwait, words, show start = ⟨.code, []⟩ from rfl, hshows.outside]
  constructor
  · intro h
    obtain ⟨word, hword, heq⟩ := List.mem_map.mp h
    rwa [awaitWord, ← heq, String.toList_ofList]
  · exact fun h => List.mem_map.mpr ⟨awaitWord, h, rfl⟩

theorem of_eq (h : Awaiting b s) (heq : s.toList = t.toList) : Awaiting b t :=
  String.toList_inj.mp heq ▸ h

/-- Silent code does not have the word. -/
theorem of_silent (h : Silent s ds) : Awaiting false s :=
  fun opened => ⟨ds, h.shows opened, by simp [h.silent]⟩

/-- Fixed code before a piece. -/
theorem after (hd : Silent d ds) (hends : endsApart ds = true) (h : Awaiting b s) :
    Awaiting b (d ++ s) := by
  intro opened
  obtain ⟨cs, hshows, hiff⟩ := h opened
  refine ⟨_, (hd.shows opened).append hshows, ?_⟩
  rw [mem_wordsOf_append awaitWord_ne_nil (.of_endsApart hends), hiff]
  simp [hd.silent]

/-- Fixed code after a piece. -/
theorem before (hd : Silent d ds) (hstarts : startsApart ds = true) (h : Awaiting b s) :
    Awaiting b (s ++ d) := by
  intro opened
  obtain ⟨cs, hshows, hiff⟩ := h opened
  refine ⟨_, hshows.append (hd.shows opened), ?_⟩
  rw [mem_wordsOf_append awaitWord_ne_nil (.of_startsApart hstarts), hiff]
  simp [hd.silent]

/-- Fixed code between two pieces. -/
theorem between (hd : Silent d ds) (hstarts : startsApart ds = true) (hends : endsApart ds = true)
    (hne : ds ≠ []) (h : Awaiting b s) (h' : Awaiting c t) : Awaiting (b || c) (s ++ d ++ t) := by
  intro opened
  obtain ⟨cs, hshows, hiff⟩ := h opened
  obtain ⟨es, hshows', hiff'⟩ := h' opened
  refine ⟨_, (hshows.append (hd.shows opened)).append hshows', ?_⟩
  have hjoined : endsApart (cs ++ ds) = true := by
    rw [endsApart, List.getLast?_append_of_ne_nil cs hne]
    exact hends
  rw [mem_wordsOf_append awaitWord_ne_nil (.of_endsApart hjoined),
    mem_wordsOf_append awaitWord_ne_nil (.of_startsApart hstarts), hiff, hiff']
  simp [hd.silent]

/-- Braces around a piece. -/
theorem braces (h : Awaiting b s) : Awaiting b ("\x7b" ++ s ++ "\x7d") := by
  intro opened
  obtain ⟨cs, hshows, hiff⟩ := h (.brace :: opened)
  have hopen : Shows ⟨.code, opened⟩ "\x7b" ['\x7b'] ⟨.code, .brace :: opened⟩ := ⟨rfl, rfl⟩
  have hclose : Shows ⟨.code, .brace :: opened⟩ "\x7d" ['\x7d'] ⟨.code, opened⟩ := ⟨rfl, rfl⟩
  refine ⟨_, (hopen.append hshows).append hclose, ?_⟩
  rw [mem_wordsOf_append awaitWord_ne_nil (.of_startsApart rfl),
    mem_wordsOf_append awaitWord_ne_nil (.of_endsApart rfl), hiff]
  simp [show awaitWord ∉ wordsOf ['\x7b'] by decide, show awaitWord ∉ wordsOf ['\x7d'] by decide]

/-! ### Plain code around pieces -/

theorem silent (hd : isSilent d = true) : Silent d d.toList := by
  rw [isSilent, Bool.and_eq_true, decide_eq_true_eq] at hd
  exact .plain hd.1 hd.2

/-- A fixed text that is silent. -/
theorem fixed (d : String) (hd : isSilent d = true := by decide) : Awaiting false d :=
  .of_silent (silent hd)

/-- A silent text before it changes nothing. -/
theorem afterPlain (d : String) (h : Awaiting b s) (hd : isSilent d = true := by decide)
    (hends : endsApart d.toList = true := by decide) : Awaiting b (d ++ s) :=
  .after (silent hd) hends h

theorem beforePlain (h : Awaiting b s) (d : String) (hd : isSilent d = true := by decide)
    (hstarts : startsApart d.toList = true := by decide) : Awaiting b (s ++ d) :=
  .before (silent hd) hstarts h

/-- Two pieces with a silent text between them that keeps them apart. -/
theorem joined (h : Awaiting b s) (d : String) (h' : Awaiting c t)
    (hd : isSilent d = true := by decide) (hstarts : startsApart d.toList = true := by decide)
    (hends : endsApart d.toList = true := by decide) (hne : d.toList ≠ [] := by decide) :
    Awaiting (b || c) (s ++ d ++ t) :=
  .between (silent hd) hstarts hends hne h h'

end Awaiting

/-! ## Several pieces -/

/-- Pieces of code; it is marked whether an `await` stands in one of them. -/
inductive AwaitingAll : Bool → List String → Prop
  | nil : AwaitingAll false []
  | cons {b c s texts} : Awaiting b s → AwaitingAll c texts → AwaitingAll (b || c) (s :: texts)

namespace AwaitingAll

variable {b c : Bool} {texts others : List String}

/-- Pieces of two lists. -/
theorem append (h : AwaitingAll b texts) (h' : AwaitingAll c others) :
    AwaitingAll (b || c) (texts ++ others) := by
  induction h with
  | nil => exact h'
  | cons hs _ ih =>
    rw [Bool.or_assoc]
    exact .cons hs ih

/-- Pieces with a silent text between them. -/
theorem intercalate (h : AwaitingAll b texts) (d : String) (hd : isSilent d = true := by decide)
    (hstarts : startsApart d.toList = true := by decide)
    (hends : endsApart d.toList = true := by decide) (hne : d.toList ≠ [] := by decide) :
    Awaiting b (d.intercalate texts) := by
  induction h with
  | nil => exact .fixed ""
  | @cons b c s texts hs htexts ih =>
    cases texts with
    | nil =>
      cases htexts
      rwa [Bool.or_false, String.intercalate_singleton]
    | cons second rest =>
      rw [String.intercalate_cons_cons]
      exact hs.joined d ih hd hstarts hends hne

end AwaitingAll

end Script

end AbapLowering
