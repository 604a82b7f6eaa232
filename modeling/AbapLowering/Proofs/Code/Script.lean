import AbapLowering.Code.Literal
import AbapLowering.Json.Writer

/-!
# Reading emitted code

Emitted code is read character by character, as a JavaScript engine tells its texts from what is
around them: texts between quotation marks, templates between backticks with their substitutions,
and the brackets in between. Comments and regular expressions are not read, so a slash outside of
texts stops the reader. Main facts:

- what is read does not depend on the brackets around it (`read_above`);
- blanks between texts leave the reader as it was (`step_of_isBlank`);
- every literal is read as one text, whatever it holds (`readLine_quoted`, `readLine_string`,
  `readLine_jsonQuote`).
-/

namespace AbapLowering

namespace Script

/-- The marks that a text stands between. -/
inductive Quote where
  | single
  | double
  | back
  deriving DecidableEq

/-- The mark itself. -/
def Quote.char : Quote → Char
  | .single => '\x27'
  | .double => '\x22'
  | .back => '\x60'

/-- What the reader is in the middle of. -/
inductive Mode where
  | code
  | text (quote : Quote)
  /-- A text, right after a backslash. -/
  | escaped (quote : Quote)
  /-- A template, right after a dollar that may start a substitution. -/
  | dollar
  deriving DecidableEq

/-- What is open until its closing brace. -/
inductive Bracket where
  | brace
  | substitution
  deriving DecidableEq

/-- How far a text is read. -/
structure Reading where
  mode : Mode
  /-- What is open, the innermost first. -/
  opened : List Bracket
  deriving DecidableEq

/-- Whether a character ends a line. -/
def isBreak (c : Char) : Bool := c == '\n' || c == '\r'

/-- Whether a text contains no line break. -/
def IsUnbroken (s : String) : Prop := ∀ c ∈ s.toList, isBreak c = false

/-- What a character between texts leads to, unless it is a brace. -/
def modeInCode (c : Char) : Option Mode :=
  if c = '\x27' then some (.text .single)
  else if c = '\x22' then some (.text .double)
  else if c = '\x60' then some (.text .back)
  else if c = '/' then none
  else some .code

/-- What a character of a text leads to; only a template goes on after a line break. -/
def modeInText (quote : Quote) (c : Char) : Option Mode :=
  if c = '\\' then some (.escaped quote)
  else if c = quote.char then some .code
  else if quote = .back then some (if c = '$' then .dollar else .text .back)
  else if isBreak c then none
  else some (.text quote)

/-- What a closing brace leads to. -/
def close : List Bracket → Option Reading
  | [] => none
  | .brace :: rest => some ⟨.code, rest⟩
  | .substitution :: rest => some ⟨.text .back, rest⟩

namespace Reading

/-- Where reading starts. -/
def start : Reading := ⟨.code, []⟩

/-- Read a character. -/
def step : Reading → Char → Option Reading
  | ⟨.code, opened⟩, c =>
    if c = '\x7b' then some ⟨.code, .brace :: opened⟩
    else if c = '\x7d' then close opened
    else (modeInCode c).map (⟨·, opened⟩)
  | ⟨.text quote, opened⟩, c => (modeInText quote c).map (⟨·, opened⟩)
  | ⟨.escaped quote, opened⟩, _ => some ⟨.text quote, opened⟩
  | ⟨.dollar, opened⟩, c =>
    if c = '\x7b' then some ⟨.code, .substitution :: opened⟩
    else (modeInText .back c).map (⟨·, opened⟩)

/-- Read on; there is no result where the characters cannot be code. -/
def read (r : Reading) : List Char → Option Reading
  | [] => some r
  | c :: rest => (r.step c).bind (·.read rest)

/-- Read a piece of a line. -/
def readLine (r : Reading) (s : String) : Option Reading :=
  if s.toList.any isBreak then none else r.read s.toList

/-- The same place, with other brackets open around it. -/
def above (r : Reading) (base : List Bracket) : Reading := ⟨r.mode, r.opened ++ base⟩

/-- The number of blocks that are open. -/
def blocks (r : Reading) : Nat := r.opened.count .brace

variable {r r' : Reading} {c : Char} {cs : List Char} {s : String}

/-! ## Reading on -/

/-- Text is read piece by piece. -/
theorem read_append (r : Reading) (cs ds : List Char) :
    r.read (cs ++ ds) = (r.read cs).bind (·.read ds) := by
  induction cs generalizing r with
  | nil => rfl
  | cons c rest ih =>
    rw [List.cons_append, read, read]
    cases r.step c with
    | none => rfl
    | some next => exact ih next

theorem read_append_of (h : r.read cs = some r') (ds : List Char) :
    r.read (cs ++ ds) = r'.read ds := by
  rw [read_append, h, Option.bind_some]

/-- A line is read if it has no break in it and each character leads on. -/
theorem readLine_eq_some_iff :
    r.readLine s = some r' ↔ IsUnbroken s ∧ r.read s.toList = some r' := by
  have hbreaks : s.toList.any isBreak = false ↔ IsUnbroken s := by
    rw [List.any_eq_false, IsUnbroken]
    simp only [Bool.not_eq_true]
  rw [readLine]
  split
  next h => simp [← hbreaks, h]
  next h => simp [← hbreaks, h]

/-! ## Brackets around -/

/-- What closes a bracket does not look further out. -/
theorem close_above {opened : List Bracket} (h : close opened = some r') (base : List Bracket) :
    close (opened ++ base) = some (r'.above base) := by
  cases opened with
  | nil => cases h
  | cons bracket rest =>
    cases bracket <;> cases h <;> rfl

theorem map_above {mode : Option Mode} {opened : List Bracket}
    (h : mode.map (⟨·, opened⟩) = some r') (base : List Bracket) :
    mode.map (⟨·, opened ++ base⟩) = some (r'.above base) := by
  obtain ⟨next, rfl, rfl⟩ := Option.map_eq_some_iff.mp h
  rfl

/-- A step does not depend on what is open further out. -/
theorem step_above (h : r.step c = some r') (base : List Bracket) :
    (r.above base).step c = some (r'.above base) := by
  obtain ⟨mode, opened⟩ := r
  rw [above]
  -- brackets matter in code and behind a dollar only, and only the innermost is looked at
  cases mode with
  | code =>
    by_cases hopens : c = '\x7b'
    · rw [step, if_pos hopens] at h ⊢
      cases h
      rfl
    by_cases hcloses : c = '\x7d'
    · rw [step, if_neg hopens, if_pos hcloses] at h ⊢
      exact close_above h base
    · rw [step, if_neg hopens, if_neg hcloses] at h ⊢
      exact map_above h base
  | text quote => exact map_above h base
  | escaped quote =>
    cases h
    rfl
  | dollar =>
    by_cases hopens : c = '\x7b'
    · rw [step, if_pos hopens] at h ⊢
      cases h
      rfl
    · rw [step, if_neg hopens] at h ⊢
      exact map_above h base

/-- What is read does not depend on what is open around it. -/
theorem read_above (h : r.read cs = some r') (base : List Bracket) :
    (r.above base).read cs = some (r'.above base) := by
  induction cs generalizing r with
  | nil =>
    cases h
    rfl
  | cons c rest ih =>
    obtain ⟨next, hnext, hrest⟩ := Option.bind_eq_some_iff.mp h
    rw [read, step_above hnext, Option.bind_some]
    exact ih hrest

/-- Neither does a line. -/
theorem readLine_above (h : r.readLine s = some r') (base : List Bracket) :
    (r.above base).readLine s = some (r'.above base) := by
  obtain ⟨hunbroken, hread⟩ := readLine_eq_some_iff.mp h
  exact readLine_eq_some_iff.mpr ⟨hunbroken, read_above hread base⟩

/-- A line is read piece by piece. -/
theorem readLine_append (h : r.readLine s = some r') {t : String} {r'' : Reading}
    (h' : r'.readLine t = some r'') : r.readLine (s ++ t) = some r'' := by
  obtain ⟨hs, hread⟩ := readLine_eq_some_iff.mp h
  obtain ⟨ht, hread'⟩ := readLine_eq_some_iff.mp h'
  refine readLine_eq_some_iff.mpr ⟨?_, ?_⟩
  · intro c hc
    rw [String.toList_append, List.mem_append] at hc
    exact hc.elim (hs c) (ht c)
  · rw [String.toList_append, read_append_of hread, hread']

/-! ## Blanks -/

/-- A blank leads from code to code. -/
theorem step_of_isBlank (h : Text.isBlank c = true) (opened : List Bracket) :
    step ⟨.code, opened⟩ c = some ⟨.code, opened⟩ := by
  have hne : ∀ x : Char, Text.isBlank x = false → c ≠ x := by
    rintro x hx rfl
    rw [h] at hx
    cases hx
  rw [step, if_neg (hne _ (by decide)), if_neg (hne _ (by decide)), modeInCode,
    if_neg (hne _ (by decide)), if_neg (hne _ (by decide)), if_neg (hne _ (by decide)),
    if_neg (hne _ (by decide))]
  rfl

/-- Blanks lead from code to code. -/
theorem read_of_isBlank (h : ∀ c ∈ cs, Text.isBlank c = true) (opened : List Bracket) :
    read ⟨.code, opened⟩ cs = some ⟨.code, opened⟩ := by
  induction cs with
  | nil => rfl
  | cons c rest ih =>
    obtain ⟨hc, hrest⟩ := List.forall_mem_cons.mp h
    rw [read, step_of_isBlank hc, Option.bind_some, ih hrest]

end Reading

open Reading

/-! ## Literals -/

section

variable {c : Char} {cs : List Char} {opened : List Bracket}

/-- In a text only backslashes, its mark and breaks are special. -/
theorem modeInText_of_ne {quote : Quote} (hquote : quote ≠ .back) (hslash : c ≠ '\\')
    (hmark : c ≠ quote.char) (hbreak : isBreak c = false) :
    modeInText quote c = some (.text quote) := by
  rw [modeInText, if_neg hslash, if_neg hmark, if_neg hquote, if_neg (by simp [hbreak])]

/-- What a character of a text leads to, unless it ends the text or opens a substitution. -/
def Mode.next? : Mode → Char → Option Mode
  | .code, _ => none
  | .text quote, c => (modeInText quote c).filter (· ≠ .code)
  | .escaped quote, _ => some (.text quote)
  | .dollar, c => if c = '\x7b' then none else (modeInText .back c).filter (· ≠ .code)

/-- What some characters lead to within a text. -/
def Mode.within? (m : Mode) (cs : List Char) : Option Mode := cs.foldlM Mode.next? m

/-- A step within a text does not look at what is open. -/
theorem step_of_next? {m m' : Mode} (h : m.next? c = some m') :
    step ⟨m, opened⟩ c = some ⟨m', opened⟩ := by
  cases m with
  | code => cases h
  | text quote => rw [step, (Option.filter_eq_some_iff.mp h).1, Option.map_some]
  | escaped quote =>
    cases h
    rfl
  | dollar =>
    rw [Mode.next?] at h
    split at h
    next => cases h
    next hbrace =>
      rw [step, if_neg hbrace, (Option.filter_eq_some_iff.mp h).1, Option.map_some]

/-- The inside of a text is read piece by piece. -/
theorem Mode.within?_append (m : Mode) (cs ds : List Char) :
    m.within? (cs ++ ds) = (m.within? cs).bind (·.within? ds) := List.foldlM_append

theorem Mode.within?_append_of {m m' : Mode} (h : m.within? cs = some m') (ds : List Char) :
    m.within? (cs ++ ds) = m'.within? ds := by
  rw [within?_append, h, Option.bind_some]

/-- Within a text nothing is opened or closed. -/
theorem read_of_within? {m m' : Mode} (h : m.within? cs = some m') :
    read ⟨m, opened⟩ cs = some ⟨m', opened⟩ := by
  induction cs generalizing m with
  | nil =>
    cases h
    rfl
  | cons c rest ih =>
    obtain ⟨next, hnext, hrest⟩ := Option.bind_eq_some_iff.mp h
    rw [Reading.read, step_of_next? hnext, Option.bind_some]
    exact ih hrest

/-- What is escaped stays within its text. -/
theorem within?_escape {quote : Quote} (hquote : quote ≠ .back)
    (h : ∀ c ∈ cs, isBreak c = false) :
    (Mode.text quote).within? (Literal.escape quote.char cs) = some (.text quote) := by
  induction cs with
  | nil => rfl
  | cons c rest ih =>
    obtain ⟨hc, hrest⟩ := List.forall_mem_cons.mp h
    have hfirst : (Mode.text quote).within? (if c = '\\' ∨ c = quote.char then ['\\', c] else [c]) =
        some (.text quote) := by
      split
      next => rfl
      next hplain =>
        rw [not_or] at hplain
        rw [Mode.within?, List.foldlM_cons, Mode.next?,
          modeInText_of_ne hquote hplain.1 hplain.2 hc]
        rfl
    rw [Literal.escape, List.flatMap_cons, Mode.within?_append_of hfirst]
    exact ih hrest

/-- So a reader stays in the text over what is escaped. -/
theorem read_escape {quote : Quote} (hquote : quote ≠ .back)
    (h : ∀ c ∈ cs, isBreak c = false) :
    read ⟨.text quote, opened⟩ (Literal.escape quote.char cs) = some ⟨.text quote, opened⟩ :=
  read_of_within? (within?_escape hquote h)

/-- Whether the reader is in a template, outside of its substitutions. -/
def Mode.IsTemplate (m : Mode) : Prop := m = .text .back ∨ m = .dollar

/-- A place in a template is not in code. -/
theorem Mode.IsTemplate.ne_code {m : Mode} (h : m.IsTemplate) : m ≠ .code := by
  rcases h with rfl | rfl <;> nofun

/-- In a template a brace is special behind a dollar sign only. -/
theorem next?_of_isTemplate {m : Mode} (hm : m.IsTemplate) (hbrace : m = .dollar → c ≠ '\x7b') :
    m.next? c = (modeInText .back c).filter (· ≠ .code) := by
  rcases hm with rfl | rfl
  · rfl
  · rw [Mode.next?, if_neg (hbrace rfl)]

/-- What is escaped stays within its template. -/
theorem within?_escapeBackticked {m : Mode} (hm : m.IsTemplate)
    (hbrace : m = .dollar → cs.head? ≠ some '\x7b') :
    ∃ m' : Mode, m'.IsTemplate ∧ m.within? (Literal.escapeBackticked cs) = some m' := by
  induction cs generalizing m with
  | nil => exact ⟨m, hm, rfl⟩
  | cons c rest ih =>
    have hne : m = .dollar → c ≠ '\x7b' := fun h => by simpa using hbrace h
    rw [Literal.escapeBackticked]
    split
    next hspecial =>
      have hfirst : m.within? ['\\', c] = some (.text .back) := by
        rw [Mode.within?, List.foldlM_cons, next?_of_isTemplate hm fun _ => by decide]
        rfl
      rw [Mode.within?_append_of hfirst]
      exact ih (.inl rfl) nofun
    next hplain =>
      simp only [not_or, not_and] at hplain
      obtain ⟨hslash, (hmark : c ≠ Quote.back.char), hdollar⟩ := hplain
      have hfirst : m.within? [c] = some (if c = '$' then .dollar else .text .back) := by
        rw [Mode.within?, List.foldlM_cons, next?_of_isTemplate hm hne, modeInText, if_neg hslash,
          if_neg hmark, if_pos rfl]
        split <;> rfl
      rw [Mode.within?_append_of hfirst]
      by_cases hc : c = '$'
      · rw [if_pos hc]
        exact ih (.inr rfl) fun _ => hdollar hc
      · rw [if_neg hc]
        exact ih (.inl rfl) nofun

/-- What is escaped for backticks stays within the template. -/
theorem read_escapeBackticked {m : Mode} (hm : m.IsTemplate)
    (hbrace : m = .dollar → cs.head? ≠ some '\x7b') :
    ∃ m' : Mode, m'.IsTemplate ∧
      read ⟨m, opened⟩ (Literal.escapeBackticked cs) = some ⟨m', opened⟩ := by
  obtain ⟨m', hm', hwithin⟩ := within?_escapeBackticked hm hbrace
  exact ⟨m', hm', read_of_within? hwithin⟩

/-- To collapse marks adds no character. -/
theorem mem_of_mem_collapseDoubled {q x : Char} (h : x ∈ Text.collapseDoubled q cs) : x ∈ cs := by
  fun_induction Text.collapseDoubled q cs with
  | case1 c d rest hdoubled ih =>
    rcases List.mem_cons.mp h with rfl | hx
    · simp [hdoubled.1]
    · exact List.mem_cons_of_mem _ (List.mem_cons_of_mem _ (ih hx))
  | case2 c d rest hdoubled ih =>
    rcases List.mem_cons.mp h with rfl | hx
    · exact List.mem_cons_self
    · exact List.mem_cons_of_mem _ (ih hx)
  | case3 cs => exact h

/-- To escape adds nothing but backslashes. -/
theorem mem_of_mem_escape {q x : Char} (h : x ∈ Literal.escape q cs) : x = '\\' ∨ x ∈ cs := by
  obtain ⟨c, hc, hx⟩ := List.mem_flatMap.mp h
  split at hx
  next =>
    rcases List.mem_cons.mp hx with rfl | hx
    · exact .inl rfl
    · exact .inr (List.mem_singleton.mp hx ▸ hc)
  next => exact .inr (List.mem_singleton.mp hx ▸ hc)

theorem mem_of_mem_escapeBackticked {x : Char} (h : x ∈ Literal.escapeBackticked cs) :
    x = '\\' ∨ x ∈ cs := by
  induction cs with
  | nil => exact .inr h
  | cons c rest ih =>
    rw [Literal.escapeBackticked, List.mem_append] at h
    rcases h with h | h
    · split at h
      next =>
        rcases List.mem_cons.mp h with rfl | hx
        · exact .inl rfl
        · exact .inr (List.mem_singleton.mp hx ▸ List.mem_cons_self)
      next => exact .inr (List.mem_singleton.mp h ▸ List.mem_cons_self)
    · exact (ih h).imp_right (List.mem_cons_of_mem c)

end

variable {opened : List Bracket} {raw : String}

/-- A text literal is read as one text. -/
theorem readLine_quoted (h : IsUnbroken raw) :
    readLine ⟨.code, opened⟩ (Literal.quoted raw) = some ⟨.code, opened⟩ := by
  have hchars : ∀ c ∈ Text.collapseDoubled '\x27' raw.toList, isBreak c = false :=
    fun c hc => h c (mem_of_mem_collapseDoubled hc)
  have hbody : readLine ⟨.text .single, opened⟩
      (String.ofList (Literal.escape '\x27' (Text.collapseDoubled '\x27' raw.toList))) =
      some ⟨.text .single, opened⟩ := by
    refine readLine_eq_some_iff.mpr ⟨?_, ?_⟩
    · intro c hc
      rw [String.toList_ofList] at hc
      rcases mem_of_mem_escape hc with rfl | hc
      · decide
      · exact hchars c hc
    · rw [String.toList_ofList]
      exact read_escape (show Quote.single ≠ .back from nofun) hchars
  exact readLine_append (readLine_append rfl hbody) rfl

/-- A string literal is read as one template without substitutions. -/
theorem readLine_string (h : IsUnbroken raw) :
    readLine ⟨.code, opened⟩ (Literal.string raw) = some ⟨.code, opened⟩ := by
  obtain ⟨m, hm, hread⟩ := @read_escapeBackticked (Text.collapseDoubled '\x60' raw.toList) opened
    (.text .back) (.inl rfl) nofun
  have hbody : readLine ⟨.text .back, opened⟩ (String.ofList
      (Literal.escapeBackticked (Text.collapseDoubled '\x60' raw.toList))) = some ⟨m, opened⟩ := by
    refine readLine_eq_some_iff.mpr ⟨?_, ?_⟩
    · intro c hc
      rw [String.toList_ofList] at hc
      rcases mem_of_mem_escapeBackticked hc with rfl | hc
      · decide
      · exact h c (mem_of_mem_collapseDoubled hc)
    · rw [String.toList_ofList]
      exact hread
  have hend : readLine ⟨m, opened⟩ "\x60" = some ⟨.code, opened⟩ := by
    rcases hm with rfl | rfl <;> rfl
  exact readLine_append (readLine_append rfl hbody) hend

/-- A piece of an SQL command stays within its text. -/
theorem readLine_sql (h : IsUnbroken raw) :
    readLine ⟨.text .double, opened⟩ (Literal.sql raw) = some ⟨.text .double, opened⟩ := by
  refine readLine_eq_some_iff.mpr ⟨?_, ?_⟩
  · intro c hc
    rw [Literal.sql, String.toList_ofList] at hc
    rcases mem_of_mem_escape hc with rfl | hc
    · decide
    · exact h c hc
  · rw [Literal.sql, String.toList_ofList]
    exact read_escape (show Quote.double ≠ .back from nofun) h

/-! ### JSON -/

/-- A hexadecimal digit stays within a text. -/
theorem modeInText_hexDigit {n : Nat} (h : n < 16) :
    modeInText .double (Json.hexDigit n) = some (.text .double) ∧
      isBreak (Json.hexDigit n) = false := by
  revert n
  decide

/-- An escaped character of JSON stays within its text. -/
theorem readLine_escapeChar (c : Char) :
    readLine ⟨.text .double, opened⟩ (String.ofList (Json.escapeChar c)) =
      some ⟨.text .double, opened⟩ := by
  -- the short escapes, then the escapes by number, then all others
  by_cases hspecial : c ∈ ['\x22', '\\', '\n', '\r', '\t', '\x08', '\x0c']
  · simp only [List.mem_cons, List.not_mem_nil, or_false] at hspecial
    rcases hspecial with rfl | rfl | rfl | rfl | rfl | rfl | rfl <;> rfl
  simp only [List.mem_cons, List.not_mem_nil, or_false, not_or] at hspecial
  obtain ⟨hmark, hslash, hfeed, hreturn, htab, hback, hform⟩ := hspecial
  rw [Json.escapeChar, if_neg hmark, if_neg hslash, if_neg hfeed, if_neg hreturn, if_neg htab,
    if_neg hback, if_neg hform]
  split
  next hcontrol =>
    obtain ⟨hhigh, hhigh'⟩ := modeInText_hexDigit (n := c.toNat / 16) (by omega)
    obtain ⟨hlow, hlow'⟩ := modeInText_hexDigit (n := c.toNat % 16) (by omega)
    refine readLine_eq_some_iff.mpr ⟨?_, ?_⟩
    · have hstart : ['\\', 'u', '0', '0'].all (!isBreak ·) := by decide
      simpa [IsUnbroken, hhigh', hlow'] using hstart
    · rw [String.toList_ofList]
      change read ⟨.text .double, opened⟩ [_, _] = _
      rw [Reading.read, step, hhigh, Option.map_some, Option.bind_some, Reading.read, step, hlow]
      rfl
  next =>
    have hbreak : isBreak c = false := by simp [isBreak, hfeed, hreturn]
    refine readLine_eq_some_iff.mpr ⟨?_, ?_⟩
    · simpa [IsUnbroken] using hbreak
    · rw [String.toList_ofList, Reading.read, step,
        @modeInText_of_ne c .double nofun hslash hmark hbreak]
      rfl

/-- A JSON string is read as one text. -/
theorem readLine_jsonQuote (s : String) :
    readLine ⟨.code, opened⟩ (Json.quote s) = some ⟨.code, opened⟩ := by
  have hbody : readLine ⟨.text .double, opened⟩
      (String.ofList (s.toList.flatMap Json.escapeChar)) = some ⟨.text .double, opened⟩ := by
    induction s.toList with
    | nil => rfl
    | cons c rest ih =>
      rw [List.flatMap_cons, String.ofList_append]
      exact readLine_append (readLine_escapeChar c) ih
  exact readLine_append (readLine_append rfl hbody) rfl

end Script

end AbapLowering
