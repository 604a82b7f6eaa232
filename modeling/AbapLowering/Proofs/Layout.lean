import AbapLowering.Proofs.Tree
import AbapLowering.Tree.Layout
import Mathlib.Data.List.Forall2

/-!
# Where laid out trees stand

A tree is put together by any sequence of calls. Tokens move the cursor to the right, statements move
it to the next row, and every call does one of the two (`Layout.Call.run_cases`).

- `Layout.rows`: the statements that are finished in a run, each with the tokens handed out since the
  one before. One row holds the tokens of one statement (`Layout.standsOnRows_run`);
- `Layout.run_laid_out`: where tokens, statements and structures stand after any run.
-/

namespace AbapLowering

namespace Layout

/-! ## Calls -/

/-- A call while a tree is put together. -/
inductive Call where
  | token (text : String)
  | field (name : String)
  | fieldSymbol (name : String)
  | componentChain (head : String) (path : List String)
  | attributeChain (head member : String)
  | staticChain (className member : String)
  | source (name : String)
  | fieldSymbolSource (name : String)
  | equal (left : String) (right : Source)
  | isInitial (name : String) (negated : Bool)
  | statement (statement : Statement)
  | statementWithText (statement : Statement) (text : String)
  | branch (kind : StructureKind) (children : List Node)
  | root (children : List Node)

/-- What a call hands out. -/
inductive Answer where
  | token (token : Token)
  | chain (chain : FieldChain)
  | source (source : Source)
  | condition (condition : Condition)
  | node (node : Node)
  | tree (tree : StructureNode)

/-- Do what a call asks for. -/
def Call.run : Call → Layout Answer
  | .token text => .token <$> Layout.token text
  | .field name => .chain <$> Layout.field name
  | .fieldSymbol name => .chain <$> Layout.fieldSymbol name
  | .componentChain head path => .chain <$> Layout.componentChain head path
  | .attributeChain head member => .chain <$> Layout.attributeChain head member
  | .staticChain className member => .chain <$> Layout.staticChain className member
  | .source name => .source <$> Layout.source name
  | .fieldSymbolSource name => .source <$> Layout.fieldSymbolSource name
  | .equal left right => .condition <$> Layout.equal left right
  | .isInitial name negated => .condition <$> Layout.isInitial name negated
  | .statement content => .node <$> Layout.statement content
  | .statementWithText content text => .node <$> Layout.statementWithText content text
  | .branch kind children => .node <$> Layout.branch kind children
  | .root children => .tree <$> Layout.root children

/-- Calls one after the other. -/
def runAll (calls : List Call) : Layout (List Answer) := calls.mapM Call.run

/-- The token of a step of a chain. -/
def nameOf? : ChainSegment → Option Token
  | .component name | .attribute name | .static name => some name
  | .dereference => none

/-- The tokens of a chain, from left to right. -/
def namesOf (chain : FieldChain) : List Token :=
  chain.firstToken.toList ++ chain.segments.filterMap nameOf?

/-- The tokens of an operand that is a chain. -/
def namesOfSource : Source → List Token
  | .field chain => namesOf chain
  | _ => []

/-- The tokens that are handed out with an answer. Of a comparison these are the tokens on the left:
the right side was there before. -/
def Answer.tokens : Answer → List Token
  | .token only => [only]
  | .chain names => namesOf names
  | .source operand => namesOfSource operand
  | .condition (.compare left _ _) => namesOfSource left
  | .condition (.predicate operand _ _) => namesOfSource operand
  | _ => []

/-- The statement that an answer finishes. -/
def Answer.statement? : Answer → Option StatementNode
  | .node built => built.statement?
  | _ => none

/-- The finished statements, each with the tokens handed out since the one before; `pending` are the
tokens handed out since the last. -/
def rowsFrom (pending : List Token) : List Answer → List (List Token × StatementNode)
  | [] => []
  | answer :: rest =>
    match answer.statement? with
    | some node => (pending, node) :: rowsFrom [] rest
    | none => rowsFrom (pending ++ answer.tokens) rest

/-- The finished statements, each with the tokens handed out since the one before. -/
def rows (answers : List Answer) : List (List Token × StatementNode) := rowsFrom [] answers

/-- The texts that a call makes tokens of. -/
def Call.texts : Call → List String
  | .token text => [text]
  | .field name | .fieldSymbol name | .source name | .fieldSymbolSource name => [name]
  | .isInitial name _ => [name]
  | .equal left _ => [left]
  | .componentChain head path => head :: path
  | .attributeChain head member => [head, member]
  | .staticChain className member => [className, member]
  | .statement _ | .statementWithText _ _ | .branch _ _ | .root _ => []

/-- Whether a call finishes the row. -/
def Call.endsRow : Call → Bool
  | .statement _ | .statementWithText _ _ => true
  | _ => false

/-- The columns that texts take, each with the blank behind it. -/
def width : List String → Nat
  | [] => 0
  | text :: rest => text.length + 1 + width rest

/-- Rows and columns can be counted in 32 bits throughout a run that starts at the given ones. -/
def Fits : Nat → Nat → List Call → Prop
  | _, _, [] => True
  | row, col, call :: rest =>
    if call.endsRow then row + 1 < UInt32.size ∧ Fits (row + 1) 1 rest
    else col + width call.texts < UInt32.size ∧ Fits row (col + width call.texts) rest

instance decidableFits : ∀ (row col : Nat) (calls : List Call), Decidable (Fits row col calls)
  | _, _, [] => .isTrue trivial
  | row, col, call :: rest =>
    have := decidableFits (row + 1) 1 rest
    have := decidableFits row (col + width call.texts) rest
    inferInstanceAs (Decidable (if call.endsRow then row + 1 < UInt32.size ∧ Fits (row + 1) 1 rest
      else col + width call.texts < UInt32.size ∧ Fits row (col + width call.texts) rest))

/-! ## Single calls -/

/-- The tokens made of some texts at a cursor, and the cursor behind them. -/
def laid (cursor : Cursor) : List String → List Token × Cursor
  | [] => ([], cursor)
  | text :: rest =>
    let (tokens, next) := laid { cursor with col := cursor.col + UInt32.ofNat text.length + 1 } rest
    (⟨text, cursor.row, cursor.col⟩ :: tokens, next)

/-- Tokens are laid out one after the other. -/
theorem mapM_token (texts : List String) (cursor : Cursor) :
    (texts.mapM Layout.token) cursor = laid cursor texts := by
  induction texts generalizing cursor with
  | nil => rfl
  | cons text rest ih =>
    rw [List.mapM_cons, laid, ← ih]
    rfl

theorem filterMap_nameOf? (names : List Token) :
    (names.map ChainSegment.component).filterMap nameOf? = names := by
  rw [List.filterMap_map]
  exact List.filterMap_some

/-- The span of the statement that a row is finished with. -/
def rowSpan (cursor : Cursor) : Span :=
  ⟨⟨cursor.row, 1⟩, ⟨cursor.row, if cursor.col ≤ 2 then 1 else cursor.col - 1⟩⟩

/-- What a call does: it finishes the row as a statement, or hands out the tokens of its texts. -/
theorem Call.run_cases (call : Call) (cursor : Cursor) :
    (call.endsRow = true ∧ ∃ node answer, call.run cursor = (answer, .atRow (cursor.row + 1)) ∧
      answer.statement? = some node ∧ answer.tokens = [] ∧ node.span = rowSpan cursor) ∨
    (call.endsRow = false ∧ ∃ answer, call.run cursor = (answer, (laid cursor call.texts).2) ∧
      answer.statement? = none ∧ answer.tokens = (laid cursor call.texts).1) := by
  cases call with
  | statement content => exact .inl ⟨rfl, _, _, rfl, rfl, rfl, rfl⟩
  | statementWithText content text => exact .inl ⟨rfl, _, _, rfl, rfl, rfl, rfl⟩
  | componentChain head path =>
    -- the head is laid out first, then the names behind it
    let next : Cursor := { cursor with col := cursor.col + UInt32.ofNat head.length + 1 }
    let names := (path.mapM Layout.token) next
    let chain : FieldChain := { FieldChain.ofField ⟨head, cursor.row, cursor.col⟩ with
      segments := names.1.map .component }
    have hrun : (Call.componentChain head path).run cursor = (.chain chain, names.2) := rfl
    have hnames : names = laid next path := mapM_token path next
    have htokens : (Answer.chain chain).tokens = ⟨head, cursor.row, cursor.col⟩ :: names.1 :=
      congrArg (_ :: ·) (filterMap_nameOf? names.1)
    rw [hnames] at hrun htokens
    exact .inr ⟨rfl, _, hrun, rfl, htokens⟩
  | token text => exact .inr ⟨rfl, _, rfl, rfl, rfl⟩
  | field name => exact .inr ⟨rfl, _, rfl, rfl, rfl⟩
  | fieldSymbol name => exact .inr ⟨rfl, _, rfl, rfl, rfl⟩
  | attributeChain head member => exact .inr ⟨rfl, _, rfl, rfl, rfl⟩
  | staticChain className member => exact .inr ⟨rfl, _, rfl, rfl, rfl⟩
  | source name => exact .inr ⟨rfl, _, rfl, rfl, rfl⟩
  | fieldSymbolSource name => exact .inr ⟨rfl, _, rfl, rfl, rfl⟩
  | equal left right => exact .inr ⟨rfl, _, rfl, rfl, rfl⟩
  | isInitial name negated => exact .inr ⟨rfl, _, rfl, rfl, rfl⟩
  | branch kind children => exact .inr ⟨rfl, _, rfl, rfl, rfl⟩
  | root children => exact .inr ⟨rfl, _, rfl, rfl, rfl⟩

/-- The first call is answered first. -/
theorem fst_runAll_cons (call : Call) (rest : List Call) (cursor : Cursor) :
    (runAll (call :: rest) cursor).1 =
      (call.run cursor).1 :: (runAll rest (call.run cursor).2).1 := by
  rw [runAll, List.mapM_cons]
  rfl

/-! ## One row -/

/-- A token stands on a row, at or behind a column and before another. -/
structure Within (row first next : Nat) (t : Token) : Prop where
  row_eq : t.start.row.toNat = row
  last_row : t.last.row = t.start.row
  first_le : first ≤ t.start.col.toNat
  start_le : t.start.col.toNat ≤ t.last.col.toNat
  last_lt : t.last.col.toNat < next

/-- A token on a row begins before it ends. -/
theorem Within.start_le_last {row first next : Nat} {t : Token} (h : Within row first next t) :
    t.start ≤ t.last :=
  Position.le_iff.mpr (.inr ⟨by rw [h.last_row], h.start_le⟩)

/-- Tokens stand on a row from left to right, at or behind a column and before another. -/
structure OnRow (row first next : Nat) (tokens : List Token) : Prop where
  ordered : tokens.Pairwise (fun s t => s.last < t.start)
  within : ∀ t ∈ tokens, Within row first next t

theorem OnRow.nil (row first next : Nat) : OnRow row first next [] := ⟨.nil, by simp⟩

/-- Tokens behind others on the same row. -/
theorem OnRow.append {row first middle next : Nat} {ts us : List Token}
    (hts : OnRow row first middle ts) (hus : OnRow row middle next us) (hfirst : first ≤ middle)
    (hnext : middle ≤ next) : OnRow row first next (ts ++ us) where
  ordered := by
    refine List.pairwise_append.mpr ⟨hts.ordered, hus.ordered, fun t ht u hu => ?_⟩
    have hleft := hts.within t ht
    have hright := hus.within u hu
    refine Position.lt_iff.mpr (.inr ⟨?_, ?_⟩)
    · rw [hleft.last_row, hleft.row_eq, hright.row_eq]
    · exact Nat.lt_of_lt_of_le hleft.last_lt hright.first_le
  within := by
    intro t ht
    rcases List.mem_append.mp ht with ht | ht
    · exact { hts.within t ht with last_lt := Nat.lt_of_lt_of_le (hts.within t ht).last_lt hnext }
    · exact { hus.within t ht with first_le := Nat.le_trans hfirst (hus.within t ht).first_le }

/-- Columns are added without overflow if they fit. -/
theorem toNat_add_ofNat {c : UInt32} {n : Nat} (h : c.toNat + n < UInt32.size) :
    (c + UInt32.ofNat n).toNat = c.toNat + n := by
  have hn : n < UInt32.size := by omega
  rw [UInt32.toNat_add, UInt32.toNat_ofNat_of_lt' hn, Nat.mod_eq_of_lt h]

/-- A token takes the columns of its text, and the cursor goes behind the blank after it. -/
theorem onRow_laid (cursor : Cursor) (texts : List String)
    (hfits : cursor.col.toNat + width texts < UInt32.size) :
    OnRow cursor.row.toNat cursor.col.toNat (cursor.col.toNat + width texts)
      (laid cursor texts).1 ∧
    (laid cursor texts).2.row = cursor.row ∧
    (laid cursor texts).2.col.toNat = cursor.col.toNat + width texts := by
  induction texts generalizing cursor with
  | nil => exact ⟨.nil .., rfl, rfl⟩
  | cons text rest ih =>
    have hwidth : width (text :: rest) = text.length + 1 + width rest := rfl
    rw [hwidth] at hfits ⊢
    let next : Cursor := { cursor with col := cursor.col + UInt32.ofNat text.length + 1 }
    -- nothing overflows, so words add up like numbers
    have hnext : next.col.toNat = cursor.col.toNat + text.length + 1 := by
      have htext : (cursor.col + UInt32.ofNat text.length).toNat = _ :=
        toNat_add_ofNat (by omega)
      have hblank : (cursor.col + UInt32.ofNat text.length + UInt32.ofNat 1).toNat = _ :=
        toNat_add_ofNat (by omega)
      rw [htext] at hblank
      exact hblank
    obtain ⟨hrest, hrow, hcol⟩ := ih next (by omega)
    have hlast : (cursor.col + UInt32.ofNat (text.length - 1)).toNat = _ :=
      toNat_add_ofNat (by omega)
    have hfirst : OnRow cursor.row.toNat cursor.col.toNat next.col.toNat
        [⟨text, cursor.row, cursor.col⟩] := by
      refine ⟨List.pairwise_singleton .., ?_⟩
      intro t ht
      obtain rfl := List.mem_singleton.mp ht
      refine ⟨rfl, rfl, Nat.le_refl _, ?_, ?_⟩
      · rw [Token.last, hlast]
        exact Nat.le_add_right ..
      · rw [Token.last, hlast]
        omega
    have hall := hfirst.append hrest (by omega) (by omega)
    rw [hnext, Nat.add_assoc, Nat.add_assoc, ← Nat.add_assoc text.length] at hall
    exact ⟨hall, hrow, by rw [laid, hcol]; omega⟩

/-- A row ends with the blank behind its last token, and at its first column if it has no token. -/
theorem toNat_col_stop_rowSpan (cursor : Cursor) :
    (rowSpan cursor).stop.col.toNat = max 1 (cursor.col.toNat - 1) := by
  change (if cursor.col ≤ 2 then 1 else cursor.col - 1 : UInt32).toNat = _
  have htwo : (2 : UInt32).toNat = 2 := rfl
  split
  · next hcol =>
    rw [UInt32.le_iff_toNat_le, htwo] at hcol
    change 1 = _
    omega
  · next hcol =>
    rw [UInt32.le_iff_toNat_le, htwo] at hcol
    rw [UInt32.toNat_sub_of_le _ _ (UInt32.le_iff_toNat_le.mpr (by change 1 ≤ _; omega))]
    change cursor.col.toNat - 1 = _
    omega

/-- The span of a row is around its tokens. -/
theorem covers_rowSpan {cursor : Cursor} {t : Token}
    (h : Within cursor.row.toNat 1 cursor.col.toNat t) : (rowSpan cursor).Covers t.span := by
  obtain ⟨hrow, hlast, hfirst, hle, hlt⟩ := h
  refine ⟨Position.le_iff.mpr (.inr ⟨hrow.symm, hfirst⟩), Position.le_iff.mpr (.inr ⟨?_, ?_⟩)⟩
  · change t.last.row.toNat = cursor.row.toNat
    rw [hlast, hrow]
  · change t.last.col.toNat ≤ _
    rw [toNat_col_stop_rowSpan]
    omega

/-- The span of a row has nothing in common with what stands on another. -/
theorem apart_rowSpan {cursor : Cursor} {t : Token} (hlast : t.last.row = t.start.row)
    (hrow : t.start.row.toNat ≠ cursor.row.toNat) : (rowSpan cursor).Apart t.span := by
  rintro p ⟨hp, ht⟩
  obtain ⟨hfrom, hto⟩ := Span.contains_iff.mp hp
  obtain ⟨hfrom', hto'⟩ := Span.contains_iff.mp ht
  have hrows : t.last.row.toNat = t.start.row.toNat := congrArg _ hlast
  rw [Position.le_iff] at hfrom hto hfrom' hto'
  simp only [rowSpan, Token.span] at hfrom hto hfrom' hto'
  omega

theorem start_le_stop_rowSpan (cursor : Cursor) : (rowSpan cursor).start ≤ (rowSpan cursor).stop := by
  refine Position.le_iff.mpr (.inr ⟨rfl, ?_⟩)
  rw [toNat_col_stop_rowSpan]
  exact Nat.le_max_left ..

/-! ## All rows -/

/-- Tokens in order, and finished statements one to a row from a row on, each on the row of the tokens
that belong to it. -/
structure StandsOnRows (row : Nat) (tokens : List Token) (rows : List (List Token × StatementNode)) :
    Prop where
  ordered : tokens.Pairwise (fun s t => s.last < t.start)
  within : ∀ t ∈ tokens, ∃ own first next, row ≤ own ∧ Within own first next t
  spans : ∀ {k ts node}, rows[k]? = some (ts, node) → ∃ cursor : Cursor,
    cursor.row.toNat = row + k ∧ node.span = rowSpan cursor ∧
      OnRow cursor.row.toNat 1 cursor.col.toNat ts
  owns : ∀ {k ts node}, rows[k]? = some (ts, node) → ∀ t ∈ tokens,
    t.start.row.toNat = row + k ↔ t ∈ ts

/-- Above some rows there is room for one more. -/
theorem StandsOnRows.cons {cursor : Cursor} {pending tokens : List Token} {node : StatementNode}
    {rows : List (List Token × StatementNode)}
    (hpending : OnRow cursor.row.toNat 1 cursor.col.toNat pending)
    (hspan : node.span = rowSpan cursor)
    (hrows : StandsOnRows (cursor.row.toNat + 1) tokens rows) :
    StandsOnRows cursor.row.toNat (pending ++ tokens) ((pending, node) :: rows) where
  ordered := by
    refine List.pairwise_append.mpr ⟨hpending.ordered, hrows.ordered, fun s hs t ht => ?_⟩
    have hleft := hpending.within s hs
    obtain ⟨own, _, _, hown, hright⟩ := hrows.within t ht
    refine Position.lt_iff.mpr (.inl ?_)
    rw [hleft.last_row, hleft.row_eq, hright.row_eq]
    omega
  within := by
    intro t ht
    rcases List.mem_append.mp ht with ht | ht
    · exact ⟨_, _, _, Nat.le_refl _, hpending.within t ht⟩
    · obtain ⟨own, first, next, hown, hwithin⟩ := hrows.within t ht
      exact ⟨own, first, next, by omega, hwithin⟩
  spans := by
    intro k ts other hk
    cases k with
    | zero =>
      cases hk
      exact ⟨cursor, rfl, hspan, hpending⟩
    | succ k =>
      obtain ⟨own, hrow, hown⟩ := hrows.spans hk
      exact ⟨own, by omega, hown⟩
  owns := by
    intro k ts other hk t ht
    -- tokens of the rows below are not on the first row, and those of the first row not below
    have hbelow : ∀ t ∈ tokens, cursor.row.toNat + 1 ≤ t.start.row.toNat := by
      intro t ht
      obtain ⟨own, _, _, hown, hwithin⟩ := hrows.within t ht
      rw [hwithin.row_eq]
      exact hown
    cases k with
    | zero =>
      cases hk
      rcases List.mem_append.mp ht with ht | ht
      · exact ⟨fun _ => ht, fun _ => (hpending.within t ht).row_eq⟩
      · have hrow := hbelow t ht
        refine ⟨fun h => by omega, fun h => ?_⟩
        rw [(hpending.within t h).row_eq]
        rfl
    | succ k =>
      obtain ⟨own, hrow, -, hon⟩ := hrows.spans hk
      rcases List.mem_append.mp ht with ht | ht
      · have habove := (hpending.within t ht).row_eq
        refine ⟨fun h => by omega, fun h => ?_⟩
        have hrow' := (hon.within t h).row_eq
        omega
      · rw [← hrows.owns hk t ht]
        omega

/-- Calls from a cursor on lay out rows, the first of which has some tokens already. -/
theorem standsOnRows_run (calls : List Call) {cursor : Cursor} {pending : List Token}
    (hpending : OnRow cursor.row.toNat 1 cursor.col.toNat pending) (hcol : 1 ≤ cursor.col.toNat)
    (hfits : Fits cursor.row.toNat cursor.col.toNat calls) :
    StandsOnRows cursor.row.toNat (pending ++ (runAll calls cursor).1.flatMap Answer.tokens)
      (rowsFrom pending (runAll calls cursor).1) := by
  induction calls generalizing cursor pending with
  | nil =>
    change StandsOnRows _ (pending ++ []) []
    rw [List.append_nil]
    exact ⟨hpending.ordered, fun t ht => ⟨_, _, _, Nat.le_refl _, hpending.within t ht⟩, by simp,
      by simp⟩
  | cons call rest ih =>
    rw [fst_runAll_cons, List.flatMap_cons, rowsFrom]
    rcases call.run_cases cursor with
      ⟨hends, node, answer, hrun, hnode, htokens, hspan⟩ | ⟨hends, answer, hrun, hnone, htokens⟩
    · -- the row is finished, and the next one has no tokens yet
      rw [Fits, if_pos hends] at hfits
      have hrow : (cursor.row + 1).toNat = cursor.row.toNat + 1 := toNat_add_ofNat hfits.1
      rw [hrun, htokens, List.nil_append]
      simp only [hnode]
      have hfits : Fits (cursor.row + 1).toNat 1 rest := by
        rw [hrow]
        exact hfits.2
      have hrest := @ih (.atRow (cursor.row + 1)) [] (.nil ..) (Nat.le_refl 1) hfits
      have hnext : (Cursor.atRow (cursor.row + 1)).row.toNat = cursor.row.toNat + 1 := hrow
      rw [List.nil_append, hnext] at hrest
      exact .cons hpending hspan hrest
    · -- the row goes on
      rw [Fits, if_neg (by simp [hends])] at hfits
      have hlt : cursor.col.toNat + width call.texts < UInt32.size := hfits.1
      obtain ⟨hlaid, hrow, hnext⟩ := onRow_laid cursor call.texts hlt
      rw [hrun, htokens, ← List.append_assoc]
      simp only [hnone]
      rw [← hnext] at hlaid hfits
      rw [← hrow] at hlaid hfits hpending ⊢
      exact ih (hpending.append hlaid hcol (by omega)) (by omega) hfits.2

theorem Answer.tokens_eq_nil {answer : Answer} {node : StatementNode}
    (h : answer.statement? = some node) : answer.tokens = [] := by
  cases answer with
  | node built => rfl
  | _ => cases h

/-- The tokens of the finished rows are the first that are handed out. -/
theorem flatMap_rowsFrom_prefix (pending : List Token) (answers : List Answer) :
    (rowsFrom pending answers).flatMap Prod.fst <+: pending ++ answers.flatMap Answer.tokens := by
  induction answers generalizing pending with
  | nil => exact List.nil_prefix
  | cons answer rest ih =>
    rw [rowsFrom, List.flatMap_cons]
    cases hnode : answer.statement? with
    | none =>
      rw [← List.append_assoc]
      exact ih (pending ++ answer.tokens)
    | some node =>
      rw [Answer.tokens_eq_nil hnode, List.nil_append, List.flatMap_cons]
      exact (List.prefix_append_right_inj _).mpr (ih [])

/-- A run lays out tokens, statements and structures in a consistent way, as long as positions can be
counted in 32 bits. Each token starts behind the one before, and no two have a position in common.
The statements are finished one to a row, starting with the first row. Each is on its row from the
first column on, and around all tokens handed out since the statement before, but has no position in
common with any other token. A tree that is built over finished statements is around each of the
statements in it, and lists them from left to right. -/
theorem run_laid_out (row : UInt32) (calls : List Call) (hfits : Fits row.toNat 1 calls) :
    let answers := (runAll calls (Cursor.atRow row)).1
    let tokens := answers.flatMap Answer.tokens
    let finished := rows answers
    tokens.Pairwise (fun s t => s.start < t.start ∧ s.span.Apart t.span) ∧
    finished.flatMap Prod.fst <+: tokens ∧
    (∀ k ts node, finished[k]? = some (ts, node) →
      node.span.start.row.toNat = row.toNat + k ∧ node.span.start.col = 1 ∧
      node.span.stop.row = node.span.start.row ∧
      ∀ t ∈ tokens, (t ∈ ts → node.span.Surrounds t.span) ∧ (t ∉ ts → node.span.Apart t.span)) ∧
    ∀ node : Node, node.BuiltFrom (finished.map Prod.snd) →
      (∀ s ∈ node.allStatements, node.span.Surrounds s.span) ∧
      InOrder node.At node.allStatements := by
  intro answers tokens finished
  have hstart : OnRow (Cursor.atRow row).row.toNat 1 (Cursor.atRow row).col.toNat [] := .nil ..
  have hstands : StandsOnRows row.toNat tokens finished :=
    standsOnRows_run calls hstart (Nat.le_refl 1) hfits
  refine ⟨?_, flatMap_rowsFrom_prefix [] answers, fun k ts node hk => ?_, fun node hbuilt => ?_⟩
  -- tokens stand one behind the other
  · refine List.Pairwise.imp_of_mem ?_ hstands.ordered
    intro s t hs _ hlt
    obtain ⟨_, _, _, -, hwithin⟩ := hstands.within s hs
    exact ⟨Position.lt_of_le_of_lt hwithin.start_le_last hlt, Span.apart_of_lt hlt⟩
  -- a statement surrounds its own tokens, and tokens of other rows are apart from it
  · obtain ⟨cursor, hrow, hspan, hon⟩ := hstands.spans hk
    rw [hspan]
    refine ⟨hrow, rfl, rfl, fun t ht => ⟨fun hts => ?_, fun hts => ?_⟩⟩
    · exact (covers_rowSpan (hon.within t hts)).surrounds (hon.within t hts).start_le_last
    · obtain ⟨_, _, _, -, hwithin⟩ := hstands.within t ht
      refine apart_rowSpan hwithin.last_row fun heq => hts ?_
      exact (hstands.owns hk t ht).mp (heq.trans hrow)
  -- a structure surrounds the statements below it
  · refine ⟨fun s hs => ?_, node.inOrder_allStatements⟩
    obtain ⟨hmem, hcovers⟩ := hbuilt.covers s hs
    obtain ⟨⟨ts, own⟩, hfinished, rfl⟩ := List.mem_map.mp hmem
    obtain ⟨k, hk⟩ := List.mem_iff_getElem?.mp hfinished
    obtain ⟨cursor, -, hspan, -⟩ := hstands.spans hk
    refine hcovers.surrounds ?_
    rw [hspan]
    exact start_le_stop_rowSpan cursor

/-- A row with tokens, one of them empty, a row without tokens, and a token on a row that is never
finished. -/
def comparing : List Call :=
  [.source "lv_b", .equal "lv_a" (.constant (.integer 1)), .token "", .statement .endMethod,
    .branch .body [], .statementWithText .endMethod "", .token "lv_c"]

/-- The tokens of the first statement stand on the fourth row; the second statement has none. -/
theorem run_laid_out_comparing :
    Fits 4 1 comparing ∧
    (rows (runAll comparing (.atRow 4)).1).map (fun row => (row.1.map (·.start), row.2.span)) =
      [([⟨4, 1⟩, ⟨4, 6⟩, ⟨4, 11⟩], ⟨⟨4, 1⟩, ⟨4, 11⟩⟩), ([], ⟨⟨5, 1⟩, ⟨5, 1⟩⟩)] ∧
    ((runAll comparing (.atRow 4)).1.flatMap Answer.tokens).Pairwise
      (fun s t => s.start < t.start ∧ s.span.Apart t.span) ∧
    let tree := StructureNode.spanning .method
      ((rows (runAll comparing (.atRow 4)).1).map fun row => .leaf row.2)
    ∀ s ∈ tree.allStatements, tree.span.Surrounds s.span := by
  have hfits : Fits 4 1 comparing := by decide
  obtain ⟨htokens, -, -, htrees⟩ := run_laid_out 4 comparing hfits
  refine ⟨hfits, rfl, htokens, ?_⟩
  intro tree
  have hbuilt : (Node.branch tree).BuiltFrom
      ((rows (runAll comparing (.atRow 4)).1).map Prod.snd) := by
    refine .branch fun child hchild => ?_
    obtain ⟨row, hrow, rfl⟩ := List.mem_map.mp hchild
    exact .leaf (List.mem_map_of_mem hrow)
  have hlisted : (Node.branch tree).allStatements = tree.allStatements := by rw [Node.allStatements]
  rw [← hlisted]
  exact (htrees (.branch tree) hbuilt).1

end Layout

end AbapLowering
