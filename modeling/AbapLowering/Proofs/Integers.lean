import AbapLowering.Lowering
import AbapLowering.Proofs.Code.Spelling
import AbapLowering.Proofs.Integers.Tree
import Mathlib.Data.List.Nodup

/-!
# The declarations of integers

Code does not spell integers. It refers to operands that are declared at the top of the unit:

- each integer has a name of its own (`Identifier.integer_injective`);
- what code refers to is declared, once and in ascending order, and nothing else is
  (`SourceUnit.lower_integers_exact`): the integers noted while a tree is emitted are those that its
  source mentions, and each mention is spelled by the name of the integer.
-/

namespace AbapLowering

/-! ## Names of integers -/

namespace Identifier

/-- Numbers with the same digits are the same. -/
theorem digits_injective {m n : Nat} (h : toString m = toString n) : m = n := by
  rw [Nat.toString_eq_ofList_toDigits, Nat.toString_eq_ofList_toDigits, String.ofList_inj] at h
  rw [← Nat.ofDigitChars_ten_toDigits (n := m), h, Nat.ofDigitChars_ten_toDigits]

/-- The name of an integer from its sign and its digits. -/
theorem integer_eq (value : Int64) : integer value =
    (if value.toInt < 0 then "constant_minus_" else "constant_")
      ++ toString value.toInt.natAbs := by
  rw [integer]
  split
  · rfl
  next hnonneg =>
    -- the digits of an integer that is not negative are those of its absolute value
    obtain ⟨n, hn⟩ := Int.eq_ofNat_of_zero_le (Int.not_lt.mp hnonneg)
    rw [hn]
    rfl

/-- A name with a sign does not read like one without. -/
theorem constant_minus_ne (m n : Nat) :
    "constant_minus_" ++ toString m ≠ "constant_" ++ toString n := by
  intro heq
  have hsplit : "constant_" ++ ("minus_" ++ toString m) = "constant_" ++ toString n := by
    rw [← heq, ← String.append_assoc]
    rfl
  -- the second underscore would have to be a digit
  have hunderscore : '_' ∈ (toString n).toList := by
    rw [← (String.append_right_inj _).mp hsplit]
    simp
  exact absurd (Template.isAlphanum_of_mem_digits hunderscore) (by decide)

/-- Different integers have different names. -/
theorem integer_injective : Function.Injective integer := by
  intro a b h
  rw [integer_eq, integer_eq] at h
  have hsame : (a.toInt < 0 ↔ b.toInt < 0) ∧ a.toInt.natAbs = b.toInt.natAbs := by
    by_cases ha : a.toInt < 0
    · by_cases hb : b.toInt < 0
      · rw [if_pos ha, if_pos hb, String.append_right_inj] at h
        exact ⟨iff_of_true ha hb, digits_injective h⟩
      · rw [if_pos ha, if_neg hb] at h
        exact absurd h (constant_minus_ne _ _)
    · by_cases hb : b.toInt < 0
      · rw [if_neg ha, if_pos hb] at h
        exact absurd h.symm (constant_minus_ne _ _)
      · rw [if_neg ha, if_neg hb, String.append_right_inj] at h
        exact ⟨iff_of_false ha hb, digits_injective h⟩
  exact Int64.toInt_inj.mp (by omega)

end Identifier

/-! ## Where integers are spelled -/

/-- What is used stands somewhere in the text. -/
theorem Marked.exists_plain_eq {m : Marked} {use : Use} (h : use ∈ m.uses) :
    ∃ front back, m.plain = front ++ use.occurrence.text ++ back := by
  induction m generalizing use with
  | text s => cases h
  | use referent occurrence =>
    cases List.mem_singleton.mp h
    exact ⟨"", "", by simp [plain]⟩
  | append first second ihfirst ihsecond =>
    rcases List.mem_append.mp h with h | h
    · obtain ⟨front, back, heq⟩ := ihfirst h
      exact ⟨front, back ++ second.plain, by simp only [plain, heq, String.append_assoc]⟩
    · obtain ⟨front, back, heq⟩ := ihsecond h
      exact ⟨first.plain ++ front, back, by simp only [plain, heq, String.append_assoc]⟩
  | bound binder body ih =>
    obtain ⟨inner, hinner, rfl⟩ := List.mem_map.mp h
    obtain ⟨front, back, heq⟩ := ih hinner
    exact ⟨binder.start ++ front, back ++ binder.stop, by
      simp only [plain, heq, Use.under, String.append_assoc]⟩

/-- An integer is among those mentioned if some mention is of it. -/
theorem mem_integersOf {ms : List Mention} {n : Int64} :
    n ∈ integersOf ms ↔ ∃ mention ∈ ms, mention.referent = .integer n := by
  rw [integersOf, List.mem_filterMap]
  refine exists_congr fun mention => and_congr_right fun _ => ?_
  cases mention.referent <;> simp [Referent.integer?]

namespace Marked.Faithful

variable {v : View} {m : Marked}

/-- An integer is spelled by its name. -/
theorem text_of_integer (h : m.Faithful v) (use : Use) (huse : use ∈ m.uses) (n : Int64)
    (hreferent : use.mention.referent = .integer n) :
    use.occurrence.text = Identifier.integer n := by
  have hoccurs := h use huse
  rw [hreferent] at hoccurs
  have hinteger : use.occurrence = .integer n := hoccurs
  rw [hinteger]
  rfl

/-- Each integer that is mentioned is spelled somewhere. -/
theorem exists_integer (h : m.Faithful v) {n : Int64} (hn : n ∈ integersOf m.mentions) :
    ∃ front back, m.plain = front ++ Identifier.integer n ++ back := by
  obtain ⟨mention, hmention, hreferent⟩ := mem_integersOf.mp hn
  obtain ⟨use, huse, rfl⟩ := List.mem_map.mp hmention
  rw [← h.text_of_integer use huse n hreferent]
  exact exists_plain_eq huse

end Marked.Faithful

/-! ## Integers of units -/

namespace SourceUnit

/-- The integers that a unit declares are exact. If the unit can be lowered, what its source mentions
is spelled in the body by the names of the integers, and just these integers are noted, in ascending
order. Nothing that is emitted on the way takes one away, and no two of them have the same name. If
they are declared, each is, once, before the body, in this order and with its value. -/
theorem lower_integers_exact {u : SourceUnit} {config : Config} {registry : Registry}
    {issued issued' : Nat} {out : LoweredUnit}
    (h : u.lower config registry issued = (.ok out, issued')) :
    ∃ body state,
      u.root.emitRoot ⟨u.view registry, config⟩ (.initial issued) = .ok body state ∧
      out = u.assemble config (u.ownerWarning? registry) body state ∧
      (∃ marked : Marked, marked.plain = body.text ∧ marked.mentions = u.root.rootMentions ∧
        ∀ use ∈ marked.uses, ∀ n, use.mention.referent = .integer n →
          use.occurrence.text = Identifier.integer n) ∧
      (∀ n ∈ integersOf u.root.rootMentions, ∃ front back,
        body.text = front ++ Identifier.integer n ++ back) ∧
      (∀ n, n ∈ state.integers ↔ n ∈ integersOf u.root.rootMentions) ∧
      state.integers.Pairwise (· < ·) ∧
      (∀ {α : Type} {part : Emit α}, part.Assembled → ∀ context s,
        s.integers ⊆ (part.endState context s).integers) ∧
      Function.Injective Identifier.integer ∧
      (config.constantsPrelude = true →
        out.code = Emit.endLines (state.integers.map fun n =>
            "const " ++ Identifier.integer n ++ " = new abap.types.Integer().set("
              ++ toString n.toInt ++ ");")
          ++ (let whole := body.text ++ Emit.endLines (registration config state.registrations)
            if config.indent then Indentation.indent whole else whole) ∧
        ∀ n ∈ integersOf u.root.rootMentions,
          (state.integers.map Identifier.integer).count (Identifier.integer n) = 1) := by
  unfold lower at h
  split at h
  · cases h
  split at h
  next body state hemit =>
    cases h
    obtain ⟨marked, hplain, hmentions, hfaithful⟩ := u.root.marks_emitRoot _ _ _ _ hemit
    have hexact : ∀ n, n ∈ state.integers ↔ n ∈ integersOf u.root.rootMentions := by
      intro n
      rw [u.root.notes_emitRoot _ _ _ _ hemit n]
      simp [EmissionState.initial]
    have hascending : state.integers.Pairwise (· < ·) := by
      have hend := u.root.assembled_emitRoot.pairwise_integers ⟨u.view registry, config⟩
        (s := .initial issued) List.Pairwise.nil
      rwa [Emit.endState_of_ok hemit] at hend
    refine ⟨body, state, hemit, rfl, ⟨marked, hplain, hmentions, hfaithful.text_of_integer⟩, ?_,
      hexact, hascending, fun hpart context s n => hpart.keeps_integers context,
      Identifier.integer_injective, fun hprelude => ⟨?_, ?_⟩⟩
    · intro n hn
      rw [← hplain]
      rw [← hmentions] at hn
      exact hfaithful.exists_integer hn
    · rw [assemble, prelude, if_pos hprelude]
      rfl
    · -- the integers are different, and so are their names
      intro n hn
      have hnodup : (state.integers.map Identifier.integer).Nodup :=
        (hascending.imp Int64.ne_of_lt).map _ fun _ _ hne heq =>
          hne (Identifier.integer_injective heq)
      exact List.count_eq_one_of_mem hnodup (List.mem_map_of_mem ((hexact n).mpr hn))
  next => cases h

/-- A program that adds two integers. -/
def addingIntegers : SourceUnit :=
  let sum : Source := .arithmetic (.constant (.integer 7)) .add (.constant (.integer Int64.minValue))
  let move : StatementNode :=
    ⟨.move sum (.ofField ⟨"lv_sum", ⟨1, 1⟩⟩), ⟨⟨1, 1⟩, ⟨1, 35⟩⟩,
      "lv_sum = 7 + -9223372036854775808."⟩
  { file := "zfoo.prog.abap"
    object := ⟨.prog, "ZFOO"⟩
    root := ⟨.program, [.leaf move], ⟨⟨1, 1⟩, ⟨1, 35⟩⟩⟩
    scopes := ⟨#[.fresh .program "zfoo" "zfoo.prog.abap" ⟨⟨1, 1⟩, ⟨9, 1⟩⟩ none]⟩ }

/-- The program names two integers, the least of all among them, and just these are noted. -/
theorem lower_integers_exact_addingIntegers :
    ∃ out body state, addingIntegers.lower .standard .empty 0 = (.ok out, 0) ∧
      addingIntegers.root.emitRoot ⟨addingIntegers.view .empty, .standard⟩ (.initial 0) =
        .ok body state ∧
      (∀ n, n ∈ state.integers ↔ n = 7 ∨ n = Int64.minValue) ∧
      ∃ front back, body.text = front ++ "constant_minus_9223372036854775808" ++ back := by
  have hsucceeds : (addingIntegers.lower .standard .empty 0).1.toOption.isSome ∧
      (addingIntegers.lower .standard .empty 0).2 = 0 := by decide +kernel
  obtain ⟨out, hout⟩ : ∃ out, addingIntegers.lower .standard .empty 0 = (.ok out, 0) := by
    revert hsucceeds
    rcases addingIntegers.lower .standard .empty 0 with ⟨_ | out, issued⟩
    · rintro ⟨⟨⟩, -⟩
    · rintro ⟨-, rfl⟩
      exact ⟨out, rfl⟩
  obtain ⟨body, state, hemit, -, -, hspelled, hexact, -⟩ := lower_integers_exact hout
  have hmentioned : integersOf addingIntegers.root.rootMentions = [7, Int64.minValue] := by rfl
  have hname : Identifier.integer Int64.minValue = "constant_minus_9223372036854775808" := by rfl
  rw [hmentioned] at hspelled hexact
  refine ⟨out, body, state, hout, hemit, fun n => ?_, ?_⟩
  · rw [hexact n, List.mem_cons, List.mem_singleton]
  · rw [← hname]
    exact hspelled _ (by simp)

end SourceUnit

end AbapLowering
