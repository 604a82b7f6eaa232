import AbapLowering.Proofs.Emission.Dispatch
import AbapLowering.Proofs.Mention

/-!
# Integers that are noted

Emitting an integer notes it for the declarations at the top of the unit.

- `integersOf`: the integers among some mentions of the source;
- `Emit.Notes ms m`: if `m` succeeds, it has noted the integers that `ms` mention and no others. This
  is composed like emitting itself, so each effect and each way to put effects together has a rule
  here. The order of the mentions does not matter (`Notes.perm`);
- what is noted stays noted, also by emitting that fails (`Assembled.keeps_integers`), and is always
  in ascending order (`Assembled.pairwise_integers`).
-/

namespace AbapLowering

/-- The integer that is mentioned, if it is one. -/
def Referent.integer? : Referent → Option Int64
  | .integer value => some value
  | .name _ | .symbol _ | .result _ => none

/-- The integers among some mentions. -/
def integersOf (ms : List Mention) : List Int64 := ms.filterMap fun u => u.referent.integer?

@[simp] theorem integersOf_nil : integersOf [] = [] := rfl

/-- Integers of mentions behind mentions. -/
@[simp] theorem integersOf_append (ms ns : List Mention) :
    integersOf (ms ++ ns) = integersOf ms ++ integersOf ns := List.filterMap_append

/-- What binds a name around a mention does not matter to integers. -/
@[simp] theorem integersOf_under (binder : Binder) (ms : List Mention) :
    integersOf (ms.map (.under binder)) = integersOf ms := by
  rw [integersOf, List.filterMap_map]
  rfl

/-! ## Ascending lists -/

/-- The value is put in, and nothing is lost. -/
theorem mem_insertAscending {n value : Int64} {l : List Int64} :
    n ∈ insertAscending value l ↔ n = value ∨ n ∈ l := by
  induction l with
  | nil => simp [insertAscending]
  | cons m rest ih =>
    rw [insertAscending]
    split
    · rw [List.mem_cons]
    · split
      next heq =>
        rw [heq, List.mem_cons, or_self_left]
      next =>
        rw [List.mem_cons, List.mem_cons, ih, or_left_comm]

/-- A list in ascending order stays so. -/
theorem pairwise_insertAscending (value : Int64) {l : List Int64} (h : l.Pairwise (· < ·)) :
    (insertAscending value l).Pairwise (· < ·) := by
  induction h with
  | nil => exact List.pairwise_singleton _ _
  | @cons m rest hm hrest ih =>
    rw [insertAscending]
    split
    next hlt =>
      refine List.pairwise_cons.mpr ⟨fun n hn => ?_, List.pairwise_cons.mpr ⟨hm, hrest⟩⟩
      rcases List.mem_cons.mp hn with rfl | hn
      · exact hlt
      · exact Int64.lt_trans hlt (hm n hn)
    next hnlt =>
      split
      · exact List.pairwise_cons.mpr ⟨hm, hrest⟩
      next hne =>
        -- the value is greater than the first one, so it goes further back
        refine List.pairwise_cons.mpr ⟨fun n hn => ?_, ih⟩
        rcases mem_insertAscending.mp hn with rfl | hn
        · exact Int64.lt_of_le_of_ne (Int64.not_lt.mp hnlt) (Ne.symm hne)
        · exact hm n hn

namespace Emit

variable {α β : Type} {ms ns : List Mention}

/-- Whatever succeeds has noted the integers that are mentioned, and no others. -/
def Notes (ms : List Mention) (m : Emit α) : Prop :=
  ∀ context s a s', m context s = .ok a s' →
    ∀ n, n ∈ s'.integers ↔ n ∈ s.integers ∨ n ∈ integersOf ms

namespace Notes

/-! ## Composition -/

/-- What leaves the noted integers as they are notes nothing. -/
theorem of_frame {m : Emit α}
    (h : ∀ context s a s', m context s = .ok a s' → s'.integers = s.integers) : Notes [] m := by
  intro context s a s' hrun n
  rw [h context s a s' hrun]
  simp

/-- A value notes nothing. -/
theorem pure {a : α} : Notes [] (Pure.pure a : Emit α) := by
  refine of_frame ?_
  rintro _ _ _ _ ⟨⟩
  rfl

/-- What fails may claim to note anything. -/
theorem throw (why : Abort) : Notes ms (MonadExcept.throw why : Emit α) := by
  rintro _ _ _ _ ⟨⟩

theorem fail (error : LoweringError) : Notes ms (Emit.fail error : Emit α) := throw _

/-- One after the other notes what both note. -/
theorem bind {m : Emit α} {f : α → Emit β} (hm : Notes ms m) (hf : ∀ a, Notes ns (f a)) :
    Notes (ms ++ ns) (m >>= f) := by
  intro context s b s'' h n
  obtain ⟨a, s', ha, hb⟩ := bind_eq_ok h
  rw [hf a _ _ _ _ hb n, hm _ _ _ _ ha n, integersOf_append, List.mem_append, or_assoc]

/-- What is emitted before notes nothing. -/
theorem after {m : Emit α} {f : α → Emit β} (hm : Notes [] m) (hf : ∀ a, Notes ns (f a)) :
    Notes ns (m >>= f) := hm.bind hf

/-- What is emitted before notes nothing, and what it gives is known. -/
theorem after_of {Q : α → Prop} {m : Emit α} {f : α → Emit β} (hm : Notes [] m)
    (hQ : ∀ v, m.Yields v Q) (hf : ∀ a, Q a → Notes ns (f a)) : Notes ns (m >>= f) := by
  intro context s b s'' h n
  obtain ⟨a, s', ha, hb⟩ := bind_eq_ok h
  have hframe := hm _ _ _ _ ha n
  rw [integersOf_nil] at hframe
  rw [hf a (hQ _ _ _ _ _ ha) _ _ _ _ hb n, hframe]
  simp

/-- What is emitted afterwards notes nothing. -/
theorem before {m : Emit α} {f : α → Emit β} (hm : Notes ms m) (hf : ∀ a, Notes [] (f a)) :
    Notes ms (m >>= f) := by
  simpa using hm.bind hf

/-- The value is used to build the result. -/
theorem give {m : Emit α} {g : α → β} (hm : Notes ms m) :
    Notes ms (m >>= fun a => Pure.pure (g a)) := hm.before fun _ => pure

/-- The order of the mentions does not matter. -/
theorem perm {m : Emit α} (hm : Notes ms m) (hperm : ms.Perm ns) : Notes ns m := by
  intro context s a s' hrun n
  have hsame : n ∈ integersOf ms ↔ n ∈ integersOf ns := (hperm.filterMap _).mem_iff
  rw [hm context s a s' hrun n, hsame]

/-- What follows is mentioned before. -/
theorem bind_swap {m : Emit α} {f : α → Emit β} (hm : Notes ns m) (hf : ∀ a, Notes ms (f a)) :
    Notes (ms ++ ns) (m >>= f) := (hm.bind hf).perm List.perm_append_comm

/-- Only the integers among the mentions matter. -/
theorem congr {m : Emit α} (hm : Notes ms m) (hsame : integersOf ms = integersOf ns) :
    Notes ns m := by
  intro context s a s' hrun n
  rw [hm context s a s' hrun n, hsame]

/-- The same holds where a name is bound around the mentions. -/
theorem under (binder : Binder) {m : Emit α} (hm : Notes ms m) :
    Notes (ms.map (.under binder)) m := hm.congr (integersOf_under binder ms).symm

/-! ## Effects -/

/-- A question changes at most what was looked up last. -/
theorem ask (question : View → Query α) : Notes [] (Emit.ask question) := by
  refine of_frame fun context s a s' h => ?_
  unfold Emit.ask at h
  split at h
  next =>
    cases h
    rfl
  next => cases h

theorem read : Notes [] (MonadReader.read : Emit Context) := by
  refine of_frame ?_
  rintro _ _ _ _ ⟨⟩
  rfl

theorem walk (walk : View → Except GraphFault α) : Notes [] (Emit.walk walk) := ask _

theorem classAddress (name : String) (position : Position) :
    Notes [] (Emit.classAddress name position) := ask _

/-- An integer is noted. -/
theorem integer (value : Int64) :
    Notes (Referent.integer value).mentioned (Emit.integer value) := by
  rintro _ s _ _ ⟨⟩ n
  rw [mem_insertAscending, or_comm]
  simp [integersOf, Referent.mentioned, Referent.integer?]

/-- To draw a temporary notes nothing. -/
theorem temporary : Notes [] Emit.temporary := by
  refine of_frame ?_
  rintro _ _ _ _ ⟨⟩
  rfl

/-- To empty the queue of guards notes nothing. -/
theorem drain : Notes [] Emit.drain := by
  refine of_frame ?_
  rintro _ _ _ _ ⟨⟩
  rfl

theorem takeHoisted : Notes [] Emit.takeHoisted := drain.give

/-- To warn notes nothing. -/
theorem warn (message : String) (position : Option Position) :
    Notes [] (Emit.warn message position) := by
  refine of_frame ?_
  rintro _ _ _ _ ⟨⟩
  rfl

theorem countStatement : Notes [] Emit.countStatement := by
  refine of_frame ?_
  rintro _ _ _ _ ⟨⟩
  rfl

theorem register (line : String) : Notes [] (Emit.register line) := by
  refine of_frame ?_
  rintro _ s _ _ ⟨⟩
  change (if line ∈ s.registrations then s else _).integers = s.integers
  split <;> rfl

/-- The constructor of a type spells lengths as they are and notes nothing. -/
theorem typeConstructor (type : DataType) : Notes [] (Emit.typeConstructor type) := by
  refine of_frame fun context s a s' h => ?_
  rw [(typeConstructor_eq_ok h).1]

/-- To queue a guard notes nothing. -/
theorem requireTarget (kind : GuardKind) (target : String) :
    Notes [] (Emit.requireTarget kind target) := by
  refine of_frame fun context s a s' h => ?_
  rw [requireTarget_eq_ok h]

theorem guarded (condition : String) : Notes [] (Emit.guarded condition) := by
  refine drain.after fun lines => ?_
  split
  · exact pure
  · exact pure

theorem qualifiedName (token : Token) : Notes [] (Emit.qualifiedName token) := by
  refine (ask _).after fun resolution => ?_
  cases resolution with
  | interfaceAttribute owner => exact (classAddress _ _).give
  | foreignAttribute owner => exact (classAddress _ _).give
  | _ => exact pure

/-! ## Parts -/

/-- A list of effects notes what its items note, one after the other. -/
theorem mapM {mentions : α → List Mention} {f : α → Emit β} (items : List α)
    (h : ∀ a, Notes (mentions a) (f a)) : Notes (items.flatMap mentions) (items.mapM f) := by
  induction items with
  | nil => exact pure
  | cons a rest ih =>
    rw [List.mapM_cons, List.flatMap_cons]
    exact (h a).bind fun _ => ih.give

/-- Several things that note nothing. -/
theorem mapM_nil {f : α → Emit β} (items : List α) (h : ∀ a, Notes [] (f a)) :
    Notes [] (items.mapM f) := by
  induction items with
  | nil => exact pure
  | cons a rest ih =>
    rw [List.mapM_cons]
    exact (h a).after fun _ => ih.give

variable {mentions : α → List Mention} {emit : α → Emit String}

theorem named (key : String) {value : Emit String} (h : Notes ms value) :
    Notes ms (Emit.named key value) := h.give

/-- An optional argument that is not given mentions nothing. -/
theorem namedIfGiven (key : String) (value : Option α) (h : ∀ a, Notes (mentions a) (emit a)) :
    Notes (value.elim [] mentions) (Emit.namedIfGiven key value emit) := by
  cases value with
  | none => exact pure
  | some a => exact (named key (h a)).give

/-- A list of arguments notes what its items mention. -/
theorem namedListIfAny (key separator : String) (items : List α)
    (h : ∀ a, Notes (mentions a) (emit a)) :
    Notes (items.flatMap mentions) (Emit.namedListIfAny key separator items emit) := by
  cases items with
  | nil => exact pure
  | cons a rest => exact (mapM (a :: rest) h).give

end Notes

/-! ## What stays -/

variable {P : List Int64 → Prop}

/-- What holds of the noted integers and is kept by noting one more still holds after what is built,
whether or not it fails. -/
theorem Built.integers_induct (hP : ∀ value l, P l → P (insertAscending value l)) {effects : Effects}
    {m : Emit α} (h : m.Built effects) (context : Context) {s : EmissionState}
    (hs : P s.integers) : P (m.endState context s).integers := by
  refine h.endState_induct (Q := fun t => P t.integers) (fun t t' hstep ht => ?_) context hs
  cases hstep with
  | integer value => exact hP value _ ht
  | _ => exact ht

/-- What holds of the noted integers, and still does when one is put in, holds at the end. -/
theorem Assembled.integers_induct (hP : ∀ value l, P l → P (insertAscending value l))
    {m : Emit α} (h : m.Assembled) (context : Context) {s : EmissionState}
    (hs : P s.integers) : P (m.endState context s).integers := by
  induction h generalizing s with
  | built h => exact h.integers_induct hP context hs
  | countStatement => exact hs
  | @bind α β m f _ _ ihm ihf =>
    exact endState_bind_induct (fun s => P s.integers) (ihm hs) fun a _ hs' => ihf a hs'

/-- No integer is taken away. -/
theorem Assembled.keeps_integers {m : Emit α} (h : m.Assembled) (context : Context)
    {s : EmissionState} {n : Int64} (hn : n ∈ s.integers) :
    n ∈ (m.endState context s).integers :=
  h.integers_induct (fun _ _ hn => mem_insertAscending.mpr (.inr hn)) context hn

/-- The integers stay in ascending order. -/
theorem Assembled.pairwise_integers {m : Emit α} (h : m.Assembled) (context : Context)
    {s : EmissionState} (hs : s.integers.Pairwise (· < ·)) :
    (m.endState context s).integers.Pairwise (· < ·) :=
  h.integers_induct (fun value _ hl => pairwise_insertAscending value hl) context hs

end Emit

end AbapLowering
