import AbapLowering.Proofs.Blocks.View
import AbapLowering.Proofs.Code.Nesting
import AbapLowering.Proofs.Emission.Outcome

/-!
# What emitting keeps

While a unit is emitted, lines wait for the statement they stand before, and others are noted that
register classes. None of them opens or closes a block (`EmissionState.Inline`), and all emitting
keeps it so. `Emit.Keeps w v m P`: this is kept, and what is emitted satisfies `P`. A property of
what is emitted therefore only needs to hold of the last effect, given what the effects before it
gave, and every effect has a rule here.
-/

namespace AbapLowering

open Script

/-- The lines that are kept for later neither open nor close a block. -/
structure EmissionState.Inline (w : Wording) (s : EmissionState) : Prop where
  hoisted : ∀ line ∈ s.hoisted, Script.Inline w line
  registrations : ∀ line ∈ s.registrations, Script.Inline w line

namespace Emit

variable {w : Wording} {v : View} {α β : Type} {P : α → Prop} {Q : β → Prop}

/-- Whatever is emitted for a unit satisfies `P`, and the lines kept for later stay as they should
be. -/
def Keeps (w : Wording) (v : View) (m : Emit α) (P : α → Prop) : Prop :=
  ∀ config s a s', m ⟨v, config⟩ s = .ok a s' → s.Inline w → s'.Inline w ∧ P a

namespace Keeps

/-! ## Composition -/

/-- A value that satisfies the property. -/
theorem pure {a : α} (h : P a) : Keeps w v (Pure.pure a) P := by
  rintro _ _ _ _ ⟨⟩ hs
  exact ⟨hs, h⟩

/-- What fails keeps everything. -/
theorem throw (why : Abort) : Keeps w v (MonadExcept.throw why : Emit α) P := by
  rintro _ _ _ _ ⟨⟩

theorem fail (error : LoweringError) : Keeps w v (Emit.fail error : Emit α) P := throw _

/-- The context is that of the unit at hand. -/
theorem read : Keeps w v (MonadReader.read : Emit Context) fun context => context.view = v := by
  rintro _ _ _ _ ⟨⟩ hs
  exact ⟨hs, rfl⟩

/-- One after the other, where the second may rely on what the first gave. -/
theorem bind {m : Emit α} {f : α → Emit β} (hm : Keeps w v m P)
    (hf : ∀ a, P a → Keeps w v (f a) Q) : Keeps w v (m >>= f) Q := by
  intro config s b s'' h hs
  obtain ⟨a, s', ha, hb⟩ := bind_eq_ok h
  obtain ⟨hs', hp⟩ := hm _ _ _ _ ha hs
  exact hf a hp _ _ _ _ hb hs'

/-- The property can be made weaker. -/
theorem mono {m : Emit α} (h : Keeps w v m P) {P' : α → Prop} (hP : ∀ a, P a → P' a) :
    Keeps w v m P' := by
  intro config s a s' hrun hs
  obtain ⟨hs', hp⟩ := h _ _ _ _ hrun hs
  exact ⟨hs', hP a hp⟩

/-- An effect that gives its value and leaves the lines as they are. -/
theorem of_frame {m : Emit α} (h : ∀ config s a s', m ⟨v, config⟩ s = .ok a s' →
    s'.hoisted = s.hoisted ∧ s'.registrations = s.registrations ∧ P a) : Keeps w v m P := by
  intro config s a s' hrun hs
  obtain ⟨hhoisted, hregistrations, hp⟩ := h _ _ _ _ hrun
  exact ⟨⟨hhoisted ▸ hs.hoisted, hregistrations ▸ hs.registrations⟩, hp⟩

/-! ## Effects -/

/-- The answer has the properties that the question guarantees. -/
theorem ask {question : View → Query α} (h : (question v).All P) :
    Keeps w v (Emit.ask question) P := by
  refine of_frame fun config s a s' hrun => ?_
  unfold Emit.ask at hrun
  dsimp only at hrun
  split at hrun
  next slot hanswer =>
    cases hrun
    exact ⟨rfl, rfl, h.of_run hanswer⟩
  next => cases hrun

/-- A question whose answer does not matter. -/
theorem asked (question : View → Query α) : Keeps w v (Emit.ask question) fun _ => True :=
  ask (.true _)

theorem walk {walk : View → Except GraphFault α} (h : ∀ a, walk v = .ok a → P a) :
    Keeps w v (Emit.walk walk) P := ask (.walk h)

/-- The address of a class is worded like the view and the name. -/
theorem classAddress (hv : v.Worded w) {name : String} (hname : w.Word name)
    (position : Position) : Keeps w v (Emit.classAddress name position) (Script.Inline w) :=
  ask (hv.classAddress hname position)

/-- A temporary is named by a word. -/
theorem temporary : Keeps w v Emit.temporary w.Word := by
  refine of_frame ?_
  rintro _ _ _ _ ⟨⟩
  exact ⟨rfl, rfl, Wording.word_temporary _⟩

/-- The constant of an integer is named by a word. -/
theorem integer (value : Int64) : Keeps w v (Emit.integer value) w.Word := by
  refine of_frame ?_
  rintro _ _ _ _ ⟨⟩
  exact ⟨rfl, rfl, Wording.word_integer value⟩

theorem warn (message : String) (position : Option Position) :
    Keeps w v (Emit.warn message position) fun _ => True := by
  refine of_frame ?_
  rintro _ _ _ _ ⟨⟩
  exact ⟨rfl, rfl, trivial⟩

theorem countStatement : Keeps w v Emit.countStatement fun _ => True := by
  refine of_frame ?_
  rintro _ _ _ _ ⟨⟩
  exact ⟨rfl, rfl, trivial⟩

/-- What waited in the queue are lines that open nothing. -/
theorem drain : Keeps w v Emit.drain (InlineAll w) := by
  rintro _ s _ _ ⟨⟩ hs
  exact ⟨⟨nofun, hs.registrations⟩, hs.hoisted⟩

theorem takeHoisted : Keeps w v Emit.takeHoisted fun text => ∀ d, Leads w d text d :=
  .bind drain fun _ hlines => .pure fun _ => .inlines hlines

/-- A condition stays one when the waiting lines are run before it. -/
theorem guarded {condition : String} (h : Script.Inline w condition) :
    Keeps w v (Emit.guarded condition) (Script.Inline w) := by
  refine .bind drain fun lines hlines => ?_
  split
  · exact .pure h
  · refine .pure (((Reads.fixed rfl).andInline ?_).andFixed rfl |>.andInline h)
    exact hlines.intercalate (.fixed rfl)

/-- A line that opens nothing may be kept for the end. -/
theorem register {line : String} (h : Script.Inline w line) :
    Keeps w v (Emit.register line) fun _ => True := by
  rintro _ s _ _ ⟨⟩ hs
  refine ⟨?_, trivial⟩
  dsimp only
  split
  · exact hs
  · refine ⟨hs.hoisted, fun l hl => ?_⟩
    rcases List.mem_append.mp hl with hl | hl
    · exact hs.registrations l hl
    · exact List.mem_singleton.mp hl ▸ h

/-- The guard of a name that is read at run time. -/
theorem requireTarget (kind : GuardKind) {target : String} (h : Script.Inline w target) :
    Keeps w v (Emit.requireTarget kind target) fun _ => True := by
  intro config s a s' hrun hs
  obtain rfl := requireTarget_eq_ok hrun
  refine ⟨⟨fun line hline => ?_, hs.registrations⟩, trivial⟩
  have hexception : w.Word kind.exception := by cases kind <;> exact .of_strict (by decide)
  have haddress := hexception.inline_lookup
  simp only [List.mem_append, List.mem_singleton] at hline
  rcases hline with (hline | rfl) | rfl
  · exact hs.hoisted line hline
  · exact (((((((Reads.fixed rfl).andInline h).andFixed rfl).andInline haddress).andFixed
      rfl).andName hexception rfl).andFixed rfl)
  · exact ((((Reads.fixed rfl).andInline h).andFixed rfl).andInline haddress).andFixed rfl

/-! ## Parts -/

/-- Each item gives what it should. -/
theorem mapM {f : α → Emit β} {items : List α} (h : ∀ a ∈ items, Keeps w v (f a) Q) :
    Keeps w v (items.mapM f) fun parts => ∀ b ∈ parts, Q b := by
  induction items with
  | nil => exact .pure nofun
  | cons a rest ih =>
    obtain ⟨ha, hrest⟩ := List.forall_mem_cons.mp h
    rw [List.mapM_cons]
    exact .bind ha fun b hb => .bind (ih hrest) fun bs hbs =>
      .pure (List.forall_mem_cons.mpr ⟨hb, hbs⟩)

/-- A named argument stands within a line if its name and value do. -/
theorem named {key : String} {value : Emit String} (hkey : Script.Inline w key)
    (h : Keeps w v value (Script.Inline w)) : Keeps w v (Emit.named key value) (Script.Inline w) :=
  .bind h fun _ htext => .pure ((hkey.andFixed rfl).andInline htext)

variable {emit : α → Emit String}

/-- An optional argument is one item or none. -/
theorem namedIfGiven {key : String} (hkey : Script.Inline w key) {value : Option α}
    (h : ∀ a ∈ value, Keeps w v (emit a) (Script.Inline w)) :
    Keeps w v (Emit.namedIfGiven key value emit) (InlineAll w) := by
  cases value with
  | none => exact .pure nofun
  | some a => exact .bind (named hkey (h a rfl)) fun _ htext => .pure (.single htext)

theorem namedListIfAny {key separator : String} (hkey : Script.Inline w key)
    (hseparator : Script.Inline w separator) {items : List α}
    (h : ∀ a ∈ items, Keeps w v (emit a) (Script.Inline w)) :
    Keeps w v (Emit.namedListIfAny key separator items emit) (InlineAll w) := by
  unfold Emit.namedListIfAny
  split
  · exact .pure nofun
  · refine .bind (mapM h) fun parts hparts => .pure ?_
    have hlist : Script.InlineAll w parts := hparts
    exact .single (((hkey.andFixed rfl).andInline (hlist.intercalate hseparator)).andFixed rfl)

end Keeps

end Emit

end AbapLowering
