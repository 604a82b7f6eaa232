import AbapLowering.Proofs.Emission.Outcome
import AbapLowering.Proofs.Mention

/-!
# Marked texts

A text in which the places are marked that spell something the source mentions, and the stretches
within which the code binds a name of its own:

- `Marked.uses`: what is spelled, in the order of the text, with the binders around it;
- `Referent.OccursAs`: what may stand for something mentioned, by the scopes of the unit;
- `Marks v ms text`: a text can be marked so that just the mentions `ms` are spelled, in this order.
  This is kept when texts are put together (`Marks.append`), also as lists of parts (`MarksAll`).
-/

namespace AbapLowering

/-- What stands for something mentioned. -/
inductive Occurrence where
  /-- A variable or parameter, by its name. -/
  | plain (name : String)
  | symbol (name : String)
  | integer (value : Int64)
  /-- What is no name of a variable, parameter or field symbol. -/
  | other (text : String)
  deriving DecidableEq

/-- How it is spelled. -/
def Occurrence.text : Occurrence → String
  | .plain name => Identifier.plain name
  | .symbol name => Identifier.fieldSymbol name
  | .integer value => Identifier.integer value
  | .other text => text

/-- Whether a question about the unit can be answered so, whatever scope was found last. -/
def View.Answers {α : Type} (v : View) (question : Query α) (a : α) : Prop :=
  ∃ slot slot', question.run v.graph v.file slot = .ok a slot'

/-- The parameter that a method hands back. -/
def Flow.handedBack? (m : EnclosingMethod) : Option MethodParameter :=
  if m.isConstructor then none else m.returning?

/-- What may stand for something mentioned: a name stands for itself if it is not bound to a member
or to something builtin, and where a method hands back a parameter, the name of the parameter. -/
def Referent.OccursAs (v : View) : Referent → Occurrence → Prop
  | .name token, o => ∃ resolution, v.Answers (v.resolve token) resolution ∧
    if resolution = .localName then o = .plain token.text else ∃ text, o = .other text
  | .symbol token, o => o = .symbol token.text
  | .integer value, o => o = .integer value
  | .result position, o => ∃ enclosing, v.Answers (v.enclosingMethod position) enclosing ∧
    match enclosing.bind Flow.handedBack? with
    | some p => o = .plain p.name
    | none => ∃ text, o = .other text

/-! ## Marked texts -/

/-- A mention and what stands for it. -/
structure Use where
  mention : Mention
  occurrence : Occurrence
  deriving DecidableEq

/-- The use with one more binder around it. -/
def Use.under (binder : Binder) (u : Use) : Use := { u with mention := u.mention.under binder }

/-- What binds a name, up to the stretch where it is bound. -/
def Binder.start : Binder → String
  | .row => "(i) => \x7breturn "
  | .caught => "\x7d catch (e) \x7b\n"

/-- What ends the stretch. -/
def Binder.stop : Binder → String
  | .row => ";\x7d"
  | .caught => "\x7d else \x7b\nthrow e;\n\x7d\n"

/-- A text with its uses. -/
inductive Marked where
  | text (s : String)
  | use (referent : Referent) (occurrence : Occurrence)
  | append (first second : Marked)
  | bound (binder : Binder) (body : Marked)

namespace Marked

/-- The text without its marks. -/
def plain : Marked → String
  | text s => s
  | use _ occurrence => occurrence.text
  | append first second => first.plain ++ second.plain
  | bound binder body => binder.start ++ body.plain ++ binder.stop

/-- What is used, in the order of the text. -/
def uses : Marked → List Use
  | text _ => []
  | use referent occurrence => [⟨⟨referent, []⟩, occurrence⟩]
  | append first second => first.uses ++ second.uses
  | bound binder body => body.uses.map (.under binder)

/-- The mentions that are spelled, in the order of the text. -/
def mentions (m : Marked) : List Mention := m.uses.map Use.mention

/-- Whether everything that is used stands for what is mentioned. -/
def Faithful (v : View) (m : Marked) : Prop :=
  ∀ u ∈ m.uses, u.mention.referent.OccursAs v u.occurrence

variable {v : View} {m n : Marked}

/-- The mentions of a text behind another. -/
@[simp] theorem mentions_append : (append m n).mentions = m.mentions ++ n.mentions :=
  List.map_append

/-- Inside a binder all mentions are under it. -/
@[simp] theorem mentions_bound (binder : Binder) :
    (bound binder m).mentions = m.mentions.map (.under binder) := by
  simp [mentions, uses, Use.under]

/-- A text without uses is faithful to any view. -/
theorem faithful_text (s : String) : (text s).Faithful v := by
  intro u hu
  cases hu

/-- A use that occurs as it should is faithful. -/
theorem faithful_use {referent : Referent} {occurrence : Occurrence}
    (h : referent.OccursAs v occurrence) : (use referent occurrence).Faithful v := by
  intro u hu
  obtain rfl := List.mem_singleton.mp hu
  exact h

/-- Faithful texts behind each other are faithful. -/
theorem Faithful.append (hm : m.Faithful v) (hn : n.Faithful v) : (append m n).Faithful v := by
  intro u hu
  exact (List.mem_append.mp hu).elim (hm u) (hn u)

/-- A binder around a text does not change its uses. -/
theorem Faithful.bound (binder : Binder) (hm : m.Faithful v) : (bound binder m).Faithful v := by
  intro u hu
  obtain ⟨inner, hinner, rfl⟩ := List.mem_map.mp hu
  exact hm inner hinner

end Marked

/-! ## Texts that can be marked -/

/-- Some text can be marked so that it spells just these mentions, in this order. -/
def Marks (v : View) (ms : List Mention) (text : String) : Prop :=
  ∃ m : Marked, m.plain = text ∧ m.mentions = ms ∧ m.Faithful v

section

variable {v : View} {ms ns : List Mention} {s t : String}

/-- Any text can be read as mentioning nothing. -/
theorem marks_text (v : View) (s : String) : Marks v [] s :=
  ⟨.text s, rfl, rfl, Marked.faithful_text s⟩

/-- A use mentions what it is of. -/
theorem marks_use {r : Referent} {o : Occurrence} (h : r.OccursAs v o) :
    Marks v r.mentioned o.text :=
  ⟨.use r o, rfl, rfl, Marked.faithful_use h⟩

/-- Texts behind each other mention what both do. -/
theorem Marks.append (hs : Marks v ms s) (ht : Marks v ns t) : Marks v (ms ++ ns) (s ++ t) := by
  obtain ⟨m, rfl, rfl, hm⟩ := hs
  obtain ⟨n, rfl, rfl, hn⟩ := ht
  exact ⟨.append m n, rfl, Marked.mentions_append, hm.append hn⟩

/-- A text is put before a marked one. -/
theorem Marks.before (s : String) (ht : Marks v ms t) : Marks v ms (s ++ t) :=
  (marks_text v s).append ht

/-- A text is put after a marked one. -/
theorem Marks.after (t : String) (hs : Marks v ms s) : Marks v ms (s ++ t) := by
  simpa using hs.append (marks_text v t)

/-- A text inside a binder mentions the same, under the binder. -/
theorem Marks.bound (binder : Binder) (hs : Marks v ms s) :
    Marks v (ms.map (.under binder)) (binder.start ++ s ++ binder.stop) := by
  obtain ⟨m, rfl, rfl, hm⟩ := hs
  exact ⟨.bound binder m, rfl, Marked.mentions_bound binder, hm.bound binder⟩

/-- Parts can be marked so that, one after the other, they spell just these mentions. -/
inductive MarksAll (v : View) : List Mention → List String → Prop
  | nil : MarksAll v [] []
  | cons {ms ns : List Mention} {s : String} {parts : List String} : Marks v ms s →
    MarksAll v ns parts → MarksAll v (ms ++ ns) (s :: parts)

namespace MarksAll

variable {parts others : List String}

theorem single (hs : Marks v ms s) : MarksAll v ms [s] := by
  simpa using cons hs nil

theorem text (v : View) (parts : List String) : MarksAll v [] parts := by
  induction parts with
  | nil => exact nil
  | cons s rest ih => exact cons (marks_text v s) ih

/-- Lists behind each other mention what both do. -/
theorem append (hparts : MarksAll v ms parts) (hothers : MarksAll v ns others) :
    MarksAll v (ms ++ ns) (parts ++ others) := by
  induction hparts with
  | nil => exact hothers
  | cons hs _ ih =>
    rw [List.append_assoc]
    exact cons hs ih

/-- Parts are put before marked ones. -/
theorem before (parts : List String) (hothers : MarksAll v ms others) :
    MarksAll v ms (parts ++ others) := (text v parts).append hothers

/-- Parts are put after marked ones. -/
theorem after (others : List String) (hparts : MarksAll v ms parts) :
    MarksAll v ms (parts ++ others) := by
  simpa using hparts.append (text v others)

/-- Separators mention nothing. -/
theorem intercalate (separator : String) (hparts : MarksAll v ms parts) :
    Marks v ms (separator.intercalate parts) := by
  induction hparts with
  | nil => exact marks_text v _
  | @cons ms ns s rest hs hrest ih =>
    cases rest with
    | nil =>
      cases hrest
      simpa using hs
    | cons t rest =>
      rw [String.intercalate_cons_cons]
      exact (hs.after separator).append ih

theorem braced (separator : String) (hparts : MarksAll v ms parts) :
    Marks v ms (AbapLowering.braced separator parts) :=
  ((hparts.intercalate separator).before _).after _

/-- Nothing is written for no parts. -/
theorem bracedIfAny (separator : String) (hparts : MarksAll v ms parts) :
    Marks v ms (if parts.isEmpty then "" else AbapLowering.braced separator parts) := by
  cases hparts with
  | nil => exact marks_text v ""
  | cons hs hrest => exact (cons hs hrest).braced separator

end MarksAll

theorem Marks.runtimeCall (function : String) (hs : Marks v ms s) :
    Marks v ms (AbapLowering.runtimeCall function s) := (hs.before _).after _

end

end AbapLowering
