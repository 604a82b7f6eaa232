import Mathlib.Algebra.GroupWithZero.Nat
import AbapLowering.Lowering
import AbapLowering.Proofs.Emission.Linewise
import AbapLowering.Proofs.Emission.TreeRenumbering

/-!
# Units on their own and in a run

A unit is lowered in the same way whatever was lowered before it, but for the numbers of its
temporaries (`SourceUnit.lower_renumbers`). So a run over a project comes to what its units come to
on their own (`Session.run_renumbers`).
-/

namespace AbapLowering

namespace CodeTemplate

/-- The text of a template. -/
def template (t : CodeTemplate) : Template := t.fragments.flatMap (·.1)

theorem text_code (t : CodeTemplate) (c : Nat) : (t.code c).text = t.template.text c := by
  obtain ⟨fragments⟩ := t
  change Code.textOf (fragments.map _) = Template.text (fragments.flatMap _) c
  induction fragments with
  | nil => rfl
  | cons f rest ih => simp [Code.textOf, ih]

theorem holes_template (t : CodeTemplate) : t.template.holes = t.holes := by
  obtain ⟨fragments⟩ := t
  change Template.holes (fragments.flatMap _) = fragments.flatMap _
  induction fragments with
  | nil => rfl
  | cons f rest ih => simp [ih]

/-- Where lines stand in the text does not depend on the numbers of temporaries. -/
theorem exists_mappings (t : CodeTemplate) (hlines : ∀ c, (t.code c).IsLinewise) :
    ∃ mappings, ∀ c, (t.code c).mappings = mappings := by
  refine ⟨(Code.taggedLines 1 (t.fragments.map fun f => (f.2, f.1.count (.char '\n')))).map
    Code.lineMapping, fun c => ?_⟩
  have hstart : Place.start = .ofLine 1 := rfl
  rw [Code.mappings, hstart, Code.mappingsFrom_of_linewise (hlines c), code, List.map_map]
  congr 3
  funext f
  simp [Code.feeds, Template.text, Template.count_feed_fill]

end CodeTemplate

namespace SourceUnit

/-- What a template is put together to is a template again. -/
theorem assemble_renumbers (u : SourceUnit) (config : Config) (warnings : List Diagnostic)
    (t : CodeTemplate) (hlines : ∀ c, (t.code c).IsLinewise) (s : EmissionState) :
    ∃ (out : LoweredUnit) (code : Template), code.holes = t.holes ∧
      ∀ c issued, u.assemble config warnings (t.code c) { s with issued } =
        { out with code := code.text c } := by
  let file := outputFile u.file
  let prelude := prelude config s.integers
  let whole : Template :=
    t.template ++ .literal (Emit.endLines (registration config s.registrations))
  have hwhole : ∀ c, t.template.text c ++ Emit.endLines (registration config s.registrations) =
      whole.text c := fun c => by simp [whole]
  have hwholeHoles : whole.holes = t.holes := by simp [whole, CodeTemplate.holes_template]
  obtain ⟨body, hbody, hbodyHoles⟩ : ∃ body : Template,
      (∀ c, (if config.indent then Indentation.indent (whole.text c) else whole.text c) =
        body.text c) ∧ body.holes = t.holes := by
    by_cases hindent : config.indent = true
    · obtain ⟨body, hbody, hholes⟩ := Template.exists_indent whole
      exact ⟨body, fun c => by rw [if_pos hindent, hbody], hholes.trans hwholeHoles⟩
    · exact ⟨whole, fun c => if_neg hindent, hwholeHoles⟩
  obtain ⟨mappings, hmappings⟩ := t.exists_mappings hlines
  -- columns are counted by the blanks before the lines, which hold no temporaries
  obtain ⟨before, hbefore⟩ := Template.exists_blankWidths t.template
  obtain ⟨after, hafter⟩ := Template.exists_blankWidths body
  let map : PositionMap :=
    ⟨1, file, u.file,
      mappings.map (PositionMap.entry before after (PositionMap.lineCount prelude.length))⟩
  refine ⟨⟨file, u.file, "", if config.sourceMaps then some map.text else none,
    warnings ++ s.diagnostics, s.statements, s.integers.length⟩,
    .literal (Emit.endLines prelude) ++ body, by simp [hbodyHoles], fun c issued => ?_⟩
  simp only [assemble, CodeTemplate.text_code, hwhole, hbody, PositionMap.build, hmappings, hbefore,
    hafter, Template.text_append, Template.text_literal]
  rfl

/-- Where the temporaries of a unit start shows nowhere but in their names, in which they are
numbered on without a gap. -/
theorem lower_renumbers (u : SourceUnit) (config : Config) (registry : Registry) :
    ∃ drawn, (∃ why, ∀ c, u.lower config registry c = (.error why, c + drawn)) ∨
      ∃ (out : LoweredUnit) (code : Template), (∀ n, n ∈ code.holes ↔ 1 ≤ n ∧ n ≤ drawn) ∧
        ∀ c, u.lower config registry c = (.ok { out with code := code.text c }, c + drawn) := by
  cases hvalid : u.validate with
  | error why => exact ⟨0, .inl ⟨why, fun c => by simp only [lower, hvalid, Nat.add_zero]⟩⟩
  | ok _ =>
    obtain ⟨drawn, s, -, ⟨why, hfails⟩ | ⟨_, ⟨t, hholes, rfl⟩, hemits⟩⟩ :=
      u.root.renumbers_emitRoot ⟨u.view registry, config⟩ (.initial 0)
    · refine ⟨drawn, .inl ⟨why, fun c => ?_⟩⟩
      have hfails : u.root.emitRoot ⟨u.view registry, config⟩ (.initial c) = _ := hfails c
      simp only [lower, hvalid, hfails]
    · have hlines : ∀ c, (t.code c).IsLinewise := fun c =>
        u.root.linewise_emitRoot _ _ _ _ (hemits c)
      obtain ⟨out, code, hcode, hassemble⟩ :=
        u.assemble_renumbers config (u.ownerWarning? registry) t hlines s
      refine ⟨drawn, .inr ⟨out, code, fun n => ?_, fun c => ?_⟩⟩
      · rw [hcode]
        exact ⟨hholes.bounded n, fun h => hholes.used n (by omega) h.2⟩
      · have hemits : u.root.emitRoot ⟨u.view registry, config⟩ (.initial c) = _ := hemits c
        simp only [lower, hvalid, hemits, hassemble]

/-- Number of temporaries that a unit gets. -/
def drawn (u : SourceUnit) (config : Config) (registry : Registry) : Nat :=
  (u.lower config registry 0).2

variable {u : SourceUnit} {config : Config} {registry : Registry}

theorem lower_snd (c : Nat) : (u.lower config registry c).2 = c + u.drawn config registry := by
  obtain ⟨drawn, ⟨why, h⟩ | ⟨out, code, -, h⟩⟩ := u.lower_renumbers config registry
  · simp [SourceUnit.drawn, h]
  · simp [SourceUnit.drawn, h]

/-- Whether and why a unit cannot be lowered does not depend on where its temporaries start. -/
theorem lower_fst_eq_error {why : Abort} (h : (u.lower config registry 0).1 = .error why)
    (c : Nat) : (u.lower config registry c).1 = .error why := by
  obtain ⟨drawn, ⟨why', hlower⟩ | ⟨out, code, -, hlower⟩⟩ := u.lower_renumbers config registry
  · rw [hlower] at h ⊢
    exact h
  · rw [hlower] at h
    cases h

/-- A unit that can be lowered on its own is lowered to the same wherever its temporaries start, but
for their names in the code. -/
theorem lower_fst_eq_ok {own : LoweredUnit} (h : (u.lower config registry 0).1 = .ok own) :
    ∃ code : Template, (∀ n, n ∈ code.holes ↔ 1 ≤ n ∧ n ≤ u.drawn config registry) ∧
      ∀ c, (u.lower config registry c).1 = .ok { own with code := code.text c } := by
  obtain ⟨drawn, ⟨why, hlower⟩ | ⟨out, code, hholes, hlower⟩⟩ := u.lower_renumbers config registry
  · rw [hlower] at h
    cases h
  · have hdrawn : u.drawn config registry = drawn := by simp [SourceUnit.drawn, hlower]
    rw [hlower] at h
    cases h
    exact ⟨code, hdrawn ▸ hholes, fun c => by rw [hlower]⟩

end SourceUnit

/-! ## Runs -/

section

variable {config : Config} {registry : Registry}

theorem lowerUnits_cons_of_ok {u : SourceUnit} {own : LoweredUnit}
    (h : (u.lower config registry 0).1 = .ok own) (c : Nat) (rest : List SourceUnit) :
    ∃ out, (u.lower config registry c).1 = .ok out ∧
      lowerUnits config registry c (u :: rest) =
        match lowerUnits config registry (c + u.drawn config registry) rest with
        | (.error why, issued) => (.error why, issued)
        | (.ok others, issued) => (.ok (out :: others), issued) := by
  obtain ⟨code, -, hlower⟩ := SourceUnit.lower_fst_eq_ok h
  have hpair : u.lower config registry c =
      (.ok { own with code := code.text c }, c + u.drawn config registry) :=
    Prod.ext (hlower c) (SourceUnit.lower_snd c)
  refine ⟨_, hlower c, ?_⟩
  rw [lowerUnits]
  exact hpair ▸ rfl

/-- A run stops at the first unit that cannot be lowered on its own, for the same reason. -/
theorem lowerUnits_of_error {before : List SourceUnit} {u : SourceUnit} {why : Abort}
    (hbefore : ∀ v ∈ before, ∃ own, (v.lower config registry 0).1 = .ok own)
    (hu : (u.lower config registry 0).1 = .error why) (after : List SourceUnit) (c : Nat) :
    (lowerUnits config registry c (before ++ u :: after)).1 = .error why := by
  induction before generalizing c with
  | nil =>
    have hpair : u.lower config registry c = (.error why, c + u.drawn config registry) :=
      Prod.ext (SourceUnit.lower_fst_eq_error hu c) (SourceUnit.lower_snd c)
    rw [List.nil_append, lowerUnits, hpair]
  | cons v rest ih =>
    obtain ⟨hv, hrest⟩ := List.forall_mem_cons.mp hbefore
    obtain ⟨own, hown⟩ := hv
    obtain ⟨out, -, hcons⟩ := lowerUnits_cons_of_ok hown c (rest ++ u :: after)
    have herror := ih hrest (c + v.drawn config registry)
    rw [List.cons_append, hcons]
    split <;> simp_all

/-- Number of temporaries that some units get. -/
def drawnBy (config : Config) (registry : Registry) (units : List SourceUnit) : Nat :=
  (units.map (·.drawn config registry)).sum

/-- A run over units that can be lowered on their own lowers each of them, numbering temporaries on
from those of the units before it. -/
theorem lowerUnits_of_ok {units : List SourceUnit}
    (h : ∀ u ∈ units, ∃ own, (u.lower config registry 0).1 = .ok own) (c : Nat) :
    ∃ outs, (lowerUnits config registry c units).1 = .ok outs ∧ outs.length = units.length ∧
      ∀ (i : Nat) (u : SourceUnit), units[i]? = some u → ∃ out, outs[i]? = some out ∧
        (u.lower config registry (c + drawnBy config registry (units.take i))).1 = .ok out := by
  induction units generalizing c with
  | nil => exact ⟨[], rfl, rfl, by simp⟩
  | cons u rest ih =>
    obtain ⟨⟨own, hown⟩, hrest⟩ := List.forall_mem_cons.mp h
    obtain ⟨out, hout, hcons⟩ := lowerUnits_cons_of_ok hown c rest
    obtain ⟨outs, houts, hlength, hall⟩ := ih hrest (c + u.drawn config registry)
    refine ⟨out :: outs, ?_, by simp [hlength], fun i v hv => ?_⟩
    · rw [hcons]
      split <;> simp_all
    · cases i with
      | zero =>
        cases hv
        exact ⟨out, rfl, by simpa [drawnBy] using hout⟩
      | succ i =>
        obtain ⟨found, hfound, hlower⟩ := hall i v hv
        refine ⟨found, hfound, ?_⟩
        simpa [drawnBy, Nat.add_assoc] using hlower

/-- Either all units can be lowered on their own, or there is a first that cannot. -/
theorem all_ok_or_first_error (config : Config) (registry : Registry) (units : List SourceUnit) :
    (∀ u ∈ units, ∃ own, (u.lower config registry 0).1 = .ok own) ∨
      ∃ before u after why, units = before ++ u :: after ∧
        (∀ v ∈ before, ∃ own, (v.lower config registry 0).1 = .ok own) ∧
        (u.lower config registry 0).1 = .error why := by
  induction units with
  | nil => exact .inl (by simp)
  | cons u rest ih =>
    cases hu : (u.lower config registry 0).1 with
    | error why => exact .inr ⟨[], u, rest, why, rfl, by simp, hu⟩
    | ok own =>
      rcases ih with hall | ⟨before, v, after, why, rfl, hbefore, hv⟩
      · exact .inl (List.forall_mem_cons.mpr ⟨⟨own, hu⟩, hall⟩)
      · exact .inr ⟨u :: before, v, after, why, rfl,
          List.forall_mem_cons.mpr ⟨⟨own, hu⟩, hbefore⟩, hv⟩

end

/-- A run comes to what its units come to on their own. It succeeds iff each of them can be lowered
on its own, and otherwise stops for the reason of the first that cannot. Each unit is lowered to
what it is lowered to on its own, but for the code: that is one template, filled by numbering
temporaries on from those of the units before it, and its holes are exactly the temporaries that the
unit gets. What the session did before does not matter. -/
theorem Session.run_renumbers (s : Session) (p : Project) :
    let alone := (Session.fresh s.config).lowerUnit p.registry
    ((∃ outs, (s.run p).1 = .ok outs) ↔ ∀ u ∈ p.units, ∃ own, (alone u).1 = .ok own) ∧
    (∀ why, (s.run p).1 = .error why ↔
      ∃ before u after, p.units = before ++ u :: after ∧
        (∀ v ∈ before, ∃ own, (alone v).1 = .ok own) ∧ (alone u).1 = .error why) ∧
    ∀ outs, (s.run p).1 = .ok outs → outs.length = p.units.length ∧
      ∀ (i : Nat) (u : SourceUnit), p.units[i]? = some u → ∃ (own : LoweredUnit) (code : Template),
        (alone u).1 = .ok own ∧
        (∀ n, n ∈ code.holes ↔ 1 ≤ n ∧ n ≤ (alone u).2.issued) ∧
        (∀ c, ((⟨s.config, c⟩ : Session).lowerUnit p.registry u).1 =
          .ok { own with code := code.text c }) ∧
        outs[i]? = some { own with
          code := code.text ((p.units.take i).map fun v => (alone v).2.issued).sum } := by
  intro alone
  have halone : ∀ u, (alone u).1 = (u.lower s.config p.registry 0).1 := fun _ => rfl
  change ((∃ outs, (lowerUnits s.config p.registry 0 p.units).1 = .ok outs) ↔ _) ∧
    (∀ why, (lowerUnits s.config p.registry 0 p.units).1 = .error why ↔ _) ∧
    ∀ outs, (lowerUnits s.config p.registry 0 p.units).1 = .ok outs → _
  rcases all_ok_or_first_error s.config p.registry p.units with
    hall | ⟨before, u, after, why, hunits, hbefore, hu⟩
  · -- all units can be lowered
    obtain ⟨outs, houts, hlength, hlower⟩ := lowerUnits_of_ok hall 0
    rw [houts]
    refine ⟨⟨fun _ => hall, fun _ => ⟨outs, rfl⟩⟩, fun why => ⟨fun h => (by cases h), ?_⟩, ?_⟩
    · rintro ⟨before, u, after, hunits, -, hu⟩
      obtain ⟨own, hown⟩ := hall u (by simp [hunits])
      rw [halone, hown] at hu
      cases hu
    · rintro _ ⟨⟩
      refine ⟨hlength, fun i u hi => ?_⟩
      obtain ⟨own, hown⟩ := hall u (List.mem_of_getElem? hi)
      obtain ⟨code, hholes, hcode⟩ := SourceUnit.lower_fst_eq_ok hown
      obtain ⟨out, hout, hlowered⟩ := hlower i u hi
      refine ⟨own, code, hown, hholes, hcode, ?_⟩
      rw [hcode, Nat.zero_add] at hlowered
      rw [hout, ← Except.ok.inj hlowered]
      rfl
  · -- there is a first unit that cannot; another one would make the run stop for its own reason
    rw [hunits]
    have herror := lowerUnits_of_error hbefore hu after 0
    rw [herror]
    refine ⟨⟨fun ⟨_, h⟩ => (by cases h), fun h => ?_⟩, fun why' => ⟨?_, ?_⟩,
      fun _ h => (by cases h)⟩
    · obtain ⟨own, hown⟩ := h u (by simp)
      rw [halone, hu] at hown
      cases hown
    · rintro ⟨⟩
      exact ⟨before, u, after, rfl, hbefore, hu⟩
    · rintro ⟨before', u', after', heq, hbefore', hu'⟩
      have herror' : (lowerUnits s.config p.registry 0 (before' ++ u' :: after')).1 = .error why' :=
        lowerUnits_of_error hbefore' hu' after' 0
      rw [← herror', ← heq, herror]

end AbapLowering
