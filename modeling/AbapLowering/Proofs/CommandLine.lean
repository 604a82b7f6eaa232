import AbapLowering.CommandLine.Run
import AbapLowering.Proofs.FileSystem
import AbapLowering.Proofs.Json
import AbapLowering.Proofs.PositionMap
import AbapLowering.Proofs.Renumbering
import Mathlib.Data.List.Forall2

/-!
# What commands leave behind

Compiling is all or nothing up to lowering: where a project cannot be read, or a unit of the projects
put together cannot be lowered on its own, nothing is touched; else all files of all units are
written, and a check says so (`compileInto_all_or_nothing`).

- `Job.on`: how a job ends on the host of plain values, and the host it leaves;
- `Lowers`, `Refuses`: what lowering the projects in some files comes to, said without the commands.
  Nothing depends on how a project is read from a text, so that is left open;
- `UnitReport.Describes`, `findingsText`, `summaryText`, `summaryJson`: what a check tells.
-/

namespace AbapLowering

/-! ## Projects put together -/

namespace Registry

/-- Of two registries the later one decides, and the earlier one counts where it knows nothing. -/
theorem findClass?_merge (r other : Registry) (name : String) :
    (r.merge other).findClass? name = (other.findClass? name).or (r.findClass? name) :=
  Dict.find?_merge ..

theorem findInterface?_merge (r other : Registry) (name : String) :
    (r.merge other).findInterface? name = (other.findInterface? name).or (r.findInterface? name) :=
  Dict.find?_merge ..

theorem ownerOf?_merge (r other : Registry) (file : String) :
    (r.merge other).ownerOf? file = (other.ownerOf? file).or (r.ownerOf? file) :=
  Dict.find?_merge ..

end Registry

namespace Project

/-- Projects put together in their order. -/
def combine (projects : List Project) : Project := projects.foldl merge empty

/-- Projects are put together with all their units, in their order. -/
theorem units_foldl_merge (projects : List Project) (p : Project) :
    (projects.foldl merge p).units = p.units ++ projects.flatMap (·.units) := by
  induction projects generalizing p with
  | nil => simp
  | cons q rest ih => rw [List.foldl_cons, ih, List.flatMap_cons, merge, List.append_assoc]

/-- The units of all projects, in order. -/
theorem units_combine (projects : List Project) :
    (combine projects).units = projects.flatMap (·.units) :=
  units_foldl_merge projects empty

/-- What is looked up in projects put together is what the last of them that knows it says. -/
theorem find?_foldl_merge {α : Type} (find? : Registry → Option α)
    (hmerge : ∀ r other : Registry, find? (r.merge other) = (find? other).or (find? r))
    (projects : List Project) (p : Project) :
    find? (projects.foldl merge p).registry =
      (projects.reverse.findSome? fun q => find? q.registry).or (find? p.registry) := by
  induction projects generalizing p with
  | nil => rfl
  | cons q rest ih =>
    rw [List.foldl_cons, ih, List.reverse_cons, List.findSome?_append, Option.or_assoc, merge, hmerge]
    congr 2
    simp

/-- Of the projects that know a class, an interface or the owner of a file the last counts. -/
theorem find?_combine (projects : List Project) (name : String) :
    (combine projects).registry.findClass? name =
        projects.reverse.findSome? (·.registry.findClass? name) ∧
      (combine projects).registry.findInterface? name =
        projects.reverse.findSome? (·.registry.findInterface? name) ∧
      (combine projects).registry.ownerOf? name =
        projects.reverse.findSome? (·.registry.ownerOf? name) :=
  ⟨(find?_foldl_merge (·.findClass? name) (fun _ _ => Registry.findClass?_merge ..) ..).trans
      (Option.or_none ..),
    (find?_foldl_merge (·.findInterface? name) (fun _ _ => Registry.findInterface?_merge ..) ..).trans
      (Option.or_none ..),
    (find?_foldl_merge (·.ownerOf? name) (fun _ _ => Registry.ownerOf?_merge ..) ..).trans
      (Option.or_none ..)⟩

end Project

section

variable {config : Config}

/-- A unit that is lowered keeps its source, and has a position map iff maps are configured. -/
theorem SourceUnit.of_lower {u : SourceUnit} {registry : Registry} {issued : Nat}
    {out : LoweredUnit} (h : (u.lower config registry issued).1 = .ok out) :
    out.sourceFile = u.file ∧ out.file = outputFile u.file ∧
      out.positionMap.isSome = config.sourceMaps := by
  obtain ⟨body, state, -, rfl⟩ := SourceUnit.exists_of_lower_eq_ok h
  refine ⟨rfl, rfl, ?_⟩
  simp only [SourceUnit.assemble]
  cases config.sourceMaps <;> rfl

/-- Lowered units stand in the order of the units they were lowered from. -/
theorem forall₂_of_lowerUnits {registry : Registry} {units : List SourceUnit}
    {outs : List LoweredUnit} {issued : Nat}
    (h : (lowerUnits config registry issued units).1 = .ok outs) :
    List.Forall₂ (fun out u => ∃ issued, (SourceUnit.lower u config registry issued).1 = .ok out)
      outs units := by
  induction units generalizing issued outs with
  | nil =>
    cases h
    exact .nil
  | cons u rest ih =>
    unfold lowerUnits at h
    split at h
    · cases h
    · next lowered issued' hlower =>
      split at h
      · cases h
      · next others _ hothers =>
        cases h
        exact .cons ⟨issued, congrArg Prod.fst hlower⟩ (ih (congrArg Prod.fst hothers))

/-- What holds of a unit however it is lowered holds of all lowered units. -/
theorem forall_of_lowerUnits {registry : Registry} {units : List SourceUnit}
    {outs : List LoweredUnit} {issued : Nat} {P : LoweredUnit → Prop}
    (hP : ∀ u issued out, (SourceUnit.lower u config registry issued).1 = .ok out → P out)
    (h : (lowerUnits config registry issued units).1 = .ok outs) : ∀ out ∈ outs, P out := by
  have hall := (forall₂_of_lowerUnits h).imp fun out u ⟨issued, hlower⟩ =>
    And.intro (hP u issued out hlower) trivial
  exact ((List.forall₂_and_left outs units).mp hall).1

/-- All units are lowered, in their order. -/
theorem of_lowerUnits {registry : Registry} {units : List SourceUnit} {outs : List LoweredUnit}
    {issued : Nat} (h : (lowerUnits config registry issued units).1 = .ok outs) :
    outs.map (·.sourceFile) = units.map (·.file) ∧
      ∀ out ∈ outs, out.positionMap.isSome = config.sourceMaps := by
  refine ⟨?_, forall_of_lowerUnits (fun u issued out hout => (SourceUnit.of_lower hout).2.2) h⟩
  rw [← List.forall₂_eq_eq_eq, List.forall₂_map_left_iff, List.forall₂_map_right_iff]
  exact (forall₂_of_lowerUnits h).imp fun out u ⟨_, hout⟩ => (SourceUnit.of_lower hout).1

/-- Files are named after their sources. -/
theorem file_of_lowerUnits {registry : Registry} {units : List SourceUnit}
    {outs : List LoweredUnit} {issued : Nat}
    (h : (lowerUnits config registry issued units).1 = .ok outs) :
    ∀ out ∈ outs, out.file = outputFile out.sourceFile :=
  forall_of_lowerUnits (fun u issued out hout => by
    rw [(SourceUnit.of_lower hout).2.1, (SourceUnit.of_lower hout).1]) h

/-- Units before one that cannot be lowered do not help: a run stops at the first such unit. -/
theorem Session.run_of_fails {p : Project} {u : SourceUnit} {why : Abort} (hmem : u ∈ p.units)
    (hfails : ((Session.fresh config).lowerUnit p.registry u).1 = .error why) :
    ∃ why, ((Session.fresh config).run p).1 = .error why := by
  rcases all_ok_or_first_error config p.registry p.units with
    hall | ⟨before, v, after, why, hunits, hbefore, hv⟩
  · obtain ⟨own, hown⟩ := hall u hmem
    have hfails : (u.lower config p.registry 0).1 = .error why := hfails
    rw [hown] at hfails
    cases hfails
  · refine ⟨why, ?_⟩
    change (lowerUnits config p.registry 0 p.units).1 = .error why
    rw [hunits]
    exact lowerUnits_of_error hbefore hv after 0

end

namespace CommandLine

/-! ## Jobs on plain values -/

/-- How a job ends on the host of plain values, and the host it leaves. -/
def Job.on {α : Type} (job : Job (StateM PureHost) α) (host : PureHost) :
    Except Failure α × PureHost :=
  job.run host

namespace Job

variable {α β : Type} {host : PureHost}

@[simp] theorem on_pure (a : α) : on (pure a) host = (.ok a, host) := rfl

@[simp] theorem on_throw (why : Failure) :
    on (throw why : Job (StateM PureHost) α) host = (.error why, host) := rfl

/-- A job goes on with what the one before left. -/
theorem on_bind (job : Job (StateM PureHost) α) (next : α → Job (StateM PureHost) β) :
    on (job >>= next) host =
      match job.on host with
      | (.ok a, host) => (next a).on host
      | (.error why, host) => (.error why, host) := by
  change (ExceptT.bindCont next (job.on host).1).run (job.on host).2 = _
  rcases job.on host with ⟨_ | _, _⟩ <;> rfl

/-- After a job that succeeds the next one runs on the host it left. -/
theorem on_bind_of_ok {job : Job (StateM PureHost) α} {a : α} {after : PureHost}
    (h : job.on host = (.ok a, after)) (next : α → Job (StateM PureHost) β) :
    on (job >>= next) host = (next a).on after := by
  rw [on_bind, h]

/-- After a job that fails nothing runs. -/
theorem on_bind_of_error {job : Job (StateM PureHost) α} {why : Failure} {after : PureHost}
    (h : job.on host = (.error why, after)) (next : α → Job (StateM PureHost) β) :
    on (job >>= next) host = (.error why, after) := by
  rw [on_bind, h]

/-- If two jobs succeed, then both do, the second on the host that the first left. -/
theorem exists_of_on_bind {job : Job (StateM PureHost) α} {next : α → Job (StateM PureHost) β}
    {b : β} {after : PureHost} (h : on (job >>= next) host = (.ok b, after)) :
    ∃ a between, job.on host = (.ok a, between) ∧ (next a).on between = (.ok b, after) := by
  rw [on_bind] at h
  split at h
  · next a between hjob => exact ⟨a, between, hjob, h⟩
  · cases h

theorem on_step (action : StateM PureHost α) :
    on (step action) host = (.ok (action host).1, (action host).2) := rfl

/-- A job may depend on what the host answers. -/
theorem on_need (action : StateM PureHost Bool) (otherwise : Failure) :
    on (need action otherwise) host =
      (if (action host).1 then .ok () else .error otherwise, (action host).2) := by
  rw [need, on_bind, on_step]
  cases (action host).1 <;> rfl

/-- A job that prints a text and does nothing else. -/
def Prints (job : Job (StateM PureHost) Unit) (text : String) : Prop :=
  ∀ host : PureHost, job.on host = (.ok (), { host with printed := host.printed ++ text })

/-- Jobs that print, one after the other. -/
theorem Prints.bind {job : Job (StateM PureHost) Unit} {next : Unit → Job (StateM PureHost) Unit}
    {text text' : String} (hjob : job.Prints text) (hnext : (next ()).Prints text') :
    (job >>= next).Prints (text ++ text') := by
  intro host
  rw [on_bind_of_ok (hjob host), hnext, String.append_assoc]

theorem prints_printLine (line : String) : (printLine line).Prints (line ++ "\n") :=
  fun _ => rfl

/-- What is printed for one item after the other. -/
theorem prints_forM {items : List α} {job : α → Job (StateM PureHost) Unit} {text : α → String}
    (h : ∀ item ∈ items, (job item).Prints (text item)) :
    (items.forM job).Prints (.join (items.map text)) := by
  induction items with
  | nil =>
    intro host
    change (Except.ok (), host) = _
    simp
  | cons item rest ih =>
    obtain ⟨hitem, hrest⟩ := List.forall_mem_cons.mp h
    rw [List.map_cons, String.join_cons]
    exact hitem.bind (ih hrest)

end Job

open Job

/-! ## What is told -/

/-- The line that tells of a finding in a unit: how serious it is, where it is, and what it is. -/
def findingText (u : LoweredUnit) (d : Diagnostic) : String :=
  (match d.severity with
    | .warning => "Warning: "
    | .info => "Info: ") ++ u.sourceFile ++
  (match d.position with
    | none => ""
    | some p => ":" ++ toString p.row ++ ":" ++ toString p.col) ++ ": " ++ d.message ++ "\n"

/-- The lines that tell of the findings in some units, unit by unit. -/
def findingsText (units : List LoweredUnit) : String :=
  .join (units.map fun u => .join (u.diagnostics.map (findingText u)))

/-- A report has the file and the counts of a unit. -/
structure UnitReport.Describes (r : UnitReport) (u : LoweredUnit) : Prop where
  file : r.file = u.sourceFile
  statements : r.statements = u.statements
  constants : r.constants = u.constants
  warnings : r.warnings = u.diagnostics.length

/-- The lines that tell of some units, and of their number. -/
def summaryText (units : List LoweredUnit) : String :=
  .join (units.map fun u => "  " ++ u.sourceFile ++ " " ++ toString u.statements ++ " statements, "
    ++ toString u.diagnostics.length ++ " warnings\n")
  ++ "Success: " ++ toString units.length ++ " units transpile\n"

/-- The same as one value. -/
def summaryJson (units : List LoweredUnit) : Json :=
  .arr (units.map fun u => .obj [("file", .str u.sourceFile), ("statements", .int u.statements),
    ("constants", .int u.constants), ("warnings", .int u.diagnostics.length)])

/-- The findings of all units are printed. -/
theorem prints_printDiagnostics (units : List LoweredUnit) :
    (printDiagnostics (m := StateM PureHost) units).Prints (findingsText units) := by
  refine prints_forM fun u _ => prints_forM fun d _ => ?_
  have hline : diagnosticLine u.sourceFile d ++ "\n" = findingText u d := by
    unfold diagnosticLine findingText
    cases d.severity <;> cases d.position <;>
      simp [severityWord, Position.text, String.append_assoc]
  exact hline ▸ prints_printLine _

/-! ## Reading and lowering -/

variable {parse? : String → Option Project}

/-- The project in a file. -/
def project? (parse? : String → Option Project) (fs : FileSystem) (path : String) :
    Option Project :=
  (fs.read? path).bind parse?

/-- Some projects put together can be lowered. -/
def Lowers (parse? : String → Option Project) (fs : FileSystem) (config : Config)
    (inputs : List String) (projects : List Project) (units : List LoweredUnit) : Prop :=
  inputs.mapM (project? parse? fs) = some projects ∧
    ((Session.fresh config).run (.combine projects)).1 = .ok units

/-- A file is missing or holds no project, or a unit of the projects put together cannot be lowered
on its own. -/
inductive Refuses (parse? : String → Option Project) (fs : FileSystem) (config : Config)
    (inputs : List String) : Prop where
  | file {path : String} (named : path ∈ inputs) (absent : project? parse? fs path = none)
  | unit {projects : List Project} {u : SourceUnit} {why : Abort}
      (read : inputs.mapM (project? parse? fs) = some projects)
      (mem : u ∈ (Project.combine projects).units)
      (fails : ((Session.fresh config).lowerUnit (Project.combine projects).registry u).1 =
        .error why)

/-- Whether a command fails over making or writing its output. -/
def Failure.IsOfWriting : Failure → Prop
  | .noDirectory _ | .unwritable _ => True
  | _ => False

/-- Projects and units are determined by the files and the configuration. -/
theorem Lowers.unique {fs : FileSystem} {config : Config} {inputs : List String}
    {projects projects' : List Project} {units units' : List LoweredUnit}
    (h : Lowers parse? fs config inputs projects units)
    (h' : Lowers parse? fs config inputs projects' units') :
    projects = projects' ∧ units = units' := by
  obtain ⟨hread, hrun⟩ := h
  obtain ⟨hread', hrun'⟩ := h'
  obtain rfl := Option.some.inj (hread.symm.trans hread')
  exact ⟨rfl, Except.ok.inj (hrun.symm.trans hrun')⟩

variable {host : PureHost} {inputs : List String} {config : Config}

/-- A project is read from a file that is there, and fails if the text is none. -/
theorem on_readProject (path : String) :
    (readProject parse? path).on host =
      match host.files.read? path with
      | none => (.error (.unreadableProject path), host)
      | some text =>
        match parse? text with
        | none => (.error (.malformedProject path), host)
        | some p => (.ok p, host) := by
  have hread : (step (m := StateM PureHost) (Host.read? path)).on host =
      (.ok (host.files.read? path), host) := rfl
  rw [readProject, on_bind_of_ok hread]
  cases host.files.read? path with
  | none => rfl
  | some text =>
    simp only
    cases parse? text <;> rfl

/-- A project that can be read is read, and the host stays as it is. -/
theorem readProject_of_some {path : String} {p : Project}
    (h : project? parse? host.files path = some p) :
    (readProject parse? path).on host = (.ok p, host) := by
  obtain ⟨text, htext, hp⟩ := Option.bind_eq_some_iff.mp h
  simp only [on_readProject, htext, hp]

/-- A project that cannot be read fails before anything is written. -/
theorem readProject_of_none {path : String} (h : project? parse? host.files path = none) :
    ∃ why, (readProject parse? path).on host = (.error why, host) ∧ ¬ why.IsOfWriting := by
  rw [on_readProject]
  cases htext : host.files.read? path with
  | none => exact ⟨_, rfl, id⟩
  | some text =>
    rw [project?, htext, Option.bind_some] at h
    simp only [h]
    exact ⟨_, rfl, id⟩

/-- Reading projects on top of one that is there. -/
def readOnto (parse? : String → Option Project) (p : Project) (paths : List String) :
    Job (StateM PureHost) Project :=
  paths.foldlM (fun project path => return project.merge (← readProject parse? path)) p

/-- Projects are read one after the other, each put on top of those before. -/
theorem readOnto_cons (p : Project) (path : String) (rest : List String) :
    readOnto parse? p (path :: rest) =
      readProject parse? path >>= fun q => readOnto parse? (p.merge q) rest := by
  simp [readOnto, List.foldlM_cons]

/-- If all projects can be read, they are put together in their order. -/
theorem readOnto_of_some {projects : List Project}
    (h : inputs.mapM (project? parse? host.files) = some projects) (p : Project) :
    (readOnto parse? p inputs).on host = (.ok (projects.foldl .merge p), host) := by
  induction inputs generalizing p projects with
  | nil =>
    obtain rfl : [] = projects := by simpa using h
    rfl
  | cons path rest ih =>
    simp only [List.mapM_cons, Option.bind_eq_bind, Option.bind_eq_some_iff, Option.pure_def,
      Option.some.injEq] at h
    obtain ⟨q, hq, others, hothers, rfl⟩ := h
    rw [readOnto_cons, on_bind_of_ok (readProject_of_some hq), ih hothers]
    rfl

/-- One project that cannot be read is enough to fail. -/
theorem readOnto_of_none {path : String} (hmem : path ∈ inputs)
    (h : project? parse? host.files path = none) (p : Project) :
    ∃ why, (readOnto parse? p inputs).on host = (.error why, host) ∧ ¬ why.IsOfWriting := by
  induction inputs generalizing p with
  | nil => cases hmem
  | cons first rest ih =>
    rw [readOnto_cons]
    cases hfirst : project? parse? host.files first with
    | none =>
      obtain ⟨why, hwhy, hkind⟩ := readProject_of_none hfirst
      exact ⟨why, on_bind_of_error hwhy _, hkind⟩
    | some q =>
      rw [on_bind_of_ok (readProject_of_some hfirst)]
      refine ih ?_ _
      rcases List.mem_cons.mp hmem with rfl | hmem
      · rw [h] at hfirst
        cases hfirst
      · exact hmem

theorem readProjects_of_some {projects : List Project}
    (h : inputs.mapM (project? parse? host.files) = some projects) :
    (readProjects parse? inputs).on host = (.ok (.combine projects), host) :=
  readOnto_of_some h .empty

/-- A list fails because of one of its items. -/
theorem exists_of_mapM_eq_none {α β : Type} {f : α → Option β} {l : List α}
    (h : l.mapM f = none) : ∃ a ∈ l, f a = none := by
  induction l with
  | nil => simp at h
  | cons first rest ih =>
    cases hfirst : f first with
    | none => exact ⟨first, List.mem_cons_self, hfirst⟩
    | some b =>
      cases hrest : rest.mapM f with
      | none =>
        obtain ⟨a, ha, hnone⟩ := ih hrest
        exact ⟨a, List.mem_cons_of_mem _ ha, hnone⟩
      | some others => simp [hfirst, hrest] at h

/-- Whether some projects can be lowered is decided file by file and unit by unit. -/
theorem refuses_or_lowers (parse? : String → Option Project) (fs : FileSystem) (config : Config)
    (inputs : List String) :
    Refuses parse? fs config inputs ∨
      ∃ projects units, Lowers parse? fs config inputs projects units := by
  cases hread : inputs.mapM (project? parse? fs) with
  | none =>
    obtain ⟨path, hmem, hpath⟩ := exists_of_mapM_eq_none hread
    exact .inl (.file hmem hpath)
  | some projects =>
    rcases all_ok_or_first_error config (Project.combine projects).registry
        (Project.combine projects).units with hall | ⟨before, u, after, why, hunits, -, hu⟩
    · obtain ⟨units, hunits, -⟩ := lowerUnits_of_ok hall 0
      exact .inr ⟨projects, units, hread, hunits⟩
    · exact .inl (.unit hread (by simp [hunits]) hu)

/-- To read and lower fails before anything is written where a file or a unit is refused. -/
theorem lowerFiles_of_refuses (activity : String) (h : Refuses parse? host.files config inputs) :
    ∃ why, (lowerFiles parse? activity inputs config).on host = (.error why, host) ∧
      ¬ why.IsOfWriting := by
  rcases h with ⟨hmem, hpath⟩ | ⟨hread, hmem, hfails⟩
  · obtain ⟨why, hwhy, hkind⟩ := readOnto_of_none hmem hpath .empty
    exact ⟨why, on_bind_of_error hwhy _, hkind⟩
  · obtain ⟨why, hrun⟩ := Session.run_of_fails hmem hfails
    refine ⟨.refused activity why, ?_, id⟩
    rw [lowerFiles, on_bind_of_ok (readProjects_of_some hread)]
    simp only [hrun, on_throw]

/-- To read and lower succeeds otherwise, and the host stays as it is. -/
theorem lowerFiles_of_lowers (activity : String) {projects : List Project}
    {units : List LoweredUnit} (h : Lowers parse? host.files config inputs projects units) :
    (lowerFiles parse? activity inputs config).on host = (.ok units, host) := by
  rw [lowerFiles, on_bind_of_ok (readProjects_of_some h.1)]
  simp only [h.2, on_pure]

theorem not_refuses_of_lowers {projects : List Project} {units : List LoweredUnit}
    (h : Lowers parse? host.files config inputs projects units) :
    ¬ Refuses parse? host.files config inputs := by
  intro hrefuses
  obtain ⟨why, hwhy, -⟩ := lowerFiles_of_refuses "" hrefuses
  rw [lowerFiles_of_lowers "" h] at hwhy
  cases hwhy

/-! ## Writing -/

/-- A change of the files that can be made is made. -/
theorem on_need_change (step : FileSystem → Option FileSystem) {after : FileSystem}
    (h : step host.files = some after) (otherwise : Failure) :
    (need (PureHost.change step) otherwise).on host = (.ok (), { host with files := after }) := by
  simp only [on_need, PureHost.change, h, if_true]

/-- Files that can be written one after the other are written. -/
theorem writeAll_of_some {files : List (String × String)} {after : FileSystem}
    (h : files.foldlM (fun fs (path, text) => fs.write? path text) host.files = some after) :
    (writeAll files).on host = (.ok (), { host with files := after }) := by
  induction files generalizing host with
  | nil =>
    obtain rfl := Option.some.inj h
    rfl
  | cons file rest ih =>
    obtain ⟨written, hwritten, hrest⟩ := Option.bind_eq_some_iff.mp h
    have hfile := on_need_change (·.write? file.1 file.2) hwritten (.unwritable file.1)
    have hall := on_bind_of_ok hfile fun _ => writeAll rest
    exact hall.trans (ih hrest)

/-- Where a directory can be made and all files can be written into it, they are. -/
theorem writeOutputs_of_some {dir : String} {units : List LoweredUnit} {made : FileSystem}
    (hmade : host.files.makeDirectory? dir = some made)
    (htargets : ∀ file ∈ units.flatMap (outputs dir), (made.target? file.1).isSome) :
    (writeOutputs dir units).on host =
      (.ok ((units.flatMap (outputs dir)).map Prod.fst),
        { host with files := made.overlay (units.flatMap (outputs dir)) }) := by
  have hdir := on_need_change (·.makeDirectory? dir) hmade (.noDirectory dir)
  have hall := @writeAll_of_some { host with files := made } _ _
    (FileSystem.foldlM_write? htargets)
  have hunfold := on_bind_of_ok hdir fun _ =>
    writeAll (units.flatMap (outputs dir)) >>= fun _ =>
      pure ((units.flatMap (outputs dir)).map Prod.fst)
  exact hunfold.trans (on_bind_of_ok hall _)

/-- A job that fails for reasons of one kind only. -/
def Job.FailsOnly {α : Type} (kind : Failure → Prop) (job : Job (StateM PureHost) α) : Prop :=
  ∀ host why, (job.on host).1 = .error why → kind why

section

variable {α β : Type} {kind : Failure → Prop}

theorem Job.failsOnly_pure (a : α) : FailsOnly kind (pure a) := fun _ _ h => by cases h

/-- A job that the host refuses fails for the reason that is given. -/
theorem Job.failsOnly_need (action : StateM PureHost Bool) {otherwise : Failure}
    (h : kind otherwise) : FailsOnly kind (need action otherwise) := by
  intro host why hwhy
  rw [on_need] at hwhy
  split at hwhy
  · cases hwhy
  · cases hwhy
    exact h

/-- Two jobs fail for the reasons of either. -/
theorem Job.FailsOnly.bind {job : Job (StateM PureHost) α} {next : α → Job (StateM PureHost) β}
    (hjob : FailsOnly kind job) (hnext : ∀ a, FailsOnly kind (next a)) :
    FailsOnly kind (job >>= next) := by
  intro host why hwhy
  rw [on_bind] at hwhy
  cases hon : job.on host with
  | mk outcome after =>
    rw [hon] at hwhy
    cases outcome with
    | ok a => exact hnext a after why hwhy
    | error why' =>
      cases hwhy
      exact hjob host why (by rw [hon])

theorem Job.failsOnly_forM {items : List α} {job : α → Job (StateM PureHost) Unit}
    (h : ∀ item, FailsOnly kind (job item)) : FailsOnly kind (items.forM job) := by
  induction items with
  | nil => exact failsOnly_pure ()
  | cons item rest ih => exact (h item).bind fun _ => ih

end

/-- Once writing has begun a job fails of writing only. -/
theorem failsOnly_writeOutputs (dir : String) (units : List LoweredUnit) :
    FailsOnly Failure.IsOfWriting (writeOutputs dir units) :=
  (failsOnly_need _ trivial).bind fun _ =>
    (failsOnly_forM fun _ => failsOnly_need _ trivial).bind fun _ => failsOnly_pure _

/-! ## Commands -/

section

variable {projects : List Project} {units : List LoweredUnit}

/-- A survey of what can be lowered tells of the findings and describes each unit. -/
theorem survey_of_lowers (h : Lowers parse? host.files config inputs projects units) :
    ∃ reports, List.Forall₂ UnitReport.Describes reports units ∧
      (survey parse? inputs config).on host =
        (.ok reports, { host with printed := host.printed ++ findingsText units }) := by
  refine ⟨units.map .of, ?_, ?_⟩
  · rw [List.forall₂_map_left_iff, List.forall₂_same]
    exact fun u _ => ⟨rfl, rfl, rfl, rfl⟩
  · rw [survey, on_bind_of_ok (lowerFiles_of_lowers "Check" h),
      on_bind_of_ok (prints_printDiagnostics units host)]
    rfl

/-- A compile of what can be lowered tells of the findings and gets to writing. -/
theorem compileInto_of_lowers (h : Lowers parse? host.files config inputs projects units)
    (dir : String) :
    (compileInto parse? inputs dir config).on host =
      (writeOutputs dir units).on { host with printed := host.printed ++ findingsText units } := by
  rw [compileInto, on_bind_of_ok (lowerFiles_of_lowers "Transpilation" h),
    on_bind_of_ok (prints_printDiagnostics units host)]

variable {reports : List UnitReport}

/-- Reports are printed line by line. -/
theorem prints_printReports_text (h : List.Forall₂ UnitReport.Describes reports units) :
    (printReports (m := StateM PureHost) "text" reports).Prints (summaryText units) := by
  have hlines : reports.map (fun r => r.line ++ "\n") = units.map fun u =>
      "  " ++ u.sourceFile ++ " " ++ toString u.statements ++ " statements, "
        ++ toString u.diagnostics.length ++ " warnings\n" := by
    induction h with
    | nil => rfl
    | cons hfirst _ ih =>
      rw [List.map_cons, List.map_cons, ih, UnitReport.line, hfirst.file, hfirst.statements,
        hfirst.warnings]
      simp [String.append_assoc]
  have hprints : (reports.forM (m := Job (StateM PureHost)) fun r => printLine r.line).Prints _ :=
    prints_forM fun r _ => prints_printLine r.line
  have hsummary : summaryText units = .join (reports.map fun r => r.line ++ "\n") ++
      ("Success: " ++ (toString reports.length ++ " units transpile") ++ "\n") := by
    rw [hlines, summaryText, h.length_eq]
    simp [String.append_assoc]
  rw [hsummary]
  exact hprints.bind (prints_printLine _)

/-- The reports are not nested deeply. -/
theorem fits_objects (reports : List UnitReport) {room : Nat} (hroom : 2 ≤ room) :
    (Json.arr (reports.map UnitReport.object)).Fits room := by
  obtain ⟨room, rfl⟩ := Nat.exists_eq_add_of_le' hroom
  refine ⟨by omega, ?_⟩
  induction reports with
  | nil => trivial
  | cons r rest ih => exact ⟨by simp [UnitReport.object], ih⟩

/-- Reports are printed as one value that can be read again. -/
theorem prints_printReports_json (h : List.Forall₂ UnitReport.Describes reports units) :
    ∃ text, (printReports (m := StateM PureHost) "json" reports).Prints (text ++ "\n") ∧
      Json.parse? text = some (summaryJson units) := by
  have hobjects : Json.arr (reports.map UnitReport.object) = summaryJson units := by
    unfold summaryJson
    congr 1
    induction h with
    | nil => rfl
    | cons hfirst _ ih =>
      rw [List.map_cons, List.map_cons, ih, UnitReport.object, hfirst.file, hfirst.statements,
        hfirst.constants, hfirst.warnings]
  refine ⟨_, prints_printLine _, ?_⟩
  rw [← hobjects]
  exact Json.parse?_pretty 0 (fits_objects reports (by decide))

end

/-- However reports are printed, and even if they cannot be, no file is changed. -/
theorem files_printReports (format : String) (reports : List UnitReport) :
    ((printReports format reports).on host).2.files = host.files := by
  unfold printReports
  split
  · rw [prints_printLine]
  · have hprints : (reports.forM (m := Job (StateM PureHost)) fun r => printLine r.line).Prints _ :=
      prints_forM fun r _ => prints_printLine r.line
    rw [hprints.bind (prints_printLine _)]
  · rfl

/-- The code of some units and, of a unit that has one, its position map, with where they belong in
a directory. -/
def filesFor (dir : String) (units : List LoweredUnit) : List (String × String) :=
  units.flatMap fun u =>
    [(u.codePath dir, u.code)] ++ u.positionMap.toList.map fun map => (u.mapPath dir, map)

/-- These are the files that are written. -/
theorem flatMap_outputs (dir : String) (units : List LoweredUnit) :
    units.flatMap (outputs dir) = filesFor dir units := by
  refine List.flatMap_congr fun u _ => ?_
  unfold outputs
  cases u.positionMap <;> rfl

/-- A compile that does not fail before its output is made and written. -/
def ReachesWriting (ended : Except Failure (List String)) : Prop :=
  ∀ why, ended = .error why → why.IsOfWriting

/-- Compiling is all or nothing up to lowering, and a check tells which. Where a file is missing or
holds no project, or a unit of the projects put together cannot be lowered on its own, a compile
fails before writing and leaves the host as it was, and so does a check. Otherwise the check reports
the units of all projects in their order, with the counts of each, and prints the findings and the
reports, as lines or as one value; and the compile overlays the earlier files with the code of these
units, in the same order, each followed by its position map where maps are configured, provided that
the directory can be made and the files can be written. A check never changes a file. -/
theorem compileInto_all_or_nothing (parse? : String → Option Project) (inputs : List String)
    (dir : String) (config : Config) (host : PureHost) :
    let compiled := (compileInto parse? inputs dir config).on host
    let surveyed := (survey parse? inputs config).on host
    let checked := fun format => (check parse? inputs format config).on host
    (Refuses parse? host.files config inputs → ∃ why why', compiled = (.error why, host) ∧
      ¬ why.IsOfWriting ∧ surveyed = (.error why', host) ∧
      ∀ format, checked format = (.error why', host)) ∧
    (¬ Refuses parse? host.files config inputs → ∃ projects units,
      Lowers parse? host.files config inputs projects units ∧
      units.map (·.sourceFile) = (projects.flatMap (·.units)).map (·.file) ∧
      (∀ u ∈ units, u.positionMap.isSome = config.sourceMaps) ∧
      let told := host.printed ++ findingsText units
      (∃ reports, List.Forall₂ UnitReport.Describes reports units ∧
        surveyed = (.ok reports, { host with printed := told })) ∧
      checked "text" = (.ok (), { host with printed := told ++ summaryText units }) ∧
      (∃ text, Json.parse? text = some (summaryJson units) ∧
        checked "json" = (.ok (), { host with printed := told ++ (text ++ "\n") })) ∧
      ReachesWriting compiled.1 ∧
      ∀ made, host.files.makeDirectory? dir = some made →
        (∀ file ∈ filesFor dir units, (made.target? file.1).isSome) →
          compiled = (.ok ((filesFor dir units).map Prod.fst),
            ⟨made.overlay (filesFor dir units), told⟩) ∧
          made.files = host.files.files) ∧
    ((∃ reports, surveyed.1 = .ok reports) ↔ ReachesWriting compiled.1) ∧
    (∀ format, format = "text" ∨ format = "json" →
      ((checked format).1 = .ok () ↔ ReachesWriting compiled.1)) ∧
    surveyed.2.files = host.files ∧
    ∀ format, (checked format).2.files = host.files := by
  intro compiled surveyed checked
  rcases refuses_or_lowers parse? host.files config inputs with
    hrefuses | ⟨projects, units, hlowers⟩
  · -- nothing is written: the job ends before
    obtain ⟨why, hwhy, hkind⟩ := lowerFiles_of_refuses "Transpilation" hrefuses
    obtain ⟨why', hwhy', -⟩ := lowerFiles_of_refuses "Check" hrefuses
    have hcompiled : compiled = (.error why, host) := on_bind_of_error hwhy _
    have hsurveyed : surveyed = (.error why', host) := on_bind_of_error hwhy' _
    have hchecked : ∀ format, checked format = (.error why', host) := fun format =>
      on_bind_of_error hsurveyed _
    have hstops : ¬ ReachesWriting compiled.1 := fun h => hkind (h why (by rw [hcompiled]))
    refine ⟨fun _ => ⟨why, why', hcompiled, hkind, hsurveyed, hchecked⟩,
      fun h => absurd hrefuses h, ?_, fun format _ => ?_, by rw [hsurveyed], fun format => ?_⟩
    · rw [hsurveyed]
      exact ⟨fun ⟨_, h⟩ => (by cases h), fun h => absurd h hstops⟩
    · rw [hchecked]
      exact ⟨fun h => (by cases h), fun h => absurd h hstops⟩
    · rw [hchecked]
  · -- both jobs get to the same units
    obtain ⟨reports, hreports, hsurveyed⟩ := survey_of_lowers hlowers
    have hsurveyed : surveyed = _ := hsurveyed
    have hcompiled : compiled = _ := compileInto_of_lowers hlowers dir
    have hchecked : ∀ format, checked format = (printReports format reports).on surveyed.2 :=
      fun format => by rw [hsurveyed]; exact on_bind_of_ok hsurveyed _
    have hreaches : ReachesWriting compiled.1 := fun why h =>
      failsOnly_writeOutputs dir units _ why (by rw [← hcompiled]; exact h)
    have htext : checked "text" = _ :=
      (hchecked "text").trans (prints_printReports_text hreports surveyed.2)
    obtain ⟨text, hprints, hread⟩ := prints_printReports_json hreports
    have hjson : checked "json" = _ := (hchecked "json").trans (hprints surveyed.2)
    rw [hsurveyed] at htext hjson
    refine ⟨fun h => absurd h (not_refuses_of_lowers hlowers), fun _ =>
      ⟨projects, units, hlowers, ?_, (of_lowerUnits hlowers.2).2, ⟨reports, hreports, hsurveyed⟩,
        htext, ⟨text, hread, hjson⟩, hreaches, fun made hmade htargets => ?_⟩,
      ⟨fun _ => hreaches, fun _ => ⟨reports, by rw [hsurveyed]⟩⟩, fun format hformat => ?_,
      by rw [hsurveyed], fun format => ?_⟩
    · rw [← Project.units_combine]
      exact (of_lowerUnits hlowers.2).1
    · rw [← flatMap_outputs] at htargets ⊢
      exact ⟨hcompiled.trans (writeOutputs_of_some hmade htargets),
        FileSystem.files_of_makeDirectory? hmade⟩
    · obtain rfl | rfl := hformat
      · rw [htext]
        exact ⟨fun _ => hreaches, fun _ => rfl⟩
      · rw [hjson]
        exact ⟨fun _ => hreaches, fun _ => rfl⟩
    · rw [hchecked, files_printReports, hsurveyed]

/-- The command leaves the files that compiling into its directory leaves, and fails where that
fails. -/
theorem compile_on (parse? : String → Option Project) (inputs : List String)
    (output : Option String) (sourceMaps : Bool) (config : Config) (host : PureHost) :
    let compiled := (compileInto parse? inputs ((output.or config.outputDir).getD "dist")
      { config with sourceMaps := config.sourceMaps || sourceMaps }).on host
    let command := (compile parse? inputs output sourceMaps config).on host
    command.2.files = compiled.2.files ∧
      ∀ why, command.1 = .error why ↔ compiled.1 = .error why := by
  intro compiled command
  cases hcompiled : compiled with
  | mk ended after =>
    cases ended with
    | error why =>
      have hcommand : command = (.error why, after) := on_bind_of_error hcompiled _
      rw [hcommand]
      simp
    | ok written =>
      have hprints := prints_printLine ("Success: " ++ ("Wrote " ++ toString written.length
        ++ " files to " ++ (output.or config.outputDir).getD "dist")) after
      have hcommand : command = _ := (on_bind_of_ok hcompiled _).trans hprints
      rw [hcommand]
      simp

/-! ## Two projects -/

namespace TwoProjects

/-- The text of a project of one program that holds one statement. -/
def text (name statement : String) : String :=
  let span := "\x7b\"start\":\x7b\"row\":1,\"col\":1\x7d,\"end\":\x7b\"row\":9,\"col\":1\x7d\x7d"
  .join [
    "\x7b\"units\":[\x7b\"filename\":\"", name, ".prog.abap\",",
    "\"object\":\x7b\"type\":\"PROG\",", "\"name\":\"", name, "\"\x7d,",
    "\"root\":\x7b\"kind\":\"program\",", "\"span\":", span, ",\"children\":[",
    "\x7b\"node\":\"statement\",", "\"span\":", span, ",\"statement\":",
    "\x7b\"kind\":\"", statement, "\"\x7d\x7d]\x7d,",
    "\"scopes\":\x7b\"nodes\":[\x7b", "\"kind\":\"program\",", "\"name\":\"", name, "\",",
    "\"file\":\"", name, ".prog.abap\",", "\"coverage\":", span, ",\"parent\":null,",
    "\"children\":[]\x7d]\x7d\x7d]\x7d"]

/-- What two projects, put together, are lowered to. -/
def lowered (a b : Project) : Option (List LoweredUnit) :=
  ((Session.fresh .mapping).run (.combine [a, b])).1.toOption

/-- The position map of a program of one statement. -/
def mapOf (name : String) : PositionMap :=
  ⟨1, name ++ ".prog.js", name ++ ".prog.abap", [⟨1, 1, 1, 1⟩]⟩

/-- What a program that only returns is lowered to. -/
def returning (name : String) : LoweredUnit :=
  ⟨name ++ ".prog.js", name ++ ".prog.abap", "return;\n", some (mapOf name).text, [], 1, 0⟩

/-- The two projects are lowered together, unless the second has a statement that only closes a
`CASE`. -/
theorem lowered_text :
    (parseProject? (text "za" "return")).bind (fun a =>
        (parseProject? (text "zb" "return")).map (lowered a)) =
      some (some [returning "za", returning "zb"]) ∧
    (parseProject? (text "za" "return")).bind (fun a =>
        (parseProject? (text "zb" "end_case")).map (lowered a)) = some none := by
  simp only [text, parseProject?, Json.parse?, String.toList_join]
  decide +kernel

/-- Two project files in the current directory, and earlier output in another one. -/
def workspace (a b : String) : PureHost :=
  ⟨.ofFiles ["work"] (by decide) [("work/a.json", a), ("work/b.json", b),
    ("out/za.prog.js", "stale"), ("out/notes", "kept")], ""⟩

/-- The two projects are read by their names, from the current directory. -/
theorem mapM_workspace (a b : String) :
    ["a.json", "b.json"].mapM (project? parseProject? (workspace a b).files) =
      (parseProject? a).bind fun p => (parseProject? b).map fun q => [p, q] := by
  have hnames : Route.text ["work", "a.json"] = "work/a.json" ∧
      Route.text ["work", "b.json"] = "work/b.json" := by decide
  have ha : (workspace a b).files.read? "a.json" = some a := by
    rw [FileSystem.read?_name (by decide) (by decide) (by decide) (by decide)]
    simp [workspace, FileSystem.ofFiles, hnames, Dict.ofList, Dict.find?_insertAll, List.lookup_cons]
  have hb : (workspace a b).files.read? "b.json" = some b := by
    rw [FileSystem.read?_name (by decide) (by decide) (by decide) (by decide)]
    simp [workspace, FileSystem.ofFiles, hnames, Dict.ofList, Dict.find?_insertAll, List.lookup_cons]
  simp only [List.mapM_cons, List.mapM_nil, project?, ha, hb, Option.bind_some]
  cases parseProject? a <;> cases parseProject? b <;> rfl

/-- A workspace whose projects cannot be lowered together is refused. -/
theorem refuses_workspace {a b : String}
    (h : (parseProject? a).bind (fun p => (parseProject? b).map (lowered p)) = some none) :
    Refuses parseProject? (workspace a b).files .mapping ["a.json", "b.json"] := by
  rcases refuses_or_lowers parseProject? (workspace a b).files .mapping ["a.json", "b.json"] with
    hrefuses | ⟨projects, units, hread, hrun⟩
  · exact hrefuses
  · rw [mapM_workspace] at hread
    obtain ⟨p, hp, hread⟩ := Option.bind_eq_some_iff.mp hread
    obtain ⟨q, hq, rfl⟩ := Option.map_eq_some_iff.mp hread
    simp [hp, hq, lowered, hrun, Except.toOption] at h

/-- A workspace whose projects can be lowered is lowered. -/
theorem lowers_workspace {a b : String} {units : List LoweredUnit}
    (h : (parseProject? a).bind (fun p => (parseProject? b).map (lowered p)) = some (some units)) :
    ∃ projects,
      Lowers parseProject? (workspace a b).files .mapping ["a.json", "b.json"] projects units := by
  obtain ⟨p, hp, h⟩ := Option.bind_eq_some_iff.mp h
  obtain ⟨q, hq, h⟩ := Option.map_eq_some_iff.mp h
  exact ⟨[p, q], by rw [mapM_workspace, hp, hq]; rfl, eq_ok_of_toOption h⟩

/-- The directory can be made at the root, and all files have their places in it. -/
theorem makeDirectory?_workspace :
    ((workspace (text "za" "return") (text "zb" "return")).files.makeDirectory? "/out").map
      (fun made => ["/out/za.prog.js", "/out/za.prog.js.map", "/out/zb.prog.js",
        "/out/zb.prog.js.map"].map made.target?) =
        some [some ["out", "za.prog.js"], some ["out", "za.prog.js.map"],
          some ["out", "zb.prog.js"], some ["out", "zb.prog.js.map"]] := by
  decide +kernel

/-- Two programs in the current directory are compiled, with position maps, into a directory that is
named from the root, in which a file has one of their names, and a check reports on both. Where the
second cannot be lowered they are not compiled, and the check fails. -/
theorem compileInto_workspace :
    let inputs := ["a.json", "b.json"]
    let host := workspace (text "za" "return") (text "zb" "return")
    let refused := workspace (text "za" "return") (text "zb" "end_case")
    (∃ files, (compileInto parseProject? inputs "/out" .mapping).on host =
        (.ok ["/out/za.prog.js", "/out/za.prog.js.map", "/out/zb.prog.js", "/out/zb.prog.js.map"],
          ⟨files, ""⟩) ∧
      ["out/za.prog.js", "out/zb.prog.js", "out/notes"].map files.files.find? =
        [some "return;\n", some "return;\n", some "kept"] ∧
      ["out/za.prog.js.map", "out/zb.prog.js.map"].map
          (fun path => (files.files.find? path).bind PositionMap.ofText?) =
        [some ⟨1, "za.prog.js", "za.prog.abap", [⟨1, 1, 1, 1⟩]⟩,
          some ⟨1, "zb.prog.js", "zb.prog.abap", [⟨1, 1, 1, 1⟩]⟩]) ∧
    (check parseProject? inputs "text" .mapping).on host =
      (.ok (), { host with printed :=
        "  za.prog.abap 1 statements, 0 warnings\n  zb.prog.abap 1 statements, 0 warnings\n"
          ++ "Success: 2 units transpile\n" }) ∧
    (∃ json, (check parseProject? inputs "json" .mapping).on host =
        (.ok (), { host with printed := json ++ "\n" }) ∧
      Json.parse? json = some (.arr
        [.obj [("file", .str "za.prog.abap"), ("statements", .int 1), ("constants", .int 0),
          ("warnings", .int 0)],
        .obj [("file", .str "zb.prog.abap"), ("statements", .int 1), ("constants", .int 0),
          ("warnings", .int 0)]])) ∧
    ∃ why why', (compileInto parseProject? inputs "/out" .mapping).on refused =
        (.error why, refused) ∧
      (check parseProject? inputs "text" .mapping).on refused = (.error why', refused) := by
  intro inputs host refused
  have hends := compileInto_all_or_nothing parseProject? inputs "/out" .mapping refused
  have hwrites := compileInto_all_or_nothing parseProject? inputs "/out" .mapping host
  obtain ⟨why, why', hwhy, -, -, hwhy'⟩ := hends.1 (refuses_workspace lowered_text.2)
  obtain ⟨_, hlowers⟩ := lowers_workspace lowered_text.1
  obtain ⟨_, _, hlowers', -, -, -, htext, ⟨json, hread, hjson⟩, -, hwrites⟩ :=
    hwrites.2.1 (not_refuses_of_lowers hlowers)
  obtain ⟨-, rfl⟩ := hlowers.unique hlowers'
  have hfiles : filesFor "/out" [returning "za", returning "zb"] =
      [("/out/za.prog.js", "return;\n"), ("/out/za.prog.js.map", (mapOf "za").text),
        ("/out/zb.prog.js", "return;\n"), ("/out/zb.prog.js.map", (mapOf "zb").text)] := by
    rfl
  obtain ⟨made, hmade, htargets⟩ := Option.map_eq_some_iff.mp makeDirectory?_workspace
  obtain ⟨hza, hzaMap, hzb, hzbMap⟩ : made.target? "/out/za.prog.js" = _ ∧
      made.target? "/out/za.prog.js.map" = _ ∧ made.target? "/out/zb.prog.js" = _ ∧
      made.target? "/out/zb.prog.js.map" = _ := by
    simpa using htargets
  obtain ⟨hcompiled, hsame⟩ := hwrites made hmade (by simp [hfiles, hza, hzaMap, hzb, hzbMap])
  have hnotes : made.files.find? "out/notes" = some "kept" := by
    rw [hsame]
    simp [host, workspace, FileSystem.ofFiles, Dict.ofList, Dict.find?_insertAll]
  have hnames : Route.text ["out", "za.prog.js"] = "out/za.prog.js" ∧
      Route.text ["out", "za.prog.js.map"] = "out/za.prog.js.map" ∧
      Route.text ["out", "zb.prog.js"] = "out/zb.prog.js" ∧
      Route.text ["out", "zb.prog.js.map"] = "out/zb.prog.js.map" := by decide
  rw [hfiles] at hcompiled
  refine ⟨⟨_, hcompiled, ?_, ?_⟩, htext, ⟨json, hjson.trans ?_, hread⟩, why, why', hwhy,
    hwhy' "text"⟩
  · simp [FileSystem.find?_overlay, hza, hzaMap, hzb, hzbMap, hnames, hnotes, List.lookup_cons]
  · simp [FileSystem.find?_overlay, hza, hzaMap, hzb, hzbMap, hnames, List.lookup_cons,
      PositionMap.ofText?_text, mapOf]
  · rfl

end TwoProjects

end CommandLine

end AbapLowering
