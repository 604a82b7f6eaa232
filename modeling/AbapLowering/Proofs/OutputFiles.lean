import AbapLowering.Proofs.CommandLine
import Mathlib.Data.List.Nodup

/-!
# Which files are left

The code of a unit goes to a file that is named after its source: `.js` stands in place of `.abap`,
or after any other name. So `zfoo` and `zfoo.abap` share a file, and only names like these do
(`outputFile_eq_iff`). A file is written over the one that is there, and of two units that share a
file the later is left (`CommandLine.compileInto_keeps`).
-/

namespace AbapLowering

/-! ## Names of files -/

/-- A name without `.abap` at its end, next to the name with it. -/
def IsBareOf (bare file : String) : Prop :=
  file = bare ++ ".abap" ∧ ¬ ".abap".toList <:+ bare.toList

instance (bare file : String) : Decidable (IsBareOf bare file) :=
  inferInstanceAs (Decidable (_ ∧ _))

/-- One name is the other without `.abap` at its end. -/
def Clash (a b : String) : Prop := IsBareOf a b ∨ IsBareOf b a

instance (a b : String) : Decidable (Clash a b) := inferInstanceAs (Decidable (_ ∨ _))

/-- The usual ending is replaced. -/
theorem outputFile_append (stem : String) : outputFile (stem ++ ".abap") = stem ++ ".js" := by
  rw [outputFile, String.toList_append, Text.beforeEnd?_append]
  simp

/-- To any other name the new ending is added. -/
theorem outputFile_of_not_suffix {file : String} (h : ¬ ".abap".toList <:+ file.toList) :
    outputFile file = file ++ ".js" := by
  unfold outputFile
  split
  · next stem hstem => exact absurd ⟨stem, (Text.beforeEnd?_eq_some_iff.mp hstem).symm⟩ h
  · rfl

/-- A name has the usual ending or not. -/
theorem eq_append_or_not_suffix (file : String) :
    (∃ stem, file = stem ++ ".abap") ∨ ¬ ".abap".toList <:+ file.toList := by
  by_cases h : ".abap".toList <:+ file.toList
  · obtain ⟨stem, hstem⟩ := h
    exact .inl ⟨String.ofList stem, String.toList_inj.mp (by simpa using hstem.symm)⟩
  · exact .inr h

theorem suffix_append_abap (stem : String) : ".abap".toList <:+ (stem ++ ".abap").toList :=
  ⟨stem.toList, by simp⟩

/-- Only a name with the usual ending has a bare one. -/
theorem IsBareOf.suffix {bare file : String} (h : IsBareOf bare file) :
    ".abap".toList <:+ file.toList :=
  h.1 ▸ suffix_append_abap bare

theorem clash_comm {a b : String} : Clash a b ↔ Clash b a := Or.comm

/-- No name clashes with itself. -/
theorem Clash.irrefl {a : String} (h : Clash a a) : False := by
  rcases h with h | h <;> exact h.2 h.suffix

/-- No two names clash with a third. -/
theorem Clash.unique {a b c : String} (hac : Clash a c) (hbc : Clash b c) : a = b := by
  rcases hac with hac | hca <;> rcases hbc with hbc | hcb
  · exact (String.append_left_inj ".abap").mp (hac.1.symm.trans hbc.1)
  · exact absurd hac.suffix hcb.2
  · exact absurd hbc.suffix hca.2
  · rw [hca.1, hcb.1]

/-- A name without the ending clashes with the one that has it behind the same stem. -/
theorem clash_append_iff {stem other : String} (h : ¬ ".abap".toList <:+ other.toList) :
    Clash (stem ++ ".abap") other ↔ stem = other := by
  constructor
  · rintro (hbare | hbare)
    · exact absurd hbare.suffix h
    · exact (String.append_left_inj ".abap").mp hbare.1
  · rintro rfl
    exact .inr ⟨rfl, h⟩

/-- Just a name with and without `.abap` at its end give the same file. -/
theorem outputFile_eq_iff {a b : String} : outputFile a = outputFile b ↔ a = b ∨ Clash a b := by
  rcases eq_append_or_not_suffix a with ⟨s, rfl⟩ | ha <;>
    rcases eq_append_or_not_suffix b with ⟨t, rfl⟩ | hb
  · -- neither is bare, so the names before the endings decide
    have hclash : ¬ Clash (s ++ ".abap") (t ++ ".abap") := by
      rintro (h | h)
      · exact h.2 (suffix_append_abap s)
      · exact h.2 (suffix_append_abap t)
    simp [outputFile_append, hclash]
  · have hne : s ++ ".abap" ≠ b := fun h => hb (h ▸ suffix_append_abap s)
    simp [outputFile_append, outputFile_of_not_suffix hb, hne, clash_append_iff hb]
  · have hne : a ≠ t ++ ".abap" := fun h => ha (h ▸ suffix_append_abap t)
    rw [outputFile_append, outputFile_of_not_suffix ha, String.append_left_inj, or_iff_right hne,
      clash_comm, clash_append_iff ha, eq_comm]
  · have hclash : ¬ Clash a b := by
      rintro (h | h)
      · exact hb h.suffix
      · exact ha h.suffix
    simp [outputFile_of_not_suffix ha, outputFile_of_not_suffix hb, hclash]

example : outputFile "zfoo" = outputFile "zfoo.abap" ∧
    outputFile "zfoo.abap" ≠ outputFile "zfoo.abap.abap" := by decide

/-- The name of a file with code has the new ending behind a stem of the source. -/
theorem exists_outputFile (file : String) :
    ∃ stem : String, outputFile file = stem ++ ".js" ∧ stem.toList ⊆ file.toList := by
  rcases eq_append_or_not_suffix file with ⟨stem, rfl⟩ | h
  · exact ⟨stem, outputFile_append stem, by simp⟩
  · exact ⟨file, outputFile_of_not_suffix h, List.Subset.refl _⟩

/-! ## Names in a directory -/

namespace FileSystem

variable {fs : FileSystem}

/-- A stem with an ending is a name if there is no slash in it. -/
theorem IsName.append {stem ending : String} (hstem : '/' ∉ stem.toList)
    (hending : '/' ∉ ending.toList) (hlong : 2 < ending.length) : IsName (stem ++ ending) where
  plain := by simp [hstem, hending]
  lasting := by
    have hlong : 2 < (stem ++ ending).length := by rw [String.length_append]; omega
    refine ⟨?_, ?_, ?_⟩ <;> intro h <;> rw [h] at hlong <;> exact absurd hlong (by decide)

/-- A name in a directory comes last on the way. -/
theorem exists_parts_join (dir : String) :
    ∃ way, ∀ name : String, '/' ∉ name.toList →
      parts (LoweredUnit.join dir name) = way ++ [name] := by
  have hhead {name : String} (h : '/' ∉ name.toList) : name.toList.head? ≠ some '/' :=
    fun hhead => h (List.mem_of_mem_head? hhead)
  unfold LoweredUnit.join
  by_cases hempty : dir.isEmpty = true
  · exact ⟨[], fun name h => by rw [if_neg (hhead h), if_pos hempty, parts_of_plain h]; rfl⟩
  by_cases hslash : dir.toList.getLast? = some '/'
  · obtain ⟨outer, houter⟩ := List.getLast?_eq_some_iff.mp hslash
    have hdir : dir = String.ofList outer ++ "/" := String.toList_inj.mp (by simpa using houter)
    refine ⟨parts (String.ofList outer), fun name h => ?_⟩
    rw [if_neg (hhead h), if_neg hempty, if_pos hslash, hdir, parts_append_slash _ _ h]
  · refine ⟨parts dir, fun name h => ?_⟩
    rw [if_neg (hhead h), if_neg hempty, if_neg hslash, parts_append_slash _ _ h]

/-- Different names in a directory have different paths. -/
theorem join_inj {dir a b : String} (ha : '/' ∉ a.toList) (hb : '/' ∉ b.toList) :
    LoweredUnit.join dir a = LoweredUnit.join dir b ↔ a = b := by
  refine ⟨fun h => ?_, fun h => h ▸ rfl⟩
  obtain ⟨way, hway⟩ := exists_parts_join dir
  have hparts : way ++ [a] = way ++ [b] := by rw [← hway a ha, ← hway b hb, h]
  simpa using hparts

/-- Two paths into one directory start at the same place. -/
theorem origin_join {dir a b : String} (ha : '/' ∉ a.toList) (hb : '/' ∉ b.toList) :
    fs.origin (LoweredUnit.join dir a) = fs.origin (LoweredUnit.join dir b) := by
  have hplain {name : String} (h : '/' ∉ name.toList) : name.toList.head? ≠ some '/' :=
    fun hhead => h (List.mem_of_mem_head? hhead)
  have horigin {name : String} (h : '/' ∉ name.toList) :
      fs.origin (LoweredUnit.join dir name) = fs.origin dir := by
    unfold LoweredUnit.join origin
    by_cases hempty : dir.isEmpty = true
    · obtain rfl : dir = "" := String.isEmpty_iff.mp hempty
      simp [hplain h]
    · -- the directory is not empty, so its first character is that of the path
      obtain ⟨c, rest, hdir⟩ := List.exists_cons_of_ne_nil
        (fun hnil => hempty (String.isEmpty_iff.mpr (String.toList_inj.mp hnil)) : dir.toList ≠ [])
      rw [if_neg (hplain h), if_neg hempty]
      split <;> simp [hdir]
  rw [horigin ha, horigin hb]

/-- Names in a directory lead to places of their own. -/
theorem eq_of_target?_join {dir a b : String} (ha : IsName a) (hb : IsName b) {r r' : Route}
    (hr : fs.target? (LoweredUnit.join dir a) = some r)
    (hr' : fs.target? (LoweredUnit.join dir b) = some r') (h : r.text = r'.text) : a = b := by
  obtain ⟨way, hway⟩ := exists_parts_join dir
  -- a name is looked up in the directory that the way before it leads to
  have hends {name : String} (hname : IsName name) {r : Route}
      (hr : fs.target? (LoweredUnit.join dir name) = some r) :
      ∃ base, fs.follow? (fs.origin (LoweredUnit.join dir name)) way = some base ∧
        r = base ++ [name] := by
    have hr := (Option.filter_eq_some_iff.mp hr).1
    unfold route? at hr
    split at hr
    · cases hr
    · rw [hway name hname.plain, follow?_append] at hr
      obtain ⟨base, hbase, hr⟩ := Option.bind_eq_some_iff.mp hr
      rw [follow?_name hname] at hr
      split at hr
      · exact ⟨base, hbase, (Option.some.inj hr).symm⟩
      · cases hr
  obtain ⟨base, hbase, rfl⟩ := hends ha hr
  obtain ⟨base', hbase', rfl⟩ := hends hb hr'
  rw [origin_join ha.plain hb.plain] at hbase
  obtain rfl := Option.some.inj (hbase.symm.trans hbase')
  exact Route.eq_of_text_snoc_eq h

end FileSystem

/-! ## The files of a unit -/

namespace LoweredUnit

/-- The files of a unit are named after its source, which has a name without a directory. -/
structure IsPlain (u : LoweredUnit) : Prop where
  file_eq : u.file = outputFile u.sourceFile
  source : '/' ∉ u.sourceFile.toList

variable {u v : LoweredUnit} {dir : String}

theorem IsPlain.exists_stem (h : u.IsPlain) :
    ∃ stem : String, u.file = stem ++ ".js" ∧ '/' ∉ stem.toList := by
  obtain ⟨stem, hfile, hsubset⟩ := exists_outputFile u.sourceFile
  exact ⟨stem, h.file_eq.trans hfile, fun hmem => h.source (hsubset hmem)⟩

/-- Code is put in a file with a plain name. -/
theorem IsPlain.isName (h : u.IsPlain) : FileSystem.IsName u.file := by
  obtain ⟨stem, hfile, hstem⟩ := h.exists_stem
  exact hfile ▸ .append hstem (by decide) (by decide)

theorem IsPlain.isName_map (h : u.IsPlain) : FileSystem.IsName (u.file ++ ".map") :=
  .append h.isName.plain (by decide) (by decide)

/-- No code goes where a map goes. -/
theorem IsPlain.codePath_ne_mapPath (hu : u.IsPlain) (hv : v.IsPlain) :
    u.codePath dir ≠ v.mapPath dir := by
  intro h
  have hname := (FileSystem.join_inj hu.isName.plain hv.isName_map.plain).mp h
  -- the names differ in their last characters
  obtain ⟨stem, hstem, -⟩ := hu.exists_stem
  have hlast := congrArg (fun name : String => name.toList.getLast?) (hstem.symm.trans hname)
  simp at hlast

end LoweredUnit

namespace CommandLine

open Job

variable {u v : LoweredUnit} {units : List LoweredUnit} {dir : String} {file : String × String}

/-- A unit has a file with its code, and one with its map if it has a map. -/
theorem mem_outputs : file ∈ outputs dir u ↔ file = (u.codePath dir, u.code) ∨
    ∃ map, u.positionMap = some map ∧ file = (u.mapPath dir, map) := by
  unfold outputs
  cases u.positionMap <;> simp

/-- So it has at most two paths. -/
theorem fst_of_mem_outputs (h : file ∈ outputs dir u) :
    file.1 = u.codePath dir ∨ file.1 = u.mapPath dir := by
  rcases mem_outputs.mp h with rfl | ⟨map, -, rfl⟩
  · exact .inl rfl
  · exact .inr rfl

/-- Where a file of a unit goes is a name in the directory. -/
theorem exists_isName_of_mem_outputs (hu : u.IsPlain) (h : file ∈ outputs dir u) :
    ∃ name, FileSystem.IsName name ∧ file.1 = LoweredUnit.join dir name := by
  rcases fst_of_mem_outputs h with h | h
  · exact ⟨u.file, hu.isName, h⟩
  · exact ⟨u.file ++ ".map", hu.isName_map, h⟩

/-- Units whose code goes to different files share no path. -/
theorem fst_ne_of_mem_outputs (hu : u.IsPlain) (hv : v.IsPlain) (hne : u.file ≠ v.file)
    {other : String × String} (h : file ∈ outputs dir u) (h' : other ∈ outputs dir v) :
    file.1 ≠ other.1 := by
  rcases fst_of_mem_outputs h with h | h <;> rcases fst_of_mem_outputs h' with h' | h' <;>
    rw [h, h']
  · exact fun heq => hne ((FileSystem.join_inj hu.isName.plain hv.isName.plain).mp heq)
  · exact hu.codePath_ne_mapPath hv
  · exact (hv.codePath_ne_mapPath hu).symm
  · intro heq
    have hmaps := (FileSystem.join_inj hu.isName_map.plain hv.isName_map.plain).mp heq
    exact hne ((String.append_left_inj ".map").mp hmaps)

/-- The two paths of a unit differ. -/
theorem nodup_outputs (hu : u.IsPlain) : ((outputs dir u).map Prod.fst).Nodup := by
  unfold outputs
  cases u.positionMap with
  | none => simp
  | some map => simpa using hu.codePath_ne_mapPath hu

/-- Two units have no path in common iff their files have different names. -/
theorem disjoint_outputs_iff (hu : u.IsPlain) (hv : v.IsPlain) :
    List.Disjoint ((outputs dir u).map Prod.fst) ((outputs dir v).map Prod.fst) ↔
      u.file ≠ v.file := by
  constructor
  · intro hdisjoint heq
    have hcode (w : LoweredUnit) : w.codePath dir ∈ (outputs dir w).map Prod.fst :=
      List.mem_map.mpr ⟨_, mem_outputs.mpr (.inl rfl), rfl⟩
    have hpath : u.codePath dir = v.codePath dir := congrArg (LoweredUnit.join dir) heq
    exact hdisjoint (hcode u) (hpath ▸ hcode v)
  · intro hne path hpath hpath'
    obtain ⟨file, hfile, rfl⟩ := List.mem_map.mp hpath
    obtain ⟨other, hother, heq⟩ := List.mem_map.mp hpath'
    exact fst_ne_of_mem_outputs hu hv hne hfile hother heq.symm

/-- All paths are distinct if and only if the files for the code are. -/
theorem nodup_paths_iff (hplain : ∀ u ∈ units, u.IsPlain) :
    ((units.flatMap (outputs dir)).map Prod.fst).Nodup ↔ (units.map (·.file)).Nodup := by
  rw [List.map_flatMap, List.nodup_flatMap, and_iff_right fun u hu => nodup_outputs (hplain u hu)]
  rw [List.Nodup, List.pairwise_map]
  exact List.Pairwise.iff_of_mem fun hu hv => disjoint_outputs_iff (hplain _ hu) (hplain _ hv)

/-- All files for code are distinct if and only if no two sources clash. -/
theorem nodup_files_iff (hplain : ∀ u ∈ units, u.IsPlain)
    (hdistinct : (units.map (·.sourceFile)).Nodup) :
    (units.map (·.file)).Nodup ↔
      ∀ a ∈ units.map (·.sourceFile), ∀ b ∈ units.map (·.sourceFile), ¬ Clash a b := by
  have hfiles : units.map (·.file) = (units.map (·.sourceFile)).map outputFile := by
    rw [List.map_map]
    exact List.map_congr_left fun u hu => (hplain u hu).file_eq
  rw [hfiles, List.nodup_map_iff_inj_on hdistinct]
  constructor
  · intro hinj a ha b hb hclash
    obtain rfl := hinj a ha b hb (outputFile_eq_iff.mpr (.inr hclash))
    exact hclash.irrefl
  · intro hclash a ha b hb heq
    exact (outputFile_eq_iff.mp heq).resolve_right (hclash a ha b hb)

/-- Names of files differ where the names of units do and do not clash. -/
theorem file_ne_of_later {before after : List LoweredUnit}
    (hplain : ∀ w ∈ before ++ u :: after, w.IsPlain)
    (hdistinct : ((before ++ u :: after).map (·.sourceFile)).Nodup) (hv : v ∈ after)
    (hclash : ¬ Clash v.sourceFile u.sourceFile) : v.file ≠ u.file := by
  rw [(hplain v (by simp [hv])).file_eq, (hplain u (by simp)).file_eq]
  intro heq
  have hsame : v.sourceFile = u.sourceFile := (outputFile_eq_iff.mp heq).resolve_right hclash
  rw [List.map_append, List.map_cons] at hdistinct
  have hfresh := (List.nodup_cons.mp (List.nodup_append.mp hdistinct).2.1).1
  exact hfresh (hsame ▸ List.mem_map_of_mem hv)

/-! ## Writing over files -/

/-- All files of a unit are in the directory, with the texts they should have. -/
def Kept (dir : String) (u : LoweredUnit) (fs : FileSystem) : Prop :=
  ∀ file ∈ outputs dir u, fs.read? file.1 = some file.2

/-- What a unit writes is found under its path. -/
theorem lookup_outputs (hu : u.IsPlain) (h : file ∈ outputs dir u) :
    (outputs dir u).reverse.lookup file.1 = some file.2 := by
  rcases mem_outputs.mp h with rfl | ⟨map, hmap, rfl⟩
  · unfold outputs
    cases u.positionMap with
    | none => exact Dict.lookup_cons_self (u.codePath dir, u.code) _
    | some map =>
      have hne : u.codePath dir ≠ (u.mapPath dir, map).1 := hu.codePath_ne_mapPath hu
      exact (Dict.lookup_cons_of_ne hne _).trans (Dict.lookup_cons_self (u.codePath dir, u.code) _)
  · rw [outputs, hmap]
    exact Dict.lookup_cons_self (u.mapPath dir, map) _

/-- The last text for a path is that of the last unit whose code goes to the same file. -/
theorem lookup_of_last {before after : List LoweredUnit}
    (hplain : ∀ w ∈ before ++ u :: after, w.IsPlain) (hlast : ∀ w ∈ after, w.file ≠ u.file)
    (h : file ∈ outputs dir u) :
    ((before ++ u :: after).flatMap (outputs dir)).reverse.lookup file.1 = some file.2 := by
  have hu : u.IsPlain := hplain u (by simp)
  -- nothing that is written later has the path
  have hlater : (after.flatMap (outputs dir)).reverse.lookup file.1 = none := by
    refine Dict.lookup_eq_none fun other hother => ?_
    obtain ⟨w, hw, hother⟩ := List.mem_flatMap.mp (List.mem_reverse.mp hother)
    exact fst_ne_of_mem_outputs (hplain w (by simp [hw])) hu (hlast w hw) hother h
  rw [List.flatMap_append, List.flatMap_cons, List.reverse_append, List.reverse_append,
    List.lookup_append, List.lookup_append, hlater, lookup_outputs hu h]
  rfl

/-- Where all files can be written the last unit whose code goes to a file is kept. -/
theorem kept_of_last {fs : FileSystem} {before after : List LoweredUnit}
    (hplain : ∀ w ∈ before ++ u :: after, w.IsPlain) (hlast : ∀ w ∈ after, w.file ≠ u.file)
    (htargets : ∀ file ∈ (before ++ u :: after).flatMap (outputs dir), (fs.target? file.1).isSome) :
    Kept dir u (fs.overlay ((before ++ u :: after).flatMap (outputs dir))) := by
  intro file hfile
  have hu : u ∈ before ++ u :: after := by simp
  refine FileSystem.read?_overlay (lookup_of_last hplain hlast hfile)
    (htargets file (List.mem_flatMap.mpr ⟨u, hu, hfile⟩)) ?_
  -- no other path of the run leads to the same place, for they all are names in one directory
  intro other hother r r' hr hr' htext
  obtain ⟨w, hw, hother⟩ := List.mem_flatMap.mp hother
  obtain ⟨name, hname, hpath⟩ := exists_isName_of_mem_outputs (hplain w hw) hother
  obtain ⟨name', hname', hpath'⟩ := exists_isName_of_mem_outputs (hplain u hu) hfile
  rw [hpath] at hr
  rw [hpath'] at hr'
  rw [hpath, hpath', FileSystem.eq_of_target?_join hname hname' hr hr' htext]

/-! ## Success -/

variable {host : PureHost}

/-- The directory can be made, and all files can be written into it. -/
def Writable (fs : FileSystem) (dir : String) (files : List (String × String)) : Prop :=
  ∃ made, fs.makeDirectory? dir = some made ∧ ∀ file ∈ files, (made.target? file.1).isSome

instance (fs : FileSystem) (dir : String) (files : List (String × String)) :
    Decidable (Writable fs dir files) :=
  decidable_of_iff ((fs.makeDirectory? dir).any fun made =>
    files.all fun file => (made.target? file.1).isSome) (by
      rw [Writable]
      cases fs.makeDirectory? dir <;> simp)

/-- A change that succeeded was made. -/
theorem change_of_on_need {step : FileSystem → Option FileSystem} {otherwise : Failure}
    {after : PureHost} (h : (need (PureHost.change step) otherwise).on host = (.ok (), after)) :
    step host.files = some after.files := by
  cases hstep : step host.files with
  | none => simp [on_need, PureHost.change, hstep] at h
  | some changed =>
    rw [on_need_change step hstep] at h
    cases h
    rfl

/-- Files that were written could be written one after the other. -/
theorem foldlM_of_writeAll {files : List (String × String)} {after : PureHost}
    (h : (writeAll files).on host = (.ok (), after)) :
    files.foldlM (fun fs (path, text) => fs.write? path text) host.files = some after.files := by
  induction files generalizing host with
  | nil =>
    cases h
    rfl
  | cons file rest ih =>
    obtain ⟨_, between, hfile, hrest⟩ := exists_of_on_bind h
    exact Option.bind_eq_some_iff.mpr ⟨between.files, change_of_on_need hfile, ih hrest⟩

/-- If all was written, all of it could be. -/
theorem writable_of_writeOutputs {written : List String} {after : PureHost}
    (h : (writeOutputs dir units).on host = (.ok written, after)) :
    Writable host.files dir (units.flatMap (outputs dir)) := by
  obtain ⟨_, between, hdir, hrest⟩ := exists_of_on_bind h
  obtain ⟨_, between', hall, -⟩ := exists_of_on_bind hrest
  exact ⟨between.files, change_of_on_need hdir,
    FileSystem.isSome_target?_of_foldlM_write? (foldlM_of_writeAll hall)⟩

variable {parse? : String → Option Project} {inputs : List String} {config : Config}

/-- Compiling what can be lowered succeeds if and only if all files can be written; then they lie,
in the order of their units, over what was there. -/
theorem compileInto_ok {projects : List Project}
    (hlowers : Lowers parse? host.files config inputs projects units) (dir : String) :
    let files := units.flatMap (outputs dir)
    let compiled := (compileInto parse? inputs dir config).on host
    ((∃ written, compiled.1 = .ok written) ↔ Writable host.files dir files) ∧
    ∀ written, compiled.1 = .ok written → written = files.map Prod.fst ∧
      ∃ made : FileSystem, (∀ file ∈ files, (made.target? file.1).isSome) ∧
        compiled.2.files = made.overlay files := by
  intro files compiled
  let told : PureHost := { host with printed := host.printed ++ findingsText units }
  have hcompiled : compiled = (writeOutputs dir units).on told := compileInto_of_lowers hlowers dir
  have hwrites : ∀ {made}, host.files.makeDirectory? dir = some made →
      (∀ file ∈ files, (made.target? file.1).isSome) →
        compiled = (.ok (files.map Prod.fst), ⟨made.overlay files, told.printed⟩) :=
    fun hmade htargets => hcompiled.trans (writeOutputs_of_some hmade htargets)
  have hwritable : ∀ {written}, compiled.1 = .ok written → Writable host.files dir files := by
    intro written hok
    have hended : (writeOutputs dir units).on told = (.ok written, compiled.2) :=
      hcompiled.symm.trans (Prod.ext hok rfl)
    have hwritable := writable_of_writeOutputs hended
    exact hwritable
  -- success goes back to what can be written, which in turn decides what is left
  refine ⟨⟨fun ⟨_, hok⟩ => hwritable hok, fun ⟨made, hmade, htargets⟩ => ?_⟩,
    fun written hok => ?_⟩
  · exact ⟨_, congrArg Prod.fst (hwrites hmade htargets)⟩
  · obtain ⟨made, hmade, htargets⟩ := hwritable hok
    have hwrites := hwrites hmade htargets
    rw [hwrites] at hok ⊢
    exact ⟨(Except.ok.inj hok).symm, made, htargets, rfl⟩

/-- Compile units whose sources have names of their own, without slashes, into a directory. The paths
of all their files are distinct if and only if no two of the names clash. Compiling succeeds if and
only if all files can be written, and answers their paths. Then every unit whose name does not clash
with another is found in the directory as it was lowered. Of two that clash the later is found, at
paths that both have. -/
theorem compileInto_keeps (parse? : String → Option Project) (inputs : List String) (dir : String)
    (config : Config) (host : PureHost) {projects : List Project} {units : List LoweredUnit}
    (hlowers : Lowers parse? host.files config inputs projects units)
    (hplain : ∀ name ∈ (projects.flatMap (·.units)).map (·.file), '/' ∉ name.toList)
    (hdistinct : ((projects.flatMap (·.units)).map (·.file)).Nodup) :
    let names := (projects.flatMap (·.units)).map (·.file)
    let files := units.flatMap (outputs dir)
    let compiled := (compileInto parse? inputs dir config).on host
    units.map (·.sourceFile) = names ∧
    ((files.map Prod.fst).Nodup ↔ ∀ a ∈ names, ∀ b ∈ names, ¬ Clash a b) ∧
    ((∃ written, compiled.1 = .ok written) ↔ Writable host.files dir files) ∧
    ∀ written, compiled.1 = .ok written → written = files.map Prod.fst ∧
      (∀ u ∈ units, (∀ name ∈ names, ¬ Clash u.sourceFile name) → Kept dir u compiled.2.files) ∧
      ∀ before v after, units = before ++ v :: after →
        ∀ u ∈ before, Clash u.sourceFile v.sourceFile → Kept dir v compiled.2.files ∧
          u.codePath dir = v.codePath dir ∧ u.mapPath dir = v.mapPath dir := by
  intro names files compiled
  have hnames : units.map (·.sourceFile) = names := by
    rw [(of_lowerUnits hlowers.2).1, Project.units_combine]
  change ∀ name ∈ names, _ at hplain
  change names.Nodup at hdistinct
  rw [← hnames] at hplain hdistinct ⊢
  have hplain : ∀ u ∈ units, u.IsPlain := by
    intro u hu
    exact ⟨file_of_lowerUnits hlowers.2 u hu, hplain _ (List.mem_map_of_mem hu)⟩
  obtain ⟨hok, hwritten⟩ := compileInto_ok hlowers dir
  refine ⟨rfl, (nodup_paths_iff hplain).trans (nodup_files_iff hplain hdistinct), hok, ?_⟩
  intro written h
  obtain ⟨hpaths, made, htargets, hleft⟩ := hwritten written h
  refine ⟨hpaths, fun u hu hclash => ?_, fun before v after hunits u hu hclash => ?_⟩
  · obtain ⟨before, after, rfl⟩ := List.append_of_mem hu
    have hlater : ∀ w ∈ after, ¬ Clash w.sourceFile u.sourceFile := fun w hw h =>
      hclash w.sourceFile (List.mem_map_of_mem (by simp [hw])) (clash_comm.mp h)
    rw [hleft]
    exact kept_of_last hplain
      (fun w hw => file_ne_of_later hplain hdistinct hw (hlater w hw)) htargets
  · subst hunits
    -- the one name that clashes with that of `v` is the name of `u`
    have hlater : ∀ w ∈ after, ¬ Clash w.sourceFile v.sourceFile := by
      intro w hw h
      have hsame : u.sourceFile = w.sourceFile := hclash.unique h
      rw [List.map_append, List.nodup_append] at hdistinct
      exact hdistinct.2.2 _ (List.mem_map_of_mem hu) _
        (List.mem_map_of_mem (List.mem_cons_of_mem v hw)) hsame
    have hfile : u.file = v.file := by
      rw [(hplain u (by simp [hu])).file_eq, (hplain v (by simp)).file_eq]
      exact outputFile_eq_iff.mpr (.inr hclash)
    refine ⟨?_, by rw [LoweredUnit.codePath, hfile, LoweredUnit.codePath],
      by rw [LoweredUnit.mapPath, hfile, LoweredUnit.mapPath]⟩
    rw [hleft]
    exact kept_of_last hplain
      (fun w hw => file_ne_of_later hplain hdistinct hw (hlater w hw)) htargets

/-! ## Two units -/

namespace TwoUnits

/-- The text of a project of two programs, of one statement each. -/
def text (first second : String × String) : String :=
  let span := "\x7b\"start\":\x7b\"row\":1,\"col\":1\x7d,\"end\":\x7b\"row\":9,\"col\":1\x7d\x7d"
  let program := fun (file, statement) => [
    "\x7b\"filename\":\"", file, "\",", "\"object\":\x7b\"type\":\"PROG\",",
    "\"name\":\"zfoo\"\x7d,",
    "\"root\":\x7b\"kind\":\"program\",", "\"span\":", span, ",\"children\":[",
    "\x7b\"node\":\"statement\",", "\"span\":", span, ",\"statement\":",
    "\x7b\"kind\":\"", statement, "\"\x7d\x7d]\x7d,",
    "\"scopes\":\x7b\"nodes\":[\x7b", "\"kind\":\"program\",", "\"name\":\"zfoo\",",
    "\"file\":\"", file, "\",", "\"coverage\":", span, ",\"parent\":null,",
    "\"children\":[]\x7d]\x7d\x7d"]
  .join (["\x7b\"units\":["] ++ program first ++ [","] ++ program second ++ ["]\x7d"])

/-- The names of the sources of a project, and the files it is lowered to. -/
def lowered (config : Config) (p : Project) : Option (List String × List (String × String)) :=
  ((Session.fresh config).run (.combine [p])).1.toOption.map fun units =>
    (p.units.map (·.file), units.flatMap (outputs "dist"))

/-- A project file. -/
def workspace (text : String) : PureHost := ⟨.ofFiles [] (by decide) [("p.json", text)], ""⟩

/-- The workspace holds one project. -/
theorem mapM_workspace (text : String) :
    ["p.json"].mapM (project? parseProject? (workspace text).files) =
      (parseProject? text).map fun p => [p] := by
  have hname : Route.text ["p.json"] = "p.json" := by decide
  have hread : (workspace text).files.read? "p.json" = some text := by
    rw [FileSystem.read?_name (by decide) (by decide) (by decide) (by decide)]
    simp [workspace, FileSystem.ofFiles, hname, Dict.ofList, Dict.find?_insertAll]
  simp only [List.mapM_cons, List.mapM_nil, project?, hread, Option.bind_some]
  cases parseProject? text <;> rfl

/-- What the project is lowered to is known from its text. -/
theorem lowers_workspace {text : String} {config : Config} {names : List String}
    {files : List (String × String)}
    (h : (parseProject? text).bind (lowered config) = some (names, files)) :
    ∃ projects units,
      Lowers parseProject? (workspace text).files config ["p.json"] projects units ∧
      (projects.flatMap (·.units)).map (·.file) = names ∧
      units.flatMap (outputs "dist") = files := by
  obtain ⟨p, hp, h⟩ := Option.bind_eq_some_iff.mp h
  obtain ⟨units, hunits, h⟩ := Option.map_eq_some_iff.mp h
  obtain ⟨rfl, rfl⟩ := Prod.mk.inj h
  exact ⟨[p], units, ⟨by rw [mapM_workspace, hp]; rfl, eq_ok_of_toOption hunits⟩, by simp, rfl⟩

/-- The text of a map with one entry. -/
def mapText (file source : String) : String :=
  .join ["\x7b\"version\":1,\"file\":\"", file, "\",\"source\":\"", source, "\",\"mappings\":[",
    "\x7b\"generated_line\":1,\"generated_column\":1,\"source_row\":1,\"source_column\":1\x7d]\x7d"]

/-- Two units with different stems have four files. -/
theorem lowered_text :
    (parseProject? (text ("zfoo.prog.abap", "return") ("zfoo", "continue"))).bind
        (lowered .mapping) =
      some (["zfoo.prog.abap", "zfoo"],
        [("dist/zfoo.prog.js", "return;\n"),
          ("dist/zfoo.prog.js.map", mapText "zfoo.prog.js" "zfoo.prog.abap"),
          ("dist/zfoo.js", "continue;\n"), ("dist/zfoo.js.map", mapText "zfoo.js" "zfoo")]) := by
  simp only [text, parseProject?, Json.parse?, String.toList_join]
  decide +kernel

/-- The names `zfoo.prog.abap` and `zfoo` do not clash, and all files are left. -/
theorem compileInto_keeps_sameStem :
    let host := workspace (text ("zfoo.prog.abap", "return") ("zfoo", "continue"))
    ∃ written after,
      (compileInto parseProject? ["p.json"] "dist" .mapping).on host = (.ok written, after) ∧
      written =
        ["dist/zfoo.prog.js", "dist/zfoo.prog.js.map", "dist/zfoo.js", "dist/zfoo.js.map"] ∧
      written.map after.files.read? =
        [some "return;\n", some (mapText "zfoo.prog.js" "zfoo.prog.abap"),
          some "continue;\n", some (mapText "zfoo.js" "zfoo")] := by
  intro host
  obtain ⟨projects, units, hlowers, hnames, hfiles⟩ := lowers_workspace lowered_text
  obtain ⟨hsources, -, hok, hkept⟩ := compileInto_keeps parseProject? ["p.json"] "dist" .mapping
    host hlowers (hnames ▸ by decide) (hnames ▸ by decide)
  rcases hcompiled : (compileInto parseProject? ["p.json"] "dist" .mapping).on host with
    ⟨ended, after⟩
  rw [hfiles, hcompiled] at hok hkept
  obtain ⟨written, rfl⟩ := hok.mpr (by decide +kernel)
  obtain ⟨rfl, hkept, -⟩ := hkept written rfl
  have hread : ∀ file ∈ units.flatMap (outputs "dist"),
      after.files.read? file.1 = some file.2 := by
    intro file hfile
    obtain ⟨u, hu, hfile⟩ := List.mem_flatMap.mp hfile
    have hsource : u.sourceFile ∈ ["zfoo.prog.abap", "zfoo"] :=
      hnames ▸ hsources ▸ List.mem_map_of_mem hu
    -- neither name clashes with the other, or with itself
    have hclash : ∀ source ∈ ["zfoo.prog.abap", "zfoo"], ∀ name ∈ ["zfoo.prog.abap", "zfoo"],
        ¬ Clash source name := by decide
    exact hkept u hu (hnames ▸ hclash _ hsource) file hfile
  rw [hfiles] at hread
  simp only [List.forall_mem_cons] at hread
  obtain ⟨hprogram, hprogramMap, hbare, hbareMap, -⟩ := hread
  refine ⟨_, after, rfl, rfl, ?_⟩
  simp only [List.map_cons, List.map_nil, hprogram, hprogramMap, hbare, hbareMap]

/-- Two units whose names differ in the ending only have one file. -/
theorem lowered_clashing :
    (parseProject? (text ("zfoo", "return") ("zfoo.abap", "continue"))).bind (lowered .standard) =
      some (["zfoo", "zfoo.abap"],
        [("dist/zfoo.js", "return;\n"), ("dist/zfoo.js", "continue;\n")]) := by
  simp only [text, parseProject?, Json.parse?, String.toList_join]
  decide +kernel

/-- The names `zfoo` and `zfoo.abap` clash, and only the code of the second is left. -/
theorem compileInto_clashing :
    let host := workspace (text ("zfoo", "return") ("zfoo.abap", "continue"))
    ∃ projects units after, Lowers parseProject? host.files .standard ["p.json"] projects units ∧
      (projects.flatMap (·.units)).map (·.file) = ["zfoo", "zfoo.abap"] ∧
      units.flatMap (outputs "dist") =
        [("dist/zfoo.js", "return;\n"), ("dist/zfoo.js", "continue;\n")] ∧
      (compileInto parseProject? ["p.json"] "dist" .standard).on host =
        (.ok ["dist/zfoo.js", "dist/zfoo.js"], after) ∧
      after.files.read? "dist/zfoo.js" = some "continue;\n" := by
  intro host
  obtain ⟨projects, units, hlowers, hnames, hfiles⟩ := lowers_workspace lowered_clashing
  have hlowers : Lowers parseProject? host.files .standard ["p.json"] projects units := hlowers
  obtain ⟨hok, hwritten⟩ := compileInto_ok hlowers "dist"
  rcases hcompiled : (compileInto parseProject? ["p.json"] "dist" .standard).on host with
    ⟨ended, after⟩
  rw [hfiles, hcompiled] at hok hwritten
  obtain ⟨written, rfl⟩ := hok.mpr (by decide +kernel)
  obtain ⟨rfl, made, htargets, hleft⟩ := hwritten written rfl
  refine ⟨projects, units, after, hlowers, hnames, hfiles, rfl, ?_⟩
  change after.files = _ at hleft
  rw [hleft]
  exact FileSystem.read?_overlay (by simp) (htargets ("dist/zfoo.js", "continue;\n") (by simp))
    (by simp)

end TwoUnits

end CommandLine

end AbapLowering
