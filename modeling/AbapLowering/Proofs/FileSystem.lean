import AbapLowering.FileSystem

/-!
# Writing several files

Writing a file makes no directory and removes none, so where the paths of other files lead stays as
it is (`target?_overlay`). Files that can each be written can therefore be written one after the
other, and what is left is the earlier file system overlaid with them (`foldlM_write?`). At each of
their paths the file that was put there last is read (`read?_overlay`).
-/

namespace AbapLowering

/-! ## Maps -/

namespace Dict

variable {α : Type}

/-- An entry is added or replaced, and no key is lost. -/
theorem mem_keys_insertEntry {key other : String} {value : α} :
    ∀ {l : List (String × α)}, other ∈ (insertEntry key value l).map Prod.fst ↔
      other = key ∨ other ∈ l.map Prod.fst
  | [] => by simp [insertEntry]
  | entry :: rest => by
    unfold insertEntry
    split
    · simp
    · split
      · next heq => simp [heq]
      · simp only [List.map_cons, List.mem_cons, mem_keys_insertEntry]
        grind

theorem mem_keys_insert {d : Dict α} {key other : String} {value : α} :
    other ∈ (d.insert key value).entries.map Prod.fst ↔
      other = key ∨ other ∈ d.entries.map Prod.fst :=
  mem_keys_insertEntry

/-- Of entries that are added one by one the last of a key counts. -/
theorem find?_insertAll (entries : List (String × α)) (d : Dict α) (key : String) :
    (d.insertAll entries).find? key = (entries.reverse.lookup key).or (d.find? key) := by
  induction entries generalizing d with
  | nil => rfl
  | cons entry rest ih =>
    have hrest : (d.insertAll (entry :: rest)).find? key = _ := ih (d.insert entry.1 entry.2)
    rw [hrest, List.reverse_cons, List.lookup_append, Option.or_assoc]
    congr 1
    by_cases h : key = entry.1
    · rw [h, find?_insert_self, lookup_cons_self, Option.some_or]
    · rw [find?_insert_of_ne d entry.2 h, lookup_cons_of_ne h, List.lookup_nil, Option.none_or]

/-- Nothing is found under a key that does not occur. -/
theorem lookup_eq_none {key : String} {l : List (String × α)} (h : ∀ x ∈ l, x.1 ≠ key) :
    l.lookup key = none := by
  induction l with
  | nil => rfl
  | cons entry rest ih =>
    obtain ⟨hentry, hrest⟩ := List.forall_mem_cons.mp h
    rw [lookup_cons_of_ne hentry.symm, ih hrest]

/-- The keys of a map differ, so it does not matter from which end it is searched. -/
theorem lookup_reverse_of_pairwise (key : String) :
    ∀ {l : List (String × α)}, l.Pairwise (fun a b => a.1 < b.1) →
      l.reverse.lookup key = l.lookup key
  | [], _ => rfl
  | entry :: rest, h => by
    obtain ⟨hentry, hrest⟩ := List.pairwise_cons.mp h
    rw [List.reverse_cons, List.lookup_append, lookup_reverse_of_pairwise key hrest]
    by_cases hkey : key = entry.1
    · subst hkey
      have habsent : rest.lookup entry.1 = none :=
        lookup_eq_none fun x hx heq => String.lt_irrefl _ (heq ▸ hentry x hx)
      rw [habsent, Option.none_or, lookup_cons_self, lookup_cons_self]
    · rw [lookup_cons_of_ne hkey, lookup_cons_of_ne hkey, List.lookup_nil, Option.or_none]

/-- Of two dictionaries the later one decides. -/
theorem find?_merge (d other : Dict α) (key : String) :
    (d.merge other).find? key = (other.find? key).or (d.find? key) := by
  rw [merge, find?_insertAll, lookup_reverse_of_pairwise key other.sorted]
  rfl

end Dict

/-! ## Routes -/

namespace Route

/-- A route stays plain when a plain name is added. -/
theorem IsPlain.snoc {route : Route} {name : String} (h : route.IsPlain) (hname : '/' ∉ name.toList) :
    IsPlain (route ++ [name]) := by
  intro other hother
  rcases List.mem_append.mp hother with hother | hother
  · exact h other hother
  · rwa [List.mem_singleton.mp hother]

theorem IsPlain.dropLast {route : Route} (h : route.IsPlain) : IsPlain route.dropLast :=
  fun name hname => h name ((List.dropLast_sublist _).subset hname)

theorem toList_text_singleton (name : String) : (text [name]).toList = name.toList := by
  simp [text]

/-- The text of a route has slashes between its names. -/
theorem toList_text_cons_cons (name other : String) (rest : Route) :
    (text (name :: other :: rest)).toList =
      name.toList ++ '/' :: (text (other :: rest)).toList := by
  simp [text, String.toList_intercalate]

/-- Before its first slash a text holds the same as one it starts. -/
theorem eq_of_slash_prefix {a b x y : List Char} (ha : '/' ∉ a) (hb : '/' ∉ b)
    (h : a ++ '/' :: x <+: b ++ '/' :: y) : a = b ∧ x <+: y := by
  induction a generalizing b with
  | nil =>
    cases b with
    | nil => exact ⟨rfl, (List.cons_prefix_cons.mp h).2⟩
    | cons c b => exact absurd ((List.cons_prefix_cons.mp h).1 ▸ List.mem_cons_self) hb
  | cons c a ih =>
    cases b with
    | nil => exact absurd ((List.cons_prefix_cons.mp h).1 ▸ List.mem_cons_self) ha
    | cons d b =>
      obtain ⟨rfl, hrest⟩ := List.cons_prefix_cons.mp h
      obtain ⟨rfl, hxy⟩ := ih (fun hm => ha (List.mem_cons_of_mem _ hm))
        (fun hm => hb (List.mem_cons_of_mem _ hm)) hrest
      exact ⟨rfl, hxy⟩

/-- The text of a route, with a slash, starts only the texts of routes that lead on from it. -/
theorem exists_of_text_prefix {q r : Route} (hq : q.IsPlain) (hr : r.IsPlain) (hne : q ≠ [])
    (h : q.text.toList ++ ['/'] <+: r.text.toList) : ∃ name rest, r = q ++ name :: rest := by
  induction q generalizing r with
  | nil => exact absurd rfl hne
  | cons name q ih =>
    obtain ⟨hname, hq⟩ := List.forall_mem_cons.mp hq
    match r, hr with
    | [], _ => exact absurd (h.subset (List.mem_append_right _ List.mem_cons_self)) (by simp [text])
    | [only], hr =>
      rw [toList_text_singleton] at h
      exact absurd (h.subset (List.mem_append_right _ List.mem_cons_self)) (hr only (by simp))
    | first :: second :: rest, hr =>
      obtain ⟨hfirst, hrest⟩ := List.forall_mem_cons.mp hr
      rw [toList_text_cons_cons] at h
      -- one name each is taken off, until the shorter route is used up
      match q, hq with
      | [], _ =>
        rw [toList_text_singleton] at h
        obtain ⟨heq, -⟩ := eq_of_slash_prefix hname hfirst h
        exact ⟨second, rest, by rw [String.toList_inj.mp heq]; rfl⟩
      | next :: q, hq =>
        rw [toList_text_cons_cons, List.append_assoc, List.cons_append] at h
        obtain ⟨heq, htail⟩ := eq_of_slash_prefix hname hfirst h
        obtain ⟨found, others, hfound⟩ := ih hq hrest (by simp) htail
        exact ⟨found, others, by rw [hfound, String.toList_inj.mp heq]; rfl⟩

/-- The last name of a route stands behind the last slash. -/
theorem toList_text_snoc {base : Route} (hbase : base ≠ []) (name : String) :
    (text (base ++ [name])).toList = (text base).toList ++ '/' :: name.toList := by
  induction base with
  | nil => exact absurd rfl hbase
  | cons first rest ih =>
    cases rest with
    | nil => simp [toList_text_cons_cons, toList_text_singleton]
    | cons second rest =>
      have hrest : (text (second :: (rest ++ [name]))).toList = _ := ih (by simp)
      simp only [List.cons_append, toList_text_cons_cons, hrest, List.append_assoc]

/-- Routes into one directory have different texts if the names at their ends differ. -/
theorem eq_of_text_snoc_eq {base : Route} {a b : String}
    (h : text (base ++ [a]) = text (base ++ [b])) : a = b := by
  have h := congrArg String.toList h
  by_cases hbase : base = []
  · subst hbase
    rw [List.nil_append, List.nil_append, toList_text_singleton, toList_text_singleton] at h
    exact String.toList_inj.mp h
  · rw [toList_text_snoc hbase, toList_text_snoc hbase] at h
    exact String.toList_inj.mp (List.cons.inj (List.append_cancel_left h)).2

end Route

namespace FileSystem

variable {fs other : FileSystem}

/-! ## Where paths lead -/

/-- No piece of a path has a slash in it. -/
theorem not_mem_of_mem_pieces {part : String} : ∀ {text read : List Char}, '/' ∉ read →
    part ∈ parts.pieces text read → '/' ∉ part.toList
  | [], read, hread, h => by
    rw [parts.pieces, List.mem_singleton] at h
    subst h
    simpa using hread
  | c :: rest, read, hread, h => by
    unfold parts.pieces at h
    split at h
    · rcases List.mem_cons.mp h with h | h
      · subst h
        simpa using hread
      · exact not_mem_of_mem_pieces (by simp) h
    · next hc =>
      refine not_mem_of_mem_pieces (fun hm => ?_) h
      rcases List.mem_cons.mp hm with hm | hm
      · exact hc hm.symm
      · exact hread hm

theorem not_mem_of_mem_parts {path part : String} (h : part ∈ parts path) : '/' ∉ part.toList :=
  not_mem_of_mem_pieces (by simp) h

/-- The current directory and those around it are directories. -/
theorem isDirectory_of_prefix {route : Route} (h : route <+: fs.current) :
    fs.isDirectory route = true := by
  simp [isDirectory, List.isPrefixOf_iff_prefix.mpr h]

/-- A name on its own is looked up in the current directory. -/
theorem read?_name {name : String} (hslash : name.toList.head? ≠ some '/')
    (hnull : '\x00' ∉ name.toList) (hparts : parts name = [name])
    (hdots : name ≠ "" ∧ name ≠ "." ∧ name ≠ "..") :
    fs.read? name = fs.files.find? (Route.text (fs.current ++ [name])) := by
  obtain ⟨hempty, hdot, hup⟩ := hdots
  have hcurrent := isDirectory_of_prefix (List.prefix_refl fs.current)
  simp [read?, route?, origin, hslash, hnull, hparts, follow?, hcurrent, hempty, hdot, hup]

/-- A route that was followed: everything on the way to its end is a directory. -/
structure Followed (fs : FileSystem) (route : Route) : Prop where
  plain : route.IsPlain
  onTheWay : ∀ {before name after}, route = before ++ name :: after → fs.isDirectory before = true

/-- Where a path starts is a directory, in directories up to the root. -/
theorem followed_origin (fs : FileSystem) (path : String) : fs.Followed (fs.origin path) := by
  unfold origin
  split
  · exact ⟨by simp [Route.IsPlain], fun h => by simp at h⟩
  · refine ⟨fs.plain, fun {before name after} h => ?_⟩
    exact isDirectory_of_prefix (h ▸ List.prefix_append _ _)

/-- The directory that contains another one has been followed, too. -/
theorem Followed.up {route : Route} (h : fs.Followed route) : fs.Followed route.dropLast where
  plain := h.plain.dropLast
  onTheWay {before name after} heq := by
    have hne : route ≠ [] := by
      rintro rfl
      simp at heq
    have hroute : route = before ++ name :: (after ++ [route.getLast hne]) := by
      rw [← List.cons_append, ← List.append_assoc, ← heq, List.dropLast_concat_getLast]
    exact h.onTheWay hroute

/-- From a directory a route goes on to anything in it. -/
theorem Followed.down {route : Route} {part : String} (h : fs.Followed route)
    (hdir : fs.isDirectory route = true) (hpart : '/' ∉ part.toList) :
    fs.Followed (route ++ [part]) where
  plain := h.plain.snoc hpart
  onTheWay {before name after} heq := by
    rcases List.append_eq_append_iff.mp heq with ⟨middle, rfl, hmiddle⟩ | ⟨middle, rfl, hmiddle⟩
    · cases middle with
      | nil => simpa using hdir
      | cons m ms => simp at hmiddle
    · cases middle with
      | nil => simpa using hdir
      | cons m ms => exact h.onTheWay rfl

/-- Steps lead from routes of the system to routes of the system. -/
theorem followed_of_follow? : ∀ {ps : List String} {route r : Route}, fs.Followed route →
    (∀ part ∈ ps, '/' ∉ part.toList) → fs.follow? route ps = some r → fs.Followed r
  | [], route, r, hroute, _, h => by
    obtain rfl := Option.some.inj h
    exact hroute
  | part :: rest, route, r, hroute, hps, h => by
    obtain ⟨hpart, hrest⟩ := List.forall_mem_cons.mp hps
    unfold follow? at h
    split at h
    · cases h
    · next hdir =>
      split at h
      · exact followed_of_follow? hroute hrest h
      · split at h
        · exact followed_of_follow? hroute.up hrest h
        · exact followed_of_follow? (hroute.down (by simpa using hdir) hpart) hrest h

/-- A path leads to a route of the system, from the root or from the current directory. -/
theorem followed_of_route? {path : String} {route : Route} (h : fs.route? path = some route) :
    fs.Followed route := by
  unfold route? at h
  split at h
  · cases h
  · exact followed_of_follow? (fs.followed_origin path) (fun _ => not_mem_of_mem_parts) h

theorem followed_of_target? {path : String} {route : Route} (h : fs.target? path = some route) :
    fs.Followed route :=
  followed_of_route? (Option.filter_eq_some_iff.mp h).1

/-! ## Names in a directory -/

/-- What a file can be called: no way to another directory, or to none. -/
structure IsName (name : String) : Prop where
  plain : '/' ∉ name.toList
  lasting : name ≠ "" ∧ name ≠ "." ∧ name ≠ ".."

/-- A text without slashes is one piece. -/
theorem pieces_of_plain : ∀ {text read : List Char}, '/' ∉ text →
    parts.pieces text read = [String.ofList (read.reverse ++ text)]
  | [], read, _ => by rw [parts.pieces, List.append_nil]
  | c :: rest, read, h => by
    have hc : c ≠ '/' := fun hc => h (hc ▸ List.mem_cons_self)
    have hrest : '/' ∉ rest := fun hmem => h (List.mem_cons_of_mem c hmem)
    rw [parts.pieces, if_neg hc, pieces_of_plain hrest, List.reverse_cons, List.append_assoc]
    rfl

/-- A slash parts the pieces. -/
theorem pieces_append_slash (rest : List Char) : ∀ text read : List Char,
    parts.pieces (text ++ '/' :: rest) read = parts.pieces text read ++ parts.pieces rest []
  | [], read => by simp only [List.nil_append, parts.pieces, if_true, List.singleton_append]
  | c :: text, read => by
    simp only [List.cons_append, parts.pieces, pieces_append_slash rest text]
    split <;> rfl

/-- A plain name is the only part of its path. -/
theorem parts_of_plain {name : String} (h : '/' ∉ name.toList) : parts name = [name] := by
  rw [parts, pieces_of_plain h, List.reverse_nil, List.nil_append, String.ofList_toList]

/-- The last part of a path is the name after its last slash. -/
theorem parts_append_slash (dir name : String) (h : '/' ∉ name.toList) :
    parts (dir ++ "/" ++ name) = parts dir ++ [name] := by
  have hsplit : (dir ++ "/" ++ name).toList = dir.toList ++ '/' :: name.toList := by simp
  rw [← parts_of_plain h, parts, hsplit, pieces_append_slash]
  rfl

/-- Steps are taken one after the other. -/
theorem follow?_append (more : List String) : ∀ (ps : List String) (route : Route),
    fs.follow? route (ps ++ more) = (fs.follow? route ps).bind (fs.follow? · more)
  | [], route => rfl
  | part :: rest, route => by
    simp only [List.cons_append, follow?, follow?_append more rest]
    split
    · rfl
    split
    · rfl
    split <;> rfl

/-- A name leads into the directory at hand. -/
theorem follow?_name {name : String} (h : IsName name) (route : Route) :
    fs.follow? route [name] = if fs.isDirectory route then some (route ++ [name]) else none := by
  obtain ⟨hempty, hdot, hup⟩ := h.lasting
  simp only [follow?, hempty, hdot, hup, or_self, if_false]
  cases fs.isDirectory route <;> rfl

/-! ## Writing keeps directories -/

/-- Both have the same directories, and paths start at the same one. -/
structure SameDirectories (fs other : FileSystem) : Prop where
  current : other.current = fs.current
  isDirectory (route : Route) : route.IsPlain → other.isDirectory route = fs.isDirectory route

/-- Systems with the directories of a third one. -/
theorem SameDirectories.trans {third : FileSystem} (h : SameDirectories fs other)
    (h' : SameDirectories other third) : SameDirectories fs third :=
  ⟨h'.current.trans h.current, fun route hroute =>
    (h'.isDirectory route hroute).trans (h.isDirectory route hroute)⟩

/-- Steps lead to the same places where the directories are the same. -/
theorem SameDirectories.follow? (h : SameDirectories fs other) :
    ∀ {ps : List String} {route : Route}, route.IsPlain → (∀ part ∈ ps, '/' ∉ part.toList) →
      other.follow? route ps = fs.follow? route ps
  | [], _, _, _ => rfl
  | part :: rest, route, hroute, hps => by
    obtain ⟨hpart, hrest⟩ := List.forall_mem_cons.mp hps
    simp only [FileSystem.follow?, h.isDirectory route hroute, h.follow? hroute hrest,
      h.follow? hroute.dropLast hrest, h.follow? (hroute.snoc hpart) hrest]

/-- So files have the same places. -/
theorem SameDirectories.target? (h : SameDirectories fs other) (path : String) :
    other.target? path = fs.target? path := by
  have hroute : other.route? path = fs.route? path := by
    have horigin : other.origin path = fs.origin path := by rw [origin, origin, h.current]
    simp only [route?, horigin,
      h.follow? (fs.followed_origin path).plain (fun _ => not_mem_of_mem_parts)]
  rw [FileSystem.target?, FileSystem.target?, hroute]
  cases hr : fs.route? path with
  | none => rfl
  | some route =>
    rw [Option.filter_some, Option.filter_some, h.isDirectory route (followed_of_route? hr).plain]

/-- A file is put where no directory is, into a directory: this makes no other directory. -/
theorem sameDirectories_insert {route : Route} (hroute : fs.Followed route) (text : String) :
    SameDirectories fs { fs with files := fs.files.insert route.text text } := by
  refine ⟨rfl, fun q hq => ?_⟩
  rw [Bool.eq_iff_iff]
  have hkeys (d : Dict String) : (d.entries.any fun entry =>
        (q.text ++ "/").toList.isPrefixOf entry.1.toList) = true ↔
      ∃ key ∈ d.entries.map Prod.fst, (q.text ++ "/").toList <+: key.toList := by
    simp
  simp only [isDirectory, Bool.or_eq_true, hkeys, Dict.mem_keys_insert]
  constructor
  · rintro (h | ⟨key, rfl | hkey, hprefix⟩)
    · exact .inl h
    · by_cases hne : q = []
      · exact .inl (.inl (by simp [hne]))
      · obtain ⟨name, rest, hr⟩ :=
          Route.exists_of_text_prefix hq hroute.plain hne (by simpa using hprefix)
        simpa only [isDirectory, Bool.or_eq_true, hkeys] using hroute.onTheWay hr
    · exact .inr ⟨key, hkey, hprefix⟩
  · rintro (h | ⟨key, hkey, hprefix⟩)
    · exact .inl h
    · exact .inr ⟨key, .inr hkey, hprefix⟩

/-! ## Overlays -/

/-- The file system with the texts of some files on top, put where their paths lead; of two that
lead to the same place the later counts. -/
def overlay (fs : FileSystem) (files : List (String × String)) : FileSystem :=
  { fs with files := fs.files.insertAll (files.filterMap fun (path, text) =>
      (fs.target? path).map fun route => (route.text, text)) }

/-- Files are put on top one after the other. -/
theorem overlay_cons {path : String} {route : Route} (h : fs.target? path = some route)
    (text : String) (rest : List (String × String)) :
    fs.overlay ((path, text) :: rest) =
      { fs with files := fs.files.insert route.text text }.overlay rest := by
  have hsame := (sameDirectories_insert (followed_of_target? h) text).target?
  simp only [overlay, List.filterMap_cons, h, Option.map_some, hsame]
  rfl

/-- Files that can each be written can be written one after the other. -/
theorem foldlM_write? {files : List (String × String)}
    (h : ∀ file ∈ files, (fs.target? file.1).isSome) :
    files.foldlM (fun fs (path, text) => fs.write? path text) fs = some (fs.overlay files) := by
  induction files generalizing fs with
  | nil => rfl
  | cons file rest ih =>
    obtain ⟨path, text⟩ := file
    obtain ⟨hpath, hrest⟩ := List.forall_mem_cons.mp h
    obtain ⟨route, hroute⟩ := Option.isSome_iff_exists.mp hpath
    have hwrite : fs.write? path text =
        some { fs with files := fs.files.insert route.text text } := by
      rw [write?, hroute, Option.map_some]
    have hsame := (sameDirectories_insert (followed_of_target? hroute) text).target?
    rw [List.foldlM_cons, overlay_cons hroute]
    change (fs.write? path text).bind _ = _
    rw [hwrite, Option.bind_some]
    exact ih fun file hfile => by rw [hsame]; exact hrest file hfile

/-- To put files on top makes no directories. -/
theorem sameDirectories_overlay (files : List (String × String)) :
    SameDirectories fs (fs.overlay files) := by
  induction files generalizing fs with
  | nil => exact ⟨rfl, fun _ _ => rfl⟩
  | cons file rest ih =>
    obtain ⟨path, text⟩ := file
    cases h : fs.target? path with
    | none =>
      have hskip : fs.overlay ((path, text) :: rest) = fs.overlay rest := by
        simp only [overlay, List.filterMap_cons, h, Option.map_none]
      exact hskip ▸ ih
    | some route =>
      rw [overlay_cons h]
      exact (sameDirectories_insert (followed_of_target? h) text).trans ih

/-- An overlay leads every path to where it led before. -/
theorem target?_overlay (files : List (String × String)) (path : String) :
    (fs.overlay files).target? path = fs.target? path :=
  (sameDirectories_overlay files).target? path

/-- What an overlay holds at a place: the last file that was put there, else what was there. -/
theorem find?_overlay (files : List (String × String)) (key : String) :
    (fs.overlay files).files.find? key =
      ((files.filterMap fun (path, text) =>
        (fs.target? path).map fun route => (route.text, text)).reverse.lookup key).or
        (fs.files.find? key) :=
  Dict.find?_insertAll _ _ key

/-- Files are found by their places as by their paths, if no other path leads to the same place. -/
theorem lookup_places {path : String} {route : Route} (hroute : fs.target? path = some route) :
    ∀ {files : List (String × String)},
      (∀ file ∈ files, ∀ r, fs.target? file.1 = some r → r.text = route.text → file.1 = path) →
        (files.filterMap fun (path, text) =>
          (fs.target? path).map fun route => (route.text, text)).lookup route.text =
            files.lookup path
  | [], _ => rfl
  | (other, text) :: rest, h => by
    obtain ⟨hother, hrest⟩ := List.forall_mem_cons.mp h
    have ih := lookup_places hroute hrest
    by_cases heq : other = path
    · subst heq
      simp only [List.filterMap_cons, hroute, Option.map_some]
      rw [Dict.lookup_cons_self (route.text, text), Dict.lookup_cons_self (other, text)]
    · rw [Dict.lookup_cons_of_ne (Ne.symm heq), ← ih]
      cases hplace : fs.target? other with
      | none => simp only [List.filterMap_cons, hplace, Option.map_none]
      | some r =>
        have hne : route.text ≠ (r.text, text).1 := fun htext => heq (hother r hplace htext.symm)
        simp only [List.filterMap_cons, hplace, Option.map_some]
        exact Dict.lookup_cons_of_ne hne _

/-- At a path the last file that was put there is read, if no other path leads to the same place. -/
theorem read?_overlay {files : List (String × String)} {path text : String}
    (hlast : files.reverse.lookup path = some text) (hwritable : (fs.target? path).isSome)
    (hown : ∀ file ∈ files, ∀ r r', fs.target? file.1 = some r → fs.target? path = some r' →
      r.text = r'.text → file.1 = path) :
    (fs.overlay files).read? path = some text := by
  obtain ⟨route, hroute⟩ := Option.isSome_iff_exists.mp hwritable
  have hread : (fs.overlay files).route? path = some route :=
    (Option.filter_eq_some_iff.mp ((target?_overlay files path).trans hroute)).1
  have hown : ∀ file ∈ files.reverse, ∀ r, fs.target? file.1 = some r → r.text = route.text →
      file.1 = path := fun file hfile r hr htext =>
    hown file (List.mem_reverse.mp hfile) r route hr hroute htext
  rw [read?, hread, Option.bind_some, find?_overlay, ← List.filterMap_reverse,
    lookup_places hroute hown, hlast, Option.some_or]

/-- Files that can be written one after the other all have places from the start. -/
theorem isSome_target?_of_foldlM_write? {files : List (String × String)} {after : FileSystem}
    (h : files.foldlM (fun fs (path, text) => fs.write? path text) fs = some after) :
    ∀ file ∈ files, (fs.target? file.1).isSome := by
  induction files generalizing fs with
  | nil => simp
  | cons file rest ih =>
    obtain ⟨written, hwritten, hrest⟩ := Option.bind_eq_some_iff.mp h
    obtain ⟨route, hroute, rfl⟩ := Option.map_eq_some_iff.mp hwritten
    -- what can be written after the first file could be written before it
    have hsame := (sameDirectories_insert (followed_of_target? hroute) file.2).target?
    exact List.forall_mem_cons.mpr ⟨by rw [hroute]; rfl, fun other hother => by
      rw [← hsame]; exact ih hrest other hother⟩

end FileSystem

end AbapLowering
