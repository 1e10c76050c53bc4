import Kyber.Launcher.ArchiveExtractor

/-!
# What becomes of the files of an archive

No file of an archive should be lost: it is in one of the directories if the extraction has
succeeded, and the archive is still there if it has not. Since the archive is deleted as
soon as it is unpacked, the second is so only if nothing that comes after this fails. And a
file may be lost on the way to its place: by an unpacker that leaves out directories, by
the loop over the mods, which looks only at some of the files and passes over names that are
taken, and by plugins of the same name.
-/

namespace Kyber.Archives

open Kyber.Collection Kyber.Collection.Frosty Kyber.Lib

/-- A file of this name, with this in it, is in one of the directories. -/
def Holds (disk : Disk) (name : DartString) (content : List UInt8) : Prop :=
  (∃ f ∈ disk.files, f.name = name ∧ f.content = content) ∨
    endsWith dotDll name = true ∧ (name, content) ∈ disk.plugins.getD []

instance (disk : Disk) (name : DartString) (content : List UInt8) :
    Decidable (Holds disk name content) :=
  inferInstanceAs (Decidable (_ ∨ _))

/-- A plugin is not overwritten by another one that is found after it. -/
def Remains (plugins : List File) (f : File) : Prop :=
  f ∈ plugins → (lastOf File.name plugins f.name).map File.content = some f.content

/-! ## Plugins -/

section

variable {α β : Type} {m : DiskM α} {k : α → DiskM β} {disk disk' : Disk}

theorem disk_bind_ok {a : α} (h : m disk = (.ok a, disk')) : (m >>= k) disk = k a disk' := by
  change (ExceptT.bind m k) disk = _
  simp only [ExceptT.bind, ExceptT.mk, bind, StateT.bind]
  change ExceptT.bindCont k (m disk).1 (m disk).2 = _
  rw [h]
  rfl

theorem disk_bind_error {e : DartError} (h : m disk = (.error e, disk')) :
    (m >>= k) disk = (.error e, disk') := by
  change (ExceptT.bind m k) disk = _
  simp only [ExceptT.bind, ExceptT.mk, bind, StateT.bind]
  change ExceptT.bindCont k (m disk).1 (m disk).2 = _
  rw [h]
  rfl

theorem disk_get (k : Disk → DiskM β) : ((get : DiskM Disk) >>= k) disk = k disk disk := rfl

theorem disk_modify (f : Disk → Disk) (k : Unit → DiskM β) :
    ((modify f : DiskM Unit) >>= k) disk = k () (f disk) := rfl

theorem disk_lift (m : StateM Disk α) (k : α → DiskM β) :
    ((liftM m : DiskM α) >>= k) disk = k (m disk).1 (m disk).2 := rfl

end

section

variable {env : Environment} {disk : Disk}

theorem installPlugins_of_some {plugins : List (DartString × List UInt8)}
    (h : disk.plugins = some plugins) (files : List File) :
    installPlugins files disk = (.ok files.length, { disk with
      files := disk.files.filter (· ∉ files)
      plugins := some (files.foldl installed plugins) }) := by
  induction files generalizing disk plugins with
  | nil =>
      have hself : disk.files.filter (· ∉ ([] : List File)) = disk.files :=
        List.filter_eq_self.mpr fun f _ => by simp
      rw [hself, List.foldl_nil, ← h]
      rfl
  | cons f files ih =>
      have hfilter : (disk.files.filter (· ≠ f)).filter (· ∉ files) =
          disk.files.filter (· ∉ f :: files) := by
        rw [List.filter_filter]
        refine List.filter_congr fun g _ => ?_
        rw [Bool.eq_iff_iff]
        simp [and_comm]
      let next : Disk := { disk with
        files := disk.files.filter (· ≠ f)
        plugins := some (installed plugins f) }
      have hrest : installPlugins files next = _ := ih rfl
      rw [installPlugins, disk_get]
      simp only [h]
      rw [disk_modify, disk_bind_ok hrest]
      simp only [next, hfilter]
      rfl

theorem extractPlugins_of_some {plugins : List (DartString × List UInt8)}
    (h : disk.plugins = some plugins) (dir : List DartString) :
    (extractPlugins env dir disk).2 = { disk with
      files := disk.files.filter (· ∉ pluginFiles env dir disk.files)
      plugins := some ((pluginFiles env dir disk.files).foldl installed plugins) } := by
  rw [extractPlugins, installPlugins_of_some h]

theorem extractPlugins_of_none (h : disk.plugins = none) (dir : List DartString) :
    extractPlugins env dir disk = (0, disk) := by
  rw [extractPlugins]
  cases pluginFiles env dir disk.files with
  | nil => rfl
  | cons f files =>
      have hrun : installPlugins (f :: files) disk =
          (.error (.exception "PathNotFoundException"), disk) := by
        rw [installPlugins, disk_get]
        simp only [h]
        rfl
      rw [hrun]

theorem pluginFiles_sublist {dir : List DartString} {files : List File} {f : File}
    (h : f ∈ pluginFiles env dir files) : f ∈ files ∧ f.isPlugin = true := by
  obtain ⟨hmem, hplugin⟩ := List.mem_filter.mp h
  exact ⟨List.mem_of_mem_filter ((env.listSync_perm _).mem_iff.mp hmem), hplugin⟩

theorem mem_foldl_installed_iff {plugins : List (DartString × List UInt8)} {files : List File}
    {name : DartString} {content : List UInt8} :
    (name, content) ∈ files.foldl installed plugins ↔
      (lastOf File.name files name).map File.content = some content ∨
        lastOf File.name files name = none ∧ (name, content) ∈ plugins := by
  have hmap : files.foldl installed plugins =
      (files.map fun f => (f.name, f.content)).foldl (supersede Prod.fst) plugins := by
    rw [List.foldl_map]
    rfl
  rw [hmap, mem_foldl_supersede, lastOf_map]
  change (lastOf File.name files name).map _ = _ ∨ (lastOf File.name files name).map _ = _ ∧ _ ↔ _
  cases hlast : lastOf File.name files name with
  | none => simp
  | some f =>
      have hname := (mem_of_lastOf hlast).2
      simp [hname]

/-- After the plugins have been moved a file is where it should be unless it is a plugin that
is overwritten. -/
theorem holds_extractPlugins_iff {old : Prop} {name : DartString} {content : List UInt8}
    (hold : endsWith dotDll name = true → (name, content) ∈ disk.plugins.getD [] → old)
    (dir : List DartString) :
    (old ∨ Holds (extractPlugins env dir disk).2 name content) ↔
      old ∨ ∃ f ∈ disk.files, (f.name = name ∧ f.content = content) ∧
        (disk.plugins.isSome = true → Remains (pluginFiles env dir disk.files) f) := by
  cases h : disk.plugins with
  | none =>
      rw [extractPlugins_of_none h]
      simp [Holds, h]
  | some plugins =>
      rw [extractPlugins_of_some h]
      constructor
      · intro hholds
        obtain hold' | ⟨f, hf, hname⟩ | ⟨hdll, hmem⟩ := hholds
        · exact .inl hold'
        · obtain ⟨hf, hnot⟩ := List.mem_filter.mp hf
          refine .inr ⟨f, hf, hname, fun _ hplugin => ?_⟩
          exact absurd hplugin (of_decide_eq_true hnot)
        · obtain hlast | ⟨-, hmem⟩ := mem_foldl_installed_iff.mp hmem
          · obtain ⟨f, hf, hcontent⟩ := Option.map_eq_some_iff.mp hlast
            obtain ⟨hplugin, hname⟩ := mem_of_lastOf hf
            refine .inr ⟨f, (pluginFiles_sublist hplugin).1, ⟨hname, hcontent⟩, fun _ _ => ?_⟩
            rw [hname, hcontent]
            exact hlast
          · exact .inl (hold hdll (by rw [h]; exact hmem))
      · intro hkept
        obtain hold' | ⟨f, hf, ⟨rfl, rfl⟩, hremains⟩ := hkept
        · exact .inl hold'
        · by_cases hplugin : f ∈ pluginFiles env dir disk.files
          · have hdll : endsWith dotDll f.name = true := by
              have := (pluginFiles_sublist hplugin).2
              simp only [File.isPlugin, Bool.and_eq_true] at this
              exact this.1
            refine .inr (.inr ⟨hdll, mem_foldl_installed_iff.mpr (.inl ?_)⟩)
            exact hremains rfl hplugin
          · exact .inr (.inl ⟨f, List.mem_filter.mpr ⟨hf, decide_eq_true hplugin⟩, rfl, rfl⟩)

/-! ## Unpacking -/

/-- The last file made of each name. -/
def leftFlat (entries : List ArchiveEntry) : List File :=
  keepLast File.path ((entries.filterMap ArchiveEntry.written).map File.flat)

/-- The file of the entry at which `extractRar` ends. -/
def brokenOff (entries : List ArchiveEntry) : Option File :=
  (entries.find? fun e => e.reading ≠ .whole).bind ArchiveEntry.written

/-- The last file made of each path, where a broken one may be deleted again. -/
def leftByRar (env : Environment) (entries : List ArchiveEntry) : List File :=
  let made := (entries.takeWhile fun e => e.reading = .whole).filterMap ArchiveEntry.written
  let files := keepLast File.path (made ++ (brokenOff entries).toList)
  if env.keepBroken then files
  else files.filter fun f => (brokenOff entries).all fun b => f.path ≠ b.path

/-- The unpacker ends without an error. -/
def Unpacks (filename : DartString) (archive : Archive) : Prop :=
  archive.opens = true ∧
    if endsWith dotZip filename then ∃ e ∈ archive.entries, e.progresses = true
    else endsWith dotRar filename = true ∨ ∀ e ∈ archive.entries, e.reading = .whole

/-- The files that are in the temporary directory then. -/
def left (env : Environment) (filename : DartString) (archive : Archive) : List File :=
  if endsWith dotZip filename then leftFlat (env.threads archive.entries)
  else if endsWith dotRar filename then leftByRar env archive.entries
  else leftFlat archive.entries

section

variable {env : Environment} {filename : DartString} {archive : Archive}

theorem foldl_supersede_nil (files : List File) :
    files.foldl (supersede File.path) [] = keepLast File.path files := by
  rw [foldl_supersede, List.filter_nil, List.nil_append]

variable (env) in
theorem processFiles_eq (files : List File) (entries : List ArchiveEntry) :
    processFiles env files entries =
      let made := (entries.takeWhile fun e => e.reading = .whole).filterMap ArchiveEntry.written
      let files := (made ++ (brokenOff entries).toList).foldl (supersede File.path) files
      if env.keepBroken then files
      else files.filter fun f => (brokenOff entries).all fun b => f.path ≠ b.path := by
  induction entries generalizing files with
  | nil => cases h : env.keepBroken <;> simp [processFiles, brokenOff]
  | cons e entries ih =>
      rw [processFiles]
      by_cases hwhole : e.reading = .whole
      · have hoff : brokenOff (e :: entries) = brokenOff entries := by
          rw [brokenOff, List.find?_cons_of_neg (by simp [hwhole])]
          rfl
        rw [hoff, List.takeWhile_cons_of_pos (by simp [hwhole])]
        cases hwritten : e.written with
        | none => simp only [if_pos hwhole, ih, List.filterMap_cons_none hwritten]
        | some f =>
            simp only [if_pos hwhole, ih, List.filterMap_cons_some hwritten, List.cons_append,
              List.foldl_cons]
      · have hoff : brokenOff (e :: entries) = e.written := by
          rw [brokenOff, List.find?_cons_of_pos (by simp [hwhole])]
          rfl
        rw [hoff, List.takeWhile_cons_of_neg (by simp [hwhole])]
        cases e.written with
        | none => cases h : env.keepBroken <;> simp [hwhole]
        | some f => cases h : env.keepBroken <;> simp [hwhole, supersede, List.filter_filter]

variable (env) in
theorem processFiles_nil (entries : List ArchiveEntry) :
    processFiles env [] entries = leftByRar env entries := by
  rw [processFiles_eq, leftByRar, ← foldl_supersede_nil]

theorem foldl_flat (entries : List ArchiveEntry) :
    ((entries.filterMap ArchiveEntry.written).map File.flat).foldl (supersede File.path) [] =
      leftFlat entries :=
  foldl_supersede_nil _

theorem unpack_of_unpacks (h : Unpacks filename archive) :
    unpack env filename archive = .ok (left env filename archive) := by
  obtain ⟨hopens, h⟩ := h
  rw [unpack, left]
  cases hzip : endsWith dotZip filename with
  | true =>
      rw [if_pos hzip, ← List.any_eq_true] at h
      simp only [if_true, extractStream, hopens, h, Bool.and_true, foldl_flat]
  | false =>
      rw [hzip, if_neg Bool.false_ne_true] at h
      rw [if_neg Bool.false_ne_true, if_neg Bool.false_ne_true, unrar]
      cases hrar : endsWith dotRar filename with
      | true => rw [if_pos rfl, if_pos rfl, extractRar, if_pos hopens, processFiles_nil]
      | false =>
          have hall : archive.entries.all (fun e => e.reading = .whole) = true :=
            List.all_eq_true.mpr fun e he =>
              decide_eq_true (h.resolve_left (by simp [hrar]) e he)
          rw [if_neg Bool.false_ne_true, if_neg Bool.false_ne_true]
          simp only [extract7z, hopens, hall, Bool.and_true, if_true, foldl_flat]

variable (env) in
theorem unpack_of_not_unpacks (h : ¬ Unpacks filename archive) :
    ∃ e, unpack env filename archive = .error e := by
  rw [Unpacks, not_and] at h
  rw [unpack]
  cases hopens : archive.opens with
  | false =>
      cases endsWith dotZip filename with
      | true => exact ⟨_, by rw [if_pos rfl, extractStream, hopens]; rfl⟩
      | false =>
          rw [if_neg Bool.false_ne_true, unrar]
          cases endsWith dotRar filename with
          | true => exact ⟨_, by rw [if_pos rfl, extractRar, hopens]; rfl⟩
          | false => exact ⟨_, by rw [if_neg Bool.false_ne_true, extract7z, hopens]; rfl⟩
  | true =>
      have h := h hopens
      cases hzip : endsWith dotZip filename with
      | true =>
          rw [if_pos hzip, ← List.any_eq_true, Bool.not_eq_true] at h
          exact ⟨_, by rw [if_pos rfl, extractStream, hopens, h]; rfl⟩
      | false =>
          rw [hzip, if_neg Bool.false_ne_true, not_or] at h
          have hall : archive.entries.all (fun e => e.reading = .whole) = false := by
            rw [← Bool.not_eq_true, List.all_eq_true]
            exact fun hall => h.2 fun e he => of_decide_eq_true (hall e he)
          refine ⟨.exception "Failed to extract file", ?_⟩
          rw [if_neg Bool.false_ne_true, unrar, if_neg h.1, extract7z, hopens, hall]
          rfl

theorem nodup_keepLast (files : List File) :
    ((keepLast File.path files).map File.path).Nodup := by
  have hnil : (([] : List File).map File.path).Nodup := List.nodup_nil
  rw [← foldl_supersede_nil]
  exact nodup_foldl_supersede hnil files

theorem nodup_left : ((left env filename archive).map File.path).Nodup := by
  unfold left leftFlat leftByRar
  split
  · exact nodup_keepLast _
  · split
    · dsimp only
      split
      · exact nodup_keepLast _
      · exact (nodup_keepLast _).sublist (List.filter_sublist.map File.path)
    · exact nodup_keepLast _

end

/-! ## Mods -/

/-- The name is taken, and the file is not a plugin that takes its place. -/
def isSkipped (env : Environment) (mainDirFiles : List DartString) (f : File) : Bool :=
  mainDirFiles.contains f.name && env.extension f.name ≠ dotDll

/-- The mod can be read, and no directory is in its place. -/
structure Movable (env : Environment) (mainDirFiles : List DartString) (disk : Disk) (f : File) :
    Prop where
  readable : ∃ mod, env.readMod f.name f.content = .ok mod
  place : mainDirFiles.contains f.name = true → env.extension f.name = dotDll →
    isNonEmptyDir env f.name disk = false

theorem path_eq_of_isTopLevel {f : File} (h : f.isTopLevel = true) : f.path = ([], f.name) := by
  rw [File.path, List.isEmpty_iff.mp h]

/-- What moving files does not change. -/
structure Kept (env : Environment) (disk disk' : Disk) : Prop where
  source : disk'.source = disk.source
  plugins : disk'.plugins = disk.plugins
  dirs : ∀ name, isNonEmptyDir env name disk' = isNonEmptyDir env name disk

theorem Kept.trans {disk' disk'' : Disk} (h : Kept env disk disk') (h' : Kept env disk' disk'') :
    Kept env disk disk'' where
  source := h'.source.trans h.source
  plugins := h'.plugins.trans h.plugins
  dirs name := (h'.dirs name).trans (h.dirs name)

theorem any_dirs_filter {files : List File} {p : File → Bool} (name : DartString)
    (h : ∀ f ∈ files, p f = false → f.dirs = []) :
    (files.filter p).any (fun f => decide (f.dirs.head? = some name)) =
      files.any fun f => decide (f.dirs.head? = some name) := by
  rw [Bool.eq_iff_iff, List.any_eq_true, List.any_eq_true]
  constructor
  · intro hex
    obtain ⟨f, hf, hname⟩ := hex
    exact ⟨f, List.mem_of_mem_filter hf, hname⟩
  · intro hex
    obtain ⟨f, hf, hname⟩ := hex
    refine ⟨f, List.mem_filter.mpr ⟨hf, ?_⟩, hname⟩
    by_contra hp
    rw [h f hf (by simpa using hp)] at hname
    simp at hname

variable (env) in
theorem kept_moveFile {f : File} (h : f.isTopLevel = true) (disk : Disk) :
    ∃ disk', moveFile f disk = (.ok (), disk') ∧ Kept env disk disk' ∧
      disk'.files = supersede File.path disk.files f := by
  refine ⟨_, rfl, ⟨rfl, rfl, fun name => ?_⟩, rfl⟩
  have hdirs : f.dirs = [] := List.isEmpty_iff.mp h
  have hother : ∀ g ∈ disk.files, decide (g.path ≠ f.path) = false → g.dirs = [] := by
    intro g _ hg
    have hpath : g.path = f.path := by simpa using hg
    exact (congrArg Prod.fst hpath).trans hdirs
  have hany := any_dirs_filter name hother
  simp only [isNonEmptyDir, supersede, List.any_append, List.any_cons, List.any_nil, hany, hdirs]
  simp

theorem kept_deleteExisting {name : DartString} (h : isNonEmptyDir env name disk = false) :
    ∃ disk', deleteExisting env name disk = (.ok (), disk') ∧ Kept env disk disk' ∧
      disk'.files = disk.files.filter fun f => f.path ≠ ([], name) := by
  refine ⟨{ disk with
    files := disk.files.filter fun f => f.path ≠ ([], name)
    directories := disk.directories.filter (· ≠ [name]) }, ?_, ⟨rfl, rfl, fun name' => ?_⟩, rfl⟩
  · rw [deleteExisting, disk_get, if_neg (by simp [h])]
    rfl
  · have hother : ∀ g ∈ disk.files, decide (g.path ≠ ([], name)) = false → g.dirs = [] := by
      intro g _ hg
      have hpath : g.path = ([], name) := by simpa using hg
      exact congrArg Prod.fst hpath
    have hfiles := any_dirs_filter name' hother
    have hdirectories : (disk.directories.filter (· ≠ [name])).any
        (fun d => decide (d.head? = some name') && decide (1 < d.length)) =
          disk.directories.any fun d => decide (d.head? = some name') && decide (1 < d.length) := by
      rw [List.any_filter, Bool.eq_iff_iff, List.any_eq_true, List.any_eq_true]
      refine exists_congr fun d => and_congr_right fun _ => ?_
      have hlength : 1 < d.length → d ≠ [name] := fun hlt hd => by simp [hd] at hlt
      simp only [Bool.and_eq_true, decide_eq_true_eq]
      tauto
    simp only [isNonEmptyDir, hfiles, hdirectories]

theorem orThrow_ok {α β : Type} {r : Except DartError α} {a : α} (h : r = .ok a)
    (k : α → DiskM β) : (orThrow r >>= k) disk = k a disk := by
  rw [h]
  exact disk_bind_ok rfl

theorem moveMod_of_movable {mainDirFiles : List DartString} {f : File}
    (h : Movable env mainDirFiles disk f) (htop : f.isTopLevel = true) :
    ∃ moved disk', moveMod env mainDirFiles f disk = (.ok moved, disk') ∧ Kept env disk disk' ∧
      disk'.files =
        if isSkipped env mainDirFiles f then disk.files else supersede File.path disk.files f := by
  obtain ⟨mod, hmod⟩ := h.readable
  rw [moveMod, orThrow_ok hmod]
  change ∃ moved disk', (if isSkipped env mainDirFiles f = true then _ else _ : DiskM _) disk = _ ∧ _
  by_cases hskipped : isSkipped env mainDirFiles f = true
  · rw [if_pos hskipped, if_pos hskipped]
    exact ⟨[], disk, rfl, ⟨rfl, rfl, fun _ => rfl⟩, rfl⟩
  rw [if_neg hskipped, if_neg hskipped]
  by_cases htaken : mainDirFiles.contains f.name = true
  · have hdll : env.extension f.name = dotDll := by
      by_contra hne
      exact hskipped (by rw [isSkipped, htaken]; simpa using hne)
    obtain ⟨deleted, hdelete, hkept, hfiles⟩ := kept_deleteExisting (h.place htaken hdll)
    obtain ⟨disk', hmove, hkept', hfiles'⟩ := kept_moveFile env htop deleted
    refine ⟨[[f.name]], disk', ?_, hkept.trans hkept', ?_⟩
    · rw [if_pos htaken, disk_bind_ok hdelete, disk_bind_ok hmove]
      rfl
    · rw [hfiles', hfiles, supersede, List.filter_filter, supersede, path_eq_of_isTopLevel htop]
      simp
  · obtain ⟨disk', hmove, hkept, hfiles⟩ := kept_moveFile env htop disk
    refine ⟨[[f.name]], disk', ?_, hkept, hfiles⟩
    rw [if_neg htaken, disk_bind_ok hmove]
    rfl

theorem moveMod_of_not_movable {mainDirFiles : List DartString} {f : File}
    (h : ¬ Movable env mainDirFiles disk f) :
    ∃ e, moveMod env mainDirFiles f disk = (.error e, disk) := by
  cases hread : env.readMod f.name f.content with
  | error e =>
      refine ⟨e, ?_⟩
      rw [moveMod, hread]
      exact disk_bind_error rfl
  | ok mod =>
      have hplace : mainDirFiles.contains f.name = true ∧ env.extension f.name = dotDll ∧
          isNonEmptyDir env f.name disk = true := by
        by_contra hnot
        refine h ⟨⟨mod, hread⟩, fun htaken hdll => ?_⟩
        by_contra hdir
        exact hnot ⟨htaken, hdll, by simpa using hdir⟩
      obtain ⟨htaken, hdll, hdir⟩ := hplace
      refine ⟨.exception "FileSystemException", ?_⟩
      rw [moveMod, orThrow_ok hread, if_neg (by simp [hdll]), if_pos htaken]
      refine disk_bind_error ?_
      rw [deleteExisting, disk_get, if_pos hdir]
      rfl

theorem Kept.movable_iff {disk' : Disk} (h : Kept env disk disk') {mainDirFiles : List DartString}
    {f : File} : Movable env mainDirFiles disk' f ↔ Movable env mainDirFiles disk f := by
  constructor
  · intro hf
    exact ⟨hf.readable, fun ht he => (h.dirs f.name).symm.trans (hf.place ht he)⟩
  · intro hf
    exact ⟨hf.readable, fun ht he => (h.dirs f.name).trans (hf.place ht he)⟩

variable (disk) in
theorem moveMods_of_movable {mainDirFiles : List DartString} {files : List File}
    (h : ∀ f ∈ files, Movable env mainDirFiles disk f)
    (htop : ∀ f ∈ files, f.isTopLevel = true) :
    ∃ moved disk', moveMods env mainDirFiles files disk = (.ok moved, disk') ∧
      Kept env disk disk' ∧
      disk'.files = (files.filter fun f => !isSkipped env mainDirFiles f).foldl
        (supersede File.path) disk.files := by
  induction files generalizing disk with
  | nil => exact ⟨[], disk, rfl, ⟨rfl, rfl, fun _ => rfl⟩, rfl⟩
  | cons f files ih =>
      obtain ⟨hf, hfiles⟩ := List.forall_mem_cons.mp h
      obtain ⟨htopf, htopfiles⟩ := List.forall_mem_cons.mp htop
      obtain ⟨moved, next, hmove, hkept, hnext⟩ := moveMod_of_movable hf htopf
      obtain ⟨moved', disk', hmoves, hkept', hdisk'⟩ :=
        ih next (fun g hg => hkept.movable_iff.mpr (hfiles g hg)) htopfiles
      refine ⟨moved ++ moved', disk', ?_, hkept.trans hkept', ?_⟩
      · rw [moveMods, disk_bind_ok hmove, disk_bind_ok hmoves]
        rfl
      · rw [hdisk', hnext, List.filter_cons]
        cases isSkipped env mainDirFiles f <;> rfl

variable (disk) in
theorem moveMods_of_not_movable {mainDirFiles : List DartString} {files : List File}
    (h : ¬ ∀ f ∈ files, Movable env mainDirFiles disk f)
    (htop : ∀ f ∈ files, f.isTopLevel = true) :
    ∃ e disk', moveMods env mainDirFiles files disk = (.error e, disk') ∧
      disk'.source = disk.source := by
  induction files generalizing disk with
  | nil => exact absurd (fun f hf => by cases hf) h
  | cons f files ih =>
      obtain ⟨htopf, htopfiles⟩ := List.forall_mem_cons.mp htop
      by_cases hf : Movable env mainDirFiles disk f
      · obtain ⟨moved, next, hmove, hkept, -⟩ := moveMod_of_movable hf htopf
        have hrest : ¬ ∀ g ∈ files, Movable env mainDirFiles next g := fun hall =>
          h (List.forall_mem_cons.mpr ⟨hf, fun g hg => hkept.movable_iff.mp (hall g hg)⟩)
        obtain ⟨e, disk', hmoves, hsource⟩ := ih next hrest htopfiles
        refine ⟨e, disk', ?_, hsource.trans hkept.source⟩
        rw [moveMods, disk_bind_ok hmove]
        exact disk_bind_error hmoves
      · obtain ⟨e, hmove⟩ := moveMod_of_not_movable hf
        refine ⟨e, disk, ?_, rfl⟩
        rw [moveMods]
        exact disk_bind_error hmove

end

/-! ## The whole extraction -/

variable (env : Environment) (filename : DartString) (archive : Archive) (disk : Disk)

/-- No file of the archive is lost, nor the archive if there was an error. -/
structure NothingLost (outcome : ExtractionResult × Disk) : Prop where
  files : outcome.1.success = true → ∀ e ∈ archive.entries, e.isDir = false →
    Holds disk e.file.name e.file.content ∨ Holds outcome.2 e.file.name e.file.content
  source : outcome.1.success = false → outcome.2.source = true

/-- The archive has been unpacked and deleted. -/
def unpacked (files : List File) : Disk := { disk with source := false, temp := some files }

/-- The names in the mods directory once the archive is unpacked and deleted. -/
def mainDirNames : List DartString :=
  disk.files.filterMap (fun f => (f.dirs ++ [f.name]).head?) ++
    disk.directories.filterMap List.head? ++ [env.tmpDir]

/-- The files that are moved to the mods directory. -/
def movedMods (files : List File) : List File :=
  (topLevel env files).filter fun f => !isSkipped env (mainDirNames env disk) f

/-- The mods directory with them. -/
def withMods (files : List File) : List File :=
  disk.files.filter (fun f => (movedMods env disk files).all fun g => g.path ≠ f.path) ++
    movedMods env disk files

/-- Every mod can be moved, and every file is there already or is one that is moved. -/
structure KeepsMods (files : List File) : Prop where
  movable : ∀ f ∈ topLevel env files, Movable env (mainDirNames env disk) disk f
  placed : ∀ e ∈ archive.entries, e.isDir = false →
    Holds disk e.file.name e.file.content ∨
      ∃ f ∈ topLevel env files, isSkipped env (mainDirNames env disk) f = false ∧
        (f.name = e.file.name ∧ f.content = e.file.content) ∧
          (disk.plugins.isSome = true →
            Remains (pluginFiles env [] (withMods env disk files)) f)

/-- The collection can be read, its directory is a new one, and every file is there already or
has been unpacked. -/
structure KeepsCollection (files : List File) (dir : DartString) : Prop where
  readable : ∃ f collection,
    (topLevel env files).find? (fun f => endsWith dotFbcollection f.name) = some f ∧
      env.readCollection files f = .ok collection ∧ env.newDir collection = dir
  fresh : dir ∉ mainDirNames env disk
  placed : ∀ e ∈ archive.entries, e.isDir = false →
    Holds disk e.file.name e.file.content ∨
      ∃ f ∈ files, (f.name = e.file.name ∧ f.content = e.file.content) ∧
        (disk.plugins.isSome = true →
          Remains (pluginFiles env [dir] (files.map (File.inDir dir))) (f.inDir dir))

/-- A collection in the directory itself decides. -/
def Keeps (files : List File) : Prop :=
  if (topLevel env files).any fun f => endsWith dotFbcollection f.name then
    ∃ dir, KeepsCollection env archive disk files dir
  else KeepsMods env archive disk files

/-- What is unpacked is kept. -/
def Lossless : Prop :=
  isArchive env filename = true → Unpacks filename archive →
    Keeps env archive disk (left env filename archive)

section

variable {env filename archive disk} {files : List File}

theorem mem_topLevel {f : File} :
    f ∈ topLevel env files ↔ f ∈ files ∧ f.isTopLevel = true := by
  rw [topLevel, List.mem_filter, (env.listSync_perm files).mem_iff]

variable (env) in
theorem nodup_topLevel (h : (files.map File.path).Nodup) :
    ((topLevel env files).map File.path).Nodup :=
  (((env.listSync_perm files).map File.path).nodup_iff.mpr h).sublist
    (List.filter_sublist.map File.path)

theorem names_unpacked : names env filename (unpacked disk files) = mainDirNames env disk := by
  rw [names, mainDirNames]
  exact congrArg (· ++ [env.tmpDir]) (List.append_nil _)

theorem not_nothingLost_of_failure {outcome : ExtractionResult × Disk}
    (hfailure : outcome.1.success = false) (hsource : outcome.2.source = false) :
    ¬ NothingLost archive disk outcome := by
  intro h
  rw [h.source hfailure] at hsource
  cases hsource

theorem nothingLost_iff_of_success {outcome : ExtractionResult × Disk}
    (hsuccess : outcome.1.success = true) :
    NothingLost archive disk outcome ↔ ∀ e ∈ archive.entries, e.isDir = false →
      Holds disk e.file.name e.file.content ∨ Holds outcome.2 e.file.name e.file.content := by
  constructor
  · intro h
    exact h.files hsuccess
  · intro h
    exact ⟨fun _ => h, fun hfailure => absurd (hsuccess.symm.trans hfailure) (by decide)⟩

theorem mem_movedMods {f : File} : f ∈ movedMods env disk files ↔
    f ∈ topLevel env files ∧ isSkipped env (mainDirNames env disk) f = false := by
  rw [movedMods, List.mem_filter]
  simp

theorem foldl_movedMods (h : (files.map File.path).Nodup) :
    (movedMods env disk files).foldl (supersede File.path) disk.files = withMods env disk files := by
  have hmoved := (nodup_topLevel env h).sublist (List.Sublist.map File.path
    (List.filter_sublist (p := fun f => !isSkipped env (mainDirNames env disk) f)))
  rw [foldl_supersede, withMods, movedMods, keepLast_of_nodup hmoved]

theorem mem_withMods {f : File} (htop : f ∈ topLevel env files)
    (hskip : isSkipped env (mainDirNames env disk) f = false) : f ∈ withMods env disk files :=
  List.mem_append_right _ (mem_movedMods.mpr ⟨htop, hskip⟩)

theorem of_mem_withMods {f : File} (h : f ∈ withMods env disk files) :
    f ∈ topLevel env files ∧ isSkipped env (mainDirNames env disk) f = false ∨
      f ∈ disk.files := by
  obtain hold | hmoved := List.mem_append.mp h
  · exact .inr (List.mem_of_mem_filter hold)
  · exact .inl (mem_movedMods.mp hmoved)

theorem handleRegularMods_of_movable (hnodup : (files.map File.path).Nodup)
    (h : ∀ f ∈ topLevel env files, Movable env (mainDirNames env disk) disk f) :
    ∃ moved next, next.files = withMods env disk files ∧ next.plugins = disk.plugins ∧
      handleRegularMods env filename (topLevel env files) (unpacked disk files) =
        ({ success := true, extractedFiles := moved,
           pluginsInstalled := (extractPlugins env [] next).1 }, (extractPlugins env [] next).2) := by
  obtain ⟨moved, disk', hmoves, hkept, hfiles⟩ :=
    moveMods_of_movable (unpacked disk files)
      (fun f hf => ⟨(h f hf).readable, (h f hf).place⟩) fun f hf => (mem_topLevel.mp hf).2
  refine ⟨moved, { disk' with temp := none }, hfiles.trans (foldl_movedMods hnodup),
    hkept.plugins, ?_⟩
  have hrun : moveRegularMods env filename (topLevel env files) (unpacked disk files) =
      (.ok { success := true, extractedFiles := moved,
             pluginsInstalled := (extractPlugins env [] { disk' with temp := none }).1 },
        (extractPlugins env [] { disk' with temp := none }).2) := by
    rw [moveRegularMods, disk_get, names_unpacked]
    refine (disk_bind_ok hmoves).trans ?_
    rw [disk_modify, disk_lift]
    rfl
  rw [handleRegularMods, hrun]

theorem handleRegularMods_of_not_movable
    (h : ¬ ∀ f ∈ topLevel env files, Movable env (mainDirNames env disk) disk f) :
    ¬ NothingLost archive disk
      (handleRegularMods env filename (topLevel env files) (unpacked disk files)) := by
  obtain ⟨e, disk', hmoves, hsource⟩ := moveMods_of_not_movable (unpacked disk files)
    (fun hall => h fun f hf => ⟨(hall f hf).readable, (hall f hf).place⟩)
    fun f hf => (mem_topLevel.mp hf).2
  have hrun : moveRegularMods env filename (topLevel env files) (unpacked disk files) =
      (.error e, disk') := by
    rw [moveRegularMods, disk_get, names_unpacked]
    exact disk_bind_error hmoves
  rw [handleRegularMods, hrun]
  exact not_nothingLost_of_failure rfl hsource

/-- After the mods have been moved a file is where it should be if it is one of them. -/
theorem holds_withMods_iff {next : Disk}
    (hfiles : next.files = withMods env disk files) (hplugins : next.plugins = disk.plugins)
    (name : DartString) (content : List UInt8) :
    (Holds disk name content ∨ Holds (extractPlugins env [] next).2 name content) ↔
      Holds disk name content ∨
        ∃ f ∈ topLevel env files, isSkipped env (mainDirNames env disk) f = false ∧
          (f.name = name ∧ f.content = content) ∧
            (disk.plugins.isSome = true →
              Remains (pluginFiles env [] (withMods env disk files)) f) := by
  rw [holds_extractPlugins_iff fun hdll hmem => .inr ⟨hdll, by rwa [hplugins] at hmem⟩, hfiles,
    hplugins]
  constructor
  · intro hex
    obtain hold | ⟨f, hf, hsame, hremains⟩ := hex
    · exact .inl hold
    · obtain ⟨htop, hskip⟩ | hf := of_mem_withMods hf
      · exact .inr ⟨f, htop, hskip, hsame, hremains⟩
      · exact .inl (.inl ⟨f, hf, hsame⟩)
  · intro hex
    obtain hold | ⟨f, htop, hskip, hsame, hremains⟩ := hex
    · exact .inl hold
    · exact .inr ⟨f, mem_withMods htop hskip, hsame, hremains⟩

theorem handleRegularMods_iff (h : (files.map File.path).Nodup) :
    NothingLost archive disk
        (handleRegularMods env filename (topLevel env files) (unpacked disk files)) ↔
      KeepsMods env archive disk files := by
  by_cases hmovable : ∀ f ∈ topLevel env files,
      Movable env (mainDirNames env disk) disk f
  · obtain ⟨moved, next, hfiles, hplugins, hrun⟩ := handleRegularMods_of_movable h hmovable
    rw [hrun, nothingLost_iff_of_success rfl]
    constructor
    · intro hall
      refine ⟨hmovable, fun e he hdir => ?_⟩
      exact (holds_withMods_iff hfiles hplugins _ _).mp (hall e he hdir)
    · intro hkeeps e he hdir
      exact (holds_withMods_iff hfiles hplugins _ _).mpr (hkeeps.placed e he hdir)
  · exact iff_of_false (handleRegularMods_of_not_movable hmovable) fun hkeeps =>
      hmovable hkeeps.movable

/-! A collection. -/

theorem pluginFiles_dir {dir : DartString} (h : dir ∉ mainDirNames env disk) :
    pluginFiles env [dir] (disk.files ++ files.map (File.inDir dir)) =
      pluginFiles env [dir] (files.map (File.inDir dir)) := by
  have hold : below [dir] disk.files = [] := by
    refine List.filter_eq_nil_iff.mpr fun f hf hprefix => h ?_
    obtain ⟨rest, hdirs⟩ := List.isPrefixOf_iff_prefix.mp hprefix
    have hhead : (f.dirs ++ [f.name]).head? = some dir := by
      rw [← hdirs]
      rfl
    refine List.mem_append_left _ (List.mem_append_left _ ?_)
    exact List.mem_filterMap.mpr ⟨f, hf, hhead⟩
  rw [pluginFiles, pluginFiles, below, List.filter_append]
  change ((env.listSync (below [dir] disk.files ++ below [dir] (files.map _))).filter _) = _
  rw [hold, List.nil_append]

section

variable {f : File} {collection : Option FrostyMod}

theorem moveCollection_of_not_readable {e : DartError}
    (hf : (topLevel env files).find? (fun f => endsWith dotFbcollection f.name) = some f)
    (hread : env.readCollection files f = .error e) :
    moveCollection env filename (topLevel env files) (unpacked disk files) =
      (.error e, unpacked disk files) := by
  rw [moveCollection, hf]
  change (orThrow (env.readCollection files f) >>= _ : DiskM ExtractionResult) _ = _
  rw [hread]
  exact disk_bind_error rfl

theorem moveCollection_of_readable
    (hf : (topLevel env files).find? (fun f => endsWith dotFbcollection f.name) = some f)
    (hread : env.readCollection files f = .ok collection) :
    moveCollection env filename (topLevel env files) (unpacked disk files) =
      (renameTemp env filename (env.newDir collection) >>= fun _ => do
        let pluginsInstalled ← extractPlugins env [env.newDir collection]
        return {
          success := true
          extractedFiles := [[env.newDir collection]]
          isFrostyCollection := true
          pluginsInstalled }) (unpacked disk files) := by
  rw [moveCollection, hf]
  change (orThrow (env.readCollection files f) >>= _ : DiskM ExtractionResult) _ = _
  rw [orThrow_ok hread]

theorem renameTemp_of_taken {dir : DartString} (h : dir ∈ mainDirNames env disk) :
    renameTemp env filename dir (unpacked disk files) =
      (.error (.exception "FileSystemException"), unpacked disk files) := by
  have htaken : (names env filename (unpacked disk files)).contains dir = true := by
    rw [names_unpacked]
    exact List.contains_iff_mem.mpr h
  rw [renameTemp, disk_get, if_pos htaken]
  rfl

/-- The temporary directory has become that of a collection. -/
def renamed (disk : Disk) (files : List File) (dir : DartString) : Disk :=
  { disk with
    source := false
    temp := none
    files := disk.files ++ files.map (File.inDir dir)
    directories := disk.directories ++ [[dir]] }

theorem renameTemp_of_fresh {dir : DartString} (h : dir ∉ mainDirNames env disk) :
    renameTemp env filename dir (unpacked disk files) = (.ok (), renamed disk files dir) := by
  have hfresh : ¬ (names env filename (unpacked disk files)).contains dir = true := by
    rw [names_unpacked]
    exact fun htaken => h (List.contains_iff_mem.mp htaken)
  rw [renameTemp, disk_get, if_neg hfresh]
  rfl

/-- After the directory has been renamed a file is where it should be if it has been unpacked. -/
theorem holds_renamed_iff {dir : DartString} (h : dir ∉ mainDirNames env disk)
    (name : DartString) (content : List UInt8) :
    (Holds disk name content ∨
        Holds (extractPlugins env [dir] (renamed disk files dir)).2 name content) ↔
      Holds disk name content ∨
        ∃ f ∈ files, (f.name = name ∧ f.content = content) ∧
          (disk.plugins.isSome = true →
            Remains (pluginFiles env [dir] (files.map (File.inDir dir))) (f.inDir dir)) := by
  have hplugins : pluginFiles env [dir] (renamed disk files dir).files =
      pluginFiles env [dir] (files.map (File.inDir dir)) := pluginFiles_dir h
  rw [holds_extractPlugins_iff fun hdll hmem => .inr ⟨hdll, hmem⟩, hplugins]
  constructor
  · intro hex
    obtain hold | ⟨f, hf, hsame, hremains⟩ := hex
    · exact .inl hold
    · obtain hf | hf := List.mem_append.mp hf
      · exact .inl (.inl ⟨f, hf, hsame⟩)
      · obtain ⟨g, hg, rfl⟩ := List.mem_map.mp hf
        exact .inr ⟨g, hg, hsame, hremains⟩
  · intro hex
    obtain hold | ⟨f, hf, hsame, hremains⟩ := hex
    · exact .inl hold
    · exact .inr ⟨f.inDir dir, List.mem_append_right _ (List.mem_map_of_mem hf), hsame, hremains⟩

theorem handleFrostyCollection_of_fresh {f : File} {collection : Option FrostyMod}
    (hf : (topLevel env files).find? (fun f => endsWith dotFbcollection f.name) = some f)
    (hread : env.readCollection files f = .ok collection)
    (hfresh : env.newDir collection ∉ mainDirNames env disk) :
    handleFrostyCollection env filename (topLevel env files) (unpacked disk files) =
      ({ success := true, extractedFiles := [[env.newDir collection]], isFrostyCollection := true,
         pluginsInstalled := (extractPlugins env [env.newDir collection]
          (renamed disk files (env.newDir collection))).1 },
        (extractPlugins env [env.newDir collection]
          (renamed disk files (env.newDir collection))).2) := by
  rw [handleFrostyCollection, moveCollection_of_readable hf hread,
    disk_bind_ok (renameTemp_of_fresh hfresh), disk_lift]
  rfl

theorem KeepsCollection.dir_eq {f : File} {collection : Option FrostyMod} {dir : DartString}
    (h : KeepsCollection env archive disk files dir)
    (hf : (topLevel env files).find? (fun f => endsWith dotFbcollection f.name) = some f)
    (hread : env.readCollection files f = .ok collection) : env.newDir collection = dir := by
  obtain ⟨f', collection', hf', hread', hdir⟩ := h.readable
  obtain rfl := Option.some.inj (hf.symm.trans hf')
  obtain rfl := Except.ok.inj (hread.symm.trans hread')
  exact hdir

end

theorem handleFrostyCollection_iff {f : File}
    (hf : (topLevel env files).find? (fun f => endsWith dotFbcollection f.name) = some f) :
    NothingLost archive disk
        (handleFrostyCollection env filename (topLevel env files) (unpacked disk files)) ↔
      ∃ dir, KeepsCollection env archive disk files dir := by
  cases hread : env.readCollection files f with
  | error e =>
      rw [handleFrostyCollection, moveCollection_of_not_readable hf hread]
      refine iff_of_false (not_nothingLost_of_failure rfl rfl) fun hex => ?_
      obtain ⟨dir, hkeeps⟩ := hex
      obtain ⟨f', collection, hf', hread', -⟩ := hkeeps.readable
      obtain rfl := Option.some.inj (hf.symm.trans hf')
      cases hread.symm.trans hread'
  | ok collection =>
      by_cases hfresh : env.newDir collection ∈ mainDirNames env disk
      · rw [handleFrostyCollection, moveCollection_of_readable hf hread,
          disk_bind_error (renameTemp_of_taken hfresh)]
        refine iff_of_false (not_nothingLost_of_failure rfl rfl) fun hex => ?_
        obtain ⟨dir, hkeeps⟩ := hex
        rw [hkeeps.dir_eq hf hread] at hfresh
        exact hkeeps.fresh hfresh
      · rw [handleFrostyCollection_of_fresh hf hread hfresh, nothingLost_iff_of_success rfl]
        constructor
        · intro hall
          refine ⟨_, ⟨f, collection, hf, hread, rfl⟩, hfresh, fun e he hdir => ?_⟩
          exact (holds_renamed_iff hfresh _ _).mp (hall e he hdir)
        · intro hex
          obtain ⟨dir, hkeeps⟩ := hex
          obtain rfl := hkeeps.dir_eq hf hread
          intro e he hdir
          exact (holds_renamed_iff hfresh _ _).mpr (hkeeps.placed e he hdir)

end

/-- From the last dot of a name on, if this is not in front. -/
def fromLastDot (name : DartString) : DartString :=
  if 0x2e ∈ name.drop 1 then 0x2e :: (name.reverse.takeWhile (· ≠ 0x2e)).reverse else []

theorem fromLastDot_append {stem ext : DartString} (hstem : stem ≠ []) (hext : 0x2e ∉ ext) :
    fromLastDot (stem ++ 0x2e :: ext) = 0x2e :: ext := by
  obtain ⟨c, rest, rfl⟩ := List.exists_cons_of_ne_nil hstem
  have hnot : ∀ d ∈ ext.reverse, decide (d ≠ 0x2e) = true := fun d hd =>
    decide_eq_true fun hdot => hext (hdot ▸ List.mem_reverse.mp hd)
  rw [fromLastDot, if_pos (by simp), List.reverse_append, List.reverse_cons, List.append_assoc,
    List.takeWhile_append_of_pos hnot, List.singleton_append, List.takeWhile_cons_of_neg (by simp),
    List.append_nil, List.reverse_reverse]

def plainReaders : Environment where
  listSync files := files
  listSync_perm _ := List.Perm.refl _
  threads entries := entries
  threads_perm _ := List.Perm.refl _
  extension := fromLastDot
  extension_append _ _ h := fromLastDot_append h.1 h.2.2.1
  keepBroken := false
  tmpDir := [0x74]
  newDir _ := [0x6e]
  readMod _ content :=
    if content.length < 12 then .error (.exception "Failed to read 4 bytes") else .ok none
  readCollection _ f :=
    if f.content.length < 28 then .error (.exception "Failed to read 4 bytes") else .ok none
  toText _ := "Exception"

/-- `m.zip` -/
def zipName : DartString := 0x6d :: dotZip

def newVersion : File := { name := [0x61], content := List.replicate 12 2 }

def withOldVersion : Disk where
  files := [{ name := [0x61], content := List.replicate 12 1 }]
  plugins := some []

def shortFile : File := { name := [0x62], content := [0] }

/-- `b` in `x`, and `b` in `y`, which breaks off after the first twelve bytes. -/
def brokenSecond : Archive where
  entries := [
    { file := { dirs := [[0x78]], name := [0x62], content := List.replicate 13 3 } },
    { file := { dirs := [[0x79]], name := [0x62], content := List.replicate 13 4 }
      reading := .broken (List.replicate 12 4) }]

end Kyber.Archives
