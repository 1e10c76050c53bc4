import Mathlib.Data.List.TakeWhile
import Kyber.Collection.ModCollection

/-!
# Where the files of a collection go

The files of a collection should be written to its directory, or to the one that is given,
and nowhere else. Their names come from the archive, and nothing is done to them before they
are joined to the directory: a name that is absolute, or that leads upwards, leaves it. The
directory is named by the archive too, and may be anywhere.
-/

namespace Kyber.Collection

open Kyber.Lib

variable (env : Extraction) (files : List ArchiveFile) (outDir : Option Location)
  (folders : Folders)

/-- The files that are to be written. -/
def isWritten (f : ArchiveFile) : Bool := f.isFile && f.name != metadataName

def writes (dir : Location) : List (Location × List UInt8) :=
  (files.filter isWritten).map fun f => (joined env.style dir f.name, f.content)

/-- The ones before the first that cannot be created. -/
def reached (dir : Location) : List (Location × List UInt8) :=
  (writes env files dir).takeWhile fun w => env.canCreate w.1

def metadataLocation (target : Location) : Location := (target.1, target.2 ++ [env.fileName])

/-- An entry is written to the directory of the collection, which is in the one for all if none
is given, and the metadata are written to that one. -/
def IsInside (target dir : Location) : Written → Prop
  | .entry location => isBelow dir location = true ∧ (outDir = none → isBelow target dir = true)
  | .metadata location => isBelow target location = true

/-- Nothing is written elsewhere, and in the end all is there. -/
structure ExtractsInside (outcome : Except DartError Unit × Folders) : Prop where
  inside : ∀ w ∈ outcome.2.written, ∃ rawMetaData idDir,
    readMetadata env files = .ok (rawMetaData, idDir) ∧
      IsInside outDir (outDir.getD env.kyberDir)
        (outDir.getD (joined env.style (outDir.getD env.kyberDir) idDir)) w
  present : outcome.1 = .ok () → ∃ rawMetaData idDir,
    readMetadata env files = .ok (rawMetaData, idDir) ∧
      (isPopulated folders (joined env.style (outDir.getD env.kyberDir) idDir) = true ∨
        ∀ f ∈ files, isWritten f = true →
          (joined env.style (outDir.getD (joined env.style (outDir.getD env.kyberDir) idDir)) f.name,
            f.content) ∈ outcome.2.files)

/-- The names lead to places in the directory, and none of them to the same as a later one with
other content. -/
structure SafeNames (target dir : Location) (rawMetaData : ArchiveFile) : Prop where
  inside : ∀ w ∈ reached env files dir,
    isBelow dir w.1 = true ∧ (outDir = none → isBelow target dir = true)
  last : (∀ w ∈ writes env files dir, env.canCreate w.1 = true) →
    env.canCreate (metadataLocation env target) = true → ∀ w ∈ writes env files dir,
      lastOf Prod.fst (writes env files dir ++
        [(metadataLocation env target, rawMetaData.content)]) w.1 = some w

/-- If there are metadata, and the directory is not populated. -/
def SafeArchive : Prop :=
  ∀ rawMetaData idDir, readMetadata env files = .ok (rawMetaData, idDir) →
    isPopulated folders (joined env.style (outDir.getD env.kyberDir) idDir) = false →
      SafeNames env files outDir (outDir.getD env.kyberDir)
        (outDir.getD (joined env.style (outDir.getD env.kyberDir) idDir)) rawMetaData

section

variable {env files outDir folders}

theorem writeEntries_cons_of_isWritten {file : ArchiveFile} (h : isWritten file = true)
    (dir : Location) (folders : Folders) :
    writeEntries env dir (file :: files) folders =
      if env.canCreate (joined env.style dir file.name) then
        writeEntries env dir files { folders with
          files := supersede Prod.fst folders.files (joined env.style dir file.name, file.content)
          written := folders.written ++ [.entry (joined env.style dir file.name)] }
      else (.error (.exception "FileSystemException"), folders) := by
  have hcond : (!file.isFile || file.name == metadataName) = false := by
    simpa [isWritten] using h
  rw [writeEntries, hcond, writeFile]
  cases env.canCreate (joined env.style dir file.name) <;> rfl

theorem writeEntries_cons_of_not_isWritten {file : ArchiveFile} (h : isWritten file = false)
    (dir : Location) (folders : Folders) :
    writeEntries env dir (file :: files) folders = writeEntries env dir files folders := by
  have hcond : (!file.isFile || file.name == metadataName) = true := by
    cases hfile : file.isFile
    · rfl
    · simpa [isWritten, hfile] using h
  rw [writeEntries, hcond]
  rfl

variable (env files) in
/-- The loop writes the files up to the first that cannot be created. -/
theorem writeEntries_snd (dir : Location) (folders : Folders) :
    (writeEntries env dir files folders).2 = { folders with
      files := (reached env files dir).foldl (supersede Prod.fst) folders.files
      written := folders.written ++ (reached env files dir).map fun w => .entry w.1 } := by
  induction files generalizing folders with
  | nil => simp [writeEntries, reached, writes]
  | cons file files ih =>
      cases h : isWritten file with
      | false =>
          rw [writeEntries_cons_of_not_isWritten h, ih]
          simp [reached, writes, h]
      | true =>
          rw [writeEntries_cons_of_isWritten h]
          cases hcreate : env.canCreate (joined env.style dir file.name) with
          | false => simp [reached, writes, h, hcreate]
          | true =>
              rw [if_pos rfl, ih]
              simp [reached, writes, h, hcreate]

theorem writeEntries_fst_iff (dir : Location) (folders : Folders) :
    (writeEntries env dir files folders).1 = .ok () ↔
      ∀ w ∈ writes env files dir, env.canCreate w.1 = true := by
  induction files generalizing folders with
  | nil => simp [writeEntries, writes]
  | cons file files ih =>
      cases h : isWritten file with
      | false =>
          rw [writeEntries_cons_of_not_isWritten h, ih]
          simp [writes, h]
      | true =>
          rw [writeEntries_cons_of_isWritten h]
          cases hcreate : env.canCreate (joined env.style dir file.name) with
          | false => simp [writes, h, hcreate]
          | true =>
              rw [if_pos rfl, ih]
              simp [writes, h, hcreate]

theorem reached_eq_writes {dir : Location}
    (h : ∀ w ∈ writes env files dir, env.canCreate w.1 = true) :
    reached env files dir = writes env files dir :=
  List.takeWhile_eq_self_iff.mpr h

variable (env files) in
/-- All that has been written is there in the end if the last file that is written to its place
has the same content. -/
theorem present_iff (dir location : Location) (content : List UInt8)
    (old : List (Location × List UInt8)) :
    (∀ f ∈ files, isWritten f = true → (joined env.style dir f.name, f.content) ∈
        (writes env files dir ++ [(location, content)]).foldl (supersede Prod.fst) old) ↔
      ∀ w ∈ writes env files dir,
        lastOf Prod.fst (writes env files dir ++ [(location, content)]) w.1 = some w := by
  have hmem : ∀ w ∈ writes env files dir, (w ∈ (writes env files dir ++ [(location, content)]).foldl
      (supersede Prod.fst) old ↔
        lastOf Prod.fst (writes env files dir ++ [(location, content)]) w.1 = some w) := by
    intro w hw
    rw [mem_foldl_supersede, or_iff_left]
    intro hnone
    exact lastOf_eq_none_iff.mp hnone.1 w (List.mem_append_left _ hw) rfl
  constructor
  · intro h w hw
    obtain ⟨f, hf, rfl⟩ := List.mem_map.mp hw
    obtain ⟨hf, hwritten⟩ := List.mem_filter.mp hf
    exact (hmem _ hw).mp (h f hf hwritten)
  · intro h f hf hwritten
    have hw : (joined env.style dir f.name, f.content) ∈ writes env files dir :=
      List.mem_map.mpr ⟨f, List.mem_filter.mpr ⟨hf, hwritten⟩, rfl⟩
    exact (hmem _ hw).mpr (h _ hw)

/-- Without a segment that leads upwards a path goes down. -/
theorem foldl_enter_of_plain {segments : List DartString} (h : [0x2e, 0x2e] ∉ segments)
    (dir : List DartString) :
    segments.foldl enter dir = dir ++ segments.filter fun s => s ≠ [] && s ≠ [0x2e] := by
  induction segments generalizing dir with
  | nil => exact (List.append_nil dir).symm
  | cons s segments ih =>
      obtain ⟨hs, hsegments⟩ := not_or.mp fun hmem => h (List.mem_cons.mpr hmem)
      rw [List.foldl_cons, ih hsegments, List.filter_cons]
      by_cases hstay : s = [] ∨ s = [0x2e]
      · rw [enter, if_pos hstay, if_neg (by simpa [← not_or] using hstay)]
      · rw [enter, if_neg hstay, if_neg (Ne.symm hs), if_pos (by simpa [not_or] using hstay),
          List.append_assoc, List.singleton_append]

/-- A relative name that does not lead upwards is a safe one. -/
theorem isBelow_joined_of_plain {style : PathStyle} {dir : Location} {name : DartString}
    (hroot : style.root dir.1 name = none) (h : [0x2e, 0x2e] ∉ style.segments name)
    (hname : ∃ s ∈ style.segments name, s ≠ [] ∧ s ≠ [0x2e]) :
    isBelow dir (joined style dir name) = true := by
  have hne : (style.segments name).filter (fun s => s ≠ [] && s ≠ [0x2e]) ≠ [] := by
    obtain ⟨s, hs, hreal⟩ := hname
    exact List.ne_nil_of_mem (List.mem_filter.mpr ⟨hs, by simpa using hreal⟩)
  have hlength := List.length_pos_iff.mpr hne
  rw [joined, hroot]
  simp only [foldl_enter_of_plain h]
  simp only [isBelow, beq_self_eq_true, Bool.true_and, Bool.and_eq_true, decide_eq_true_eq,
    List.isPrefixOf_iff_prefix, List.length_append]
  exact ⟨List.prefix_append _ _, by omega⟩

theorem isBelow_metadataLocation (target : Location) :
    isBelow target (metadataLocation env target) = true := by
  simp [isBelow, metadataLocation]

section

variable {rawMetaData : ArchiveFile} {name : DartString}

theorem extractsInside_iff_of_read (hread : readMetadata env files = .ok (rawMetaData, name))
    (hpopulated : isPopulated folders (joined env.style (outDir.getD env.kyberDir) name) = false)
    (outcome : Except DartError Unit × Folders) :
    ExtractsInside env files outDir folders outcome ↔
      (∀ w ∈ outcome.2.written, IsInside outDir (outDir.getD env.kyberDir)
        (outDir.getD (joined env.style (outDir.getD env.kyberDir) name)) w) ∧
      (outcome.1 = .ok () → ∀ f ∈ files, isWritten f = true →
        (joined env.style (outDir.getD (joined env.style (outDir.getD env.kyberDir) name)) f.name,
          f.content) ∈ outcome.2.files) := by
  constructor
  · intro h
    refine ⟨fun w hw => ?_, fun hok => ?_⟩
    · obtain ⟨raw, name', hread', hinside⟩ := h.inside w hw
      obtain ⟨-, rfl⟩ := Prod.mk.inj (Except.ok.inj (hread.symm.trans hread'))
      exact hinside
    · obtain ⟨raw, name', hread', hpresent⟩ := h.present hok
      obtain ⟨-, rfl⟩ := Prod.mk.inj (Except.ok.inj (hread.symm.trans hread'))
      exact hpresent.resolve_left (by simp [hpopulated])
  · intro h
    exact ⟨fun w hw => ⟨rawMetaData, name, hread, h.1 w hw⟩,
      fun hok => ⟨rawMetaData, name, hread, .inr (h.2 hok)⟩⟩

theorem forall_mem_map_entry {ws : List (Location × List UInt8)} {target dir : Location} :
    (∀ w ∈ ws.map fun w => Written.entry w.1, IsInside outDir target dir w) ↔
      ∀ w ∈ ws, isBelow dir w.1 = true ∧ (outDir = none → isBelow target dir = true) :=
  List.forall_mem_map

end

theorem writeAll_of_error {dir : Location} (target : Location) (content : List UInt8)
    (folders : Folders) (h : ¬ ∀ w ∈ writes env files dir, env.canCreate w.1 = true) :
    ∃ e, writeAll env target dir files content folders =
      (.error e, (writeEntries env dir files folders).2) := by
  rw [← writeEntries_fst_iff dir folders] at h
  rw [writeAll]
  cases hrun : writeEntries env dir files folders with
  | mk result folders' =>
      cases result with
      | error e => exact ⟨e, rfl⟩
      | ok u => exact absurd (by rw [hrun]) h

theorem writeAll_of_ok {target dir : Location} {content : List UInt8}
    (h : ∀ w ∈ writes env files dir, env.canCreate w.1 = true) :
    writeAll env target dir files content folders =
      writeMetadata env target content (writeEntries env dir files folders).2 := by
  rw [← writeEntries_fst_iff dir folders] at h
  rw [writeAll]
  cases hrun : writeEntries env dir files folders with
  | mk result folders' =>
      rw [hrun] at h
      cases h
      rfl

/-- What is written is inside and stays if the names are safe, and only then. -/
theorem writeAll_iff {target dir : Location} {rawMetaData : ArchiveFile}
    {outcome : Except DartError Unit × Folders}
    (h : outcome = writeAll env target dir files rawMetaData.content { folders with written := [] }) :
    ((∀ w ∈ outcome.2.written, IsInside outDir target dir w) ∧
        (outcome.1 = .ok () → ∀ f ∈ files, isWritten f = true →
          (joined env.style dir f.name, f.content) ∈ outcome.2.files)) ↔
      SafeNames env files outDir target dir rawMetaData := by
  have hentries := writeEntries_snd env files dir
    { folders with written := [] }
  by_cases hall : ∀ w ∈ writes env files dir, env.canCreate w.1 = true
  · rw [writeAll_of_ok hall, writeMetadata, writeFile, hentries, reached_eq_writes hall] at h
    change outcome = if env.canCreate (metadataLocation env target) then _ else _ at h
    cases hmeta : env.canCreate (metadataLocation env target) with
    | false =>
        rw [hmeta] at h
        subst h
        constructor
        · intro hout
          refine ⟨?_, fun _ hcreate => absurd (hmeta.symm.trans hcreate) Bool.false_ne_true⟩
          rw [reached_eq_writes hall]
          exact forall_mem_map_entry.mp hout.1
        · intro hsafe
          have hinside := hsafe.inside
          rw [reached_eq_writes hall] at hinside
          refine ⟨forall_mem_map_entry.mpr hinside, fun hok => ?_⟩
          cases hok
    | true =>
        rw [hmeta] at h
        subst h
        have hfiles := present_iff env files dir (metadataLocation env target)
          rawMetaData.content folders.files
        rw [List.foldl_append, List.foldl_cons, List.foldl_nil] at hfiles
        constructor
        · intro hout
          refine ⟨?_, fun _ _ => hfiles.mp (hout.2 rfl)⟩
          rw [reached_eq_writes hall]
          exact forall_mem_map_entry.mp fun w hw => hout.1 w (List.mem_append_left _ hw)
        · intro hsafe
          have hinside := hsafe.inside
          rw [reached_eq_writes hall] at hinside
          refine ⟨fun w hw => ?_, fun _ => hfiles.mpr (hsafe.last hall hmeta)⟩
          obtain hw | hw := List.mem_append.mp hw
          · exact forall_mem_map_entry.mpr hinside w hw
          · obtain rfl := List.mem_singleton.mp hw
            exact isBelow_metadataLocation target
  · obtain ⟨e, hrun⟩ := writeAll_of_error target rawMetaData.content
      { folders with written := [] } hall
    rw [hrun, hentries] at h
    subst h
    constructor
    · intro hout
      exact ⟨forall_mem_map_entry.mp hout.1, fun hok => absurd hok hall⟩
    · intro hsafe
      refine ⟨forall_mem_map_entry.mpr hsafe.inside, fun hok => ?_⟩
      cases hok

theorem extractCollection_of_read {rawMetaData : ArchiveFile} {name : DartString}
    (hread : readMetadata env files = .ok (rawMetaData, name)) :
    extractCollection env files outDir folders =
      if isPopulated folders (joined env.style (outDir.getD env.kyberDir) name) then
        (.ok (), folders)
      else
        writeAll env (outDir.getD env.kyberDir)
          (outDir.getD (joined env.style (outDir.getD env.kyberDir) name)) files
          rawMetaData.content folders := by
  rw [extractCollection, hread]

end

/-- The files are where they should be exactly if the names in the archive lead there. -/
theorem extractCollection_inside_iff :
    ExtractsInside env files outDir folders
        (extractCollection env files outDir { folders with written := [] }) ↔
      SafeArchive env files outDir folders := by
  cases hread : readMetadata env files with
  | error e =>
      have hrun : extractCollection env files outDir { folders with written := [] } =
          (.error e, { folders with written := [] }) := by
        rw [extractCollection, hread]
      rw [hrun]
      refine iff_of_true ⟨fun w hw => ?_, fun hok => ?_⟩ fun raw name h => ?_
      · cases hw
      · cases hok
      · cases hread.symm.trans h
  | ok p =>
      obtain ⟨rawMetaData, name⟩ := p
      have hpair : ∀ raw name', readMetadata env files = .ok (raw, name') →
          rawMetaData = raw ∧ name = name' := fun raw name' h =>
        Prod.mk.inj (Except.ok.inj (hread.symm.trans h))
      rw [extractCollection_of_read hread]
      change ExtractsInside env files outDir folders
        (if isPopulated folders (joined env.style (outDir.getD env.kyberDir) name) then _
        else _) ↔ _
      cases hpopulated : isPopulated folders
          (joined env.style (outDir.getD env.kyberDir) name) with
      | true =>
          refine iff_of_true ⟨fun w hw => ?_, fun _ => ⟨rawMetaData, name, hread, .inl hpopulated⟩⟩
            fun raw name' h hnot => ?_
          · cases hw
          · obtain ⟨rfl, rfl⟩ := hpair raw name' h
            cases hpopulated.symm.trans hnot
      | false =>
          rw [extractsInside_iff_of_read hread hpopulated]
          refine (writeAll_iff rfl).trans ⟨fun h raw name' hread' _ => ?_, fun h =>
            h rawMetaData name hread hpopulated⟩
          obtain ⟨rfl, rfl⟩ := hpair raw name' hread'
          exact h

/-! An entry whose name leads out of the directory. -/

def posix : PathStyle where
  root _ name := if name.head? = some 0x2f then some [0x2f] else none
  segments name := name.splitOn 0x2f

def onPosix : Extraction where
  style := posix
  slugify title := title
  kyberDir := ([0x2f], [[0x6b]])
  fileName := [0x63]
  canCreate _ := true

/-- Metadata with an id of sixteen characters, and `../../x`. -/
def climbing : List ArchiveFile :=
  [{ name := metadataName
     content := [1, 0, 0, 0] ++ List.replicate 16 0x61 ++ [0, 0, 0] ++ List.replicate 8 0 },
   { name := [0x2e, 0x2e, 0x2f, 0x2e, 0x2e, 0x2f, 0x78]
     content := [] }]

theorem extractCollection_climbs :
    ¬ ExtractsInside onPosix climbing none { files := [] }
      (extractCollection onPosix climbing none { files := [] }) := by
  intro h
  obtain ⟨rawMetaData, name, hread, hbelow, -⟩ :=
    h.inside (.entry ([0x2f], [[0x78]])) (by decide)
  have hname : readMetadata onPosix climbing =
      .ok (climbing.head (by decide), List.replicate 16 0x61 ++ [0x2d]) := by
    decide
  obtain ⟨-, rfl⟩ := Prod.mk.inj (Except.ok.inj (hname.symm.trans hread))
  revert hbelow
  decide

end Kyber.Collection
