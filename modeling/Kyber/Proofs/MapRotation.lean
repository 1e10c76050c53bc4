import Kyber.Launcher.MapRotation
import Kyber.Launcher.Modes

/-!
# Exported and saved map rotations

What the client decodes are the lines that the launcher has written, up to what UTF-8
does to them. Parsing lines gives a rotation of as many entries as there are lines only
if they are the lines of this rotation. So an export means the same to the client exactly
if its text comes through UTF-8; a file never does, since the client does not read it.
-/

namespace Kyber.Launcher

open Kyber.Lib

/-- What an export can tell apart. -/
structure Exportable (entry : LevelSetup) : Prop where
  mode_ne : entry.mode ≠ []
  map_ne : entry.map ≠ []
  mode_semicolon : semicolon ∉ entry.mode
  map_semicolon : semicolon ∉ entry.map
  mode_break : newline ∉ entry.mode ∧ carriageReturn ∉ entry.mode
  map_break : newline ∉ entry.map ∧ carriageReturn ∉ entry.map
  mode_hash : entry.mode.head? ≠ some hash

/-- The client is given the rotation: as its export, or as a file that has its lines. -/
inductive Carries (i : Invocation) (rotation : List LevelSetup) : Prop
  | environment (henvironment : i.environment = some (generateData rotation))
      (hfile : ∀ path, i.rotationFile = some path → (i.files path).isSome = true)
  | file (henvironment : i.environment = none) (path : DartString) (content : List UInt8)
      (hpath : i.rotationFile = some path) (hfile : i.files path = some content)
      (hlines : readAsLinesSync content = .ok (rotation.map LevelSetup.line))

/-- The text of the rotation comes through UTF-8. -/
def Encodable (rotation : List LevelSetup) : Prop :=
  (∀ entry ∈ rotation,
    Utf16.wellFormed entry.mode = true ∧ Utf16.wellFormed entry.map = true) ∧
  ∀ entry ∈ rotation.head?, entry.mode.head? ≠ some Utf16.byteOrderMark

/-! ## Lines -/

theorem splitOn_line {entry : LevelSetup} (h : Exportable entry) :
    entry.line.splitOn semicolon = [entry.mode, entry.map] := by
  have hjoin : entry.line = [semicolon].intercalate [entry.mode, entry.map] := by
    simp [LevelSetup.line, List.intercalate]
  rw [hjoin, List.splitOn_intercalate]
  · intro l hl
    simp only [List.mem_cons, List.not_mem_nil, or_false] at hl
    rcases hl with rfl | rfl
    · exact h.mode_semicolon
    · exact h.map_semicolon
  · simp

theorem line_of_splitOn {line mode map : DartString} (h : line.splitOn semicolon = [mode, map]) :
    line = LevelSetup.line { map, mode } := by
  have hjoin : [semicolon].intercalate (line.splitOn semicolon) = line := List.intercalate_splitOn _
  rw [h] at hjoin
  rw [← hjoin]
  simp [LevelSetup.line, List.intercalate]

theorem parseLines_map {rotation : List LevelSetup} (h : ∀ entry ∈ rotation, Exportable entry)
    (before : List LevelSetup) :
    parseLines before (rotation.map LevelSetup.line) = .ok (before ++ rotation) := by
  induction rotation generalizing before with
  | nil => rw [List.map_nil, parseLines, List.append_nil]
  | cons entry rotation ih =>
      have hentry := h entry (by simp)
      have hskip : ¬ (entry.line.isEmpty = true ∨ entry.line.head? = some hash) := by
        cases hmode : entry.mode with
        | nil => exact absurd hmode hentry.mode_ne
        | cons u mode =>
            have hhash := hentry.mode_hash
            rw [hmode, List.head?_cons] at hhash
            simp [LevelSetup.line, hmode, hhash]
      rw [List.map_cons, parseLines, if_neg hskip, splitOn_line hentry]
      refine (ih (fun e he => h e (by simp [he])) _).trans ?_
      rw [List.append_assoc, List.singleton_append]

/-- As many entries as lines: then the lines are those of the entries. -/
theorem parseLines_ok {lines : List DartString} {before rotation : List LevelSetup}
    (h : parseLines before lines = .ok rotation) :
    ∃ entries, rotation = before ++ entries ∧ entries.length ≤ lines.length ∧
      (entries.length = lines.length → lines = entries.map LevelSetup.line) := by
  induction lines generalizing before with
  | nil =>
      cases h
      exact ⟨[], (List.append_nil _).symm, Nat.le_refl 0, fun _ => rfl⟩
  | cons line lines ih =>
      rw [parseLines] at h
      split at h
      · obtain ⟨entries, hrotation, hle, -⟩ := ih h
        refine ⟨entries, hrotation, Nat.le_succ_of_le hle, fun hlength => ?_⟩
        rw [List.length_cons] at hlength
        omega
      · split at h
        · next mode map hsplit =>
            obtain ⟨entries, hrotation, hle, hlines⟩ := ih h
            refine ⟨{ map, mode } :: entries, by rw [hrotation]; simp, Nat.succ_le_succ hle,
              fun hlength => ?_⟩
            rw [List.map_cons, ← line_of_splitOn hsplit,
              ← hlines (by simpa using hlength)]
        · cases h

theorem parseLines_iff {lines : List DartString} {rotation : List LevelSetup}
    (h : ∀ entry ∈ rotation, Exportable entry) (hlength : lines.length = rotation.length) :
    parseLines [] lines = .ok rotation ↔ lines = rotation.map LevelSetup.line := by
  constructor
  · intro hparse
    obtain ⟨entries, hrotation, -, hlines⟩ := parseLines_ok hparse
    rw [List.nil_append] at hrotation
    rw [hrotation]
    exact hlines (by rw [hlength, hrotation])
  · rintro rfl
    exact parseLines_map h []

/-! ## UTF-8 -/

theorem intercalate_cons (line line' : DartString) (lines : List DartString) :
    [newline].intercalate (line :: line' :: lines) =
      line ++ newline :: [newline].intercalate (line' :: lines) := by
  simp [List.intercalate]

theorem sanitize_intercalate (line : DartString) (lines : List DartString) :
    Utf16.sanitize ([newline].intercalate (line :: lines)) =
      [newline].intercalate ((line :: lines).map Utf16.sanitize) := by
  induction lines generalizing line with
  | nil => simp [List.intercalate]
  | cons line' lines ih =>
      rw [intercalate_cons, Utf16.sanitize_append_cons (by decide), ih, List.map_cons, List.map_cons,
        List.map_cons, intercalate_cons]

theorem splitOn_sanitize {line : DartString} {lines : List DartString}
    (h : ∀ l ∈ line :: lines, newline ∉ l) :
    (Utf16.sanitize ([newline].intercalate (line :: lines))).splitOn newline =
      (line :: lines).map Utf16.sanitize := by
  rw [sanitize_intercalate, List.splitOn_intercalate]
  · intro l hl
    obtain ⟨l', hl', rfl⟩ := List.mem_map.mp hl
    intro hmem
    rcases Utf16.mem_sanitize hmem with hnewline | hreplacement
    · exact h l' hl' hnewline
    · exact absurd hreplacement (by decide)
  · simp

/-- What the client decodes of the lines: a byte order mark is lost. -/
def decodedLine (line : DartString) : DartString :=
  if line.head? = some Utf16.byteOrderMark then line.tail else line

theorem intercalate_cons_unit (u : UInt16) (line : DartString) (lines : List DartString) :
    [newline].intercalate ((u :: line) :: lines) = u :: [newline].intercalate (line :: lines) := by
  cases lines <;> simp [List.intercalate]

theorem decodeRotation_lines {line : DartString} {lines : List DartString}
    (h : ∀ l ∈ line :: lines, newline ∉ l) (hne : line ≠ []) :
    decodeRotation (Base64.encode (Utf16.encodeUtf8 ([newline].intercalate (line :: lines)))) =
      .ok ((decodedLine line :: lines).map Utf16.sanitize) := by
  rw [decodeRotation, Base64.decode_encode, Option.bind_some]
  cases line with
  | nil => exact absurd rfl hne
  | cons u line =>
      rw [intercalate_cons_unit]
      by_cases hmark : u = Utf16.byteOrderMark
      · have hlines : ∀ l ∈ line :: lines, newline ∉ l := by
          intro l hl
          rcases List.mem_cons.mp hl with rfl | hl
          · exact fun hmem => h (u :: l) (by simp) (by simp [hmem])
          · exact h l (by simp [hl])
        rw [hmark, Utf16.decodeUtf8_encodeUtf8_mark]
        simp only [splitOn_sanitize hlines, decodedLine, List.head?_cons, if_true, List.tail_cons]
      · rw [Utf16.decodeUtf8_encodeUtf8 (by simp [hmark]), ← intercalate_cons_unit]
        simp only [splitOn_sanitize h, decodedLine, List.head?_cons, Option.some.injEq, hmark,
          if_false]

theorem wellFormed_line_iff (entry : LevelSetup) :
    Utf16.sanitize entry.line = entry.line ↔
      Utf16.wellFormed entry.mode = true ∧ Utf16.wellFormed entry.map = true := by
  rw [← Utf16.sanitize_eq_iff, ← Utf16.sanitize_eq_iff, LevelSetup.line,
    Utf16.sanitize_append_cons (by decide)]
  constructor
  · intro h
    obtain ⟨hmode, hmap⟩ := List.append_inj h (Utf16.length_sanitize _)
    exact ⟨hmode, (List.cons.inj hmap).2⟩
  · rintro ⟨hmode, hmap⟩
    rw [hmode, hmap]

theorem head?_line {entry : LevelSetup} (h : entry.mode ≠ []) :
    entry.line.head? = entry.mode.head? := by
  cases hmode : entry.mode with
  | nil => exact absurd hmode h
  | cons u mode => simp [LevelSetup.line, hmode]

/-- The lines come through as they are. -/
theorem decoded_eq_iff {entry : LevelSetup} {rotation : List LevelSetup}
    (hne : entry.mode ≠ []) :
    (decodedLine entry.line :: rotation.map LevelSetup.line).map Utf16.sanitize =
        (entry :: rotation).map LevelSetup.line ↔
      Encodable (entry :: rotation) := by
  have hrest : (rotation.map LevelSetup.line).map Utf16.sanitize = rotation.map LevelSetup.line ↔
      ∀ e ∈ rotation, Utf16.wellFormed e.mode = true ∧ Utf16.wellFormed e.map = true := by
    rw [List.map_map, List.map_inj_left]
    exact forall₂_congr fun e _ => wellFormed_line_iff e
  have hfirst : Utf16.sanitize (decodedLine entry.line) = entry.line ↔
      (Utf16.wellFormed entry.mode = true ∧ Utf16.wellFormed entry.map = true) ∧
        entry.mode.head? ≠ some Utf16.byteOrderMark := by
    rw [decodedLine, head?_line hne]
    split
    · next hmark =>
        -- A line without its first code unit is not the line.
        refine iff_of_false (fun heq => ?_) (fun h => h.2 hmark)
        have hlength := congrArg List.length heq
        have hpos : 0 < entry.line.length := by simp [LevelSetup.line]
        rw [Utf16.length_sanitize, List.length_tail] at hlength
        omega
    · next hmark => rw [wellFormed_line_iff, and_iff_left hmark]
  rw [List.map_cons, List.map_cons, List.cons.injEq, hfirst, hrest, Encodable]
  simp only [List.mem_cons, forall_eq_or_imp, List.head?_cons, Option.mem_def, Option.some.injEq,
    forall_eq']
  tauto

/-! ## The client -/

theorem loadRotation_environment {i : Invocation} {value : DartString}
    (henvironment : i.environment = some value)
    (hfile : ∀ path, i.rotationFile = some path → (i.files path).isSome = true) :
    loadRotation i = decodeRotation value >>= parseLines [] := by
  rw [loadRotation, henvironment]
  cases hpath : i.rotationFile with
  | none => rfl
  | some path =>
      have hsome := hfile path hpath
      cases hcontent : i.files path with
      | none => simp [hcontent] at hsome
      | some content => simp [hcontent]

/-- Whatever the file is, the client does not get to it. -/
theorem loadRotation_file {i : Invocation} {path : DartString} {content : List UInt8}
    (henvironment : i.environment = none) (hpath : i.rotationFile = some path)
    (hfile : i.files path = some content) : loadRotation i = .error .nullCheck := by
  rw [loadRotation, henvironment, hpath]
  simp [hfile]
  rfl

/-- A rotation means the same to the client exactly if it is in the environment and its text
comes through UTF-8. -/
theorem loadRotation_iff {rotation : List LevelSetup} (hne : rotation ≠ [])
    (h : ∀ entry ∈ rotation, Exportable entry) {i : Invocation} (hcarries : Carries i rotation) :
    loadRotation i = .ok rotation ↔ i.environment.isSome = true ∧ Encodable rotation := by
  cases hcarries with
  | file henvironment path content hpath hfile _ =>
      rw [loadRotation_file henvironment hpath hfile, henvironment]
      simp
  | environment henvironment hfile =>
      obtain ⟨entry, rest, rfl⟩ := List.exists_cons_of_ne_nil hne
      have hmode := (h entry (by simp)).mode_ne
      have hbreak : ∀ l ∈ entry.line :: rest.map LevelSetup.line, newline ∉ l := by
        intro l hl
        obtain ⟨e, he, rfl⟩ := List.mem_map.mp (show l ∈ (entry :: rest).map LevelSetup.line from hl)
        simp only [LevelSetup.line, List.mem_append, List.mem_cons, not_or]
        exact ⟨(h e he).mode_break.1, by decide, (h e he).map_break.1⟩
      rw [loadRotation_environment henvironment hfile, generateData, rotationText, List.map_cons,
        decodeRotation_lines hbreak (by simp [LevelSetup.line]), henvironment, Option.isSome_some,
        ← decoded_eq_iff hmode]
      rw [and_iff_right rfl]
      exact parseLines_iff h (by simp)

/-- `HvV` on `S5` -/
def duel : LevelSetup := { map := [0x53, 0x35], mode := [0x48, 0x76, 0x56] }

theorem exportable_duel : Exportable duel := by
  constructor <;> decide

/-- `Mode1` on a map whose name has letters of two and of four bytes. -/
def second : LevelSetup := { map := [0xe9, 0xd83d, 0xde00], mode := [0x4d, 0x6f, 0x64, 0x65, 0x31] }

theorem exportable_second : Exportable second := by
  constructor <;> decide

theorem loadRotation_iff_duel :
    loadRotation { environment := some (generateData [duel, second, duel]) } =
      .ok [duel, second, duel] :=
  (loadRotation_iff (by simp) (by simp [exportable_duel, exportable_second])
    (.environment rfl (by simp))).mpr ⟨rfl, by decide, by decide⟩

/-- A file with this one line. -/
theorem loadRotation_not_always :
    ¬ ∀ (rotation : List LevelSetup) (i : Invocation), rotation ≠ [] →
      (∀ entry ∈ rotation, Exportable entry) → Carries i rotation →
      loadRotation i = .ok rotation := by
  intro h
  have hlines : readAsLinesSync (Utf16.encodeUtf8 duel.line) = .ok [duel.line] := by
    rw [readAsLinesSync, Utf16.decodeUtf8_encodeUtf8 (by decide)]
    decide
  have hload := h [duel]
    { rotationFile := some [0x61], files := fun _ => some (Utf16.encodeUtf8 duel.line) } (by simp)
    (by simpa using exportable_duel) (.file rfl [0x61] _ rfl rfl hlines)
  cases hload

end Kyber.Launcher

/-!
## Saved rotations are not loaded

A rotation that is saved should be what is loaded again. But the loader passes over lines
that have no space in them, and there is none in the modes and maps of the game: from a
saved rotation it loads nothing.
-/

namespace Kyber.Launcher.MapRotationHelper

/-- The mode is one of the game's, and the map is one of its maps. -/
def BuiltIn (entry : MapRotationEntry) : Prop :=
  ∃ mode ∈ modes, mode.mode = entry.mode ∧ entry.map ∈ mode.maps

def RoundTrips (rotation : List MapRotationEntry) : Prop :=
  loadRotationFromFile (exportRotation rotation) = .ok rotation

instance (rotation : List MapRotationEntry) : Decidable (RoundTrips rotation) :=
  inferInstanceAs (Decidable (_ = _))

/-! ## What is in a line -/

theorem mem_intercalate_of_mem {sep u : UInt16} {line : DartString} {lines : List DartString}
    (hline : line ∈ lines) (hu : u ∈ line) : u ∈ [sep].intercalate lines := by
  induction lines with
  | nil => cases hline
  | cons first lines ih =>
      by_cases hnil : lines = []
      · subst hnil
        obtain rfl := List.mem_singleton.mp hline
        rwa [List.intercalate_singleton]
      · rw [List.intercalate_cons_of_ne_nil hnil]
        obtain rfl | hline := List.mem_cons.mp hline
        · exact List.mem_append_left _ (List.mem_append_left _ hu)
        · exact List.mem_append_right _ (ih hline)

theorem mem_of_mem_splitOn {sep u : UInt16} {line data : DartString}
    (hline : line ∈ data.splitOn sep) (hu : u ∈ line) : u ∈ data := by
  have hdata : [sep].intercalate (data.splitOn sep) = data := List.intercalate_splitOn sep
  rw [← hdata]
  exact mem_intercalate_of_mem hline hu

/-- No name of the game has a space in it. -/
theorem modes_no_space :
    (modes.all fun mode => (mode.mode :: mode.maps).all fun s => s.all (· != space)) = true := by
  decide +kernel

theorem BuiltIn.space_notMem {entry : MapRotationEntry} (h : BuiltIn entry) :
    space ∉ line entry := by
  obtain ⟨mode, hmode, hname, hmap⟩ := h
  have hall := List.all_eq_true.mp modes_no_space mode hmode
  have hplain : ∀ s ∈ mode.mode :: mode.maps, space ∉ s := by
    intro s hs hspace
    have hne := List.all_eq_true.mp (List.all_eq_true.mp hall s hs) space hspace
    exact absurd hne (by decide)
  intro hmem
  obtain hmem | hmem := List.mem_append.mp hmem
  · rw [← hname] at hmem
    exact hplain mode.mode List.mem_cons_self hmem
  · obtain hcolon | hmem := List.mem_cons.mp hmem
    · exact absurd hcolon (by decide)
    · exact hplain entry.map (List.mem_cons_of_mem _ hmap) hmem

theorem space_notMem_exportRotation {rotation : List MapRotationEntry}
    (h : ∀ entry ∈ rotation, BuiltIn entry) : space ∉ exportRotation rotation := by
  intro hmem
  obtain ⟨entry, hentry, hmem⟩ := List.mem_flatMap.mp hmem
  obtain hmem | hmem := List.mem_append.mp hmem
  · exact (h entry hentry).space_notMem hmem
  · exact absurd (List.mem_singleton.mp hmem) (by decide)

/-! ## Loading -/

theorem loadLines_of_no_space {lines : List DartString} (h : ∀ line ∈ lines, space ∉ line) :
    loadLines lines = .ok [] := by
  induction lines with
  | nil => rfl
  | cons line lines ih =>
      obtain ⟨hline, hlines⟩ := List.forall_mem_cons.mp h
      rw [loadLines, loadLine, if_pos (.inr hline), ih hlines]
      rfl

theorem loadRotationFromFile_exportRotation {rotation : List MapRotationEntry}
    (hne : rotation ≠ []) (h : ∀ entry ∈ rotation, BuiltIn entry) :
    loadRotationFromFile (exportRotation rotation) = .ok [] := by
  obtain ⟨entry, rest, rfl⟩ := List.exists_cons_of_ne_nil hne
  have hmode : ¬ ∀ element ∈ modes, ¬ element.mode <:+: exportRotation (entry :: rest) := by
    intro hall
    obtain ⟨mode, hmode, hname, -⟩ := h entry List.mem_cons_self
    refine hall mode hmode ⟨[], colon :: entry.map ++ [newline] ++ exportRotation rest, ?_⟩
    rw [hname]
    simp [exportRotation, line]
  have hnil : exportRotation (entry :: rest) ≠ [] := by
    simp [exportRotation]
  rw [loadRotationFromFile, if_neg hnil, if_neg hmode]
  refine loadLines_of_no_space fun line hline hspace => ?_
  exact space_notMem_exportRotation h (mem_of_mem_splitOn hline hspace)

/-- No rotation of the game's modes and maps is what is loaded for it. -/
theorem not_roundTrips {rotation : List MapRotationEntry} (hne : rotation ≠ [])
    (h : ∀ entry ∈ rotation, BuiltIn entry) : ¬ RoundTrips rotation := by
  intro hload
  rw [RoundTrips, loadRotationFromFile_exportRotation hne h] at hload
  exact hne (Except.ok.inj hload).symm

/-- Crait in the mode `PlanetaryBattles`. -/
def crait : MapRotationEntry where
  map := ofString "S1/Levels/Crait_01/Crait_01"
  mode := ofString "PlanetaryBattles"

/-- Kamino in the mode `HeroesVersusVillains`. -/
def kamino : MapRotationEntry where
  map := ofString "Levels/MP/Kamino_01/Kamino_01"
  mode := ofString "HeroesVersusVillains"

theorem builtIn_crait : BuiltIn crait :=
  ⟨_, List.mem_cons_of_mem _ List.mem_cons_self, rfl, by decide +kernel⟩

theorem builtIn_kamino : BuiltIn kamino :=
  ⟨_, List.mem_cons_self, rfl, by decide +kernel⟩

theorem crait_not_roundTrips : ¬ RoundTrips [crait, kamino, crait] :=
  not_roundTrips (by decide) (by simp [builtIn_crait, builtIn_kamino])

theorem load_export_crait :
    loadRotationFromFile (exportRotation [crait]) = .ok [] ∧ ¬ RoundTrips [crait] := by
  decide +kernel

end Kyber.Launcher.MapRotationHelper
