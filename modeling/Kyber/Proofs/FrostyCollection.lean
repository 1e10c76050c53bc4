import Kyber.Collection.FrostyCollection

/-!
# Frosty collections are read back

The writer is followed through its buffer: what is written comes behind what has been
written, or over it where the cursor has gone back. The reader is followed through the
file: a section is what is found at its offset. Between them stands the layout of a
collection, in which the words of the header say where its sections are.
-/

namespace Kyber.Collection.Frosty

open Kyber.Lib

/-! ## Layout -/

section

variable (codec : ManifestCodec)

/-- A screenshot with its length. -/
def screenshotBytes (screenshot : List UInt8) : List UInt8 :=
  leBytes 4 screenshot.length ++ screenshot

namespace FrostyCollection

variable (c : FrostyCollection)

def iconBytes : List UInt8 := c.icon.getD []

def screenshotsBytes : List UInt8 :=
  leBytes 4 c.screenshots.length ++ c.screenshots.flatMap screenshotBytes

/-- Everything behind the header. -/
def sections : List UInt8 := c.manifest.bytes codec ++ (c.iconBytes ++ c.screenshotsBytes)

def iconOffset : Nat := 28 + (c.manifest.bytes codec).length

def screenshotsOffset : Nat := c.iconOffset codec + c.iconBytes.length

/-- Where the sections are. -/
def table : List UInt8 :=
  leBytes 4 28 ++ (leBytes 4 (c.manifest.bytes codec).length ++ (leBytes 4 (c.iconOffset codec) ++
    (leBytes 4 c.iconBytes.length ++ leBytes 4 (c.screenshotsOffset codec))))

def layout : List UInt8 :=
  leBytes 4 frostyMagic ++ (leBytes 4 collectionVersion ++ (c.table codec ++ c.sections codec))

/-- The encoding fits the writer's buffer. -/
def Fits : Prop := 28 + (c.sections codec).length ≤ capacity

end FrostyCollection

end

/-! ## Writing -/

section

variable {α β : Type} {s : ByteWriter}

theorem cursor_bind {m : CursorM α} {f : α → CursorM β} {s s' : ByteWriter} {a : α}
    (h : m s = .ok (a, s')) : (m >>= f) s = f a s' := by
  show (m s >>= fun p => f p.1 p.2) = f a s'
  rw [h]
  rfl

/-- The writer stands between what comes before the cursor and what comes after it. -/
def between (before after : List UInt8) : ByteWriter := ⟨before ++ after, before.length⟩

/-- The bytes are written over what is behind the cursor. -/
def Writes (m : CursorM Unit) (bytes : List UInt8) : Prop :=
  ∀ before after, bytes.length ≤ after.length →
    m (between before after) = .ok ((), between (before ++ bytes) (after.drop bytes.length))

theorem writes_setAll (bytes : List UInt8) : Writes (setAll bytes) bytes := by
  intro before after h
  have hfit : before.length + bytes.length ≤ before.length + after.length := by omega
  simp only [setAll, between, List.length_append, if_pos hfit, List.take_left]
  rw [← List.drop_drop, List.drop_left]

theorem Writes.bind {m m' : CursorM Unit} {bytes bytes' : List UInt8} (h : Writes m bytes)
    (h' : Writes m' bytes') : Writes (do m; m') (bytes ++ bytes') := by
  intro before after hfit
  rw [List.length_append] at hfit
  rw [cursor_bind (h before after (by omega)), h' _ _ (by rw [List.length_drop]; omega),
    List.drop_drop, List.length_append, List.append_assoc]

theorem writes_pure : Writes (pure ()) [] := by
  intro before after _
  rw [List.append_nil, List.length_nil, List.drop_zero]
  rfl

theorem Writes.forM {f : α → CursorM Unit} {g : α → List UInt8} (h : ∀ x, Writes (f x) (g x))
    (xs : List α) : Writes (xs.forM f) (xs.flatMap g) := by
  induction xs with
  | nil => exact writes_pure
  | cons x xs ih => exact (h x).bind ih

theorem writes_writeUint32 (value : Nat) : Writes (writeUint32 value) (leBytes 4 value) :=
  writes_setAll _

theorem writes_screenshot (screenshot : List UInt8) :
    Writes (writeScreenshot screenshot) (screenshotBytes screenshot) :=
  (writes_writeUint32 _).bind (writes_setAll _)

/-! What is written first, and what comes then. -/

section

variable {before after : List UInt8} {r : Except DartError β}

theorem Writes.run {m : CursorM Unit} {bytes : List UInt8} (h : Writes m bytes)
    (hfit : bytes.length ≤ after.length) {f : Unit → CursorM β}
    (hr : (f () (between (before ++ bytes) (after.drop bytes.length))).map Prod.fst = r) :
    ((m >>= f) (between before after)).map Prod.fst = r := by
  rw [cursor_bind (h before after hfit)]
  exact hr

theorem getOffset_run {f : Nat → CursorM β}
    (hr : (f before.length (between before after)).map Prod.fst = r) :
    ((getOffset >>= f) (between before after)).map Prod.fst = r :=
  hr

end

/-- The room that is left for the table. -/
def blank : List UInt8 := (List.range 5).flatMap fun _ => leBytes 4 0

theorem length_blank : blank.length = 20 := by decide

theorem writes_icon (icon : Option (List UInt8)) : Writes (writeIcon icon) (icon.getD []) := by
  cases icon with
  | none => exact writes_pure
  | some icon => exact writes_setAll icon

theorem writes_blank : Writes ((List.range 5).forM fun _ => writeUint32 0) blank :=
  Writes.forM (fun _ => writes_writeUint32 0) _

/-- The cursor goes back. -/
theorem setOffset_run {β : Type} (before : List UInt8) {after rest : List UInt8} {n : Nat}
    {f : Unit → CursorM β} {r : Except DartError β} (hn : n = before.length)
    (hr : (f () (between before (after ++ rest))).map Prod.fst = r) :
    ((setOffset n >>= f) (between (before ++ after) rest)).map Prod.fst = r := by
  have hset : setOffset n (between (before ++ after) rest) =
      .ok ((), between before (after ++ rest)) := by
    rw [setOffset, between, between, hn, List.append_assoc]
  rw [cursor_bind hset]
  exact hr

theorem toBytes_run {before after : List UInt8} {n : Nat} (rest : List UInt8)
    (hafter : ∃ tail, after = rest ++ tail) (hn : n = before.length + rest.length) :
    ((setOffset n >>= fun _ => toBytes) (between before after)).map Prod.fst =
      .ok (before ++ rest) := by
  have hlength : n = (before ++ rest).length := by rw [hn, List.length_append]
  obtain ⟨tail, rfl⟩ := hafter
  show Except.ok (List.take n (before ++ (rest ++ tail))) = _
  rw [ ← List.append_assoc, hlength, List.take_left]

theorem writeM_eq {codec : ManifestCodec} {c : FrostyCollection} {room : List UInt8}
    (h : 28 + (c.sections codec).length ≤ room.length) :
    (c.writeM codec (between [] room)).map Prod.fst = .ok (c.layout codec) := by
  have hblank := length_blank
  simp only [FrostyCollection.sections, FrostyCollection.iconBytes,
    FrostyCollection.screenshotsBytes, List.length_append, length_leBytes] at h
  -- One section after the other.
  refine (writes_writeUint32 frostyMagic).run (by rw [length_leBytes]; omega) ?_
  refine (writes_writeUint32 collectionVersion).run
    (by simp only [length_leBytes, List.length_drop]; omega) ?_
  refine writes_blank.run (by simp only [length_leBytes, List.length_drop]; omega) ?_
  refine getOffset_run ?_
  refine (writes_setAll (c.manifest.bytes codec)).run
    (by simp only [length_leBytes, List.length_drop]; omega) ?_
  refine getOffset_run (getOffset_run ?_)
  refine (writes_icon c.icon).run (by simp only [length_leBytes, List.length_drop]; omega) ?_
  refine getOffset_run (getOffset_run ?_)
  refine (writes_writeUint32 c.screenshots.length).run
    (by simp only [length_leBytes, List.length_drop]; omega) ?_
  refine (Writes.forM writes_screenshot c.screenshots).run
    (by simp only [length_leBytes, List.length_drop]; omega) ?_
  refine getOffset_run ?_
  -- The table is written over the room that was left for it.
  simp only [List.nil_append, List.append_assoc]
  rw [← List.append_assoc (leBytes 4 frostyMagic)]
  refine setOffset_run (leBytes 4 frostyMagic ++ leBytes 4 collectionVersion) (by simp) ?_
  refine (writes_writeUint32 _).run (by simp only [length_leBytes, List.length_append]; omega) ?_
  refine (writes_writeUint32 _).run
    (by simp only [length_leBytes, List.length_append, List.length_drop]; omega) ?_
  refine (writes_writeUint32 _).run
    (by simp only [length_leBytes, List.length_append, List.length_drop]; omega) ?_
  refine (writes_writeUint32 _).run
    (by simp only [length_leBytes, List.length_append, List.length_drop]; omega) ?_
  refine (writes_writeUint32 _).run
    (by simp only [length_leBytes, List.length_append, List.length_drop]; omega) ?_
  have htable : ∀ rest : List UInt8, (((((blank ++ rest).drop 4).drop 4).drop 4).drop 4).drop 4 =
      rest := by
    intro rest
    simp only [List.drop_drop]
    exact List.drop_left' hblank
  simp only [length_leBytes, List.append_assoc, htable]
  refine (toBytes_run (c.sections codec) ?_ ?_).trans ?_
  · simp only [FrostyCollection.sections, FrostyCollection.iconBytes,
      FrostyCollection.screenshotsBytes, List.append_assoc]
    exact ⟨_, rfl⟩
  · simp only [FrostyCollection.sections, FrostyCollection.iconBytes,
      FrostyCollection.screenshotsBytes, List.length_append, length_leBytes, hblank]
    omega
  · have hoffset : ∀ m, 4 + (4 + (20 + m)) = 28 + m := fun m => by omega
    have hsize : ∀ m i, 28 + (m + i) - (28 + m) = i := fun m i => by omega
    simp only [FrostyCollection.layout, FrostyCollection.table, FrostyCollection.iconOffset,
      FrostyCollection.screenshotsOffset, FrostyCollection.iconBytes, List.length_append,
      length_leBytes, hblank, List.append_assoc, hoffset, hsize, Nat.reduceAdd,
      Nat.add_sub_cancel_left, Nat.add_assoc]

theorem write_eq {codec : ManifestCodec} {c : FrostyCollection} (h : c.Fits codec) :
    c.write codec = .ok (c.layout codec) := by
  have hstart : ({} : ByteWriter) = between [] (List.replicate capacity 0) := by
    rw [between, List.nil_append, List.length_nil]
  have hw : (c.writeM codec (between [] (List.replicate capacity 0))).map Prod.fst =
      .ok (c.layout codec) :=
    writeM_eq (by rw [List.length_replicate]; exact h)
  rw [FrostyCollection.write, hstart]
  generalize c.writeM codec (between [] (List.replicate capacity 0)) = r at hw
  cases r with
  | error e => cases hw
  | ok p => exact hw

end

/-! ## Reading -/

section

variable {α β : Type}

theorem file_bind {m : FileM α} {k : α → FileM β} {f f' : RandomAccessFile} {a : α}
    (h : m f = (.ok a, f')) : (m >>= k) f = k a f' := by
  show (ExceptT.bindCont k (m f).1) (m f).2 = k a f'
  rw [h]
  rfl

/-- The bytes are what an open file has at its position. -/
def Takes (m : FileM α) (bytes : List UInt8) (a : α) : Prop :=
  ∀ f tail, f.closed = false → f.content.drop f.position = bytes ++ tail →
    m f = (.ok a, { f with position := f.position + bytes.length })

theorem drop_next {content bytes tail : List UInt8} {position : Nat}
    (h : content.drop position = bytes ++ tail) : content.drop (position + bytes.length) = tail := by
  rw [← List.drop_drop, h, List.drop_left]

theorem takes_readSync (bytes : List UInt8) : Takes (readSync bytes.length) bytes bytes := by
  intro f tail hopen h
  simp only [readSync, hopen, h, List.take_left, Bool.false_eq_true, if_false]

theorem takes_pure (a : α) : Takes (pure a : FileM α) [] a := fun _ _ _ _ => rfl

theorem Takes.bind {m : FileM α} {k : α → FileM β} {bytes bytes' : List UInt8} {a : α} {b : β}
    (h : Takes m bytes a) (h' : Takes (k a) bytes' b) : Takes (m >>= k) (bytes ++ bytes') b := by
  intro f tail hopen hdrop
  rw [List.append_assoc] at hdrop
  rw [file_bind (h f _ hopen hdrop),
    h' { f with position := f.position + bytes.length } tail hopen (drop_next hdrop),
    List.length_append, Nat.add_assoc]

theorem takes_readUint32 {value : Nat} (h : value < 256 ^ 4) :
    Takes readUint32 (leBytes 4 value) value := by
  have hword := takes_readSync (leBytes 4 value)
  rw [length_leBytes] at hword
  intro f tail hopen hdrop
  rw [readUint32, file_bind (hword f tail hopen hdrop)]
  simp only [length_leBytes, leNat_leBytes h, Nat.lt_irrefl, if_false]
  rfl

section

variable {content tail : List UInt8} {position : Nat}

theorem readUint32_at {value : Nat} (hvalue : value < 256 ^ 4)
    (h : content.drop position = leBytes 4 value ++ tail) :
    readUint32 ⟨content, position, false⟩ = (.ok value, ⟨content, position + 4, false⟩) := by
  rw [takes_readUint32 hvalue _ tail rfl h, length_leBytes]

theorem readSync_at {bytes : List UInt8} (h : content.drop position = bytes ++ tail) :
    readSync bytes.length ⟨content, position, false⟩ =
      (.ok bytes, ⟨content, position + bytes.length, false⟩) :=
  takes_readSync bytes _ tail rfl h

theorem setPositionSync_at (content : List UInt8) (position position' : Nat) :
    setPositionSync position' ⟨content, position, false⟩ = (.ok (), ⟨content, position', false⟩) :=
  rfl

theorem pure_at (a : α) (f : RandomAccessFile) : (pure a : FileM α) f = (.ok a, f) := rfl

end

theorem takes_screenshots {screenshots : List (List UInt8)}
    (h : ∀ screenshot ∈ screenshots, screenshot.length < 256 ^ 4) :
    Takes (readScreenshotList screenshots.length) (screenshots.flatMap screenshotBytes)
      screenshots := by
  induction screenshots with
  | nil => exact takes_pure []
  | cons screenshot screenshots ih =>
      rw [List.flatMap_cons, screenshotBytes, List.append_assoc]
      have hrest : Takes (do return screenshot :: (← readScreenshotList screenshots.length))
          (screenshots.flatMap screenshotBytes ++ []) (screenshot :: screenshots) :=
        (ih fun x hx => h x (by simp [hx])).bind (takes_pure _)
      rw [List.append_nil] at hrest
      exact (takes_readUint32 (h screenshot (by simp))).bind ((takes_readSync screenshot).bind hrest)

end

/-! ## The manifest -/

/-- What is known of the generated methods: they write strings and lists of strings under
distinct keys, and read back what they have written. -/
structure JsonSerializable (codec : ManifestCodec) : Prop where
  keys : ∀ m, ((codec.toJson m).map Prod.fst).Nodup
  values : ∀ m, ∀ member ∈ codec.toJson m,
    (∃ s, member.2 = .string s) ∨ ∃ ss : List DartString, member.2 = .list (ss.map .string)
  reads : ∀ m, codec.fromJson (codec.toJson m) = .ok m

theorem plainItems_strings (ss : List DartString) :
    JsonText.plainItems (ss.map .string) = true := by
  induction ss with
  | nil => simp only [List.map_nil, JsonText.plainItems]
  | cons s ss ih => simp only [List.map_cons, JsonText.plainItems, JsonText.plain, ih, Bool.and_self]

theorem plainMembers_of_forall {members : Members}
    (h : ∀ member ∈ members, JsonText.plain member.2 = true) :
    JsonText.plainMembers members = true := by
  induction members with
  | nil => simp only [JsonText.plainMembers]
  | cons member members ih =>
      rw [JsonText.plainMembers, h member (by simp), ih fun x hx => h x (by simp [hx])]
      rfl

variable {codec : ManifestCodec}

theorem JsonSerializable.plain (h : JsonSerializable codec) (m : FrostyCollectionManifest) :
    JsonText.plain (.map (codec.toJson m)) = true := by
  rw [JsonText.plain, Bool.and_eq_true, decide_eq_true_eq]
  refine ⟨h.keys m, plainMembers_of_forall fun member hmember => ?_⟩
  rcases h.values m member hmember with ⟨s, hs⟩ | ⟨ss, hss⟩
  · rw [hs, JsonText.plain]
  · rw [hss, JsonText.plain, plainItems_strings]

theorem decodeManifest_bytes (h : JsonSerializable codec) (m : FrostyCollectionManifest) :
    decodeManifest (m.bytes codec) = pure (codec.toJson m) := by
  have hplain := h.plain m
  have htext : Utf16.decodeUtf8 (m.bytes codec) =
      some (JsonText.encode (.map (codec.toJson m))) := by
    rw [FrostyCollectionManifest.bytes, Utf16.decodeUtf8_encodeUtf8,
      (Utf16.sanitize_eq_iff _).mpr (JsonText.wellFormed_encode _ hplain)]
    rw [JsonText.encode, List.head?_cons]
    decide
  rw [decodeManifest, htext, Option.bind_some, JsonText.decode_encode hplain]

/-! ## Round trip -/

section

variable {c : FrostyCollection}

/-- The numbers in a collection that fits are words. -/
theorem lt_word {n : Nat} (h : n ≤ capacity) : n < 256 ^ 4 := Nat.lt_of_le_of_lt h (by decide)

theorem length_le_flatMap (screenshots : List (List UInt8)) :
    screenshots.length ≤ (screenshots.flatMap screenshotBytes).length := by
  induction screenshots with
  | nil => exact Nat.le_refl 0
  | cons screenshot screenshots ih =>
      rw [List.flatMap_cons, List.length_append, List.length_cons, screenshotBytes,
        List.length_append, length_leBytes]
      omega

theorem length_le_of_mem {screenshot : List UInt8} {screenshots : List (List UInt8)}
    (h : screenshot ∈ screenshots) :
    screenshot.length ≤ (screenshots.flatMap screenshotBytes).length := by
  induction screenshots with
  | nil => cases h
  | cons other screenshots ih =>
      rw [List.flatMap_cons, List.length_append, screenshotBytes, List.length_append]
      rcases List.mem_cons.mp h with rfl | hmem
      · omega
      · have hle := ih hmem
        omega

/-- The mod that a collection is read as. -/
def FrostyCollection.mod (codec : ManifestCodec) (c : FrostyCollection)
    (fileLength : DartString → Option Nat) (filename : DartString) : FrostyMod where
  version := collectionVersion
  gameVersion := 0
  filename
  icon := some c.iconBytes
  size := (c.layout codec).length + (c.manifest.mods.map fun mod => (fileLength mod).getD 0).sum
  isCollection := true
  mods := some c.manifest.mods
  screenshotOffset := c.screenshotsOffset codec
  details := {
    name := c.manifest.title
    author := c.manifest.author
    category := c.manifest.category
    version := c.manifest.version
    description := c.manifest.description
    link := some c.manifest.link }

theorem length_table : (c.table codec).length = 20 := by
  simp only [FrostyCollection.table, List.length_append, length_leBytes]

theorem drop_manifest (codec : ManifestCodec) (c : FrostyCollection) :
    (c.layout codec).drop 28 = c.manifest.bytes codec ++ (c.iconBytes ++ c.screenshotsBytes) := by
  have h0 : (c.layout codec).drop 0 = leBytes 4 frostyMagic ++ _ := rfl
  have h28 := drop_next (drop_next (drop_next h0))
  rw [length_leBytes, length_leBytes, length_table] at h28
  exact h28

theorem drop_icon (codec : ManifestCodec) (c : FrostyCollection) :
    (c.layout codec).drop (c.iconOffset codec) = c.iconBytes ++ c.screenshotsBytes :=
  drop_next (drop_manifest codec c)

theorem drop_screenshots (codec : ManifestCodec) (c : FrostyCollection) :
    (c.layout codec).drop (c.screenshotsOffset codec) = c.screenshotsBytes :=
  drop_next (drop_icon codec c)

theorem readMod_layout (hcodec : JsonSerializable codec) (h : c.Fits codec)
    (fileLength : DartString → Option Nat) (filename : DartString) :
    (readMod codec fileLength filename { content := c.layout codec }).1 =
      .ok (some (c.mod codec fileLength filename)) := by
  simp only [FrostyCollection.Fits, FrostyCollection.sections, List.length_append] at h
  -- The words of the header, each with what is left when it has been read.
  have h0 : (c.layout codec).drop 0 = leBytes 4 frostyMagic ++ _ := rfl
  have h1 := drop_next h0
  have h2 := drop_next h1
  rw [FrostyCollection.table, List.append_assoc, List.append_assoc, List.append_assoc,
    List.append_assoc] at h2
  have h3 := drop_next h2
  have h4 := drop_next h3
  have h5 := drop_next h4
  have h6 := drop_next h5
  simp only [length_leBytes, Nat.zero_add, Nat.reduceAdd] at h1 h2 h3 h4 h5 h6
  simp only [readMod, closing]
  rw [file_bind (readUint32_at (by decide) h0), file_bind (readUint32_at (by decide) h1)]
  simp only [ne_eq, not_true_eq_false, if_false]
  rw [file_bind (readUint32_at (by decide) h2), file_bind (readUint32_at (lt_word (by omega)) h3),
    file_bind (readUint32_at (lt_word (by rw [FrostyCollection.iconOffset]; omega)) h4),
    file_bind (readUint32_at (lt_word (by omega)) h5),
    file_bind (readUint32_at (lt_word (by
      rw [FrostyCollection.screenshotsOffset, FrostyCollection.iconOffset]; omega)) h6)]
  -- The sections at their offsets.
  rw [file_bind (setPositionSync_at _ _ _), file_bind (readSync_at (drop_manifest codec c)),
    decodeManifest_bytes hcodec, file_bind (pure_at _ _), hcodec.reads, readMod.liftExcept,
    file_bind (pure_at _ _), file_bind (setPositionSync_at _ _ _),
    file_bind (readSync_at (drop_icon codec c))]
  rfl

theorem readScreenshots_layout (h : c.Fits codec) (fileLength : DartString → Option Nat)
    (filename : DartString) :
    ((c.mod codec fileLength filename).readScreenshots { content := c.layout codec }).1 =
      .ok c.screenshots := by
  simp only [FrostyCollection.Fits, FrostyCollection.sections, FrostyCollection.screenshotsBytes,
    List.length_append] at h
  have hcount := length_le_flatMap c.screenshots
  have hlist : Takes (readScreenshotList c.screenshots.length) (c.screenshots.flatMap screenshotBytes)
      c.screenshots := by
    refine takes_screenshots fun screenshot hscreenshot => lt_word ?_
    have hle := length_le_of_mem hscreenshot
    omega
  have hboth := (takes_readUint32 (lt_word (show c.screenshots.length ≤ capacity by omega))).bind hlist
  have hread := hboth ⟨c.layout codec, c.screenshotsOffset codec, false⟩ [] rfl
    (by rw [List.append_nil]; exact drop_screenshots codec c)
  rw [FrostyMod.readScreenshots, file_bind (setPositionSync_at _ _ _)]
  exact congrArg Prod.fst hread

/-- A collection that fits the buffer is read back from the bytes that are written for it. -/
theorem readMod_write (hcodec : JsonSerializable codec) (c : FrostyCollection) (h : c.Fits codec)
    (fileLength : DartString → Option Nat) (filename : DartString) :
    ∃ bytes mod, c.write codec = .ok bytes ∧
      (readMod codec fileLength filename { content := bytes }).1 = .ok (some mod) ∧
      mod.details = {
        name := c.manifest.title
        author := c.manifest.author
        category := c.manifest.category
        version := c.manifest.version
        description := c.manifest.description
        link := some c.manifest.link } ∧
      mod.mods = some c.manifest.mods ∧ mod.icon = some (c.icon.getD []) ∧
      (mod.readScreenshots { content := bytes }).1 = .ok c.screenshots :=
  ⟨c.layout codec, c.mod codec fileLength filename, write_eq h,
    readMod_layout hcodec h fileLength filename, rfl, rfl, rfl,
    readScreenshots_layout h fileLength filename⟩

/-! The generated methods, as they are for these fields. -/

def key (name : String) : DartString := name.toList.map fun c => UInt16.ofNat c.toNat

def stringAt (members : Members) (name : String) : Except DartError DartString :=
  match members.lookup (key name) with
  | some (.string s) => .ok s
  | _ => .error (.exception "type cast")

def stringsAt (members : Members) (name : String) : Except DartError (List DartString) :=
  match members.lookup (key name) with
  | some (.list items) => items.mapM fun
      | .string s => .ok s
      | _ => .error (.exception "type cast")
  | _ => .error (.exception "type cast")

def generated : ManifestCodec where
  toJson m := [(key "link", .string m.link), (key "title", .string m.title),
    (key "author", .string m.author), (key "version", .string m.version),
    (key "description", .string m.description), (key "category", .string m.category),
    (key "mods", .list (m.mods.map .string)), (key "modVersions", .list (m.modVersions.map .string))]
  fromJson members := do
    let link ← stringAt members "link"
    let title ← stringAt members "title"
    let author ← stringAt members "author"
    let version ← stringAt members "version"
    let description ← stringAt members "description"
    let category ← stringAt members "category"
    let mods ← stringsAt members "mods"
    let modVersions ← stringsAt members "modVersions"
    return { link, title, author, version, description, category, mods, modVersions }

theorem mapM_strings (ss : List DartString) :
    ((ss.map JsonText.Document.string).mapM fun
      | .string s => .ok s
      | _ => .error (.exception "type cast") : Except DartError (List DartString)) = .ok ss := by
  induction ss with
  | nil => rfl
  | cons s ss ih =>
      rw [List.map_cons, List.mapM_cons, ih]
      rfl

theorem generated_jsonSerializable : JsonSerializable generated where
  keys m := by
    show ["link", "title", "author", "version", "description", "category", "mods",
      "modVersions"].map key |>.Nodup
    decide
  values m member hmember := by
    simp only [generated, List.mem_cons, List.not_mem_nil, or_false] at hmember
    rcases hmember with rfl | rfl | rfl | rfl | rfl | rfl | rfl | rfl
    all_goals first | exact .inl ⟨_, rfl⟩ | exact .inr ⟨_, rfl⟩
  reads m := by
    have hmods : stringsAt (generated.toJson m) "mods" = .ok m.mods := mapM_strings m.mods
    have hversions : stringsAt (generated.toJson m) "modVersions" = .ok m.modVersions :=
      mapM_strings m.modVersions
    simp only [generated] at hmods hversions ⊢
    rw [hmods, hversions]
    rfl

/-- A small collection without an icon. -/
def sampleCollection : FrostyCollection where
  manifest := {
    link := []
    title := key "Plus"
    author := [0xD800]
    version := key "1.0"
    description := key "\"\n"
    category := key "Gameplay"
    mods := [key "a.fbmod", key "b.fbmod"]
    modVersions := [key "1", key "2"] }
  screenshots := [[1, 2], []]

theorem readMod_write_sample :
    ∃ bytes mod, sampleCollection.write generated = .ok bytes ∧
      (readMod generated (fun _ => none) (key "c.fbcollection") { content := bytes }).1 =
        .ok (some mod) ∧
      mod.mods = some [key "a.fbmod", key "b.fbmod"] ∧ mod.icon = some [] ∧
      (mod.readScreenshots { content := bytes }).1 = .ok [[1, 2], []] := by
  obtain ⟨bytes, mod, hwrite, hread, -, hmods, hicon, hscreenshots⟩ :=
    readMod_write generated_jsonSerializable sampleCollection
      (by unfold FrostyCollection.Fits; decide +kernel) (fun _ => none) (key "c.fbcollection")
  exact ⟨bytes, mod, hwrite, hread, hmods, hicon, hscreenshots⟩

end

end Kyber.Collection.Frosty
