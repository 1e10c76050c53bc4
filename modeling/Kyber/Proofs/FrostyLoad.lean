import Kyber.Proofs.FrostyFormat
import Kyber.ModLoader.FrostyMod

/-!
# The game reads the format of mod files

Wherever the format can be read, `RT_FrostyLoadMod` reads it and makes of it what `Mod.load`
says: the mod, unless it is of a version that is not known yet or one of its `res` resources has
more metadata than there is room for. What `fread` does at the end of a file plays no part in
it, since the format has no place there.
-/

namespace Kyber.ModLoader.Rt

open Kyber.Lib Kyber.Frosty

/-! ## What the game makes of a mod -/

/-- `Payload` as the fields of a resource. -/
def dataFields (p : Payload) : DataFields where
  sha1 := p.sha1
  size := p.size.toInt64
  flags := p.flags
  handlerHash := p.handlerHash.toInt32
  userData := p.userData

def typeFields : Kind → Except RtError TypeFields
  | .res resType resRid resMeta =>
      if resMeta.length ≤ 16 then .ok { resType, resRid, resMeta := metaOf resMeta }
      else .error .outOfBounds
  | .chunk rangeStart rangeEnd logicalOffset logicalSize h32 firstMip => .ok {
      rangeStart, rangeEnd, logicalOffset, logicalSize
      h32 := h32.toInt32
      firstMip := if firstMip.toInt32 = -1 ∧ rangeStart ≠ 0 then 0 else firstMip.toInt32 }
  | .bundle name _ => .ok { bundleName := some name }
  | _ => .ok {}

def kindType (k : Kind) : ResourceType := resourceType (k.number + 1)

def loadResource (r : Resource) : Except RtError FrostyResource :=
  (typeFields r.kind).map fun fields =>
    frostyResource (kindType r.kind) r.index r.name (r.payload.elim {} dataFields) r.bundles fields

def loadDetails (d : Details) : FrostyModDetails where
  title := d.title
  author := d.author
  category := d.category
  version := d.version
  description := d.description
  link := d.link

def loadHeader (h : Header) : Except RtError (UInt32 × Int64 × Int32 × Int32) :=
  if 5 < h.version then .error .invalidModHeader
  else .ok (h.version, h.dataOffset.toInt64, h.dataCount.toInt32, h.gameVersion.toInt32)

/-- What the game makes of a mod. -/
def load (m : Mod) : Except RtError FrostyMod := do
  let (version, dataOffset, dataCount, gameVersion) ← loadHeader m.header
  let resources ← m.resources.mapM loadResource
  return { version, dataOffset, dataCount, gameVersion, details := loadDetails m.details, resources }

/-- What the game has room for in the metadata of a resource. -/
def fitsMeta : Kind → Bool
  | .res _ _ resMeta => resMeta.length ≤ 16
  | _ => true

/-- The game knows the version, and has room for all metadata. -/
structure Loadable (m : Mod) : Prop where
  version : m.header.version ≤ 5
  resources : ∀ r ∈ m.resources, fitsMeta r.kind = true

theorem loadResource_of_fitsMeta {r : Resource} (h : fitsMeta r.kind = true) :
    ∃ loaded, loadResource r = .ok loaded := by
  have hfields : ∃ fields, typeFields r.kind = .ok fields := by
    cases hk : r.kind with
    | res resType resRid resMeta =>
        rw [hk, fitsMeta, decide_eq_true_iff] at h
        exact ⟨_, if_pos h⟩
    | embedded => exact ⟨_, rfl⟩
    | ebx => exact ⟨_, rfl⟩
    | chunk _ _ _ _ _ _ => exact ⟨_, rfl⟩
    | bundle _ _ => exact ⟨_, rfl⟩
  obtain ⟨fields, hfields⟩ := hfields
  exact ⟨_, by rw [loadResource, hfields]; rfl⟩

theorem loadResources_of_fitsMeta {rs : List Resource} (h : ∀ r ∈ rs, fitsMeta r.kind = true) :
    ∃ loaded, rs.mapM loadResource = .ok loaded := by
  induction rs with
  | nil => exact ⟨[], rfl⟩
  | cons r rs ih =>
      obtain ⟨hr, hrs⟩ := List.forall_mem_cons.mp h
      obtain ⟨first, hfirst⟩ := loadResource_of_fitsMeta hr
      obtain ⟨others, hothers⟩ := ih hrs
      exact ⟨first :: others, by rw [List.mapM_cons, hfirst, hothers]; rfl⟩

theorem load_of_loadable {m : Mod} (h : Loadable m) : ∃ mod, load m = .ok mod := by
  obtain ⟨loaded, hloaded⟩ := loadResources_of_fitsMeta h.resources
  exact ⟨_, by rw [load, loadHeader, if_neg (UInt32.not_lt.mpr h.version), hloaded]; rfl⟩

/-! ## Files -/

/-- The file is at a place from which this is left. -/
structure CFile.At (content : List UInt8) (f : CFile) (rest : List UInt8) : Prop where
  content_eq : f.content = content
  length_eq : f.position + rest.length = content.length
  rest_eq : f.rest = rest

variable {content : List UInt8}

theorem CFile.At.skip {rest : List UInt8} {f : CFile} (h : f.At content rest) {n : Nat}
    (hn : n ≤ rest.length) :
    ({ f with position := f.position + n } : CFile).At content (rest.drop n) := by
  have hlength := h.length_eq
  refine ⟨h.content_eq, ?_, ?_⟩
  · rw [List.length_drop]
    show f.position + n + (rest.length - n) = content.length
    omega
  · show f.content.drop (f.position + n) = rest.drop n
    rw [← List.drop_drop, ← CFile.rest, h.rest_eq]

theorem fread_follows (object : List UInt8) :
    Follows (CFile.At content) (fread object) (bytes object.length) fun bs => .ok bs := by
  intro f rest bs rest' hf hr
  obtain ⟨hn, rfl, rfl⟩ := bytes_eq_ok hr
  have hlength : (rest.take object.length).length = object.length := List.length_take_of_le hn
  refine ⟨?_, fun e he => by cases he⟩
  intro b hb
  cases hb
  refine ⟨_, ?_, hf.skip hn⟩
  rw [fread, hf.rest_eq, hlength, List.drop_length, List.append_nil]

theorem readFp_follows (n field : Nat) :
    Follows (CFile.At content) (readFp n field) (number n) fun a => .ok a := by
  have hfread := @fread_follows content (leBytes n field)
  rw [length_leBytes] at hfread
  exact hfread.map fun _ => rfl

theorem readUInt32_follows :
    Follows (CFile.At content) readUInt32 word fun w => .ok w :=
  (readFp_follows 4 0).map fun _ => rfl

theorem readUInt64_follows :
    Follows (CFile.At content) readUInt64 long fun l => .ok l :=
  (readFp_follows 8 0).map fun _ => rfl

theorem readInt32_follows :
    Follows (CFile.At content) readInt32 word fun w => .ok w.toInt32 := by
  have h := (@readUInt32_follows content).bind_ok (k := fun w => pure w.toInt32)
    (g := pure) (h := fun w => .ok w.toInt32) fun w => Follows.pure rfl
  rwa [bind_pure] at h

theorem readInt64_follows :
    Follows (CFile.At content) readInt64 long fun l => .ok l.toInt64 := by
  have h := (@readUInt64_follows content).bind_ok (k := fun l => pure l.toInt64)
    (g := pure) (h := fun l => .ok l.toInt64) fun l => Follows.pure rfl
  rwa [bind_pure] at h

theorem readTerminatedString_follows :
    Follows (CFile.At content) readTerminatedString string fun str => .ok str := by
  intro f rest str rest' hf hr
  obtain ⟨hstr, hlt, rfl⟩ := string_eq_ok hr
  refine ⟨?_, fun e he => by cases he⟩
  intro b hb
  cases hb
  refine ⟨_, ?_, hf.skip hlt⟩
  simp only [readTerminatedString, hf.rest_eq, ← hstr]
  rw [if_pos hlt, Nat.add_assoc]

theorem readSizedString_follows :
    Follows (CFile.At content) readSizedString sizedString fun str => .ok str := by
  refine (readFp_follows 1 0).bind_ok fun n => ?_
  have h := @fread_follows content (List.replicate n 0)
  rwa [List.length_replicate] at h

theorem optional_follows {present : Prop} [Decidable present] {m : FpM ByteString}
    (hm : Follows (CFile.At content) m string fun str => .ok str) :
    Follows (CFile.At content)
      (if present then do let str ← m; return some str else return none)
      (Frosty.optional present string) fun str => .ok str := by
  by_cases hpresent : present
  · rw [Frosty.optional, if_pos hpresent, if_pos hpresent]
    exact hm.map fun _ => rfl
  · rw [Frosty.optional, if_neg hpresent, if_neg hpresent]
    exact Follows.pure rfl

/-! ## Resources -/

variable {version : UInt32}

theorem parseName_follows (index : Int32) :
    Follows (CFile.At content) (parseName version index)
      (Frosty.optional (index ≠ -1 ∨ 3 < version) string) fun name => .ok name := by
  have hiff : (version ≤ 3 ∧ index ≠ -1) ∨ version > 3 ↔ index ≠ -1 ∨ 3 < version := by
    rw [← UInt32.not_lt]
    show (¬ 3 < version ∧ index ≠ -1) ∨ 3 < version ↔ _
    tauto
  have hname := @optional_follows content (index ≠ -1 ∨ 3 < version) _ _
    readTerminatedString_follows
  rw [parseName]
  simpa only [hiff] using hname

theorem parseData_follows (index : Int32) :
    Follows (CFile.At content) (parseData version index) (payload version index)
      fun p => .ok (p.elim {} dataFields) := by
  rw [parseData, payload]
  by_cases hindex : index = -1
  · rw [if_neg (not_not_intro hindex), if_pos hindex]
    exact Follows.pure rfl
  · rw [if_pos hindex, if_neg hindex]
    have hsha1 : Follows (CFile.At content) readSha1 (bytes 20) fun bs => .ok bs :=
      fread_follows (List.replicate 20 0)
    refine hsha1.bind_ok fun sha1 => readInt64_follows.bind_ok fun size =>
      (readFp_follows 1 0).bind_ok fun flags => readInt32_follows.bind_ok fun handlerHash => ?_
    exact (optional_follows readTerminatedString_follows).bind_ok fun userData => Follows.pure rfl

/-- Whatever the count was before, it is read over. -/
theorem readCount_follows (count : Int32) :
    Follows (CFile.At content) (readCount count) word fun w => .ok w.toInt32 :=
  (readFp_follows 4 count.toUInt32.toNat).map fun _ => rfl

theorem readMany_ok_follows {α β : Type} {m : FpM β} {r : ParseM α} {f : α → β}
    (hm : Follows (CFile.At content) m r fun a => .ok (f a)) (n : Nat) :
    Follows (CFile.At content) (readMany m n) (readMany r n) fun as => .ok (as.map f) := by
  have hmany := hm.readMany n
  have hmap : List.mapM (fun a => (.ok (f a) : Except RtError β)) = fun as => .ok (as.map f) := by
    funext as
    exact List.mapM_pure
  rwa [hmap] at hmany

theorem hashes_follows (n : Nat) :
    Follows (CFile.At content) (readMany readUInt32 n) (readMany word n) fun ws => .ok ws := by
  simpa using readMany_ok_follows readUInt32_follows n

theorem parseAddedBundles_follows (index : Int32) :
    Follows (CFile.At content) (parseAddedBundles version index) (bundleLists version index)
      fun lists => .ok lists.2 := by
  have hone : Follows (CFile.At content) (do
      let count ← readCount 0
      readMany readUInt32 count.toNatClampNeg) words fun ws => .ok ws :=
    (readCount_follows 0).bind_ok fun count => hashes_follows _
  rw [parseAddedBundles, bundleLists]
  by_cases hversion : 3 < version
  · rw [if_neg fun h => UInt32.not_lt.mpr h.1 hversion, if_pos hversion, if_pos hversion]
    have h := hone.bind_ok (k := pure) (g := fun ws => pure (([] : List UInt32), ws))
      (h := fun lists => .ok lists.2) fun ws => Follows.pure rfl
    rwa [bind_pure] at h
  · rw [if_neg (c := version > 3) hversion, if_neg hversion]
    by_cases hindex : index = -1
    · rw [if_neg fun h => h.2 hindex, if_pos hindex]
      exact Follows.pure rfl
    · rw [if_pos ⟨UInt32.not_lt.mp hversion, hindex⟩, if_neg hindex, words, bind_assoc]
      refine (readCount_follows 0).bind_ok fun count => ?_
      refine (readMany_ok_follows readInt32_follows _).bind_ok fun skipped => ?_
      rw [bind_assoc]
      refine (readCount_follows _).bind_ok fun count => ?_
      have h := (@hashes_follows content count.toInt32.toNatClampNeg).bind_ok
        (k := pure) (g := fun ws => pure (skipped, ws)) (h := fun lists => .ok lists.2)
        fun ws => Follows.pure rfl
      rwa [bind_pure] at h

/-- The metadata, if there is room for them. -/
def loadMeta (resMeta : List UInt8) : Except RtError (Vector UInt8 16) :=
  if resMeta.length ≤ 16 then .ok (metaOf resMeta) else .error .outOfBounds

theorem readMeta_follows :
    Follows (CFile.At content) (readInt32 >>= readMeta) block loadMeta := by
  refine readInt32_follows.bind_ok fun size => ?_
  by_cases hneg : size.toInt32 < 0
  · rw [if_pos hneg]
    exact Follows.throw_right _
  · rw [if_neg hneg]
    intro f rest bs rest' hf hr
    obtain ⟨hn, hbs, rfl⟩ := bytes_eq_ok hr
    have hlength : bs.length = size.toInt32.toNatClampNeg := by
      rw [hbs, List.length_take_of_le hn]
    have hread : readMeta size.toInt32 f = if bs.length ≤ 16 then
        .ok (metaOf bs, { f with position := f.position + bs.length }) else .error .outOfBounds := by
      simp only [readMeta, if_neg hneg, hf.rest_eq, ← hbs]
    rw [hread, loadMeta]
    by_cases hroom : bs.length ≤ 16
    · rw [if_pos hroom, if_pos hroom]
      refine ⟨fun b hb => ?_, fun e he => by cases he⟩
      cases hb
      refine ⟨_, rfl, ?_⟩
      rw [hlength]
      exact hf.skip hn
    · rw [if_neg hroom, if_neg hroom]
      constructor
      · intro b hb
        cases hb
      · intro e he
        cases he
        rfl

theorem parseBundleName_follows (version : UInt32) (resourceIndex : Int32) :
    Follows (CFile.At content) (parseBundleName version resourceIndex) string
      fun str => .ok str := by
  intro f rest str rest' hf hr
  obtain ⟨hok, -⟩ := readTerminatedString_follows f rest str rest' hf hr
  refine ⟨fun b hb => ?_, fun e he => by cases he⟩
  obtain ⟨f', hname, hplace⟩ := hok b hb
  exact ⟨f', by rw [parseBundleName, hname], hplace⟩

theorem parseType_follows (version : UInt32) (resourceIndex : Int32) {n : Nat} (hn : n ≤ 4) :
    Follows (CFile.At content) (parseType version resourceIndex (resourceType (n + 1))) (kind n)
      typeFields := by
  match n, hn with
  | 0, _ => exact Follows.pure rfl
  | 1, _ => exact Follows.pure rfl
  | 2, _ =>
      refine readUInt32_follows.bind_ok fun resType => readUInt64_follows.bind_ok fun resRid => ?_
      have hmeta : ∀ k : Vector UInt8 16 → FpM TypeFields,
          (readInt32 >>= fun size => readMeta size >>= k) = (readInt32 >>= readMeta) >>= k :=
        fun k => (bind_assoc _ _ _).symm
      show Follows _ (readInt32 >>= fun size => readMeta size >>= _) _ _
      rw [hmeta]
      refine readMeta_follows.bind ?_ ?_
      · intro resMeta fields hfields
        refine Follows.pure ?_
        rw [loadMeta] at hfields
        split at hfields
        · next hroom =>
            cases hfields
            exact if_pos hroom
        · cases hfields
      · intro resMeta e he s k s' hk
        cases hk
        rw [loadMeta] at he
        split at he
        · cases he
        · next hroom =>
            cases he
            exact if_neg hroom
  | 3, _ =>
      refine readUInt32_follows.bind_ok fun rangeStart => readUInt32_follows.bind_ok fun rangeEnd =>
        readUInt32_follows.bind_ok fun logicalOffset =>
          readUInt32_follows.bind_ok fun logicalSize => ?_
      exact readInt32_follows.bind_ok fun h32 => readInt32_follows.bind_ok fun firstMip =>
        Follows.pure rfl
  | 4, _ =>
      exact (parseBundleName_follows version resourceIndex).bind_ok fun name =>
        readInt32_follows.bind_ok fun superBundle => Follows.pure rfl

theorem frostyParseResource_follows :
    Follows (CFile.At content) (frostyParseResource version) (resource version) loadResource := by
  refine (readFp_follows 1 0).bind_ok fun type => ?_
  by_cases htype : type > 4
  · rw [if_pos htype]
    exact Follows.throw_right _
  rw [if_neg htype]
  refine readInt32_follows.bind_ok fun index => (parseName_follows _).bind_ok fun name =>
    (parseData_follows _).bind_ok fun p => (parseAddedBundles_follows _).bind_ok fun lists => ?_
  have hkind : Follows (CFile.At content)
      (parseType version index.toInt32 (resourceType (type + 1)) >>= fun fields =>
        pure (frostyResource (resourceType (type + 1)) index.toInt32 name (p.elim {} dataFields)
          lists.2 fields))
      (kind type >>= fun k => (pure { index := index.toInt32, name, payload := p
                                      skipped := lists.1, bundles := lists.2, kind := k } :
        ParseM Resource))
      fun r : Resource => (typeFields r.kind).map fun fields => frostyResource (resourceType (type + 1))
        r.index r.name (r.payload.elim {} dataFields) r.bundles fields := by
    refine (parseType_follows version index.toInt32 (by omega)).bind ?_ ?_
    · intro k fields hfields
      exact Follows.pure (by rw [hfields]; rfl)
    · intro k e he s r s' hr
      cases hr
      rw [he]
      rfl
  refine hkind.congr (P := fun r => r.kind.number = type) ?_ ?_
  · exact (kind_number type).bind fun k hk => Yields.pure hk
  · intro r hr
    rw [loadResource, kindType, hr]

theorem frostyParseResources_follows :
    Follows (CFile.At content) (frostyParseResources version) (resources version)
      (List.mapM loadResource) :=
  readInt32_follows.bind_ok fun _ => frostyParseResource_follows.readMany _

/-! ## Mods -/

theorem parseModHeader_follows :
    Follows (CFile.At content) parseModHeader header loadHeader := by
  refine readUInt64_follows.bind_ok fun magic' => readUInt32_follows.bind_ok fun version => ?_
  by_cases hmod : magic' ≠ magic ∨ version < 1
  · rw [if_pos hmod]
    exact Follows.throw_right _
  rw [if_neg hmod]
  by_cases hknown : 5 < version
  · rw [if_pos (.inr (.inr hknown))]
    refine Follows.throw_left ?_
    refine (Yields.true _).bind fun _ _ => (Yields.true _).bind fun _ _ =>
      (Yields.true _).bind fun profile' _ => ?_
    split
    · exact Yields.throw _
    · exact (Yields.true _).bind fun _ _ => Yields.pure (if_pos hknown)
  rw [if_neg fun h => h.elim (fun hne => hmod (.inl hne)) fun h => h.elim (fun hlt => hmod (.inr hlt))
    hknown]
  refine readInt64_follows.bind_ok fun dataOffset => readInt32_follows.bind_ok fun dataCount =>
    readSizedString_follows.bind_ok fun profile' => ?_
  by_cases hprofile : profile'.map lower ≠ profile
  · rw [if_pos hprofile]
    exact Follows.throw_right _
  · rw [if_neg hprofile]
    exact readInt32_follows.bind_ok fun gameVersion => Follows.pure (if_neg hknown)

theorem parseModDetails_follows :
    Follows (CFile.At content) (parseModDetails version) (details version)
      fun d => .ok (loadDetails d) := by
  refine readTerminatedString_follows.bind_ok fun title =>
    readTerminatedString_follows.bind_ok fun author =>
      readTerminatedString_follows.bind_ok fun category =>
        readTerminatedString_follows.bind_ok fun modVersion =>
          readTerminatedString_follows.bind_ok fun description => ?_
  exact (optional_follows readTerminatedString_follows).bind_ok fun link => Follows.pure rfl

/-- The game makes of a file what it is in the format. -/
theorem frostyLoadMod_follows : Follows (CFile.At content) frostyLoadMod parse load := by
  refine parseModHeader_follows.bind ?_ ?_
  · intro h fields hfields
    have hversion : fields.1 = h.version := by
      rw [loadHeader] at hfields
      split at hfields
      · cases hfields
      · cases hfields
        rfl
    show Follows _ (parseModDetails fields.1 >>= fun _ => frostyParseResources fields.1 >>= _) _ _
    rw [hversion]
    refine parseModDetails_follows.bind_ok fun d => frostyParseResources_follows.bind ?_ ?_
    · intro rs resources hrs
      refine Follows.pure ?_
      simp only [load, hfields, hrs, ← hversion]
      rfl
    · intro rs e he s m s' hm
      cases hm
      simp only [load, hfields, he]
      rfl
  · intro h e he s m s' hm
    obtain ⟨d, s₁, -, hm⟩ := bind_apply_eq_ok.mp hm
    obtain ⟨rs, s₂, -, hm⟩ := bind_apply_eq_ok.mp hm
    cases hm
    simp only [load, he]
    rfl

/-- A whole file. -/
theorem frostyLoadMod_eq {m : Mod} {rest : List UInt8} (h : parse content = .ok (m, rest)) :
    (frostyLoadMod { content }).map Prod.fst = load m := by
  have hstart : CFile.At content { content } content := ⟨rfl, Nat.zero_add _, rfl⟩
  have hm := frostyLoadMod_follows _ content m rest hstart h
  cases hl : load m with
  | error e =>
      rw [hm.2 e hl]
      rfl
  | ok mod =>
      obtain ⟨f, hf, -⟩ := hm.1 mod hl
      rw [hf]
      rfl

end Kyber.ModLoader.Rt
