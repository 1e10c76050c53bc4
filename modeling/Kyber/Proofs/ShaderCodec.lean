import Kyber.ModLoader.ShaderBlocks
import Kyber.Proofs.ByteBuffer

/-!
# Shader block depots are read as they are written

As for the manifests, the file is described once, as a list of bytes, and reading and
writing are compared with it. A block takes one stretch of the file: its payload,
zeros up to a multiple of eight, and the record, which points back at the payload.
What a stretch looks like depends on where it starts, so the description of the blocks
takes the position and hands it on (`blocksBytes`).

A reader that jumps is described by what it answers in a buffer of given bytes,
whatever its cursor (`Finds`); a record is found wherever its stretch is in the file.
-/

namespace Kyber.ModLoader

open Kyber.Lib

/-! ## Reading at a position -/

section

variable {α β : Type} {F : List UInt8}

/-- In a buffer of the bytes `F` with `bs` left, `r` answers `a`. -/
def FindsFrom (F bs : List UInt8) (r : BufM α) (a : α) : Prop :=
  ∀ s : ByteBuffer, s.buf = F → s.rest = bs → ∃ s', r s = .ok (a, s') ∧ s'.buf = F

/-- In a buffer of the bytes `F`, `r` answers `a`. -/
def Finds (F : List UInt8) (r : BufM α) (a : α) : Prop :=
  ∀ s : ByteBuffer, s.buf = F → ∃ s', r s = .ok (a, s') ∧ s'.buf = F

theorem Finds.pure (a : α) : Finds F (Pure.pure a) a := fun s hs => ⟨s, rfl, hs⟩

theorem Finds.bind {r : BufM α} {f : α → BufM β} {a : α} {b : β} (hr : Finds F r a)
    (hf : Finds F (f a) b) : Finds F (r >>= f) b := by
  intro s hs
  obtain ⟨s₁, h₁, hs₁⟩ := hr s hs
  obtain ⟨s₂, h₂, hs₂⟩ := hf s₁ hs₁
  exact ⟨s₂, by rw [BufM.bind_ok h₁, h₂], hs₂⟩

theorem Finds.from {r : BufM α} {a : α} (h : Finds F r a) (bs : List UInt8) : FindsFrom F bs r a :=
  fun s hs _ => h s hs

theorem Reads.findsFrom {r : BufM α} {a : α} {bs : List UInt8} (h : Reads r bs a)
    (tail : List UInt8) : FindsFrom F (bs ++ tail) r a :=
  fun s hs hrest => ⟨_, h F s tail hs hrest, hs⟩

theorem Reads.bind_findsFrom {r : BufM α} {f : α → BufM β} {a : α} {b : β}
    {bs tail : List UInt8} (hr : Reads r bs a) (hf : FindsFrom F tail (f a) b) :
    FindsFrom F (bs ++ tail) (r >>= f) b := by
  intro s hs hrest
  rw [hr.bind_apply hrest]
  exact hf _ hs (ByteBuffer.rest_skip hrest)

theorem FindsFrom.map {r : BufM α} {a : α} {bs : List UInt8} (h : FindsFrom F bs r a)
    (f : α → β) : FindsFrom F bs (r >>= fun x => Pure.pure (f x)) (f a) := by
  intro s hs hrest
  obtain ⟨s', h', hs'⟩ := h s hs hrest
  exact ⟨s', by rw [BufM.bind_ok h']; rfl, hs'⟩

theorem seek_finds {f : Unit → BufM β} {b : β} {A tail : List UInt8} (hF : F = A ++ tail)
    (hA : A.length < 2 ^ 32) (hf : FindsFrom F tail (f ()) b) :
    Finds F (seek (UInt64.ofNat A.length) >>= f) b := by
  intro s hs
  have hpos : (UInt64.ofNat A.length).toNat % 2 ^ 32 = A.length := by
    rw [UInt64.toNat_ofNat']
    omega
  refine hf { s with rpos := (UInt64.ofNat A.length).toNat % 2 ^ 32 } hs ?_
  show s.buf.drop _ = tail
  rw [hpos, hs, hF, List.drop_left]

end

/-! ## Parameters -/

/-- The lower half of a parameter's name hash. -/
def lowName (parameterHash : UInt64) : UInt32 := ((parameterHash >>> 48) &&& 0xFFFF).toUInt32

/-- What every parameter that has been read is like. -/
structure ParameterEntry.WellFormed (p : ParameterEntry) : Prop where
  name : ∃ high : UInt16, p.nameHash = high.toUInt32 <<< 16 ||| lowName p.parameterHash
  size : p.value.length < 2 ^ 31
  texture : p.typeHash = iTexture → p.value.length = 16

def ParameterEntry.storedSize (p : ParameterEntry) : UInt32 :=
  if p.typeHash = iTexture then 1 else UInt32.ofNat p.value.length

def ParameterEntry.bytes (p : ParameterEntry) : List UInt8 :=
  leBytes 8 p.parameterHash.toNat ++ (leBytes 4 p.typeHash.toNat ++ (leBytes 2 p.used.toNat ++
    (leBytes 2 (p.nameHash >>> 16).toUInt16.toNat ++ (leBytes 4 p.storedSize.toNat ++ p.value))))

theorem lowName_lt (parameterHash : UInt64) : (lowName parameterHash).toNat < 2 ^ 16 := by
  rw [lowName, UInt64.toNat_toUInt32, UInt64.toNat_and]
  have : (parameterHash >>> 48).toNat &&& (0xFFFF : UInt64).toNat ≤ 0xFFFF := Nat.and_le_right
  omega

/-- The upper half of a name hash is the number that it was made from. -/
theorem high_nameHash (high : UInt16) {low : UInt32} (hlow : low.toNat < 2 ^ 16) :
    ((high.toUInt32 <<< 16 ||| low) >>> 16).toUInt16 = high := by
  have hhigh := high.toNat_lt
  have hshift : (high.toUInt32 <<< 16).toNat = high.toNat <<< 16 := by
    rw [UInt32.toNat_shiftLeft, UInt16.toNat_toUInt32]
    have : high.toNat <<< 16 < 2 ^ 32 := by
      rw [Nat.shiftLeft_eq]
      omega
    exact Nat.mod_eq_of_lt this
  have hor : (high.toUInt32 <<< 16 ||| low).toNat = high.toNat * 2 ^ 16 + low.toNat := by
    rw [UInt32.toNat_or, hshift, ← Nat.shiftLeft_add_eq_or_of_lt hlow, Nat.shiftLeft_eq]
  apply UInt16.toNat_inj.mp
  rw [UInt32.toNat_toUInt16, UInt32.toNat_shiftRight, hor]
  show (high.toNat * 2 ^ 16 + low.toNat) >>> 16 % 2 ^ 16 = high.toNat
  rw [Nat.shiftRight_eq_div_pow]
  omega

theorem ParameterEntry.write_emits (p : ParameterEntry) : Emits p.write p.bytes :=
  (putLong_emits _).bind ((putInt_emits _).bind ((putShort_emits _).bind
    ((putShort_emits _).bind ((putInt_emits _).bind (append_emits _)))))

theorem ParameterEntry.read_reads {p : ParameterEntry} (h : p.WellFormed) :
    Reads ParameterEntry.read p.bytes p := by
  obtain ⟨high, hname⟩ := h.name
  have hhigh : (p.nameHash >>> 16).toUInt16 = high := by
    rw [hname, high_nameHash high (lowName_lt _)]
  have hsize : (if p.typeHash = iTexture then 16 else p.storedSize) = UInt32.ofNat p.value.length := by
    rw [storedSize]
    split
    · next htexture =>
        rw [h.texture htexture]
        rfl
    · rfl
  have hlength : (UInt32.ofNat p.value.length).toNat = p.value.length := by
    rw [UInt32.toNat_ofNat', Nat.mod_eq_of_lt]
    have := h.size
    omega
  rw [ParameterEntry.read, bytes, hhigh]
  refine (getLong_reads _).bind ((getInt_reads _).bind ((getShort_reads _).bind
    ((getShort_reads high).bind ((getInt_reads _).bind ?_))))
  rw [hsize]
  dsimp only
  rw [hlength, if_pos h.size]
  have hp : { p with nameHash := high.toUInt32 <<< 16 ||| lowName p.parameterHash } = p := by
    rw [← hname]
  have hvalue := (getBytes_reads p.value).map fun value =>
    ({ p with nameHash := high.toUInt32 <<< 16 ||| lowName p.parameterHash, value } : ParameterEntry)
  rw [hp] at hvalue
  exact hvalue

/-! ## Blocks -/

theorem writePadding_appends (alignment : Nat) (ha : 0 < alignment) (L : List UInt8) :
    Appends L (writePadding alignment) (zeros alignment L.length) () :=
  padRounds_appends ha alignment (Nat.mod_lt _ ha)

def parametersBytes (parameters : List ParameterEntry) : List UInt8 :=
  leBytes 4 (UInt32.ofNat parameters.length).toNat ++ parameters.flatMap ParameterEntry.bytes

namespace ShaderBlock

/-- What the record points at. -/
def payload : ShaderBlock UInt32 → List UInt8
  | .entry resources | .staticParamDb resources => resources.flatMap fun i => leBytes 4 i.toNat
  | .persistentParamDb parameters | .meshParamDb _ _ parameters => parametersBytes parameters
  | .meshVariation refs => refs.flatMap fun ref => ref.1.toList ++ leBytes 4 ref.2.toNat

/-- The fields of the record behind the position of its payload. -/
def fields : ShaderBlock UInt32 → List UInt8
  | .entry resources | .staticParamDb resources => leBytes 8 (UInt64.ofNat resources.length).toNat
  | .persistentParamDb parameters =>
      leBytes 8 (UInt64.ofNat (parametersBytes parameters).length).toNat
  | .meshParamDb guid lodIndex parameters =>
      leBytes 4 (UInt32.ofNat (parametersBytes parameters).length).toNat ++
        (leBytes 4 lodIndex.toNat ++ guid.toList)
  | .meshVariation refs => leBytes 8 (UInt64.ofNat refs.length).toNat

end ShaderBlock

namespace ShaderBlockResource

variable (r : ShaderBlockResource UInt32)

/-- What stands before the record of a block that starts at `p`. -/
def before (p : Nat) : List UInt8 := r.block.payload ++ zeros 8 (p + r.block.payload.length)

def record (p : Nat) : List UInt8 :=
  leBytes 8 r.hash.toNat ++ (leBytes 8 (UInt64.ofNat p).toNat ++ r.block.fields)

/-- A block that starts at `p`. -/
def bytes (p : Nat) : List UInt8 := r.before p ++ r.record p

/-- Where the record is. -/
def start (p : Nat) : Nat := p + (r.before p).length

def pos (p : Nat) : RecordPos := ⟨r.start p, r.start p + 8⟩

end ShaderBlockResource

/-- The blocks one after the other, the first at `p`. -/
def blocksBytes : Nat → List (ShaderBlockResource UInt32) → List UInt8
  | _, [] => []
  | p, r :: rs => r.bytes p ++ blocksBytes (p + (r.bytes p).length) rs

/-- Where their records are. -/
def starts : Nat → List (ShaderBlockResource UInt32) → List Nat
  | _, [] => []
  | p, r :: rs => r.start p :: starts (p + (r.bytes p).length) rs

/-! ## Writing the blocks -/

theorem writeParameters_appends (L : List UInt8) (parameters : List ParameterEntry) :
    Appends L (writeParameters parameters) (parametersBytes parameters)
      (parametersBytes parameters).length := by
  let count := leBytes 4 (UInt32.ofNat parameters.length).toNat
  let rows := parameters.flatMap ParameterEntry.bytes
  have hsize := (getWritePos_appends (L ++ count ++ rows)).map fun stop => stop - L.length
  have hlength : (L ++ count ++ rows).length - L.length = (parametersBytes parameters).length := by
    rw [List.append_assoc, List.length_append, Nat.add_sub_cancel_left]
    rfl
  rw [hlength] at hsize
  refine (getWritePos_appends L).bind_nil ((putInt_emits _ L).bind ?_)
  have hrows : Emits (parameters.forM ParameterEntry.write) rows :=
    forM_emits fun p _ => p.write_emits
  have h := (hrows (L ++ count)).bind (f := fun _ => do return (← getWritePos) - L.length) hsize
  rw [List.append_nil] at h
  exact h

theorem writeHash_appends (L : List UInt8) (hash : UInt64) :
    Appends L (writeHash hash) (leBytes 8 hash.toNat) ⟨L.length, L.length + 8⟩ := by
  have hpos := (getWritePos_appends (L ++ leBytes 8 hash.toNat)).map (RecordPos.mk L.length)
  rw [List.length_append, length_leBytes] at hpos
  have h := (putLong_emits hash L).bind (f := fun _ => do
    return RecordPos.mk L.length (← getWritePos)) hpos
  rw [List.append_nil] at h
  exact (getWritePos_appends L).bind_nil h

/-- What `Write` puts behind a payload: the zeros, the hash, and with the offset the
other fields. -/
theorem writeRecord_appends (r : ShaderBlockResource UInt32) {L : List UInt8}
    {f : RecordPos → BufM RecordPos}
    (hf : ∀ M pos, Appends M (f pos) (leBytes 8 (UInt64.ofNat L.length).toNat ++ r.block.fields)
      pos) :
    Appends (L ++ r.block.payload) (do
        writePadding 0x08
        let pos ← writeHash r.hash
        f pos)
      (zeros 8 (L.length + r.block.payload.length) ++ r.record L.length) (r.pos L.length) := by
  have hpad := writePadding_appends 8 (by decide) (L ++ r.block.payload)
  rw [List.length_append] at hpad
  have hstart : (L ++ r.block.payload ++ zeros 8 (L.length + r.block.payload.length)).length
      = r.start L.length := by
    rw [ShaderBlockResource.start, ShaderBlockResource.before, List.append_assoc,
      List.length_append]
  have hhash := writeHash_appends
    (L ++ r.block.payload ++ zeros 8 (L.length + r.block.payload.length)) r.hash
  rw [hstart] at hhash
  exact hpad.bind (hhash.bind (hf _ _))

theorem writeStatic_appends {r : ShaderBlockResource UInt32} {resources : List UInt32}
    (hpayload : r.block.payload = resources.flatMap fun i => leBytes 4 i.toNat)
    (hfields : r.block.fields = leBytes 8 (UInt64.ofNat resources.length).toNat)
    (L : List UInt8) :
    Appends L (writeStatic r.hash resources) (r.bytes L.length) (r.pos L.length) := by
  have hrefs : Emits (resources.forM putInt) r.block.payload := by
    rw [hpayload]
    exact forM_emits fun i _ => putInt_emits i
  rw [ShaderBlockResource.bytes, ShaderBlockResource.before, List.append_assoc]
  refine (getWritePos_appends L).bind_nil ((hrefs L).bind (writeRecord_appends r fun M pos => ?_))
  rw [hfields]
  exact (putLong_emits _ M).bind ((putLong_emits _ _).map fun _ => pos)

theorem ShaderBlockResource.write_appends (r : ShaderBlockResource UInt32) (L : List UInt8) :
    Appends L r.write (r.bytes L.length) (r.pos L.length) := by
  obtain ⟨index, hash, block⟩ := r
  cases block with
  | entry resources => exact writeStatic_appends rfl rfl L
  | staticParamDb resources => exact writeStatic_appends rfl rfl L
  | persistentParamDb parameters =>
      rw [bytes, before, List.append_assoc]
      refine (getWritePos_appends L).bind_nil ((writeParameters_appends L parameters).bind
        (writeRecord_appends ⟨index, hash, .persistentParamDb parameters⟩ fun M pos => ?_))
      exact (putLong_emits _ M).bind ((putLong_emits _ _).map fun _ => pos)
  | meshParamDb guid lodIndex parameters =>
      rw [bytes, before, List.append_assoc]
      refine (getWritePos_appends L).bind_nil ((writeParameters_appends L parameters).bind
        (writeRecord_appends ⟨index, hash, .meshParamDb guid lodIndex parameters⟩ fun M pos => ?_))
      have hguid : Emits (putBytes guid.toList 16) guid.toList := by
        have h := append_emits guid.toList
        rw [append, Vector.length_toList] at h
        exact h
      exact (putLong_emits _ M).bind ((putInt_emits _ _).bind ((putInt_emits _ _).bind
        ((hguid _).map fun _ => pos)))
  | meshVariation refs =>
      have hrefs : Emits (refs.forM fun ref => do
          putBytes ref.1.toList 16
          putInt ref.2) (ShaderBlock.meshVariation refs).payload := by
        refine forM_emits fun ref _ => ?_
        have h := append_emits ref.1.toList
        rw [append, Vector.length_toList] at h
        exact h.bind (putInt_emits _)
      rw [bytes, before, List.append_assoc]
      refine (getWritePos_appends L).bind_nil ((hrefs L).bind
        (writeRecord_appends ⟨index, hash, .meshVariation refs⟩ fun M pos => ?_))
      exact (putLong_emits _ M).bind ((putLong_emits _ _).map fun _ => pos)

/-- The relocation table of the blocks from the one with the index `i` on, which
starts at `p`. -/
def relocs : Nat → Nat → List (ShaderBlockResource UInt32) → List UInt32
  | _, _, [] => []
  | i, p, r :: rs => UInt32.ofNat (r.start p + 8) :: UInt32.ofNat (i * 0x10) ::
      relocs (i + 1) (p + (r.bytes p).length) rs

theorem writeRecords_appends (rs : List (ShaderBlockResource UInt32)) (i : Nat) (L : List UInt8) :
    Appends L (writeRecords i rs) (blocksBytes L.length rs)
      (starts L.length rs, relocs i L.length rs) := by
  induction rs generalizing i L with
  | nil => exact Appends.pure L _
  | cons r rs ih =>
      have hrest := ih (i + 1) (L ++ r.bytes L.length)
      rw [List.length_append] at hrest
      exact (r.write_appends L).bind (hrest.map fun rest =>
        ((r.pos L.length).startOffset :: rest.1,
          UInt32.ofNat (r.pos L.length).pointer :: UInt32.ofNat (i * 0x10) :: rest.2))

def directoryBytes (offsets : List Nat) (rs : List (ShaderBlockResource UInt32)) : List UInt8 :=
  (offsets.zip rs).flatMap fun (offset, r) =>
    leBytes 8 (UInt64.ofNat offset).toNat ++ leBytes 8 r.block.type.value.toNat

/-- Everything behind the directory. -/
def bodyBytes (rs : List (ShaderBlockResource UInt32)) : List UInt8 :=
  blocksBytes (16 * rs.length) rs ++
    zeros 16 (16 * rs.length + (blocksBytes (16 * rs.length) rs).length)

/-- The file. -/
def depotBytes (rs : List (ShaderBlockResource UInt32)) : List UInt8 :=
  directoryBytes (starts (16 * rs.length) rs) rs ++ bodyBytes rs

@[simp] theorem length_starts (rs : List (ShaderBlockResource UInt32)) (p : Nat) :
    (starts p rs).length = rs.length := by
  induction rs generalizing p with
  | nil => rfl
  | cons r rs ih => rw [starts, List.length_cons, List.length_cons, ih]

theorem length_directoryBytes {offsets : List Nat} {rs : List (ShaderBlockResource UInt32)}
    (h : offsets.length = rs.length) : (directoryBytes offsets rs).length = 16 * rs.length := by
  rw [directoryBytes, length_flatMap_const (k := 16)]
  · rw [List.length_zip, h, Nat.min_self]
  · intro entry
    simp

theorem length_depotBytes (rs : List (ShaderBlockResource UInt32)) :
    (depotBytes rs).length = 16 * rs.length + (bodyBytes rs).length := by
  rw [depotBytes, List.length_append, length_directoryBytes (length_starts rs _)]

/-- A depot that fits in 32-bit positions is written as described. -/
theorem writeDepot_run {rs : List (ShaderBlockResource UInt32)}
    (hfits : (depotBytes rs).length < 2 ^ 32) :
    ∃ s, (writeDepot rs).run {} =
        .ok (((depotBytes rs).length, relocs 0 (16 * rs.length) rs), s) ∧
      s.buf = depotBytes rs := by
  rw [length_depotBytes, bodyBytes, List.length_append] at hfits
  let empty := rs.flatMap fun _ => leBytes 8 (0 : UInt64).toNat ++ leBytes 8 (0 : UInt64).toNat
  have hempty : empty.length = 16 * rs.length := length_flatMap_const (fun _ => by simp) rs
  have hloop : Emits (rs.forM fun _ => do putLong 0; putLong 0) empty :=
    forM_emits fun _ _ => (putLong_emits 0).bind (putLong_emits 0)
  obtain ⟨s₁, h₁, hs₁, hb₁⟩ := hloop [] {} ByteBuffer.holds_nil (by rw [List.length_nil]; omega)
  have hb₁ := hb₁ (.inl rfl)
  rw [List.nil_append] at hs₁ hb₁
  have hrecords := writeRecords_appends rs 0 empty
  rw [hempty] at hrecords
  obtain ⟨s₂, h₂, hs₂, hb₂⟩ := hrecords s₁ hs₁ (by omega)
  have hpad := writePadding_appends 16 (by decide)
    (empty ++ blocksBytes (16 * rs.length) rs)
  rw [List.length_append, hempty] at hpad
  obtain ⟨s₃, h₃, hs₃, hb₃⟩ := hpad s₂ hs₂ (by
    rw [List.length_append]
    omega)
  have hb₃ := hb₃ (.inl (hb₂ (.inl hb₁)))
  rw [List.append_assoc] at hb₃ hs₃
  have hwpos : s₃.wpos = (depotBytes rs).length := by
    rw [hs₃.wpos_eq, List.length_append, hempty, length_depotBytes]
    rfl
  -- The directory is written over the zeros at the start.
  have hdirectory : Overwrites ((starts (16 * rs.length) rs).zip rs |>.forM fun (offset, r) => do
      putLong (UInt64.ofNat offset)
      putLong r.block.type.value) (directoryBytes (starts (16 * rs.length) rs) rs) :=
    forM_overwrites fun _ => (Overwrites.append _).bind (Overwrites.append _)
  obtain ⟨s₅, h₅, hb₅, -⟩ := hdirectory { s₃ with wpos := 0 } [] empty (bodyBytes rs) hb₃ rfl
    (by rw [hempty, length_directoryBytes (length_starts rs _)]) (by
      show s₃.buf.length < 2 ^ 32
      rw [hb₃, List.length_append, hempty, List.length_append]
      omega)
  have hsize : getWritePos s₃ = .ok ((depotBytes rs).length, s₃) := by
    rw [← hwpos]
    rfl
  have hback : setWritePos 0 s₃ = .ok ((), { s₃ with wpos := 0 }) := rfl
  refine ⟨s₅, ?_, hb₅⟩
  show writeDepot rs {} = _
  rw [writeDepot, BufM.bind_ok h₁, BufM.bind_ok h₂]
  dsimp only
  rw [BufM.bind_ok h₃, BufM.bind_ok hsize, BufM.bind_ok hback, BufM.bind_ok h₅]
  rfl

/-! ## Reading the blocks -/

/-- What every block that has been read is like. -/
def ShaderBlock.WellFormed : ShaderBlock UInt32 → Prop
  | .persistentParamDb parameters | .meshParamDb _ _ parameters =>
      ∀ p ∈ parameters, p.WellFormed
  | _ => True

theorem readParameters_reads {parameters : List ParameterEntry}
    (hlength : parameters.length < 2 ^ 32) (h : ∀ p ∈ parameters, p.WellFormed) :
    Reads readParameters (parametersBytes parameters) parameters := by
  intro F
  refine (getInt_reads _ F).bind ?_
  rw [UInt32.toNat_ofNat_of_lt' hlength]
  exact repeatM_reads parameters fun p hp => ParameterEntry.read_reads (h p hp) F

theorem readCounted_reads {α : Type} {r : BufM α} {g : α → List UInt8} (xs : List α)
    (hlength : xs.length < 2 ^ 32) (h : ∀ x, Reads r (g x) x) :
    Reads (readCounted (UInt64.ofNat xs.length) r) (xs.flatMap g) xs := by
  have hcount : (UInt64.ofNat xs.length).toNat = xs.length := by
    rw [UInt64.toNat_ofNat', Nat.mod_eq_of_lt (by omega)]
  rw [readCounted, hcount, if_pos hlength]
  exact fun F => repeatM_reads xs fun x _ => h x F

variable {A tail rest : List UInt8}

/-- The end of `Read`: the payload is read from where it is. -/
theorem payload_finds {α β : Type} {payload : List UInt8} {r : BufM α} {a : α}
    (hA : A.length < 2 ^ 32) (hr : Reads r payload a) (f : α → β) :
    Finds (A ++ (payload ++ tail)) (do
      seek (UInt64.ofNat A.length)
      let a ← r
      return f a) (f a) :=
  seek_finds rfl hA ((hr.map f).findsFrom tail)

theorem readStatic_finds {resources : List UInt32} (hA : A.length < 2 ^ 32)
    (hlength : resources.length < 2 ^ 32) :
    FindsFrom (A ++ (resources.flatMap (fun i => leBytes 4 i.toNat) ++ tail))
      (leBytes 8 (UInt64.ofNat A.length).toNat ++
        (leBytes 8 (UInt64.ofNat resources.length).toNat ++ rest))
      readStatic resources := by
  have hrefs := (readCounted_reads resources hlength getInt_reads).findsFrom
    (F := A ++ (resources.flatMap (fun i => leBytes 4 i.toNat) ++ tail)) tail
  exact (getLong_reads _).bind_findsFrom ((getLong_reads _).bind_findsFrom
    ((seek_finds rfl hA hrefs).from rest))

/-- The fields of a block are found where its record is. -/
theorem ShaderBlock.read_finds {block : ShaderBlock UInt32} (h : block.WellFormed)
    (hfits : A.length + block.payload.length < 2 ^ 32) (tail rest : List UInt8) :
    FindsFrom (A ++ (block.payload ++ tail))
      (leBytes 8 (UInt64.ofNat A.length).toNat ++ (block.fields ++ rest))
      (ShaderBlock.read block.type) block := by
  have hA : A.length < 2 ^ 32 := by omega
  have hrows : ∀ {α : Type} {g : α → List UInt8}, (∀ x, 0 < (g x).length) → ∀ xs : List α,
      (xs.flatMap g).length ≤ block.payload.length → xs.length < 2 ^ 32 := by
    intro α g hg xs hle
    have := length_le_length_flatMap hg xs
    omega
  have hparameters : ∀ parameters, block.payload = parametersBytes parameters →
      parameters.length < 2 ^ 32 := by
    intro parameters hpayload
    refine hrows (fun p : ParameterEntry => ?_) parameters (g := ParameterEntry.bytes) ?_
    · rw [ParameterEntry.bytes, List.length_append, length_leBytes]
      omega
    · rw [hpayload, parametersBytes, List.length_append]
      omega
  cases block with
  | entry resources =>
      have hlength := hrows (fun i => by simp) resources (Nat.le_refl _)
      exact (readStatic_finds hA hlength).map ShaderBlock.entry
  | staticParamDb resources =>
      have hlength := hrows (fun i => by simp) resources (Nat.le_refl _)
      exact (readStatic_finds hA hlength).map ShaderBlock.staticParamDb
  | persistentParamDb parameters =>
      have hread := readParameters_reads (hparameters parameters rfl) h
      exact (getLong_reads _).bind_findsFrom ((getLong_reads _).bind_findsFrom
        ((payload_finds hA hread ShaderBlock.persistentParamDb).from rest))
  | meshParamDb guid lodIndex parameters =>
      have hread := readParameters_reads (hparameters parameters rfl) h
      rw [fields, List.append_assoc, List.append_assoc]
      exact (getLong_reads _).bind_findsFrom ((getInt_reads _).bind_findsFrom
        ((getInt_reads _).bind_findsFrom ((getBytes16_reads guid).bind_findsFrom
        ((payload_finds hA hread (ShaderBlock.meshParamDb guid lodIndex)).from rest))))
  | meshVariation refs =>
      have hlength := hrows (fun ref => by simp) refs (Nat.le_refl _)
      have hread := readCounted_reads (r := do return (← getBytes16, ← getInt)) refs hlength
        fun ref => (getBytes16_reads ref.1).bind ((getInt_reads ref.2).map fun i => (ref.1, i))
      exact (getLong_reads _).bind_findsFrom ((getLong_reads _).bind_findsFrom
        ((payload_finds hA hread ShaderBlock.meshVariation).from rest))

/-- A block as it is after reading: its index has not been set. -/
def ShaderBlockResource.Fresh (r : ShaderBlockResource UInt32) : Prop :=
  r.index = 0 ∧ r.block.WellFormed

theorem ShaderBlockResource.before_append_record (r : ShaderBlockResource UInt32)
    (A C : List UInt8) :
    A ++ (r.bytes A.length ++ C) = A ++ r.before A.length ++ (r.record A.length ++ C) := by
  simp only [bytes, List.append_assoc]

/-- A record is found wherever its block is. -/
theorem readRecord_finds {r : ShaderBlockResource UInt32} (h : r.Fresh) {F C : List UInt8}
    (hF : F = A ++ (r.bytes A.length ++ C)) (hfits : F.length < 2 ^ 32) :
    Finds F (readRecord (UInt64.ofNat (r.start A.length), some r.block.type)) r := by
  have hlength : F.length = A.length + (r.before A.length).length + (r.record A.length ++ C).length := by
    rw [hF, r.before_append_record, List.length_append, List.length_append]
  have hbefore : (r.before A.length).length
      = r.block.payload.length + (zeros 8 (A.length + r.block.payload.length)).length := by
    rw [ShaderBlockResource.before, List.length_append]
  have hblock : FindsFrom F (leBytes 8 (UInt64.ofNat A.length).toNat ++ (r.block.fields ++ C))
      (do return ({ hash := r.hash, block := ← ShaderBlock.read r.block.type } :
        ShaderBlockResource UInt32)) r := by
    have hread := (ShaderBlock.read_finds (A := A) h.2 (by omega)
      (zeros 8 (A.length + r.block.payload.length) ++ (r.record A.length ++ C)) C).map
      fun block => ({ hash := r.hash, block } : ShaderBlockResource UInt32)
    have hr : ({ hash := r.hash, block := r.block } : ShaderBlockResource UInt32) = r := by
      rw [← h.1]
    have hpayload : A ++ (r.block.payload ++
        (zeros 8 (A.length + r.block.payload.length) ++ (r.record A.length ++ C))) = F := by
      rw [hF, ShaderBlockResource.bytes, ShaderBlockResource.before]
      simp only [List.append_assoc]
    rw [hr, hpayload] at hread
    exact hread
  have hstart : r.start A.length = (A ++ r.before A.length).length := by
    rw [List.length_append]
    rfl
  have hrecord : F = A ++ r.before A.length ++ (leBytes 8 r.hash.toNat ++
      (leBytes 8 (UInt64.ofNat A.length).toNat ++ (r.block.fields ++ C))) := by
    rw [hF, r.before_append_record, ShaderBlockResource.record]
    simp only [List.append_assoc]
  rw [hstart]
  exact seek_finds hrecord (by rw [List.length_append]; omega)
    ((getLong_reads r.hash).bind_findsFrom hblock)

/-- The entries of the directory. -/
def directoryOf (offsets : List Nat) (rs : List (ShaderBlockResource UInt32)) :
    List (UInt64 × Option BlockType) :=
  (offsets.zip rs).map fun (offset, r) => (UInt64.ofNat offset, some r.block.type)

theorem readRecords_finds {rs : List (ShaderBlockResource UInt32)} (h : ∀ r ∈ rs, r.Fresh)
    {F C : List UInt8} (hF : F = A ++ (blocksBytes A.length rs ++ C)) (hfits : F.length < 2 ^ 32) :
    Finds F ((directoryOf (starts A.length rs) rs).mapM readRecord) rs := by
  induction rs generalizing A with
  | nil => exact Finds.pure []
  | cons r rs ih =>
      have hfirst := readRecord_finds (h r List.mem_cons_self) (A := A)
        (C := blocksBytes (A.length + (r.bytes A.length).length) rs ++ C)
        (by rw [hF, blocksBytes, List.append_assoc]) hfits
      have hrest := ih (A := A ++ r.bytes A.length) (fun x hx => h x (List.mem_cons_of_mem _ hx))
        (by rw [hF, blocksBytes, List.length_append]; simp only [List.append_assoc])
      rw [List.length_append] at hrest
      rw [starts, directoryOf, List.zip_cons_cons, List.map_cons, List.mapM_cons]
      exact hfirst.bind (hrest.bind (Finds.pure (r :: rs)))

theorem BlockType.ofValue_value (t : BlockType) : BlockType.ofValue t.value = some t := by
  cases t <;> rfl

theorem readDirectory_reads (offsets : List Nat) (rs : List (ShaderBlockResource UInt32)) :
    Reads (repeatM readDirectoryEntry (directoryOf offsets rs).length)
      (directoryBytes offsets rs) (directoryOf offsets rs) := by
  intro F
  let entryBytes : UInt64 × Option BlockType → List UInt8 := fun (offset, type) =>
    leBytes 8 offset.toNat ++ leBytes 8 (type.elim 0 BlockType.value).toNat
  have hbytes : directoryBytes offsets rs = (directoryOf offsets rs).flatMap entryBytes := by
    rw [directoryBytes, directoryOf, List.flatMap_map]
    rfl
  rw [hbytes]
  refine repeatM_reads _ fun entry hentry => ?_
  obtain ⟨⟨offset, r⟩, -, rfl⟩ := List.mem_map.mp hentry
  have htype := (getLong_reads r.block.type.value).map fun type =>
    (UInt64.ofNat offset, BlockType.ofValue type)
  rw [BlockType.ofValue_value] at htype
  exact ((getLong_reads (UInt64.ofNat offset)).bind htype) F

/-- A depot is read back from its bytes. -/
theorem readDepot_depotBytes {rs : List (ShaderBlockResource UInt32)} (h : ∀ r ∈ rs, r.Fresh)
    (hfits : (depotBytes rs).length < 2 ^ 32) :
    readDepot (UInt32.ofNat rs.length) (depotBytes rs) = .ok rs := by
  let offsets := starts (16 * rs.length) rs
  have hdir : (directoryBytes offsets rs).length = 16 * rs.length :=
    length_directoryBytes (length_starts rs _)
  have hcount : (UInt32.ofNat rs.length).toNat = (directoryOf offsets rs).length := by
    rw [length_depotBytes] at hfits
    have hlength : rs.length < 2 ^ 32 := by omega
    rw [UInt32.toNat_ofNat_of_lt' hlength, directoryOf, List.length_map, List.length_zip,
      length_starts, Nat.min_self]
  have hF : depotBytes rs = directoryBytes offsets rs ++ (blocksBytes (directoryBytes offsets
      rs).length rs ++ zeros 16 (16 * rs.length + (blocksBytes (16 * rs.length) rs).length)) := by
    rw [hdir]
    rfl
  have hrecords := readRecords_finds h hF hfits
  rw [hdir] at hrecords
  obtain ⟨s', hread, -⟩ := hrecords ((ByteBuffer.ofBytes (depotBytes rs)).skip
    (directoryBytes offsets rs).length) rfl
  have hrest : (ByteBuffer.ofBytes (depotBytes rs)).rest
      = directoryBytes offsets rs ++ bodyBytes rs := rfl
  have hrun : (readRecords (UInt32.ofNat rs.length)).run (.ofBytes (depotBytes rs))
      = .ok (rs, s') := by
    rw [readRecords, hcount]
    exact ((readDirectory_reads offsets rs).bind_apply hrest).trans hread
  rw [readDepot, hrun]
  rfl

/-! ## What can be read -/

section

variable {α β : Type}

/-- Whatever `r` answers has the property. -/
def Yields (P : α → Prop) (r : BufM α) : Prop := ∀ s a s', r s = .ok (a, s') → P a

theorem Yields.pure {P : α → Prop} {a : α} (h : P a) : Yields P (Pure.pure a) := by
  intro s b s' hb
  cases hb
  exact h

theorem Yields.bind {Q : α → Prop} {P : β → Prop} {r : BufM α} {f : α → BufM β} (hr : Yields Q r)
    (hf : ∀ a, Q a → Yields P (f a)) : Yields P (r >>= f) := by
  intro s b s' h
  have h : (r s >>= fun p => f p.1 p.2) = .ok (b, s') := h
  cases hrs : r s with
  | error e =>
      rw [hrs] at h
      cases h
  | ok p =>
      rw [hrs] at h
      exact hf p.1 (hr s p.1 p.2 hrs) p.2 b s' h

/-- A step whose answer does not matter. -/
theorem Yields.after {P : β → Prop} {r : BufM α} {f : α → BufM β} (hf : ∀ a, Yields P (f a)) :
    Yields P (r >>= f) :=
  .bind (Q := fun _ => True) (fun _ _ _ _ => trivial) fun a _ => hf a

theorem Yields.throw {P : α → Prop} (e : Fault) : Yields P (throw e) := by
  intro s a s' h
  cases h

theorem repeatM_yields {P : α → Prop} {r : BufM α} (h : Yields P r) (n : Nat) :
    Yields (fun xs => xs.length = n ∧ ∀ x ∈ xs, P x) (repeatM r n) := by
  induction n with
  | zero => exact .pure (by simp)
  | succ n ih =>
      refine h.bind fun a ha => ih.bind fun as has => .pure ⟨?_, ?_⟩
      · rw [List.length_cons, has.1]
      · exact List.forall_mem_cons.mpr ⟨ha, has.2⟩

theorem mapM_yields {P : β → Prop} {f : α → BufM β} (h : ∀ a, Yields P (f a)) (as : List α) :
    Yields (fun bs => bs.length = as.length ∧ ∀ b ∈ bs, P b) (as.mapM f) := by
  induction as with
  | nil => exact .pure (by simp)
  | cons a as ih =>
      rw [List.mapM_cons]
      refine (h a).bind fun b hb => ih.bind fun bs hbs => .pure ⟨?_, ?_⟩
      · rw [List.length_cons, List.length_cons, hbs.1]
      · exact List.forall_mem_cons.mpr ⟨hb, hbs.2⟩

end

theorem getBytes_yields (n : Nat) : Yields (·.length = n) (getBytes n) := by
  induction n with
  | zero => exact .pure rfl
  | succ n ih =>
      refine .after fun b => ih.bind fun bs hbs => .pure ?_
      rw [List.length_cons, hbs]

theorem ParameterEntry.read_yields : Yields ParameterEntry.WellFormed ParameterEntry.read := by
  refine .after fun parameterHash => .after fun typeHash => .after fun used =>
    .after fun high => .after fun stored => ?_
  dsimp only
  generalize hsize : (if typeHash = iTexture then 16 else stored) = size
  split
  · next hlt =>
      refine (getBytes_yields _).bind fun value hvalue => .pure ⟨⟨high, rfl⟩, ?_, ?_⟩
      · rw [hvalue]
        exact hlt
      · intro htexture
        rw [hvalue, ← hsize, if_pos htexture]
        rfl
  · exact .throw _

theorem readParameters_yields :
    Yields (fun parameters => ∀ p ∈ parameters, p.WellFormed) readParameters :=
  .after fun _ s _ s' h => (repeatM_yields ParameterEntry.read_yields _ s _ s' h).2

theorem ShaderBlock.read_yields (type : BlockType) :
    Yields ShaderBlock.WellFormed (ShaderBlock.read type) := by
  cases type with
  | entry => exact .after fun _ => .pure trivial
  | staticParamDb => exact .after fun _ => .pure trivial
  | persistentParamDb =>
      exact .after fun _ => .after fun _ => .after fun _ =>
        readParameters_yields.bind fun _ h => .pure h
  | meshParamDb =>
      exact .after fun _ => .after fun _ => .after fun _ => .after fun _ => .after fun _ =>
        readParameters_yields.bind fun _ h => .pure h
  | meshVariation => exact .after fun _ => .after fun _ => .after fun _ => .after fun _ => .pure trivial

theorem readRecord_yields (entry : UInt64 × Option BlockType) :
    Yields ShaderBlockResource.Fresh (readRecord entry) := by
  obtain ⟨offset, type⟩ := entry
  cases type with
  | none => exact .throw _
  | some type =>
      exact .after fun _ => .after fun _ => (ShaderBlock.read_yields type).bind
        fun _ h => .pure ⟨rfl, h⟩

/-- Everything that is read from a depot can be written and read again. -/
theorem readDepot_fresh {sbResourceCount : UInt32} {bytes : List UInt8}
    {rs : List (ShaderBlockResource UInt32)} (h : readDepot sbResourceCount bytes = .ok rs) :
    rs.length = sbResourceCount.toNat ∧ ∀ r ∈ rs, r.Fresh := by
  have hyields : Yields (fun rs => rs.length = sbResourceCount.toNat ∧
      ∀ r ∈ rs, ShaderBlockResource.Fresh r) (readRecords sbResourceCount) := by
    refine (repeatM_yields (P := fun _ => True) (fun _ _ _ _ => trivial) _).bind
      fun directory hdirectory => ?_
    rw [← hdirectory.1]
    exact mapM_yields readRecord_yields directory
  cases hrun : (readRecords sbResourceCount).run (.ofBytes bytes) with
  | error e =>
      rw [readDepot, hrun] at h
      cases h
  | ok p =>
      rw [readDepot, hrun] at h
      cases h
      exact hyields _ _ _ hrun

end Kyber.ModLoader
