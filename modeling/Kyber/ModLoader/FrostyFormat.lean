import Kyber.ModLoader.Types
import Kyber.Lib.Streams
import Kyber.Lib.Readers

/-!
# The format of mod files

What the launcher and the game both read: a header with the version and the place of the data,
five or six strings, and the resources. There are five versions. What a resource has in it
depends on the version, and on whether there are data for it.

`Mod.bytes` is a file as it is written, and `parse` reads it. The two programs are compared with
`parse`, so it accepts what the launcher accepts: any version from the first on, files of one
game, and metadata of any length.
-/

namespace Kyber.Frosty

open Kyber.Lib Kyber.ModLoader

inductive FormatError
  | endOfFile
  | notAMod
  | unknownType
  | negativeSize
  deriving DecidableEq, Repr

abbrev ParseM := StreamM FormatError

/-- What the entry of a resource that has data says of them. -/
structure Payload where
  sha1 : List UInt8
  size : UInt64
  flags : UInt8
  handlerHash : UInt32
  userData : Option ByteString
  deriving DecidableEq

/-- The types, and what comes with them. -/
inductive Kind
  | embedded
  | ebx
  | res (resType : UInt32) (resRid : UInt64) (resMeta : List UInt8)
  | chunk (rangeStart rangeEnd logicalOffset logicalSize h32 firstMip : UInt32)
  | bundle (name : ByteString) (superBundle : UInt32)
  deriving DecidableEq

/-- The index is that of the data in the table, or -1. -/
structure Resource where
  index : Int32
  name : Option ByteString
  payload : Option Payload
  /-- numbers in front of the hashes that are passed over -/
  skipped : List UInt32
  bundles : List UInt32
  kind : Kind
  deriving DecidableEq

structure Header where
  version : UInt32
  dataOffset : UInt64
  dataCount : UInt32
  profile : ByteString
  gameVersion : UInt32
  deriving DecidableEq

structure Details where
  title : ByteString
  author : ByteString
  category : ByteString
  version : ByteString
  description : ByteString
  link : Option ByteString
  deriving DecidableEq

structure Mod where
  header : Header
  details : Details
  resources : List Resource
  deriving DecidableEq

def magic : UInt64 := 0x01005954534F5246

/-- `starwarsbattlefrontii` -/
def profile : ByteString :=
  [0x73, 0x74, 0x61, 0x72, 0x77, 0x61, 0x72, 0x73, 0x62, 0x61, 0x74, 0x74, 0x6c, 0x65, 0x66, 0x72,
    0x6f, 0x6e, 0x74, 0x69, 0x69]

/-- Letters without their case. -/
def lower (b : UInt8) : UInt8 := if 0x41 ≤ b ∧ b ≤ 0x5a then b + 0x20 else b

/-! ## Reading -/

def bytes (n : Nat) : ParseM (List UInt8) := fun rest =>
  if n ≤ rest.length then .ok (rest.take n, rest.drop n) else .error .endOfFile

def number (n : Nat) : ParseM Nat := do return leNat (← bytes n)

def word : ParseM UInt32 := do return UInt32.ofNat (← number 4)

def long : ParseM UInt64 := do return UInt64.ofNat (← number 8)

/-- Up to a zero, which is not a part of it. -/
def string : ParseM ByteString := fun rest =>
  let str := rest.takeWhile (· ≠ 0)
  if str.length < rest.length then .ok (str, rest.drop (str.length + 1)) else .error .endOfFile

def sizedString : ParseM ByteString := do bytes (← number 1)

def optional {α : Type} (present : Prop) [Decidable present] (m : ParseM α) : ParseM (Option α) :=
  if present then do
    let a ← m
    return some a
  else
    return none

/-- Words behind their count. -/
def words : ParseM (List UInt32) := do
  let count ← word
  readMany word count.toInt32.toNatClampNeg

/-- Bytes behind their count. -/
def block : ParseM (List UInt8) := do
  let size ← word
  if size.toInt32 < 0 then throw .negativeSize else bytes size.toInt32.toNatClampNeg

def payload (version : UInt32) (index : Int32) : ParseM (Option Payload) :=
  if index = -1 then return none
  else do
    let sha1 ← bytes 20
    let size ← long
    let flags ← number 1
    let handlerHash ← word
    let userData ← optional (3 ≤ version) string
    return some { sha1, size, flags := UInt8.ofNat flags, handlerHash, userData }

/-- The bundles of a resource, behind the numbers that old versions have in front of them. -/
def bundleLists (version : UInt32) (index : Int32) : ParseM (List UInt32 × List UInt32) :=
  if 3 < version then do
    let bundles ← words
    return ([], bundles)
  else if index = -1 then
    return ([], [])
  else do
    let skipped ← words
    let bundles ← words
    return (skipped, bundles)

def kind : Nat → ParseM Kind
  | 0 => return .embedded
  | 1 => return .ebx
  | 2 => do
      let resType ← word
      let resRid ← long
      let resMeta ← block
      return .res resType resRid resMeta
  | 3 => do
      let rangeStart ← word
      let rangeEnd ← word
      let logicalOffset ← word
      let logicalSize ← word
      let h32 ← word
      let firstMip ← word
      return .chunk rangeStart rangeEnd logicalOffset logicalSize h32 firstMip
  | 4 => do
      let name ← string
      let superBundle ← word
      return .bundle name superBundle
  | _ => throw .unknownType

def resource (version : UInt32) : ParseM Resource := do
  let type ← number 1
  if type > 4 then throw .unknownType
  else
    let index ← word
    let name ← optional (index.toInt32 ≠ -1 ∨ 3 < version) string
    let payload ← payload version index.toInt32
    let lists ← bundleLists version index.toInt32
    let kind ← kind type
    return {
      index := index.toInt32, name, payload, skipped := lists.1, bundles := lists.2, kind }

def resources (version : UInt32) : ParseM (List Resource) := do
  let count ← word
  readMany (resource version) count.toInt32.toNatClampNeg

def header : ParseM Header := do
  let magic' ← long
  let version ← word
  if magic' ≠ magic ∨ version < 1 then throw .notAMod
  else
    let dataOffset ← long
    let dataCount ← word
    let profile' ← sizedString
    if profile'.map lower ≠ profile then throw .notAMod
    else
      let gameVersion ← word
      return { version, dataOffset, dataCount, profile := profile', gameVersion }

def details (version : UInt32) : ParseM Details := do
  let title ← string
  let author ← string
  let category ← string
  let modVersion ← string
  let description ← string
  let link ← optional (5 ≤ version) string
  return { title, author, category, version := modVersion, description, link }

def parse : ParseM Mod := do
  let header ← header
  let details ← details header.version
  let resources ← resources header.version
  return { header, details, resources }

/-! ## Writing -/

def stringBytes (str : ByteString) : List UInt8 := str ++ [0]

def wordBytes (w : UInt32) : List UInt8 := leBytes 4 w.toNat

def longBytes (l : UInt64) : List UInt8 := leBytes 8 l.toNat

def optionalBytes (str : Option ByteString) : List UInt8 := str.elim [] stringBytes

def wordsBytes (ws : List UInt32) : List UInt8 :=
  leBytes 4 ws.length ++ ws.flatMap wordBytes

def Payload.bytes (p : Payload) : List UInt8 :=
  p.sha1 ++ (longBytes p.size ++ ([p.flags] ++ (wordBytes p.handlerHash ++
    optionalBytes p.userData)))

def Kind.number : Kind → Nat
  | .embedded => 0
  | .ebx => 1
  | .res .. => 2
  | .chunk .. => 3
  | .bundle .. => 4

def Kind.bytes : Kind → List UInt8
  | .embedded => []
  | .ebx => []
  | .res resType resRid resMeta =>
      wordBytes resType ++ (longBytes resRid ++ (leBytes 4 resMeta.length ++ resMeta))
  | .chunk rangeStart rangeEnd logicalOffset logicalSize h32 firstMip =>
      wordBytes rangeStart ++ (wordBytes rangeEnd ++ (wordBytes logicalOffset ++
        (wordBytes logicalSize ++ (wordBytes h32 ++ wordBytes firstMip))))
  | .bundle name superBundle => stringBytes name ++ wordBytes superBundle

def Resource.listBytes (version : UInt32) (r : Resource) : List UInt8 :=
  if 3 < version then wordsBytes r.bundles
  else if r.index = -1 then []
  else wordsBytes r.skipped ++ wordsBytes r.bundles

def Resource.bytes (version : UInt32) (r : Resource) : List UInt8 :=
  leBytes 1 r.kind.number ++ (wordBytes r.index.toUInt32 ++ (optionalBytes r.name ++
    (r.payload.elim [] Payload.bytes ++ (r.listBytes version ++ r.kind.bytes))))

def Header.bytes (h : Header) : List UInt8 :=
  longBytes magic ++ (wordBytes h.version ++ (longBytes h.dataOffset ++ (wordBytes h.dataCount ++
    ((leBytes 1 h.profile.length ++ h.profile) ++ wordBytes h.gameVersion))))

def Details.bytes (d : Details) : List UInt8 :=
  stringBytes d.title ++ (stringBytes d.author ++ (stringBytes d.category ++
    (stringBytes d.version ++ (stringBytes d.description ++ optionalBytes d.link))))

def Mod.bytes (m : Mod) : List UInt8 :=
  m.header.bytes ++ (m.details.bytes ++
    (leBytes 4 m.resources.length ++ m.resources.flatMap (·.bytes m.header.version)))

/-! ## Data

The resources' data are behind a table that says where each of them starts, counted from the end
of the table, and how many bytes there are. -/

def slice (content : List UInt8) (place n : Nat) : List UInt8 := (content.drop place).take n

def signedLong (bytes : List UInt8) : Int64 := (UInt64.ofNat (leNat bytes)).toInt64

/-- Where the data behind the table start, and how many they are. -/
def entry (content : List UInt8) (h : Header) (i : Nat) : Int64 × Int64 :=
  let place := h.dataOffset.toNat + i * 16
  (signedLong (slice content place 8), signedLong (slice content (place + 8) 8))

def Header.dataStart (h : Header) : Nat := h.dataOffset.toNat + h.dataCount.toNat * 16

def dataPlace (content : List UInt8) (h : Header) (i : Nat) : Nat :=
  h.dataStart + (entry content h i).1.toNatClampNeg

def dataOf (content : List UInt8) (h : Header) (i : Nat) : List UInt8 :=
  slice content (dataPlace content h i) (entry content h i).2.toNatClampNeg

/-- The data of a resource, if it has any. -/
def resourceData (content : List UInt8) (h : Header) (index : Int32) : Option (List UInt8) :=
  if index = -1 then none else some (dataOf content h index.toNatClampNeg)

/-- The data are in the file. -/
structure Stored (content : List UInt8) (h : Header) (i : Nat) : Prop where
  index_lt : i < h.dataCount.toNat
  place_nonneg : 0 ≤ (entry content h i).1
  size_nonneg : 0 ≤ (entry content h i).2
  size_le : dataPlace content h i + (entry content h i).2.toNatClampNeg ≤ content.length

/-- The data of a mod are in its file, which is no larger than the game can seek in. -/
structure Complete (content : List UInt8) (m : Mod) : Prop where
  length_lt : content.length < 2 ^ 31
  stored : ∀ r ∈ m.resources, r.index ≠ -1 →
    0 ≤ r.index ∧ Stored content m.header r.index.toNatClampNeg

/-! ## What can be written -/

/-- Strings have no zeros in them. -/
def Terminated (str : ByteString) : Prop := 0 ∉ str

def Kind.Writable : Kind → Prop
  | .res _ _ resMeta => resMeta.length < 2 ^ 31
  | .bundle name _ => Terminated name
  | _ => True

structure Payload.Writable (version : UInt32) (p : Payload) : Prop where
  sha1 : p.sha1.length = 20
  userData_isSome : p.userData.isSome ↔ 3 ≤ version
  userData : ∀ str ∈ p.userData, Terminated str

structure Resource.Writable (version : UInt32) (r : Resource) : Prop where
  name_isSome : r.name.isSome ↔ r.index ≠ -1 ∨ 3 < version
  name : ∀ str ∈ r.name, Terminated str
  payload_isSome : r.payload.isSome ↔ r.index ≠ -1
  payload : ∀ p ∈ r.payload, p.Writable version
  skipped_length : r.skipped.length < 2 ^ 31
  skipped : 3 < version ∨ r.index = -1 → r.skipped = []
  bundles_length : r.bundles.length < 2 ^ 31
  bundles : version ≤ 3 → r.index = -1 → r.bundles = []
  kind : r.kind.Writable

structure Header.Writable (h : Header) : Prop where
  version : 1 ≤ h.version
  profile : h.profile.map lower = Frosty.profile

structure Details.Writable (version : UInt32) (d : Details) : Prop where
  title : Terminated d.title
  author : Terminated d.author
  category : Terminated d.category
  modVersion : Terminated d.version
  description : Terminated d.description
  link_isSome : d.link.isSome ↔ 5 ≤ version
  link : ∀ str ∈ d.link, Terminated str

structure Mod.Writable (m : Mod) : Prop where
  header : m.header.Writable
  details : m.details.Writable m.header.version
  resources_length : m.resources.length < 2 ^ 31
  resources : ∀ r ∈ m.resources, r.Writable m.header.version

/-! ## Files -/

/-- The table, for data that are put one behind another from a place on. -/
def tableBytes : Nat → List (List UInt8) → List UInt8
  | _, [] => []
  | place, data :: rest =>
      leBytes 8 place ++ (leBytes 8 data.length ++ tableBytes (place + data.length) rest)

/-- A mod with its data, as it is written: the header says where the table is. -/
structure WrittenMod where
  mod : Mod
  data : List (List UInt8)
  writable : mod.Writable
  dataOffset_eq : mod.header.dataOffset.toNat = mod.bytes.length
  dataCount_eq : mod.header.dataCount.toNat = data.length
  index_lt : ∀ r ∈ mod.resources, r.index ≠ -1 →
    0 ≤ r.index ∧ r.index.toNatClampNeg < data.length

def WrittenMod.bytes (file : WrittenMod) : List UInt8 :=
  file.mod.bytes ++ (tableBytes 0 file.data ++ file.data.flatten)

end Kyber.Frosty
