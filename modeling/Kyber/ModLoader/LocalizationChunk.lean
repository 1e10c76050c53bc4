import Kyber.ModLoader.Localization

/-!
# The chunk of localized strings (`LocalizationHandler.cpp`, `ByteBuffer.cpp`)

The strings of a text database are in a chunk: a header with a tag, a table of ids and offsets,
and the strings behind it. A string is a run of bytes that ends with a NUL. A byte below 0x80
stands for itself, and for the others there is the histogram, a table of characters. It is longer
than a byte reaches, so a character behind its first 0x100 entries takes two bytes: one that says
by how much the other is shifted.

`ModifyChunk` takes the chunk apart, encodes the strings of the mods, and lays everything out
anew, in the order of the ids. The source has wide strings in between. Those of the chunk are
its bytes, widened as signed characters, and what is written of a wide character is its low byte.
-/

namespace Kyber.ModLoader

open Kyber.Lib

/-! ## Wide strings in byte buffers -/

/-- `(char16_t)c`, for a `char`, which is signed. -/
def widen (c : UInt8) : UInt16 := c.toInt8.toInt16.toUInt16

/-- `getNullTerminatedWideStringAsAscii()`. Past the end of the buffer zeros are read. -/
def getNullTerminatedWideStringAsAscii : BufM WideString := do
  let s ← get
  let chars := s.rest.takeWhile (· ≠ 0)
  set (s.skip (chars.length + 1))
  return chars.map widen

/-- `putNullTerminatedWideString(str.c_str())`: the low bytes before the first that is zero, and
one NUL. -/
def putNullTerminatedWideString (str : WideString) : BufM Unit :=
  putNullTerminatedString (str.map UInt16.toUInt8)

/-- `put(ByteBuffer* src)`. -/
def putBuffer (src : ByteBuffer) : BufM Unit := (src.buf.take src.size).forM put

/-! ## The histogram -/

/-- `ModifyHistogram`. -/
def modifyHistogram (histogramData : List UInt8) : Except Fault WideString := do
  let read : BufM WideString := do
    let _ ← readUnsafe 4
    let size ← readUnsafe 4
    let _ ← readUnsafe 4
    repeatM (return UInt16.ofNat (leNat (← readUnsafe 2))) (leNat size / 2)
  let (values, _) ← read.run (.ofBytes histogramData)
  return values

/-- The loop over the shifts, from 0x1FE down to 0x80. The value that is looked at first is the
one furthest out. -/
def histogramShifts (values : WideString) : Except Fault (List UInt8) :=
  if values.length < 0x1FF then
    throw .outOfBounds
  else
    return ((List.range' 0x80 0x17F).reverse.filter fun i => values.getD i 0 < 0x80).map UInt8.ofNat

/-- `index - (values[shift] << 7)`. -/
def shifted (values : WideString) (index : Nat) (shift : UInt8) : Int :=
  (index : Int) - (values.getD shift.toNat 0).toNat * 128

/-- What one character of a string becomes. -/
def encodeChar (values : WideString) (shifts : List UInt8) (b : UInt16) : WideString :=
  if b < 0x80 then
    [b]
  else
    match values.findIdx? (· == b) with
    | none => []
    | some index =>
        if index ≤ 0xFF then
          [UInt16.ofNat index]
        else
          match shifts.find? fun shift => shifted values index shift < 0x80 with
          | none => []
          | some shift =>
              [shift.toUInt16, (UInt8.ofInt (shifted values index shift + 0x80)).toUInt16]

def encodeString (values : WideString) (shifts : List UInt8) (str : WideString) : WideString :=
  str.flatMap (encodeChar values shifts)

/-! ## The chunk -/

/-- What `ModifyChunk` reads of a chunk behind the magic number. -/
structure LocalizationChunk where
  size : UInt32
  count : UInt32
  dataOffset : UInt32
  stringsOffset : UInt32
  tag : ByteString
  /-- `ids` and `offsets` -/
  table : List (UInt32 × UInt32)
  strings : Std.TreeMap UInt32 WideString

def LocalizationChunk.ids (chunk : LocalizationChunk) : List UInt32 := chunk.table.map Prod.fst

/-- The loop over the strings. -/
def readStrings (stringsOffset : UInt32) : List (UInt32 × UInt32) →
    Std.TreeMap UInt32 WideString → BufM (Std.TreeMap UInt32 WideString)
  | [], strings => return strings
  | (id, offset) :: table, strings => do
      setReadPos (stringsOffset + offset + 8).toNat
      let str ← getNullTerminatedWideStringAsAscii
      readStrings stringsOffset table (strings.insert id str)

/-- The first half of `ModifyChunk`. The count is an `int32_t`, and there is no vector of a
negative size. -/
def readLocalizationChunk : BufM LocalizationChunk := do
  let size ← getInt
  let count ← getInt
  let dataOffset ← getInt
  let stringsOffset ← getInt
  let tag ← getNullTerminatedString
  setReadPos (dataOffset + 8).toNat
  if count.toNat < 2 ^ 31 then
    let table ← repeatM (do
      let id ← getInt
      let offset ← getInt
      return (id, offset)) count.toNat
    let strings ← readStrings stringsOffset table {}
    return { size, count, dataOffset, stringsOffset, tag, table, strings }
  else
    throw .overflow

/-- A string of the mods joins those of the chunk, or takes the place of one. -/
def mergeString (values : WideString) (shifts : List UInt8)
    (merged : List UInt32 × Std.TreeMap UInt32 WideString) (entry : UInt32 × WideString) :
    List UInt32 × Std.TreeMap UInt32 WideString :=
  (if merged.1.contains entry.1 then merged.1 else merged.1 ++ [entry.1],
    merged.2.insert entry.1 (encodeString values shifts entry.2))

/-- The loop that fills `stringBuf`, answering the offsets. -/
def putStrings (strings : Std.TreeMap UInt32 WideString) : List UInt32 → BufM (List UInt32)
  | [] => return []
  | id :: ids => do
      let offset ← getWritePos
      putNullTerminatedWideString (strings.getD id [])
      return UInt32.ofNat offset :: (← putStrings strings ids)

/-- `while (buf.getWritePos() < 0x8C + 8) buf.put(0x00)`, for at most this many rounds. -/
def padHeader : Nat → BufM Unit
  | 0 => throw .fuel
  | n + 1 => do
      if (← getWritePos) < 0x8C + 8 then
        put 0x00
        padHeader n

def putRow (row : UInt32 × UInt32) : BufM Unit := do
  putInt row.1
  putInt row.2

/-- The second half of `ModifyChunk`, up to the size. -/
def writeRows (tag : ByteString) (table : List (UInt32 × UInt32)) (stringBuf : ByteBuffer) :
    BufM Unit := do
  putInt 0x00039000
  putInt 0xdeadbeef
  putInt (UInt32.ofNat table.length)
  putInt 0x8C
  putInt (0x8C + 8 * UInt32.ofNat table.length)
  putNullTerminatedString tag
  padHeader (0x8C + 8 + 1)
  table.forM putRow
  putBuffer stringBuf

def writeLocalizationChunk (tag : ByteString) (table : List (UInt32 × UInt32)) (stringBuf : ByteBuffer) :
    BufM Unit := do
  writeRows tag table stringBuf
  let size := UInt32.ofNat (← getWritePos) - 8
  setWritePos 4
  putInt size

/-- `ModifyChunk`. -/
def modifyChunk (chunkData : List UInt8) (data : LocalizationMergeData) (values : WideString) :
    Except Fault (List UInt8) := do
  let (magic, inBuf) ← getInt.run (.ofBytes chunkData)
  if magic ≠ 0x00039000 then
    return []
  else
    let (chunk, _) ← readLocalizationChunk.run inBuf
    let shifts ← histogramShifts values
    let (ids, strings) := data.strings.toList.foldl (mergeString values shifts)
      (chunk.ids, chunk.strings)
    let ids := ids.mergeSort
    let (offsets, stringBuf) ← (putStrings strings ids).run {}
    let ((), buf) ← (writeLocalizationChunk chunk.tag (ids.zip offsets) stringBuf).run {}
    return buf.buf

end Kyber.ModLoader
