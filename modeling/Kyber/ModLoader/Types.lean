import Kyber.ModLoader.ByteBuffer

/-!
# Guids, hashes and byte orders (`SDK.h`, `StringUtils.cpp`, `BundleMerger.cpp`)

The small types and functions that every table of the mod loader is keyed or
written with.

A guid is its sixteen bytes: it is compared, ordered and copied with `memcmp`
and `memcpy`, and the four named fields of the source's union are a view of
those bytes. Two spellings of it go to disk. The little-endian one is the bytes
themselves; the big-endian one reverses the first three fields.
-/

namespace Kyber.ModLoader

open Kyber.Lib

abbrev Guid := Vector UInt8 16

abbrev Sha1 := Vector UInt8 20

namespace Guid

/-- `ToFrostyLE`. -/
def toFrostyLE (g : Guid) : List UInt8 := g.toList

/-- `ToFrostyBE`. -/
def toFrostyBE (g : Guid) : List UInt8 :=
  [g[3], g[2], g[1], g[0], g[5], g[4], g[7], g[6],
    g[8], g[9], g[10], g[11], g[12], g[13], g[14], g[15]]

/-- `FromFrostyBE(uint8_t* b)`. -/
def fromFrostyBE (b : Vector UInt8 16) : Guid :=
  #v[b[3], b[2], b[1], b[0], b[5], b[4], b[7], b[6],
    b[8], b[9], b[10], b[11], b[12], b[13], b[14], b[15]]

/-! `FromString` is an `sscanf`: conversions of hexadecimal numbers with a width,
and dashes. It stops at the first directive that does not match, and what has
not been read then stays zero. -/

def isSpace (c : UInt8) : Bool := c == 0x20 || (0x09 ≤ c && c ≤ 0x0d)

def hexDigit (c : UInt8) : Option Nat :=
  if 0x30 ≤ c ∧ c ≤ 0x39 then some (c.toNat - 0x30)
  else if 0x41 ≤ c ∧ c ≤ 0x46 then some (c.toNat - 0x41 + 10)
  else if 0x61 ≤ c ∧ c ≤ 0x66 then some (c.toNat - 0x61 + 10)
  else none

/-- Digits, at most `width` of them, behind those that `acc` is the value of. -/
def scanDigits : Nat → Nat → ByteString → Nat × ByteString
  | width + 1, acc, c :: str =>
      match hexDigit c with
      | some d => scanDigits width (16 * acc + d) str
      | none => (acc, c :: str)
  | _, acc, str => (acc, str)

/-- A number without its sign. A `0x` counts towards the width. -/
def scanUnsigned (width : Nat) (str : ByteString) : Option (Nat × ByteString) :=
  let digits (width : Nat) (str : ByteString) : Option (Nat × ByteString) :=
    match width, str with
    | width + 1, c :: str => (hexDigit c).map fun d => scanDigits width d str
    | _, _ => none
  match width, str with
  | width + 2, 0x30 :: x :: rest =>
      if x = 0x78 ∨ x = 0x58 then
        match digits width rest with
        | some r => some r
        | none => some (0, x :: rest)
      else digits (width + 2) str
  | _, _ => digits width str

/-- `%<width>x`: white space, a sign and a number, as 32 bits. -/
def scanHex (width : Nat) (str : ByteString) : Option (UInt32 × ByteString) :=
  match str.dropWhile isSpace with
  | 0x2b :: rest => (scanUnsigned (width - 1) rest).map fun (v, rest) => (UInt32.ofNat v, rest)
  | 0x2d :: rest => (scanUnsigned (width - 1) rest).map fun (v, rest) => (-UInt32.ofNat v, rest)
  | rest => (scanUnsigned width rest).map fun (v, rest) => (UInt32.ofNat v, rest)

/-- The values read by a format, in which `none` is a dash. -/
def scan : List (Option Nat) → ByteString → List UInt32
  | some width :: format, str =>
      match scanHex width str with
      | some (v, rest) => v :: scan format rest
      | none => []
  | none :: format, 0x2d :: rest => scan format rest
  | _, _ => []

/-- `%08x-%04hx-%04hx-%02hhx%02hhx-%02hhx%02hhx%02hhx%02hhx%02hhx%02hhx`. -/
def format : List (Option Nat) :=
  [some 8, none, some 4, none, some 4, none, some 2, some 2, none,
    some 2, some 2, some 2, some 2, some 2, some 2]

def fromString (str : ByteString) : Guid :=
  let values := scan format (str.takeWhile (· ≠ 0))
  let bytes := leBytes 4 (values.getD 0 0).toNat ++ leBytes 2 (values.getD 1 0).toNat ++
    leBytes 2 (values.getD 2 0).toNat ++ (List.range 8).map fun i => (values.getD (3 + i) 0).toUInt8
  Vector.ofFn fun i => bytes.getD i 0

end Guid

/-! ## Hashes

`HashQuick` runs over the bytes before the terminator. `HashQuickLower` folds
the ASCII capitals first; its comparison is unsigned, so a byte below `'A'` wraps
around and is left alone. -/

/-- The C string a `c_str()` call hands out. -/
def cStr (s : ByteString) : ByteString := s.takeWhile (· ≠ 0)

def hashQuick (str : ByteString) : UInt32 :=
  (cStr str).foldl (fun hash b => hash * 33 ^^^ b.toUInt32) 5381

def toLowerByte (b : UInt8) : UInt32 :=
  let c := b.toUInt32
  if c - 65 ≤ 90 - 65 then c + (97 - 65) else c

def hashQuickLower (str : ByteString) : UInt32 :=
  (cStr str).foldl (fun hash b => hash * 33 ^^^ toLowerByte b) 5381

/-! ## Byte order -/

/-- `_SwapEndiannessU32`. -/
def swapEndiannessU32 (val : UInt32) : UInt32 :=
  (val >>> 24 &&& (0xff : UInt32)) ||| (val <<< 8 &&& (0xff0000 : UInt32)) |||
    (val >>> 8 &&& (0xff00 : UInt32)) ||| (val <<< 24 &&& (0xff000000 : UInt32))

/-- `_SwapEndiannessU64`. -/
def swapEndiannessU64 (x : UInt64) : UInt64 :=
  let x := (x &&& (0x00000000FFFFFFFF : UInt64)) <<< 32 |||
    (x &&& (0xFFFFFFFF00000000 : UInt64)) >>> 32
  let x := (x &&& (0x0000FFFF0000FFFF : UInt64)) <<< 16 |||
    (x &&& (0xFFFF0000FFFF0000 : UInt64)) >>> 16
  (x &&& (0x00FF00FF00FF00FF : UInt64)) <<< 8 ||| (x &&& (0xFF00FF00FF00FF00 : UInt64)) >>> 8

end Kyber.ModLoader
