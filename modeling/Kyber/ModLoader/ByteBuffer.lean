import Kyber.Lib.Bytes

/-!
# The byte buffer (`ByteBuffer.hpp`, `ByteBuffer.cpp`)

`bb::ByteBuffer` is a vector of bytes with a read and a write cursor, and
every file format of the mod loader is written against it. The model keeps the
three fields and every operation the formats use, under the source's names.

Positions are `uint32_t` in the source. The write cursor's arithmetic wraps
here exactly as it does there, because a wrapped cursor is how a write of four
gigabytes goes wrong: the vector is not grown, and the copy runs past its end.
Such a write is undefined behaviour and ends the computation with a `Fault`.
The read cursor is kept unbounded. A read never moves it by more than what it
was asked for, so the two agree on every position below the length of a buffer
that fits in 32 bits.

Reads come in two kinds. `read` answers zero past the end and still advances;
`readUnsafe` does not look, so past the end it faults.
-/

namespace Kyber.ModLoader

open Kyber.Lib

/-- The payload of a `std::string` or an `eastl::string`: bytes, no encoding. -/
abbrev ByteString := List UInt8

/-- How a modelled computation can end without a value. -/
inductive Fault
  /-- Memory is touched outside of an object, or a null pointer is followed. -/
  | outOfBounds
  /-- A signed integer leaves its range, or an array of negative size is made. -/
  | overflow
  /-- `KB_UNIMPLEMENTED`: the process logs an error and exits. -/
  | unimplemented
  /-- The step bound of a modelled loop or recursion is used up. -/
  | fuel
  deriving DecidableEq, Repr

/-- `bb::ByteBuffer`, without its debug name. -/
structure ByteBuffer where
  buf : List UInt8 := []
  wpos : Nat := 0
  rpos : Nat := 0
  deriving DecidableEq, Repr

/-- Code that works on one byte buffer. -/
abbrev BufM := StateT ByteBuffer (Except Fault)

/-- Copy `b` over the bytes from `p` on. -/
def overwrite (buf : List UInt8) (p : Nat) (b : List UInt8) : List UInt8 :=
  buf.take p ++ b ++ buf.drop (p + b.length)

namespace ByteBuffer

/-- `ByteBuffer(uint8_t* arr, uint32_t size)` on a non-null array. -/
def ofBytes (bytes : List UInt8) : ByteBuffer :=
  { buf := bytes, wpos := bytes.length % 2 ^ 32 }

/-- `size()`, a 32-bit count of the vector's elements. -/
def size (b : ByteBuffer) : Nat := b.buf.length % 2 ^ 32

/-- Bytes from the read cursor to the end of the vector. -/
def rest (b : ByteBuffer) : List UInt8 := b.buf.drop b.rpos

/-- The buffer with the read cursor `n` bytes further. -/
def skip (b : ByteBuffer) (n : Nat) : ByteBuffer := { b with rpos := b.rpos + n }

end ByteBuffer

def getReadPos : BufM Nat := return (← get).rpos

def setReadPos (r : Nat) : BufM Unit := modify fun b => { b with rpos := r }

def getWritePos : BufM Nat := return (← get).wpos

def setWritePos (w : Nat) : BufM Unit :=
  modify fun b => { b with wpos := w % 2 ^ 32 }

/-! ## Writing -/

/-- `putBytes(b, len)`; `append<T>` is the same code for the bytes of a `T`.
The vector grows only when its size is below the wrapped end of the write. -/
def putBytes (b : List UInt8) (len : Nat) : BufM Unit := do
  let s ← get
  let stop := (s.wpos + len % 2 ^ 32) % 2 ^ 32
  let buf := if s.size < stop then s.buf ++ List.replicate (stop - s.buf.length) 0
    else s.buf
  if s.wpos + len % 2 ^ 32 ≤ buf.length ∧ len % 2 ^ 32 ≤ b.length then
    set { s with buf := overwrite buf s.wpos (b.take (len % 2 ^ 32)), wpos := stop }
  else
    throw .outOfBounds

def append (data : List UInt8) : BufM Unit := putBytes data data.length

/-- `put(uint8_t)`, and `putChar` on the same byte. -/
def put (b : UInt8) : BufM Unit := append [b]

def putShort (value : UInt16) : BufM Unit := append (leBytes 2 value.toNat)

def putInt (value : UInt32) : BufM Unit := append (leBytes 4 value.toNat)

def putLong (value : UInt64) : BufM Unit := append (leBytes 8 value.toNat)

/-- `putNullTerminatedString(str.c_str())`: the bytes before the first NUL and
one NUL. The index is an `int`, so a string of 2^31 bytes overflows it. -/
def putNullTerminatedString (str : ByteString) : BufM Unit := do
  let chars := str.takeWhile (· ≠ 0)
  if chars.length < 2 ^ 31 then
    chars.forM put
    put 0
  else
    throw .overflow

/-- `while (getWritePos() % alignment != 0) put(0x00)`, for at most this many rounds. -/
def padRounds (alignment : Nat) : Nat → BufM Unit
  | 0 => throw .fuel
  | n + 1 => do
      if (← getWritePos) % alignment ≠ 0 then
        put 0x00
        padRounds alignment n

/-! ## Reading -/

/-- `read<T>()` for a `T` of `n` bytes. -/
def read (n : Nat) : BufM (List UInt8) := do
  let s ← get
  set (s.skip n)
  return if s.rpos + n ≤ s.buf.length then s.rest.take n else List.replicate n 0

/-- `readUnsafe<T>()` for a `T` of `n` bytes. -/
def readUnsafe (n : Nat) : BufM (List UInt8) := do
  let s ← get
  if s.rpos + n ≤ s.buf.length then
    set (s.skip n)
    return s.rest.take n
  else
    throw .outOfBounds

/-- `get()`. -/
def getByte : BufM UInt8 := return (← read 1).headD 0

def getShort : BufM UInt16 := return UInt16.ofNat (leNat (← read 2))

def getInt : BufM UInt32 := return UInt32.ofNat (leNat (← read 4))

def getLong : BufM UInt64 := return UInt64.ofNat (leNat (← read 8))

/-- `getBytes(buf, len)`: `len` single-byte reads. -/
def getBytes : Nat → BufM (List UInt8)
  | 0 => return []
  | n + 1 => do
      let b ← getByte
      let bs ← getBytes n
      return b :: bs

/-- `getNullTerminatedString()`. The source reads on past the end of a buffer
that holds no NUL; the string is taken to end where the buffer does. -/
def getNullTerminatedString : BufM ByteString := do
  let s ← get
  let chars := s.rest.takeWhile (· ≠ 0)
  set (s.skip (chars.length + 1))
  return chars

/-- A counted loop that collects what its rounds read. -/
def repeatM {α : Type} (r : BufM α) : Nat → BufM (List α)
  | 0 => return []
  | n + 1 => do
      let a ← r
      let as ← repeatM r n
      return a :: as

/-- `getBytes(dst, 0x10)` into an array of sixteen bytes. -/
def getBytes16 : BufM (Vector UInt8 16) := do
  let bs ← getBytes 16
  return Vector.ofFn fun i => bs.getD i 0

end Kyber.ModLoader
