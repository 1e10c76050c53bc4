import Mathlib.Data.List.Infix
import Mathlib.Tactic.Ring
import Kyber.Proxy.UserManager

/-!
# The game's socket behind proxies (`UDPSocket.cpp`, `WebSocket.cpp`)

The engine talks to its peers through one UDP socket. A game server also has a
web socket to each proxy, and messages from any of them arrive in one queue that
`ReceiveFrom` empties before it reads the UDP socket. The engine knows peers by
address only, so a client behind a proxy is given a made-up one: the host
`0.1.1.i` stands for proxy `i`, and the port is the identifier that the proxy has
put in front of the packet. `Send` turns such an address back.

A step of the socket is one call. What the operating system answers is an
argument. A call whose behaviour is undefined in the source, a copy out of bounds
or the use of a null pointer, has no result.

A web socket of the source may be closed, in which case its `Send` drops the
frame. The model keeps what each web socket is handed.
-/

namespace Kyber.Network

open Kyber.Proxy (Bytes)

/-! ## Addresses -/

/-- `in_addr`, in network order. -/
structure InAddr where
  b₀ : UInt8
  b₁ : UInt8
  b₂ : UInt8
  b₃ : UInt8
  deriving DecidableEq, Repr

/-- `sockaddr_in`. A `SocketAddr` is a copy of one. -/
structure SockaddrIn where
  family : UInt16
  port : UInt16
  addr : InAddr
  deriving DecidableEq, Repr

def afInet : UInt16 := 2

/-- `"0.1.1."`, the start of the address text of every proxy -/
def proxyHost : List Char := ['0', '.', '1', '.', '1', '.']

/-- `std::to_string` -/
def toString (n : Nat) : List Char := Nat.toDigits 10 n

def inetNtoa (a : InAddr) : List Char :=
  toString a.b₀.toNat ++ '.' :: toString a.b₁.toNat ++ '.' :: toString a.b₂.toNat ++
    '.' :: toString a.b₃.toNat

/-- A digit of C's notation for numbers. -/
def digitValue (base : Nat) (c : Char) : Option Nat :=
  let v :=
    if c.isDigit then some (c.toNat - '0'.toNat)
    else if 'a' ≤ c ∧ c ≤ 'f' then some (c.toNat - 'a'.toNat + 10)
    else if 'A' ≤ c ∧ c ≤ 'F' then some (c.toNat - 'A'.toNat + 10)
    else none
  v.filter (· < base)

def digitsValue (base : Nat) (digits : List Char) : Option Nat :=
  digits.foldlM (fun acc c => (digitValue base c).map (acc * base + ·)) 0

/-- A part of an address text: `0x` starts a hexadecimal number, `0` an octal one. -/
def partValue : List Char → Option Nat
  | [] => none
  | '0' :: 'x' :: digits | '0' :: 'X' :: digits =>
      if digits.isEmpty then none else digitsValue 16 digits
  | '0' :: digits => digitsValue 8 digits
  | digits => digitsValue 10 digits

/-- Byte `k` of a number, the lowest being byte 0. -/
def byteAt (n k : Nat) : UInt8 := UInt8.ofNat (n / 256 ^ k)

/-- `inet_addr`, which answers `INADDR_NONE` for what is not an address. The last
of less than four parts fills the rest of the address. -/
def inetAddr (text : List Char) : InAddr :=
  let none := InAddr.mk 255 255 255 255
  match (text.splitOn '.').mapM partValue with
  | some [a, b, c, d] =>
      if a < 256 ∧ b < 256 ∧ c < 256 ∧ d < 256 then
        ⟨byteAt a 0, byteAt b 0, byteAt c 0, byteAt d 0⟩
      else none
  | some [a, b, c] =>
      if a < 256 ∧ b < 256 ∧ c < 256 ^ 2 then
        ⟨byteAt a 0, byteAt b 0, byteAt c 1, byteAt c 0⟩
      else none
  | some [a, b] =>
      if a < 256 ∧ b < 256 ^ 3 then ⟨byteAt a 0, byteAt b 2, byteAt b 1, byteAt b 0⟩ else none
  | some [a] =>
      if a < 256 ^ 4 then ⟨byteAt a 3, byteAt a 2, byteAt a 1, byteAt a 0⟩ else none
  | _ => none

/-- `atoi`: blanks, a sign and the digits in front of anything else. -/
def atoi (text : List Char) : Int :=
  let number (digits : List Char) : Nat :=
    (digits.takeWhile Char.isDigit).foldl (fun acc c => acc * 10 + (c.toNat - '0'.toNat)) 0
  match text.dropWhile Char.isWhitespace with
  | '-' :: digits => -(number digits : Int)
  | '+' :: digits => number digits
  | digits => number digits

/-! ## The socket -/

inductive ProtocolDirection
  | serverbound
  | clientbound
  deriving DecidableEq, Repr

/-- `WebSocketMessage`: `data` is the part of the array that `size` covers. -/
structure WebSocketMessage where
  socketId : Nat
  data : Bytes
  deriving DecidableEq, Repr

/-- `sizeof(WebSocketMessage::data)` -/
def messageCapacity : Nat := 2048

/-- `sizeof(s_proxifyBuffer)` -/
def proxifyCapacity : Nat := 3072

structure PacketInfo where
  minSize : Nat
  maxSize : Nat
  recommendedSize : Nat
  overheadWhenAligned : Nat
  alignment : Nat
  deriving DecidableEq, Repr

/-- `SetDefaultPacketInfo` -/
def defaultPacketInfo : PacketInfo where
  minSize := 1
  maxSize := 1264
  recommendedSize := 1264
  overheadWhenAligned := 28
  alignment := 1

structure UDPSocket where
  direction : ProtocolDirection
  /-- `m_info.isProxied` -/
  isProxied : Bool
  /-- `m_socketHandle != INVALID_SOCKET` -/
  isOpen : Bool
  peerAddress : SockaddrIn
  proxyQueue : List WebSocketMessage
  /-- `m_sockets`: the frames each web socket has been handed -/
  sockets : List (List Bytes)
  /-- the datagrams handed to `sendto` -/
  datagrams : List (SockaddrIn × Bytes)
  deriving DecidableEq, Repr

namespace UDPSocket

/-- `WebSocket::Receive` of web socket `index`, for a message. -/
def webSocketReceive (s : UDPSocket) (index : Nat) (str : Bytes) : UDPSocket :=
  if messageCapacity < str.length then s
  else { s with proxyQueue := s.proxyQueue ++ [{ socketId := index, data := str }] }

def setPeerAddress (s : UDPSocket) (address : SockaddrIn) : UDPSocket :=
  { s with peerAddress := address }

/-- `ProxifyBuffer`: the copy goes to an array of fixed size. -/
def proxifyBuffer (buffer : Bytes) (addr : SockaddrIn) : Option Bytes :=
  if proxifyCapacity < buffer.length + 2 then none
  else some ((addr.port >>> 8).toUInt8 :: addr.port.toUInt8 :: buffer)

/-- `Send`. `failed` says that `sendto` fails with another error than
`WSAEWOULDBLOCK`. -/
def send (s : UDPSocket) (buffer : Bytes) (failed : Bool) : Option (Bool × UDPSocket) :=
  let addr := s.peerAddress
  let ip := inetNtoa addr.addr
  if s.isProxied ∨ s.direction = .clientbound ∧ proxyHost <:+: ip then
    if s.direction = .clientbound then
      -- `ip` has not been set when `m_info.isProxied` decides.
      if s.isProxied then none
      else
        match proxifyBuffer buffer addr with
        | none => none
        | some buffer =>
            let proxyIndex := atoi (ip.drop 6)
            if proxyIndex < 0 ∨ proxyIndex ≥ s.sockets.length then some (false, s)
            else
              some (true, { s with sockets := s.sockets.modify proxyIndex.toNat (· ++ [buffer]) })
    else if s.sockets.isEmpty then none
    else some (true, { s with sockets := s.sockets.modify 0 (· ++ [buffer]) })
  else
    some (!failed, { s with datagrams := s.datagrams ++ [(addr, buffer)] })

/-- `ReceiveFrom`: the bytes it returns, or none for a negative size. `udp` is what
`recvfrom` answers if it is called. -/
def receiveFrom (s : UDPSocket) (bufferSize : Nat) (udp : Option (SockaddrIn × Bytes)) :
    Option (Option Bytes × UDPSocket) :=
  match s.proxyQueue with
  | data :: proxyQueue =>
      let s := { s with proxyQueue }
      let buffer := data.data.take bufferSize
      if s.direction = .clientbound then
        match buffer with
        | b₀ :: b₁ :: packet =>
            let addr : SockaddrIn :=
              { family := afInet
                port := b₀.toUInt16 <<< 8 ||| b₁.toUInt16
                addr := inetAddr (proxyHost ++ toString data.socketId) }
            some (some packet, { s with peerAddress := addr })
        -- `recvSize - 2` is negative, and the count of a `memmove`.
        | _ => none
      else
        some (some buffer, s)
  | [] =>
      if s.isOpen then
        match udp with
        | none => some (none, s)
        | some (addr, buffer) => some (some buffer, { s with peerAddress := addr })
      else
        some (none, s)

/-! ## Traffic -/

/-- What happens to a socket. -/
inductive Traffic
  | message (index : Nat) (str : Bytes)
  | setPeerAddress (address : SockaddrIn)
  | send (buffer : Bytes) (failed : Bool)
  | receiveFrom (bufferSize : Nat) (udp : Option (SockaddrIn × Bytes))
  deriving DecidableEq, Repr

def step (s : UDPSocket) : Traffic → Option UDPSocket
  | .message index str =>
      if index < s.sockets.length then some (s.webSocketReceive index str) else none
  | .setPeerAddress address => some (s.setPeerAddress address)
  | .send buffer failed => (s.send buffer failed).map Prod.snd
  | .receiveFrom bufferSize udp => (s.receiveFrom bufferSize udp).map Prod.snd

end UDPSocket

end Kyber.Network
