import Kyber.Lib.Runs
import Kyber.Network.UDPSocket

/-!
# There and back through a proxy

A packet that a proxy has put an identifier in front of is received with a peer
address that stands for the proxy and the identifier, and a reply to that address
is handed to the same proxy behind the same identifier. In between the socket may
do anything else.

Sizes are what it depends on. The identifier takes part of the buffer that
`ReceiveFrom` is given, so a packet comes through whole exactly if there is room
for the two bytes as well; and the reply is copied to an array of fixed size.
-/

namespace Kyber.Network

open Kyber.Lib
open Kyber.Proxy (Bytes prependIdentifier extractIdentifier)

/-! ## The made-up address -/

theorem identifier_bytes (u : UInt16) :
    (u >>> 8).toUInt8.toUInt16 <<< 8 ||| u.toUInt8.toUInt16 = u := by
  apply UInt16.toNat_inj.mp
  have hu := u.toNat_lt
  have h8 : (8 : UInt16).toNat % 16 = 8 := rfl
  have hhi : u.toNat / 2 ^ 8 % 2 ^ 8 * 2 ^ 8 < 2 ^ 16 := by omega
  have hlo : u.toNat % 2 ^ 8 < 2 ^ 8 := by omega
  rw [UInt16.toNat_or, UInt16.toNat_shiftLeft, UInt8.toNat_toUInt16, UInt8.toNat_toUInt16,
    UInt16.toNat_toUInt8, UInt16.toNat_toUInt8, UInt16.toNat_shiftRight, h8,
    Nat.shiftRight_eq_div_pow, Nat.shiftLeft_eq, Nat.mod_eq_of_lt hhi, Nat.mul_comm,
    ← Nat.two_pow_add_eq_or_of_lt hlo]
  omega

theorem length_prependIdentifier (packet : Bytes) (u : UInt16) :
    (prependIdentifier packet u).length = packet.length + 2 := by
  simp [prependIdentifier]

theorem extractIdentifier_prependIdentifier (packet : Bytes) (u : UInt16) :
    extractIdentifier (prependIdentifier packet u) = some (u, packet) := by
  simp only [prependIdentifier, List.cons_append, List.nil_append, extractIdentifier,
    identifier_bytes]

theorem inetAddr_proxy {i : Nat} (h : i < 256) :
    inetAddr (proxyHost ++ toString i) = ⟨0, 1, 1, UInt8.ofNat i⟩ := by
  have hall : ∀ i : Fin 256, inetAddr (proxyHost ++ toString i) = ⟨0, 1, 1, UInt8.ofNat i⟩ := by
    decide +kernel
  exact hall ⟨i, h⟩

theorem atoi_toString {i : Nat} (h : i < 256) : atoi (toString i) = i := by
  have hall : ∀ i : Fin 256, atoi (toString i) = (i : Nat) := by decide +kernel
  exact hall ⟨i, h⟩

theorem inetNtoa_proxy (b : UInt8) : inetNtoa ⟨0, 1, 1, b⟩ = proxyHost ++ toString b.toNat := by
  have h0 : toString (0 : UInt8).toNat = ['0'] := by decide
  have h1 : toString (1 : UInt8).toNat = ['1'] := by decide
  rw [inetNtoa, h0, h1]
  rfl

/-- The address that stands for client `u` behind proxy `i`. -/
def proxyAddress (i : Nat) (u : UInt16) : SockaddrIn where
  family := afInet
  port := u
  addr := ⟨0, 1, 1, UInt8.ofNat i⟩

namespace UDPSocket

variable {s s' : UDPSocket}

/-- A game server's socket, with its web sockets. -/
structure GameServer (s : UDPSocket) : Prop where
  clientbound : s.direction = .clientbound
  direct : s.isProxied = false
  few : s.sockets.length < 256

/-- A reply to the made-up address goes to the proxy it names, behind the
identifier, if the copy is in bounds. -/
theorem send_proxyAddress (hs : s.GameServer) {i : Nat} (hi : i < s.sockets.length) (u : UInt16)
    (r : Bytes) (failed : Bool) :
    (s.setPeerAddress (proxyAddress i u)).send r failed =
      if proxifyCapacity < r.length + 2 then none
      else some (true,
        { s with peerAddress := proxyAddress i u
                 sockets := s.sockets.modify i (· ++ [prependIdentifier r u]) }) := by
  have hi256 : i < 256 := hi.trans hs.few
  have hb : (UInt8.ofNat i).toNat = i := by
    rw [UInt8.toNat_ofNat']
    omega
  have hhost : inetNtoa (proxyAddress i u).addr = proxyHost ++ toString i := by
    rw [proxyAddress, inetNtoa_proxy, hb]
  have hin : proxyHost <:+: proxyHost ++ toString i := (List.prefix_append _ _).isInfix
  have hindex : atoi ((proxyHost ++ toString i).drop 6) = i := atoi_toString hi256
  have hframe : proxifyBuffer r (proxyAddress i u) =
      if proxifyCapacity < r.length + 2 then none else some (prependIdentifier r u) := rfl
  simp only [send, setPeerAddress, hhost, hs.clientbound, hs.direct, hin, hframe, hindex]
  by_cases hr : proxifyCapacity < r.length + 2
  · simp [hr]
  · simp [hr, hi]

/-- What `ReceiveFrom` makes of a packet that a proxy has passed on. -/
theorem receiveFrom_proxied (hs : s.GameServer) {i : Nat} (hi : i < s.sockets.length) (u : UInt16)
    (p : Bytes) {later : List WebSocketMessage}
    (hq : s.proxyQueue = { socketId := i, data := prependIdentifier p u } :: later)
    (bufferSize : Nat) (udp : Option (SockaddrIn × Bytes)) :
    s.receiveFrom bufferSize udp =
      if bufferSize < 2 then none
      else some (some (p.take (bufferSize - 2)),
        { s with proxyQueue := later, peerAddress := proxyAddress i u }) := by
  have haddr : inetAddr (proxyHost ++ toString i) = ⟨0, 1, 1, UInt8.ofNat i⟩ :=
    inetAddr_proxy (hi.trans hs.few)
  simp only [receiveFrom, hq, hs.clientbound]
  match bufferSize with
  | 0 => rfl
  | 1 => rfl
  | n + 2 =>
      simp only [prependIdentifier, List.cons_append, List.nil_append, List.take_succ_cons,
        identifier_bytes, haddr]
      rfl

/-! ## Other traffic -/

/-- The messages that the traffic puts into the queue. -/
def Traffic.arrives : Traffic → List WebSocketMessage
  | .message index str =>
      if messageCapacity < str.length then [] else [{ socketId := index, data := str }]
  | _ => []

/-- How many messages it may take out. -/
def Traffic.receives : Traffic → Nat
  | .receiveFrom _ _ => 1
  | _ => 0

/-- What no traffic changes. -/
structure Kept (s s' : UDPSocket) : Prop where
  direction : s'.direction = s.direction
  isProxied : s'.isProxied = s.isProxied
  sockets : s'.sockets.length = s.sockets.length

theorem Kept.refl (s : UDPSocket) : Kept s s := ⟨rfl, rfl, rfl⟩

theorem Kept.trans {s₁ s₂ s₃ : UDPSocket} (h : Kept s₁ s₂) (h' : Kept s₂ s₃) : Kept s₁ s₃ :=
  ⟨h'.direction.trans h.direction, h'.isProxied.trans h.isProxied, h'.sockets.trans h.sockets⟩

theorem Kept.gameServer (h : Kept s s') (hs : s.GameServer) : s'.GameServer :=
  ⟨h.direction.trans hs.clientbound, h.isProxied.trans hs.direct, by
    rw [h.sockets]
    exact hs.few⟩

theorem webSocketReceive_queue (s : UDPSocket) (i : Nat) (str : Bytes) :
    (s.webSocketReceive i str).proxyQueue = s.proxyQueue ++ (Traffic.message i str).arrives := by
  unfold webSocketReceive Traffic.arrives
  by_cases h : messageCapacity < str.length
  · simp [h]
  · simp [h]

theorem webSocketReceive_kept (s : UDPSocket) (i : Nat) (str : Bytes) :
    Kept s (s.webSocketReceive i str) := by
  unfold webSocketReceive
  split
  · exact .refl _
  · exact ⟨rfl, rfl, rfl⟩

theorem send_kept {r : Bytes} {failed ok : Bool} (h : s.send r failed = some (ok, s')) :
    Kept s s' ∧ s'.proxyQueue = s.proxyQueue := by
  unfold send at h
  simp only [] at h
  split at h
  · split at h
    · split at h
      · cases h
      · split at h
        · cases h
        · split at h <;> cases h
          · exact ⟨.refl _, rfl⟩
          · exact ⟨⟨rfl, rfl, by simp⟩, rfl⟩
    · split at h <;> cases h
      exact ⟨⟨rfl, rfl, by simp⟩, rfl⟩
  · cases h
    exact ⟨⟨rfl, rfl, rfl⟩, rfl⟩

theorem receiveFrom_kept {bufferSize : Nat} {udp : Option (SockaddrIn × Bytes)}
    {data : Option Bytes} (h : s.receiveFrom bufferSize udp = some (data, s')) :
    Kept s s' ∧ s'.proxyQueue = s.proxyQueue.tail := by
  unfold receiveFrom at h
  split at h
  · next m later hq =>
      simp only [] at h
      rw [hq]
      split at h
      · split at h <;> cases h
        exact ⟨⟨rfl, rfl, rfl⟩, rfl⟩
      · cases h
        exact ⟨⟨rfl, rfl, rfl⟩, rfl⟩
  · next hq =>
      have hall : ∀ addr, ({ s with peerAddress := addr } : UDPSocket).proxyQueue = s.proxyQueue.tail := by
        intro addr
        show s.proxyQueue = _
        rw [hq]
        rfl
      split at h
      · split at h <;> cases h
        · exact ⟨.refl _, hall s.peerAddress⟩
        · exact ⟨⟨rfl, rfl, rfl⟩, hall _⟩
      · cases h
        exact ⟨.refl _, hall s.peerAddress⟩

/-- One step: a message joins the end of the queue, or the first one leaves. -/
theorem step_spec {a : Traffic} (h : s.step a = some s') :
    Kept s s' ∧ s'.proxyQueue = s.proxyQueue.drop a.receives ++ a.arrives := by
  cases a with
  | message index str =>
      simp only [step] at h
      split at h <;> cases h
      exact ⟨webSocketReceive_kept s index str, webSocketReceive_queue s index str⟩
  | setPeerAddress address =>
      cases h
      exact ⟨⟨rfl, rfl, rfl⟩, by simp [setPeerAddress, Traffic.receives, Traffic.arrives]⟩
  | send buffer failed =>
      obtain ⟨⟨ok, s₁⟩, hsend, rfl⟩ := Option.map_eq_some_iff.mp h
      obtain ⟨hk, hq⟩ := send_kept hsend
      exact ⟨hk, by simp [hq, Traffic.receives, Traffic.arrives]⟩
  | receiveFrom bufferSize udp =>
      obtain ⟨⟨data, s₁⟩, hrecv, rfl⟩ := Option.map_eq_some_iff.mp h
      obtain ⟨hk, hq⟩ := receiveFrom_kept hrecv
      exact ⟨hk, by simp [hq, Traffic.receives, Traffic.arrives]⟩

def receives (traffic : List Traffic) : Nat := (traffic.map Traffic.receives).sum

theorem exec_kept {traffic : List Traffic} (h : exec step s traffic = some s') : Kept s s' := by
  induction traffic generalizing s with
  | nil =>
      cases h
      exact .refl _
  | cons a traffic ih =>
      obtain ⟨t, ht, hrest⟩ := Option.bind_eq_some_iff.mp h
      exact (step_spec ht).1.trans (ih hrest)

/-- The queue is first in, first out: as long as only messages that were there at
the start have been taken, the rest of them are in front. -/
theorem exec_queue {traffic : List Traffic} (h : exec step s traffic = some s')
    (hle : receives traffic ≤ s.proxyQueue.length) :
    ∃ later, s'.proxyQueue = s.proxyQueue.drop (receives traffic) ++ later := by
  induction traffic generalizing s with
  | nil =>
      cases h
      exact ⟨[], by simp [receives]⟩
  | cons a traffic ih =>
      obtain ⟨t, ht, hrest⟩ := Option.bind_eq_some_iff.mp h
      obtain ⟨-, hq⟩ := step_spec ht
      have hsum : receives (a :: traffic) = a.receives + receives traffic := by
        simp [receives]
      have hlen : receives traffic ≤ (s.proxyQueue.drop a.receives).length := by
        rw [List.length_drop]
        omega
      obtain ⟨later, hlater⟩ := ih hrest (by rw [hq, List.length_append]; omega)
      refine ⟨a.arrives ++ later, ?_⟩
      rw [hlater, hq, List.drop_append_of_le_length hlen, List.drop_drop, hsum,
        List.append_assoc]

/-! ## There and back -/

/-- `ReceiveFrom` returns the payload, and whatever happens then, a reply to the
peer address it has left is handed to web socket `i`, in a frame that the proxy
reads as the identifier and the reply. -/
def RoundTrip (s : UDPSocket) (i : Nat) (u : UInt16) (p r : Bytes) (bufferSize : Nat)
    (udp : Option (SockaddrIn × Bytes)) : Prop :=
  ∃ s₁, s.receiveFrom bufferSize udp = some (some p, s₁) ∧
    ∀ between s₂ failed, exec step s₁ between = some s₂ →
      ∃ s₃ frame, (s₂.setPeerAddress s₁.peerAddress).send r failed = some (true, s₃) ∧
        s₃.sockets = s₂.sockets.modify i (· ++ [frame]) ∧
        extractIdentifier frame = some (u, r)

/-- The message that has its turn after `before`. -/
theorem queue_turn {i : Nat} {str : Bytes} (hstr : str.length ≤ messageCapacity)
    {before : List Traffic} (h : exec step (s.webSocketReceive i str) before = some s')
    (hturn : receives before = s.proxyQueue.length) :
    ∃ later, s'.proxyQueue = { socketId := i, data := str } :: later := by
  have hq := webSocketReceive_queue s i str
  rw [Traffic.arrives, if_neg (by omega)] at hq
  obtain ⟨later, hlater⟩ := exec_queue h (by rw [hq, List.length_append]; omega)
  refine ⟨later, ?_⟩
  rw [hlater, hq, hturn, List.drop_left]
  rfl

end UDPSocket

open UDPSocket

/-- A payload of at most the packet size that the engine is told makes the way
there and back exactly if it fits behind its identifier into the buffer of
`ReceiveFrom`, and the reply into that of `ProxifyBuffer`. `before` is the traffic
up to the turn of the payload's message. -/
theorem roundTrip_iff {s s₁ : UDPSocket} (hs : s.GameServer) {i : Nat}
    (hi : i < s.sockets.length) (u : UInt16) {p : Bytes}
    (hp : p.length ≤ defaultPacketInfo.maxSize) (r : Bytes) (bufferSize : Nat)
    (udp : Option (SockaddrIn × Bytes)) {before : List Traffic}
    (hbefore : exec step (s.webSocketReceive i (prependIdentifier p u)) before = some s₁)
    (hturn : receives before = s.proxyQueue.length) :
    s₁.RoundTrip i u p r bufferSize udp ↔
      p.length + 2 ≤ bufferSize ∧ r.length + 2 ≤ proxifyCapacity := by
  have hkept : Kept s s₁ := (webSocketReceive_kept s i _).trans (exec_kept hbefore)
  have hs₁ := hkept.gameServer hs
  have hi₁ : i < s₁.sockets.length := by
    rw [hkept.sockets]
    exact hi
  have hcap : (prependIdentifier p u).length ≤ messageCapacity := by
    simp only [defaultPacketInfo] at hp
    rw [length_prependIdentifier, messageCapacity]
    omega
  obtain ⟨later, hq⟩ := queue_turn hcap hbefore hturn
  obtain ⟨t, hrecv, hkt, haddr⟩ : ∃ t, s₁.receiveFrom bufferSize udp =
      (if bufferSize < 2 then none else some (some (p.take (bufferSize - 2)), t)) ∧
      Kept s₁ t ∧ t.peerAddress = proxyAddress i u :=
    ⟨_, receiveFrom_proxied hs₁ hi₁ u p hq bufferSize udp, ⟨rfl, rfl, rfl⟩, rfl⟩
  have hsend : ∀ s₂ failed, Kept s₁ s₂ → (s₂.setPeerAddress (proxyAddress i u)).send r failed =
      if proxifyCapacity < r.length + 2 then none
      else some (true,
        { s₂ with peerAddress := proxyAddress i u
                  sockets := s₂.sockets.modify i (· ++ [prependIdentifier r u]) }) := by
    intro s₂ failed hk
    exact send_proxyAddress (hk.gameServer hs₁) (by rw [hk.sockets]; exact hi₁) u r failed
  constructor
  · rintro ⟨s₂, h₂, hreply⟩
    rw [hrecv] at h₂
    split at h₂
    · cases h₂
    · simp only [Option.some.injEq, Prod.mk.injEq] at h₂
      obtain ⟨htake, rfl⟩ := h₂
      have hlen : (p.take (bufferSize - 2)).length = p.length := by rw [htake]
      rw [List.length_take] at hlen
      refine ⟨by omega, ?_⟩
      obtain ⟨s₃, frame, h₃, -⟩ := hreply [] t false rfl
      by_contra hr
      rw [haddr, hsend t false hkt, if_pos (by omega)] at h₃
      cases h₃
  · rintro ⟨hsize, hr⟩
    rw [if_neg (by omega), List.take_of_length_le (by omega)] at hrecv
    refine ⟨t, hrecv, fun between s₂ failed hbetween => ?_⟩
    have h₃ := hsend s₂ failed (hkt.trans (exec_kept hbetween))
    rw [if_neg (by omega)] at h₃
    rw [haddr]
    exact ⟨_, _, h₃, rfl, extractIdentifier_prependIdentifier r u⟩

/-- A game server behind two proxies, with a message in its queue. -/
def sampleServer : UDPSocket where
  direction := .clientbound
  isProxied := false
  isOpen := true
  peerAddress := ⟨2, 0, ⟨0, 0, 0, 0⟩⟩
  proxyQueue := [{ socketId := 0, data := [0, 9, 1] }]
  sockets := [[], []]
  datagrams := []

theorem sampleServer_gameServer : sampleServer.GameServer := ⟨rfl, rfl, by decide⟩

theorem roundTrip_sample :
    ∃ s₁, exec step (sampleServer.webSocketReceive 1 (prependIdentifier [5, 6] 300))
        [.receiveFrom 100 none] = some s₁ ∧ s₁.RoundTrip 1 300 [5, 6] [7] 100 none := by
  have h : exec step (sampleServer.webSocketReceive 1 (prependIdentifier [5, 6] 300))
      [.receiveFrom 100 none] = some { sampleServer with
        peerAddress := proxyAddress 0 9
        proxyQueue := [{ socketId := 1, data := [1, 44, 5, 6] }] } := by decide
  refine ⟨_, h, (roundTrip_iff sampleServer_gameServer (by decide) 300 (by decide) [7] 100 none h
    rfl).mpr ?_⟩
  decide

/-- A packet of the full size, and a buffer for a packet of the full size: its last
two bytes are lost. -/
theorem fullSize_truncated :
    let p : Bytes := List.replicate 1264 5
    let s := { sampleServer with proxyQueue := [] }.webSocketReceive 1 (prependIdentifier p 300)
    p.length ≤ defaultPacketInfo.maxSize ∧
      (∃ s₁, s.receiveFrom 1264 none = some (some (List.replicate 1262 5), s₁)) ∧
      ¬ s.RoundTrip 1 300 p [7] 1264 none := by
  intro p s
  have hp : p.length = 1264 := List.length_replicate
  have hs : s.GameServer :=
    (webSocketReceive_kept _ 1 _).gameServer ⟨rfl, rfl, by decide⟩
  have hi : 1 < s.sockets.length := by
    rw [(webSocketReceive_kept _ 1 _).sockets]
    decide
  have hq : s.proxyQueue = [{ socketId := 1, data := prependIdentifier p 300 }] := by
    rw [webSocketReceive_queue, Traffic.arrives, if_neg]
    · rfl
    · rw [length_prependIdentifier, hp]
      decide
  have hrecv := receiveFrom_proxied hs hi 300 p hq 1264 none
  rw [if_neg (by decide), List.take_replicate, show min (1264 - 2) 1264 = 1262 by decide] at hrecv
  refine ⟨le_of_eq hp, ⟨_, hrecv⟩, ?_⟩
  rintro ⟨s₁, h₁, -⟩
  rw [hrecv] at h₁
  simp only [Option.some.injEq, Prod.mk.injEq] at h₁
  have hlen := congrArg List.length h₁.1
  rw [hp, List.length_replicate] at hlen
  omega

end Kyber.Network
