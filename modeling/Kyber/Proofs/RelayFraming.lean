import Kyber.Proofs.PeerRouting
import Kyber.Proofs.ProxyRegistry

/-!
# Frames between a proxy and a game server

A frame is a packet behind the two bytes of a client's identifier. Each side takes the two bytes
off without a look at how many there are: the proxy splits the frame of a game server, which
panics, and the game server moves what is behind them by a count that wraps around. In the other
direction the two bytes are put in front of a packet in an array of fixed size.

So a frame is handled exactly if there are two bytes, and room for them (`hop_handled_iff`). That
a frame is longer than the buffer of `ReceiveFrom` does not matter: the rest of it is cut off.
-/

namespace Kyber.Network

open Kyber.Proxy

/-! ## At the proxy -/

theorem extractIdentifier_isSome_iff (frame : Bytes) :
    (extractIdentifier frame).isSome ↔ 2 ≤ frame.length := by
  match frame with
  | [] => exact iff_of_false Bool.false_ne_true (by decide)
  | [_] => exact iff_of_false Bool.false_ne_true (by simp)
  | _ :: _ :: _ => exact iff_of_true rfl (by simp)

/-- The connection of a game server goes on after a frame exactly if the identifier can be taken
off. -/
theorem serverRelaying_serverRead_iff {p : ProxyState} {t : TaskId} (h : p.ServerRelaying t)
    (frame : Bytes) :
    (p.serverRead t frame).ServerRelaying t ↔ (extractIdentifier frame).isSome := by
  obtain ⟨task, htask, hrole⟩ := h
  have hshape := ProxyState.shape_of_task htask
  unfold ProxyState.serverRead
  cases extractIdentifier frame with
  | none =>
      refine iff_of_false ?_ Bool.false_ne_true
      rintro ⟨task', htask', hrole'⟩
      have hdone := ProxyState.shape_of_task htask'
      rw [ProxyState.shape_goto hshape, Function.update_self, hrole'] at hdone
      simp at hdone
  | some split =>
      refine iff_of_true ?_ rfl
      dsimp only
      cases p.manager.getUserById split.1 with
      | none => exact ⟨task, htask, hrole⟩
      | some user =>
          dsimp only
          cases hsend : p.send user.sender { origin := t, data := split.2 } with
          | none => exact ⟨task, htask, hrole⟩
          | some p' =>
              have hkept := congrFun (ProxyState.shape_send hsend) t
              rw [hshape] at hkept
              obtain ⟨task', htask', heq⟩ := Option.map_eq_some_iff.mp hkept
              exact ⟨task', htask', (Prod.mk.inj heq).2.trans hrole⟩

/-! ## At the game server -/

namespace UDPSocket

variable {s : UDPSocket}

/-- What `ReceiveFrom` has put into the buffer is taken apart. -/
theorem receiveFrom_isSome_iff (hc : s.direction = .clientbound) {m : WebSocketMessage}
    {later : List WebSocketMessage} (hturn : s.proxyQueue = m :: later) (bufferSize : Nat)
    (udp : Option (SockaddrIn × Bytes)) :
    (s.receiveFrom bufferSize udp).isSome ↔ 2 ≤ bufferSize ∧ 2 ≤ m.data.length := by
  have hlen : (m.data.take bufferSize).length = min bufferSize m.data.length := List.length_take
  simp only [receiveFrom, hturn, hc]
  cases h : m.data.take bufferSize with
  | nil =>
      rw [h, List.length_nil] at hlen
      exact iff_of_false Bool.false_ne_true (by omega)
  | cons b rest =>
      cases rest with
      | nil =>
          rw [h, List.length_singleton] at hlen
          exact iff_of_false Bool.false_ne_true (by omega)
      | cons b' rest' =>
          rw [h, List.length_cons, List.length_cons] at hlen
          exact iff_of_true rfl (by omega)

theorem send_isSome_iff (hc : s.direction = .clientbound) (hp : s.isProxied = false) {k : Nat}
    (h : s.peerAddress.addr.IsProxy k) (packet : Bytes) (failed : Bool) :
    (s.send packet failed).isSome ↔ packet.length + 2 ≤ proxifyCapacity := by
  rw [send_of_isProxy hc hp h]
  by_cases hfit : proxifyCapacity < packet.length + 2
  · rw [if_pos hfit]
    exact iff_of_false Bool.false_ne_true (Nat.not_le.mpr hfit)
  · rw [if_neg hfit]
    refine iff_of_true ?_ (Nat.not_lt.mp hfit)
    split <;> rfl

end UDPSocket

/-! ## All of them -/

/-- A frame that is next to be handled by one of the sides. -/
inductive Hop
  /-- The proxy reads it from connection `t`, of a game server. -/
  | proxyReads (p : ProxyState) (t : TaskId) (relaying : p.ServerRelaying t) (frame : Bytes)
  /-- The game server receives it into a buffer. -/
  | serverReceives (s : UDPSocket) (clientbound : s.direction = .clientbound)
      (m : WebSocketMessage) (turn : s.proxyQueue.head? = some m) (bufferSize : Nat)
      (udp : Option (SockaddrIn × Bytes))
  /-- The game server makes it of a packet for a client behind proxy `k`. -/
  | serverSends (s : UDPSocket) (clientbound : s.direction = .clientbound)
      (direct : s.isProxied = false) (k : Nat) (proxied : s.peerAddress.addr.IsProxy k)
      (packet : Bytes) (failed : Bool)

namespace Hop

/-- The proxy's task does not panic, and the game server does not touch other memory. -/
def Handled : Hop → Prop
  | .proxyReads p t _ frame => (p.serverRead t frame).ServerRelaying t
  | .serverReceives s _ _ _ bufferSize udp => (s.receiveFrom bufferSize udp).isSome
  | .serverSends s _ _ _ _ packet failed => (s.send packet failed).isSome

/-- There is an identifier, or room for it. -/
def Fits : Hop → Prop
  | .proxyReads _ _ _ frame => 2 ≤ frame.length
  | .serverReceives _ _ m _ bufferSize _ => 2 ≤ bufferSize ∧ 2 ≤ m.data.length
  | .serverSends _ _ _ _ _ packet _ => packet.length + 2 ≤ proxifyCapacity

end Hop

theorem hop_handled_iff (hop : Hop) : hop.Handled ↔ hop.Fits := by
  cases hop with
  | proxyReads p t relaying frame =>
      exact (serverRelaying_serverRead_iff relaying frame).trans
        (extractIdentifier_isSome_iff frame)
  | serverReceives s clientbound m turn bufferSize udp =>
      obtain ⟨later, hlater⟩ := List.head?_eq_some_iff.mp turn
      exact UDPSocket.receiveFrom_isSome_iff clientbound hlater bufferSize udp
  | serverSends s clientbound direct k proxied packet failed =>
      exact UDPSocket.send_isSome_iff clientbound direct proxied packet failed

/-- A proxy with the connection of a game server. -/
def sampleProxy : ProxyState := { tasks := [{ serverId := [1], role := .server .relay }] }

/-- A frame of one byte, on both sides, and a packet that fills the array. -/
theorem frames_fault :
    ¬ (Hop.proxyReads sampleProxy 0 ⟨_, rfl, rfl⟩ [5]).Handled ∧
      ¬ (Hop.serverReceives { sampleServer with proxyQueue := [{ socketId := 0, data := [5] }] }
        rfl _ rfl 1264 none).Handled ∧
      ¬ (Hop.serverSends (sampleServer.setPeerAddress (proxyAddress 1 300)) rfl rfl 1
        ⟨rfl, rfl, rfl, rfl⟩ (List.replicate 3071 5) false).Handled := by
  refine ⟨?_, ?_, ?_⟩
  · rintro ⟨task, htask, hrole⟩
    cases htask
    cases hrole
  · exact Bool.false_ne_true
  · intro h
    have hfit := (UDPSocket.send_isSome_iff rfl rfl ⟨rfl, rfl, rfl, rfl⟩ _ _).mp h
    rw [List.length_replicate] at hfit
    exact absurd hfit (by decide)

end Kyber.Network
