import Kyber.Lib.Decimal
import Kyber.Proofs.ProxiedRouting

/-!
# Which packets go to proxies

`Send` looks for `0.1.1.` in the text of the peer's address, and takes the number of the proxy from
where it stands in the text of a proxy's address. The text has as many dots as the pattern, so the
pattern is in it exactly if the second and the third number are 1 and the first one ends with a 0
(`proxyHost_infix_iff`). That is so for the addresses of proxies, whose first number is 0, but also
for `10.1.1.5` or `120.1.1.5`, and packets to such a peer are not sent to it.

For all other addresses a packet takes the right way (`routesRight_iff`).
-/

namespace Kyber.Network

open Kyber.Lib
open Kyber.Proxy (Bytes prependIdentifier)

/-! ## Addresses with the pattern -/

/-- The address stands for proxy `k`. -/
def InAddr.IsProxy (a : InAddr) (k : Nat) : Prop :=
  a.b₀ = 0 ∧ a.b₁ = 1 ∧ a.b₂ = 1 ∧ a.b₃.toNat = k

/-- The first number of the address is not 0, but its text ends like that of a proxy's. -/
def InAddr.EndsLikeProxy (a : InAddr) : Prop :=
  a.b₀ ≠ 0 ∧ a.b₀.toNat % 10 = 0 ∧ a.b₁ = 1 ∧ a.b₂ = 1

theorem dot_notMem_toString (n : Nat) : '.' ∉ toString n := by
  intro h
  have hdigit := Nat.isDigit_of_mem_toDigits (by omega) (by omega) h
  exact absurd hdigit (by decide)

theorem zero_suffix_toString_iff (n : Nat) : ['0'] <:+ toString n ↔ n % 10 = 0 := by
  rw [List.singleton_suffix_iff_getLast?_eq_some, toString, getLast?_toDigits, Option.some.injEq]
  constructor
  · intro h
    have hchar := congrArg Char.toNat h
    rw [Nat.toNat_digitChar_of_lt_ten (Nat.mod_lt n (by omega))] at hchar
    exact Nat.add_left_cancel hchar
  · intro h
    rw [h]
    rfl

theorem toString_eq_one_iff (b : UInt8) : toString b.toNat = ['1'] ↔ b = 1 := by
  have hone : ['1'] = Nat.toDigits 10 (1 : UInt8).toNat := by decide
  rw [toString, hone, toDigits_inj, UInt8.toNat_inj]

theorem proxyHost_infix_iff (a : InAddr) :
    proxyHost <:+: inetNtoa a ↔ a.b₀.toNat % 10 = 0 ∧ a.b₁ = 1 ∧ a.b₂ = 1 := by
  have hinfix := isInfix_separated_iff (dot_notMem_toString a.b₀.toNat)
    (dot_notMem_toString a.b₁.toNat) (dot_notMem_toString a.b₂.toNat)
    (dot_notMem_toString a.b₃.toNat) (p := ['0']) (q := ['1']) (r := ['1']) (by decide)
    (by decide) (by decide)
  rw [zero_suffix_toString_iff, toString_eq_one_iff, toString_eq_one_iff] at hinfix
  exact hinfix

theorem InAddr.IsProxy.isInfix {a : InAddr} {k : Nat} (h : a.IsProxy k) :
    proxyHost <:+: inetNtoa a :=
  (proxyHost_infix_iff a).mpr ⟨by rw [h.1]; rfl, h.2.1, h.2.2.1⟩

/-- The pattern is in the text of a proxy's address, or of one that ends like it. -/
theorem proxyHost_infix_cases {a : InAddr} (h : proxyHost <:+: inetNtoa a) :
    a.IsProxy a.b₃.toNat ∨ a.EndsLikeProxy := by
  obtain ⟨h₀, h₁, h₂⟩ := (proxyHost_infix_iff a).mp h
  by_cases hzero : a.b₀ = 0
  · exact .inl ⟨hzero, h₁, h₂, rfl⟩
  · exact .inr ⟨hzero, h₀, h₁, h₂⟩

/-- The number of the proxy is read where it is. -/
theorem InAddr.IsProxy.atoi {a : InAddr} {k : Nat} (h : a.IsProxy k) :
    atoi ((inetNtoa a).drop 6) = k := by
  obtain ⟨b₀, b₁, b₂, b₃⟩ := a
  obtain ⟨rfl, rfl, rfl, rfl⟩ := h
  rw [inetNtoa_proxy]
  exact atoi_toString (UInt8.toNat_lt b₃)

/-! ## The ways of a packet -/

namespace UDPSocket

variable {s s' : UDPSocket} {buffer : Bytes} {failed ok : Bool} {k : Nat}

/-- The packet has gone to proxy `k`, behind its identifier, and nowhere else. -/
def ToProxy (s s' : UDPSocket) (k : Nat) (buffer : Bytes) : Prop :=
  k < s.sockets.length ∧ s' = { s with
    sockets := s.sockets.modify k (· ++ [prependIdentifier buffer s.peerAddress.port]) }

/-- The packet has gone to the peer as it is, and nowhere else. -/
def ToPeer (s s' : UDPSocket) (buffer : Bytes) : Prop :=
  s' = { s with datagrams := s.datagrams ++ [(s.peerAddress, buffer)] }

/-- The packet goes to a proxy exactly if the peer's address stands for it, and to the peer if its
address does not stand for any. -/
def RoutesRight (s : UDPSocket) (buffer : Bytes) (failed : Bool) : Prop :=
  ∃ ok s', s.send buffer failed = some (ok, s') ∧
    (∀ k, ToProxy s s' k buffer ↔ k < s.sockets.length ∧ s.peerAddress.addr.IsProxy k) ∧
    ((∀ k, ¬ s.peerAddress.addr.IsProxy k) → ToPeer s s' buffer)

theorem ToPeer.not_toProxy (h : ToPeer s s' buffer) (k : Nat) : ¬ ToProxy s s' k buffer := by
  rintro ⟨-, rfl⟩
  have hdatagrams := congrArg (List.length ∘ UDPSocket.datagrams) h
  simp at hdatagrams

theorem not_toProxy_self (s : UDPSocket) (k : Nat) (buffer : Bytes) : ¬ ToProxy s s k buffer := by
  rintro ⟨hk, h⟩
  have hframes := congrArg (fun s : UDPSocket => s.sockets[k]?.map List.length) h
  simp [hk] at hframes

theorem ToProxy.unique {j : Nat} (hj : ToProxy s s' j buffer) (hk : ToProxy s s' k buffer) :
    j = k := by
  obtain ⟨hlt, rfl⟩ := hj
  by_contra hne
  have hframes := congrArg (fun s : UDPSocket => s.sockets[j]?.map List.length) hk.2
  simp [hlt, Ne.symm hne] at hframes

theorem send_of_not_proxyHost (hc : s.direction = .clientbound) (hp : s.isProxied = false)
    (h : ¬ proxyHost <:+: inetNtoa s.peerAddress.addr) :
    s.send buffer failed = some (!failed,
      { s with datagrams := s.datagrams ++ [(s.peerAddress, buffer)] }) := by
  simp [send, hc, hp, h]

/-- With the pattern in its text, the address is taken for one of a proxy. -/
theorem send_of_proxyHost (hc : s.direction = .clientbound) (hp : s.isProxied = false)
    (h : proxyHost <:+: inetNtoa s.peerAddress.addr) :
    s.send buffer failed =
      if proxifyCapacity < buffer.length + 2 then none
      else
        let proxyIndex := atoi ((inetNtoa s.peerAddress.addr).drop 6)
        if proxyIndex < 0 ∨ proxyIndex ≥ s.sockets.length then some (false, s)
        else some (true, { s with
          sockets := s.sockets.modify proxyIndex.toNat
            (· ++ [prependIdentifier buffer s.peerAddress.port]) }) := by
  have hframe : proxifyBuffer buffer s.peerAddress = if proxifyCapacity < buffer.length + 2
      then none else some (prependIdentifier buffer s.peerAddress.port) := rfl
  simp only [send, hc, hp, h, hframe]
  by_cases hfit : proxifyCapacity < buffer.length + 2
  · simp [hfit]
  · simp [hfit]

theorem datagrams_of_proxyHost (hc : s.direction = .clientbound) (hp : s.isProxied = false)
    (h : proxyHost <:+: inetNtoa s.peerAddress.addr) (hsend : s.send buffer failed = some (ok, s')) :
    s'.datagrams = s.datagrams := by
  rw [send_of_proxyHost hc hp h] at hsend
  dsimp only at hsend
  split at hsend
  · cases hsend
  · split at hsend <;> cases hsend
    · rfl
    · rfl

/-- A packet to a proxy's address goes to the proxy, if there is room to copy it. -/
theorem send_of_isProxy (hc : s.direction = .clientbound) (hp : s.isProxied = false)
    (h : s.peerAddress.addr.IsProxy k) (buffer : Bytes) (failed : Bool) :
    s.send buffer failed =
      if proxifyCapacity < buffer.length + 2 then none
      else if s.sockets.length ≤ k then some (false, s)
      else some (true, { s with
        sockets := s.sockets.modify k (· ++ [prependIdentifier buffer s.peerAddress.port]) }) := by
  rw [send_of_proxyHost hc hp h.isInfix, h.atoi]
  have hindex : ((k : Int) < 0 ∨ (k : Int) ≥ s.sockets.length) ↔ s.sockets.length ≤ k := by omega
  simp only [hindex, Int.toNat_natCast]

theorem routesRight_of_isProxy (hc : s.direction = .clientbound) (hp : s.isProxied = false)
    (h : s.peerAddress.addr.IsProxy k) (hfit : buffer.length + 2 ≤ proxifyCapacity) :
    s.RoutesRight buffer failed := by
  have hsend := send_of_isProxy hc hp h buffer failed
  rw [if_neg (Nat.not_lt.mpr hfit)] at hsend
  have hproxy : ∀ {j}, s.peerAddress.addr.IsProxy j → j = k :=
    fun hj => hj.2.2.2.symm.trans h.2.2.2
  by_cases hk : s.sockets.length ≤ k
  · rw [if_pos hk] at hsend
    refine ⟨false, s, hsend, fun j => ?_, fun hnone => absurd h (hnone k)⟩
    refine iff_of_false (not_toProxy_self s j buffer) ?_
    rintro ⟨hj, hisProxy⟩
    rw [hproxy hisProxy] at hj
    omega
  · rw [if_neg hk] at hsend
    refine ⟨true, _, hsend, fun j => ?_, fun hnone => absurd h (hnone k)⟩
    have hsent : ToProxy s _ k buffer := ⟨Nat.not_le.mp hk, rfl⟩
    constructor
    · intro hj
      rw [hj.unique hsent]
      exact ⟨hsent.1, h⟩
    · rintro ⟨-, hisProxy⟩
      rwa [hproxy hisProxy]

theorem routesRight_of_not_proxyHost (hc : s.direction = .clientbound) (hp : s.isProxied = false)
    (h : ¬ proxyHost <:+: inetNtoa s.peerAddress.addr) : s.RoutesRight buffer failed := by
  refine ⟨_, _, send_of_not_proxyHost hc hp h, fun k => ?_, fun _ => rfl⟩
  refine iff_of_false (ToPeer.not_toProxy rfl k) ?_
  rintro ⟨-, hisProxy⟩
  exact h hisProxy.isInfix

/-- A packet of a game server takes the right way exactly if the peer's address does not just end
like that of a proxy and, for a proxy, the packet can be copied. -/
theorem routesRight_iff (hc : s.direction = .clientbound) (hp : s.isProxied = false)
    (buffer : Bytes) (failed : Bool) :
    s.RoutesRight buffer failed ↔ ¬ s.peerAddress.addr.EndsLikeProxy ∧
      ((∃ k, s.peerAddress.addr.IsProxy k) → buffer.length + 2 ≤ proxifyCapacity) := by
  constructor
  · rintro ⟨ok, s', hsend, -, hpeer⟩
    constructor
    · intro hends
      have hin := (proxyHost_infix_iff _).mpr hends.2
      have hudp := congrArg (List.length ∘ UDPSocket.datagrams)
        (hpeer fun k hk => hends.1 hk.1)
      simp [datagrams_of_proxyHost hc hp hin hsend] at hudp
    · rintro ⟨k, hk⟩
      by_contra hfit
      rw [send_of_isProxy hc hp hk, if_pos (Nat.not_le.mp hfit)] at hsend
      cases hsend
  · rintro ⟨hends, hfit⟩
    by_cases hin : proxyHost <:+: inetNtoa s.peerAddress.addr
    · obtain hisProxy | hends' := proxyHost_infix_cases hin
      · exact routesRight_of_isProxy hc hp hisProxy (hfit ⟨_, hisProxy⟩)
      · exact absurd hends' hends
    · exact routesRight_of_not_proxyHost hc hp hin

/-- A reply to a client behind the second of two proxies. -/
theorem routesRight_sample :
    (sampleServer.setPeerAddress (proxyAddress 1 300)).RoutesRight [7] false := by
  refine (routesRight_iff rfl rfl [7] false).mpr ⟨?_, fun _ => by decide⟩
  rintro ⟨hne, -⟩
  exact hne rfl

/-- A packet for `10.1.1.5` goes to the first proxy. -/
theorem privatePeer_proxied :
    let s := sampleServer.setPeerAddress ⟨2, 300, ⟨10, 1, 1, 5⟩⟩
    (∃ s', s.send [7] false = some (true, s') ∧ ToProxy s s' 0 [7]) ∧
      ¬ s.RoutesRight [7] false := by
  have hsend : (sampleServer.setPeerAddress ⟨2, 300, ⟨10, 1, 1, 5⟩⟩).send [7] false =
      some (true, { sampleServer with
        peerAddress := ⟨2, 300, ⟨10, 1, 1, 5⟩⟩
        sockets := [[[1, 44, 7]], []] }) := by decide
  refine ⟨⟨_, hsend, by decide, rfl⟩, ?_⟩
  rintro ⟨ok, s', hsend', -, hpeer⟩
  cases hsend.symm.trans hsend'
  have hudp := congrArg UDPSocket.datagrams (hpeer fun k hk => absurd hk.1 (by decide))
  cases hudp

end UDPSocket

end Kyber.Network
