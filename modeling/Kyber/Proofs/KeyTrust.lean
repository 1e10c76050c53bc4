import Kyber.Lib.Runs
import Kyber.Lib.Writes
import Kyber.Proxy.Jwks

/-!
# Which keys the proxy trusts

A key should be in the cache only if the last response that could be parsed has it, and
those keys of the response that can be converted should all be there. A refresh inserts the
RSA keys that it can convert, and then removes what has an id that is not listed at all. So
an old key remains if its id is listed, but only with keys of other types or with material
that cannot be converted. Apart from this the cache is right, in every run.
-/

namespace Kyber.Proxy

open Kyber.Lib

variable {κ : Type} (convert : String → String → Option κ)

/-! ## What is promised -/

/-- The key that an entry of a response stands for. -/
def Jwk.material (jwk : Jwk) : Option κ :=
  if jwk.keyType = "RSA" then convert jwk.modulus jwk.exponent else none

structure KeyHistory.Trusted (h : KeyHistory κ) : Prop where
  /-- what is in the cache is listed -/
  listed : ∀ kid entry, h.manager.keys kid = some entry →
    ∃ jwk ∈ h.response, jwk.keyId = kid ∧ jwk.material convert = some entry.1
  /-- and what is listed once is in the cache -/
  cached : ∀ jwk ∈ h.response, (h.response.map (·.keyId)).count jwk.keyId = 1 →
    ∀ key, jwk.material convert = some key →
      ∃ time, h.manager.keys jwk.keyId = some (key, time)

/-- An id that is in the cache is not listed without a key. -/
def Redeclares (h : KeyHistory κ) (call : RefreshCall) : Prop :=
  ∀ jwks ∈ call.parsed h.manager, ∀ jwk ∈ jwks, (h.manager.keys jwk.keyId).isSome →
    ∃ jwk' ∈ jwks, jwk'.keyId = jwk.keyId ∧ (jwk'.material convert).isSome

/-- A call that fails, or comes too early, leaves the cache as it is. -/
def Keeps (m : JwksManager κ) (call : RefreshCall) : Prop :=
  m.RateLimited call.now ∨ (∃ e, (m.refreshJwks convert call.now call.reply).2 = .error e) →
    (m.refreshJwks convert call.now call.reply).1.keys = m.keys

/-! ## One call -/

section

variable {convert} {m : JwksManager κ} {call : RefreshCall} {jwks : List Jwk}

theorem refreshJwks_of_not_parsed (h : call.parsed m = none) :
    (m.refreshJwks convert call.now call.reply).1 = m := by
  unfold RefreshCall.parsed at h
  unfold JwksManager.refreshJwks
  split at h
  · next hlimited => rw [if_pos hlimited]
  · next hlimited =>
      rw [if_neg hlimited]
      cases hfetch : JwksManager.fetch call.reply with
      | error e => rfl
      | ok jwks => simp [hfetch, Except.toOption] at h

theorem refreshJwks_of_parsed (h : call.parsed m = some jwks) :
    m.refreshJwks convert call.now call.reply =
      ({ keys := fun kid =>
           if kid ∈ jwks.map (·.keyId) then
             jwks.foldl (JwksManager.insertKey convert call.now) m.keys kid
           else none
         lastFetch := some call.now }, .ok ()) := by
  unfold RefreshCall.parsed at h
  unfold JwksManager.refreshJwks
  split at h
  · cases h
  · next hlimited =>
      rw [if_neg hlimited]
      cases hfetch : JwksManager.fetch call.reply with
      | error e => simp [hfetch, Except.toOption] at h
      | ok parsed =>
          rw [hfetch] at h
          cases h
          rfl

theorem keeps (m : JwksManager κ) (call : RefreshCall) : Keeps convert m call := by
  intro h
  cases hparsed : call.parsed m with
  | none => rw [refreshJwks_of_not_parsed hparsed]
  | some jwks =>
      obtain hlimited | ⟨e, he⟩ := h
      · rw [RefreshCall.parsed, if_pos hlimited] at hparsed
        cases hparsed
      · rw [refreshJwks_of_parsed hparsed] at he
        cases he

/-- What an entry writes into the cache. -/
def Jwk.written (convert : String → String → Option κ) (now : Nat) (jwk : Jwk) (kid : String) :
    Option (κ × Nat) :=
  if jwk.keyId = kid then (jwk.material convert).map (·, now) else none

theorem insertKey_apply (now : Nat) (keys : String → Option (κ × Nat)) (jwk : Jwk)
    (kid : String) :
    JwksManager.insertKey convert now keys jwk kid =
      (jwk.written convert now kid).or (keys kid) := by
  unfold JwksManager.insertKey JwksManager.jwkToDecodingKey Jwk.written Jwk.material
  by_cases hrsa : jwk.keyType = "RSA"
  · rw [if_pos hrsa, if_pos hrsa]
    cases convert jwk.modulus jwk.exponent with
    | none => simp
    | some key =>
        by_cases hkid : jwk.keyId = kid
        · rw [if_pos hkid, ← hkid]
          exact Function.update_self _ _ _
        · rw [if_neg hkid]
          exact Function.update_of_ne (Ne.symm hkid) _ _
  · rw [if_neg hrsa, if_neg hrsa]
    simp

/-- The last entry with an id counts, among those with a key. -/
theorem foldl_insertKey_apply (now : Nat) (jwks : List Jwk) (keys : String → Option (κ × Nat))
    (kid : String) :
    jwks.foldl (JwksManager.insertKey convert now) keys kid =
      (jwks.reverse.findSome? (Jwk.written convert now · kid)).or (keys kid) :=
  foldl_last_write (fun keys => keys) (Jwk.written convert now)
    (fun keys jwk => insertKey_apply now keys jwk kid) jwks keys

theorem written_eq_some_iff {now : Nat} {jwk : Jwk} {kid : String} {entry : κ × Nat} :
    jwk.written convert now kid = some entry ↔
      jwk.keyId = kid ∧ jwk.material convert = some entry.1 ∧ entry.2 = now := by
  obtain ⟨key, time⟩ := entry
  unfold Jwk.written
  by_cases hkid : jwk.keyId = kid
  · simp [hkid, eq_comm]
  · simp [hkid]

/-- What has been written is of an entry of the response. -/
theorem exists_of_findSome?_written {now : Nat} {kid : String} {entry : κ × Nat}
    (h : jwks.reverse.findSome? (Jwk.written convert now · kid) = some entry) :
    ∃ jwk ∈ jwks, jwk.keyId = kid ∧ jwk.material convert = some entry.1 := by
  obtain ⟨jwk, hjwk, hwritten⟩ := List.exists_of_findSome?_eq_some h
  obtain ⟨hkid, hmaterial, -⟩ := written_eq_some_iff.mp hwritten
  exact ⟨jwk, List.mem_reverse.mp hjwk, hkid, hmaterial⟩

/-- An entry with a key is written, if not a later one. -/
theorem findSome?_written_ne_none {now : Nat} {jwk : Jwk} (hjwk : jwk ∈ jwks)
    (h : (jwk.material convert).isSome) :
    jwks.reverse.findSome? (Jwk.written convert now · jwk.keyId) ≠ none := by
  intro hnone
  have hwritten := List.findSome?_eq_none_iff.mp hnone jwk (List.mem_reverse.mpr hjwk)
  obtain ⟨key, hkey⟩ := Option.isSome_iff_exists.mp h
  rw [Jwk.written, if_pos rfl, hkey] at hwritten
  cases hwritten

theorem eq_of_count_eq_one {jwk jwk' : Jwk} (hjwk : jwk ∈ jwks) (hjwk' : jwk' ∈ jwks)
    (hkid : jwk'.keyId = jwk.keyId) (hcount : (jwks.map (·.keyId)).count jwk.keyId = 1) :
    jwk' = jwk := by
  rw [List.count_eq_countP, List.countP_map, List.countP_eq_length_filter] at hcount
  obtain ⟨only, honly⟩ := List.length_eq_one_iff.mp hcount
  have hmem : ∀ x ∈ jwks, x.keyId = jwk.keyId → x = only := by
    intro x hx hkid
    refine List.mem_singleton.mp ?_
    rw [← honly]
    exact List.mem_filter.mpr ⟨hx, by simp [hkid]⟩
  rw [hmem jwk' hjwk' hkid, hmem jwk hjwk rfl]

end

/-! ## Runs -/

section

variable {convert} {h h' : KeyHistory κ} {call : RefreshCall} {jwks : List Jwk}

theorem step_of_not_parsed (hparsed : call.parsed h.manager = none)
    (hstep : h.step convert call = some h') : h' = h := by
  cases hstep
  rw [refreshJwks_of_not_parsed hparsed, hparsed]
  rfl

theorem step_of_parsed (hparsed : call.parsed h.manager = some jwks)
    (hstep : h.step convert call = some h') :
    h'.response = jwks ∧ ∀ kid, h'.manager.keys kid =
      if kid ∈ jwks.map (·.keyId) then
        (jwks.reverse.findSome? (Jwk.written convert call.now · kid)).or (h.manager.keys kid)
      else none := by
  cases hstep
  rw [refreshJwks_of_parsed hparsed, hparsed]
  refine ⟨rfl, fun kid => ?_⟩
  rw [← foldl_insertKey_apply]

theorem redeclares_of_trusted (hparsed : call.parsed h.manager = some jwks)
    (hstep : h.step convert call = some h') (htrusted' : h'.Trusted convert) :
    Redeclares convert h call := by
  obtain ⟨hresponse, hkeys⟩ := step_of_parsed hparsed hstep
  intro parsed hjwks jwk hjwk hcached
  cases hparsed.symm.trans hjwks
  obtain ⟨entry, hentry⟩ := Option.isSome_iff_exists.mp hcached
  have hkey := hkeys jwk.keyId
  rw [if_pos (List.mem_map_of_mem hjwk), hentry] at hkey
  suffices ∃ jwk' ∈ jwks, jwk'.keyId = jwk.keyId ∧ ∃ key, jwk'.material convert = some key by
    obtain ⟨jwk', hjwk', hkid, hmaterial⟩ := this
    exact ⟨jwk', hjwk', hkid, Option.isSome_iff_exists.mpr hmaterial⟩
  cases hnew : jwks.reverse.findSome? (Jwk.written convert call.now · jwk.keyId) with
  | none =>
      rw [hnew, Option.none_or] at hkey
      obtain ⟨jwk', hjwk', hkid, hmaterial⟩ := htrusted'.listed jwk.keyId entry hkey
      rw [hresponse] at hjwk'
      exact ⟨jwk', hjwk', hkid, entry.1, hmaterial⟩
  | some new =>
      obtain ⟨jwk', hjwk', hkid, hmaterial⟩ := exists_of_findSome?_written hnew
      exact ⟨jwk', hjwk', hkid, new.1, hmaterial⟩

theorem trusted_of_redeclares (hparsed : call.parsed h.manager = some jwks)
    (hstep : h.step convert call = some h') (hredeclares : Redeclares convert h call) :
    h'.Trusted convert := by
  obtain ⟨hresponse, hkeys⟩ := step_of_parsed hparsed hstep
  refine ⟨fun kid entry hentry => ?_, fun jwk hjwk hcount key hkey => ?_⟩
  · rw [hkeys] at hentry
    rw [hresponse]
    split at hentry
    · next hlisted =>
        obtain ⟨jwk, hjwk, rfl⟩ := List.mem_map.mp hlisted
        cases hnew : jwks.reverse.findSome? (Jwk.written convert call.now · jwk.keyId) with
        | some new =>
            rw [hnew, Option.some_or] at hentry
            cases hentry
            exact exists_of_findSome?_written hnew
        | none =>
            -- an old key, which no entry has replaced
            rw [hnew, Option.none_or] at hentry
            obtain ⟨jwk', hjwk', hkid, hmaterial⟩ :=
              hredeclares jwks hparsed jwk hjwk (by rw [hentry]; rfl)
            rw [← hkid] at hnew
            exact absurd hnew (findSome?_written_ne_none hjwk' hmaterial)
    · cases hentry
  · rw [hresponse] at hjwk hcount
    have hne : jwks.reverse.findSome? (Jwk.written convert call.now · jwk.keyId) ≠ none :=
      findSome?_written_ne_none hjwk (Option.isSome_iff_exists.mpr ⟨key, hkey⟩)
    obtain ⟨new, hnew⟩ := Option.ne_none_iff_exists'.mp hne
    obtain ⟨jwk', hjwk', hkid, hmaterial⟩ := exists_of_findSome?_written hnew
    rw [eq_of_count_eq_one hjwk hjwk' hkid hcount, hkey] at hmaterial
    cases hmaterial
    refine ⟨new.2, ?_⟩
    rw [hkeys, if_pos (List.mem_map_of_mem hjwk), hnew]
    rfl

/-- A call from a cache that can be trusted leads to another one exactly if it redeclares no id
of the cache without a key. -/
theorem trusted_step_iff (htrusted : h.Trusted convert) (hstep : h.step convert call = some h') :
    h'.Trusted convert ↔ Redeclares convert h call := by
  cases hparsed : call.parsed h.manager with
  | none =>
      rw [step_of_not_parsed hparsed hstep]
      refine iff_of_true htrusted fun jwks hjwks => ?_
      rw [hparsed] at hjwks
      cases hjwks
  | some jwks => exact ⟨redeclares_of_trusted hparsed hstep, trusted_of_redeclares hparsed hstep⟩

end

/-- In every run of refreshes, the cache can be trusted after each of them and calls that fail
change nothing, exactly if no refresh lists an id of the cache without a key for it. -/
theorem trusted_iff_redeclares (calls : List RefreshCall) :
    ((∀ h ∈ visits (KeyHistory.step convert) {} calls, h.Trusted convert) ∧
        ∀ c ∈ moves (KeyHistory.step convert) {} calls, Keeps convert c.1.manager c.2) ↔
      ∀ c ∈ moves (KeyHistory.step convert) {} calls, Redeclares convert c.1 c.2 := by
  refine (and_iff_left fun (c : KeyHistory κ × RefreshCall) _ => keeps c.1.manager c.2).trans ?_
  refine forall_visits_iff_forall_moves (KeyHistory.step convert) (fun _ => True)
    (Redeclares convert) (fun _ _ => trivial) (fun _ htrusted hstep =>
      trusted_step_iff htrusted hstep) trivial ⟨fun _ _ h => ?_, fun _ h => ?_⟩ calls
  · cases h
  · exact absurd h List.not_mem_nil

/-- A response with the key `a`. -/
def oneKey (kty : String) : Reply :=
  .answered 200 (some (.obj [("keys", .arr
    [.obj [("kty", .str kty), ("kid", .str "a"), ("n", .str "AQAB"), ("e", .str "AQAB")]])]))

/-- The response after the one with an RSA key `a` has it with another type. -/
theorem redeclared_remains : ∃ h, exec (KeyHistory.step fun n e => some (n, e)) {}
      [⟨0, oneKey "RSA"⟩, ⟨60000000000, oneKey "EC"⟩] = some h ∧
    h.manager.keys "a" = some (("AQAB", "AQAB"), 0) ∧ h.response.map (·.keyType) = ["EC"] ∧
    ¬ h.Trusted fun n e => some (n, e) := by
  have hrun : ∃ h, exec (KeyHistory.step fun n e => some (n, e)) {}
        [⟨0, oneKey "RSA"⟩, ⟨60000000000, oneKey "EC"⟩] = some h ∧
      h.manager.keys "a" = some (("AQAB", "AQAB"), 0) ∧ h.response.map (·.keyType) = ["EC"] :=
    ⟨_, rfl, by decide, by decide⟩
  obtain ⟨h, hexec, hkey, htypes⟩ := hrun
  refine ⟨h, hexec, hkey, htypes, fun htrusted => ?_⟩
  obtain ⟨jwk, hjwk, -, hmaterial⟩ := htrusted.listed "a" _ hkey
  have htype : jwk.keyType ∈ h.response.map (·.keyType) := List.mem_map_of_mem hjwk
  rw [htypes, List.mem_singleton] at htype
  rw [Jwk.material, if_neg (by simp [htype])] at hmaterial
  cases hmaterial

end Kyber.Proxy
