import Kyber.Lib.Runs
import Kyber.ModLoader.ChunkRead

/-!
# The handle of an overridden read is not in the table

`BeginChunkRead` files a read under the bare id and returns the id with a tag in
the top byte. Poll and end look for the value they are given, so the value that
was returned is never found: it is at least 2^57, and every key is below 100000
(`Filed`). The read's entry stays in the table and its data is not copied.

The hooks do what they are for exactly in the runs that never ask for it, those
without a read of an overridden chunk.
-/

namespace Kyber.ModLoader

open Kyber.Lib

namespace ChunkReads

/-- The hooks serve the read `r`: a poll of its handle is answered by the table,
and the end of it copies its override to its buffer and removes its entry. -/
structure Served (s : ChunkReads) (r : ChunkRead) : Prop where
  polled : s.pollChunkOperation r.handle = .table
  ended : ∃ key pendingChunk, s.pending[key]? = some pendingChunk ∧
    (s.endChunkRead r.handle).1 = .table ∧
    (s.endChunkRead r.handle).2.pending = s.pending.erase key ∧
    (s.endChunkRead r.handle).2.memory = patch s.memory r.dst r.data (min r.srcSize r.dstSize)

/-- Every read in flight is served, from an entry of its own. -/
structure AllServed (s : ChunkReads) : Prop where
  served : ∀ r ∈ s.inFlight, s.Served r
  distinct : s.inFlight.Pairwise fun r r' => s.findPending r.handle ≠ s.findPending r'.handle

/-- Keys are bare ids, returned handles are tagged ones. -/
structure Filed (s : ChunkReads) : Prop where
  keys : ∀ key pendingChunk, s.pending[key]? = some pendingChunk →
    ∃ rand, key = Int64.ofNat (handleId rand)
  handles : ∀ r ∈ s.inFlight, ∃ rand, r.handle = returnedHandle rand

theorem handleId_lt (rand : Nat) : handleId rand < 100000 := Nat.mod_lt _ (by decide)

theorem toNat_returnedHandle (rand : Nat) : 2 ^ 57 ≤ (returnedHandle rand).toNat := by
  have h : (returnedHandle rand).toNat = 2 ^ 57 ||| handleId rand := by
    have := handleId_lt rand
    rw [returnedHandle, UInt64.toNat_or, UInt64.toNat_ofNat']
    rw [Nat.mod_eq_of_lt (by omega)]
    rfl
  rw [h]
  exact Nat.left_le_or

theorem toNat_key (rand : Nat) : (Int64.ofNat (handleId rand)).toUInt64.toNat < 100000 := by
  have := handleId_lt rand
  rw [Int64.toUInt64_ofNat', UInt64.toNat_ofNat']
  omega

/-- Returned handles are not in the table. -/
theorem Filed.findPending {s : ChunkReads} (hs : s.Filed) (rand : Nat) :
    s.findPending (returnedHandle rand) = none := by
  rw [ChunkReads.findPending, List.find?_eq_none]
  rintro ⟨key, pendingChunk⟩ hentry heq
  obtain ⟨rand', hkey⟩ := hs.keys key pendingChunk
    (Std.TreeMap.mem_toList_iff_getElem?_eq_some.mp hentry)
  have h₁ := toNat_key rand'
  have h₂ := toNat_returnedHandle rand
  rw [decide_eq_true_iff] at heq
  rw [← hkey, heq] at h₁
  omega

theorem Filed.init : Filed {} := by
  constructor
  · intro key pendingChunk h
    simp at h
  · intro r hr
    simp at hr

theorem Filed.step {s s' : ChunkReads} {c : ChunkCall} (hs : s.Filed)
    (h : s.step c = some s') : s'.Filed := by
  cases c with
  | modifyChunk guid data size =>
      cases h
      exact ⟨hs.keys, hs.handles⟩
  | beginChunkRead guid buffer size rand =>
      cases h
      unfold beginChunkRead
      split
      · exact hs
      · constructor
        · intro key pendingChunk hkey
          rw [Std.TreeMap.getElem?_insertIfNew] at hkey
          split at hkey
          · next hnew => exact ⟨rand, (Std.LawfulEqCmp.eq_of_compare hnew.1).symm⟩
          · exact hs.keys key pendingChunk hkey
        · intro r hr
          rcases List.mem_append.mp hr with hr | hr
          · exact hs.handles r hr
          · rw [List.mem_singleton.mp hr]
            exact ⟨rand, rfl⟩
  | pollChunkOperation handle =>
      cases h
      exact hs
  | endChunkRead handle =>
      cases h
      unfold endChunkRead
      simp only []
      split
      · constructor
        · intro key pendingChunk hkey
          rw [Std.TreeMap.getElem?_erase] at hkey
          split at hkey
          · cases hkey
          · exact hs.keys key pendingChunk hkey
        · intro r hr
          exact hs.handles r (List.mem_filter.mp hr).1
      · exact ⟨hs.keys, fun r hr => hs.handles r (List.mem_filter.mp hr).1⟩

/-- No read of an overridden chunk is ever served. -/
theorem allServed_iff {s : ChunkReads} (hs : s.Filed) : s.AllServed ↔ s.inFlight = [] := by
  constructor
  · intro h
    apply List.eq_nil_iff_forall_not_mem.mpr
    intro r hr
    obtain ⟨rand, hrand⟩ := hs.handles r hr
    have hpolled := (h.served r hr).polled
    rw [pollChunkOperation, hrand, hs.findPending] at hpolled
    cases hpolled
  · intro h
    exact ⟨by simp [h], by simp [h]⟩

/-- The call begins a read of an overridden chunk. -/
def BeginsOverridden (s : ChunkReads) (c : ChunkCall) : Prop :=
  ∃ guid buffer size rand, c = .beginChunkRead guid buffer size rand ∧ guid ∈ s.modified

/-- From a state without reads in flight, one is in flight after a step exactly
if the step begins one. -/
theorem inFlight_step {s s' : ChunkReads} {c : ChunkCall} (hs : s.inFlight = [])
    (h : s.step c = some s') : s'.inFlight = [] ↔ ¬ s.BeginsOverridden c := by
  cases c with
  | modifyChunk guid data size =>
      cases h
      simp [BeginsOverridden, modifyChunk, hs]
  | beginChunkRead guid buffer size rand =>
      cases h
      have hb : s.BeginsOverridden (.beginChunkRead guid buffer size rand) ↔
          guid ∈ s.modified := by
        constructor
        · rintro ⟨g, _, _, _, heq, hmem⟩
          cases heq
          exact hmem
        · intro hmem
          exact ⟨guid, buffer, size, rand, rfl, hmem⟩
      rw [hb, Std.TreeMap.mem_iff_isSome_getElem?, beginChunkRead]
      split
      · next hnone => simp [hnone, hs]
      · next chunk hsome => simp [hsome]
  | pollChunkOperation handle =>
      cases h
      simp [BeginsOverridden, hs]
  | endChunkRead handle =>
      cases h
      have hend : (s.endChunkRead handle).2.inFlight = [] := by
        unfold endChunkRead
        split <;> simp [hs]
      simp [BeginsOverridden, hend]

end ChunkReads

open ChunkReads

/-- Along a run every read of an overridden chunk is served in every state exactly
if the run begins no read of an overridden chunk. -/
theorem allServed_run_iff (calls : List ChunkCall) :
    (∀ s ∈ visits step {} calls, s.AllServed) ↔
      ∀ m ∈ moves step {} calls, ¬ m.1.BeginsOverridden m.2 := by
  refine forall_visits_iff_forall_moves step Filed (fun s c => ¬ s.BeginsOverridden c)
    (fun hs h => hs.step h) ?_ Filed.init ((allServed_iff Filed.init).mpr rfl) calls
  intro s c s' hs hserved h
  rw [allServed_iff (hs.step h), inFlight_step ((allServed_iff hs).mp hserved) h]

/-- One chunk is overridden and read with the id 42. -/
def overriddenRead : List ChunkCall :=
  [.modifyChunk (Vector.replicate 16 1) [1, 2, 3] 3,
    .beginChunkRead (Vector.replicate 16 1) 0 3 42]

/-- The handle it returns is not answered by the table, although the read is
filed there under 42. -/
theorem overriddenRead_not_served :
    ∃ s, exec step {} overriddenRead = some s ∧
      s.inFlight.map ChunkRead.handle = [0x20000000000002a] ∧
      (s.pending.toList.map fun entry => entry.1) = [42] ∧
      s.pollChunkOperation 0x20000000000002a = .engine ∧
      ¬ ∀ t ∈ visits step {} overriddenRead, t.AllServed := by
  have h : (exec step {} overriddenRead).map (fun s =>
      (s.inFlight.map ChunkRead.handle, s.pending.toList.map fun entry => entry.1,
        s.pollChunkOperation 0x20000000000002a))
      = some ([0x20000000000002a], [42], .engine) := by decide +kernel
  obtain ⟨s, hs, heq⟩ := Option.map_eq_some_iff.mp h
  simp only [Prod.mk.injEq] at heq
  obtain ⟨hhandles, hkeys, hpoll⟩ := heq
  refine ⟨s, hs, hhandles, hkeys, hpoll, ?_⟩
  intro hall
  obtain ⟨r, hr, hhandle⟩ := List.mem_map.mp (hhandles ▸ List.mem_singleton_self _ :
    (0x20000000000002a : UInt64) ∈ s.inFlight.map ChunkRead.handle)
  have hserved := ((hall s (mem_visits_of_exec hs)).served r hr).polled
  rw [hhandle, hpoll] at hserved
  cases hserved

end Kyber.ModLoader
