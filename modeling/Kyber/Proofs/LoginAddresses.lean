import Kyber.Api.LoginAddresses
import Kyber.Lib.Recency

/-!
# The addresses are the ones used last

The addresses in a user document are the six that were used last, by the calls of
`Login` that have stored something, each with the date of its latest use. A document
that has this keeps it: the address of the call comes first, since its date is behind
all others, the others are in order already, and of these five are left.

The database keeps whole milliseconds. Two addresses that were used within one have the
same date, and their order is what the sort makes of it. `sort.Slice` keeps the order of
so few elements; where no two dates are equal, any sort does.
-/

namespace Kyber.Api

open Kyber.Lib

variable {S : SliceSort UserIP}

/-! ## `UpsertIP` and `PruneIPs` -/

/-- What is in front of another in a sorted slice was not used before it. -/
theorem UserIP.after_eq_false_iff {a b : UserIP} : b.after a = false ↔ b.lastSeen ≤ a.lastSeen := by
  rw [UserIP.after, decide_eq_false_iff_not, Int.not_lt]

theorem UserIP.weakOrder_after : WeakOrder UserIP.after where
  asymm a b h := by
    rw [UserIP.after, decide_eq_true_eq] at h
    rw [UserIP.after_eq_false_iff]
    exact Int.le_of_lt h
  trans a b c hab hbc := by
    rw [UserIP.after_eq_false_iff] at hab hbc ⊢
    exact Int.le_trans hbc hab

@[simp] theorem StoredIP.encode_decode (u : StoredIP) : u.decode.encode = u := by
  simp [StoredIP.decode, UserIP.encode, dateOf]

/-- The entries of other addresses. -/
def others (ip : String) (ips : List UserIP) : List UserIP := ips.filter (·.ip ≠ ip)

theorem others_of_not_mem {ip : String} {ips : List UserIP} (h : ip ∉ ips.map (·.ip)) :
    others ip ips = ips := by
  refine List.filter_eq_self.mpr fun u hu => ?_
  rw [decide_eq_true_eq]
  exact fun he => h (List.mem_map.mpr ⟨u, hu, he⟩)

/-- `UpsertIP` leaves an entry for the address, and the others where they are. -/
theorem upsertIP_perm {ips : List UserIP} (h : (ips.map (·.ip)).Nodup) (ip : String)
    (now : Instant) : ∃ entry : UserIP, entry.ip = ip ∧ entry.lastSeen = now ∧
      (upsertIP ip now ips).Perm (entry :: others ip ips) ∧
      (others ip ips).Sublist (upsertIP ip now ips) := by
  induction ips with
  | nil => exact ⟨⟨ip, now, now⟩, rfl, rfl, .refl _, List.nil_sublist _⟩
  | cons u ips ih =>
      rw [List.map_cons, List.nodup_cons] at h
      rw [upsertIP]
      by_cases hu : u.ip = ip
      · have hothers : others ip (u :: ips) = ips := by
          rw [others, List.filter_cons_of_neg (by simpa using hu)]
          exact others_of_not_mem (hu ▸ h.1)
        rw [if_pos hu, hothers]
        exact ⟨{ u with lastSeen := now }, hu, rfl, .refl _, List.sublist_cons_self _ _⟩
      · have hothers : others ip (u :: ips) = u :: others ip ips := by
          rw [others, List.filter_cons_of_pos (by simpa using hu)]
          rfl
        rw [if_neg hu, hothers]
        obtain ⟨entry, hip, hseen, hperm, hsub⟩ := ih h.2
        exact ⟨entry, hip, hseen, (hperm.cons u).trans (.swap entry u _), hsub.cons_cons u⟩

/-- The entries as they are stored: of distinct addresses, the one used last in front. -/
structure Recent (ips : List UserIP) : Prop where
  nodup : (ips.map (·.ip)).Nodup
  length_le : ips.length ≤ 6
  ordered : ips.Pairwise fun a b => b.lastSeen ≤ a.lastSeen

/-- The sort puts the address of the call in front and keeps the others as they are. -/
theorem sort_upsertIP {ips : List UserIP} (h : Recent ips) {now : Instant}
    (hnow : ∀ u ∈ ips, u.lastSeen < now)
    (hties : S.KeepsShort ∨ ips.Pairwise fun a b => b.lastSeen < a.lastSeen) (ip : String) :
    ∃ entry : UserIP, entry.ip = ip ∧ entry.lastSeen = now ∧
      S.sort UserIP.after (upsertIP ip now ips) = entry :: others ip ips := by
  obtain ⟨entry, hip, hseen, hperm, hsub⟩ := upsertIP_perm h.nodup ip now
  refine ⟨entry, hip, hseen, ?_⟩
  have hsorted := S.ordered _ UserIP.weakOrder_after (upsertIP ip now ips)
  have hsort := (S.perm UserIP.after (upsertIP ip now ips)).trans hperm
  have hothers : (others ip ips).Sublist ips := List.filter_sublist
  have hlater : ∀ b ∈ others ip ips, b.lastSeen < entry.lastSeen := by
    intro b hb
    rw [hseen]
    exact hnow b (hothers.subset hb)
  rcases hties with hkeeps | hstrict
  · refine eq_cons_of_sublist hsort hsorted (fun b hb => ?_) ?_ fun hmem => ?_
    · rw [UserIP.after_eq_false_iff, Int.not_le]
      exact hlater b hb
    · refine hkeeps _ UserIP.weakOrder_after _ ?_ _ hsub ?_
      · have := hperm.length_eq
        have := hothers.length_le
        have := h.length_le
        simp only [List.length_cons] at *
        omega
      · exact (h.ordered.sublist hothers).imp UserIP.after_eq_false_iff.mpr
    · exact Int.lt_irrefl _ (hlater entry hmem)
  · refine eq_of_perm_of_strict hsort hsorted ?_
    have hfirst : (entry :: others ip ips).Pairwise fun a b => b.lastSeen < a.lastSeen :=
      List.pairwise_cons.mpr ⟨hlater, hstrict.sublist hothers⟩
    refine hfirst.imp fun hlt => ?_
    rw [UserIP.after_eq_false_iff, UserIP.after_eq_false_iff, Int.not_le]
    exact ⟨Int.le_of_lt hlt, hlt⟩

theorem pruneIPs_eq_take (max : Nat) (ips : List UserIP) :
    pruneIPs S max ips = (S.sort UserIP.after ips).take max := by
  rw [pruneIPs]
  split
  · rfl
  next h => rw [List.take_of_length_le (by omega)]

/-! ## One call -/

namespace AddressedLogin

/-- What is written when a call is not refused: the address of the call, and five of the
others. -/
theorem login_eq_some {call : AddressedLogin} {user : Option (List UserIP)} {write : AddressWrite}
    (h : call.login S user = some write) (hrecent : Recent (user.getD []))
    (hnow : ∀ u ∈ user.getD [], u.lastSeen < call.now)
    (hties : S.KeepsShort ∨ (user.getD []).Pairwise fun a b => b.lastSeen < a.lastSeen) :
    ∃ entry : UserIP, call.userIP = some entry.ip ∧ entry.lastSeen = call.now ∧
      write.ips = entry :: (others entry.ip (user.getD [])).take 5 := by
  rw [login] at h
  split at h
  next userIP claims punishment hip _ _ =>
    split at h
    · cases h
    cases user with
    | some ips =>
        dsimp only at h
        split at h
        · cases h
        cases h
        rw [Option.getD_some] at hrecent hnow hties ⊢
        obtain ⟨entry, rfl, hseen, hsort⟩ := sort_upsertIP hrecent hnow hties userIP
        refine ⟨entry, hip, hseen, ?_⟩
        rw [AddressWrite.ips, pruneIPs_eq_take, hsort, List.take_succ_cons]
    | none =>
        dsimp only at h
        split at h
        · cases h
        cases h
        exact ⟨_, hip, rfl, rfl⟩
  next => cases h

variable (S)

/-- The use of an address that a call stores. -/
def use (ips : Option (List StoredIP)) (call : AddressedLogin) : Option (String × Instant) :=
  if (call.login S (ips.map (·.map StoredIP.decode))).isSome ∧ call.stored ≠ .failed then
    call.userIP.map (·, call.now)
  else none

/-- The history of what the calls store. -/
def uses (ips : Option (List StoredIP)) : List AddressedLogin → List (String × Instant)
  | [] => []
  | call :: calls => (use S ips call).toList ++ uses (step S ips call) calls

theorem uses_concat (ips : Option (List StoredIP)) (calls : List AddressedLogin)
    (call : AddressedLogin) :
    uses S ips (calls ++ [call])
      = uses S ips calls ++ (use S (calls.foldl (step S) ips) call).toList := by
  induction calls generalizing ips with
  | nil => simp [uses]
  | cons first calls ih => rw [List.cons_append, uses, ih, uses, List.append_assoc, List.foldl_cons]

/-- The history is in the order of the calls. -/
theorem uses_now_sublist (ips : Option (List StoredIP)) (calls : List AddressedLogin) :
    ((uses S ips calls).map Prod.snd).Sublist (calls.map (·.now)) := by
  induction calls generalizing ips with
  | nil => exact .slnil
  | cons call calls ih =>
      rw [uses, List.map_append, List.map_cons]
      change List.Sublist _ ([call.now] ++ calls.map (·.now))
      refine List.Sublist.append ?_ (ih _)
      rw [use]
      split
      · cases call.userIP with
        | none => exact List.nil_sublist _
        | some ip => exact .refl _
      · exact List.nil_sublist _

end AddressedLogin

/-! ## The run -/

/-- What the database keeps of a use. -/
def dated (use : String × Instant) : String × Time := (use.1, dateOf use.2)

/-- The six addresses that were used last, each with the date of its latest use. -/
def Follows (uses : List (String × Instant)) (ips : List StoredIP) : Prop :=
  ips.map (fun u => (u.ip, u.lastSeen)) = (recent Prod.fst 6 uses).map dated

namespace Follows

variable {uses : List (String × Instant)} {ips : List StoredIP}

theorem nodup (h : Follows uses ips) : (ips.map (·.ip)).Nodup := by
  have hips : ips.map (·.ip) = (recent Prod.fst 6 uses).map Prod.fst := by
    simpa [List.map_map, Function.comp_def, dated] using congrArg (List.map Prod.fst) h
  rw [hips]
  exact nodup_recent Prod.fst 6 uses

theorem length_le (h : Follows uses ips) : ips.length ≤ 6 := by
  have hlen := congrArg List.length h
  rw [List.length_map, List.length_map] at hlen
  rw [hlen]
  exact length_recent_le Prod.fst 6 uses

/-- The dates are in the order that the history has them in, backwards. -/
theorem pairwise {R : Time → Time → Prop} (h : Follows uses ips)
    (hR : uses.Pairwise fun u v => R (dateOf v.2) (dateOf u.2)) :
    ips.Pairwise fun a b => R a.lastSeen b.lastSeen := by
  have hrecent : (recent Prod.fst 6 uses).Pairwise fun u v => R (dateOf u.2) (dateOf v.2) :=
    (List.pairwise_reverse.mpr hR).sublist (recent_sublist Prod.fst 6 uses)
  have hdated : ((recent Prod.fst 6 uses).map dated).Pairwise fun u v => R u.2 v.2 :=
    List.pairwise_map.mpr hrecent
  rw [← h, List.pairwise_map] at hdated
  exact hdated

theorem mem_uses (h : Follows uses ips) {u : StoredIP} (hu : u ∈ ips) :
    ∃ now, (u.ip, now) ∈ uses ∧ u.lastSeen = dateOf now := by
  have hmem : (u.ip, u.lastSeen) ∈ (recent Prod.fst 6 uses).map dated := by
    rw [← h]
    exact List.mem_map.mpr ⟨u, hu, rfl⟩
  obtain ⟨⟨ip, now⟩, hmem, he⟩ := List.mem_map.mp hmem
  rw [dated, Prod.mk.injEq] at he
  obtain ⟨rfl, hseen⟩ := he
  refine ⟨now, ?_, hseen.symm⟩
  exact List.mem_reverse.mp ((recent_sublist Prod.fst 6 uses).subset hmem)

/-- The address used last is there. -/
theorem mem_concat {use : String × Instant} (h : Follows (uses ++ [use]) ips) :
    use.1 ∈ ips.map (·.ip) := by
  rw [Follows, recent_concat, List.map_cons] at h
  have hmem : dated use ∈ ips.map fun u => (u.ip, u.lastSeen) := h ▸ List.mem_cons_self
  obtain ⟨u, hu, he⟩ := List.mem_map.mp hmem
  exact List.mem_map.mpr ⟨u, hu, congrArg Prod.fst he⟩

/-- One more use, and what `Login` makes of the addresses. -/
theorem concat (h : Follows uses ips) {entry : UserIP} {write : List UserIP}
    (hwrite : write = entry :: (others entry.ip (ips.map StoredIP.decode)).take 5) :
    Follows (uses ++ [(entry.ip, entry.lastSeen)]) (write.map UserIP.encode) := by
  have hothers : (others entry.ip (ips.map StoredIP.decode)).map UserIP.encode
      = ips.filter (·.ip ≠ entry.ip) := by
    rw [others, List.filter_map, List.map_map]
    exact (List.map_congr_left fun u _ => u.encode_decode).trans (List.map_id _)
  have hpairs : (ips.filter (·.ip ≠ entry.ip)).map (fun u => (u.ip, u.lastSeen))
      = ((recent Prod.fst 6 uses).filter (·.1 ≠ entry.ip)).map dated := by
    have hfilter := congrArg (List.filter (·.1 ≠ entry.ip)) h
    rw [List.filter_map, List.filter_map] at hfilter
    exact hfilter
  rw [Follows, recent_concat, hwrite, List.map_cons, List.map_cons, List.map_cons, List.map_take,
    List.map_take, List.map_take, hothers, hpairs]
  rfl

/-- What `Login` reads of the addresses. -/
theorem recent_decode (h : Follows uses ips) (hclock : uses.Pairwise fun u v => u.2 < v.2) :
    Recent (ips.map StoredIP.decode) where
  nodup := by
    rw [List.map_map]
    exact h.nodup
  length_le := by
    rw [List.length_map]
    exact h.length_le
  ordered := by
    have hdates := h.pairwise (R := fun a b => b ≤ a)
      (hclock.imp fun hlt => Int.ediv_le_ediv (by decide) (Int.le_of_lt hlt))
    refine List.pairwise_map.mpr (hdates.imp fun hle => ?_)
    exact Int.mul_le_mul_of_nonneg_right hle (by decide)

/-- A date is not behind the instant it is of. -/
theorem decode_lt (h : Follows uses ips) {now : Instant} (hnow : ∀ u ∈ uses, u.2 < now) :
    ∀ u ∈ ips.map StoredIP.decode, u.lastSeen < now := by
  intro u hu
  obtain ⟨u, hmem, rfl⟩ := List.mem_map.mp hu
  obtain ⟨seen, hseen, he⟩ := h.mem_uses hmem
  refine Int.lt_of_le_of_lt ?_ (hnow _ hseen)
  rw [StoredIP.decode, he]
  exact Int.ediv_mul_le _ (by decide)

end Follows

namespace AddressedLogin

variable {uses : List (String × Instant)} {ips : Option (List StoredIP)} {call : AddressedLogin}

/-- What a call stores follows the history with one more use. -/
theorem stored_follows {write : AddressWrite} (h : Follows uses (ips.getD []))
    (hclock : uses.Pairwise fun u v => u.2 < v.2) (hnow : ∀ u ∈ uses, u.2 < call.now)
    (hties : S.KeepsShort ∨ uses.Pairwise fun u v => dateOf u.2 < dateOf v.2)
    (hlogin : call.login S (ips.map (·.map StoredIP.decode)) = some write) :
    ∃ ip, call.userIP = some ip ∧
      Follows (uses ++ [(ip, call.now)]) (write.ips.map UserIP.encode) := by
  have hread : (ips.map (·.map StoredIP.decode)).getD [] = (ips.getD []).map StoredIP.decode := by
    cases ips <;> rfl
  have hstrict : S.KeepsShort ∨ ((ips.getD []).map StoredIP.decode).Pairwise
      fun a b => b.lastSeen < a.lastSeen := by
    refine hties.imp_right fun hdates => List.pairwise_map.mpr ?_
    refine (h.pairwise (R := fun a b => b < a) hdates).imp fun hlt => ?_
    exact Int.mul_lt_mul_of_pos_right hlt (by decide)
  obtain ⟨entry, hip, hseen, hwrite⟩ := login_eq_some hlogin (hread ▸ h.recent_decode hclock)
    (hread ▸ h.decode_lt hnow) (hread ▸ hstrict)
  rw [hread] at hwrite
  refine ⟨entry.ip, hip, ?_⟩
  rw [← hseen]
  exact h.concat hwrite

variable (S ips call) in
/-- A call that is not refused, and whose call to the database has its effect. -/
theorem step_of_login {write : AddressWrite}
    (hlogin : call.login S (ips.map (·.map StoredIP.decode)) = some write)
    (hstored : call.stored ≠ .failed) :
    step S ips call = some (write.ips.map UserIP.encode) ∧
      use S ips call = call.userIP.map (·, call.now) := by
  rw [step, use, hlogin]
  refine ⟨?_, if_pos ⟨rfl, hstored⟩⟩
  cases hend : call.stored with
  | failed => exact absurd hend hstored
  | answered => rfl
  | unacknowledged => rfl

variable (S ips call) in
/-- Every other call leaves the document as it is. -/
theorem step_of_not_stored
    (h : ¬ ((call.login S (ips.map (·.map StoredIP.decode))).isSome ∧ call.stored ≠ .failed)) :
    step S ips call = ips ∧ use S ips call = none := by
  refine ⟨?_, if_neg h⟩
  rw [step]
  cases hlogin : call.login S (ips.map (·.map StoredIP.decode)) with
  | none => rfl
  | some write =>
      have hfailed : call.stored = .failed := by
        rw [hlogin] at h
        simpa using h
      rw [hfailed]

theorem step_follows (h : Follows uses (ips.getD []))
    (hclock : uses.Pairwise fun u v => u.2 < v.2) (hnow : ∀ u ∈ uses, u.2 < call.now)
    (hties : S.KeepsShort ∨ uses.Pairwise fun u v => dateOf u.2 < dateOf v.2) :
    Follows (uses ++ (use S ips call).toList) ((step S ips call).getD []) := by
  by_cases hcall : (call.login S (ips.map (·.map StoredIP.decode))).isSome ∧ call.stored ≠ .failed
  · obtain ⟨write, hlogin⟩ := Option.isSome_iff_exists.mp hcall.1
    obtain ⟨hstep, huse⟩ := step_of_login S ips call hlogin hcall.2
    obtain ⟨ip, hip, hfollows⟩ := stored_follows h hclock hnow hties hlogin
    rw [hstep, huse, hip]
    exact hfollows
  · obtain ⟨hstep, huse⟩ := step_of_not_stored S ips call hcall
    rw [hstep, huse, Option.toList_none, List.append_nil]
    exact h

/-- The order of the calls is the order of the history. -/
theorem uses_pairwise {R : Instant → Instant → Prop} {calls : List AddressedLogin}
    (h : calls.Pairwise fun c d => R c.now d.now) :
    (AddressedLogin.uses S ips calls).Pairwise fun u v => R u.2 v.2 := by
  have hnows : (calls.map (·.now)).Pairwise R := List.pairwise_map.mpr h
  exact List.pairwise_map.mp (hnows.sublist (uses_now_sublist S ips calls))

/-- What was stored was stored by one of the calls. -/
theorem uses_lt {calls : List AddressedLogin} {now : Instant} (h : ∀ c ∈ calls, c.now < now) :
    ∀ u ∈ AddressedLogin.uses S ips calls, u.2 < now := by
  intro u hu
  have hmem := (uses_now_sublist S ips calls).subset (List.mem_map.mpr ⟨u, hu, rfl⟩)
  obtain ⟨c, hc, he⟩ := List.mem_map.mp hmem
  rw [← he]
  exact h c hc

variable (S)

/-- After every run, the addresses are the six that were used last. -/
theorem run_follows {calls : List AddressedLogin} (hclock : calls.Pairwise fun c d => c.now < d.now)
    (hties : S.KeepsShort ∨ calls.Pairwise fun c d => dateOf c.now < dateOf d.now) :
    Follows (AddressedLogin.uses S none calls) ((run S calls).getD []) := by
  induction calls using List.reverseRecOn with
  | nil => rfl
  | append_singleton calls call ih =>
      obtain ⟨hbefore, -, hlast⟩ := List.pairwise_append.mp hclock
      have hdates : S.KeepsShort ∨ calls.Pairwise fun c d => dateOf c.now < dateOf d.now :=
        hties.imp_right fun h => (List.pairwise_append.mp h).1
      rw [uses_concat, run, List.foldl_concat]
      refine step_follows (ih hbefore hdates) (uses_pairwise hbefore) ?_ ?_
      · exact uses_lt fun c hc => hlast c hc call List.mem_cons_self
      · exact hdates.imp_right fun h => uses_pairwise (R := fun a b => dateOf a < dateOf b) h

/-- After every call that stores something, the addresses are distinct, at most six and in the
order of their dates, the address of the call is one of them, and they are the ones that were
used last in the history, each with the date of its latest use. -/
theorem login_recent (calls : List AddressedLogin) (call : AddressedLogin) {write : AddressWrite}
    (hclock : (calls ++ [call]).Pairwise fun c d => c.now < d.now)
    (hties : S.KeepsShort ∨
      (calls ++ [call]).Pairwise fun c d => dateOf c.now < dateOf d.now)
    (hlogin : call.login S ((run S calls).map (·.map StoredIP.decode)) = some write)
    (hstored : call.stored ≠ .failed) :
    ∃ ip ips, call.userIP = some ip ∧ run S (calls ++ [call]) = some ips ∧
      (ips.map (·.ip)).Nodup ∧ ips.length ≤ 6 ∧ ip ∈ ips.map (·.ip) ∧
      ips.Pairwise (fun a b => b.lastSeen ≤ a.lastSeen) ∧
      ips.map (fun u => (u.ip, u.lastSeen))
        = (recent Prod.fst 6 (AddressedLogin.uses S none calls ++ [(ip, call.now)])).map dated := by
  obtain ⟨hbefore, -, hlast⟩ := List.pairwise_append.mp hclock
  have hdates : S.KeepsShort ∨ calls.Pairwise fun c d => dateOf c.now < dateOf d.now :=
    hties.imp_right fun h => (List.pairwise_append.mp h).1
  have huses : (AddressedLogin.uses S none calls).Pairwise fun u v => u.2 < v.2 :=
    uses_pairwise hbefore
  have hnow : ∀ u ∈ AddressedLogin.uses S none calls, u.2 < call.now :=
    uses_lt fun c hc => hlast c hc call List.mem_cons_self
  obtain ⟨ip, hip, hfollows⟩ := stored_follows (run_follows S hbefore hdates) huses hnow
    (hdates.imp_right fun h => uses_pairwise (R := fun a b => dateOf a < dateOf b) h) hlogin
  have hrun : run S (calls ++ [call]) = some (write.ips.map UserIP.encode) := by
    rw [run, List.foldl_concat]
    exact (step_of_login S (run S calls) call hlogin hstored).1
  refine ⟨ip, _, hip, hrun, hfollows.nodup, hfollows.length_le, ?_, ?_, hfollows⟩
  · exact hfollows.mem_concat
  · refine hfollows.pairwise (R := fun a b => b ≤ a) ?_
    refine (List.pairwise_append.mpr ⟨huses, List.pairwise_singleton _ _, ?_⟩).imp fun hlt =>
      Int.ediv_le_ediv (by decide) (Int.le_of_lt hlt)
    intro u hu v hv
    rw [List.mem_singleton.mp hv]
    exact hnow u hu

end AddressedLogin

/-! ## A sort by insertion -/

def SliceSort.insertion {α : Type} : SliceSort α where
  sort less l := l.insertionSort fun a b => less b a = false
  perm less l := List.perm_insertionSort _ l
  ordered less h l := by
    have htotal : ∀ a b, less b a = false ∨ less a b = false := by
      intro a b
      cases hless : less b a with
      | false => exact .inl rfl
      | true => exact .inr (h.asymm b a hless)
    have : Std.Total fun a b => less b a = false := ⟨htotal⟩
    have : IsTrans α fun a b => less b a = false := ⟨h.trans⟩
    exact List.pairwise_insertionSort _ l

theorem SliceSort.keepsShort_insertion {α : Type} : (.insertion : SliceSort α).KeepsShort :=
  fun _ _ _ _ _ hkept hordered => List.sublist_insertionSort hordered hkept

namespace AddressedLogin

/-- A call that is not refused. -/
def accepted (ip : String) (now : Instant) : AddressedLogin where
  addr := some [ip]
  claims := some { pid := "1", active := true, persona := some "Rey", personaID := "2" }
  userRead := true
  punishment := some none
  nameUpdated := true
  stored := .answered
  now
  firstSeen := now

/-- Seven addresses and the second of them again, two of them within one millisecond. -/
theorem login_recent_repeated :
    let calls := [accepted "a" 0, accepted "b" 1000000, accepted "c" 2000000, accepted "d" 2000001,
      accepted "e" 3000000, accepted "f" 4000000, accepted "g" 5000000]
    ∃ ip ips, some "b" = some ip ∧
      run SliceSort.insertion (calls ++ [accepted "b" 6000000]) = some ips ∧
      (ips.map (·.ip)).Nodup ∧ ips.length ≤ 6 ∧ ip ∈ ips.map (·.ip) ∧
      ips.Pairwise (fun a b => b.lastSeen ≤ a.lastSeen) ∧
      ips.map (fun u => (u.ip, u.lastSeen))
        = (recent Prod.fst 6
            (AddressedLogin.uses SliceSort.insertion none calls ++ [(ip, 6000000)])).map dated :=
  login_recent SliceSort.insertion _ (accepted "b" 6000000) (by decide)
    (.inl SliceSort.keepsShort_insertion)
    (show _ = some (AddressWrite.update [⟨"b", 1000000, 6000000⟩, ⟨"g", 5000000, 5000000⟩,
      ⟨"f", 4000000, 4000000⟩, ⟨"e", 3000000, 3000000⟩, ⟨"d", 2000000, 2000000⟩,
      ⟨"c", 2000000, 2000000⟩]) by decide)
    (by decide)

end AddressedLogin

end Kyber.Api
