import Kyber.Proofs.JoinTokens

/-!
# Join tokens are used once

Calls run interleaved, and `ConsumeJoinToken` reads a token long before it deletes
it. What keeps two calls from consuming one token is only that the deletion of
what is not there fails.

The argument counts. An id is inserted at most once, by the call that has generated
it, and a deletion that succeeds takes it out of the collection. So over a whole
trace at most one deletion of the id succeeds, and a call that has consumed the
token has made it.
-/

namespace Kyber.Api

open Kyber.Lib Prog

/-! ## Counting a document -/

/-- How often the id is in the collection. -/
def Store.countID (st : Store) (id : String) : Nat := st.joinTokens.countP (·.id == id)

/-- The call has deleted the document. -/
def deletes (id : String) : (op : Op) × Ans op → Bool
  | ⟨.deleteJoinToken id', .ok _⟩ => id' == id
  | _ => false

/-- The call may have inserted it. -/
def mayInsert (id : String) : (op : Op) × Ans op → Bool
  | ⟨.createJoinToken token, _⟩ => token.id == id
  | _ => false

theorem countID_perform (st : Store) (id : String) (op : Op) (a : Ans op) :
    (st.perform op).1.countID id + (deletes id ⟨op, (st.perform op).2⟩).toNat
      ≤ st.countID id + (mayInsert id ⟨op, a⟩).toNat := by
  cases op with
  | createJoinToken token =>
      simp only [Store.perform, Store.countID, deletes, mayInsert]
      split
      · simp
      · rw [List.countP_append, List.countP_singleton]
        cases token.id == id <;> simp
  | deleteJoinToken id' =>
      simp only [Store.perform, Store.countID, deletes, mayInsert]
      split
      · next hthere =>
          simp only [Bool.toNat_false, Nat.add_zero]
          by_cases hid : id' = id
          · subst hid
            obtain ⟨doc, hdoc, hp⟩ := List.any_eq_true.mp hthere
            obtain ⟨_, l₁, l₂, -, hp', hl, herase⟩ :=
              @List.exists_of_eraseP _ (·.id == id') _ _ hdoc hp
            rw [herase, hl]
            simp [List.countP_append, hp', Nat.add_assoc]
          · rw [beq_eq_false_iff_ne.mpr hid]
            exact List.eraseP_sublist.countP_le
      · simp
  | createServer _ | createPunishment _ | createReport _ =>
      simp only [Store.perform, Store.countID, deletes, mayInsert]
      split <;> simp
  | _ => simp [Store.perform, Store.countID, deletes, mayInsert]

theorem countID_serve (st : Store) (outcome : Outcome) (id : String) (op : Op) :
    (st.serve outcome op).1.countID id + (deletes id ⟨op, (st.serve outcome op).2⟩).toNat
      ≤ st.countID id + (mayInsert id ⟨op, (st.serve outcome op).2⟩).toNat := by
  have hfailed : ∀ e, deletes id ⟨op, .error e⟩ = false := by
    intro e
    cases op <;> rfl
  cases outcome with
  | answered => exact countID_perform st id op _
  | failed =>
      rw [Store.serve, hfailed]
      exact Nat.le_add_right _ _
  | unacknowledged =>
      have := countID_perform st id op (.error .unavailable)
      rw [Store.serve, hfailed]
      simp only [Bool.toNat_false]
      omega

theorem countID_change (st : Store) (c : Change) (id : String) :
    (st.change c).countID id ≤ st.countID id := by
  cases c with
  | expire => exact List.filter_sublist.countP_le
  | others users servers punishments now => exact Nat.le_refl _

theorem countP_mayInsert (cs : Calls) (id : String) :
    cs.countP (mayInsert id) ≤ (inserts cs).length := by
  induction cs with
  | nil => exact Nat.le_refl _
  | cons c cs ih =>
      obtain ⟨op, a⟩ := c
      rw [List.countP_cons]
      cases hop : op.isInsert with
      | false =>
          have hno : mayInsert id ⟨op, a⟩ = false := by cases op <;> first | rfl | cases hop
          rw [hno, inserts_cons hop]
          exact ih
      | true =>
          cases op <;> cases hop
          have : inserts (⟨.createJoinToken _, a⟩ :: cs) = _ :: inserts cs := rfl
          rw [this, List.length_cons]
          split <;> omega

theorem mem_inserts_of_mayInsert {cs : Calls} {id : String} {c : (op : Op) × Ans op} (hc : c ∈ cs)
    (h : mayInsert id c = true) : ∃ doc ∈ inserts cs, doc.id = id := by
  obtain ⟨op, a⟩ := c
  cases op with
  | createJoinToken token => exact ⟨token, mem_inserts hc, by simpa [mayInsert] using h⟩
  | _ => cases h

/-- A request may insert only the document it has generated the id of. -/
theorem documentID_of_mayInsert {r : Request} {cs : Calls} {q : Handler}
    (h : Path r.handler cs q) {id : String} {c : (op : Op) × Ans op} (hc : c ∈ cs)
    (hins : mayInsert id c = true) : r.documentID = some id := by
  obtain ⟨doc, hdoc, rfl⟩ := mem_inserts_of_mayInsert hc hins
  rcases path_inserts h with hnone | ⟨doc', hdoc', hid⟩
  · rw [hnone] at hdoc
    cases hdoc
  · rw [hdoc', List.mem_singleton] at hdoc
    rw [hdoc, hid]

theorem countP_mayInsert_le_one {r : Request} {cs : Calls} {q : Handler}
    (h : Path r.handler cs q) (id : String) : cs.countP (mayInsert id) ≤ 1 := by
  refine Nat.le_trans (countP_mayInsert cs id) ?_
  rcases path_inserts h with hnone | ⟨doc, hdoc, -⟩
  · rw [hnone]
    exact Nat.zero_le 1
  · rw [hdoc]
    exact Nat.le_refl _

/-! ## Interleaved calls -/

/-- The API, as a system of interleaved calls. -/
abbrev Sys := System Store Ans Reply Request

/-- Ids are not generated twice, and not for a document that was there before. -/
def FreshIDs (st₀ : Store) (sys : Sys) : Prop :=
  (st₀.joinTokens.map (·.id) ++ sys.requests.filterMap Request.documentID).Nodup

variable {st₀ : Store} {sys : Sys} {as : List (System.Action Request Outcome Change)}

theorem countID_eq (st : Store) (id : String) :
    st.countID id = (st.joinTokens.map (·.id)).count id := by
  rw [List.count_eq_countP, List.countP_map]
  rfl

/-- No call inserts a document that was there before. -/
theorem FreshIDs.countP_eq_zero (h : FreshIDs st₀ sys) (htraced : sys.Traced service) {id : String}
    (hthere : id ∈ st₀.joinTokens.map (·.id)) :
    (sys.trace.countP fun e => mayInsert id e.call) = 0 := by
  rw [List.countP_eq_zero]
  intro e he hins
  obtain ⟨r, q, hr, hpath, hmem⟩ := htraced.owner he
  have hid := documentID_of_mayInsert hpath hmem hins
  exact not_mem_of_generated h hr hid hthere

theorem FreshIDs.request_eq (h : FreshIDs st₀ sys) {i j : Nat} {r r' : Request}
    (hi : sys.requests[i]? = some r) (hj : sys.requests[j]? = some r') {id : String}
    (hr : r.documentID = some id) (hr' : r'.documentID = some id) : i = j :=
  index_eq_of_generated h hi hj hr hr'

/-- At most one deletion of a document succeeds. -/
theorem deletes_once (h : exec service.step { store := st₀ } as = some sys)
    (hfresh : FreshIDs st₀ sys) (id : String) :
    (sys.trace.countP fun e => deletes id e.call) ≤ 1 := by
  have htraced : sys.Traced service := System.exec_traced h
  have hcons := System.conserved (S := service) (fun st => st.countID id) (deletes id)
    (mayInsert id) (fun st outcome op => countID_serve st outcome id op)
    (fun st c => countID_change st c id) h
  have hput := htraced.countP_le_one (mayInsert id) (fun r => r.documentID = some id)
    (fun r cs q hpath c hc => documentID_of_mayInsert hpath hc)
    (fun r cs q hpath => countP_mayInsert_le_one hpath id)
    (fun i j r r' hi hj => hfresh.request_eq hi hj)
  rw [countID_eq st₀] at hcons
  by_cases hthere : id ∈ st₀.joinTokens.map (·.id)
  · have hnodup : (st₀.joinTokens.map (·.id)).Nodup := (List.nodup_append.mp hfresh).1
    have hone := List.nodup_iff_count.mp hnodup id
    have hzero := hfresh.countP_eq_zero htraced hthere
    omega
  · have hzero := List.count_eq_zero_of_not_mem hthere
    omega

/-- Call `i` has consumed the document for the user. -/
def Consumed (sys : Sys) (i : Nat) (doc : JoinTokenModel) (userID : String) : Prop :=
  ∃ token server name st, sys.requests[i]? = some (.consume token server) ∧
    sys.tasks[i]? = some (.ret (.ok (.player userID name))) ∧
    { task := i, store := st, call := ⟨.joinTokenByToken token, .ok (some doc)⟩ } ∈ sys.trace

/-- When call `i` read the bans, the user had no active global one, and none of the
host of the server that it found. -/
def ReadNoBan (sys : Sys) (i : Nat) (doc : JoinTokenModel) (userID : String) : Prop :=
  (∃ st : Store, { task := i, store := st, call := ⟨.globalBan userID, .ok none⟩ } ∈ sys.trace ∧
    ∀ p ∈ st.punishments, p.isBan none userID st.now = false) ∧
  ∃ (found : ServerModel) (st st' : Store),
    { task := i, store := st, call := ⟨.serverByID doc.server, .ok (some found)⟩ } ∈ sys.trace ∧
    { task := i, store := st', call := ⟨.banForServer found.hostID userID, .ok none⟩ } ∈ sys.trace ∧
    ∀ p ∈ st'.punishments, p.isBan (some found.hostID) userID st'.now = false

theorem serve_ok {st : Store} {outcome : Outcome} (op : Op) {a : op.Result}
    (h : (.ok a : Ans op) = (st.serve outcome op).2) : (.ok a : Ans op) = (st.perform op).2 := by
  cases outcome with
  | answered => exact h
  | failed | unacknowledged => cases h

/-- The calls of a token's consumption, in the trace. -/
theorem Consumed.calls (htraced : sys.Traced service) {i : Nat} {doc : JoinTokenModel}
    {userID : String} (h : Consumed sys i doc userID) :
    ∃ found : ServerModel, sys.calls i ⊇
      [⟨.globalBan userID, .ok none⟩, ⟨.serverByID doc.server, .ok (some found)⟩,
        ⟨.banForServer found.hostID userID, .ok none⟩, ⟨.deleteJoinToken doc.id, .ok ()⟩] := by
  obtain ⟨token, server, name, st, hr, hq, hevent⟩ := h
  obtain ⟨doc', user, found, heq, -, hcalls⟩ := consume_path (htraced.path i _ _ hr hq)
  cases heq
  have hmem : (⟨.joinTokenByToken token, .ok (some doc)⟩ : (op : Op) × Ans op) ∈ sys.calls i :=
    System.mem_calls.mpr ⟨_, hevent, rfl, rfl⟩
  rw [hcalls] at hmem ⊢
  obtain rfl : doc = doc' := by simpa using hmem
  exact ⟨found, by simp⟩

theorem Consumed.readNoBan (htraced : sys.Traced service) {i : Nat} {doc : JoinTokenModel}
    {userID : String} (h : Consumed sys i doc userID) : ReadNoBan sys i doc userID := by
  obtain ⟨found, hcalls⟩ := h.calls htraced
  have hevent : ∀ c ∈ sys.calls i, ∃ st, { task := i, store := st, call := c } ∈ sys.trace ∧
      ∃ outcome, c.2 = (st.serve outcome c.1).2 := by
    intro c hc
    obtain ⟨e, he, rfl, rfl⟩ := System.mem_calls.mp hc
    exact ⟨e.store, he, htraced.served e he⟩
  obtain ⟨st₁, hmem₁, _, hans₁⟩ := hevent ⟨.globalBan userID, .ok none⟩ (hcalls (by simp))
  obtain ⟨st₂, hmem₂, -⟩ := hevent ⟨.serverByID doc.server, .ok (some found)⟩ (hcalls (by simp))
  obtain ⟨st₃, hmem₃, _, hans₃⟩ :=
    hevent ⟨.banForServer found.hostID userID, .ok none⟩ (hcalls (by simp))
  have h₁ : (.ok none : Ans (.globalBan userID)) = (st₁.perform (.globalBan userID)).2 :=
    serve_ok (.globalBan userID) hans₁
  have h₃ : (.ok none : Ans (.banForServer found.hostID userID)) =
      (st₃.perform (.banForServer found.hostID userID)).2 :=
    serve_ok (.banForServer found.hostID userID) hans₃
  simp only [Store.perform, Except.ok.injEq] at h₁ h₃
  refine ⟨⟨st₁, hmem₁, fun p hp => ?_⟩, found, st₂, st₃, hmem₂, hmem₃, fun p hp => ?_⟩
  · simpa using List.find?_eq_none.mp h₁.symm p hp
  · simpa using List.find?_eq_none.mp h₃.symm p hp

/-- In every interleaving a document is consumed by at most one call, and for a
user who was not banned when the call looked. -/
theorem consumed_once (h : exec service.step { store := st₀ } as = some sys)
    (hfresh : FreshIDs st₀ sys) :
    (∀ i j doc doc' userID userID', Consumed sys i doc userID → Consumed sys j doc' userID' →
      doc.id = doc'.id → i = j) ∧
    ∀ i doc userID, Consumed sys i doc userID → ReadNoBan sys i doc userID := by
  have htraced : sys.Traced service := System.exec_traced h
  refine ⟨?_, fun i doc userID hc => hc.readNoBan htraced⟩
  intro i j doc doc' userID userID' hi hj hid
  have hdelete : ∀ {i doc userID}, Consumed sys i doc userID →
      ∃ e ∈ sys.trace, e.task = i ∧ deletes doc.id e.call = true := by
    intro i doc userID hc
    obtain ⟨found, hcalls⟩ := hc.calls htraced
    obtain ⟨e, he, htask, hcall⟩ := System.mem_calls.mp
      (hcalls (by simp : ⟨.deleteJoinToken doc.id, .ok ()⟩ ∈ _))
    exact ⟨e, he, htask, by rw [hcall]; simp [deletes]⟩
  obtain ⟨e, he, rfl, hde⟩ := hdelete hi
  obtain ⟨e', he', rfl, hde'⟩ := hdelete hj
  rw [← hid] at hde'
  rw [eq_of_countP_le_one (deletes_once h hfresh doc.id) he he' hde hde']

/-- A token is created, and two calls to consume it run side by side. -/
def raceRun : List (System.Action Request Outcome Change) :=
  [.request sampleCreate, .run 0 .answered, .run 0 .answered, .run 0 .answered, .run 0 .answered,
    .run 0 .answered, .request (.consume "jwt" "s"), .request (.consume "jwt" "s"),
    .run 1 .answered, .run 2 .answered, .run 1 .answered, .run 2 .answered, .run 1 .answered,
    .run 2 .answered, .run 1 .answered, .run 2 .answered, .run 1 .answered, .run 2 .answered,
    .run 2 .answered, .run 1 .answered, .run 2 .answered]

theorem race_consumed_once :
    ∃ sys doc, exec service.step { store := sampleStore } raceRun = some sys ∧
      Consumed sys 2 doc "u" ∧ ReadNoBan sys 2 doc "u" ∧ ∀ i, Consumed sys i doc "u" → i = 2 := by
  have h : (exec service.step { store := sampleStore } raceRun).map (fun sys =>
      (sys.requests, (sys.tasks[2]?).bind result?))
      = some ([sampleCreate, .consume "jwt" "s", .consume "jwt" "s"],
          some (.ok (.player "u" "User"))) := by decide
  obtain ⟨sys, hsys, heq⟩ := Option.map_eq_some_iff.mp h
  simp only [Prod.mk.injEq] at heq
  obtain ⟨hrequests, hresult⟩ := heq
  obtain ⟨q, hq, hret⟩ := Option.bind_eq_some_iff.mp hresult
  cases eq_ret_of_result? hret
  have hr : sys.requests[2]? = some (.consume "jwt" "s") := by
    rw [hrequests]
    rfl
  have htraced : sys.Traced service := System.exec_traced hsys
  obtain ⟨doc, user, found, heq, -, hcalls⟩ := consume_path (htraced.path 2 _ _ hr hq)
  obtain ⟨e, he, htask, hcall⟩ := System.mem_calls.mp
    (by rw [hcalls]; simp : ⟨.joinTokenByToken "jwt", .ok (some doc)⟩ ∈ sys.calls 2)
  have hconsumed : Consumed sys 2 doc "u" :=
    ⟨"jwt", "s", "User", e.store, hr, hq, by rw [← htask, ← hcall]; exact he⟩
  have hfresh : FreshIDs sampleStore sys := by
    rw [FreshIDs, hrequests]
    decide
  obtain ⟨honce, hban⟩ := consumed_once hsys hfresh
  exact ⟨sys, doc, hsys, hconsumed, hban 2 doc "u" hconsumed,
    fun i hi => honce i 2 doc doc "u" "u" hi hconsumed rfl⟩

end Kyber.Api
