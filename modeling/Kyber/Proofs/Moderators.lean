import Kyber.Api.ServerManagement
import Kyber.Proofs.Rpc
import Mathlib.Data.List.Dedup

/-!
# Moderators

Two things about who manages a server. The list that `ModeratedServers` answers is
compared with what `isModerator` lets a user do, for each of the ways a user can
come by it. And `AddModerator` and `RemoveModerator` change the host's list by
writing back what they read when the call was authenticated, so what other calls
have written in between is lost; when nothing was, the list is what the calls have
made of it, in the order of their writes.
-/

namespace Kyber.Api

open Kyber.Lib Prog

/-! ## The servers of a moderator -/

/-- The keys of the collections are not shared. -/
structure Store.Keyed (st : Store) : Prop where
  users : (st.users.map (·.id)).Nodup
  servers : (st.servers.map (·.id)).Nodup

/-- `isModerator` goes on with the server. -/
def Granted (st : Store) (user : UserModel) (server : ServerModel) : Prop :=
  ((isModerator user server.id fun found => .ret (.ok (.servers [found]))).eval Store.perform st).2
    = .ok (.servers [server])

/-- `ModeratedServers` answers with the server. -/
def Listed (st : Store) (user : UserModel) (server : ServerModel) : Prop :=
  ∃ servers, ((moderatedServers user).eval Store.perform st).2 = .ok (.servers servers) ∧
    server ∈ servers

variable {st : Store} {user : UserModel} {server : ServerModel}

theorem granted_iff (hst : st.Keyed) :
    Granted st user server ↔ server ∈ st.servers ∧
      ∃ host ∈ st.users, host.id = server.hostID ∧ server.canManage host user = true := by
  simp only [Granted, isModerator, eval_query, Store.perform]
  cases hserver : st.servers.find? (·.id == server.id) with
  | none =>
      have hnot : server ∉ st.servers := fun hmem => by
        rw [find?_key hst.servers hmem] at hserver
        cases hserver
      simp [refuse, hnot]
  | some found =>
      obtain ⟨hfound, hid⟩ := (find?_key_eq_some_iff hst.servers).mp hserver
      simp only [eval_query, Store.perform]
      cases hhost : st.users.find? (·.id == found.hostID) with
      | none =>
          simp only [refuse, eval_ret, reduceCtorEq, false_iff, not_and]
          rintro hmem ⟨host, hh, hhid, -⟩
          have heq := find?_key hst.servers hmem
          rw [hserver] at heq
          cases heq
          rw [(find?_key_eq_some_iff hst.users).mpr ⟨hh, hhid⟩] at hhost
          cases hhost
      | some host =>
          obtain ⟨hh, hhid⟩ := (find?_key_eq_some_iff hst.users).mp hhost
          simp only
          constructor
          · intro h
            split at h
            · next hcan =>
                simp only [eval_ret, Except.ok.injEq, Response.servers.injEq, List.cons.injEq,
                  and_true] at h
                subst h
                exact ⟨hfound, host, hh, hhid, hcan⟩
            · cases h
          · rintro ⟨hmem, host', hh', hhid', hcan⟩
            have heq := find?_key hst.servers hmem
            rw [hserver] at heq
            cases heq
            have heq' := (find?_key_eq_some_iff hst.users).mpr ⟨hh', hhid'⟩
            rw [hhost] at heq'
            cases heq'
            rw [if_pos hcan]
            rfl

theorem mem_moderatedServerIDs {id : String} :
    id ∈ st.moderatedServerIDs user.id ↔ ∃ server ∈ st.servers, server.id = id ∧
      ∃ host ∈ st.users, host.id = server.hostID ∧
        (user.id = server.hostID ∨ host.moderatorUserIDs.contains user.id = true) := by
  simp only [Store.moderatedServerIDs, List.mem_dedup, List.mem_append, List.mem_flatMap,
    List.mem_filter, List.mem_map, Bool.or_eq_true, beq_iff_eq]
  constructor
  · rintro (⟨_, ⟨⟨host, ⟨hhost, -⟩, found, -, rfl⟩, hmod⟩, server, ⟨hserver, hid⟩, rfl⟩ |
      ⟨_, ⟨⟨host, ⟨hhost, -⟩, server, ⟨hserver, hid⟩, rfl⟩, hself⟩, rfl⟩)
    · exact ⟨server, hserver, rfl, host, hhost, hid.symm, .inr hmod⟩
    · exact ⟨server, hserver, rfl, host, hhost, hid.symm, .inl (hself.symm.trans hid.symm)⟩
  · rintro ⟨server, hserver, rfl, host, hhost, hid, hself | hmod⟩
    · exact .inr ⟨(host, server), ⟨⟨host, ⟨hhost, .inr (hid.trans hself.symm)⟩, server,
        ⟨hserver, hid.symm⟩, rfl⟩, hid.trans hself.symm⟩, rfl⟩
    · exact .inl ⟨(host, server), ⟨⟨host, ⟨hhost, .inl hmod⟩, server, ⟨hserver, hid.symm⟩, rfl⟩,
        hmod⟩, server, ⟨hserver, hid.symm⟩, rfl⟩

theorem listServers_iff {ids : List String} :
    (∃ servers, ((listServers ids).eval Store.perform st).2 = .ok (.servers servers) ∧
      server ∈ servers) ↔ server ∈ st.servers ∧ server.id ∈ ids := by
  simp [listServers, eval_query, Store.perform]

/-- The host of the server is there, and is the user or lists the user. -/
def HostsOrModerates (st : Store) (user : UserModel) (server : ServerModel) : Prop :=
  ∃ host ∈ st.users, host.id = server.hostID ∧
    (user.id = server.hostID ∨ host.moderatorUserIDs.contains user.id = true)

/-- The documents of a key are one. -/
theorem exists_id_mem_iff (hst : st.Keyed) {P : ServerModel → Prop} :
    (server ∈ st.servers ∧ ∃ other ∈ st.servers, other.id = server.id ∧ P other) ↔
      server ∈ st.servers ∧ P server := by
  constructor
  · rintro ⟨hmem, other, hother, hid, hp⟩
    have h := find?_key hst.servers hmem
    rw [(find?_key_eq_some_iff hst.servers).mpr ⟨hother, hid⟩] at h
    cases h
    exact ⟨hmem, hp⟩
  · rintro ⟨hmem, hp⟩
    exact ⟨hmem, server, hmem, rfl, hp⟩

/-- What `ModeratedServers` answers, for each kind of user. -/
theorem listed_iff (hst : st.Keyed) :
    Listed st user server ↔ server ∈ st.servers ∧
      if user.entitled .globalServerModerator then True
      else if user.entitled .officialServerModerator then server.official = true
      else HostsOrModerates st user server := by
  unfold Listed moderatedServers
  split
  · simp only [eval_query, Store.perform, listServers_iff, List.mem_map, and_true,
      and_iff_left_iff_imp]
    intro hmem
    exact ⟨server, hmem, rfl⟩
  split
  · simp only [eval_query, Store.perform, listServers_iff, List.mem_map, List.mem_filter]
    rw [← exists_id_mem_iff hst (P := (·.official = true))]
    refine and_congr_right fun _ => exists_congr fun other => ?_
    rw [and_assoc, and_comm (a := other.official = true)]
  · simp only [eval_query, Store.perform, listServers_iff, mem_moderatedServerIDs]
    exact exists_id_mem_iff hst

/-- The lists agree: for a global moderator if every server's host is there; for an
official moderator if the official servers are those that the user hosts or
moderates. -/
def ModeratesWhatIsListed (st : Store) (user : UserModel) : Prop :=
  if user.entitled .globalServerModerator then
    ∀ server ∈ st.servers, ∃ host ∈ st.users, host.id = server.hostID
  else if user.entitled .officialServerModerator then
    ∀ server ∈ st.servers, server.official = true ↔ HostsOrModerates st user server
  else True

/-- `ModeratedServers` lists exactly the servers that `isModerator` grants, exactly
in these cases. -/
theorem listed_iff_granted_iff (hst : st.Keyed) :
    (∀ server, Listed st user server ↔ Granted st user server) ↔
      ModeratesWhatIsListed st user := by
  simp only [listed_iff hst, granted_iff hst, ModeratesWhatIsListed, and_congr_right_iff,
    ServerModel.canManage, Bool.or_eq_true, beq_iff_eq]
  split
  · next hglobal => simp [hglobal]
  split
  · next hglobal hofficial => simp [hglobal, HostsOrModerates]
  · next hglobal hofficial => simp [hglobal, HostsOrModerates]

/-- An official server, with its host and a moderator of official servers. -/
def officialStore : Store where
  users := [{ id := "h", name := "Host" },
    { id := "o", name := "Official", entitlements := [.officialServerModerator] }]
  servers := [{ id := "s", name := "Server", password := none, hostID := "h", playerCount := 0,
                maxPlayerCount := 40, official := true, lastUpdated := 0, proxyToken := "" }]

theorem officialStore_keyed : officialStore.Keyed := ⟨by decide, by decide⟩

theorem listed_iff_granted_host :
    officialStore.Keyed ∧ ∀ server, Listed officialStore { id := "h", name := "Host" } server ↔
      Granted officialStore { id := "h", name := "Host" } server :=
  ⟨officialStore_keyed, (listed_iff_granted_iff officialStore_keyed).mpr trivial⟩

/-- The moderator of official servers is shown a server and may not manage it. -/
theorem official_listed_not_granted :
    ∃ user ∈ officialStore.users, ∃ server ∈ officialStore.servers,
      Listed officialStore user server ∧ ¬ Granted officialStore user server := by
  refine ⟨_, List.mem_cons_of_mem _ List.mem_cons_self, _, List.mem_cons_self, ?_, ?_⟩
  · exact (listed_iff officialStore_keyed).mpr ⟨List.mem_cons_self, rfl⟩
  · unfold Granted
    decide

/-! ## The list of a host -/

/-- `moderator_user_ids` of the user, if there is one. -/
def Store.moderators (st : Store) (id : String) : Option (List String) :=
  (st.users.find? (·.id == id)).map (·.moderatorUserIDs)

inductive ModeratorChange
  | add (id : String)
  | remove (id : String)
  deriving DecidableEq, Repr

def ModeratorChange.id : ModeratorChange → String
  | .add id => id
  | .remove id => id

def ModeratorRequest.change : ModeratorRequest → ModeratorChange
  | .add _ id => .add id
  | .remove _ id => .remove id

/-- The API's calls that list moderators, as a system of interleaved calls. -/
abbrev ModeratorSystem := System Store Ans Reply ModeratorRequest

/-- The call has written the host's list. -/
def wroteList (hostID : String) : (op : Op) × Ans op → Bool
  | ⟨.setModerators id _, .ok _⟩ => id == hostID
  | _ => false

/-- The successful operations on the list, in the order of their writes. -/
def operations (sys : ModeratorSystem) (hostID : String) : List ModeratorChange :=
  (sys.trace.filter fun e => wroteList hostID e.call).filterMap
    fun e => (sys.requests[e.task]?).map ModeratorRequest.change

/-- The last operation on the id. -/
def lastOn (ops : List ModeratorChange) (id : String) : Option ModeratorChange :=
  ops.reverse.find? (·.id == id)

/-- The list has whom the last operation has added, and not whom it has removed. -/
structure Reflects (ops : List ModeratorChange) (list : List String) : Prop where
  nodup : list.Nodup
  added : ∀ id, lastOn ops id = some (.add id) → id ∈ list
  removed : ∀ id, lastOn ops id = some (.remove id) → id ∉ list

theorem lastOn_append (ops : List ModeratorChange) (op : ModeratorChange) (id : String) :
    lastOn (ops ++ [op]) id = if op.id = id then some op else lastOn ops id := by
  rw [lastOn, List.reverse_append, List.reverse_singleton, List.singleton_append]
  by_cases h : op.id = id
  · rw [if_pos h, List.find?_cons_of_pos (by simpa using h)]
  · rw [if_neg h, List.find?_cons_of_neg (by simpa using h), lastOn]

theorem Reflects.add {ops : List ModeratorChange} {list : List String} {id : String}
    (h : Reflects ops list) (hnew : id ∉ list) : Reflects (ops ++ [.add id]) (list ++ [id]) := by
  constructor
  case nodup =>
    refine List.nodup_append.mpr ⟨h.nodup, List.nodup_singleton _, ?_⟩
    intro a ha b hb heq
    rw [List.mem_singleton] at hb
    subst hb heq
    exact hnew ha
  case added =>
    intro other hlast
    rw [lastOn_append] at hlast
    split at hlast
    · next heq =>
        rw [← heq]
        exact List.mem_append_right _ List.mem_cons_self
    · exact List.mem_append_left _ (h.added other hlast)
  case removed =>
    intro other hlast
    rw [lastOn_append] at hlast
    split at hlast
    · cases hlast
    · next hne =>
        rw [List.mem_append, List.mem_singleton]
        rintro (hmem | rfl)
        · exact h.removed other hlast hmem
        · exact hne rfl

theorem Reflects.remove {ops : List ModeratorChange} {list : List String} (h : Reflects ops list)
    (id : String) : Reflects (ops ++ [.remove id]) (list.erase id) := by
  constructor
  case nodup => exact h.nodup.erase id
  case added =>
    intro other hlast
    rw [lastOn_append] at hlast
    split at hlast
    · cases hlast
    · next hne => exact (List.mem_erase_of_ne (Ne.symm hne)).mpr (h.added other hlast)
  case removed =>
    intro other hlast
    rw [lastOn_append] at hlast
    split at hlast
    · next heq =>
        rw [← heq]
        exact h.nodup.not_mem_erase
    · intro hmem
      exact h.removed other hlast (List.mem_of_mem_erase hmem)

/-! ### What the calls write -/

/-- The user document that a call was authenticated with. -/
def readUser (cs : Calls) : Option UserModel :=
  cs.findSome? fun
    | ⟨.userByToken _, .ok user⟩ => user
    | _ => none

/-- A step must not write a list that is not made from the stored one, and a write
must not fail after it has been made. -/
def undisturbed (sys : ModeratorSystem) : System.Action ModeratorRequest Outcome Empty → Bool
  | .run i outcome =>
      match sys.tasks[i]? with
      | some (.call (.setModerators _ _) _) =>
          outcome ≠ .unacknowledged && (readUser (sys.calls i)).all fun user =>
            sys.store.moderators user.id == some user.moderatorUserIDs
      | _ => true
  | _ => true

/-- What a call is about to write was made from what it has read. -/
def MadeFrom (r : ModeratorRequest) (user : UserModel) (cs : Calls) (list : List String) : Prop :=
  match r with
  | .add _ id => id ∉ user.moderatorUserIDs ∧ ∃ moderator : UserModel,
      ⟨.userByID id, .ok (some moderator)⟩ ∈ cs ∧ list = user.moderatorUserIDs ++ [moderator.id]
  | .remove _ id => list = user.moderatorUserIDs.erase id

theorem writeModerators_path {userID hostID : String} {new list : List String} {cs : Calls}
    {k : Ans (.setModerators hostID list) → Handler}
    (h : Path (writeModerators userID new) cs (.call (.setModerators hostID list) k)) :
    hostID = userID ∧ list = new := by
  rcases path_call h with ⟨-, hq⟩ | ⟨a, cs', -, hpath⟩
  · cases hq
    exact ⟨rfl, rfl⟩
  · cases a <;> cases (path_ret hpath).2

theorem moderator_path {r : ModeratorRequest} {hostID : String} {list : List String} {cs : Calls}
    {k : Ans (.setModerators hostID list) → Handler}
    (h : Path r.handler cs (.call (.setModerators hostID list) k)) :
    ∃ user, readUser cs = some user ∧ hostID = user.id ∧ MadeFrom r user cs list := by
  have hauth : ∀ {token : String} {handler : UserModel → Handler},
      Path (authenticated token handler) cs (.call (.setModerators hostID list) k) →
      ∃ user cs', cs = ⟨.userByToken token, .ok (some user)⟩ :: cs' ∧
        Path (handler user) cs' (.call (.setModerators hostID list) k) := by
    intro token handler h
    obtain ⟨user, cs', rfl, h₁⟩ := path_query_call (by simp) h
    cases user with
    | none => cases (path_ret h₁).2
    | some user => exact ⟨user, cs', rfl, h₁⟩
  cases r with
  | add token id =>
      obtain ⟨user, cs', rfl, h₁⟩ := hauth h
      refine ⟨user, rfl, ?_⟩
      unfold addModerator at h₁
      split at h₁
      · cases (path_ret h₁).2
      · next hnew =>
          obtain ⟨moderator, cs₂, rfl, h₂⟩ := path_query_call (by simp) h₁
          cases moderator with
          | none => cases (path_ret h₂).2
          | some moderator =>
              obtain ⟨rfl, rfl⟩ := writeModerators_path h₂
              exact ⟨rfl, by simpa using hnew, moderator, by simp, rfl⟩
  | remove token id =>
      obtain ⟨user, cs', rfl, h₁⟩ := hauth h
      refine ⟨user, rfl, ?_⟩
      unfold removeModerator at h₁
      split at h₁
      · cases (path_ret h₁).2
      · next i hi =>
          obtain ⟨rfl, rfl⟩ := writeModerators_path h₁
          refine ⟨rfl, ?_⟩
          show _ = _
          rw [List.erase_eq_eraseIdx, hi]

/-- A call that has succeeded has written the list. -/
theorem moderator_path_ok {r : ModeratorRequest} {cs : Calls} {response : Response}
    (h : Path r.handler cs (.ret (.ok response))) : ∃ hostID, cs.any (wroteList hostID) = true := by
  have hwrite : ∀ {userID : String} {list : List String} {cs : Calls},
      Path (writeModerators userID list) cs (.ret (.ok response)) →
      cs = [⟨.setModerators userID list, .ok ()⟩] := by
    intro userID list cs h
    obtain ⟨⟨⟩, cs', rfl, h₁⟩ := path_query_ok h
    rw [(path_ret h₁).1]
  cases r with
  | add token id =>
      obtain ⟨user, cs₁, rfl, h₁⟩ := path_query_ok h
      cases user with
      | none => exact (path_refuse_ok h₁).elim
      | some user =>
          simp only [addModerator] at h₁
          split at h₁
          · exact (path_refuse_ok h₁).elim
          · obtain ⟨moderator, cs₂, rfl, h₂⟩ := path_query_ok h₁
            cases moderator with
            | none => exact (path_refuse_ok h₂).elim
            | some moderator =>
                rw [hwrite h₂]
                exact ⟨user.id, by simp [wroteList]⟩
  | remove token id =>
      obtain ⟨user, cs₁, rfl, h₁⟩ := path_query_ok h
      cases user with
      | none => exact (path_refuse_ok h₁).elim
      | some user =>
          simp only [removeModerator] at h₁
          split at h₁
          · exact (path_refuse_ok h₁).elim
          · rw [hwrite h₁]
            exact ⟨user.id, by simp [wroteList]⟩

/-! ### The list along a run -/

theorem wroteList_eq_false {op : Op} (hop : ∀ id list, op ≠ .setModerators id list)
    (hostID : String) (a : Ans op) : wroteList hostID ⟨op, a⟩ = false := by
  cases op with
  | setModerators id list => exact absurd rfl (hop id list)
  | _ => rfl

theorem moderators_setModerators (st : Store) (id hostID : String) (list : List String) :
    (st.perform (.setModerators id list)).1.moderators hostID
      = if id = hostID then (st.moderators hostID).map fun _ => list else st.moderators hostID := by
  simp only [Store.moderators, Store.perform]
  split
  · next h =>
      subst h
      rw [find?_updateFirst]
      · cases st.users.find? (·.id == id) <;> rfl
      · intro u hu
        exact hu
  · next h =>
      rw [find?_updateFirst_of_not]
      intro u hu
      have : u.id ≠ hostID := fun heq => h ((beq_iff_eq.mp hu).symm.trans heq)
      simpa using this

variable {sys sys' : ModeratorSystem} {hostID : String}

theorem operations_request (h : sys.Traced moderatorService) (r : ModeratorRequest)
    (tasks : List Handler) :
    operations { sys with requests := sys.requests ++ [r], tasks } hostID
      = operations sys hostID := by
  refine List.filterMap_congr fun e he => ?_
  rw [List.getElem?_append_left (h.task_lt e (List.mem_of_mem_filter he))]

theorem operations_run {i : Nat} {r : ModeratorRequest} (hr : sys.requests[i]? = some r)
    (store st : Store) (tasks : List Handler) (c : (op : Op) × Ans op) :
    operations { sys with store, tasks, trace := sys.trace ++ [{ task := i, store := st, call := c }] }
        hostID
      = operations sys hostID ++ if wroteList hostID c then [r.change] else [] := by
  simp only [operations, List.filter_append, List.filterMap_append]
  by_cases hc : wroteList hostID c = true <;> simp [hc, hr]

/-- A write that nothing has come in between of. -/
theorem Reflects.write {ops : List ModeratorChange} {r : ModeratorRequest} {user : UserModel}
    {cs : Calls} {list : List String} (h : Reflects ops user.moderatorUserIDs)
    (hlist : MadeFrom r user cs list)
    (hserved : ∀ c ∈ cs, ∃ (st : Store) (outcome : Outcome), c.2 = (st.serve outcome c.1).2) :
    Reflects (ops ++ [r.change]) list := by
  cases r with
  | add token id =>
      obtain ⟨hnew, moderator, hmod, rfl⟩ := hlist
      obtain ⟨st, outcome, hans⟩ := hserved _ hmod
      have hid : moderator.id = id := by
        cases outcome with
        | answered => simpa using List.find?_some (Except.ok.inj hans).symm
        | failed | unacknowledged => cases hans
      subst hid
      exact h.add hnew
  | remove token id =>
      cases hlist
      exact h.remove id

/-- What a run in which no write is disturbed keeps. -/
structure Listing (hostID : String) (sys : ModeratorSystem) : Prop where
  traced : sys.Traced moderatorService
  list : ∀ list, sys.store.moderators hostID = some list → Reflects (operations sys hostID) list

theorem Listing.write (h : Listing hostID sys) {i : Nat} {r : ModeratorRequest}
    (hr : sys.requests[i]? = some r) {id : String} {new : List String}
    {k : Ans (.setModerators id new) → Handler}
    (hi : sys.tasks[i]? = some (.call (.setModerators id new) k)) (outcome : Outcome)
    (hsafe : undisturbed sys (.run i outcome) = true) {list : List String}
    (hlist : (sys.store.serve outcome (.setModerators id new)).1.moderators hostID = some list) :
    Reflects (operations sys hostID ++
      if wroteList hostID ⟨_, (sys.store.serve outcome (.setModerators id new)).2⟩ then [r.change]
      else []) list := by
  obtain ⟨user, hread, rfl, hmade⟩ := moderator_path (h.traced.path i r _ hr hi)
  simp only [undisturbed, hi, hread, Option.all_some, Bool.and_eq_true, decide_eq_true_eq,
    beq_iff_eq] at hsafe
  obtain ⟨hout, hcurrent⟩ := hsafe
  cases outcome with
  | unacknowledged => exact absurd rfl hout
  | failed => simpa [wroteList, Store.serve] using h.list list hlist
  | answered =>
      have hwrote : wroteList hostID
          ⟨_, (sys.store.serve .answered (.setModerators user.id new)).2⟩ = (user.id == hostID) := rfl
      simp only [Store.serve, moderators_setModerators] at hlist
      split at hlist
      · next heq =>
          rw [if_pos (hwrote.trans (by simpa using heq))]
          subst heq
          rw [hcurrent] at hlist
          cases hlist
          refine (h.list _ hcurrent).write hmade fun c hc => ?_
          obtain ⟨e, he, -, rfl⟩ := System.mem_calls.mp hc
          obtain ⟨outcome, hans⟩ := h.traced.served e he
          exact ⟨e.store, outcome, hans⟩
      · next hne =>
          rw [if_neg (by rw [hwrote]; simpa using hne), List.append_nil]
          exact h.list list hlist

theorem Listing.step (h : Listing hostID sys) {a : System.Action ModeratorRequest Outcome Empty}
    (hsafe : undisturbed sys a = true) (hstep : moderatorService.step sys a = some sys') :
    Listing hostID sys' := by
  refine ⟨h.traced.step hstep, ?_⟩
  intro list hlist
  cases a with
  | change e => cases e
  | request r =>
      cases hstep
      rw [operations_request h.traced]
      exact h.list list hlist
  | run i outcome =>
      simp only [Service.step] at hstep
      split at hstep
      · next op k hi =>
          cases hstep
          obtain ⟨r, hr⟩ := h.traced.request_of_task hi
          rw [operations_run hr]
          by_cases hop : ∃ id new, op = .setModerators id new
          · obtain ⟨id, new, rfl⟩ := hop
            exact h.write hr hi outcome hsafe hlist
          · have hne : ∀ id list, op ≠ .setModerators id list := fun id list heq =>
              hop ⟨id, list, heq⟩
            rw [wroteList_eq_false hne, if_neg Bool.false_ne_true, List.append_nil]
            have husers : ((sys.store.serve outcome op).1.users.find? (·.id == hostID)).map
                (·.moderatorUserIDs) = some list := hlist
            rw [users_serve hne] at husers
            exact h.list list husers
      · cases hstep

/-- In every state of a run whose writes are undisturbed, the host's list is what the
successful operations have made of it, and these are the calls that have written. -/
theorem moderators_run (st₀ : Store) (as : List (System.Action ModeratorRequest Outcome Empty))
    (hostID : String) (hnodup : ∀ list, st₀.moderators hostID = some list → list.Nodup)
    (hsafe : ∀ m ∈ moves moderatorService.step { store := st₀ } as, undisturbed m.1 m.2 = true) :
    ∀ sys ∈ visits moderatorService.step { store := st₀ } as,
      (∀ list, sys.store.moderators hostID = some list → Reflects (operations sys hostID) list) ∧
      ∀ i response, sys.tasks[i]? = some (.ret (.ok response)) →
        ∃ id, (sys.calls i).any (wroteList id) = true := by
  have hinit : Listing hostID { store := st₀ } := by
    refine ⟨.init _ _, fun list hlist => ⟨hnodup list hlist, ?_, ?_⟩⟩
    · intro id hlast
      cases hlast
    · intro id hlast
      cases hlast
  intro sys hsys
  have h : Listing hostID sys :=
    forall_visits_of_forall_moves (Listing hostID) (fun sys a => undisturbed sys a = true)
      (fun h hc hstep => h.step hc hstep) hinit as hsafe sys hsys
  refine ⟨h.list, fun i response hi => ?_⟩
  obtain ⟨r, hr⟩ := h.traced.request_of_task hi
  exact moderator_path_ok (h.traced.path i r _ hr hi)

def moderatorStore : Store where
  users := [{ id := "h", token := "t", name := "Host" }, { id := "a", name := "A" },
    { id := "b", name := "B" }]

/-- The host adds one moderator, and then another. -/
def serialAdds : List (System.Action ModeratorRequest Outcome Empty) :=
  [.request (.add "t" "a"), .run 0 .answered, .run 0 .answered, .run 0 .answered,
    .request (.add "t" "b"), .run 1 .answered, .run 1 .answered, .run 1 .answered]

theorem serialAdds_kept : ∃ sys ∈ visits moderatorService.step { store := moderatorStore } serialAdds,
    sys.store.moderators "h" = some ["a", "b"] ∧ Reflects (operations sys "h") ["a", "b"] := by
  have hend : (exec moderatorService.step { store := moderatorStore } serialAdds).map
      (·.store.moderators "h") = some (some ["a", "b"]) := by decide
  obtain ⟨sys, hsys, hlist⟩ := Option.map_eq_some_iff.mp hend
  have hsafe : (moves moderatorService.step { store := moderatorStore } serialAdds).all
      (fun m => undisturbed m.1 m.2) = true := by decide
  have hmem := mem_visits_of_exec hsys
  have hnodup : ∀ list, moderatorStore.moderators "h" = some list → list.Nodup := by
    intro list h
    cases h
    exact List.nodup_nil
  exact ⟨sys, hmem, hlist, (moderators_run moderatorStore serialAdds "h" hnodup
    (List.all_eq_true.mp hsafe) sys hmem).1 _ hlist⟩

/-- The host adds two moderators at once. -/
def racingAdds : List (System.Action ModeratorRequest Outcome Empty) :=
  [.request (.add "t" "a"), .request (.add "t" "b"), .run 0 .answered, .run 1 .answered,
    .run 0 .answered, .run 0 .answered, .run 1 .answered, .run 1 .answered]

/-- Both calls succeed, and the first moderator is lost. -/
theorem racingAdds_lost : ∃ sys ∈ visits moderatorService.step { store := moderatorStore } racingAdds,
    sys.store.moderators "h" = some ["b"] ∧ lastOn (operations sys "h") "a" = some (.add "a") := by
  have hend : (exec moderatorService.step { store := moderatorStore } racingAdds).map
      (fun sys => (sys.store.moderators "h", lastOn (operations sys "h") "a"))
      = some (some ["b"], some (.add "a")) := by decide
  obtain ⟨sys, hsys, heq⟩ := Option.map_eq_some_iff.mp hend
  exact ⟨sys, mem_visits_of_exec hsys, congrArg Prod.fst heq, congrArg Prod.snd heq⟩

end Kyber.Api
