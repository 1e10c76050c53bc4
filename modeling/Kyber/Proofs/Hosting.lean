import Kyber.Api.ServerBrowser
import Kyber.Proofs.Rpc

/-!
# How many servers a host has

`RegisterServer` counts the host's servers when it starts, and inserts the server
after several more calls; it inserts the join token of the server before the server
is validated. So the limit is kept as long as no other server of the host has come
in between, and a call that fails leaves nothing behind as long as it fails before
the join token is inserted.
-/

namespace Kyber.Api

open Kyber.Lib Prog

/-! ## What a registration does -/

/-- The calls that insert a document. -/
def Op.isCreate : Op → Bool
  | .createJoinToken _ | .createServer _ => true
  | _ => false

/-- Nothing has been inserted, and the server is not about to be. -/
def Early (cs : Calls) (q : Handler) : Prop :=
  (∀ c ∈ cs, c.1.isCreate = false) ∧ ∀ server k, q ≠ .call (.createServer server) k

theorem Early.cons {c : (op : Op) × Ans op} {cs : Calls} {q : Handler} (hc : c.1.isCreate = false)
    (h : Early cs q) : Early (c :: cs) q :=
  ⟨List.forall_mem_cons.mpr ⟨hc, h.1⟩, h.2⟩

theorem early_of_ret {r : Reply} {cs : Calls} {q : Handler} (h : Path (.ret r) cs q) :
    Early cs q := by
  obtain ⟨rfl, rfl⟩ := path_ret h
  exact ⟨by simp, by simp⟩

/-- A query that inserts nothing: the registration is at its start, or goes on. -/
theorem early_or_path {op : Op} (hop : op.isCreate = false) {code : Code} {message : String}
    {k : op.Result → Handler} {cs : Calls} {q : Handler}
    (h : Path (query op code message k) cs q) :
    Early cs q ∨ ∃ a cs', cs = ⟨op, .ok a⟩ :: cs' ∧ Path (k a) cs' q := by
  rcases path_call h with ⟨rfl, rfl⟩ | ⟨a, cs', rfl, hpath⟩
  · refine .inl ⟨by simp, fun server k' heq => ?_⟩
    cases heq
    cases hop
  · cases a with
    | error e => exact .inl ((early_of_ret hpath).cons hop)
    | ok a => exact .inr ⟨a, cs', rfl, hpath⟩

/-- What is left of a registration once its join token has been inserted. -/
theorem publishServer_path {user : UserModel} {req : RegisterServerRequest} {gen : Generated}
    {proxyToken : SignedToken} {cs : Calls} {q : Handler}
    (h : Path (publishServer user req gen proxyToken) cs q) :
    (∃ failure, cs = [] ∧ req.invalid = some failure ∧ q = .ret (.error failure)) ∨
      ∃ server : ServerModel, ((∃ k, cs = [] ∧ q = .call (.createServer server) k) ∨
          (∃ e, cs = [⟨.createServer server, .error e⟩] ∧ ∃ failure, q = .ret (.error failure)) ∨
          ∃ cs', cs = ⟨.createServer server, .ok ()⟩ :: cs' ∧ Early cs' q ∧
            ∀ failure, q ≠ .ret (.error failure)) ∧
        server.id = gen.id ∧ server.hostID = user.id := by
  unfold publishServer at h
  split at h
  · next failure hinvalid =>
      obtain ⟨rfl, rfl⟩ := path_ret h
      exact .inl ⟨failure, rfl, hinvalid, rfl⟩
  · rcases path_call h with ⟨rfl, rfl⟩ | ⟨a, cs', rfl, hpath⟩
    · exact .inr ⟨_, .inl ⟨_, rfl, rfl⟩, rfl, rfl⟩
    · cases a with
      | error e =>
          obtain ⟨rfl, rfl⟩ := path_ret hpath
          exact .inr ⟨_, .inr (.inl ⟨e, rfl, _, rfl⟩), rfl, rfl⟩
      | ok a =>
          refine .inr ⟨_, .inr (.inr ⟨cs', rfl, ?_⟩), rfl, rfl⟩
          rcases path_call hpath with ⟨rfl, rfl⟩ | ⟨a, cs'', rfl, hlast⟩
          · exact ⟨⟨by simp, by simp⟩, by simp⟩
          · refine ⟨(early_of_ret hlast).cons rfl, ?_⟩
            obtain ⟨-, rfl⟩ := path_ret hlast
            simp

/-- The calls of a registration up to the join token, with the servers that the host
has been found to have. -/
structure Issues (token : String) (gen : Generated) (user : UserModel) (hosted : List ServerModel)
    (doc : JoinTokenModel) (cs : Calls) : Prop where
  calls : cs = [⟨.userByToken token, .ok (some user)⟩, ⟨.serversByHostID user.id, .ok hosted⟩]
  room : hosted.length < user.getServerLimit
  id : gen.signed.map SignedToken.text = some doc.id

/-- How many servers the call has counted. -/
def counted (cs : Calls) : Option Nat :=
  cs.findSome? fun
    | ⟨.serversByHostID _, .ok hosted⟩ => some hosted.length
    | _ => none

theorem register_path {token : String} {req : RegisterServerRequest} {gen : Generated}
    {cs : Calls} {q : Handler}
    (h : Path (HostingRequest.register token req gen).handler cs q) :
    Early cs q ∨ ∃ user hosted doc pre, Issues token gen user hosted doc pre ∧
      ((∃ e, cs = pre ++ [⟨.createJoinToken doc, .error e⟩] ∧ q = refuse .internal "Failed to create join token") ∨
        ∃ proxyToken cs', cs = pre ++ ⟨.createJoinToken doc, .ok ()⟩ :: cs' ∧
          Path (publishServer user req gen proxyToken) cs' q) := by
  rcases early_or_path rfl h with hearly | ⟨user, cs₁, rfl, h₁⟩
  · exact .inl hearly
  cases user with
  | none => exact .inl ((early_of_ret h₁).cons rfl)
  | some user =>
      rcases early_or_path rfl h₁ with hearly | ⟨hosted, cs₂, rfl, h₂⟩
      · exact .inl (hearly.cons rfl)
      have hrefused : Early cs₂ q → Early (⟨.userByToken token, .ok (some user)⟩ ::
          ⟨.serversByHostID user.id, .ok hosted⟩ :: cs₂) q :=
        fun hearly => (hearly.cons rfl).cons rfl
      split at h₂
      · exact .inl (hrefused (early_of_ret h₂))
      split at h₂
      · exact .inl (hrefused (early_of_ret h₂))
      next hroom _ =>
        split at h₂
        · exact .inl (hrefused (early_of_ret h₂))
        · next proxyToken hsigned =>
            rcases path_query h₂ with rfl | ⟨e, rfl, hq⟩ | ⟨⟨⟩, cs₃, rfl, h₃⟩
            · rcases path_call h₂ with ⟨-, rfl⟩ | ⟨_, _, hnil, -⟩
              · exact .inl (hrefused ⟨by simp, by simp⟩)
              · cases hnil
            · exact .inr ⟨user, hosted, _, _, ⟨rfl, Nat.lt_of_not_ge hroom, by
                rw [hsigned, Option.map_some]⟩, .inl ⟨e, rfl, hq⟩⟩
            · exact .inr ⟨user, hosted, _, _, ⟨rfl, Nat.lt_of_not_ge hroom, by
                rw [hsigned, Option.map_some]⟩, .inr ⟨proxyToken, cs₃, rfl, h₃⟩⟩

/-- A registration that is about to insert its server. -/
theorem register_createServer {token : String} {req : RegisterServerRequest} {gen : Generated}
    {cs : Calls} {server : ServerModel} {k : Ans (.createServer server) → Handler}
    (h : Path (HostingRequest.register token req gen).handler cs (.call (.createServer server) k)) :
    ∃ user n, ⟨.userByToken token, .ok (some user)⟩ ∈ cs ∧
      counted cs = some n ∧ n < user.getServerLimit ∧
      server.hostID = user.id ∧ ∀ c ∈ cs, ∀ other, c.1 ≠ .createServer other := by
  rcases register_path h with hearly | ⟨user, hosted, doc, pre, hissues, hrest⟩
  · exact absurd rfl (hearly.2 server k)
  rcases hrest with ⟨e, rfl, hq⟩ | ⟨proxyToken, cs', rfl, hpath⟩
  · cases hq
  rcases publishServer_path hpath with
    ⟨_, _, _, hq⟩ | ⟨_, ⟨_, rfl, hq⟩ | ⟨_, _, _, hq⟩ | ⟨_, _, hearly, _⟩, -, hhost⟩
  · cases hq
  · cases hq
    rw [hissues.calls]
    refine ⟨user, hosted.length, by simp, rfl, hissues.room, hhost, ?_⟩
    simp
  · cases hq
  · exact absurd rfl (hearly.2 server k)

/-- A registration that has failed has not inserted its server, and its join token
only if the server is not valid or could not be inserted. -/
theorem register_failed {token : String} {req : RegisterServerRequest} {gen : Generated}
    {cs : Calls} {failure : Failure}
    (h : Path (HostingRequest.register token req gen).handler cs (.ret (.error failure))) :
    (∀ server, ⟨.createServer server, .ok ()⟩ ∉ cs) ∧
      ∀ doc, ⟨.createJoinToken doc, .ok ()⟩ ∈ cs →
        req.invalid ≠ none ∨ ∃ server e, ⟨.createServer server, .error e⟩ ∈ cs := by
  rcases register_path h with hearly | ⟨user, hosted, doc, pre, hissues, hrest⟩
  · refine ⟨fun server hmem => ?_, fun doc hmem => ?_⟩
    · cases hearly.1 _ hmem
    · cases hearly.1 _ hmem
  rw [hissues.calls] at hrest
  rcases hrest with ⟨e, rfl, -⟩ | ⟨proxyToken, cs', rfl, hpath⟩
  · simp
  rcases publishServer_path hpath with
    ⟨_, rfl, hinvalid, _⟩ | ⟨_, ⟨_, _, hq⟩ | ⟨e, rfl, _⟩ | ⟨_, _, _, hq⟩, -, -⟩
  · simp [hinvalid]
  · cases hq
  · simp
  · exact absurd rfl (hq failure)

/-! ## Whose documents they are -/

/-- The `_id` of the server that a call inserts, if it gets to it. -/
def HostingRequest.serverID : HostingRequest → Option String
  | .register _ _ gen => some gen.id
  | .cleanup _ => none

/-- The `_id` of the join token. -/
def HostingRequest.tokenID : HostingRequest → Option String
  | .register _ _ gen => gen.signed.map SignedToken.text
  | .cleanup _ => none

/-- The calls that the handler of a request makes insert its own documents, and
leave the users alone. -/
def HostingRequest.Owns (r : HostingRequest) : Op → Prop
  | .createServer server => r.serverID = some server.id
  | .createJoinToken doc => r.tokenID = some doc.id
  | .setModerators _ _ => False
  | _ => True

theorem publishServer_owns (user : UserModel) (token : String) (req : RegisterServerRequest)
    (gen : Generated) (proxyToken : SignedToken) :
    Makes (HostingRequest.register token req gen).Owns (publishServer user req gen proxyToken) := by
  unfold publishServer
  split
  · exact .ret _
  · exact makes_query rfl fun _ => .call trivial fun _ => .ret _

theorem HostingRequest.owns (r : HostingRequest) : Makes r.Owns r.handler := by
  cases r with
  | cleanup now =>
      refine .call trivial fun servers => ?_
      cases servers with
      | error e => exact .ret _
      | ok servers =>
          dsimp only
          split
          · exact .ret _
          · exact .call trivial fun _ => .ret _
  | register token req gen =>
      refine makes_query trivial fun user => ?_
      cases user with
      | none => exact .ret _
      | some user =>
          refine makes_query trivial fun hosted => ?_
          split
          · exact .ret _
          split
          · exact .ret _
          split
          · exact .ret _
          · next proxyToken hsigned =>
              refine makes_query ?_ fun _ => publishServer_owns user token req gen proxyToken
              show gen.signed.map SignedToken.text = _
              rw [hsigned, Option.map_some]

/-! ## What the calls do to the collections -/

theorem servers_serve_sublist {op : Op} (hop : ∀ server, op ≠ .createServer server) (st : Store)
    (outcome : Outcome) : (st.serve outcome op).1.servers.Sublist st.servers := by
  have hperform : (st.perform op).1.servers.Sublist st.servers := by
    cases op with
    | createServer server => exact absurd rfl (hop server)
    | deleteServers ids => exact List.filter_sublist
    | createJoinToken _ | deleteJoinToken _ | createPunishment _ | createReport _ =>
        simp only [Store.perform]
        split <;> exact .refl _
    | _ => exact .refl _
  cases outcome with
  | answered | unacknowledged => exact hperform
  | failed => exact .refl _

theorem joinTokens_serve_sublist {op : Op} (hop : ∀ doc, op ≠ .createJoinToken doc) (st : Store)
    (outcome : Outcome) : (st.serve outcome op).1.joinTokens.Sublist st.joinTokens := by
  have hperform : (st.perform op).1.joinTokens.Sublist st.joinTokens := by
    cases op with
    | createJoinToken doc => exact absurd rfl (hop doc)
    | deleteJoinToken id =>
        simp only [Store.perform]
        split
        · exact List.eraseP_sublist
        · exact .refl _
    | createServer _ | createPunishment _ | createReport _ =>
        simp only [Store.perform]
        split <;> exact .refl _
    | _ => exact .refl _
  cases outcome with
  | answered | unacknowledged => exact hperform
  | failed => exact .refl _

/-! ## Runs -/

abbrev HostingSystem := System Store Ans Reply HostingRequest

/-- No host has more servers than its limit. -/
def Store.WithinLimits (st : Store) : Prop :=
  ∀ user ∈ st.users, st.servers.countP (·.hostID == user.id) ≤ user.getServerLimit

def HostingRequest.valid : HostingRequest → Bool
  | .register _ req _ => req.invalid.isNone
  | .cleanup _ => true

/-- A join token is inserted only for a server that is valid, and without an error;
a server is inserted without an error, and when its host has no more servers than
have been counted. -/
def unhindered (sys : HostingSystem) :
    System.Action HostingRequest Outcome HostingChange → Bool
  | .run i outcome =>
      match sys.tasks[i]? with
      | some (.call (.createJoinToken _) _) =>
          outcome == .failed || outcome == .answered && sys.requests[i]?.all (·.valid)
      | some (.call (.createServer server) _) =>
          outcome == .answered && (counted (sys.calls i)).all fun n =>
            sys.store.servers.countP (·.hostID == server.hostID) ≤ n
      | _ => true
  | _ => true

/-- Ids are not generated twice, and not for a document that was there before. -/
structure FreshHosting (st₀ : Store) (requests : List HostingRequest) : Prop where
  servers : (st₀.servers.map (·.id) ++ requests.filterMap HostingRequest.serverID).Nodup
  tokens : (st₀.joinTokens.map (·.id) ++ requests.filterMap HostingRequest.tokenID).Nodup

/-- What a run without hindrance keeps: the limits, and where each document comes
from. -/
structure Hosting (st₀ : Store) (sys : HostingSystem) : Prop where
  traced : sys.Traced hostingService
  users : sys.store.users = st₀.users
  usersRead : ∀ e ∈ sys.trace, e.store.users = st₀.users
  limits : sys.store.WithinLimits
  servers : ∀ server ∈ sys.store.servers, server ∈ st₀.servers ∨
    ∃ e ∈ sys.trace, e.call = ⟨.createServer server, .ok ()⟩
  tokens : ∀ doc ∈ sys.store.joinTokens, doc ∈ st₀.joinTokens ∨
    ∃ e ∈ sys.trace, e.call = ⟨.createJoinToken doc, .ok ()⟩
  created : ∀ e ∈ sys.trace, ∀ server err, e.call ≠ ⟨.createServer server, .error err⟩
  valid : ∀ e ∈ sys.trace, ∀ doc, e.call = ⟨.createJoinToken doc, .ok ()⟩ →
    sys.requests[e.task]?.all (·.valid) = true

variable {st₀ : Store} {sys sys' : HostingSystem} {i : Nat}

theorem Hosting.users_call (h : Hosting st₀ sys) {op : Op} {k : Ans op → Handler}
    (hi : sys.tasks[i]? = some (.call op k)) {outcome : Outcome} :
    (sys.store.serve outcome op).1.users = sys.store.users := by
  obtain ⟨r, hr⟩ := h.traced.request_of_task hi
  have howns : r.Owns op := r.owns _ _ _ (h.traced.path i r _ hr hi)
  refine users_serve (fun id list hop => ?_) sys.store outcome
  rw [hop] at howns
  exact howns

/-- What a call must not do for the run to go on without hindrance. -/
theorem Hosting.run (h : Hosting st₀ sys) {op : Op} {k : Ans op → Handler}
    (hi : sys.tasks[i]? = some (.call op k)) (outcome : Outcome)
    (hlimits : (sys.store.serve outcome op).1.WithinLimits)
    (hservers : ∀ server ∈ (sys.store.serve outcome op).1.servers, server ∈ sys.store.servers ∨
      (⟨op, (sys.store.serve outcome op).2⟩ : (op : Op) × Ans op) = ⟨.createServer server, .ok ()⟩)
    (htokens : ∀ doc ∈ (sys.store.serve outcome op).1.joinTokens, doc ∈ sys.store.joinTokens ∨
      (⟨op, (sys.store.serve outcome op).2⟩ : (op : Op) × Ans op) = ⟨.createJoinToken doc, .ok ()⟩)
    (hcreated : ∀ server err,
      (⟨op, (sys.store.serve outcome op).2⟩ : (op : Op) × Ans op) ≠ ⟨.createServer server, .error err⟩)
    (hvalid : ∀ doc,
      (⟨op, (sys.store.serve outcome op).2⟩ : (op : Op) × Ans op) = ⟨.createJoinToken doc, .ok ()⟩ →
      sys.requests[i]?.all (·.valid) = true) :
    Hosting st₀ { sys with
      store := (sys.store.serve outcome op).1
      tasks := sys.tasks.set i (k (sys.store.serve outcome op).2)
      trace := sys.trace ++ [{ task := i, store := sys.store,
                               call := ⟨op, (sys.store.serve outcome op).2⟩ }] } := by
  constructor
  case traced => exact h.traced.run hi outcome _
  case users => exact (h.users_call hi).trans h.users
  case usersRead => simpa [or_imp, forall_and] using ⟨h.usersRead, h.users⟩
  case limits => exact hlimits
  case servers =>
    intro server hserver
    rcases hservers server hserver with hold | hnew
    · exact (h.servers server hold).imp id fun ⟨e, he, hcall⟩ =>
        ⟨e, List.mem_append_left _ he, hcall⟩
    · exact .inr ⟨_, List.mem_append_right _ List.mem_cons_self, hnew⟩
  case tokens =>
    intro doc hdoc
    rcases htokens doc hdoc with hold | hnew
    · exact (h.tokens doc hold).imp id fun ⟨e, he, hcall⟩ =>
        ⟨e, List.mem_append_left _ he, hcall⟩
    · exact .inr ⟨_, List.mem_append_right _ List.mem_cons_self, hnew⟩
  case created =>
    rw [List.forall_mem_append]
    exact ⟨h.created, by simpa using hcreated⟩
  case valid =>
    rw [List.forall_mem_append]
    exact ⟨h.valid, List.forall_mem_singleton.mpr hvalid⟩

/-- The server that a registration is about to insert has a new id. -/
theorem Hosting.new_server (h : Hosting st₀ sys) (hfresh : FreshHosting st₀ sys.requests)
    {server : ServerModel} {k : Ans (.createServer server) → Handler} {r : HostingRequest}
    (hr : sys.requests[i]? = some r)
    (hnone : ∀ c ∈ sys.calls i, ∀ other, c.1 ≠ .createServer other)
    (hi : sys.tasks[i]? = some (.call (.createServer server) k)) :
    sys.store.servers.any (·.id == server.id) = false := by
  have howns : r.serverID = some server.id := r.owns _ _ _ (h.traced.path i r _ hr hi)
  rw [List.any_eq_false]
  intro other hother hid
  have hid : other.id = server.id := eq_of_beq hid
  rcases h.servers other hother with hold | ⟨e, he, hcall⟩
  · refine not_mem_of_generated hfresh.servers hr howns ?_
    exact List.mem_map.mpr ⟨other, hold, hid⟩
  · obtain ⟨r', q, hr', hpath, hmem⟩ := h.traced.owner he
    have howns' : r'.Owns e.call.1 := r'.owns.path hpath _ hmem
    rw [hcall] at howns' hmem
    have hown : r'.serverID = some server.id := howns'.trans (congrArg some hid)
    obtain rfl := index_eq_of_generated hfresh.servers hr hr' howns hown
    exact hnone _ hmem other rfl

/-- The user that a call has read is one of the users. -/
theorem Hosting.user_mem (h : Hosting st₀ sys) {token : String} {user : UserModel}
    (hread : ⟨.userByToken token, .ok (some user)⟩ ∈ sys.calls i) : user ∈ sys.store.users := by
  obtain ⟨e, he, -, outcome, hans⟩ := h.traced.served_call hread
  rw [h.users, ← h.usersRead e he]
  cases outcome with
  | answered => exact List.mem_of_find?_eq_some (Except.ok.inj hans).symm
  | failed | unacknowledged => cases hans

theorem Store.WithinLimits.insert {st : Store} (h : st.WithinLimits)
    (hkeys : (st.users.map (·.id)).Nodup) {user : UserModel} (huser : user ∈ st.users)
    {server : ServerModel} (hhost : server.hostID = user.id)
    (hroom : st.servers.countP (·.hostID == server.hostID) < user.getServerLimit) :
    Store.WithinLimits { st with servers := st.servers ++ [server] } := by
  intro other hother
  show (st.servers ++ [server]).countP _ ≤ _
  rw [List.countP_append, List.countP_singleton]
  split
  · next heq =>
      have hid : user.id = other.id := hhost.symm.trans (eq_of_beq heq)
      obtain rfl : user = other := List.inj_on_of_nodup_map hkeys huser hother hid
      rw [hhost] at hroom
      exact hroom
  · exact h other hother

theorem Hosting.run_createServer (h : Hosting st₀ sys) (hkeys : (st₀.users.map (·.id)).Nodup)
    (hfresh : FreshHosting st₀ sys.requests) {server : ServerModel}
    {k : Ans (.createServer server) → Handler} {outcome : Outcome}
    (hi : sys.tasks[i]? = some (.call (.createServer server) k))
    (hsafe : unhindered sys (.run i outcome) = true)
    (hstep : hostingService.step sys (.run i outcome) = some sys') : Hosting st₀ sys' := by
  obtain ⟨r, hr⟩ := h.traced.request_of_task hi
  have hpath := h.traced.path i r _ hr hi
  cases r with
  | cleanup now =>
      have howns : HostingRequest.serverID (.cleanup now) = some server.id :=
        (HostingRequest.cleanup now).owns _ _ _ hpath
      cases howns
  | register token req gen =>
      obtain ⟨user, n, hread, hcounted, hn, hhost, hnone⟩ := register_createServer hpath
      simp only [unhindered, hi, hcounted, Option.all_some, Bool.and_eq_true, beq_iff_eq,
        decide_eq_true_eq] at hsafe
      obtain ⟨rfl, hroom⟩ := hsafe
      have hnew := h.new_server hfresh hr hnone hi
      have hserve : sys.store.serve .answered (.createServer server)
          = ({ sys.store with servers := sys.store.servers ++ [server] }, .ok ()) := by
        simp only [Store.serve, Store.perform, hnew, Bool.false_eq_true, if_false]
      simp only [Service.step, hi] at hstep
      cases hstep
      refine h.run hi .answered ?_ ?_ ?_ ?_ ?_
      · rw [hserve]
        refine h.limits.insert (h.users ▸ hkeys) (h.user_mem hread) hhost ?_
        exact Nat.lt_of_le_of_lt hroom hn
      · rw [hserve]
        intro other hother
        rcases List.mem_append.mp hother with hold | hother
        · exact .inl hold
        · rw [List.mem_singleton.mp hother]
          exact .inr rfl
      · rw [hserve]
        exact fun doc hdoc => .inl hdoc
      · rw [hserve]
        intro other err heq
        cases heq
      · intro doc heq
        cases heq

/-- Only the insertion of a server can break a limit. -/
theorem Hosting.limits_serve (h : Hosting st₀ sys) {op : Op} {k : Ans op → Handler}
    (hi : sys.tasks[i]? = some (.call op k)) (hop : ∀ server, op ≠ .createServer server)
    (outcome : Outcome) : (sys.store.serve outcome op).1.WithinLimits := by
  intro user huser
  rw [h.users_call hi] at huser
  exact Nat.le_trans (servers_serve_sublist hop sys.store outcome).countP_le (h.limits user huser)

theorem Hosting.run_createJoinToken (h : Hosting st₀ sys) {doc : JoinTokenModel}
    {k : Ans (.createJoinToken doc) → Handler} {outcome : Outcome}
    (hi : sys.tasks[i]? = some (.call (.createJoinToken doc) k))
    (hsafe : unhindered sys (.run i outcome) = true)
    (hstep : hostingService.step sys (.run i outcome) = some sys') : Hosting st₀ sys' := by
  simp only [unhindered, hi, Bool.or_eq_true, Bool.and_eq_true, beq_iff_eq] at hsafe
  simp only [Service.step, hi] at hstep
  cases hstep
  refine h.run hi outcome (h.limits_serve hi (by simp) outcome) ?_ ?_ ?_ ?_
  · exact fun server hserver => .inl ((servers_serve_sublist (by simp) _ _).mem hserver)
  · intro other hother
    rcases hsafe with rfl | ⟨rfl, -⟩
    · exact .inl hother
    · simp only [Store.serve, Store.perform] at hother ⊢
      split at hother
      · exact .inl hother
      · next hnew =>
          rw [if_neg hnew]
          rcases List.mem_append.mp hother with hold | hother
          · exact .inl hold
          · rw [List.mem_singleton.mp hother]
            exact .inr rfl
  · intro server err heq
    cases heq
  · intro other heq
    rcases hsafe with rfl | ⟨-, hvalid⟩
    · cases heq
    · exact hvalid

theorem Hosting.run_other (h : Hosting st₀ sys) {op : Op} {k : Ans op → Handler} {outcome : Outcome}
    (hi : sys.tasks[i]? = some (.call op k)) (hserver : ∀ server, op ≠ .createServer server)
    (htoken : ∀ doc, op ≠ .createJoinToken doc)
    (hstep : hostingService.step sys (.run i outcome) = some sys') : Hosting st₀ sys' := by
  simp only [Service.step, hi] at hstep
  cases hstep
  refine h.run hi outcome (h.limits_serve hi hserver outcome) ?_ ?_ ?_ ?_
  · exact fun server hmem => .inl ((servers_serve_sublist hserver _ _).mem hmem)
  · exact fun doc hmem => .inl ((joinTokens_serve_sublist htoken _ _).mem hmem)
  · intro server err heq
    exact hserver server (congrArg Sigma.fst heq)
  · intro doc heq
    exact absurd (congrArg Sigma.fst heq) (htoken doc)

theorem Hosting.step (h : Hosting st₀ sys) (hkeys : (st₀.users.map (·.id)).Nodup)
    (hfresh : FreshHosting st₀ sys.requests)
    {a : System.Action HostingRequest Outcome HostingChange} (hsafe : unhindered sys a = true)
    (hstep : hostingService.step sys a = some sys') : Hosting st₀ sys' := by
  cases a with
  | request r =>
      have htraced := h.traced.step hstep
      cases hstep
      refine ⟨htraced, h.users, h.usersRead, h.limits, h.servers, h.tokens, h.created, ?_⟩
      intro e he doc hcall
      rw [List.getElem?_append_left (h.traced.task_lt e he)]
      exact h.valid e he doc hcall
  | change c =>
      have htraced := h.traced.step hstep
      cases hstep
      cases c with
      | expire =>
          refine ⟨htraced, h.users, h.usersRead, h.limits, h.servers, ?_, h.created, h.valid⟩
          exact fun doc hdoc => h.tokens doc (List.mem_of_mem_filter hdoc)
      | clock now =>
          exact ⟨htraced, h.users, h.usersRead, h.limits, h.servers, h.tokens, h.created, h.valid⟩
  | run i outcome =>
      cases hi : sys.tasks[i]? with
      | none => simp [Service.step, hi] at hstep
      | some q =>
          cases q with
          | ret r => simp [Service.step, hi] at hstep
          | call op k =>
              by_cases hserver : ∃ server, op = .createServer server
              · obtain ⟨server, rfl⟩ := hserver
                exact h.run_createServer hkeys hfresh hi hsafe hstep
              by_cases htoken : ∃ doc, op = .createJoinToken doc
              · obtain ⟨doc, rfl⟩ := htoken
                exact h.run_createJoinToken hi hsafe hstep
              · exact h.run_other hi (not_exists.mp hserver) (not_exists.mp htoken) hstep

/-- Nothing of a registration that has failed is in the store. -/
theorem Hosting.failed (h : Hosting st₀ sys) (hfresh : FreshHosting st₀ sys.requests)
    {token : String} {req : RegisterServerRequest} {gen : Generated} {failure : Failure}
    (hr : sys.requests[i]? = some (.register token req gen))
    (hi : sys.tasks[i]? = some (.ret (.error failure))) :
    (∀ server ∈ sys.store.servers, server.id ≠ gen.id) ∧
      ∀ doc ∈ sys.store.joinTokens, gen.signed.map SignedToken.text ≠ some doc.id := by
  obtain ⟨hserver, htoken⟩ := register_failed (h.traced.path i _ _ hr hi)
  refine ⟨fun server hmem hid => ?_, fun doc hmem hid => ?_⟩
  · have hown : HostingRequest.serverID (.register token req gen) = some server.id :=
      congrArg some hid.symm
    rcases h.servers server hmem with hold | ⟨e, he, hcall⟩
    · exact not_mem_of_generated hfresh.servers hr hown (List.mem_map_of_mem hold)
    · obtain ⟨r', q, hr', hpath, hmem⟩ := h.traced.owner he
      have howns' : r'.Owns e.call.1 := r'.owns.path hpath _ hmem
      rw [hcall] at howns' hmem
      obtain rfl := index_eq_of_generated hfresh.servers hr hr' hown howns'
      exact hserver server hmem
  · rcases h.tokens doc hmem with hold | ⟨e, he, hcall⟩
    · exact not_mem_of_generated hfresh.tokens hr hid (List.mem_map_of_mem hold)
    · obtain ⟨r', q, hr', hpath, hmem⟩ := h.traced.owner he
      have howns' : r'.Owns e.call.1 := r'.owns.path hpath _ hmem
      rw [hcall] at howns' hmem
      obtain rfl := index_eq_of_generated hfresh.tokens hr hr' hid howns'
      rcases htoken doc hmem with hinvalid | ⟨server, err, herr⟩
      · have hvalid := h.valid e he doc hcall
        rw [hr, Option.all_some] at hvalid
        exact hinvalid (Option.isNone_iff_eq_none.mp hvalid)
      · obtain ⟨e', he', -, hcall'⟩ := System.mem_calls.mp herr
        exact h.created e' he' server err hcall'

/-- In every state of a run without hindrance, the hosts are within their limits, and
a registration that has failed has left nothing behind. -/
theorem hosting_run {st₀ : Store} (hkeys : (st₀.users.map (·.id)).Nodup)
    (hlimits : st₀.WithinLimits)
    (as : List (System.Action HostingRequest Outcome HostingChange))
    (hfresh : ∀ sys ∈ visits hostingService.step { store := st₀ } as,
      FreshHosting st₀ sys.requests)
    (hsafe : ∀ m ∈ moves hostingService.step { store := st₀ } as, unhindered m.1 m.2 = true) :
    ∀ sys ∈ visits hostingService.step { store := st₀ } as,
      sys.store.WithinLimits ∧
      ∀ (i : Nat) token req gen failure, sys.requests[i]? = some (.register token req gen) →
        sys.tasks[i]? = some (.ret (.error failure)) →
        (∀ server ∈ sys.store.servers, server.id ≠ gen.id) ∧
          ∀ doc ∈ sys.store.joinTokens, gen.signed.map SignedToken.text ≠ some doc.id := by
  have hinit : Hosting st₀ { store := st₀ } := by
    refine ⟨.init _ _, rfl, ?_, hlimits, fun _ => .inl, fun _ => .inl, ?_, ?_⟩
    all_goals
      intro e he
      cases he
  intro sys hsys
  have h : Hosting st₀ sys :=
    forall_visits_of_forall_moves (Hosting st₀)
      (fun sys a => FreshHosting st₀ sys.requests ∧ unhindered sys a = true)
      (fun h hc hstep => h.step hkeys hc.1 hc.2 hstep) hinit as
      (fun m hm => ⟨hfresh _ (mem_visits_of_mem_moves hm), hsafe m hm⟩) sys hsys
  exact ⟨h.limits, fun i token req gen failure hr hi => h.failed (hfresh sys hsys) hr hi⟩

/-- A host with one server, who may have two. -/
def hostingStore : Store where
  users := [{ id := "h", token := "t", name := "Host" }]
  servers := [{ id := "s", name := "Server", password := none, hostID := "h", playerCount := 0,
                maxPlayerCount := 40, official := false, lastUpdated := 0, proxyToken := "" }]

/-- The host registers a server. -/
def registration (id : String) (signed : SignedToken) (invalid : Option Failure) : HostingRequest :=
  .register "t" { name := id, password := none, maxPlayerCount := 40, hasMeta := false, invalid }
    { id, signed := some signed, now := 0 }

/-- One registration after the other. -/
def serialRegistrations : List (System.Action HostingRequest Outcome HostingChange) :=
  [.request (registration "a" ⟨"ta", by decide⟩ none), .run 0 .answered, .run 0 .answered,
    .run 0 .answered, .run 0 .answered, .run 0 .answered,
    .request (registration "b" ⟨"tb", by decide⟩ none), .run 1 .answered, .run 1 .answered]

/-- The second registration is refused, and leaves nothing behind. -/
theorem serialRegistrations_within :
    ∃ sys ∈ visits hostingService.step { store := hostingStore } serialRegistrations,
      sys.store.servers.length = 2 ∧ sys.store.WithinLimits ∧
      ∀ server ∈ sys.store.servers, server.id ≠ "b" := by
  have hend : (exec hostingService.step { store := hostingStore } serialRegistrations).map
      (fun sys => (sys.store.servers.length, sys.tasks[1]?.bind (·.result?), sys.requests[1]?))
      = some (2, some (.error (.status .permissionDenied
          "You have reached your server hosting limit of 2 server")),
          some (registration "b" ⟨"tb", by decide⟩ none)) := by decide
  obtain ⟨sys, hsys, heq⟩ := Option.map_eq_some_iff.mp hend
  simp only [Prod.mk.injEq] at heq
  obtain ⟨hlength, hresult, hrequest⟩ := heq
  obtain ⟨q, hq, hret⟩ := Option.bind_eq_some_iff.mp hresult
  have htask := hq.trans (congrArg some (eq_ret_of_result? hret))
  have hlimits : hostingStore.WithinLimits := by
    unfold Store.WithinLimits
    decide
  have hfresh : (visits hostingService.step { store := hostingStore } serialRegistrations).all
      (fun sys => decide (hostingStore.servers.map (·.id) ++
          sys.requests.filterMap HostingRequest.serverID).Nodup &&
        decide (hostingStore.joinTokens.map (·.id) ++
          sys.requests.filterMap HostingRequest.tokenID).Nodup) = true := by decide
  have hsafe : (moves hostingService.step { store := hostingStore } serialRegistrations).all
      (fun m => unhindered m.1 m.2) = true := by decide
  have hmem := mem_visits_of_exec hsys
  obtain ⟨hwithin, hfailed⟩ := hosting_run (by decide) hlimits serialRegistrations
    (fun sys hsys => by
      have h := List.all_eq_true.mp hfresh sys hsys
      rw [Bool.and_eq_true, decide_eq_true_eq, decide_eq_true_eq] at h
      exact ⟨h.1, h.2⟩) (List.all_eq_true.mp hsafe) sys hmem
  exact ⟨sys, hmem, hlength, hwithin, (hfailed 1 _ _ _ _ hrequest htask).1⟩

/-- Two registrations at once. -/
def racingRegistrations : List (System.Action HostingRequest Outcome HostingChange) :=
  [.request (registration "a" ⟨"ta", by decide⟩ none),
    .request (registration "b" ⟨"tb", by decide⟩ none), .run 0 .answered, .run 0 .answered,
    .run 1 .answered, .run 1 .answered, .run 0 .answered, .run 0 .answered, .run 1 .answered,
    .run 1 .answered]

/-- A registration of a server that is not valid. -/
def invalidRegistration : List (System.Action HostingRequest Outcome HostingChange) :=
  [.request (registration "a" ⟨"ta", by decide⟩ (some (.status .invalidArgument "Name"))),
    .run 0 .answered, .run 0 .answered, .run 0 .answered]

/-- The race gives the host three servers, and the registration that fails leaves a
join token behind. -/
theorem registrations_hindered :
    (∃ sys ∈ visits hostingService.step { store := hostingStore } racingRegistrations,
      ¬ sys.store.WithinLimits) ∧
    ∃ sys ∈ visits hostingService.step { store := hostingStore } invalidRegistration,
      sys.tasks[0]? = some (.ret (.error (.status .invalidArgument "Name"))) ∧
      hostingStore.joinTokens = [] ∧ sys.store.joinTokens.map (·.id) = ["ta"] := by
  constructor
  · have hend : (exec hostingService.step { store := hostingStore } racingRegistrations).map
        (fun sys => sys.store.users.map fun user =>
          (user.getServerLimit, sys.store.servers.countP (·.hostID == user.id)))
        = some [(2, 3)] := by decide
    obtain ⟨sys, hsys, heq⟩ := Option.map_eq_some_iff.mp hend
    refine ⟨sys, mem_visits_of_exec hsys, fun hwithin => ?_⟩
    obtain ⟨user, huser, hcounts⟩ := List.mem_map.mp (heq ▸ List.mem_singleton_self (2, 3))
    have hle := hwithin user huser
    rw [Prod.mk.injEq] at hcounts
    rw [hcounts.1, hcounts.2] at hle
    omega
  · have hend : (exec hostingService.step { store := hostingStore } invalidRegistration).map
        (fun sys => (sys.tasks[0]?.bind (·.result?), sys.store.joinTokens.map (·.id)))
        = some (some (.error (.status .invalidArgument "Name")), ["ta"]) := by decide
    obtain ⟨sys, hsys, heq⟩ := Option.map_eq_some_iff.mp hend
    rw [Prod.mk.injEq] at heq
    obtain ⟨q, hq, hret⟩ := Option.bind_eq_some_iff.mp heq.1
    exact ⟨sys, mem_visits_of_exec hsys, hq.trans (congrArg some (eq_ret_of_result? hret)), rfl,
      heq.2⟩

end Kyber.Api
