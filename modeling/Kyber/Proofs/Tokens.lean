import Kyber.Proofs.Accounts

/-!
# Whose a token is

A user has a token, which `Login` has generated with the user and `UnlinkPatreonAccount`
generates anew. A server keeps the one that its host had when the host asked for it to
be registered. Tokens are random, so a generated one is taken to be new; then no two
users ever share a token, and the one that a server keeps is its host's or nobody's.

The calls are interleaved: when a server is stored, its host may have a new token
already.
-/

namespace Kyber.Api

/-- The user and the token that a call writes to the document. -/
def Query.tokenWrite : Query → Option (String × String)
  | .createUser user => some (user.id, user.token)
  | .updateUser id update => update.token?.map fun token => (id, token)
  | _ => none

namespace Accounts

open Kyber.Lib Prog

/-! ## A request writes one token -/

/-- The calls that write a token. -/
def writesToken (q : Query) : Bool := q.tokenWrite.isSome

theorem writesToken_updateUser (id : String) {update : UserUpdate} (h : update.token? = none) :
    writesToken (.updateUser id update) = false := by
  simp [writesToken, Query.tokenWrite, h]

theorem login_once (config : Config) (req : LoginRequest) :
    MakesOnce writesToken (login config req) := by
  have hupdate : ∀ id update, UserUpdate.token? update = none →
      writesToken (.updateUser id update) = false := fun id _ => writesToken_updateUser id
  have hret : ∀ result, MakesOnce writesToken (.ret result : Task) := fun _ => (Makes.ret _).once
  unfold login
  split
  · exact hret _
  split
  · exact hret _
  split
  · exact hret _
  refine makesOnce_attempt_later rfl fun found => makesOnce_attempt_later rfl fun punishment => ?_
  have hplain : ∀ id update, UserUpdate.token? update = none → update.links = false →
      writesToken (.updateUser id update) = false := fun id update h _ => hupdate id update h
  have hrefresh : ∀ {user : UserDocument} update, req.Refreshes config user update →
      writesToken (.updateUser user.id update) = false := by
    rintro user update (⟨-, rfl⟩ | ⟨-, rfl⟩) <;> rfl
  cases found with
  | some user => exact (loginExisting_makes hplain hrefresh _ _).once
  | none =>
      have hcreate : ∀ user, MakesOnce writesToken (ask (.createUser user) .internal
          "Failed to create user. Please contact support." fun () =>
            checkVPNBlock req.isVPN user (admitUser config req)) :=
        fun user => makesOnce_attempt_last fun _ => loginCreated_makes hplain hrefresh
      simp only [unlessBanned]
      split
      · exact hcreate _
      · split
        · exact (refuseBanned_makes _).once
        · exact hcreate _

theorem identified_once {token : String} {k : UserDocument → Task}
    (hk : ∀ user, MakesOnce writesToken (k user)) : MakesOnce writesToken (identified token k) := by
  refine makesOnce_attempt_later rfl fun found => ?_
  cases found with
  | none => exact (Makes.ret _).once
  | some user => exact hk user

/-- Only three kinds of requests write a token, and each of them writes one. -/
theorem Request.handler_once (config : Config) (r : Request) :
    MakesOnce writesToken (r.handler config) := by
  have hnone : r.newToken = none → MakesOnce writesToken (r.handler config) := by
    intro hnew
    refine Makes.once fun cs q k hpath => ?_
    have hcall := r.handler_makes config cs q k hpath
    cases q with
    | createUser user => simp [Request.mayCall, hnew] at hcall
    | updateUser id update =>
        refine writesToken_updateUser id ?_
        rw [Option.eq_none_iff_forall_ne_some]
        intro token htoken
        simp [Request.mayCall, hnew, htoken] at hcall
    | _ => rfl
  cases r with
  | login req => exact login_once config req
  | lanLogin text token =>
      simp only [Request.handler, Accounts.lanLogin]
      split
      · exact (Makes.ret _).once
      refine makesOnce_attempt_later rfl fun found => ?_
      cases found with
      | none => exact makesOnce_attempt_last fun _ => .ret _
      | some user => exact .last fun _ => .ret _
  | resetToken token => exact (Makes.ret _).once
  | unlinkPatreon token newToken =>
      refine identified_once fun user => ?_
      unfold unlinkPatreonAccount
      split
      · exact (Makes.ret _).once
      split
      · exact (Makes.ret _).once
      · exact makesOnce_attempt_last fun _ => .ret _
  | _ => exact hnone rfl

/-! ## Tokens that have been issued -/

/-- The token has been there at the start, or somebody has written it. -/
def Issued (db : Database) (sys : AccountsSystem) (token : String) : Prop :=
  (∃ user ∈ db.users, user.token = token) ∨ (∃ server ∈ db.servers, server.hostToken = token) ∨
    ∃ e ∈ sys.trace, ∃ id, e.call.1.tokenWrite = some (id, token)

/-- The generated tokens are new. -/
structure FreshTokens (db : Database) (requests : List Request) : Prop where
  nodup : (requests.filterMap Request.newToken).Nodup
  users : ∀ token ∈ requests.filterMap Request.newToken, ∀ user ∈ db.users, user.token ≠ token
  servers : ∀ token ∈ requests.filterMap Request.newToken, ∀ server ∈ db.servers,
    server.hostToken ≠ token

theorem FreshTokens.of_append {db : Database} {requests more : List Request}
    (h : FreshTokens db (requests ++ more)) : FreshTokens db requests := by
  have hmem : ∀ token ∈ requests.filterMap Request.newToken,
      token ∈ (requests ++ more).filterMap Request.newToken := by
    intro token htoken
    rw [List.filterMap_append]
    exact List.mem_append_left _ htoken
  have hnodup := h.nodup
  rw [List.filterMap_append, List.nodup_append] at hnodup
  exact ⟨hnodup.1, fun token htoken => h.users token (hmem token htoken),
    fun token htoken => h.servers token (hmem token htoken)⟩

/-- A token that is written has been generated for the request. -/
theorem newToken_of_tokenWrite {r : Request} {q : Query} (h : r.mayCall q = true)
    {id token : String} (hwrite : q.tokenWrite = some (id, token)) : r.newToken = some token := by
  cases q with
  | createUser user =>
      cases hwrite
      simp only [Request.mayCall, Bool.and_eq_true, beq_iff_eq] at h
      exact h.2
  | updateUser id' update =>
      obtain ⟨token', htoken, hpair⟩ := Option.map_eq_some_iff.mp hwrite
      cases hpair
      simp only [Request.mayCall, htoken, Option.all_some, Bool.and_eq_true, beq_iff_eq] at h
      exact h.1
  | _ => cases hwrite

section

variable {config : Config} {db : Database} {sys : AccountsSystem} {i : Nat} {q : Query}
  {k : Except DbError q.Result → Task}

/-- A token that is about to be written has not been issued. -/
theorem not_issued_of_tokenWrite (htraced : sys.Traced (service config))
    (hfresh : FreshTokens db sys.requests) (hi : sys.tasks[i]? = some (.call q k))
    {id token : String} (hwrite : q.tokenWrite = some (id, token))
    (answer : Except DbError q.Result) : ¬ Issued db sys token := by
  obtain ⟨r, hr⟩ := htraced.request_of_task hi
  have hnew := newToken_of_tokenWrite (mayCall_of_task htraced hr hi) hwrite
  have hmem : token ∈ sys.requests.filterMap Request.newToken :=
    List.mem_filterMap.mpr ⟨r, List.mem_of_getElem? hr, hnew⟩
  rintro (⟨user, huser, heq⟩ | ⟨server, hserver, heq⟩ | ⟨e, he, id', hwritten⟩)
  · exact hfresh.users token hmem user huser heq
  · exact hfresh.servers token hmem server hserver heq
  · -- The earlier write would be one of the same request.
    obtain ⟨r', p, hr', hpath, hcall⟩ := htraced.owner he
    have hnew' := newToken_of_tokenWrite ((r'.handler_makes config).path hpath _ hcall) hwritten
    have hnodup : ([] ++ sys.requests.filterMap Request.newToken).Nodup := hfresh.nodup
    have htask : e.task = i := index_eq_of_generated hnodup hr' hr hnew' hnew
    rw [htask] at hcall
    have hbefore := (r.handler_once config).first (by simp [writesToken, hwrite])
      (htraced.path i r _ hr hi) answer _ hcall
    simp [writesToken, hwritten] at hbefore

end

/-! ## Who has a token -/

/-- The host of the server is there, and nobody else has the token of the server. -/
structure Hosted (db : Database) (sys : AccountsSystem) (server : ServerDocument) : Prop where
  issued : Issued db sys server.hostToken
  host : ∃ host ∈ sys.store.users, host.id = server.hostID
  token : ∀ user ∈ sys.store.users, user.token = server.hostToken → user.id = server.hostID

/-- No two users share a token, and the servers that are stored or about to be stored
have their hosts' tokens. -/
structure TokensOwned (config : Config) (db : Database) (sys : AccountsSystem) : Prop where
  issued : ∀ user ∈ sys.store.users, Issued db sys user.token
  unique : ∀ u ∈ sys.store.users, ∀ v ∈ sys.store.users, u.token = v.token → u.id = v.id
  servers : ∀ server ∈ sys.store.servers, Hosted db sys server
  tasks : ∀ (i : Nat) r q, sys.requests[i]? = some r → sys.tasks[i]? = some q →
    q = r.handler config ∨
      Makes (fun op => ∀ server, op = .createServer server → Hosted db sys server) q

section

variable {config : Config} {db : Database} {sys : AccountsSystem} {i : Nat} {q : Query}
  {k : Except DbError q.Result → Task} {outcome : Outcome}

/-- A user's token has been the user's before, or the call has written it. -/
theorem token_cases (hkeys : (sys.store.users.map (·.id)).Nodup) {user : UserDocument}
    (h : user ∈ (sys.store.serve outcome q).1.users) :
    (∃ old ∈ sys.store.users, old.id = user.id ∧ old.token = user.token) ∨
      q.tokenWrite = some (user.id, user.token) := by
  rcases Database.mem_users_serve hkeys h with ⟨old, hold, hid, rfl⟩ | rfl
  · cases q with
    | updateUser id update =>
        simp only [Database.written] at hid ⊢
        split
        · next happlies =>
            simp only [Bool.and_eq_true, beq_iff_eq] at happlies
            cases update with
            | resetToken token | unlinkPatreon token =>
                exact .inr (by simp [Query.tokenWrite, UserUpdate.token?, UserUpdate.apply, happlies.1])
            | _ => exact .inl ⟨old, hold, (UserUpdate.apply_id _ old).symm, rfl⟩
        · exact .inl ⟨old, hold, rfl, rfl⟩
    | _ => exact .inl ⟨old, hold, rfl, rfl⟩
  · exact .inr rfl

/-- Users stay. -/
theorem user_stays (hkeys : (sys.store.users.map (·.id)).Nodup) {id : String}
    (h : ∃ user ∈ sys.store.users, user.id = id) (outcome : Outcome) (q : Query) :
    ∃ user ∈ (sys.store.serve outcome q).1.users, user.id = id := by
  obtain ⟨user, huser, rfl⟩ := h
  rcases Database.users_serve hkeys outcome q with
    hsame | ⟨-, ⟨id, update, -, husers⟩ | ⟨new, -, -, husers⟩⟩
  · exact ⟨user, hsame ▸ huser, rfl⟩
  · refine ⟨_, husers ▸ List.mem_map_of_mem huser, ?_⟩
    split <;> simp
  · exact ⟨user, husers ▸ List.mem_append_left _ huser, rfl⟩

theorem Issued.ran {token : String} (h : Issued db sys token) :
    Issued db ((service config).ran sys i outcome q k) token := by
  rcases h with h | h | ⟨e, he, hwritten⟩
  · exact .inl h
  · exact .inr (.inl h)
  · exact .inr (.inr ⟨e, List.mem_append_left _ he, hwritten⟩)

theorem Hosted.ran (hbase : Base config sys) (hfresh : FreshTokens db sys.requests)
    (hi : sys.tasks[i]? = some (.call q k)) {server : ServerDocument} (h : Hosted db sys server) :
    Hosted db ((service config).ran sys i outcome q k) server where
  issued := h.issued.ran
  host := user_stays hbase.keys h.host outcome q
  token := by
    intro user huser htoken
    rcases token_cases hbase.keys huser with ⟨old, hold, hid, hsame⟩ | hwrite
    · rw [← hid]
      exact h.token old hold (hsame.trans htoken)
    · refine absurd ?_ (not_issued_of_tokenWrite hbase.traced hfresh hi hwrite
        (sys.store.serve outcome q).2)
      rw [htoken]
      exact h.issued

/-- A server that a user registers has the user's token. -/
theorem TokensOwned.registerServer_makes (h : TokensOwned config db sys) {user : UserDocument}
    (huser : user ∈ sys.store.users) (isProfane : String → Bool)
    (req : Listing.RegisterServerRequest) (gen : Generated) (unpublished : List String) :
    Makes (fun op => ∀ server, op = .createServer server → Hosted db sys server)
      (Listing.registerServer isProfane user req gen unpublished) := by
  rintro cs op k hpath server rfl
  have hcall := Listing.registerServer_makes req gen unpublished cs _ k hpath
  simp only [Listing.Request.mayCall, Bool.and_eq_true, beq_iff_eq] at hcall
  refine ⟨?_, ⟨user, huser, hcall.1.2.symm⟩, fun other hother htoken => ?_⟩
  · rw [hcall.2]
    exact h.issued user huser
  · rw [hcall.1.2]
    exact h.unique other hother user huser (htoken.trans hcall.2)

/-- What is left of a request after its first call. -/
theorem TokensOwned.after_first (h : TokensOwned config db sys) {r : Request}
    (hq : .call q k = r.handler config) :
    Makes (fun op => ∀ server, op = .createServer server → Hosted db sys server)
      (k (sys.store.serve outcome q).2) := by
  by_cases hregisters : r.registers = true
  · cases r with
    | registerServer token req gen unpublished =>
        cases hq
        cases outcome with
        | failed | unacknowledged => exact .ret _
        | answered =>
            simp only [Database.serve, Database.perform]
            cases hfound : sys.store.users.find? (·.token == token) with
            | none => exact .ret _
            | some user =>
                exact h.registerServer_makes (List.mem_of_find?_eq_some hfound) _ _ _ _
    | _ => cases hregisters
  · -- Nothing else registers servers.
    rintro cs op k' hpath server rfl
    have hcall := r.handler_makes config _ _ _ (hq ▸ Path.cons hpath)
    exact absurd hcall hregisters

theorem TokensOwned.run (hbase : Base config sys) (hfresh : FreshTokens db sys.requests)
    (h : TokensOwned config db sys) (hi : sys.tasks[i]? = some (.call q k)) :
    TokensOwned config db ((service config).ran sys i outcome q k) := by
  obtain ⟨r, hr⟩ := hbase.traced.request_of_task hi
  have hcall := mayCall_of_task hbase.traced hr hi
  have hnew : ∀ {id token}, q.tokenWrite = some (id, token) → ¬ Issued db sys token :=
    fun hwrite => not_issued_of_tokenWrite hbase.traced hfresh hi hwrite
      (sys.store.serve outcome q).2
  have hran : ∀ {p : Task},
      Makes (fun op => ∀ server, op = .createServer server → Hosted db sys server) p →
      Makes (fun op => ∀ server, op = .createServer server →
        Hosted db ((service config).ran sys i outcome q k) server) p :=
    fun hp cs op k' hpath server hop => (hp cs op k' hpath server hop).ran hbase hfresh hi
  refine ⟨?_, ?_, ?_, ?_⟩
  · intro user huser
    rcases token_cases hbase.keys huser with ⟨old, hold, -, hsame⟩ | hwrite
    · rw [← hsame]
      exact (h.issued old hold).ran
    · exact .inr (.inr ⟨_, List.mem_append_right _ (List.mem_singleton_self _), user.id, hwrite⟩)
  · intro u hu v hv htoken
    rcases token_cases hbase.keys hu with ⟨u', hu', huid, hutoken⟩ | hu <;>
      rcases token_cases hbase.keys hv with ⟨v', hv', hvid, hvtoken⟩ | hv
    · rw [← huid, ← hvid]
      exact h.unique u' hu' v' hv' (by rw [hutoken, hvtoken, htoken])
    · refine absurd ?_ (hnew hv)
      rw [← htoken, ← hutoken]
      exact h.issued u' hu'
    · refine absurd ?_ (hnew hu)
      rw [htoken, ← hvtoken]
      exact h.issued v' hv'
    · exact congrArg Prod.fst (Option.some.inj (hu.symm.trans hv))
  · intro server hserver
    rcases Database.mem_servers_serve hserver with
      hserver | ⟨-, ⟨id, update, old, rfl, -⟩ | rfl⟩
    · exact (h.servers server hserver).ran hbase hfresh hi
    · cases hcall
    · -- It was about to be stored.
      rcases h.tasks i r _ hr hi with hfirst | hmakes
      · cases r with
        | registerServer token req gen unpublished => cases hfirst
        | _ => cases hcall
      · exact (hmakes [] _ k (.nil _) server rfl).ran hbase hfresh hi
  · intro j r' p hr' hp
    obtain ⟨hlt, -⟩ := List.getElem?_eq_some_iff.mp hi
    by_cases hij : i = j
    · subst hij
      simp only [Service.ran, List.getElem?_set, hlt, if_true, Option.some.injEq] at hp
      subst hp
      rcases h.tasks i r' _ hr' hi with hfirst | hmakes
      · exact .inr (hran (h.after_first hfirst))
      · exact .inr (hran fun cs op k' hpath => hmakes _ op k' (.cons hpath))
    · simp only [Service.ran, List.getElem?_set, if_neg hij] at hp
      exact (h.tasks j r' p hr' hp).imp_right hran

/-- What happens besides the calls leaves the users their tokens. -/
theorem users_change (store : Database) (e : Change) :
    (∀ user ∈ (change store e).users, ∃ old ∈ store.users,
        old.id = user.id ∧ old.token = user.token) ∧
      (change store e).users.map (·.id) = store.users.map (·.id) := by
  cases e with
  | entitle userID entitlements =>
      refine ⟨fun user huser => ?_, ?_⟩
      · rcases mem_updateFirst huser with huser | ⟨old, hold, -, rfl⟩
        · exact ⟨user, huser, rfl, rfl⟩
        · exact ⟨old, hold, rfl, rfl⟩
      · refine map_updateFirst ?_ _
        exact fun _ _ => rfl
  | updateServer _ _ | deleteServers _ | others _ _ _ _ =>
      exact ⟨fun user huser => ⟨user, huser, rfl, rfl⟩, rfl⟩

/-- It leaves the servers their hosts and tokens. -/
theorem servers_change (store : Database) (e : Change) {server : ServerDocument}
    (h : server ∈ (change store e).servers) :
    ∃ old ∈ store.servers, old.hostID = server.hostID ∧ old.hostToken = server.hostToken := by
  cases e with
  | updateServer id update =>
      rcases Database.mem_updateByID h with h | ⟨old, hold, -, rfl⟩
      · exact ⟨server, h, rfl, rfl⟩
      · exact ⟨old, hold, by cases update <;> exact ⟨rfl, rfl⟩⟩
  | deleteServers ids => exact ⟨server, List.mem_of_mem_filter h, rfl, rfl⟩
  | entitle _ _ | others _ _ _ _ => exact ⟨server, h, rfl, rfl⟩

theorem Hosted.change {server : ServerDocument} (h : Hosted db sys server) (e : Change) :
    Hosted db { sys with store := change sys.store e } server where
  issued := h.issued
  host := by
    obtain ⟨host, hhost, hid⟩ := h.host
    have hmem : server.hostID ∈ (Accounts.change sys.store e).users.map (·.id) := by
      rw [(users_change sys.store e).2, ← hid]
      exact List.mem_map_of_mem hhost
    exact List.mem_map.mp hmem
  token := by
    intro user huser htoken
    obtain ⟨old, hold, hid, hsame⟩ := (users_change sys.store e).1 user huser
    rw [← hid]
    exact h.token old hold (hsame.trans htoken)

theorem TokensOwned.change (h : TokensOwned config db sys) (e : Change) :
    TokensOwned config db { sys with store := change sys.store e } where
  issued := by
    intro user huser
    obtain ⟨old, hold, -, hsame⟩ := (users_change sys.store e).1 user huser
    rw [← hsame]
    exact h.issued old hold
  unique := by
    intro u hu v hv htoken
    obtain ⟨u', hu', huid, hutoken⟩ := (users_change sys.store e).1 u hu
    obtain ⟨v', hv', hvid, hvtoken⟩ := (users_change sys.store e).1 v hv
    rw [← huid, ← hvid]
    exact h.unique u' hu' v' hv' (by rw [hutoken, hvtoken, htoken])
  servers := by
    intro server hserver
    obtain ⟨old, hold, hid, htoken⟩ := servers_change sys.store e hserver
    have hhosted := (h.servers old hold).change e
    exact ⟨htoken ▸ hhosted.issued, hid ▸ hhosted.host, hid ▸ htoken ▸ hhosted.token⟩
  tasks := by
    intro i r q hr hq
    refine (h.tasks i r q hr hq).imp_right fun hmakes cs op k hpath server hop => ?_
    exact (hmakes cs op k hpath server hop).change e

theorem TokensOwned.request (hbase : Base config sys) (h : TokensOwned config db sys)
    (r : Request) :
    TokensOwned config db
      { sys with requests := sys.requests ++ [r], tasks := sys.tasks ++ [r.handler config] } where
  issued := h.issued
  unique := h.unique
  servers server hserver :=
    ⟨(h.servers server hserver).issued, (h.servers server hserver).host,
      (h.servers server hserver).token⟩
  tasks := by
    intro i r' q hr hq
    simp only [List.getElem?_append, List.getElem?_singleton, hbase.traced.length_eq] at hr hq
    split at hr
    · next hlt =>
        rw [if_pos hlt] at hq
        refine (h.tasks i r' q hr hq).imp_right fun hmakes cs op k hpath server hop => ?_
        have hhosted := hmakes cs op k hpath server hop
        exact ⟨hhosted.issued, hhosted.host, hhosted.token⟩
    · next hge =>
        rw [if_neg hge] at hq
        split at hr
        · next hi =>
            rw [if_pos hi] at hq
            cases hr
            cases hq
            exact .inl rfl
        · cases hr

end

/-! ## Runs -/

/-- A database in which users have tokens of their own, and servers those of hosts who
are there. -/
structure Consistent (db : Database) : Prop where
  users : (db.users.map (·.id)).Nodup
  servers : (db.servers.map (·.id)).Nodup
  tokens : ∀ u ∈ db.users, ∀ v ∈ db.users, u.token = v.token → u.id = v.id
  hosts : ∀ server ∈ db.servers, ∃ host ∈ db.users, host.id = server.hostID
  hostTokens : ∀ server ∈ db.servers, ∀ user ∈ db.users, user.token = server.hostToken →
    user.id = server.hostID

theorem TokensOwned.init (config : Config) {db : Database} (h : Consistent db) :
    TokensOwned config db { store := db } where
  issued user huser := .inl ⟨user, huser, rfl⟩
  unique := h.tokens
  servers server hserver :=
    ⟨.inr (.inl ⟨server, hserver, rfl⟩), h.hosts server hserver, h.hostTokens server hserver⟩
  tasks i r q hr := by simp at hr

theorem TokensOwned.step {config : Config} {db : Database} {sys sys' : AccountsSystem}
    {a : AccountsAction} (hbase : Base config sys) (hfresh : FreshTokens db sys.requests)
    (h : TokensOwned config db sys) (hstep : (service config).step sys a = some sys') :
    TokensOwned config db sys' := by
  rcases Service.step_cases hstep with ⟨r, -, rfl⟩ | ⟨i, outcome, q, k, -, hi, rfl⟩ | ⟨e, -, rfl⟩
  · exact h.request hbase r
  · exact h.run hbase hfresh hi
  · exact h.change e

/-- No two servers come to share an id. -/
theorem servers_keys_step {config : Config} {sys sys' : AccountsSystem} {a : AccountsAction}
    (hkeys : (sys.store.servers.map (·.id)).Nodup)
    (hstep : (service config).step sys a = some sys') : (sys'.store.servers.map (·.id)).Nodup := by
  rcases Service.step_cases hstep with ⟨r, -, rfl⟩ | ⟨i, outcome, q, k, -, -, rfl⟩ | ⟨e, -, rfl⟩
  · exact hkeys
  · exact Database.servers_keys hkeys outcome q
  · cases e with
    | updateServer id update => exact Database.servers_keys hkeys .answered (.updateServer id update)
    | deleteServers ids => exact Database.servers_keys hkeys .answered (.deleteServers ids)
    | entitle _ _ | others _ _ _ _ => exact hkeys

/-- In every run with new tokens, tokens have one owner. -/
theorem tokensOwned_run (config : Config) {db : Database} (h : Consistent db)
    (as : List AccountsAction) :
    ∀ sys ∈ visits (service config).step { store := db } as, FreshTokens db sys.requests →
      TokensOwned config db sys ∧ (sys.store.users.map (·.id)).Nodup ∧
        (sys.store.servers.map (·.id)).Nodup := by
  have hstep : ∀ {sys a sys'}, (Base config sys ∧ (sys.store.servers.map (·.id)).Nodup ∧
      (FreshTokens db sys.requests → TokensOwned config db sys)) → True →
      (service config).step sys a = some sys' → Base config sys' ∧
        (sys'.store.servers.map (·.id)).Nodup ∧
        (FreshTokens db sys'.requests → TokensOwned config db sys') := by
    rintro sys a sys' ⟨hbase, hservers, howned⟩ - hstep
    refine ⟨hbase.step hstep, servers_keys_step hservers hstep, fun hfresh => ?_⟩
    -- The requests so far are among the later ones.
    have hbefore : FreshTokens db sys.requests := by
      rcases Service.step_cases hstep with
        ⟨r, -, rfl⟩ | ⟨i, outcome, q, k, -, hi, rfl⟩ | ⟨e, -, rfl⟩
      · exact hfresh.of_append
      · exact hfresh
      · exact hfresh
    exact (howned hbefore).step hbase hbefore hstep
  intro sys hsys hfresh
  obtain ⟨hbase, hservers, howned⟩ := forall_visits_of_forall_moves _ (fun _ _ => True) hstep
    ⟨.init config h.users, h.servers, fun _ => .init config h⟩ as (fun _ _ => trivial) sys hsys
  exact ⟨howned hfresh, hbase.keys, hservers⟩

end Accounts

end Kyber.Api
