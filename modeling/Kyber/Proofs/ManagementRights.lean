import Kyber.Api.ServerManagement
import Kyber.Api.ServerManager
import Kyber.Proofs.Tokens

/-!
# The right to manage a server

A server is managed by its host, by the moderators whom the host has listed and by
global moderators. Three places decide it: `isModerator` in front of the calls of
`ServerManagement`, `UpdateServer`, and `HandleClientWS` for the sockets of the
launcher. The first two look for the host by the id that the server keeps, the third
by the token, and does not expect to find nobody.
-/

namespace Kyber.Api.Accounts

open Kyber.Lib Prog

/-! ## The rule and the three places -/

/-- The rule. -/
def mayManage (db : Database) (server : ServerDocument) (user : UserDocument) : Bool :=
  user.model.entitled .globalServerModerator || user.id == server.hostID ||
    db.users.any fun host => host.id == server.hostID && host.moderatorUserIDs.contains user.id

/-- What `isModerator` decides, none if it does not. -/
def isModeratorVerdict (db : Database) (user : UserDocument) (serverID : String) : Option Bool :=
  match ((isModerator user.model serverID fun _ => .ret (.ok .empty)).eval Store.perform db.view).2 with
  | .ok _ => some true
  | .error (.status .permissionDenied _) => some false
  | .error _ => none

/-- What `UpdateServer` decides, none if it does not. -/
def updateServerVerdict (db : Database) (user : UserDocument) (serverID : String) : Option Bool :=
  match ((Listing.manageServer user serverID fun _ => .ret (.ok .empty)).eval
      Database.perform db).2 with
  | .ok _ => some true
  | .error (.status .permissionDenied _) => some false
  | .error _ => none

/-- The look-ups of `HandleClientWS`. -/
def clientRequest (db : Database) (user : UserDocument) (serverID : String) :
    ServerManager.ClientWSRequest :=
  let server := db.servers.find? (·.id == serverID)
  { id := serverID
    user := some (some user.model)
    server := some (server.map (·.toServerModel))
    host := some (server.bind fun server =>
      (db.users.find? (·.token == server.hostToken)).map UserDocument.model)
    upgraded := true
    connID := "" }

/-- What `HandleClientWS` decides, none if it does not. Players of the server are let
in without the right. -/
def handleClientWSVerdict (m : ServerManager) (db : Database) (user : UserDocument)
    (serverID : String) : Option Bool :=
  match m.authorizeClient (clientRequest db user serverID) with
  | .ok isModerator => some isModerator
  | .error (.http _ 403) => some false
  | .error _ => none

/-- All three follow the rule. -/
structure OneRule (m : ServerManager) (db : Database) (server : ServerDocument)
    (user : UserDocument) : Prop where
  handleClientWS : handleClientWSVerdict m db user server.id = some (mayManage db server user)
  isModerator : isModeratorVerdict db user server.id = some (mayManage db server user)
  updateServer : updateServerVerdict db user server.id = some (mayManage db server user)

/-! ## One database -/

section

variable {db : Database} {server : ServerDocument} {host user : UserDocument}

theorem mayManage_eq (hkeys : (db.users.map (·.id)).Nodup) (hhost : host ∈ db.users)
    (hid : host.id = server.hostID) :
    mayManage db server user = server.canManage host.model user.model := by
  have hlisted : (db.users.any fun host =>
      host.id == server.hostID && host.moderatorUserIDs.contains user.id) =
      host.moderatorUserIDs.contains user.id := by
    rw [Bool.eq_iff_iff, List.any_eq_true]
    constructor
    · rintro ⟨other, hother, hlists⟩
      rw [Bool.and_eq_true, beq_iff_eq] at hlists
      have hsame : other = host :=
        (List.inj_on_of_nodup_map hkeys) hother hhost (hlists.1.trans hid.symm)
      exact hsame ▸ hlists.2
    · intro hlists
      exact ⟨host, hhost, by simp only [hid, beq_self_eq_true, hlists, Bool.and_true]⟩
  rw [mayManage, hlisted]
  rfl

theorem isModeratorVerdict_eq (user : UserDocument) (hservers : (db.servers.map (·.id)).Nodup)
    (hkeys : (db.users.map (·.id)).Nodup) (hserver : server ∈ db.servers) (hhost : host ∈ db.users)
    (hid : host.id = server.hostID) :
    isModeratorVerdict db user server.id = some (mayManage db server user) := by
  have hfoundServer : db.view.servers.find? (·.id == server.id) = some server.toServerModel := by
    show (db.servers.map ServerDocument.toServerModel).find? _ = _
    rw [List.find?_map]
    exact congrArg (Option.map _) (find?_key hservers hserver)
  have hfoundHost : db.view.users.find? (·.id == server.hostID) = some host.model := by
    show (db.users.map UserDocument.model).find? _ = _
    rw [List.find?_map, ← hid]
    exact congrArg (Option.map _) (find?_key hkeys hhost)
  simp only [isModeratorVerdict, isModerator, query, eval_call, Store.perform, hfoundServer,
    hfoundHost, mayManage_eq hkeys hhost hid]
  cases server.canManage host.model user.model <;> rfl

theorem updateServerVerdict_eq (user : UserDocument) (hservers : (db.servers.map (·.id)).Nodup)
    (hkeys : (db.users.map (·.id)).Nodup) (hserver : server ∈ db.servers) (hhost : host ∈ db.users)
    (hid : host.id = server.hostID) :
    updateServerVerdict db user server.id = some (mayManage db server user) := by
  have hfoundServer := find?_key hservers hserver
  have hfoundHost := find?_key hkeys hhost
  rw [hid] at hfoundHost
  simp only [updateServerVerdict, Listing.manageServer, ask, eval_attempt, Database.perform,
    hfoundServer, hfoundHost, mayManage_eq hkeys hhost hid]
  have hrule : (server.hostID ≠ user.id ∧ (!host.moderatorUserIDs.contains user.id) = true ∧
      (!user.model.entitled .globalServerModerator) = true) ↔
      server.canManage host.model user.model = false := by
    simp only [ServerModel.canManage, UserDocument.model, Bool.or_eq_false_iff, beq_eq_false_iff_ne,
      Bool.not_eq_true', ne_eq]
    constructor
    · rintro ⟨hne, hlisted, hglobal⟩
      exact ⟨⟨hglobal, fun heq => hne heq.symm⟩, hlisted⟩
    · rintro ⟨⟨hglobal, hne⟩, hlisted⟩
      exact ⟨fun heq => hne heq.symm, hlisted, hglobal⟩
  cases hcan : server.canManage host.model user.model with
  | false =>
      rw [if_pos (hrule.mpr hcan)]
      rfl
  | true =>
      rw [if_neg fun h => by rw [hrule.mp h] at hcan; cases hcan]
      rfl

/-- `HandleClientWS` asks the user whom the token finds. -/
theorem handleClientWSVerdict_of_found (m : ServerManager)
    (hservers : (db.servers.map (·.id)).Nodup) (hserver : server ∈ db.servers)
    (hid : server.id ≠ "") (hfound : db.users.find? (·.token == server.hostToken) = some host) :
    handleClientWSVerdict m db user server.id = some (server.canManage host.model user.model) := by
  have hfoundServer := find?_key hservers hserver
  simp only [handleClientWSVerdict, clientRequest, ServerManager.authorizeClient, if_neg hid,
    hfoundServer, Option.map_some, Option.bind_some, hfound, ServerManager.canManage]
  cases server.canManage host.model user.model with
  | true => simp [Bind.bind, Except.bind, pure, Except.pure]
  | false =>
      simp only [Bind.bind, Except.bind, pure, Except.pure]
      split
      · next h =>
          split at h
          · cases h
          · cases h
            rfl
      · rfl
      · next hne h =>
          split at h
          · cases h
            exact absurd rfl (hne _)
          · cases h

/-- When it finds nobody, only the host and global moderators are let in. -/
theorem handleClientWSVerdict_of_missing (user : UserDocument) (m : ServerManager)
    (hservers : (db.servers.map (·.id)).Nodup) (hserver : server ∈ db.servers)
    (hid : server.id ≠ "") (hmissing : db.users.find? (·.token == server.hostToken) = none) :
    handleClientWSVerdict m db user server.id =
      if user.model.entitled .globalServerModerator || user.id == server.hostID then some true
      else none := by
  have hfoundServer := find?_key hservers hserver
  simp only [handleClientWSVerdict, clientRequest, ServerManager.authorizeClient, if_neg hid,
    hfoundServer, Option.map_some, Option.bind_some, hmissing, Option.map_none,
    ServerManager.canManage]
  cases hrule : user.model.entitled .globalServerModerator || user.id == server.hostID with
  | true =>
      rw [show (user.model.entitled .globalServerModerator || user.model.id == server.hostID) = true
        from hrule]
      simp [Bind.bind, Except.bind, pure, Except.pure]
  | false =>
      rw [show (user.model.entitled .globalServerModerator || user.model.id == server.hostID) = false
        from hrule]
      simp [Bind.bind, Except.bind]

/-- The three places follow the rule exactly if the user is a global moderator or the
host, or the host still has the token that the server keeps. -/
theorem oneRule_iff (m : ServerManager) (hservers : (db.servers.map (·.id)).Nodup)
    (hkeys : (db.users.map (·.id)).Nodup) (hserver : server ∈ db.servers) (hid : server.id ≠ "")
    (hhost : host ∈ db.users) (hhostID : host.id = server.hostID)
    (htoken : ∀ user ∈ db.users, user.token = server.hostToken → user.id = server.hostID) :
    OneRule m db server user ↔
      user.model.entitled .globalServerModerator = true ∨ user.id = server.hostID ∨
        host.token = server.hostToken := by
  have hsame : ∀ other ∈ db.users, other.token = server.hostToken → other = host := by
    intro other hother hother'
    exact (List.inj_on_of_nodup_map hkeys) hother hhost
      ((htoken other hother hother').trans hhostID.symm)
  have hbyID := isModeratorVerdict_eq user hservers hkeys hserver hhost hhostID
  have hupdate := updateServerVerdict_eq user hservers hkeys hserver hhost hhostID
  by_cases hcurrent : host.token = server.hostToken
  · -- The token finds the host.
    refine iff_of_true ⟨?_, hbyID, hupdate⟩ (.inr (.inr hcurrent))
    obtain ⟨found, hfound⟩ : ∃ found, db.users.find? (·.token == server.hostToken) = some found :=
      Option.isSome_iff_exists.mp (List.find?_isSome.mpr ⟨host, hhost, by simpa using hcurrent⟩)
    have hfoundToken : found.token = server.hostToken := by simpa using List.find?_some hfound
    rw [hsame found (List.mem_of_find?_eq_some hfound) hfoundToken] at hfound
    rw [handleClientWSVerdict_of_found m hservers hserver hid hfound,
      mayManage_eq hkeys hhost hhostID]
  · -- It finds nobody.
    have hmissing : db.users.find? (·.token == server.hostToken) = none := by
      rw [List.find?_eq_none]
      intro other hother hbeq
      have hother' : other.token = server.hostToken := by simpa using hbeq
      exact hcurrent (hsame other hother hother' ▸ hother')
    have hverdict := handleClientWSVerdict_of_missing user m hservers hserver hid hmissing
    rw [or_congr_right (or_iff_left hcurrent)]
    constructor
    · intro hrule
      rw [hrule.handleClientWS] at hverdict
      split at hverdict
      · next hallowed => simpa using hallowed
      · cases hverdict
    · intro hallowed
      have hor : (user.model.entitled .globalServerModerator || user.id == server.hostID) = true := by
        simpa using hallowed
      refine ⟨?_, hbyID, hupdate⟩
      rw [hverdict, if_pos hor, mayManage, hor, Bool.true_or]

end

/-! ## Runs -/

/-- In every state that a run with new tokens reaches, for every server and every user:
the three places follow the rule exactly if the user is a global moderator or the
host, or the host still has the token that the server keeps. -/
theorem rights_run (config : Config) (db : Database) (hdb : Consistent db)
    (as : List AccountsAction) :
    ∀ sys ∈ visits (service config).step { store := db } as, FreshTokens db sys.requests →
      ∀ server ∈ sys.store.servers, server.id ≠ "" → ∀ user ∈ sys.store.users, ∀ m,
        (OneRule m sys.store server user ↔
          user.model.entitled .globalServerModerator = true ∨ user.id = server.hostID ∨
            ∃ host ∈ sys.store.users, host.id = server.hostID ∧ host.token = server.hostToken) := by
  intro sys hsys hfresh server hserver hid user huser m
  obtain ⟨howned, hkeys, hservers⟩ := tokensOwned_run config hdb as sys hsys hfresh
  have hhosted := howned.servers server hserver
  obtain ⟨host, hhost, hhostID⟩ := hhosted.host
  rw [oneRule_iff m hservers hkeys hserver hid hhost hhostID hhosted.token]
  refine or_congr_right (or_congr_right ⟨fun htoken => ⟨host, hhost, hhostID, htoken⟩, ?_⟩)
  rintro ⟨other, hother, hotherID, htoken⟩
  have hsame : other = host :=
    (List.inj_on_of_nodup_map hkeys) hother hhost (hotherID.trans hhostID.symm)
  exact hsame ▸ htoken

/-! ## A host who gets a new token -/

/-- A host with a Patreon account and a moderator. -/
def hostAndModerator : Database where
  users :=
    [{ id := "1", token := "t1", name := "Host", moderatorUserIDs := ["2"]
       patreonData := some { membershipID := "m1", discordID := none, lastChecked := 0 } },
      { id := "2", token := "t2", name := "Moderator" }]

theorem hostAndModerator_consistent : Consistent hostAndModerator where
  users := by decide
  servers := by decide
  tokens := by decide
  hosts := by simp [hostAndModerator]
  hostTokens := by simp [hostAndModerator]

def registration : Request :=
  .registerServer "t1" { name := "Server", maxPlayerCount := 10 }
    { id := "s", signed := some ⟨"signed", by decide⟩, now := 0 } []

/-- The host registers a server. -/
def registerRun : List AccountsAction :=
  [.request registration, .run 0 .answered, .run 0 .answered, .run 0 .answered, .run 0 .answered]

/-- Then the host unlinks the Patreon account. -/
def unlinkRun : List AccountsAction :=
  registerRun ++ [.request (.unlinkPatreon "t1" "n1"), .run 1 .answered, .run 1 .answered]

theorem freshTokens_of_newTokens {requests : List Request} {tokens : List String}
    (h : requests.filterMap Request.newToken = tokens) (hnodup : tokens.Nodup)
    (hnew : ∀ token ∈ tokens, token ≠ "t1" ∧ token ≠ "t2") :
    FreshTokens hostAndModerator requests := by
  subst h
  refine ⟨hnodup, fun token htoken => ?_, fun token _ server hserver => by cases hserver⟩
  have hne := hnew token htoken
  simp [hostAndModerator, hne.1.symm, hne.2.symm]

theorem registerRun_oneRule :
    ∃ sys ∈ visits (service openConfig).step { store := hostAndModerator } registerRun,
      ∃ server ∈ sys.store.servers, ∃ user ∈ sys.store.users,
        server.hostID = "1" ∧ user.id = "2" ∧ OneRule {} sys.store server user := by
  have hend : (exec (service openConfig).step { store := hostAndModerator } registerRun).map
      (fun sys => (sys.requests.filterMap Request.newToken,
        sys.store.servers.map fun server => (server.id, server.hostID, server.hostToken)))
      = some ([], [("s", "1", "t1")]) := by decide
  have husers : (exec (service openConfig).step { store := hostAndModerator } registerRun).map
      (fun sys => sys.store.users.map fun user => (user.id, user.token))
      = some [("1", "t1"), ("2", "t2")] := by decide
  obtain ⟨sys, hsys, heq⟩ := Option.map_eq_some_iff.mp hend
  rw [hsys, Option.map_some, Option.some.injEq] at husers
  rw [Prod.mk.injEq] at heq
  obtain ⟨server, hserver, hpair⟩ := List.mem_map.mp (heq.2 ▸ List.mem_singleton_self _)
  obtain ⟨host, hhost, hhostPair⟩ := List.mem_map.mp (husers ▸ List.mem_cons_self)
  obtain ⟨user, huser, huserPair⟩ := List.mem_map.mp
    (husers ▸ List.mem_cons_of_mem _ (List.mem_singleton_self _))
  simp only [Prod.mk.injEq] at hpair hhostPair huserPair
  have hmem := mem_visits_of_exec hsys
  refine ⟨sys, hmem, server, hserver, user, huser, hpair.2.1, huserPair.1, ?_⟩
  refine (rights_run openConfig hostAndModerator hostAndModerator_consistent _ sys hmem
    (freshTokens_of_newTokens heq.1 (by decide) (by simp)) server hserver ?_ user huser {}).mpr
    (.inr (.inr ⟨host, hhost, ?_, ?_⟩))
  · rw [hpair.1]
    decide
  · rw [hhostPair.1, hpair.2.1]
  · rw [hhostPair.2, hpair.2.2]

/-- The listed moderator is let in by two of the places, and the third faults. -/
theorem unlinkRun_faults :
    ∃ sys ∈ visits (service openConfig).step { store := hostAndModerator } unlinkRun,
      FreshTokens hostAndModerator sys.requests ∧
      ∃ server ∈ sys.store.servers, server.id ≠ "" ∧ ∃ user ∈ sys.store.users,
        isModeratorVerdict sys.store user server.id = some true ∧
        updateServerVerdict sys.store user server.id = some true ∧
        handleClientWSVerdict {} sys.store user server.id = none ∧
        ¬ OneRule {} sys.store server user := by
  have hend : (exec (service openConfig).step { store := hostAndModerator } unlinkRun).map
      (fun sys => (sys.requests.filterMap Request.newToken, sys.store.servers.any fun server =>
        server.id != "" && sys.store.users.any fun user =>
          isModeratorVerdict sys.store user server.id == some true &&
          updateServerVerdict sys.store user server.id == some true &&
          handleClientWSVerdict {} sys.store user server.id == none))
      = some (["n1"], true) := by decide
  obtain ⟨sys, hsys, heq⟩ := Option.map_eq_some_iff.mp hend
  rw [Prod.mk.injEq] at heq
  obtain ⟨server, hserver, hfaults⟩ := List.any_eq_true.mp heq.2
  rw [Bool.and_eq_true, bne_iff_ne] at hfaults
  obtain ⟨user, huser, hverdicts⟩ := List.any_eq_true.mp hfaults.2
  simp only [Bool.and_eq_true, beq_iff_eq] at hverdicts
  refine ⟨sys, mem_visits_of_exec hsys,
    freshTokens_of_newTokens heq.1 (by decide) (by decide), server, hserver, hfaults.1, user,
    huser, hverdicts.1.1, hverdicts.1.2, hverdicts.2, fun hrule => ?_⟩
  have hverdict := hrule.handleClientWS
  rw [hverdicts.2] at hverdict
  cases hverdict

end Kyber.Api.Accounts
