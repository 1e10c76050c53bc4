import Kyber.Lib.Registry
import Kyber.Lib.Runs
import Kyber.Api.ServerManager
import Kyber.Proofs.Messages

/-!
# Which sockets the server manager has

Two things are asked of the manager. After the message that a server has gone stale
nothing of the server is left; and while the read loop of the socket that a server
registered last is running, it is this socket that the manager has for the server.

The first fails because the branch for stale servers is behind a test that every
decoded message answers: a delivery leaves the sockets alone (`deliver_sockets`), and
the message is without effect. The second fails because the clean-up of a socket
deletes by the server's id. The maps are a registry in the sense of `Lib.Registry`, and
it stays right exactly if no clean-up meets a successor that is still reading.
-/

namespace Kyber.Api

open Kyber.Lib Json

/-! ## Deliveries -/

/-- A message that is decoded has a status or a request. -/
theorem unmarshalJSON_some {data : Json} {msg : APIManagementMessage}
    (h : APIManagementMessage.unmarshalJSON data = .ok msg) :
    msg.status.isSome = true ∨ msg.request.isSome = true := by
  simp only [APIManagementMessage.unmarshalJSON, bind, Except.bind] at h
  repeat' split at h
  all_goals cases h
  all_goals simp

namespace ServerManager

variable {m m' : ServerManager}

theorem handleStatus_sockets (m : ServerManager) (id : String) (status : ServerStatusMessage) :
    (m.handleStatus id status).1.ownedServers = m.ownedServers ∧
      (m.handleStatus id status).1.ownedClients = m.ownedClients := by
  unfold handleStatus
  split
  · exact ⟨rfl, rfl⟩
  · split <;> exact ⟨rfl, rfl⟩

/-- No delivery changes the maps of sockets. -/
theorem deliver_sockets {d : Delivery} {out : List Output} (h : m.deliver d = .ok (m', out)) :
    m'.ownedServers = m.ownedServers ∧ m'.ownedClients = m.ownedClients := by
  cases d with
  | nil => cases h
  | invalid =>
      cases h
      exact ⟨rfl, rfl⟩
  | doc body =>
      rw [deliver] at h
      cases hmsg : APIManagementMessage.unmarshalJSON body with
      | error e =>
          rw [hmsg] at h
          cases e <;> cases h <;> exact ⟨rfl, rfl⟩
      | ok msg =>
          simp only [hmsg] at h
          cases hreq : msg.request with
          | some request =>
              simp only [hreq] at h
              cases hout : m.handleRequest msg.serverID request with
              | error e =>
                  rw [hout] at h
                  cases h
              | ok out' =>
                  rw [hout] at h
                  cases h
                  exact ⟨rfl, rfl⟩
          | none =>
              cases hst : msg.status with
              | some status =>
                  simp only [hreq, hst, Except.ok.injEq] at h
                  have hkeep := m.handleStatus_sockets msg.serverID status
                  rwa [h] at hkeep
              | none =>
                  have hsome := unmarshalJSON_some hmsg
                  rw [hreq, hst] at hsome
                  simp at hsome

/-! ## Stale servers -/

/-- The body that `cleanupStaleServers` publishes for a server. -/
def IsStaleMessage (server : String) (d : Delivery) : Prop :=
  ∃ body, d = .doc body ∧
    (APIManagementMessage.mk server (some newStatusStaleServer) none).marshalJSON = .ok body

/-- Nothing of a server is in the maps. -/
def NoEntry (m : ServerManager) (server : String) : Prop :=
  m.ownedServers[server]? = none ∧ m.playerCache[server]? = none ∧
    ∀ connID : String, (m.clientsOf server)[connID]? = none

/-- The maps agree on a server. -/
def SameEntries (m m' : ServerManager) (server : String) : Prop :=
  m'.ownedServers[server]? = m.ownedServers[server]? ∧
    m'.playerCache[server]? = m.playerCache[server]? ∧
    m'.clientsOf server = m.clientsOf server

/-- What the message that a server is stale is for. -/
def CleanedUp (m m' : ServerManager) (server : String) : Prop :=
  m'.NoEntry server ∧ ∀ other, other ≠ server → m.SameEntries m' other

/-- The message goes to the branch for statuses, which has nothing for it. -/
theorem deliver_stale {server : String} {d : Delivery} (h : IsStaleMessage server d) :
    m.deliver d = .ok (m, []) := by
  obtain ⟨body, rfl, hbody⟩ := h
  obtain ⟨data, hdata, hread⟩ := newStatusStaleServer_roundTrips
  simp only [APIManagementMessage.marshalJSON, hdata, bind, Except.bind, pure, Except.pure,
    Except.ok.injEq] at hbody
  subst hbody
  simp only [deliver, unmarshalJSON_status, hread, Except.map]
  rfl

theorem cleanedUp_self_iff (m : ServerManager) (server : String) :
    m.CleanedUp m server ↔ m.NoEntry server :=
  ⟨fun h => h.1, fun h => ⟨h, fun _ _ => ⟨rfl, rfl, rfl⟩⟩⟩

end ServerManager

open ServerManager

/-- Along a run, the messages about stale servers do what they are for exactly if
there is never anything to do. -/
theorem stale_cleanedUp_run_iff (s₀ : WsState) (as : List WsAction) :
    (∀ mv ∈ moves WsState.step s₀ as, ∀ server d, mv.2 = .deliver d → IsStaleMessage server d →
      ∃ s', mv.1.step mv.2 = some s' ∧ mv.1.manager.CleanedUp s'.manager server) ↔
    ∀ mv ∈ moves WsState.step s₀ as, ∀ server d, mv.2 = .deliver d → IsStaleMessage server d →
      mv.1.manager.NoEntry server := by
  refine forall₂_congr fun mv _ => forall₂_congr fun server d => forall₂_congr fun hd hstale => ?_
  have hstep : mv.1.step mv.2 = some (mv.1.run (mv.1.manager, [])) := by
    rw [hd, WsState.step, deliver_stale hstale]
    rfl
  rw [← cleanedUp_self_iff]
  constructor
  · rintro ⟨s', hs', hclean⟩
    rw [hstep] at hs'
    cases hs'
    exact hclean
  · intro hclean
    exact ⟨_, hstep, hclean⟩

/-- The host `h` of server `a` opens its socket. -/
def connectServer : WsAction :=
  .handleServerWS {
    id := "a", token := "t", user := some (some { id := "h", name := "" }), upgraded := true,
    server := some (some { id := "a", name := "", password := none, hostID := "h",
                           playerCount := 0, maxPlayerCount := 0, official := false,
                           lastUpdated := 0, proxyToken := "" }) }

/-- Server `a` connects and is found to be stale. -/
def staleRun : List WsAction :=
  [connectServer,
    .deliver (.doc (.obj [("SERVER_STATUS", .arr [.str "a", .obj [("STALE", .bool true)]])]))]

/-- It is still owned after the message. -/
theorem stale_stays :
    ¬ ∀ mv ∈ moves WsState.step {} staleRun, ∀ server d, mv.2 = .deliver d →
      IsStaleMessage server d →
      ∃ s', mv.1.step mv.2 = some s' ∧ mv.1.manager.CleanedUp s'.manager server := by
  intro hall
  have hown : (WsState.step {} connectServer).map
      (fun s => (s.manager.ownedServers["a"]?).map OwnedServer.conn) = some (some 0) := by
    decide
  obtain ⟨s₁, hs₁, hconn⟩ := Option.map_eq_some_iff.mp hown
  have hstale : IsStaleMessage "a" (.doc (.obj [("SERVER_STATUS",
      .arr [.str "a", .obj [("STALE", .bool true)]])])) := ⟨_, rfl, rfl⟩
  have hstep : s₁.step (.deliver (.doc (.obj [("SERVER_STATUS",
      .arr [.str "a", .obj [("STALE", .bool true)]])]))) = some (s₁.run (s₁.manager, [])) := by
    rw [WsState.step, deliver_stale hstale]
    rfl
  have hmem : (s₁, WsAction.deliver (.doc (.obj [("SERVER_STATUS",
      .arr [.str "a", .obj [("STALE", .bool true)]])]))) ∈ moves WsState.step {} staleRun := by
    simp [staleRun, moves, hs₁, hstep]
  obtain ⟨s', hs', hclean⟩ := hall _ hmem "a" _ rfl hstale
  rw [hstep] at hs'
  cases hs'
  have hnone : s₁.manager.ownedServers["a"]? = none := hclean.1.1
  rw [hnone] at hconn
  cases hconn

/-! ## The owner of a server -/

namespace WsState

variable {s s' : WsState} {a : WsAction} {conn : ConnId}

/-- The read loop of a game server's socket is running. -/
def Reading (s : WsState) (conn : ConnId) : Prop :=
  ∃ id, s.sockets[conn]? = some ⟨id, .server, .reading⟩

def registry (s : WsState) : Registry String ConnId where
  entry id := (s.manager.ownedServers[id]?).map OwnedServer.conn
  latest id := s.lastServer[id]?

/-- What an action does to the registry. -/
def access (s : WsState) : WsAction → Registry.Op String ConnId
  | .handleServerWS r =>
      match r.authorize with
      | .ok () => if r.upgraded then .register r.id s.sockets.length else .skip
      | .error _ => .skip
  | .cleanUp conn =>
      match s.sockets[conn]? with
      | some ⟨id, .server, _⟩ => .unregister id
      | _ => .skip
  | _ => .skip

/-- The ways in which a step changes the list of sockets. -/
inductive SocketsStep (s : WsState) (op : Registry.Op String ConnId) (s' : WsState) : Prop
  | same (hop : op = .skip) (h : s'.sockets = s.sockets)
  | server (id : String) (hop : op = .register id s.sockets.length)
      (h : s'.sockets = s.sockets ++ [⟨id, .server, .reading⟩])
  | client (id connID : String) (hop : op = .skip)
      (h : s'.sockets = s.sockets ++ [⟨id, .client connID, .reading⟩])
  | stop (conn : ConnId) (phase : SocketPhase) (hphase : phase ≠ .reading) (hop : op = .skip)
      (h : s'.sockets = (s.setPhase conn phase).sockets)
  | clean (conn : ConnId) (socket : Socket) (hs : s.sockets[conn]? = some socket)
      (hphase : socket.phase = .leaving) (hop : ∀ id k, op ≠ .register id k)
      (h : s'.sockets = (s.setPhase conn .done).sockets)

structure Stepped (s : WsState) (op : Registry.Op String ConnId) (s' : WsState) : Prop where
  registry_eq : s'.registry = s.registry.apply op
  sockets : SocketsStep s op s'

/-- A step that leaves the owners and the sockets as they are. -/
theorem Stepped.quiet (hreg : s'.registry = s.registry) (h : s'.sockets = s.sockets) :
    Stepped s .skip s' :=
  ⟨hreg, .same rfl h⟩

theorem registry_eq_of_ownedServers
    (h : s'.manager.ownedServers = s.manager.ownedServers) (hl : s'.lastServer = s.lastServer) :
    s'.registry = s.registry := by
  simp only [registry, h, hl]

theorem registry_acceptServer (s : WsState) (r : ServerWSRequest) :
    (s.acceptServer r).registry = s.registry.register r.id s.sockets.length := by
  have hentry := update_insert (s.manager.ownedServers.erase r.id) r.id
    { conn := s.sockets.length } OwnedServer.conn
  have hlatest := update_insert s.lastServer r.id s.sockets.length fun conn => conn
  rw [update_erase, Function.update_idem] at hentry
  simp only [Option.map_id'] at hlatest
  exact congrArg₂ Registry.mk hentry hlatest

theorem conn_setPlayers (m : ServerManager) (id : String) (players : List (Option ServerPlayer))
    (id' : String) :
    ((m.setPlayers id players).ownedServers[id']?).map OwnedServer.conn =
      (m.ownedServers[id']?).map OwnedServer.conn := by
  unfold setPlayers
  cases hsrv : m.ownedServers[id]? with
  | none => rfl
  | some srv =>
      simp only [getElem?_insert_eq]
      by_cases hid : id' = id
      · simp [hid, hsrv]
      · simp [hid]

theorem conn_processServerSocketEvent {m m' : ServerManager} {id : String} {stored : Bool}
    {evt : ManagementEvent} {out : List Output}
    (h : m.processServerSocketEvent id stored evt = .ok (m', out)) (id' : String) :
    (m'.ownedServers[id']?).map OwnedServer.conn =
      (m.ownedServers[id']?).map OwnedServer.conn := by
  cases evt with
  | console message isPublic =>
      rw [processServerSocketEvent] at h
      split at h <;> cases h <;> rfl
  | keepAlive =>
      cases h
      rfl
  | players players =>
      rw [processServerSocketEvent] at h
      cases hkept : sanitizePlayers players with
      | error e =>
          rw [hkept] at h
          cases h
      | ok kept =>
          rw [hkept] at h
          cases h
          exact conn_setPlayers m id kept id'

theorem eq_ok_of_toOption {ε α : Type} {x : Except ε α} {a : α} (h : x.toOption = some a) :
    x = .ok a := by
  cases x with
  | error e => cases h
  | ok b =>
      cases h
      rfl

theorem disownClient_ownedServers (m : ServerManager) (id connID : String) :
    (m.disownClient id connID).ownedServers = m.ownedServers := by
  unfold disownClient
  split <;> rfl

theorem cleanUp_stepped {socket : Socket} (hs : s.sockets[conn]? = some socket)
    (hphase : socket.phase = .leaving)
    (h : s' = { s.setPhase conn .done with manager := cleanUp s.manager socket }) :
    Stepped s (s.access (.cleanUp conn)) s' := by
  subst h
  obtain ⟨id, kind, phase⟩ := socket
  cases kind with
  | server =>
      have hop : s.access (.cleanUp conn) = .unregister id := by
        simp only [access, hs]
      rw [hop]
      refine ⟨?_, .clean conn _ hs hphase (by simp) rfl⟩
      have hentry := update_erase s.manager.ownedServers id OwnedServer.conn
      exact congrArg (Registry.mk · fun id => s.lastServer[id]?) hentry
  | client connID =>
      have hop : s.access (.cleanUp conn) = .skip := by
        simp only [access, hs]
      rw [hop]
      refine ⟨?_, .clean conn _ hs hphase (by simp) rfl⟩
      exact registry_eq_of_ownedServers (disownClient_ownedServers _ _ _) rfl

/-- What a step does to the owners and to the sockets. -/
theorem step_stepped (h : s.step a = some s') : Stepped s (s.access a) s' := by
  cases a with
  | handleServerWS r =>
      rw [step] at h
      cases hr : r.authorize with
      | error e =>
          simp only [hr] at h
          cases h
          simp only [access, hr]
          exact .quiet rfl rfl
      | ok _ =>
          simp only [hr] at h
          cases h
          simp only [access, hr]
          split
          · exact ⟨registry_acceptServer s r, .server r.id rfl rfl⟩
          · exact .quiet rfl rfl
  | handleClientWS r =>
      rw [step] at h
      split at h
      · cases h
        exact .quiet rfl rfl
      · cases h
        split
        · exact ⟨rfl, .client r.id r.connID rfl rfl⟩
        · exact .quiet rfl rfl
  | serverEvent conn evt stored =>
      rw [step] at h
      split at h
      next id _ =>
          obtain ⟨⟨m', out⟩, hres, rfl⟩ := Option.map_eq_some_iff.mp h
          have hconn := conn_processServerSocketEvent (eq_ok_of_toOption hres)
          refine .quiet ?_ rfl
          exact congrArg (Registry.mk · fun id => s.lastServer[id]?) (funext hconn)
      · cases h
  | stopReading conn deadlineFails =>
      rw [step] at h
      split at h
      next kind _ =>
          cases h
          refine ⟨rfl, .stop conn _ ?_ rfl rfl⟩
          cases kind with
          | server => simp [afterReading]
          | client connID => cases deadlineFails <;> simp [afterReading]
      · cases h
  | cleanUp conn =>
      rw [step] at h
      split at h
      next socket hs =>
          split at h
          next hphase =>
              cases h
              exact cleanUp_stepped hs hphase rfl
          · cases h
      · cases h
  | deliver d =>
      obtain ⟨⟨m', out⟩, hres, rfl⟩ := Option.map_eq_some_iff.mp h
      have hkeep := deliver_sockets (eq_ok_of_toOption hres)
      exact .quiet (registry_eq_of_ownedServers hkeep.1 rfl) rfl

theorem reading_setPhase_iff {c : ConnId} {phase : SocketPhase} (hphase : phase ≠ .reading) :
    (s.setPhase conn phase).Reading c ↔ c ≠ conn ∧ s.Reading c := by
  unfold Reading setPhase
  simp only [List.getElem?_modify]
  by_cases hc : conn = c
  · subst hc
    cases s.sockets[conn]? <;> simp [hphase]
  · simp [hc, Ne.symm hc]

theorem reading_append {socket : Socket} (hs : s'.sockets = s.sockets ++ [socket])
    (hr : s'.Reading conn) :
    s.Reading conn ∨ conn = s.sockets.length ∧ socket.kind = .server := by
  obtain ⟨id, hr⟩ := hr
  rw [hs] at hr
  rcases Nat.lt_trichotomy conn s.sockets.length with hlt | heq | hgt
  · rw [List.getElem?_append_left hlt] at hr
    exact .inl ⟨id, hr⟩
  · rw [heq, List.getElem?_concat_length] at hr
    cases hr
    exact .inr ⟨heq, rfl⟩
  · rw [List.getElem?_eq_none (by simpa using Nat.succ_le_of_lt hgt)] at hr
    cases hr

/-- A read loop that runs did so before, or has just been started by a registration. -/
theorem Stepped.reading {op : Registry.Op String ConnId} (h : Stepped s op s')
    (hr : s'.Reading conn) : s.Reading conn ∨ ∃ id, op = .register id conn := by
  cases h.sockets with
  | same hop hs =>
      simp only [Reading, hs] at hr
      exact .inl hr
  | server id hop hs =>
      rcases reading_append hs hr with hold | ⟨rfl, -⟩
      · exact .inl hold
      · exact .inr ⟨id, hop⟩
  | client id connID hop hs =>
      rcases reading_append hs hr with hold | ⟨-, hkind⟩
      · exact .inl hold
      · cases hkind
  | stop c phase hphase hop hs =>
      have hr' : (s.setPhase c phase).Reading conn := by
        simpa only [Reading, hs] using hr
      exact .inl ((reading_setPhase_iff hphase).mp hr').2
  | clean c socket hsock hphase hop hs =>
      have hr' : (s.setPhase c .done).Reading conn := by
        simpa only [Reading, hs] using hr
      exact .inl ((reading_setPhase_iff (by simp)).mp hr').2

/-- A clean-up ends nobody's read loop. -/
theorem Stepped.reading_unregister {op : Registry.Op String ConnId} {id : String}
    (h : Stepped s op s') (hop : op = .unregister id) (hr : s.Reading conn) :
    s'.Reading conn := by
  cases h.sockets with
  | same hop' => cases hop.symm.trans hop'
  | server _ hop' => cases hop.symm.trans hop'
  | client _ _ hop' => cases hop.symm.trans hop'
  | stop _ _ _ hop' => cases hop.symm.trans hop'
  | clean c socket hsock hphase _ hs =>
      have hne : conn ≠ c := by
        rintro rfl
        obtain ⟨id', hr⟩ := hr
        rw [hr] at hsock
        cases hsock
        cases hphase
      have hr' := (@reading_setPhase_iff s c conn .done (by simp)).mpr ⟨hne, hr⟩
      simpa only [Reading, hs] using hr'

theorem Stepped.length_le {op : Registry.Op String ConnId} (h : Stepped s op s') :
    s.sockets.length ≤ s'.sockets.length := by
  cases h.sockets with
  | same hop hs => exact Nat.le_of_eq (by rw [hs])
  | server id hop hs => simp [hs]
  | client id connID hop hs => simp [hs]
  | stop c phase hphase hop hs => simp [hs, setPhase]
  | clean c socket hsock hphase hop hs => simp [hs, setPhase]

theorem Stepped.register {op : Registry.Op String ConnId} {id : String} (h : Stepped s op s')
    (hop : op = .register id conn) :
    conn = s.sockets.length ∧ conn < s'.sockets.length := by
  cases h.sockets with
  | same hop' => cases hop.symm.trans hop'
  | client _ _ hop' => cases hop.symm.trans hop'
  | stop _ _ _ hop' => cases hop.symm.trans hop'
  | clean _ _ _ _ hop' => exact absurd hop (hop' id conn)
  | server id' hop' hs =>
      cases hop.symm.trans hop'
      exact ⟨rfl, by simp [hs]⟩

/-- The sockets that registered last are in the list. -/
def Registered (s : WsState) : Prop :=
  ∀ (id : String) conn, s.lastServer[id]? = some conn → conn < s.sockets.length

theorem Registered.step (hs : Registered s) (h : s.step a = some s') : Registered s' := by
  have hst := step_stepped h
  intro id conn hl
  have hl' : (s.registry.apply (s.access a)).latest id = some conn := by
    rw [← hst.registry_eq]
    exact hl
  rcases Registry.latest_apply hl' with hold | hop
  · exact Nat.lt_of_lt_of_le (hs id conn hold) hst.length_le
  · exact (hst.register hop).2

/-- While the read loop of the socket that registered last for a server is running,
the manager has this socket for the server. -/
def OwnersCurrent (s : WsState) : Prop :=
  ∀ (id : String) conn, s.lastServer[id]? = some conn → s.Reading conn →
    (s.manager.ownedServers[id]?).map OwnedServer.conn = some conn

/-- The step is no clean-up for a server whose last registered socket is read. -/
def SparesOwner (s : WsState) (a : WsAction) : Prop :=
  ∀ conn socket, a = .cleanUp conn → s.sockets[conn]? = some socket → socket.kind = .server →
    ∀ owner, s.lastServer[socket.id]? = some owner → ¬ s.Reading owner

theorem access_eq_unregister_iff {id : String} :
    s.access a = .unregister id ↔
      ∃ conn socket, a = .cleanUp conn ∧ s.sockets[conn]? = some socket ∧
        socket.kind = .server ∧ socket.id = id := by
  constructor
  · intro h
    cases a with
    | cleanUp conn =>
        rw [access] at h
        split at h
        next hs =>
            cases h
            exact ⟨conn, _, rfl, hs, rfl, rfl⟩
        · cases h
    | handleServerWS r =>
        rw [access] at h
        repeat' split at h
        all_goals cases h
    | handleClientWS _ | serverEvent _ _ _ | stopReading _ _ | deliver _ => cases h
  · rintro ⟨conn, ⟨id', kind, phase⟩, rfl, hs, rfl, rfl⟩
    simp only [access, hs]

theorem sparesOwner_iff :
    s.SparesOwner a ↔
      ∀ id, s.access a = .unregister id → ∀ owner, s.registry.latest id = some owner →
        ¬ s.Reading owner := by
  simp only [access_eq_unregister_iff]
  constructor
  · rintro h id ⟨conn, socket, ha, hs, hkind, rfl⟩ owner hl
    exact h conn socket ha hs hkind owner hl
  · intro h conn socket ha hs hkind owner hl
    exact h socket.id ⟨conn, socket, ha, hs, hkind, rfl⟩ owner hl

theorem ownersCurrent_step (hs : Registered s) (hcur : s.OwnersCurrent)
    (h : s.step a = some s') : s'.OwnersCurrent ↔ s.SparesOwner a := by
  have hst := step_stepped h
  have hcurrent : s.registry.Current s.Reading := hcur
  rw [sparesOwner_iff, ← Registry.current_apply_iff hcurrent, ← hst.registry_eq]
  · rfl
  · intro id conn hop id' hl
    have hlt : conn < s.sockets.length := hs id' conn hl
    exact absurd (hst.register hop).1 (Nat.ne_of_lt hlt)
  · exact fun conn hr => hst.reading hr
  · exact fun id hop conn hr => hst.reading_unregister hop hr

end WsState

open WsState

/-- Along a run the manager has the sockets it should have in every state exactly if
every step spares the owners that are read. -/
theorem ownersCurrent_run_iff (as : List WsAction) :
    (∀ s ∈ visits step {} as, s.OwnersCurrent) ↔ ∀ mv ∈ moves step {} as, mv.1.SparesOwner mv.2 := by
  refine forall_visits_iff_forall_moves step Registered SparesOwner (fun hs h => hs.step h)
    ownersCurrent_step ?_ ?_ as
  · intro id conn hl
    simp at hl
  · intro id conn hl
    simp at hl

/-- The server connects twice. Then the first socket's loop ends, and its clean-up
deletes the second one. -/
def replacedRun : List WsAction :=
  [connectServer, connectServer, .stopReading 0 false, .cleanUp 0]

theorem replaced_deletes_successor :
    ¬ ∀ s ∈ visits step {} replacedRun, s.OwnersCurrent := by
  have h : (exec step {} replacedRun).map (fun s =>
      (s.lastServer["a"]?, s.sockets[1]?, (s.manager.ownedServers["a"]?).map OwnedServer.conn))
      = some (some 1, some ⟨"a", .server, .reading⟩, none) := by decide
  obtain ⟨s, hs, heq⟩ := Option.map_eq_some_iff.mp h
  simp only [Prod.mk.injEq] at heq
  obtain ⟨hlast, hsock, hown⟩ := heq
  intro hall
  have hcur := hall s (mem_visits_of_exec hs) "a" 1 hlast ⟨"a", hsock⟩
  rw [hown] at hcur
  cases hcur

end Kyber.Api
