import Kyber.Lib.Runs
import Kyber.Api.Accounts
import Kyber.Api.Instances
import Kyber.Proofs.Messages
import Kyber.Proofs.ServerSockets

/-!
# Lines on the console

A line on a server's console comes from the game server or from a moderator's command.
It goes over the exchange to the clients that are connected to the server. Its flag is
optional in the event, a plain field in the message, and a pointer again in what the
clients get.

Here is what one step of an instance does. A step at the sockets publishes the lines
that it gets, those that have a text, and writes none (`Effect.out`). A delivery
writes lines and publishes none: of the clients in the map it finds those of the
server, and among those it passes over the ones that do not moderate when the line is
not public (`deliver_out`, `consolesTo_of_mem`). A client is in the map under the
server's id and its connection's id, with its role, all fixed when it connects, and
stays there while its socket is read (`Kept`).
-/

namespace Kyber.Api

open Kyber.Lib Json ServerManager

/-! ## Lines on the console -/

structure ConsoleEvent where
  serverID : String
  message : String
  isPublic : Bool
  deriving DecidableEq, Repr

/-- The line that a message carries. -/
def consoleOf (msg : APIManagementMessage) : List ConsoleEvent :=
  match msg.request, msg.status.bind (·.consoleMessage) with
  | none, some console => [⟨msg.serverID, console.message, console.isPublic⟩]
  | _, _ => []

def consoleOfBody : Option Json → List ConsoleEvent
  | none => []
  | some body =>
      match APIManagementMessage.unmarshalJSON body with
      | .ok msg => consoleOf msg
      | .error _ => []

/-- A line as a client sees it. -/
abbrev ConsoleLine := String × Bool

def consoleTo (conn : ConnId) : Output → Option ConsoleLine
  | .client c (.console message isPublic) =>
      if c = conn then some (message, isPublic.getD false) else none
  | _ => none

/-- The lines that have been written to a socket. -/
def consolesTo (conn : ConnId) (out : List Output) : List ConsoleLine :=
  out.filterMap (consoleTo conn)

def ConsoleEvent.line (e : ConsoleEvent) : ConsoleLine := (e.message, e.isPublic)

/-- Whether a line has a text. -/
def ConsoleEvent.hasText (e : ConsoleEvent) : Bool := e.message ≠ ""

/-- The lines that are for a client. -/
def ConsoleEvent.isFor (serverID : String) (isModerator : Bool) (e : ConsoleEvent) : Bool :=
  e.serverID == serverID && (isModerator || e.isPublic)

/-! ## What is published -/

/-- The outputs are all published messages or closed sockets. -/
def Unwritten (out : List Output) : Prop := ∀ o ∈ out, ∀ conn evt, o ≠ .client conn evt

theorem unwritten_nil : Unwritten [] := fun _ ho => absurd ho List.not_mem_nil

theorem consolesTo_of_unwritten {conn : ConnId} {out : List Output} (h : Unwritten out) :
    consolesTo conn out = [] := by
  refine List.filterMap_eq_nil_iff.mpr fun o ho => ?_
  cases o with
  | client c evt => exact absurd rfl (h _ ho c evt)
  | _ => rfl

theorem unwritten_publishWS (msg : APIManagementMessage) (key : String) :
    Unwritten (publishWS msg key) := by
  intro o ho conn evt heq
  rw [publishWS] at ho
  split at ho
  · rw [List.mem_singleton.mp ho] at heq
    cases heq
  · cases ho

theorem published_publishWS {msg : APIManagementMessage} (h : msg.RoundTrips) (key : String) :
    (published (publishWS msg key)).flatMap consoleOfBody = consoleOf msg := by
  obtain ⟨data, hm, hu⟩ := h
  simp only [publishWS, hm, published, List.filterMap_cons, List.filterMap_nil, List.flatMap_cons,
    List.flatMap_nil, consoleOfBody, hu, List.append_nil]

/-! ## Server ids -/

/-- An id that `GenerateToken` makes. -/
def HexToken (id : String) : Prop := ∃ bytes, id = String.ofList (Accounts.hexDigits bytes)

theorem htmlSafe_digitChar {n : Nat} (h : n < 16) : htmlSafe (Nat.digitChar n) = true := by
  have hall : ∀ n : Fin 16, htmlSafe (Nat.digitChar n) = true := by decide
  exact hall ⟨n, h⟩

theorem HexToken.plain {id : String} (h : HexToken id) : Plain id := by
  obtain ⟨bytes, rfl⟩ := h
  intro c hc
  rw [String.toList_ofList, Accounts.hexDigits, List.mem_flatMap] at hc
  obtain ⟨b, -, hc⟩ := hc
  have hb := b.toNat_lt
  rcases List.mem_cons.mp hc with rfl | hc
  · exact htmlSafe_digitChar (by omega)
  · rw [List.mem_singleton.mp hc]
    exact htmlSafe_digitChar (Nat.mod_lt _ (by decide))

/-- The store finds a server by its id, and has given it one that was generated. -/
def Found (id : String) (server : Lookup ServerModel) : Prop :=
  ∀ found, server = some (some found) → found.id = id ∧ HexToken found.id

/-- What the store answers in an action. -/
def ApiAction.FromStore : ApiAction → Prop
  | .socket _ (.handleServerWS r) => Found r.id r.server
  | .socket _ (.handleClientWS r) => Found r.id r.server
  | .call (.runCommand r) => Found r.id r.server
  | .call (.kickPlayer serverID _ _) => HexToken serverID
  | .call (.kickUserGlobally serverIDs _) => ∀ id ∈ serverIDs, HexToken id
  | .call (.cleanupStaleServers serverIDs) => ∀ id ∈ serverIDs, HexToken id
  | _ => True

theorem Call.roundTrips {c : Call} (h : (ApiAction.call c).FromStore) :
    ∀ msg ∈ c.messages, msg.RoundTrips := by
  have hkick : ∀ id userID reason, HexToken id → (kickPlayerOf id userID reason).RoundTrips :=
    fun id userID reason hid => (message_roundTrips_iff id (.reqKickPlayer userID reason)).mpr
      ⟨hid.plain, trivial⟩
  cases c with
  | runCommand r =>
      intro msg hmsg
      rw [messages] at hmsg
      cases hserver : r.moderated with
      | none => simp [hserver] at hmsg
      | some server =>
          have hfound : r.server = some (some server) := by
            rw [RunCommandRequest.moderated] at hserver
            split at hserver
            · next found _ hfound _ =>
                split at hserver
                · cases hserver
                  exact hfound
                · cases hserver
            · cases hserver
          have hplain := (h server hfound).2.plain
          rw [hserver] at hmsg
          rcases List.mem_cons.mp hmsg with rfl | hmsg
          · exact (message_roundTrips_iff server.id (.reqRunCommand r.command)).mpr
              ⟨hplain, trivial⟩
          · rw [List.mem_singleton.mp hmsg]
            exact (message_roundTrips_iff server.id (.statusConsole _)).mpr ⟨hplain, rfl⟩
  | kickPlayer serverID userID reason =>
      intro msg hmsg
      rw [List.mem_singleton.mp hmsg]
      exact hkick _ _ _ h
  | kickUserGlobally serverIDs userID =>
      intro msg hmsg
      obtain ⟨id, hid, rfl⟩ := List.mem_map.mp hmsg
      exact hkick _ _ _ (h id hid)
  | cleanupStaleServers serverIDs =>
      intro msg hmsg
      obtain ⟨id, hid, rfl⟩ := List.mem_map.mp hmsg
      exact (message_roundTrips_iff id .statusStaleServer).mpr ⟨(h id hid).plain, trivial⟩

theorem RunCommandRequest.consoleMessage_ne (r : RunCommandRequest) : r.consoleMessage ≠ "" := by
  intro hempty
  obtain ⟨hranCommand, -⟩ := String.append_eq_empty_iff.mp hempty
  exact absurd (String.append_eq_empty_iff.mp hranCommand).2 (by decide)

/-- The line that a command leaves has a text, and is for moderators. -/
theorem Call.line {c : Call} {msg : APIManagementMessage} (h : msg ∈ c.messages)
    {e : ConsoleEvent} (he : e ∈ consoleOf msg) : e.hasText = true ∧ e.isPublic = false := by
  cases c with
  | runCommand r =>
      rw [messages] at h
      split at h
      · cases h
      · rcases List.mem_cons.mp h with rfl | h
        · cases he
        · rw [List.mem_singleton.mp h] at he
          rw [List.mem_singleton.mp he]
          exact ⟨decide_eq_true r.consoleMessage_ne, rfl⟩
  | kickPlayer serverID userID reason =>
      rw [List.mem_singleton.mp h] at he
      cases he
  | kickUserGlobally serverIDs userID =>
      obtain ⟨id, -, rfl⟩ := List.mem_map.mp h
      cases he
  | cleanupStaleServers serverIDs =>
      obtain ⟨id, -, rfl⟩ := List.mem_map.mp h
      cases he

/-! ## The map of clients -/

namespace ServerManager

theorem getElem?_clientsOf_ownClient (m : ServerManager) (id connID : String) (conn : ConnId)
    (isModerator : Bool) (id' connID' : String) :
    ((m.ownClient id connID conn isModerator).clientsOf id')[connID']? =
      if id' = id ∧ connID' = connID then some ⟨conn, isModerator, connID⟩
      else (m.clientsOf id')[connID']? := by
  rw [clientsOf, ownClient, getD_insert_eq]
  by_cases hid : id' = id
  · subst hid
    rw [if_pos rfl, getElem?_insert_eq]
    simp only [true_and]
  · rw [if_neg hid, if_neg fun h => hid h.1]
    rfl

theorem getElem?_clientsOf_disownClient (m : ServerManager) (id connID id' connID' : String) :
    ((m.disownClient id connID).clientsOf id')[connID']? =
      if id' = id ∧ connID' = connID then none else (m.clientsOf id')[connID']? := by
  rw [disownClient]
  cases hclients : m.ownedClients[id]? with
  | none =>
      by_cases hid : id' = id
      · subst hid
        simp [clientsOf, Std.TreeMap.getD_eq_getD_getElem?, hclients]
      · simp [hid]
  | some clients =>
      rw [clientsOf, getD_insert_eq]
      by_cases hid : id' = id
      · subst hid
        simp [clientsOf, Std.TreeMap.getD_eq_getD_getElem?, hclients, getElem?_erase_eq]
      · rw [if_neg hid, if_neg fun h => hid h.1]
        rfl

end ServerManager

/-! ## What a step does -/

namespace WsState

variable {s s' : WsState} {a : WsAction}

/-- The steps at the sockets of an instance. -/
inductive Effect (s : WsState) : WsAction → WsState → Prop
  | refuse (a : WsAction) (h : ∀ conn evt stored, a ≠ .serverEvent conn evt stored) : Effect s a s
  | server (r : ServerWSRequest) (h : r.authorize = .ok ()) :
      Effect s (.handleServerWS r) (s.acceptServer r)
  | client (r : ClientWSRequest) (isModerator : Bool)
      (h : s.manager.authorizeClient r = .ok isModerator) :
      Effect s (.handleClientWS r) (s.acceptClient r isModerator)
  | event (conn : ConnId) (evt : ManagementEvent) (stored : Bool) (id : String)
      (result : ServerManager × List Output)
      (hs : s.sockets[conn]? = some ⟨id, .server, .reading⟩)
      (h : s.manager.processServerSocketEvent id stored evt = .ok result) :
      Effect s (.serverEvent conn evt stored) (s.run result)
  | stop (conn : ConnId) (deadlineFails : Bool) (phase : SocketPhase) (hphase : phase ≠ .reading) :
      Effect s (.stopReading conn deadlineFails) (s.setPhase conn phase)
  | clean (conn : ConnId) (socket : Socket) (hs : s.sockets[conn]? = some socket) :
      Effect s (.cleanUp conn) { s.setPhase conn .done with manager := cleanUp s.manager socket }

theorem step_effect (h : s.step a = some s') (hd : ∀ d, a ≠ .deliver d) : Effect s a s' := by
  cases a with
  | handleServerWS r =>
      rw [step] at h
      split at h
      · cases h
        exact .refuse _ (by simp)
      · next hr =>
          split at h
          · cases h
            exact .server r hr
          · cases h
            exact .refuse _ (by simp)
  | handleClientWS r =>
      rw [step] at h
      split at h
      · cases h
        exact .refuse _ (by simp)
      · next isModerator hr =>
          split at h
          · cases h
            exact .client r isModerator hr
          · cases h
            exact .refuse _ (by simp)
  | serverEvent conn evt stored =>
      rw [step] at h
      split at h
      · next id hs =>
          obtain ⟨result, hresult, rfl⟩ := Option.map_eq_some_iff.mp h
          exact .event conn evt stored id result hs (eq_ok_of_toOption hresult)
      · cases h
  | stopReading conn deadlineFails =>
      rw [step] at h
      split at h
      · next kind hs =>
          cases h
          refine .stop conn deadlineFails _ ?_
          cases kind with
          | server => simp [afterReading]
          | client connID => cases deadlineFails <;> simp [afterReading]
      · cases h
  | cleanUp conn =>
      rw [step] at h
      split at h
      · next socket hs =>
          split at h
          · cases h
            exact .clean conn socket hs
          · cases h
      · cases h
  | deliver d => exact absurd rfl (hd d)

/-- The lines that game servers send, those without a text included. -/
def eventsAt (s : WsState) : WsAction → List ConsoleEvent
  | .serverEvent conn (.console message isPublic) _ =>
      match s.sockets[conn]? with
      | some ⟨id, .server, .reading⟩ => [⟨id, message, isPublic.getD true⟩]
      | _ => []
  | _ => []

/-- Server ids are plain, clients are in the map with a socket that there is, and no
line has been written to another one. -/
structure Sound (s : WsState) : Prop where
  plain : ∀ socket ∈ s.sockets, Plain socket.id
  bound : ∀ (id connID : String) (client : OwnedClient),
    (s.manager.clientsOf id)[connID]? = some client → client.conn < s.sockets.length
  written : ∀ conn, s.sockets.length ≤ conn → consolesTo conn s.sent = []

end WsState

theorem processServerSocketEvent_out {m : ServerManager} {id : String} {stored : Bool}
    {evt : ManagementEvent} {result : ServerManager × List Output} (hid : Plain id)
    (h : m.processServerSocketEvent id stored evt = .ok result) :
    result.1.ownedClients = m.ownedClients ∧ Unwritten result.2 ∧
      (published result.2).flatMap consoleOfBody =
        match evt with
        | .console message isPublic =>
            [⟨id, message, isPublic.getD true⟩].filter ConsoleEvent.hasText
        | _ => [] := by
  cases evt with
  | console message isPublic =>
      by_cases hmessage : message = ""
      · rw [processServerSocketEvent, if_pos hmessage] at h
        cases h
        exact ⟨rfl, unwritten_nil, by simp [published, ConsoleEvent.hasText, hmessage]⟩
      · rw [processServerSocketEvent, if_neg hmessage] at h
        cases h
        dsimp only
        refine ⟨rfl, unwritten_publishWS _ _, ?_⟩
        have htrips := (message_roundTrips_iff id (.statusConsole
          (some { message, isPublic := isPublic.getD true }))).mpr ⟨hid, rfl⟩
        rw [List.filter_cons_of_pos (by simpa [ConsoleEvent.hasText] using hmessage),
          List.filter_nil]
        exact published_publishWS htrips id
  | players players =>
      simp only [processServerSocketEvent, bind, Except.bind, pure, Except.pure] at h
      split at h
      · cases h
      · next kept _ =>
          cases h
          have hclients : (m.setPlayers id kept).ownedClients = m.ownedClients := by
            rw [setPlayers]
            split <;> rfl
          cases stored with
          | false => exact ⟨hclients, unwritten_nil, rfl⟩
          | true =>
              dsimp only
              rw [if_pos rfl]
              refine ⟨hclients, unwritten_publishWS _ _, ?_⟩
              have htrips := (message_roundTrips_iff id (.statusPlayerList (some
                (kept.map fun p => playerModel (p.getD { id := "", name := "", teamId := 0 }))))).mpr
                ⟨hid, rfl⟩
              exact published_publishWS htrips id
  | keepAlive =>
      cases h
      exact ⟨rfl, unwritten_nil, rfl⟩

namespace WsState

variable {s s' : WsState} {a : WsAction}

/-- A connection that is accepted. -/
inductive Opened (s : WsState) : WsAction → Socket → Prop
  | server (r : ServerWSRequest) (h : r.authorize = .ok ()) :
      Opened s (.handleServerWS r) { id := r.id, kind := .server }
  | client (r : ClientWSRequest) (isModerator : Bool)
      (h : s.manager.authorizeClient r = .ok isModerator) :
      Opened s (.handleClientWS r) { id := r.id, kind := .client r.connID }

theorem Opened.plain {socket : Socket} (h : Opened s a socket)
    {i : Nat} (ha : (ApiAction.socket i a).FromStore) : Plain socket.id := by
  have hplain : ∀ {id lookup server}, Found id lookup → lookup = some (some server) →
      Plain id := by
    intro id lookup server hfound hserver
    obtain ⟨hid, htoken⟩ := hfound server hserver
    exact hid ▸ htoken.plain
  cases h with
  | server r h =>
      obtain ⟨server, hserver⟩ : ∃ server, r.server = some (some server) := by
        rw [ServerWSRequest.authorize] at h
        repeat' split at h
        all_goals first | exact ⟨_, ‹r.server = some (some _)›⟩ | cases h
      exact hplain ha hserver
  | client r isModerator h =>
      obtain ⟨server, hserver⟩ : ∃ server, r.server = some (some server) := by
        rw [authorizeClient] at h
        repeat' split at h
        all_goals first | exact ⟨_, ‹r.server = some (some _)›⟩ | cases h
      exact hplain ha hserver

/-- A step at the sockets writes no lines, and publishes those that it gets. -/
theorem Effect.out (h : Effect s a s') (hs : s.Sound) {i : Nat} (ha : (ApiAction.socket i a).FromStore) :
    ∃ out, s'.sent = s.sent ++ out ∧ Unwritten out ∧
      (published out).flatMap consoleOfBody = (s.eventsAt a).filter ConsoleEvent.hasText := by
  cases h with
  | refuse a h =>
      refine ⟨[], by simp, unwritten_nil, ?_⟩
      cases a with
      | serverEvent conn evt stored => exact absurd rfl (h conn evt stored)
      | _ => rfl
  | server r h =>
      refine ⟨_, rfl, ?_, ?_⟩
      · intro o ho conn evt heq
        obtain ⟨srv, -, rfl⟩ := List.mem_map.mp ho
        cases heq
      · cases ho : s.manager.ownedServers[r.id]? <;> simp [ownServer, ho, published, eventsAt]
  | client r isModerator h =>
      refine ⟨publishWS { serverID := r.id, request := some newReqPlayerList } r.id, rfl,
        unwritten_publishWS _ _, ?_⟩
      have hplain := (Opened.client r isModerator h).plain ha
      have htrips := (message_roundTrips_iff r.id .reqPlayerList).mpr ⟨hplain, trivial⟩
      exact published_publishWS htrips r.id
  | event conn evt stored id result hsock h =>
      obtain ⟨-, hunwritten, hpublished⟩ :=
        processServerSocketEvent_out (hs.plain _ (List.mem_of_getElem? hsock)) h
      refine ⟨result.2, rfl, hunwritten, hpublished.trans ?_⟩
      cases evt with
      | console message isPublic => simp only [eventsAt, hsock]
      | _ => rfl
  | stop conn deadlineFails phase hphase => exact ⟨[], by simp [setPhase], unwritten_nil, rfl⟩
  | clean conn socket hsock => exact ⟨[], by simp [setPhase], unwritten_nil, rfl⟩

theorem Effect.consolesTo_eq (h : Effect s a s') (hs : s.Sound) {i : Nat}
    (ha : (ApiAction.socket i a).FromStore) (conn : ConnId) :
    consolesTo conn s'.sent = consolesTo conn s.sent := by
  obtain ⟨out, hsent, hunwritten, -⟩ := h.out hs ha
  rw [hsent, consolesTo, List.filterMap_append]
  exact (congrArg _ (consolesTo_of_unwritten hunwritten)).trans (List.append_nil _)

theorem Effect.sockets (h : Effect s a s') :
    s'.sockets = s.sockets ∨ (∃ socket, Opened s a socket ∧ s'.sockets = s.sockets ++ [socket]) ∨
      ∃ conn phase, phase ≠ SocketPhase.reading ∧ s'.sockets = (s.setPhase conn phase).sockets := by
  cases h with
  | refuse a h => exact .inl rfl
  | server r h => exact .inr (.inl ⟨_, .server r h, rfl⟩)
  | client r isModerator h => exact .inr (.inl ⟨_, .client r isModerator h, rfl⟩)
  | event conn evt stored id result hsock h => exact .inl rfl
  | stop conn deadlineFails phase hphase => exact .inr (.inr ⟨conn, phase, hphase, rfl⟩)
  | clean conn socket hsock => exact .inr (.inr ⟨conn, .done, by simp, rfl⟩)

theorem getElem?_setPhase (s : WsState) (conn j : ConnId) (phase : SocketPhase) :
    (s.setPhase conn phase).sockets[j]? =
      (s.sockets[j]?).map fun socket => if conn = j then { socket with phase } else socket := by
  rw [setPhase, List.getElem?_modify]
  cases s.sockets[j]? <;> rfl

/-- A socket stays what it is, and a loop that has ended stays ended. -/
theorem Effect.getElem?_sockets (h : Effect s a s') {conn : ConnId} {socket : Socket}
    (hs : s.sockets[conn]? = some socket) :
    ∃ phase, s'.sockets[conn]? = some { socket with phase } ∧
      (phase = .reading → socket.phase = .reading) := by
  rcases h.sockets with hsame | ⟨new, -, hnew⟩ | ⟨j, phase, hphase, hset⟩
  · exact ⟨socket.phase, hsame ▸ hs, id⟩
  · refine ⟨socket.phase, ?_, id⟩
    rw [hnew, List.getElem?_append_left (List.getElem?_eq_some_iff.mp hs).1]
    exact hs
  · rw [hset, getElem?_setPhase, hs, Option.map_some]
    by_cases hj : j = conn
    · rw [if_pos hj]
      exact ⟨phase, rfl, fun h => absurd h hphase⟩
    · rw [if_neg hj]
      exact ⟨socket.phase, rfl, id⟩

/-- A socket was there before, or has just been opened. -/
theorem Effect.socket_cases (h : Effect s a s') {conn : ConnId} {socket : Socket}
    (hs : s'.sockets[conn]? = some socket) :
    (∃ phase, s.sockets[conn]? = some { socket with phase }) ∨
      conn = s.sockets.length ∧ Opened s a socket := by
  rcases h.sockets with hsame | ⟨new, hopened, hnew⟩ | ⟨j, phase, hphase, hset⟩
  · exact .inl ⟨socket.phase, hsame ▸ hs⟩
  · rw [hnew, List.getElem?_append] at hs
    split at hs
    · exact .inl ⟨socket.phase, hs⟩
    · next hlt =>
        rw [List.getElem?_singleton] at hs
        split at hs
        · next hj =>
            cases hs
            have hle := Nat.sub_eq_zero_iff_le.mp hj
            exact .inr ⟨Nat.le_antisymm hle (Nat.le_of_not_lt hlt), hopened⟩
        · cases hs
  · rw [hset, getElem?_setPhase] at hs
    obtain ⟨old, hold, rfl⟩ := Option.map_eq_some_iff.mp hs
    refine .inl ⟨old.phase, ?_⟩
    split <;> exact hold

/-- What a step does to a client in the map. -/
theorem Effect.clients (h : Effect s a s') (hs : s.Sound) (id connID : String) :
    (s'.manager.clientsOf id)[connID]? = (s.manager.clientsOf id)[connID]? ∨
      (∃ isModerator, Opened s a { id, kind := .client connID } ∧
        s'.sockets.length = s.sockets.length + 1 ∧
        (s'.manager.clientsOf id)[connID]? = some ⟨s.sockets.length, isModerator, connID⟩) ∨
      ∃ conn phase, s.sockets[conn]? = some ⟨id, .client connID, phase⟩ ∧
        s'.sockets = (s.setPhase conn .done).sockets ∧
        (s'.manager.clientsOf id)[connID]? = none := by
  cases h with
  | refuse a h => exact .inl rfl
  | server r h => exact .inl rfl
  | client r isModerator h =>
      have hentry := getElem?_clientsOf_ownClient s.manager r.id r.connID s.sockets.length
        isModerator id connID
      by_cases hkey : id = r.id ∧ connID = r.connID
      · obtain ⟨rfl, rfl⟩ := hkey
        rw [if_pos ⟨rfl, rfl⟩] at hentry
        exact .inr (.inl ⟨isModerator, .client r isModerator h, List.length_append, hentry⟩)
      · rw [if_neg hkey] at hentry
        exact .inl hentry
  | event conn evt stored server result hsock h =>
      have hclients := (processServerSocketEvent_out
        (hs.plain _ (List.mem_of_getElem? hsock)) h).1
      refine .inl ?_
      show (result.1.clientsOf id)[connID]? = _
      rw [clientsOf, hclients, clientsOf]
  | stop conn deadlineFails phase hphase => exact .inl rfl
  | clean conn socket hsock =>
      obtain ⟨server, kind, phase⟩ := socket
      cases kind with
      | server => exact .inl rfl
      | client connID' =>
          have hentry := getElem?_clientsOf_disownClient s.manager server connID' id connID
          by_cases hkey : id = server ∧ connID = connID'
          · obtain ⟨rfl, rfl⟩ := hkey
            rw [if_pos ⟨rfl, rfl⟩] at hentry
            exact .inr (.inr ⟨conn, phase, hsock, rfl, hentry⟩)
          · rw [if_neg hkey] at hentry
            exact .inl hentry

theorem Effect.length_le (h : Effect s a s') : s.sockets.length ≤ s'.sockets.length := by
  rcases h.sockets with hsame | ⟨new, -, hnew⟩ | ⟨j, phase, -, hset⟩
  · exact Nat.le_of_eq (by rw [hsame])
  · simp [hnew]
  · simp [hset, setPhase]

theorem Effect.sound (h : Effect s a s') (hs : s.Sound)
    {i : Nat} (ha : (ApiAction.socket i a).FromStore) : s'.Sound := by
  constructor
  · intro socket hsocket
    obtain ⟨conn, hconn⟩ := List.getElem?_of_mem hsocket
    rcases h.socket_cases hconn with ⟨phase, hold⟩ | ⟨-, hopened⟩
    · exact hs.plain { socket with phase } (List.mem_of_getElem? hold)
    · exact hopened.plain ha
  · intro id connID client hclient
    rcases h.clients hs id connID with hsame | ⟨isModerator, -, hlen, hnew⟩ | ⟨_, _, _, _, hnone⟩
    · exact Nat.lt_of_lt_of_le (hs.bound id connID client (hsame ▸ hclient)) h.length_le
    · cases hnew.symm.trans hclient
      simp [hlen]
    · cases hnone.symm.trans hclient
  · intro conn hconn
    rw [h.consolesTo_eq hs ha]
    exact hs.written conn (Nat.le_trans h.length_le hconn)

/-! ## A client that is connected -/

/-- The client of a socket: no other socket has its connection's id, and the map has it
with its role, for as long as the socket is read. -/
structure Kept (s : WsState) (conn : ConnId) (id connID : String) (isModerator : Bool) : Prop where
  socket : ∃ phase, s.sockets[conn]? = some ⟨id, .client connID, phase⟩
  unique : ∀ (j : ConnId) (socket : Socket), s.sockets[j]? = some socket →
    socket.kind = .client connID → j = conn
  only : ∀ (id' connID' : String) (client : OwnedClient),
    (s.manager.clientsOf id')[connID']? = some client → client.conn = conn →
      id' = id ∧ connID' = connID ∧ client.isModerator = isModerator
  own : ∀ client : OwnedClient, (s.manager.clientsOf id)[connID]? = some client →
    client.conn = conn
  entry : s.sockets[conn]? = some ⟨id, .client connID, .reading⟩ →
    ∃ client : OwnedClient, (s.manager.clientsOf id)[connID]? = some client

variable {conn : ConnId} {id connID : String} {isModerator : Bool}

theorem Kept.lt_length (h : Kept s conn id connID isModerator) : conn < s.sockets.length := by
  obtain ⟨phase, hphase⟩ := h.socket
  exact (List.getElem?_eq_some_iff.mp hphase).1

/-- A client stays a client of its server, with its role. -/
theorem Effect.kept (h : Effect s a s') (hs : s.Sound) (hk : Kept s conn id connID isModerator)
    (hfresh : ∀ id', ¬ Opened s a { id := id', kind := .client connID }) :
    Kept s' conn id connID isModerator where
  socket := by
    obtain ⟨phase, hphase⟩ := hk.socket
    obtain ⟨phase', hphase', -⟩ := h.getElem?_sockets hphase
    exact ⟨phase', hphase'⟩
  unique := by
    intro j socket hj hkind
    rcases h.socket_cases hj with ⟨phase, hold⟩ | ⟨-, hopened⟩
    · exact hk.unique j _ hold hkind
    · cases hopened with
      | server r h => cases hkind
      | client r isModerator' hauth =>
          cases hkind
          exact absurd (.client r isModerator' hauth) (hfresh r.id)
  only := by
    intro id' connID' client hclient hconn
    rcases h.clients hs id' connID' with hsame | ⟨isModerator', -, -, hnew⟩ | ⟨_, _, _, _, hnone⟩
    · exact hk.only id' connID' client (hsame ▸ hclient) hconn
    · -- A new client has a socket that was not there before.
      cases hnew.symm.trans hclient
      exact absurd hconn (Nat.ne_of_gt hk.lt_length)
    · cases hnone.symm.trans hclient
  own := by
    intro client hclient
    rcases h.clients hs id connID with hsame | ⟨_, hopened, -, -⟩ | ⟨_, _, _, _, hnone⟩
    · exact hk.own client (hsame ▸ hclient)
    · exact absurd hopened (hfresh id)
    · cases hnone.symm.trans hclient
  entry := by
    intro hreading
    obtain ⟨phase, hphase⟩ := hk.socket
    obtain ⟨phase', hphase', hwas⟩ := h.getElem?_sockets hphase
    cases hphase'.symm.trans hreading
    obtain ⟨client, hclient⟩ := hk.entry (hwas rfl ▸ hphase)
    rcases h.clients hs id connID with hsame | ⟨_, hopened, -, -⟩ | ⟨j, _, hj, hset, -⟩
    · exact ⟨client, hsame ▸ hclient⟩
    · exact absurd hopened (hfresh id)
    · -- Its clean-up comes after its loop has ended.
      have hjconn := hk.unique j _ hj rfl
      subst hjconn
      rw [hset, getElem?_setPhase, hphase, Option.map_some, if_pos rfl] at hreading
      cases hreading

/-- A client that is no longer in the map does not come back. -/
theorem Effect.gone (h : Effect s a s') (hs : s.Sound)
    (hfresh : ∀ id', ¬ Opened s a { id := id', kind := .client connID })
    (hgone : (s.manager.clientsOf id)[connID]? = none) :
    (s'.manager.clientsOf id)[connID]? = none := by
  rcases h.clients hs id connID with hsame | ⟨_, hopened, -, -⟩ | ⟨_, _, _, _, hnone⟩
  · exact hsame.trans hgone
  · exact absurd hopened (hfresh id)
  · exact hnone

theorem getElem?_clientsOf_acceptClient (s : WsState) (r : ClientWSRequest) (isModerator : Bool) :
    ((s.acceptClient r isModerator).manager.clientsOf r.id)[r.connID]? =
      some ⟨s.sockets.length, isModerator, r.connID⟩ :=
  (getElem?_clientsOf_ownClient s.manager r.id r.connID s.sockets.length isModerator r.id
    r.connID).trans (if_pos ⟨rfl, rfl⟩)

/-- A client that has just been accepted. -/
theorem kept_acceptClient (hs : s.Sound) (r : ClientWSRequest) (isModerator : Bool)
    (hfresh : ∀ socket ∈ s.sockets, socket.kind ≠ .client r.connID) :
    Kept (s.acceptClient r isModerator) s.sockets.length r.id r.connID isModerator where
  socket := ⟨.reading, List.getElem?_concat_length⟩
  unique := by
    intro j socket hj hkind
    have hj' : (s.sockets ++ [(⟨r.id, .client r.connID, .reading⟩ : Socket)])[j]? = some socket := hj
    rw [List.getElem?_append] at hj'
    split at hj'
    · exact absurd hkind (hfresh socket (List.mem_of_getElem? hj'))
    · next hlt =>
        rw [List.getElem?_singleton] at hj'
        split at hj'
        · next hzero =>
            exact Nat.le_antisymm (Nat.sub_eq_zero_iff_le.mp hzero) (Nat.le_of_not_lt hlt)
        · cases hj'
  only := by
    intro id' connID' client hclient hconn
    have hentry := getElem?_clientsOf_ownClient s.manager r.id r.connID s.sockets.length
      isModerator id' connID'
    rw [show ((s.acceptClient r isModerator).manager.clientsOf id')[connID']? = _ from hentry]
      at hclient
    split at hclient
    · next hkey =>
        cases hclient
        exact ⟨hkey.1, hkey.2, rfl⟩
    · exact absurd hconn (Nat.ne_of_lt (hs.bound id' connID' client hclient))
  own := by
    intro client hclient
    cases (getElem?_clientsOf_acceptClient s r isModerator).symm.trans hclient
    rfl
  entry := fun _ => ⟨_, getElem?_clientsOf_acceptClient s r isModerator⟩

end WsState

/-! ## A delivery -/

theorem filterMap_eq_toList_of_only {α β : Type} {l : List α} {f : α → Option β} {a : α}
    (hl : l.Nodup) (ha : a ∈ l) (hf : ∀ b ∈ l, b ≠ a → f b = none) :
    l.filterMap f = (f a).toList := by
  induction l with
  | nil => cases ha
  | cons b l ih =>
      obtain ⟨hb, hl⟩ := List.nodup_cons.mp hl
      rcases List.mem_cons.mp ha with rfl | ha
      · have hrest : l.filterMap f = [] := by
          refine List.filterMap_eq_nil_iff.mpr fun c hc => ?_
          exact hf c (List.mem_cons_of_mem _ hc) (ne_of_mem_of_not_mem hc hb)
        rw [List.filterMap_cons, hrest]
        cases f a <;> rfl
      · rw [List.filterMap_cons, hf b List.mem_cons_self (ne_of_mem_of_not_mem ha hb).symm]
        exact ih hl ha fun c hc => hf c (List.mem_cons_of_mem _ hc)

section

variable {m : ServerManager} {conn : ConnId} {id connID : String} {isModerator : Bool}

theorem consolesTo_processClientEvent (m : ServerManager) (conn : ConnId) (e : ConsoleEvent) :
    consolesTo conn (m.processClientEvent e.serverID (.console e.message (some e.isPublic))) =
      (m.clientsOf e.serverID).toList.filterMap fun entry =>
        if entry.2.conn = conn ∧ hiddenFrom entry.2 (.console e.message (some e.isPublic)) = false
        then some e.line else none := by
  rw [consolesTo, processClientEvent, List.filterMap_filterMap]
  refine List.filterMap_congr fun entry _ => ?_
  obtain ⟨key, client⟩ := entry
  cases hhidden : hiddenFrom client (.console e.message (some e.isPublic)) with
  | true => simp [hhidden]
  | false =>
      by_cases hconn : client.conn = conn
      · simp [hhidden, consoleTo, hconn, ConsoleEvent.line]
      · simp [hhidden, consoleTo, hconn]

/-- A client that is in the map gets the lines that are for it. -/
theorem consolesTo_of_mem {e : ConsoleEvent} (he : e.hasText = true)
    (honly : ∀ (id' connID' : String) (client : OwnedClient),
      (m.clientsOf id')[connID']? = some client → client.conn = conn →
        id' = id ∧ connID' = connID ∧ client.isModerator = isModerator)
    {client : OwnedClient} (hclient : (m.clientsOf id)[connID]? = some client)
    (hconn : client.conn = conn) :
    consolesTo conn (m.processClientEvent e.serverID (.console e.message (some e.isPublic))) =
      if e.isFor id isModerator then [e.line] else [] := by
  rw [consolesTo_processClientEvent]
  have hmessage : e.message ≠ "" := by simpa [ConsoleEvent.hasText] using he
  have hrole := (honly id connID client hclient hconn).2.2
  by_cases hid : e.serverID = id
  · have hhidden : hiddenFrom client (.console e.message (some e.isPublic)) =
        !(isModerator || e.isPublic) := by
      simp [hiddenFrom, hmessage, hrole]
    have hfor : e.isFor id isModerator = (isModerator || e.isPublic) := by
      simp [ConsoleEvent.isFor, hid]
    rw [hid, filterMap_eq_toList_of_only (a := (connID, client)), hhidden, hfor]
    · cases isModerator || e.isPublic <;> simp [hconn]
    · exact (keys_nodup _).of_map
    · exact Std.TreeMap.mem_toList_iff_getElem?_eq_some.mpr hclient
    · -- Every other entry is another client's.
      intro entry hentry hne
      have hget := Std.TreeMap.mem_toList_iff_getElem?_eq_some.mp hentry
      refine if_neg fun h => hne ?_
      have hkey := (honly id entry.1 entry.2 hget h.1).2.1
      rw [hkey, hclient, Option.some.injEq] at hget
      exact Prod.ext hkey hget.symm
  · rw [show e.isFor id isModerator = false by simp [ConsoleEvent.isFor, hid], if_neg (by simp),
      List.filterMap_eq_nil_iff]
    intro entry hentry
    have hget := Std.TreeMap.mem_toList_iff_getElem?_eq_some.mp hentry
    exact if_neg fun h => hid (honly _ entry.1 entry.2 hget h.1).1

/-- A socket that no client in the map has gets none. -/
theorem consolesTo_of_forall_ne (e : ConsoleEvent)
    (h : ∀ (connID' : String) (client : OwnedClient),
      (m.clientsOf e.serverID)[connID']? = some client → client.conn ≠ conn) :
    consolesTo conn (m.processClientEvent e.serverID (.console e.message (some e.isPublic))) =
      [] := by
  rw [consolesTo_processClientEvent, List.filterMap_eq_nil_iff]
  intro entry hentry
  have hget := Std.TreeMap.mem_toList_iff_getElem?_eq_some.mp hentry
  exact if_neg fun hconn => h entry.1 entry.2 hget hconn.1

theorem eq_client_of_mem {evt : ManagementEvent} {o : Output}
    (h : o ∈ m.processClientEvent id evt) : ∃ c, o = .client c evt := by
  obtain ⟨⟨key, client⟩, -, hsome⟩ := List.mem_filterMap.mp h
  dsimp only at hsome
  split at hsome
  · cases hsome
  · cases hsome
    exact ⟨_, rfl⟩

theorem published_processClientEvent (m : ServerManager) (id : String) (evt : ManagementEvent) :
    published (m.processClientEvent id evt) = [] := by
  refine List.filterMap_eq_nil_iff.mpr fun o ho => ?_
  obtain ⟨c, rfl⟩ := eq_client_of_mem ho
  rfl

theorem consolesTo_players (m : ServerManager) (conn : ConnId) (id : String)
    (players : List (Option ServerPlayer)) :
    consolesTo conn (m.processClientEvent id (.players players)) = [] := by
  refine List.filterMap_eq_nil_iff.mpr fun o ho => ?_
  obtain ⟨c, rfl⟩ := eq_client_of_mem ho
  rfl

/-- An answer to a request carries no line, whatever the id is written as. -/
theorem answerPlayerList_out {out : List Output} (h : m.answerPlayerList id = .ok out) :
    consolesTo conn out = [] ∧ (published out).flatMap consoleOfBody = [] := by
  rw [answerPlayerList] at h
  split at h
  · cases h
    exact ⟨rfl, rfl⟩
  · simp only [bind, Except.bind, pure, Except.pure] at h
    split at h
    · cases h
    · next players _ =>
        cases h
        refine ⟨rfl, ?_⟩
        obtain ⟨data, hm, hu⟩ :=
          (newStatusPlayerList_roundTrips_iff (some (players.map playerModel))).mpr rfl
        have hbody : consoleOfBody (some (.obj [("SERVER_STATUS", .arr [.str id, data])])) = [] := by
          rw [consoleOfBody, unmarshalJSON_status, hu]
          rfl
        have hmarshal : APIManagementMessage.marshalJSON
            { serverID := id, status := some { players := some (some (players.map playerModel)) } } =
            .ok (.obj [("SERVER_STATUS", .arr [.str id, data])]) := by
          rw [newStatusPlayerList] at hm
          simp only [APIManagementMessage.marshalJSON, hm, bind, Except.bind, pure, Except.pure]
        simpa only [hmarshal, published, List.filterMap_cons, List.filterMap_nil, Except.toOption,
          List.flatMap_cons, List.flatMap_nil, List.append_nil] using hbody

theorem processServerEvent_out (m : ServerManager) (conn : ConnId) (id : String)
    (evt : ServerAPIEvent) :
    consolesTo conn (m.processServerEvent id evt) = [] ∧
      (published (m.processServerEvent id evt)).flatMap consoleOfBody = [] := by
  rw [processServerEvent]
  split <;> exact ⟨rfl, rfl⟩

theorem handleRequest_out {request : ServerRequestMessage} {out : List Output}
    (h : m.handleRequest id request = .ok out) :
    consolesTo conn out = [] ∧ (published out).flatMap consoleOfBody = [] := by
  rw [handleRequest] at h
  split at h
  · cases h
    exact processServerEvent_out m conn id _
  · split at h
    · cases h
      exact processServerEvent_out m conn id _
    · split at h
      · exact answerPlayerList_out h
      · cases h
        exact ⟨rfl, rfl⟩

/-- A status is not handed on, and a client gets the line that it carries. -/
theorem handleStatus_out (m : ServerManager) (conn : ConnId) (id : String)
    (status : ServerStatusMessage) :
    (published (m.handleStatus id status).2).flatMap consoleOfBody = [] ∧
      consolesTo conn (m.handleStatus id status).2 = status.consoleMessage.toList.flatMap fun c =>
        consolesTo conn (m.processClientEvent id (.console c.message (some c.isPublic))) := by
  rw [handleStatus]
  cases status.consoleMessage with
  | some console =>
      dsimp only
      rw [published_processClientEvent]
      exact ⟨rfl, (List.append_nil _).symm⟩
  | none =>
      dsimp only
      split
      · exact ⟨rfl, rfl⟩
      · rw [published_processClientEvent, consolesTo_players]
        exact ⟨rfl, rfl⟩

variable (conn) in
theorem deliver_out {m' : ServerManager} {body : Option Json} {out : List Output}
    (h : m.deliver (delivery body) = .ok (m', out)) :
    (published out).flatMap consoleOfBody = [] ∧
      consolesTo conn out = (consoleOfBody body).flatMap fun e =>
        consolesTo conn
          (m.processClientEvent e.serverID (.console e.message (some e.isPublic))) := by
  cases body with
  | none => cases h
  | some body =>
      simp only [delivery, deliver] at h
      cases hmsg : APIManagementMessage.unmarshalJSON body with
      | error e =>
          rw [hmsg] at h
          have hnil : consoleOfBody (some body) = [] := by simp only [consoleOfBody, hmsg]
          rw [hnil]
          cases e <;> cases h <;> exact ⟨rfl, rfl⟩
      | ok msg =>
          have hlines : consoleOfBody (some body) = consoleOf msg := by
            simp only [consoleOfBody, hmsg]
          simp only [hmsg] at h
          rw [hlines]
          cases hreq : msg.request with
          | some request =>
              have hnil : consoleOf msg = [] := by simp only [consoleOf, hreq]
              simp only [hreq, bind, Except.bind, pure, Except.pure] at h
              rw [hnil]
              split at h
              · cases h
              · next hout =>
                  cases h
                  exact (handleRequest_out hout).symm
          | none =>
              cases hst : msg.status with
              | none =>
                  have hsome := unmarshalJSON_some hmsg
                  rw [hreq, hst] at hsome
                  simp at hsome
              | some status =>
                  have hlines : consoleOf msg = status.consoleMessage.toList.map fun console =>
                      ⟨msg.serverID, console.message, console.isPublic⟩ := by
                    simp only [consoleOf, hreq, hst, Option.bind_some]
                    cases status.consoleMessage <;> rfl
                  simp only [hreq, hst, Except.ok.injEq] at h
                  rw [hlines, List.flatMap_map]
                  have hout := handleStatus_out m conn msg.serverID status
                  rw [h] at hout
                  exact hout

end

end Kyber.Api
