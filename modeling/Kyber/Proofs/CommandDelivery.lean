import Kyber.Proofs.Exchange

/-!
# Commands for game servers

A moderator's command and a kick are for one game server, which is connected to one of the
instances. They go over the exchange to all instances, and the instance that has the
server's socket writes them there.

A socket is only ever written commands for its own server, each at most once, and in the
order in which they were published (`commands_in_order`). The instance that has the socket
for as long as commands are under way loses none of them (`commands_conserved`).
-/

namespace Kyber.Api

open Kyber.Lib Json ServerManager

/-! ## Commands -/

structure Command where
  serverID : String
  event : ServerAPIEvent
  deriving DecidableEq, Repr

/-- The command that a message carries, and none if it is empty. -/
def commandOf (msg : APIManagementMessage) : List Command :=
  match msg.request with
  | none => []
  | some request =>
      if request.runCommand ≠ "" then
        [⟨msg.serverID, .serverRunCommand request.runCommand⟩]
      else
        (request.kickPlayer.map fun kick =>
          ⟨msg.serverID, .serverKick kick.userID kick.reason⟩).toList

def commandsOfBody (body : Option Json) : List Command := (messagesOf body).flatMap commandOf

def eventTo (conn : ConnId) : Output → Option ServerAPIEvent
  | .server c evt => if c = conn then some evt else none
  | _ => none

/-- The events that have been written to a socket. -/
def eventsTo (conn : ConnId) (out : List Output) : List ServerAPIEvent :=
  out.filterMap (eventTo conn)

/-- The commands for a server, as it gets them. -/
def commandsFor (id : String) (commands : List Command) : List ServerAPIEvent :=
  (commands.filter (·.serverID == id)).map Command.event

theorem commandsFor_append (id : String) (l₁ l₂ : List Command) :
    commandsFor id (l₁ ++ l₂) = commandsFor id l₁ ++ commandsFor id l₂ := by
  rw [commandsFor, List.filter_append, List.map_append]
  rfl

theorem eventsTo_append (conn : ConnId) (out₁ out₂ : List Output) :
    eventsTo conn (out₁ ++ out₂) = eventsTo conn out₁ ++ eventsTo conn out₂ :=
  List.filterMap_append

/-- The commands that calls publish in a step. -/
def commandsIssued (mv : ApiState × ApiAction) : List Command :=
  match mv.2 with
  | .publishNext k =>
      match mv.1.calls[k]? with
      | some (msg :: _) => commandOf msg
      | _ => []
  | _ => []

theorem commandOf_of_announces {msg : APIManagementMessage} (h : msg.Announces) :
    commandOf msg = [] := by
  rw [commandOf]
  split
  · rfl
  · next request hrequest =>
      rw [h request hrequest]
      rfl

/-- What is published in a step, and what is issued, are the same commands. -/
theorem commandsOf_bodies {s s' : ApiState} {a : ApiAction} (hs : s.Exchanging) (ha : a.FromStore)
    (h : s.step a = some s') :
    (ApiState.bodies (s, a)).flatMap commandsOfBody = commandsIssued (s, a) := by
  have hquiet : (∀ k, a ≠ .publishNext k) →
      (ApiState.bodies (s, a)).flatMap commandsOfBody = [] := by
    intro hcall
    refine List.flatMap_eq_nil_iff.mpr fun body hbody => ?_
    obtain ⟨msg, hmsg, -, hann⟩ := ApiState.bodies_announced hs ha h hcall body hbody
    rw [commandsOfBody, hmsg, List.flatMap_singleton, commandOf_of_announces hann]
  cases a with
  | publishNext k =>
      cases ApiState.step_effect h with
      | publishNext _ msg rest hk =>
          obtain ⟨hbodies, htrips⟩ := ApiState.bodies_publishNext hs.sound hk
          simp only [hbodies, List.flatMap_singleton, commandsOfBody,
            messagesOf_of_roundTrips htrips, commandsIssued, hk]
  | socket i b => exact hquiet (by simp)
  | receive i => exact hquiet (by simp)
  | call c => exact hquiet (by simp)

/-! ## What is written -/

namespace ServerManager

variable {m m' : ServerManager} {body : Option Json} {out : List Output}

/-- What a command makes an instance write to a socket. -/
def handed (m : ServerManager) (conn : ConnId) (c : Command) : List ServerAPIEvent :=
  if (m.ownedServers[c.serverID]?).map OwnedServer.conn = some conn then [c.event] else []

theorem eventsTo_processServerEvent (m : ServerManager) (conn : ConnId) (c : Command) :
    eventsTo conn (m.processServerEvent c.serverID c.event) = m.handed conn c := by
  rw [processServerEvent, handed]
  cases m.ownedServers[c.serverID]? with
  | none => rfl
  | some srv =>
      by_cases hconn : srv.conn = conn
      · simp [eventsTo, eventTo, hconn]
      · simp [eventsTo, eventTo, hconn]

theorem eventsTo_processClientEvent (m : ServerManager) (conn : ConnId) (id : String)
    (evt : ManagementEvent) : eventsTo conn (m.processClientEvent id evt) = [] := by
  refine List.filterMap_eq_nil_iff.mpr fun o ho => ?_
  obtain ⟨c, rfl⟩ := eq_client_of_mem ho
  rfl

theorem eventsTo_answerPlayerList {id : String} {conn : ConnId}
    (h : m.answerPlayerList id = .ok out) : eventsTo conn out = [] := by
  rw [answerPlayerList] at h
  split at h
  · cases h
    rfl
  · simp only [bind, Except.bind, pure, Except.pure] at h
    split at h
    · cases h
    · cases h
      rfl

/-- A delivery writes the command that it brings to the socket that the instance has for
the server. -/
theorem eventsTo_deliver (hbody : Readable body) (conn : ConnId)
    (h : m.deliver (delivery body) = .ok (m', out)) :
    eventsTo conn out = (commandsOfBody body).flatMap (m.handed conn) := by
  obtain ⟨msg, hmsg, -⟩ := hbody
  rw [commandsOfBody, hmsg, List.flatMap_singleton]
  cases hreq : msg.request with
  | none =>
      obtain ⟨status, -, hout⟩ := deliver_status hmsg hreq h
      have hnone : eventsTo conn (m.handleStatus msg.serverID status).2 = [] := by
        rw [handleStatus]
        split
        · exact eventsTo_processClientEvent _ _ _ _
        · split
          · rfl
          · exact eventsTo_processClientEvent _ _ _ _
      rw [hout] at hnone
      simp only [hnone, commandOf, hreq, List.flatMap_nil]
  | some request =>
      obtain ⟨-, hout⟩ := deliver_request hmsg hreq h
      rw [handleRequest] at hout
      simp only [commandOf, hreq]
      split at hout
      · next hrun =>
          cases hout
          rw [if_pos hrun, List.flatMap_singleton]
          exact eventsTo_processServerEvent m conn ⟨msg.serverID, .serverRunCommand _⟩
      · next hrun =>
          rw [if_neg hrun]
          split at hout
          · next kick hkick =>
              cases hout
              rw [hkick, Option.map_some, Option.toList_some, List.flatMap_singleton]
              exact eventsTo_processServerEvent m conn ⟨msg.serverID, .serverKick _ _⟩
          · next hkick =>
              rw [hkick]
              split at hout
              · exact eventsTo_answerPlayerList hout
              · cases hout
                rfl

end ServerManager

namespace WsState

variable {s s' : WsState} {a : WsAction} {conn : ConnId}

/-- A step at the sockets writes no command. -/
theorem Effect.eventsTo_eq (h : Effect s a s') (conn : ConnId) :
    eventsTo conn s'.sent = eventsTo conn s.sent := by
  have hsame : ∀ out, eventsTo conn out = [] → eventsTo conn (s.sent ++ out) = eventsTo conn s.sent := by
    intro out hout
    rw [eventsTo_append, hout, List.append_nil]
  have hpublish : ∀ msg key, eventsTo conn (publishWS msg key) = [] := by
    intro msg key
    rw [publishWS]
    split <;> rfl
  cases h with
  | refuse a h => rfl
  | server r h =>
      refine hsame _ ?_
      cases ho : s.manager.ownedServers[r.id]? <;> simp [ownServer, ho, eventsTo, eventTo]
  | client r isModerator h =>
      refine hsame _ ?_
      dsimp only
      exact hpublish _ _
  | event c evt stored id result hsock h =>
      refine hsame _ ?_
      cases evt with
      | console message isPublic =>
          rw [processServerSocketEvent] at h
          split at h
          · cases h
            rfl
          · cases h
            dsimp only
            exact hpublish _ _
      | players players =>
          simp only [processServerSocketEvent, bind, Except.bind, pure, Except.pure] at h
          split at h
          · cases h
          · cases h
            cases stored with
            | false => rfl
            | true =>
                dsimp only
                rw [if_pos rfl]
                exact hpublish _ _
      | keepAlive =>
          cases h
          rfl
  | stop c deadlineFails phase hphase => rfl
  | clean c socket hsock => rfl

/-- The sockets that the manager has for servers are those servers' sockets. -/
def Owning (s : WsState) : Prop :=
  ∀ (id : String) (conn : ConnId), s.registry.entry id = some conn →
    ∃ phase, s.sockets[conn]? = some ⟨id, .server, phase⟩

theorem Stepped.getElem?_sockets {op : Registry.Op String ConnId} (h : Stepped s op s')
    {id : String} {kind : SocketKind} {phase : SocketPhase}
    (hs : s.sockets[conn]? = some ⟨id, kind, phase⟩) :
    ∃ phase', s'.sockets[conn]? = some ⟨id, kind, phase'⟩ := by
  have happend : ∀ socket, (s.sockets ++ [socket])[conn]? = some ⟨id, kind, phase⟩ := by
    intro socket
    rw [List.getElem?_append_left (List.getElem?_eq_some_iff.mp hs).1]
    exact hs
  have hset : ∀ c p, ∃ phase', (s.setPhase c p).sockets[conn]? = some ⟨id, kind, phase'⟩ := by
    intro c p
    rw [getElem?_setPhase, hs, Option.map_some]
    by_cases hc : c = conn
    · exact ⟨p, by rw [if_pos hc]⟩
    · exact ⟨phase, by rw [if_neg hc]⟩
  cases h.sockets with
  | same hop hsame => exact ⟨phase, hsame ▸ hs⟩
  | server id' hop hnew => exact ⟨phase, hnew ▸ happend _⟩
  | client id' connID hop hnew => exact ⟨phase, hnew ▸ happend _⟩
  | stop c p hphase hop hstop => exact hstop ▸ hset c p
  | clean c socket hsock hphase hop hclean => exact hclean ▸ hset c .done

theorem Owning.step (hs : s.Owning) (h : s.step a = some s') : s'.Owning := by
  have hst := step_stepped h
  intro id conn hentry
  rw [hst.registry_eq] at hentry
  have hkept : s.registry.entry id = some conn →
      ∃ phase, s'.sockets[conn]? = some ⟨id, .server, phase⟩ := by
    intro hold
    obtain ⟨phase, hphase⟩ := hs id conn hold
    exact hst.getElem?_sockets hphase
  cases hop : s.access a with
  | skip =>
      rw [hop] at hentry
      exact hkept hentry
  | register key new =>
      rw [hop] at hentry
      simp only [Registry.apply, Registry.register] at hentry
      by_cases hid : id = key
      · subst hid
        rw [Function.update_self] at hentry
        cases hentry
        rw [hop] at hst
        cases hst.sockets with
        | same hop' | client _ _ hop' | stop _ _ _ hop' => cases hop'
        | clean _ _ _ _ hop' => exact absurd rfl (hop' _ _)
        | server id' hop' hnew =>
            cases hop'
            exact ⟨.reading, by rw [hnew, List.getElem?_concat_length]⟩
      · rw [Function.update_of_ne hid] at hentry
        exact hkept hentry
  | unregister key =>
      rw [hop] at hentry
      simp only [Registry.apply, Registry.unregister] at hentry
      by_cases hid : id = key
      · subst hid
        rw [Function.update_self] at hentry
        cases hentry
      · rw [Function.update_of_ne hid] at hentry
        exact hkept hentry

end WsState

/-! ## Runs -/

namespace ApiState

variable {s s' : ApiState} {a : ApiAction} {i : Nat}

/-- A good state, in which servers' sockets are kept with their own servers, and nothing has
been written to sockets that there are not. -/
structure Commanding (s : ApiState) : Prop where
  exchanging : s.Exchanging
  owning : ∀ inst ∈ s.instances, inst.ws.Owning
  unsent : ∀ inst ∈ s.instances, ∀ conn, inst.ws.sockets.length ≤ conn →
    eventsTo conn inst.ws.sent = []

/-- The commands that instance `i` takes from its queue in a step. -/
def commandsTaken (i : Nat) (mv : ApiState × ApiAction) : List Command :=
  (taken i mv).flatMap commandsOfBody

/-- What a step does to one instance, as far as commands go. -/
inductive Commanded (s : ApiState) (i : Nat) (inst : Instance) : ApiAction → Instance → Prop
  | other (a : ApiAction) (inst' : Instance) (hws : inst'.ws = inst.ws)
      (htaken : commandsTaken i (s, a) = []) : Commanded s i inst a inst'
  | socket (b : WsAction) (inst' : Instance) (heff : WsState.Effect inst.ws b inst'.ws)
      (hstep : inst.ws.step b = some inst'.ws) : Commanded s i inst (.socket i b) inst'
  | receive (body : Option Json) (rest : List (Option Json)) (result : ServerManager × List Output)
      (inst' : Instance) (hq : inst.queue = body :: rest)
      (h : inst.ws.manager.deliver (delivery body) = .ok result)
      (hws : inst'.ws = inst.ws.run result)
      (htaken : commandsTaken i (s, .receive i) = commandsOfBody body) :
      Commanded s i inst (.receive i) inst'

theorem commandsTaken_of_ne (h : a ≠ .receive i) : commandsTaken i (s, a) = [] := by
  cases a with
  | receive j =>
      have hj : j ≠ i := fun hj => h (by rw [hj])
      simp [commandsTaken, taken, hj]
  | _ => rfl

theorem Effect.commanded (h : Effect s a s') {inst : Instance} (hi : s.instances[i]? = some inst) :
    ∃ inst', s'.instances[i]? = some inst' ∧ Commanded s i inst a inst' := by
  cases h with
  | socket j b acting ws hd hj hws =>
      rw [getElem?_set_publish s _ _ hi]
      by_cases hij : j = i
      · subst hij
        cases hj.symm.trans hi
        rw [if_pos rfl]
        exact ⟨_, rfl, .socket b _ (WsState.step_effect hws hd) hws⟩
      · rw [if_neg hij]
        exact ⟨_, rfl, .other _ _ rfl (commandsTaken_of_ne (by simp))⟩
  | receive j ws body rest result hj hdeliver =>
      rw [getElem?_set_publish s _ _ hi]
      by_cases hij : j = i
      · subst hij
        cases hj.symm.trans hi
        rw [if_pos rfl]
        refine ⟨_, rfl, .receive body rest result _ rfl hdeliver rfl ?_⟩
        simp [commandsTaken, taken, hi]
      · rw [if_neg hij]
        exact ⟨_, rfl, .other _ _ rfl (commandsTaken_of_ne (by simpa using hij))⟩
  | call c => exact ⟨inst, hi, .other _ _ rfl rfl⟩
  | publishNext k msg rest hk =>
      rw [getElem?_publish, hi]
      exact ⟨_, rfl, .other _ _ rfl rfl⟩

/-- A socket is a socket of the same server as before, or new. -/
theorem Commanded.sockets {inst inst' : Instance} (h : Commanded s i inst a inst') {conn : ConnId}
    {socket : Socket} (hsock : inst'.ws.sockets[conn]? = some socket) :
    (∃ phase, inst.ws.sockets[conn]? = some { socket with phase }) ∨
      inst.ws.sockets.length ≤ conn := by
  cases h with
  | other _ _ hws htaken => exact .inl ⟨socket.phase, hws ▸ hsock⟩
  | socket b _ heff hstep =>
      rcases heff.socket_cases hsock with hold | ⟨hconn, -⟩
      · exact .inl hold
      · exact .inr (Nat.le_of_eq hconn.symm)
  | receive body rest result _ hq h hws htaken =>
      rw [hws] at hsock
      exact .inl ⟨socket.phase, hsock⟩

/-- What has been written to a socket, and what the step adds to it. -/
theorem Commanded.eventsTo_eq {inst inst' : Instance} (h : Commanded s i inst a inst')
    (hs : s.Exchanging) (hi : s.instances[i]? = some inst) (conn : ConnId) :
    eventsTo conn inst'.ws.sent = eventsTo conn inst.ws.sent ++
      (commandsTaken i (s, a)).flatMap (inst.ws.manager.handed conn) := by
  cases h with
  | other _ _ hws htaken => rw [hws, htaken, List.flatMap_nil, List.append_nil]
  | socket b _ heff hstep =>
      rw [heff.eventsTo_eq conn, commandsTaken_of_ne (by simp), List.flatMap_nil, List.append_nil]
  | receive body rest result _ hq h hws htaken =>
      have hbody : Readable body := hs.readable i body (by simp [queueOf, hi, hq])
      rw [hws, htaken, ← eventsTo_deliver hbody conn h]
      exact eventsTo_append conn _ _

theorem Commanded.length_le {inst inst' : Instance} (h : Commanded s i inst a inst') :
    inst.ws.sockets.length ≤ inst'.ws.sockets.length := by
  cases h with
  | other _ _ hws htaken => exact Nat.le_of_eq (by rw [hws])
  | socket b _ heff hstep => exact heff.length_le
  | receive body rest result _ hq h hws htaken => exact Nat.le_of_eq (by rw [hws]; rfl)

theorem Commanded.owning {inst inst' : Instance} (h : Commanded s i inst a inst')
    (hown : inst.ws.Owning) : inst'.ws.Owning := by
  cases h with
  | other _ _ hws htaken => exact hws ▸ hown
  | socket b _ heff hstep => exact hown.step hstep
  | receive body rest result _ hq h hws htaken =>
      refine hws ▸ hown.step (a := .deliver (delivery body)) ?_
      rw [WsState.step, h]
      rfl

end ApiState

/-- A socket that is kept for no other server gets the commands for its own, if it is
kept for that one. -/
theorem ServerManager.flatMap_handed {m : ServerManager} {conn : ConnId} {id : String}
    (honly : ∀ id' : String, (m.ownedServers[id']?).map OwnedServer.conn = some conn → id' = id)
    (commands : List Command) :
    commands.flatMap (m.handed conn) =
      if (m.ownedServers[id]?).map OwnedServer.conn = some conn then commandsFor id commands
      else [] := by
  induction commands with
  | nil => simp [commandsFor]
  | cons c commands ih =>
      rw [List.flatMap_cons, ih, handed]
      by_cases hid : c.serverID = id
      · by_cases hown : (m.ownedServers[id]?).map OwnedServer.conn = some conn
        · simp [commandsFor, hid, hown]
        · simp [hid, hown]
      · have hother : ¬ (m.ownedServers[c.serverID]?).map OwnedServer.conn = some conn :=
          fun h => hid (honly _ h)
        rw [if_neg hother, List.nil_append]
        simp [commandsFor, hid]

namespace ApiState

variable {s s' : ApiState} {a : ApiAction} {i : Nat}

theorem Commanding.step (hs : s.Commanding) (ha : a.FromStore) (h : s.step a = some s') :
    s'.Commanding := by
  have heff := step_effect h
  have hcommanded : ∀ inst' ∈ s'.instances, ∃ (i : Nat) (inst : Instance),
      s.instances[i]? = some inst ∧ Commanded s i inst a inst' := by
    intro inst' hinst'
    obtain ⟨i, hi'⟩ := List.getElem?_of_mem hinst'
    have hlt : i < s.instances.length := heff.length_eq ▸ (List.getElem?_eq_some_iff.mp hi').1
    have hi := List.getElem?_eq_getElem hlt
    obtain ⟨inst'', hi'', hcomm⟩ := heff.commanded hi
    cases hi''.symm.trans hi'
    exact ⟨i, _, hi, hcomm⟩
  refine ⟨hs.exchanging.step ha h, fun inst' hinst' => ?_, fun inst' hinst' conn hconn => ?_⟩
  · obtain ⟨i, inst, hi, hcomm⟩ := hcommanded inst' hinst'
    exact hcomm.owning (hs.owning inst (List.mem_of_getElem? hi))
  · obtain ⟨i, inst, hi, hcomm⟩ := hcommanded inst' hinst'
    have hmem := List.mem_of_getElem? hi
    have hlen := Nat.le_trans hcomm.length_le hconn
    -- A socket that there is not is kept for no server.
    have hnone : ∀ commands : List Command,
        commands.flatMap (inst.ws.manager.handed conn) = [] := by
      intro commands
      refine List.flatMap_eq_nil_iff.mpr fun c _ => if_neg fun hentry => ?_
      obtain ⟨phase, hphase⟩ := hs.owning inst hmem c.serverID conn hentry
      rw [List.getElem?_eq_none hlen] at hphase
      cases hphase
    rw [hcomm.eventsTo_eq hs.exchanging hi conn, hs.unsent inst hmem conn hlen, hnone]
    rfl

theorem commanding_start (n : Nat) : (start n).Commanding := by
  refine ⟨exchanging_start n, fun inst hinst => ?_, fun inst hinst conn _ => ?_⟩
  · intro id conn hentry
    rw [List.eq_of_mem_replicate hinst] at hentry
    simp [WsState.registry] at hentry
  · rw [List.eq_of_mem_replicate hinst]
    rfl

/-- A socket's server is the only one that it can be kept for. -/
theorem Commanding.only (hs : s.Commanding) {inst : Instance} (hi : s.instances[i]? = some inst)
    {conn : ConnId} {socket : Socket} (hsock : inst.ws.sockets[conn]? = some socket) {id : String}
    (h : (inst.ws.manager.ownedServers[id]?).map OwnedServer.conn = some conn) :
    id = socket.id ∧ socket.kind = .server := by
  obtain ⟨phase, hphase⟩ := hs.owning inst (List.mem_of_getElem? hi) id conn h
  cases hphase.symm.trans hsock
  exact ⟨rfl, rfl⟩

/-- What an instance has taken of the commands in a run and what it has yet to take is what
it had yet to take and what has been issued. -/
theorem commandsTaken_conserved {as : List ApiAction} (hs : s.Exchanging)
    (hi : i < s.instances.length) (hstore : ∀ a ∈ as, a.FromStore)
    (hrun : exec ApiState.step s as = some s') :
    (moves ApiState.step s as).flatMap (commandsTaken i) ++ (queueOf i s').flatMap commandsOfBody =
      (queueOf i s).flatMap commandsOfBody ++ (moves ApiState.step s as).flatMap commandsIssued := by
  refine exec_queue (fun x => x.Exchanging ∧ i < x.instances.length) ApiAction.FromStore
    (fun x => (queueOf i x).flatMap commandsOfBody) (commandsTaken i) commandsIssued ?_ ⟨hs, hi⟩
    hstore hrun
  intro x b y hx hb hxy
  have heff := step_effect hxy
  refine ⟨⟨hx.1.step hb hxy, heff.length_eq.symm ▸ hx.2⟩, ?_⟩
  rw [commandsTaken, ← List.flatMap_append, heff.queue hx.2, List.flatMap_append,
    commandsOf_bodies hx.1 hb hxy]

/-- In every run, a socket is written commands for its own server, none twice and in the order
in which they have been published; and a client's socket is written none. -/
theorem commands_in_order {n : Nat} {as : List ApiAction} {s : ApiState}
    (hrun : exec ApiState.step (start n) as = some s) (hstore : ∀ a ∈ as, a.FromStore)
    {i : Nat} {inst : Instance} (hi : s.instances[i]? = some inst) {conn : ConnId} {socket : Socket}
    (hsock : inst.ws.sockets[conn]? = some socket) :
    (eventsTo conn inst.ws.sent).Sublist
        (commandsFor socket.id ((moves ApiState.step (start n) as).flatMap commandsIssued)) ∧
      (socket.kind ≠ .server → eventsTo conn inst.ws.sent = []) := by
  have hwritten := exec_moves_of_forall (fun hist x => x.Commanding ∧
    ∀ (j : Nat) (inst : Instance), x.instances[j]? = some inst → ∀ (conn : ConnId) (socket : Socket),
      inst.ws.sockets[conn]? = some socket →
        (eventsTo conn inst.ws.sent).Sublist
            (commandsFor socket.id (hist.flatMap (commandsTaken j))) ∧
          (socket.kind ≠ .server → eventsTo conn inst.ws.sent = []))
    ApiAction.FromStore ?_ ⟨commanding_start n, ?_⟩ hstore hrun
  · obtain ⟨horder, hclient⟩ := hwritten.2 i inst hi conn socket hsock
    refine ⟨horder.trans ?_, hclient⟩
    have hlt : i < (start n).instances.length := by
      have hlen : s.instances.length = (start n).instances.length :=
        exec_rule (fun x => x.instances.length = (start n).instances.length)
          (fun hx hxy => (step_effect hxy).length_eq.trans hx) rfl hrun
      exact hlen ▸ (List.getElem?_eq_some_iff.mp hi).1
    have hconserved := commandsTaken_conserved (exchanging_start n) hlt hstore hrun
    have hempty : (queueOf i (start n)).flatMap commandsOfBody = [] := by
      rw [queueOf, List.getElem?_eq_getElem hlt, Option.elim,
        List.eq_of_mem_replicate (List.getElem_mem hlt)]
      rfl
    rw [hempty, List.nil_append] at hconserved
    rw [← hconserved, commandsFor_append]
    exact List.sublist_append_left _ _
  · intro hist x b y hprior hb hxy
    obtain ⟨hx, hsofar⟩ := hprior
    refine ⟨hx.step hb hxy, fun j inst' hj' conn socket hsock => ?_⟩
    have heff := step_effect hxy
    have hlt : j < x.instances.length := heff.length_eq ▸ (List.getElem?_eq_some_iff.mp hj').1
    obtain ⟨inst, hj⟩ : ∃ inst, x.instances[j]? = some inst := ⟨_, List.getElem?_eq_getElem hlt⟩
    obtain ⟨inst'', hj'', hcomm⟩ := heff.commanded hj
    cases hj''.symm.trans hj'
    rw [List.flatMap_append, List.flatMap_singleton, commandsFor_append]
    rcases hcomm.sockets hsock with ⟨phase, hold⟩ | hnew
    · -- The socket was there, and gets what the step brings, or nothing.
      obtain ⟨horder, hclient⟩ := hsofar j inst hj conn _ hold
      have honly : ∀ id : String,
          (inst.ws.manager.ownedServers[id]?).map OwnedServer.conn = some conn → id = socket.id :=
        fun id h => (hx.only hj hold h).1
      rw [hcomm.eventsTo_eq hx.exchanging hj conn, flatMap_handed honly]
      split
      · next hown =>
          refine ⟨horder.append (List.Sublist.refl _), fun hkind => ?_⟩
          exact absurd (hx.only hj hold hown).2 hkind
      · rw [List.append_nil]
        exact ⟨horder.trans (List.sublist_append_left _ _), hclient⟩
    · have hnone : eventsTo conn inst'.ws.sent = [] := by
        have hmem := List.mem_of_getElem? hj
        have hfree : ∀ id : String,
            (inst.ws.manager.ownedServers[id]?).map OwnedServer.conn = some conn → id = "" := by
          intro id h
          obtain ⟨phase, hphase⟩ := hx.owning inst hmem id conn h
          rw [List.getElem?_eq_none hnew] at hphase
          cases hphase
        rw [hcomm.eventsTo_eq hx.exchanging hj conn, hx.unsent inst hmem conn hnew,
          List.nil_append, flatMap_handed hfree]
        refine if_neg fun h => ?_
        obtain ⟨phase, hphase⟩ := hx.owning inst hmem _ conn h
        rw [List.getElem?_eq_none hnew] at hphase
        cases hphase
      rw [hnone]
      exact ⟨List.nil_sublist _, fun _ => rfl⟩
  · intro j inst hj conn socket hsock
    rw [List.eq_of_mem_replicate (List.mem_of_getElem? hj)] at hsock
    cases hsock

/-- Two users are kicked from `00` and a third one from both; `01` gets a command, between whose
messages the first one is kicked. The first instance has yet to take the last kicks. -/
def commandRun : List ApiAction :=
  [.call (.kickPlayer "00" "7" "r"),
    .call (.runCommand {
      id := "01", command := "Shuffle", user := hostUser,
      server := some (some otherServer), host := some (some hostUser) }),
    .publishNext 1, .receive 0, .publishNext 0, .publishNext 1,
    .call (.kickPlayer "00" "8" "r"), .call (.kickUserGlobally ["01", "00"] "9"), .publishNext 2,
    .receive 0, .receive 1, .publishNext 3, .receive 0, .publishNext 3, .receive 0] ++
  List.replicate 5 (.receive 1)

theorem commandRun_fromStore : ∀ a ∈ connectRun ++ commandRun, a.FromStore := by
  have hzero : HexToken "00" := ⟨[0], by decide⟩
  have hone : HexToken "01" := ⟨[1], by decide⟩
  simp [connectRun, commandRun, serverConnects, ApiAction.FromStore, Found, hostedServer, otherServer,
    hzero, hone]

theorem commandRun_in_order :
    ∃ s inst inst', exec ApiState.step (start 2) (connectRun ++ commandRun) = some s ∧
      s.instances[0]? = some inst ∧ s.instances[1]? = some inst' ∧
      eventsTo 0 inst.ws.sent = [.serverKick "7" "r", .serverKick "8" "r"] ∧
      (eventsTo 0 inst.ws.sent).Sublist (commandsFor "00"
        ((moves ApiState.step (start 2) (connectRun ++ commandRun)).flatMap commandsIssued)) ∧
      eventsTo 0 inst'.ws.sent =
        [.serverRunCommand "Shuffle", .serverKick "9" "You have been kicked from the server"] ∧
      (eventsTo 0 inst'.ws.sent).Sublist (commandsFor "01"
        ((moves ApiState.step (start 2) (connectRun ++ commandRun)).flatMap commandsIssued)) := by
  have hrun : ∃ s ∈ exec ApiState.step (start 2) (connectRun ++ commandRun),
      (∃ inst ∈ s.instances[0]?, inst.ws.sockets[0]? = some ⟨"00", .server, .reading⟩ ∧
        eventsTo 0 inst.ws.sent = [.serverKick "7" "r", .serverKick "8" "r"]) ∧
      ∃ inst ∈ s.instances[1]?, inst.ws.sockets[0]? = some ⟨"01", .server, .reading⟩ ∧
        eventsTo 0 inst.ws.sent = [.serverRunCommand "Shuffle",
          .serverKick "9" "You have been kicked from the server"] := by decide
  obtain ⟨s, hs, ⟨inst, hi, hsock, hsent⟩, inst', hi', hsock', hsent'⟩ := hrun
  exact ⟨s, inst, inst', hs, hi, hi', hsent,
    (commands_in_order hs commandRun_fromStore hi hsock).1, hsent',
    (commands_in_order hs commandRun_fromStore hi' hsock').1⟩

/-! ### A server that stays connected -/

/-- Instance `i` has this socket for the server. -/
def Owns (s : ApiState) (i : Nat) (id : String) (conn : ConnId) : Prop :=
  ∃ inst, s.instances[i]? = some inst ∧
    (inst.ws.manager.ownedServers[id]?).map OwnedServer.conn = some conn

/-- What instance `i` has written to a socket. -/
def sentTo (s : ApiState) (i : Nat) (conn : ConnId) : List ServerAPIEvent :=
  (s.instances[i]?).elim [] fun inst => eventsTo conn inst.ws.sent

/-- The commands for a server that instance `i` has yet to take. -/
def waitingFor (s : ApiState) (i : Nat) (id : String) : List ServerAPIEvent :=
  commandsFor id ((queueOf i s).flatMap commandsOfBody)

/-- In a run that is under way, and in all of whose steps the instance has the socket for the
server, the socket gets the commands for the server, each of them once and in the order in
which they are published, but for those that the instance has yet to take in the end. -/
theorem commands_conserved {n : Nat} {before after : List ApiAction} {s s' : ApiState}
    (hbefore : exec ApiState.step (start n) before = some s)
    (hafter : exec ApiState.step s after = some s') (hstore : ∀ a ∈ before ++ after, a.FromStore)
    {i : Nat} {id : String} {conn : ConnId}
    (hown : ∀ mv ∈ moves ApiState.step s after, mv.1.Owns i id conn) :
    s'.sentTo i conn ++ s'.waitingFor i id = s.sentTo i conn ++ s.waitingFor i id ++
      commandsFor id ((moves ApiState.step s after).flatMap commandsIssued) := by
  have hs : s.Commanding :=
    exec_moves_of_forall (fun _ x => x.Commanding) ApiAction.FromStore
      (fun hx ha hxy => hx.step ha hxy) (commanding_start n)
      (fun a ha => hstore a (List.mem_append_left _ ha)) hbefore
  have hrest : ∀ a ∈ after, a.FromStore := fun a ha => hstore a (List.mem_append_right _ ha)
  have hsent := exec_moves_of_forall_moves (fun hist x => x.Commanding ∧
    x.sentTo i conn = s.sentTo i conn ++ commandsFor id (hist.flatMap (commandsTaken i)))
    (fun x a => x.Owns i id conn ∧ a.FromStore) ?_ ⟨hs, by simp [commandsFor]⟩
    (fun mv hmv => ⟨hown mv hmv, hrest _ (mem_of_mem_moves hmv)⟩) hafter
  · cases after with
    | nil =>
        cases hafter
        simp [moves, commandsFor]
    | cons a after =>
        have hlt : i < s.instances.length := by
          obtain ⟨t, ht, -⟩ := Option.bind_eq_some_iff.mp hafter
          obtain ⟨inst, hi, -⟩ := hown (s, a) (by rw [moves, ht]; exact List.mem_cons_self)
          exact (List.getElem?_eq_some_iff.mp hi).1
        have hconserved := commandsTaken_conserved hs.exchanging hlt hrest hafter
        rw [hsent.2, List.append_assoc, waitingFor, ← commandsFor_append, hconserved,
          commandsFor_append, List.append_assoc, waitingFor]
  · intro hist x b y hprior hkept hxy
    obtain ⟨hx, hsofar⟩ := hprior
    obtain ⟨⟨inst, hi, hentry⟩, hb⟩ := hkept
    refine ⟨hx.step hb hxy, ?_⟩
    obtain ⟨inst', hi', hcomm⟩ := (step_effect hxy).commanded hi
    have honly : ∀ id' : String,
        (inst.ws.manager.ownedServers[id']?).map OwnedServer.conn = some conn → id' = id := by
      intro id' hentry'
      obtain ⟨phase, hphase⟩ := hx.owning inst (List.mem_of_getElem? hi) id conn hentry
      obtain ⟨phase', hphase'⟩ := hx.owning inst (List.mem_of_getElem? hi) id' conn hentry'
      cases hphase.symm.trans hphase'
      rfl
    have hstep := hcomm.eventsTo_eq hx.exchanging hi conn
    rw [flatMap_handed honly, if_pos hentry] at hstep
    rw [sentTo, hi, Option.elim] at hsofar
    rw [sentTo, hi', Option.elim, hstep, hsofar, List.flatMap_append, List.flatMap_singleton,
      commandsFor_append, List.append_assoc]

/-- The commands from the moment when the servers are connected. -/
theorem commandRun_conserved :
    ∃ s s', exec ApiState.step (start 2) connectRun = some s ∧
      exec ApiState.step s commandRun = some s' ∧
      s'.sentTo 0 0 = [.serverKick "7" "r", .serverKick "8" "r"] ∧
      s'.waitingFor 0 "00" = [.serverKick "9" "You have been kicked from the server"] ∧
      s'.sentTo 0 0 ++ s'.waitingFor 0 "00" = s.sentTo 0 0 ++ s.waitingFor 0 "00" ++
        commandsFor "00" ((moves ApiState.step s commandRun).flatMap commandsIssued) := by
  have hrun : ∃ s ∈ exec ApiState.step (start 2) connectRun,
      ∃ s' ∈ exec ApiState.step s commandRun,
        (∀ mv ∈ moves ApiState.step s commandRun, ∃ inst ∈ mv.1.instances[0]?,
          (inst.ws.manager.ownedServers["00"]?).map OwnedServer.conn = some 0) ∧
        s'.sentTo 0 0 = [.serverKick "7" "r", .serverKick "8" "r"] ∧
        s'.waitingFor 0 "00" = [.serverKick "9" "You have been kicked from the server"] := by
    decide
  obtain ⟨s, hs, s', hs', howns, hsent, hwaiting⟩ := hrun
  exact ⟨s, s', hs, hs', hsent, hwaiting,
    commands_conserved hs hs' commandRun_fromStore fun mv hmv => howns mv hmv⟩

end ApiState

end Kyber.Api
