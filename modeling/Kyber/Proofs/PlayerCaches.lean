import Mathlib.Data.List.ReduceOption
import Kyber.Proofs.Exchange

/-!
# What the instances know of the players

A game server sends its list of players to one instance, which announces it to all of them,
and each keeps the list that it has got last. The instance that has the server's socket also
announces the list that it has with it when a client of the server connects somewhere.

What an instance knows is thus what has been announced, as far as the instance has come
(`caches_follow`). Two that have come to the end know the same, and let the same clients in
(`caches_agree`).
-/

namespace Kyber.Api

open Kyber.Lib Json ServerManager

/-! ## Lists of players -/

/-- The list of players of a server. -/
abbrev PlayerList := String × List ServerPlayer

def listOf (msg : APIManagementMessage) : List PlayerList :=
  match msg.request, msg.status with
  | none, some status =>
      match status.consoleMessage, status.players with
      | none, some slice => [(msg.serverID, (slice.getD []).map serverPlayer)]
      | _, _ => []
  | _, _ => []

def listsOfBody (body : Option Json) : List PlayerList := (messagesOf body).flatMap listOf

/-- The list that was announced last for a server. -/
def lastList (id : String) (lists : List PlayerList) : Option (List ServerPlayer) :=
  (lists.reverse.find? (·.1 == id)).map Prod.snd

/-- Later lists replace earlier ones. -/
theorem getElem?_keep (id : String) (lists : List PlayerList)
    (cache : Std.TreeMap String (List ServerPlayer)) :
    (lists.foldl (fun cache list => cache.insert list.1 list.2) cache)[id]? =
      (lastList id lists).or cache[id]? := by
  induction lists generalizing cache with
  | nil => rfl
  | cons list lists ih =>
      rw [List.foldl_cons, ih, getElem?_insert_eq]
      simp only [lastList, List.reverse_cons, List.find?_append]
      cases lists.reverse.find? (·.1 == id) with
      | some found => rfl
      | none =>
          by_cases hid : id = list.1
          · simp [hid]
          · simp [hid, Ne.symm hid]

/-- The answer of an instance to a request of players. -/
def ServerManager.answered (m : ServerManager) (msg : APIManagementMessage) : List PlayerList :=
  match msg.request with
  | none => []
  | some request =>
      if request.runCommand = "" ∧ request.kickPlayer = none ∧ request.playerList = true then
        (m.ownedServers[msg.serverID]?).toList.map fun srv =>
          (msg.serverID, srv.players.reduceOption)
      else []

/-- The lists that are announced in a step: by a game server, without the players that are
taken out, or in an answer. -/
def listsAnnounced (mv : ApiState × ApiAction) : List PlayerList :=
  match mv.2 with
  | .socket i (.serverEvent conn (.players players) true) =>
      match (mv.1.instances[i]?).bind (·.ws.sockets[conn]?), sanitizePlayers players with
      | some socket, .ok kept =>
          [(socket.id, kept.map fun p => p.getD { id := "", name := "", teamId := 0 })]
      | _, _ => []
  | .receive i =>
      match mv.1.instances[i]? with
      | some ⟨ws, body :: _⟩ => (messagesOf body).flatMap ws.manager.answered
      | _ => []
  | _ => []

/-! ## What is announced -/

theorem listOf_of_request {msg : APIManagementMessage} {request : ServerRequestMessage}
    (h : msg.request = some request) : listOf msg = [] := by
  simp only [listOf, h]

theorem listOf_newStatusPlayerList (server : String) (players : List ServerPlayer) :
    listOf ⟨server, some (newStatusPlayerList (some (players.map playerModel))), none⟩ =
      [(server, players)] := by
  have hsame : serverPlayer ∘ playerModel = id := rfl
  simp only [listOf, newStatusPlayerList, Option.getD_some, List.map_map, hsame, List.map_id]

/-- A list that is published is announced. -/
theorem lists_publishWS {server : String} (hid : Plain server) (players : List ServerPlayer) :
    (published (publishWS ⟨server, some (newStatusPlayerList (some (players.map playerModel))),
      none⟩ server)).flatMap listsOfBody = [(server, players)] := by
  have htrips := (message_roundTrips_iff server
    (.statusPlayerList (some (players.map playerModel)))).mpr ⟨hid, rfl⟩
  rw [Payload.message] at htrips
  rw [published_publishWS_eq htrips, List.flatMap_singleton, listsOfBody,
    messagesOf_of_roundTrips htrips, List.flatMap_singleton, listOf_newStatusPlayerList]

namespace ServerManager

variable {m m' : ServerManager} {body : Option Json} {msg : APIManagementMessage}
  {out : List Output} {server : String}

theorem reduceOption_of_mapM_deref {players : List (Option ServerPlayer)}
    {kept : List ServerPlayer} (h : players.mapM deref = .ok kept) :
    players.reduceOption = kept := by
  induction players generalizing kept with
  | nil =>
      cases h
      rfl
  | cons p players ih =>
      cases p with
      | none => cases h
      | some p =>
          rw [List.mapM_cons] at h
          simp only [deref, bind, Except.bind, pure, Except.pure] at h
          split at h
          · cases h
          · next rest hrest =>
              cases h
              rw [List.reduceOption_cons_of_some, ih hrest]

theorem lists_answerPlayerList (hid : Plain server) (h : m.answerPlayerList server = .ok out) :
    (Api.published out).flatMap listsOfBody =
      (m.ownedServers[server]?).toList.map fun srv => (server, srv.players.reduceOption) := by
  rw [answerPlayerList] at h
  split at h
  · next hnone =>
      cases h
      rw [hnone]
      rfl
  · next srv hsrv =>
      simp only [bind, Except.bind, pure, Except.pure] at h
      split at h
      · cases h
      · next players hplayers =>
          cases h
          have htrips := (message_roundTrips_iff server
            (.statusPlayerList (some (players.map playerModel)))).mpr ⟨hid, rfl⟩
          have hread := messagesOf_of_roundTrips htrips
          rw [hsrv, Option.toList_some, List.map_singleton, reduceOption_of_mapM_deref hplayers,
            ← listOf_newStatusPlayerList]
          show (messagesOf _).flatMap listOf ++ [] = _
          rw [List.append_nil]
          exact (congrArg (List.flatMap listOf) hread).trans (List.flatMap_singleton ..)

/-- A delivery announces what it is answered with, and is kept if it is a list itself. -/
theorem lists_deliver (hmsg : messagesOf body = [msg]) (hid : Plain msg.serverID)
    (h : m.deliver (delivery body) = .ok (m', out)) :
    (Api.published out).flatMap listsOfBody = m.answered msg ∧
      m'.playerCache =
        (listOf msg).foldl (fun cache list => cache.insert list.1 list.2) m.playerCache := by
  cases hreq : msg.request with
  | none =>
      obtain ⟨status, hstatus, hout⟩ := deliver_status hmsg hreq h
      rw [handleStatus] at hout
      simp only [answered, hreq, listOf, hstatus]
      split at hout
      · next console hconsole =>
          cases hout
          simp only [hconsole, published_processClientEvent]
          exact ⟨rfl, rfl⟩
      · next hconsole =>
          split at hout
          · next hplayers =>
              cases hout
              simp only [hconsole, hplayers]
              exact ⟨rfl, rfl⟩
          · next slice hplayers =>
              cases hout
              simp only [hconsole, hplayers, published_processClientEvent]
              exact ⟨rfl, rfl⟩
  | some request =>
      obtain ⟨rfl, hout⟩ := deliver_request hmsg hreq h
      have hserver : ∀ evt, Api.published (m'.processServerEvent msg.serverID evt) = [] := by
        intro evt
        rw [processServerEvent]
        split <;> rfl
      refine ⟨?_, by rw [listOf_of_request hreq, List.foldl_nil]⟩
      rw [handleRequest] at hout
      simp only [answered, hreq]
      split at hout
      · next hrun =>
          cases hout
          rw [hserver, if_neg fun hlist => hrun hlist.1]
          rfl
      · next hrun =>
          split at hout
          · next kick hkick =>
              cases hout
              rw [hserver, if_neg (by simp [hkick])]
              rfl
          · next hkick =>
              split at hout
              · next hlist =>
                  rw [lists_answerPlayerList hid hout, if_pos ⟨not_not.mp hrun, hkick, hlist⟩]
              · next hlist =>
                  cases hout
                  rw [if_neg fun h => hlist h.2.2]
                  rfl

end ServerManager

/-! ## A step -/

namespace WsState

variable {s s' : WsState} {a : WsAction}

/-- A step at the sockets leaves what the instance knows of players alone. -/
theorem Effect.playerCache_eq (h : Effect s a s') :
    s'.manager.playerCache = s.manager.playerCache := by
  cases h with
  | refuse a h => rfl
  | server r h => rfl
  | client r isModerator h => rfl
  | event conn evt stored id result hsock h =>
      cases evt with
      | console message isPublic =>
          rw [processServerSocketEvent] at h
          split at h
          · cases h
            rfl
          · cases h
            rfl
      | players players =>
          simp only [processServerSocketEvent, bind, Except.bind, pure, Except.pure] at h
          split at h
          · cases h
          · cases h
            show (s.manager.setPlayers id _).playerCache = _
            rw [setPlayers]
            split <;> rfl
      | keepAlive =>
          cases h
          rfl
  | stop conn deadlineFails phase hphase => rfl
  | clean conn socket hsock =>
      show (cleanUp s.manager socket).playerCache = _
      rw [cleanUp]
      split
      · rfl
      · rw [disownClient]
        split <;> rfl

end WsState

/-- What calls publish are no lists of players. -/
theorem Call.lists {c : Call} {msg : APIManagementMessage} (h : msg ∈ c.messages) :
    listOf msg = [] := by
  cases c with
  | runCommand r =>
      rw [messages] at h
      split at h
      · cases h
      · rcases List.mem_cons.mp h with rfl | h
        · rfl
        · rw [List.mem_singleton.mp h]
          rfl
  | kickPlayer serverID userID reason =>
      rw [List.mem_singleton.mp h]
      rfl
  | kickUserGlobally serverIDs userID =>
      obtain ⟨id, -, rfl⟩ := List.mem_map.mp h
      rfl
  | cleanupStaleServers serverIDs =>
      obtain ⟨id, -, rfl⟩ := List.mem_map.mp h
      rfl

namespace ApiState

variable {s s' : ApiState} {a : ApiAction} {i : Nat}

structure Following (s : ApiState) : Prop where
  exchanging : s.Exchanging
  calls : ∀ call ∈ s.calls, ∀ msg ∈ call, listOf msg = []

theorem following_start (n : Nat) : (start n).Following :=
  ⟨exchanging_start n, fun _ hcall => absurd hcall List.not_mem_nil⟩

theorem Following.step (hs : s.Following) (ha : a.FromStore) (h : s.step a = some s') :
    s'.Following := by
  refine ⟨hs.exchanging.step ha h, ?_⟩
  cases step_effect h with
  | socket | receive => exact hs.calls
  | call c =>
      intro call hcall
      rcases List.mem_append.mp hcall with hcall | hcall
      · exact hs.calls call hcall
      · rw [List.mem_singleton.mp hcall]
        exact fun msg hmsg => Call.lists hmsg
  | publishNext k msg rest hk =>
      intro call hcall
      rcases List.mem_or_eq_of_mem_set hcall with hcall | rfl
      · exact hs.calls call hcall
      · exact fun msg' hmsg' => hs.calls _ (List.mem_of_getElem? hk) msg'
          (List.mem_cons_of_mem _ hmsg')

theorem lists_publishWS_of_nil {msg : APIManagementMessage} (h : msg.RoundTrips)
    (hnone : listOf msg = []) (key : String) :
    (published (publishWS msg key)).flatMap listsOfBody = [] := by
  rw [published_publishWS_eq h, List.flatMap_singleton, listsOfBody, messagesOf_of_roundTrips h,
    List.flatMap_singleton, hnone]

/-- The lists that a game server's event makes an instance publish. -/
theorem lists_event {m : ServerManager} {server : String} {stored : Bool} {evt : ManagementEvent}
    {result : ServerManager × List Output} (hid : Plain server) {conn : ConnId}
    (hi : (s.instances[i]?).bind (·.ws.sockets[conn]?) = some ⟨server, .server, .reading⟩)
    (h : m.processServerSocketEvent server stored evt = .ok result) :
    (published result.2).flatMap listsOfBody =
      listsAnnounced (s, .socket i (.serverEvent conn evt stored)) := by
  cases evt with
  | console message isPublic =>
      rw [processServerSocketEvent] at h
      split at h
      · cases h
        rfl
      · cases h
        have htrips := (message_roundTrips_iff server (.statusConsole
          (some { message, isPublic := isPublic.getD true }))).mpr ⟨hid, rfl⟩
        exact lists_publishWS_of_nil htrips rfl server
  | players players =>
      simp only [processServerSocketEvent, bind, Except.bind, pure, Except.pure] at h
      split at h
      · cases h
      · next kept hkept =>
          cases h
          cases stored with
          | false => rfl
          | true =>
              have hlists := lists_publishWS hid
                (kept.map fun p => p.getD { id := "", name := "", teamId := 0 })
              rw [List.map_map] at hlists
              simp only [listsAnnounced, hi, hkept, if_true]
              exact hlists
  | keepAlive =>
      cases h
      rfl

/-- The lists that a step at the sockets publishes. -/
theorem lists_socket {ws : WsState} {b : WsAction} {inst : Instance}
    (heff : WsState.Effect inst.ws b ws) (hws : inst.ws.Sound)
    (hb : (ApiAction.socket i b).FromStore) (hi : s.instances[i]? = some inst) :
    (published (ws.sent.drop inst.ws.sent.length)).flatMap listsOfBody =
      listsAnnounced (s, .socket i b) := by
  have hnone : (published (inst.ws.sent.drop inst.ws.sent.length)).flatMap listsOfBody = [] := by
    rw [List.drop_length]
    rfl
  cases heff with
  | refuse a h =>
      rw [hnone]
      cases b with
      | serverEvent conn evt stored => exact absurd rfl (h conn evt stored)
      | _ => rfl
  | server r h =>
      have hclosed : published (inst.ws.manager.ownServer r.id inst.ws.sockets.length).2 = [] := by
        cases ho : inst.ws.manager.ownedServers[r.id]? <;> simp [ownServer, ho, published]
      show (published ((inst.ws.sent ++ _).drop inst.ws.sent.length)).flatMap listsOfBody = _
      rw [List.drop_left, hclosed]
      rfl
  | client r isModerator h =>
      have hplain := (WsState.Opened.client r isModerator h).plain hb
      have htrips := (message_roundTrips_iff r.id .reqPlayerList).mpr ⟨hplain, trivial⟩
      show (published ((inst.ws.sent ++ _).drop inst.ws.sent.length)).flatMap listsOfBody = _
      rw [List.drop_left]
      exact lists_publishWS_of_nil htrips rfl r.id
  | event conn evt stored id result hsock h =>
      show (published ((inst.ws.sent ++ result.2).drop inst.ws.sent.length)).flatMap listsOfBody = _
      rw [List.drop_left]
      exact lists_event (hws.plain _ (List.mem_of_getElem? hsock)) (by rw [hi]; exact hsock) h
  | stop conn deadlineFails phase hphase => exact hnone
  | clean conn socket hsock => exact hnone

/-- What is published in a step, and what is announced, are the same lists. -/
theorem lists_bodies (hs : s.Following) (ha : a.FromStore) (h : s.step a = some s') :
    (bodies (s, a)).flatMap listsOfBody = listsAnnounced (s, a) := by
  cases step_effect h with
  | socket i b inst ws hd hi hws =>
      have hlists := lists_socket (WsState.step_effect hws hd)
        (hs.exchanging.sound.sockets inst (List.mem_of_getElem? hi)) ha hi
      simpa only [bodies, hi, hws, Option.bind_some, Option.map_some, Option.getD_some] using hlists
  | receive i ws body rest result hi hdeliver =>
      obtain ⟨msg, hmsg, hid⟩ := hs.exchanging.readable i body (by simp [queueOf, hi])
      have hlists := (lists_deliver hmsg hid hdeliver).1
      simpa only [bodies, hi, hdeliver, Except.toOption, Option.map_some, Option.getD_some,
        listsAnnounced, hmsg, List.flatMap_singleton] using hlists
  | call c => rfl
  | publishNext k msg rest hk =>
      obtain ⟨hbodies, htrips⟩ := bodies_publishNext hs.exchanging.sound hk
      have hnone := hs.calls _ (List.mem_of_getElem? hk) msg List.mem_cons_self
      rw [hbodies, List.flatMap_singleton, listsOfBody, messagesOf_of_roundTrips htrips,
        List.flatMap_singleton, hnone]
      rfl

/-! ## Runs -/

/-- The lists that instance `i` takes from its queue in a step. -/
def listsTaken (i : Nat) (mv : ApiState × ApiAction) : List PlayerList :=
  (taken i mv).flatMap listsOfBody

/-- What an instance knows after a step. -/
theorem Effect.playerCache (h : Effect s a s') (hs : s.Exchanging) {inst : Instance}
    (hi : s.instances[i]? = some inst) :
    ∃ inst', s'.instances[i]? = some inst' ∧ inst'.ws.manager.playerCache =
      (listsTaken i (s, a)).foldl (fun cache list => cache.insert list.1 list.2)
        inst.ws.manager.playerCache := by
  cases h with
  | socket j b acting ws hd hj hws =>
      rw [getElem?_set_publish s _ _ hi]
      by_cases hij : j = i
      · subst hij
        cases hj.symm.trans hi
        rw [if_pos rfl]
        exact ⟨_, rfl, (WsState.step_effect hws hd).playerCache_eq⟩
      · rw [if_neg hij]
        exact ⟨_, rfl, rfl⟩
  | receive j ws body rest result hj hdeliver =>
      rw [getElem?_set_publish s _ _ hi]
      by_cases hij : j = i
      · subst hij
        cases hj.symm.trans hi
        obtain ⟨msg, hmsg, hid⟩ := hs.readable j body (by simp [queueOf, hj])
        rw [if_pos rfl]
        refine ⟨_, rfl, ?_⟩
        have htaken : listsTaken j (s, .receive j) = listOf msg := by
          simp [listsTaken, taken, hi, listsOfBody, hmsg]
        rw [htaken]
        exact (lists_deliver hmsg hid hdeliver).2
      · rw [if_neg hij]
        refine ⟨_, rfl, ?_⟩
        simp [listsTaken, taken, hij]
  | call c => exact ⟨inst, hi, rfl⟩
  | publishNext k msg rest hk =>
      rw [getElem?_publish, hi]
      exact ⟨_, rfl, rfl⟩

theorem lastList_append (server : String) (l₁ l₂ : List PlayerList) :
    lastList server (l₁ ++ l₂) = (lastList server l₂).or (lastList server l₁) := by
  rw [lastList, List.reverse_append, List.find?_append]
  cases h : l₂.reverse.find? (·.1 == server) <;> simp [lastList, h]

/-- What an instance knows of a server's players is the last list of those that it has
taken, and it has taken what has been announced but for what is in its queue. -/
theorem caches_follow {n : Nat} {as : List ApiAction}
    (hrun : exec ApiState.step (start n) as = some s) (hstore : ∀ a ∈ as, a.FromStore)
    {inst : Instance} (hi : s.instances[i]? = some inst) :
    ∃ lists, lists ++ inst.queue.flatMap listsOfBody =
        (moves ApiState.step (start n) as).flatMap listsAnnounced ∧
      ∀ server : String, inst.ws.manager.playerCache[server]? = lastList server lists := by
  have hlen : s.instances.length = (start n).instances.length :=
    exec_rule (fun x => x.instances.length = (start n).instances.length)
      (fun hx hxy => (step_effect hxy).length_eq.trans hx) rfl hrun
  have hlt : i < (start n).instances.length := hlen ▸ (List.getElem?_eq_some_iff.mp hi).1
  have hfirst : ∀ inst, (start n).instances[i]? = some inst → inst = {} := fun inst h =>
    List.eq_of_mem_replicate (List.mem_of_getElem? h)
  refine ⟨(moves ApiState.step (start n) as).flatMap (listsTaken i), ?_, ?_⟩
  · have hqueue := exec_queue (fun x => x.Following ∧ i < x.instances.length) ApiAction.FromStore
      (fun x => (queueOf i x).flatMap listsOfBody) (listsTaken i) listsAnnounced ?_
      ⟨following_start n, hlt⟩ hstore hrun
    · have hempty : queueOf i (start n) = [] := by
        rw [queueOf, List.getElem?_eq_getElem hlt, Option.elim,
          hfirst _ (List.getElem?_eq_getElem hlt)]
      rw [hempty, List.flatMap_nil, List.nil_append, queueOf, hi] at hqueue
      exact hqueue
    · intro x b y hx hb hxy
      have heff := step_effect hxy
      refine ⟨⟨hx.1.step hb hxy, heff.length_eq.symm ▸ hx.2⟩, ?_⟩
      rw [listsTaken, ← List.flatMap_append, heff.queue hx.2, List.flatMap_append,
        lists_bodies hx.1 hb hxy]
  · have hknown := exec_moves_of_forall (fun hist x => x.Exchanging ∧ ∃ inst,
      x.instances[i]? = some inst ∧ ∀ server : String, inst.ws.manager.playerCache[server]? =
        lastList server (hist.flatMap (listsTaken i)))
      ApiAction.FromStore ?_ ⟨exchanging_start n, ?_⟩ hstore hrun
    · obtain ⟨-, inst', hi', hknown⟩ := hknown
      cases hi'.symm.trans hi
      exact hknown
    · intro hist x b y hprior hb hxy
      obtain ⟨hx, inst, hi, hsofar⟩ := hprior
      obtain ⟨inst', hi', hcache⟩ := (step_effect hxy).playerCache hx hi
      refine ⟨hx.step hb hxy, inst', hi', fun server => ?_⟩
      rw [hcache, getElem?_keep, hsofar, List.flatMap_append, List.flatMap_singleton,
        lastList_append]
    · refine ⟨_, List.getElem?_eq_getElem hlt, fun server => ?_⟩
      rw [hfirst _ (List.getElem?_eq_getElem hlt)]
      exact Std.TreeMap.getElem?_emptyc

/-- An instance lets a client in or not by what it knows of the players of the server. -/
theorem authorizeClient_congr {m m' : ServerManager}
    (h : ∀ server : String, m.playerCache[server]? = m'.playerCache[server]?)
    (r : ClientWSRequest) : m.authorizeClient r = m'.authorizeClient r := by
  rw [authorizeClient, authorizeClient, h r.id]

/-- Two instances that have taken all lists know the same players, the ones that have been
announced last, and let the same clients in, in the same roles. -/
theorem caches_agree {n : Nat} {as : List ApiAction}
    (hrun : exec ApiState.step (start n) as = some s) (hstore : ∀ a ∈ as, a.FromStore)
    {j : Nat} {inst inst' : Instance} (hi : s.instances[i]? = some inst)
    (hj : s.instances[j]? = some inst') (hqueue : inst.queue.flatMap listsOfBody = [])
    (hqueue' : inst'.queue.flatMap listsOfBody = []) :
    (∀ server : String, inst.ws.manager.playerCache[server]? =
        lastList server ((moves ApiState.step (start n) as).flatMap listsAnnounced)) ∧
      ∀ r, inst.ws.manager.authorizeClient r = inst'.ws.manager.authorizeClient r := by
  obtain ⟨lists, hlists, hknown⟩ := caches_follow hrun hstore hi
  obtain ⟨lists', hlists', hknown'⟩ := caches_follow hrun hstore hj
  rw [hqueue, List.append_nil] at hlists
  rw [hqueue', List.append_nil] at hlists'
  subst hlists
  subst hlists'
  exact ⟨hknown, authorizeClient_congr fun server => (hknown server).trans (hknown' server).symm⟩

/-- Server `00` connects to one of two instances, sends a player, and both take the list. -/
def listRun : List ApiAction :=
  [serverConnects, .socket 0 (.serverEvent 0 (.players [some ⟨"7", "p", 1⟩]) true),
    .receive 0, .receive 1]

theorem listRun_agree : ∃ s inst inst', exec ApiState.step (start 2) listRun = some s ∧
    s.instances = [inst, inst'] ∧
      inst.ws.manager.playerCache["00"]? = some [⟨"7", "p", 1⟩] ∧
        ((∀ server : String, inst.ws.manager.playerCache[server]? =
            lastList server ((moves ApiState.step (start 2) listRun).flatMap listsAnnounced)) ∧
          ∀ r, inst.ws.manager.authorizeClient r = inst'.ws.manager.authorizeClient r) := by
  have hrun : (exec ApiState.step (start 2) listRun).map (fun s => s.instances.map fun inst =>
      (inst.queue.length, inst.ws.manager.playerCache["00"]?)) =
        some [(0, some [⟨"7", "p", 1⟩]), (0, some [⟨"7", "p", 1⟩])] := by decide
  obtain ⟨s, hs, hinst⟩ := Option.map_eq_some_iff.mp hrun
  obtain ⟨inst, rest, hinsts, hfirst, hrest⟩ := List.map_eq_cons_iff.mp hinst
  obtain ⟨inst', hinst', hsecond⟩ := List.map_eq_singleton_iff.mp hrest
  obtain ⟨hq, hknown⟩ := Prod.mk.inj hfirst
  obtain ⟨hq', -⟩ := Prod.mk.inj hsecond
  rw [hinst'] at hinsts
  have htoken : HexToken "00" := ⟨[0], by decide⟩
  have hstore : ∀ a ∈ listRun, a.FromStore := by
    intro a ha
    simp only [listRun, List.mem_cons, List.not_mem_nil, or_false] at ha
    rcases ha with rfl | rfl | rfl | rfl
    · intro server hserver
      cases hserver
      exact ⟨rfl, htoken⟩
    · trivial
    · trivial
    · trivial
  refine ⟨s, inst, inst', hs, hinsts, hknown, caches_agree hs hstore (i := 0) (j := 1) ?_ ?_ ?_ ?_⟩
  · rw [hinsts]
    rfl
  · rw [hinsts]
    rfl
  · rw [List.length_eq_zero_iff.mp hq, List.flatMap_nil]
  · rw [List.length_eq_zero_iff.mp hq', List.flatMap_nil]

end ApiState

end Kyber.Api
