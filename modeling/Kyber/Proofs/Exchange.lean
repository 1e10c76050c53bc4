import Kyber.Proofs.ConsolePrivacy

/-!
# What the exchange carries

Every instance gets the same bodies in the same order: what an instance has taken from its
queue and what is left there is what has been published, whoever has published it
(`bodies_conserved`). This says nothing about what is in the bodies.

As for that, every body is read as a message about a server whose id is plain
(`Readable`), so that the instances agree on the server that it is about. Of the requests,
those of a player list come from sockets, and the commands come from calls alone
(`bodies_announced`).
-/

namespace Kyber.Api

open Kyber.Lib Json ServerManager

/-! ## Bodies -/

/-- The message that a body is read as. -/
def messagesOf : Option Json → List APIManagementMessage
  | none => []
  | some body => (APIManagementMessage.unmarshalJSON body).toOption.toList

theorem messagesOf_eq_singleton_iff {body : Option Json} {msg : APIManagementMessage} :
    messagesOf body = [msg] ↔
      ∃ data, body = some data ∧ APIManagementMessage.unmarshalJSON data = .ok msg := by
  cases body with
  | none => simp [messagesOf]
  | some data =>
      cases hread : APIManagementMessage.unmarshalJSON data with
      | error e => simp [messagesOf, hread, Except.toOption]
      | ok read => simp [messagesOf, hread, Except.toOption]

/-- A body that is read as a message about a server whose id is plain. -/
def Readable (body : Option Json) : Prop :=
  ∃ msg, messagesOf body = [msg] ∧ Plain msg.serverID

/-- A message that requests nothing but players. -/
def APIManagementMessage.Announces (msg : APIManagementMessage) : Prop :=
  ∀ request, msg.request = some request → request = newReqPlayerList

/-- What is said of all that is published but the messages of calls. -/
def Announced (bodies : List (Option Json)) : Prop :=
  ∀ body ∈ bodies, ∃ msg, messagesOf body = [msg] ∧ Plain msg.serverID ∧ msg.Announces

theorem announced_nil : Announced [] := fun _ h => absurd h List.not_mem_nil

theorem APIManagementMessage.RoundTrips.plain {msg : APIManagementMessage} (h : msg.RoundTrips) :
    Plain msg.serverID := by
  obtain ⟨serverID, status, request⟩ := msg
  cases status with
  | some status =>
      cases request with
      | none => exact ((status_roundTrips_iff serverID status).mp h).1
      | some request =>
          -- The request is not written, and so it is not read either.
          obtain ⟨data, hm, hu⟩ := h
          cases hs : status.marshalJSON with
          | error e =>
              simp [APIManagementMessage.marshalJSON, hs, bind, Except.bind] at hm
          | ok written =>
              simp only [APIManagementMessage.marshalJSON, hs, bind, Except.bind, pure, Except.pure,
                Except.ok.injEq] at hm
              rw [← hm, unmarshalJSON_status] at hu
              cases hr : ServerStatusMessage.unmarshalJSON written <;> simp [hr, Except.map] at hu
  | none =>
      cases request with
      | some request => exact ((request_roundTrips_iff serverID request).mp h).1
      | none =>
          obtain ⟨data, hm, -⟩ := h
          cases hm

theorem messagesOf_of_roundTrips {msg : APIManagementMessage} (h : msg.RoundTrips) :
    messagesOf msg.marshalJSON.toOption = [msg] := by
  obtain ⟨data, hm, hu⟩ := h
  rw [hm]
  exact messagesOf_eq_singleton_iff.mpr ⟨data, rfl, hu⟩

theorem published_publishWS_eq {msg : APIManagementMessage} (h : msg.RoundTrips) (key : String) :
    published (publishWS msg key) = [msg.marshalJSON.toOption] := by
  obtain ⟨data, hm, -⟩ := h
  simp only [publishWS, hm, published, List.filterMap_cons, List.filterMap_nil, Except.toOption]

/-! ## One delivery -/

namespace ServerManager

variable {m m' : ServerManager} {body : Option Json} {msg : APIManagementMessage}
  {out : List Output}

theorem deliver_request (hbody : messagesOf body = [msg]) {request : ServerRequestMessage}
    (hreq : msg.request = some request) (h : m.deliver (delivery body) = .ok (m', out)) :
    m' = m ∧ m.handleRequest msg.serverID request = .ok out := by
  obtain ⟨data, rfl, hread⟩ := messagesOf_eq_singleton_iff.mp hbody
  simp only [delivery, deliver, hread, hreq, bind, Except.bind, pure, Except.pure] at h
  split at h
  · cases h
  · next hout =>
      cases h
      exact ⟨rfl, hout⟩

theorem deliver_status (hbody : messagesOf body = [msg]) (hreq : msg.request = none)
    (h : m.deliver (delivery body) = .ok (m', out)) :
    ∃ status, msg.status = some status ∧ m.handleStatus msg.serverID status = (m', out) := by
  obtain ⟨data, rfl, hread⟩ := messagesOf_eq_singleton_iff.mp hbody
  cases hst : msg.status with
  | none =>
      have hsome := unmarshalJSON_some hread
      simp [hreq, hst] at hsome
  | some status =>
      simp only [delivery, deliver, hread, hreq, hst, Except.ok.injEq] at h
      exact ⟨status, rfl, h⟩

/-- The only answer to a delivery is the one to a request of players. -/
theorem deliver_announced (hbody : Readable body) (h : m.deliver (delivery body) = .ok (m', out)) :
    Announced (Api.published out) := by
  obtain ⟨msg, hmsg, hid⟩ := hbody
  intro answer hanswer
  cases hreq : msg.request with
  | none =>
      obtain ⟨status, -, hout⟩ := deliver_status hmsg hreq h
      have hnone : Api.published (m.handleStatus msg.serverID status).2 = [] := by
        rw [handleStatus]
        split
        · exact published_processClientEvent _ _ _
        · split
          · rfl
          · exact published_processClientEvent _ _ _
      rw [hout] at hnone
      rw [hnone] at hanswer
      cases hanswer
  | some request =>
      obtain ⟨-, hout⟩ := deliver_request hmsg hreq h
      have hserver : ∀ evt, Api.published (m.processServerEvent msg.serverID evt) = [] := by
        intro evt
        rw [processServerEvent]
        split <;> rfl
      rw [handleRequest] at hout
      split at hout
      · cases hout
        rw [hserver] at hanswer
        cases hanswer
      · split at hout
        · cases hout
          rw [hserver] at hanswer
          cases hanswer
        · split at hout
          · rw [answerPlayerList] at hout
            split at hout
            · cases hout
              cases hanswer
            · simp only [bind, Except.bind, pure, Except.pure] at hout
              split at hout
              · cases hout
              · next players _ =>
                  cases hout
                  have htrips := (message_roundTrips_iff msg.serverID
                    (.statusPlayerList (some (players.map playerModel)))).mpr ⟨hid, rfl⟩
                  rw [List.mem_singleton.mp hanswer]
                  refine ⟨_, messagesOf_of_roundTrips htrips, hid, ?_⟩
                  intro request hrequest
                  cases hrequest
          · cases hout
            cases hanswer

end ServerManager

/-! ## A step at the sockets -/

namespace WsState

variable {s s' : WsState} {a : WsAction}

theorem announced_publishWS {msg : APIManagementMessage} (h : msg.RoundTrips)
    (hmsg : msg.Announces) (key : String) : Announced (published (publishWS msg key)) := by
  intro body hbody
  rw [published_publishWS_eq h, List.mem_singleton] at hbody
  exact hbody ▸ ⟨msg, messagesOf_of_roundTrips h, h.plain, hmsg⟩

theorem announces_status (serverID : String) (status : ServerStatusMessage) :
    APIManagementMessage.Announces { serverID, status := some status } := by
  intro request h
  cases h

theorem announced_event {m : ServerManager} {id : String} {stored : Bool} {evt : ManagementEvent}
    {result : ServerManager × List Output} (hid : Plain id)
    (h : m.processServerSocketEvent id stored evt = .ok result) :
    Announced (published result.2) := by
  cases evt with
  | console message isPublic =>
      rw [processServerSocketEvent] at h
      split at h
      · cases h
        exact announced_nil
      · cases h
        have htrips := (message_roundTrips_iff id (.statusConsole
          (some { message, isPublic := isPublic.getD true }))).mpr ⟨hid, rfl⟩
        exact announced_publishWS htrips (announces_status _ _) id
  | players players =>
      simp only [processServerSocketEvent, bind, Except.bind, pure, Except.pure] at h
      split at h
      · cases h
      · next kept _ =>
          cases h
          cases stored with
          | false => exact announced_nil
          | true =>
              have htrips := (message_roundTrips_iff id (.statusPlayerList (some
                (kept.map fun p => playerModel (p.getD { id := "", name := "", teamId := 0 }))))).mpr
                ⟨hid, rfl⟩
              exact announced_publishWS htrips (announces_status _ _) id
  | keepAlive =>
      cases h
      exact announced_nil

theorem Effect.announced (h : Effect s a s') (hs : s.Sound) {i : Nat}
    (ha : (ApiAction.socket i a).FromStore) :
    Announced (published (s'.sent.drop s.sent.length)) := by
  have hnone : Announced (published (s.sent.drop s.sent.length)) := by
    rw [List.drop_length]
    exact announced_nil
  cases h with
  | refuse a h => exact hnone
  | server r h =>
      have hclosed : published (s.manager.ownServer r.id s.sockets.length).2 = [] := by
        cases ho : s.manager.ownedServers[r.id]? <;> simp [ownServer, ho, published]
      show Announced (published ((s.sent ++ _).drop s.sent.length))
      rw [List.drop_left, hclosed]
      exact announced_nil
  | client r isModerator h =>
      have hplain := (Opened.client r isModerator h).plain ha
      have htrips := (message_roundTrips_iff r.id .reqPlayerList).mpr ⟨hplain, trivial⟩
      show Announced (published ((s.sent ++ _).drop s.sent.length))
      rw [List.drop_left]
      refine announced_publishWS htrips ?_ r.id
      intro request hrequest
      exact (Option.some.inj hrequest).symm
  | event conn evt stored id result hsock h =>
      show Announced (published ((s.sent ++ result.2).drop s.sent.length))
      rw [List.drop_left]
      exact announced_event (hs.plain _ (List.mem_of_getElem? hsock)) h
  | stop conn deadlineFails phase hphase => exact hnone
  | clean conn socket hsock => exact hnone

end WsState

/-! ## Queues -/

namespace ApiState

variable {s s' : ApiState} {a : ApiAction}

/-- The bodies that a step publishes. -/
def bodies (mv : ApiState × ApiAction) : List (Option Json) :=
  match mv.2 with
  | .socket i a =>
      ((mv.1.instances[i]?).bind fun inst => (inst.ws.step a).map fun ws =>
        published (ws.sent.drop inst.ws.sent.length)).getD []
  | .receive i =>
      match mv.1.instances[i]? with
      | some ⟨ws, body :: _⟩ =>
          ((ws.manager.deliver (delivery body)).toOption.map fun result =>
            published result.2).getD []
      | _ => []
  | .call _ => []
  | .publishNext k =>
      match mv.1.calls[k]? with
      | some (msg :: _) => published (publishWS msg msg.serverID)
      | _ => []

/-- The body that instance `i` takes from its queue in a step. -/
def taken (i : Nat) (mv : ApiState × ApiAction) : List (Option Json) :=
  match mv.2 with
  | .receive j =>
      if j = i then ((mv.1.instances[i]?).bind (·.queue.head?)).toList else []
  | _ => []

/-- What is in the queue of instance `i`. -/
def queueOf (i : Nat) (s : ApiState) : List (Option Json) :=
  (s.instances[i]?).elim [] (·.queue)

theorem Effect.queue (h : Effect s a s') {i : Nat} (hi : i < s.instances.length) :
    taken i (s, a) ++ queueOf i s' = queueOf i s ++ bodies (s, a) := by
  obtain ⟨inst, hget⟩ : ∃ inst, s.instances[i]? = some inst := ⟨_, List.getElem?_eq_getElem hi⟩
  cases h with
  | socket j b acting ws hd hj h =>
      simp only [taken, bodies, hj, Option.bind_some, h, Option.map_some, Option.getD_some,
        List.nil_append, queueOf, hget, getElem?_set_publish s _ _ hget]
      by_cases hij : j = i
      · subst hij
        cases hj.symm.trans hget
        simp
      · simp [hij]
  | receive j ws body rest result hj h =>
      simp only [taken, bodies, hj, h, Except.toOption, Option.map_some, Option.getD_some, queueOf,
        hget, getElem?_set_publish s _ _ hget]
      by_cases hij : j = i
      · subst hij
        cases hj.symm.trans hget
        simp
      · simp [hij]
  | call c => simp [taken, bodies, queueOf]
  | publishNext k msg rest hk =>
      simp [taken, bodies, hk, queueOf, getElem?_publish, hget]

/-- What an instance has taken in a run and what is left in its queue is what has been there
and what has been published. -/
theorem bodies_conserved {as : List ApiAction} (hrun : exec ApiState.step s as = some s') {i : Nat}
    (hi : i < s.instances.length) :
    (moves ApiState.step s as).flatMap (taken i) ++ queueOf i s' =
      queueOf i s ++ (moves ApiState.step s as).flatMap bodies := by
  refine exec_queue (fun x => i < x.instances.length) (fun _ => True) (queueOf i) (taken i) bodies
    ?_ hi (fun _ _ => trivial) hrun
  intro x b y hx _ hxy
  have heff := step_effect hxy
  exact ⟨heff.length_eq.symm ▸ hx, heff.queue hx⟩

/-! ## What is in them -/

/-- A good state of the cluster, with bodies that are all readable. -/
structure Exchanging (s : ApiState) : Prop where
  sound : s.Sound
  readable : ∀ i, ∀ body ∈ queueOf i s, Readable body

/-- Commands come from calls alone: all else that is published announces something. -/
theorem bodies_announced (hs : s.Exchanging) (ha : a.FromStore) (h : s.step a = some s')
    (hcall : ∀ k, a ≠ .publishNext k) : Announced (bodies (s, a)) := by
  cases step_effect h with
  | socket i b inst ws hd hi hws =>
      have hann := (WsState.step_effect hws hd).announced
        (hs.sound.sockets inst (List.mem_of_getElem? hi)) ha
      simpa [bodies, hi, hws] using hann
  | receive i ws body rest result hi hdeliver =>
      have hbody : Readable body := hs.readable i body (by simp [queueOf, hi])
      have hann := deliver_announced hbody hdeliver
      simpa [bodies, hi, hdeliver, Except.toOption] using hann
  | call c => exact announced_nil
  | publishNext k msg rest hk => exact absurd rfl (hcall k)

/-- What a call publishes is its next message. -/
theorem bodies_publishNext (hs : s.Sound) {k : Nat} {msg : APIManagementMessage}
    {rest : List APIManagementMessage} (hk : s.calls[k]? = some (msg :: rest)) :
    bodies (s, .publishNext k) = [msg.marshalJSON.toOption] ∧ msg.RoundTrips := by
  have htrips := (hs.calls _ (List.mem_of_getElem? hk) msg List.mem_cons_self).1
  refine ⟨?_, htrips⟩
  simp only [bodies, hk, published_publishWS_eq htrips]

theorem bodies_readable (hs : s.Exchanging) (ha : a.FromStore) (h : s.step a = some s') :
    ∀ body ∈ bodies (s, a), Readable body := by
  by_cases hcall : ∃ k, a = .publishNext k
  · obtain ⟨k, rfl⟩ := hcall
    cases step_effect h with
    | publishNext _ msg rest hk =>
        obtain ⟨hbodies, htrips⟩ := bodies_publishNext hs.sound hk
        intro body hbody
        rw [hbodies, List.mem_singleton] at hbody
        exact hbody ▸ ⟨msg, messagesOf_of_roundTrips htrips, htrips.plain⟩
  · intro body hbody
    obtain ⟨msg, hmsg, hid, -⟩ :=
      bodies_announced hs ha h (fun k hk => hcall ⟨k, hk⟩) body hbody
    exact ⟨msg, hmsg, hid⟩

theorem Exchanging.step (hs : s.Exchanging) (ha : a.FromStore) (h : s.step a = some s') :
    s'.Exchanging := by
  have heff := step_effect h
  refine ⟨heff.sound hs.sound ha, fun i body hbody => ?_⟩
  by_cases hi : i < s.instances.length
  · have hmem := List.mem_append_right (taken i (s, a)) hbody
    rw [heff.queue hi, List.mem_append] at hmem
    exact hmem.elim (hs.readable i body) (bodies_readable hs ha h body)
  · have hnone : s'.instances[i]? = none :=
      List.getElem?_eq_none (heff.length_eq.symm ▸ Nat.le_of_not_lt hi)
    simp [queueOf, hnone] at hbody

theorem exchanging_start (n : Nat) : (start n).Exchanging := by
  refine ⟨sound_start n, fun i body hbody => ?_⟩
  rw [queueOf] at hbody
  cases hi : (start n).instances[i]? with
  | none => simp [hi] at hbody
  | some inst =>
      have hinst := List.eq_of_mem_replicate (List.mem_of_getElem? hi)
      simp [hi, hinst] at hbody

/-- In every state that a run leads to, every body is readable. -/
theorem exchanging_of_exec {n : Nat} {as : List ApiAction}
    (hrun : exec ApiState.step (start n) as = some s) (hstore : ∀ a ∈ as, a.FromStore) :
    s.Exchanging := by
  refine exec_moves_of_forall (fun _ x => x.Exchanging) ApiAction.FromStore ?_
    (exchanging_start n) hstore hrun
  intro hist x a y hx ha hxy
  exact hx.step ha hxy

end ApiState

end Kyber.Api
