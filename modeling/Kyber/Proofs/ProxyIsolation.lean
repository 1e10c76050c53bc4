import Kyber.Proofs.ProxyRegistry

/-!
# Who a client hears from

A client's packets reach the server of its token's `server_id`. The way back has
no such check: a frame of a server names its client by the 16-bit id alone, and
the table of clients is one for all servers, so a server reaches any client whose
id it names.

What does hold of every run is that a packet a client receives was addressed to
the id under which its own packets are delivered. That it comes from the client's
own server holds exactly if no server has read a frame that names a client of
another one.
-/

namespace Kyber.Proxy

open Kyber.Lib

/-- The `server` variable of a client connection. -/
def ClientPc.server? : ClientPc → Option User
  | .lookupServer | .done => none
  | .lookupUser server | .cancelOld server _ | .removeOld server _ | .addContains server
  | .addRemove server | .addInsert server | .relay server _ | .leave server => some server

/-- The connection has called `add_user` and not yet its last `remove_user`. -/
def ClientPc.Registered : ClientPc → Prop
  | .relay _ _ | .leave _ => True
  | _ => False

namespace ProxyState

variable {p p' : ProxyState} {t : TaskId} {s : Bytes} {r : Role}

/-! ## What a step delivers -/

/-- The packets that have been put into the channel of task `t`, those written to
its socket included. -/
def received (p : ProxyState) (t : TaskId) : List Message :=
  match p.tasks[t]? with
  | none => []
  | some task => task.sent ++ task.inbox

theorem received_of_task {task : Task} (h : p.tasks[t]? = some task) :
    p.received t = task.sent ++ task.inbox := by
  rw [received, h]

/-- A packet of a client for the server it knows, or has just looked up. -/
structure ToServer (p : ProxyState) (a : Action) (u : TaskId) (m : Message) (s : Bytes)
    (token data : Bytes) (server : User) : Prop where
  action : ∃ expired, a = .run m.origin (.read data expired)
  origin : ∃ known disconnected,
    p.shape m.origin = some (s, .client token (.relay known disconnected)) ∧
      (server = known ∨ p.manager.getServerById s = some server)
  data_eq : m.data = prependIdentifier data (convertToken token)
  dst : u = server.sender

/-- A packet of a server for the client its frame names. -/
structure ToClient (p : ProxyState) (a : Action) (u : TaskId) (m : Message) (s : Bytes)
    (frame : Bytes) (id : UInt16) (user : User) : Prop where
  action : ∃ expired, a = .run m.origin (.read frame expired)
  origin : p.shape m.origin = some (s, .server .relay)
  frame_eq : extractIdentifier frame = some (id, m.data)
  found : p.manager.getUserById id = some user
  dst : u = user.sender

/-- The step puts `m` into the channel of task `u`. -/
def Delivers (p : ProxyState) (a : Action) (u : TaskId) (m : Message) : Prop :=
  (∃ s token data server, p.ToServer a u m s token data server) ∨
    ∃ s frame id user, p.ToClient a u m s frame id user

theorem received_setTask {task new : Task} (h : p.tasks[t]? = some task) (u : TaskId) :
    (p.setTask t new).received u = if u = t then new.sent ++ new.inbox else p.received u := by
  obtain ⟨hlt, -⟩ := List.getElem?_eq_some_iff.mp h
  simp only [received, setTask, List.getElem?_set]
  by_cases hu : u = t
  · subst hu
    simp [hlt]
  · rw [if_neg (Ne.symm hu), if_neg hu]

theorem received_send {dst : TaskId} {m : Message} (h : p.send dst m = some p') (u : TaskId) :
    p'.received u = if u = dst then p.received u ++ [m] else p.received u := by
  unfold send at h
  split at h
  · cases h
  · next task htask =>
      split at h
      · cases h
        rw [received_setTask htask]
        split
        · next hu =>
            subst hu
            rw [received_of_task htask, List.append_assoc]
        · rfl
      · cases h

@[simp] theorem received_goto (p : ProxyState) (t : TaskId) (role : Role) :
    (p.goto t role).received = p.received := by
  funext u
  simp only [received, goto]
  by_cases hu : u = t
  · subst hu
    cases h : p.tasks[u]? <;> simp [h]
  · rw [List.getElem?_modify_ne _ _ (Ne.symm hu)]

theorem received_setTask_cancels {task : Task} (htask : p.tasks[t]? = some task) (n : Nat) :
    (p.setTask t { task with cancels := n }).received = p.received := by
  funext u
  rw [received_setTask htask]
  split
  · next hu =>
      subst hu
      rw [received_of_task htask]
  · rfl

@[simp] theorem received_sendCancel (p : ProxyState) (dst : TaskId) :
    (p.sendCancel dst).received = p.received := by
  unfold sendCancel
  split
  · rfl
  · next task htask =>
      split
      · exact received_setTask_cancels htask _
      · rfl

theorem received_recvStep {task : Task} (htask : p.tasks[t]? = some task) {ended : Role}
    (h : p.recvStep t task ended = some p') : p'.received = p.received := by
  unfold recvStep at h
  split at h
  · next m inbox hin =>
      cases h
      funext u
      rw [received_setTask htask]
      split
      · next hu =>
          subst hu
          rw [received_of_task htask, hin]
          simp
      · rfl
  · split at h
    · cases h
    · cases h
      exact received_goto p t ended

/-- A step delivers at most one packet to a task. -/
def Extends (p : ProxyState) (a : Action) (p' : ProxyState) : Prop :=
  ∀ u, p'.received u = p.received u ∨
    ∃ m, p.Delivers a u m ∧ p'.received u = p.received u ++ [m]

theorem Extends.of_eq {a : Action} (h : p'.received = p.received) : p.Extends a p' :=
  fun u => .inl (congrFun h u)

theorem Extends.of_send {a : Action} {q : ProxyState} {dst : TaskId} {m : Message}
    (hq : q.received = p.received) (h : q.send dst m = some p') (hm : p.Delivers a dst m) :
    p.Extends a p' := by
  intro u
  rw [received_send h, hq]
  split
  · next hu =>
      subst hu
      exact .inr ⟨m, hm, rfl⟩
  · exact .inl rfl

theorem clientRead_extends {task : Task} (htask : p.tasks[t]? = some task) {token : Bytes}
    {server : User} {disconnected expired : Bool} {data : Bytes}
    (hr : task.role = .client token (.relay server disconnected)) :
    p.Extends (.run t (.read data expired))
      (p.clientRead t task.serverId token server disconnected data expired) := by
  have hs := shape_of_task htask
  rw [hr] at hs
  unfold clientRead
  simp only []
  split
  · next q hq =>
      exact .of_send rfl hq (.inl ⟨task.serverId, token, data, server, ⟨expired, rfl⟩,
        ⟨server, disconnected, hs, .inl rfl⟩, rfl, rfl⟩)
  · split
    · split
      · exact .of_eq (received_goto _ _ _)
      · exact .of_eq (received_goto _ _ _)
    · next newServer hnew =>
        cases hq : (p.goto t (.client token (.relay newServer false))).send newServer.sender
            { origin := t, data := prependIdentifier data (convertToken token) } with
        | none => exact .of_eq (received_goto _ _ _)
        | some q =>
            exact .of_send (received_goto _ _ _) hq (.inl ⟨task.serverId, token, data, newServer,
              ⟨expired, rfl⟩, ⟨server, disconnected, hs, .inr hnew⟩, rfl, rfl⟩)

theorem serverRead_extends {task : Task} (htask : p.tasks[t]? = some task) {data : Bytes}
    {expired : Bool} (hr : task.role = .server .relay) :
    p.Extends (.run t (.read data expired)) (p.serverRead t data) := by
  have hs := shape_of_task htask
  rw [hr] at hs
  unfold serverRead
  split
  · exact .of_eq (received_goto _ _ _)
  · next id packet hid =>
      split
      · exact .of_eq rfl
      · next user huser =>
          cases hq : p.send user.sender { origin := t, data := packet } with
          | none => exact .of_eq rfl
          | some q =>
              exact .of_send rfl hq
                (.inr ⟨task.serverId, data, id, user, ⟨expired, rfl⟩, hs, hid, huser, rfl⟩)

theorem clientStep_extends {task : Task} (htask : p.tasks[t]? = some task) {token : Bytes}
    {pc : ClientPc} {e : Event} (hr : task.role = .client token pc)
    (h : p.clientStep t task token pc e = some p') : p.Extends (.run t e) p' := by
  unfold clientStep at h
  simp only [] at h
  split at h
  · split at h <;> cases h <;> exact .of_eq (received_goto _ _ _)
  · split at h <;> cases h <;> exact .of_eq (received_goto _ _ _)
  · cases h
    exact .of_eq ((received_goto _ _ _).trans (received_sendCancel _ _))
  · cases h
    exact .of_eq (received_goto _ _ _)
  · split at h <;> cases h <;> exact .of_eq (received_goto _ _ _)
  · cases h
    exact .of_eq (received_goto _ _ _)
  · cases h
    exact .of_eq (received_goto _ _ _)
  · cases h
    exact clientRead_extends htask hr
  · cases h
    exact .of_eq rfl
  · cases h
    exact .of_eq (received_goto _ _ _)
  · exact .of_eq (received_recvStep htask h)
  · cases h
    exact .of_eq (received_goto _ _ _)
  · cases h

theorem serverStep_extends {task : Task} (htask : p.tasks[t]? = some task) {pc : ServerPc}
    {e : Event} (hr : task.role = .server pc) (h : p.serverStep t task pc e = some p') :
    p.Extends (.run t e) p' := by
  unfold serverStep at h
  simp only [] at h
  split at h
  · split at h <;> cases h <;> exact .of_eq (received_goto _ _ _)
  · cases h
    exact .of_eq ((received_goto _ _ _).trans (received_sendCancel _ _))
  · cases h
    exact .of_eq (received_goto _ _ _)
  · cases h
    exact serverRead_extends htask hr
  · cases h
    exact .of_eq rfl
  · cases h
    exact .of_eq (received_goto _ _ _)
  · exact .of_eq (received_recvStep htask h)
  · split at h
    · cases h
      exact .of_eq ((received_goto _ _ _).trans (received_setTask_cancels htask _))
    · split at h
      · cases h
      · cases h
        exact .of_eq (received_goto _ _ _)
  · split at h <;> cases h <;> exact .of_eq (received_goto _ _ _)
  · cases h

theorem received_accepted {serverMode : Bool} {serverId token : Bytes}
    (h : p'.tasks = p.tasks ++ [accepted serverMode serverId token]) :
    p'.received = p.received := by
  funext u
  simp only [received, h]
  rcases Nat.lt_trichotomy u p.tasks.length with hlt | rfl | hgt
  · rw [List.getElem?_append_left hlt]
  · simp [accepted]
  · have hle := Nat.le_of_lt hgt
    rw [List.getElem?_append_right hle, List.getElem?_eq_none (by simp; omega),
      List.getElem?_eq_none hle]

theorem step_extends {a : Action} (h : p.step a = some p') : p.Extends a p' := by
  cases a with
  | accept serverMode serverId token =>
      simp only [step] at h
      split at h
      · cases h
      · cases h
        exact .of_eq (received_accepted rfl)
  | run t e =>
      simp only [step] at h
      cases htask : p.tasks[t]? with
      | none => simp [htask] at h
      | some task =>
          simp only [htask] at h
          cases hr : task.role with
          | client token pc =>
              simp only [hr] at h
              exact clientStep_extends htask hr h
          | server pc =>
              simp only [hr] at h
              exact serverStep_extends htask hr h

/-! ## Where the tables lead -/

/-- What a step does to a client connection: a server it did not know it has
looked up, and it leaves the table when it ends. -/
structure ClientMoves (p : ProxyState) (s token : Bytes) (acc : Access) (pc pc' : ClientPc) :
    Prop where
  server : ∀ server, pc'.server? = some server →
    pc.server? = some server ∨ p.manager.getServerById s = some server
  registered : pc.Registered → pc'.Registered ∨ acc = .removeUser (convertToken token)

theorem ClientMoves.refl {token : Bytes} {acc : Access} {pc : ClientPc} :
    p.ClientMoves s token acc pc pc := ⟨fun _ => .inl, .inl⟩

/-- A move that keeps what the connection knows. -/
theorem ClientMoves.of_server {token : Bytes} {acc : Access} {pc pc' : ClientPc}
    (h : pc'.server? = pc.server? ∨ pc'.server? = none)
    (hr : pc.Registered → pc'.Registered ∨ acc = .removeUser (convertToken token)) :
    p.ClientMoves s token acc pc pc' := by
  refine ⟨fun server hs => .inl ?_, hr⟩
  rcases h with h | h
  · exact h.symm.trans hs
  · rw [h] at hs
    cases hs

theorem clientRead_moves {task : Task} (htask : p.tasks[t]? = some task) {token : Bytes}
    {server : User} {disconnected expired : Bool} {data : Bytes}
    (hr : task.role = .client token (.relay server disconnected)) :
    ∃ pc', (p.clientRead t task.serverId token server disconnected data expired).shape t
        = some (task.serverId, .client token pc') ∧
      p.ClientMoves task.serverId token .none (.relay server disconnected) pc' := by
  have hs := shape_of_task htask
  unfold clientRead
  simp only []
  split
  · next q hq =>
      refine ⟨_, ?_, .refl⟩
      rw [shape_send hq, hs, hr]
  · split
    · split
      · exact ⟨.leave server, by simp [shape_goto hs],
          .of_server (.inl rfl) fun _ => .inl trivial⟩
      · exact ⟨.relay server true, by simp [shape_goto hs],
          .of_server (.inl rfl) fun _ => .inl trivial⟩
    · next newServer hnew =>
        refine ⟨.relay newServer false, ?_, ?_, fun _ => .inl trivial⟩
        · cases hq : (p.goto t (.client token (.relay newServer false))).send newServer.sender
              { origin := t, data := prependIdentifier data (convertToken token) } with
          | none => simp [shape_goto hs]
          | some q =>
              show q.shape t = _
              rw [shape_send hq, shape_goto hs, Function.update_self]
        · intro server' h'
          cases h'
          exact .inr hnew

theorem clientStep_moves {task : Task} (htask : p.tasks[t]? = some task) {token : Bytes}
    {pc : ClientPc} {e : Event} (hr : task.role = .client token pc)
    (h : p.clientStep t task token pc e = some p') :
    ∃ pc', p'.shape t = some (task.serverId, .client token pc') ∧
      p.ClientMoves task.serverId token (eventAccess t task.serverId task.role e) pc pc' := by
  have hs := shape_of_task htask
  have hgoto : ∀ (q : ProxyState) (pc' : ClientPc), q.shape = p.shape →
      (q.goto t (.client token pc')).shape t = some (task.serverId, .client token pc') := by
    intro q pc' hq
    rw [shape_goto (by rw [hq]; exact hs), Function.update_self]
  unfold clientStep at h
  simp only [] at h
  split at h
  · split at h
    · cases h
      exact ⟨.done, hgoto p _ rfl, .of_server (.inr rfl) False.elim⟩
    · next server hserver =>
        cases h
        refine ⟨.lookupUser server, hgoto p _ rfl, ?_, False.elim⟩
        intro server' h'
        cases h'
        exact .inr hserver
  · split at h <;> cases h <;>
      exact ⟨_, hgoto p _ rfl, .of_server (.inl rfl) False.elim⟩
  · cases h
    exact ⟨_, hgoto _ _ (shape_sendCancel _ _), .of_server (.inl rfl) False.elim⟩
  · cases h
    exact ⟨_, hgoto _ _ rfl, .of_server (.inl rfl) False.elim⟩
  · split at h <;> cases h <;>
      exact ⟨_, hgoto p _ rfl, .of_server (.inl rfl) False.elim⟩
  · cases h
    exact ⟨_, hgoto _ _ rfl, .of_server (.inl rfl) False.elim⟩
  · cases h
    exact ⟨_, hgoto _ _ rfl, .of_server (.inl rfl) False.elim⟩
  · cases h
    exact clientRead_moves htask hr
  · cases h
    exact ⟨_, hs.trans (by rw [hr]), .refl⟩
  · cases h
    exact ⟨_, hgoto _ _ rfl, .of_server (.inl rfl) fun _ => .inl trivial⟩
  · next server disconnected =>
      unfold recvStep at h
      split at h
      · cases h
        refine ⟨_, ?_, .refl⟩
        refine (congrFun (shape_setTask htask ?_ ?_) t).trans (hs.trans (by rw [hr]))
        · rfl
        · rfl
      · split at h
        · cases h
        · cases h
          exact ⟨_, hgoto _ _ rfl, .of_server (.inl rfl) fun _ => .inl trivial⟩
  · cases h
    refine ⟨.done, hgoto _ _ rfl, .of_server (.inr rfl) fun _ => .inr ?_⟩
    rw [hr]
    rfl
  · cases h

/-- A client connection along a step. -/
theorem client_step {a : Action} (h : p.step a = some p') {token : Bytes} {pc : ClientPc}
    (hs : p.shape t = some (s, .client token pc)) :
    ∃ pc', p'.shape t = some (s, .client token pc') ∧
      p.ClientMoves s token (p.access a) pc pc' := by
  rcases step_cases h with ⟨m, sid, token', rfl, -, htasks⟩ | ⟨t₀, e, s₀, r₀, rfl, hs₀, hacc, hst⟩
  · rcases shape_accepted htasks t with heq | ⟨hnone, -⟩
    · exact ⟨pc, heq.trans hs, .refl⟩
    · rw [hs] at hnone
      cases hnone
  · by_cases ht : t = t₀
    · subst ht
      rw [hs] at hs₀
      cases hs₀
      obtain ⟨task, htask, heq⟩ := Option.map_eq_some_iff.mp hs
      simp only [Prod.mk.injEq] at heq
      obtain ⟨rfl, hr⟩ := heq
      rw [step, htask] at h
      simp only [hr] at h
      rw [hacc, ← hr]
      exact clientStep_moves htask hr h
    · obtain ⟨r', hr', -⟩ := hst.shape_eq
      refine ⟨pc, ?_, .refl⟩
      rw [hr', Function.update_of_ne ht, hs]

theorem server_step {a : Action} (h : p.step a = some p') {pc : ServerPc}
    (hs : p.shape t = some (s, .server pc)) : ∃ pc', p'.shape t = some (s, .server pc') := by
  obtain ⟨r', _, hs', hm⟩ := shape_step h hs
  cases r' with
  | client token pc' => cases hm.isServer_eq
  | server pc' => exact ⟨pc', hs'⟩

/-- A task that a step brings is new. -/
theorem shape_step_none {a : Action} (h : p.step a = some p') (hs : p.shape t = none)
    (hs' : p'.shape t = some (s, r)) :
    ∃ serverMode token, r = (accepted serverMode s token).role := by
  rcases step_cases h with ⟨m, sid, token, rfl, -, htasks⟩ | ⟨t₀, e, s₀, r₀, rfl, hs₀, -, hst⟩
  · simp only [shape, Option.map_eq_none_iff, List.getElem?_eq_none_iff] at hs
    simp only [shape, htasks, List.getElem?_append_right hs, Option.map_eq_some_iff] at hs'
    obtain ⟨task, htask, heq⟩ := hs'
    cases heq
    rw [List.getElem?_singleton] at htask
    split at htask
    · cases htask
      exact ⟨m, token, rfl⟩
    · cases htask
  · obtain ⟨r', hr', -⟩ := hst.shape_eq
    have ht : t ≠ t₀ := by
      rintro rfl
      rw [hs] at hs₀
      cases hs₀
    rw [hr', Function.update_of_ne ht, hs] at hs'
    cases hs'

/-- The tables, and the variables of clients, lead to connections of the kind and
of the id they are under. -/
structure Routed (p : ProxyState) : Prop where
  user : ∀ id t, p.tables.userRegistry.entry id = some t →
    ∃ s token pc, p.shape t = some (s, .client token pc) ∧ convertToken token = id ∧
      pc.Registered
  server : ∀ id t, p.tables.serverRegistry.entry id = some t →
    ∃ pc, p.shape t = some (id, .server pc)
  known : ∀ t s token pc server, p.shape t = some (s, .client token pc) →
    pc.server? = some server → ∃ pc', p.shape server.sender = some (s, .server pc')

theorem Routed.init : Routed {} := by
  constructor
  · intro id t h
    simp [tables, Tables.userRegistry, UserManager.getUserById] at h
  · intro id t h
    simp [tables, Tables.serverRegistry, UserManager.getServerById] at h
  · intro t s token pc server h
    simp [shape] at h

theorem Routed.getServerById (hp : Routed p) {server : User}
    (h : p.manager.getServerById s = some server) :
    ∃ pc, p.shape server.sender = some (s, .server pc) := by
  refine hp.server s server.sender ?_
  show (p.manager.getServerById s).map User.sender = _
  rw [h]
  rfl

theorem Routed.getUserById (hp : Routed p) {id : UInt16} {user : User}
    (h : p.manager.getUserById id = some user) :
    ∃ s token pc, p.shape user.sender = some (s, .client token pc) ∧ convertToken token = id ∧
      pc.Registered := by
  refine hp.user id user.sender ?_
  show (p.manager.getUserById id).map User.sender = _
  rw [h]
  rfl

theorem Routed.user_step {a : Action} (hp : Routed p) (h : p.step a = some p') {id : UInt16}
    (hent : p'.tables.userRegistry.entry id = some t) :
    ∃ s token pc, p'.shape t = some (s, .client token pc) ∧ convertToken token = id ∧
      pc.Registered := by
  rw [userRegistry_step h] at hent
  rcases Registry.entry_apply hent with ⟨hold, hne⟩ | hnew
  · obtain ⟨s, token, pc, hs, rfl, hreg⟩ := hp.user id t hold
    obtain ⟨pc', hs', hm⟩ := client_step h hs
    refine ⟨s, token, pc', hs', rfl, (hm.registered hreg).resolve_right fun hacc => ?_⟩
    exact hne (Access.userOp_unregister.mpr hacc)
  · obtain ⟨s, _, r', -, -, hs', hu, hrel⟩ := addUser_step h (Access.userOp_register hnew)
    cases r' with
    | server pc => cases hu
    | client token pc =>
        cases hu
        refine ⟨s, token, pc, hs', rfl, ?_⟩
        cases pc <;> trivial

theorem Routed.server_step {a : Action} (hp : Routed p) (h : p.step a = some p') {id : Bytes}
    (hent : p'.tables.serverRegistry.entry id = some t) :
    ∃ pc, p'.shape t = some (id, .server pc) := by
  rw [serverRegistry_step h] at hent
  rcases Registry.entry_apply hent with ⟨hold, -⟩ | hnew
  · obtain ⟨pc, hs⟩ := hp.server id t hold
    exact ProxyState.server_step h hs
  · obtain ⟨_, r', -, -, hs', hu, -⟩ := addServer_step h (Access.serverOp_register hnew)
    cases r' with
    | client token pc => cases hu
    | server pc => exact ⟨pc, hs'⟩

theorem Routed.step {a : Action} (hp : Routed p) (h : p.step a = some p') : Routed p' where
  user _ _ hent := hp.user_step h hent
  server _ _ hent := hp.server_step h hent
  known := by
    intro t s token pc' server hs' hserver
    cases hs : p.shape t with
    | none =>
        obtain ⟨serverMode, token', hr⟩ := shape_step_none h hs hs'
        cases serverMode <;> cases hr
        cases hserver
    | some v =>
        obtain ⟨s₀, r₀⟩ := v
        cases r₀ with
        | server pc =>
            obtain ⟨pc₁, h₁⟩ := ProxyState.server_step h hs
            rw [h₁] at hs'
            cases hs'
        | client token₀ pc =>
            obtain ⟨pc₁, h₁, hm⟩ := client_step h hs
            rw [h₁] at hs'
            cases hs'
            rcases hm.server server hserver with hknown | hfound
            · obtain ⟨pc₂, h₂⟩ := hp.known t s token pc server hs hknown
              exact ProxyState.server_step h h₂
            · obtain ⟨pc₂, h₂⟩ := hp.getServerById hfound
              exact ProxyState.server_step h h₂

/-! ## Packets along a step -/

theorem shape_of_mem_received {m : Message} (h : m ∈ p.received t) : ∃ s r, p.shape t = some (s, r) := by
  unfold received at h
  split at h
  · cases h
  · next task htask => exact ⟨_, _, shape_of_task htask⟩

theorem mem_received_step {a : Action} (h : p.step a = some p') {m : Message}
    (hm : m ∈ p'.received t) : m ∈ p.received t ∨ p.Delivers a t m := by
  rcases step_extends h t with heq | ⟨m', hd, heq⟩
  · rw [heq] at hm
    exact .inl hm
  · rw [heq, List.mem_append, List.mem_singleton] at hm
    rcases hm with hm | rfl
    · exact .inl hm
    · exact .inr hd

theorem received_subset_step {a : Action} (h : p.step a = some p') :
    p.received t ⊆ p'.received t := by
  intro m hm
  rcases step_extends h t with heq | ⟨m', -, heq⟩
  · rwa [heq]
  · rw [heq]
    exact List.mem_append_left _ hm

/-- A packet is on its way from a client to its server, or from a server to the
client that its frame names. -/
theorem Routed.delivers {a : Action} (hp : Routed p) {m : Message} (hd : p.Delivers a t m) :
    (∃ s pc token pc' data, p.shape t = some (s, .server pc) ∧
      p.shape m.origin = some (s, .client token pc') ∧
      m.data = prependIdentifier data (convertToken token)) ∨
    ∃ s token pc s' frame user, p.shape t = some (s, .client token pc) ∧ user.sender = t ∧
      p.ToClient a t m s' frame (convertToken token) user := by
  rcases hd with ⟨s, token, data, server, hto⟩ | ⟨s', frame, id, user, hto⟩
  · obtain ⟨known, disconnected, hs, hserver⟩ := hto.origin
    obtain ⟨pc, hdst⟩ : ∃ pc, p.shape server.sender = some (s, .server pc) := by
      rcases hserver with rfl | hfound
      · exact hp.known _ s token _ server hs rfl
      · exact hp.getServerById hfound
    rw [← hto.dst] at hdst
    exact .inl ⟨s, pc, token, _, data, hdst, hs, hto.data_eq⟩
  · obtain ⟨s, token, pc, hs, rfl, -⟩ := hp.getUserById hto.found
    rw [← hto.dst] at hs
    exact .inr ⟨s, token, pc, s', frame, user, hs, hto.dst.symm, hto⟩

/-- What a client connection was before a step, unless it is new. -/
theorem client_of_step {a : Action} (h : p.step a = some p') {s₀ : Bytes} {token : Bytes}
    {pc' : ClientPc} (hs : p.shape t = some (s₀, r)) (hs' : p'.shape t = some (s, .client token pc')) :
    ∃ pc, p.shape t = some (s, .client token pc) := by
  cases r with
  | server pc =>
      obtain ⟨pc₁, h₁⟩ := server_step h hs
      rw [h₁] at hs'
      cases hs'
  | client token₀ pc =>
      obtain ⟨pc₁, h₁, -⟩ := client_step h hs
      rw [h₁] at hs'
      cases hs'
      exact ⟨pc, hs⟩

theorem server_of_step {a : Action} (h : p.step a = some p') {s₀ : Bytes} {pc' : ServerPc}
    (hs : p.shape t = some (s₀, r)) (hs' : p'.shape t = some (s, .server pc')) :
    ∃ pc, p.shape t = some (s, .server pc) := by
  cases r with
  | server pc =>
      obtain ⟨pc₁, h₁⟩ := server_step h hs
      rw [h₁] at hs'
      cases hs'
      exact ⟨pc, hs⟩
  | client token₀ pc =>
      obtain ⟨pc₁, h₁, -⟩ := client_step h hs
      rw [h₁] at hs'
      cases hs'

/-! ## Isolation -/

/-- A server receives packets of its clients only, each behind the id of the client
that sent it. -/
def Identified (p : ProxyState) : Prop :=
  ∀ t s pc, p.shape t = some (s, .server pc) → ∀ m ∈ p.received t, ∃ token pc' data,
    p.shape m.origin = some (s, .client token pc') ∧
      m.data = prependIdentifier data (convertToken token)

/-- Each packet that a client has received was sent by a connection of a server
with the client's `server_id`, in a frame for the client's id. `hist` is the
steps that led to the state. -/
def Isolated (hist : List (ProxyState × Action)) (p : ProxyState) : Prop :=
  ∀ t s token pc, p.shape t = some (s, .client token pc) → ∀ m ∈ p.received t,
    ∃ pc', p.shape m.origin = some (s, .server pc') ∧
      ∃ q frame expired, (q, .run m.origin (.read frame expired)) ∈ hist ∧
        extractIdentifier frame = some (convertToken token, m.data)

/-- The step reads no frame of a server that names a registered client with
another `server_id`. -/
def NamesOwnClient (p : ProxyState) (a : Action) : Prop :=
  ∀ t frame expired s id packet user s' r, a = .run t (.read frame expired) →
    p.shape t = some (s, .server .relay) → extractIdentifier frame = some (id, packet) →
    p.manager.getUserById id = some user → p.shape user.sender = some (s', r) → s' = s

/-- The condition as a test. -/
def namesOwnClient (p : ProxyState) : Action → Bool
  | .run t (.read frame _) =>
      match p.shape t, extractIdentifier frame with
      | some (s, .server .relay), some (id, _) =>
          match (p.manager.getUserById id).bind fun user => p.shape user.sender with
          | none => true
          | some (s', _) => s' == s
      | _, _ => true
  | _ => true

theorem NamesOwnClient.of_test {a : Action} (h : p.namesOwnClient a = true) :
    p.NamesOwnClient a := by
  rintro t frame expired s id packet user s' r rfl hs hframe hfound hu
  simpa [namesOwnClient, hs, hframe, hfound, hu] using h

/-- The half of isolation that every run has: whose frame it was, and for which id. -/
def Addressed (hist : List (ProxyState × Action)) (p : ProxyState) : Prop :=
  ∀ t s token pc, p.shape t = some (s, .client token pc) → ∀ m ∈ p.received t,
    ∃ s' pc', p.shape m.origin = some (s', .server pc') ∧
      ∃ q frame expired, (q, .run m.origin (.read frame expired)) ∈ hist ∧
        extractIdentifier frame = some (convertToken token, m.data)

/-- The other half. -/
def FromOwnServer (p : ProxyState) : Prop :=
  ∀ t s token pc, p.shape t = some (s, .client token pc) → ∀ m ∈ p.received t,
    ∀ s' r, p.shape m.origin = some (s', r) → s' = s

theorem isolated_iff {hist : List (ProxyState × Action)} (hp : Addressed hist p) :
    Isolated hist p ↔ FromOwnServer p := by
  constructor
  · intro h t s token pc hs m hm s' r hs'
    obtain ⟨pc', ho, -⟩ := h t s token pc hs m hm
    rw [ho] at hs'
    cases hs'
    rfl
  · intro h t s token pc hs m hm
    obtain ⟨s', pc', ho, hframe⟩ := hp t s token pc hs m hm
    cases h t s token pc hs m hm s' _ ho
    exact ⟨pc', ho, hframe⟩

theorem Identified.step {a : Action} (hi : Identified p) (hp : Routed p) (h : p.step a = some p') :
    Identified p' := by
  intro t s pc' hs' m hm
  have hfwd : ∀ {token : Bytes} {pc : ClientPc}, p.shape m.origin = some (s, .client token pc) →
      ∃ pc', p'.shape m.origin = some (s, .client token pc') := by
    intro token pc hs
    obtain ⟨pc', h₁, -⟩ := client_step h hs
    exact ⟨pc', h₁⟩
  rcases mem_received_step h hm with hold | hd
  · obtain ⟨s₀, r₀, h₀⟩ := shape_of_mem_received hold
    obtain ⟨pc, hs⟩ := server_of_step h h₀ hs'
    obtain ⟨token, _, data, ho, hdata⟩ := hi t s pc hs m hold
    obtain ⟨pc'', ho'⟩ := hfwd ho
    exact ⟨token, pc'', data, ho', hdata⟩
  · rcases hp.delivers hd with ⟨s₁, pc, token, _, data, hs, ho, hdata⟩ | ⟨s₁, token, pc, _, _, _, hs, -⟩
    · obtain ⟨pc₁, h₁⟩ := server_step h hs
      rw [h₁] at hs'
      cases hs'
      obtain ⟨pc'', ho'⟩ := hfwd ho
      exact ⟨token, pc'', data, ho', hdata⟩
    · obtain ⟨pc₁, h₁, -⟩ := client_step h hs
      rw [h₁] at hs'
      cases hs'

theorem Addressed.step {hist : List (ProxyState × Action)} {a : Action} (ha : Addressed hist p)
    (hp : Routed p) (h : p.step a = some p') : Addressed (hist ++ [(p, a)]) p' := by
  intro t s token pc' hs' m hm
  rcases mem_received_step h hm with hold | hd
  · obtain ⟨s₀, r₀, h₀⟩ := shape_of_mem_received hold
    obtain ⟨pc, hs⟩ := client_of_step h h₀ hs'
    obtain ⟨s', _, ho, q, frame, expired, hmem, hframe⟩ := ha t s token pc hs m hold
    obtain ⟨pc₁, ho'⟩ := server_step h ho
    exact ⟨s', pc₁, ho', q, frame, expired, List.mem_append_left _ hmem, hframe⟩
  · rcases hp.delivers hd with ⟨s₁, pc, _, _, _, hs, -⟩ | ⟨s₁, token₁, pc, s', frame, user, hs, -, hto⟩
    · obtain ⟨pc₁, h₁⟩ := server_step h hs
      rw [h₁] at hs'
      cases hs'
    · obtain ⟨pc₁, h₁, -⟩ := client_step h hs
      rw [h₁] at hs'
      cases hs'
      obtain ⟨expired, rfl⟩ := hto.action
      obtain ⟨pc₂, ho'⟩ := server_step h hto.origin
      exact ⟨s', pc₂, ho', p, frame, expired, by simp, hto.frame_eq⟩

/-- A registered client's channel takes the packet. -/
theorem Routed.serverRead (hp : Routed p) {frame packet : Bytes} {expired : Bool} {id : UInt16}
    {user : User} (hs : p.shape t = some (s, .server .relay))
    (hframe : extractIdentifier frame = some (id, packet))
    (hfound : p.manager.getUserById id = some user)
    (h : p.step (.run t (.read frame expired)) = some p') :
    { origin := t, data := packet } ∈ p'.received user.sender := by
  obtain ⟨task, htask, heq⟩ := Option.map_eq_some_iff.mp hs
  simp only [Prod.mk.injEq] at heq
  simp only [ProxyState.step, htask, heq.2, serverStep, ProxyState.serverRead, hframe, hfound,
    Option.some.injEq] at h
  obtain ⟨s', token, pc, hu, -, hreg⟩ := hp.getUserById hfound
  obtain ⟨client, hclient, heq'⟩ := Option.map_eq_some_iff.mp hu
  simp only [Prod.mk.injEq] at heq'
  have hrec : client.receiving = true := by
    rw [Task.receiving, heq'.2]
    cases pc <;> first | rfl | exact hreg.elim
  cases hq : p.send user.sender { origin := t, data := packet } with
  | none => simp [send, hclient, hrec] at hq
  | some q =>
      rw [hq] at h
      subst h
      show _ ∈ q.received user.sender
      rw [received_send hq, if_pos rfl]
      simp

theorem fromOwnServer_step {hist : List (ProxyState × Action)} {a : Action} (hp : Routed p)
    (hadd : Addressed hist p) (h : p.step a = some p') :
    FromOwnServer p' ↔ FromOwnServer p ∧ NamesOwnClient p a := by
  constructor
  · intro hall
    refine ⟨?_, ?_⟩
    · intro t s token pc hs m hm s' r ho
      obtain ⟨pc', hs', -⟩ := client_step h hs
      obtain ⟨r', _, ho', -⟩ := shape_step h ho
      exact hall t s token pc' hs' m (received_subset_step h hm) s' r' ho'
    · intro t frame expired s id packet user s' r ha hs hframe hfound hu
      subst ha
      have hm := hp.serverRead hs hframe hfound h
      obtain ⟨s₁, token, pc, hu₁, -, -⟩ := hp.getUserById hfound
      rw [hu] at hu₁
      cases hu₁
      obtain ⟨pc', hu', -⟩ := client_step h hu
      obtain ⟨pc'', hs'⟩ := server_step h hs
      exact (hall _ s' token pc' hu' _ hm s _ hs').symm
  · rintro ⟨hall, hnames⟩ t s token pc' hs' m hm s' r ho'
    rcases mem_received_step h hm with hold | hd
    · obtain ⟨s₀, r₀, h₀⟩ := shape_of_mem_received hold
      obtain ⟨pc, hs⟩ := client_of_step h h₀ hs'
      obtain ⟨s₁, pc₁, ho, -⟩ := hadd t s token pc hs m hold
      obtain ⟨pc₂, h₂⟩ := server_step h ho
      rw [h₂] at ho'
      cases ho'
      exact hall t s token pc hs m hold s' _ ho
    · rcases hp.delivers hd with ⟨s₁, pc, _, _, _, hs, -⟩ | ⟨s₁, token₁, pc, s₂, frame, user, hs, hu, hto⟩
      · obtain ⟨pc₁, h₁⟩ := server_step h hs
        rw [h₁] at hs'
        cases hs'
      · obtain ⟨pc₁, h₁, -⟩ := client_step h hs
        rw [h₁] at hs'
        cases hs'
        obtain ⟨expired, ha⟩ := hto.action
        obtain ⟨pc₂, h₂⟩ := server_step h hto.origin
        rw [h₂] at ho'
        cases ho'
        rw [← hu] at hs
        exact (hnames _ frame expired s' _ _ user s _ ha hto.origin hto.frame_eq hto.found hs).symm

/-- What a run keeps. -/
structure Traced (hist : List (ProxyState × Action)) (p : ProxyState) : Prop where
  routed : Routed p
  identified : Identified p
  addressed : Addressed hist p
  own : FromOwnServer p ↔ ∀ m ∈ hist, m.1.NamesOwnClient m.2

theorem Traced.init : Traced [] {} := by
  refine ⟨.init, ?_, ?_, ?_⟩
  · intro t s pc hs
    simp [shape] at hs
  · intro t s token pc hs
    simp [shape] at hs
  · refine ⟨by simp, fun _ t s token pc hs => ?_⟩
    simp [shape] at hs

theorem Traced.step {hist : List (ProxyState × Action)} {a : Action} (hp : Traced hist p)
    (h : p.step a = some p') : Traced (hist ++ [(p, a)]) p' := by
  refine ⟨hp.routed.step h, hp.identified.step hp.routed h, hp.addressed.step hp.routed h, ?_⟩
  rw [fromOwnServer_step hp.routed hp.addressed h, hp.own, List.forall_mem_append,
    List.forall_mem_singleton]

end ProxyState

open ProxyState

/-- In every run a server's packets come from its own clients, under their ids,
and a client's come from its own server, addressed to its id, exactly if no step
reads a frame of a server that names a client of another one. -/
theorem isolated_run_iff {as : List Action} {p : ProxyState} (h : exec step {} as = some p) :
    p.Identified ∧
      (Isolated (moves step {} as) p ↔ ∀ m ∈ moves step {} as, m.1.NamesOwnClient m.2) := by
  have hp : Traced (moves step {} as) p := exec_moves_rule Traced Traced.step Traced.init h
  exact ⟨hp.identified, (isolated_iff hp.addressed).trans hp.own⟩

/-- A client of server `[7]` sends a packet and is answered. -/
def answeredRun : List Action :=
  [.accept true [7] [], .run 0 .proceed, .run 0 .proceed,
    .accept false [7] [1], .run 1 .proceed, .run 1 .proceed, .run 1 .proceed, .run 1 .proceed,
    .run 1 (.read [5] false), .run 0 .recv, .run 0 (.read [0, 1, 6] false), .run 1 .recv]

theorem answered_isolated : ∃ p, exec step {} answeredRun = some p ∧
    (p.received 0, p.received 1) = ([⟨1, [0, 1, 5]⟩], [⟨0, [6]⟩]) ∧
    p.Identified ∧ Isolated (moves step {} answeredRun) p := by
  have h : (exec step {} answeredRun).map (fun p => (p.received 0, p.received 1))
      = some ([⟨1, [0, 1, 5]⟩], [⟨0, [6]⟩]) := by decide
  obtain ⟨p, hp, hrec⟩ := Option.map_eq_some_iff.mp h
  obtain ⟨hid, hiff⟩ := isolated_run_iff hp
  have hown : (moves step {} answeredRun).all (fun m => m.1.namesOwnClient m.2) = true := by
    decide
  refine ⟨p, hp, hrec, hid, hiff.mpr fun m hm => ?_⟩
  exact .of_test (List.all_eq_true.mp hown m hm)

/-- A server names the client of another one. -/
def strayRun : List Action :=
  [.accept true [7] [], .run 0 .proceed, .run 0 .proceed,
    .accept true [8] [], .run 1 .proceed, .run 1 .proceed,
    .accept false [7] [1], .run 2 .proceed, .run 2 .proceed, .run 2 .proceed, .run 2 .proceed,
    .run 1 (.read [0, 1, 6] false), .run 2 .recv]

theorem stray_not_isolated : ∃ p, exec step {} strayRun = some p ∧
    (p.tasks[2]?).map (fun task => (task.serverId, task.sent)) = some ([7], [⟨1, [6]⟩]) ∧
    p.shape 1 = some ([8], .server .relay) ∧ ¬ Isolated (moves step {} strayRun) p := by
  have hshape : (exec step {} strayRun).map (fun p => (p.shape 1, p.shape 2))
      = some (some ([8], .server .relay),
          some ([7], .client [1] (.relay { userType := .server [7], sender := 0 } false))) := by
    decide
  have hsent : (exec step {} strayRun).map (fun p =>
      (p.tasks[2]?).map fun task => (task.serverId, task.sent))
      = some (some ([7], [⟨1, [6]⟩])) := by decide
  obtain ⟨p, hp, heq⟩ := Option.map_eq_some_iff.mp hshape
  simp only [Prod.mk.injEq] at heq
  obtain ⟨hserver, hclient⟩ := heq
  rw [hp] at hsent
  simp only [Option.map_some, Option.some.injEq] at hsent
  refine ⟨p, hp, hsent, hserver, fun hall => ?_⟩
  obtain ⟨task, htask, heq⟩ := Option.map_eq_some_iff.mp hsent
  have hm : { origin := 1, data := [6] } ∈ p.received 2 := by
    simp only [Prod.mk.injEq] at heq
    rw [received_of_task htask, heq.2]
    simp
  obtain ⟨pc', horigin, -⟩ := hall 2 _ _ _ hclient _ hm
  rw [hserver] at horigin
  cases horigin

end Kyber.Proxy
