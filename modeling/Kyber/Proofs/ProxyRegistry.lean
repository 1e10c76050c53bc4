import Kyber.Lib.Maps
import Kyber.Lib.Registry
import Kyber.Lib.Runs
import Kyber.Proxy.Connection

/-!
# Who is registered with the proxy

The two tables of the proxy are registries: a connection enters itself under an
id, and connections are deleted by id. What each is for is that a connection in
its relay loop is found under its id, unless a later one has registered there.

Not every run keeps this. A connection that has been replaced deletes the id when
it ends, and the entry it deletes is its successor's. The results here say which
steps are to blame: along a run the registry is right in every state exactly if
no step deletes an id while the connection that registered it last is in its
loop.

A step is seen through two projections. `access` is what it does to the tables,
a function of the state before it; `shape` is where every task stands, which a
step changes for the task that takes it only.
-/

namespace Kyber.Proxy

open Kyber.Lib

/-! ## Phases of a connection -/

inductive Phase
  | connecting
  | relaying
  | finished
  deriving DecidableEq, Repr

def Role.phase : Role → Phase
  | .client _ (.relay _ _) | .server .relay => .relaying
  | .client _ (.leave _) | .client _ .done | .server (.leave _) | .server .done => .finished
  | _ => .connecting

/-- The id a client registers under. -/
def Role.userId : Role → Option UInt16
  | .client token _ => some (convertToken token)
  | .server _ => none

def Role.isServer : Role → Bool
  | .client _ _ => false
  | .server _ => true

/-- A connection's role changes from `r` to `r'` in one step. `registers` says
that the step is its `add_user` or `add_server`. -/
structure Role.Moves (registers : Prop) (r r' : Role) : Prop where
  userId_eq : r'.userId = r.userId
  isServer_eq : r'.isServer = r.isServer
  started : r.phase ≠ .connecting → r'.phase ≠ .connecting
  relays : r'.phase = .relaying → r.phase = .relaying ∨ registers
  registered : registers → r'.phase = .relaying

/-- The move of a connection that does not register. -/
theorem Role.Moves.of_phase {r r' : Role} (hu : r'.userId = r.userId)
    (hs : r'.isServer = r.isServer) (h₁ : r.phase ≠ .connecting → r'.phase ≠ .connecting)
    (h₂ : r'.phase = .relaying → r.phase = .relaying) : r.Moves False r' :=
  ⟨hu, hs, h₁, fun h => .inl (h₂ h), False.elim⟩

theorem Role.Moves.rfl {r : Role} : Role.Moves False r r := .of_phase (.refl _) (.refl _) id id

namespace ProxyState

/-- Where task `t` stands, and the server it is for. -/
def shape (p : ProxyState) (t : TaskId) : Option (Bytes × Role) :=
  (p.tasks[t]?).map fun task => (task.serverId, task.role)

theorem shape_of_task {p : ProxyState} {t : TaskId} {task : Task}
    (h : p.tasks[t]? = some task) : p.shape t = some (task.serverId, task.role) := by
  rw [shape, h]
  rfl

/-- Queues and counters are not part of the shape. -/
theorem shape_setTask {p : ProxyState} {t : TaskId} {task new : Task}
    (h : p.tasks[t]? = some task) (hs : new.serverId = task.serverId)
    (hr : new.role = task.role) : (p.setTask t new).shape = p.shape := by
  funext i
  simp only [shape, setTask, List.getElem?_set]
  split
  · next hi =>
      subst hi
      obtain ⟨hlt, -⟩ := List.getElem?_eq_some_iff.mp h
      rw [if_pos hlt, h]
      simp [hs, hr]
  · rfl

theorem shape_send {p p' : ProxyState} {dst : TaskId} {message : Message}
    (h : p.send dst message = some p') : p'.shape = p.shape := by
  unfold send at h
  split at h
  · cases h
  · next task htask =>
      split at h
      · cases h
        exact shape_setTask htask rfl rfl
      · cases h

@[simp] theorem shape_sendCancel (p : ProxyState) (dst : TaskId) :
    (p.sendCancel dst).shape = p.shape := by
  unfold sendCancel
  split
  · rfl
  · next task htask =>
      split
      · exact shape_setTask htask rfl rfl
      · rfl

theorem shape_goto {p : ProxyState} {t : TaskId} {s : Bytes} {r : Role}
    (h : p.shape t = some (s, r)) (role : Role) :
    (p.goto t role).shape = Function.update p.shape t (some (s, role)) := by
  funext i
  by_cases hi : i = t
  · subst hi
    obtain ⟨task, htask, hs⟩ := Option.map_eq_some_iff.mp h
    cases hs
    simp [shape, goto, htask]
  · rw [Function.update_of_ne hi]
    simp [shape, goto, List.getElem?_modify_ne _ _ (Ne.symm hi)]

/-! ## What a step does -/

/-- An access to the tables that changes them. -/
inductive Access
  | none
  | removeUser (id : UInt16)
  | addUser (id : UInt16) (t : TaskId)
  | removeServer (id : Bytes)
  | addServer (id : Bytes) (t : TaskId)
  deriving DecidableEq, Repr

/-- The access of a task that stands at `role`, when it goes on. -/
def roleAccess (t : TaskId) (serverId : Bytes) : Role → Access
  | .client token (.removeOld _ _) | .client token (.addRemove _) | .client token (.leave _) =>
      .removeUser (convertToken token)
  | .client token (.addInsert _) => .addUser (convertToken token) t
  | .server .add => .addServer serverId t
  | .server (.leave true) => .removeServer serverId
  | _ => .none

/-- The access that an action makes in the state `p`. -/
def access (p : ProxyState) : Action → Access
  | .run t .proceed =>
      match p.tasks[t]? with
      | none => .none
      | some task => roleAccess t task.serverId task.role
  | _ => .none

/-- The tables, and who registered last. -/
structure Tables where
  manager : UserManager
  lastUser : Std.TreeMap UInt16 TaskId
  lastServer : Std.TreeMap Bytes TaskId

def tables (p : ProxyState) : Tables := ⟨p.manager, p.lastUser, p.lastServer⟩

def Tables.after (b : Tables) : Access → UserType → Tables
  | .none, _ => b
  | .removeUser id, _ => { b with manager := b.manager.removeUser id }
  | .addUser id t, userType =>
      { b with manager := b.manager.insertUser id { userType, sender := t }
               lastUser := b.lastUser.insert id t }
  | .removeServer id, _ => { b with manager := b.manager.removeServer id }
  | .addServer id t, _ =>
      { b with manager := b.manager.addServer t id, lastServer := b.lastServer.insert id t }

@[simp] theorem tables_goto (p : ProxyState) (t : TaskId) (role : Role) :
    (p.goto t role).tables = p.tables := rfl

@[simp] theorem tables_setTask (p : ProxyState) (t : TaskId) (task : Task) :
    (p.setTask t task).tables = p.tables := rfl

theorem tables_send {p p' : ProxyState} {dst : TaskId} {message : Message}
    (h : p.send dst message = some p') : p'.tables = p.tables := by
  unfold send at h
  split at h
  · cases h
  · split at h <;> cases h
    rfl

@[simp] theorem tables_sendCancel (p : ProxyState) (dst : TaskId) :
    (p.sendCancel dst).tables = p.tables := by
  unfold sendCancel
  split
  · rfl
  · split <;> rfl

def Access.registers : Access → Prop
  | .addUser _ _ | .addServer _ _ => True
  | .none | .removeUser _ | .removeServer _ => False

/-- Task `t`, which stands at `r`, makes a step with the access `acc`. -/
structure Stepped (p : ProxyState) (t : TaskId) (s : Bytes) (r : Role) (acc : Access)
    (p' : ProxyState) : Prop where
  tables_eq : ∃ userType, p'.tables = p.tables.after acc userType
  shape_eq : ∃ r', p'.shape = Function.update p.shape t (some (s, r')) ∧
    r.Moves acc.registers r'

variable {p p' : ProxyState} {t : TaskId} {s : Bytes} {r : Role} {acc : Access}

theorem Stepped.goto {q : ProxyState} {role : Role} (userType : UserType)
    (hs : p.shape t = some (s, r)) (hq : q.shape = p.shape)
    (ht : q.tables = p.tables.after acc userType) (hm : r.Moves acc.registers role) :
    Stepped p t s r acc (q.goto t role) := by
  refine ⟨⟨userType, ht⟩, role, ?_, hm⟩
  rw [shape_goto (by rw [hq]; exact hs), hq]

theorem Stepped.quiet (hs : p.shape t = some (s, r)) (hq : p'.shape = p.shape)
    (ht : p'.tables = p.tables) : Stepped p t s r .none p' := by
  refine ⟨⟨.server [], ht⟩, r, ?_, Role.Moves.rfl⟩
  rw [hq, ← hs, Function.update_eq_self]

theorem recvStep_stepped {task : Task} (htask : p.tasks[t]? = some task) {ended : Role}
    (hm : task.role.Moves False ended) (h : p.recvStep t task ended = some p') :
    Stepped p t task.serverId task.role .none p' := by
  have hs := shape_of_task htask
  unfold recvStep at h
  split at h
  · cases h
    exact .quiet hs (shape_setTask htask rfl rfl) rfl
  · split at h
    · cases h
    · cases h
      exact .goto (.server []) hs rfl rfl hm

theorem clientRead_stepped {task : Task} (htask : p.tasks[t]? = some task) {token : Bytes}
    {server : User} {disconnected : Bool} {data : Bytes} {expired : Bool}
    (hr : task.role = .client token (.relay server disconnected)) :
    Stepped p t task.serverId task.role .none
      (p.clientRead t task.serverId token server disconnected data expired) := by
  have hs := shape_of_task htask
  have hm : ∀ pc, Role.phase (.client token pc) ≠ .connecting →
      task.role.Moves False (.client token pc) := by
    intro pc hpc
    rw [hr]
    exact Role.Moves.of_phase rfl rfl (fun _ => hpc) fun _ => rfl
  unfold clientRead
  simp only []
  split
  · next q hq => exact .quiet hs (shape_send hq) (tables_send hq)
  · split
    · split
      · exact .goto (.server []) hs rfl rfl (hm _ (by simp [Role.phase]))
      · exact .goto (.server []) hs rfl rfl (hm _ (by simp [Role.phase]))
    · next newServer _ =>
        have hgo : Stepped p t task.serverId task.role .none
            (p.goto t (.client token (.relay newServer false))) :=
          .goto (.server []) hs rfl rfl (hm _ (by simp [Role.phase]))
        cases hq : (p.goto t (.client token (.relay newServer false))).send newServer.sender
            { origin := t, data := prependIdentifier data (convertToken token) } with
        | none => exact hgo
        | some q =>
            obtain ⟨⟨ut, hut⟩, r', hr', hmoves⟩ := hgo
            exact ⟨⟨ut, (tables_send hq).trans hut⟩, r', (shape_send hq).trans hr', hmoves⟩

theorem serverRead_stepped {task : Task} (htask : p.tasks[t]? = some task) {data : Bytes}
    (hr : task.role = .server .relay) :
    Stepped p t task.serverId task.role .none (p.serverRead t data) := by
  have hs := shape_of_task htask
  unfold serverRead
  split
  · refine .goto (.server []) hs rfl rfl ?_
    rw [hr]
    exact .of_phase rfl rfl (by simp [Role.phase]) (by simp [Role.phase])
  · split
    · exact .quiet hs rfl rfl
    · next user _ =>
        cases hq : p.send user.sender _ with
        | none => exact .quiet hs rfl rfl
        | some q => exact .quiet hs (shape_send hq) (tables_send hq)

/-- The access of a task's step. Within the loop it makes none. -/
def eventAccess (t : TaskId) (serverId : Bytes) (role : Role) : Event → Access
  | .proceed => roleAccess t serverId role
  | .read _ _ | .readOther | .readEnd | .recv | .cancel => .none

theorem clientStep_stepped {task : Task} (htask : p.tasks[t]? = some task) {token : Bytes}
    {pc : ClientPc} {e : Event} (hr : task.role = .client token pc)
    (h : p.clientStep t task token pc e = some p') :
    Stepped p t task.serverId task.role (eventAccess t task.serverId task.role e) p' := by
  have hs := shape_of_task htask
  unfold clientStep at h
  simp only [] at h
  split at h
  -- Connecting: looking up the server and the user of the same id, cancelling it.
  · split at h <;> cases h <;> rw [hr] at hs ⊢ <;>
      exact .goto (.server []) hs rfl rfl
        (.of_phase rfl rfl (by simp [Role.phase]) (by simp [Role.phase]))
  · split at h <;> cases h <;> rw [hr] at hs ⊢ <;>
      exact .goto (.server []) hs rfl rfl
        (.of_phase rfl rfl (by simp [Role.phase]) (by simp [Role.phase]))
  · cases h
    rw [hr] at hs ⊢
    exact .goto (.server []) hs (shape_sendCancel _ _) (tables_sendCancel _ _)
      (.of_phase rfl rfl (by simp [Role.phase]) (by simp [Role.phase]))
  · cases h
    rw [hr] at hs ⊢
    exact .goto (.server []) hs rfl rfl
      (.of_phase rfl rfl (by simp [Role.phase]) (by simp [Role.phase]))
  -- `add_user`.
  · split at h <;> cases h <;> rw [hr] at hs ⊢ <;>
      exact .goto (.server []) hs rfl rfl
        (.of_phase rfl rfl (by simp [Role.phase]) (by simp [Role.phase]))
  · cases h
    rw [hr] at hs ⊢
    exact .goto (.server []) hs rfl rfl
      (.of_phase rfl rfl (by simp [Role.phase]) (by simp [Role.phase]))
  · cases h
    rw [hr] at hs ⊢
    exact .goto (.client (convertToken token) task.serverId) hs rfl rfl
      ⟨rfl, rfl, by simp [Role.phase], fun _ => .inr trivial, fun _ => rfl⟩
  -- The loop.
  · cases h
    exact clientRead_stepped htask hr
  · cases h
    exact .quiet hs rfl rfl
  · cases h
    rw [hr] at hs ⊢
    exact .goto (.server []) hs rfl rfl
      (.of_phase rfl rfl (by simp [Role.phase]) (by simp [Role.phase]))
  · refine recvStep_stepped htask ?_ h
    rw [hr]
    exact .of_phase rfl rfl (by simp [Role.phase]) (by simp [Role.phase])
  · cases h
    rw [hr] at hs ⊢
    exact .goto (.server []) hs rfl rfl
      (.of_phase rfl rfl (by simp [Role.phase]) (by simp [Role.phase]))
  · cases h

theorem serverStep_stepped {task : Task} (htask : p.tasks[t]? = some task) {pc : ServerPc}
    {e : Event} (hr : task.role = .server pc) (h : p.serverStep t task pc e = some p') :
    Stepped p t task.serverId task.role (eventAccess t task.serverId task.role e) p' := by
  have hs := shape_of_task htask
  unfold serverStep at h
  simp only [] at h
  split at h
  · split at h <;> cases h <;> rw [hr] at hs ⊢ <;>
      exact .goto (.server []) hs rfl rfl
        (.of_phase rfl rfl (by simp [Role.phase]) (by simp [Role.phase]))
  · cases h
    rw [hr] at hs ⊢
    exact .goto (.server []) hs (shape_sendCancel _ _) (tables_sendCancel _ _)
      (.of_phase rfl rfl (by simp [Role.phase]) (by simp [Role.phase]))
  · cases h
    rw [hr] at hs ⊢
    exact .goto (.server []) hs rfl rfl
      ⟨rfl, rfl, by simp [Role.phase], fun _ => .inr trivial, fun _ => rfl⟩
  -- The loop.
  · cases h
    exact serverRead_stepped htask hr
  · cases h
    exact .quiet hs rfl rfl
  · cases h
    rw [hr] at hs ⊢
    exact .goto (.server []) hs rfl rfl
      (.of_phase rfl rfl (by simp [Role.phase]) (by simp [Role.phase]))
  · refine recvStep_stepped htask ?_ h
    rw [hr]
    exact .of_phase rfl rfl (by simp [Role.phase]) (by simp [Role.phase])
  · have hset : (p.setTask t { task with cancels := task.cancels - 1 }).shape = p.shape :=
      shape_setTask htask rfl rfl
    split at h
    · cases h
      rw [hr] at hs hset ⊢
      exact .goto (.server []) hs hset rfl
        (.of_phase rfl rfl (by simp [Role.phase]) (by simp [Role.phase]))
    · split at h <;> cases h
      rw [hr] at hs ⊢
      exact .goto (.server []) hs rfl rfl
        (.of_phase rfl rfl (by simp [Role.phase]) (by simp [Role.phase]))
  · next removeServer =>
      cases removeServer <;> cases h <;> rw [hr] at hs ⊢ <;>
        exact .goto (.server []) hs rfl rfl
          (.of_phase rfl rfl (by simp [Role.phase]) (by simp [Role.phase]))
  · cases h

theorem eventAccess_of_relaying {e : Event} (h : r.phase = .relaying) :
    eventAccess t s r e = .none := by
  cases e with
  | proceed =>
      cases r with
      | client token pc => cases pc <;> first | rfl | simp [Role.phase] at h
      | server pc => cases pc <;> first | rfl | simp [Role.phase] at h
  | read _ _ | readOther | readEnd | recv | cancel => rfl

/-- What a step can do: a connection is accepted, or one task moves on. -/
theorem step_cases {a : Action} (h : p.step a = some p') :
    (∃ serverMode serverId token, a = .accept serverMode serverId token ∧ p'.tables = p.tables ∧
      p'.tasks = p.tasks ++ [accepted serverMode serverId token]) ∨
    ∃ t e s r, a = .run t e ∧ p.shape t = some (s, r) ∧ p.access a = eventAccess t s r e ∧
      Stepped p t s r (p.access a) p' := by
  cases a with
  | accept serverMode serverId token =>
      simp only [step] at h
      split at h
      · cases h
      · cases h
        exact .inl ⟨serverMode, serverId, token, rfl, rfl, rfl⟩
  | run t e =>
      simp only [step] at h
      cases htask : p.tasks[t]? with
      | none => simp [htask] at h
      | some task =>
          simp only [htask] at h
          have hacc : p.access (.run t e) = eventAccess t task.serverId task.role e := by
            cases e <;> simp [access, eventAccess, htask]
          refine .inr ⟨t, e, task.serverId, task.role, rfl, shape_of_task htask, hacc, ?_⟩
          rw [hacc]
          cases hr : task.role with
          | client token pc =>
              simp only [hr] at h
              rw [← hr]
              exact clientStep_stepped htask hr h
          | server pc =>
              simp only [hr] at h
              rw [← hr]
              exact serverStep_stepped htask hr h

/-! ## Shapes along a step -/

theorem shape_accepted {serverMode : Bool} {serverId token : Bytes}
    (h : p'.tasks = p.tasks ++ [accepted serverMode serverId token]) (t : TaskId) :
    p'.shape t = p.shape t ∨ p.shape t = none ∧
      ∃ r, p'.shape t = some (serverId, r) ∧ r.phase = .connecting := by
  simp only [shape, h]
  rcases Nat.lt_trichotomy t p.tasks.length with hlt | rfl | hgt
  · rw [List.getElem?_append_left hlt]
    exact .inl rfl
  · refine .inr ⟨by simp, (accepted serverMode serverId token).role, by simp [accepted], ?_⟩
    cases serverMode <;> rfl
  · have hle := Nat.le_of_lt hgt
    rw [List.getElem?_append_right hle, List.getElem?_eq_none (by simp; omega),
      List.getElem?_eq_none hle]
    exact .inl rfl

/-- Every task is there after a step, and has at most moved on. -/
theorem shape_step {a : Action} (h : p.step a = some p') {t : TaskId} {s : Bytes} {r : Role}
    (hs : p.shape t = some (s, r)) :
    ∃ r' registers, p'.shape t = some (s, r') ∧ r.Moves registers r' := by
  rcases step_cases h with ⟨m, sid, token, rfl, -, htasks⟩ | ⟨t₀, e, s₀, r₀, rfl, hs₀, -, hst⟩
  · rcases shape_accepted htasks t with heq | ⟨hnone, -⟩
    · exact ⟨r, False, heq.trans hs, Role.Moves.rfl⟩
    · rw [hs] at hnone
      cases hnone
  · obtain ⟨r', hr', hm⟩ := hst.shape_eq
    rw [hr']
    by_cases ht : t = t₀
    · subst ht
      rw [hs] at hs₀
      cases hs₀
      exact ⟨r', _, by simp, hm⟩
    · rw [Function.update_of_ne ht]
      exact ⟨r, False, hs, Role.Moves.rfl⟩

/-- A task that is in its loop after a step was there before, or the step is its
registration. -/
theorem relaying_of_step {a : Action} (h : p.step a = some p') {t : TaskId} {s : Bytes}
    {r' : Role} (hs : p'.shape t = some (s, r')) (hrel : r'.phase = .relaying) :
    ∃ r, p.shape t = some (s, r) ∧ r'.userId = r.userId ∧ r'.isServer = r.isServer ∧
      (r.phase = .relaying ∨ ∃ e, p.access a = eventAccess t s r e ∧ (p.access a).registers) := by
  rcases step_cases h with ⟨m, sid, token, rfl, -, htasks⟩ | ⟨t₀, e, s₀, r₀, rfl, hs₀, hacc, hst⟩
  · rcases shape_accepted htasks t with heq | ⟨-, r, hr, hc⟩
    · exact ⟨r', heq ▸ hs, rfl, rfl, .inl hrel⟩
    · rw [hr] at hs
      cases hs
      rw [hrel] at hc
      cases hc
  · obtain ⟨r₁, hr₁, hm⟩ := hst.shape_eq
    rw [hr₁] at hs
    by_cases ht : t = t₀
    · subst ht
      rw [Function.update_self] at hs
      cases hs
      refine ⟨r₀, hs₀, hm.userId_eq, hm.isServer_eq, ?_⟩
      rcases hm.relays hrel with hr | hreg
      · exact .inl hr
      · exact .inr ⟨e, hacc, hreg⟩
    · rw [Function.update_of_ne ht] at hs
      exact ⟨r', hs, rfl, rfl, .inl hrel⟩

/-- A step that is not a registration leaves every loop as it is, unless it is
taken by the task in the loop. -/
theorem relaying_step {a : Action} (h : p.step a = some p') {t : TaskId} {s : Bytes} {r : Role}
    (hs : p.shape t = some (s, r)) (hrel : r.phase = .relaying)
    (hacc : p.access a ≠ .none) : p'.shape t = some (s, r) := by
  rcases step_cases h with ⟨m, sid, token, rfl, -, htasks⟩ | ⟨t₀, e, s₀, r₀, rfl, hs₀, he, hst⟩
  · exact absurd rfl hacc
  · obtain ⟨r₁, hr₁, hm⟩ := hst.shape_eq
    rw [hr₁]
    by_cases ht : t = t₀
    · subst ht
      rw [hs] at hs₀
      cases hs₀
      -- In the loop no task touches the tables.
      rw [he] at hacc
      exact absurd (eventAccess_of_relaying hrel) hacc
    · rw [Function.update_of_ne ht, hs]

/-! ## The two registries -/

def Tables.userRegistry (b : Tables) : Registry UInt16 TaskId where
  entry id := (b.manager.getUserById id).map User.sender
  latest id := b.lastUser[id]?

def Tables.serverRegistry (b : Tables) : Registry Bytes TaskId where
  entry id := (b.manager.getServerById id).map User.sender
  latest id := b.lastServer[id]?

def Access.userOp : Access → Registry.Op UInt16 TaskId
  | .removeUser id => .unregister id
  | .addUser id t => .register id t
  | .none | .removeServer _ | .addServer _ _ => .skip

def Access.serverOp : Access → Registry.Op Bytes TaskId
  | .removeServer id => .unregister id
  | .addServer id t => .register id t
  | .none | .removeUser _ | .addUser _ _ => .skip

theorem Tables.userRegistry_after (b : Tables) (acc : Access) (userType : UserType) :
    (b.after acc userType).userRegistry = b.userRegistry.apply acc.userOp := by
  cases acc with
  | none | removeServer _ | addServer _ _ => rfl
  | removeUser id =>
      have h := update_erase b.manager.users id User.sender
      exact congrArg (Registry.mk · fun id => b.lastUser[id]?) h
  | addUser id t =>
      have h := update_insert b.manager.users id { userType, sender := t } User.sender
      have hl := update_insert b.lastUser id t fun t => t
      simp only [Option.map_id'] at hl
      exact congrArg₂ Registry.mk h hl

theorem Tables.serverRegistry_after (b : Tables) (acc : Access) (userType : UserType) :
    (b.after acc userType).serverRegistry = b.serverRegistry.apply acc.serverOp := by
  cases acc with
  | none | removeUser _ | addUser _ _ => rfl
  | removeServer id =>
      have h := update_erase b.manager.servers id User.sender
      exact congrArg (Registry.mk · fun id => b.lastServer[id]?) h
  | addServer id t =>
      have h := update_insert b.manager.servers id { userType := .server id, sender := t }
        User.sender
      have hl := update_insert b.lastServer id t fun t => t
      simp only [Option.map_id'] at hl
      exact congrArg₂ Registry.mk h hl

/-- The access is all that happens to the tables. -/
theorem tables_step {a : Action} (h : p.step a = some p') :
    ∃ userType, p'.tables = p.tables.after (p.access a) userType := by
  rcases step_cases h with ⟨m, sid, token, rfl, ht, -⟩ | ⟨t, e, s, r, rfl, -, -, hst⟩
  · exact ⟨.server [], ht⟩
  · exact hst.tables_eq

theorem userRegistry_step {a : Action} (h : p.step a = some p') :
    p'.tables.userRegistry = p.tables.userRegistry.apply (p.access a).userOp := by
  obtain ⟨userType, ht⟩ := tables_step h
  rw [ht, Tables.userRegistry_after]

theorem serverRegistry_step {a : Action} (h : p.step a = some p') :
    p'.tables.serverRegistry = p.tables.serverRegistry.apply (p.access a).serverOp := by
  obtain ⟨userType, ht⟩ := tables_step h
  rw [ht, Tables.serverRegistry_after]

theorem Access.userOp_register {id : UInt16} (h : acc.userOp = .register id t) :
    acc = .addUser id t := by
  cases acc <;> cases h
  rfl

theorem Access.serverOp_register {id : Bytes} (h : acc.serverOp = .register id t) :
    acc = .addServer id t := by
  cases acc <;> cases h
  rfl

theorem Access.userOp_unregister {id : UInt16} :
    acc.userOp = .unregister id ↔ acc = .removeUser id := by
  cases acc <;> simp [Access.userOp]

theorem Access.serverOp_unregister {id : Bytes} :
    acc.serverOp = .unregister id ↔ acc = .removeServer id := by
  cases acc <;> simp [Access.serverOp]

/-- Task `t` is in the relay loop of a server or of a client. -/
def Relays (p : ProxyState) (server : Bool) (t : TaskId) : Prop :=
  ∃ s r, p.shape t = some (s, r) ∧ r.phase = .relaying ∧ r.isServer = server

/-- Who registered last has registered: it is past connecting, under this id. -/
structure Registered (p : ProxyState) : Prop where
  user : ∀ id t, p.lastUser[id]? = some t →
    ∃ s r, p.shape t = some (s, r) ∧ r.userId = some id ∧ r.phase ≠ .connecting
  server : ∀ id t, p.lastServer[id]? = some t →
    ∃ r, p.shape t = some (id, r) ∧ r.isServer = true ∧ r.phase ≠ .connecting

theorem Registered.init : Registered {} := by
  constructor <;> intro id t h <;> simp at h

theorem eventAccess_addUser {e : Event} {id : UInt16} {t₀ : TaskId}
    (h : eventAccess t s r e = .addUser id t₀) :
    t₀ = t ∧ r.userId = some id ∧ r.phase = .connecting := by
  cases e with
  | proceed =>
      simp only [eventAccess] at h
      unfold roleAccess at h
      split at h <;> cases h
      exact ⟨rfl, rfl, rfl⟩
  | read _ _ | readOther | readEnd | recv | cancel => cases h

theorem eventAccess_addServer {e : Event} {id : Bytes} {t₀ : TaskId}
    (h : eventAccess t s r e = .addServer id t₀) :
    t₀ = t ∧ id = s ∧ r.isServer = true ∧ r.phase = .connecting := by
  cases e with
  | proceed =>
      simp only [eventAccess] at h
      unfold roleAccess at h
      split at h <;> cases h
      exact ⟨rfl, rfl, rfl, rfl⟩
  | read _ _ | readOther | readEnd | recv | cancel => cases h

/-- An `add_user` is made by a task that is connecting, for itself, and brings it
into its loop. -/
theorem addUser_step {a : Action} (h : p.step a = some p') {id : UInt16} {t : TaskId}
    (hacc : p.access a = .addUser id t) :
    ∃ s r r', p.shape t = some (s, r) ∧ r.phase = .connecting ∧
      p'.shape t = some (s, r') ∧ r'.userId = some id ∧ r'.phase = .relaying := by
  rcases step_cases h with ⟨m, sid, token, rfl, -, -⟩ | ⟨t₀, e, s, r, rfl, hs, he, hst⟩
  · cases hacc
  · obtain ⟨r', hr', hm⟩ := hst.shape_eq
    rw [he] at hacc
    obtain ⟨rfl, hu, hc⟩ := eventAccess_addUser hacc
    refine ⟨s, r, r', hs, hc, by simp [hr'], hm.userId_eq.trans hu, hm.registered ?_⟩
    rw [he, hacc]
    trivial

theorem addServer_step {a : Action} (h : p.step a = some p') {id : Bytes} {t : TaskId}
    (hacc : p.access a = .addServer id t) :
    ∃ r r', p.shape t = some (id, r) ∧ r.phase = .connecting ∧
      p'.shape t = some (id, r') ∧ r'.isServer = true ∧ r'.phase = .relaying := by
  rcases step_cases h with ⟨m, sid, token, rfl, -, -⟩ | ⟨t₀, e, s, r, rfl, hs, he, hst⟩
  · cases hacc
  · obtain ⟨r', hr', hm⟩ := hst.shape_eq
    rw [he] at hacc
    obtain ⟨rfl, rfl, hu, hc⟩ := eventAccess_addServer hacc
    refine ⟨r, r', hs, hc, by simp [hr'], hm.isServer_eq.trans hu, hm.registered ?_⟩
    rw [he, hacc]
    trivial

theorem Registered.step {a : Action} (hp : Registered p) (h : p.step a = some p') :
    Registered p' := by
  constructor
  · intro id t hl
    have hl' : p'.tables.userRegistry.latest id = some t := hl
    rw [userRegistry_step h] at hl'
    rcases Registry.latest_apply hl' with hold | hnew
    · obtain ⟨s, r, hs, hu, hc⟩ := hp.user id t hold
      obtain ⟨r', _, hs', hm⟩ := shape_step h hs
      exact ⟨s, r', hs', hm.userId_eq.trans hu, hm.started hc⟩
    · obtain ⟨s, _, r', -, -, hs', hu, hrel⟩ := addUser_step h (Access.userOp_register hnew)
      exact ⟨s, r', hs', hu, by simp [hrel]⟩
  · intro id t hl
    have hl' : p'.tables.serverRegistry.latest id = some t := hl
    rw [serverRegistry_step h] at hl'
    rcases Registry.latest_apply hl' with hold | hnew
    · obtain ⟨r, hs, hu, hc⟩ := hp.server id t hold
      obtain ⟨r', _, hs', hm⟩ := shape_step h hs
      exact ⟨r', hs', hm.isServer_eq.trans hu, hm.started hc⟩
    · obtain ⟨_, r', -, -, hs', hu, hrel⟩ := addServer_step h (Access.serverOp_register hnew)
      exact ⟨r', hs', hu, by simp [hrel]⟩

/-- A deletion ends nobody's loop: it is made outside of it. -/
theorem Relays.step {a : Action} {server : Bool} (h : p.step a = some p')
    (hacc : p.access a ≠ .none) (ht : p.Relays server t) : p'.Relays server t := by
  obtain ⟨s, r, hs, hrel, hk⟩ := ht
  exact ⟨s, r, relaying_step h hs hrel hacc, hrel, hk⟩

theorem Relays.of_step_user {a : Action} (h : p.step a = some p') (ht : p'.Relays false t) :
    p.Relays false t ∨ ∃ id, p.access a = .addUser id t := by
  obtain ⟨s, r', hs', hrel, hk⟩ := ht
  obtain ⟨r, hs, -, hsrv, hr | ⟨e, he, hreg⟩⟩ := relaying_of_step h hs' hrel
  · exact .inl ⟨s, r, hs, hr, hsrv.symm.trans hk⟩
  · right
    cases hacc : p.access a with
    | none | removeUser _ | removeServer _ => simp [hacc, Access.registers] at hreg
    | addUser id t₀ =>
        obtain ⟨rfl, -⟩ := eventAccess_addUser (he.symm.trans hacc)
        exact ⟨id, rfl⟩
    | addServer id t₀ =>
        obtain ⟨-, -, hserver, -⟩ := eventAccess_addServer (he.symm.trans hacc)
        rw [hsrv, hserver] at hk
        cases hk

theorem Relays.of_step_server {a : Action} (h : p.step a = some p') (ht : p'.Relays true t) :
    p.Relays true t ∨ ∃ id, p.access a = .addServer id t := by
  obtain ⟨s, r', hs', hrel, hk⟩ := ht
  obtain ⟨r, hs, -, hsrv, hr | ⟨e, he, hreg⟩⟩ := relaying_of_step h hs' hrel
  · exact .inl ⟨s, r, hs, hr, hsrv.symm.trans hk⟩
  · right
    cases hacc : p.access a with
    | none | removeUser _ | removeServer _ => simp [hacc, Access.registers] at hreg
    | addServer id t₀ =>
        obtain ⟨rfl, -⟩ := eventAccess_addServer (he.symm.trans hacc)
        exact ⟨id, rfl⟩
    | addUser id t₀ =>
        obtain ⟨-, huser, -⟩ := eventAccess_addUser (he.symm.trans hacc)
        cases r with
        | client _ _ =>
            rw [hsrv] at hk
            cases hk
        | server _ => cases huser

/-! ## Clients -/

/-- The step of the client registry: it stays right exactly if no id is deleted
whose last registered client is in its loop. -/
theorem userCurrent_step {a : Action} (hp : Registered p)
    (hcur : p.tables.userRegistry.Current (p.Relays false)) (h : p.step a = some p') :
    p'.tables.userRegistry.Current (p'.Relays false) ↔
      ∀ id, p.access a = .removeUser id → ∀ t, p.lastUser[id]? = some t → ¬ p.Relays false t := by
  rw [userRegistry_step h, Registry.current_apply_iff hcur]
  · constructor
    · intro h' id hid
      exact h' id (Access.userOp_unregister.mpr hid)
    · intro h' id hid
      exact h' id (Access.userOp_unregister.mp hid)
  · intro id t hop id' hl
    obtain ⟨s, r, _, hs, hc, -⟩ := addUser_step h (Access.userOp_register hop)
    obtain ⟨_, _, hs', -, hc'⟩ := hp.user id' t hl
    rw [hs] at hs'
    cases hs'
    exact hc' hc
  · intro t ht
    rcases Relays.of_step_user h ht with hold | ⟨id, hid⟩
    · exact .inl hold
    · exact .inr ⟨id, by simp [hid, Access.userOp]⟩
  · intro id hop t ht
    have hacc := Access.userOp_unregister.mp hop
    exact ht.step h (by simp [hacc])

/-- `t` is a client in its relay loop. -/
def ClientRelaying (p : ProxyState) (t : TaskId) : Prop :=
  ∃ task token server disconnected, p.tasks[t]? = some task ∧
    task.role = .client token (.relay server disconnected)

/-- A client in its relay loop is found under its id, unless a later client has
registered that id. -/
def UsersFound (p : ProxyState) : Prop :=
  ∀ t task token server disconnected, p.tasks[t]? = some task →
    task.role = .client token (.relay server disconnected) →
    p.lastUser[convertToken token]? = some t →
    (p.manager.getUserById (convertToken token)).map User.sender = some t

theorem clientRelaying_iff {t : TaskId} : p.ClientRelaying t ↔ p.Relays false t := by
  constructor
  · rintro ⟨task, token, server, disconnected, htask, hr⟩
    exact ⟨task.serverId, task.role, shape_of_task htask, by rw [hr]; rfl, by rw [hr]; rfl⟩
  · rintro ⟨s, r, hs, hrel, hk⟩
    obtain ⟨task, htask, heq⟩ := Option.map_eq_some_iff.mp hs
    cases heq
    cases hr : task.role with
    | server pc =>
        rw [hr] at hk
        cases hk
    | client token pc =>
        rw [hr] at hrel
        cases pc with
        | relay server disconnected => exact ⟨task, token, server, disconnected, htask, hr⟩
        | _ => cases hrel

theorem usersFound_iff (hp : Registered p) :
    p.UsersFound ↔ p.tables.userRegistry.Current (p.Relays false) := by
  constructor
  · intro h id t hl hrel
    obtain ⟨task, token, server, disconnected, htask, hr⟩ := clientRelaying_iff.mpr hrel
    obtain ⟨s, r, hs, hu, -⟩ := hp.user id t hl
    rw [shape_of_task htask, hr] at hs
    cases hs
    cases hu
    exact h t task token server disconnected htask hr hl
  · intro h t task token server disconnected htask hr hl
    exact h _ t hl (clientRelaying_iff.mp ⟨task, token, server, disconnected, htask, hr⟩)

theorem UsersFound.init : UsersFound {} := by
  intro t task token server disconnected htask
  simp at htask

/-- The step removes no user id whose last registered client is in its relay
loop. -/
def SparesClients (p : ProxyState) (a : Action) : Prop :=
  ∀ id, p.access a = .removeUser id → ∀ t, p.lastUser[id]? = some t → ¬ p.ClientRelaying t

end ProxyState

open ProxyState

/-- Along a run the client registry is right in every state exactly if every step
spares the clients in their loops. -/
theorem usersFound_run_iff (as : List Action) :
    (∀ p ∈ visits step {} as, p.UsersFound) ↔ ∀ m ∈ moves step {} as, m.1.SparesClients m.2 := by
  refine forall_visits_iff_forall_moves step Registered SparesClients (fun hp h => hp.step h)
    ?_ Registered.init UsersFound.init as
  intro p a p' hp hfound h
  rw [usersFound_iff (hp.step h), userCurrent_step hp ((usersFound_iff hp).mp hfound) h]
  simp only [SparesClients, clientRelaying_iff]

/-- A client connects again with the same token. Its second connection removes
the first one's entry, so the first one's channel is closed, its loop ends, and
what it then removes is the entry of the second. -/
def reconnectRun : List Action :=
  [.accept true [7] [], .run 0 .proceed, .run 0 .proceed,
    .accept false [7] [1], .run 1 .proceed, .run 1 .proceed, .run 1 .proceed, .run 1 .proceed,
    .accept false [7] [1], .run 2 .proceed, .run 2 .proceed, .run 2 .proceed, .run 2 .proceed,
    .run 2 .proceed, .run 2 .proceed, .run 1 .recv, .run 1 .proceed]

theorem reconnect_removes_successor :
    ∃ p, exec step {} reconnectRun = some p ∧ p.ClientRelaying 2 ∧ p.lastUser[(1 : UInt16)]? = some 2 ∧
      p.manager.getUserById 1 = none ∧ ¬ ∀ q ∈ visits step {} reconnectRun, q.UsersFound := by
  have h : (exec step {} reconnectRun).map (fun p =>
      ((p.tasks[2]?).map Task.role, p.lastUser[(1 : UInt16)]?, p.manager.getUserById 1))
      = some (some (.client [1] (.relay { userType := .server [7], sender := 0 } false)),
          some 2, none) := by decide
  obtain ⟨p, hp, heq⟩ := Option.map_eq_some_iff.mp h
  simp only [Prod.mk.injEq] at heq
  obtain ⟨hrole, hlast, hget⟩ := heq
  obtain ⟨task, htask, hr⟩ := Option.map_eq_some_iff.mp hrole
  refine ⟨p, hp, ⟨task, _, _, _, htask, hr⟩, hlast, hget, ?_⟩
  intro hall
  have hfound := hall p (mem_visits_of_exec hp) 2 task _ _ _ htask hr hlast
  rw [show convertToken [1] = 1 by decide, hget] at hfound
  cases hfound

/-! ## Servers -/

namespace ProxyState

variable {p p' : ProxyState}

theorem serverCurrent_step {a : Action} (hp : Registered p)
    (hcur : p.tables.serverRegistry.Current (p.Relays true)) (h : p.step a = some p') :
    p'.tables.serverRegistry.Current (p'.Relays true) ↔
      ∀ id, p.access a = .removeServer id →
        ∀ t, p.lastServer[id]? = some t → ¬ p.Relays true t := by
  rw [serverRegistry_step h, Registry.current_apply_iff hcur]
  · constructor
    · intro h' id hid
      exact h' id (Access.serverOp_unregister.mpr hid)
    · intro h' id hid
      exact h' id (Access.serverOp_unregister.mp hid)
  · intro id t hop id' hl
    obtain ⟨r, _, hs, hc, -⟩ := addServer_step h (Access.serverOp_register hop)
    obtain ⟨_, hs', -, hc'⟩ := hp.server id' t hl
    rw [hs] at hs'
    cases hs'
    exact hc' hc
  · intro t ht
    rcases Relays.of_step_server h ht with hold | ⟨id, hid⟩
    · exact .inl hold
    · exact .inr ⟨id, by simp [hid, Access.serverOp]⟩
  · intro id hop t ht
    have hacc := Access.serverOp_unregister.mp hop
    exact ht.step h (by simp [hacc])

/-- `t` is a server in its relay loop. -/
def ServerRelaying (p : ProxyState) (t : TaskId) : Prop :=
  ∃ task, p.tasks[t]? = some task ∧ task.role = .server .relay

/-- A server in its relay loop is found under its id, unless a later server has
registered that id. -/
def ServersFound (p : ProxyState) : Prop :=
  ∀ t task, p.tasks[t]? = some task → task.role = .server .relay →
    p.lastServer[task.serverId]? = some t →
    (p.manager.getServerById task.serverId).map User.sender = some t

theorem serverRelaying_iff {t : TaskId} : p.ServerRelaying t ↔ p.Relays true t := by
  constructor
  · rintro ⟨task, htask, hr⟩
    exact ⟨task.serverId, task.role, shape_of_task htask, by rw [hr]; rfl, by rw [hr]; rfl⟩
  · rintro ⟨s, r, hs, hrel, hk⟩
    obtain ⟨task, htask, heq⟩ := Option.map_eq_some_iff.mp hs
    cases heq
    cases hr : task.role with
    | client token pc =>
        rw [hr] at hk
        cases hk
    | server pc =>
        rw [hr] at hrel
        cases pc with
        | relay => exact ⟨task, htask, hr⟩
        | _ => cases hrel

theorem serversFound_iff (hp : Registered p) :
    p.ServersFound ↔ p.tables.serverRegistry.Current (p.Relays true) := by
  constructor
  · intro h id t hl hrel
    obtain ⟨task, htask, hr⟩ := serverRelaying_iff.mpr hrel
    obtain ⟨r, hs, -⟩ := hp.server id t hl
    rw [shape_of_task htask] at hs
    cases hs
    exact h t task htask hr hl
  · intro h t task htask hr hl
    exact h _ t hl (serverRelaying_iff.mp ⟨task, htask, hr⟩)

theorem ServersFound.init : ServersFound {} := by
  intro t task htask
  simp at htask

/-- The step removes no server id whose last registered server is in its relay
loop. -/
def SparesServers (p : ProxyState) (a : Action) : Prop :=
  ∀ id, p.access a = .removeServer id → ∀ t, p.lastServer[id]? = some t → ¬ p.ServerRelaying t

end ProxyState

/-- Along a run the server registry is right in every state exactly if every step
spares the servers in their loops. -/
theorem serversFound_run_iff (as : List Action) :
    (∀ p ∈ visits step {} as, p.ServersFound) ↔
      ∀ m ∈ moves step {} as, m.1.SparesServers m.2 := by
  refine forall_visits_iff_forall_moves step Registered SparesServers (fun hp h => hp.step h)
    ?_ Registered.init ServersFound.init as
  intro p a p' hp hfound h
  rw [serversFound_iff (hp.step h), serverCurrent_step hp ((serversFound_iff hp).mp hfound) h]
  simp only [SparesServers, serverRelaying_iff]

/-- A second server registers under an id while the socket of the first one
closes. The first one sees the end of its socket before its cancel message, and
removes the id. -/
def takeoverRun : List Action :=
  [.accept true [7] [], .run 0 .proceed, .run 0 .proceed,
    .accept true [7] [], .run 1 .proceed, .run 1 .proceed, .run 1 .proceed,
    .run 0 .readEnd, .run 0 .proceed]

theorem takeover_removes_successor :
    ∃ p, exec step {} takeoverRun = some p ∧ p.ServerRelaying 1 ∧
      p.lastServer[([7] : Bytes)]? = some 1 ∧ p.manager.getServerById [7] = none ∧
      ¬ ∀ q ∈ visits step {} takeoverRun, q.ServersFound := by
  have h : (exec step {} takeoverRun).map (fun p =>
      ((p.tasks[1]?).map fun task => (task.serverId, task.role),
        p.lastServer[([7] : Bytes)]?, p.manager.getServerById [7]))
      = some (some ([7], .server .relay), some 1, none) := by decide
  obtain ⟨p, hp, heq⟩ := Option.map_eq_some_iff.mp h
  simp only [Prod.mk.injEq] at heq
  obtain ⟨hshape, hlast, hget⟩ := heq
  obtain ⟨task, htask, hr⟩ := Option.map_eq_some_iff.mp hshape
  obtain ⟨hsid, hr⟩ := Prod.mk.inj hr
  refine ⟨p, hp, ⟨task, htask, hr⟩, hlast, hget, ?_⟩
  intro hall
  have hfound := hall p (mem_visits_of_exec hp) 1 task htask hr (by rw [hsid]; exact hlast)
  rw [hsid, hget] at hfound
  cases hfound

end Kyber.Proxy
