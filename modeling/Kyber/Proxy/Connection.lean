import Kyber.Proxy.UserManager

/-!
# Connections (`accept_connection` in `main.rs`)

The proxy is the set of its connections, each a task that runs
`accept_connection`, and the two tables they share. A step is one access of one
task to something that others see: a table, a channel or its socket. The
scheduler picks the task and the environment what its socket does, so a run of
the step function is one interleaving.

A task is modelled from where its token has been validated and its `server_id`
claim is known and not empty; before that it touches nothing shared.

Three details matter to what a run can do. A channel is closed when no `User`
that leads to it is left, neither in a table nor in a variable of a task; then
`recv` answers `None`, and both `rx` and `cancel_rx` of the task are ready. The
`_cancel_rx` of a client is never polled. And a client's loop ends by removing
its id from the table whatever the reason, while a server's does not after a
cancel message.

Looking a receiver up and sending to it is one step here. In the source the
receiver can be removed from the table in between, and the packet then reaches
the same queue a little later.
-/

namespace Kyber.Proxy

/-- A packet in a channel, with the task that sent it. -/
structure Message where
  origin : TaskId
  data : Bytes
  deriving DecidableEq, Repr

/-- Where a client connection stands, with the `User`s its variables hold. -/
inductive ClientPc
  /-- `get_server_by_id(server_id)` -/
  | lookupServer
  /-- `get_user_by_id(converted_token)` -/
  | lookupUser (server : User)
  /-- `user.cancel_token.send(())` -/
  | cancelOld (server user : User)
  /-- `remove_user(converted_token)` -/
  | removeOld (server user : User)
  /-- `add_user`: `contains_key` -/
  | addContains (server : User)
  /-- `add_user`: `remove` -/
  | addRemove (server : User)
  /-- `add_user`: `insert` -/
  | addInsert (server : User)
  /-- the loop; `disconnected` is `server_disconnect_time.is_some()` -/
  | relay (server : User) (disconnected : Bool)
  /-- `remove_user(user_id)` -/
  | leave (server : User)
  | done
  deriving DecidableEq, Repr

/-- Where a server connection stands. -/
inductive ServerPc
  /-- `get_server_by_id(server_id)` -/
  | lookup
  /-- `server.cancel_token.send(())` -/
  | cancelOld (server : User)
  /-- `add_server` -/
  | add
  | relay
  /-- behind the loop; `removeServer` is the variable of that name -/
  | leave (removeServer : Bool)
  | done
  deriving DecidableEq, Repr

inductive Role
  | client (token : Bytes) (pc : ClientPc)
  | server (pc : ServerPc)
  deriving DecidableEq, Repr

structure Task where
  serverId : Bytes
  role : Role
  /-- packets in `rx` -/
  inbox : List Message := []
  /-- messages in `cancel_rx` -/
  cancels : Nat := 0
  /-- packets written to the socket -/
  sent : List Message := []
  deriving DecidableEq, Repr

namespace Task

/-- The `User`s held by the task's variables. -/
def held (task : Task) : List User :=
  match task.role with
  | .client _ pc =>
      match pc with
      | .lookupServer | .done => []
      | .lookupUser server | .addContains server | .addRemove server | .addInsert server
      | .relay server _ | .leave server => [server]
      | .cancelOld server user | .removeOld server user => [server, user]
  | .server pc =>
      match pc with
      | .cancelOld server => [server]
      | .lookup | .add | .relay | .leave _ | .done => []

/-- The task's receivers have not been dropped. -/
def receiving (task : Task) : Bool :=
  match task.role with
  | .client _ .done | .server .done => false
  | _ => true

end Task

/-- What the task that is scheduled does. -/
inductive Event
  /-- its next statement, outside of the loop -/
  | proceed
  /-- `read.next()` answers a binary or text message. `expired` is what
  `disconnect_time.elapsed() > SERVER_RECONNECT_TIMEOUT` answers if asked. -/
  | read (data : Bytes) (expired : Bool)
  /-- `read.next()` answers a message of another kind -/
  | readOther
  /-- `read.next()` answers an error or the end of the stream -/
  | readEnd
  /-- `rx.recv()` -/
  | recv
  /-- `cancel_rx.recv()` -/
  | cancel
  deriving DecidableEq, Repr

inductive Action
  /-- A connection whose token is valid and claims the `server_id`. -/
  | accept (serverMode : Bool) (serverId token : Bytes)
  | run (t : TaskId) (e : Event)
  deriving DecidableEq, Repr

/-- `lastUser` and `lastServer` are history: the task that has made the last
`add_user` or `add_server` for an id. No step reads them. -/
structure ProxyState where
  manager : UserManager := {}
  tasks : List Task := []
  lastUser : Std.TreeMap UInt16 TaskId := {}
  lastServer : Std.TreeMap Bytes TaskId := {}

namespace ProxyState

/-- The sender halves of task `t`'s channels have not all been dropped. -/
def reachable (p : ProxyState) (t : TaskId) : Bool :=
  p.manager.users.toList.any (fun e => e.2.sender = t) ||
    p.manager.servers.toList.any (fun e => e.2.sender = t) ||
    p.tasks.any fun task => task.held.any fun user => user.sender = t

def setTask (p : ProxyState) (t : TaskId) (task : Task) : ProxyState :=
  { p with tasks := p.tasks.set t task }

/-- `sender.send(message)`, which fails when the receiver has been dropped. -/
def send (p : ProxyState) (dst : TaskId) (message : Message) : Option ProxyState :=
  match p.tasks[dst]? with
  | none => none
  | some task =>
      if task.receiving then
        some (p.setTask dst { task with inbox := task.inbox ++ [message] })
      else
        none

/-- `cancel_token.send(())`, with the result dropped or logged. -/
def sendCancel (p : ProxyState) (dst : TaskId) : ProxyState :=
  match p.tasks[dst]? with
  | none => p
  | some task =>
      if task.receiving then p.setTask dst { task with cancels := task.cancels + 1 } else p

/-- Task `t` moves on. -/
def goto (p : ProxyState) (t : TaskId) (role : Role) : ProxyState :=
  { p with tasks := p.tasks.modify t fun task => { task with role } }

/-- The `rx` branch of either loop: `ended` is where the loop's `break` leads. -/
def recvStep (p : ProxyState) (t : TaskId) (task : Task) (ended : Role) : Option ProxyState :=
  match task.inbox with
  | message :: inbox => some (p.setTask t { task with inbox, sent := task.sent ++ [message] })
  | [] => if p.reachable t then none else some (p.goto t ended)

/-! ## Client connections -/

/-- A packet for the server: `server` is the sender at hand, and when it is dead
the one that has been registered since. -/
def clientRead (p : ProxyState) (t : TaskId) (serverId token : Bytes) (server : User)
    (disconnected : Bool) (data : Bytes) (expired : Bool) : ProxyState :=
  let message : Message := { origin := t, data := prependIdentifier data (convertToken token) }
  match p.send server.sender message with
  | some p => p
  | none =>
      match p.manager.getServerById serverId with
      | none =>
          if disconnected && expired then
            p.goto t (.client token (.leave server))
          else
            p.goto t (.client token (.relay server true))
      | some newServer =>
          let p := p.goto t (.client token (.relay newServer false))
          (p.send newServer.sender message).getD p

def clientStep (p : ProxyState) (t : TaskId) (task : Task) (token : Bytes) (pc : ClientPc)
    (e : Event) : Option ProxyState :=
  let userId := convertToken token
  let next (p : ProxyState) (pc : ClientPc) : ProxyState := p.goto t (.client token pc)
  match pc, e with
  | .lookupServer, .proceed =>
      match p.manager.getServerById task.serverId with
      | none => some (next p .done)
      | some server => some (next p (.lookupUser server))
  | .lookupUser server, .proceed =>
      match p.manager.getUserById userId with
      | none => some (next p (.addContains server))
      | some user => some (next p (.cancelOld server user))
  | .cancelOld server user, .proceed =>
      some (next (p.sendCancel user.sender) (.removeOld server user))
  | .removeOld server _, .proceed =>
      some (next { p with manager := p.manager.removeUser userId } (.addContains server))
  | .addContains server, .proceed =>
      if (p.manager.getUserById userId).isSome then
        some (next p (.addRemove server))
      else
        some (next p (.addInsert server))
  | .addRemove server, .proceed =>
      some (next { p with manager := p.manager.removeUser userId } (.addInsert server))
  | .addInsert server, .proceed =>
      let user : User := { userType := .client userId task.serverId, sender := t }
      some (next { p with manager := p.manager.insertUser userId user
                          lastUser := p.lastUser.insert userId t } (.relay server false))
  | .relay server disconnected, .read data expired =>
      some (p.clientRead t task.serverId token server disconnected data expired)
  | .relay _ _, .readOther => some p
  | .relay server _, .readEnd => some (next p (.leave server))
  | .relay server _, .recv => p.recvStep t task (.client token (.leave server))
  | .leave _, .proceed =>
      some (next { p with manager := p.manager.removeUser userId } .done)
  | _, _ => none

/-! ## Server connections -/

/-- A packet for a client. A packet too short for an identifier panics, which
ends the task where it stands. -/
def serverRead (p : ProxyState) (t : TaskId) (data : Bytes) : ProxyState :=
  match extractIdentifier data with
  | none => p.goto t (.server .done)
  | some (identifier, packet) =>
      match p.manager.getUserById identifier with
      | none => p
      | some user => (p.send user.sender { origin := t, data := packet }).getD p

def serverStep (p : ProxyState) (t : TaskId) (task : Task) (pc : ServerPc) (e : Event) :
    Option ProxyState :=
  let next (p : ProxyState) (pc : ServerPc) : ProxyState := p.goto t (.server pc)
  match pc, e with
  | .lookup, .proceed =>
      match p.manager.getServerById task.serverId with
      | none => some (next p .add)
      | some server => some (next p (.cancelOld server))
  | .cancelOld server, .proceed => some (next (p.sendCancel server.sender) .add)
  | .add, .proceed =>
      some (next { p with manager := p.manager.addServer t task.serverId
                          lastServer := p.lastServer.insert task.serverId t } .relay)
  | .relay, .read data _ => some (p.serverRead t data)
  | .relay, .readOther => some p
  | .relay, .readEnd => some (next p (.leave true))
  | .relay, .recv => p.recvStep t task (.server (.leave true))
  | .relay, .cancel =>
      if 0 < task.cancels then
        some (next (p.setTask t { task with cancels := task.cancels - 1 }) (.leave false))
      else if p.reachable t then
        none
      else
        some (next p (.leave false))
  | .leave removeServer, .proceed =>
      if removeServer then
        some (next { p with manager := p.manager.removeServer task.serverId } .done)
      else
        some (next p .done)
  | _, _ => none

/-! ## The proxy -/

/-- A new connection's task. -/
def accepted (serverMode : Bool) (serverId token : Bytes) : Task where
  serverId := serverId
  role := if serverMode then .server .lookup else .client token .lookupServer

def step (p : ProxyState) : Action → Option ProxyState
  | .accept serverMode serverId token =>
      if serverId.isEmpty then
        none
      else
        some { p with tasks := p.tasks ++ [accepted serverMode serverId token] }
  | .run t e =>
      match p.tasks[t]? with
      | none => none
      | some task =>
          match task.role with
          | .client token pc => p.clientStep t task token pc e
          | .server pc => p.serverStep t task pc e

end ProxyState

end Kyber.Proxy
