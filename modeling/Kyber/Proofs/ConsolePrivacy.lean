import Kyber.Proofs.ConsoleLines

/-!
# What management clients see of the console

Clients and game servers need not be connected to the same instance of the API. The
exchange gives each instance the lines of all servers in the order in which they are
published, so a client's lines are those that its instance has taken since the client
connected, less the ones that are not for it.

Lines without a text are not passed on at all.
-/

namespace Kyber.Api

open Kyber.Lib Json ServerManager

/-- The lines in the queue of an instance. -/
def Instance.lines (inst : Instance) : List ConsoleEvent := inst.queue.flatMap consoleOfBody

/-- The lines that come in a step: from a game server, or as the message of a call. -/
def consoleEvents (mv : ApiState × ApiAction) : List ConsoleEvent :=
  match mv.2 with
  | .socket i a =>
      match mv.1.instances[i]? with
      | some inst => inst.ws.eventsAt a
      | none => []
  | .publishNext k =>
      match mv.1.calls[k]? with
      | some (msg :: _) => consoleOf msg
      | _ => []
  | .receive _ | .call _ => []

/-- The lines that instance `i` takes from its queue in a step. -/
def consoleTaken (i : Nat) (mv : ApiState × ApiAction) : List ConsoleEvent :=
  match mv.2 with
  | .receive j =>
      if j = i then ((mv.1.instances[i]?).bind (·.queue.head?)).elim [] consoleOfBody else []
  | _ => []

/-! ## What a step does to one instance -/

namespace ApiState

variable {s s' : ApiState} {a : ApiAction}

structure Sound (s : ApiState) : Prop where
  sockets : ∀ inst ∈ s.instances, inst.ws.Sound
  queued : ∀ inst ∈ s.instances, ∀ e ∈ inst.lines, e.hasText = true
  calls : ∀ call ∈ s.calls, ∀ msg ∈ call,
    msg.RoundTrips ∧ ∀ e ∈ consoleOf msg, e.hasText = true

/-- The steps of the instances and of the calls. -/
inductive Effect (s : ApiState) : ApiAction → ApiState → Prop
  | socket (i : Nat) (b : WsAction) (inst : Instance) (ws : WsState) (hd : ∀ d, b ≠ .deliver d)
      (hi : s.instances[i]? = some inst) (h : inst.ws.step b = some ws) :
      Effect s (.socket i b) ({ s with instances := s.instances.set i { inst with ws } }.publish
        (published (ws.sent.drop inst.ws.sent.length)))
  | receive (i : Nat) (ws : WsState) (body : Option Json) (rest : List (Option Json))
      (result : ServerManager × List Output) (hi : s.instances[i]? = some ⟨ws, body :: rest⟩)
      (h : ws.manager.deliver (delivery body) = .ok result) :
      Effect s (.receive i) ({ s with instances := s.instances.set i ⟨ws.run result, rest⟩ }.publish
        (published result.2))
  | call (c : Call) : Effect s (.call c) { s with calls := s.calls ++ [c.messages] }
  | publishNext (k : Nat) (msg : APIManagementMessage) (rest : List APIManagementMessage)
      (hk : s.calls[k]? = some (msg :: rest)) :
      Effect s (.publishNext k) ({ s with calls := s.calls.set k rest }.publish
        (published (publishWS msg msg.serverID)))

theorem step_effect (h : s.step a = some s') : Effect s a s' := by
  cases a with
  | socket i b =>
      have hd : ∀ d, b ≠ .deliver d := by
        rintro d rfl
        cases h
      rw [step] at h
      · obtain ⟨inst, hi, h⟩ := Option.bind_eq_some_iff.mp h
        obtain ⟨ws, hws, rfl⟩ := Option.map_eq_some_iff.mp h
        exact .socket i b inst ws hd hi hws
      · exact hd
  | receive i =>
      rw [step] at h
      split at h
      · next ws body rest hi =>
          obtain ⟨ws', hws, rfl⟩ := Option.map_eq_some_iff.mp h
          obtain ⟨result, hresult, rfl⟩ := Option.map_eq_some_iff.mp hws
          rw [WsState.run, List.drop_left]
          exact .receive i ws body rest result hi (WsState.eq_ok_of_toOption hresult)
      · cases h
  | call c =>
      cases h
      exact .call c
  | publishNext k =>
      rw [step] at h
      split at h
      · next msg rest hk =>
          cases h
          exact .publishNext k msg rest hk
      · cases h

theorem Effect.length_eq (h : Effect s a s') : s'.instances.length = s.instances.length := by
  cases h <;> simp [publish]

/-- What becomes of instance `i` when `lines` are published. -/
inductive Moved (i : Nat) (inst : Instance) (lines : List ConsoleEvent) :
    ApiAction → Instance → Prop
  | other (a : ApiAction) (bodies : List (Option Json))
      (hb : bodies.flatMap consoleOfBody = lines) (hsocket : ∀ b, a ≠ .socket i b)
      (hreceive : a ≠ .receive i) : Moved i inst lines a ⟨inst.ws, inst.queue ++ bodies⟩
  | socket (b : WsAction) (ws : WsState) (bodies : List (Option Json))
      (hb : bodies.flatMap consoleOfBody = lines) (h : WsState.Effect inst.ws b ws) :
      Moved i inst lines (.socket i b) ⟨ws, inst.queue ++ bodies⟩
  | receive (body : Option Json) (rest bodies : List (Option Json))
      (result : ServerManager × List Output) (hq : inst.queue = body :: rest)
      (hb : bodies.flatMap consoleOfBody = lines)
      (h : inst.ws.manager.deliver (delivery body) = .ok result) :
      Moved i inst lines (.receive i) ⟨inst.ws.run result, rest ++ bodies⟩

theorem getElem?_publish (s : ApiState) (bodies : List (Option Json)) (i : Nat) :
    (s.publish bodies).instances[i]? =
      (s.instances[i]?).map fun inst => ⟨inst.ws, inst.queue ++ bodies⟩ :=
  List.getElem?_map

theorem getElem?_set_publish (s : ApiState) {i j : Nat} {inst : Instance} (new : Instance)
    (bodies : List (Option Json)) (hi : s.instances[i]? = some inst) :
    ({ s with instances := s.instances.set j new }.publish bodies).instances[i]? =
      if j = i then some ⟨new.ws, new.queue ++ bodies⟩
      else some ⟨inst.ws, inst.queue ++ bodies⟩ := by
  rw [getElem?_publish]
  by_cases hij : j = i
  · subst hij
    rw [if_pos rfl, List.getElem?_set_self (List.getElem?_eq_some_iff.mp hi).1, Option.map_some]
  · rw [if_neg hij, List.getElem?_set_ne hij, hi, Option.map_some]

theorem Effect.moved (h : Effect s a s') (hs : s.Sound) (ha : a.FromStore) {i : Nat}
    {inst : Instance} (hi : s.instances[i]? = some inst) :
    ∃ inst', s'.instances[i]? = some inst' ∧
      Moved i inst ((consoleEvents (s, a)).filter ConsoleEvent.hasText) a inst' := by
  cases h with
  | socket j b acting ws hd hj h =>
      have heff := WsState.step_effect h hd
      obtain ⟨out, hsent, -, hpublished⟩ :=
        heff.out (hs.sockets acting (List.mem_of_getElem? hj)) ha
      have hbodies : (published (ws.sent.drop acting.ws.sent.length)).flatMap consoleOfBody =
          (consoleEvents (s, .socket j b)).filter ConsoleEvent.hasText := by
        simp only [hsent, List.drop_left, hpublished, consoleEvents, hj]
      rw [getElem?_set_publish s _ _ hi]
      by_cases hij : j = i
      · subst hij
        cases hj.symm.trans hi
        rw [if_pos rfl]
        exact ⟨_, rfl, .socket b ws _ hbodies heff⟩
      · rw [if_neg hij]
        refine ⟨_, rfl, .other _ _ hbodies (fun b' heq => ?_) fun heq => ?_⟩
        · cases heq
          exact hij rfl
        · cases heq
  | receive j ws body rest result hj h =>
      rw [getElem?_set_publish s _ _ hi]
      by_cases hij : j = i
      · subst hij
        cases hj.symm.trans hi
        rw [if_pos rfl]
        exact ⟨_, rfl, .receive body rest _ result rfl (deliver_out 0 h).1 h⟩
      · rw [if_neg hij]
        refine ⟨_, rfl, .other _ _ (deliver_out 0 h).1 (fun b' heq => ?_) fun heq => ?_⟩
        · cases heq
        · cases heq
          exact hij rfl
  | call c =>
      refine ⟨_, ?_, .other _ [] rfl (fun b' heq => ?_) fun heq => ?_⟩
      · rw [List.append_nil]
        exact hi
      · cases heq
      · cases heq
  | publishNext k msg rest hk =>
      obtain ⟨htrips, htext⟩ := hs.calls _ (List.mem_of_getElem? hk) msg List.mem_cons_self
      have hbodies : (published (publishWS msg msg.serverID)).flatMap consoleOfBody =
          (consoleEvents (s, .publishNext k)).filter ConsoleEvent.hasText := by
        simp only [published_publishWS htrips, consoleEvents, hk]
        exact (List.filter_eq_self.mpr htext).symm
      refine ⟨_, ?_, .other _ _ hbodies (fun b' heq => ?_) fun heq => ?_⟩
      · rw [getElem?_publish, hi]
        rfl
      · cases heq
      · cases heq

theorem consoleTaken_of_ne {i : Nat} (h : a ≠ .receive i) : consoleTaken i (s, a) = [] := by
  cases a with
  | receive j =>
      refine if_neg fun hj => h ?_
      rw [hj]
  | _ => rfl

theorem consoleTaken_receive {i : Nat} {inst : Instance} (hi : s.instances[i]? = some inst)
    {body : Option Json} {rest : List (Option Json)} (hq : inst.queue = body :: rest) :
    consoleTaken i (s, .receive i) = consoleOfBody body := by
  simp only [consoleTaken, if_true, hi, Option.bind_some, hq, List.head?_cons, Option.elim]

/-- What an instance takes from its queue and keeps there is what it had and what is
published. -/
theorem Moved.lines {i : Nat} {inst inst' : Instance} {lines : List ConsoleEvent}
    (h : Moved i inst lines a inst') (hi : s.instances[i]? = some inst) :
    consoleTaken i (s, a) ++ inst'.lines = inst.lines ++ lines := by
  cases h with
  | other _ bodies hb hsocket hreceive =>
      rw [consoleTaken_of_ne hreceive, List.nil_append, Instance.lines, List.flatMap_append, hb, Instance.lines]
  | socket b ws bodies hb h =>
      rw [Instance.lines, List.flatMap_append, hb]
      rfl
  | receive body rest bodies result hq hb h =>
      rw [consoleTaken_receive hi hq, Instance.lines, List.flatMap_append, hb, Instance.lines, hq, List.flatMap_cons,
        List.append_assoc]

/-- What a delivery writes to a socket. -/
theorem consolesTo_run {ws : WsState} {body : Option Json} {result : ServerManager × List Output}
    (h : ws.manager.deliver (delivery body) = .ok result) (conn : ConnId) :
    consolesTo conn (ws.run result).sent = consolesTo conn ws.sent ++
      (consoleOfBody body).flatMap fun e => consolesTo conn
        (ws.manager.processClientEvent e.serverID (.console e.message (some e.isPublic))) := by
  rw [← (deliver_out conn h).2]
  exact List.filterMap_append

theorem Moved.sound {i : Nat} {inst inst' : Instance} {lines : List ConsoleEvent}
    (h : Moved i inst lines a inst') (hs : inst.ws.Sound) (ha : a.FromStore) : inst'.ws.Sound := by
  cases h with
  | other _ bodies hb hsocket hreceive => exact hs
  | socket b ws bodies hb h => exact h.sound hs ha
  | receive body rest bodies result hq hb h =>
      have hclients := (deliver_sockets h).2
      refine ⟨hs.plain, fun id connID client hclient => hs.bound id connID client ?_, ?_⟩
      · rw [clientsOf, ← hclients]
        exact hclient
      · intro conn hconn
        rw [consolesTo_run h, hs.written conn hconn, List.nil_append, List.flatMap_eq_nil_iff]
        intro e _
        refine consolesTo_of_forall_ne e fun connID client hclient => ?_
        exact Nat.ne_of_lt (Nat.lt_of_lt_of_le (hs.bound _ connID client hclient) hconn)

/-- Every instance has come from one that there was. -/
theorem Effect.moved_of_mem (h : Effect s a s') (hs : s.Sound) (ha : a.FromStore)
    {inst' : Instance} (hinst' : inst' ∈ s'.instances) :
    ∃ (i : Nat) (inst : Instance), s.instances[i]? = some inst ∧
      Moved i inst ((consoleEvents (s, a)).filter ConsoleEvent.hasText) a inst' := by
  obtain ⟨i, hi'⟩ := List.getElem?_of_mem hinst'
  have hlt : i < s.instances.length := h.length_eq ▸ (List.getElem?_eq_some_iff.mp hi').1
  have hi := List.getElem?_eq_getElem hlt
  obtain ⟨inst'', hi'', hmoved⟩ := h.moved hs ha hi
  cases hi''.symm.trans hi'
  exact ⟨i, _, hi, hmoved⟩

/-- A step from a good state leads to a good state. -/
theorem Effect.sound (h : Effect s a s') (hs : s.Sound) (ha : a.FromStore) : s'.Sound := by
  constructor
  · intro inst' hinst'
    obtain ⟨i, inst, hi, hmoved⟩ := h.moved_of_mem hs ha hinst'
    exact hmoved.sound (hs.sockets inst (List.mem_of_getElem? hi)) ha
  · intro inst' hinst' e he
    obtain ⟨i, inst, hi, hmoved⟩ := h.moved_of_mem hs ha hinst'
    have hmem := List.mem_append_right (consoleTaken i (s, a)) he
    rw [hmoved.lines hi, List.mem_append] at hmem
    rcases hmem with hmem | hmem
    · exact hs.queued inst (List.mem_of_getElem? hi) e hmem
    · exact (List.mem_filter.mp hmem).2
  · cases h with
    | socket | receive => exact hs.calls
    | call c =>
        intro call hcall
        rcases List.mem_append.mp hcall with hcall | hcall
        · exact hs.calls call hcall
        · rw [List.mem_singleton.mp hcall]
          exact fun msg hmsg => ⟨Call.roundTrips ha msg hmsg, fun e he => (Call.line hmsg he).1⟩
    | publishNext k msg rest hk =>
        intro call hcall
        rcases List.mem_or_eq_of_mem_set hcall with hcall | rfl
        · exact hs.calls call hcall
        · exact fun msg' hmsg' => hs.calls _ (List.mem_of_getElem? hk) msg'
            (List.mem_cons_of_mem _ hmsg')

end ApiState

/-- The id of the connection that an action opens. -/
def ApiAction.connID? : ApiAction → Option String
  | .socket _ (.handleClientWS r) => some r.connID
  | _ => none

theorem connID?_of_opened {ws : WsState} {i : Nat} {b : WsAction} {socket : Socket}
    {connID : String} (h : WsState.Opened ws b socket) (hkind : socket.kind = .client connID) :
    (ApiAction.socket i b).connID? = some connID := by
  cases h with
  | server r h => cases hkind
  | client r isModerator h => exact congrArg some (SocketKind.client.inj hkind)

/-! ## One client -/

/-- The lines that are for a client, as it sees them. -/
def shown (id : String) (isModerator : Bool) (lines : List ConsoleEvent) : List ConsoleLine :=
  (lines.filter (·.isFor id isModerator)).map ConsoleEvent.line

theorem shown_append (id : String) (isModerator : Bool) (l₁ l₂ : List ConsoleEvent) :
    shown id isModerator (l₁ ++ l₂) = shown id isModerator l₁ ++ shown id isModerator l₂ := by
  rw [shown, List.filter_append, List.map_append]
  rfl

/-- A client that has got what is for it of the lines that its instance has taken since it
connected, and may have missed later ones once it is no longer in the map. -/
structure Served (inst : Instance) (conn : ConnId) (id connID : String) (isModerator : Bool)
    (taken : List ConsoleEvent) : Prop where
  kept : inst.ws.Kept conn id connID isModerator
  all : ((inst.ws.manager.clientsOf id)[connID]?).isSome = true →
    consolesTo conn inst.ws.sent = shown id isModerator taken
  upTo : consolesTo conn inst.ws.sent <+: shown id isModerator taken

theorem shown_eq_flatMap {inst : Instance} {conn : ConnId} {id connID : String}
    {isModerator : Bool} (hk : inst.ws.Kept conn id connID isModerator) {client : OwnedClient}
    (hclient : (inst.ws.manager.clientsOf id)[connID]? = some client) {lines : List ConsoleEvent}
    (hlines : ∀ e ∈ lines, e.hasText = true) :
    (lines.flatMap fun e => consolesTo conn
      (inst.ws.manager.processClientEvent e.serverID (.console e.message (some e.isPublic)))) =
      shown id isModerator lines := by
  induction lines with
  | nil => rfl
  | cons e lines ih =>
      obtain ⟨he, hlines⟩ := List.forall_mem_cons.mp hlines
      rw [List.flatMap_cons, ih hlines, consolesTo_of_mem he hk.only hclient (hk.own client hclient)]
      cases hfor : e.isFor id isModerator <;> simp [shown, hfor]

/-- A step serves the client. -/
theorem Served.moved {i : Nat} {inst inst' : Instance} {lines taken : List ConsoleEvent}
    {s : ApiState} {a : ApiAction} {conn : ConnId} {id connID : String} {isModerator : Bool}
    (h : Served inst conn id connID isModerator taken) (hs : s.Sound)
    (hi : s.instances[i]? = some inst) (hfresh : a.connID? ≠ some connID) (ha : a.FromStore)
    (hmoved : ApiState.Moved i inst lines a inst') :
    Served inst' conn id connID isModerator (taken ++ consoleTaken i (s, a)) := by
  have hws := hs.sockets inst (List.mem_of_getElem? hi)
  cases hmoved with
  | other _ bodies hb hsocket hreceive =>
      rw [ApiState.consoleTaken_of_ne hreceive, List.append_nil]
      exact ⟨h.kept, h.all, h.upTo⟩
  | socket b ws bodies hb heff =>
      have hopen : ∀ id', ¬ WsState.Opened inst.ws b { id := id', kind := .client connID } :=
        fun id' hopened => hfresh (connID?_of_opened hopened rfl)
      have hsame := heff.consolesTo_eq hws ha conn
      rw [show consoleTaken i (s, .socket i b) = [] from rfl, List.append_nil]
      refine ⟨heff.kept hws h.kept hopen, fun hthere => hsame.trans (h.all ?_),
        hsame.symm ▸ h.upTo⟩
      rw [Option.isSome_iff_ne_none] at hthere ⊢
      exact fun hgone => hthere (heff.gone hws hopen hgone)
  | receive body rest bodies result hq hb hres =>
      have hclients : result.1.clientsOf = inst.ws.manager.clientsOf := by
        funext id'
        rw [clientsOf, (deliver_sockets hres).2, clientsOf]
      have htext : ∀ e ∈ consoleOfBody body, e.hasText = true := by
        intro e he
        refine hs.queued inst (List.mem_of_getElem? hi) e ?_
        rw [Instance.lines, hq, List.flatMap_cons]
        exact List.mem_append_left _ he
      have hkept : (inst.ws.run result).Kept conn id connID isModerator := by
        obtain ⟨hsocket, hunique, honly, hown, hentry⟩ := h.kept
        simp only [← hclients] at honly hown hentry
        exact ⟨hsocket, hunique, honly, hown, hentry⟩
      rw [ApiState.consoleTaken_receive hi hq]
      refine ⟨hkept, fun hthere => ?_, ?_⟩
      · replace hthere : ((inst.ws.manager.clientsOf id)[connID]?).isSome = true := hclients ▸ hthere
        obtain ⟨client, hclient⟩ := Option.isSome_iff_exists.mp hthere
        show consolesTo conn (inst.ws.run result).sent = _
        rw [ApiState.consolesTo_run hres, shown_eq_flatMap h.kept hclient htext, shown_append,
          h.all hthere]
      · show consolesTo conn (inst.ws.run result).sent <+: _
        rw [ApiState.consolesTo_run hres, shown_append]
        cases hclient : (inst.ws.manager.clientsOf id)[connID]? with
        | some client =>
            refine ⟨[], ?_⟩
            rw [shown_eq_flatMap h.kept hclient htext, h.all (hclient ▸ rfl), List.append_nil]
        | none =>
            -- The client is no longer in the map.
            have hnil : ((consoleOfBody body).flatMap fun e => consolesTo conn
                (inst.ws.manager.processClientEvent e.serverID
                  (.console e.message (some e.isPublic)))) = [] := by
              refine List.flatMap_eq_nil_iff.mpr fun e _ => ?_
              refine consolesTo_of_forall_ne e fun connID' client hget hconn => ?_
              obtain ⟨hid, hkey, -⟩ := h.kept.only _ connID' client hget hconn
              rw [hid, hkey, hclient] at hget
              cases hget
            rw [hnil, List.append_nil]
            exact h.upTo.trans (List.prefix_append _ _)

/-! ## Runs -/

/-- A run in which a client connects to instance `i`. The store has given servers ids that
were generated, and the ids of connections are new. -/
structure ClientRun where
  instances : Nat
  i : Nat
  request : ClientWSRequest
  isModerator : Bool
  before : List ApiAction
  after : List ApiAction
  /-- the instance when it gets the request -/
  opened : Instance
  last : Instance
  atRequest : ApiState
  connected : ApiState
  final : ApiState
  hbefore : exec ApiState.step (.start instances) before = some atRequest
  hopened : atRequest.instances[i]? = some opened
  hauthorized : opened.ws.manager.authorizeClient request = .ok isModerator
  hupgraded : request.upgraded = true
  hconnected : atRequest.step (.socket i (.handleClientWS request)) = some connected
  hafter : exec ApiState.step connected after = some final
  hlast : final.instances[i]? = some last
  hstore : ∀ a ∈ before ++ .socket i (.handleClientWS request) :: after, a.FromStore
  hfresh : ((before ++ .socket i (.handleClientWS request) :: after).filterMap
    ApiAction.connID?).Nodup

namespace ClientRun

variable (run : ClientRun)

def moves : List (ApiState × ApiAction) :=
  Kyber.Lib.moves ApiState.step (.start run.instances)
    (run.before ++ .socket run.i (.handleClientWS run.request) :: run.after)

/-- What the instance has taken before the client connects. -/
def earlier : List ConsoleEvent :=
  (Kyber.Lib.moves ApiState.step (.start run.instances) run.before).flatMap (consoleTaken run.i)

/-- What it has taken since. -/
def taken : List ConsoleEvent :=
  (Kyber.Lib.moves ApiState.step run.connected run.after).flatMap (consoleTaken run.i)

def conn : ConnId := run.opened.ws.sockets.length

/-- The client's socket is still read. -/
def Connected : Prop :=
  run.last.ws.sockets[run.conn]? =
    some ⟨run.request.id, .client run.request.connID, .reading⟩

def received : List ConsoleLine := consolesTo run.conn run.last.ws.sent

/-- Of the lines that count, none is lost, none is taken twice, and the client gets those
that are for it. -/
structure Private (counts : ConsoleEvent → Bool) : Prop where
  lines : (run.moves.flatMap consoleEvents).filter counts =
    run.earlier ++ run.taken ++ run.last.lines
  received : run.Connected →
    run.received = shown run.request.id run.isModerator run.taken
  upTo : run.received <+: shown run.request.id run.isModerator run.taken

end ClientRun

/-! ## Every run -/

namespace ApiState

theorem sound_start (n : Nat) : (start n).Sound := by
  constructor
  · intro inst hinst
    rw [List.eq_of_mem_replicate hinst]
    refine ⟨fun socket hsocket => absurd hsocket List.not_mem_nil,
      fun id connID client hclient => ?_, fun conn _ => rfl⟩
    simp [clientsOf] at hclient
  · intro inst hinst e he
    rw [List.eq_of_mem_replicate hinst] at he
    cases he
  · exact fun call hcall => absurd hcall List.not_mem_nil

end ApiState

namespace ClientRun

variable (run : ClientRun)

theorem forall_before : ∀ a ∈ run.before, a.FromStore ∧ a.connID? ≠ some run.request.connID := by
  intro a ha
  refine ⟨run.hstore a (List.mem_append_left _ ha), fun hconn => ?_⟩
  have hfresh := run.hfresh
  rw [List.filterMap_append, List.nodup_append] at hfresh
  exact hfresh.2.2 _ (List.mem_filterMap.mpr ⟨a, ha, hconn⟩) _ List.mem_cons_self rfl

theorem forall_after : ∀ a ∈ run.after, a.FromStore ∧ a.connID? ≠ some run.request.connID := by
  intro a ha
  refine ⟨run.hstore a (List.mem_append_right _ (List.mem_cons_of_mem _ ha)), fun hconn => ?_⟩
  have hfresh := run.hfresh
  rw [List.filterMap_append, List.nodup_append] at hfresh
  exact (List.nodup_cons.mp hfresh.2.1).1 (List.mem_filterMap.mpr ⟨a, ha, hconn⟩)

/-- Before the client connects, no socket has its connection's id. -/
theorem atRequest_sound : run.atRequest.Sound ∧ ∀ inst ∈ run.atRequest.instances,
    ∀ socket ∈ inst.ws.sockets, socket.kind ≠ .client run.request.connID := by
  refine exec_moves_of_forall (fun _ s => s.Sound ∧ ∀ inst ∈ s.instances,
    ∀ socket ∈ inst.ws.sockets, socket.kind ≠ .client run.request.connID)
    (fun a => a.FromStore ∧ a.connID? ≠ some run.request.connID) ?_
    ⟨ApiState.sound_start _, ?_⟩ run.forall_before run.hbefore
  · rintro hist s a s' ⟨hs, hnew⟩ ⟨hstore, hfresh⟩ hstep
    have heff := ApiState.step_effect hstep
    refine ⟨heff.sound hs hstore, fun inst' hinst' socket hsocket hkind => ?_⟩
    obtain ⟨i, inst, hi, hmoved⟩ := heff.moved_of_mem hs hstore hinst'
    have hold := hnew inst (List.mem_of_getElem? hi)
    cases hmoved with
    | other | receive => exact hold socket hsocket hkind
    | socket b ws bodies hb hws =>
        obtain ⟨conn, hconn⟩ := List.getElem?_of_mem hsocket
        rcases hws.socket_cases hconn with ⟨phase, hwas⟩ | ⟨-, hopened⟩
        · exact hold { socket with phase } (List.mem_of_getElem? hwas) hkind
        · exact hfresh (connID?_of_opened hopened hkind)
  · intro inst hinst
    rw [List.eq_of_mem_replicate hinst]
    exact nofun

/-- When it has connected, it has got nothing. -/
theorem connected_served : run.connected.Sound ∧ ∃ inst,
    run.connected.instances[run.i]? = some inst ∧
      Served inst run.conn run.request.id run.request.connID run.isModerator [] := by
  obtain ⟨hs, hnew⟩ := run.atRequest_sound
  have hstore := run.hstore _ (List.mem_append_right _ List.mem_cons_self)
  have hmem := List.mem_of_getElem? run.hopened
  have heff := ApiState.step_effect run.hconnected
  refine ⟨heff.sound hs hstore, ?_⟩
  generalize hconnected : run.connected = connected at heff
  cases heff with
  | socket i b inst ws hd hi h =>
      cases hi.symm.trans run.hopened
      simp only [WsState.step, run.hauthorized, run.hupgraded, if_true, Option.some.injEq] at h
      rw [ApiState.getElem?_set_publish _ _ _ run.hopened, if_pos rfl, ← h]
      refine ⟨_, rfl, ?_⟩
      have hkept := WsState.kept_acceptClient (hs.sockets _ hmem) run.request run.isModerator
        (hnew _ hmem)
      have hnone : consolesTo run.conn
          (run.opened.ws.acceptClient run.request run.isModerator).sent = [] :=
        ((WsState.Effect.client run.request run.isModerator run.hauthorized).consolesTo_eq
          (hs.sockets _ hmem) hstore run.conn).trans
          ((hs.sockets _ hmem).written run.conn (Nat.le_refl _))
      exact ⟨hkept, fun _ => hnone, hnone ▸ List.nil_prefix⟩

theorem last_served :
    Served run.last run.conn run.request.id run.request.connID run.isModerator run.taken := by
  have hserved := exec_moves_of_forall (fun hist s => s.Sound ∧ ∃ inst,
    s.instances[run.i]? = some inst ∧ Served inst run.conn run.request.id run.request.connID
      run.isModerator (hist.flatMap (consoleTaken run.i)))
    (fun a => a.FromStore ∧ a.connID? ≠ some run.request.connID) ?_ run.connected_served
    run.forall_after run.hafter
  · obtain ⟨-, inst, hinst, hserved⟩ := hserved
    cases hinst.symm.trans run.hlast
    exact hserved
  · rintro hist s a s' ⟨hs, inst, hi, hserved⟩ ⟨hstore, hfresh⟩ hstep
    have heff := ApiState.step_effect hstep
    obtain ⟨inst', hi', hmoved⟩ := heff.moved hs hstore hi
    refine ⟨heff.sound hs hstore, inst', hi', ?_⟩
    rw [List.flatMap_append, List.flatMap_singleton]
    exact hserved.moved hs hi hfresh hstore hmoved

theorem moves_eq : run.moves = Kyber.Lib.moves ApiState.step (.start run.instances) run.before ++
    (run.atRequest, .socket run.i (.handleClientWS run.request)) ::
      Kyber.Lib.moves ApiState.step run.connected run.after := by
  rw [moves, moves_append run.hbefore, Kyber.Lib.moves, run.hconnected]

/-- The instance has taken, and has yet to take, the lines that come in the run. -/
theorem lines_eq : (run.moves.flatMap consoleEvents).filter ConsoleEvent.hasText =
    run.earlier ++ run.taken ++ run.last.lines := by
  have hrest : exec ApiState.step run.atRequest
      (.socket run.i (.handleClientWS run.request) :: run.after) = some run.final := by
    rw [exec, run.hconnected, Option.bind_some]
    exact run.hafter
  have hlt : run.i < run.instances := by
    have hlen : run.atRequest.instances.length = run.instances :=
      exec_rule (fun s => s.instances.length = run.instances)
        (fun hs h => (ApiState.step_effect h).length_eq.trans hs) List.length_replicate run.hbefore
    exact hlen ▸ (List.getElem?_eq_some_iff.mp run.hopened).1
  have hqueue := exec_queue (fun s => s.Sound ∧ run.i < s.instances.length) ApiAction.FromStore
    (fun s => (s.instances[run.i]?).elim [] Instance.lines) (consoleTaken run.i)
    (fun mv => (consoleEvents mv).filter ConsoleEvent.hasText) ?_
    ⟨ApiState.sound_start run.instances, by simpa [ApiState.start] using hlt⟩ run.hstore
    ((exec_append run.hbefore _).trans hrest)
  · have hstart : ((ApiState.start run.instances).instances[run.i]?).elim [] Instance.lines = [] := by
      simp [ApiState.start, hlt, Instance.lines]
    rw [run.hlast, hstart, List.nil_append, ← List.filter_flatMap] at hqueue
    refine hqueue.symm.trans ?_
    show run.moves.flatMap (consoleTaken run.i) ++ _ = _
    rw [run.moves_eq, List.flatMap_append, List.flatMap_cons]
    rfl
  · rintro s a s' ⟨hs, hi⟩ hstore hstep
    have heff := ApiState.step_effect hstep
    have hget := List.getElem?_eq_getElem hi
    obtain ⟨inst', hi', hmoved⟩ := heff.moved hs hstore hget
    refine ⟨⟨heff.sound hs hstore, heff.length_eq.symm ▸ hi⟩, ?_⟩
    rw [hi', hget]
    exact hmoved.lines hget

/-- A client that connects to a server, as a moderator or not, has then received the lines
of the server that have a text, all of them or those that are public. -/
theorem console_private : run.Private ConsoleEvent.hasText := by
  have hserved := run.last_served
  refine ⟨run.lines_eq, fun hconnected => hserved.all ?_, hserved.upTo⟩
  exact Option.isSome_iff_exists.mpr (hserved.kept.entry hconnected)

/-- The run of actions that can be taken, with what holds of the instance in the end. -/
theorem exists_of_exec (n i : Nat) (request : ClientWSRequest) (isModerator : Bool)
    (before after : List ApiAction) (P : ConnId → Instance → Prop)
    (hrun : ∃ s ∈ exec ApiState.step (.start n) before, ∃ opened ∈ s.instances[i]?,
      (opened.ws.manager.authorizeClient request).toOption = some isModerator ∧
        ∃ t ∈ s.step (.socket i (.handleClientWS request)), ∃ u ∈ exec ApiState.step t after,
          ∃ last ∈ u.instances[i]?, P opened.ws.sockets.length last)
    (hupgraded : request.upgraded = true)
    (hstore : ∀ a ∈ before ++ .socket i (.handleClientWS request) :: after, a.FromStore)
    (hfresh : ((before ++ .socket i (.handleClientWS request) :: after).filterMap
      ApiAction.connID?).Nodup) :
    ∃ run : ClientRun, run.instances = n ∧ run.i = i ∧ run.request = request ∧
      run.isModerator = isModerator ∧ run.before = before ∧ run.after = after ∧
        P run.conn run.last := by
  obtain ⟨s, hs, opened, hopened, hauth, t, ht, u, hu, last, hlast, hP⟩ := hrun
  exact ⟨{ instances := n, i, request, isModerator, before, after, opened, last, atRequest := s,
           connected := t, final := u, hbefore := hs, hopened,
           hauthorized := WsState.eq_ok_of_toOption hauth, hupgraded, hconnected := ht,
           hafter := hu, hlast, hstore, hfresh },
    rfl, rfl, rfl, rfl, rfl, rfl, hP⟩

end ClientRun

/-! ## A moderator and a guest -/

/-- Server `00` of the host `h`. -/
def hostedServer : ServerModel where
  id := "00"
  name := ""
  password := none
  hostID := "h"
  playerCount := 0
  maxPlayerCount := 0
  official := false
  lastUpdated := 0
  proxyToken := ""

def hostUser : UserModel := { id := "h", name := "" }

/-- The server connects. -/
def serverConnects : ApiAction :=
  .socket 0 (.handleServerWS {
    id := "00", token := "t", user := some (some hostUser), server := some (some hostedServer),
    upgraded := true })

/-- Its host connects as a client. -/
def hostConnects : ClientWSRequest where
  id := "00"
  user := some (some hostUser)
  server := some (some hostedServer)
  host := some (some hostUser)
  upgraded := true
  connID := "c"

def otherServer : ServerModel := { hostedServer with id := "01" }

/-- Servers `00` and `01` connect, each to an instance of its own. -/
def connectRun : List ApiAction :=
  [serverConnects, .socket 1 (.handleServerWS {
    id := "01", token := "t", user := some (some hostUser), server := some (some otherServer),
    upgraded := true })]

/-- A player of server `00` connects as a client, too. -/
def guestConnects : ClientWSRequest :=
  { hostConnects with user := some (some { id := "7", name := "Luke" }), connID := "d" }

/-- The second instance knows the player. -/
def playerRun : List ApiAction :=
  connectRun ++
    [.socket 0 (.serverEvent 0 (.players [some ⟨"7", "Luke", 1⟩]) true), .receive 1]

/-- The servers send lines with the flag and without, and the host has a command run. -/
def linesRun : List ApiAction :=
  [.socket 0 (.serverEvent 0 (.console "hello" none) true),
    .socket 1 (.serverEvent 0 (.console "elsewhere" (some true)) true),
    .socket 0 (.serverEvent 0 (.console "secret" (some false)) true),
    .call (.runCommand {
      id := "00", command := "Shuffle", user := hostUser, server := some (some hostedServer),
      host := some (some hostUser) }),
    .publishNext 0, .publishNext 0] ++ List.replicate 7 (.receive 1)

theorem linesRun_fromStore :
    ∀ a ∈ playerRun ++ .socket 1 (.handleClientWS hostConnects) ::
      .socket 1 (.handleClientWS guestConnects) :: linesRun, a.FromStore := by
  have hzero : HexToken "00" := ⟨[0], by decide⟩
  have hone : HexToken "01" := ⟨[1], by decide⟩
  simp [playerRun, connectRun, linesRun, serverConnects, hostConnects, guestConnects,
    ApiAction.FromStore, Found, hostedServer, otherServer, hzero, hone]

/-- The player, a client of the other instance, gets the public line of `00` only, and the host
gets the hidden ones as well. -/
theorem linesRun_private : ∃ guest moderator : ClientRun,
    guest.before = playerRun ++ [.socket 1 (.handleClientWS hostConnects)] ∧
    guest.request = guestConnects ∧ guest.after = linesRun ∧ guest.isModerator = false ∧
    moderator.before = playerRun ∧ moderator.request = hostConnects ∧
    moderator.after = .socket 1 (.handleClientWS guestConnects) :: linesRun ∧
    moderator.isModerator = true ∧
    guest.received = [("hello", true)] ∧ guest.Private ConsoleEvent.hasText ∧
    moderator.received = [("hello", true), ("secret", false),
      ("[MODERATOR]  (h) ran command: Shuffle", false)] ∧
    moderator.Private ConsoleEvent.hasText := by
  have hstore := linesRun_fromStore
  obtain ⟨guest, -, -, hguest, hrole, hbefore, hafter, hgot⟩ :=
    ClientRun.exists_of_exec 2 1 guestConnects false
      (playerRun ++ [.socket 1 (.handleClientWS hostConnects)]) linesRun
      (fun conn last => consolesTo conn last.ws.sent = [("hello", true)]) (by decide) rfl
      (by simpa only [List.append_assoc, List.singleton_append] using hstore) (by decide)
  obtain ⟨moderator, -, -, hhost, hmoderator, hearlier, hlater, hall⟩ :=
    ClientRun.exists_of_exec 2 1 hostConnects true playerRun
      (.socket 1 (.handleClientWS guestConnects) :: linesRun)
      (fun conn last => consolesTo conn last.ws.sent = [("hello", true), ("secret", false),
        ("[MODERATOR]  (h) ran command: Shuffle", false)]) (by decide) rfl hstore (by decide)
  exact ⟨guest, moderator, hbefore, hguest, hafter, hrole, hearlier, hhost, hlater, hmoderator,
    hgot, guest.console_private, hall, moderator.console_private⟩

/-! ## A line without a text -/

/-- The server sends a line without a text, and no flag. -/
def emptyLine : ApiAction := .socket 0 (.serverEvent 0 (.console "" none) true)

/-- The line is public, and is lost. -/
theorem emptyLine_lost : ∃ run : ClientRun, run.before = [serverConnects] ∧
    run.request = hostConnects ∧ run.after = [emptyLine] ∧ run.Connected ∧
      ¬ run.Private fun _ => true := by
  have hrun : ((exec ApiState.step (.start 1) [serverConnects]).bind fun s =>
      (s.step (.socket 0 (.handleClientWS hostConnects))).bind fun t =>
        (t.step emptyLine).map fun u =>
          (s.instances.map fun inst =>
              ((inst.ws.manager.authorizeClient hostConnects).toOption, inst.ws.sockets.length),
            t.instances.map (·.ws.sockets), u.instances.map (·.ws.sockets))) =
      some ([(some true, 1)], [[⟨"00", .server, .reading⟩, ⟨"00", .client "c", .reading⟩]],
        [[⟨"00", .server, .reading⟩, ⟨"00", .client "c", .reading⟩]]) := by decide
  obtain ⟨s, hs, hrun⟩ := Option.bind_eq_some_iff.mp hrun
  obtain ⟨t, ht, hrun⟩ := Option.bind_eq_some_iff.mp hrun
  obtain ⟨u, hu, hrun⟩ := Option.map_eq_some_iff.mp hrun
  simp only [Prod.mk.injEq, List.map_eq_singleton_iff] at hrun
  obtain ⟨⟨inst, hinst, hauth, hconn⟩, ⟨inst', hinst', hsockets⟩, ⟨inst'', hinst'', hlast⟩⟩ := hrun
  have htoken : HexToken "00" := ⟨[0], by decide⟩
  have hfound : Found "00" (some (some hostedServer)) := by
    intro server hserver
    cases hserver
    exact ⟨rfl, htoken⟩
  let run : ClientRun := {
    instances := 1
    i := 0
    request := hostConnects
    isModerator := true
    before := [serverConnects]
    after := [emptyLine]
    opened := inst
    last := inst''
    atRequest := s
    connected := t
    final := u
    hbefore := hs
    hopened := by rw [hinst]; rfl
    hauthorized := WsState.eq_ok_of_toOption hauth
    hupgraded := rfl
    hconnected := ht
    hafter := by rw [exec, hu]; rfl
    hlast := by rw [hinst'']; rfl
    hstore := by
      intro a ha
      simp only [List.cons_append, List.nil_append, List.mem_cons, List.not_mem_nil, or_false] at ha
      rcases ha with rfl | rfl | rfl
      · exact hfound
      · exact hfound
      · trivial
    hfresh := by decide }
  refine ⟨run, rfl, rfl, rfl, ?_, fun hprivate => ?_⟩
  · show inst''.ws.sockets[inst.ws.sockets.length]? = _
    rw [hlast, hconn]
    rfl
  · -- The instance has, or has yet to take, only lines with a text.
    have hmem : (⟨"00", "", true⟩ : ConsoleEvent) ∈ run.moves.flatMap consoleEvents := by
      have hmoves : moves ApiState.step t [emptyLine] = [(t, emptyLine)] := by
        rw [moves, hu]
        rfl
      have hevents : consoleEvents (t, emptyLine) = [⟨"00", "", true⟩] := by
        simp [consoleEvents, emptyLine, hinst', WsState.eventsAt, hsockets]
      refine List.mem_flatMap.mpr ⟨(t, emptyLine), ?_, hevents ▸ List.mem_cons_self⟩
      rw [run.moves_eq, show moves ApiState.step run.connected run.after = _ from hmoves]
      simp
    have hall := hprivate.lines
    rw [← run.lines_eq, List.filter_true] at hall
    have htext := hall ▸ hmem
    simp [ConsoleEvent.hasText] at htext

end Kyber.Api
