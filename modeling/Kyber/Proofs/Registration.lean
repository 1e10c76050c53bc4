import Kyber.Core.Registration
import Kyber.Lib.Runs

/-!
# Servers that stay online

As long as every start ends with a server id, the flag for the online mode stays set, and
with it the check of join tokens and the registration after an error 410. A start whose
registration fails on a server without an id clears the flag, and nothing sets it again:
the server lets everyone in, and does not register any more.
-/

namespace Kyber.Core.Registration

open Kyber.Lib

/-- Every player the engine got has a join token that was consumed. -/
def Authenticated (s : Server) : Prop := ∀ player ∈ s.created, player.answer.isSome = true

/-- The next call of `Register` in the queue sends a request. -/
def Reregisters (s : Server) : Prop :=
  ∀ response s', step s (.queued response) = some s' → ∃ info, s'.requests = s.requests ++ [info]

/-- A start has a server id when its registration is over, and a message comes to a server
that is running. -/
def KeepsOnline (s : Server) : Action → Prop
  | .start _ response => response.getD s.serverId ≠ ""
  | .create _ => s.isRunning = true
  | .initDedicated _ | .gone | .queued _ | .answered _ _ => True

/-- What a server keeps that stays online. -/
structure Online (s : Server) : Prop where
  flag : s.onlineMode = true
  socket : s.socket.isSome = true → s.isRunning = true ∧ s.creationInfo.isSome = true
  queue : s.queue ≠ 0 → s.socket.isSome = true
  players : Authenticated s

variable {s s' : Server}

/-! ## Steps -/

/-- A server in online mode registers, unless it is not running yet. -/
theorem register_cases (honline : s.onlineMode = true) (force : Bool) (response : Option String) :
    s.register force response = s ∧
        (force = false ∧ (s.isRunning = false ∨ s.creationInfo = none)) ∨
      s.register force response = { s with
        requests := s.requests ++ s.creationInfo.toList
        serverId := response.getD s.serverId
        socket := some (response.getD "DUMMY") } ∧
        (force = true ∨ s.isRunning = true ∧ s.creationInfo.isSome = true) := by
  unfold Server.register
  split
  · next hreturn =>
      left
      refine ⟨rfl, ?_⟩
      simpa using hreturn
  · next hready =>
      right
      refine ⟨?_, ?_⟩
      · rw [if_neg (by simp [honline])]
        cases response with
        | none => rfl
        | some id =>
            simp only [Server.connect, Option.getD_some]
            rw [← honline]
      · cases force with
        | true => exact .inl rfl
        | false => simpa [Option.isSome_iff_ne_none] using hready

theorem register_offline (honline : s.onlineMode = false) (force : Bool) (response : Option String) :
    s.register force response = s := by
  unfold Server.register
  split
  · rfl
  · rw [if_pos (by simp [honline])]

theorem Online.register (h : Online s) (response : Option String) :
    Online (s.register false response) := by
  rcases register_cases h.flag false response with ⟨hsame, -⟩ | ⟨hregister, hready⟩
  · rw [hsame]
    exact h
  · rcases hready with hforce | hready
    · cases hforce
    · rw [hregister]
      exact ⟨h.flag, fun _ => hready, fun _ => rfl, h.players⟩

theorem Online.start (h : Online s) (info : ServerCreationInfo) {response : Option String}
    (hid : response.getD s.serverId ≠ "") : Online (s.start info response) := by
  have hflag : { s with creationInfo := some info }.onlineMode = true := h.flag
  rcases register_cases hflag true response with ⟨-, hforce, -⟩ | ⟨hregister, -⟩
  · cases hforce
  · simp only [Server.start, hregister, hid, if_false]
    exact ⟨h.flag, fun _ => ⟨rfl, rfl⟩, fun _ => rfl, h.players⟩

theorem Online.onCreatePlayerMessage (h : Online s) (hrunning : s.isRunning = true)
    (message : CreatePlayerMessage) : Online (s.onCreatePlayerMessage message) := by
  have hhosted : (!s.runningHosted && !s.isDedicatedServer) = false := by
    rw [Server.isRunning, Bool.or_eq_true] at hrunning
    rcases hrunning with hrunning | hrunning <;> simp [hrunning]
  simp only [Server.onCreatePlayerMessage, hhosted, h.flag, Bool.false_eq_true, Bool.not_true,
    if_false]
  split
  · exact ⟨rfl, h.socket, h.queue, h.players⟩
  · exact h

theorem Online.joinTokenAnswered (h : Online s) {i : Nat} {request : JoinRequest}
    {response : Option ConsumeJoinTokenResponse}
    (hs : s.joinTokenAnswered i request response = some s') : Online s' := by
  unfold Server.joinTokenAnswered at hs
  split at hs
  · cases hs
    exact ⟨h.flag, h.socket, h.queue, h.players⟩
  · split at hs
    · cases hs
    · next answer _ _ _ =>
        cases hs
        refine ⟨h.flag, h.socket, h.queue, fun player hplayer => ?_⟩
        rcases List.mem_append.mp hplayer with hold | hnew
        · exact h.players player hold
        · rw [List.mem_singleton.mp hnew]
          rfl

theorem Online.step {a : Action} (h : Online s) (hkeeps : KeepsOnline s a)
    (hs : step s a = some s') : Online s' := by
  cases a with
  | initDedicated response =>
      simp only [Registration.step, h.flag, if_true] at hs
      split at hs
      · cases hs
        exact h.register response
      · cases hs
  | start info response =>
      cases hs
      exact h.start info hkeeps
  | gone =>
      simp only [Registration.step] at hs
      split at hs
      · next hsocket =>
          cases hs
          exact ⟨h.flag, h.socket, fun _ => hsocket, h.players⟩
      · cases hs
  | queued response =>
      simp only [Registration.step] at hs
      split at hs
      · cases hs
      · next hqueue =>
          cases hs
          have hless : Online { s with queue := s.queue - 1 } :=
            ⟨h.flag, h.socket, fun _ => h.queue hqueue, h.players⟩
          exact hless.register response
  | create message =>
      cases hs
      exact h.onCreatePlayerMessage hkeeps message
  | answered i response =>
      obtain ⟨request, -, hs⟩ := Option.bind_eq_some_iff.mp hs
      exact h.joinTokenAnswered hs

theorem Online.reregisters (h : Online s) : Reregisters s := by
  intro response s' hs
  simp only [Registration.step] at hs
  split at hs
  · cases hs
  · next hqueue =>
      cases hs
      obtain ⟨hrunning, hinfo⟩ := h.socket (h.queue hqueue)
      obtain ⟨info, hinfo⟩ := Option.isSome_iff_exists.mp hinfo
      have hflag : { s with queue := s.queue - 1 }.onlineMode = true := h.flag
      refine ⟨info, ?_⟩
      rcases register_cases hflag false response with ⟨-, -, hnot | hnot⟩ | ⟨hregister, -⟩
      · exact absurd (hnot.symm.trans hrunning) (by simp)
      · exact absurd hnot (by simp [hinfo])
      · rw [hregister]
        simp [hinfo]

/-! ## Runs -/

/-- In a run in which every start has a server id when its registration is over, nobody gets
in without a join token, and an error 410 leads to a new registration. -/
theorem online_run (isDedicatedServer : Bool) (creationInfo : Option ServerCreationInfo)
    (as : List Action)
    (h : ∀ m ∈ moves step { isDedicatedServer, creationInfo } as, KeepsOnline m.1 m.2) :
    ∀ s ∈ visits step { isDedicatedServer, creationInfo } as, Authenticated s ∧ Reregisters s := by
  have hinit : Online { isDedicatedServer, creationInfo } :=
    ⟨rfl, fun h => (by cases h), fun h => absurd rfl h, fun _ hplayer => (by cases hplayer)⟩
  intro s hs
  have honline := forall_visits_of_forall_moves Online KeepsOnline
    (fun hs hkeeps hstep => hs.step hkeeps hstep) hinit as h s hs
  exact ⟨honline.players, honline.reregisters⟩

/-- What a step does to a server that is not in online mode. -/
theorem offline_step {a : Action} (hoffline : s.onlineMode = false) (hs : step s a = some s') :
    s'.onlineMode = false ∧ s'.requests = s.requests := by
  cases a with
  | initDedicated response =>
      simp only [Registration.step, hoffline, Bool.false_eq_true, if_false] at hs
      split at hs
      · cases hs
        exact ⟨hoffline, rfl⟩
      · cases hs
  | start info response =>
      cases hs
      have hsame : Server.register { s with creationInfo := some info } true response =
          { s with creationInfo := some info } :=
        register_offline (s := { s with creationInfo := some info }) hoffline true response
      simp only [Server.start, hsame]
      split
      · exact ⟨rfl, rfl⟩
      · exact ⟨hoffline, rfl⟩
  | gone =>
      simp only [Registration.step] at hs
      split at hs
      · cases hs
        exact ⟨hoffline, rfl⟩
      · cases hs
  | queued response =>
      simp only [Registration.step] at hs
      split at hs
      · cases hs
      · have hsame : Server.register { s with queue := s.queue - 1 } false response =
            { s with queue := s.queue - 1 } :=
          register_offline (s := { s with queue := s.queue - 1 }) hoffline false response
        rw [hsame] at hs
        cases hs
        exact ⟨hoffline, rfl⟩
  | create message =>
      cases hs
      simp only [Server.onCreatePlayerMessage, hoffline, Bool.not_false, if_true]
      split <;> exact ⟨rfl, rfl⟩
  | answered i response =>
      obtain ⟨request, -, hs⟩ := Option.bind_eq_some_iff.mp hs
      unfold Server.joinTokenAnswered at hs
      split at hs
      · cases hs
        exact ⟨hoffline, rfl⟩
      · split at hs
        · cases hs
        · cases hs
          exact ⟨hoffline, rfl⟩

/-- After a start without a server id no request is sent any more. -/
theorem offline_run (hoffline : s.onlineMode = false) (as : List Action) :
    ∀ s' ∈ visits step s as, s'.onlineMode = false ∧ s'.requests = s.requests :=
  forall_visits_of_forall_moves (fun s' => s'.onlineMode = false ∧ s'.requests = s.requests)
    (fun _ _ => True)
    (fun h _ hs => ⟨(offline_step h.1 hs).1, (offline_step h.1 hs).2.trans h.2⟩)
    ⟨hoffline, rfl⟩ as fun _ _ => trivial

def firstInfo : ServerCreationInfo :=
  { level := "Levels/MP/Naboo_01", mode := "Mode1", maxPlayers := 40 }

def guest : CreatePlayerMessage := { connection := 1, playerName := "Guest" }

/-- The registration fails when the server is started; then a player comes without a token,
and the socket is told that the server is gone. -/
theorem start_opens :
    (¬ ∀ s ∈ visits step {} [.start firstInfo none, .create guest], Authenticated s) ∧
      ¬ ∀ s ∈ visits step {} [.start firstInfo none, .gone], Reregisters s := by
  constructor
  · intro h
    have hrun : exec step {} [.start firstInfo none, .create guest] =
        some ((Server.start {} firstInfo none).onCreatePlayerMessage guest) := rfl
    have hguest := h _ (mem_visits_of_exec hrun) { message := guest, answer := none } (by decide)
    cases hguest
  · intro h
    have hrun : exec step {} [.start firstInfo none, .gone] =
        some { Server.start {} firstInfo none with queue := 1 } := rfl
    obtain ⟨info, hinfo⟩ := h _ (mem_visits_of_exec hrun) none _ rfl
    have hlength := congrArg List.length hinfo
    rw [List.length_append, List.length_singleton] at hlength
    change (Server.start {} firstInfo none).requests.length =
      (Server.start {} firstInfo none).requests.length + 1 at hlength
    omega

/-- A server that registers, loses its entry, registers again and lets a player in. -/
def registeredRun : List Action :=
  [.start firstInfo (some "id"), .gone, .queued none, .create guest]

theorem online_run_registered :
    (∀ m ∈ moves step {} registeredRun, KeepsOnline m.1 m.2) ∧
      ∀ s ∈ visits step {} registeredRun, Authenticated s ∧ Reregisters s := by
  have hmoves : moves step {} registeredRun =
      [({}, .start firstInfo (some "id")),
        (Server.start {} firstInfo (some "id"), .gone),
        ({ Server.start {} firstInfo (some "id") with queue := 1 }, .queued none),
        ((Server.start {} firstInfo (some "id")).register false none, .create guest)] := by
    decide
  have hkeeps : ∀ m ∈ moves step {} registeredRun, KeepsOnline m.1 m.2 := by
    intro m hm
    rw [hmoves] at hm
    simp only [List.mem_cons, List.not_mem_nil, or_false] at hm
    rcases hm with rfl | rfl | rfl | rfl
    · exact (by decide : "id" ≠ "")
    · trivial
    · trivial
    · exact (by decide :
        ((Server.start {} firstInfo (some "id")).register false none).isRunning = true)
  exact ⟨hkeeps, online_run false none registeredRun hkeeps⟩

end Kyber.Core.Registration
