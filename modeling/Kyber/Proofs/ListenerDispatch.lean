import Kyber.Script.ListenerLoop

/-!
# Every listener is called once

A firing should call the listeners that are registered when it begins, each once and in
their order, and from an element that is still in its vector. The loop holds iterators
over the vector, so this is a matter of what is registered meanwhile: all goes well as
long as no listener is registered for an event that is being fired when the vector of
this event is full.

If one is, the elements move, and the callback that was running in the loop finds itself
gone when its Lua function returns. So a run that comes to its end without this has met
the condition in every step.
-/

namespace Kyber.Script

open Kyber.Lib Kyber.Core

variable {γ : Type} {grow : Nat → Nat} {functions : Nat → LuaFunction γ}

/-! ## What is promised -/

structure Dispatches (grow : Nat → Nat) (functions : Nat → LuaFunction γ) (m : Machine γ) :
    Prop where
  /-- no element has been used that had been moved -/
  safe : m.dangling = false
  /-- a firing that has ended has called its listeners, each once and in their order -/
  ended : ∀ loop ∈ m.ended, loop.invoked = loop.registered
  /-- a firing has called the first ones so far -/
  begun : ∀ loop running, .firing loop running ∈ m.frames → loop.invoked <+: loop.registered
  /-- what has begun goes on -/
  goesOn : m.frames ≠ [] → (m.step grow functions .run).isSome

/-- A listener that is registered for an event that is being fired finds room in the vector. -/
def KeepsBuffers (m : Machine γ) : ScriptAction γ → Prop
  | .run => ∀ r ∈ m.registers, (m.listeners r.1).HasRoom ∨ r.1 ∉ m.firing
  | _ => True

instance (m : Machine γ) : (a : ScriptAction γ) → Decidable (KeepsBuffers m a)
  | .run => inferInstanceAs (Decidable (∀ r ∈ m.registers, _))
  | .script _ | .fire _ _ | .reset => .isTrue trivial

/-! ## Loops -/

/-- The iterators of a loop are valid, and it has called the listeners up to its place. -/
structure Loop.Live (listeners : String → Vec Listener) (loop : Loop) (running : Bool) :
    Prop where
  buffer : loop.cursor.buffer = (listeners loop.event).buffer
  registered : loop.registered <+: (listeners loop.event).elements
  stop : loop.stop = loop.registered.length
  place : loop.cursor.index + running.toNat ≤ loop.registered.length
  invoked : loop.invoked = loop.registered.take (loop.cursor.index + running.toNat)

namespace Loop.Live

variable {listeners : String → Vec Listener} {loop : Loop} {running : Bool}

/-- A loop does not mind a registration for another event, nor one that finds room. -/
theorem listen {m : Machine γ} (h : loop.Live m.listeners running) {event : String}
    {listener : Listener} (hroom : (m.listeners event).HasRoom ∨ loop.event ≠ event) :
    loop.Live (m.listen grow event listener).listeners running := by
  by_cases heq : loop.event = event
  · have hroom' := hroom.resolve_right (not_not_intro heq)
    refine ⟨?_, ?_, h.stop, h.place, h.invoked⟩
    · simp only [Machine.listen, heq, if_true]
      rw [Vec.buffer_pushBack hroom', ← heq]
      exact h.buffer
    · simp only [Machine.listen, heq, if_true, Vec.elements_pushBack]
      rw [← heq]
      exact h.registered.trans (List.prefix_append _ _)
  · refine ⟨?_, ?_, h.stop, h.place, h.invoked⟩
    · simpa [Machine.listen, heq] using h.buffer
    · simpa [Machine.listen, heq] using h.registered

/-- The loop finds the listener at its place. -/
theorem get? (h : loop.Live listeners running) (hplace : loop.cursor.index < loop.registered.length) :
    (listeners loop.event).get? loop.cursor = loop.registered[loop.cursor.index]? :=
  Vec.get?_of_prefix h.buffer h.registered hplace

end Loop.Live

/-! ## Steps -/

structure Sound (m : Machine γ) : Prop where
  safe : m.dangling = false
  ended : ∀ loop ∈ m.ended, loop.invoked = loop.registered
  live : ∀ loop running, .firing loop running ∈ m.frames → loop.Live m.listeners running.isSome

namespace Sound

variable {m m' : Machine γ}

/-- The frames of a sound state may be replaced by others that are sound. -/
theorem frames (h : Sound m) {frames : List (Frame γ)}
    (hlive : ∀ loop running, .firing loop running ∈ frames → loop.Live m.listeners running.isSome) :
    Sound { m with frames } :=
  ⟨h.safe, h.ended, hlive⟩

theorem startFiring (h : Sound m) (event : String) (arguments : List LuaValue)
    (chat : Option ChatMessage) : Sound (m.startFiring event arguments chat) := by
  refine ⟨h.safe, h.ended, fun loop running hmem => ?_⟩
  rcases List.mem_cons.mp hmem with heq | hmem
  · cases heq
    exact ⟨rfl, List.prefix_rfl, rfl, Nat.zero_le _, rfl⟩
  · exact h.live loop running hmem

theorem endFiring (h : Sound m) {loop : Loop} {frames : List (Frame γ)}
    (hframes : m.frames = .firing loop none :: frames) (hend : loop.cursor.index = loop.stop) :
    Sound (m.endFiring loop frames) := by
  have hlive := h.live loop none (by rw [hframes]; exact List.mem_cons_self)
  refine ⟨h.safe, fun l hl => ?_, fun l running hl => ?_⟩
  · rcases List.mem_append.mp hl with hl | hl
    · exact h.ended l hl
    · rw [List.mem_singleton.mp hl, hlive.invoked, hend, hlive.stop]
      exact List.take_length
  · exact h.live l running (by rw [hframes]; exact List.mem_cons_of_mem _ hl)

theorem listenFunc (h : Sound m) {event callback inst : LuaValue}
    (hroom : ∀ e listener, Machine.registration event callback inst = some (e, listener) →
      (m.listeners e).HasRoom ∨ e ∉ m.firing) :
    Sound (m.listenFunc grow event callback inst) := by
  unfold Machine.listenFunc
  cases hreg : Machine.registration event callback inst with
  | none => exact h
  | some target =>
      obtain ⟨e, listener⟩ := target
      refine ⟨h.safe, h.ended, fun loop running hmem => ?_⟩
      refine (h.live loop running hmem).listen ((hroom e listener hreg).imp_right fun hfiring heq => ?_)
      exact hfiring (List.mem_filterMap.mpr ⟨_, hmem, by rw [← heq]; rfl⟩)

theorem forceSendChatMessage (h : Sound m) (player channel : LuaValue) :
    Sound (m.forceSendChatMessage player channel) := by
  unfold Machine.forceSendChatMessage
  split
  · dsimp only
    split
    · exact h
    · split
      · exact h.startFiring _ _ _
      · exact ⟨h.safe, h.ended, h.live⟩
  · exact h

theorem setEventCancelledFunc (h : Sound m) (isCancelled : LuaValue) :
    Sound (m.setEventCancelledFunc isCancelled) := by
  unfold Machine.setEventCancelledFunc
  split
  · exact ⟨h.safe, h.ended, h.live⟩
  · exact h

/-- A call of the function on top. -/
theorem perform {goOn : LuaProgram γ → List (Frame γ)}
    (hgoOn : ∀ program, Sound { m with frames := goOn program }) (call : LuaCall γ)
    (k : call.Answer → LuaProgram γ)
    (hroom : ∀ event callback inst e listener, call = .listen event callback inst →
      Machine.registration event callback inst = some (e, listener) →
      (m.listeners e).HasRoom ∨ ∀ program, e ∉ (goOn program).filterMap (·.event?)) :
    Sound (m.perform grow goOn call k) := by
  cases call with
  | getGlobals => exact hgoOn _
  | setGlobals globals =>
      have h := hgoOn (k ())
      exact ⟨h.safe, h.ended, h.live⟩
  | listen event callback inst =>
      exact (hgoOn (k ())).listenFunc fun e listener hreg =>
        (hroom event callback inst e listener rfl hreg).imp_right fun h => h (k ())
  | setCancelled isCancelled => exact (hgoOn (k ())).setEventCancelledFunc isCancelled
  | forceSendChatMessage player channel => exact (hgoOn _).forceSendChatMessage player channel
  | engine event arguments => exact (hgoOn (k ())).startFiring event arguments none

theorem afterCallback (h : Sound m) {loop : Loop} {program : LuaProgram γ}
    {frames : List (Frame γ)} (hframes : m.frames = .firing loop (some program) :: frames) :
    Sound (m.afterCallback loop frames) := by
  have hlive := h.live loop (some program) (by rw [hframes]; exact List.mem_cons_self)
  have hplace : loop.cursor.index < loop.registered.length := hlive.place
  unfold Machine.afterCallback
  rw [hlive.get? hplace, List.getElem?_eq_getElem hplace]
  refine h.frames fun l running hl => ?_
  rcases List.mem_cons.mp hl with heq | hl
  · cases heq
    exact ⟨hlive.buffer, hlive.registered, hlive.stop, hlive.place, hlive.invoked⟩
  · exact h.live l running (by rw [hframes]; exact List.mem_cons_of_mem _ hl)

theorem nextCallback (h : Sound m) {loop : Loop} {frames : List (Frame γ)}
    (hframes : m.frames = .firing loop none :: frames) :
    Sound (m.nextCallback functions loop frames) := by
  have hlive := h.live loop none (by rw [hframes]; exact List.mem_cons_self)
  unfold Machine.nextCallback
  split
  · next hend => exact h.endFiring hframes hend
  · next hmore =>
      have hplace : loop.cursor.index < loop.registered.length := by
        have := hlive.place
        have := hlive.stop
        simp only [Option.isSome_none, Bool.toNat_false] at *
        omega
      rw [hlive.get? hplace, List.getElem?_eq_getElem hplace]
      refine h.frames fun l running hl => ?_
      rcases List.mem_cons.mp hl with heq | hl
      · cases heq
        refine ⟨hlive.buffer, hlive.registered, hlive.stop, hplace, ?_⟩
        show loop.invoked ++ [_] = _
        rw [hlive.invoked]
        simp
      · exact h.live l running (by rw [hframes]; exact List.mem_cons_of_mem _ hl)

/-- A call of the function on top of the stack. -/
theorem call (h : Sound m) (hkeeps : KeepsBuffers m .run) {frame : Frame γ}
    {frames : List (Frame γ)} (hframes : m.frames = frame :: frames) {call : LuaCall γ}
    {k : call.Answer → LuaProgram γ} (hrunning : frame.running? = some (.call call k)) :
    Sound (m.perform grow (fun program => frame.goOn program :: frames) call k) := by
  refine perform (fun program => h.frames fun loop running hmem => ?_) call k ?_
  · rcases List.mem_cons.mp hmem with heq | hmem
    · cases frame with
      | script program => cases heq
      | firing l r =>
          cases hrunning
          cases heq
          exact h.live loop (some (.call call k)) (by rw [hframes]; exact List.mem_cons_self)
    · exact h.live loop running (by rw [hframes]; exact List.mem_cons_of_mem _ hmem)
  · rintro event callback inst e listener rfl hreg
    have hregisters : m.registers = some (e, listener) := by
      simp [Machine.registers, hframes, hrunning, hreg]
    refine (hkeeps (e, listener) hregisters).imp_right fun hfiring program => ?_
    rw [Machine.firing, hframes] at hfiring
    cases frame <;> exact hfiring

theorem run (h : Sound m) (hkeeps : KeepsBuffers m .run)
    (hrun : m.run grow functions = some m') : Sound m' := by
  unfold Machine.run at hrun
  split at hrun
  · cases hrun
  · next frames hframes =>
      cases hrun
      refine h.frames fun loop running hmem => ?_
      exact h.live loop running (by rw [hframes]; exact List.mem_cons_of_mem _ hmem)
  · next call k frames hframes =>
      cases hrun
      exact h.call hkeeps hframes rfl
  · next loop frames hframes =>
      cases hrun
      exact h.nextCallback hframes
  · next loop frames hframes =>
      cases hrun
      exact h.afterCallback hframes
  · next loop call k frames hframes =>
      cases hrun
      exact h.call hkeeps hframes rfl

theorem step {a : ScriptAction γ} (h : Sound m) (hkeeps : KeepsBuffers m a)
    (hstep : m.step grow functions a = some m') : Sound m' := by
  unfold Machine.step at hstep
  rw [if_neg (by simp [h.safe])] at hstep
  cases a with
  | run => exact h.run hkeeps hstep
  | script program =>
      dsimp only at hstep
      split at hstep
      · cases hstep
        exact h.frames fun loop running hmem => by simp at hmem
      · cases hstep
  | fire event arguments =>
      dsimp only at hstep
      split at hstep
      · cases hstep
        exact h.startFiring event arguments none
      · cases hstep
  | reset =>
      dsimp only at hstep
      split at hstep
      · next hempty =>
          cases hstep
          refine ⟨h.safe, h.ended, fun loop running hmem => ?_⟩
          rw [List.isEmpty_iff.mp hempty] at hmem
          cases hmem
      · cases hstep

theorem dispatches (h : Sound m) : Dispatches grow functions m where
  safe := h.safe
  ended := h.ended
  begun loop running hmem := by
    rw [(h.live loop running hmem).invoked]
    exact List.take_prefix _ _
  goesOn hframes := by
    simp only [Machine.step, h.safe, Bool.false_eq_true, if_false, Machine.run]
    split
    · next hempty => exact absurd hempty hframes
    all_goals rfl

end Sound

/-! ## Runs -/

theorem sound_visits (globals : γ) (as : List (ScriptAction γ))
    (h : ∀ move ∈ moves (Machine.step grow functions) { globals } as, KeepsBuffers move.1 move.2) :
    ∀ m ∈ visits (Machine.step grow functions) { globals } as, Sound m := by
  have hinit : Sound ({ globals } : Machine γ) :=
    ⟨rfl, fun loop hl => (by cases hl), fun loop running hl => (by cases hl)⟩
  exact forall_visits_of_forall_moves Sound KeepsBuffers
    (fun hs hkeeps hstep => hs.step hkeeps hstep) hinit as h

/-- In a run in which a listener that is registered for an event that is being fired finds room
in the vector, every firing calls the listeners that are registered when it begins, each once and
in their order, and no element is used that has been moved. -/
theorem dispatch_run (grow : Nat → Nat) (functions : Nat → LuaFunction γ) (globals : γ)
    (as : List (ScriptAction γ))
    (h : ∀ move ∈ moves (Machine.step grow functions) { globals } as, KeepsBuffers move.1 move.2) :
    ∀ m ∈ visits (Machine.step grow functions) { globals } as, Dispatches grow functions m :=
  fun m hm => (sound_visits globals as h m hm).dispatches

/-! ### A plugin that listens while it is called -/

/-- The growth of the vectors of the compiler that the module is made for. -/
def growth (capacity : Nat) : Nat := capacity + capacity / 2

/-- The first function listens for the event, with the second one; this one does nothing. -/
def listening (event : String) : Nat → LuaFunction Unit
  | 0, _ => .call (.listen (.string event) (.function 1) .nil) fun _ => .ret ()
  | _, _ => .ret ()

/-- The first function listens for an event, and `others` times the second one; the event is
fired. -/
def listeningRun (others steps : Nat) : List (ScriptAction Unit) :=
  let register (ref : Nat) : ScriptAction Unit :=
    .script (.call (.listen (.string "Level:Loaded") (.function ref) .nil) fun _ => .ret ())
  [register 0, .run, .run] ++ (List.replicate others [register 1, .run, .run]).flatten ++
    .fire "Level:Loaded" [] :: List.replicate steps .run

/-- With seven listeners there is room for two others. The first one registers one in each
firing, which is called in the next. -/
def roomyRun : List (ScriptAction Unit) :=
  listeningRun 6 16 ++ .fire "Level:Loaded" [] :: List.replicate 18 .run

theorem dispatch_run_room :
    (∀ move ∈ moves (Machine.step growth (listening "Level:Loaded")) { globals := () } roomyRun,
      KeepsBuffers move.1 move.2) ∧
    (∃ m ∈ visits (Machine.step growth (listening "Level:Loaded")) { globals := () } roomyRun,
      m.ended.map (·.invoked.length) = [7, 8]) ∧
    ∀ m ∈ visits (Machine.step growth (listening "Level:Loaded")) { globals := () } roomyRun,
      Dispatches growth (listening "Level:Loaded") m := by
  have hkeeps : ∀ move ∈ moves (Machine.step growth (listening "Level:Loaded")) { globals := () }
      roomyRun, KeepsBuffers move.1 move.2 := by decide +kernel
  exact ⟨hkeeps, by decide, dispatch_run growth (listening "Level:Loaded") () roomyRun
    hkeeps⟩

/-- The first listener registers a third one, which moves the two. -/
theorem dispatch_dangles :
    ¬ ∀ m ∈ visits (Machine.step growth (listening "Level:Loaded")) { globals := () }
      (listeningRun 1 3), Dispatches growth (listening "Level:Loaded") m := by
  intro h
  have hlast : ∃ m ∈ visits (Machine.step growth (listening "Level:Loaded")) { globals := () }
      (listeningRun 1 3), m.dangling = true := by decide
  obtain ⟨m, hm, hdangling⟩ := hlast
  rw [(h m hm).safe] at hdangling
  cases hdangling

/-! ## The end of a run -/

namespace Machine

variable {m m' : Machine γ}

/-- No iterator is ahead of its vector, and below the top all functions are running. -/
structure Stacked (m : Machine γ) : Prop where
  behind : ∀ loop running, .firing loop running ∈ m.frames →
    loop.cursor.buffer ≤ (m.listeners loop.event).buffer
  running : ∀ frame ∈ m.frames.tail, frame.running?.isSome

/-- The callback that runs in a loop has been moved. -/
def Doomed (m : Machine γ) : Prop :=
  m.dangling = true ∨ ∃ loop program, .firing loop (some program) ∈ m.frames ∧
    loop.cursor.buffer < (m.listeners loop.event).buffer

/-- What a call leaves: the function that made it on top, or a firing that has just begun. -/
structure Leaves (m m' : Machine γ) (goOn : LuaProgram γ → List (Frame γ)) : Prop where
  frames : ∃ program, m'.frames = goOn program ∨ ∃ loop,
    m'.frames = .firing loop none :: goOn program ∧
      loop.cursor.buffer = (m'.listeners loop.event).buffer
  buffer : ∀ e, (m.listeners e).buffer ≤ (m'.listeners e).buffer

section

variable {goOn : LuaProgram γ → List (Frame γ)}

theorem leaves_of_eq {program : LuaProgram γ} (hframes : m'.frames = goOn program)
    (hlisteners : m'.listeners = m.listeners) : Leaves m m' goOn :=
  ⟨⟨program, .inl hframes⟩, fun e => by rw [hlisteners]⟩

theorem leaves_startFiring (program : LuaProgram γ) (event : String) (arguments : List LuaValue)
    (chat : Option ChatMessage) :
    Leaves m ({ m with frames := goOn program }.startFiring event arguments chat) goOn :=
  ⟨⟨program, .inr ⟨_, rfl, rfl⟩⟩, fun _ => Nat.le_refl _⟩

theorem leaves_listenFunc (program : LuaProgram γ) (event callback inst : LuaValue) :
    Leaves m ({ m with frames := goOn program }.listenFunc grow event callback inst) goOn := by
  unfold listenFunc
  split
  · next event listener _ =>
      refine ⟨⟨program, .inl rfl⟩, fun e => ?_⟩
      by_cases he : e = event
      · simp only [listen, he, if_true]
        exact Vec.buffer_le_pushBack listener
      · simp [listen, he]
  · exact leaves_of_eq rfl rfl

theorem leaves_forceSendChatMessage (program : LuaProgram γ) (player channel : LuaValue) :
    Leaves m ({ m with frames := goOn program }.forceSendChatMessage player channel) goOn := by
  unfold forceSendChatMessage
  split
  · dsimp only
    split
    · exact leaves_of_eq rfl rfl
    · split
      · exact leaves_startFiring program _ _ _
      · exact leaves_of_eq rfl rfl
  · exact leaves_of_eq rfl rfl

theorem leaves_perform (call : LuaCall γ) (k : call.Answer → LuaProgram γ) :
    Leaves m (m.perform grow goOn call k) goOn := by
  cases call with
  | getGlobals => exact leaves_of_eq rfl rfl
  | setGlobals globals => exact leaves_of_eq rfl rfl
  | listen event callback inst => exact leaves_listenFunc _ event callback inst
  | setCancelled isCancelled =>
      cases isCancelled <;> exact leaves_of_eq rfl rfl
  | forceSendChatMessage player channel => exact leaves_forceSendChatMessage _ player channel
  | engine event arguments => exact leaves_startFiring _ event arguments none

end

section

variable {frame : Frame γ} {frames : List (Frame γ)}

/-- A frame below the top stays. -/
theorem Leaves.mem_tail (h : Leaves m m' fun program => frame.goOn program :: frames)
    {f : Frame γ} (hf : f ∈ frames) : f ∈ m'.frames := by
  obtain ⟨program, heq | ⟨loop, heq, -⟩⟩ := h.frames
  · rw [heq]
    exact List.mem_cons_of_mem _ hf
  · rw [heq]
    exact List.mem_cons_of_mem _ (List.mem_cons_of_mem _ hf)

theorem Stacked.leaves (h : m.Stacked) (hframes : m.frames = frame :: frames)
    (hrunning : frame.running?.isSome)
    (hleaves : Leaves m m' fun program => frame.goOn program :: frames) : m'.Stacked := by
  have hbehind : ∀ loop running program, .firing loop running ∈ frame.goOn program :: frames →
      loop.cursor.buffer ≤ (m'.listeners loop.event).buffer := by
    intro loop running program hmem
    refine Nat.le_trans ?_ (hleaves.buffer loop.event)
    rcases List.mem_cons.mp hmem with heq | hmem
    · cases frame with
      | script _ => cases heq
      | firing l r =>
          cases heq
          exact h.behind loop r (by rw [hframes]; exact List.mem_cons_self)
    · exact h.behind loop running (by rw [hframes]; exact List.mem_cons_of_mem _ hmem)
  have htail : ∀ f ∈ frames, f.running?.isSome := by
    have := h.running
    rwa [hframes] at this
  obtain ⟨program, heq | ⟨loop, heq, hbuffer⟩⟩ := hleaves.frames
  · refine ⟨fun l r hl => ?_, ?_⟩
    · rw [heq] at hl
      exact hbehind l r program hl
    · rw [heq]
      exact htail
  · refine ⟨fun l r hl => ?_, ?_⟩
    · rw [heq] at hl
      rcases List.mem_cons.mp hl with hl | hl
      · cases hl
        exact Nat.le_of_eq hbuffer
      · exact hbehind l r program hl
    · rw [heq]
      intro f hf
      rcases List.mem_cons.mp hf with rfl | hf
      · cases frame <;> rfl
      · exact htail f hf

/-- A callback that has been moved stays so while functions run. -/
theorem Doomed.leaves (h : m.Doomed) (hsafe : m.dangling = false)
    (hframes : m.frames = frame :: frames)
    (hleaves : Leaves m m' fun program => frame.goOn program :: frames) : m'.Doomed := by
  obtain ⟨loop, running, hmem, hmoved⟩ := h.resolve_left (by simp [hsafe])
  have hmoved' := Nat.lt_of_lt_of_le hmoved (hleaves.buffer loop.event)
  rw [hframes] at hmem
  rcases List.mem_cons.mp hmem with rfl | hmem
  · obtain ⟨program, heq | ⟨l, heq, -⟩⟩ := hleaves.frames
    · exact .inr ⟨loop, program, by rw [heq]; exact List.mem_cons_self, hmoved'⟩
    · refine .inr ⟨loop, program, ?_, hmoved'⟩
      rw [heq]
      exact List.mem_cons_of_mem _ List.mem_cons_self
  · exact .inr ⟨loop, running, hleaves.mem_tail hmem, hmoved'⟩

end

/-- A state with the frames below the top, and perhaps a loop with an iterator into its vector
on top of them, is stacked. -/
theorem Stacked.frames (h : m.Stacked) {frame : Frame γ} {frames : List (Frame γ)}
    (hframes : m.frames = frame :: frames) : { m with frames }.Stacked := by
  have htail : ∀ f ∈ frames, f.running?.isSome := by
    have := h.running
    rwa [hframes] at this
  refine ⟨fun loop running hmem => ?_, fun f hf => htail f (List.mem_of_mem_tail hf)⟩
  exact h.behind loop running (by rw [hframes]; exact List.mem_cons_of_mem _ hmem)

theorem Stacked.loop (h : m.Stacked) {loop loop' : Loop} {running running' : Option (LuaProgram γ)}
    {frames : List (Frame γ)} (hframes : m.frames = .firing loop running :: frames)
    (hevent : loop'.event = loop.event) (hbuffer : loop'.cursor.buffer = loop.cursor.buffer) :
    { m with frames := .firing loop' running' :: frames }.Stacked := by
  refine ⟨fun l r hl => ?_, ?_⟩
  · rcases List.mem_cons.mp hl with heq | hl
    · cases heq
      rw [hbuffer, hevent]
      exact h.behind loop running (by rw [hframes]; exact List.mem_cons_self)
    · exact h.behind l r (by rw [hframes]; exact List.mem_cons_of_mem _ hl)
  · have := h.running
    rwa [hframes] at this

theorem Stacked.run (h : m.Stacked) (hrun : m.run grow functions = some m') : m'.Stacked := by
  unfold Machine.run at hrun
  split at hrun
  · cases hrun
  · next frames hframes =>
      cases hrun
      exact h.frames hframes
  · next call k frames hframes =>
      cases hrun
      exact h.leaves hframes rfl (leaves_perform call k)
  · next loop frames hframes =>
      cases hrun
      unfold nextCallback
      split
      · have := h.frames hframes
        exact ⟨this.behind, this.running⟩
      · split
        · exact ⟨h.behind, h.running⟩
        · exact h.loop hframes rfl rfl
  · next loop frames hframes =>
      cases hrun
      unfold afterCallback
      split
      · exact ⟨h.behind, h.running⟩
      · exact h.loop hframes rfl rfl
  · next loop call k frames hframes =>
      cases hrun
      exact h.leaves hframes rfl (leaves_perform call k)

theorem Stacked.step {a : ScriptAction γ} (h : m.Stacked)
    (hstep : m.step grow functions a = some m') : m'.Stacked := by
  unfold Machine.step at hstep
  split at hstep
  · cases hstep
  · cases a with
    | run => exact h.run hstep
    | script program =>
        dsimp only at hstep
        split at hstep
        · cases hstep
          exact ⟨fun loop running hmem => by simp at hmem, fun f hf => by simp at hf⟩
        · cases hstep
    | fire event arguments =>
        dsimp only at hstep
        split at hstep
        · next hempty =>
            cases hstep
            have hempty := List.isEmpty_iff.mp hempty
            refine ⟨fun loop running hmem => ?_, fun f hf => ?_⟩
            · simp only [startFiring, hempty, List.mem_singleton] at hmem
              cases hmem
              exact Nat.le_refl _
            · simp [startFiring, hempty] at hf
        · cases hstep
    | reset =>
        dsimp only at hstep
        split at hstep
        · next hempty =>
            cases hstep
            have hempty := List.isEmpty_iff.mp hempty
            exact ⟨fun loop running hmem => by simp [hempty] at hmem, h.running⟩
        · cases hstep

/-- A callback that has been moved is used when its function returns, if not before. -/
theorem Doomed.run (h : m.Doomed) (hsafe : m.dangling = false)
    (hrun : m.run grow functions = some m') : m'.Doomed := by
  obtain ⟨loop, program, hmem, hmoved⟩ := h.resolve_left (by simp [hsafe])
  unfold Machine.run at hrun
  split at hrun
  · cases hrun
  · next frames hframes =>
      cases hrun
      rw [hframes] at hmem
      exact .inr ⟨loop, program, (List.mem_cons.mp hmem).resolve_left (by simp), hmoved⟩
  · next call k frames hframes =>
      cases hrun
      exact h.leaves hsafe hframes (leaves_perform call k)
  · next top frames hframes =>
      cases hrun
      rw [hframes] at hmem
      have hmem := (List.mem_cons.mp hmem).resolve_left (by simp)
      unfold nextCallback
      split
      · exact .inr ⟨loop, program, hmem, hmoved⟩
      · split
        · exact .inl rfl
        · exact .inr ⟨loop, program, List.mem_cons_of_mem _ hmem, hmoved⟩
  · next top frames hframes =>
      cases hrun
      rw [hframes] at hmem
      unfold afterCallback
      rcases List.mem_cons.mp hmem with heq | hmem
      · cases heq
        rw [Vec.get?_of_moved hmoved]
        exact .inl rfl
      · split
        · exact .inl rfl
        · exact .inr ⟨loop, program, List.mem_cons_of_mem _ hmem, hmoved⟩
  · next top call k frames hframes =>
      cases hrun
      exact h.leaves hsafe hframes (leaves_perform call k)

theorem Doomed.step {a : ScriptAction γ} (h : m.Doomed)
    (hstep : m.step grow functions a = some m') : m'.Doomed := by
  unfold Machine.step at hstep
  split at hstep
  · cases hstep
  · next hsafe =>
      have hsafe := Bool.eq_false_iff.mpr hsafe
      obtain ⟨loop, program, hmem, -⟩ := h.resolve_left (by simp [hsafe])
      have hframes : m.frames.isEmpty = false := by
        cases hm : m.frames with
        | nil =>
            rw [hm] at hmem
            cases hmem
        | cons => rfl
      cases a with
      | run => exact h.run hsafe hstep
      | script | fire | reset => simp [hframes] at hstep

theorem run_call {frame : Frame γ} {frames : List (Frame γ)} (hframes : m.frames = frame :: frames)
    {call : LuaCall γ} {k : call.Answer → LuaProgram γ}
    (hrunning : frame.running? = some (.call call k)) :
    m.run grow functions =
      some (m.perform grow (fun program => frame.goOn program :: frames) call k) := by
  cases frame with
  | script running =>
      cases hrunning
      simp only [Machine.run, hframes]
      rfl
  | firing loop running =>
      cases hrunning
      simp only [Machine.run, hframes]
      rfl

theorem registers_cases {event : String} {listener : Listener}
    (h : m.registers = some (event, listener)) :
    ∃ frame frames e callback inst k, m.frames = frame :: frames ∧
      frame.running? = some (.call (.listen e callback inst) k) ∧
      registration e callback inst = some (event, listener) := by
  unfold registers at h
  split at h
  · next e callback inst k hhead =>
      obtain ⟨frame, hframe, hrunning⟩ := Option.bind_eq_some_iff.mp hhead
      obtain ⟨frames, hframes⟩ := List.head?_eq_some_iff.mp hframe
      exact ⟨frame, frames, e, callback, inst, k, hframes, hrunning, h⟩
  · cases h

/-- A registration for an event that is being fired moves a callback that runs, if the vector
is full. -/
theorem Stacked.doomed (h : m.Stacked) {event : String} {listener : Listener}
    (hregisters : m.registers = some (event, listener)) (hfull : ¬ (m.listeners event).HasRoom)
    (hfiring : event ∈ m.firing) (hrun : m.run grow functions = some m') : m'.Doomed := by
  obtain ⟨frame, frames, e, callback, inst, k, hframes, hrunning, hreg⟩ := registers_cases hregisters
  have hm' : m' = { m with frames := frame.goOn (k ()) :: frames }.listen grow event listener := by
    rw [run_call hframes hrunning] at hrun
    cases hrun
    simp only [perform, listenFunc, hreg]
  have hmoved : (m'.listeners event).buffer = (m.listeners event).buffer + 1 := by
    rw [hm']
    simp only [listen, if_true]
    exact Vec.buffer_pushBack_of_full hfull listener
  obtain ⟨f, hf, hevent⟩ := List.mem_filterMap.mp hfiring
  cases f with
  | script running => cases hevent
  | firing loop running =>
      cases hevent
      have hlt : loop.cursor.buffer < (m'.listeners loop.event).buffer := by
        have := h.behind loop running hf
        omega
      rw [hframes] at hf
      rcases List.mem_cons.mp hf with rfl | hf
      · exact .inr ⟨loop, k (), by rw [hm']; exact List.mem_cons_self, hlt⟩
      · have hsome := h.running _ (by rw [hframes]; exact hf)
        obtain ⟨program, rfl⟩ := Option.isSome_iff_exists.mp hsome
        exact .inr ⟨loop, program, by rw [hm']; exact List.mem_cons_of_mem _ hf, hlt⟩

end Machine

/-- A run that comes to its end without undefined behaviour has met the condition. -/
theorem keepsBuffers_of_ends {m m' : Machine γ} {as : List (ScriptAction γ)} (h : m.Stacked)
    (hexec : exec (Machine.step grow functions) m as = some m') (hframes : m'.frames = [])
    (hsafe : m'.dangling = false) :
    ∀ move ∈ moves (Machine.step grow functions) m as, KeepsBuffers move.1 move.2 := by
  induction as generalizing m with
  | nil => exact fun move hmove => by cases hmove
  | cons a as ih =>
      obtain ⟨t, ht, hrest⟩ := Option.bind_eq_some_iff.mp hexec
      rw [moves, ht]
      refine List.forall_mem_cons.mpr ⟨?_, ih (h.step ht) hrest⟩
      cases a with
      | script | fire | reset => trivial
      | run =>
          rintro ⟨event, listener⟩ hregisters
          by_contra hnot
          obtain ⟨hfull, hfiring⟩ := not_or.mp hnot
          have hrun : m.run grow functions = some t := by
            unfold Machine.step at ht
            split at ht
            · cases ht
            · exact ht
          have hdoomed := h.doomed hregisters hfull (not_not.mp hfiring) hrun
          rcases exec_rule Machine.Doomed (fun hd hs => hd.step hs) hdoomed hrest with hd | hd
          · rw [hsafe] at hd
            cases hd
          · obtain ⟨loop, program, hmem, -⟩ := hd
            rw [hframes] at hmem
            cases hmem

/-- For a run that has come to its end, with no Lua code running, the condition is exact. -/
theorem dispatch_iff (grow : Nat → Nat) (functions : Nat → LuaFunction γ) (globals : γ)
    (as : List (ScriptAction γ)) {m : Machine γ}
    (hexec : exec (Machine.step grow functions) { globals } as = some m)
    (hends : m.frames = [] ∨ m.dangling = true) :
    (∀ m ∈ visits (Machine.step grow functions) { globals } as, Dispatches grow functions m) ↔
      ∀ move ∈ moves (Machine.step grow functions) { globals } as, KeepsBuffers move.1 move.2 := by
  refine ⟨fun h => ?_, fun h m hm => (sound_visits globals as h m hm).dispatches⟩
  have hsafe := (h m (mem_visits_of_exec hexec)).safe
  have hstacked : ({ globals } : Machine γ).Stacked :=
    ⟨fun loop running hmem => (by cases hmem), fun f hf => (by cases hf)⟩
  exact keepsBuffers_of_ends hstacked hexec (hends.resolve_right (by simp [hsafe])) hsafe

end Kyber.Script
