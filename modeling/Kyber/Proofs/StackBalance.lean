import Kyber.Lib.Runs
import Kyber.Script.LuaConsole

/-!
# The height of a plugin's stack

A call of a plugin's function should leave the stack as high as it was, and a console
command should output the string that its function returns and nothing else. The callbacks
of events do so. `Execute` takes one value from the stack at the end, for a result and for
the table that it has pushed first. After an error this is the table, and all is well; but
when the function returns it is the result, and the table stays.

So a run is right as long as the functions of console commands raise errors only.
-/

namespace Kyber.Script.Calls

open Kyber.Lib

/-! ## What is promised -/

/-- The string that a function returns. -/
def Outcome.string? : Outcome → Option String
  | .returned (.string value :: _) => some value
  | _ => none

/-- What there should be in the output. -/
def Caller.expected (outcome : Outcome) : Caller → List String
  | .execute => outcome.string?.toList
  | .callback .. => []

structure Completed.Neutral (c : Completed) : Prop where
  height : c.after = c.before
  output : c.output = c.caller.expected c.outcome

structure Neutral (p : Plugin) : Prop where
  alive : p.crashed = false
  calls : ∀ c ∈ p.completed, c.Neutral

/-- The function that comes to its end is not one of a console command, unless it raises an
error. The value of an error has a text, and what is needed for a callback is still there. -/
def Ends (p : Plugin) : Caller → Outcome → Prop
  | .execute, .returned _ => False
  | .execute, .raised error => error.string?.isSome
  | .callback _ event element, .returned _ => ((p.listeners event).get? element).isSome
  | .callback _ event element, .raised error =>
      ((p.listeners event).get? element).isSome ∧ p.plugin = some .plugin ∧ error.string?.isSome

instance (p : Plugin) : (caller : Caller) → (outcome : Outcome) → Decidable (Ends p caller outcome)
  | .execute, .returned _ => inferInstanceAs (Decidable False)
  | .execute, .raised error => inferInstanceAs (Decidable (error.string?.isSome = true))
  | .callback _ _ _, .returned _ => inferInstanceAs (Decidable (_ = true))
  | .callback _ _ _, .raised _ => inferInstanceAs (Decidable (_ ∧ _ ∧ _))

def Raises (p : Plugin) : Action → Prop
  | .finish outcome => ∀ call ∈ p.pending.head?, Ends p call.caller outcome
  | _ => True

/-! ## What is on the stack -/

/-- How much of what is below the Lua function the module has pushed. -/
def Pending.Sound (call : Pending) : Prop :=
  match call.caller with
  | .execute => ∃ ref rest, call.below = .table ref :: rest ∧ rest.length = call.height
  | .callback useInst _ _ => call.below.length = call.height + useInst.toNat

/-- The first argument of a console command is a table. -/
structure Sound (p : Plugin) : Prop where
  tables : ∀ c ∈ p.commands, ∃ ref, p.registry[c.2.instanceRef]? = some (.table ref)
  pending : ∀ call ∈ p.pending, call.Sound

namespace Plugin

variable {p : Plugin}

theorem foldl_push (arguments : List Argument) (p : Plugin) :
    arguments.foldl (fun p argument => p.push argument.value) p =
      { p with frame := (arguments.map Argument.value).reverse ++ p.frame } := by
  induction arguments generalizing p with
  | nil => rfl
  | cons argument arguments ih =>
      rw [List.foldl_cons, ih, List.map_cons, List.reverse_cons, List.append_assoc]
      rfl

theorem drop_pushed (arguments : List Argument) (rest : List Value) (n : Nat) :
    ((arguments.map Argument.value).reverse ++ rest).drop (arguments.length + n) = rest.drop n := by
  have hlength : (arguments.map Argument.value).reverse.length = arguments.length := by simp
  rw [← hlength, List.drop_length_add_append]

theorem execute_eq (command : LuaConsoleCommand) (rawArguments : Option String) :
    p.execute command rawArguments =
      { p with
        frame := []
        pending := ⟨.execute, p.frame.length,
          p.registry[command.instanceRef]?.getD .nil :: p.frame⟩ :: p.pending } :=
  rfl

theorem callback_some (event : String) (element : Iterator) (instanceRef callbackRef : Nat)
    (arguments : List Argument) :
    p.callback event element ⟨some instanceRef, callbackRef⟩ arguments =
      { p with
        frame := []
        pending := ⟨.callback true event element, p.frame.length,
          p.registry[instanceRef]?.getD .nil :: p.frame⟩ :: p.pending } := by
  simp only [callback, foldl_push, pcall]
  exact congrArg (fun below => { p with
    frame := [], pending := ⟨.callback true event element, p.frame.length, below⟩ :: p.pending })
    (drop_pushed arguments _ 2)

theorem callback_none (event : String) (element : Iterator) (callbackRef : Nat)
    (arguments : List Argument) :
    p.callback event element ⟨none, callbackRef⟩ arguments =
      { p with
        frame := []
        pending := ⟨.callback false event element, p.frame.length, p.frame⟩ :: p.pending } := by
  simp only [callback, foldl_push, pcall]
  exact congrArg (fun below => { p with
    frame := [], pending := ⟨.callback false event element, p.frame.length, below⟩ :: p.pending })
    (drop_pushed arguments _ 1)

/-! ## The end of a call -/

/-- The table is left on the stack. -/
theorem executed_returned (below values : List Value) :
    p.executed below (.returned values) =
      some ({ p with frame := below }, (values.headD .nil).string?.toList) := by
  cases values <;> rfl

theorem executed_raised (ref : Nat) (rest : List Value) (error : Value) :
    p.executed (.table ref :: rest) (.raised error) =
      if error.string?.isSome then some ({ p with frame := rest }, []) else none := by
  cases h : error.string? with
  | none => simp [executed, leave, logError, h]
  | some text =>
      have htable : (Value.table ref).string? = none := rfl
      simp [executed, leave, logError, pop, h, htable]

theorem calledBack_returned (below values : List Value) (useInst : Bool) (event : String)
    (element : Iterator) :
    p.calledBack below (.returned values) useInst event element =
      if ((p.listeners event).get? element).isSome then
        some { p with frame := below.drop useInst.toNat }
      else none := by
  cases h : (p.listeners event).get? element with
  | none => simp [calledBack, leave, h]
  | some listener => cases useInst <;> simp [calledBack, leave, pop, h]

theorem calledBack_raised (below : List Value) (error : Value) (useInst : Bool) (event : String)
    (element : Iterator) :
    p.calledBack below (.raised error) useInst event element =
      if ((p.listeners event).get? element).isSome ∧ p.plugin = some .plugin ∧
          error.string?.isSome then
        some { p with frame := below.drop useInst.toNat }
      else none := by
  cases h : (p.listeners event).get? element with
  | none => simp [calledBack, leave, h]
  | some listener =>
      by_cases hplugin : p.plugin = some .plugin
      · cases htext : error.string? with
        | none => simp [calledBack, leave, getPlugin, logError, h, hplugin, htext]
        | some text =>
            cases useInst <;>
              simp [calledBack, leave, getPlugin, logError, pop, h, hplugin, htext]
      · simp [calledBack, leave, getPlugin, h, hplugin]

end Plugin

/-! ## Steps -/

section

variable {grow : Nat → Nat} {p q : Plugin} {a : Action}

theorem Plugin.consoleRegisterFunc_cases (p : Plugin) (arguments : List Value) :
    ∃ more commands, p.consoleRegisterFunc arguments =
        { p with registry := p.registry ++ more, commands } ∧
      ∀ c ∈ commands, c ∈ p.commands ∨
        ∃ ref, (p.registry ++ more)[c.2.instanceRef]? = some (.table ref) := by
  unfold Plugin.consoleRegisterFunc
  dsimp only
  split
  · next name _ instanceTable _ _ _ _ =>
      split
      · next callback _ =>
          refine ⟨[.table instanceTable, .function callback],
            (name, ⟨p.registry.length, (p.registry ++ [Value.table instanceTable]).length⟩) ::
              p.commands, ?_, fun c hc => ?_⟩
          · simp only [Plugin.ref, List.append_assoc, List.cons_append, List.nil_append]
          · obtain rfl | hc := List.mem_cons.mp hc
            · exact .inr ⟨instanceTable, by simp⟩
            · exact .inl hc
      · exact ⟨[.table instanceTable], p.commands, rfl, fun c hc => .inl hc⟩
  · exact ⟨[], p.commands, by simp, fun c hc => .inl hc⟩

theorem Plugin.listenFunc_cases (p : Plugin) (arguments : List Value) :
    ∃ more listeners, p.listenFunc grow arguments =
      { p with registry := p.registry ++ more, listeners } := by
  unfold Plugin.listenFunc
  dsimp only
  split
  · next event callback _ _ =>
      split
      · next instanceTable _ =>
          refine ⟨[.function callback, .table instanceTable], (p.listen grow event
            ⟨some (p.registry ++ [Value.function callback]).length, p.registry.length⟩).listeners, ?_⟩
          simp only [Plugin.ref, Plugin.listen, List.append_assoc, List.cons_append,
            List.nil_append]
      · exact ⟨[.function callback], (p.listen grow event ⟨none, p.registry.length⟩).listeners,
          rfl⟩
  · exact ⟨[], p.listeners, by simp⟩

/-- References into the registry stay what they are. -/
theorem Sound.extend (h : Sound p) (more : List Value) {commands : List (String × LuaConsoleCommand)}
    (hcommands : ∀ c ∈ commands, c ∈ p.commands ∨
      ∃ ref, (p.registry ++ more)[c.2.instanceRef]? = some (.table ref)) :
    ∀ c ∈ commands, ∃ ref, (p.registry ++ more)[c.2.instanceRef]? = some (.table ref) := by
  intro c hc
  obtain hc | htable := hcommands c hc
  · obtain ⟨ref, href⟩ := h.tables c hc
    obtain ⟨hlt, -⟩ := List.getElem?_eq_some_iff.mp href
    exact ⟨ref, (List.getElem?_append_left hlt).trans href⟩
  · exact htable

theorem Sound.execute (h : Sound p) {name : String} {command : LuaConsoleCommand}
    (hcommand : p.commands.lookup name = some command) (rawArguments : Option String) :
    Sound (p.execute command rawArguments) := by
  rw [Plugin.execute_eq]
  refine ⟨h.tables, List.forall_mem_cons.mpr ⟨?_, h.pending⟩⟩
  obtain ⟨before, after, heq, -⟩ := List.lookup_eq_some_iff.mp hcommand
  obtain ⟨ref, href⟩ := h.tables (name, command) (by rw [heq]; exact List.mem_append_cons_self)
  exact ⟨ref, p.frame, by rw [href]; rfl, rfl⟩

theorem Sound.callback (h : Sound p) (event : String) (element : Iterator)
    (listener : LuaEventCallback) (arguments : List Argument) :
    Sound (p.callback event element listener arguments) := by
  obtain ⟨_ | instanceRef, callbackRef⟩ := listener
  · rw [Plugin.callback_none]
    exact ⟨h.tables, List.forall_mem_cons.mpr ⟨rfl, h.pending⟩⟩
  · rw [Plugin.callback_some]
    exact ⟨h.tables, List.forall_mem_cons.mpr ⟨rfl, h.pending⟩⟩

/-- What a call that comes to its end does: the stack is as high as before, but for the table
that `Execute` leaves below a result. -/
theorem Plugin.finish_cases {call : Pending} {pending : List Pending}
    (hpending : p.pending = call :: pending) (hcall : call.Sound) (outcome : Outcome) :
    ∃ q, p.finish outcome = some q ∧ q.commands = p.commands ∧ q.registry = p.registry ∧
      q.pending = pending ∧
      (Ends p call.caller outcome ∧ q.crashed = p.crashed ∧
          q.completed = p.completed ++ [⟨call.caller, outcome, call.height, call.height,
            call.caller.expected outcome⟩] ∨
        ¬ Ends p call.caller outcome ∧
          (q.crashed = true ∨ ∃ output, q.completed = p.completed ++
            [⟨call.caller, outcome, call.height, call.height + 1, output⟩])) := by
  obtain ⟨caller, height, below⟩ := call
  unfold Plugin.finish
  rw [hpending]
  cases caller with
  | execute =>
      obtain ⟨ref, rest, rfl, rfl⟩ := hcall
      cases outcome with
      | returned values =>
          simp only [executed_returned]
          exact ⟨_, rfl, rfl, rfl, rfl, .inr ⟨id, .inr ⟨_, rfl⟩⟩⟩
      | raised error =>
          simp only [executed_raised]
          by_cases h : error.string?.isSome
          · rw [if_pos h]
            exact ⟨_, rfl, rfl, rfl, rfl, .inl ⟨h, rfl, rfl⟩⟩
          · rw [if_neg h]
            exact ⟨_, rfl, rfl, rfl, rfl, .inr ⟨h, .inl rfl⟩⟩
  | callback useInst event element =>
      have hheight : (below.drop useInst.toNat).length = height := by
        rw [List.length_drop, show below.length = height + useInst.toNat from hcall]
        omega
      cases outcome with
      | returned values =>
          simp only [calledBack_returned]
          by_cases h : ((p.listeners event).get? element).isSome
          · rw [if_pos h]
            refine ⟨_, rfl, rfl, rfl, rfl, .inl ⟨h, rfl, ?_⟩⟩
            show _ ++ [Completed.mk _ _ _ (below.drop useInst.toNat).length _] = _
            rw [hheight]
            rfl
          · rw [if_neg h]
            exact ⟨_, rfl, rfl, rfl, rfl, .inr ⟨h, .inl rfl⟩⟩
      | raised error =>
          simp only [calledBack_raised]
          by_cases h : ((p.listeners event).get? element).isSome ∧ p.plugin = some .plugin ∧
              error.string?.isSome
          · rw [if_pos h]
            refine ⟨_, rfl, rfl, rfl, rfl, .inl ⟨h, rfl, ?_⟩⟩
            show _ ++ [Completed.mk _ _ _ (below.drop useInst.toNat).length _] = _
            rw [hheight]
            rfl
          · rw [if_neg h]
            exact ⟨_, rfl, rfl, rfl, rfl, .inr ⟨h, .inl rfl⟩⟩

theorem Sound.step (h : Sound p) (hstep : step grow p a = some q) : Sound q := by
  unfold Calls.step at hstep
  split at hstep
  · cases hstep
  cases a with
  | lua frame plugin =>
      cases hstep
      exact ⟨h.tables, h.pending⟩
  | register arguments =>
      cases hstep
      obtain ⟨more, commands, heq, hcommands⟩ := p.consoleRegisterFunc_cases arguments
      rw [heq]
      exact ⟨h.extend more hcommands, h.pending⟩
  | listen arguments =>
      cases hstep
      obtain ⟨more, listeners, heq⟩ := p.listenFunc_cases arguments
      rw [heq]
      exact ⟨h.extend more fun c hc => .inl hc, h.pending⟩
  | execute name rawArguments =>
      obtain ⟨command, hcommand, rfl⟩ := Option.map_eq_some_iff.mp hstep
      exact h.execute hcommand rawArguments
  | fire event index arguments =>
      obtain ⟨listener, -, rfl⟩ := Option.map_eq_some_iff.mp hstep
      exact h.callback event _ listener arguments
  | finish outcome =>
      cases hpending : p.pending with
      | nil => simp [Plugin.finish, hpending] at hstep
      | cons call pending =>
          have hcalls : ∀ c ∈ call :: pending, c.Sound := by
            rw [← hpending]
            exact h.pending
          obtain ⟨hcall, hrest⟩ := List.forall_mem_cons.mp hcalls
          obtain ⟨q', hq, hcommands, hregistry, hleft, -⟩ := Plugin.finish_cases hpending hcall outcome
          cases hstep.symm.trans hq
          refine ⟨?_, ?_⟩
          · rw [hcommands, hregistry]
            exact h.tables
          · rw [hleft]
            exact hrest

/-- Nothing but the end of a call counts. -/
theorem completed_of_step (hstep : step grow p a = some q) (ha : ∀ outcome, a ≠ .finish outcome) :
    q.completed = p.completed ∧ q.crashed = p.crashed := by
  unfold Calls.step at hstep
  split at hstep
  · cases hstep
  cases a with
  | lua frame plugin =>
      cases hstep
      exact ⟨rfl, rfl⟩
  | register arguments =>
      cases hstep
      obtain ⟨more, commands, heq, -⟩ := p.consoleRegisterFunc_cases arguments
      rw [heq]
      exact ⟨rfl, rfl⟩
  | listen arguments =>
      cases hstep
      obtain ⟨more, listeners, heq⟩ := p.listenFunc_cases arguments
      rw [heq]
      exact ⟨rfl, rfl⟩
  | execute name rawArguments =>
      obtain ⟨command, -, rfl⟩ := Option.map_eq_some_iff.mp hstep
      exact ⟨rfl, rfl⟩
  | fire event index arguments =>
      obtain ⟨⟨_ | instanceRef, callbackRef⟩, -, rfl⟩ := Option.map_eq_some_iff.mp hstep
      · rw [Plugin.callback_none]
        exact ⟨rfl, rfl⟩
      · rw [Plugin.callback_some]
        exact ⟨rfl, rfl⟩
  | finish outcome => exact absurd rfl (ha outcome)

/-- A step from a state in which all is well leads to another one exactly if it meets the
condition. -/
theorem neutral_step_iff (h : Sound p) (hp : Neutral p) (hstep : step grow p a = some q) :
    Neutral q ↔ Raises p a := by
  cases a with
  | finish outcome =>
      rw [Calls.step, hp.alive] at hstep
      replace hstep : p.finish outcome = some q := hstep
      cases hpending : p.pending with
      | nil => simp [Plugin.finish, hpending] at hstep
      | cons call pending =>
          have hcall : call.Sound := h.pending call (by rw [hpending]; exact List.mem_cons_self)
          have hraises : Raises p (.finish outcome) ↔ Ends p call.caller outcome := by
            simp [Raises, hpending]
          rw [hraises]
          obtain ⟨q', hq, -, -, -, hends⟩ := Plugin.finish_cases hpending hcall outcome
          cases hstep.symm.trans hq
          obtain ⟨hends, hcrashed, hcompleted⟩ | ⟨hends, hwrong⟩ := hends
          · refine iff_of_true ⟨hcrashed.trans hp.alive, ?_⟩ hends
            rw [hcompleted]
            exact List.forall_mem_append.mpr ⟨hp.calls, by simpa using ⟨rfl, rfl⟩⟩
          · refine iff_of_false (fun hq => ?_) hends
            obtain hcrashed | ⟨output, hcompleted⟩ := hwrong
            · exact Bool.false_ne_true (hq.alive.symm.trans hcrashed)
            · have hlast := hq.calls _ (by rw [hcompleted]; exact List.mem_concat_self)
              exact absurd hlast.height (Nat.succ_ne_self _)
  | lua _ _ | register _ | listen _ | execute _ _ | fire _ _ _ =>
      refine iff_of_true ?_ trivial
      obtain ⟨hcompleted, hcrashed⟩ := completed_of_step hstep (by simp)
      exact ⟨hcrashed.trans hp.alive, by rw [hcompleted]; exact hp.calls⟩

end

/-! ## Runs -/

/-- A plugin whose scripts have been loaded, before it has registered anything. -/
def loaded (frame : List Value) (plugin : Option Value) : Plugin := { frame, plugin }

/-- In every run, all calls of Lua functions leave the stack as high as it was and output what
they should exactly if the functions of console commands raise errors only, and what is needed
for the callbacks of events is there at their end. -/
theorem neutral_iff_raises (grow : Nat → Nat) (frame : List Value) (plugin : Option Value)
    (as : List Action) :
    (∀ p ∈ visits (step grow) (loaded frame plugin) as, Neutral p) ↔
      ∀ m ∈ moves (step grow) (loaded frame plugin) as, Raises m.1 m.2 :=
  forall_visits_iff_forall_moves (step grow) Sound Raises (fun h hstep => h.step hstep)
    (fun h hp hstep => neutral_step_iff h hp hstep)
    ⟨fun _ hc => absurd hc List.not_mem_nil, fun _ hc => absurd hc List.not_mem_nil⟩
    ⟨rfl, fun _ hc => absurd hc List.not_mem_nil⟩ as

/-- A console command whose function returns a string, twice. -/
theorem execute_leaves_tables :
    (exec (step id) (loaded [] (some .plugin))
      [.register [.string "Kyber", .string "Kyber.Hello", .string "", .table 1, .function 2],
        .execute "Kyber.Hello" (some ""), .finish (.returned [.string "hello"]),
        .execute "Kyber.Hello" (some ""), .finish (.returned [.string "hello"])]).map
      (fun p => (p.frame, p.completed.map fun c => (c.before, c.after))) =
    some ([.table 1, .table 1], [(0, 1), (1, 2)]) := by
  decide

end Kyber.Script.Calls
