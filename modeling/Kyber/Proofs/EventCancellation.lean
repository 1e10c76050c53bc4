import Kyber.Script.LuaEventManager

/-!
# Cancelling events

When an event has been fired, the flag should be what the event's own listeners have
last set it to. There is one flag, which every firing resets, so this is a matter of
what listeners do after they have set it: the flag is right after an event and all
events that are nested in it exactly if in each of them, after the last `SetCancelled`
call of its own listeners, no event is fired or the last such event's own listeners
have set the flag to the same value.
-/

namespace Kyber.Script

open Kyber.Lib Kyber.Core

variable {γ α : Type}

/-! ## The flag follows the activity -/

/-- The flag is what the activity leaves, within and afterwards. -/
structure Follows (s : ScriptManager γ) (r : Effect γ α) : Prop where
  after : r.1.eventCancelled = r.2.1.cell s.eventCancelled
  recorded : r.2.1.Recorded false

theorem recorded_done : (Activity.done : Activity String Bool).Recorded false :=
  fun _ hc => absurd hc List.not_mem_nil

/-- Nothing happens to the flag. -/
theorem Follows.done {s s' : ScriptManager γ} {a : α} (h : s'.eventCancelled = s.eventCancelled) :
    Follows s (s', .done, a) :=
  ⟨h, recorded_done⟩

theorem Follows.append {β : Type} {s s₁ s₂ : ScriptManager γ} {first rest : Activity String Bool}
    {a : α} {b : β} (hfirst : Follows s (s₁, first, a)) (hrest : Follows s₁ (s₂, rest, b)) :
    Follows s (s₂, first.append rest, b) := by
  refine ⟨?_, hfirst.recorded.append hrest.recorded⟩
  rw [hrest.after, hfirst.after, Activity.cell_append]

section

variable {trampoline : ChatMessage → Bool} {fire : Firing γ} {functions : Nat → LuaFunction γ}
  (hfire : ∀ {s : ScriptManager γ} {event : String} {arguments : List LuaValue}
    {r : Effect γ Unit}, fire s event arguments = some r → Follows s r)

include hfire

theorem serverSendChatMessageHk_follows {s : ScriptManager γ} {channel : ChatChannel}
    {message : Option String} {player : Option ServerPlayer} {r : Effect γ Bool}
    (h : serverSendChatMessageHk trampoline fire s channel message player = some r) :
    Follows s r := by
  unfold serverSendChatMessageHk at h
  split at h
  · split at h
    · cases h
      exact .done rfl
    · split at h
      · obtain ⟨⟨s₁, fired, ⟨⟩⟩, hfired, h⟩ := Option.bind_eq_some_iff.mp h
        have hfollows := hfire hfired
        dsimp only at h
        split at h
        · cases h
          exact ⟨hfollows.after, hfollows.recorded⟩
        · cases h
          exact ⟨hfollows.after, hfollows.recorded⟩
      · cases h
        exact .done rfl
  · cases h
    exact .done rfl

theorem serverPlayerForceSendChatMessage_follows {s : ScriptManager γ} {player channel : LuaValue}
    {r : Effect γ Outcome}
    (h : serverPlayerForceSendChatMessage trampoline fire s player channel = some r) :
    Follows s r := by
  unfold serverPlayerForceSendChatMessage at h
  split at h
  · cases h
    exact .done rfl
  · split at h
    · obtain ⟨⟨s₁, fired, sent⟩, hsent, h⟩ := Option.bind_eq_some_iff.mp h
      have hfollows := serverSendChatMessageHk_follows hfire hsent
      cases h
      exact ⟨hfollows.after, hfollows.recorded⟩
    · cases h
      exact .done rfl
  · cases h
    exact .done rfl

omit hfire in
theorem setEventCancelledFunc_follows (s : ScriptManager γ) (isCancelled : LuaValue) :
    Follows s ((s.setEventCancelledFunc isCancelled).1, (s.setEventCancelledFunc isCancelled).2,
      ()) := by
  cases isCancelled with
  | boolean value => exact ⟨rfl, recorded_done⟩
  | _ => exact .done rfl

omit hfire in
theorem listenFunc_eventCancelled (s : ScriptManager γ) (event callback inst : LuaValue) :
    (s.listenFunc event callback inst).eventCancelled = s.eventCancelled := by
  unfold ScriptManager.listenFunc
  split
  · split <;> rfl
  · rfl

theorem perform_follows {s : ScriptManager γ} {call : LuaCall γ} {r : Effect γ call.Answer}
    (h : call.perform trampoline fire s = some r) : Follows s r := by
  cases call with
  | getGlobals =>
      cases h
      exact .done rfl
  | setGlobals globals =>
      cases h
      exact .done rfl
  | listen event callback inst =>
      cases h
      exact .done (listenFunc_eventCancelled s event callback inst)
  | setCancelled isCancelled =>
      cases h
      exact setEventCancelledFunc_follows s isCancelled
  | forceSendChatMessage player channel => exact serverPlayerForceSendChatMessage_follows hfire h
  | engine event arguments => exact hfire h

theorem pcall_follows {program : Prog (LuaCall γ) LuaCall.Answer Unit} {s : ScriptManager γ}
    {r : Effect γ Unit} (h : pcall trampoline fire s program = some r) : Follows s r := by
  induction program generalizing s r with
  | ret a =>
      cases h
      exact .done rfl
  | call call k ih =>
      obtain ⟨⟨s₁, first, answer⟩, hfirst, h⟩ := Option.bind_eq_some_iff.mp h
      obtain ⟨⟨s₂, rest, ⟨⟩⟩, hrest, h⟩ := Option.bind_eq_some_iff.mp h
      cases h
      exact (perform_follows hfire hfirst).append (ih answer hrest)

theorem callbacks_follows {arguments : List LuaValue} {listeners : List Listener}
    {s : ScriptManager γ} {r : Effect γ Unit}
    (h : callbacks trampoline fire functions arguments s listeners = some r) : Follows s r := by
  induction listeners generalizing s r with
  | nil =>
      cases h
      exact .done rfl
  | cons listener listeners ih =>
      obtain ⟨⟨s₁, first, ⟨⟩⟩, hfirst, h⟩ := Option.bind_eq_some_iff.mp h
      obtain ⟨⟨s₂, rest, ⟨⟩⟩, hrest, h⟩ := Option.bind_eq_some_iff.mp h
      cases h
      exact (pcall_follows hfire hfirst).append (ih hrest)

end

section

variable {trampoline : ChatMessage → Bool} {functions : Nat → LuaFunction γ} {depth : Nat}
  {s s' : ScriptManager γ} {event : String} {arguments : List LuaValue}
  {log : Activity String Bool}

/-- A firing runs the callbacks with the flag reset. -/
theorem fire_cases (h : fire trampoline functions depth s event arguments = some (s', log, ())) :
    ∃ d inner, depth = d + 1 ∧
      callbacks trampoline (fire trampoline functions d) functions arguments
        (s.setEventCancelled false) (s.listeners event) = some (s', inner, ()) ∧
      log = .enter event inner s'.isEventCancelled .done := by
  cases depth with
  | zero => cases h
  | succ d =>
      obtain ⟨⟨s₁, inner, ⟨⟩⟩, hinner, h⟩ := Option.bind_eq_some_iff.mp h
      cases h
      exact ⟨d, inner, rfl, hinner, rfl⟩

theorem fire_follows (depth : Nat) {s : ScriptManager γ} {event : String}
    {arguments : List LuaValue} {r : Effect γ Unit}
    (h : fire trampoline functions depth s event arguments = some r) : Follows s r := by
  induction depth generalizing s event arguments r with
  | zero => cases h
  | succ depth ih =>
      obtain ⟨s', log, ⟨⟩⟩ := r
      obtain ⟨d, inner, hd, hinner, rfl⟩ := fire_cases h
      cases hd
      have hfollows := callbacks_follows ih hinner
      refine ⟨rfl, ?_⟩
      have hflag : s'.isEventCancelled = inner.cell false := hfollows.after
      rw [hflag]
      exact hfollows.recorded.enter event

end

/-! ## The depth

What has been answered is answered with any greater depth. -/

section

variable {trampoline : ChatMessage → Bool} {f g : Firing γ} {functions : Nat → LuaFunction γ}
  (hfg : ∀ {s : ScriptManager γ} {event : String} {arguments : List LuaValue}
    {r : Effect γ Unit}, f s event arguments = some r → g s event arguments = some r)

include hfg

theorem serverSendChatMessageHk_mono {s : ScriptManager γ} {channel : ChatChannel}
    {message : Option String} {player : Option ServerPlayer} {r : Effect γ Bool}
    (h : serverSendChatMessageHk trampoline f s channel message player = some r) :
    serverSendChatMessageHk trampoline g s channel message player = some r := by
  match message, player with
  | none, _ => exact h
  | some _, none => exact h
  | some message, some player =>
      simp only [serverSendChatMessageHk] at h ⊢
      split at h
      · next hrefused =>
          rw [if_pos hrefused]
          exact h
      · next hrefused =>
          rw [if_neg hrefused]
          split at h
          · next hchannel =>
              rw [if_pos hchannel]
              obtain ⟨fired, hfired, h⟩ := Option.bind_eq_some_iff.mp h
              rw [hfg hfired]
              exact h
          · next hchannel =>
              rw [if_neg hchannel]
              exact h

theorem serverPlayerForceSendChatMessage_mono {s : ScriptManager γ} {player channel : LuaValue}
    {r : Effect γ Outcome}
    (h : serverPlayerForceSendChatMessage trampoline f s player channel = some r) :
    serverPlayerForceSendChatMessage trampoline g s player channel = some r := by
  match player with
  | .player (some player) =>
      cases channel with
      | integer value =>
          obtain ⟨sent, hsent, h⟩ := Option.bind_eq_some_iff.mp h
          exact Option.bind_eq_some_iff.mpr ⟨sent, serverSendChatMessageHk_mono hfg hsent, h⟩
      | _ => exact h
  | .player none | .nil | .boolean _ | .integer _ | .string _ | .function _ | .table _ => exact h

theorem perform_mono {s : ScriptManager γ} {call : LuaCall γ} {r : Effect γ call.Answer}
    (h : call.perform trampoline f s = some r) : call.perform trampoline g s = some r := by
  cases call with
  | forceSendChatMessage player channel => exact serverPlayerForceSendChatMessage_mono hfg h
  | engine event arguments => exact hfg h
  | _ => exact h

theorem pcall_mono {program : Prog (LuaCall γ) LuaCall.Answer Unit} {s : ScriptManager γ}
    {r : Effect γ Unit} (h : pcall trampoline f s program = some r) :
    pcall trampoline g s program = some r := by
  induction program generalizing s r with
  | ret a => exact h
  | call call k ih =>
      obtain ⟨⟨s₁, first, answer⟩, hfirst, h⟩ := Option.bind_eq_some_iff.mp h
      obtain ⟨rest, hrest, h⟩ := Option.bind_eq_some_iff.mp h
      refine Option.bind_eq_some_iff.mpr ⟨_, perform_mono hfg hfirst, ?_⟩
      exact Option.bind_eq_some_iff.mpr ⟨rest, ih answer hrest, h⟩

theorem callbacks_mono {arguments : List LuaValue} {listeners : List Listener}
    {s : ScriptManager γ} {r : Effect γ Unit}
    (h : callbacks trampoline f functions arguments s listeners = some r) :
    callbacks trampoline g functions arguments s listeners = some r := by
  induction listeners generalizing s r with
  | nil => exact h
  | cons listener listeners ih =>
      obtain ⟨⟨s₁, first, ⟨⟩⟩, hfirst, h⟩ := Option.bind_eq_some_iff.mp h
      obtain ⟨rest, hrest, h⟩ := Option.bind_eq_some_iff.mp h
      refine Option.bind_eq_some_iff.mpr ⟨_, pcall_mono hfg hfirst, ?_⟩
      exact Option.bind_eq_some_iff.mpr ⟨rest, ih hrest, h⟩

end

theorem fire_mono {trampoline : ChatMessage → Bool} {functions : Nat → LuaFunction γ}
    {depth depth' : Nat} (hle : depth ≤ depth') {s : ScriptManager γ} {event : String}
    {arguments : List LuaValue} {r : Effect γ Unit}
    (h : fire trampoline functions depth s event arguments = some r) :
    fire trampoline functions depth' s event arguments = some r := by
  induction depth generalizing depth' s event arguments r with
  | zero => cases h
  | succ depth ih =>
      obtain ⟨d, rfl⟩ : ∃ d, depth' = d + 1 := ⟨depth' - 1, by omega⟩
      obtain ⟨inner, hinner, h⟩ := Option.bind_eq_some_iff.mp h
      refine Option.bind_eq_some_iff.mpr ⟨inner, callbacks_mono (fun hf => ?_) hinner, h⟩
      exact ih (by omega) hf

/-! ## Firings -/

section

variable {trampoline : ChatMessage → Bool} {functions : Nat → LuaFunction γ} {depth : Nat}
  {s s' : ScriptManager γ} {log : Activity String Bool}

/-- A message whose event is undisturbed is sent unless the listeners have cancelled it. -/
theorem serverSendChatMessageHk_eq {channel : ChatChannel} (hchannel : channel ≠ .admin)
    {message : String} {player : ServerPlayer} {sent : Bool}
    (h : serverSendChatMessageHk trampoline (fire trampoline functions depth) s channel
      (some message) (some player) = some (s', log, sent))
    (hquiet : ∀ c ∈ log.calls, c.inner.Undisturbed false) :
    ∃ s₁ inner left, log = .enter "ServerPlayer:SendMessage" inner left .done ∧
      s' = if inner.own false then s₁ else s₁.send { channel, message, player } := by
  have hrecorded := (serverSendChatMessageHk_follows (fire_follows depth) h).recorded
  have hown := (Activity.own_iff_undisturbed hrecorded).mpr hquiet
  simp only [serverSendChatMessageHk, hchannel, false_and, if_false, ne_eq, not_false_eq_true,
    if_true] at h
  obtain ⟨⟨s₁, fired, ⟨⟩⟩, hfired, h⟩ := Option.bind_eq_some_iff.mp h
  obtain ⟨-, inner, -, -, rfl⟩ := fire_cases hfired
  dsimp only at h
  split at h
  · next hcancelled =>
      cases h
      refine ⟨s', inner, _, rfl, ?_⟩
      rw [← hown _ List.mem_cons_self, if_pos hcancelled]
  · next hcancelled =>
      cases h
      refine ⟨s₁, inner, _, rfl, ?_⟩
      rw [← hown _ List.mem_cons_self, if_neg hcancelled]

end

/-! ## A plugin that answers what it cancels -/

def luke : ServerPlayer where
  connection := 1
  name := "Luke"
  localPlayerId := 0
  nativeData := 7
  teamId := 1

/-- A message is cancelled, and another one is sent for the player; `answersLast` if this
comes after. -/
def censor (answersLast : Bool) : LuaFunction Unit
  | [.player player, .string "secret"] =>
      if answersLast then
        .call (.setCancelled (.boolean true)) fun _ =>
          .call (.forceSendChatMessage (.player player) (.integer 0)) fun _ => .ret ()
      else
        .call (.forceSendChatMessage (.player player) (.integer 0)) fun _ =>
          .call (.setCancelled (.boolean true)) fun _ => .ret ()
  | _ => .ret ()

def censored : ScriptManager Unit :=
  ({ globals := () } : ScriptManager Unit).listenFunc (.string "ServerPlayer:SendMessage")
    (.function 0) .nil

/-- The event of the message. -/
def fireSecret (answersLast : Bool) : Option (Effect Unit Unit) :=
  fire (fun _ => true) (fun _ => censor answersLast) 2 censored "ServerPlayer:SendMessage"
    [.player (some luke), .string "secret"]

/-- The messages that are sent when the player sends the message. -/
def sentMessages (answersLast : Bool) : Option (List String) :=
  (serverSendChatMessageHk (fun _ => true) (fire (fun _ => true) (fun _ => censor answersLast) 2)
    censored .all (some "secret") (some luke)).map fun r => r.1.sent.map (·.message)

end Kyber.Script
