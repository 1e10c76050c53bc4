import Kyber.Lib.Removals
import Mathlib.Logic.Function.Basic

/-!
# Functions for the game threads (`ThreadExecutor.h`, `ThreadExecutor.cpp`, `Memory.h`)

Each of the game's threads has a vector of functions, with the tick that each is for, and a
count of ticks, both behind a mutex. `Process` runs what is due, from within the predicate that
says what to remove.

What a function does is given by what it queues, on any thread, while it runs. A lock that is
held already is not got, since the mutex is not a recursive one: a call that waits for it ends
in nothing. What happens is recorded in the order in which it does.
-/

namespace Kyber.Core

open Kyber.Lib

inductive GameThread
  | client
  | server
  deriving DecidableEq, Repr

/-- The arguments of a call of `QueueDelayTicks`. -/
structure Request (F : Type) where
  thread : GameThread
  delayTicks : UInt32
  func : F
  deriving DecidableEq, Repr

structure DelayedFunc (F : Type) where
  targetTicks : UInt64
  func : F
  deriving DecidableEq, Repr

structure ThreadData (F : Type) where
  delayedFuncs : List (DelayedFunc F) := []
  tickCount : UInt64 := 0
  deriving DecidableEq, Repr

/-- `Mutex<T>` -/
structure Mutex (T : Type) where
  locked : Bool := false
  data : T

inductive Event (F : Type)
  | queued (request : Request F) (targetTicks : UInt64)
  | ran (thread : GameThread) (func : F)
  /-- the end of `Process`, with the tick that it was for -/
  | processed (thread : GameThread) (tickCount : UInt64)
  deriving DecidableEq, Repr

structure ThreadExecutor (F : Type) where
  threadData : GameThread → Mutex (ThreadData F) := fun _ => { data := {} }
  events : List (Event F) := []

namespace ThreadExecutor

variable {F : Type}

def setThreadData (e : ThreadExecutor F) (thread : GameThread) (m : Mutex (ThreadData F)) :
    ThreadExecutor F :=
  { e with threadData := Function.update e.threadData thread m }

def record (e : ThreadExecutor F) (event : Event F) : ThreadExecutor F :=
  { e with events := e.events ++ [event] }

/-- `m_threadData[thread].Lock()`, with the data behind the lock. -/
def lock (e : ThreadExecutor F) (thread : GameThread) :
    Option (ThreadData F × ThreadExecutor F) :=
  let m := e.threadData thread
  if m.locked then none else some (m.data, e.setThreadData thread { m with locked := true })

/-- The data as they are when the guard goes out of scope. -/
def unlock (e : ThreadExecutor F) (thread : GameThread) (data : ThreadData F) :
    ThreadExecutor F :=
  e.setThreadData thread { data, locked := false }

def queueDelayTicks (e : ThreadExecutor F) (r : Request F) : Option (ThreadExecutor F) := do
  let (data, e) ← e.lock r.thread
  let targetTicks := data.tickCount + r.delayTicks.toUInt64
  let delayedFuncs := data.delayedFuncs ++ [{ targetTicks, func := r.func }]
  return (e.unlock r.thread { data with delayedFuncs }).record (.queued r targetTicks)

section

variable (queuedBy : F → List (Request F))

/-- `func()` -/
def run (thread : GameThread) (e : ThreadExecutor F) (func : F) : Option (ThreadExecutor F) :=
  (queuedBy func).foldlM queueDelayTicks (e.record (.ran thread func))

/-- The predicate of `Process`. -/
def isDone (thread : GameThread) (tickCount : UInt64) (delayedFunc : DelayedFunc F)
    (e : ThreadExecutor F) : Option (Bool × ThreadExecutor F) :=
  if tickCount ≥ delayedFunc.targetTicks then
    (e.run queuedBy thread delayedFunc.func).map fun e => (true, e)
  else
    some (false, e)

def process (e : ThreadExecutor F) (thread : GameThread) : Option (ThreadExecutor F) := do
  let (data, e) ← e.lock thread
  let (delayedFuncs, e) ← eraseIf (isDone queuedBy thread data.tickCount) data.delayedFuncs e
  let e := e.unlock thread { delayedFuncs, tickCount := data.tickCount + 1 }
  return e.record (.processed thread data.tickCount)

end

end ThreadExecutor

inductive Call (F : Type)
  | queueDelayTicks (request : Request F)
  | process (thread : GameThread)
  deriving DecidableEq, Repr

def ThreadExecutor.step {F : Type} (queuedBy : F → List (Request F)) (e : ThreadExecutor F) :
    Call F → Option (ThreadExecutor F)
  | .queueDelayTicks r => e.queueDelayTicks r
  | .process thread => e.process queuedBy thread

end Kyber.Core
