import Mathlib.Data.List.Basic

/-!
# Refreshing the mods (`mod_service.dart`)

`refresh` scans the directory of the mods, one scan at a time. A call during a scan waits
for it and asks for another one, and calls that find one asked for share it. The functions
are asynchronous: a call runs up to the first `await` whose future is not completed, and
what comes behind it is a task. When a completer is completed, the tasks that wait for it
become ready in the order in which they have begun to wait. Ready tasks run before the next
event, and a scan ends with an event; calls come from events and from tasks of others, so
they can come at any time. A scan that fails may do so at once.

`setBasePath` calls `refresh` without waiting for it, and is called by it when the
directory is missing; the completer has just been replaced then. What a scan finds is left
out. The service is always made with its mods, so that the first completer is completed.

Scans are numbered. A call keeps the number of scans that had begun before it, so that the
scans that begin at the call or after it are those with at least this number.
-/

namespace Kyber.Launcher.Refresh

/-- A completer. One that replaces another has the next number. -/
structure Completer where
  id : Nat := 0
  isCompleted : Bool := false
  deriving DecidableEq, Repr

def Completer.renew (c : Completer) : Completer := { id := c.id + 1 }

inductive Future
  | refreshCompleter (id : Nat)
  | enqueueCompleter (id : Nat)
  deriving DecidableEq, Repr

/-- A call of `refresh` by others, or by `setBasePath`. -/
structure Caller where
  /-- the number of scans that had begun -/
  called : Nat
  deriving DecidableEq, Repr

inductive Task
  /-- behind `await refreshCompleter.future` where `enqueue` is not set -/
  | resume (caller : Caller)
  /-- behind `await refreshCompleter.future` where `enqueue` is set -/
  | proceed (caller : Caller)
  /-- a call that has been given the future of `_enqueueCompleter` returns -/
  | given (caller : Caller)
  /-- the callback of `then`, where the queued call has been given this future -/
  | joined (caller : Caller)
  /-- the callback of `then`, where the queued call has scanned -/
  | scanned (caller : Caller)
  deriving DecidableEq, Repr

/-- The task belongs to a call that has been given the future of `_enqueueCompleter`. -/
def Task.isGiven : Task → Bool
  | .given _ | .joined _ => true
  | _ => false

structure Scan where
  number : Nat
  caller : Caller
  /-- the call is a queued one, with a callback -/
  enqueue : Bool
  deriving DecidableEq, Repr

structure ModService where
  refreshCompleter : Completer := { isCompleted := true }
  enqueueCompleter : Completer := {}
  enqueuedRefresh : Bool := false
  scans : List Scan := []
  waiting : List (Future × Task) := []
  ready : List Task := []
  /-- the number of scans that have begun -/
  begun : Nat := 0
  /-- the scans that have ended well -/
  finished : List Nat := []
  /-- the calls whose future has been completed, and those whose future has an error -/
  returned : List Caller := []
  thrown : List Caller := []
  deriving DecidableEq, Repr

namespace ModService

variable (s : ModService)

/-! ## Futures -/

def awaitRefresh (task : Task) : ModService :=
  if s.refreshCompleter.isCompleted then { s with ready := s.ready ++ [task] }
  else { s with waiting := s.waiting ++ [(.refreshCompleter s.refreshCompleter.id, task)] }

def awaitEnqueue (task : Task) : ModService :=
  if s.enqueueCompleter.isCompleted then { s with ready := s.ready ++ [task] }
  else { s with waiting := s.waiting ++ [(.enqueueCompleter s.enqueueCompleter.id, task)] }

/-- The tasks that wait for a future become ready. -/
def settle (future : Future) : ModService :=
  { s with
    ready := s.ready ++ (s.waiting.filter (·.1 == future)).map (·.2)
    waiting := s.waiting.filter (·.1 != future) }

def completeRefresh : ModService :=
  if s.refreshCompleter.isCompleted then s
  else
    { s with refreshCompleter := { s.refreshCompleter with isCompleted := true } }.settle
      (.refreshCompleter s.refreshCompleter.id)

/-- The callback of `then`. -/
def callback : ModService :=
  if s.enqueueCompleter.isCompleted then s
  else
    { s with
      enqueueCompleter := { s.enqueueCompleter with isCompleted := true }
      enqueuedRefresh := false }.settle (.enqueueCompleter s.enqueueCompleter.id)

def returns (caller : Caller) : ModService := { s with returned := s.returned ++ [caller] }

/-! ## `refresh` -/

/-- `refresh` while `refreshCompleter` is not completed. The second check of
`_enqueuedRefresh` finds what the first one has found. -/
def busy (caller : Caller) (enqueue : Bool) : ModService :=
  if s.enqueuedRefresh then s.awaitEnqueue (if enqueue then .joined caller else .given caller)
  else if !enqueue then s.awaitRefresh (.resume caller)
  else s.awaitRefresh (.proceed caller)

/-- `refresh` up to the end of the scan; `reset` if the directory is missing, and
`setBasePath` calls `refresh`. -/
def beginScan (caller : Caller) (enqueue reset : Bool) : ModService :=
  let s :=
    { s with
      refreshCompleter := s.refreshCompleter.renew
      scans := s.scans ++ [{ number := s.begun, caller, enqueue }]
      begun := s.begun + 1 }
  if reset then s.busy { called := s.begun } false else s

def refresh (caller : Caller) (enqueue reset : Bool) : ModService :=
  if s.refreshCompleter.isCompleted then s.beginScan caller enqueue reset
  else s.busy caller enqueue

/-- The end of `refresh` behind a scan. -/
def endScan (i : Nat) (scan : Scan) : ModService :=
  let s := { s with scans := s.scans.eraseIdx i, finished := s.finished ++ [scan.number] }
  let s := s.completeRefresh
  if scan.enqueue then { s with ready := s.ready ++ [.scanned scan.caller] }
  else s.returns scan.caller

/-- A scan that fails: nothing behind it is done. -/
def failScan (i : Nat) (scan : Scan) : ModService :=
  { s with scans := s.scans.eraseIdx i, thrown := s.thrown ++ [scan.caller] }

def perform (reset : Bool) : Task → ModService
  | .resume caller =>
      { s with enqueueCompleter := s.enqueueCompleter.renew, enqueuedRefresh := true }.refresh
        caller true reset
  | .proceed caller => s.beginScan caller true reset
  | .given caller => s.returns caller
  | .joined caller | .scanned caller => s.callback.returns caller

end ModService

inductive Action
  /-- a call of `refresh`; `reset` if the directory is missing -/
  | call (reset : Bool)
  /-- the first ready task runs -/
  | task (reset : Bool)
  | scanned (i : Nat)
  | scanFailed (i : Nat)
  deriving DecidableEq, Repr

def step (s : ModService) : Action → Option ModService
  | .call reset => some (s.refresh { called := s.begun } false reset)
  | .task reset =>
      match s.ready with
      | [] => none
      | task :: tasks => some ({ s with ready := tasks }.perform reset task)
  | .scanned i => if s.ready = [] then s.scans[i]?.map (s.endScan i) else none
  | .scanFailed i => s.scans[i]?.map (s.failScan i)

end Kyber.Launcher.Refresh
