import Mathlib.Data.List.Basic

/-!
# The deferred handler queue (`ModLoader.cpp`)

An EBX partition with a handler is deferred when it is read. Its handlers run
later, in two stages: when the engine reports its partition as newly loaded
(`ReferencesResolved`), and in the next update after that (`PostLoad`), which takes
the entry off the queue.

A handler whose `Modify` answers false makes the engine update, and that update
calls the same hooks again while the outer loop is still inside `RunHandler`. So
the state has a stack of frames, one for each loop that has begun, and all of
them but the top one are inside `RunHandler`. A hook may be entered when the stack
is empty or when the top frame is inside `RunHandler`.

A frame's iterator is a pointer into the vector's storage. It is modelled as an
index and the number of the allocation it points into: erasing shifts what is
behind an index, a `push_back` that exceeds the capacity moves the vector to a
new allocation, and using an iterator into an old one, or past the end, is a
fault. (`erase(it)` leaves `it` at the element after the erased one, which the
update loop relies on.)

What a handler does to its container is left out, and so is which handlers there
are: a call of `RunHandler` is one run of the stage's handlers.
-/

namespace Kyber.ModLoader

/-- `CustomAssetHandlerLoadStage`. -/
inductive LoadStage
  | referencesResolved
  | postLoad
  deriving DecidableEq, Repr

/-- `ContainerCreationInfo`, without the fields that only the handlers read.
`id` is history: the entries are numbered in the order they are pushed. -/
structure ContainerCreationInfo where
  runtimeDatabaseDomain : Nat
  container : Nat
  referencesResolved : Bool
  id : Nat
  deriving DecidableEq, Repr

/-- The loop a frame runs. -/
inductive Loop
  /-- `FetchNewlyLoadedPartitions(inst, partitions)`, the partitions given by
  their primary instances -/
  | fetch (inst : Nat) (partitions : List Nat)
  /-- `UpdateResources` -/
  | update
  deriving DecidableEq, Repr

/-- The stage whose handlers the loop runs. -/
def Loop.stage : Loop → LoadStage
  | .fetch _ _ => .referencesResolved
  | .update => .postLoad

/-- The loop runs the handlers of this entry. -/
def Loop.selects : Loop → ContainerCreationInfo → Bool
  | .fetch inst partitions, info =>
      partitions.contains info.container && !info.referencesResolved &&
        inst == info.runtimeDatabaseDomain
  | .update, info => info.referencesResolved

/-- A loop that has begun: its iterator, and the entry it has called
`RunHandler` on while it is inside of that call. -/
structure Frame where
  loop : Loop
  it : Nat
  allocation : Nat
  running : Option Nat
  deriving DecidableEq, Repr

/-- What has happened, by entry. -/
inductive LogItem
  | started (stage : LoadStage) (id : Nat)
  | finished (stage : LoadStage) (id : Nat)
  /-- `info.referencesResolved = true` on the entry -/
  | flagged (id : Nat)
  /-- the entry is erased -/
  | left (id : Nat)
  deriving DecidableEq, Repr

/-- `log` is history, newest first. -/
structure DeferredQueue where
  queue : List ContainerCreationInfo := []
  capacity : Nat := 0
  allocation : Nat := 0
  isRunningDeferredHandlers : Bool := false
  frames : List Frame := []
  nextId : Nat := 0
  faulted : Bool := false
  log : List LogItem := []
  deriving DecidableEq, Repr

inductive DeferredEvent
  /-- `ReadEbxPartitionFromStream`; `handled` says that the name has a handler
  resource whose handler is registered -/
  | readEbx (handled : Bool) (inst container : Nat)
  | fetch (inst : Nat) (partitions : List Nat)
  | update
  /-- the loop on top makes its next round -/
  | round
  /-- `RunHandler` returns to the loop on top -/
  | handlerDone
  deriving DecidableEq, Repr

namespace DeferredQueue

/-- A hook can be entered: no loop is under way, or the top one is inside
`RunHandler`. -/
def enterable (s : DeferredQueue) : Bool :=
  match s.frames with
  | [] => true
  | frame :: _ => frame.running.isSome

def fault (s : DeferredQueue) : DeferredQueue := { s with faulted := true }

/-- `push_back`. The capacity grows by half, as in the vector of the Microsoft
library. -/
def pushBack (s : DeferredQueue) (info : ContainerCreationInfo) : DeferredQueue :=
  if s.queue.length < s.capacity then
    { s with queue := s.queue ++ [info] }
  else
    { s with queue := s.queue ++ [info]
             capacity := max (s.capacity + s.capacity / 2) (s.queue.length + 1)
             allocation := s.allocation + 1 }

def readEbx (s : DeferredQueue) (handled : Bool) (inst container : Nat) : DeferredQueue :=
  if handled then
    { s with nextId := s.nextId + 1 }.pushBack
      { runtimeDatabaseDomain := inst, container, referencesResolved := false, id := s.nextId }
  else
    s

/-- The loop begins. -/
def begin (s : DeferredQueue) (loop : Loop) : DeferredQueue :=
  { s with frames :=
      { loop, it := 0, allocation := s.allocation, running := none } :: s.frames }

def update (s : DeferredQueue) : DeferredQueue :=
  if s.isRunningDeferredHandlers then
    s
  else
    { s with isRunningDeferredHandlers := true }.begin .update

/-- One round of the loop of `frame`, which is on top of `below`. -/
def round (s : DeferredQueue) (frame : Frame) (below : List Frame) : DeferredQueue :=
  if frame.allocation ≠ s.allocation then
    s.fault
  else
    match s.queue[frame.it]? with
    | some info =>
        if frame.loop.selects info then
          { s with frames := { frame with running := some info.id } :: below
                   log := .started frame.loop.stage info.id :: s.log }
        else
          { s with frames := { frame with it := frame.it + 1 } :: below }
    | none =>
        if frame.it = s.queue.length then
          { s with
            frames := below
            isRunningDeferredHandlers :=
              if frame.loop = .update then false else s.isRunningDeferredHandlers }
        else
          s.fault

/-- `RunHandler` for the entry `id` returns to the loop of `frame`. -/
def handlerDone (s : DeferredQueue) (frame : Frame) (id : Nat) (below : List Frame) :
    DeferredQueue :=
  let s := { s with log := .finished frame.loop.stage id :: s.log }
  if frame.allocation ≠ s.allocation then
    s.fault
  else
    match s.queue[frame.it]? with
    | none => s.fault
    | some info =>
        let frames := { frame with running := none } :: below
        match frame.loop with
        | .fetch _ _ =>
            { s with queue := s.queue.set frame.it { info with referencesResolved := true }
                     frames
                     log := .flagged info.id :: s.log }
        | .update =>
            { s with queue := s.queue.eraseIdx frame.it
                     frames
                     log := .left info.id :: s.log }

/-- After a fault nothing is said. -/
def step (s : DeferredQueue) (e : DeferredEvent) : Option DeferredQueue :=
  if s.faulted then
    none
  else
    match e, s.frames with
    | .readEbx handled inst container, _ =>
        if s.enterable then some (s.readEbx handled inst container) else none
    | .fetch inst partitions, _ =>
        if s.enterable then some (s.begin (.fetch inst partitions)) else none
    | .update, _ => if s.enterable then some s.update else none
    | .round, frame :: below =>
        match frame.running with
        | none => some (s.round frame below)
        | some _ => none
    | .handlerDone, frame :: below =>
        match frame.running with
        | none => none
        | some id => some (s.handlerDone frame id below)
    | .round, [] | .handlerDone, [] => none

end DeferredQueue

end Kyber.ModLoader
