import Mathlib.Algebra.Group.Nat.Defs
import Kyber.Core.ThreadExecutor
import Kyber.Lib.Runs

/-!
# When deferred functions run

What has happened to the functions of a thread is put together from the events: which were
queued, each with the number of the `Process` that is next then, and which ran in each
`Process`. A function is to run in the first `Process` from then on whose tick count has reached
its target, `Queueing.firstDue`, and `OnTime` says that exactly these run, in the order in which
they were queued.

`Kept` says that the vector has those that are not due yet. While a `Process` is under way its
thread is locked and only the functions that run are new; the other thread gets what they queue.
A function that queues on its own thread waits for the lock that `Process` holds.
-/

namespace Kyber.Core

open Kyber.Lib

variable {F : Type}

/-! ## What has happened -/

/-- A function that was queued, and how many calls of `Process` were over then. -/
structure Queueing (F : Type) where
  before : Nat
  request : Request F
  targetTicks : UInt64

/-- A call of `Process` that is over. -/
structure Processed (F : Type) where
  tickCount : UInt64
  ran : List F

/-- What has happened on one thread. -/
structure Tally (F : Type) where
  queued : List (Queueing F) := []
  processed : List (Processed F) := []
  /-- what has run since the last `Process` was over -/
  running : List F := []

namespace Tally

/-- A function is queued. -/
def push (T : Tally F) (request : Request F) (targetTicks : UInt64) : Tally F :=
  { T with queued := T.queued ++ [{ before := T.processed.length, request, targetTicks }] }

/-- A `Process` is over. -/
def close (T : Tally F) (tickCount : UInt64) : Tally F :=
  { T with processed := T.processed ++ [{ tickCount, ran := T.running }], running := [] }

def note (thread : GameThread) (T : Tally F) : Event F → Tally F
  | .queued request targetTicks =>
      if request.thread = thread then T.push request targetTicks else T
  | .ran thread' func =>
      if thread' = thread then { T with running := T.running ++ [func] } else T
  | .processed thread' tickCount => if thread' = thread then T.close tickCount else T

end Tally

def tally (thread : GameThread) (events : List (Event F)) : Tally F :=
  events.foldl (Tally.note thread) {}

namespace Queueing

def delayedFunc (q : Queueing F) : DelayedFunc F where
  targetTicks := q.targetTicks
  func := q.request.func

/-- The number of the first `Process` after the queueing whose tick count has reached the
target. -/
def firstDue (q : Queueing F) (processed : List (Processed F)) : Option Nat :=
  ((processed.drop q.before).findIdx? fun p => q.targetTicks ≤ p.tickCount).map (q.before + ·)

end Queueing

namespace Tally

/-- What was queued and is due in the `Process` number `n`. -/
def dueIn (T : Tally F) (n : Nat) : List (Queueing F) :=
  T.queued.filter fun q => q.firstDue T.processed = some n

/-- What was queued and has not been due. -/
def pending (T : Tally F) : List (Queueing F) :=
  T.queued.filter fun q => (q.firstDue T.processed).isNone

end Tally

/-- The functions run on time: each that was queued in the one `Process` that it is due in, and
no others, in the order in which they were queued. -/
structure Tally.OnTime (T : Tally F) : Prop where
  ticks : ∀ (n : Nat) (p : Processed F), T.processed[n]? = some p → p.tickCount = UInt64.ofNat n
  targets : ∀ q ∈ T.queued,
    q.targetTicks = UInt64.ofNat q.before + q.request.delayTicks.toUInt64
  ran : ∀ (n : Nat) (p : Processed F), T.processed[n]? = some p →
    p.ran = (T.dueIn n).map (·.request.func)
  running : T.running = []

/-! ## The first `Process` that a function is due in -/

namespace Queueing

variable {q : Queueing F} {processed : List (Processed F)}

theorem firstDue_lt {n : Nat} (h : q.firstDue processed = some n) : n < processed.length := by
  obtain ⟨i, hi, rfl⟩ := Option.map_eq_some_iff.mp h
  have hlt := (List.findIdx?_eq_some_iff_getElem.mp hi).1
  rw [List.length_drop] at hlt
  omega

theorem firstDue_concat (h : q.before ≤ processed.length) (p : Processed F) :
    q.firstDue (processed ++ [p]) =
      (q.firstDue processed).or
        (if q.targetTicks ≤ p.tickCount then some processed.length else none) := by
  rw [firstDue, firstDue, List.drop_append_of_le_length h, List.findIdx?_append, Option.map_or,
    Option.map_map, List.length_drop, List.findIdx?_cons]
  congr 1
  by_cases hdue : q.targetTicks ≤ p.tickCount
  · rw [if_pos (decide_eq_true hdue), if_pos hdue]
    show some (q.before + (0 + (processed.length - q.before))) = some processed.length
    rw [Nat.zero_add, Nat.add_sub_cancel' h]
  · rw [if_neg (by rwa [decide_eq_true_eq]), if_neg hdue]
    rfl

theorem firstDue_of_length_le (h : processed.length ≤ q.before) : q.firstDue processed = none := by
  rw [firstDue, List.drop_of_length_le h]
  rfl

end Queueing

/-- Until the ticks have gone round, a function is due as many calls of `Process` after the next
one as it says. -/
theorem Tally.OnTime.firstDue_eq {T : Tally F} (h : T.OnTime) {q : Queueing F}
    (hq : q ∈ T.queued)
    (hlt : q.before + q.request.delayTicks.toNat < T.processed.length)
    (hround : T.processed.length ≤ 2 ^ 64) :
    q.firstDue T.processed = some (q.before + q.request.delayTicks.toNat) := by
  have hticks : ∀ n (hn : n < T.processed.length), T.processed[n].tickCount.toNat = n := by
    intro n hn
    rw [h.ticks n _ (List.getElem?_eq_getElem hn), UInt64.toNat_ofNat']
    exact Nat.mod_eq_of_lt (by omega)
  have htarget : q.targetTicks.toNat = q.before + q.request.delayTicks.toNat := by
    rw [h.targets q hq, UInt64.toNat_add, UInt64.toNat_ofNat', UInt32.toNat_toUInt64]
    omega
  refine Option.map_eq_some_iff.mpr ⟨q.request.delayTicks.toNat, ?_, rfl⟩
  refine List.findIdx?_eq_some_iff_getElem.mpr ⟨by rw [List.length_drop]; omega, ?_, ?_⟩
  · rw [decide_eq_true_eq, List.getElem_drop, UInt64.le_iff_toNat_le, htarget]
    exact Nat.le_of_eq (hticks _ _).symm
  · intro j hj
    rw [decide_eq_true_eq, List.getElem_drop, UInt64.le_iff_toNat_le, hticks, htarget]
    omega

/-! ## What is due and what is pending -/

namespace Tally

variable {T : Tally F}

theorem dueIn_push (request : Request F) (targetTicks : UInt64) (n : Nat) :
    (T.push request targetTicks).dueIn n = T.dueIn n := by
  have hnew : Queueing.firstDue { before := T.processed.length, request, targetTicks } T.processed
      = none := Queueing.firstDue_of_length_le (Nat.le_refl _)
  show (T.queued ++ [_]).filter _ = T.queued.filter _
  rw [List.filter_append, List.filter_cons_of_neg, List.filter_nil, List.append_nil]
  · rfl
  · rw [push, hnew]
    exact of_decide_eq_false rfl

theorem pending_push (request : Request F) (targetTicks : UInt64) :
    (T.push request targetTicks).pending =
      T.pending ++ [{ before := T.processed.length, request, targetTicks }] := by
  have hnew : Queueing.firstDue { before := T.processed.length, request, targetTicks } T.processed
      = none := Queueing.firstDue_of_length_le (Nat.le_refl _)
  show (T.queued ++ [_]).filter _ = T.queued.filter _ ++ _
  rw [List.filter_append, List.filter_cons_of_pos, List.filter_nil]
  · rfl
  · rw [push, hnew]
    rfl

section Close

variable (h : ∀ q ∈ T.queued, q.before ≤ T.processed.length)

include h

theorem dueIn_close_of_lt (tickCount : UInt64) {n : Nat} (hn : n < T.processed.length) :
    (T.close tickCount).dueIn n = T.dueIn n := by
  refine List.filter_congr fun q hq => ?_
  rw [close, Queueing.firstDue_concat (h q hq)]
  cases hfirst : q.firstDue T.processed with
  | some k => rfl
  | none =>
      rw [Option.none_or, decide_eq_decide]
      split
      next => simp only [Option.some.injEq, reduceCtorEq, iff_false]; omega
      next => rfl

/-- A `Process` is the first one for what was pending and is due now. -/
theorem dueIn_close_length (tickCount : UInt64) :
    (T.close tickCount).dueIn T.processed.length =
      T.pending.filter fun q => q.targetTicks ≤ tickCount := by
  rw [pending, List.filter_filter]
  refine List.filter_congr fun q hq => ?_
  rw [close, Queueing.firstDue_concat (h q hq)]
  cases hfirst : q.firstDue T.processed with
  | some k =>
      have hlt := Queueing.firstDue_lt hfirst
      rw [Option.some_or, Option.isNone_some, Bool.and_false, decide_eq_false_iff_not,
        Option.some.injEq]
      omega
  | none =>
      rw [Option.none_or, Option.isNone_none, Bool.and_true, decide_eq_decide]
      split
      next hdue => exact iff_of_true rfl hdue
      next hdue => exact iff_of_false (by simp) hdue

theorem pending_close (tickCount : UInt64) :
    (T.close tickCount).pending = T.pending.filter fun q => !decide (q.targetTicks ≤ tickCount) := by
  rw [pending, pending, List.filter_filter]
  refine List.filter_congr fun q hq => ?_
  rw [close, Queueing.firstDue_concat (h q hq)]
  cases hfirst : q.firstDue T.processed with
  | some k => rw [Option.some_or, Option.isNone_some, Bool.and_false]
  | none =>
      rw [Option.none_or, Option.isNone_none, Bool.and_true]
      split
      next hdue => rw [decide_eq_true hdue]; rfl
      next hdue => rw [decide_eq_false hdue]; rfl

end Close

end Tally

/-! ## One thread -/

/-- A thread's data are as what has happened says, up to functions that are just running. -/
structure Kept (data : ThreadData F) (T : Tally F) : Prop where
  onTime : Tally.OnTime { T with running := [] }
  tickCount : data.tickCount = UInt64.ofNat T.processed.length
  delayedFuncs : data.delayedFuncs = T.pending.map Queueing.delayedFunc
  before_le : ∀ q ∈ T.queued, q.before ≤ T.processed.length

theorem Kept.init : Kept ({} : ThreadData F) {} where
  onTime :=
    { ticks := fun n p h => by cases h
      targets := fun q h => absurd h List.not_mem_nil
      ran := fun n p h => by cases h
      running := rfl }
  tickCount := rfl
  delayedFuncs := rfl
  before_le q h := absurd h List.not_mem_nil

/-- A function is queued. -/
theorem Kept.queue {data : ThreadData F} {T : Tally F} (h : Kept data T) (r : Request F) :
    Kept
      { data with
        delayedFuncs := data.delayedFuncs ++
          [{ targetTicks := data.tickCount + r.delayTicks.toUInt64, func := r.func }] }
      (T.push r (data.tickCount + r.delayTicks.toUInt64)) := by
  refine ⟨⟨h.onTime.ticks, ?_, ?_, rfl⟩, h.tickCount, ?_, ?_⟩
  · intro q hq
    rcases List.mem_append.mp hq with hold | hnew
    · exact h.onTime.targets q hold
    · obtain rfl := List.mem_singleton.mp hnew
      show data.tickCount + _ = UInt64.ofNat T.processed.length + _
      rw [h.tickCount]
  · intro n p hp
    exact (h.onTime.ran n p hp).trans (congrArg _ (Tally.dueIn_push _ _ n).symm)
  · show data.delayedFuncs ++ [_] = _
    rw [Tally.pending_push, List.map_append, h.delayedFuncs]
    rfl
  · intro q hq
    rcases List.mem_append.mp hq with hold | hnew
    · exact h.before_le q hold
    · obtain rfl := List.mem_singleton.mp hnew
      exact Nat.le_refl _

/-- What a `Process` finds to be due. -/
def ThreadData.isDue (data : ThreadData F) (d : DelayedFunc F) : Bool :=
  data.tickCount ≥ d.targetTicks

/-- A `Process` runs what is due. -/
theorem Kept.process {data : ThreadData F} {T : Tally F} (h : Kept data T)
    (hran : T.running = (data.delayedFuncs.filter data.isDue).map (·.func)) :
    Kept
      { delayedFuncs := data.delayedFuncs.filter fun d => !data.isDue d
        tickCount := data.tickCount + 1 }
      (T.close data.tickCount) := by
  have hlength : (T.close data.tickCount).processed.length = T.processed.length + 1 :=
    List.length_append
  have hcase : ∀ (n : Nat) (p : Processed F), (T.close data.tickCount).processed[n]? = some p →
      T.processed[n]? = some p ∨
        n = T.processed.length ∧ p = { tickCount := data.tickCount, ran := T.running } := by
    intro n p hp
    rw [Tally.close] at hp
    rcases Nat.lt_trichotomy n T.processed.length with hlt | rfl | hgt
    · rw [List.getElem?_append_left hlt] at hp
      exact .inl hp
    · rw [List.getElem?_concat_length] at hp
      exact .inr ⟨rfl, (Option.some.inj hp).symm⟩
    · rw [List.getElem?_eq_none (by rw [List.length_append, List.length_singleton]; omega)] at hp
      cases hp
  refine ⟨⟨?_, h.onTime.targets, ?_, rfl⟩, ?_, ?_, ?_⟩
  · intro n p hp
    rcases hcase n p hp with hold | ⟨rfl, rfl⟩
    · exact h.onTime.ticks n p hold
    · exact h.tickCount
  · intro n p hp
    rcases hcase n p hp with hold | ⟨rfl, rfl⟩
    · have hlt := (List.getElem?_eq_some_iff.mp hold).1
      exact (h.onTime.ran n p hold).trans
        (congrArg _ (Tally.dueIn_close_of_lt h.before_le _ hlt).symm)
    · refine Eq.trans ?_ (congrArg _ (Tally.dueIn_close_length h.before_le _).symm)
      show T.running = _
      rw [hran, h.delayedFuncs, List.filter_map, List.map_map]
      rfl
  · show data.tickCount + 1 = _
    rw [hlength, h.tickCount, UInt64.ofNat_add]
    rfl
  · show data.delayedFuncs.filter _ = _
    rw [Tally.pending_close h.before_le, h.delayedFuncs, List.filter_map]
    rfl
  · intro q hq
    have hle := h.before_le q hq
    omega

/-! ## Both threads -/

theorem tally_concat (thread : GameThread) (events : List (Event F)) (event : Event F) :
    tally thread (events ++ [event]) = (tally thread events).note thread event :=
  List.foldl_append

namespace ThreadExecutor

/-- No `Process` of the thread is under way. -/
structure Idle (e : ThreadExecutor F) (thread : GameThread) : Prop where
  free : (e.threadData thread).locked = false
  kept : Kept (e.threadData thread).data (tally thread e.events)
  running : (tally thread e.events).running = []

/-- A `Process` of the thread is under way, and has run `ran`. -/
structure Busy (T : Tally F) (thread : GameThread) (ran : List F) (e : ThreadExecutor F) :
    Prop where
  locked : (e.threadData thread).locked = true
  tally_eq : tally thread e.events = { T with running := ran }
  others : ∀ thread', thread' ≠ thread → e.Idle thread'

variable {e e' : ThreadExecutor F}

theorem queueDelayTicks_isSome_iff (e : ThreadExecutor F) (r : Request F) :
    (e.queueDelayTicks r).isSome ↔ (e.threadData r.thread).locked = false := by
  rw [queueDelayTicks, lock]
  cases (e.threadData r.thread).locked with
  | true => exact iff_of_false Bool.false_ne_true (by decide)
  | false => exact iff_of_true rfl rfl

theorem queueDelayTicks_threadData_of_ne {r : Request F} (h : e.queueDelayTicks r = some e')
    {thread : GameThread} (hne : thread ≠ r.thread) :
    e'.threadData thread = e.threadData thread ∧
      tally thread e'.events = tally thread e.events := by
  rw [queueDelayTicks, lock] at h
  dsimp only at h
  split at h
  next => cases h
  next =>
    cases h
    refine ⟨?_, ?_⟩
    · show Function.update (Function.update e.threadData r.thread _) r.thread _ thread = _
      rw [Function.update_of_ne hne, Function.update_of_ne hne]
    · show tally thread (e.events ++ [_]) = _
      rw [tally_concat, Tally.note, if_neg hne.symm]

theorem Idle.queue {r : Request F} (h : e.Idle r.thread) (hqueue : e.queueDelayTicks r = some e') :
    e'.Idle r.thread := by
  rw [queueDelayTicks, lock] at hqueue
  dsimp only at hqueue
  rw [if_neg (by rw [h.free]; exact Bool.false_ne_true)] at hqueue
  cases hqueue
  have hdata : ∀ (m m' : Mutex (ThreadData F)),
      Function.update (Function.update e.threadData r.thread m) r.thread m' r.thread = m' :=
    fun _ _ => Function.update_self ..
  have htally : ∀ targetTicks, tally r.thread (e.events ++ [.queued r targetTicks])
      = (tally r.thread e.events).push r targetTicks := by
    intro targetTicks
    rw [tally_concat, Tally.note, if_pos rfl]
  refine ⟨?_, ?_, ?_⟩
  · exact congrArg Mutex.locked (hdata _ _)
  · show Kept (Mutex.data (Function.update (Function.update e.threadData r.thread _) r.thread _
      r.thread)) (tally r.thread (e.events ++ [_]))
    rw [hdata, htally]
    exact h.kept.queue r
  · show (tally r.thread (e.events ++ [_])).running = []
    rw [htally]
    exact h.running

theorem Idle.queue_other {thread : GameThread} (h : e.Idle thread) {r : Request F}
    (hqueue : e.queueDelayTicks r = some e') (hne : thread ≠ r.thread) : e'.Idle thread := by
  obtain ⟨hdata, htally⟩ := queueDelayTicks_threadData_of_ne hqueue hne
  refine ⟨?_, ?_, ?_⟩
  · rw [hdata]
    exact h.free
  · rw [hdata, htally]
    exact h.kept
  · rw [htally]
    exact h.running

theorem Idle.queue_any {thread : GameThread} (h : e.Idle thread) {r : Request F}
    (hqueue : e.queueDelayTicks r = some e') : e'.Idle thread := by
  by_cases heq : thread = r.thread
  · subst heq
    exact h.queue hqueue
  · exact h.queue_other hqueue heq

section Busy

variable {T : Tally F} {thread : GameThread} {ran : List F}

theorem Busy.queue (h : Busy T thread ran e) {r : Request F}
    (hqueue : e.queueDelayTicks r = some e') : Busy T thread ran e' := by
  have hne : thread ≠ r.thread := by
    intro heq
    have hfree := (queueDelayTicks_isSome_iff e r).mp (by rw [hqueue]; rfl)
    rw [← heq, h.locked] at hfree
    cases hfree
  obtain ⟨hdata, htally⟩ := queueDelayTicks_threadData_of_ne hqueue hne
  refine ⟨?_, ?_, fun thread' hother => (h.others thread' hother).queue_any hqueue⟩
  · rw [hdata]
    exact h.locked
  · rw [htally]
    exact h.tally_eq

/-- The lock that `Process` holds is the only one that is held. -/
theorem Busy.queueDelayTicks_isSome_iff (h : Busy T thread ran e) (r : Request F) :
    (e.queueDelayTicks r).isSome ↔ r.thread ≠ thread := by
  rw [ThreadExecutor.queueDelayTicks_isSome_iff]
  constructor
  · intro hfree heq
    rw [heq, h.locked] at hfree
    cases hfree
  · intro hne
    exact (h.others r.thread hne).free

theorem Busy.record (h : Busy T thread ran e) (func : F) :
    Busy T thread (ran ++ [func]) (e.record (.ran thread func)) := by
  refine ⟨h.locked, ?_, ?_⟩
  · show tally thread (e.events ++ [_]) = _
    rw [tally_concat, h.tally_eq, Tally.note, if_pos rfl]
  · intro thread' hne
    have hother := h.others thread' hne
    have htally : tally thread' (e.events ++ [.ran thread func]) = tally thread' e.events := by
      rw [tally_concat, Tally.note, if_neg hne.symm]
    refine ⟨hother.free, ?_, ?_⟩
    · show Kept _ (tally thread' (e.events ++ [_]))
      rw [htally]
      exact hother.kept
    · show (tally thread' (e.events ++ [_])).running = []
      rw [htally]
      exact hother.running

variable {queuedBy : F → List (Request F)}

theorem Busy.run (h : Busy T thread ran e) {func : F}
    (hrun : e.run queuedBy thread func = some e') : Busy T thread (ran ++ [func]) e' := by
  rw [ThreadExecutor.run, ← exec_eq_foldlM] at hrun
  exact exec_rule (Busy T thread (ran ++ [func])) (fun h hqueue => h.queue hqueue)
    (h.record func) hrun

theorem Busy.run_isSome_iff (h : Busy T thread ran e) (func : F) :
    (e.run queuedBy thread func).isSome ↔ ∀ r ∈ queuedBy func, r.thread ≠ thread := by
  rw [ThreadExecutor.run, ← exec_eq_foldlM]
  exact exec_isSome_iff_forall_mem (Busy T thread (ran ++ [func]))
    (fun r : Request F => r.thread ≠ thread) (fun h hqueue => h.queue hqueue)
    (fun h => h.queueDelayTicks_isSome_iff _) (h.record func) _

/-- `delayedFunc.func()` -/
def runDelayed (queuedBy : F → List (Request F)) (thread : GameThread) (e : ThreadExecutor F)
    (d : DelayedFunc F) : Option (ThreadExecutor F) :=
  e.run queuedBy thread d.func

/-- The functions of a `Process`, one after the other. -/
theorem Busy.runAll (h : Busy T thread ran e) {ds : List (DelayedFunc F)}
    (hrun : ds.foldlM (runDelayed queuedBy thread) e = some e') :
    Busy T thread (ran ++ ds.map (·.func)) e' := by
  induction ds generalizing e ran with
  | nil =>
      cases hrun
      rw [List.map_nil, List.append_nil]
      exact h
  | cons d ds ih =>
      obtain ⟨e₁, hfirst, hrest⟩ := Option.bind_eq_some_iff.mp hrun
      rw [List.map_cons, List.append_cons]
      exact ih (h.run hfirst) hrest

theorem Busy.runAll_isSome_iff (h : Busy T thread ran e) (ds : List (DelayedFunc F)) :
    (ds.foldlM (runDelayed queuedBy thread) e).isSome ↔
      ∀ d ∈ ds, ∀ r ∈ queuedBy d.func, r.thread ≠ thread := by
  rw [← exec_eq_foldlM]
  refine exec_isSome_iff_forall_mem (fun e => ∃ ran, Busy T thread ran e) _ ?_ ?_ ⟨ran, h⟩ ds
  · intro e d e' hbusy hrun
    obtain ⟨ran, hbusy⟩ := hbusy
    exact ⟨_, hbusy.run hrun⟩
  · intro e d hbusy
    obtain ⟨ran, hbusy⟩ := hbusy
    exact hbusy.run_isSome_iff d.func

end Busy

variable {queuedBy : F → List (Request F)} {thread : GameThread}

/-- A `Process` runs what is due, keeps the rest and counts the tick. -/
theorem Idle.process_eq (h : e.Idle thread) :
    let data := (e.threadData thread).data
    e.process queuedBy thread =
      ((data.delayedFuncs.filter data.isDue).foldlM (runDelayed queuedBy thread)
        (e.setThreadData thread { locked := true, data })).map fun e =>
          (e.unlock thread
            { delayedFuncs := data.delayedFuncs.filter fun d => !data.isDue d
              tickCount := data.tickCount + 1 }).record (.processed thread data.tickCount) := by
  intro data
  have htest : ∀ (d : DelayedFunc F) (e : ThreadExecutor F),
      isDone queuedBy thread data.tickCount d e =
        if data.isDue d then (runDelayed queuedBy thread e d).map fun e => (true, e)
        else some (false, e) :=
    fun d e => if_congr decide_eq_true_iff.symm rfl rfl
  rw [process, lock]
  dsimp only
  rw [if_neg (by rw [h.free]; exact Bool.false_ne_true)]
  show (eraseIf (isDone queuedBy thread data.tickCount) data.delayedFuncs
    (e.setThreadData thread { locked := true, data })).bind _ = _
  rw [eraseIf_eq_sift, sift_eq_of_test htest, Option.bind_map, Option.map_eq_bind]
  rfl

theorem Idle.busy (h : ∀ thread', e.Idle thread') :
    Busy (tally thread e.events) thread []
      (e.setThreadData thread { locked := true, data := (e.threadData thread).data }) := by
  refine ⟨?_, ?_, ?_⟩
  · show (Function.update e.threadData thread _ thread).locked = true
    rw [Function.update_self]
  · show tally thread e.events = { tally thread e.events with running := [] }
    rw [← (h thread).running]
  · intro thread' hne
    have hdata : (e.setThreadData thread
        { locked := true, data := (e.threadData thread).data }).threadData thread'
          = e.threadData thread' := Function.update_of_ne hne ..
    refine ⟨?_, ?_, (h thread').running⟩
    · rw [hdata]
      exact (h thread').free
    · rw [hdata]
      exact (h thread').kept

/-- What a call needs to return: no function that is due queues on the thread that is
processed. -/
def Returns (queuedBy : F → List (Request F)) (e : ThreadExecutor F) : Call F → Prop
  | .queueDelayTicks _ => True
  | .process thread => ∀ d ∈ (e.threadData thread).data.delayedFuncs,
      (e.threadData thread).data.tickCount ≥ d.targetTicks →
        ∀ r ∈ queuedBy d.func, r.thread ≠ thread

theorem step_isSome_iff (h : ∀ thread, e.Idle thread) (call : Call F) :
    (e.step queuedBy call).isSome ↔ e.Returns queuedBy call := by
  cases call with
  | queueDelayTicks r =>
      refine iff_of_true ?_ trivial
      exact (queueDelayTicks_isSome_iff e r).mpr (h r.thread).free
  | process thread =>
      show (e.process queuedBy thread).isSome ↔ _
      rw [(h thread).process_eq, Option.isSome_map, (Idle.busy h).runAll_isSome_iff]
      constructor
      · intro hall d hd hdue
        exact hall d (List.mem_filter.mpr ⟨hd, decide_eq_true hdue⟩)
      · intro hall d hd
        obtain ⟨hmem, hdue⟩ := List.mem_filter.mp hd
        exact hall d hmem (of_decide_eq_true hdue)

theorem step_idle (h : ∀ thread, e.Idle thread) {call : Call F}
    (hstep : e.step queuedBy call = some e') (thread : GameThread) : e'.Idle thread := by
  cases call with
  | queueDelayTicks r => exact (h thread).queue_any hstep
  | process thread₀ =>
      have hprocess : e.process queuedBy thread₀ = some e' := hstep
      rw [(h thread₀).process_eq] at hprocess
      obtain ⟨e₁, hrun, rfl⟩ := Option.map_eq_some_iff.mp hprocess
      have hbusy := (Idle.busy h).runAll hrun
      rw [List.nil_append] at hbusy
      have hkept := (h thread₀).kept
      generalize hdata : (e.threadData thread₀).data = data at *
      by_cases heq : thread = thread₀
      · subst heq
        have htally : tally thread (e₁.events ++ [.processed thread data.tickCount])
            = Tally.close
                { tally thread e.events with
                  running := (data.delayedFuncs.filter data.isDue).map (·.func) }
                data.tickCount := by
          rw [tally_concat, hbusy.tally_eq, Tally.note, if_pos rfl]
        refine ⟨?_, ?_, ?_⟩
        · show (Function.update e₁.threadData thread _ thread).locked = false
          rw [Function.update_self]
        · show Kept (Function.update e₁.threadData thread _ thread).data
            (tally thread (e₁.events ++ [_]))
          rw [Function.update_self, htally]
          exact Kept.process
            ⟨hkept.onTime, hkept.tickCount, hkept.delayedFuncs, hkept.before_le⟩ rfl
        · show (tally thread (e₁.events ++ [_])).running = []
          rw [htally]
          rfl
      · have hother := hbusy.others thread heq
        have htally : tally thread (e₁.events ++ [.processed thread₀ data.tickCount])
            = tally thread e₁.events := by
          rw [tally_concat, Tally.note, if_neg (Ne.symm heq)]
        refine ⟨?_, ?_, ?_⟩
        · show (Function.update e₁.threadData thread₀ _ thread).locked = false
          rw [Function.update_of_ne heq]
          exact hother.free
        · show Kept (Function.update e₁.threadData thread₀ _ thread).data
            (tally thread (e₁.events ++ [_]))
          rw [Function.update_of_ne heq, htally]
          exact hother.kept
        · show (tally thread (e₁.events ++ [_])).running = []
          rw [htally]
          exact hother.running

end ThreadExecutor

/-- In every run of calls, all calls return and the functions of both threads run once and on
time, exactly if none that is due in a `Process` queues on the thread that is processed. -/
theorem deferredFuncs_iff (queuedBy : F → List (Request F)) (calls : List (Call F)) :
    (∃ e, exec (ThreadExecutor.step queuedBy) {} calls = some e ∧
        ∀ thread, (tally thread e.events).OnTime) ↔
      ∀ before call after e, calls = before ++ call :: after →
        exec (ThreadExecutor.step queuedBy) {} before = some e → e.Returns queuedBy call := by
  have hinit : ∀ thread, ThreadExecutor.Idle ({} : ThreadExecutor F) thread :=
    fun _ => ⟨rfl, Kept.init, rfl⟩
  rw [← exec_isSome_iff (fun e => ∀ thread, ThreadExecutor.Idle e thread)
    (ThreadExecutor.Returns queuedBy) (fun h hstep => ThreadExecutor.step_idle h hstep)
    (fun h => ThreadExecutor.step_isSome_iff h _) hinit calls, Option.isSome_iff_exists]
  constructor
  · intro h
    obtain ⟨e, hrun, -⟩ := h
    exact ⟨e, hrun⟩
  · intro h
    obtain ⟨e, hrun⟩ := h
    refine ⟨e, hrun, fun thread => ?_⟩
    have hidle := exec_rule (fun e => ∀ thread, ThreadExecutor.Idle e thread)
      (fun h hstep => ThreadExecutor.step_idle h hstep) hinit hrun thread
    have honTime := hidle.kept.onTime
    rw [← hidle.running] at honTime
    exact honTime

/-- A function that queues another one on its own thread: the `Process` that runs it waits for
the lock that it holds. -/
theorem requeueing_blocks :
    exec (ThreadExecutor.step fun func : Bool =>
        if func then [{ thread := .client, delayTicks := 0, func := false }] else []) {}
      [.queueDelayTicks { thread := .client, delayTicks := 0, func := true }, .process .client]
    = none := by
  rfl

end Kyber.Core
