import Kyber.Launcher.ModService
import Kyber.Lib.Runs

/-!
# Waiting for the mods

Who asks for a refresh should get it: as long as the completer is not completed a scan is
running, a call returns only after a scan that has begun no earlier than the call, and
nobody waits for a completer that has been replaced.

The protocol goes well through four phases. Nothing is queued, and at most two calls wait
for the scan that runs. When it is over they go on: the first one scans, and the second
one is given the future of the completer. While this scan runs the flag is set. Behind it
a callback completes the completer and takes the flag back. A third call that waits makes
the second one wait for a completer that is replaced, a call that finds the flag set is
answered by a scan that had begun before, and a scan that fails leaves a completer that
nobody completes.
-/

namespace Kyber.Launcher.Refresh

open Kyber.Lib

/-! ## What is promised -/

/-- A scan has ended that had not begun before the call. -/
def Served (finished : List Nat) (caller : Caller) : Prop := ∃ n ∈ finished, caller.called ≤ n

structure Refreshes (s : ModService) : Prop where
  /-- as long as the completer is not completed, a scan is running -/
  scanning : s.refreshCompleter.isCompleted = false → s.scans ≠ []
  /-- a call that has returned has been served -/
  served : ∀ caller ∈ s.returned, Served s.finished caller
  /-- a call that has been given the future of `_enqueueCompleter` waits for the current one -/
  current : ∀ w ∈ s.waiting, w.2.isGiven = true → w.1 = .enqueueCompleter s.enqueueCompleter.id

/-! ## When it is kept -/

def Task.isResume : Task → Bool
  | .resume _ => true
  | _ => false

/-- No scan fails. A call comes when no scan is running and nobody goes on after one, and the
directory is there as long as a refresh is queued; or it comes during a scan that was not queued,
as the first or the second that waits for it. -/
def KeepsProtocol (s : ModService) : Action → Prop
  | .call reset =>
      (s.refreshCompleter.isCompleted = true ∧ s.ready.all (!·.isResume) = true ∧
        (reset = true → s.enqueuedRefresh = false)) ∨
      (s.refreshCompleter.isCompleted = false ∧ s.enqueuedRefresh = false ∧ s.waiting.length < 2)
  | .task reset =>
      reset = true → s.refreshCompleter.isCompleted = true →
        (s.ready.head?.all (!·.isResume)) = true
  | .scanned _ => True
  | .scanFailed _ => False

instance (s : ModService) : (a : Action) → Decidable (KeepsProtocol s a)
  | .call _ => inferInstanceAs (Decidable (_ ∨ _))
  | .task _ => inferInstanceAs (Decidable (_ → _))
  | .scanned _ => .isTrue trivial
  | .scanFailed _ => .isFalse id

/-! ## Phases -/

/-- No scan is running. -/
structure Idle (s : ModService) : Prop where
  completed : s.refreshCompleter.isCompleted = true
  scans : s.scans = []

/-- One scan is running, the last one that has begun. -/
structure Scanning (s : ModService) (scan : Scan) : Prop where
  completed : s.refreshCompleter.isCompleted = false
  scans : s.scans = [scan]
  number : s.begun = scan.number + 1
  called : scan.caller.called ≤ scan.number

/-- The calls wait for the scan that is running. -/
structure Waits (s : ModService) (ws : List Caller) : Prop where
  waiting : s.waiting = ws.map fun w => (.refreshCompleter s.refreshCompleter.id, .resume w)
  length : ws.length ≤ 2
  called : ∀ w ∈ ws, w.called ≤ s.begun

/-- A call that has been given the future of `_enqueueCompleter`, if any. -/
def given (s : ModService) (w : Option Caller) : List (Future × Task) :=
  w.toList.map fun w => (.enqueueCompleter s.enqueueCompleter.id, .joined w)

/-- Nothing is queued; the second call of the last round may have to return. -/
structure Calm (s : ModService) (w : Option Caller) : Prop where
  flag : s.enqueuedRefresh = false
  ready : s.ready = w.toList.map .joined
  returning : ∀ caller ∈ w, Served s.finished caller ∧ s.enqueueCompleter.isCompleted = true
  scan : Idle s ∧ s.waiting = [] ∨
    ∃ scan ws, Scanning s scan ∧ scan.enqueue = false ∧ Waits s ws

/-- A scan is over, and those who have waited for it go on. -/
structure Handover (s : ModService) (w : Caller) (ws : List Caller) : Prop where
  flag : s.enqueuedRefresh = false
  idle : Idle s
  waiting : s.waiting = []
  ready : s.ready = (w :: ws).map .resume
  length : ws.length ≤ 1
  called : ∀ c ∈ w :: ws, c.called ≤ s.begun

/-- A queued scan is running. A second call goes on, or has been given the future. -/
structure Queued (s : ModService) (scan : Scan) (w w' : Option Caller) : Prop where
  flag : s.enqueuedRefresh = true
  completer : s.enqueueCompleter.isCompleted = false
  scanning : Scanning s scan
  enqueue : scan.enqueue = true
  ready : s.ready = w.toList.map .resume
  waiting : s.waiting = given s w'
  one : w = none ∨ w' = none
  called : ∀ caller, caller ∈ w ∨ caller ∈ w' → caller.called ≤ scan.number

/-- The queued scan is over, and its callback is left. -/
structure Ending (s : ModService) (caller : Caller) (w : Option Caller) : Prop where
  flag : s.enqueuedRefresh = true
  completer : s.enqueueCompleter.isCompleted = false
  ready : s.ready = [.scanned caller]
  waiting : s.waiting = given s w
  served : ∀ c, c = caller ∨ c ∈ w → Served s.finished c
  scan : Idle s ∨ ∃ scan, Scanning s scan ∧ scan.enqueue = false

inductive Phase (s : ModService) : Prop
  | calm (w : Option Caller) (h : Calm s w)
  | handover (w : Caller) (ws : List Caller) (h : Handover s w ws)
  | queued (scan : Scan) (w w' : Option Caller) (h : Queued s scan w w')
  | ending (caller : Caller) (w : Option Caller) (h : Ending s caller w)

structure Sound (s : ModService) : Prop where
  phase : Phase s
  served : ∀ caller ∈ s.returned, Served s.finished caller

section

variable {s s' : ModService}

theorem future_of_mem_given {w : Option Caller} {entry : Future × Task} (h : entry ∈ given s w) :
    entry.1 = .enqueueCompleter s.enqueueCompleter.id := by
  obtain ⟨caller, -, rfl⟩ := List.mem_map.mp h
  rfl

theorem Sound.refreshes (hs : Sound s) : Refreshes s := by
  have hnone : s.waiting = [] → ∀ w ∈ s.waiting, w.2.isGiven = true →
      w.1 = .enqueueCompleter s.enqueueCompleter.id := by
    intro hwaiting w hw
    rw [hwaiting] at hw
    cases hw
  cases hs.phase with
  | calm w h =>
      rcases h.scan with ⟨hidle, hwaiting⟩ | ⟨scan, ws, hscan, -, hwaits⟩
      · exact ⟨by simp [hidle.completed], hs.served, hnone hwaiting⟩
      · refine ⟨by simp [hscan.scans], hs.served, fun entry hentry hgiven => ?_⟩
        rw [hwaits.waiting] at hentry
        obtain ⟨caller, -, rfl⟩ := List.mem_map.mp hentry
        cases hgiven
  | handover w ws h => exact ⟨by simp [h.idle.completed], hs.served, hnone h.waiting⟩
  | queued scan w w' h =>
      refine ⟨by simp [h.scanning.scans], hs.served, fun entry hentry _ => ?_⟩
      rw [h.waiting] at hentry
      exact future_of_mem_given hentry
  | ending caller w h =>
      refine ⟨fun hcompleted => ?_, hs.served, fun entry hentry _ => ?_⟩
      · rcases h.scan with hidle | ⟨scan, hscan, -⟩
        · simp [hidle.completed] at hcompleted
        · simp [hscan.scans]
      · rw [h.waiting] at hentry
        exact future_of_mem_given hentry

/-! ## Futures -/

theorem Served.append {finished : List Nat} {caller : Caller} (h : Served finished caller)
    (n : Nat) : Served (finished ++ [n]) caller := by
  obtain ⟨m, hm, hle⟩ := h
  exact ⟨m, List.mem_append_left _ hm, hle⟩

theorem served_append {finished : List Nat} {caller : Caller} {n : Nat} (h : caller.called ≤ n) :
    Served (finished ++ [n]) caller :=
  ⟨n, List.mem_append_right _ (List.mem_singleton_self n), h⟩

/-- Those who wait for a scan go on when it is over. -/
theorem completeRefresh_of_waits {ws : List Caller}
    (hcompleted : s.refreshCompleter.isCompleted = false)
    (hwaiting : s.waiting = ws.map fun w => (.refreshCompleter s.refreshCompleter.id, .resume w)) :
    s.completeRefresh =
      { s with
        refreshCompleter := { s.refreshCompleter with isCompleted := true }
        ready := s.ready ++ ws.map .resume
        waiting := [] } := by
  simp [ModService.completeRefresh, ModService.settle, hcompleted, hwaiting, List.filter_map,
    Function.comp_def]

/-- Those who wait for the other completer do not. -/
theorem completeRefresh_of_given {w : Option Caller}
    (hcompleted : s.refreshCompleter.isCompleted = false) (hwaiting : s.waiting = given s w) :
    s.completeRefresh =
      { s with refreshCompleter := { s.refreshCompleter with isCompleted := true } } := by
  have hne : (Future.enqueueCompleter s.enqueueCompleter.id !=
      Future.refreshCompleter s.refreshCompleter.id) = true := by
    rw [bne_iff_ne]
    exact Future.noConfusion
  simp [ModService.completeRefresh, ModService.settle, hcompleted, hwaiting, given,
    List.filter_map, Function.comp_def, hne]

theorem callback_of_given {w : Option Caller} (hq : s.enqueueCompleter.isCompleted = false)
    (hwaiting : s.waiting = given s w) :
    s.callback =
      { s with
        enqueueCompleter := { s.enqueueCompleter with isCompleted := true }
        enqueuedRefresh := false
        ready := s.ready ++ w.toList.map .joined
        waiting := [] } := by
  simp [ModService.callback, ModService.settle, hq, hwaiting, given, List.filter_map,
    Function.comp_def]

theorem callback_of_completed (hq : s.enqueueCompleter.isCompleted = true) : s.callback = s := by
  simp [ModService.callback, hq]

/-- A call that waits for the scan that is running. -/
theorem busy_eq (hcompleted : s.refreshCompleter.isCompleted = false)
    (hflag : s.enqueuedRefresh = false) (caller : Caller) :
    s.busy caller false =
      { s with
        waiting := s.waiting ++ [(.refreshCompleter s.refreshCompleter.id, .resume caller)] } := by
  simp [ModService.busy, ModService.awaitRefresh, hcompleted, hflag]

/-- A scan that begins with no other running. -/
theorem scanning_beginScan (hidle : Idle s) {caller : Caller} (hcalled : caller.called ≤ s.begun)
    (enqueue : Bool) :
    Scanning (s.beginScan caller enqueue false) { number := s.begun, caller, enqueue } := by
  refine ⟨rfl, ?_, rfl, hcalled⟩
  simp [ModService.beginScan, hidle.scans]

/-! ## Answers -/

/-- No call has returned, and no scan has ended. -/
structure Quiet (s s' : ModService) : Prop where
  finished : s'.finished = s.finished
  returned : s'.returned = s.returned

theorem quiet_busy (caller : Caller) (enqueue : Bool) : Quiet s (s.busy caller enqueue) := by
  unfold ModService.busy ModService.awaitEnqueue ModService.awaitRefresh
  split
  · split <;> exact ⟨rfl, rfl⟩
  · split
    · split <;> exact ⟨rfl, rfl⟩
    · split <;> exact ⟨rfl, rfl⟩

theorem quiet_beginScan (caller : Caller) (enqueue reset : Bool) :
    Quiet s (s.beginScan caller enqueue reset) := by
  cases reset with
  | false => exact ⟨rfl, rfl⟩
  | true =>
      have h := quiet_busy (s := s.beginScan caller enqueue false) ⟨s.begun + 1⟩ false
      exact ⟨h.finished, h.returned⟩

theorem quiet_refresh (caller : Caller) (enqueue reset : Bool) :
    Quiet s (s.refresh caller enqueue reset) := by
  unfold ModService.refresh
  split
  · exact quiet_beginScan caller enqueue reset
  · exact quiet_busy caller enqueue

theorem quiet_callback : Quiet s s.callback := by
  unfold ModService.callback
  split <;> exact ⟨rfl, rfl⟩

/-- The call of a task that only runs when it has been served. -/
def Task.served? : Task → Option Caller
  | .resume _ | .proceed _ => none
  | .given caller | .joined caller | .scanned caller => some caller

theorem served_perform (hserved : ∀ caller ∈ s.returned, Served s.finished caller) (reset : Bool)
    {task : Task} (htask : ∀ caller ∈ task.served?, Served s.finished caller) :
    ∀ caller ∈ (s.perform reset task).returned, Served (s.perform reset task).finished caller := by
  have hreturns : ∀ {w : Caller} {s' : ModService}, Quiet s s' → Served s.finished w →
      ∀ caller ∈ (s'.returns w).returned, Served (s'.returns w).finished caller := by
    intro w s' hquiet hw caller hcaller
    have hfinished : (s'.returns w).finished = s.finished := hquiet.finished
    rw [hfinished]
    simp only [ModService.returns, hquiet.returned, List.mem_append, List.mem_singleton] at hcaller
    rcases hcaller with hcaller | rfl
    · exact hserved caller hcaller
    · exact hw
  cases task with
  | resume w =>
      have hquiet := quiet_refresh (s := { s with
        enqueueCompleter := s.enqueueCompleter.renew, enqueuedRefresh := true }) w true reset
      rw [ModService.perform, hquiet.finished, hquiet.returned]
      exact hserved
  | proceed w =>
      have hquiet := quiet_beginScan (s := s) w true reset
      rw [ModService.perform, hquiet.finished, hquiet.returned]
      exact hserved
  | given w => exact hreturns ⟨rfl, rfl⟩ (htask w rfl)
  | joined w => exact hreturns quiet_callback (htask w rfl)
  | scanned w => exact hreturns quiet_callback (htask w rfl)

/-! ## Calls -/

/-- A call during a scan that is not queued. -/
theorem Calm.busy {w : Option Caller} (h : Calm s w) {scan : Scan} (hscan : Scanning s scan)
    (henqueue : scan.enqueue = false) {ws : List Caller} (hwaits : Waits s ws)
    (hlength : ws.length < 2) : Calm (s.busy { called := s.begun } false) w := by
  rw [busy_eq hscan.completed h.flag]
  refine ⟨h.flag, h.ready, h.returning, .inr ⟨scan, ws ++ [{ called := s.begun }], ?_, henqueue, ?_⟩⟩
  · exact ⟨hscan.completed, hscan.scans, hscan.number, hscan.called⟩
  · refine ⟨by simp [hwaits.waiting], ?_, fun c hc => ?_⟩
    · rw [List.length_append]
      exact hlength
    · rcases List.mem_append.mp hc with hc | hc
      · exact hwaits.called c hc
      · obtain rfl := List.mem_singleton.mp hc
        exact Nat.le_refl _

theorem Calm.call {w : Option Caller} (h : Calm s w) {reset : Bool}
    (hkeeps : KeepsProtocol s (.call reset)) :
    Calm (s.refresh { called := s.begun } false reset) w := by
  rcases h.scan with ⟨hidle, hwaiting⟩ | ⟨scan, ws, hscan, henqueue, hwaits⟩
  · rw [ModService.refresh, if_pos hidle.completed]
    have hscan := scanning_beginScan hidle (Nat.le_refl (Caller.mk s.begun).called) false
    have hwaits : Waits (s.beginScan ⟨s.begun⟩ false false) [] :=
      ⟨hwaiting, Nat.zero_le _, fun _ h => by cases h⟩
    have hcalm : Calm (s.beginScan ⟨s.begun⟩ false false) w :=
      ⟨h.flag, h.ready, h.returning, .inr ⟨_, _, hscan, rfl, hwaits⟩⟩
    cases reset with
    | false => exact hcalm
    | true =>
        -- `setBasePath` is the first to wait for the scan
        exact hcalm.busy hscan rfl hwaits (by decide)
  · rw [ModService.refresh, if_neg (by simp [hscan.completed])]
    rcases hkeeps with ⟨hcompleted, -⟩ | ⟨-, -, hlength⟩
    · rw [hscan.completed] at hcompleted
      cases hcompleted
    · rw [hwaits.waiting, List.length_map] at hlength
      exact h.busy hscan henqueue hwaits hlength

/-- A call while the callback of a queued scan is left. -/
theorem Ending.call {caller : Caller} {w : Option Caller} (h : Ending s caller w) {reset : Bool}
    (hkeeps : KeepsProtocol s (.call reset)) :
    Ending (s.refresh { called := s.begun } false reset) caller w := by
  rcases hkeeps with ⟨hcompleted, -, hreset⟩ | ⟨-, hnot, -⟩
  · have hidle : Idle s := by
      rcases h.scan with hidle | ⟨scan, hscan, -⟩
      · exact hidle
      · rw [hscan.completed] at hcompleted
        cases hcompleted
    cases reset with
    | false =>
        rw [ModService.refresh, if_pos hcompleted]
        have hscan := scanning_beginScan hidle (Nat.le_refl (Caller.mk s.begun).called) false
        exact ⟨h.flag, h.completer, h.ready, h.waiting, h.served, .inr ⟨_, hscan, rfl⟩⟩
    | true =>
        rw [h.flag] at hreset
        cases hreset rfl
  · rw [h.flag] at hnot
    cases hnot

theorem Phase.call (hs : Phase s) {reset : Bool} (hkeeps : KeepsProtocol s (.call reset)) :
    Phase (s.refresh { called := s.begun } false reset) := by
  cases hs with
  | calm w h => exact .calm w (h.call hkeeps)
  | handover w ws h =>
      rcases hkeeps with ⟨-, hresume, -⟩ | ⟨hcompleted, -⟩
      · simp [h.ready, Task.isResume] at hresume
      · rw [h.idle.completed] at hcompleted
        cases hcompleted
  | queued scan w w' h =>
      rcases hkeeps with ⟨hcompleted, -⟩ | ⟨-, hnot, -⟩
      · rw [h.scanning.completed] at hcompleted
        cases hcompleted
      · rw [h.flag] at hnot
        cases hnot
  | ending caller w h => exact .ending caller w (h.call hkeeps)

/-! ## Tasks -/

/-- The fields that the phases are about, apart from the tasks and those who wait. -/
theorem Idle.congr (h : Idle s) (hcompleter : s'.refreshCompleter = s.refreshCompleter)
    (hscans : s'.scans = s.scans) : Idle s' :=
  ⟨by rw [hcompleter]; exact h.completed, by rw [hscans]; exact h.scans⟩

theorem Scanning.congr {scan : Scan} (h : Scanning s scan)
    (hcompleter : s'.refreshCompleter = s.refreshCompleter) (hscans : s'.scans = s.scans)
    (hbegun : s'.begun = s.begun) : Scanning s' scan :=
  ⟨by rw [hcompleter]; exact h.completed, by rw [hscans]; exact h.scans,
    by rw [hbegun]; exact h.number, h.called⟩

/-- The second call of a round returns. -/
theorem Calm.joined {w : Caller} (h : Calm s (some w)) (reset : Bool) :
    Calm ({ s with ready := [] }.perform reset (.joined w)) none := by
  have hcallback : ({ s with ready := [] } : ModService).callback = { s with ready := [] } :=
    callback_of_completed (h.returning w rfl).2
  rw [ModService.perform, hcallback]
  refine ⟨h.flag, rfl, (fun _ h => by cases h), ?_⟩
  rcases h.scan with ⟨hidle, hwaiting⟩ | ⟨scan, ws, hscan, henqueue, hwaits⟩
  · exact .inl ⟨hidle.congr rfl rfl, hwaiting⟩
  · exact .inr ⟨scan, ws, hscan.congr rfl rfl rfl, henqueue,
      ⟨hwaits.waiting, hwaits.length, hwaits.called⟩⟩

/-- The first call that has waited scans. -/
theorem Handover.resume {w : Caller} {ws : List Caller} (h : Handover s w ws) :
    Queued ({ s with ready := ws.map .resume }.perform false (.resume w))
      { number := s.begun, caller := w, enqueue := true } ws.head? none := by
  have hwcalled := h.called w List.mem_cons_self
  have hidle : Idle { s with
      ready := ws.map .resume, enqueueCompleter := s.enqueueCompleter.renew,
      enqueuedRefresh := true } := ⟨h.idle.completed, h.idle.scans⟩
  rw [ModService.perform, ModService.refresh, if_pos h.idle.completed]
  refine ⟨rfl, rfl, ?_, rfl, ?_, h.waiting, .inr rfl, fun c hc => ?_⟩
  · exact scanning_beginScan hidle hwcalled true
  · cases ws with
    | nil => rfl
    | cons w' ws =>
        have hnil : ws = [] := List.length_eq_zero_iff.mp (by simpa using h.length)
        rw [hnil]
        rfl
  · refine h.called c (List.mem_cons_of_mem _ (List.mem_of_head? (hc.resolve_right ?_)))
    exact Option.not_mem_none c

/-- The second one is given the future of the completer. -/
theorem Queued.resume {scan : Scan} {w : Caller} {w' : Option Caller}
    (h : Queued s scan (some w) w') (reset : Bool) :
    Queued ({ s with ready := [] }.perform reset (.resume w)) scan none (some w) := by
  have hnone : w' = none := h.one.resolve_left (by simp)
  have hwaiting : s.waiting = [] := by
    rw [h.waiting, hnone]
    rfl
  rw [ModService.perform, ModService.refresh, if_neg (by simp [h.scanning.completed])]
  refine ⟨rfl, rfl, h.scanning.congr rfl rfl rfl, h.enqueue, rfl, ?_, .inl rfl, fun c hc => ?_⟩
  · simp [ModService.busy, ModService.awaitEnqueue, Completer.renew, hwaiting, given]
  · exact h.called c (.inl (hc.resolve_left (Option.not_mem_none c)))

/-- The callback of a queued scan takes the flag back. -/
theorem Ending.callback {caller : Caller} {w : Option Caller} (h : Ending s caller w)
    (reset : Bool) :
    Calm ({ s with ready := [] }.perform reset (.scanned caller)) w := by
  have hcallback := callback_of_given (s := { s with ready := [] }) h.completer h.waiting
  rw [ModService.perform, hcallback]
  refine ⟨rfl, rfl, fun c hc => ⟨h.served c (.inr hc), rfl⟩, ?_⟩
  rcases h.scan with hidle | ⟨scan, hscan, henqueue⟩
  · exact .inl ⟨hidle.congr rfl rfl, rfl⟩
  · exact .inr ⟨scan, [], hscan.congr rfl rfl rfl, henqueue,
      ⟨rfl, Nat.zero_le _, fun _ h => by cases h⟩⟩

theorem Phase.task (hs : Phase s) {reset : Bool} (hkeeps : KeepsProtocol s (.task reset))
    {task : Task} {tasks : List Task} (htask : s.ready = task :: tasks) :
    Phase ({ s with ready := tasks }.perform reset task) ∧
      ∀ caller ∈ task.served?, Served s.finished caller := by
  cases hs with
  | calm w h =>
      cases w with
      | none =>
          rw [h.ready] at htask
          cases htask
      | some w =>
          rw [h.ready] at htask
          cases htask
          refine ⟨.calm none (h.joined reset), fun caller hcaller => ?_⟩
          exact (h.returning caller hcaller).1
  | handover w ws h =>
      rw [h.ready] at htask
      cases htask
      have hreset : reset = false := by
        cases reset with
        | false => rfl
        | true =>
            have := hkeeps rfl h.idle.completed
            simp [h.ready, Task.isResume] at this
      rw [hreset]
      exact ⟨.queued _ _ _ h.resume, fun _ h => by cases h⟩
  | queued scan w w' h =>
      cases w with
      | none =>
          rw [h.ready] at htask
          cases htask
      | some w =>
          rw [h.ready] at htask
          cases htask
          exact ⟨.queued _ _ _ (h.resume reset), fun _ h => by cases h⟩
  | ending caller w h =>
      rw [h.ready] at htask
      cases htask
      refine ⟨.calm w (h.callback reset), fun c hc => ?_⟩
      cases hc
      exact h.served caller (.inl rfl)

/-! ## Scans -/

/-- A scan that is not queued is over. -/
theorem Calm.endScan {w : Option Caller} (h : Calm s w) (hready : s.ready = []) {scan : Scan}
    (hscan : Scanning s scan) (henqueue : scan.enqueue = false) {ws : List Caller}
    (hwaits : Waits s ws) : Phase (s.endScan 0 scan) := by
  have hcomplete := completeRefresh_of_waits
    (s := { s with scans := s.scans.eraseIdx 0, finished := s.finished ++ [scan.number] })
    hscan.completed hwaits.waiting
  simp only [ModService.endScan, henqueue, Bool.false_eq_true, if_false]
  rw [hcomplete]
  have hidle : ∀ {s' : ModService}, s'.refreshCompleter.isCompleted = true →
      s'.scans = s.scans.eraseIdx 0 → Idle s' := by
    intro s' hcompleted hscans
    exact ⟨hcompleted, by rw [hscans, hscan.scans]; rfl⟩
  cases ws with
  | nil =>
      refine .calm none ⟨h.flag, ?_, (fun _ h => by cases h), .inl ⟨hidle rfl rfl, rfl⟩⟩
      simp [ModService.returns, hready]
  | cons w' ws =>
      refine .handover w' ws ⟨h.flag, hidle rfl rfl, rfl, ?_, ?_, hwaits.called⟩
      · simp [ModService.returns, hready]
      · simpa using hwaits.length

/-- A queued scan is over. -/
theorem Queued.endScan {scan : Scan} {w w' : Option Caller} (h : Queued s scan w w')
    (hready : s.ready = []) : Ending (s.endScan 0 scan) scan.caller w' := by
  have hcomplete := completeRefresh_of_given
    (s := { s with scans := s.scans.eraseIdx 0, finished := s.finished ++ [scan.number] })
    h.scanning.completed h.waiting
  simp only [ModService.endScan, h.enqueue, if_true]
  rw [hcomplete]
  refine ⟨h.flag, h.completer, ?_, h.waiting, fun c hc => ?_, .inl ⟨rfl, ?_⟩⟩
  · simp [hready]
  · refine served_append ?_
    rcases hc with rfl | hc
    · exact h.scanning.called
    · exact h.called c (.inr hc)
  · simp [h.scanning.scans]

theorem Phase.endScan (hs : Phase s) (hready : s.ready = []) {i : Nat} {scan : Scan}
    (hscan : s.scans[i]? = some scan) :
    Phase (s.endScan i scan) ∧ scan.caller.called ≤ scan.number := by
  have hone : ∀ {scan' : Scan}, Scanning s scan' → i = 0 ∧ scan' = scan := by
    intro scan' h
    rw [h.scans] at hscan
    cases i with
    | zero => exact ⟨rfl, by simpa using hscan⟩
    | succ i => simp at hscan
  have hidle : ¬ Idle s := by
    intro h
    rw [h.scans] at hscan
    simp at hscan
  cases hs with
  | calm w h =>
      rcases h.scan with ⟨h', -⟩ | ⟨scan', ws, hscan', henqueue, hwaits⟩
      · exact absurd h' hidle
      · obtain ⟨rfl, rfl⟩ := hone hscan'
        exact ⟨h.endScan hready hscan' henqueue hwaits, hscan'.called⟩
  | handover w ws h => exact absurd h.idle hidle
  | queued scan' w w' h =>
      obtain ⟨rfl, rfl⟩ := hone h.scanning
      exact ⟨.ending _ _ (h.endScan hready), h.scanning.called⟩
  | ending caller w h =>
      rw [h.ready] at hready
      cases hready

theorem Quiet.served (h : Quiet s s') (hserved : ∀ caller ∈ s.returned, Served s.finished caller) :
    ∀ caller ∈ s'.returned, Served s'.finished caller := by
  rw [h.finished, h.returned]
  exact hserved

theorem served_endScan (hserved : ∀ caller ∈ s.returned, Served s.finished caller) (i : Nat)
    {scan : Scan} (hcalled : scan.caller.called ≤ scan.number) :
    ∀ caller ∈ (s.endScan i scan).returned, Served (s.endScan i scan).finished caller := by
  have hserved' : ∀ caller ∈ s.returned, Served (s.finished ++ [scan.number]) caller :=
    fun caller hcaller => (hserved caller hcaller).append scan.number
  have hcomplete : Quiet { s with
      scans := s.scans.eraseIdx i, finished := s.finished ++ [scan.number] }
      (ModService.completeRefresh { s with
        scans := s.scans.eraseIdx i, finished := s.finished ++ [scan.number] }) := by
    unfold ModService.completeRefresh
    split <;> exact ⟨rfl, rfl⟩
  unfold ModService.endScan
  dsimp only
  split
  · exact hcomplete.served hserved'
  · intro caller hcaller
    have hfinished := hcomplete.finished
    simp only [ModService.returns, hcomplete.returned, List.mem_append, List.mem_singleton]
      at hcaller
    show Served (ModService.completeRefresh _).finished caller
    rw [hfinished]
    rcases hcaller with hcaller | rfl
    · exact hserved' caller hcaller
    · exact served_append hcalled

theorem Sound.step {a : Action} (hs : Sound s) (hkeeps : KeepsProtocol s a)
    (hstep : step s a = some s') : Sound s' := by
  cases a with
  | call reset =>
      cases hstep
      exact ⟨hs.phase.call hkeeps, (quiet_refresh _ _ _).served hs.served⟩
  | task reset =>
      cases hready : s.ready with
      | nil => simp [Refresh.step, hready] at hstep
      | cons task tasks =>
          simp only [Refresh.step, hready, Option.some.injEq] at hstep
          subst hstep
          obtain ⟨hphase, htask⟩ := hs.phase.task hkeeps hready
          exact ⟨hphase, served_perform (s := { s with ready := tasks }) hs.served reset htask⟩
  | scanned i =>
      simp only [Refresh.step] at hstep
      split at hstep
      · next hready =>
          obtain ⟨scan, hscan, rfl⟩ := Option.map_eq_some_iff.mp hstep
          obtain ⟨hphase, hcalled⟩ := hs.phase.endScan hready hscan
          exact ⟨hphase, served_endScan hs.served i hcalled⟩
      · cases hstep
  | scanFailed i => exact hkeeps.elim

end

/-! ## Runs -/

/-- In a run in which no scan fails, and every call comes when it may, the completer is open
only while a scan is running, a call returns only after a scan that has begun no earlier, and
nobody waits for a completer that has been replaced. -/
theorem refresh_run (as : List Action) (h : ∀ m ∈ moves step {} as, KeepsProtocol m.1 m.2) :
    ∀ s ∈ visits step {} as, Refreshes s := by
  have hidle : Idle {} := ⟨rfl, rfl⟩
  have hinit : Sound {} :=
    ⟨.calm none ⟨rfl, rfl, (fun _ h => by cases h), .inl ⟨hidle, rfl⟩⟩, fun _ h => by cases h⟩
  intro s hs
  exact (forall_visits_of_forall_moves Sound KeepsProtocol
    (fun hs hkeeps hstep => hs.step hkeeps hstep) hinit as h s hs).refreshes

/-- Two calls during a scan. -/
def twoCalls : List Action :=
  [.call true, .call false, .scanned 0, .task false, .task false, .scanned 0, .call false,
    .task false, .task false, .scanned 0]

theorem refresh_run_two :
    (∀ m ∈ moves step {} twoCalls, KeepsProtocol m.1 m.2) ∧
      (∀ s ∈ visits step {} twoCalls, Refreshes s) ∧
      (exec step {} twoCalls).map (·.returned) = some [⟨0⟩, ⟨1⟩, ⟨1⟩, ⟨2⟩] := by
  have hkeeps : ∀ m ∈ moves step {} twoCalls, KeepsProtocol m.1 m.2 := by decide
  exact ⟨hkeeps, refresh_run twoCalls hkeeps, by decide⟩

/-- A scan fails. -/
def failedScan : List Action := [.call false, .scanFailed 0]

/-- A call during a queued scan is answered when this is over. -/
def lateCall : List Action :=
  [.call false, .call false, .scanned 0, .task false, .call false, .scanned 0, .task false,
    .task false]

/-- Three calls during a scan. -/
def threeCalls : List Action :=
  [.call false, .call false, .call false, .call false, .scanned 0, .task false, .task false,
    .task false]

theorem refresh_fails :
    (¬ ∀ s ∈ visits step {} failedScan,
      s.refreshCompleter.isCompleted = false → s.scans ≠ []) ∧
    (¬ ∀ s ∈ visits step {} lateCall, ∀ caller ∈ s.returned, Served s.finished caller) ∧
    ¬ ∀ s ∈ visits step {} threeCalls, ∀ w ∈ s.waiting, w.2.isGiven = true →
      w.1 = .enqueueCompleter s.enqueueCompleter.id := by
  refine ⟨by decide, ?_, by decide⟩
  unfold Served
  decide

end Kyber.Launcher.Refresh
