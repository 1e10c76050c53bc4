import Kyber.Lib.Runs
import Kyber.Core.Server

/-!
# When the last level that is requested is the last one loaded

A request should not disturb a load in progress, and when everything has come to
rest the engine should have been handed the level that was asked for last, with all
four arguments of the request. `InitLevelSetup` makes use of a start point and a
sub-level in campaigns only. The slot for one request is enough as long as it is used
for what it can hold: level and mode, of a request that waits for a load. `Safe` says
what a step must not do. Along a run of safe steps at most one load is in progress,
the server's flag says that there is none, and the slot holds the last request if
that has not been handed over (`Tracked`).
-/

namespace Kyber.Core

open Kyber.Lib

namespace Game

variable {unset : String} {g g' : Game}

/-- A setup has what was asked for. A null pointer stands for an empty text, as the hook reads
it. -/
structure Carries (setup : LevelSetup) (call : LevelCall) : Prop where
  level : setup.name = call.level
  mode : setup.gameMode = call.mode
  startPoint : setup.initialStartPoint.getD "" = call.startPoint
  initialSubLevel : setup.initialDSubLevel.getD "" = call.initialSubLevel

/-- What is asked of every state: a level that was not forced has only been handed
over during loads that were; and when no load is in progress, the last level handed
over is the last one requested, as it was requested. -/
structure Kept (g : Game) : Prop where
  undisturbed : ∀ h ∈ g.handed, h.forced = false → ∀ load ∈ h.during, load.forced = true
  last : g.loading = [] → ∀ call, g.requested = some call →
    ∃ h, g.handed.getLast? = some h ∧ Carries h.setup call

/-- A request that `InitLevelSetup` makes use of as a whole: a start point and a sub-level are
for campaigns, and the start point is for a sub-level. -/
def Used (call : LevelCall) : Prop :=
  (call.mode = some "Campaign" → call.initialSubLevel = "" → call.startPoint = "") ∧
    (call.mode ≠ some "Campaign" → call.startPoint = "" ∧ call.initialSubLevel = "")

instance (call : LevelCall) : Decidable (Used call) :=
  inferInstanceAs (Decidable (
    (call.mode = some "Campaign" → call.initialSubLevel = "" → call.startPoint = "") ∧
      (call.mode ≠ some "Campaign" → call.startPoint = "" ∧ call.initialSubLevel = "")))

/-- A step that asks of the setup, the slot and the flag only what they can do. A request
is used as a whole; one that has to wait waits for a load and consists of a level and a
mode; a level is forced when there is nothing in progress and nothing waiting; and a level
that the engine reports is the one in progress if there is one. -/
def Safe (g : Game) : Action → Prop
  | .request call =>
      Used call ∧ (g.server.levelLoaded = false →
        g.loading ≠ [] ∧ call.level ≠ "" ∧ call.mode ≠ none ∧ call.initialSubLevel = "")
  | .start _ _ changeState =>
      changeState = true → g.loading = [] ∧ g.server.latestLoadLevelRequest.level = ""
  | .loaded load => load = none → g.loading = []

instance (g : Game) : (a : Action) → Decidable (g.Safe a)
  | .request call =>
      inferInstanceAs (Decidable (Used call ∧ (g.server.levelLoaded = false →
        g.loading ≠ [] ∧ call.level ≠ "" ∧ call.mode ≠ none ∧ call.initialSubLevel = "")))
  | .start _ _ changeState =>
      inferInstanceAs (Decidable
        (changeState = true → g.loading = [] ∧ g.server.latestLoadLevelRequest.level = ""))
  | .loaded load => inferInstanceAs (Decidable (load = none → g.loading = []))

/-- The setup that the slot stands for. -/
def waiting (g : Game) : Option LevelSetup :=
  let request := g.server.latestLoadLevelRequest
  if request.level = "" then none
  else some (initLevelSetup request.level (some request.mode) "" "")

/-- The setup that a request is made into. -/
def made (call : LevelCall) : LevelSetup :=
  initLevelSetup call.level call.mode call.startPoint call.initialSubLevel

structure Tracked (g : Game) : Prop where
  one_load : g.loading.length ≤ 1
  loaded : g.server.levelLoaded = true → g.loading = [] ∧ g.waiting = none
  waits : ∀ setup, g.waiting = some setup → g.loading ≠ [] ∧ g.requested.map made = some setup
  handed : g.waiting = none → g.requested.map made = g.handed.getLast?.map HandOver.setup
  used : ∀ call, g.requested = some call → Used call
  undisturbed : ∀ h ∈ g.handed, h.forced = false → ∀ load ∈ h.during, load.forced = true

theorem initLevelSetup_name (level : String) (mode : Option String)
    (startPoint initialSubLevel : String) :
    (initLevelSetup level mode startPoint initialSubLevel).name = level := by
  unfold initLevelSetup
  repeat' split
  all_goals rfl

theorem initLevelSetup_gameMode (level : String) (mode : Option String)
    (startPoint initialSubLevel : String) :
    (initLevelSetup level mode startPoint initialSubLevel).gameMode = mode := by
  unfold initLevelSetup
  repeat' split
  all_goals rfl

/-- A request that is used as a whole is in its setup. -/
theorem made_carries {call : LevelCall} (h : Used call) : Carries (made call) call where
  level := initLevelSetup_name ..
  mode := initLevelSetup_gameMode ..
  startPoint := by
    obtain ⟨level, mode, startPoint, initialSubLevel⟩ := call
    cases mode with
    | none => simp_all [Used, made, initLevelSetup]
    | some mode =>
        by_cases hmode : mode = "Campaign"
        · by_cases hsub : initialSubLevel = ""
          · simp_all [Used, made, initLevelSetup]
          · simp [made, initLevelSetup, hmode, hsub]
        · simp_all [Used, made, initLevelSetup]
  initialSubLevel := by
    obtain ⟨level, mode, startPoint, initialSubLevel⟩ := call
    cases mode with
    | none => simp_all [Used, made, initLevelSetup]
    | some mode =>
        by_cases hmode : mode = "Campaign"
        · simp [made, initLevelSetup, hmode]
        · simp_all [Used, made, initLevelSetup]

theorem Tracked.kept (h : g.Tracked) : g.Kept := by
  refine ⟨h.undisturbed, fun hrest call hreq => ?_⟩
  have hwait : g.waiting = none := by
    cases hw : g.waiting with
    | none => rfl
    | some s => exact absurd hrest (h.waits s hw).1
  have hlast := h.handed hwait
  rw [hreq, Option.map_some] at hlast
  obtain ⟨hand, hhand, hsetup⟩ := Option.map_eq_some_iff.mp hlast.symm
  exact ⟨hand, hhand, hsetup ▸ made_carries (h.used call hreq)⟩

theorem tracked_init (boot : Option LevelSetup) : (init boot).Tracked where
  one_load := by cases boot <;> simp [init]
  loaded h := by cases h
  waits setup h := by cases h
  handed _ := rfl
  used call h := by cases h
  undisturbed h hmem := by simp [init] at hmem

/-! ## Handing over and waiting -/

/-- A level is handed over when nothing is in progress and nothing waits. -/
theorem tracked_handOver {setup : LevelSetup} {forced : Bool} (hload : g.loading = [])
    (hundist : ∀ h ∈ g.handed, h.forced = false → ∀ load ∈ h.during, load.forced = true)
    (hreq : g.requested.map made = some setup) (hused : ∀ call, g.requested = some call → Used call)
    (hslot : g.waiting = none) : ((g.setLevelLoaded false).handOver setup forced).Tracked where
  one_load := by simp [handOver, setLevelLoaded, hload]
  loaded h := by simp [handOver, setLevelLoaded] at h
  waits s h := by
    have h' : g.waiting = some s := h
    rw [hslot] at h'
    cases h'
  handed _ := by simpa [handOver, setLevelLoaded] using hreq
  used := hused
  undisturbed := by
    intro h hmem hforced
    simp only [handOver, setLevelLoaded, List.mem_append, List.mem_singleton] at hmem
    rcases hmem with hmem | rfl
    · exact hundist h hmem hforced
    · simp [hload]

/-- The slot keeps a setup that has no sub-level. -/
theorem made_deferred {call : LevelCall} {mode : String} (hmode : call.mode = some mode)
    (hsub : call.initialSubLevel = "") :
    made call = initLevelSetup call.level (some mode) "" "" := by
  rw [made, hmode, hsub]
  by_cases hcampaign : mode = "Campaign"
  · simp [initLevelSetup, hcampaign]
  · simp [initLevelSetup, hcampaign]

/-- A request that waits takes the place of the one that waited before it. -/
theorem tracked_request_waiting (h : g.Tracked) {call : LevelCall} {mode : String}
    (hflag : g.server.levelLoaded = false) (hused : Used call) (hload : g.loading ≠ [])
    (hlevel : call.level ≠ "") (hmode : call.mode = some mode) (hsub : call.initialSubLevel = "") :
    (setRequest { g with requested := some call } { level := call.level, mode }).Tracked where
  one_load := h.one_load
  loaded hl := by
    have hl' : g.server.levelLoaded = true := hl
    rw [hflag] at hl'
    cases hl'
  waits s hw := by
    refine ⟨hload, ?_⟩
    simp only [waiting, setRequest, hlevel, if_false] at hw
    rw [← hw]
    exact congrArg some (made_deferred hmode hsub)
  handed hw := by simp [waiting, setRequest, hlevel] at hw
  used _ hcall := by
    cases hcall
    exact hused
  undisturbed := h.undisturbed

/-! ## The steps -/

theorem tracked_request (h : g.Tracked) {call : LevelCall} (hsafe : g.Safe (.request call)) :
    (loadNextLevel unset { g with requested := some call } call false).Tracked := by
  obtain ⟨hused, hwaits⟩ := hsafe
  unfold loadNextLevel post
  cases hflag : g.server.levelLoaded with
  | false =>
      obtain ⟨hload, hlevel, hmode, hsub⟩ := hwaits hflag
      obtain ⟨mode, hmode⟩ := Option.ne_none_iff_exists'.mp hmode
      simp only [Bool.not_false, if_true, initLevelSetup_name, initLevelSetup_gameMode, hmode,
        Option.getD_some]
      exact tracked_request_waiting h hflag hused hload hlevel hmode hsub
  | true =>
      simp only [Bool.not_true, Bool.false_eq_true, if_false]
      refine @tracked_handOver { g with requested := some call } _ false (h.loaded hflag).1
        h.undisturbed rfl (fun _ hcall => ?_) (h.loaded hflag).2
      cases hcall
      exact hused

theorem tracked_start (h : g.Tracked) {level mode : String} {changeState : Bool}
    (hsafe : g.Safe (.start level mode changeState)) :
    (g.start unset level mode changeState).Tracked := by
  unfold start
  split
  next hchange =>
      obtain ⟨hload, hslot⟩ := hsafe hchange
      have hwait : g.waiting = none := by simp [waiting, hslot]
      simp only [loadNextLevel, post, setLevelLoaded, Bool.not_true, Bool.false_eq_true, if_false]
      refine @tracked_handOver { g with requested := some { level, mode := some mode } } _ true
        hload h.undisturbed rfl (fun _ hcall => ?_) hwait
      cases hcall
      simp [Used]
  · exact h

/-- The end of the one load, or the report of a level when there is none. -/
theorem tracked_onLevelLoaded (h : g.Tracked) (loads : List Load) (hload : loads = []) :
    (onLevelLoaded unset { g with loading := loads }).Tracked := by
  subst hload
  unfold onLevelLoaded
  by_cases hslot : g.server.latestLoadLevelRequest.level = ""
  · have hwait : g.waiting = none := by simp [waiting, hslot]
    simp only [setLevelLoaded, hslot, ne_eq, not_true, if_false]
    exact {
      one_load := by simp
      loaded := fun _ => ⟨rfl, by simpa [waiting] using hslot⟩
      waits := fun s hw => by
        have hw' : g.waiting = some s := by simpa [waiting] using hw
        rw [hwait] at hw'
        cases hw'
      handed := fun _ => h.handed hwait
      used := h.used
      undisturbed := h.undisturbed }
  · -- The request that waits is the last one, and is handed over.
    have hwait : g.waiting = some (initLevelSetup g.server.latestLoadLevelRequest.level
        (some g.server.latestLoadLevelRequest.mode) "" "") := by
      simp [waiting, hslot]
    have hreq := (h.waits _ hwait).2
    have hhand := @tracked_handOver (setRequest { g with loading := [] } {}) _ false rfl
      h.undisturbed hreq h.used (by simp [waiting, setRequest])
    simp only [setLevelLoaded, hslot, ne_eq, not_false_eq_true, if_true, loadNextLevel, post,
      Bool.not_true, Bool.false_eq_true, if_false]
    exact hhand

theorem Tracked.step {a : Action} (h : g.Tracked) (hsafe : g.Safe a)
    (hstep : g.step unset a = some g') : g'.Tracked := by
  cases a with
  | request call =>
      cases hstep
      exact tracked_request h hsafe
  | start level mode changeState =>
      cases hstep
      exact tracked_start h hsafe
  | loaded load =>
      cases load with
      | none =>
          cases hstep
          exact tracked_onLevelLoaded h g.loading (hsafe rfl)
      | some i =>
          rw [Game.step] at hstep
          split at hstep
          next hi =>
              cases hstep
              have hone := h.one_load
              refine tracked_onLevelLoaded h _ (List.eq_nil_of_length_eq_zero ?_)
              rw [List.length_eraseIdx_of_lt hi]
              omega
          · cases hstep

end Game

open Game

/-- In every run of safe steps no load is disturbed, and the last level handed to the
engine is the last one requested whenever the loads have ended. -/
theorem levelRequests_run (unset : String) (boot : Option LevelSetup) (as : List Action)
    (hsafe : ∀ mv ∈ moves (step unset) (init boot) as, mv.1.Safe mv.2) :
    ∀ g ∈ visits (step unset) (init boot) as, g.Kept := by
  intro g hg
  have htracked := forall_visits_of_forall_moves Tracked Safe
    (fun h hs hstep => h.step hs hstep) (tracked_init boot) as hsafe g hg
  exact htracked.kept

/-- A server is started, two levels are requested while its own is loading, and a campaign
level when all loads have ended. -/
def startedRun : List Action :=
  [.start "Levels/MP/Yavin_01" "HeroesVersusVillains" true,
    .request { level := "Levels/MP/Hoth_01", mode := some "PlanetaryBattles" },
    .request { level := "Levels/MP/Endor_01", mode := some "Mode1" }, .loaded (some 0),
    .loaded (some 0),
    .request {
      level := "Levels/SP/RootLevel/RootLevel", mode := some "Campaign"
      startPoint := "S0700_GP_CP02_Escape"
      initialSubLevel := "Levels/SP/A2/M2BES/DS02/A2_M2BES_DS02" },
    .loaded (some 0)]

theorem levelRequests_run_started :
    (∀ mv ∈ moves (step "") (init none) startedRun, mv.1.Safe mv.2) ∧
      ∀ g ∈ visits (step "") (init none) startedRun, g.Kept :=
  ⟨by decide, levelRequests_run "" none startedRun (by decide)⟩

/-- A campaign level is requested, with the arguments of the console command, while
the engine loads the level that it boots with. -/
def campaignRun : List Action :=
  [.request {
      level := "Levels/SP/RootLevel/RootLevel", mode := some "Campaign"
      startPoint := "S0700_GP_CP02_Escape"
      initialSubLevel := "Levels/SP/A2/M2BES/DS02/A2_M2BES_DS02" },
    .loaded (some 0), .loaded (some 0)]

/-- It is handed over without its start point and its sub-level. -/
theorem campaign_request_stripped :
    ¬ ∀ (unset : String) (boot : Option LevelSetup) (as : List Action),
      ∀ g ∈ visits (step unset) (init boot) as, g.Kept := by
  intro hall
  have h : (exec (step "") (init (some { name := "Levels/FE/FE" })) campaignRun).map (fun g =>
      (g.loading, g.handed.getLast?.map fun h => h.setup.initialDSubLevel,
        g.requested.map LevelCall.initialSubLevel)) =
      some ([], some (some ""), some "Levels/SP/A2/M2BES/DS02/A2_M2BES_DS02") := by
    decide
  obtain ⟨g, hg, heq⟩ := Option.map_eq_some_iff.mp h
  simp only [Prod.mk.injEq] at heq
  obtain ⟨hload, hhanded, hreq⟩ := heq
  obtain ⟨call, hcall, hsub⟩ := Option.map_eq_some_iff.mp hreq
  obtain ⟨hand, hmem, hcarries⟩ := (hall _ _ _ g (mem_visits_of_exec hg)).last hload call hcall
  have hkept := hcarries.initialSubLevel
  rw [hmem, Option.map_some, Option.some.injEq] at hhanded
  rw [hhanded, hsub] at hkept
  revert hkept
  decide

end Kyber.Core
