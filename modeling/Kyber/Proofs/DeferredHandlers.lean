import Kyber.Lib.Runs
import Kyber.ModLoader.DeferredHandlers
import Mathlib.Data.List.Nodup

/-!
# When deferred handlers run once and in order

The two loops share a vector that hooks entered from inside `RunHandler` change.
Two of these changes break the outer loop. A nested update erases entries, and an
entry erased in front of the one whose `ReferencesResolved` handlers are running
moves another entry under the outer iterator: the flag is then set on that one.
And a nested `push_back` may move the vector, which leaves the outer iterator
dangling. The update loop is protected from nested updates by its flag, the fetch
loop is not.

Without these, and when no nested fetch reports a container whose handlers are
running, everything is in order (`Orderly`) along the whole run. The invariant
says what the log and the queue know about each other: an entry whose flag is
not set has had no handlers started unless some frame is running them right now,
and every frame inside `RunHandler` still points at its entry.
-/

namespace Kyber.ModLoader

open Kyber.Lib

/-- Handlers are started once; those of `PostLoad` after those of
`ReferencesResolved` have finished; the flag is set on the entry whose
`ReferencesResolved` handlers have just finished; an entry leaves after its
`PostLoad` handlers. The log is newest first. -/
def Orderly : List LogItem → Prop
  | [] => True
  | item :: older => Orderly older ∧
      match item with
      | .started stage id => .started stage id ∉ older ∧
          (stage = .postLoad → .finished .referencesResolved id ∈ older)
      | .finished stage id => .started stage id ∈ older
      | .flagged id => older.head? = some (.finished .referencesResolved id)
      | .left id => .finished .postLoad id ∈ older

def Loop.isUpdate : Loop → Bool
  | .fetch _ _ => false
  | .update => true

namespace DeferredQueue

/-- What a step must not do: move the vector under a running loop, run the
`ReferencesResolved` handlers of an entry they are running for, or erase an entry
that is not behind those of the loops further out. -/
def safe (s : DeferredQueue) (e : DeferredEvent) : Bool :=
  match e, s.frames with
  | .readEbx true _ _, _ :: _ => s.queue.length < s.capacity
  | .round, frame :: below =>
      match s.queue[frame.it]? with
      | some info => frame.loop.isUpdate || !frame.loop.selects info ||
          below.all fun f => f.running ≠ some info.id
      | none => true
  | .handlerDone, frame :: below =>
      !frame.loop.isUpdate || below.all fun f => f.it < frame.it
  | _, _ => true

structure Inv (s : DeferredQueue) : Prop where
  sound : s.faulted = false
  orderly : Orderly s.log
  ids_lt : ∀ info ∈ s.queue, info.id < s.nextId
  log_lt : ∀ stage id, LogItem.started stage id ∈ s.log → id < s.nextId
  nodup : (s.queue.map ContainerCreationInfo.id).Nodup
  resolved : ∀ info ∈ s.queue, info.referencesResolved = true →
    LogItem.finished .referencesResolved info.id ∈ s.log
  unresolved : ∀ info ∈ s.queue, info.referencesResolved = false →
    LogItem.started .referencesResolved info.id ∈ s.log →
    ∃ f ∈ s.frames, f.running = some info.id
  posting : ∀ info ∈ s.queue, LogItem.started .postLoad info.id ∈ s.log →
    ∃ f ∈ s.frames, f.loop.isUpdate = true ∧ f.running = some info.id
  running : ∀ f ∈ s.frames, ∀ id, f.running = some id →
    f.allocation = s.allocation ∧ LogItem.started f.loop.stage id ∈ s.log ∧
      ∃ info, s.queue[f.it]? = some info ∧ info.id = id ∧
        info.referencesResolved = f.loop.isUpdate
  /-- only the loop on top can be between two rounds -/
  top : ∀ f below, s.frames = f :: below →
    (f.running = none → f.allocation = s.allocation ∧ f.it ≤ s.queue.length) ∧
      ∀ g ∈ below, g.running ≠ none
  distinct : s.frames.Pairwise fun f g => f.running ≠ none → f.running ≠ g.running
  /-- at most one update loop, and the flag says whether there is one -/
  updating : s.frames.Pairwise fun f g => ¬ (f.loop.isUpdate = true ∧ g.loop.isUpdate = true)
  flag : s.isRunningDeferredHandlers = s.frames.any fun f => f.loop.isUpdate

theorem Inv.init : Inv {} := by
  constructor <;> simp [Orderly]

variable {s : DeferredQueue}

/-- Entries are told apart by their ids. -/
theorem Inv.eq_of_id (h : s.Inv) {a b : ContainerCreationInfo} (ha : a ∈ s.queue)
    (hb : b ∈ s.queue) (hid : a.id = b.id) : a = b :=
  List.inj_on_of_nodup_map h.nodup ha hb hid

/-- Where a hook can be entered every loop is inside `RunHandler`. -/
theorem Inv.all_running (h : s.Inv) (hs : s.enterable = true) :
    ∀ f ∈ s.frames, f.running ≠ none := by
  intro f hf
  unfold enterable at hs
  split at hs
  · next hnil =>
      rw [hnil] at hf
      cases hf
  · next frame below hframes =>
      rw [hframes] at hf
      rcases List.mem_cons.mp hf with rfl | hf
      · rw [← Option.isSome_iff_ne_none]
        exact hs
      · exact (h.top frame below hframes).2 f hf

/-! ## Reading a partition -/

theorem Inv.readEbx {handled : Bool} {inst container : Nat} (h : s.Inv)
    (hs : s.enterable = true) (hsafe : s.safe (.readEbx handled inst container) = true) :
    (s.readEbx handled inst container).Inv := by
  cases handled with
  | false => exact h
  | true =>
      have hall := h.all_running hs
      set info : ContainerCreationInfo :=
        { runtimeDatabaseDomain := inst, container, referencesResolved := false, id := s.nextId }
      obtain ⟨cap, alloc, hpush, halloc⟩ : ∃ cap alloc,
          s.readEbx true inst container = { s with
            queue := s.queue ++ [info], nextId := s.nextId + 1
            capacity := cap, allocation := alloc } ∧
          (s.frames ≠ [] → alloc = s.allocation) := by
        unfold DeferredQueue.readEbx pushBack
        simp only [if_true]
        split
        · exact ⟨_, _, rfl, fun _ => rfl⟩
        · next hfull =>
            refine ⟨_, _, rfl, fun hne => ?_⟩
            cases hf : s.frames with
            | nil => exact absurd hf hne
            | cons f fs =>
                simp only [safe, hf, decide_eq_true_eq] at hsafe
                exact absurd hsafe hfull
      rw [hpush]
      have hnew : ∀ stage, LogItem.started stage s.nextId ∉ s.log := by
        intro stage hmem
        exact Nat.lt_irrefl _ (h.log_lt stage _ hmem)
      have hmem : ∀ {i : ContainerCreationInfo}, i ∈ s.queue ++ [info] → i ∈ s.queue ∨ i = info := by
        intro i hi
        simpa using hi
      constructor
      case sound => exact h.sound
      case orderly => exact h.orderly
      case ids_lt =>
        intro i hi
        rcases hmem hi with hi | rfl
        · exact Nat.lt_succ_of_lt (h.ids_lt i hi)
        · exact Nat.lt_succ_self _
      case log_lt =>
        intro stage id hlog
        exact Nat.lt_succ_of_lt (h.log_lt stage id hlog)
      case nodup =>
        rw [List.map_append, List.nodup_append]
        refine ⟨h.nodup, by simp, ?_⟩
        intro a ha b hb
        obtain ⟨i, hi, rfl⟩ := List.mem_map.mp ha
        have := h.ids_lt i hi
        simp only [List.map_cons, List.map_nil, List.mem_singleton] at hb
        subst hb
        exact Nat.ne_of_lt this
      case resolved =>
        intro i hi hres
        rcases hmem hi with hi | rfl
        · exact h.resolved i hi hres
        · cases hres
      case unresolved =>
        intro i hi hres hlog
        rcases hmem hi with hi | rfl
        · exact h.unresolved i hi hres hlog
        · exact absurd hlog (hnew _)
      case posting =>
        intro i hi hlog
        rcases hmem hi with hi | rfl
        · exact h.posting i hi hlog
        · exact absurd hlog (hnew _)
      case running =>
        intro f hf id hid
        obtain ⟨ha, hst, i, hi, hrest⟩ := h.running f hf id hid
        have hne : s.frames ≠ [] := List.ne_nil_of_mem hf
        refine ⟨ha.trans (halloc hne).symm, hst, i, ?_, hrest⟩
        rw [List.getElem?_append_left (List.getElem?_eq_some_iff.mp hi).1]
        exact hi
      case top =>
        intro f below hframes
        refine ⟨fun hnone => ?_, (h.top f below hframes).2⟩
        exact absurd hnone (hall f (by
          show f ∈ s.frames
          rw [show s.frames = f :: below from hframes]
          simp))
      case distinct => exact h.distinct
      case updating => exact h.updating
      case flag => exact h.flag

/-! ## Entering a loop -/

/-- A new loop on top, over a state that is otherwise the same. -/
theorem Inv.begin {loop : Loop} {flag : Bool} (h : s.Inv) (hs : s.enterable = true)
    (hupd : loop.isUpdate = true → ∀ f ∈ s.frames, f.loop.isUpdate = false)
    (hflag : flag = (loop.isUpdate || s.frames.any fun f => f.loop.isUpdate)) :
    ({ s with isRunningDeferredHandlers := flag }.begin loop).Inv := by
  have hall := h.all_running hs
  constructor
  case sound => exact h.sound
  case orderly => exact h.orderly
  case ids_lt => exact h.ids_lt
  case log_lt => exact h.log_lt
  case nodup => exact h.nodup
  case resolved => exact h.resolved
  case unresolved =>
    intro i hi hres hlog
    obtain ⟨f, hf, hrun⟩ := h.unresolved i hi hres hlog
    exact ⟨f, List.mem_cons_of_mem _ hf, hrun⟩
  case posting =>
    intro i hi hlog
    obtain ⟨f, hf, hrun⟩ := h.posting i hi hlog
    exact ⟨f, List.mem_cons_of_mem _ hf, hrun⟩
  case running =>
    intro f hf id hid
    rcases List.mem_cons.mp hf with rfl | hf
    · cases hid
    · exact h.running f hf id hid
  case top =>
    intro f below hframes
    cases hframes
    exact ⟨fun _ => ⟨rfl, Nat.zero_le _⟩, hall⟩
  case distinct =>
    refine List.pairwise_cons.mpr ⟨?_, h.distinct⟩
    intro f _ hne
    exact absurd rfl hne
  case updating =>
    refine List.pairwise_cons.mpr ⟨?_, h.updating⟩
    rintro f hf ⟨hl, hu⟩
    rw [hupd hl f hf] at hu
    cases hu
  case flag => exact hflag

theorem Inv.fetch {inst : Nat} {partitions : List Nat} (h : s.Inv) (hs : s.enterable = true) :
    (s.begin (.fetch inst partitions)).Inv := by
  have hfetch : (Loop.fetch inst partitions).isUpdate = true →
      ∀ f ∈ s.frames, f.loop.isUpdate = false := by
    intro hl
    cases hl
  exact h.begin hs hfetch h.flag

theorem Inv.update (h : s.Inv) (hs : s.enterable = true) : s.update.Inv := by
  unfold DeferredQueue.update
  split
  · exact h
  · next hflag =>
      have hnone : ∀ f ∈ s.frames, f.loop.isUpdate = false := by
        rw [h.flag] at hflag
        simpa using hflag
      exact h.begin hs (fun _ => hnone) rfl

/-! ## A round of a loop -/

section Round

variable {frame : Frame} {below : List Frame}

/-- Whoever is running is not the loop on top, while that is between rounds. -/
theorem mem_below {f : Frame} {id : Nat} (hf : f ∈ frame :: below) (hrun : f.running = some id)
    (htop : frame.running = none) : f ∈ below := by
  rcases List.mem_cons.mp hf with rfl | hf
  · rw [htop] at hrun
    cases hrun
  · exact hf

/-- The loop on top is replaced by one of its kind. -/
theorem Inv.updating_top (h : s.Inv) (hframes : s.frames = frame :: below) {frame' : Frame}
    (hloop : frame'.loop = frame.loop) : (frame' :: below).Pairwise fun f g =>
      ¬ (f.loop.isUpdate = true ∧ g.loop.isUpdate = true) := by
  have hupd := h.updating
  rw [hframes, List.pairwise_cons, ← hloop] at hupd
  exact List.pairwise_cons.mpr hupd

/-- The loop on top comes to the end of a round. -/
theorem Inv.distinct_top (h : s.Inv) (hframes : s.frames = frame :: below) {frame' : Frame}
    (hidle : frame'.running = none) : (frame' :: below).Pairwise fun f g =>
      f.running ≠ none → f.running ≠ g.running := by
  have hdist := h.distinct
  rw [hframes, List.pairwise_cons] at hdist
  exact List.pairwise_cons.mpr ⟨fun f _ hne => absurd hidle hne, hdist.2⟩

/-- The handlers that a round would start have not been started before. -/
theorem Inv.not_started (h : s.Inv) (hframes : s.frames = frame :: below)
    (htop : frame.running = none) (hsafe : s.safe .round = true) {info : ContainerCreationInfo}
    (hinfo : s.queue[frame.it]? = some info) (hsel : frame.loop.selects info = true) :
    LogItem.started frame.loop.stage info.id ∉ s.log ∧
      ∀ f ∈ below, f.running ≠ some info.id := by
  have hmem := List.mem_of_getElem? hinfo
  have hdist := h.updating
  simp only [safe, hframes, hinfo, hsel] at hsafe
  rw [hframes] at hdist
  cases hl : frame.loop with
  | fetch inst partitions =>
      have hno : ∀ f ∈ below, f.running ≠ some info.id := by
        simpa [hl, Loop.isUpdate] using hsafe
      refine ⟨?_, hno⟩
      intro hlog
      have hres : info.referencesResolved = false := by
        rw [hl] at hsel
        simp only [Loop.selects, Bool.and_eq_true, Bool.not_eq_true'] at hsel
        exact hsel.1.2
      obtain ⟨f, hf, hrun⟩ := h.unresolved info hmem hres hlog
      rw [hframes] at hf
      exact hno f (mem_below hf hrun htop) hrun
  | update =>
      have hres : info.referencesResolved = true := by
        rw [hl] at hsel
        exact hsel
      have hother : ∀ f ∈ below, f.loop.isUpdate = false := by
        intro f hf
        have := (List.pairwise_cons.mp hdist).1 f hf
        simpa [hl, Loop.isUpdate] using this
      constructor
      · intro hlog
        obtain ⟨f, hf, hupd, hrun⟩ := h.posting info hmem hlog
        rw [hframes] at hf
        rw [hother f (mem_below hf hrun htop)] at hupd
        cases hupd
      · -- A loop below is a fetch, and those run entries that are not resolved.
        intro f hf hrun
        obtain ⟨-, -, info', hinfo', hid, hres'⟩ :=
          h.running f (by rw [hframes]; exact List.mem_cons_of_mem _ hf) info.id hrun
        have heq := h.eq_of_id (List.mem_of_getElem? hinfo') hmem hid
        rw [hother f hf, heq, hres] at hres'
        cases hres'

/-- The handlers of an entry are started. -/
theorem Inv.start (h : s.Inv) (hframes : s.frames = frame :: below)
    (htop : frame.running = none) (hsafe : s.safe .round = true) {info : ContainerCreationInfo}
    (hinfo : s.queue[frame.it]? = some info) (hsel : frame.loop.selects info = true) :
    { s with frames := { frame with running := some info.id } :: below
             log := .started frame.loop.stage info.id :: s.log }.Inv := by
  obtain ⟨hfree, hbelow⟩ := h.top frame below hframes
  obtain ⟨hnot, hother⟩ := h.not_started hframes htop hsafe hinfo hsel
  have hmem := List.mem_of_getElem? hinfo
  have hdist := h.distinct
  have hflag := h.flag
  rw [hframes] at hdist hflag
  have hkept : ∀ {f id}, f ∈ s.frames → f.running = some id →
      f ∈ { frame with running := some info.id } :: below := by
    intro f id hf hrun
    rw [hframes] at hf
    exact List.mem_cons_of_mem _ (mem_below hf hrun htop)
  have hres : info.referencesResolved = frame.loop.isUpdate := by
    cases hl : frame.loop with
    | fetch inst partitions =>
        rw [hl] at hsel
        simp only [Loop.selects, Bool.and_eq_true, Bool.not_eq_true'] at hsel
        exact hsel.1.2
    | update =>
        rw [hl] at hsel
        exact hsel
  constructor
  case sound => exact h.sound
  case orderly =>
    refine ⟨h.orderly, hnot, ?_⟩
    intro hpost
    apply h.resolved info hmem
    rw [hres]
    cases hl : frame.loop with
    | fetch inst partitions =>
        rw [hl] at hpost
        cases hpost
    | update => rfl
  case ids_lt => exact h.ids_lt
  case log_lt =>
    intro stage id hlog
    rcases List.mem_cons.mp hlog with heq | hlog
    · cases heq
      exact h.ids_lt info hmem
    · exact h.log_lt stage id hlog
  case nodup => exact h.nodup
  case resolved =>
    intro i hi hi'
    exact List.mem_cons_of_mem _ (h.resolved i hi hi')
  case unresolved =>
    intro i hi hi' hlog
    rcases List.mem_cons.mp hlog with heq | hlog
    · refine ⟨_, List.mem_cons_self, ?_⟩
      injection heq with _ hid
      rw [hid]
    · obtain ⟨f, hf, hrun⟩ := h.unresolved i hi hi' hlog
      exact ⟨f, hkept hf hrun, hrun⟩
  case posting =>
    intro i hi hlog
    rcases List.mem_cons.mp hlog with heq | hlog
    · refine ⟨_, List.mem_cons_self, ?_⟩
      injection heq with hstage hid
      rw [hid]
      refine ⟨?_, rfl⟩
      cases hl : frame.loop with
      | fetch inst partitions =>
          rw [hl] at hstage
          cases hstage
      | update => rfl
    · obtain ⟨f, hf, hu, hrun⟩ := h.posting i hi hlog
      exact ⟨f, hkept hf hrun, hu, hrun⟩
  case running =>
    intro f hf id hid
    rcases List.mem_cons.mp hf with rfl | hf
    · cases hid
      exact ⟨(hfree htop).1, List.mem_cons_self, info, hinfo, rfl, hres⟩
    · obtain ⟨ha, hst, hrest⟩ := h.running f (by rw [hframes]; exact List.mem_cons_of_mem _ hf) id hid
      exact ⟨ha, List.mem_cons_of_mem _ hst, hrest⟩
  case top =>
    intro f fs hfs
    cases hfs
    exact ⟨fun hnone => absurd hnone (by simp), hbelow⟩
  case distinct =>
    refine List.pairwise_cons.mpr ⟨?_, (List.pairwise_cons.mp hdist).2⟩
    intro f hf _ heq
    exact hother f hf heq.symm
  case updating => exact h.updating_top hframes rfl
  case flag => exact hflag

/-- A loop between two rounds moves on, or ends. -/
theorem Inv.setTop {frames : List Frame} {flag : Bool} (h : s.Inv)
    (hframes : s.frames = frame :: below) (htop : frame.running = none)
    (hnew : frames = below ∨ ∃ it ≤ s.queue.length, frames = { frame with it } :: below)
    (hflag : flag = frames.any fun f => f.loop.isUpdate) :
    { s with frames, isRunningDeferredHandlers := flag }.Inv := by
  obtain ⟨hfree, hbelow⟩ := h.top frame below hframes
  have hdist := h.distinct
  have hupd := h.updating
  rw [hframes] at hdist hupd
  have hkept : ∀ {f id}, f ∈ s.frames → f.running = some id → f ∈ frames := by
    intro f id hf hrun
    rw [hframes] at hf
    have hb := mem_below hf hrun htop
    rcases hnew with rfl | ⟨it, -, rfl⟩
    · exact hb
    · exact List.mem_cons_of_mem _ hb
  constructor
  case sound => exact h.sound
  case orderly => exact h.orderly
  case ids_lt => exact h.ids_lt
  case log_lt => exact h.log_lt
  case nodup => exact h.nodup
  case resolved => exact h.resolved
  case unresolved =>
    intro i hi hi' hlog
    obtain ⟨f, hf, hrun⟩ := h.unresolved i hi hi' hlog
    exact ⟨f, hkept hf hrun, hrun⟩
  case posting =>
    intro i hi hlog
    obtain ⟨f, hf, hu, hrun⟩ := h.posting i hi hlog
    exact ⟨f, hkept hf hrun, hu, hrun⟩
  case running =>
    intro f hf id hid
    have hf' : f ∈ below := by
      rcases hnew with rfl | ⟨it, -, rfl⟩
      · exact hf
      · exact mem_below hf hid htop
    exact h.running f (by rw [hframes]; exact List.mem_cons_of_mem _ hf') id hid
  case top =>
    intro f fs hfs
    rcases hnew with rfl | ⟨it, hit, rfl⟩
    · have hall : ∀ g ∈ f :: fs, g.running ≠ none := hfs ▸ hbelow
      exact ⟨fun hnone => absurd hnone (hall f List.mem_cons_self),
        fun g hg => hall g (List.mem_cons_of_mem _ hg)⟩
    · cases hfs
      exact ⟨fun _ => ⟨(hfree htop).1, hit⟩, hbelow⟩
  case distinct =>
    rcases hnew with rfl | ⟨it, -, rfl⟩
    · exact (List.pairwise_cons.mp hdist).2
    · exact h.distinct_top hframes htop
  case updating =>
    rcases hnew with rfl | ⟨it, -, rfl⟩
    · exact (List.pairwise_cons.mp hupd).2
    · exact h.updating_top hframes rfl
  case flag => exact hflag

theorem Inv.round (h : s.Inv) (hframes : s.frames = frame :: below)
    (htop : frame.running = none) (hsafe : s.safe .round = true) : (s.round frame below).Inv := by
  obtain ⟨halloc, hle⟩ := (h.top frame below hframes).1 htop
  have hupd := h.updating
  have hflag := h.flag
  rw [hframes] at hupd hflag
  unfold DeferredQueue.round
  rw [if_neg (by simp [halloc])]
  split
  · next info hinfo =>
      have hlt := (List.getElem?_eq_some_iff.mp hinfo).1
      split
      · next hsel => exact h.start hframes htop hsafe hinfo hsel
      · exact h.setTop hframes htop (.inr ⟨frame.it + 1, hlt, rfl⟩) hflag
  · next hnone =>
      rw [if_pos (Nat.le_antisymm hle (List.getElem?_eq_none_iff.mp hnone))]
      refine h.setTop hframes htop (.inl rfl) ?_
      cases hl : frame.loop with
      | fetch inst partitions =>
          rw [hflag]
          simp [hl, Loop.isUpdate]
      | update =>
          have hother : ∀ f ∈ below, f.loop.isUpdate = false := by
            intro f hf
            have := (List.pairwise_cons.mp hupd).1 f hf
            simpa [hl, Loop.isUpdate] using this
          simpa using hother

/-! ## RunHandler returns -/

theorem mem_started_iff {stage : LoadStage} {id id' : Nat} {item : LogItem} {l : List LogItem}
    {stage' : LoadStage} (hitem : item = .flagged id' ∨ item = .left id') :
    LogItem.started stage id ∈ item :: .finished stage' id' :: l ↔ .started stage id ∈ l := by
  rcases hitem with rfl | rfl <;> simp

/-- The entries around the one at an index. -/
theorem queue_split {i : Nat} {info : ContainerCreationInfo} (h : s.queue[i]? = some info) :
    s.queue = s.queue.take i ++ info :: s.queue.drop (i + 1) := by
  obtain ⟨hlt, rfl⟩ := List.getElem?_eq_some_iff.mp h
  rw [List.getElem_cons_drop hlt, List.take_append_drop]

theorem mem_set_iff {i : Nat} {info new j : ContainerCreationInfo}
    (h : s.queue[i]? = some info) :
    j ∈ s.queue.set i new ↔ j = new ∨ j ∈ s.queue.eraseIdx i := by
  have hlt := (List.getElem?_eq_some_iff.mp h).1
  rw [List.set_eq_take_append_cons_drop, if_pos hlt, List.eraseIdx_eq_take_drop_succ]
  simp only [List.mem_append, List.mem_cons]
  tauto

/-- The other entries have other ids. -/
theorem Inv.id_ne (h : s.Inv) {i : Nat} {info j : ContainerCreationInfo}
    (hinfo : s.queue[i]? = some info) (hj : j ∈ s.queue.eraseIdx i) : j.id ≠ info.id := by
  have hnd := h.nodup
  rw [queue_split hinfo, List.map_append, List.map_cons, List.nodup_middle] at hnd
  rw [List.eraseIdx_eq_take_drop_succ] at hj
  intro heq
  refine (List.nodup_cons.mp hnd).1 ?_
  rw [← heq, ← List.map_append]
  exact List.mem_map_of_mem hj

/-- The fetch loop sets the flag of the entry it has run the handlers of. -/
theorem Inv.flagged {inst id : Nat} {partitions : List Nat} (h : s.Inv)
    (hframes : s.frames = frame :: below) (hrun : frame.running = some id)
    (hl : frame.loop = .fetch inst partitions) {info : ContainerCreationInfo}
    (hinfo : s.queue[frame.it]? = some info) (hid : info.id = id) :
    { s with queue := s.queue.set frame.it { info with referencesResolved := true }
             frames := { frame with running := none } :: below
             log := .flagged info.id :: .finished .referencesResolved id :: s.log }.Inv := by
  subst hid
  obtain ⟨-, hbelow⟩ := h.top frame below hframes
  obtain ⟨halloc, hst, -⟩ := h.running frame (by rw [hframes]; exact List.mem_cons_self) _ hrun
  rw [hl] at hst
  have hlt := (List.getElem?_eq_some_iff.mp hinfo).1
  have hdist := h.distinct
  have hflag := h.flag
  rw [hframes] at hdist hflag
  have hids : (s.queue.set frame.it { info with referencesResolved := true }).map
      ContainerCreationInfo.id = s.queue.map ContainerCreationInfo.id := by
    conv_rhs => rw [queue_split hinfo]
    rw [List.set_eq_take_append_cons_drop, if_pos hlt]
    simp
  have hsubset : ∀ {i}, i ∈ s.queue.eraseIdx frame.it → i ∈ s.queue :=
    List.mem_of_mem_eraseIdx
  have hstarted : ∀ stage i, LogItem.started stage i ∈
      LogItem.flagged info.id :: .finished .referencesResolved info.id :: s.log →
      .started stage i ∈ s.log := fun stage i => (mem_started_iff (.inl rfl)).mp
  constructor
  case sound => exact h.sound
  case orderly => exact ⟨⟨h.orderly, hst⟩, rfl⟩
  case ids_lt =>
    intro i hi
    rcases (mem_set_iff hinfo).mp hi with rfl | hi
    · exact h.ids_lt info (List.mem_of_getElem? hinfo)
    · exact h.ids_lt i (hsubset hi)
  case log_lt =>
    intro stage i hlog
    exact h.log_lt stage i (hstarted stage i hlog)
  case nodup =>
    show (List.map _ (s.queue.set _ _)).Nodup
    rw [hids]
    exact h.nodup
  case resolved =>
    intro i hi hres
    rcases (mem_set_iff hinfo).mp hi with rfl | hi
    · exact List.mem_cons_of_mem _ List.mem_cons_self
    · exact List.mem_cons_of_mem _ (List.mem_cons_of_mem _ (h.resolved i (hsubset hi) hres))
  case unresolved =>
    intro i hi hres hlog
    rcases (mem_set_iff hinfo).mp hi with rfl | hi
    · cases hres
    · obtain ⟨f, hf, hfrun⟩ := h.unresolved i (hsubset hi) hres (hstarted _ _ hlog)
      rw [hframes] at hf
      rcases List.mem_cons.mp hf with rfl | hf
      · rw [hrun] at hfrun
        exact absurd (Option.some.inj hfrun).symm (h.id_ne hinfo hi)
      · exact ⟨f, List.mem_cons_of_mem _ hf, hfrun⟩
  case posting =>
    intro i hi hlog
    have hi' : ∃ j ∈ s.queue, j.id = i.id := by
      rcases (mem_set_iff hinfo).mp hi with rfl | hi
      · exact ⟨info, List.mem_of_getElem? hinfo, rfl⟩
      · exact ⟨i, hsubset hi, rfl⟩
    obtain ⟨j, hj, hji⟩ := hi'
    rw [← hji] at hlog ⊢
    obtain ⟨f, hf, hu, hfrun⟩ := h.posting j hj (hstarted _ _ hlog)
    rw [hframes] at hf
    rcases List.mem_cons.mp hf with rfl | hf
    · rw [hl] at hu
      cases hu
    · exact ⟨f, List.mem_cons_of_mem _ hf, hu, hfrun⟩
  case running =>
    intro f hf i hfrun
    rcases List.mem_cons.mp hf with rfl | hf
    · cases hfrun
    · obtain ⟨ha, hfst, info', hinfo', hid', hres'⟩ :=
        h.running f (by rw [hframes]; exact List.mem_cons_of_mem _ hf) i hfrun
      -- Another loop inside `RunHandler` is there for another entry.
      have hne : frame.it ≠ f.it := by
        intro heq
        rw [← heq, hinfo] at hinfo'
        cases hinfo'
        have := (List.pairwise_cons.mp hdist).1 f hf (by simp [hrun])
        rw [hrun, hfrun, hid'] at this
        exact this rfl
      refine ⟨ha, List.mem_cons_of_mem _ (List.mem_cons_of_mem _ hfst), info', ?_, hid', hres'⟩
      show (s.queue.set _ _)[f.it]? = _
      rw [List.getElem?_set_ne hne]
      exact hinfo'
  case top =>
    intro f fs hfs
    cases hfs
    refine ⟨fun _ => ⟨halloc, ?_⟩, hbelow⟩
    show frame.it ≤ (s.queue.set _ _).length
    rw [List.length_set]
    exact Nat.le_of_lt hlt
  case distinct => exact h.distinct_top hframes rfl
  case updating => exact h.updating_top hframes rfl
  case flag => exact hflag

/-- The update loop erases the entry it has run the handlers of. -/
theorem Inv.erased {id : Nat} (h : s.Inv) (hframes : s.frames = frame :: below)
    (hrun : frame.running = some id) (hl : frame.loop = .update)
    (hbehind : ∀ f ∈ below, f.it < frame.it) {info : ContainerCreationInfo}
    (hinfo : s.queue[frame.it]? = some info) (hid : info.id = id) :
    { s with queue := s.queue.eraseIdx frame.it
             frames := { frame with running := none } :: below
             log := .left info.id :: .finished .postLoad id :: s.log }.Inv := by
  subst hid
  obtain ⟨-, hbelow⟩ := h.top frame below hframes
  obtain ⟨halloc, hst, -⟩ := h.running frame (by rw [hframes]; exact List.mem_cons_self) _ hrun
  rw [hl] at hst
  have hlt := (List.getElem?_eq_some_iff.mp hinfo).1
  have hflag := h.flag
  rw [hframes] at hflag
  have hsubset : ∀ {i}, i ∈ s.queue.eraseIdx frame.it → i ∈ s.queue :=
    List.mem_of_mem_eraseIdx
  have hstarted : ∀ stage i, LogItem.started stage i ∈
      LogItem.left info.id :: .finished .postLoad info.id :: s.log →
      .started stage i ∈ s.log := fun stage i => (mem_started_iff (.inr rfl)).mp
  -- The frame that was running the erased entry runs no entry that is left.
  have hkept : ∀ {f i}, f ∈ s.frames → i ∈ s.queue.eraseIdx frame.it →
      f.running = some i.id → f ∈ { frame with running := none } :: below := by
    intro f i hf hi hfrun
    rw [hframes] at hf
    rcases List.mem_cons.mp hf with rfl | hf
    · rw [hrun] at hfrun
      exact absurd (Option.some.inj hfrun).symm (h.id_ne hinfo hi)
    · exact List.mem_cons_of_mem _ hf
  constructor
  case sound => exact h.sound
  case orderly => exact ⟨⟨h.orderly, hst⟩, List.mem_cons_self⟩
  case ids_lt =>
    intro i hi
    exact h.ids_lt i (hsubset hi)
  case log_lt =>
    intro stage i hlog
    exact h.log_lt stage i (hstarted stage i hlog)
  case nodup => exact h.nodup.sublist ((List.eraseIdx_sublist _ _).map _)
  case resolved =>
    intro i hi hres
    exact List.mem_cons_of_mem _ (List.mem_cons_of_mem _ (h.resolved i (hsubset hi) hres))
  case unresolved =>
    intro i hi hres hlog
    obtain ⟨f, hf, hfrun⟩ := h.unresolved i (hsubset hi) hres (hstarted _ _ hlog)
    exact ⟨f, hkept hf hi hfrun, hfrun⟩
  case posting =>
    intro i hi hlog
    obtain ⟨f, hf, hu, hfrun⟩ := h.posting i (hsubset hi) (hstarted _ _ hlog)
    exact ⟨f, hkept hf hi hfrun, hu, hfrun⟩
  case running =>
    intro f hf i hfrun
    rcases List.mem_cons.mp hf with rfl | hf
    · cases hfrun
    · obtain ⟨ha, hfst, info', hinfo', hrest⟩ :=
        h.running f (by rw [hframes]; exact List.mem_cons_of_mem _ hf) i hfrun
      refine ⟨ha, List.mem_cons_of_mem _ (List.mem_cons_of_mem _ hfst), info', ?_, hrest⟩
      show (s.queue.eraseIdx _)[f.it]? = _
      rw [List.getElem?_eraseIdx_of_lt (hbehind f hf)]
      exact hinfo'
  case top =>
    intro f fs hfs
    cases hfs
    refine ⟨fun _ => ⟨halloc, ?_⟩, hbelow⟩
    show frame.it ≤ (s.queue.eraseIdx _).length
    rw [List.length_eraseIdx_of_lt hlt]
    omega
  case distinct => exact h.distinct_top hframes rfl
  case updating => exact h.updating_top hframes rfl
  case flag => exact hflag

theorem Inv.handlerDone {id : Nat} (h : s.Inv) (hframes : s.frames = frame :: below)
    (hrun : frame.running = some id) (hsafe : s.safe .handlerDone = true) :
    (s.handlerDone frame id below).Inv := by
  obtain ⟨halloc, -, info, hinfo, hid, -⟩ :=
    h.running frame (by rw [hframes]; exact List.mem_cons_self) id hrun
  simp only [safe, hframes] at hsafe
  unfold DeferredQueue.handlerDone
  simp only [halloc, hinfo, ne_eq, not_true_eq_false, if_false]
  cases hl : frame.loop with
  | fetch inst partitions =>
      have hdone := h.flagged hframes hrun hl hinfo hid
      rw [hl, halloc] at hdone
      exact hdone
  | update =>
      have hbehind : ∀ f ∈ below, f.it < frame.it := by
        simpa [hl, Loop.isUpdate] using hsafe
      have hdone := h.erased hframes hrun hl hbehind hinfo hid
      rw [hl, halloc] at hdone
      exact hdone

end Round

/-- A safe step keeps the invariant. -/
theorem Inv.step {s' : DeferredQueue} {e : DeferredEvent} (h : s.Inv) (hsafe : s.safe e = true)
    (hstep : s.step e = some s') : s'.Inv := by
  unfold DeferredQueue.step at hstep
  rw [if_neg (by simp [h.sound])] at hstep
  split at hstep
  · split at hstep
    · next hs =>
        cases hstep
        exact h.readEbx hs hsafe
    · cases hstep
  · split at hstep
    · next hs =>
        cases hstep
        exact h.fetch hs
    · cases hstep
  · split at hstep
    · next hs =>
        cases hstep
        exact h.update hs
    · cases hstep
  · next frame below hframes =>
      split at hstep
      · next htop =>
          cases hstep
          exact h.round hframes htop hsafe
      · cases hstep
  · next frame below hframes =>
      split at hstep
      · cases hstep
      · next id hrun =>
          cases hstep
          exact h.handlerDone hframes hrun hsafe
  · cases hstep
  · cases hstep

end DeferredQueue

open DeferredQueue

/-- In every run whose steps are all safe, every state is reached without a
fault and with the handlers in order. -/
theorem orderly_of_safe (events : List DeferredEvent)
    (hsafe : ∀ m ∈ moves step {} events, m.1.safe m.2 = true) :
    ∀ s ∈ visits step {} events, s.faulted = false ∧ Orderly s.log := by
  intro s hs
  have h := forall_visits_of_forall_moves Inv (fun s e => s.safe e = true)
    (fun h hsafe hstep => h.step hsafe hstep) Inv.init events hsafe s hs
  exact ⟨h.sound, h.orderly⟩

/-- Two containers are deferred and resolved in one fetch. The handlers of the
second one need an update, which finishes the first. -/
def nestedUpdateRun : List DeferredEvent :=
  [.readEbx true 0 10, .readEbx true 0 11, .readEbx true 0 12,
    .fetch 0 [10, 11], .round, .handlerDone, .round, .round,
    .update, .round, .handlerDone, .round, .round, .round, .handlerDone]

/-- What the fetch loop then flags is the third one. -/
theorem nestedUpdate_flags_wrong_entry :
    ∃ s, exec step {} nestedUpdateRun = some s ∧
      s.log.take 2 = [.flagged 2, .finished .referencesResolved 1] ∧
      ¬ ∀ t ∈ visits step {} nestedUpdateRun, t.faulted = false ∧ Orderly t.log := by
  have h : (exec step {} nestedUpdateRun).map DeferredQueue.log = some
      [.flagged 2, .finished .referencesResolved 1, .left 0, .finished .postLoad 0,
        .started .postLoad 0, .started .referencesResolved 1, .flagged 0,
        .finished .referencesResolved 0, .started .referencesResolved 0] := by decide
  obtain ⟨s, hs, hlog⟩ := Option.map_eq_some_iff.mp h
  refine ⟨s, hs, by rw [hlog]; rfl, ?_⟩
  intro hall
  have horderly := (hall s (mem_visits_of_exec hs)).2
  rw [hlog] at horderly
  exact absurd horderly.2 (by decide)

/-- A run with a nested read and a nested update that is safe: the vector has
room, and what the update erases is behind the entry that is running. -/
theorem orderly_of_safe_nested :
    let events : List DeferredEvent :=
      [.readEbx true 0 10, .readEbx true 0 11, .readEbx true 0 12, .readEbx true 0 13,
        .readEbx true 0 14, .fetch 0 [11], .round, .round, .handlerDone, .round, .round, .round,
        .round, .round, .fetch 0 [10], .round, .readEbx true 0 15, .update, .round, .round,
        .handlerDone, .round, .round, .round, .round, .round, .handlerDone]
    (exec step {} events).isSome = true ∧
      ∀ s ∈ visits step {} events, s.faulted = false ∧ Orderly s.log :=
  ⟨by decide, orderly_of_safe _ (by decide)⟩

end Kyber.ModLoader
