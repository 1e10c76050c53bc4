import Kyber.Proofs.Listing
import Mathlib.Tactic.Ring

/-!
# Stale servers

A clean-up reads which servers have not been heard of since its cutoff, and deletes
these in a second call, by their ids. In between a server may report again. When no
server does that is still to be deleted, every server is deleted with a date that
is older than the cutoff, however many clean-ups are on their way.
-/

namespace Kyber.Api.Listing

open Kyber.Lib Prog

/-- The servers that a step deletes. -/
def deleted (sys : ListingSystem) : ListingAction → List ServerDocument
  | .run i outcome =>
      match sys.tasks[i]? with
      | some (.call (.deleteServers ids) _) =>
          if outcome = .failed then [] else sys.store.servers.filter (ids.contains ·.id)
      | _ => []
  | _ => []

/-- What the step deletes is older than the cutoff of its clean-up. -/
def DeletesStale (sys : ListingSystem) (a : ListingAction) : Prop :=
  ∀ server ∈ deleted sys a, ∃ (i : Nat) (outcome : Outcome) (now : Instant), a = .run i outcome ∧
    sys.requests[i]? = some (.cleanup now) ∧ server.lastUpdated < cutoff now

/-- The server that a step stores a date for, and the date. -/
def stamped (sys : ListingSystem) : ListingAction → Option (String × Time)
  | .run i outcome =>
      match sys.tasks[i]? with
      | some (.call (.updateServer id update) _) =>
          if outcome = .failed then none else some (id, update.now)
      | some (.call (.createServer server) _) =>
          if outcome = .failed then none else some (server.id, server.lastUpdated)
      | _ => none
  | _ => none

/-- The cutoff of a clean-up that is about to delete the server. -/
def dooms (id : String) (r : Request) (q : Task) : Option Time :=
  match r, q with
  | .cleanup now, .call (.deleteServers ids) _ =>
      if ids.contains id then some (cutoff now) else none
  | _, _ => none

/-- A step must not store a date for a server that a clean-up is about to delete,
unless this date is older than its cutoff as well. -/
def spares (sys : ListingSystem) (a : ListingAction) : Bool :=
  match stamped sys a with
  | none => true
  | some (id, date) =>
      (List.range sys.requests.length).all fun j =>
        (((sys.requests[j]?).bind fun r => (sys.tasks[j]?).bind (dooms id r)).all (date < ·))

theorem lt_of_spares {sys : ListingSystem} {a : ListingAction} (hspares : spares sys a = true)
    {id : String} {date : Time} (hstamped : stamped sys a = some (id, date)) {j : Nat}
    {now : Instant} {ids : List String} {k : Except DbError Unit → Task}
    (hr : sys.requests[j]? = some (.cleanup now))
    (hq : sys.tasks[j]? = some (.call (.deleteServers ids) k)) (hid : id ∈ ids) :
    date < cutoff now := by
  obtain ⟨hlt, -⟩ := List.getElem?_eq_some_iff.mp hr
  rw [spares, hstamped] at hspares
  have h := List.all_eq_true.mp hspares j (List.mem_range.mpr hlt)
  simpa [hr, hq, dooms, hid] using h

/-- What a clean-up is about to delete is older than its cutoff. -/
def Doomed (db : Database) (r : Request) (q : Task) : Prop :=
  ∀ now ids k, r = .cleanup now → q = .call (.deleteServers ids) k →
    ∀ server ∈ db.servers, server.id ∈ ids → server.lastUpdated < cutoff now

/-- A clean-up that is about to delete servers has only read them. -/
theorem cleanup_path {now : Instant} {ids : List String} {k : Except DbError Unit → Task}
    {cs : List ((q : Query) × Except DbError q.Result)}
    (h : Path (cleanupStaleServers now) cs (.call (.deleteServers ids) k)) :
    ∃ servers, cs = [⟨.serversBefore (cutoff now), .ok servers⟩] ∧ ids = servers.map (·.id) := by
  rcases path_call h with ⟨-, hq⟩ | ⟨a, cs', rfl, hpath⟩
  · cases hq
  cases a with
  | error e => cases (path_ret hpath).2
  | ok servers =>
      simp only at hpath
      split at hpath
      · cases (path_ret hpath).2
      rcases path_call hpath with ⟨rfl, hq⟩ | ⟨a, cs', -, hpath⟩
      · cases hq
        exact ⟨servers, rfl, rfl⟩
      · cases (path_ret hpath).2

variable {lib : Libraries} {sys sys' : ListingSystem} {a : ListingAction}

/-- A clean-up is about to delete what it has just read to be stale. -/
theorem doomed_run {i : Nat} {outcome : Outcome} {q : Query}
    {k : Except DbError q.Result → Task} {r : Request}
    (htraced : System.Traced (service lib) sys)
    (hkeys : (sys.store.servers.map (·.id)).Nodup) (hr : sys.requests[i]? = some r)
    (hi : sys.tasks[i]? = some (.call q k)) :
    Doomed (sys.store.serve outcome q).1 r (k (sys.store.serve outcome q).2) := by
  rintro now ids k' rfl hq server hserver hid
  have hpath := (htraced.path i _ _ hr hi).snoc (sys.store.serve outcome q).2
  rw [hq] at hpath
  obtain ⟨servers, hcs, rfl⟩ := cleanup_path hpath
  -- The clean-up has made one call, and it is the one of this step.
  have hlast : _ ++ [_] = [] ++ [_] := hcs
  obtain ⟨-, hcall⟩ := List.append_inj' hlast rfl
  rw [List.cons.injEq, Sigma.mk.injEq] at hcall
  obtain ⟨⟨rfl, hanswer⟩, -⟩ := hcall
  cases outcome with
  | failed | unacknowledged => cases hanswer
  | answered =>
      cases hanswer
      obtain ⟨other, hother, heq⟩ := List.mem_map.mp hid
      rw [List.mem_filter, decide_eq_true_eq] at hother
      have hfound := find?_key hkeys hother.1
      have hserver' := find?_key hkeys hserver
      rw [← heq, hfound] at hserver'
      cases hserver'
      exact hother.2

/-- What the other calls do to the servers. -/
theorem doomed_other {i : Nat} {outcome : Outcome} {q : Query}
    {k : Except DbError q.Result → Task} {r : Request} {p : Task} {j : Nat}
    (hspares : spares sys (.run i outcome) = true) (hi : sys.tasks[i]? = some (.call q k))
    (hr : sys.requests[j]? = some r) (hp : sys.tasks[j]? = some p) (h : Doomed sys.store r p) :
    Doomed (sys.store.serve outcome q).1 r p := by
  rintro now ids k' rfl rfl server hserver hid
  rcases Database.mem_servers_serve hserver with hold | ⟨hne, hnew⟩
  · exact h now ids k' rfl rfl server hold hid
  · rcases hnew with ⟨id, update, old, rfl, hmem, rfl, rfl⟩ | rfl
    · rw [ServerUpdate.apply_lastUpdated]
      rw [ServerUpdate.apply_id] at hid
      exact lt_of_spares hspares (by simp [stamped, hi, hne]) hr hp hid
    · exact lt_of_spares hspares (by simp [stamped, hi, hne]) hr hp hid

/-- Only clean-ups delete servers. -/
theorem cleanup_of_deletes {i : Nat} {ids : List String} {k : Except DbError Unit → Task}
    (htraced : System.Traced (service lib) sys)
    (hi : sys.tasks[i]? = some (.call (.deleteServers ids) k)) :
    ∃ now, sys.requests[i]? = some (.cleanup now) := by
  obtain ⟨r, hr⟩ := htraced.request_of_task hi
  have hmay := r.handler_makes lib _ _ _ (htraced.path i r _ hr hi)
  cases r with
  | cleanup now => exact ⟨now, hr⟩
  | _ => cases hmay

/-- What a run keeps whose steps spare the servers that are about to be deleted. -/
structure Sparing (lib : Libraries) (sys : ListingSystem) : Prop where
  traced : System.Traced (service lib) sys
  keys : (sys.store.servers.map (·.id)).Nodup
  doomed : sys.ForallTasks Doomed

theorem Sparing.step (h : Sparing lib sys) (hspares : spares sys a = true)
    (hstep : (service lib).step sys a = some sys') : Sparing lib sys' where
  traced := h.traced.step hstep
  keys := servers_keys_step h.keys hstep
  doomed := by
    refine h.traced.forallTasks_step hstep h.doomed ?_ ?_ ?_ ?_
    · rintro r now ids k rfl hq
      cases hq
    · rintro i outcome q k r - hr hi
      exact doomed_run h.traced h.keys hr hi
    · rintro i outcome q k rfl hi j r p hr hp hdoomed
      exact doomed_other hspares hi hr hp hdoomed
    · rintro e - r q hdoomed now ids k hr hq server hserver hid
      refine hdoomed now ids k hr hq server ?_ hid
      cases e <;> exact hserver

theorem Sparing.deletesStale (h : Sparing lib sys) (a : ListingAction) : DeletesStale sys a := by
  intro server hserver
  cases a with
  | run i outcome =>
      simp only [deleted] at hserver
      split at hserver
      · next ids k hi =>
          split at hserver
          · cases hserver
          rw [List.mem_filter, List.contains_iff_mem] at hserver
          obtain ⟨now, hr⟩ := cleanup_of_deletes h.traced hi
          exact ⟨i, outcome, now, rfl, hr,
            h.doomed i _ _ hr hi now ids k rfl rfl server hserver.1 hserver.2⟩
      · cases hserver
  | request r => cases hserver
  | change e => cases hserver

/-- In a run whose steps spare the servers that clean-ups are about to delete, every
server that is deleted is older than the cutoff of the clean-up that deletes it. -/
theorem cleanup_run (lib : Libraries) {db : Database} (hkeys : (db.servers.map (·.id)).Nodup)
    (as : List ListingAction)
    (hspares : ∀ m ∈ moves (service lib).step { store := db } as, spares m.1 m.2 = true) :
    ∀ m ∈ moves (service lib).step { store := db } as, DeletesStale m.1 m.2 := by
  have hinit : Sparing lib { store := db } := by
    refine ⟨.init _ _, hkeys, ?_⟩
    intro i r q hr
    simp at hr
  intro m hm
  have h := forall_visits_of_forall_moves (Sparing lib) (fun sys a => spares sys a = true)
    (fun h hspares hstep => h.step hspares hstep) hinit as hspares _ (mem_visits_of_mem_moves hm)
  exact h.deletesStale m.2

/-! ## A server that reports in between -/

/-- No word is profane, and a picture is its own hash. -/
def plainLibraries : Libraries where
  isProfane _ := false
  imageHash bytes := String.ofList (bytes.map fun b => Char.ofNat b.toNat)

/-- A listed server that was last heard of at the time 0. -/
def listedServer : ServerDocument where
  id := "s"
  name := "Server"
  password := none
  hostID := "h"
  playerCount := 0
  maxPlayerCount := 40
  official := false
  lastUpdated := 0
  proxyToken := ""
  description := none
  levelSetup := { map := "m", mode := "n", mapName := some "Map", modeName := some "Mode",
                  imageHash := none }
  explodedMods := [{ name := "mod", version := "1" }]
  hostToken := "t"

def listedDatabase : Database where
  users := [{ id := "h", token := "t", name := "Host" }]
  servers := [listedServer]

/-- A minute later. -/
def minute : Instant := 60 * 1000000000

/-- The clean-up runs, and the server reports afterwards. -/
def quietCleanup : List ListingAction :=
  [.request (.cleanup minute), .run 0 .answered, .run 0 .answered,
    .request (.serverEvent "s" none minute), .run 1 .answered]

theorem quietCleanup_deletes :
    ∃ m ∈ moves (service plainLibraries).step { store := listedDatabase } quietCleanup,
      deleted m.1 m.2 = [listedServer] ∧ DeletesStale m.1 m.2 := by
  have hspares : (moves (service plainLibraries).step { store := listedDatabase }
      quietCleanup).all (fun m => spares m.1 m.2) = true := by decide
  have hfound : ((moves (service plainLibraries).step { store := listedDatabase }
      quietCleanup)[2]?).map (fun m => deleted m.1 m.2) = some [listedServer] := by decide
  obtain ⟨m, hm, hdeleted⟩ := Option.map_eq_some_iff.mp hfound
  have hmem := List.mem_of_getElem? hm
  exact ⟨m, hmem, hdeleted, cleanup_run plainLibraries (by decide) quietCleanup
    (List.all_eq_true.mp hspares) m hmem⟩

/-- The server reports after the clean-up has read. -/
def racingCleanup : List ListingAction :=
  [.request (.cleanup minute), .run 0 .answered, .request (.serverEvent "s" none minute),
    .run 1 .answered, .run 0 .answered]

/-- It is deleted with the date of the report. -/
theorem racingCleanup_deletes :
    ∃ m ∈ moves (service plainLibraries).step { store := listedDatabase } racingCleanup,
      ¬ DeletesStale m.1 m.2 := by
  have hfound : ((moves (service plainLibraries).step { store := listedDatabase }
      racingCleanup)[4]?).map (fun m => ((deleted m.1 m.2).map (·.lastUpdated), m.1.requests))
      = some ([dateOf minute], [.cleanup minute, .serverEvent "s" none minute]) := by
    decide
  obtain ⟨m, hm, heq⟩ := Option.map_eq_some_iff.mp hfound
  rw [Prod.mk.injEq] at heq
  refine ⟨m, List.mem_of_getElem? hm, fun hstale => ?_⟩
  obtain ⟨server, hserver, hdate⟩ := List.mem_map.mp (heq.1 ▸ List.mem_singleton_self _)
  obtain ⟨i, outcome, now, -, hr, hlt⟩ := hstale server hserver
  have hmem := List.mem_of_getElem? hr
  simp only [heq.2, List.mem_cons, Request.cleanup.injEq, reduceCtorEq, List.not_mem_nil,
    or_false] at hmem
  rw [hdate, hmem] at hlt
  exact absurd hlt (by decide)

end Kyber.Api.Listing
