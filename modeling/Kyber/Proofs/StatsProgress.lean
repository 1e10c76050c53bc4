import Kyber.Lib.Maps
import Kyber.Persistence.PersistenceManager
import Mathlib.Data.List.Dedup

/-!
# What becomes of a player's statistics

An update of the statistics is refused if it has fewer names than are stored, and otherwise takes
their place. That it has as many does not mean that it has the same, so names are lost exactly if
some of them are not in the request (`update_keepsKeys_iff`).

The server, for its part, only sends the names whose values differ from their reference. However
many are stored, a player whose values have come back to it sends fewer, and the save is refused
(`saveAccepted_iff`).
-/

namespace Kyber.Api

open Kyber.Lib

section

variable {φ : Type} {st st' : StatsStore φ} {outcomes : List Outcome}

/-! ## Updates -/

namespace StatsStore

/-- A call that is answered has had its effect. -/
theorem serveNext_of_ok {op : StatsOp φ} {a : op.Result}
    (h : (serveNext (st, outcomes) op).2 = .ok a) :
    (st.perform op).2 = .ok a ∧
      serveNext (st, outcomes) op = (((st.perform op).1, outcomes.tail), .ok a) := by
  unfold serveNext serve at h ⊢
  cases houtcome : outcomes.headD .answered with
  | answered =>
      simp only [houtcome] at h ⊢
      exact ⟨h, by rw [h]⟩
  | failed =>
      rw [houtcome] at h
      cases h
  | unacknowledged =>
      rw [houtcome] at h
      cases h

/-- A call that reads leaves the store. -/
theorem serveNext_fst (op : StatsOp φ) (h : (st.perform op).1 = st) :
    (serveNext (st, outcomes) op).1 = (st, outcomes.tail) := by
  unfold serveNext serve
  cases outcomes.headD .answered with
  | answered => exact congrArg (·, outcomes.tail) h
  | failed => rfl
  | unacknowledged => exact congrArg (·, outcomes.tail) h

end StatsStore

open StatsStore

variable {owner : UserModel} {req : UpdateStatsRequest φ}

theorem storeStats_ok {user : UserModel} (hsource : req.source = .kyber)
    (h : ((storeStats owner user req).eval serveNext (st, outcomes)).2 = .ok ()) :
    ((storeStats owner user req).eval serveNext (st, outcomes)).1.1.stats =
      st.stats.insert (statsKey "" user.id .kyber)
        { userID := user.id, source := .kyber, stats := req.stats } := by
  unfold storeStats at h ⊢
  rw [Prog.eval_call] at h ⊢
  rw [hsource] at h ⊢
  cases hans : (serveNext (st, outcomes) (.upsert owner.id user.id .kyber req.stats)).2 with
  | error e =>
      simp only [ProtoStatsSource.toModel, hans] at h
      cases h
  | ok a =>
      simp only [ProtoStatsSource.toModel, (serveNext_of_ok hans).2]
      rfl

/-- What an update that succeeds has stored, and for whom. -/
theorem update_ok (h : (st.update owner req outcomes).2 = .ok ()) :
    (st.update owner req outcomes).1.stats =
      st.stats.insert (statsKey "" req.user .kyber)
        { userID := req.user, source := .kyber, stats := req.stats } := by
  unfold StatsStore.update updateStats at h ⊢
  dsimp only at h ⊢
  by_cases hsource : req.source = .kyber
  · rw [if_neg (not_not.mpr hsource), Prog.eval_call,
      serveNext_fst (.userByID req.user) rfl] at h ⊢
    cases huser : (serveNext (st, outcomes) (.userByID req.user)).2 with
    | error e =>
        rw [huser] at h
        cases h
    | ok found =>
        cases found with
        | none =>
            rw [huser] at h
            cases h
        | some user =>
            have hid : user.id = req.user := by
              have hfind := List.find?_some (Except.ok.inj (serveNext_of_ok huser).1)
              exact beq_iff_eq.mp hfind
            rw [huser] at h
            dsimp only at h ⊢
            by_cases hentitled : owner.entitled .officialStats = true
            · rw [hentitled, Bool.not_true, if_neg Bool.false_ne_true, Prog.eval_call,
                serveNext_fst (.get user.id .kyber) rfl] at h ⊢
              cases hget : (serveNext (st, outcomes.tail) (.get user.id .kyber)).2 with
              | error e =>
                  rw [hget] at h
                  rw [storeStats_ok hsource h, hid]
              | ok stored =>
                  cases stored with
                  | none =>
                      rw [hget] at h
                      rw [storeStats_ok hsource h, hid]
                  | some currentStats =>
                      rw [hget] at h
                      dsimp only at h ⊢
                      by_cases hfewer : req.stats.size < currentStats.stats.size
                      · rw [if_pos hfewer] at h
                        cases h
                      · rw [if_neg hfewer] at h ⊢
                        rw [storeStats_ok hsource h, hid]
            · rw [if_pos (by simpa using hentitled)] at h
              cases h
  · rw [if_pos hsource] at h
    cases h

/-- All names that are stored in some document still are. -/
def KeepsKeys (st st' : StatsStore φ) : Prop :=
  ∀ (id : String) (before : UserStatsModel φ), st.stats[id]? = some before →
    ∃ after : UserStatsModel φ, st'.stats[id]? = some after ∧ ∀ k ∈ before.stats, k ∈ after.stats

/-- An update keeps the names that it has itself. -/
theorem update_keepsKeys_iff (h : (st.update owner req outcomes).2 = .ok ()) :
    KeepsKeys st (st.update owner req outcomes).1 ↔
      ∀ stored, st.stats[statsKey "" req.user .kyber]? = some stored →
        ∀ k ∈ stored.stats, k ∈ req.stats := by
  unfold KeepsKeys
  rw [update_ok h]
  constructor
  · intro hkeeps stored hstored k hk
    obtain ⟨after, hafter, hkeys⟩ := hkeeps _ stored hstored
    rw [getElem?_insert_eq, if_pos rfl, Option.some.injEq] at hafter
    rw [← hafter] at hkeys
    exact hkeys k hk
  · intro hkeys id before hbefore
    rw [getElem?_insert_eq]
    by_cases hid : id = statsKey "" req.user .kyber
    · rw [if_pos hid]
      rw [hid] at hbefore
      exact ⟨_, rfl, hkeys before hbefore⟩
    · rw [if_neg hid]
      exact ⟨before, hbefore, fun k hk => hk⟩

/-- The user is known, and the server may store official statistics. -/
structure CanStore (st : StatsStore φ) (owner : UserModel) (userID : String) : Prop where
  user : ∃ user, st.users.find? (·.id == userID) = some user
  entitled : owner.entitled .officialStats = true

/-- When all its calls are answered, an update succeeds exactly if it has as many names as are
stored. -/
theorem update_ok_iff (hstore : CanStore st owner req.user) (hsource : req.source = .kyber) :
    (st.update owner req []).2 = .ok () ↔
      ∀ stored, st.stats[statsKey "" req.user .kyber]? = some stored →
        stored.stats.size ≤ req.stats.size := by
  obtain ⟨user, huser⟩ := hstore.user
  have hfound := List.find?_some huser
  have hid : user.id = req.user := beq_iff_eq.mp hfound
  have hkey : statsKey "" user.id .kyber = statsKey "" req.user .kyber := by rw [hid]
  have hstored : ∀ st : StatsStore φ,
      ((storeStats owner user req).eval serveNext (st, [])).2 = .ok () := fun st => by
    unfold storeStats
    rw [hsource]
    rfl
  unfold StatsStore.update updateStats
  simp only [hsource, ne_eq, not_true_eq_false, if_false, Prog.eval_call, serveNext, List.headD_nil,
    serve, perform, huser, hstore.entitled, Bool.not_true, Bool.false_eq_true, List.tail_nil, hkey]
  cases hget : st.stats[statsKey "" req.user .kyber]? with
  | none => exact iff_of_true (hstored st) fun stored h => by cases h
  | some stored =>
      simp only [Option.some.injEq, forall_eq']
      by_cases hfewer : req.stats.size < stored.stats.size
      · rw [if_pos hfewer]
        exact iff_of_false (by rintro ⟨⟩) (Nat.not_le.mpr hfewer)
      · rw [if_neg hfewer]
        exact iff_of_true (hstored st) (Nat.not_lt.mp hfewer)

end

end Kyber.Api

namespace Kyber.Persistence

open Kyber.Lib
open Kyber.Api

/-! ## What is sent -/

section

variable {φ : Type} (changed : φ → φ → Bool)

/-- The value of a name differs from its reference. -/
def PersistentStorage.differs (storage : PersistentStorage φ) (name : String) : Bool :=
  (storage.value? name).any fun value => changed value.current value.reference

/-- The names of the template whose values differ from their reference. -/
def PersistentStorage.changedNames (storage : PersistentStorage φ) : List String :=
  (storage.template.names.filter (storage.differs changed)).dedup

variable {changed} {storage : PersistentStorage φ}

theorem mem_extractStat {stats : UserStats φ} {name k : String} :
    k ∈ extractStat changed storage stats name ↔
      k = name ∧ storage.differs changed name = true ∨ k ∈ stats := by
  unfold extractStat PersistentStorage.differs
  cases storage.value? name with
  | none => simp
  | some value =>
      by_cases hdiffers : changed value.current value.reference = true
      · simp [hdiffers, Std.TreeMap.mem_insert, eq_comm (a := k)]
      · simp [hdiffers]

theorem mem_foldl_extractStat {names : List String} {stats : UserStats φ} {k : String} :
    k ∈ names.foldl (extractStat changed storage) stats ↔
      k ∈ names.filter (storage.differs changed) ∨ k ∈ stats := by
  induction names generalizing stats with
  | nil => simp
  | cons name names ih =>
      rw [List.foldl_cons, ih, mem_extractStat, List.mem_filter, List.mem_filter, List.mem_cons]
      constructor
      · rintro (⟨hk, hdiffers⟩ | ⟨rfl, hdiffers⟩ | hk)
        · exact .inl ⟨.inr hk, hdiffers⟩
        · exact .inl ⟨.inl rfl, hdiffers⟩
        · exact .inr hk
      · rintro (⟨rfl | hk, hdiffers⟩ | hk)
        · exact .inr (.inl ⟨rfl, hdiffers⟩)
        · exact .inl ⟨hk, hdiffers⟩
        · exact .inr (.inr hk)

/-- As many names are sent as have changed. -/
theorem size_extracted (storage : PersistentStorage φ) :
    (storage.template.names.foldl (extractStat changed storage) {}).size =
      (storage.changedNames changed).length := by
  rw [← Std.TreeMap.length_keys]
  refine List.Perm.length_eq ((List.perm_ext_iff_of_nodup Std.TreeMap.nodup_keys
    (List.nodup_dedup _)).mpr fun k => ?_)
  rw [Std.TreeMap.mem_keys, mem_foldl_extractStat, List.mem_dedup]
  simp

/-! ## Saving -/

/-- The statistics that are stored for a player, which are none if there is no document. -/
def storedStats (st : StatsStore φ) (userId : String) : UserStats φ :=
  (st.stats[statsKey "" userId .kyber]?.map UserStatsModel.stats).getD {}

/-- The player has joined, and the game has changed its values since then. -/
def afterPlay (st : StatsStore φ) (player : ServerPlayer φ) (f : Nat → Value φ → Value φ) :
    ServerPlayer φ :=
  let joined := applyPlayerStats player (storedStats st player.userId)
  { joined with storage := joined.storage.play f }

variable (changed) in
/-- What the server sends of the player is stored. -/
def SaveAccepted (st : StatsStore φ) (owner : UserModel) (player : ServerPlayer φ) : Prop :=
  ∀ req, savePlayerStats changed player = some req → (st.update owner req []).2 = .ok ()

theorem saveAccepted_iff {st : StatsStore φ} {owner : UserModel} {player : ServerPlayer φ}
    (hstore : CanStore st owner player.userId) :
    SaveAccepted changed st owner player ↔
      (player.isAIPlayer || player.isSpectator) = true ∨
        (storedStats st player.userId).size ≤ (player.storage.changedNames changed).length := by
  unfold SaveAccepted savePlayerStats extractPlayerStats
  cases hkind : player.isAIPlayer || player.isSpectator with
  | true =>
      simp only [if_true, true_or, iff_true]
      intro req hreq
      cases hreq
  | false =>
      simp only [Bool.false_eq_true, if_false, Option.some.injEq, forall_eq', false_or]
      rw [update_ok_iff hstore rfl, size_extracted]
      unfold storedStats
      cases st.stats[statsKey "" player.userId .kyber]? with
      | none => simp
      | some stored => simp

variable (changed) in
/-- Names are kept exactly if the request has them all, and a player's save is accepted exactly if
as many values have changed as are stored. -/
theorem statsProgress_iff {st st' : StatsStore φ} {owner owner' : UserModel}
    {req : UpdateStatsRequest φ} {outcomes : List Outcome}
    (hok : (st.update owner req outcomes).2 = .ok ()) (player : ServerPlayer φ)
    (f : Nat → Value φ → Value φ) (hstore : CanStore st' owner' player.userId) :
    (KeepsKeys st (st.update owner req outcomes).1 ↔
      ∀ stored, st.stats[statsKey "" req.user .kyber]? = some stored →
        ∀ k ∈ stored.stats, k ∈ req.stats) ∧
    (SaveAccepted changed st' owner' (afterPlay st' player f) ↔
      (player.isAIPlayer || player.isSpectator) = true ∨
        (storedStats st' player.userId).size ≤
          ((afterPlay st' player f).storage.changedNames changed).length) :=
  ⟨update_keepsKeys_iff hok, saveAccepted_iff hstore⟩

end

/-! A player with some statistics, of which some are stored. -/

def sampleOwner : UserModel := { id := "2", name := "server", entitlements := [.officialStats] }

def sampleStats (names : List String) : UserStats Nat :=
  names.foldl (fun stats name => stats.insert name 3) {}

def sampleStatsStore (names : List String) : StatsStore Nat where
  users := [{ id := "1", name := "player" }]
  stats := ({} : Std.TreeMap String (UserStatsModel Nat)).insert (statsKey "" "1" .kyber)
    { userID := "1", source := .kyber, stats := sampleStats names }

def sampleRequest (names : List String) : UpdateStatsRequest Nat :=
  { source := .kyber, user := "1", stats := sampleStats names }

/-- The storage of a player who has not played yet. -/
def sampleStorage : PersistentStorage Nat where
  template := {
    names := ["kills", "deaths", "wins"]
    getOffset := fun name =>
      if name = "kills" then 0 else if name = "deaths" then 1 else if name = "wins" then 2
      else noOffset
    known := by decide }
  values := [⟨0, 0, 0⟩, ⟨0, 0, 0⟩, ⟨0, 0, 0⟩]
  valid := fun name h => by
    by_cases hkills : name = "kills"
    · simp [hkills]
    · by_cases hdeaths : name = "deaths"
      · simp [hdeaths]
      · by_cases hwins : name = "wins"
        · simp [hwins]
        · simp [hkills, hdeaths, hwins] at h

def samplePlayer : ServerPlayer Nat :=
  { userId := "1", isAIPlayer := false, isSpectator := false, storage := sampleStorage }

theorem sampleStore_canStore (names : List String) :
    CanStore (sampleStatsStore names) sampleOwner "1" := ⟨⟨_, rfl⟩, rfl⟩

theorem sampleStatsStore_get (names : List String) :
    (sampleStatsStore names).stats[statsKey "" "1" .kyber]? =
      some { userID := "1", source := .kyber, stats := sampleStats names } := by
  rw [sampleStatsStore, getElem?_insert_eq, if_pos rfl]

theorem sampleRequest_ok {stored names : List String}
    (h : (sampleStats stored).size ≤ (sampleStats names).size) :
    ((sampleStatsStore stored).update sampleOwner (sampleRequest names) []).2 = .ok () := by
  refine (update_ok_iff (sampleStore_canStore stored) rfl).mpr fun model hmodel => ?_
  obtain rfl := Option.some.inj ((sampleStatsStore_get stored).symm.trans hmodel)
  exact h

/-- The request has the statistics that are stored and a new one, and the player has more kills and
deaths than before. -/
theorem statsProgress_sample :
    KeepsKeys (sampleStatsStore ["kills", "deaths"])
        ((sampleStatsStore ["kills", "deaths"]).update sampleOwner
          (sampleRequest ["wins", "deaths", "kills"]) []).1 ∧
      SaveAccepted (fun a b : Nat => a != b) (sampleStatsStore ["kills", "deaths"]) sampleOwner
        (afterPlay (sampleStatsStore ["kills", "deaths"]) samplePlayer fun i value =>
          if i < 2 then { value with current := 5 } else value) := by
  have hiff := statsProgress_iff (fun a b : Nat => a != b)
    (sampleRequest_ok (show (sampleStats ["kills", "deaths"]).size ≤
      (sampleStats ["wins", "deaths", "kills"]).size by decide)) samplePlayer
    (fun i value => if i < 2 then { value with current := 5 } else value)
    (sampleStore_canStore ["kills", "deaths"])
  refine ⟨hiff.1.mpr fun model hmodel k hk => ?_, hiff.2.mpr (.inr ?_)⟩
  · obtain rfl := Option.some.inj ((sampleStatsStore_get _).symm.trans hmodel)
    simp only [sampleStats, List.foldl_cons, List.foldl_nil, sampleRequest,
      Std.TreeMap.mem_insert] at hk ⊢
    tauto
  · decide

/-- A request with another statistic is stored, and kills that are back at their reference are not
sent. -/
theorem kills_lost :
    ((sampleStatsStore ["kills"]).update sampleOwner (sampleRequest ["deaths"]) []).2 = .ok () ∧
      ¬ KeepsKeys (sampleStatsStore ["kills"])
        ((sampleStatsStore ["kills"]).update sampleOwner (sampleRequest ["deaths"]) []).1 ∧
      ¬ SaveAccepted (fun a b : Nat => a != b) (sampleStatsStore ["kills"]) sampleOwner
        (afterPlay (sampleStatsStore ["kills"]) samplePlayer
          fun _ value => { value with current := 0 }) := by
  have hok := sampleRequest_ok (show (sampleStats ["kills"]).size ≤ (sampleStats ["deaths"]).size
    by decide)
  refine ⟨hok, ?_, ?_⟩
  · rw [update_keepsKeys_iff hok]
    intro hkeeps
    have hkills := hkeeps _ (sampleStatsStore_get ["kills"]) "kills" (by simp [sampleStats])
    simp [sampleRequest, sampleStats] at hkills
  · rw [saveAccepted_iff (sampleStore_canStore _)]
    decide

end Kyber.Persistence
