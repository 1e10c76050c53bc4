import Kyber.Api.JoinTokens
import Kyber.Api.Reports
import Kyber.Proofs.Rpc
import Mathlib.Tactic.Ring

/-!
# Bans

How long a ban lasts, and how many there are. A requested duration is multiplied
into 64-bit nanoseconds, which wraps, and the database cuts the end of the ban and
the time of a query to milliseconds; so a ban lasts as long as was asked for exactly
if nothing wraps and nothing is cut off.

A host bans a player only when it has no active ban of that player. Bans only ever
become inactive with time, so there is at most one that is active, and lifting it
leaves none.
-/

namespace Kyber.Api

open Kyber.Lib Prog

/-! ## Durations -/

theorem toInt_seconds (d : UInt64) :
    (seconds d).toInt = Int.bmod (d.toNat * 1000000000) (2 ^ 64) := by
  have hconv : d.toInt64.toInt = (d.toNat : Int).bmod (2 ^ 64) := by
    show d.toBitVec.toInt = _
    rw [BitVec.toInt_eq_toNat_bmod]
    rfl
  rw [seconds, Int64.toInt_mul, hconv]
  show ((d.toNat : Int).bmod (2 ^ 64) * 1000000000).bmod (2 ^ 64) = _
  rw [Int.bmod_mul_bmod]

/-- The longest duration that does not wrap is a little over 292 years. -/
theorem toInt_seconds_of_le {d : UInt64} (h : d.toNat ≤ 9223372036) :
    (seconds d).toInt = d.toNat * 1000000000 := by
  rw [toInt_seconds, Int.bmod_eq_of_le] <;> omega

theorem toInt_seconds_lt {d : UInt64} (h : 9223372036 < d.toNat) :
    (seconds d).toInt < d.toNat * 1000000000 := by
  have := (seconds d).toInt_lt
  omega

theorem dateOf_lt_iff (s t : Int) : dateOf s < dateOf t ↔ s / 1000000 < t / 1000000 := Iff.rfl

/-- The ban ends after the last instant of the period, in the database's dates,
exactly if nothing wraps and the period starts at a whole millisecond. -/
theorem lasts_iff (now : Int) {d : UInt64} (hd : 0 < d.toNat) :
    (∀ t : Int, now < t → t < now + d.toNat * 1000000000 →
      dateOf t < dateOf (now + (seconds d).toInt)) ↔ d.toNat ≤ 9223372036 ∧ 1000000 ∣ now := by
  simp only [dateOf_lt_iff]
  constructor
  · intro h
    have hlast := h (now + d.toNat * 1000000000 - 1) (by omega) (by omega)
    rcases Nat.lt_or_ge 9223372036 d.toNat with hlt | hle
    · have := toInt_seconds_lt hlt
      omega
    · rw [toInt_seconds_of_le hle] at hlast
      exact ⟨hle, by omega⟩
  · rintro ⟨hle, hnow⟩ t - ht
    rw [toInt_seconds_of_le hle]
    omega

/-! ## Calls that ban -/

/-- A server ban, or a global one. -/
inductive BanCall
  | server (user : UserModel) (req : ServerBanPlayerRequest)
  | global (user : UserModel) (req : ApproveReportsRequest)

namespace BanCall

def handler (stamp : Stamp) : BanCall → Handler
  | .server user req => banPlayer user req stamp
  | .global user req => approveReports user req stamp

/-- The seconds that are asked for, none for a permanent ban. -/
def duration : BanCall → Option UInt64
  | .server _ req => req.duration
  | .global _ req => if req.banDuration = 0 then none else some req.banDuration

def player : BanCall → String
  | .server _ req => req.userID
  | .global _ req => req.playerID

/-- The host of the server, none for a global ban. -/
def issuer (st : Store) : BanCall → Option String
  | .server _ req => (st.servers.find? (·.id == req.id)).map (·.hostID)
  | .global _ _ => none

/-- The document that the call inserts. -/
def document (st : Store) (stamp : Stamp) (reason : String) (c : BanCall) : PunishmentModel where
  id := stamp.id
  type := .ban
  issuer := c.issuer st
  user := some c.player
  reason := some reason
  expiresAt := c.duration.map fun d => dateOf (stamp.now.add (seconds d))
  overturnedBy := none

end BanCall

/-- `GetBanForServer`, or `GetGlobalBan` for a ban without an issuer. -/
def Store.ban (st : Store) (issuer : Option String) (userID : String) :
    Except DbError (Option PunishmentModel) :=
  match issuer with
  | some hostID => (st.perform (.banForServer hostID userID)).2
  | none => (st.perform (.globalBan userID)).2

theorem Store.ban_eq (st : Store) (issuer : Option String) (userID : String) :
    st.ban issuer userID = .ok (st.punishments.find? (·.isBan issuer userID st.now)) := by
  cases issuer <;> rfl

/-! ## What the calls do to the punishments -/

/-- The handler is refused and changes nothing. -/
def Refuses (st : Store) (p : Handler) : Prop :=
  ∃ failure, p.eval Store.perform st = (st, .error failure)

theorem Refuses.not_ok {st st' : Store} {p : Handler} {r : Response} (h : Refuses st p)
    (hok : p.eval Store.perform st = (st', .ok r)) : False := by
  obtain ⟨failure, heq⟩ := h
  rw [heq] at hok
  cases hok

/-- The store with the document in it, which has a new id. -/
def Store.withPunishment (st : Store) (doc : PunishmentModel) : Store :=
  { st with punishments := st.punishments ++ [doc] }

def Store.FreshPunishment (st : Store) (doc : PunishmentModel) : Prop :=
  ∀ p ∈ st.punishments, p.id ≠ doc.id

theorem perform_createPunishment (st : Store) (doc : PunishmentModel) :
    st.perform (.createPunishment doc) = (st, .error .duplicateKey) ∨
      st.FreshPunishment doc ∧
        st.perform (.createPunishment doc) = (st.withPunishment doc, .ok ()) := by
  simp only [Store.perform]
  split
  · exact .inl rfl
  · next hnew =>
      refine .inr ⟨fun p hp heq => hnew (List.any_eq_true.mpr ⟨p, hp, ?_⟩), rfl⟩
      exact beq_iff_eq.mpr heq

theorem punish_eval (st : Store) (doc : PunishmentModel) :
    Refuses st (punish doc) ∨ st.FreshPunishment doc ∧
      (punish doc).eval Store.perform st = (st.withPunishment doc, .ok .empty) := by
  rw [punish]
  rcases perform_createPunishment st doc with heq | ⟨hfresh, heq⟩
  · exact .inl ⟨_, by rw [eval_query, heq]⟩
  · exact .inr ⟨hfresh, by rw [eval_query, heq]; rfl⟩

theorem isModerator_eval (st : Store) (user : UserModel) (serverID : String)
    (k : ServerModel → Handler) :
    Refuses st (isModerator user serverID k) ∨
      ∃ server, st.servers.find? (·.id == serverID) = some server ∧
        (isModerator user serverID k).eval Store.perform st = (k server).eval Store.perform st := by
  simp only [Refuses, isModerator, eval_query, Store.perform]
  cases st.servers.find? (·.id == serverID) with
  | none => exact .inl ⟨_, rfl⟩
  | some server =>
      simp only [eval_query, Store.perform]
      cases st.users.find? (·.id == server.hostID) with
      | none => exact .inl ⟨_, rfl⟩
      | some host =>
          simp only
          split
          · exact .inr ⟨server, rfl, rfl⟩
          · exact .inl ⟨_, rfl⟩

theorem targetPlayer_eval (st : Store) (userID : String) (k : UserModel → Handler) :
    Refuses st (targetPlayer userID k) ∨ ∃ target : UserModel, target.id = userID ∧
      (targetPlayer userID k).eval Store.perform st = (k target).eval Store.perform st := by
  simp only [Refuses, targetPlayer, eval_query, Store.perform]
  cases htarget : st.users.find? (·.id == userID) with
  | none => exact .inl ⟨_, rfl⟩
  | some target => exact .inr ⟨target, by simpa using List.find?_some htarget, rfl⟩

/-- A kick is not a ban. -/
theorem kickPlayer_eval (st : Store) (user : UserModel) (req : ServerKickPlayerRequest)
    (stamp : Stamp) :
    Refuses st (kickPlayer user req stamp) ∨ ∃ doc : PunishmentModel, doc.type = .kick ∧
      st.FreshPunishment doc ∧
      (kickPlayer user req stamp).eval Store.perform st = (st.withPunishment doc, .ok .empty) := by
  rw [kickPlayer]
  rcases isModerator_eval st user req.id _ with hrefused | ⟨server, -, heq⟩
  · exact .inl hrefused
  rw [Refuses, heq]
  rcases targetPlayer_eval st req.userID _ with hrefused | ⟨target, -, heq⟩
  · exact .inl hrefused
  rw [heq]
  split
  · exact .inl ⟨_, rfl⟩
  · exact (punish_eval st _).imp id fun ⟨hfresh, heq⟩ => ⟨_, rfl, hfresh, heq⟩

/-- A player is banned by a host who has no active ban of the player. -/
theorem banPlayer_eval (st : Store) (user : UserModel) (req : ServerBanPlayerRequest)
    (stamp : Stamp) :
    Refuses st (banPlayer user req stamp) ∨
      ∃ server, st.servers.find? (·.id == req.id) = some server ∧
        (∀ p ∈ st.punishments, p.isBan (some server.hostID) req.userID st.now = false) ∧
        st.FreshPunishment ((BanCall.server user req).document st stamp req.reason) ∧
        (banPlayer user req stamp).eval Store.perform st =
          (st.withPunishment ((BanCall.server user req).document st stamp req.reason),
            .ok .empty) := by
  rw [banPlayer]
  rcases isModerator_eval st user req.id _ with hrefused | ⟨server, hserver, heq⟩
  · exact .inl hrefused
  rw [Refuses, heq]
  rcases targetPlayer_eval st req.userID _ with hrefused | ⟨target, htarget, heq⟩
  · exact .inl hrefused
  rw [heq]
  split
  · exact .inl ⟨_, rfl⟩
  rw [htarget]
  simp only [eval_query, Store.perform]
  cases hban : st.punishments.find? (·.isBan (some server.hostID) req.userID st.now) with
  | some ban => exact .inl ⟨_, rfl⟩
  | none =>
      have hdoc : (BanCall.server user req).document st stamp req.reason
          = { id := stamp.id, type := .ban, issuer := some server.hostID, user := some req.userID,
              reason := some req.reason,
              expiresAt := req.duration.map fun d => dateOf (stamp.now.add (seconds d)),
              overturnedBy := none } := by
        simp [BanCall.document, BanCall.issuer, BanCall.player, BanCall.duration, hserver]
      rw [hdoc]
      rcases punish_eval st _ with hrefused | ⟨hfresh, heq⟩
      · exact .inl hrefused
      refine .inr ⟨server, hserver, ?_, hfresh, heq⟩
      intro p hp
      simpa using List.find?_eq_none.mp hban p hp

theorem closeReports_punishments (st : Store) (ids : List String) :
    ((closeReports ids).eval Store.perform st).1.punishments = st.punishments := by
  simp only [closeReports, eval_query, Store.perform]
  cases ids <;> rfl

/-- A successful approval has banned the player, and changed nothing else that bans
depend on. -/
theorem approveReports_ok {st st' : Store} {user : UserModel} {req : ApproveReportsRequest}
    {stamp : Stamp} {r : Response}
    (h : (approveReports user req stamp).eval Store.perform st = (st', .ok r)) :
    st.FreshPunishment ((BanCall.global user req).document st stamp req.banMessage) ∧
      st'.punishments
        = st.punishments ++ [(BanCall.global user req).document st stamp req.banMessage] := by
  simp only [approveReports, staffOnly] at h
  split at h
  case isFalse => cases h
  simp only [eval_query, Store.perform] at h
  cases htarget : st.users.find? (·.id == req.playerID) with
  | none =>
      rw [htarget] at h
      cases h
  | some target =>
      have hid : target.id = req.playerID := by simpa using List.find?_some htarget
      simp only [htarget, eval_query, Store.perform, hid] at h
      split at h
      · cases h
      have hexpires : (if req.banDuration > 0 then
            some (dateOf (stamp.now.add (seconds req.banDuration))) else none)
          = (BanCall.global user req).duration.map
              fun d => dateOf (stamp.now.add (seconds d)) := by
        by_cases hzero : req.banDuration = 0
        · simp [BanCall.duration, hzero]
        · have hpos : req.banDuration > 0 := UInt64.pos_iff_ne_zero.mpr hzero
          simp [BanCall.duration, hzero, hpos]
      rw [eval_query, hexpires, hid] at h
      rcases perform_createPunishment st
        ((BanCall.global user req).document st stamp req.banMessage) with heq | ⟨hfresh, heq⟩
      · simp only [BanCall.document, BanCall.issuer, BanCall.player] at heq
        rw [heq] at h
        cases h
      · refine ⟨hfresh, ?_⟩
        simp only [BanCall.document, BanCall.issuer, BanCall.player] at heq ⊢
        rw [heq] at h
        have hst' : _ = st' := congrArg Prod.fst h
        rw [← hst']
        exact closeReports_punishments (st.withPunishment _) _

/-- A successful call has left its document. -/
theorem BanCall.ok {st st' : Store} {c : BanCall} {stamp : Stamp} {r : Response}
    (h : (c.handler stamp).eval Store.perform st = (st', .ok r)) :
    ∃ reason, st.FreshPunishment (c.document st stamp reason) ∧
      st'.punishments = st.punishments ++ [c.document st stamp reason] := by
  cases c with
  | server user req =>
      rcases banPlayer_eval st user req stamp with hrefused | ⟨_, -, -, hfresh, heq⟩
      · exact (hrefused.not_ok h).elim
      · rw [BanCall.handler, heq] at h
        cases h
        exact ⟨req.reason, hfresh, rfl⟩
  | global user req => exact ⟨req.banMessage, approveReports_ok h⟩

/-! ## How long a ban lasts -/

theorem document_isBan (st : Store) (stamp : Stamp) (reason : String) (c : BanCall) (now : Time) :
    (c.document st stamp reason).isBan (c.issuer st) c.player now = true ↔
      ∀ d ∈ c.duration, now < dateOf (stamp.now.add (seconds d)) := by
  simp only [PunishmentModel.isBan, BanCall.document]
  cases c.duration <;> simp

/-- The ban stands in a later store: nobody has overturned it. -/
def Stands (stamp : Stamp) (st later : Store) : Prop :=
  ∀ p ∈ st.punishments, p.id = stamp.id → p ∈ later.punishments

/-- In every later store in which the ban stands, and at every time within the
period that was asked for, an active ban of the player is found. -/
def Honoured (st st' : Store) (c : BanCall) (stamp : Stamp) : Prop :=
  ∀ (t : Instant) (later : Store), stamp.now < t →
    (∀ d ∈ c.duration, t < stamp.now + d.toNat * 1000000000) →
    Stands stamp st' later → later.now = dateOf t →
    ∃ p, later.ban (c.issuer st) c.player = .ok (some p) ∧
      p.isBan (c.issuer st) c.player later.now = true

/-- A ban is honoured exactly if it is permanent, or its duration does not wrap and
it starts at a whole millisecond. -/
theorem ban_honoured_iff {st st' : Store} {c : BanCall} {stamp : Stamp} {r : Response}
    (hd : ∀ d ∈ c.duration, 0 < d.toNat)
    (h : (c.handler stamp).eval Store.perform st = (st', .ok r)) :
    Honoured st st' c stamp ↔
      ∀ d ∈ c.duration, d.toNat ≤ 9223372036 ∧ (1000000 : Int) ∣ stamp.now := by
  obtain ⟨reason, hfresh, hst'⟩ := BanCall.ok h
  constructor
  · intro hhon d hdur
    refine (lasts_iff stamp.now (hd d hdur)).mp fun t hlt hend => ?_
    -- The other bans may have been overturned.
    have hstands : Stands stamp st'
        { st' with punishments := [c.document st stamp reason], now := dateOf t } := by
      intro p hp hid
      rw [hst', List.mem_append] at hp
      rcases hp with hold | hnew
      · exact absurd hid (hfresh p hold)
      · exact hnew
    obtain ⟨p, hp, -⟩ := hhon t _ hlt (fun d' hd' => by
      rw [hdur] at hd'
      cases hd'
      exact hend) hstands rfl
    rw [Store.ban_eq, Except.ok.injEq] at hp
    have hmem := List.mem_of_find?_eq_some hp
    have hban := List.find?_some hp
    rw [List.mem_singleton] at hmem
    subst hmem
    exact (document_isBan st stamp reason c _).mp hban d hdur
  · intro hcond t later hlt hend hstands hnow
    have hban : (c.document st stamp reason).isBan (c.issuer st) c.player later.now = true := by
      rw [document_isBan, hnow]
      intro d hdur
      exact (lasts_iff stamp.now (hd d hdur)).mpr (hcond d hdur) t hlt (hend d hdur)
    have hmem : c.document st stamp reason ∈ later.punishments :=
      hstands _ (by rw [hst']; simp) rfl
    rw [Store.ban_eq]
    cases hfind : later.punishments.find? (·.isBan (c.issuer st) c.player later.now) with
    | none => exact absurd hban (List.find?_eq_none.mp hfind _ hmem)
    | some p => exact ⟨p, rfl, by simpa using List.find?_some hfind⟩

/-- A server with its host, and a player. -/
def banStore : Store where
  users := [{ id := "h", name := "Host" }, { id := "u", name := "User" }]
  servers := [{ id := "s", name := "Server", password := none, hostID := "h", playerCount := 0,
                maxPlayerCount := 40, official := false, lastUpdated := 0, proxyToken := "" }]

def banStamp : Stamp := { id := "p", now := 1760000000000000000 }

/-- The host bans the player for so many seconds. -/
def hostBans (duration : UInt64) : BanCall :=
  .server { id := "h", name := "Host" }
    { id := "s", userID := "u", reason := "cheating", duration := some duration }

theorem ban_honoured_hour :
    (((hostBans 3600).handler banStamp).eval Store.perform banStore).2 = .ok .empty ∧
      Honoured banStore (((hostBans 3600).handler banStamp).eval Store.perform banStore).1
        (hostBans 3600) banStamp := by
  have hok : (((hostBans 3600).handler banStamp).eval Store.perform banStore).2 = .ok .empty := by
    decide
  have hdur : ∀ d ∈ (hostBans 3600).duration, d = 3600 := by
    intro d hd
    cases hd
    rfl
  refine ⟨hok, (ban_honoured_iff (fun d hd => ?_) (Prod.ext rfl hok)).mpr fun d hd => ?_⟩
  · rw [hdur d hd]
    decide
  · rw [hdur d hd]
    decide

/-- A ban of more than three hundred years is over at once. -/
theorem ban_wraps :
    (((hostBans 10000000000).handler banStamp).eval Store.perform banStore).2 = .ok .empty ∧
      ¬ Honoured banStore
        (((hostBans 10000000000).handler banStamp).eval Store.perform banStore).1
        (hostBans 10000000000) banStamp := by
  refine ⟨by decide, fun hhon => ?_⟩
  obtain ⟨p, hp, -⟩ := hhon 1760000001000000000
    { (((hostBans 10000000000).handler banStamp).eval Store.perform banStore).1 with
      now := dateOf 1760000001000000000 } (by decide) (by
        intro d hd
        cases hd
        decide) (fun p hp _ => hp) rfl
  have hnone : Store.ban { (((hostBans 10000000000).handler banStamp).eval Store.perform
      banStore).1 with now := dateOf 1760000001000000000 } (some "h") "u" = .ok none := by
    decide
  have hsome : Store.ban { (((hostBans 10000000000).handler banStamp).eval Store.perform
      banStore).1 with now := dateOf 1760000001000000000 } (some "h") "u" = .ok (some p) := hp
  rw [hnone] at hsome
  cases hsome

/-! ## At most one active ban -/

theorem isBan_iff (p : PunishmentModel) (issuer : Option String) (userID : String) (now : Time) :
    p.isBan issuer userID now = true ↔ p.user = some userID ∧ p.type = .ban ∧ p.issuer = issuer ∧
      p.overturnedBy = none ∧ ∀ t ∈ p.expiresAt, now < t := by
  simp only [PunishmentModel.isBan, Bool.and_eq_true, beq_iff_eq, Option.isNone_iff_eq_none,
    and_assoc]
  cases p.expiresAt <;> simp

/-- A ban that is active was active before. -/
theorem isBan_mono {p : PunishmentModel} {issuer : Option String} {userID : String}
    {now later : Time} (hle : now ≤ later) (h : p.isBan issuer userID later = true) :
    p.isBan issuer userID now = true := by
  rw [isBan_iff] at h ⊢
  exact ⟨h.1, h.2.1, h.2.2.1, h.2.2.2.1, fun t ht => Int.lt_of_le_of_lt hle (h.2.2.2.2 t ht)⟩

/-- The active bans of a player by a host. -/
def Store.activeBans (st : Store) (hostID userID : String) : Nat :=
  st.punishments.countP (·.isBan (some hostID) userID st.now)

structure OneBan (st : Store) : Prop where
  keys : (st.punishments.map (·.id)).Nodup
  one : ∀ hostID userID, st.activeBans hostID userID ≤ 1

/-- The player's ban has been overturned. -/
def Store.overturned (st : Store) (p : PunishmentModel) (moderator : String) : Store :=
  { st with
    punishments :=
      updateFirst (·.id == p.id) (fun _ => { p with overturnedBy := some moderator })
        st.punishments }

theorem unbanPlayer_eval (st : Store) (user : UserModel) (req : UnbanPlayerRequest) :
    Refuses st (unbanPlayer user req) ∨
      ∃ server, st.servers.find? (·.id == req.serverID) = some server ∧ ∃ p ∈ st.punishments,
        p.isBan (some server.hostID) req.userID st.now = true ∧
        (unbanPlayer user req).eval Store.perform st = (st.overturned p user.id, .ok .empty) := by
  rw [unbanPlayer]
  rcases isModerator_eval st user req.serverID _ with hrefused | ⟨server, hserver, heq⟩
  · exact .inl hrefused
  rw [Refuses, heq]
  simp only [eval_query, Store.perform]
  cases hban : st.punishments.find? (·.isBan (some server.hostID) req.userID st.now) with
  | none => exact .inl ⟨_, rfl⟩
  | some p =>
      refine .inr ⟨server, hserver, p, List.mem_of_find?_eq_some hban, ?_, rfl⟩
      simpa using List.find?_some hban

variable {st : Store}

/-- A ban is inserted where there is no active one. -/
theorem OneBan.insert (h : OneBan st) {doc : PunishmentModel} (hfresh : st.FreshPunishment doc)
    (hnone : ∀ hostID userID, doc.isBan (some hostID) userID st.now = true →
      st.activeBans hostID userID = 0) : OneBan (st.withPunishment doc) := by
  constructor
  case keys =>
    refine nodup_map_append h.keys (List.any_eq_false.mpr fun p hp => ?_)
    simpa using hfresh p hp
  case one =>
    intro hostID userID
    show (st.punishments ++ [doc]).countP (·.isBan (some hostID) userID st.now) ≤ 1
    rw [List.countP_append, List.countP_singleton]
    split
    · next hban =>
        have := hnone hostID userID hban
        unfold Store.activeBans at this
        omega
    · exact h.one hostID userID

theorem OneBan.overturn (h : OneBan st) (p : PunishmentModel) (moderator : String) :
    OneBan (st.overturned p moderator) := by
  have hmap := updateFirst_key h.keys p.id fun _ => { p with overturnedBy := some moderator }
  constructor
  case keys =>
    show ((updateFirst _ _ st.punishments).map _).Nodup
    rw [map_updateFirst]
    · exact h.keys
    · intro q hq
      exact (beq_iff_eq.mp hq).symm
  case one =>
    intro hostID userID
    show (updateFirst _ _ st.punishments).countP _ ≤ 1
    rw [hmap, List.countP_map]
    refine Nat.le_trans (List.countP_mono_left fun q _ hq => ?_) (h.one hostID userID)
    simp only [Function.comp_apply] at hq
    split at hq
    · exact absurd ((isBan_iff _ _ _ _).mp hq).2.2.2.1 (by simp)
    · exact hq

theorem OneBan.wait (h : OneBan st) (milliseconds : Nat) :
    OneBan { st with now := st.now + milliseconds } := by
  refine ⟨h.keys, fun hostID userID => ?_⟩
  refine Nat.le_trans (List.countP_mono_left fun p _ hp => ?_) (h.one hostID userID)
  exact isBan_mono (Int.le_add_of_nonneg_right (Int.natCast_nonneg _)) hp

theorem OneBan.request (h : OneBan st) (r : PunishmentRequest) :
    OneBan (r.handler.eval Store.perform st).1 := by
  cases r with
  | kick user req stamp =>
      rw [PunishmentRequest.handler]
      rcases kickPlayer_eval st user req stamp with ⟨_, heq⟩ | ⟨doc, hkick, hfresh, heq⟩
      · rw [heq]
        exact h
      · rw [heq]
        refine h.insert hfresh fun hostID userID hban => ?_
        rw [isBan_iff, hkick] at hban
        cases hban.2.1
  | ban user req stamp =>
      rw [PunishmentRequest.handler]
      rcases banPlayer_eval st user req stamp with ⟨_, heq⟩ | ⟨server, hserver, hnone, hfresh, heq⟩
      · rw [heq]
        exact h
      · rw [heq]
        refine h.insert hfresh fun hostID userID hban => ?_
        obtain ⟨huser, -, hissuer, -⟩ := (isBan_iff _ _ _ _).mp hban
        simp only [BanCall.document, BanCall.issuer, BanCall.player, hserver, Option.map_some,
          Option.some.injEq] at huser hissuer
        subst huser hissuer
        exact List.countP_eq_zero.mpr fun p hp => by simpa using hnone p hp
  | unban user req =>
      rw [PunishmentRequest.handler]
      rcases unbanPlayer_eval st user req with ⟨_, heq⟩ | ⟨server, -, p, -, -, heq⟩
      · rw [heq]
        exact h
      · rw [heq]
        exact h.overturn p user.id

theorem OneBan.step {st' : Store} {a : PunishmentAction} (h : OneBan st)
    (hstep : punishmentStep st a = some st') : OneBan st' := by
  cases a with
  | request r =>
      cases hstep
      exact h.request r
  | wait milliseconds =>
      cases hstep
      exact h.wait milliseconds
  | others users servers =>
      cases hstep
      exact ⟨h.keys, h.one⟩

/-- The one active ban has been lifted. -/
theorem OneBan.none_after_unban (h : OneBan st) {p : PunishmentModel} (hp : p ∈ st.punishments)
    {hostID userID : String} (hban : p.isBan (some hostID) userID st.now = true)
    (moderator : String) : (st.overturned p moderator).activeBans hostID userID = 0 := by
  refine List.countP_eq_zero.mpr fun q hq hqban => ?_
  have hq : q ∈ updateFirst (·.id == p.id) (fun _ => { p with overturnedBy := some moderator })
    st.punishments := hq
  rw [updateFirst_key h.keys, List.mem_map] at hq
  obtain ⟨old, hold, rfl⟩ := hq
  split at hqban
  · exact absurd ((isBan_iff _ _ _ _).mp hqban).2.2.2.1 (by simp)
  · next hne =>
      have heq : old = p := eq_of_countP_le_one (h.one hostID userID) hold hp hqban hban
      exact hne (by rw [heq]; simp)

/-- The user passes the ban checks of the host's servers: there is nothing to find,
and the calls that create and consume a join token go on with what comes after. -/
structure PassesBans (st : Store) (hostID userID : String) : Prop where
  none : (st.perform (.banForServer hostID userID)).2 = .ok none
  create : ∀ (user : UserModel) (req : JoinTokenRequest) (gen : Generated) (server : ServerModel),
    user.id = userID → st.servers.find? (·.id == req.server) = some server →
    server.hostID = hostID →
    (createJoinToken user req gen).eval Store.perform st =
      (query (.joinTokensByUserID user.id) .internal "Failed to get existing join tokens"
        (deleteExisting (admitToServer user req server gen))).eval Store.perform st
  consume : ∀ (token : String) (tokenModel : JoinTokenModel) (user : UserModel)
    (server : ServerModel), st.joinTokens.find? (·.token == token) = some tokenModel →
    st.users.find? (·.id == tokenModel.user) = some user → user.id = userID →
    (st.perform (.globalBan userID)).2 = .ok .none →
    st.servers.find? (·.id == tokenModel.server) = some server → server.hostID = hostID →
    (consumeJoinToken token server.id).eval Store.perform st =
      (admitUser tokenModel user).eval Store.perform st

theorem passesBans_of_none {hostID userID : String} (h : st.activeBans hostID userID = 0) :
    PassesBans st hostID userID := by
  have hnone : st.punishments.find? (·.isBan (some hostID) userID st.now) = none :=
    List.find?_eq_none.mpr (List.countP_eq_zero.mp h)
  constructor
  case none => exact congrArg Except.ok hnone
  case create =>
    rintro user req gen server rfl hserver rfl
    rw [createJoinToken, eval_query]
    simp only [Store.perform, hserver]
    rw [eval_query]
    simp only [Store.perform, hnone]
  case consume =>
    rintro token tokenModel user server htoken huser rfl hglobal hserver rfl
    simp only [Store.perform, Except.ok.injEq] at hglobal
    rw [consumeJoinToken, eval_query]
    simp only [Store.perform, htoken]
    rw [eval_query]
    simp only [Store.perform, huser]
    rw [eval_query]
    simp only [Store.perform, hglobal]
    rw [checkServer, eval_query]
    simp only [Store.perform, hserver, ne_eq, not_true_eq_false, if_false]
    rw [eval_query]
    simp only [Store.perform, hnone]

/-- Along every run there is at most one active ban of a player by a host; once it
has been lifted there is none, and the player passes the ban checks. -/
theorem one_active_ban {st₀ : Store} (h₀ : OneBan st₀) (as : List PunishmentAction) :
    ∀ st ∈ visits punishmentStep st₀ as,
      (∀ hostID userID, st.activeBans hostID userID ≤ 1) ∧
      ∀ user req st' r, (unbanPlayer user req).eval Store.perform st = (st', .ok r) →
        ∃ server, st.servers.find? (·.id == req.serverID) = some server ∧
          st'.activeBans server.hostID req.userID = 0 ∧
          PassesBans st' server.hostID req.userID := by
  intro st hst
  have hone : OneBan st := forall_visits_of_forall_moves OneBan (fun _ _ => True)
    (fun h _ hstep => h.step hstep) h₀ as (fun _ _ => trivial) st hst
  refine ⟨hone.one, fun user req st' r heval => ?_⟩
  rcases unbanPlayer_eval st user req with hrefused | ⟨server, hserver, p, hp, hban, heq⟩
  · exact (hrefused.not_ok heval).elim
  · obtain rfl : st.overturned p user.id = st' := congrArg Prod.fst (heq.symm.trans heval)
    have hnone := hone.none_after_unban hp hban user.id
    exact ⟨server, hserver, hnone, passesBans_of_none hnone⟩

/-- The host bans the player and lifts the ban. -/
theorem one_active_ban_lifted :
    let host : UserModel := { id := "h", name := "Host" }
    let banned := ((hostBans 3600).handler banStamp).eval Store.perform banStore
    let lifted := (unbanPlayer host { serverID := "s", userID := "u" }).eval Store.perform banned.1
    banned.1.activeBans "h" "u" = 1 ∧ lifted.2 = .ok .empty ∧
      PassesBans lifted.1 "h" "u" := by
  intro host banned lifted
  have hok : lifted.2 = .ok .empty := by decide
  refine ⟨by decide, hok, ?_⟩
  have hstart : OneBan banStore :=
    ⟨List.nodup_nil, fun hostID userID => Nat.zero_le 1⟩
  obtain ⟨server, hserver, -, hpasses⟩ := (one_active_ban hstart
    [.request (.ban host { id := "s", userID := "u", reason := "cheating", duration := some 3600 }
      banStamp)] banned.1 (mem_visits_of_exec rfl)).2 host { serverID := "s", userID := "u" }
      lifted.1 .empty (Prod.ext rfl hok)
  have hhost : (banned.1.servers.find? (·.id == "s")).map (·.hostID) = some "h" := by
    decide
  have hid : server.hostID = "h" := by
    rw [hserver] at hhost
    exact Option.some.inj hhost
  rw [hid] at hpasses
  exact hpasses

end Kyber.Api
