import Mathlib.Data.List.Nodup
import Mathlib.Data.List.Perm.Basic
import Mathlib.Data.List.TakeWhile
import Kyber.Api.Accounts
import Kyber.Core.Players
import Kyber.Lib.Decimal
import Kyber.Lib.Runs

/-!
# Who a player is

The API knows a user by a text, the game server by a number. A player is the same one
on both sides if the text is read as the number without an exception, nobody else has
the number, the number is written as the text again, and a kick with the text finds the
player. This depends on the text, on the range of numbers that the module takes for
bots, and on the names: the number goes to the first human player with the name.
-/

namespace Kyber.Core

open Kyber.Lib

/-! ## The property -/

/-- The player is the user with the id. -/
structure Identified (s : GameServer) (player : ServerPlayer) (id : String) : Prop where
  reported : player ∈ s.manager.players →
    player.listed ∈ s.manager.sendPlayerList ∧ player.listed.id = id
  kicked : s.manager.kickTarget id = .ok (some player)
  distinct : ∀ other ∈ s.everyone, other.connection ≠ player.connection →
    other.isAIPlayer = false → other.nativeData ≠ player.nativeData

/-- Nothing has thrown, and every user who has joined is the player on the connection. -/
structure Survives (s : GameServer) : Prop where
  returned : s.threw = false
  identified : ∀ u ∈ s.joined, ∀ player ∈ s.everyone, player.connection = u.1 →
    Identified s player u.2

/-- A join leaves all players who they are: the id begins with a number that is neither
a bot's nor another player's, the id of a player who is listed has nothing else, and the
player who is looked for by name is the one who joins. -/
def keepsIdentities (s : GameServer) : GameAction → Bool
  | .join id name new =>
      match stoull id with
      | .error _ => false
      | .ok n =>
          match new with
          | none => (s.manager.getPlayerByName name).all (·.nativeData == n)
          | some new =>
              ((s.manager.createPlayer name (some new)).getPlayerByName name).any
                  (·.connection == new.connection) &&
                !isBotId n && (new.isSpectator || isDecimal id.toList) &&
                s.everyone.all fun p => p.isAIPlayer || p.nativeData != n
  | _ => true

/-! ## Texts -/

theorem isSpace_of_isDigit {c : Char} (h : c.isDigit = true) : isSpace c = false := by
  have hrange := isDigit_iff_toNat.mp h
  refine decide_eq_false ?_
  rintro (rfl | ⟨-, hle⟩)
  · exact absurd hrange (by decide)
  · have hle' : c.toNat ≤ 13 := hle
    omega

/-- A text of digits is read whole. -/
theorem stoull_of_isDecimal {id : String} (h : isDecimal id.toList = true) :
    stoull id =
      if 2 ^ 64 ≤ Nat.ofDigitChars 10 id.toList 0 then .error .outOfRange
      else .ok (UInt64.ofNat (Nat.ofDigitChars 10 id.toList 0)) := by
  have hdigits := all_isDigit_of_isDecimal h
  unfold stoull
  match hid : id.toList with
  | [] =>
      rw [hid] at h
      cases h
  | c :: rest =>
      rw [hid] at hdigits
      have hc : c.isDigit = true := (Bool.and_eq_true_iff.mp hdigits).1
      have hminus : c ≠ '-' := fun heq => absurd (heq ▸ hc) (by decide)
      have hplus : c ≠ '+' := fun heq => absurd (heq ▸ hc) (by decide)
      rw [List.dropWhile_cons_of_neg (by simp [isSpace_of_isDigit hc])]
      split
      · next rest' heq => exact absurd (List.cons.inj heq).1 hminus
      · next rest' heq => exact absurd (List.cons.inj heq).1 hplus
      · have hwhole : (c :: rest).takeWhile Char.isDigit = c :: rest :=
          List.takeWhile_eq_self_iff.mpr (List.all_eq_true.mp hdigits)
        simp [hwhole]

/-- The number is written as the text it has been read from if this is a decimal text. -/
theorem toDecimal_eq_iff {id : String} {n : UInt64} (hn : stoull id = .ok n) :
    toDecimal n = id ↔ isDecimal id.toList = true := by
  constructor
  · rintro rfl
    rw [toDecimal, String.toList_ofList]
    exact isDecimal_toDigits _
  · intro h
    rw [stoull_of_isDecimal h] at hn
    split at hn
    · cases hn
    · next hlt =>
        cases hn
        rw [toDecimal, UInt64.toNat_ofNat_of_lt' (Nat.lt_of_not_le hlt), toDigits_ofDigitChars h,
          String.ofList_toList]

open Kyber.Api.Accounts (hexDigits lanID)

/-- The ids that users get from the API. -/
inductive Issued : String → Prop
  | ea (n : UInt64) : Issued (toDecimal n)
  | lan (username : String) : Issued (lanID username)

theorem length_hexDigits (bytes : List UInt8) : (hexDigits bytes).length = 2 * bytes.length := by
  induction bytes with
  | nil => rfl
  | cons b rest ih =>
      rw [hexDigits, List.flatMap_cons, List.length_append, ← hexDigits, ih]
      show 2 + 2 * rest.length = 2 * (rest.length + 1)
      omega

theorem length_lanID (username : String) : (lanID username).toList.length = 16 := by
  rw [lanID, String.toList_ofList, length_hexDigits, List.length_take, sha256_length]
  rfl

/-- An id of the API is read and written as itself if it has only decimal digits and no
zero in front of them. -/
theorem issued_read_iff {id : String} (h : Issued id) :
    (∃ n, stoull id = .ok n ∧ toDecimal n = id) ↔ isDecimal id.toList = true := by
  constructor
  · rintro ⟨n, hn, hid⟩
    exact (toDecimal_eq_iff hn).mp hid
  · intro hdecimal
    have hlt : Nat.ofDigitChars 10 id.toList 0 < 2 ^ 64 := by
      cases h with
      | ea n =>
          rw [toDecimal, String.toList_ofList, Nat.ofDigitChars_ten_toDigits]
          exact n.toNat_lt
      | lan username =>
          have hbound := ofDigitChars_lt (all_isDigit_of_isDecimal hdecimal)
          rw [length_lanID] at hbound
          omega
    have hread := stoull_of_isDecimal hdecimal
    rw [if_neg (Nat.not_le.mpr hlt)] at hread
    exact ⟨_, hread, (toDecimal_eq_iff hread).mpr hdecimal⟩

/-! ## Searches -/

section

variable {m : ServerPlayerManager}

theorem getPlayerByName_eq (m : ServerPlayerManager) (name : String) :
    m.getPlayerByName name = m.all.find? fun p => !p.isAIPlayer && p.name == name :=
  (List.find?_append).symm

theorem getPlayerById_eq (m : ServerPlayerManager) (id : UInt64) :
    m.getPlayerById id = m.all.find? fun p => !p.isAIPlayer && p.nativeData == id :=
  (List.find?_append).symm

/-- Both searches find human players. -/
theorem found_human {wanted : ServerPlayer → Bool} {player : ServerPlayer}
    (h : (m.all.find? fun p => !p.isAIPlayer && wanted p) = some player) :
    player ∈ m.all ∧ player.isAIPlayer = false ∧ wanted player = true := by
  have hmatch := List.find?_some h
  rw [Bool.and_eq_true, Bool.not_eq_true'] at hmatch
  exact ⟨List.mem_of_find?_eq_some h, hmatch.1, hmatch.2⟩

theorem found_by_id {id : UInt64} {player : ServerPlayer} (h : m.getPlayerById id = some player) :
    player ∈ m.all ∧ player.isAIPlayer = false ∧ player.nativeData = id := by
  rw [getPlayerById_eq] at h
  obtain ⟨hmem, hhuman, hid⟩ := found_human h
  exact ⟨hmem, hhuman, beq_iff_eq.mp hid⟩

theorem found_by_name {name : String} {player : ServerPlayer}
    (h : m.getPlayerByName name = some player) :
    player ∈ m.all ∧ player.isAIPlayer = false ∧ player.name = name := by
  rw [getPlayerByName_eq] at h
  obtain ⟨hmem, hhuman, hname⟩ := found_human h
  exact ⟨hmem, hhuman, beq_iff_eq.mp hname⟩

theorem kickTarget_eq_ok_iff {id : String} {player : ServerPlayer} :
    m.kickTarget id = .ok (some player) ↔
      ∃ n, stoull id = .ok n ∧ m.getPlayerById n = some player := by
  unfold ServerPlayerManager.kickTarget
  cases stoull id with
  | error e => simp [Bind.bind, Except.bind]
  | ok n => simp [Bind.bind, Except.bind, pure, Except.pure]

end

/-- What `Identified` asks of a player, with the searches carried out. -/
structure Tagged (s : GameServer) (player : ServerPlayer) (id : String) : Prop where
  parsed : stoull id = .ok player.nativeData
  human : player.isAIPlayer = false
  written : player ∈ s.manager.players → toDecimal player.nativeData = id
  distinct : ∀ other ∈ s.everyone, other.connection ≠ player.connection →
    other.isAIPlayer = false → other.nativeData ≠ player.nativeData

theorem identified_iff {s : GameServer} (hkeys : (s.everyone.map (·.connection)).Nodup)
    {player : ServerPlayer} (hplayer : player ∈ s.everyone) (id : String) :
    Identified s player id ↔ Tagged s player id := by
  constructor
  · intro h
    obtain ⟨n, hn, hfound⟩ := kickTarget_eq_ok_iff.mp h.kicked
    obtain ⟨-, hhuman, hnumber⟩ := found_by_id hfound
    exact ⟨hnumber ▸ hn, hhuman, fun hmem => (h.reported hmem).2, h.distinct⟩
  · intro h
    refine ⟨fun hmem => ⟨?_, h.written hmem⟩, ?_, h.distinct⟩
    · exact List.mem_map_of_mem (List.mem_filter.mpr ⟨hmem, by simp [h.human]⟩)
    · refine kickTarget_eq_ok_iff.mpr ⟨player.nativeData, h.parsed, ?_⟩
      have hsome : (s.manager.getPlayerById player.nativeData).isSome = true := by
        rw [getPlayerById_eq]
        exact List.find?_isSome.mpr ⟨player, hplayer, by simp [h.human]⟩
      obtain ⟨found, hfound⟩ := Option.isSome_iff_exists.mp hsome
      obtain ⟨hmem, hhuman, hnumber⟩ := found_by_id hfound
      -- Nobody else has the number.
      have hconnection : found.connection = player.connection := by
        by_contra hne
        exact h.distinct found hmem hne hhuman hnumber
      have hsame : found = player := List.inj_on_of_nodup_map hkeys hmem hplayer hconnection
      exact hsame ▸ hfound

/-! ## What every run keeps -/

/-- Connections are not shared, and whoever is no bot has joined. -/
structure Base (s : GameServer) : Prop where
  keys : (s.everyone.map (·.connection)).Nodup
  humans : ∀ p ∈ s.everyone, p.isAIPlayer = false → ∃ id, (p.connection, id) ∈ s.joined

theorem survives_iff {s : GameServer} (hkeys : (s.everyone.map (·.connection)).Nodup) :
    Survives s ↔ s.threw = false ∧
      ∀ u ∈ s.joined, ∀ player ∈ s.everyone, player.connection = u.1 → Tagged s player u.2 := by
  constructor
  · intro h
    exact ⟨h.returned, fun u hu player hplayer hc =>
      (identified_iff hkeys hplayer u.2).mp (h.identified u hu player hplayer hc)⟩
  · rintro ⟨hreturned, htagged⟩
    exact ⟨hreturned, fun u hu player hplayer hc =>
      (identified_iff hkeys hplayer u.2).mpr (htagged u hu player hplayer hc)⟩

section

variable {s : GameServer} {new : NewPlayer} {name : String}

theorem insertAt_perm {α : Type} (l : List α) (index : Nat) (a : α) :
    (insertAt l index a).Perm (a :: l) := by
  have hmiddle : (insertAt l index a).Perm (a :: (l.take index ++ l.drop index)) :=
    List.perm_middle
  rwa [List.take_append_drop] at hmiddle

/-- A new player stands somewhere among the others. -/
theorem createPlayer_perm (m : ServerPlayerManager) (name : String) (new : NewPlayer) :
    (m.createPlayer name (some new)).all.Perm (new.player name :: m.all) := by
  simp only [ServerPlayerManager.createPlayer, ServerPlayerManager.all]
  split
  · exact ((insertAt_perm _ _ _).append_left _).trans List.perm_middle
  · exact (insertAt_perm _ _ _).append_right _

theorem createPlayer_players (m : ServerPlayerManager) (name : String) (new : NewPlayer)
    {p : ServerPlayer} :
    p ∈ (m.createPlayer name (some new)).players ↔
      (p = new.player name ∧ new.isSpectator = false) ∨ p ∈ m.players := by
  simp only [ServerPlayerManager.createPlayer]
  split
  · next h => simp [h]
  · next h =>
      rw [(insertAt_perm _ _ _).mem_iff, List.mem_cons]
      simp [h]

theorem free_iff {connection : Nat} : s.free connection = true ↔
    (∀ p ∈ s.everyone, p.connection ≠ connection) ∧ ∀ u ∈ s.joined, u.1 ≠ connection := by
  simp [GameServer.free]

@[simp] theorem ServerPlayer.setNativeData_connection (p : ServerPlayer) (connection : Nat)
    (id : UInt64) : (p.setNativeData connection id).connection = p.connection := by
  unfold ServerPlayer.setNativeData
  split <;> rfl

theorem ServerPlayer.setNativeData_of_ne {p : ServerPlayer} {connection : Nat}
    (h : p.connection ≠ connection) (id : UInt64) : p.setNativeData connection id = p := if_neg h

theorem setNativeData_all (m : ServerPlayerManager) (connection : Nat) (id : UInt64) :
    (m.setNativeData connection id).all = m.all.map (·.setNativeData connection id) :=
  List.map_append.symm

theorem setNativeData_keys (m : ServerPlayerManager) (connection : Nat) (id : UInt64) :
    (m.setNativeData connection id).all.map (·.connection) = m.all.map (·.connection) := by
  rw [setNativeData_all, List.map_map]
  exact List.map_congr_left fun p _ => p.setNativeData_connection connection id

/-- The callback with an id that can be read. -/
theorem joinTokenConsumed_eq {m : ServerPlayerManager} {id : String} {n : UInt64}
    (hn : stoull id = .ok n) (name : String) (new : Option NewPlayer) :
    m.joinTokenConsumed id name new = .ok
      (match (m.createPlayer name new).getPlayerByName name with
      | none => m.createPlayer name new
      | some player => (m.createPlayer name new).setNativeData player.connection n) := by
  simp only [ServerPlayerManager.joinTokenConsumed, hn, Bind.bind, Except.bind, pure, Except.pure]
  cases (m.createPlayer name new).getPlayerByName name <;> rfl

/-- What a step can do. -/
theorem GameServer.step_cases {s s' : GameServer} {a : GameAction} (h : s.step a = some s') :
    (∃ id name new joined, a = .join id name new ∧
      (new.all fun new => s.free new.connection) = true ∧
      joined = s.joined ++ (new.map fun new => (new.connection, id)).toList ∧
      ((∃ e, stoull id = .error e) ∧ s' = { s with threw := true, joined } ∨
        ∃ n manager, stoull id = .ok n ∧ s.manager.joinTokenConsumed id name new = .ok manager ∧
          s' = { s with manager, joined })) ∨
    (∃ connection, a = .leave connection ∧ s' = { s with
        manager :=
          { players := s.manager.players.filter fun p => p.connection != connection
            spectators := s.manager.spectators.filter fun p => p.connection != connection }
        joined := s.joined.filter (·.1 != connection) }) ∨
    ∃ bot name, a = .addBot bot name ∧ s.free bot.connection = true ∧
      (bot.player name).isAIPlayer = true ∧
      s' = { s with manager := s.manager.createPlayer name (some bot) } := by
  cases a with
  | join id name new =>
      simp only [GameServer.step] at h
      split at h
      · next hfree =>
          refine .inl ⟨id, name, new, _, rfl, hfree, rfl, ?_⟩
          cases hn : stoull id with
          | error e =>
              have hthrows : s.manager.joinTokenConsumed id name new = .error e := by
                simp only [ServerPlayerManager.joinTokenConsumed, hn]
                rfl
              rw [hthrows] at h
              exact .inl ⟨⟨e, rfl⟩, (Option.some.inj h).symm⟩
          | ok n =>
              rw [joinTokenConsumed_eq hn] at h ⊢
              exact .inr ⟨n, _, rfl, rfl, (Option.some.inj h).symm⟩
      · cases h
  | leave connection => exact .inr (.inl ⟨connection, rfl, (Option.some.inj h).symm⟩)
  | addBot bot name =>
      simp only [GameServer.step] at h
      split at h
      · next hbot =>
          rw [Bool.and_eq_true] at hbot
          exact .inr (.inr ⟨bot, name, rfl, hbot.1, hbot.2, (Option.some.inj h).symm⟩)
      · cases h

theorem createPlayer_keys (hkeys : (s.everyone.map (·.connection)).Nodup)
    (hfree : s.free new.connection = true) (name : String) :
    ((s.manager.createPlayer name (some new)).all.map (·.connection)).Nodup := by
  rw [((createPlayer_perm s.manager name new).map _).nodup_iff, List.map_cons, List.nodup_cons]
  refine ⟨fun hmem => ?_, hkeys⟩
  obtain ⟨p, hp, hc⟩ := List.mem_map.mp hmem
  exact (free_iff.mp hfree).1 p hp hc

/-- A human player with the name is found, or another one. -/
theorem found_of_human {m : ServerPlayerManager} {p : ServerPlayer} (hp : p ∈ m.all)
    (hhuman : p.isAIPlayer = false) : ∃ found, m.getPlayerByName p.name = some found := by
  rw [← Option.isSome_iff_exists, getPlayerByName_eq, List.find?_isSome]
  exact ⟨p, hp, by simp [hhuman]⟩

/-- The search by name sets the number of a player who has joined. -/
theorem Base.tag {m : ServerPlayerManager} {joined : List (Nat × String)}
    (h : Base { s with manager := m, joined }) {player : ServerPlayer}
    (hfound : m.getPlayerByName name = some player) (n : UInt64) :
    Base { s with manager := m.setNativeData player.connection n, joined } := by
  obtain ⟨hmem, hhuman, -⟩ := found_by_name hfound
  refine ⟨?_, fun p hp hp' => ?_⟩
  · show ((m.setNativeData player.connection n).all.map (·.connection)).Nodup
    rw [setNativeData_keys]
    exact h.keys
  · have hp₁ : p ∈ (m.setNativeData player.connection n).all := hp
    rw [setNativeData_all] at hp₁
    obtain ⟨old, hold, rfl⟩ := List.mem_map.mp hp₁
    rw [ServerPlayer.setNativeData_connection]
    by_cases hc : old.connection = player.connection
    · rw [hc]
      exact h.humans player hmem hhuman
    · rw [ServerPlayer.setNativeData_of_ne hc] at hp'
      exact h.humans old hold hp'

theorem Base.create (h : Base s) (hfree : s.free new.connection = true) {id : String} :
    Base { s with
      manager := s.manager.createPlayer name (some new)
      joined := s.joined ++ [(new.connection, id)] } := by
  refine ⟨createPlayer_keys h.keys hfree name, fun p hp hhuman => ?_⟩
  rcases List.mem_cons.mp ((createPlayer_perm s.manager name new).mem_iff.mp hp) with rfl | hp
  · exact ⟨id, List.mem_append_right _ (List.mem_singleton_self _)⟩
  · obtain ⟨id', hid'⟩ := h.humans p hp hhuman
    exact ⟨id', List.mem_append_left _ hid'⟩

end

theorem Base.step {s s' : GameServer} {a : GameAction} (h : Base s) (hstep : s.step a = some s') :
    Base s' := by
  rcases GameServer.step_cases hstep with
    ⟨id, name, new, joined, -, hfree, rfl, ⟨-, rfl⟩ | ⟨n, manager, hn, hconsumed, rfl⟩⟩ |
    ⟨connection, -, rfl⟩ | ⟨bot, name, -, hfree, hbot, rfl⟩
  · refine ⟨h.keys, fun p hp hhuman => ?_⟩
    obtain ⟨id', hid'⟩ := h.humans p hp hhuman
    exact ⟨id', List.mem_append_left _ hid'⟩
  · have hcreated : Base { s with
        manager := s.manager.createPlayer name new
        joined := s.joined ++ (new.map fun new => (new.connection, id)).toList } := by
      cases new with
      | none => simpa [ServerPlayerManager.createPlayer] using h
      | some new => exact h.create hfree
    rw [joinTokenConsumed_eq hn, Except.ok.injEq] at hconsumed
    subst hconsumed
    split
    · exact hcreated
    · next player hfound => exact hcreated.tag hfound n
  · refine ⟨?_, fun p hp hhuman => ?_⟩
    · refine h.keys.sublist (List.Sublist.map _ ?_)
      exact List.filter_sublist.append List.filter_sublist
    · have hkept : p ∈ s.everyone ∧ p.connection ≠ connection := by
        simp only [GameServer.everyone, ServerPlayerManager.all, List.mem_append, List.mem_filter,
          bne_iff_ne] at hp ⊢
        exact ⟨hp.imp And.left And.left, hp.elim And.right And.right⟩
      obtain ⟨id', hid'⟩ := h.humans p hkept.1 hhuman
      exact ⟨id', List.mem_filter.mpr ⟨hid', by simpa using hkept.2⟩⟩
  · refine ⟨createPlayer_keys h.keys hfree name, fun p hp hhuman => ?_⟩
    rcases List.mem_cons.mp ((createPlayer_perm s.manager name bot).mem_iff.mp hp) with rfl | hp
    · rw [hbot] at hhuman
      cases hhuman
    · exact h.humans p hp hhuman

/-! ## A step -/

section

variable {s s' : GameServer} {player : ServerPlayer} {id : String}

theorem Base.tagged (hb : Base s) (hs : Survives s) (hplayer : player ∈ s.everyone)
    (hhuman : player.isAIPlayer = false) :
    ∃ id, (player.connection, id) ∈ s.joined ∧ Tagged s player id := by
  obtain ⟨id, hid⟩ := hb.humans player hplayer hhuman
  exact ⟨id, hid, ((survives_iff hb.keys).mp hs).2 _ hid player hplayer rfl⟩

/-- A player stays tagged while those who come do not have the number. -/
theorem Tagged.mono (h : Tagged s player id)
    (hplayers : player ∈ s'.manager.players → player ∈ s.manager.players)
    (hothers : ∀ other ∈ s'.everyone, other ∈ s.everyone ∨
      (other.isAIPlayer = false → other.nativeData ≠ player.nativeData)) :
    Tagged s' player id := by
  refine ⟨h.parsed, h.human, fun hmem => h.written (hplayers hmem), ?_⟩
  intro other hother hne hhuman
  rcases hothers other hother with hold | hnew
  · exact h.distinct other hold hne hhuman
  · exact hnew hhuman

/-- The online id that is set already. -/
theorem setNativeData_self {m : ServerPlayerManager} (hkeys : (m.all.map (·.connection)).Nodup)
    (hplayer : player ∈ m.all) :
    m.setNativeData player.connection player.nativeData = m := by
  have hsame : ∀ p ∈ m.all, p.setNativeData player.connection player.nativeData = p := by
    intro p hp
    by_cases hc : p.connection = player.connection
    · rw [List.inj_on_of_nodup_map hkeys hp hplayer hc]
      simp [ServerPlayer.setNativeData]
    · exact ServerPlayer.setNativeData_of_ne hc _
  cases m with
  | mk players spectators =>
      simp only [ServerPlayerManager.setNativeData, ServerPlayerManager.mk.injEq]
      constructor
      · exact (List.map_congr_left fun p hp => hsame p (List.mem_append_left _ hp)).trans
          (List.map_id' players)
      · exact (List.map_congr_left fun p hp => hsame p (List.mem_append_right _ hp)).trans
          (List.map_id' spectators)

/-- A join without a new player gives a number to whoever is found. -/
theorem survives_rejoin_iff (hb : Base s) (hs : Survives s) {found : ServerPlayer}
    (hfound : found ∈ s.everyone) (hhuman : found.isAIPlayer = false) (n : UInt64) :
    Survives { s with manager := s.manager.setNativeData found.connection n } ↔
      found.nativeData = n := by
  obtain ⟨id, hid, htagged⟩ := hb.tagged hs hfound hhuman
  constructor
  · intro h
    -- The user's text is read as the old number and as the new one.
    have hmem : found.setNativeData found.connection n ∈
        (s.manager.setNativeData found.connection n).all := by
      rw [setNativeData_all]
      exact List.mem_map_of_mem hfound
    have hkicked := (h.identified _ hid _ hmem (by simp)).kicked
    obtain ⟨k, hk, hfound'⟩ := kickTarget_eq_ok_iff.mp hkicked
    have hmatch := (found_by_id hfound').2.2
    rw [htagged.parsed] at hk
    cases hk
    simpa [ServerPlayer.setNativeData] using hmatch.symm
  · rintro rfl
    rw [setNativeData_self hb.keys hfound]
    exact hs

section

variable {new : NewPlayer} {name : String}

/-- The player who joins, with the number. -/
def NewPlayer.tagged (new : NewPlayer) (name : String) (n : UInt64) : ServerPlayer :=
  { new.player name with nativeData := n }

theorem setNativeData_created (hfree : s.free new.connection = true) (n : UInt64)
    {p : ServerPlayer} (hp : p ∈ s.everyone) : p.setNativeData new.connection n = p :=
  ServerPlayer.setNativeData_of_ne ((free_iff.mp hfree).1 p hp) n

theorem mem_all_tagged (hfree : s.free new.connection = true) (n : UInt64) {p : ServerPlayer} :
    p ∈ ((s.manager.createPlayer name (some new)).setNativeData new.connection n).all ↔
      p = new.tagged name n ∨ p ∈ s.everyone := by
  rw [setNativeData_all, ((createPlayer_perm s.manager name new).map _).mem_iff, List.map_cons,
    List.mem_cons]
  have hothers : s.manager.all.map (·.setNativeData new.connection n) = s.manager.all :=
    (List.map_congr_left fun q hq => setNativeData_created hfree n hq).trans (List.map_id' _)
  have hnew : (new.player name).setNativeData new.connection n = new.tagged name n := if_pos rfl
  rw [hothers, hnew]
  rfl

theorem mem_players_tagged (hfree : s.free new.connection = true) (n : UInt64)
    {p : ServerPlayer} :
    p ∈ ((s.manager.createPlayer name (some new)).setNativeData new.connection n).players ↔
      (p = new.tagged name n ∧ new.isSpectator = false) ∨ p ∈ s.manager.players := by
  have hnew : (new.player name).setNativeData new.connection n = new.tagged name n := if_pos rfl
  have hold : ∀ q ∈ s.manager.players, q.setNativeData new.connection n = q :=
    fun q hq => setNativeData_created hfree n (List.mem_append_left _ hq)
  simp only [ServerPlayerManager.setNativeData, List.mem_map, createPlayer_players]
  constructor
  · rintro ⟨q, ⟨rfl, hspectator⟩ | hq, rfl⟩
    · exact .inl ⟨hnew, hspectator⟩
    · rw [hold q hq]
      exact .inr hq
  · rintro (⟨rfl, hspectator⟩ | hp)
    · exact ⟨_, .inl ⟨rfl, hspectator⟩, hnew⟩
    · exact ⟨p, .inr hp, hold p hp⟩

/-- The player who joins gets the number. -/
theorem survives_tagged_iff (hb : Base s) (hs : Survives s) (hfree : s.free new.connection = true)
    (hhuman : (new.player name).isAIPlayer = false) {n : UInt64} (hn : stoull id = .ok n) :
    Survives { s with
        manager := (s.manager.createPlayer name (some new)).setNativeData new.connection n
        joined := s.joined ++ [(new.connection, id)] } ↔
      isBotId n = false ∧ (new.isSpectator = true ∨ isDecimal id.toList = true) ∧
        ∀ p ∈ s.everyone, p.isAIPlayer = true ∨ p.nativeData ≠ n := by
  have hkeys : (((s.manager.createPlayer name (some new)).setNativeData new.connection n).all.map
      (·.connection)).Nodup := by
    rw [setNativeData_keys]
    exact createPlayer_keys hb.keys hfree name
  have htag : (new.tagged name n).isAIPlayer = isBotId n := by
    have hlocal := (Bool.or_eq_false_iff.mp hhuman).1
    simp only [ServerPlayer.isAIPlayer] at hlocal ⊢
    exact (congrArg (· || isBotId n) hlocal).trans (Bool.false_or _)
  obtain ⟨hunknown, hunused⟩ := free_iff.mp hfree
  have hold := (survives_iff hb.keys).mp hs
  refine (survives_iff (by exact hkeys)).trans ?_
  constructor
  · rintro ⟨-, h⟩
    have hself := h (new.connection, id) (List.mem_append_right _ (List.mem_singleton_self _))
      (new.tagged name n) ((mem_all_tagged hfree n).mpr (.inl rfl)) rfl
    refine ⟨htag ▸ hself.human, ?_, fun p hp => ?_⟩
    · cases hspectator : new.isSpectator with
      | true => exact .inl rfl
      | false =>
          have hwritten := hself.written
            ((mem_players_tagged hfree n).mpr (.inl ⟨rfl, hspectator⟩))
          exact .inr ((toDecimal_eq_iff hn).mp hwritten)
    · refine or_iff_not_imp_left.mpr fun hp' => ?_
      exact hself.distinct p ((mem_all_tagged hfree n).mpr (.inr hp)) (hunknown p hp)
        (Bool.eq_false_iff.mpr hp')
  · rintro ⟨hbot, htext, hothers⟩
    refine ⟨hold.1, fun u hu p hp hc => ?_⟩
    rcases (mem_all_tagged hfree n).mp hp with rfl | hp
    · have hu' : u = (new.connection, id) := by
        rcases List.mem_append.mp hu with hu | hu
        · exact absurd hc.symm (hunused u hu)
        · exact List.mem_singleton.mp hu
      subst hu'
      refine ⟨hn, htag.trans hbot, fun hlisted => ?_, fun other hother hne hhuman' => ?_⟩
      · refine (toDecimal_eq_iff hn).mpr (htext.resolve_left fun hspectator => ?_)
        rcases (mem_players_tagged hfree n).mp hlisted with ⟨-, hplayer⟩ | hmem
        · rw [hspectator] at hplayer
          cases hplayer
        · exact hunknown _ (List.mem_append_left _ hmem) rfl
      · rcases (mem_all_tagged hfree n).mp hother with rfl | hother
        · exact absurd rfl hne
        · exact (hothers other hother).resolve_left (by simp [hhuman'])
    · have hu' : u ∈ s.joined := by
        rcases List.mem_append.mp hu with hu | hu
        · exact hu
        · cases List.mem_singleton.mp hu
          exact absurd hc (hunknown p hp)
      have htagged := hold.2 u hu' p hp hc
      refine htagged.mono (fun hlisted => ?_) fun other hother => ?_
      · refine ((mem_players_tagged hfree n).mp hlisted).resolve_left fun hnew => ?_
        exact hunknown p hp (by rw [hnew.1]; rfl)
      · rcases (mem_all_tagged hfree n).mp hother with rfl | hother
        · refine .inr fun _ heq => ?_
          exact (hothers p hp).resolve_left (by simp [htagged.human]) heq.symm
        · exact .inl hother

/-- Nobody is found: the player who joins is taken for a bot. -/
theorem not_survives_unfound (hb : Base s) (hfree : s.free new.connection = true)
    (hfound : (s.manager.createPlayer name (some new)).getPlayerByName name = none) :
    ¬ Survives { s with
      manager := s.manager.createPlayer name (some new)
      joined := s.joined ++ [(new.connection, id)] } := by
  intro h
  have hmem : new.player name ∈ (s.manager.createPlayer name (some new)).all :=
    (createPlayer_perm s.manager name new).mem_iff.mpr List.mem_cons_self
  have hself := ((survives_iff (hb.create hfree).keys).mp h).2 (new.connection, id)
    (List.mem_append_right _ (List.mem_singleton_self _)) (new.player name) hmem rfl
  obtain ⟨found, hfound'⟩ := found_of_human hmem hself.human
  rw [show (new.player name).name = name from rfl, hfound] at hfound'
  cases hfound'

/-- Somebody else is found and gets the number. -/
theorem not_survives_misnamed (hb : Base s) (hfree : s.free new.connection = true) {n : UInt64}
    (hn : stoull id = .ok n)
    (hfound : (s.manager.createPlayer name (some new)).getPlayerByName name = some player)
    (hother : player.connection ≠ new.connection) :
    ¬ Survives { s with
      manager := (s.manager.createPlayer name (some new)).setNativeData player.connection n
      joined := s.joined ++ [(new.connection, id)] } := by
  intro h
  obtain ⟨hplayer, hhuman, -⟩ := found_by_name hfound
  have hall : ∀ {p}, p ∈ (s.manager.createPlayer name (some new)).all →
      p.setNativeData player.connection n ∈
        ((s.manager.createPlayer name (some new)).setNativeData player.connection n).all := by
    intro p hp
    rw [setNativeData_all]
    exact List.mem_map_of_mem hp
  have hnew := hall ((createPlayer_perm s.manager name new).mem_iff.mpr List.mem_cons_self)
  rw [ServerPlayer.setNativeData_of_ne (show (new.player name).connection ≠ _ from hother.symm)]
    at hnew
  have hself := ((survives_iff ((hb.create hfree).tag hfound n).keys).mp h).2 (new.connection, id)
    (List.mem_append_right _ (List.mem_singleton_self _)) (new.player name) hnew rfl
  have hnumber : n = new.nativeData := Except.ok.inj (hn.symm.trans hself.parsed)
  -- The other player has the number too, and is no bot, as the new one is none.
  have htag : player.setNativeData player.connection n = { player with nativeData := n } :=
    if_pos rfl
  refine hself.distinct _ (hall hplayer)
    (by rw [ServerPlayer.setNativeData_connection]; exact hother) ?_ ?_
  · have hlocal := (Bool.or_eq_false_iff.mp hhuman).1
    have hbot := (Bool.or_eq_false_iff.mp hself.human).2
    rw [htag]
    exact Bool.or_eq_false_iff.mpr ⟨hlocal, hnumber ▸ hbot⟩
  · rw [htag]
    exact hnumber

end

theorem survives_leave (hb : Base s) (hs : Survives s) (connection : Nat) :
    Survives { s with
      manager :=
        { players := s.manager.players.filter fun p => p.connection != connection
          spectators := s.manager.spectators.filter fun p => p.connection != connection }
      joined := s.joined.filter (·.1 != connection) } := by
  have hb' := hb.step (show s.step (.leave connection) = some _ from rfl)
  refine (survives_iff hb'.keys).mpr ⟨hs.returned, fun u hu p hp hc => ?_⟩
  have hall : ∀ {p}, p ∈ s.manager.players.filter (fun p => p.connection != connection) ++
      s.manager.spectators.filter (fun p => p.connection != connection) → p ∈ s.everyone := by
    intro p hp
    rw [← List.filter_append] at hp
    exact (List.mem_filter.mp hp).1
  refine (((survives_iff hb.keys).mp hs).2 u (List.mem_filter.mp hu).1 p (hall hp) hc).mono ?_ ?_
  · exact fun hlisted => (List.mem_filter.mp hlisted).1
  · exact fun other hother => .inl (hall hother)

theorem survives_addBot (hb : Base s) (hs : Survives s) {bot : NewPlayer} {name : String}
    (hfree : s.free bot.connection = true) (hbot : (bot.player name).isAIPlayer = true) :
    Survives { s with manager := s.manager.createPlayer name (some bot) } := by
  obtain ⟨hunknown, hunused⟩ := free_iff.mp hfree
  refine (survives_iff (by exact createPlayer_keys hb.keys hfree name)).mpr
    ⟨hs.returned, fun u hu p hp hc => ?_⟩
  rcases List.mem_cons.mp ((createPlayer_perm s.manager name bot).mem_iff.mp hp) with rfl | hp
  · exact absurd hc.symm (hunused u hu)
  · refine (((survives_iff hb.keys).mp hs).2 u hu p hp hc).mono (fun hlisted => ?_)
      fun other hother => ?_
    · refine ((createPlayer_players s.manager name bot).mp hlisted).resolve_left fun hnew => ?_
      exact hunknown p hp (by rw [hnew.1]; rfl)
    · rcases List.mem_cons.mp ((createPlayer_perm s.manager name bot).mem_iff.mp hother) with
        rfl | hother
      · exact .inr fun hhuman => absurd hbot (by simp [hhuman])
      · exact .inl hother

theorem survives_join_iff (hb : Base s) (hs : Survives s) {name : String} {new : NewPlayer}
    (hfree : s.free new.connection = true) {n : UInt64} (hn : stoull id = .ok n) :
    Survives { s with
        manager :=
          match (s.manager.createPlayer name (some new)).getPlayerByName name with
          | none => s.manager.createPlayer name (some new)
          | some player =>
              (s.manager.createPlayer name (some new)).setNativeData player.connection n
        joined := s.joined ++ [(new.connection, id)] } ↔
      keepsIdentities s (.join id name (some new)) = true := by
  simp only [keepsIdentities, hn]
  cases hfound : (s.manager.createPlayer name (some new)).getPlayerByName name with
  | none => simpa using not_survives_unfound hb hfree hfound
  | some player =>
      by_cases hself : player.connection = new.connection
      · obtain ⟨hplayer, hhuman, -⟩ := found_by_name hfound
        have hnew : player = new.player name := by
          refine List.inj_on_of_nodup_map (createPlayer_keys hb.keys hfree name) hplayer ?_ hself
          exact (createPlayer_perm s.manager name new).mem_iff.mpr List.mem_cons_self
        rw [hnew] at hhuman
        simp only [hself]
        rw [survives_tagged_iff hb hs hfree hhuman hn]
        simp [hself, and_assoc]
      · simpa [hself] using not_survives_misnamed hb hfree hn hfound hself

theorem survives_step_iff {a : GameAction} (hb : Base s) (hs : Survives s)
    (h : s.step a = some s') : Survives s' ↔ keepsIdentities s a = true := by
  rcases GameServer.step_cases h with
    ⟨id, name, new, joined, rfl, hfree, rfl, ⟨⟨e, he⟩, rfl⟩ | ⟨n, manager, hn, hconsumed, rfl⟩⟩ |
    ⟨connection, rfl, rfl⟩ | ⟨bot, name, rfl, hfree, hbot, rfl⟩
  · refine iff_of_false (fun h => ?_) (by simp [keepsIdentities, he])
    cases h.returned
  · rw [joinTokenConsumed_eq hn, Except.ok.injEq] at hconsumed
    subst hconsumed
    cases new with
    | none =>
        simp only [keepsIdentities, hn, ServerPlayerManager.createPlayer, Option.map_none,
          Option.toList_none, List.append_nil]
        cases hfound : s.manager.getPlayerByName name with
        | none => simpa using hs
        | some player =>
            obtain ⟨hplayer, hhuman, -⟩ := found_by_name hfound
            simpa using survives_rejoin_iff hb hs hplayer hhuman n
    | some new => exact survives_join_iff hb hs hfree hn
  · simpa [keepsIdentities] using survives_leave hb hs connection
  · simpa [keepsIdentities] using survives_addBot hb hs hfree hbot

end

/-! ## Runs -/

/-- All along a run of a server the players are who the API takes them for, exactly if
each join leaves them so. -/
theorem identities_run (as : List GameAction) :
    (∀ s ∈ visits GameServer.step {} as, Survives s) ↔
      ∀ m ∈ moves GameServer.step {} as, keepsIdentities m.1 m.2 = true := by
  refine forall_visits_iff_forall_moves GameServer.step Base (keepsIdentities · · = true)
    Base.step survives_step_iff ?_ ?_ as
  · exact ⟨List.nodup_nil, fun p hp => absurd hp List.not_mem_nil⟩
  · exact ⟨rfl, fun u hu => absurd hu List.not_mem_nil⟩

/-- A user of a LAN server whose id begins with a letter. -/
def lanJoin : List GameAction :=
  [.join (lanID "Luke") "Luke"
    (some
      { connection := 1
        localPlayerId := 0
        nativeData := 0
        teamId := 1
        isSpectator := false
        index := 0 })]

theorem lanJoin_throws :
    lanID "Luke" = "b395b3d82da20e93" ∧
      stoull (lanID "Luke") = .error .invalidArgument ∧
      ¬ ∀ s ∈ visits GameServer.step {} lanJoin, Survives s := by
  have hid : lanID "Luke" = "b395b3d82da20e93" := by decide +kernel
  have hthrows : (visits GameServer.step {} lanJoin).any (·.threw) = true := by decide +kernel
  refine ⟨hid, by rw [hid]; decide, fun h => ?_⟩
  obtain ⟨s, hs, hthrew⟩ := List.any_eq_true.mp hthrows
  rw [(h s hs).returned] at hthrew
  cases hthrew

end Kyber.Core
