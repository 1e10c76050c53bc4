import Kyber.Api.ServerBrowser
import Kyber.Proofs.JoinTokens
import Mathlib.Data.List.Perm.Subperm

/-!
# Asking before joining

`CanJoinServer` and `CreateJoinToken` decide the same question from the same store.
Each is a list of checks, and the two lists differ: the first does not look for the
host and does not count players, and the second lets those who manage the server
in without a password. What each answers is one condition on the store, and the
two conditions say where they part.
-/

namespace Kyber.Api

open Kyber.Lib Prog

/-- The password is none or the right one. -/
def ServerModel.accepts (server : ServerModel) (password : String) : Prop :=
  server.password = none ∨ server.password = some password

instance (server : ServerModel) (password : String) : Decidable (server.accepts password) :=
  inferInstanceAs (Decidable (_ ∨ _))

theorem accepts_iff (server : ServerModel) (password : String) :
    server.accepts password ↔ ¬ (server.password.isSome ∧ server.password ≠ some password) := by
  unfold ServerModel.accepts
  cases server.password <;> simp

/-- The user is let in when the server is full, and without the password. -/
def Manages (server : ServerModel) (host user : UserModel) : Prop :=
  server.canManage host user = true ∨ user.entitled .admin = true

/-- The host of the server has an active ban of the user. -/
def Store.Bans (st : Store) (hostID userID : String) : Prop :=
  ∃ p ∈ st.punishments, p.isBan (some hostID) userID st.now = true

theorem banForServer_none_iff (st : Store) (hostID userID : String) :
    st.punishments.find? (·.isBan (some hostID) userID st.now) = none ↔
      ¬ st.Bans hostID userID := by
  rw [List.find?_eq_none]
  unfold Store.Bans
  simp

/-! ## `CanJoinServer` -/

def CanJoin (st : Store) (user : UserModel) (req : CanJoinServerRequest) : Prop :=
  ∃ reason, ((canJoinServer user req).eval Store.perform st).2 = .ok (.canJoin true reason)

theorem canJoin_iff (st : Store) (user : UserModel) (req : CanJoinServerRequest) :
    CanJoin st user req ↔ ∃ server, st.servers.find? (·.id == req.id) = some server ∧
      server.accepts req.password ∧ ¬ st.Bans server.hostID user.id := by
  simp only [CanJoin, canJoinServer, eval_query, Store.perform]
  cases hserver : st.servers.find? (·.id == req.id) with
  | none => simp [refuse]
  | some server =>
      simp only [Option.some.injEq, exists_eq_left', accepts_iff, ← banForServer_none_iff]
      split
      · next hpass => simp [hpass]
      · next hpass =>
          rw [eval_query]
          simp only [hpass, not_false_eq_true, true_and, Store.perform]
          cases hban : st.punishments.find? (·.isBan (some server.hostID) user.id st.now) with
          | none => simp
          | some ban => cases hreason : ban.reason <;> simp [hreason]

/-! ## `CreateJoinToken` -/

/-- A token is deleted for each of its ids in the collection, so the loop goes
through: it is run on the tokens of one user. -/
theorem deleteExisting_goes_through (rest : Handler) (tokens : List JoinTokenModel) {st : Store}
    (h : (tokens.map (·.id)).Subperm (st.joinTokens.map (·.id))) :
    ∃ left : List JoinTokenModel, left.Sublist st.joinTokens ∧
      (deleteExisting rest tokens).eval Store.perform st =
        rest.eval Store.perform { st with joinTokens := left } := by
  induction tokens generalizing st with
  | nil => exact ⟨st.joinTokens, .refl _, rfl⟩
  | cons token tokens ih =>
      have hthere : st.joinTokens.any (·.id == token.id) = true := by
        have hmem := h.subset (List.mem_cons_self (a := token.id))
        obtain ⟨doc, hdoc, hid⟩ := List.mem_map.mp hmem
        exact List.any_eq_true.mpr ⟨doc, hdoc, by simpa using hid⟩
      have hperform : st.perform (.deleteJoinToken token.id) =
          ({ st with joinTokens := st.joinTokens.eraseP (·.id == token.id) }, .ok ()) :=
        if_pos hthere
      have hleft : (tokens.map (·.id)).Subperm
          ((st.joinTokens.eraseP (·.id == token.id)).map (·.id)) := by
        have herase := h.erase token.id
        rw [List.map_cons, List.erase_cons_head, List.erase_eq_eraseP', List.eraseP_map] at herase
        exact herase
      simp only [deleteExisting, eval_query, hperform]
      obtain ⟨left, hsub, heval⟩ := @ih { st with joinTokens := _ } hleft
      exact ⟨left, hsub.trans List.eraseP_sublist, heval⟩

def Joins (st : Store) (user : UserModel) (req : JoinTokenRequest) (gen : Generated) : Prop :=
  ∃ token, ((createJoinToken user req gen).eval Store.perform st).2 = .ok (.joinToken token)

/-- The checks behind the deletion. -/
theorem admitToServer_joins_iff {st : Store} {user : UserModel} {req : JoinTokenRequest}
    {server : ServerModel} {gen : Generated} {token : SignedToken} (hsigned : gen.signed = some token)
    (hfresh : ∀ doc ∈ st.joinTokens, doc.id ≠ gen.id) :
    (∃ r, ((admitToServer user req server gen).eval Store.perform st).2 = .ok (.joinToken r)) ↔
      ∃ host, st.users.find? (·.id == server.hostID) = some host ∧
        (Manages server host user ∨
          server.playerCount < server.maxPlayerCount ∧ server.accepts req.password) := by
  have hissue : ((issueJoinToken user server gen).eval Store.perform st).2
      = .ok (.joinToken token.text) := by
    have hnew : st.joinTokens.any (·.id == gen.id) = false := by
      rw [List.any_eq_false]
      intro doc hdoc
      simpa using hfresh doc hdoc
    simp [issueJoinToken, hsigned, eval_query, Store.perform, hnew]
  simp only [admitToServer, eval_query, Store.perform]
  cases hhost : st.users.find? (·.id == server.hostID) with
  | none => simp [refuse]
  | some host =>
      simp only [Option.some.injEq, exists_eq_left', accepts_iff, Manages, ← Bool.or_eq_true]
      cases hmod : server.canManage host user || user.entitled .admin with
      | true => simp [hissue]
      | false =>
          simp only [Bool.not_false, true_and, ge_iff_le, Bool.false_eq_true, false_or]
          split
          · next hfull => simp [refuse, UInt32.not_lt.mpr hfull]
          · next hfull =>
              split
              · next hpass => simp [refuse, hpass]
              · next hpass => simp [hissue, UInt32.not_le.mp hfull, hpass]

theorem joins_iff {st : Store} {user : UserModel} {req : JoinTokenRequest} {gen : Generated}
    {token : SignedToken} (hsigned : gen.signed = some token)
    (hfresh : ∀ doc ∈ st.joinTokens, doc.id ≠ gen.id) :
    Joins st user req gen ↔ ∃ server, st.servers.find? (·.id == req.server) = some server ∧
      ¬ st.Bans server.hostID user.id ∧
      ∃ host, st.users.find? (·.id == server.hostID) = some host ∧
        (Manages server host user ∨
          server.playerCount < server.maxPlayerCount ∧ server.accepts req.password) := by
  simp only [Joins, createJoinToken, eval_query, Store.perform]
  cases hserver : st.servers.find? (·.id == req.server) with
  | none => simp [refuse]
  | some server =>
      simp only [Option.some.injEq, exists_eq_left', ← banForServer_none_iff, eval_query,
        Store.perform]
      cases hban : st.punishments.find? (·.isBan (some server.hostID) user.id st.now) with
      | some ban => cases hreason : ban.reason <;> simp [refuseBanned, hreason, refuse]
      | none =>
          obtain ⟨left, hsub, heval⟩ := deleteExisting_goes_through
            (admitToServer user req server gen) (st.joinTokens.filter (·.user == user.id))
            (List.filter_sublist.map _).subperm
          simp only [eval_query, Store.perform, heval, true_and]
          exact admitToServer_joins_iff hsigned fun doc hdoc => hfresh doc (hsub.subset hdoc)

/-! ## Where they agree -/

/-- For a server that is there and whose host has not banned the user: with the
password, the host is there and the user manages the server or finds room; without
it, the user does not manage the server. -/
def Agreeing (st : Store) (user : UserModel) (id password : String) : Prop :=
  ∀ server, st.servers.find? (·.id == id) = some server → ¬ st.Bans server.hostID user.id →
    if server.accepts password then
      ∃ host, st.users.find? (·.id == server.hostID) = some host ∧
        (Manages server host user ∨ server.playerCount < server.maxPlayerCount)
    else
      ∀ host, st.users.find? (·.id == server.hostID) = some host → ¬ Manages server host user

/-- `CanJoinServer` says what `CreateJoinToken` would do exactly if the server is
one of those. -/
theorem canJoin_iff_joins_iff {st : Store} {user : UserModel} {id password : String}
    {gen : Generated} {token : SignedToken} (hsigned : gen.signed = some token)
    (hfresh : ∀ doc ∈ st.joinTokens, doc.id ≠ gen.id) :
    (CanJoin st user { id, password } ↔ Joins st user { server := id, password } gen) ↔
      Agreeing st user id password := by
  rw [canJoin_iff, joins_iff hsigned hfresh]
  unfold Agreeing
  cases hserver : st.servers.find? (·.id == id) with
  | none => simp
  | some server =>
      simp only [Option.some.injEq, exists_eq_left', forall_eq']
      by_cases hban : st.Bans server.hostID user.id
      · simp [hban]
      · by_cases hpass : server.accepts password
        · simp [hban, hpass]
        · simp [hban, hpass]

/-- The two agree on a server with room. -/
theorem canJoin_iff_joins_sample :
    (∀ doc ∈ sampleStore.joinTokens, doc.id ≠ sampleGenerated.id) ∧
      (CanJoin sampleStore sampleUser { id := "s", password := "" } ↔
        Joins sampleStore sampleUser { server := "s", password := "" } sampleGenerated) := by
  have hfresh : ∀ doc ∈ sampleStore.joinTokens, doc.id ≠ sampleGenerated.id := by
    intro doc hdoc
    cases hdoc
  have hsigned : sampleGenerated.signed = some ⟨"jwt", by decide⟩ := rfl
  refine ⟨hfresh, (canJoin_iff_joins_iff hsigned hfresh).mpr ?_⟩
  intro server hserver _
  cases hserver
  rw [if_pos (by decide)]
  exact ⟨sampleHost, by decide, .inr (by decide)⟩

/-- The sample server, full. -/
def fullStore : Store :=
  { sampleStore with servers := [{ sampleServerModel with playerCount := 40 }] }

/-- `CanJoinServer` lets the user join a full server, and `CreateJoinToken` does not. -/
theorem full_canJoin_not_joins :
    CanJoin fullStore sampleUser { id := "s", password := "" } ∧
      ¬ Joins fullStore sampleUser { server := "s", password := "" } sampleGenerated := by
  refine ⟨⟨none, by decide⟩, ?_⟩
  rintro ⟨token, htoken⟩
  have hfull : ((createJoinToken sampleUser { server := "s", password := "" }
      sampleGenerated).eval Store.perform fullStore).2
      = .error (.status .resourceExhausted "Server is full") := by decide
  rw [hfull] at htoken
  cases htoken

end Kyber.Api
