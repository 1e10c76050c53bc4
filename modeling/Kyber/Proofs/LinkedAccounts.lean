import Kyber.Proofs.Accounts

/-!
# Whose a linked account is

A Discord account or a Patreon membership is written into a user document by
`LinkPatreonAccount`, by Discord's callback and by the refreshes of `Login`. The
first two look for another owner some calls before they write, and refuse when they
find one; the refreshes do not look at all. So an account comes to stand in the
documents of two users exactly if at a write somebody else has an account of the
answers for which the request has not looked, or has got it since the request began.
-/

namespace Kyber.Api

/-- An account with another service. -/
inductive Account
  | discord (id : String)
  | patreon (membershipID : String)
  deriving DecidableEq, Repr

def PatreonData.accounts (data : PatreonData) : List Account :=
  .patreon data.membershipID :: (data.discordID.map .discord).toList

/-- The accounts that a user document names. -/
def UserDocument.accounts (user : UserDocument) : List Account :=
  user.discordIDs.map .discord ++ (user.patreonData.map (.patreon ·.membershipID)).toList

/-- The accounts that an update writes. -/
def UserUpdate.accounts : UserUpdate → List Account
  | .discordData (some data) => [.discord data.id]
  | .patreonData (some data) => data.accounts
  | _ => []

theorem UserDocument.mem_accounts {user : UserDocument} {a : Account} :
    a ∈ user.accounts ↔
      (∃ data, user.discordData = some data ∧ a = .discord data.id) ∨
        ∃ data, user.patreonData = some data ∧ a ∈ data.accounts := by
  unfold UserDocument.accounts UserDocument.discordIDs PatreonData.accounts
  cases user.discordData <;> cases user.patreonData <;> simp
  · exact or_comm
  · exact or_congr_right or_comm

/-- A document names after an update what it has named before and what is written. -/
theorem UserUpdate.mem_accounts_apply {update : UserUpdate} {user : UserDocument} {a : Account}
    (h : a ∈ (update.apply user).accounts) : a ∈ user.accounts ∨ a ∈ update.accounts := by
  rw [UserDocument.mem_accounts] at h ⊢
  cases update with
  | discordData data =>
      rcases h with ⟨written, hdata, rfl⟩ | h
      · cases hdata
        exact .inr (List.mem_singleton_self _)
      · exact .inl (.inr h)
  | patreonData data =>
      rcases h with h | ⟨written, hdata, ha⟩
      · exact .inl (.inl h)
      · cases hdata
        exact .inr ha
  | unlinkPatreon token =>
      rcases h with h | ⟨data, hdata, -⟩
      · exact .inl (.inl h)
      · cases hdata
  | seen _ _ | vpnBlocked _ | entitlementCheck _ _ | resetToken _ | moderators _ | metrics =>
      exact .inl h

theorem UserUpdate.accounts_subset_apply (update : UserUpdate) (user : UserDocument) :
    update.accounts ⊆ (update.apply user).accounts := by
  intro a ha
  rw [UserDocument.mem_accounts]
  match update with
  | .discordData (some data) => exact .inl ⟨data, rfl, List.mem_singleton.mp ha⟩
  | .patreonData (some data) => exact .inr ⟨data, rfl, ha⟩

namespace Accounts

open Kyber.Lib Prog

/-- Every account belongs to one user. -/
def OneOwner (users : List UserDocument) : Prop :=
  ∀ u ∈ users, ∀ v ∈ users, ∀ a ∈ u.accounts, a ∈ v.accounts → u.id = v.id

instance (users : List UserDocument) : Decidable (OneOwner users) :=
  inferInstanceAs
    (Decidable (∀ u ∈ users, ∀ v ∈ users, ∀ a ∈ u.accounts, a ∈ v.accounts → u.id = v.id))

/-- What an update writes to a user who is there belongs to nobody else. -/
def freeFor (users : List UserDocument) (id : String) (update : UserUpdate) : Bool :=
  !users.any (·.id == id) ||
    update.accounts.all fun a => users.all fun v => !v.accounts.contains a || v.id == id

theorem freeFor_iff {users : List UserDocument} {id : String} {update : UserUpdate} :
    freeFor users id update = true ↔
      ((∃ user ∈ users, user.id = id) →
        ∀ a ∈ update.accounts, ∀ v ∈ users, a ∈ v.accounts → v.id = id) := by
  simp only [freeFor, Bool.or_eq_true, Bool.not_eq_true', List.any_eq_false, List.all_eq_true,
    beq_iff_eq, List.contains_eq_mem, decide_eq_false_iff_not, ← not_exists, exists_prop]
  constructor
  · rintro (hnone | hfree) ⟨user, huser, hid⟩ a ha v hv hav
    · exact absurd ⟨user, huser, hid⟩ hnone
    · exact (hfree a ha v hv).resolve_left (not_not_intro hav)
  · intro h
    by_cases hany : ∃ user ∈ users, user.id = id
    · exact .inr fun a ha v hv => (em (a ∈ v.accounts)).symm.imp_right (h hany a ha v hv)
    · exact .inl hany

/-! ## One write -/

section

variable {users : List UserDocument}

/-- After an update every account still belongs to one user exactly if what is
written belonged to nobody else. -/
theorem oneOwner_update_iff (hone : OneOwner users) (id : String) (update : UserUpdate) :
    OneOwner (users.map fun user => if user.id == id then update.apply user else user) ↔
      freeFor users id update = true := by
  rw [freeFor_iff]
  have hmem : ∀ user ∈ users, (if user.id == id then update.apply user else user) ∈
      users.map fun user => if user.id == id then update.apply user else user :=
    fun user huser => List.mem_map_of_mem huser
  constructor
  · rintro hafter ⟨user, huser, rfl⟩ a ha v hv hav
    by_contra hne
    have hu := hmem user huser
    have hv := hmem v hv
    rw [if_pos (beq_self_eq_true _)] at hu
    rw [if_neg (by simpa using hne)] at hv
    have hid := hafter _ hu v hv a (update.accounts_subset_apply user ha) hav
    rw [update.apply_id] at hid
    exact hne hid.symm
  · intro hfree u hu v hv a hau hav
    obtain ⟨u, humem, rfl⟩ := List.mem_map.mp hu
    obtain ⟨v, hvmem, rfl⟩ := List.mem_map.mp hv
    by_cases hu : u.id = id <;> by_cases hv : v.id = id
    · simp [hu, hv]
    · simp only [hu, hv, beq_self_eq_true, if_true, beq_iff_eq, if_false] at hau hav ⊢
      rw [update.apply_id, hu]
      rcases update.mem_accounts_apply hau with hau | hau
      · exact hu ▸ hone u humem v hvmem a hau hav
      · exact (hfree ⟨u, humem, hu⟩ a hau v hvmem hav).symm
    · simp only [hu, hv, beq_self_eq_true, if_true, beq_iff_eq, if_false] at hau hav ⊢
      rw [update.apply_id, hv]
      rcases update.mem_accounts_apply hav with hav | hav
      · exact hv ▸ hone u humem v hvmem a hau hav
      · exact hfree ⟨v, hvmem, hv⟩ a hav u humem hau
    · simp only [hu, hv, beq_iff_eq, if_false] at hau hav ⊢
      exact hone u humem v hvmem a hau hav

/-- A new user has no accounts. -/
theorem OneOwner.create (hone : OneOwner users) {user : UserDocument} (hnone : user.accounts = []) :
    OneOwner (users ++ [user]) := by
  have hnot : ∀ a, a ∉ user.accounts := by simp [hnone]
  intro u hu v hv a hau hav
  rcases List.mem_append.mp hu with hu | hu <;> rcases List.mem_append.mp hv with hv | hv
  · exact hone u hu v hv a hau hav
  · rw [List.mem_singleton] at hv
    subst hv
    exact absurd hav (hnot a)
  all_goals
    rw [List.mem_singleton] at hu
    subst hu
    exact absurd hau (hnot a)

/-- A change that keeps ids and accounts. -/
theorem OneOwner.map (hone : OneOwner users) {p : UserDocument → Bool} {f : UserDocument → UserDocument}
    (hid : ∀ user, (f user).id = user.id) (haccounts : ∀ user, (f user).accounts = user.accounts) :
    OneOwner (updateFirst p f users) := by
  have hold : ∀ u ∈ updateFirst p f users, ∃ v ∈ users, v.id = u.id ∧ v.accounts = u.accounts := by
    intro u hu
    rcases mem_updateFirst hu with hu | ⟨v, hv, -, rfl⟩
    · exact ⟨u, hu, rfl, rfl⟩
    · exact ⟨v, hv, (hid v).symm, (haccounts v).symm⟩
  intro u hu v hv a hau hav
  obtain ⟨u', hu', huid, hu⟩ := hold u hu
  obtain ⟨v', hv', hvid, hv⟩ := hold v hv
  rw [← huid, ← hvid]
  exact hone u' hu' v' hv' a (hu ▸ hau) (hv ▸ hav)

end

/-! ## Requests -/

/-- The membership and its Discord account. Without one nothing is stored. -/
def PatreonAnswer.accounts : PatreonAnswer → List Account
  | .member (some patron) =>
      patron.discord.toList.flatMap fun id => [.patreon patron.id, .discord id]
  | _ => []

def DiscordAnswer.accounts : DiscordAnswer → List Account
  | .user (some id) => [.discord id]
  | _ => []

/-- The user whose accounts the request links. -/
def Request.subject : Request → Option String
  | .login req => req.claims.toOption.map (·.pid)
  | .linkPatreon req => req.claims.toOption.map (·.pid)
  | .discordCallback userID _ _ => some userID
  | _ => none

/-- What Patreon answers to the request. -/
def Request.patreonAccounts : Request → List Account
  | .login req => req.patreon.accounts
  | .linkPatreon req => req.patreon.accounts
  | _ => []

/-- What Discord answers to the request. -/
def Request.discordAccounts : Request → List Account
  | .login req => req.discord.accounts
  | .linkPatreon req => req.discord.accounts
  | .discordCallback _ (.ok id) _ => [.discord id]
  | _ => []

/-- The accounts for which the request looks whether somebody else has them. -/
def Request.lookedUp : Request → List Account
  | .linkPatreon req => req.patreon.accounts
  | .discordCallback _ (.ok id) _ => [.discord id]
  | _ => []

/-- The user has had the account whenever the request has made a call. -/
def hadBefore (sys : AccountsSystem) (i : Nat) (id : String) (a : Account) : Bool :=
  sys.trace.all fun e =>
    e.task ≠ i || e.store.users.any fun user => user.id == id && user.accounts.contains a

/-- Who has one of the accounts besides the user has had it all along, and the request looks for
such an owner. -/
def noneSince (sys : AccountsSystem) (i : Nat) (r : Request) (id : String)
    (accounts : List Account) : Bool :=
  !sys.store.users.any (·.id == id) ||
    accounts.all fun a => sys.store.users.all fun v =>
      !v.accounts.contains a || v.id == id || (r.lookedUp.contains a && hadBefore sys i v.id a)

/-- When a request writes what Patreon or Discord has answered, nobody else has it for whom the
request has not looked, or who has got it since the request began. -/
def takesFree (sys : AccountsSystem) : AccountsAction → Bool
  | .run i outcome =>
      match sys.requests[i]?, sys.tasks[i]? with
      | some r, some (.call (.updateUser _ (.discordData (some _))) _) =>
          outcome == .failed || r.subject.all fun id => noneSince sys i r id r.discordAccounts
      | some r, some (.call (.updateUser _ (.patreonData (some _))) _) =>
          outcome == .failed || r.subject.all fun id => noneSince sys i r id r.patreonAccounts
      | _, _ => true
  | _ => true

section

variable {config : Config} {sys : AccountsSystem} {i : Nat} {id : String} {update : UserUpdate}
  {k : Except DbError Unit → Task}

theorem accounts_of_not_links (h : update.links = false) : update.accounts = [] := by
  cases update with
  | discordData data | patreonData data => cases data <;> first | rfl | cases h
  | _ => rfl

/-- A search that comes upon nobody else has passed over nobody. -/
theorem only_of_find {users : List UserDocument} (hone : OneOwner users) {id : String} {a : Account}
    {p : UserDocument → Bool} (hp : ∀ user, p user = true ↔ a ∈ user.accounts)
    (h : (users.find? p).filter (·.id ≠ id) = none) :
    ∀ v ∈ users, a ∈ v.accounts → v.id = id := by
  intro v hv hav
  cases hfind : users.find? p with
  | none => exact absurd ((hp v).mpr hav) (List.find?_eq_none.mp hfind v hv)
  | some found =>
      rw [hfind, Option.filter_eq_none_iff] at h
      have hid : found.id = id := by simpa using h found rfl
      rw [← hid]
      exact hone v hv found (List.mem_of_find?_eq_some hfind) a hav
        ((hp found).mp (List.find?_some hfind))

theorem only_of_userByDiscordID {db : Database} (hone : OneOwner db.users) {outcome : Outcome}
    {discordID id : String} {existing : Option UserDocument}
    (h : (db.serve outcome (.userByDiscordID discordID)).2 = .ok existing)
    (hfilter : existing.filter (·.id ≠ id) = none) :
    ∀ v ∈ db.users, .discord discordID ∈ v.accounts → v.id = id := by
  obtain rfl := Database.answered_of_serve_ok h
  have hfound : db.users.find? (·.discordIDs.contains discordID) = existing := Except.ok.inj h
  refine only_of_find hone (fun user => ?_) (hfound ▸ hfilter)
  simp [UserDocument.accounts]

theorem only_of_userByMembershipID {db : Database} (hone : OneOwner db.users) {outcome : Outcome}
    {member id : String} {existing : Option UserDocument}
    (h : (db.serve outcome (.userByMembershipID member)).2 = .ok existing)
    (hfilter : existing.filter (·.id ≠ id) = none) :
    ∀ v ∈ db.users, .patreon member ∈ v.accounts → v.id = id := by
  obtain rfl := Database.answered_of_serve_ok h
  have hfound : db.users.find? (fun u => u.patreonData.map (·.membershipID) == some member) =
      existing := Except.ok.inj h
  refine only_of_find hone (fun user => ?_) (hfound ▸ hfilter)
  simp [UserDocument.accounts]

theorem patreonData_accounts (answer : PatreonAnswer) (now : Instant)
    (h : UserUpdate.links (.patreonData (answer.data now)) = true) :
    ∃ data, UserUpdate.patreonData (answer.data now) = .patreonData (some data) ∧
      UserUpdate.accounts (.patreonData (answer.data now)) = answer.accounts := by
  match answer with
  | .failed | .member none => cases h
  | .member (some ⟨id, tiers, none⟩) => cases h
  | .member (some ⟨id, tiers, some discordID⟩) => exact ⟨_, rfl, rfl⟩

theorem discordData_accounts (answer : DiscordAnswer) (now : Instant)
    (h : UserUpdate.links (.discordData (answer.data now)) = true) :
    ∃ data, UserUpdate.discordData (answer.data now) = .discordData (some data) ∧
      UserUpdate.accounts (.discordData (answer.data now)) = answer.accounts := by
  match answer with
  | .failed | .user none => cases h
  | .user (some id) => exact ⟨_, rfl, rfl⟩

/-- A request has looked when nobody else had the account. -/
def LookedUp (sys : AccountsSystem) (i : Nat) (id : String) (a : Account) : Prop :=
  ∃ e ∈ sys.trace, e.task = i ∧
    (OneOwner e.store.users → ∀ v ∈ e.store.users, a ∈ v.accounts → v.id = id)

/-- Who had the account then would have been found. -/
theorem noneSince_eq_freeFor {r : Request} (hpast : ∀ e ∈ sys.trace, OneOwner e.store.users)
    (h : ∀ a ∈ r.lookedUp, LookedUp sys i id a) :
    noneSince sys i r id update.accounts = freeFor sys.store.users id update := by
  have hlooked : ∀ a v, (r.lookedUp.contains a && hadBefore sys i v a) = true → v = id := by
    intro a v hv
    obtain ⟨ha, hbefore⟩ := Bool.and_eq_true_iff.mp hv
    obtain ⟨e, he, htask, honly⟩ := h a (List.contains_iff_mem.mp ha)
    have hthen := List.all_eq_true.mp hbefore e he
    simp only [htask, ne_eq, not_true_eq_false, decide_false, Bool.false_or, List.any_eq_true,
      Bool.and_eq_true, beq_iff_eq, List.contains_iff_mem] at hthen
    obtain ⟨user, huser, rfl, hmem⟩ := hthen
    exact honly (hpast e he) user huser hmem
  rw [Bool.eq_iff_iff]
  simp only [noneSince, freeFor, Bool.or_eq_true, List.all_eq_true, beq_iff_eq]
  refine or_congr_right (forall₂_congr fun a _ => forall₂_congr fun v _ => ?_)
  exact or_iff_left_of_imp fun hv => .inr (hlooked a v.id hv)

/-- What a request links is what it has been answered, and it has looked for other owners. -/
theorem linked_accounts (hbase : Base config sys) {r : Request} (hr : sys.requests[i]? = some r)
    (hi : sys.tasks[i]? = some (.call (.updateUser id update) k)) (hlinks : update.links = true) :
    r.subject = some id ∧ (∀ a ∈ r.lookedUp, LookedUp sys i id a) ∧
      ((∃ data, update = .discordData (some data) ∧ update.accounts = r.discordAccounts) ∨
        ∃ data, update = .patreonData (some data) ∧ update.accounts = r.patreonAccounts) := by
  have hpath := hbase.traced.path i r _ hr hi
  have hread : ∀ {pid : String} {user : UserDocument},
      ⟨.userByID pid, .ok (some user)⟩ ∈ sys.calls i → user.id = pid := by
    intro pid user hmem
    obtain ⟨e, -, -, outcome, hanswer⟩ := hbase.traced.served_call hmem
    exact Database.id_of_userByID hanswer.symm
  cases r with
  | login req =>
      obtain ⟨claims, user, cs', hclaims, hcs, rfl, hrefreshes⟩ := login_links hpath hlinks
      refine ⟨?_, fun a ha => (by cases ha), ?_⟩
      · rw [hread (hcs ▸ List.mem_cons_self)]
        simp [Request.subject, hclaims, Except.toOption]
      · rcases hrefreshes with ⟨-, rfl⟩ | ⟨-, rfl⟩
        · exact .inr (patreonData_accounts _ _ hlinks)
        · exact .inl (discordData_accounts _ _ hlinks)
  | linkPatreon req =>
      obtain ⟨claims, member, discordID, user, existing, rest, hclaims, hpatreon, hdiscordID,
        hfilter, rfl, hcs, hwrite⟩ := linkPatreonAccount_update hpath
      refine ⟨?_, ?_, ?_⟩
      · rw [hread (hcs ▸ List.mem_cons_self)]
        simp [Request.subject, hclaims, Except.toOption]
      · have hlooked : Request.lookedUp (.linkPatreon req) =
            [.patreon member.id, .discord discordID] := by
          simp [Request.lookedUp, hpatreon, PatreonAnswer.accounts, hdiscordID]
        rw [hlooked, List.forall_mem_cons, List.forall_mem_singleton]
        constructor
        · obtain ⟨e, he, htask, outcome, hanswer⟩ := hbase.traced.served_call
            (by simp [hcs] : ⟨.userByMembershipID member.id, .ok existing⟩ ∈ sys.calls i)
          exact ⟨e, he, htask, fun hone => only_of_userByMembershipID hone hanswer.symm hfilter⟩
        · obtain ⟨e, he, htask, outcome, hanswer⟩ := hbase.traced.served_call
            (by simp [hcs] : ⟨.userByDiscordID discordID, .ok none⟩ ∈ sys.calls i)
          exact ⟨e, he, htask, fun hone => only_of_userByDiscordID hone hanswer.symm rfl⟩
      · rcases hwrite with ⟨-, rfl, -⟩ | ⟨-, rfl, -⟩
        · exact .inl (discordData_accounts _ _ hlinks)
        · exact .inr (patreonData_accounts _ _ hlinks)
  | discordCallback userID account now =>
      obtain ⟨discordID, user, existing, rfl, hfilter, rfl, hcs, rfl, -⟩ :=
        callbackHandler_update hpath
      refine ⟨?_, ?_, .inl ⟨_, rfl, rfl⟩⟩
      · rw [hread (hcs ▸ List.mem_cons_self)]
        rfl
      · obtain ⟨e, he, htask, outcome, hanswer⟩ := hbase.traced.served_call
          (by simp [hcs] : ⟨.userByDiscordID discordID, .ok existing⟩ ∈ sys.calls i)
        refine List.forall_mem_singleton.mpr ⟨e, he, htask, fun hone => ?_⟩
        exact only_of_userByDiscordID hone hanswer.symm hfilter
  | _ =>
      have hcall := mayCall_of_task hbase.traced hr hi
      simp [Request.mayCall, hlinks, Request.connects] at hcall

/-- A write that has an effect leaves every account with one user exactly if it takes one that
nobody else has. -/
theorem takesFree_iff_freeFor (hbase : Base config sys)
    (hpast : ∀ e ∈ sys.trace, OneOwner e.store.users)
    (hi : sys.tasks[i]? = some (.call (.updateUser id update) k)) {outcome : Outcome}
    (houtcome : outcome ≠ .failed) :
    takesFree sys (.run i outcome) = true ↔ freeFor sys.store.users id update = true := by
  obtain ⟨r, hr⟩ := hbase.traced.request_of_task hi
  cases hlinks : update.links with
  | false =>
      have hfree : freeFor sys.store.users id update = true := by
        simp [freeFor, accounts_of_not_links hlinks]
      refine iff_of_true ?_ hfree
      simp only [takesFree, hr, hi]
      split
      · next heq =>
          cases heq
          cases hlinks
      · next heq =>
          cases heq
          cases hlinks
      · rfl
  | true =>
      obtain ⟨hsubject, hlooked, hwrites⟩ := linked_accounts hbase hr hi hlinks
      have hothers : noneSince sys i r id update.accounts = freeFor sys.store.users id update :=
        noneSince_eq_freeFor hpast hlooked
      have hoff : (outcome == .failed) = false := by simpa using houtcome
      rcases hwrites with ⟨data, rfl, heq⟩ | ⟨data, rfl, heq⟩
      · simp only [takesFree, hr, hi, hoff, Bool.false_or, hsubject, Option.all_some, ← heq, hothers]
      · simp only [takesFree, hr, hi, hoff, Bool.false_or, hsubject, Option.all_some, ← heq, hothers]

end

/-! ## Runs -/

/-- All stores so far. -/
structure OneOwners (sys : AccountsSystem) : Prop where
  now : OneOwner sys.store.users
  past : ∀ e ∈ sys.trace, OneOwner e.store.users

theorem oneOwner_step_iff {config : Config} {sys sys' : AccountsSystem} {a : AccountsAction}
    (hbase : Base config sys) (hones : OneOwners sys)
    (hstep : (service config).step sys a = some sys') :
    OneOwner sys'.store.users ↔ takesFree sys a = true := by
  have hone := hones.now
  rcases Service.step_cases hstep with ⟨r, rfl, rfl⟩ | ⟨i, outcome, q, k, rfl, hi, rfl⟩ |
    ⟨e, rfl, rfl⟩
  · exact iff_of_true hone rfl
  · show OneOwner (sys.store.serve outcome q).1.users ↔ _
    obtain ⟨r, hr⟩ := hbase.traced.request_of_task hi
    cases q with
    | updateUser id update =>
        by_cases houtcome : outcome = .failed
        · subst houtcome
          refine iff_of_true hone ?_
          simp only [takesFree, hr, hi]
          split <;> rfl
        · rw [Database.serve_updateUser hbase.keys houtcome, oneOwner_update_iff hone,
            takesFree_iff_freeFor hbase hones.past hi houtcome]
    | createUser user =>
        refine iff_of_true ?_ (by simp only [takesFree, hr, hi])
        have hcall := mayCall_of_task hbase.traced hr hi
        simp only [Request.mayCall, Bool.and_eq_true, Option.isNone_iff_eq_none] at hcall
        have hnone : user.accounts = [] := by
          simp [UserDocument.accounts, UserDocument.discordIDs, hcall.1.1, hcall.1.2]
        rcases Database.users_serve hbase.keys outcome (.createUser user) with
          hsame | ⟨-, ⟨id, update, hq, -⟩ | ⟨user', hq, -, husers⟩⟩
        · exact hsame ▸ hone
        · cases hq
        · cases hq
          exact husers ▸ hone.create hnone
    | _ =>
        refine iff_of_true ?_ (by simp only [takesFree, hr, hi])
        cases outcome <;> exact hone
  · refine iff_of_true ?_ rfl
    cases e with
    | entitle userID entitlements => exact hone.map (fun _ => rfl) (fun _ => rfl)
    | updateServer _ _ | deleteServers _ | others _ _ _ _ => exact hone

theorem past_step {config : Config} {sys sys' : AccountsSystem} {a : AccountsAction}
    (hones : OneOwners sys) (hstep : (service config).step sys a = some sys') :
    ∀ e ∈ sys'.trace, OneOwner e.store.users := by
  rcases Service.step_cases hstep with ⟨r, -, rfl⟩ | ⟨i, outcome, q, k, -, -, rfl⟩ | ⟨e, -, rfl⟩
  · exact hones.past
  · exact List.forall_mem_append.mpr ⟨hones.past, List.forall_mem_singleton.mpr hones.now⟩
  · exact hones.past

/-- In every run, every account belongs to one user all along exactly if at each write nobody
else has an account of the answers for whom the request has not looked, or who has got it since
the request began. -/
theorem accounts_run (config : Config) (db : Database) (hkeys : (db.users.map (·.id)).Nodup)
    (hone : OneOwner db.users) (as : List AccountsAction) :
    (∀ sys ∈ visits (service config).step { store := db } as, OneOwner sys.store.users) ↔
      ∀ m ∈ moves (service config).step { store := db } as, takesFree m.1 m.2 = true := by
  have hinit : OneOwners { store := db } := ⟨hone, fun e he => (by cases he)⟩
  have hruns := forall_visits_iff_forall_moves (service config).step (Base config)
    (fun sys a => takesFree sys a = true) (fun hbase hstep => hbase.step hstep)
    (fun hbase hones hstep => ⟨fun h => (oneOwner_step_iff hbase hones hstep).mp h.now,
      fun h => ⟨(oneOwner_step_iff hbase hones hstep).mpr h, past_step hones hstep⟩⟩)
    (.init config hkeys) hinit as
  rw [← hruns]
  refine ⟨fun h => ?_, fun h sys hsys => (h sys hsys).now⟩
  -- The stores of the past are those of states that have been visited before.
  have hpast := forall_visits_of_forall_moves (fun sys => ∀ e ∈ sys.trace, OneOwner e.store.users)
    (fun sys _ => OneOwner sys.store.users)
    (fun hpast hnow hstep => past_step ⟨hnow, hpast⟩ hstep) hinit.past as
    fun m hm => h m.1 (mem_visits_of_mem_moves hm)
  exact fun sys hsys => ⟨h sys hsys, hpast sys hsys⟩

/-! ## A membership whose Discord account has changed -/

/-- The second player logs in with a membership that has this Discord account now. -/
def patronLogin (discord : Option String) : Request :=
  .login (loginOf "2"
    (.member (some { id := "m2", currentlyEntitledTiers := ["8197122"], discord })) .failed (2 * day))

/-- Two players, the first of whom has a Discord account and the second a Patreon
membership. -/
def linkedDatabase : Database where
  users :=
    [{ id := "1", token := "t1", name := "1", discordData := some { id := "d1", lastUpdated := 0 } },
      { id := "2", token := "t2", name := "2",
        patreonData := some { membershipID := "m2", discordID := some "d2", lastChecked := 0 } }]

/-- The second player logs in, up to the write of the refreshed membership. -/
def refreshRun (discord : Option String) : List AccountsAction :=
  [.request (patronLogin discord), .run 0 .answered, .run 0 .answered, .run 0 .answered,
    .run 0 .answered]

/-- The first player links a membership. -/
def patronLink (membershipID discordID : String) : Request :=
  .linkPatreon {
    claims := .ok { pid := "1", active := true, persona := some "1", personaID := "1" }
    patreon := .member (some {
      id := membershipID, currentlyEntitledTiers := ["8197122"], discord := some discordID })
    discord := .user (some discordID), now := 2 * day }

/-- The one of the second player, for which the request is refused, and then another one. -/
def linkRun : List AccountsAction :=
  refreshRun (some "d3") ++ [.request (patronLink "m2" "d4"), .request (patronLink "m5" "d5")] ++
    List.replicate 3 (.run 1 .answered) ++ List.replicate 5 (.run 2 .answered)

/-- The membership has a Discord account that nobody else has. -/
theorem linkRun_oneOwner :
    (∃ sys ∈ visits (service openConfig).step { store := linkedDatabase } linkRun,
      sys.store.users.map UserDocument.accounts =
        [[.discord "d5", .discord "d5", .patreon "m5"], [.discord "d3", .patreon "m2"]]) ∧
      ∀ sys ∈ visits (service openConfig).step { store := linkedDatabase } linkRun,
        OneOwner sys.store.users := by
  have hend : (exec (service openConfig).step { store := linkedDatabase } linkRun).map
      (fun sys => sys.store.users.map UserDocument.accounts) =
      some [[.discord "d5", .discord "d5", .patreon "m5"], [.discord "d3", .patreon "m2"]] := by
    decide
  obtain ⟨sys, hsys, heq⟩ := Option.map_eq_some_iff.mp hend
  have hfree : (moves (service openConfig).step { store := linkedDatabase } linkRun).all
      (fun m => takesFree m.1 m.2) = true := by decide
  exact ⟨⟨sys, mem_visits_of_exec hsys, heq⟩,
    (accounts_run openConfig linkedDatabase (by decide) (by decide) _).mpr
      (List.all_eq_true.mp hfree)⟩

/-- It has the one of the first player, and the refresh writes it. -/
theorem refreshRun_shares :
    OneOwner linkedDatabase.users ∧
      ∃ sys ∈ visits (service openConfig).step { store := linkedDatabase } (refreshRun (some "d1")),
        ¬ OneOwner sys.store.users := by
  refine ⟨by decide, ?_⟩
  have hend : (exec (service openConfig).step { store := linkedDatabase }
      (refreshRun (some "d1"))).map (fun sys => decide (OneOwner sys.store.users))
      = some false := by decide
  obtain ⟨sys, hsys, heq⟩ := Option.map_eq_some_iff.mp hend
  exact ⟨sys, mem_visits_of_exec hsys, of_decide_eq_false heq⟩

end Accounts

end Kyber.Api
