import Kyber.Proofs.Accounts

/-!
# Who is a patron after a login

`Login` asks Patreon about a membership that it has not asked about for a day. There
is the stored user, and the copy that the rest of the call and the response are
about. An error empties the copy only, a membership that is active but has no Discord
account empties the stored user only, and one without a valid tier empties neither.
-/

namespace Kyber.Api.Accounts

open Kyber.Lib Prog

/-! ## What is asked and answered -/

/-- The name of the user can be looked up. -/
def nameKnown (config : Config) (req : LoginRequest) (user : UserDocument) : Bool :=
  !config.usersClientEnabled || user.nameUpdated.any (fun t => since req.now t < 7 * 24 * hour) ||
    req.name.any fun name => name == user.name || req.namesake != .failed

/-- The login of a user for whom the day-old check is made. -/
structure ChecksPatreon (config : Config) (db : Database) (req : LoginRequest) (user : UserDocument)
    (data : PatreonData) : Prop where
  claims : ∃ claims persona, req.claims = .ok claims ∧ claims.active = true ∧
    claims.persona = some persona ∧ db.users.find? (·.id == claims.pid) = some user
  named : nameKnown config req user = true
  unbanned : ∀ p, db.punishments.find? (·.isBan none user.id db.now) = some p →
    p.isActive req.now = false
  unblocked : user.vpnBlocked = false
  enabled : config.patreonEnabled = true
  linked : user.patreonData = some data
  due : data.due req.now = true

/-- Patreon knows of no valid tier. -/
def PatreonAnswer.inactive : PatreonAnswer → Bool
  | .failed => false
  | .member membership => !membership.any (·.hasValidTier)

/-- The membership is active and has no Discord account. -/
def PatreonAnswer.withoutDiscord : PatreonAnswer → Bool
  | .member (some patron) => patron.hasValidTier && patron.discord.isNone
  | _ => false

/-- The check of EA's ban refuses the login. -/
def eaRefuses (req : LoginRequest) (user : UserDocument) : Bool :=
  if user.lastEntitlementCheck.all fun t => 48 * hour < since req.now t then
    req.isBanned != some false
  else user.isBanned

/-- A response says that the user is no patron, and so does the stored user unless
Patreon could not be asked. -/
def FollowsCheck (config : Config) (db : Database) (req : LoginRequest) (user : UserDocument) :
    Prop :=
  let done := (login config req).eval Database.perform db
  (∀ copy isPatreon, done.2 = .ok (.login copy isPatreon) → isPatreon = false) ∧
    (req.patreon ≠ .failed →
      ∀ stored, done.1.users.find? (·.id == user.id) = some stored → stored.model.isPatron = false)

/-! ## The stored user -/

/-- What decides whether the stored user is a patron. -/
def patronage (db : Database) (id : String) :
    Option (Option PatreonData × List UserEntitlement) :=
  (db.users.find? (·.id == id)).map fun user => (user.patreonData, user.entitlements)

/-- The calls that do not touch it. -/
def keepsPatronage : Query → Bool
  | .updateUser _ (.patreonData _) | .updateUser _ (.unlinkPatreon _) | .createUser _ => false
  | _ => true

theorem patronage_perform (id : String) (db : Database) (q : Query)
    (h : keepsPatronage q = true) :
    patronage (db.perform q).1 id = patronage db id := by
  cases q with
  | updateUser id' update =>
      refine map_find?_updateFirst (fun user _ => by rw [update.apply_id]) (fun user _ => ?_) _
      cases update with
      | patreonData _ | unlinkPatreon _ => cases h
      | _ => rfl
  | createUser user => cases h
  | _ => rfl

theorem patronage_update (db : Database) (id : String) (data : Option PatreonData) :
    patronage (db.perform (.updateUser id (.patreonData data))).1 id =
      (patronage db id).map fun patronage => (data, patronage.2) := by
  have hfind : (db.perform (.updateUser id (.patreonData data))).1.users.find? (·.id == id) =
      (db.users.find? (·.id == id)).map (UserUpdate.patreonData data).apply := by
    refine find?_updateFirst ?_ db.users
    exact fun user huser => huser
  rw [patronage, hfind, patronage, Option.map_map, Option.map_map]
  rfl

/-! ## The rest of the call -/

section

variable {config : Config} {req : LoginRequest}

/-- The name apart, the copy is the user. -/
def Renamed (user copy : UserDocument) : Prop :=
  ∃ name nameUpdated, copy = { user with name, nameUpdated }

theorem Renamed.rename (user : UserDocument) (name : String) : Renamed user (user.rename name) := by
  unfold UserDocument.rename
  split
  · exact ⟨user.name, user.nameUpdated, rfl⟩
  · exact ⟨name, user.nameUpdated, rfl⟩

theorem Renamed.updated {user copy : UserDocument} (h : Renamed user copy) (t : Option Time) :
    Renamed user { copy with nameUpdated := t } := by
  obtain ⟨name, nameUpdated, rfl⟩ := h
  exact ⟨name, t, rfl⟩

/-- When the name can be looked up, `updateUserName` goes on. -/
theorem updateUserName_eval {user : UserDocument} (hnamed : nameKnown config req user = true)
    (persona : String) (k : UserDocument → Task) (db : Database) :
    ∃ db' copy, (updateUserName config req persona user k).eval Database.perform db =
        (k copy).eval Database.perform db' ∧ Renamed user copy ∧
      ∀ id, patronage db' id = patronage db id := by
  unfold updateUserName
  split
  · refine ⟨db, _, rfl, ?_, fun _ => rfl⟩
    split
    · exact .rename user persona
    · exact ⟨user.name, user.nameUpdated, rfl⟩
  next husers =>
  split
  · exact ⟨db, user, rfl, ⟨user.name, user.nameUpdated, rfl⟩, fun _ => rfl⟩
  next hrecent =>
  have hanswer : (req.name.any fun name => name == user.name || req.namesake != .failed) = true := by
    simp only [nameKnown, Bool.or_eq_true] at hnamed
    exact hnamed.resolve_left (not_or.mpr ⟨husers, hrecent⟩)
  split
  · next hnone =>
      rw [hnone] at hanswer
      cases hanswer
  next name hname =>
  simp only [hname, Option.any_some, Bool.or_eq_true, beq_iff_eq, bne_iff_ne] at hanswer
  have hrenamed := (Renamed.rename user name).updated (some (dateOf req.now))
  split
  · next hne =>
      unfold updateExistingUser
      split
      · next hfailed => exact absurd hfailed (hanswer.resolve_left hne)
      · exact ⟨db, _, rfl, hrenamed, fun _ => rfl⟩
      · refine ⟨_, _, rfl, hrenamed, fun id => ?_⟩
        exact patronage_perform id db _ rfl
  · exact ⟨db, _, rfl, ⟨user.name, some (dateOf req.now), rfl⟩, fun _ => rfl⟩

/-- The check of EA's ban refuses the login or goes on. -/
theorem checkEntitlements_eval (user : UserDocument) (k : UserDocument → Task) (db : Database) :
    (eaRefuses req user = true ∧
        ∃ db' rejection, (checkEntitlements req user k).eval Database.perform db =
          (db', .error rejection)) ∨
      (eaRefuses req user = false ∧
        ∃ db' copy, (checkEntitlements req user k).eval Database.perform db =
          (k copy).eval Database.perform db' ∧ copy.model.isPatron = user.model.isPatron) := by
  unfold checkEntitlements eaRefuses
  simp only
  split
  · split
    · next hnone => exact .inl ⟨by simp [hnone], db, _, rfl⟩
    · next isBanned hsome =>
        rw [hsome]
        cases isBanned with
        | true => exact .inl ⟨rfl, _, _, rfl⟩
        | false => exact .inr ⟨rfl, _, _, rfl, rfl⟩
  · split
    · next hbanned => exact .inl ⟨hbanned, db, _, rfl⟩
    · next hbanned => exact .inr ⟨by simpa using hbanned, db, user, rfl, rfl⟩

/-- The refresh of the Discord account does not change who is a patron. -/
theorem updateDiscordData_eval (answer : DiscordAnswer) (now : Instant) (user : UserDocument)
    (k : Except DbError UserDocument → Task) (db : Database) :
    ∃ db' copy, (updateDiscordData config answer now user k).eval Database.perform db =
        (k (.ok copy)).eval Database.perform db' ∧
      copy.model.isPatron = user.model.isPatron := by
  unfold updateDiscordData
  split
  · exact ⟨db, user, rfl, rfl⟩
  split
  · exact ⟨db, user, rfl, rfl⟩
  split
  · exact ⟨db, user, rfl, rfl⟩
  split
  · exact ⟨db, user, rfl, rfl⟩
  · exact ⟨db, _, rfl, rfl⟩
  · exact ⟨_, _, rfl, rfl⟩

/-- The end of a login says what the copy says. A patron is refused only by EA. -/
theorem finishLogin_eval (config : Config) (req : LoginRequest) (user : UserDocument)
    (db : Database) :
    ((eaRefuses req user = true ∨ user.model.isPatron = false) ∧
        ∃ db' rejection, (finishLogin config req user).eval Database.perform db =
          (db', .error rejection)) ∨
      (eaRefuses req user = false ∧
        ∃ db' copy, (finishLogin config req user).eval Database.perform db =
          (db', .ok (.login copy user.model.isPatron))) := by
  unfold finishLogin
  split
  · next hlisted =>
      refine .inl ⟨.inr ?_, db, _, rfl⟩
      simp only [whitelisted, Bool.not_eq_true', Bool.or_eq_false_iff] at hlisted
      exact hlisted.1.1.1.2
  · rcases checkEntitlements_eval user _ db with
      ⟨hrefuses, db', rejection, heq⟩ | ⟨hrefuses, db', copy, heq, hpatron⟩
    · exact .inl ⟨.inl hrefuses, db', rejection, heq⟩
    · obtain ⟨db'', copy', heq', hpatron'⟩ := updateDiscordData_eval req.discord req.now copy _ db'
      refine .inr ⟨hrefuses, db'', copy', ?_⟩
      rw [heq, heq', eval_ret, hpatron', hpatron]

theorem finishLogin_patronage (config : Config) (req : LoginRequest) (user : UserDocument)
    (db : Database) (id : String) :
    patronage ((finishLogin config req user).eval Database.perform db).1 id = patronage db id := by
  have hmakes : Makes (fun q => keepsPatronage q = true) (finishLogin config req user) :=
    finishLogin_makes (fun _ _ _ => rfl) fun _ => rfl
  exact hmakes.eval_view (patronage · id) (fun db q hq => patronage_perform id db q hq) db

/-- The response does not say that the copy is a patron exactly if EA refuses the login or the
copy is none. -/
theorem finishLogin_says_iff (config : Config) (req : LoginRequest) (user : UserDocument)
    (db : Database) :
    (∀ copy isPatreon, ((finishLogin config req user).eval Database.perform db).2 =
        .ok (.login copy isPatreon) → isPatreon = false) ↔
      eaRefuses req user = true ∨ user.model.isPatron = false := by
  rcases finishLogin_eval config req user db with
    ⟨hrefused, db', rejection, hdone⟩ | ⟨hadmitted, db', copy, hdone⟩
  · refine iff_of_true (fun copy isPatreon hlogin => ?_) hrefused
    rw [hdone] at hlogin
    cases hlogin
  · rw [hdone, hadmitted]
    refine ⟨fun hreply => .inr (hreply copy _ rfl), fun h copy' isPatreon hlogin => ?_⟩
    cases hlogin
    exact h.resolve_left (by simp)

/-- A login for which the check is made comes to it, with a copy of the user. -/
theorem login_eval {db : Database} {user : UserDocument} {data : PatreonData}
    (h : ChecksPatreon config db req user data) :
    ∃ db' copy, (login config req).eval Database.perform db =
        (updatePatreonData config req.patreon req.now copy (finishLogin config req)).eval
          Database.perform db' ∧ Renamed user copy ∧
      ∀ id, patronage db' id = patronage db id := by
  obtain ⟨claims, persona, hclaims, hactive, hpersona, hfound⟩ := h.claims
  have hid : user.id = claims.pid := by simpa using List.find?_some hfound
  have hunbanned := h.unbanned
  rw [hid] at hunbanned
  obtain ⟨db', copy, hname, hrenamed, hpatronage⟩ := updateUserName_eval h.named persona
    (fun copy => ask (.updateUser copy.id (.seen copy.name copy.nameUpdated)) .internal
      "Failed to update user. Please contact support." fun () =>
        unlessBanned config req (db.punishments.find? (·.isBan none claims.pid db.now))
          (admitUser config req copy)) db
  refine ⟨(db'.perform (.updateUser copy.id (.seen copy.name copy.nameUpdated))).1, copy, ?_,
    hrenamed, fun id => ?_⟩
  · have hadmitted : unlessBanned config req
        (db.punishments.find? (·.isBan none claims.pid db.now)) (admitUser config req copy) =
        updatePatreonData config req.patreon req.now copy (finishLogin config req) := by
      have hblocked : copy.vpnBlocked = false := by
        obtain ⟨name, t, rfl⟩ := hrenamed
        exact h.unblocked
      unfold unlessBanned
      split
      · simp [admitUser, hblocked]
      · next p hp => simp [hunbanned p hp, admitUser, hblocked]
    calc (login config req).eval Database.perform db
        = (updateUserName config req persona user _).eval Database.perform db := by
          simp [login, hclaims, hactive, hpersona, ask, eval_attempt, Database.perform, hfound]
      _ = _ := hname
      _ = _ := by
          rw [hadmitted]
          rfl
  · rw [patronage_perform id db' _ rfl, hpatronage]

/-! ## Logins -/

theorem patronage_of_find? {db : Database} {id : String} {user : UserDocument}
    (h : db.users.find? (·.id == id) = some user) :
    patronage db id = some (user.patreonData, user.entitlements) := by
  rw [patronage, h, Option.map_some]

theorem isActivePatron_cases (membership : Option PatreonMember) :
    ((∃ e, isActivePatron membership = .error e) ∧
        (PatreonAnswer.member membership).withoutDiscord = false) ∨
      ∃ member, membership = some member ∧ member.hasValidTier = true ∧
        isActivePatron membership = .ok member := by
  unfold isActivePatron
  cases membership with
  | none => exact .inl ⟨⟨_, rfl⟩, rfl⟩
  | some member =>
      simp only
      split
      · next htier => exact .inr ⟨member, rfl, htier, rfl⟩
      · next htier => exact .inl ⟨⟨_, rfl⟩, by simp [PatreonAnswer.withoutDiscord, htier]⟩

/-- The check that is made. -/
theorem updatePatreonData_due {user : UserDocument} {data : PatreonData} {now : Instant}
    (henabled : config.patreonEnabled = true) (hlinked : user.patreonData = some data)
    (hdue : data.due now = true) (answer : PatreonAnswer) (k : UserDocument → Task) :
    updatePatreonData config answer now user k =
      match answer with
      | .failed => k { user with patreonData := none }
      | .member membership =>
          match isActivePatron membership with
          | .error _ => k user
          | .ok member =>
              .call (.updateUser user.id (.patreonData (member.discord.map fun discordID : String =>
                { membershipID := member.id, discordID := some discordID,
                  lastChecked := dateOf now : PatreonData }))) fun _ => k user := by
  unfold updatePatreonData
  rw [if_neg (by simp [henabled]), hlinked]
  exact if_neg (by simp [hdue])

/-- A login follows the check exactly if Patreon could not be asked, or if the
membership has no Discord account and EA refuses the login. -/
theorem followsCheck_iff {db : Database} {user : UserDocument} {data : PatreonData}
    (h : ChecksPatreon config db req user data)
    (hperks : user.model.entitled .patreonPerks = false)
    (hanswer : req.patreon = .failed ∨ req.patreon.inactive = true ∨
      req.patreon.withoutDiscord = true) :
    FollowsCheck config db req user ↔
      req.patreon = .failed ∨ req.patreon.withoutDiscord = true ∧ eaRefuses req user = true := by
  obtain ⟨db', copy, heval, hrenamed, hpatronage⟩ := login_eval h
  obtain ⟨claims, persona, -, -, -, hfound⟩ := h.claims
  have hid : user.id = claims.pid := by simpa using List.find?_some hfound
  rw [← hid] at hfound
  have hstored : patronage db' user.id = some (some data, user.entitlements) := by
    rw [hpatronage, patronage_of_find? hfound, h.linked]
  have hlinked : copy.patreonData = some data ∧ copy.id = user.id := by
    obtain ⟨name, nameUpdated, rfl⟩ := hrenamed
    exact ⟨h.linked, rfl⟩
  have hpatron : copy.model.isPatron = true := by
    simp [UserModel.isPatron, UserDocument.model, hlinked.1]
  have hrefuses : eaRefuses req copy = eaRefuses req user := by
    obtain ⟨name, nameUpdated, rfl⟩ := hrenamed
    rfl
  have hcopyPerks : copy.model.entitled .patreonPerks = false := by
    obtain ⟨name, nameUpdated, rfl⟩ := hrenamed
    exact hperks
  unfold FollowsCheck
  rw [heval, updatePatreonData_due h.enabled hlinked.1 h.due]
  cases hpatreon : req.patreon with
  | failed =>
      refine iff_of_true ⟨?_, fun hne => absurd rfl hne⟩ (.inl rfl)
      refine (finishLogin_says_iff config req { copy with patreonData := none } db').mpr (.inr ?_)
      simpa [UserModel.isPatron, UserDocument.model, UserModel.entitled] using hcopyPerks
  | member membership =>
      simp only [hpatreon, reduceCtorEq, false_or] at hanswer ⊢
      rcases isActivePatron_cases membership with ⟨⟨e, heq⟩, hdiscord⟩ | ⟨member, rfl, htier, heq⟩
      · -- Nothing is written, and the stored user is a patron as before.
        simp only [heq, hdiscord]
        refine iff_of_false (fun hfollows => ?_) (by simp)
        have hafter := finishLogin_patronage config req copy db' user.id
        rw [hstored] at hafter
        obtain ⟨stored, hfind, hpair⟩ := Option.map_eq_some_iff.mp hafter
        have hnone := hfollows.2 (by simp) stored hfind
        rw [Prod.mk.injEq] at hpair
        simp [UserModel.isPatron, UserDocument.model, hpair.1] at hnone
      · have hdiscord : member.discord = none := by
          simpa [PatreonAnswer.inactive, PatreonAnswer.withoutDiscord, htier] using hanswer
        have hwithout : (PatreonAnswer.member (some member)).withoutDiscord = true := by
          simp [PatreonAnswer.withoutDiscord, htier, hdiscord]
        rw [heq]
        simp only [hwithout, true_and, ne_eq, reduceCtorEq, not_false_eq_true, forall_const]
        rw [hdiscord, hlinked.2, Option.map_none, eval_call]
        generalize hdb : (db'.perform (.updateUser user.id (.patreonData none))).1 = db''
        have hafter : ∀ stored, ((finishLogin config req copy).eval
            Database.perform db'').1.users.find? (·.id == user.id) = some stored →
            stored.model.isPatron = false := by
          intro stored hfind
          have hpair := patronage_of_find? hfind
          rw [finishLogin_patronage, ← hdb, patronage_update, hstored] at hpair
          simp only [Option.map_some, Option.some.injEq, Prod.mk.injEq] at hpair
          simpa [UserModel.isPatron, UserDocument.model, UserModel.entitled, ← hpair.1, ← hpair.2]
            using hperks
        rw [and_iff_left hafter, ← hrefuses, finishLogin_says_iff, hpatron]
        simp

/-- One login after the other. -/
def loginStep (config : Config) (db : Database) (req : LoginRequest) : Option Database :=
  some ((login config req).eval Database.perform db).1

end

/-- In every sequence of logins, at any times and with any answers: the login of a user
without perks for whom the check is made, and who has no membership with a valid tier
and a Discord account, follows the check exactly if Patreon could not be asked, or if
there is no Discord account and EA refuses the login. -/
theorem logins_follow_check (config : Config) (db : Database) (logins : List LoginRequest) :
    ∀ m ∈ moves (loginStep config) db logins, ∀ user data, ChecksPatreon config m.1 m.2 user data →
      user.model.entitled .patreonPerks = false →
      (m.2.patreon = .failed ∨ m.2.patreon.inactive = true ∨ m.2.patreon.withoutDiscord = true) →
      (FollowsCheck config m.1 m.2 user ↔
        m.2.patreon = .failed ∨ m.2.patreon.withoutDiscord = true ∧ eaRefuses m.2 user = true) :=
  fun _ _ _ _ h hperks hanswer => followsCheck_iff h hperks hanswer

/-! ## A patron whose membership has ended -/

def checkedAtStart : PatreonData where
  membershipID := "m2"
  discordID := some "d2"
  lastChecked := 0

def patron : UserDocument where
  id := "2"
  token := "t2"
  name := "2"
  patreonData := some checkedAtStart

/-- The patron logs in two days after the last check. -/
def dueLogin (answer : PatreonAnswer) : LoginRequest := loginOf "2" answer .failed (2 * day)

theorem dueLogin_checks (answer : PatreonAnswer) :
    ChecksPatreon openConfig { users := [patron] } (dueLogin answer) patron checkedAtStart where
  claims := ⟨_, _, rfl, rfl, rfl, rfl⟩
  named := rfl
  unbanned := by simp
  unblocked := rfl
  enabled := rfl
  linked := rfl
  due := by
    show checkedAtStart.due (2 * day) = true
    decide

/-- Patreon does not answer. -/
theorem failedCheck_followed :
    FollowsCheck openConfig { users := [patron] } (dueLogin .failed) patron := by
  have hmove : ({ users := [patron] }, dueLogin .failed) ∈
      moves (loginStep openConfig) { users := [patron] } [dueLogin .failed] :=
    List.mem_singleton_self _
  exact (logins_follow_check openConfig _ _ _ hmove patron checkedAtStart (dueLogin_checks _)
    (by decide) (.inl rfl)).mpr (.inl rfl)

/-- The membership has no tier any more. The login goes through, and both the response
and the stored user say that the user is a patron. -/
theorem lapsedCheck_not_followed :
    ({ users := [patron] }, dueLogin (.member (some ⟨"m2", [], some "d2"⟩))) ∈
        moves (loginStep openConfig) { users := [patron] }
          [dueLogin (.member (some ⟨"m2", [], some "d2"⟩))] ∧
      ChecksPatreon openConfig { users := [patron] }
        (dueLogin (.member (some ⟨"m2", [], some "d2"⟩))) patron checkedAtStart ∧
      patron.model.entitled .patreonPerks = false ∧
      PatreonAnswer.inactive (.member (some ⟨"m2", [], some "d2"⟩)) = true ∧
      ¬ FollowsCheck openConfig { users := [patron] }
        (dueLogin (.member (some ⟨"m2", [], some "d2"⟩))) patron := by
  refine ⟨List.mem_singleton_self _, dueLogin_checks _, by decide, by decide, fun hfollows => ?_⟩
  have hstored := hfollows.2 (by decide) _ rfl
  revert hstored
  decide

end Kyber.Api.Accounts
