import Kyber.Api.Accounts
import Kyber.Proofs.Database
import Kyber.Proofs.Listing

/-!
# The calls behind the accounts

Which calls the program of a request makes. A user is created without linked
accounts, and a token is stored only by the request that has generated it. An account
is linked by three kinds of requests: `Login` writes what Patreon and Discord answer
when a refresh is due for the user it has read, and the other two write an account
that they have found with nobody else.
-/

namespace Kyber.Api

/-- The token that an update writes. -/
def UserUpdate.token? : UserUpdate → Option String
  | .resetToken token | .unlinkPatreon token => some token
  | _ => none

/-- The update links an account. -/
def UserUpdate.links : UserUpdate → Bool
  | .discordData (some _) | .patreonData (some _) => true
  | _ => false

namespace Accounts

open Kyber.Lib Prog

/-- The API's calls about accounts, as a system of interleaved calls. -/
abbrev AccountsSystem :=
  System Database (fun q : Query => Except DbError q.Result) (Except Rejection Answer) Request

abbrev AccountsAction := System.Action Request Outcome Change

/-- The token that has been generated for a request. -/
def Request.newToken : Request → Option String
  | .login req => some req.token
  | .lanLogin _ token | .resetToken token | .unlinkPatreon _ token => some token
  | _ => none

def Request.registers : Request → Bool
  | .registerServer _ _ _ _ => true
  | _ => false

/-- The requests that link accounts. -/
def Request.connects : Request → Bool
  | .login _ | .linkPatreon _ | .discordCallback _ _ _ => true
  | _ => false

def Request.mayCall (r : Request) : Query → Bool
  | .createUser user =>
      user.patreonData.isNone && user.discordData.isNone && r.newToken == some user.token
  | .updateUser _ update =>
      update.token?.all (r.newToken == some ·) && (!update.links || r.connects)
  | .createServer _ => r.registers
  | .updateServer _ _ | .deleteServers _ => false
  | _ => true

/-! ## Refreshes -/

/-- What a refresh stores of a membership. -/
def PatreonAnswer.data (answer : PatreonAnswer) (now : Instant) : Option PatreonData :=
  match answer with
  | .member (some patron) => patron.discord.map fun discordID =>
      { membershipID := patron.id, discordID := some discordID, lastChecked := dateOf now }
  | _ => none

/-- What a refresh stores of a Discord account. -/
def DiscordAnswer.data (answer : DiscordAnswer) (now : Instant) : Option DiscordData :=
  match answer with
  | .user (some id) => some { id, lastUpdated := dateOf now }
  | _ => none

/-- The membership of the user is due for a check. -/
def Config.checksPatreon (config : Config) (now : Instant) (user : UserDocument) : Bool :=
  config.patreonEnabled && user.patreonData.any (·.due now)

/-- The check of the membership finds an active one. -/
def Config.refreshesPatreon (config : Config) (answer : PatreonAnswer) (now : Instant)
    (user : UserDocument) : Bool :=
  config.checksPatreon now user &&
    match answer with
    | .member (some member) => member.hasValidTier
    | _ => false

/-- The copy of the user after the check of the membership. -/
def Config.checkedPatreon (config : Config) (answer : PatreonAnswer) (now : Instant)
    (user : UserDocument) : UserDocument :=
  if config.checksPatreon now user && answer == .failed then { user with patreonData := none }
  else user

/-- Discord is asked for an account of the user, and has it. -/
def Config.refreshesDiscord (config : Config) (answer : DiscordAnswer) (now : Instant)
    (user : UserDocument) : Bool :=
  config.discordEnabled && (refreshedDiscordID now user).any (· ≠ "") &&
    (answer.data now).isSome

/-- A copy of the user has its id and its accounts. -/
structure SameAccounts (user copy : UserDocument) : Prop where
  id : copy.id = user.id
  patreonData : copy.patreonData = user.patreonData
  discordData : copy.discordData = user.discordData

theorem SameAccounts.refl (user : UserDocument) : SameAccounts user user := ⟨rfl, rfl, rfl⟩

theorem SameAccounts.rename (user : UserDocument) (name : String) :
    SameAccounts user (user.rename name) := by
  unfold UserDocument.rename
  split <;> exact ⟨rfl, rfl, rfl⟩

theorem SameAccounts.checksPatreon {user copy : UserDocument} (h : SameAccounts user copy)
    (config : Config) (now : Instant) :
    config.checksPatreon now copy = config.checksPatreon now user := by
  simp only [Config.checksPatreon, h.patreonData]

theorem SameAccounts.refreshesPatreon {user copy : UserDocument} (h : SameAccounts user copy)
    (config : Config) (answer : PatreonAnswer) (now : Instant) :
    config.refreshesPatreon answer now copy = config.refreshesPatreon answer now user := by
  simp only [Config.refreshesPatreon, h.checksPatreon]

theorem SameAccounts.checkedPatreon {user copy : UserDocument} (h : SameAccounts user copy)
    (config : Config) (answer : PatreonAnswer) (now : Instant) :
    SameAccounts (config.checkedPatreon answer now user)
      (config.checkedPatreon answer now copy) := by
  unfold Config.checkedPatreon
  rw [h.checksPatreon]
  split
  · exact ⟨h.id, rfl, h.discordData⟩
  · exact h

theorem SameAccounts.refreshesDiscord {user copy : UserDocument} (h : SameAccounts user copy)
    (config : Config) (answer : DiscordAnswer) (now : Instant) :
    config.refreshesDiscord answer now copy = config.refreshesDiscord answer now user := by
  simp only [Config.refreshesDiscord, refreshedDiscordID, h.patreonData, h.discordData]

@[simp] theorem checkedPatreon_id (config : Config) (answer : PatreonAnswer) (now : Instant)
    (user : UserDocument) : (config.checkedPatreon answer now user).id = user.id := by
  unfold Config.checkedPatreon
  split <;> rfl

/-! ## The calls of a request -/

section

variable {P : Query → Prop} {config : Config} {user : UserDocument} {k : UserDocument → Task}

theorem updatePatreonData_makes {answer : PatreonAnswer} {now : Instant}
    (hpatreon : config.refreshesPatreon answer now user = true →
      P (.updateUser user.id (.patreonData (answer.data now))))
    (hk : Makes P (k (config.checkedPatreon answer now user))) :
    Makes P (updatePatreonData config answer now user k) := by
  unfold updatePatreonData
  have hunchecked : config.checksPatreon now user = false → Makes P (k user) := by
    intro hchecks
    simpa only [Config.checkedPatreon, hchecks, Bool.false_and, Bool.false_eq_true, if_false] using hk
  split
  · next hdisabled =>
      rw [Bool.not_eq_true'] at hdisabled
      exact hunchecked (by simp [Config.checksPatreon, hdisabled])
  next henabled =>
  split
  · next hnone => exact hunchecked (by simp [Config.checksPatreon, hnone])
  next data hdata =>
  split
  · next hdue => exact hunchecked (by simpa [Config.checksPatreon, hdata] using fun _ => hdue)
  next hdue =>
  have hchecks : config.checksPatreon now user = true := by
    simpa [Config.checksPatreon, hdata] using And.intro henabled hdue
  split
  · simpa [Config.checkedPatreon, hchecks] using hk
  next membership =>
  have hsame : Makes P (k user) := by simpa [Config.checkedPatreon] using hk
  split
  · exact hsame
  · next member hactive =>
      obtain ⟨rfl, hvalid⟩ : membership = some member ∧ member.hasValidTier = true := by
        cases membership with
        | none => cases hactive
        | some member' =>
            simp only [isActivePatron] at hactive
            split at hactive
            · next hvalid =>
                cases hactive
                exact ⟨rfl, hvalid⟩
            · cases hactive
      exact .call (hpatreon (by simp [Config.refreshesPatreon, hchecks, hvalid])) fun _ => hsame

theorem updateDiscordData_makes {answer : DiscordAnswer} {now : Instant}
    (hdiscord : config.refreshesDiscord answer now user = true →
      P (.updateUser user.id (.discordData (answer.data now))))
    {k : Except DbError UserDocument → Task} (hk : ∀ result, Makes P (k result)) :
    Makes P (updateDiscordData config answer now user k) := by
  unfold updateDiscordData
  split
  · exact hk _
  next henabled =>
  split
  · exact hk _
  next userId huserId =>
  split
  · exact hk _
  next hempty =>
  split
  · exact hk _
  · exact hk _
  · refine .call (hdiscord ?_) fun updated => ?_
    · simpa [Config.refreshesDiscord, huserId, hempty, DiscordAnswer.data] using henabled
    cases updated with
    | error _ => exact hk _
    | ok _ => exact hk _

theorem updateUserName_makes (hseen : ∀ id name date, P (.updateUser id (.seen name date)))
    (hk : ∀ copy, SameAccounts user copy → Makes P (k copy)) (req : LoginRequest)
    (persona : String) : Makes P (updateUserName config req persona user k) := by
  unfold updateUserName
  split
  · refine hk _ ?_
    split
    · exact .rename user persona
    · exact .refl user
  split
  · exact hk _ (.refl user)
  split
  · exact .ret _
  next name _ =>
  simp only
  split
  · have hrenamed := SameAccounts.rename user name
    have hcopy : SameAccounts user
        { user.rename name with nameUpdated := some (dateOf req.now) } :=
      ⟨hrenamed.id, hrenamed.patreonData, hrenamed.discordData⟩
    unfold updateExistingUser
    split
    · exact .ret _
    · exact hk _ hcopy
    · exact makes_attempt (hseen _ _ _) fun _ => hk _ hcopy
  · exact hk _ ⟨rfl, rfl, rfl⟩

theorem checkEntitlements_makes
    (hcheck : ∀ id isBanned checked, P (.updateUser id (.entitlementCheck isBanned checked)))
    (hk : ∀ copy, SameAccounts user copy → Makes P (k copy)) (req : LoginRequest) :
    Makes P (checkEntitlements req user k) := by
  unfold checkEntitlements
  simp only
  split
  · split
    · exact .ret _
    · refine makes_attempt (hcheck _ _ _) fun _ => ?_
      split
      · exact .ret _
      · exact hk _ ⟨rfl, rfl, rfl⟩
  · split
    · exact .ret _
    · exact hk _ (.refl user)

theorem finishLogin_makes {req : LoginRequest}
    (hcheck : ∀ id isBanned checked, P (.updateUser id (.entitlementCheck isBanned checked)))
    (hdiscord : config.refreshesDiscord req.discord req.now user = true →
      P (.updateUser user.id (.discordData (req.discord.data req.now)))) :
    Makes P (finishLogin config req user) := by
  unfold finishLogin
  split
  · exact .ret _
  refine checkEntitlements_makes hcheck (fun copy hcopy => ?_) _
  refine updateDiscordData_makes ?_ fun result => ?_
  · rw [hcopy.refreshesDiscord, hcopy.id]
    exact hdiscord
  · cases result <;> exact .ret _

/-- The update of a refresh for the user that a login has read. -/
def LoginRequest.Refreshes (config : Config) (req : LoginRequest) (user : UserDocument)
    (update : UserUpdate) : Prop :=
  (config.refreshesPatreon req.patreon req.now user = true ∧
      update = .patreonData (req.patreon.data req.now)) ∨
    (config.refreshesDiscord req.discord req.now
        (config.checkedPatreon req.patreon req.now user) = true ∧
      update = .discordData (req.discord.data req.now))

theorem admitUser_makes {req : LoginRequest}
    (hcheck : ∀ id isBanned checked, P (.updateUser id (.entitlementCheck isBanned checked)))
    (hrefresh : ∀ update, req.Refreshes config user update → P (.updateUser user.id update)) :
    Makes P (admitUser config req user) := by
  unfold admitUser
  split
  · exact .ret _
  refine updatePatreonData_makes (fun h => hrefresh _ (.inl ⟨h, rfl⟩)) ?_
  refine finishLogin_makes hcheck fun h => ?_
  rw [checkedPatreon_id]
  exact hrefresh _ (.inr ⟨h, rfl⟩)

theorem SameAccounts.refreshes {copy : UserDocument} (h : SameAccounts user copy)
    (req : LoginRequest) {update : UserUpdate} (hrefresh : req.Refreshes config copy update) :
    req.Refreshes config user update := by
  unfold LoginRequest.Refreshes at hrefresh
  rwa [h.refreshesPatreon, (h.checkedPatreon config _ _).refreshesDiscord] at hrefresh

theorem refuseBanned_makes (p : PunishmentModel) : Makes P (refuseBanned config p) := by
  unfold refuseBanned
  split
  · exact .ret _
  · split <;> exact .ret _

theorem unlessBanned_makes {rest : Task} (hrest : Makes P rest) (req : LoginRequest)
    (punishment : Option PunishmentModel) :
    Makes P (unlessBanned config req punishment rest) := by
  unfold unlessBanned
  split
  · exact hrest
  · split
    · exact refuseBanned_makes _
    · exact hrest

theorem checkVPNBlock_makes (hvpn : ∀ id blocked, P (.updateUser id (.vpnBlocked blocked)))
    (hk : ∀ copy, SameAccounts user copy → Makes P (k copy)) (isVPN : Option Bool) :
    Makes P (checkVPNBlock isVPN user k) := by
  unfold checkVPNBlock
  split
  · exact hk _ (.refl user)
  · exact .call (hvpn _ _) fun _ => hk _ ⟨rfl, rfl, rfl⟩

theorem identified_makes {token : String} (htoken : P (.userByToken token))
    (hk : ∀ user, Makes P (k user)) : Makes P (identified token k) := by
  refine makes_attempt htoken fun found => ?_
  cases found with
  | none => exact .ret _
  | some user => exact hk user

/-- What `Login` calls once it has read the user. -/
theorem loginExisting_makes {req : LoginRequest}
    (hupdate : ∀ id update, update.token? = none → update.links = false → P (.updateUser id update))
    (hrefresh : ∀ update, req.Refreshes config user update → P (.updateUser user.id update))
    (persona : String) (punishment : Option PunishmentModel) :
    Makes P (updateUserName config req persona user fun user =>
      ask (.updateUser user.id (.seen user.name user.nameUpdated)) .internal
        "Failed to update user. Please contact support." fun () =>
          unlessBanned config req punishment (admitUser config req user)) := by
  refine updateUserName_makes (fun _ _ _ => hupdate _ _ rfl rfl) (fun copy hcopy => ?_) _ _
  refine makes_attempt (hupdate _ _ rfl rfl) fun _ => ?_
  refine unlessBanned_makes (admitUser_makes (fun _ _ _ => hupdate _ _ rfl rfl) ?_) _ _
  intro update h
  rw [hcopy.id]
  exact hrefresh update (hcopy.refreshes req h)

/-- What `Login` calls once it has created the user. -/
theorem loginCreated_makes {req : LoginRequest}
    (hupdate : ∀ id update, update.token? = none → update.links = false → P (.updateUser id update))
    (hrefresh : ∀ update, req.Refreshes config user update → P (.updateUser user.id update)) :
    Makes P (checkVPNBlock req.isVPN user (admitUser config req)) := by
  refine checkVPNBlock_makes (fun _ _ => hupdate _ _ rfl rfl) (fun copy hcopy => ?_) _
  refine admitUser_makes (fun _ _ _ => hupdate _ _ rfl rfl) fun update h => ?_
  rw [hcopy.id]
  exact hrefresh update (hcopy.refreshes req h)

theorem login_makes (hread : ∀ id, P (.userByID id)) (hban : ∀ id, P (.globalBan id))
    (hupdate : ∀ id update, update.token? = none → P (.updateUser id update)) (req : LoginRequest)
    (hcreate : ∀ claims persona, P (.createUser (newUser claims persona req.token))) :
    Makes P (login config req) := by
  have hrefresh : ∀ {user : UserDocument} update, req.Refreshes config user update →
      P (.updateUser user.id update) := by
    rintro user update (⟨-, rfl⟩ | ⟨-, rfl⟩) <;> exact hupdate _ _ rfl
  unfold login
  split
  · exact .ret _
  split
  · exact .ret _
  split
  · exact .ret _
  refine makes_attempt (hread _) fun found => makes_attempt (hban _) fun punishment => ?_
  cases found with
  | some user => exact loginExisting_makes (fun _ _ h _ => hupdate _ _ h) hrefresh _ _
  | none =>
      refine unlessBanned_makes ?_ _ _
      refine makes_attempt (hcreate _ _) fun _ => ?_
      exact loginCreated_makes (fun _ _ h _ => hupdate _ _ h) hrefresh

theorem linkPatreonAccount_makes (hread : ∀ id, P (.userByID id))
    (hdiscord : ∀ id, P (.userByDiscordID id)) (hmember : ∀ id, P (.userByMembershipID id))
    (hupdate : ∀ id update, update.token? = none → P (.updateUser id update)) (req : LinkRequest) :
    Makes P (linkPatreonAccount config req) := by
  unfold linkPatreonAccount
  split
  · exact .ret _
  split
  · exact .ret _
  split
  · exact .ret _
  split
  · exact .ret _
  · exact .ret _
  split
  · exact .ret _
  refine makes_attempt (hread _) fun found => ?_
  cases found with
  | none => exact .ret _
  | some user =>
      simp only
      split
      · exact .ret _
      unfold linkMember
      refine makes_attempt (hdiscord _) fun existing => ?_
      cases existing with
      | some existing => exact .ret _
      | none =>
          refine makes_attempt (hmember _) fun existing => ?_
          split
          · exact .ret _
          refine updateDiscordData_makes (fun _ => hupdate _ _ rfl) fun result => ?_
          cases result with
          | error _ => exact .ret _
          | ok _ => exact makes_attempt (hupdate _ _ rfl) fun _ => .ret _

theorem callbackHandler_makes (hread : ∀ id, P (.userByID id))
    (hdiscord : ∀ id, P (.userByDiscordID id))
    (hupdate : ∀ id update, update.token? = none → P (.updateUser id update))
    (userID : String) (account : Except String String) (now : Instant) :
    Makes P (callbackHandler userID account now) := by
  refine makes_attempt (hread _) fun found => ?_
  cases found with
  | none => exact .ret _
  | some user =>
      cases account with
      | error _ => exact .ret _
      | ok discordID =>
          refine makes_attempt (hdiscord _) fun existing => ?_
          split
          · exact .ret _
          · exact makes_attempt (hupdate _ _ rfl) fun _ => .ret _

theorem addModerator_makes (hread : ∀ id, P (.userByID id))
    (hwrite : ∀ id ids, P (.updateUser id (.moderators ids))) (id : String) :
    Makes P (addModerator user id) := by
  unfold addModerator
  split
  · exact .ret _
  refine makes_attempt (hread _) fun moderator => ?_
  cases moderator with
  | none => exact .ret _
  | some moderator => exact makes_attempt (hwrite _ _) fun _ => .ret _

theorem removeModerator_makes (hwrite : ∀ id ids, P (.updateUser id (.moderators ids)))
    (id : String) :
    Makes P (removeModerator user id) := by
  unfold removeModerator
  split
  · exact .ret _
  · exact makes_attempt (hwrite _ _) fun _ => .ret _

end

theorem Request.mayCall_updateUser {r : Request} (hr : r.connects = true) (id : String)
    {update : UserUpdate} (h : update.token? = none) : r.mayCall (.updateUser id update) = true := by
  simp [Request.mayCall, h, hr]

theorem Request.handler_makes (config : Config) (r : Request) :
    Makes (fun q => r.mayCall q = true) (r.handler config) := by
  cases r with
  | login req =>
      refine login_makes (fun _ => rfl) (fun _ => rfl) (fun id _ => mayCall_updateUser rfl id) req
        fun claims persona => ?_
      simp [Request.mayCall, newUser, Request.newToken]
  | lanLogin text token =>
      simp only [Request.handler, Accounts.lanLogin]
      split
      · exact .ret _
      refine makes_attempt rfl fun found => ?_
      cases found with
      | none => exact makes_attempt (by simp [Request.mayCall, Request.newToken]) fun _ => .ret _
      | some user => exact .call rfl fun _ => .ret _
  | resetToken token => exact .ret _
  | unlinkPatreon token newToken =>
      refine identified_makes rfl fun user => ?_
      unfold unlinkPatreonAccount
      split
      · exact .ret _
      split
      · exact .ret _
      refine makes_attempt ?_ fun _ => .ret _
      simp [Request.mayCall, UserUpdate.token?, UserUpdate.links, Request.newToken]
  | linkPatreon req =>
      exact linkPatreonAccount_makes (fun _ => rfl) (fun _ => rfl) (fun _ => rfl)
        (fun id _ => mayCall_updateUser rfl id) req
  | unlinkDiscord token =>
      refine identified_makes rfl fun user => ?_
      unfold unlinkDiscordAccount
      split
      · exact .ret _
      · exact makes_attempt rfl fun _ => .ret _
  | discordCallback userID account now =>
      exact callbackHandler_makes (fun _ => rfl) (fun _ => rfl)
        (fun id _ => mayCall_updateUser rfl id) _ _ _
  | addModerator token id =>
      exact identified_makes rfl fun user => addModerator_makes (fun _ => rfl) (fun _ _ => rfl) id
  | removeModerator token id =>
      exact identified_makes rfl fun user => removeModerator_makes (fun _ _ => rfl) id
  | registerServer token req gen unpublished =>
      refine identified_makes rfl fun user => ?_
      intro cs q k hpath
      have hcall := Listing.registerServer_makes req gen unpublished cs q k hpath
      cases q with
      | updateUser id update => cases update <;> first | rfl | cases hcall
      | createUser _ | updateServer _ _ | deleteServers _ => cases hcall
      | _ => rfl

/-- A request under way makes one of its calls. -/
theorem mayCall_of_task {config : Config} {sys : AccountsSystem} (h : sys.Traced (service config))
    {i : Nat} {r : Request} (hr : sys.requests[i]? = some r) {q : Query}
    {k : Except DbError q.Result → Task} (hi : sys.tasks[i]? = some (.call q k)) :
    r.mayCall q = true :=
  r.handler_makes config _ _ _ (h.path i r _ hr hi)

/-! ## Who links an account -/

section

variable {config : Config} {cs : List ((q : Query) × Except DbError q.Result)} {id : String}
  {update : UserUpdate} {k : Except DbError Unit → Task}

theorem not_refreshes_newUser (config : Config) (req : LoginRequest) (claims : Claims)
    (persona token : String) (update : UserUpdate) :
    ¬ req.Refreshes config (newUser claims persona token) update := by
  simp [LoginRequest.Refreshes, Config.refreshesPatreon, Config.checkedPatreon,
    Config.checksPatreon, Config.refreshesDiscord, refreshedDiscordID, newUser]

/-- An account that `Login` links is that of a refresh of the user it has read. -/
theorem login_links {req : LoginRequest}
    (h : Path (login config req) cs (.call (.updateUser id update) k))
    (hlinks : update.links = true) :
    ∃ claims user cs', req.claims = .ok claims ∧
      cs = ⟨.userByID claims.pid, .ok (some user)⟩ :: cs' ∧ id = user.id ∧
      req.Refreshes config user update := by
  have hupdate : ∀ {user : UserDocument} id' update', UserUpdate.token? update' = none →
      update'.links = false → Query.updateUser id' update' = .updateUser id update →
      id = user.id ∧ req.Refreshes config user update := by
    intro user id' update' _ hlinks' heq
    cases heq
    rw [hlinks] at hlinks'
    cases hlinks'
  have hrefresh : ∀ {user : UserDocument} update', req.Refreshes config user update' →
      Query.updateUser user.id update' = .updateUser id update →
      id = user.id ∧ req.Refreshes config user update := by
    intro user update' hrefreshes heq
    cases heq
    exact ⟨rfl, hrefreshes⟩
  unfold login at h
  split at h
  · cases (path_ret h).2
  next claims hclaims =>
  split at h
  · cases (path_ret h).2
  split at h
  · cases (path_ret h).2
  next persona _ =>
  obtain ⟨found, cs₁, rfl, h₁⟩ := path_attempt_call (by simp) h
  obtain ⟨punishment, cs₂, rfl, h₂⟩ := path_attempt_call (by simp) h₁
  cases found with
  | some user =>
      have hmakes := loginExisting_makes (P := fun q => q = .updateUser id update →
        id = user.id ∧ req.Refreshes config user update) hupdate hrefresh persona punishment
      obtain ⟨rfl, hrefreshes⟩ := hmakes _ _ _ h₂ rfl
      exact ⟨claims, user, _, hclaims, rfl, rfl, hrefreshes⟩
  | none =>
      -- There is nothing to refresh yet.
      have hcreates : Makes (fun q => q = Query.updateUser id update →
          id = (newUser claims persona req.token).id ∧
            req.Refreshes config (newUser claims persona req.token) update)
          (ask (.createUser (newUser claims persona req.token)) .internal
            "Failed to create user. Please contact support." fun () =>
              checkVPNBlock req.isVPN (newUser claims persona req.token) (admitUser config req)) :=
        makes_attempt (by simp) fun _ => loginCreated_makes hupdate hrefresh
      exact absurd (unlessBanned_makes hcreates req punishment _ _ _ h₂ rfl).2
        (not_refreshes_newUser _ _ _ _ _ _)

/-- `updateDiscordData` is at its write, or what comes after it goes on with a copy. -/
theorem updateDiscordData_path {answer : DiscordAnswer} {now : Instant} {user : UserDocument}
    {rest : Except DbError UserDocument → Task}
    (h : Path (updateDiscordData config answer now user rest) cs (.call (.updateUser id update) k)) :
    (cs = [] ∧ id = user.id ∧ update = .discordData (answer.data now) ∧
        ∃ copy, k (.ok ()) = rest (.ok copy) ∧ copy.id = user.id) ∨
      ∃ result cs', Path (rest result) cs' (.call (.updateUser id update) k) ∧
        (∀ copy, result = .ok copy → copy.id = user.id ∧ copy.patreonData = user.patreonData) ∧
        ∀ c ∈ cs, c ∈ cs' ∨
          ∃ written, c = ⟨.updateUser user.id (.discordData (answer.data now)), written⟩ := by
  have hsame : ∀ copy : UserDocument, copy.id = user.id → copy.patreonData = user.patreonData →
      Path (rest (.ok copy)) cs (.call (.updateUser id update) k) →
      ∃ result cs', Path (rest result) cs' (.call (.updateUser id update) k) ∧
        (∀ copy, result = .ok copy → copy.id = user.id ∧ copy.patreonData = user.patreonData) ∧
        ∀ c ∈ cs, c ∈ cs' ∨
          ∃ written, c = ⟨.updateUser user.id (.discordData (answer.data now)), written⟩ := by
    intro copy hid hdata h
    refine ⟨.ok copy, cs, h, fun copy' heq => ?_, fun c hc => .inl hc⟩
    cases heq
    exact ⟨hid, hdata⟩
  unfold updateDiscordData at h
  split at h
  · exact .inr (hsame user rfl rfl h)
  split at h
  · exact .inr (hsame user rfl rfl h)
  split at h
  · exact .inr (hsame user rfl rfl h)
  split at h
  · exact .inr (hsame user rfl rfl h)
  · exact .inr (hsame { user with discordData := none } rfl rfl h)
  next discordID =>
  rcases path_call h with ⟨rfl, hq⟩ | ⟨written, cs', rfl, h₁⟩
  · cases hq
    exact .inl ⟨rfl, rfl, rfl, _, rfl, rfl⟩
  have hcs : ∀ c ∈ (⟨.updateUser user.id (.discordData ((DiscordAnswer.user (some discordID)).data now)),
      written⟩ : (q : Query) × Except DbError q.Result) :: cs', c ∈ cs' ∨ ∃ written, c =
        ⟨.updateUser user.id (.discordData ((DiscordAnswer.user (some discordID)).data now)),
          written⟩ := by
    intro c hc
    rcases List.mem_cons.mp hc with rfl | hc
    · exact .inr ⟨written, rfl⟩
    · exact .inl hc
  cases written with
  | error e => exact .inr ⟨.error e, cs', h₁, fun _ heq => (by cases heq), hcs⟩
  | ok _ =>
      refine .inr ⟨.ok _, cs', h₁, fun copy heq => ?_, hcs⟩
      cases heq
      exact ⟨rfl, rfl⟩

/-- `LinkPatreonAccount` has found nobody with the Discord account and nobody else with the
membership. It writes what Discord answers, and then the membership. -/
theorem linkPatreonAccount_update {req : LinkRequest}
    (h : Path (linkPatreonAccount config req) cs (.call (.updateUser id update) k)) :
    ∃ claims member discordID user existing rest, req.claims = .ok claims ∧
      req.patreon = .member (some member) ∧ member.discord = some discordID ∧
      Option.filter (·.id ≠ user.id) existing = none ∧ id = user.id ∧
      cs = ⟨.userByID claims.pid, .ok (some user)⟩ :: ⟨.userByDiscordID discordID, .ok none⟩ ::
        ⟨.userByMembershipID member.id, .ok existing⟩ :: rest ∧
      ((rest = [] ∧ update = .discordData (req.discord.data req.now) ∧
          (k (.ok ())).result? = none) ∨
        ((∀ c ∈ rest, ∃ answer, c = ⟨.updateUser user.id
            (.discordData (req.discord.data req.now)), answer⟩) ∧
          update = .patreonData (req.patreon.data req.now) ∧
          (k (.ok ())).result? = some (.ok .empty))) := by
  unfold linkPatreonAccount at h
  split at h
  · cases (path_ret h).2
  split at h
  · cases (path_ret h).2
  next claims hclaims =>
  split at h
  · cases (path_ret h).2
  split at h
  · cases (path_ret h).2
  · cases (path_ret h).2
  next patron hpatron =>
  split at h
  · cases (path_ret h).2
  next member hmember =>
  obtain rfl : patron = member := by
    simp only [isActivePatron] at hmember
    split at hmember <;> cases hmember
    rfl
  obtain ⟨found, cs₁, rfl, h₁⟩ := path_attempt_call (by simp) h
  cases found with
  | none => cases (path_ret h₁).2
  | some user =>
  simp only at h₁
  split at h₁
  · cases (path_ret h₁).2
  next discordID hdiscordID =>
  unfold linkMember at h₁
  obtain ⟨found, cs₂, rfl, h₂⟩ := path_attempt_call (by simp) h₁
  cases found with
  | some other => cases (path_ret h₂).2
  | none =>
  obtain ⟨existing, cs₃, rfl, h₃⟩ := path_attempt_call (by simp) h₂
  simp only at h₃
  split at h₃
  · cases (path_ret h₃).2
  next hfilter =>
  refine ⟨claims, patron, discordID, user, existing, cs₃, hclaims, hpatron, hdiscordID, hfilter, ?_⟩
  rcases updateDiscordData_path h₃ with
    ⟨rfl, hid, hupdate, copy, hk, -⟩ | ⟨result, cs', h₄, hcopy, hcs⟩
  · refine ⟨hid, rfl, .inl ⟨rfl, hupdate, ?_⟩⟩
    rw [hk]
    rfl
  cases result with
  | error e => cases (path_ret h₄).2
  | ok copy =>
      obtain ⟨hid, hdata⟩ := hcopy copy rfl
      rcases path_attempt h₄ with ⟨rfl, hq⟩ | ⟨e, -, hq⟩ | ⟨a, cs'', -, h₅⟩
      · cases hq
        refine ⟨hid, rfl, .inr ⟨fun c hc => (hcs c hc).resolve_left List.not_mem_nil, ?_, rfl⟩⟩
        rw [hdata, hpatron]
        simp [PatreonAnswer.data, hdiscordID]
      · cases hq
      · cases (path_ret h₅).2

/-- Discord's callback has found nobody else with the account. -/
theorem callbackHandler_update {userID : String} {account : Except String String} {now : Instant}
    (h : Path (callbackHandler userID account now) cs (.call (.updateUser id update) k)) :
    ∃ discordID user existing, account = .ok discordID ∧
      Option.filter (·.id ≠ user.id) existing = none ∧ id = user.id ∧
      cs = [⟨.userByID userID, .ok (some user)⟩, ⟨.userByDiscordID discordID, .ok existing⟩] ∧
      update = .discordData (some { id := discordID, lastUpdated := dateOf now }) ∧
      (k (.ok ())).result? = some (.ok .linked) := by
  obtain ⟨found, cs₁, rfl, h₁⟩ := path_attempt_call (by simp) h
  cases found with
  | none => cases (path_ret h₁).2
  | some user =>
  cases account with
  | error message => cases (path_ret h₁).2
  | ok discordID =>
  obtain ⟨existing, cs₂, rfl, h₂⟩ := path_attempt_call (by simp) h₁
  split at h₂
  · cases (path_ret h₂).2
  next hfilter =>
  rcases path_attempt h₂ with ⟨rfl, hq⟩ | ⟨e, -, hq⟩ | ⟨a, cs₃, -, h₃⟩
  · cases hq
    exact ⟨discordID, user, existing, rfl, hfilter, rfl, rfl, rfl, rfl⟩
  · cases hq
  · cases (path_ret h₃).2

end

/-- No two users come to share an id. -/
theorem users_keys_step {config : Config} {sys sys' : AccountsSystem} {a : AccountsAction}
    (hkeys : (sys.store.users.map (·.id)).Nodup)
    (hstep : (service config).step sys a = some sys') : (sys'.store.users.map (·.id)).Nodup := by
  rcases Service.step_cases hstep with ⟨r, -, rfl⟩ | ⟨i, outcome, q, k, -, -, rfl⟩ | ⟨e, -, rfl⟩
  · exact hkeys
  · exact Database.users_keys hkeys outcome q
  · cases e with
    | entitle userID entitlements =>
        have hids : (change sys.store (.entitle userID entitlements)).users.map (·.id)
            = sys.store.users.map (·.id) := by
          refine map_updateFirst ?_ _
          exact fun _ _ => rfl
        show ((change sys.store (.entitle userID entitlements)).users.map (·.id)).Nodup
        rw [hids]
        exact hkeys
    | updateServer _ _ | deleteServers _ | others _ _ _ _ => exact hkeys

/-- What every run keeps. -/
structure Base (config : Config) (sys : AccountsSystem) : Prop where
  traced : sys.Traced (service config)
  keys : (sys.store.users.map (·.id)).Nodup

theorem Base.step {config : Config} {sys sys' : AccountsSystem} {a : AccountsAction}
    (h : Base config sys) (hstep : (service config).step sys a = some sys') : Base config sys' :=
  ⟨h.traced.step hstep, users_keys_step h.keys hstep⟩

theorem Base.init (config : Config) {db : Database} (hkeys : (db.users.map (·.id)).Nodup) :
    Base config { store := db } :=
  ⟨.init _ _, hkeys⟩

/-! ## A service with all accounts -/

/-- All services are there, and nobody needs to be on a list. -/
def openConfig : Config where
  patreonEnabled := true
  discordEnabled := true
  usersClientEnabled := false
  whitelistEnabled := false
  usernameWhitelist _ := false
  personaWhitelist _ := false
  formatDate _ := ""
  isProfane _ := false

def day : Instant := 24 * hour

/-- A login that EA has nothing against. -/
def loginOf (pid : String) (patreon : PatreonAnswer) (discord : DiscordAnswer) (now : Instant) :
    LoginRequest where
  claims := .ok { pid, active := true, persona := some pid, personaID := pid }
  name := none
  namesake := .nobody
  isVPN := some false
  patreon := patreon
  isBanned := some false
  discord := discord
  token := "new"
  now := now

end Accounts

end Kyber.Api
