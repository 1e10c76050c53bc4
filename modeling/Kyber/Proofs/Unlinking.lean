import Kyber.Lib.Writes
import Kyber.Proofs.Accounts

/-!
# Accounts that have been unlinked

A user unlinks a Discord or a Patreon account with a call that empties a field of the
document. `Login` fills both fields, from a copy of the user that may be older than
that, and the Discord account also from the one that Patreon knows. So the field stays
empty as long as no `Login` comes to a write for which it has read the user before, or
has read a membership, when a refresh is due and the answer has an account.

A callback of Discord or `LinkPatreonAccount` links the account again, unless it ends
in an error; then what it has stored by that time has not been asked for. That is so if
the database does not answer its last write.
-/

namespace Kyber.Api.Accounts

open Kyber.Lib Prog

/-- A linked account of a user. -/
inductive Link
  | discord
  | patreon
  deriving DecidableEq, Repr

namespace Link

/-- The account is in the document. -/
def stored (f : Link) (user : UserDocument) : Bool :=
  match f with
  | .discord => user.discordData.isSome
  | .patreon => user.patreonData.isSome

/-- The update replaces the account. -/
def writtenBy (f : Link) (update : UserUpdate) : Bool :=
  match f, update with
  | .discord, .discordData _ => true
  | .patreon, .patreonData _ => true
  | _, _ => false

/-- The update puts an account in. -/
def fills (f : Link) (update : UserUpdate) : Bool :=
  match f, update with
  | .discord, .discordData (some _) => true
  | .patreon, .patreonData (some _) => true
  | _, _ => false

/-- The update with which a user unlinks the account. -/
def clears (f : Link) (update : UserUpdate) : Bool :=
  match f, update with
  | .discord, .discordData none => true
  | .patreon, .unlinkPatreon _ => true
  | _, _ => false

/-- The writes of a request that links the account again. `LinkPatreonAccount` ends
with the second one. -/
def renewedBy (f : Link) (update : UserUpdate) : Bool :=
  match f, update with
  | .discord, .discordData (some _) => true
  | _, .patreonData (some _) => true
  | _, _ => false

theorem renewedBy_of_fills {f : Link} {update : UserUpdate} (h : f.fills update = true) :
    f.renewedBy update = true := by
  match f, update with
  | .discord, .discordData (some _) => rfl
  | .patreon, .patreonData (some _) => rfl

theorem writtenBy_of_fills {f : Link} {update : UserUpdate} (h : f.fills update = true) :
    f.writtenBy update = true ∧ update.links = true := by
  match f, update with
  | .discord, .discordData (some _) => exact ⟨rfl, rfl⟩
  | .patreon, .patreonData (some _) => exact ⟨rfl, rfl⟩

theorem fills_of_clears {f : Link} {update : UserUpdate} (h : f.clears update = true) :
    f.fills update = false := by
  match f, update with
  | .discord, .discordData none => rfl
  | .patreon, .unlinkPatreon _ => rfl

/-- An account that is there after an update has been put in or left there. -/
theorem stored_apply {f : Link} {update : UserUpdate} {user : UserDocument}
    (h : f.stored (update.apply user) = true) :
    f.clears update = false ∧ (f.fills update = true ∨ f.stored user = true) := by
  cases f with
  | discord =>
      cases update with
      | discordData data =>
          cases data with
          | none => cases h
          | some data => exact ⟨rfl, .inl rfl⟩
      | _ => exact ⟨rfl, .inr h⟩
  | patreon =>
      cases update with
      | patreonData data =>
          cases data with
          | none => cases h
          | some data => exact ⟨rfl, .inl rfl⟩
      | unlinkPatreon token => cases h
      | _ => exact ⟨rfl, .inr h⟩

end Link

def Request.unlinks : Request → Link → Bool
  | .unlinkDiscord _, .discord => true
  | .unlinkPatreon _ _, .patreon => true
  | _, _ => false

def Request.links : Request → Link → Bool
  | .discordCallback _ _ _, .discord => true
  | .linkPatreon _, _ => true
  | _, _ => false

/-! ## Who has unlinked an account -/

abbrev AccountsEvent := Event Database fun q : Query => Except DbError q.Result

/-- What a call says about the user's account: it has been unlinked, or linked again.
`stands` are the requests that have not failed. -/
def Link.verdict (f : Link) (requests : List Request) (stands : Nat → Bool) (userID : String)
    (e : AccountsEvent) : Option Bool :=
  match requests[e.task]?, e.call with
  | some r, ⟨.updateUser id update, answer⟩ =>
      if id ≠ userID then none
      else if r.unlinks f && f.clears update && answer.isOk then some true
      else if r.links f && f.renewedBy update && stands e.task then some false
      else none
  | _, _ => none

/-- The user has unlinked the account and not linked it again. -/
def Link.unlinkedBy (f : Link) (requests : List Request) (stands : Nat → Bool)
    (trace : List AccountsEvent) (userID : String) : Bool :=
  trace.reverse.findSome? (f.verdict requests stands userID) == some true

/-- The request has not ended in an error. -/
def stands (sys : AccountsSystem) (i : Nat) : Bool :=
  match sys.tasks[i]?.bind (·.result?) with
  | some (.error _) => false
  | _ => true

def Link.unlinked (f : Link) (sys : AccountsSystem) (userID : String) : Bool :=
  f.unlinkedBy sys.requests (stands sys) sys.trace userID

/-- What a user has unlinked is not there. -/
def UnlinkedEmpty (sys : AccountsSystem) : Prop :=
  ∀ (f : Link), ∀ user ∈ sys.store.users, f.unlinked sys user.id = true → f.stored user = false

/-! ## The condition -/

/-- The user that a login has read. -/
def readUser (cs : List ((q : Query) × Except DbError q.Result)) : Option UserDocument :=
  cs.findSome? fun
    | ⟨.userByID _, .ok user⟩ => user
    | _ => none

/-- A login that has read the user refreshes the account: a check is due, and is answered with
an account. -/
def Link.refreshes (f : Link) (config : Config) (req : LoginRequest) (user : UserDocument) : Bool :=
  match f with
  | .discord => config.refreshesDiscord req.discord req.now
      (config.checkedPatreon req.patreon req.now user)
  | .patreon => config.refreshesPatreon req.patreon req.now user &&
      (req.patreon.data req.now).isSome

/-- What the user has unlinked, apart from this request. -/
def Link.unlinkedBeside (f : Link) (sys : AccountsSystem) (i : Nat) (userID : String) : Bool :=
  f.unlinkedBy sys.requests (fun j => j != i && stands sys j) sys.trace userID

/-- A login must not come to the write of an account that its user has unlinked, if it refreshes
what it has read. And when a write of a request that links an account is not answered, the
account must not have been unlinked before, or must not be there: neither from an earlier write
nor from this one. -/
def keepsUnlinked (config : Config) (sys : AccountsSystem) : AccountsAction → Bool
  | .run i outcome =>
      match sys.requests[i]?, sys.tasks[i]? with
      | some (.login req), some (.call (.updateUser id update) _) =>
          outcome == .failed || [Link.discord, Link.patreon].all fun f =>
            !f.writtenBy update || !f.unlinked sys id ||
              !(readUser (sys.calls i)).any (f.refreshes config req)
      | some r, some (.call (.updateUser id update) _) =>
          outcome == .answered || [Link.discord, Link.patreon].all fun f =>
            !r.links f || sys.store.users.all fun user =>
              user.id != id || !f.unlinkedBeside sys i id ||
                (!f.stored user && (outcome == .failed || !f.writtenBy update))
      | _, _ => true
  | _ => true

/-! ## What the requests write -/

section

variable {config : Config} {cs : List ((q : Query) × Except DbError q.Result)} {q : Query}
  {k : Except DbError q.Result → Task}

def updatesUser : Query → Bool
  | .updateUser _ _ => true
  | _ => false

/-- Until `LinkPatreonAccount` is at its first write, it has only read. -/
theorem linkPatreonAccount_reads {req : LinkRequest}
    (h : Path (linkPatreonAccount config req) cs (.call q k)) (hq : updatesUser q = false) :
    ∀ c ∈ cs, updatesUser c.1 = false := by
  unfold linkPatreonAccount at h
  split at h
  · cases (path_ret h).2
  split at h
  · cases (path_ret h).2
  split at h
  · cases (path_ret h).2
  split at h
  · cases (path_ret h).2
  · cases (path_ret h).2
  split at h
  · cases (path_ret h).2
  rcases path_attempt h with ⟨rfl, -⟩ | ⟨e, -, hret⟩ | ⟨found, cs₁, rfl, h₁⟩
  · simp
  · cases hret
  rw [List.forall_mem_cons]
  refine ⟨rfl, ?_⟩
  cases found with
  | none => cases (path_ret h₁).2
  | some user =>
  simp only at h₁
  split at h₁
  · cases (path_ret h₁).2
  unfold linkMember at h₁
  rcases path_attempt h₁ with ⟨rfl, -⟩ | ⟨e, -, hret⟩ | ⟨found, cs₂, rfl, h₂⟩
  · simp
  · cases hret
  rw [List.forall_mem_cons]
  refine ⟨rfl, ?_⟩
  cases found with
  | some other => cases (path_ret h₂).2
  | none =>
  rcases path_attempt h₂ with ⟨rfl, -⟩ | ⟨e, -, hret⟩ | ⟨existing, cs₃, rfl, h₃⟩
  · simp
  · cases hret
  split at h₃
  · cases (path_ret h₃).2
  -- Only writes are left.
  have hwrites := updateDiscordData_makes (P := fun q => updatesUser q = true) (fun _ => rfl)
    (fun result => ?_) _ _ _ h₃
  · exact absurd (hq.symm.trans hwrites) Bool.false_ne_true
  · cases result with
    | error _ => exact .ret _
    | ok _ => exact makes_attempt rfl fun _ => .ret _

/-- Until Discord's callback is at its write, it has only read. -/
theorem callbackHandler_reads {userID : String} {account : Except String String} {now : Instant}
    (h : Path (callbackHandler userID account now) cs (.call q k)) :
    ∀ c ∈ cs, updatesUser c.1 = false := by
  rcases path_attempt h with ⟨rfl, -⟩ | ⟨e, -, hret⟩ | ⟨found, cs₁, rfl, h₁⟩
  · simp
  · cases hret
  rw [List.forall_mem_cons]
  refine ⟨rfl, ?_⟩
  cases found with
  | none => cases (path_ret h₁).2
  | some user =>
  cases account with
  | error message => cases (path_ret h₁).2
  | ok discordID =>
  rcases path_attempt h₁ with ⟨rfl, -⟩ | ⟨e, -, hret⟩ | ⟨existing, cs₂, rfl, h₂⟩
  · simp
  · cases hret
  rw [List.forall_mem_cons]
  refine ⟨rfl, ?_⟩
  split at h₂
  · cases (path_ret h₂).2
  rcases path_attempt h₂ with ⟨rfl, -⟩ | ⟨e, -, hret⟩ | ⟨a, cs₃, -, h₃⟩
  · simp
  · cases hret
  · cases (path_ret h₃).2

end

/-! ## One step -/

section

variable {f : Link} {requests : List Request} {userID : String}

/-- The verdict of a call that comes last counts first. -/
theorem Link.unlinkedBy_append (f : Link) (stands : Nat → Bool) (trace : List AccountsEvent)
    (e : AccountsEvent) :
    f.unlinkedBy requests stands (trace ++ [e]) userID =
      match f.verdict requests stands userID e with
      | some b => b
      | none => f.unlinkedBy requests stands trace userID := by
  simp only [unlinkedBy, findSome?_reverse_append]
  cases f.verdict requests stands userID e with
  | none => rfl
  | some b => cases b <;> rfl

theorem Link.unlinkedBy_congr {requests' : List Request} {stands stands' : Nat → Bool}
    {trace : List AccountsEvent}
    (h : ∀ e ∈ trace, f.verdict requests' stands' userID e = f.verdict requests stands userID e) :
    f.unlinkedBy requests' stands' trace userID = f.unlinkedBy requests stands trace userID := by
  unfold unlinkedBy
  rw [findSome?_congr fun e he => h e (List.mem_reverse.mp he)]

/-- A call that unlinks an account has had its effect. -/
theorem Link.clears_of_verdict {stands : Nat → Bool} {i : Nat} {db : Database} {outcome : Outcome}
    {q : Query}
    (h : f.verdict requests stands userID ⟨i, db, ⟨q, (db.serve outcome q).2⟩⟩ = some true) :
    outcome = .answered ∧ ∃ update, q = .updateUser userID update ∧ f.clears update = true := by
  cases q with
  | updateUser id update =>
      simp only [verdict] at h
      split at h
      · next r id' update' answer hr hcall =>
          cases hcall
          split at h
          · cases h
          next hid =>
          split at h
          · next hclears =>
              simp only [Bool.and_eq_true] at hclears
              rw [not_not] at hid
              refine ⟨?_, update, by rw [hid], hclears.1.2⟩
              cases outcome with
              | answered => rfl
              | failed | unacknowledged => cases hclears.2
          · split at h <;> cases h
      · cases h
  | _ =>
      simp only [verdict] at h
      split at h
      · next hcall => cases hcall
      · cases h

end

/-- The call puts an account into the user's document. -/
def fillsNow (outcome : Outcome) (q : Query) (f : Link) (userID : String) : Bool :=
  match q with
  | .updateUser id update => id == userID && f.fills update && outcome != .failed
  | _ => false

/-- The call is the last one of a request that ends in an error. -/
def failsNow (sys : AccountsSystem) (outcome : Outcome) (q : Query)
    (k : Except DbError q.Result → Task) : Bool :=
  match (k (sys.store.serve outcome q).2).result? with
  | some (.error _) => true
  | _ => false

section

variable {config : Config} {sys : AccountsSystem} {i : Nat} {q : Query}
  {k : Except DbError q.Result → Task}

theorem stands_of_running (hi : sys.tasks[i]? = some (.call q k)) : stands sys i = true := by
  simp [stands, hi, result?]

theorem stands_ran (hi : sys.tasks[i]? = some (.call q k)) (outcome : Outcome) (j : Nat) :
    stands ((service config).ran sys i outcome q k) j =
      if j = i then !failsNow sys outcome q k else stands sys j := by
  obtain ⟨hlt, -⟩ := List.getElem?_eq_some_iff.mp hi
  by_cases hj : j = i
  · subst hj
    simp only [stands, Service.ran, List.getElem?_set, hlt, if_true, Option.bind_some, failsNow]
    show _ = !(match (k (sys.store.serve outcome q).2).result? with
      | some (.error _) => true
      | _ => false)
    show (match (k (sys.store.serve outcome q).2).result? with
      | some (.error _) => false
      | _ => true) = _
    cases (k (sys.store.serve outcome q).2).result? with
    | none => rfl
    | some result => cases result <;> rfl
  · simp only [stands, Service.ran, List.getElem?_set, if_neg (Ne.symm hj), if_neg hj]

/-- A user whose account is there after a call: it has been put in, or was there and
has not been unlinked. -/
theorem stored_written {f : Link} {outcome : Outcome} {user : UserDocument}
    (h : f.stored (Database.written outcome q user) = true) :
    fillsNow outcome q f user.id = true ∨ f.stored user = true ∧
      (outcome = .answered → ∀ update, q = .updateUser user.id update → f.clears update = false) := by
  cases q with
  | updateUser id update =>
      simp only [Database.written] at h
      split at h
      · next hid =>
          simp only [Bool.and_eq_true, beq_iff_eq, bne_iff_ne] at hid
          obtain ⟨hclears, hfills | hstored⟩ := Link.stored_apply h
          · exact .inl (by simp [fillsNow, hid.1, hfills, hid.2])
          · refine .inr ⟨hstored, fun _ update' hq => ?_⟩
            cases hq
            exact hclears
      · next hid =>
          refine .inr ⟨h, fun houtcome update' hq => ?_⟩
          cases hq
          simp [houtcome] at hid
  | _ =>
      refine .inr ⟨h, fun _ update hq => ?_⟩
      cases hq

/-- The write of a request that goes on links the account again. -/
theorem verdict_of_links {f : Link} {r : Request} {stands : Nat → Bool} {outcome : Outcome}
    {userID : String} (hr : sys.requests[i]? = some r) (hlinks : r.links f = true)
    (hstands : stands i = true) (hfills : fillsNow outcome q f userID = true)
    (answer : Except DbError q.Result) :
    f.verdict sys.requests stands userID ⟨i, sys.store, ⟨q, answer⟩⟩ ≠ none := by
  cases q with
  | updateUser id update =>
      simp only [fillsNow, Bool.and_eq_true, beq_iff_eq] at hfills
      simp only [Link.verdict, hr, hfills.1.1, ne_eq, not_true_eq_false, if_false]
      split
      · simp
      · simp [hlinks, Link.renewedBy_of_fills hfills.1.2, hstands]
  | _ => cases hfills

/-- After a call that unlinks the account, it is not there. -/
theorem stored_of_verdict {f : Link} {requests : List Request} {stands : Nat → Bool}
    {outcome : Outcome} {user : UserDocument}
    (h : f.verdict requests stands user.id ⟨i, sys.store, ⟨q, (sys.store.serve outcome q).2⟩⟩ =
      some true) : f.stored (Database.written outcome q user) = false := by
  obtain ⟨houtcome, update, hq, hclears⟩ := Link.clears_of_verdict h
  rw [← Bool.not_eq_true]
  intro hstored
  rcases stored_written hstored with hfills | ⟨-, hnot⟩
  · subst hq
    simp only [fillsNow, Bool.and_eq_true] at hfills
    rw [Link.fills_of_clears hclears] at hfills
    cases hfills.1.2
  · rw [hnot houtcome update hq] at hclears
    cases hclears

/-- What was unlinked before, as it is seen once the request has failed. -/
theorem unlinkedBy_ran_of_fails (f : Link) (hi : sys.tasks[i]? = some (.call q k))
    {outcome : Outcome} (hfails : failsNow sys outcome q k = true) (userID : String) :
    f.unlinkedBy sys.requests (stands ((service config).ran sys i outcome q k)) sys.trace userID =
      f.unlinkedBeside sys i userID := by
  refine Link.unlinkedBy_congr fun e _ => ?_
  have hstands : stands ((service config).ran sys i outcome q k) e.task =
      (e.task != i && stands sys e.task) := by
    rw [stands_ran hi, hfails]
    by_cases he : e.task = i <;> simp [he]
  simp only [Link.verdict, hstands]

/-- A request that goes on is seen as before. -/
theorem unlinkedBy_ran_of_goesOn (f : Link) (hi : sys.tasks[i]? = some (.call q k))
    {outcome : Outcome} (hgoes : failsNow sys outcome q k = false) (userID : String) :
    f.unlinkedBy sys.requests (stands ((service config).ran sys i outcome q k)) sys.trace userID =
      f.unlinked sys userID := by
  refine Link.unlinkedBy_congr fun e _ => ?_
  have hstands : stands ((service config).ran sys i outcome q k) e.task = stands sys e.task := by
    rw [stands_ran hi, hgoes]
    split
    · next he =>
        rw [he, stands_of_running hi]
        rfl
    · rfl
  simp only [Link.verdict, hstands]

/-- A login writes an account only where the condition lets it. -/
theorem not_unlinked_of_login (hbase : Base config sys) {req : LoginRequest}
    (hr : sys.requests[i]? = some (.login req)) (hi : sys.tasks[i]? = some (.call q k))
    {outcome : Outcome} (hkeeps : keepsUnlinked config sys (.run i outcome) = true) {f : Link}
    {userID : String} (hfills : fillsNow outcome q f userID = true) :
    f.unlinked sys userID = false := by
  cases q with
  | updateUser id update =>
      simp only [fillsNow, Bool.and_eq_true, beq_iff_eq, bne_iff_ne] at hfills
      obtain ⟨⟨rfl, hfills⟩, houtcome⟩ := hfills
      obtain ⟨hwritten, hlinks⟩ := Link.writtenBy_of_fills hfills
      obtain ⟨claims, user, cs', -, hcs, -, hrefreshes⟩ :=
        login_links (hbase.traced.path i _ _ hr hi) hlinks
      have hread : readUser (sys.calls i) = some user := by rw [hcs]; rfl
      have hrefresh : f.refreshes config req user = true := by
        cases f with
        | discord =>
            rcases hrefreshes with ⟨-, rfl⟩ | ⟨hdiscord, -⟩
            · cases hwritten
            · exact hdiscord
        | patreon =>
            rcases hrefreshes with ⟨hpatreon, rfl⟩ | ⟨-, rfl⟩
            · simp only [Link.refreshes, hpatreon, Bool.true_and]
              cases hdata : req.patreon.data req.now with
              | none => simp [hdata, Link.fills] at hfills
              | some data => rfl
            · cases hwritten
      simp only [keepsUnlinked, hr, hi, Bool.or_eq_true, beq_iff_eq, houtcome, false_or,
        List.all_cons, List.all_nil, Bool.and_true, Bool.and_eq_true] at hkeeps
      have hf : (!f.writtenBy update || !f.unlinked sys id ||
          !(readUser (sys.calls i)).any (f.refreshes config req)) = true := by
        cases f with
        | discord => simpa using hkeeps.1
        | patreon => simpa using hkeeps.2
      simpa [hwritten, hread, hrefresh] using hf
  | _ => cases hfills

/-- Who writes an account: a login, or a request that links it. -/
theorem writer_of_fills (hbase : Base config sys) {r : Request} (hr : sys.requests[i]? = some r)
    (hi : sys.tasks[i]? = some (.call q k)) {outcome : Outcome} {f : Link} {userID : String}
    (hfills : fillsNow outcome q f userID = true) : (∃ req, r = .login req) ∨ r.links f = true := by
  cases q with
  | updateUser id update =>
      simp only [fillsNow, Bool.and_eq_true] at hfills
      obtain ⟨-, hlinks⟩ := Link.writtenBy_of_fills hfills.1.2
      have hcall := mayCall_of_task hbase.traced hr hi
      simp only [Request.mayCall, hlinks, Bool.not_true, Bool.false_or, Bool.and_eq_true] at hcall
      cases r with
      | login req => exact .inl ⟨req, rfl⟩
      | linkPatreon req => exact .inr (by cases f <;> rfl)
      | discordCallback uid account now =>
          obtain ⟨_, _, _, -, -, -, -, rfl, -⟩ :=
            callbackHandler_update (hbase.traced.path i _ _ hr hi)
          cases f with
          | discord => exact .inr rfl
          | patreon => cases hfills.1.2
      | _ => cases hcall.2
  | _ => cases hfills

/-- A request that links an account has written to no user's document but to the one it is
about to write to. -/
theorem links_update (hbase : Base config sys) {r : Request} (hr : sys.requests[i]? = some r)
    (hi : sys.tasks[i]? = some (.call q k)) {f : Link} (hlinks : r.links f = true) {id : String}
    {update : UserUpdate} {answer : Except DbError Unit}
    (hmem : ⟨.updateUser id update, answer⟩ ∈ sys.calls i) : ∃ update', q = .updateUser id update' := by
  have hpath := hbase.traced.path i r _ hr hi
  cases r with
  | linkPatreon req =>
      cases q with
      | updateUser id' update' =>
          obtain ⟨_, _, _, user, _, rest, -, -, -, -, rfl, hcs, hwrite⟩ :=
            linkPatreonAccount_update hpath
          rw [hcs] at hmem
          have hrest : ∀ c ∈ rest, ∃ update answer, c = ⟨.updateUser user.id update, answer⟩ := by
            intro c hc
            rcases hwrite with ⟨rfl, -⟩ | ⟨hwritten, -⟩
            · cases hc
            · obtain ⟨answer, rfl⟩ := hwritten c hc
              exact ⟨_, _, rfl⟩
          simp only [List.mem_cons, Sigma.mk.injEq, reduceCtorEq, false_and, false_or] at hmem
          obtain ⟨update, answer, hcall⟩ := hrest _ hmem
          cases hcall
          exact ⟨update', rfl⟩
      | _ => exact absurd (linkPatreonAccount_reads hpath rfl _ hmem) Bool.true_eq_false.mp
  | discordCallback userID account now =>
      exact absurd (callbackHandler_reads hpath _ hmem) Bool.true_eq_false.mp
  | _ => cases f <;> cases hlinks

/-- A request that links an account goes on, or ends well, when its write is answered. -/
theorem not_failsNow_of_answered (hbase : Base config sys) {r : Request}
    (hr : sys.requests[i]? = some r) {id : String} {update : UserUpdate}
    {k : Except DbError Unit → Task} (hi : sys.tasks[i]? = some (.call (.updateUser id update) k))
    {f : Link} (hlinks : r.links f = true) :
    failsNow sys .answered (.updateUser id update) k = false := by
  have hpath := hbase.traced.path i r _ hr hi
  have hserved : (sys.store.serve .answered (.updateUser id update)).2 = .ok () := rfl
  cases r with
  | linkPatreon req =>
      obtain ⟨_, _, _, _, _, _, -, -, -, -, -, -, ⟨-, -, hk⟩ | ⟨-, -, hk⟩⟩ :=
        linkPatreonAccount_update hpath
      all_goals simp only [failsNow, hserved, hk]
  | discordCallback userID account now =>
      obtain ⟨_, _, _, -, -, -, -, -, hk⟩ := callbackHandler_update hpath
      simp only [failsNow, hserved, hk]
  | _ => cases f <;> cases hlinks

/-- A request that has not written to the user's document does not count in what the user has
unlinked, unless it does not link the account. -/
theorem unlinkedBeside_eq {r : Request} (hr : sys.requests[i]? = some r)
    {f : Link} {userID : String} (hnot : r.links f = true → ∀ update answer,
      ⟨.updateUser userID update, answer⟩ ∉ sys.calls i) :
    f.unlinkedBeside sys i userID = f.unlinked sys userID := by
  refine Link.unlinkedBy_congr fun e he => ?_
  by_cases htask : e.task = i
  · simp only [Link.verdict, htask, hr]
    split
    · next r' id update answer hr' hcall =>
        cases hr'
        split
        · rfl
        · next hid =>
            rw [not_not] at hid
            subst hid
            by_cases hlinks : r.links f = true
            · exact absurd (System.mem_calls.mpr ⟨e, he, htask, hcall⟩) (hnot hlinks _ _)
            · simp [hlinks]
    · rfl
  · simp [Link.verdict, htask]

/-- When a request fails that has no part in what the user has unlinked, or links nothing, the
account is not there and is not written. -/
theorem spares_of_unlinked (hbase : Base config sys) (h : UnlinkedEmpty sys) {r : Request}
    (hr : sys.requests[i]? = some r) (hi : sys.tasks[i]? = some (.call q k)) {outcome : Outcome}
    (hkeeps : keepsUnlinked config sys (.run i outcome) = true) {f : Link} {user : UserDocument}
    (huser : user ∈ sys.store.users) (hunlinked : f.unlinked sys user.id = true)
    (hnot : r.links f = true → fillsNow outcome q f user.id = false) :
    f.stored user = false ∧ fillsNow outcome q f user.id = false := by
  refine ⟨h f user huser hunlinked, ?_⟩
  rw [← Bool.not_eq_true]
  intro hfills
  rcases writer_of_fills hbase hr hi hfills with ⟨req, rfl⟩ | hlinks
  · rw [not_unlinked_of_login hbase hr hi hkeeps hfills] at hunlinked
    cases hunlinked
  · rw [hnot hlinks] at hfills
    cases hfills

/-- When a request fails, an account that was unlinked beside it is not there. -/
theorem spares_of_fails (hbase : Base config sys) (h : UnlinkedEmpty sys) {r : Request}
    (hr : sys.requests[i]? = some r) (hi : sys.tasks[i]? = some (.call q k)) {outcome : Outcome}
    (hkeeps : keepsUnlinked config sys (.run i outcome) = true)
    (hfails : failsNow sys outcome q k = true) {f : Link} {user : UserDocument}
    (huser : user ∈ sys.store.users) (hunlinked : f.unlinkedBeside sys i user.id = true) :
    f.stored user = false ∧ fillsNow outcome q f user.id = false := by
  by_cases hlinks : r.links f = true
  swap
  · rw [unlinkedBeside_eq hr fun h => absurd h hlinks] at hunlinked
    exact spares_of_unlinked hbase h hr hi hkeeps huser hunlinked fun h => absurd h hlinks
  by_cases hq : ∃ update, q = .updateUser user.id update
  · obtain ⟨update, rfl⟩ := hq
    have houtcome : outcome ≠ .answered := by
      rintro rfl
      rw [not_failsNow_of_answered hbase hr hi hlinks] at hfails
      cases hfails
    have hf : (!r.links f || sys.store.users.all fun other => other.id != user.id ||
        !f.unlinkedBeside sys i user.id ||
          (!f.stored other && (outcome == .failed || !f.writtenBy update))) = true := by
      cases r with
      | linkPatreon _ | discordCallback _ _ _ =>
          simp only [keepsUnlinked, hr, hi, Bool.or_eq_true, beq_iff_eq, houtcome, false_or,
            List.all_cons, List.all_nil, Bool.and_true, Bool.and_eq_true] at hkeeps
          cases f with
          | discord => simpa using hkeeps.1
          | patreon => simpa using hkeeps.2
      | _ => cases f <;> cases hlinks
    simp only [hlinks, Bool.not_true, Bool.false_or, List.all_eq_true] at hf
    have hspares := hf user huser
    simp only [bne_self_eq_false, hunlinked, Bool.not_true, Bool.false_or, Bool.and_eq_true,
      Bool.not_eq_true', Bool.or_eq_true, beq_iff_eq] at hspares
    refine ⟨hspares.1, ?_⟩
    rw [← Bool.not_eq_true]
    intro hfills
    simp only [fillsNow, Bool.and_eq_true, bne_iff_ne] at hfills
    obtain ⟨hwritten, -⟩ := Link.writtenBy_of_fills hfills.1.2
    rw [hspares.2.resolve_left hfills.2] at hwritten
    cases hwritten
  · have hnone : ∀ update answer, ⟨.updateUser user.id update, answer⟩ ∉ sys.calls i :=
      fun update answer hmem => hq (links_update hbase hr hi hlinks hmem)
    rw [unlinkedBeside_eq hr fun _ => hnone] at hunlinked
    refine spares_of_unlinked hbase h hr hi hkeeps huser hunlinked fun _ => ?_
    cases q with
    | updateUser id update =>
        have hid : id ≠ user.id := fun heq => hq ⟨update, heq ▸ rfl⟩
        simp [fillsNow, hid]
    | _ => rfl

theorem UnlinkedEmpty.run (hbase : Base config sys) (h : UnlinkedEmpty sys)
    (hi : sys.tasks[i]? = some (.call q k)) {outcome : Outcome}
    (hkeeps : keepsUnlinked config sys (.run i outcome) = true) :
    UnlinkedEmpty ((service config).ran sys i outcome q k) := by
  obtain ⟨r, hr⟩ := hbase.traced.request_of_task hi
  intro f user huser hunlinked
  rcases Database.mem_users_serve hbase.keys huser with ⟨old, hold, hid, rfl⟩ | rfl
  · -- The user was there before.
    rw [← hid] at hunlinked
    by_contra hstored
    rw [Bool.not_eq_false] at hstored
    rw [Link.unlinked] at hunlinked
    have htrace : ((service config).ran sys i outcome q k).trace =
      sys.trace ++ [⟨i, sys.store, ⟨q, (sys.store.serve outcome q).2⟩⟩] := rfl
    have hrequests : ((service config).ran sys i outcome q k).requests = sys.requests := rfl
    rw [htrace, hrequests, Link.unlinkedBy_append] at hunlinked
    generalize hverdict : f.verdict sys.requests
      (stands ((service config).ran sys i outcome q k)) old.id
      ⟨i, sys.store, ⟨q, (sys.store.serve outcome q).2⟩⟩ = verdict at hunlinked
    match verdict with
    | some true =>
        rw [stored_of_verdict hverdict] at hstored
        cases hstored
    | some false => cases hunlinked
    | none =>
        dsimp only at hunlinked
        by_cases hfails : failsNow sys outcome q k = true
        · rw [unlinkedBy_ran_of_fails f hi hfails] at hunlinked
          obtain ⟨hnot, hempty⟩ := spares_of_fails hbase h hr hi hkeeps hfails hold hunlinked
          rcases stored_written hstored with hfills | ⟨hstored, -⟩
          · rw [hempty] at hfills
            cases hfills
          · rw [hnot] at hstored
            cases hstored
        · rw [Bool.not_eq_true] at hfails
          rw [unlinkedBy_ran_of_goesOn f hi hfails] at hunlinked
          -- The write of a request that goes on would have linked the account again.
          obtain ⟨hnot, hempty⟩ := spares_of_unlinked hbase h hr hi hkeeps hold hunlinked
            fun hlinks => by
              rw [← Bool.not_eq_true]
              intro hfills
              refine verdict_of_links hr hlinks ?_ hfills _ hverdict
              rw [stands_ran hi, if_pos rfl, hfails]
              rfl
          rcases stored_written hstored with hfills | ⟨hstored, -⟩
          · rw [hempty] at hfills
            cases hfills
          · rw [hnot] at hstored
            cases hstored
  · -- The user is new.
    have hcall := mayCall_of_task hbase.traced hr hi
    simp only [Request.mayCall, Bool.and_eq_true, Option.isNone_iff_eq_none] at hcall
    cases f with
    | discord => simp [Link.stored, hcall.1.2]
    | patreon => simp [Link.stored, hcall.1.1]

end

/-! ## Runs -/

theorem UnlinkedEmpty.step {config : Config} {sys sys' : AccountsSystem} {a : AccountsAction}
    (hbase : Base config sys) (h : UnlinkedEmpty sys) (hkeeps : keepsUnlinked config sys a = true)
    (hstep : (service config).step sys a = some sys') : UnlinkedEmpty sys' := by
  rcases Service.step_cases hstep with ⟨r, rfl, rfl⟩ | ⟨i, outcome, q, k, rfl, hi, rfl⟩ |
    ⟨e, rfl, rfl⟩
  · -- The calls so far are those of earlier requests.
    intro f user huser hunlinked
    refine h f user huser ?_
    rw [← hunlinked]
    refine (Link.unlinkedBy_congr fun e he => ?_).symm
    have hlt := hbase.traced.task_lt e he
    have hlt' := hlt
    rw [← hbase.traced.length_eq] at hlt'
    have hstands : stands { sys with
        requests := sys.requests ++ [r], tasks := sys.tasks ++ [(service config).handler r] }
          e.task = stands sys e.task := by
      simp only [stands, List.getElem?_append_left hlt']
    simp only [Link.verdict, hstands, List.getElem?_append_left hlt]
  · exact h.run hbase hi hkeeps
  · cases e with
    | entitle userID entitlements =>
        intro f user huser hunlinked
        rcases mem_updateFirst huser with huser | ⟨old, hold, -, rfl⟩
        · exact h f user huser hunlinked
        · have hempty := h f old hold hunlinked
          cases f <;> exact hempty
    | updateServer _ _ | deleteServers _ | others _ _ _ _ => exact h

/-- In every run that keeps to the condition, an account that a user has unlinked stays
away until the user links it again. -/
theorem unlinked_run (config : Config) (db : Database) (hkeys : (db.users.map (·.id)).Nodup)
    (as : List AccountsAction)
    (hkeeps : ∀ m ∈ moves (service config).step { store := db } as, keepsUnlinked config m.1 m.2 = true) :
    ∀ sys ∈ visits (service config).step { store := db } as, UnlinkedEmpty sys := by
  have hrun := forall_visits_of_forall_moves
    (fun sys => Base config sys ∧ UnlinkedEmpty sys) (fun sys a => keepsUnlinked config sys a = true)
    (fun h hkeeps hstep => ⟨h.1.step hstep, h.2.step h.1 hkeeps hstep⟩)
    ⟨.init config hkeys, fun _ _ _ hunlinked => by cases hunlinked⟩ as hkeeps
  exact fun sys hsys => (hrun sys hsys).2

/-! ## A login after an unlink -/

/-- A player with both accounts. -/
def patronDatabase : Database where
  users :=
    [{ id := "2", token := "t2", name := "2"
       patreonData := some { membershipID := "m2", discordID := some "d2", lastChecked := 0 }
       discordData := some { id := "d2", lastUpdated := 0 } }]

/-- The player unlinks the Discord account and logs in the next day. -/
def unlinkThenLogin (discord : DiscordAnswer) (calls : Nat) : List AccountsAction :=
  [.request (.unlinkDiscord "t2"), .run 0 .answered, .run 0 .answered,
    .request (.login (loginOf "2" .failed discord day))] ++
    List.replicate calls (.run 1 .answered)

/-- Discord does not answer, and the account stays away. -/
theorem unlinkThenLogin_empty :
    ∃ sys ∈ visits (service openConfig).step { store := patronDatabase }
        (unlinkThenLogin .failed 4),
      Link.unlinked .discord sys "2" = true ∧ (sys.store.users.map (·.id)) = ["2"] ∧
        UnlinkedEmpty sys := by
  have hend : (exec (service openConfig).step { store := patronDatabase }
      (unlinkThenLogin .failed 4)).map (fun sys =>
        (Link.unlinked .discord sys "2", sys.store.users.map (·.id))) = some (true, ["2"]) := by
    decide
  obtain ⟨sys, hsys, heq⟩ := Option.map_eq_some_iff.mp hend
  rw [Prod.mk.injEq] at heq
  have hkeeps : (moves (service openConfig).step { store := patronDatabase }
      (unlinkThenLogin .failed 4)).all (fun m => keepsUnlinked openConfig m.1 m.2) = true := by
    decide
  have hmem := mem_visits_of_exec hsys
  exact ⟨sys, hmem, heq.1, heq.2,
    unlinked_run openConfig patronDatabase (by decide) _ (List.all_eq_true.mp hkeeps) sys hmem⟩

/-- Discord answers for the account that Patreon knows, and it is back. -/
theorem unlinkThenLogin_restores :
    ∃ sys ∈ visits (service openConfig).step { store := patronDatabase }
        (unlinkThenLogin (.user (some "d2")) 5),
      sys.tasks.map (fun p => p.result?.map fun result => result.isOk) = [some true, some true] ∧
        ¬ UnlinkedEmpty sys := by
  have hend : (exec (service openConfig).step { store := patronDatabase }
      (unlinkThenLogin (.user (some "d2")) 5)).map (fun sys =>
        (sys.tasks.map (fun p => p.result?.map fun result => result.isOk),
          Link.unlinked .discord sys "2",
          sys.store.users.map fun user => (user.id, Link.stored .discord user)))
      = some ([some true, some true], true, [("2", true)]) := by
    decide
  obtain ⟨sys, hsys, heq⟩ := Option.map_eq_some_iff.mp hend
  simp only [Prod.mk.injEq] at heq
  obtain ⟨hresults, hunlinked, husers⟩ := heq
  obtain ⟨user, huser, hpair⟩ := List.mem_map.mp (husers ▸ List.mem_singleton_self _)
  rw [Prod.mk.injEq] at hpair
  refine ⟨sys, mem_visits_of_exec hsys, hresults, fun hempty => ?_⟩
  have hstored := hempty .discord user huser (hpair.1.symm ▸ hunlinked)
  rw [hpair.2] at hstored
  cases hstored

end Kyber.Api.Accounts
