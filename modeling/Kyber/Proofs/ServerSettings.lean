import Kyber.Proofs.Listing
import Kyber.Proofs.StaleServers
import Kyber.Lib.Writes

/-!
# The settings of a server

`UpdateServer` reads the document of a server, changes what the request mentions, and
writes all the settings back. What another request has written in between is lost,
also where this one does not mention it. When a field that a request does not mention
is, at its write, what it was at its read, every field has the value that was last
given for it, in the order of the writes.
-/

namespace Kyber.Api.Listing

open Kyber.Lib Prog

/-! ## Fields -/

inductive Setting
  | name
  | password
  | description
  /-- the map and the mode -/
  | level
  deriving DecidableEq, Repr

namespace Setting

abbrev Value : Setting → Type
  | .name => String
  | .password => Option String
  | .description => Option String
  | .level => String × String

instance : (f : Setting) → DecidableEq f.Value
  | .name => inferInstanceAs (DecidableEq String)
  | .password => inferInstanceAs (DecidableEq (Option String))
  | .description => inferInstanceAs (DecidableEq (Option String))
  | .level => inferInstanceAs (DecidableEq (String × String))

def all : List Setting := [.name, .password, .description, .level]

theorem mem_all (f : Setting) : f ∈ all := by
  cases f <;> decide

def get : (f : Setting) → ServerSettings → f.Value
  | .name, s => s.name
  | .password, s => s.password
  | .description, s => s.description
  | .level, s => (s.levelSetup.map, s.levelSetup.mode)

/-- The value that a request gives, if it mentions the field. An empty name is none, and
an empty password or description takes the old one away. -/
def given : (f : Setting) → UpdateServerRequest → Option f.Value
  | .name, req => if req.name.getD "" ≠ "" then some (req.name.getD "") else none
  | .password, req => req.password.map fun text => if text ≠ "" then some text else none
  | .description, req => req.description.map fun text => if text ≠ "" then some text else none
  | .level, req => req.levelSetup.map fun levelSetup => (levelSetup.map, levelSetup.mode)

theorem get_patch (f : Setting) (req : UpdateServerRequest) (s : ServerSettings) :
    f.get (req.patch s) = (f.given req).getD (f.get s) := by
  cases f with
  | name =>
      simp only [get, given, UpdateServerRequest.patch]
      split <;> rfl
  | password =>
      simp only [get, given, UpdateServerRequest.patch]
      cases req.password <;> rfl
  | description =>
      simp only [get, given, UpdateServerRequest.patch]
      cases req.description <;> rfl
  | level =>
      simp only [get, given, UpdateServerRequest.patch]
      cases req.levelSetup <;> rfl

end Setting

/-! ## What was given -/

/-- The value that a call of the trace has given for a field of the server. -/
def givenBy (f : Setting) (requests : List Request) (id : String)
    (e : Event Database fun q : Query => Except DbError q.Result) : Option f.Value :=
  match e.call with
  | ⟨.createServer server, .ok _⟩ => if server.id = id then some (f.get server.settings) else none
  | ⟨.updateServer id' (.settings _ _), .ok _⟩ =>
      match requests[e.task]? with
      | some (.update _ req _ _) => if id' = id then f.given req else none
      | _ => none
  | _ => none

/-- The value that was given last, in the order of the writes. -/
def lastGiven (f : Setting) (sys : ListingSystem) (id : String) : Option f.Value :=
  sys.trace.reverse.findSome? (givenBy f sys.requests id)

/-- The fields of the server are what was given last, or what they were at the start. -/
def SettingsHold (db : Database) (sys : ListingSystem) (id : String) : Prop :=
  ∀ server ∈ sys.store.servers, server.id = id → ∀ f : Setting,
    some (f.get server.settings) = (lastGiven f sys id).or
      ((db.servers.find? (·.id == id)).map fun server => f.get server.settings)

/-- The request lists the server or updates it. -/
def Request.concerns (id : String) : Request → Prop
  | .register _ _ gen _ => gen.id = id
  | .update _ req _ _ => req.id = id
  | _ => False

/-- None of the requests about the server has been refused or has failed. -/
def Unrejected (sys : ListingSystem) (id : String) : Prop :=
  ∀ (i : Nat) r rejection, sys.requests[i]? = some r → r.concerns id →
    sys.tasks[i]? ≠ some (.ret (.error rejection))

/-! ## What a request writes -/

/-- The server that a request has read. -/
def readServer (cs : List ((q : Query) × Except DbError q.Result)) : Option ServerDocument :=
  cs.findSome? fun
    | ⟨.serverByID _, .ok server⟩ => server
    | _ => none

/-- A step must not write back a field that its request does not mention, unless it is
what is stored. -/
def writesBack (sys : ListingSystem) : ListingAction → Bool
  | .run i outcome =>
      match sys.requests[i]?, sys.tasks[i]? with
      | some (.update _ req _ _), some (.call (.updateServer id (.settings _ _)) _) =>
          outcome = .failed || (readServer (sys.calls i)).all fun read =>
            (sys.store.servers.find? (·.id == id)).all fun stored =>
              Setting.all.all fun f =>
                (f.given req).isSome || f.get stored.settings = f.get read.settings
      | _, _ => true
  | _ => true

section Paths

variable {isProfane : String → Bool} {user : UserDocument}
  {cs : List ((q : Query) × Except DbError q.Result)}

/-- A program that has got past the search for a picture goes on with a result. -/
theorem getServerMapImage_path {levelSetup : LevelSetup} {mods : List ModImageModModel}
    {unpublished : List String} {k : Except Rejection (Option String) → Task} {q : Query}
    {k' : Except DbError q.Result → Task} (hsearch : ∀ level mode mods, q ≠ .searchMapImage level mode mods)
    (hused : ∀ id, q ≠ .updateImage id .used)
    (h : Path (getServerMapImage levelSetup mods unpublished k) cs (.call q k')) :
    ∃ result cs', Path (k result) cs' (.call q k') := by
  rcases path_call h with ⟨-, hq⟩ | ⟨found, cs', -, hpath⟩
  · cases hq
    exact absurd rfl (hsearch _ _ _)
  match found, hpath with
  | .error _, hpath => exact ⟨_, cs', hpath⟩
  | .ok none, hpath => exact ⟨_, cs', hpath⟩
  | .ok (some image), hpath =>
      rcases path_call hpath with ⟨-, hq⟩ | ⟨updated, cs', -, hpath⟩
      · cases hq
        exact absurd rfl (hused _)
      cases updated with
      | error _ => exact ⟨_, cs', hpath⟩
      | ok _ =>
          simp only at hpath
          split at hpath
          · exact ⟨_, cs', hpath⟩
          · split at hpath <;> exact ⟨_, cs', hpath⟩
          · exact ⟨_, cs', hpath⟩

theorem writeSettings_path {id id' : String} {s : ServerSettings} {now : Instant}
    {update : ServerUpdate} {k : Except DbError Unit → Task}
    (h : Path (writeSettings isProfane id s now) cs (.call (.updateServer id' update) k)) :
    id' = id ∧ update = .settings s (dateOf now) ∧
      ∀ e, ∃ rejection, k (.error e) = .ret (.error rejection) := by
  unfold writeSettings at h
  split at h
  · rcases path_attempt h with ⟨-, hq⟩ | ⟨e, -, hq⟩ | ⟨a, cs', -, hpath⟩
    · cases hq
      exact ⟨rfl, rfl, fun e => ⟨_, rfl⟩⟩
    · cases hq
    · cases (path_ret hpath).2
  · cases (path_ret h).2

theorem manageServer_path {id : String} {k : ServerDocument → Task} {q : Query}
    {k' : Except DbError q.Result → Task} (hserver : ∀ id, q ≠ .serverByID id)
    (huser : ∀ id, q ≠ .userByID id) (h : Path (manageServer user id k) cs (.call q k')) :
    ∃ server cs' cs'', cs = ⟨.serverByID id, .ok (some server)⟩ :: cs' ∧
      Path (k server) cs'' (.call q k') := by
  obtain ⟨server, cs', rfl, h₁⟩ := path_attempt_call (Ne.symm (hserver _)) h
  cases server with
  | none => cases (path_ret h₁).2
  | some server =>
      obtain ⟨host, cs'', rfl, h₂⟩ := path_attempt_call (Ne.symm (huser _)) h₁
      cases host with
      | none => cases (path_ret h₂).2
      | some host =>
          simp only at h₂
          split at h₂
          · cases (path_ret h₂).2
          · exact ⟨server, _, cs'', rfl, h₂⟩

/-- What `UpdateServer` writes is made from what it has read. -/
theorem updateServer_path {req : UpdateServerRequest} {unpublished : List String} {now : Instant}
    {id : String} {update : ServerUpdate} {k : Except DbError Unit → Task}
    (h : Path (updateServer isProfane user req unpublished now) cs
      (.call (.updateServer id update) k)) :
    ∃ server cs' s, cs = ⟨.serverByID req.id, .ok (some server)⟩ :: cs' ∧ id = server.id ∧
      update = .settings s (dateOf now) ∧
      (∀ f : Setting, f.get s = (f.given req).getD (f.get server.settings)) ∧
      ∀ e, ∃ rejection, k (.error e) = .ret (.error rejection) := by
  obtain ⟨server, cs', cs'', rfl, h₁⟩ := manageServer_path (by simp) (by simp) h
  have hwrite : ∀ {s : ServerSettings} {cs},
      Path (writeSettings isProfane server.id s now) cs (.call (.updateServer id update) k) →
      (∀ f : Setting, f.get s = f.get (req.patch server.settings)) →
      ∃ server' cs'' s, ⟨.serverByID req.id, .ok (some server)⟩ :: cs'
          = ⟨.serverByID req.id, .ok (some server')⟩ :: cs'' ∧ id = server'.id ∧
        update = .settings s (dateOf now) ∧
        (∀ f : Setting, f.get s = (f.given req).getD (f.get server'.settings)) ∧
        ∀ e, ∃ rejection, k (.error e) = .ret (.error rejection) := by
    intro s cs hpath hs
    obtain ⟨hid, hupdate, hk⟩ := writeSettings_path hpath
    exact ⟨server, cs', s, rfl, hid, hupdate, fun f => (hs f).trans (f.get_patch req _), hk⟩
  simp only at h₁
  split at h₁
  · cases (path_ret h₁).2
  split at h₁
  · exact hwrite h₁ fun f => rfl
  split at h₁
  · obtain ⟨result, cs'', h₂⟩ := getServerMapImage_path (by simp) (by simp) h₁
    cases result with
    | error _ => cases (path_ret h₂).2
    | ok imageHash =>
        refine hwrite h₂ fun f => ?_
        -- The picture is not among the fields.
        cases f <;> rfl
  · exact hwrite h₁ fun f => rfl

theorem signServer_path {req : RegisterServerRequest} {gen : Generated} {imageHash : Option String}
    {server : ServerDocument} {k : Except DbError Unit → Task}
    (h : Path (signServer isProfane user req gen imageHash) cs (.call (.createServer server) k)) :
    ∀ e, ∃ rejection, k (.error e) = .ret (.error rejection) := by
  unfold signServer at h
  split at h
  · cases (path_ret h).2
  obtain ⟨-, cs', rfl, h₁⟩ := path_attempt_call (by simp) h
  unfold publishServer at h₁
  simp only at h₁
  split at h₁
  · rcases path_attempt h₁ with ⟨-, hq⟩ | ⟨e, -, hq⟩ | ⟨a, cs', -, h⟩
    · cases hq
      exact fun e => ⟨_, rfl⟩
    · cases hq
    · rcases path_call h with ⟨-, hq⟩ | ⟨a, cs', -, h⟩
      · cases hq
      · cases (path_ret h).2
  · cases (path_ret h₁).2

/-- A registration that cannot store its server is refused. -/
theorem registerServer_path {req : RegisterServerRequest} {gen : Generated}
    {unpublished : List String} {server : ServerDocument} {k : Except DbError Unit → Task}
    (h : Path (registerServer isProfane user req gen unpublished) cs
      (.call (.createServer server) k)) :
    ∀ e, ∃ rejection, k (.error e) = .ret (.error rejection) := by
  obtain ⟨hosted, cs', rfl, h₁⟩ := path_attempt_call (by simp) h
  split at h₁
  · cases (path_ret h₁).2
  split at h₁
  · cases (path_ret h₁).2
  split at h₁
  · exact signServer_path h₁
  split at h₁
  · obtain ⟨result, cs'', h₂⟩ := getServerMapImage_path (by simp) (by simp) h₁
    cases result with
    | error _ => exact signServer_path h₂
    | ok _ => exact signServer_path h₂
  · exact signServer_path h₁

end Paths

/-! ## What a step does to the fields -/

variable {lib : Libraries} {db : Database} {sys sys' : ListingSystem} {a : ListingAction}

/-- A request that writes settings has read the server, and writes what it has read with
its own values. -/
theorem settings_writer (htraced : System.Traced (service lib) sys) {i : Nat} {id : String}
    {s : ServerSettings} {date : Time} {k : Except DbError Unit → Task}
    (hi : sys.tasks[i]? = some (.call (.updateServer id (.settings s date)) k)) :
    ∃ user req unpublished now server,
      sys.requests[i]? = some (.update user req unpublished now) ∧ req.id = id ∧
      readServer (sys.calls i) = some server ∧
      (∀ f : Setting, f.get s = (f.given req).getD (f.get server.settings)) ∧
      ∀ e, ∃ rejection, k (.error e) = .ret (.error rejection) := by
  obtain ⟨r, hr⟩ := htraced.request_of_task hi
  have hpath := htraced.path i r _ hr hi
  have hmay := r.handler_makes lib _ _ _ hpath
  cases r with
  | update user req unpublished now =>
      obtain ⟨server, cs', s', hcs, rfl, hupdate, hget, hk⟩ := updateServer_path hpath
      cases hupdate
      have hread : (⟨.serverByID req.id, .ok (some server)⟩ : (q : Query) × Except DbError q.Result)
          ∈ sys.calls i := hcs ▸ List.mem_cons_self
      obtain ⟨e, -, -, outcome, hserved⟩ := htraced.served_call hread
      refine ⟨user, req, unpublished, now, server, hr, ?_, ?_, hget, hk⟩
      · exact (Database.id_of_serverByID hserved.symm).symm
      · rw [hcs]
        rfl
  | _ => cases hmay

/-- A registration that lists a server. -/
theorem server_creator (htraced : System.Traced (service lib) sys) {i : Nat}
    {server : ServerDocument} {k : Except DbError Unit → Task}
    (hi : sys.tasks[i]? = some (.call (.createServer server) k)) :
    ∃ r, sys.requests[i]? = some r ∧ r.concerns server.id ∧
      ∀ e, ∃ rejection, k (.error e) = .ret (.error rejection) := by
  obtain ⟨r, hr⟩ := htraced.request_of_task hi
  have hpath := htraced.path i r _ hr hi
  have hmay := r.handler_makes lib _ _ _ hpath
  cases r with
  | register user req gen unpublished =>
      simp only [Request.mayCall, Bool.and_eq_true, beq_iff_eq] at hmay
      exact ⟨_, hr, hmay.1.1.symm, registerServer_path hpath⟩
  | _ => cases hmay

/-- A write that fails is the end of its request. -/
theorem rejected_of_error {i : Nat} {outcome : Outcome} {q : Query}
    {k : Except DbError q.Result → Task} {r : Request} {id : String} {e : DbError}
    (hr : sys.requests[i]? = some r) (hi : sys.tasks[i]? = some (.call q k))
    (hconcerns : r.concerns id) (hk : ∀ e, ∃ rejection, k (.error e) = .ret (.error rejection))
    (herror : (sys.store.serve outcome q).2 = .error e) :
    ¬ Unrejected ((service lib).ran sys i outcome q k) id := by
  intro hall
  obtain ⟨rejection, hret⟩ := hk e
  obtain ⟨hlt, -⟩ := List.getElem?_eq_some_iff.mp hi
  refine hall i r rejection hr hconcerns ?_
  show (sys.tasks.set i (k (sys.store.serve outcome q).2))[i]? = _
  rw [herror, hret, List.getElem?_set, if_pos rfl, if_pos hlt]

/-- A call that is answered with an error leaves the fields as they are, unless its request is
rejected for it. -/
theorem settings_update_of_error (htraced : System.Traced (service lib) sys) {i : Nat}
    {outcome : Outcome} {id : String} {update : ServerUpdate} {k : Except DbError Unit → Task}
    (hi : sys.tasks[i]? = some (.call (.updateServer id update) k)) {server : ServerDocument}
    (hunrejected : Unrejected ((service lib).ran sys i outcome (.updateServer id update) k) server.id)
    (hmem : server ∈ (sys.store.serve outcome (.updateServer id update)).1.servers) {e : DbError}
    (hanswer : (sys.store.serve outcome (.updateServer id update)).2 = .error e) (f : Setting) :
    ∃ old ∈ sys.store.servers, old.id = server.id ∧ f.get server.settings = f.get old.settings := by
  rcases Database.mem_servers_serve hmem with hold | ⟨-, hnew⟩
  · exact ⟨server, hold, rfl, rfl⟩
  · rcases hnew with ⟨_, _, old, hq, hold, hid, rfl⟩ | hq
    · cases hq
      cases update with
      | seen now | players count now => exact ⟨old, hold, rfl, by cases f <;> rfl⟩
      | settings s date =>
          obtain ⟨user, req, unpublished, now, read, hr, hreq, -, -, hk⟩ :=
            settings_writer htraced hi
          exact absurd hunrejected (rejected_of_error hr hi (hreq.trans hid.symm) hk hanswer)
    · cases hq

/-- What a call that updates a server makes of a field. -/
theorem settings_update (htraced : System.Traced (service lib) sys)
    (hkeys : (sys.store.servers.map (·.id)).Nodup) {i : Nat} {outcome : Outcome} {id : String}
    {update : ServerUpdate} {k : Except DbError Unit → Task}
    (hi : sys.tasks[i]? = some (.call (.updateServer id update) k))
    (hback : writesBack sys (.run i outcome) = true) {server : ServerDocument}
    (hunrejected : Unrejected ((service lib).ran sys i outcome (.updateServer id update) k) server.id)
    (hmem : server ∈ (sys.store.serve outcome (.updateServer id update)).1.servers) (f : Setting) :
    ∃ old ∈ sys.store.servers, old.id = server.id ∧ some (f.get server.settings) =
      (givenBy f sys.requests server.id
        { task := i, store := sys.store,
          call := ⟨_, (sys.store.serve outcome (.updateServer id update)).2⟩ }).or
        (some (f.get old.settings)) := by
  cases hanswer : (sys.store.serve outcome (.updateServer id update)).2 with
  | error e =>
      have hgiven : givenBy f sys.requests server.id
          { task := i, store := sys.store, call := ⟨.updateServer id update, .error e⟩ } = none := by
        cases update <;> rfl
      obtain ⟨old, hold, hid, hget⟩ :=
        settings_update_of_error htraced hi hunrejected hmem hanswer f
      exact ⟨old, hold, hid, by rw [hgiven, Option.none_or, hget]⟩
  | ok _ =>
      rw [Database.serve_updateServer_ok hkeys hanswer, List.mem_map] at hmem
      obtain ⟨old, hold, rfl⟩ := hmem
      by_cases hid : old.id = id
      · subst hid
        simp only [beq_self_eq_true, if_true, ServerUpdate.apply_id]
        refine ⟨old, hold, rfl, ?_⟩
        cases update with
        | seen now | players count now => cases f <;> rfl
        | settings s date =>
            obtain ⟨user, req, unpublished, now, read, hr, hreq, hread, hget, -⟩ :=
              settings_writer htraced hi
            have hstored := find?_key hkeys hold
            simp only [writesBack, hr, hi, hread, hstored, Option.all_some, Bool.or_eq_true,
              decide_eq_true_eq, List.all_eq_true] at hback
            have hanswered := Database.answered_of_serve_ok hanswer
            have hfield := (hback.resolve_left (by simp [hanswered])) f f.mem_all
            have hnew : f.get (ServerUpdate.apply (.settings s date) old).settings = f.get s := by
              cases f <;> rfl
            simp only [givenBy, hr, if_true]
            rw [hnew, hget f]
            -- A field that is not given was read as it is stored.
            cases hgiven : f.given req with
            | some value => rfl
            | none =>
                rw [hgiven] at hfield
                rw [hfield.resolve_left (by simp)]
                rfl
      · have hne : (old.id == id) = false := by simpa using hid
        simp only [hne, Bool.false_eq_true, if_false]
        refine ⟨old, hold, rfl, ?_⟩
        cases update with
        | seen now | players count now => rfl
        | settings s date =>
            simp only [givenBy]
            split
            · rw [if_neg (Ne.symm hid)]
              rfl
            · rfl

/-- What a step of a task makes of a field of a server. -/
theorem settings_ran (htraced : System.Traced (service lib) sys)
    (hkeys : (sys.store.servers.map (·.id)).Nodup) {i : Nat} {outcome : Outcome} {q : Query}
    {k : Except DbError q.Result → Task} (hi : sys.tasks[i]? = some (.call q k))
    (hback : writesBack sys (.run i outcome) = true) {server : ServerDocument}
    (hunrejected : Unrejected ((service lib).ran sys i outcome q k) server.id)
    (hmem : server ∈ (sys.store.serve outcome q).1.servers) (f : Setting) :
    let e : Event Database fun q : Query => Except DbError q.Result :=
      { task := i, store := sys.store, call := ⟨q, (sys.store.serve outcome q).2⟩ }
    givenBy f sys.requests server.id e = some (f.get server.settings) ∨
      ∃ old ∈ sys.store.servers, old.id = server.id ∧ some (f.get server.settings) =
        (givenBy f sys.requests server.id e).or (some (f.get old.settings)) := by
  intro e
  cases q with
  | updateServer id update => exact .inr (settings_update htraced hkeys hi hback hunrejected hmem f)
  | createServer new =>
      cases hanswer : (sys.store.serve outcome (.createServer new)).2 with
      | error err =>
          obtain ⟨r, hr, hconcerns, hk⟩ := server_creator htraced hi
          have hgiven : givenBy f sys.requests server.id e = none := by simp [e, givenBy, hanswer]
          rcases Database.mem_servers_serve hmem with hold | ⟨-, hnew⟩
          · exact .inr ⟨server, hold, rfl, by rw [hgiven, Option.none_or]⟩
          · rcases hnew with ⟨_, _, _, hq, -⟩ | hq
            · cases hq
            · cases hq
              exact absurd hunrejected (rejected_of_error hr hi hconcerns hk hanswer)
      | ok _ =>
          obtain ⟨hservers, hids⟩ := Database.serve_createServer_ok hanswer
          rw [hservers, List.mem_append, List.mem_singleton] at hmem
          rcases hmem with hold | rfl
          · refine .inr ⟨server, hold, rfl, ?_⟩
            have hgiven : givenBy f sys.requests server.id e = none := by
              simp [e, givenBy, hanswer, Ne.symm (hids server hold)]
            rw [hgiven, Option.none_or]
          · refine .inl ?_
            simp [e, givenBy, hanswer]
  | deleteServers ids =>
      have hold : server ∈ sys.store.servers := by
        rcases Database.mem_servers_serve hmem with hold | ⟨-, ⟨_, _, _, hq, -⟩ | hq⟩
        · exact hold
        all_goals cases hq
      exact .inr ⟨server, hold, rfl, rfl⟩
  | _ =>
      have hold : server ∈ sys.store.servers := by
        rcases Database.mem_servers_serve hmem with hold | ⟨-, ⟨_, _, _, hq, -⟩ | hq⟩
        · exact hold
        all_goals cases hq
      exact .inr ⟨server, hold, rfl, rfl⟩

/-! ## Runs -/

theorem Unrejected.of_step (htraced : System.Traced (service lib) sys) {id : String}
    (hstep : (service lib).step sys a = some sys') (h : Unrejected sys' id) :
    Unrejected sys id := by
  intro j r rejection hr hconcerns hret
  obtain ⟨hlt, -⟩ := List.getElem?_eq_some_iff.mp hret
  rcases Service.step_cases hstep with ⟨r', -, rfl⟩ | ⟨i, outcome, q, k, -, hi, rfl⟩ | ⟨e, -, rfl⟩
  · refine h j r rejection ?_ hconcerns ?_
    · show (sys.requests ++ [r'])[j]? = _
      rw [List.getElem?_append_left (htraced.length_eq ▸ hlt), hr]
    · show (sys.tasks ++ [r'.handler lib])[j]? = _
      rw [List.getElem?_append_left hlt, hret]
  · refine h j r rejection hr hconcerns ?_
    -- The task that makes the call has not returned.
    have hij : i ≠ j := by
      rintro rfl
      rw [hi] at hret
      cases hret
    show (sys.tasks.set i _)[j]? = _
    rw [List.getElem?_set, if_neg hij, hret]
  · exact h j r rejection hr hconcerns hret

/-- What is given does not depend on the requests to come. -/
theorem lastGiven_request (htraced : System.Traced (service lib) sys) (f : Setting) (id : String)
    (r : Request) (tasks : List Task) :
    lastGiven f { sys with requests := sys.requests ++ [r], tasks := tasks } id
      = lastGiven f sys id := by
  refine findSome?_congr fun e he => ?_
  have hlt := htraced.task_lt e (List.mem_reverse.mp he)
  unfold givenBy
  rw [List.getElem?_append_left hlt]

theorem lastGiven_ran (f : Setting) (id : String) (i : Nat) (outcome : Outcome) (q : Query)
    (k : Except DbError q.Result → Task) :
    lastGiven f ((service lib).ran sys i outcome q k) id =
      (givenBy f sys.requests id
        { task := i, store := sys.store, call := ⟨q, (sys.store.serve outcome q).2⟩ }).or
        (lastGiven f sys id) :=
  findSome?_reverse_append sys.trace _

/-- What a run keeps whose steps write back only what is stored. -/
structure Settling (lib : Libraries) (db : Database) (sys : ListingSystem) : Prop where
  traced : System.Traced (service lib) sys
  keys : (sys.store.servers.map (·.id)).Nodup
  hold : ∀ id, Unrejected sys id → SettingsHold db sys id

theorem Settling.step (h : Settling lib db sys) (hback : writesBack sys a = true)
    (hstep : (service lib).step sys a = some sys') : Settling lib db sys' where
  traced := h.traced.step hstep
  keys := servers_keys_step h.keys hstep
  hold := by
    intro id hunrejected server hserver hid f
    have hbefore := h.hold id (hunrejected.of_step h.traced hstep)
    rcases Service.step_cases hstep with ⟨r, rfl, rfl⟩ | ⟨i, outcome, q, k, rfl, hi, rfl⟩ |
      ⟨e, rfl, rfl⟩
    · rw [lastGiven_request h.traced]
      exact hbefore server hserver hid f
    · subst hid
      rw [lastGiven_ran, Option.or_assoc]
      rcases settings_ran h.traced h.keys hi hback hunrejected hserver f with
        hgiven | ⟨old, hold, hid, heq⟩
      · rw [hgiven]
        rfl
      · rw [heq, hbefore old hold hid f]
    · refine hbefore server ?_ hid f
      cases e <;> exact hserver

/-- In a run whose steps write back only what is stored, the fields of a server are what
was given last, as long as no request about it has been refused or has failed. -/
theorem settings_run (lib : Libraries) {db : Database} (hkeys : (db.servers.map (·.id)).Nodup)
    (as : List ListingAction)
    (hback : ∀ m ∈ moves (service lib).step { store := db } as, writesBack m.1 m.2 = true) :
    ∀ sys ∈ visits (service lib).step { store := db } as, ∀ id, Unrejected sys id →
      SettingsHold db sys id := by
  have hinit : Settling lib db { store := db } := by
    refine ⟨.init _ _, hkeys, ?_⟩
    intro id _ server hserver hid f
    subst hid
    rw [find?_key hkeys hserver]
    rfl
  intro sys hsys
  exact (forall_visits_of_forall_moves (Settling lib db) (fun sys a => writesBack sys a = true)
    (fun h hback hstep => h.step hback hstep) hinit as hback sys hsys).hold

/-! ## A new name and a new level -/

def nameUpdate : Request :=
  .update { id := "h", token := "t", name := "Host" } { id := "s", name := some "Renamed" } []
    minute

/-- What the game server sends when it loads a level. -/
def levelUpdate : Request :=
  .update { id := "h", token := "t", name := "Host" }
    { id := "s", levelSetup := some { map := "m2", mode := "n2", mapName := none, modeName := none } }
    [] minute

/-- When all requests have succeeded, none has been rejected. -/
theorem unrejected_of_results (answers : List Answer)
    (h : sys.tasks.map result? = answers.map fun answer => some (.ok answer)) (id : String) :
    Unrejected sys id := by
  intro i r rejection _ _ hret
  have hmem := List.mem_map_of_mem (f := result?) (List.mem_of_getElem? hret)
  rw [h] at hmem
  obtain ⟨answer, -, heq⟩ := List.mem_map.mp hmem
  cases heq

/-- One after the other. -/
def serialUpdates : List ListingAction :=
  [.request nameUpdate, .run 0 .answered, .run 0 .answered, .run 0 .answered,
    .request levelUpdate, .run 1 .answered, .run 1 .answered, .run 1 .answered]

theorem serialUpdates_hold :
    ∃ sys ∈ visits (service plainLibraries).step { store := listedDatabase } serialUpdates,
      (sys.store.servers.map fun server => (server.name, server.levelSetup.map))
        = [("Renamed", "m2")] ∧ SettingsHold listedDatabase sys "s" := by
  have hend : (exec (service plainLibraries).step { store := listedDatabase } serialUpdates).map
      (fun sys => (sys.tasks.map result?,
        sys.store.servers.map fun server => (server.name, server.levelSetup.map)))
      = some ([some (.ok .empty), some (.ok .empty)], [("Renamed", "m2")]) := by decide
  obtain ⟨sys, hsys, heq⟩ := Option.map_eq_some_iff.mp hend
  rw [Prod.mk.injEq] at heq
  have hback : (moves (service plainLibraries).step { store := listedDatabase }
      serialUpdates).all (fun m => writesBack m.1 m.2) = true := by decide
  have hmem := mem_visits_of_exec hsys
  exact ⟨sys, hmem, heq.2, settings_run plainLibraries (by decide) serialUpdates
    (List.all_eq_true.mp hback) sys hmem "s"
    (unrejected_of_results [.empty, .empty] heq.1 "s")⟩

/-- The level is read before the new name is written, and written after it. -/
def racingUpdates : List ListingAction :=
  [.request levelUpdate, .run 0 .answered, .request nameUpdate, .run 1 .answered, .run 1 .answered,
    .run 1 .answered, .run 0 .answered, .run 0 .answered]

/-- Both requests succeed, and the new name is lost. -/
theorem racingUpdates_lose :
    ∃ sys ∈ visits (service plainLibraries).step { store := listedDatabase } racingUpdates,
      Unrejected sys "s" ∧ ¬ SettingsHold listedDatabase sys "s" := by
  have hend : (exec (service plainLibraries).step { store := listedDatabase } racingUpdates).map
      (fun sys => (sys.tasks.map result?,
        sys.store.servers.map fun server => (server.id, server.name)))
      = some ([some (.ok .empty), some (.ok .empty)], [("s", "Server")]) := by decide
  have hgiven : (exec (service plainLibraries).step { store := listedDatabase } racingUpdates).map
      (lastGiven .name · "s") = some (some "Renamed") := by decide
  obtain ⟨sys, hsys, heq⟩ := Option.map_eq_some_iff.mp hend
  obtain ⟨hresults, hservers⟩ := Prod.mk.inj heq
  rw [hsys, Option.map_some, Option.some.injEq] at hgiven
  refine ⟨sys, mem_visits_of_exec hsys,
    unrejected_of_results [.empty, .empty] hresults "s", fun hhold => ?_⟩
  obtain ⟨server, hserver, hname⟩ :=
    List.mem_map.mp (hservers ▸ List.mem_singleton_self ("s", "Server"))
  rw [Prod.mk.injEq] at hname
  have hfield := hhold server hserver hname.1 .name
  rw [hgiven, Option.some_or, Option.some.injEq] at hfield
  exact absurd (hname.2.symm.trans hfield) (by decide)

end Kyber.Api.Listing
