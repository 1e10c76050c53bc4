import Kyber.Proofs.ServerSettings

/-!
# The advertised level

A server is shown with the names of its map and mode, and with a picture of the map.
`RegisterServer` stores the names as texts, empty ones where none are given;
`UpdateServer` changes the map and the mode, leaves the names as they are stored, and
looks for a picture only if the request names the map, which the game server never
does. Here is exactly when a call leaves the server with the names of its request and
with a picture of that level that has been approved, or none.
-/

namespace Kyber.Api.Listing

open Kyber.Lib Prog

/-! ## One call after the other -/

inductive HistoryAction
  | request (r : Request)
  | change (c : Change)
  deriving DecidableEq, Repr

/-- A call from its start to its answer, or a change of the database. -/
def historyStep (lib : Libraries) (db : Database) : HistoryAction → Option Database
  | .request r => some ((r.handler lib).eval Database.perform db).1
  | .change c => some (change db c)

/-- The server and the level that a call is about, if it has a level setup. -/
def Request.carries : Request → Option (String × LevelSetup)
  | .register _ req gen _ => req.levelSetup.map fun level => (gen.id, level)
  | .update _ req _ _ => req.levelSetup.map fun level => (req.id, level)
  | _ => none

/-- The picture has been approved, and shows the level with one of the mods. -/
def Approved (db : Database) (level : LevelSetup) (mods : List ModImageModModel) (hash : String) :
    Prop :=
  ∃ image ∈ db.modImages, image.id = hash ∧ image.status = .approved ∧
    image.shows level.map level.mode mods = true

/-- The server has no picture, or an approved one of the level. -/
def Moderated (db : Database) (level : LevelSetup) (server : ServerDocument) : Prop :=
  ∀ hash, server.levelSetup.imageHash = some hash → Approved db level server.explodedMods hash

/-- The server is shown with the names of the request and a moderated picture. `db` is
the database at the call. -/
def Advertised (db : Database) (level : LevelSetup) (server : ServerDocument) : Prop :=
  server.levelSetup.mapName = level.mapName ∧ server.levelSetup.modeName = level.modeName ∧
    Moderated db level server

/-- A registration names the map and the mode. An update names what is stored; and if
it does not name the map, the stored picture is a moderated one of the new level. -/
def NamesLevel (db : Database) : Request → Prop
  | .register _ req _ _ =>
      ∀ level, req.levelSetup = some level → level.mapName.isSome ∧ level.modeName.isSome
  | .update _ req _ _ =>
      ∀ level server, req.levelSetup = some level →
        db.servers.find? (·.id == req.id) = some server →
        server.levelSetup.mapName = level.mapName ∧ server.levelSetup.modeName = level.modeName ∧
          (level.mapName.getD "" = "" → Moderated db level server)
  | _ => True

section Evaluation

variable {db : Database} {isProfane : String → Bool} {user : UserDocument}

/-- The search for a picture leaves the servers as they are, and finds approved ones. -/
theorem getServerMapImage_eval (db : Database) (levelSetup : LevelSetup)
    (mods : List ModImageModModel) (unpublished : List String) :
    ∃ result db', (∀ k, (getServerMapImage levelSetup mods unpublished k).eval Database.perform db
        = (k result).eval Database.perform db') ∧ db'.servers = db.servers ∧
      ∀ hash, result = .ok (some hash) → Approved db levelSetup mods hash := by
  simp only [getServerMapImage, eval_call]
  cases hfound : db.modImages.find? (·.shows levelSetup.map levelSetup.mode mods) with
  | none =>
      simp only [Database.perform, hfound]
      exact ⟨_, db, fun k => rfl, rfl, fun hash h => by cases h⟩
  | some image =>
      have hshows : image.shows levelSetup.map levelSetup.mode mods = true := by
        simpa using List.find?_some hfound
      simp only [Database.perform, hfound, eval_call]
      cases (Database.updateByID (·.id) image.id ImageUpdate.used.apply db.modImages).2 with
      | error e => exact ⟨_, _, fun k => rfl, rfl, fun hash h => by cases h⟩
      | ok _ =>
          cases hstatus : image.status with
          | rejected => exact ⟨_, _, fun k => rfl, rfl, fun hash h => by cases h⟩
          | pending =>
              simp only
              split
              · exact ⟨_, _, fun k => rfl, rfl, fun hash h => by cases h⟩
              · exact ⟨_, _, fun k => rfl, rfl, fun hash h => by cases h⟩
          | approved =>
              refine ⟨_, _, fun k => rfl, rfl, fun hash h => ?_⟩
              cases h
              exact ⟨image, List.mem_of_find?_eq_some hfound, rfl, hstatus, hshows⟩

/-- Settings that have been written are stored. -/
theorem writeSettings_eval {id : String} {s : ServerSettings} {now : Instant} {answer : Answer}
    (h : ((writeSettings isProfane id s now).eval Database.perform db).2 = .ok answer) :
    ((writeSettings isProfane id s now).eval Database.perform db).1.servers.find? (·.id == id)
      = (db.servers.find? (·.id == id)).map (ServerUpdate.settings s (dateOf now)).apply := by
  unfold writeSettings at h ⊢
  split at h
  · next hvalid =>
      rw [if_pos hvalid]
      simp only [ask, eval_attempt, Database.perform, Database.updateByID] at h ⊢
      by_cases hany : (db.servers.any fun server => server.id == id) = true
      · simp only [if_pos hany]
        exact find?_updateFirst (fun server hid => by simpa using hid) _
      · simp only [if_neg hany] at h
        cases h
  · cases h

theorem manageServer_eval {id : String} {k : ServerDocument → Task} {answer : Answer}
    (h : ((manageServer user id k).eval Database.perform db).2 = .ok answer) :
    ∃ server, db.servers.find? (·.id == id) = some server ∧
      (manageServer user id k).eval Database.perform db = (k server).eval Database.perform db := by
  unfold manageServer at h ⊢
  simp only [ask, eval_attempt, Database.perform] at h ⊢
  cases hserver : db.servers.find? (·.id == id) with
  | none =>
      rw [hserver] at h
      cases h
  | some server =>
      simp only [hserver, eval_attempt, Database.perform] at h
      refine ⟨server, rfl, ?_⟩
      simp only [eval_attempt, Database.perform]
      cases hhost : db.users.find? (·.id == server.hostID) with
      | none =>
          simp only [hhost] at h
          cases h
      | some host =>
          simp only [hhost] at h ⊢
          split at h
          · cases h
          · next hallowed => rw [if_neg hallowed]

/-- What an update with a level leaves. -/
theorem updateServer_eval {req : UpdateServerRequest} {unpublished : List String} {now : Instant}
    {answer : Answer} {level : LevelSetup} (hlevel : req.levelSetup = some level)
    (h : ((updateServer isProfane user req unpublished now).eval Database.perform db).2
      = .ok answer) :
    ∃ server s, db.servers.find? (·.id == req.id) = some server ∧
      ((updateServer isProfane user req unpublished now).eval Database.perform db).1.servers.find?
        (·.id == req.id) = some ((ServerUpdate.settings s (dateOf now)).apply server) ∧
      s.levelSetup.mapName = server.levelSetup.mapName ∧
      s.levelSetup.modeName = server.levelSetup.modeName ∧
      if level.mapName.getD "" ≠ "" then
        ∀ hash, s.levelSetup.imageHash = some hash → Approved db level server.explodedMods hash
      else s.levelSetup.imageHash = server.levelSetup.imageHash := by
  obtain ⟨server, hserver, heval⟩ := manageServer_eval h
  have hid : server.id = req.id := by simpa using List.find?_some hserver
  have hpatched : (req.patch server.settings).levelSetup
      = { server.levelSetup with map := level.map, mode := level.mode } := by
    simp only [UpdateServerRequest.patch, hlevel]
    rfl
  rw [updateServer, heval] at h ⊢
  simp only [hlevel] at h ⊢
  by_cases hprofane : req.name.getD "" ≠ "" ∧ isProfane (req.name.getD "") = true
  · rw [if_pos hprofane] at h
    cases h
  rw [if_neg hprofane] at h ⊢
  by_cases hmap : level.mapName.getD "" ≠ ""
  · rw [if_pos hmap] at h ⊢
    obtain ⟨result, db', heq, hservers, hfound⟩ :=
      getServerMapImage_eval db level server.explodedMods unpublished
    rw [heq] at h ⊢
    cases result with
    | error _ => cases h
    | ok imageHash =>
        refine ⟨server, { req.patch server.settings with
          levelSetup := { (req.patch server.settings).levelSetup with imageHash } },
          hserver, ?_, ?_, ?_, ?_⟩
        · rw [← hid, writeSettings_eval h, hservers, hid, hserver]
          rfl
        · rw [hpatched]
        · rw [hpatched]
        · rw [if_pos hmap]
          exact fun hash heq => hfound hash (congrArg Except.ok heq)
  · rw [if_neg hmap] at h ⊢
    refine ⟨server, req.patch server.settings, hserver, ?_, ?_, ?_, ?_⟩
    · rw [← hid, writeSettings_eval h, hid, hserver]
      rfl
    · rw [hpatched]
    · rw [hpatched]
    · rw [if_neg hmap, hpatched]

/-- What a registration leaves. -/
theorem signServer_eval {req : RegisterServerRequest} {gen : Generated} {imageHash : Option String}
    {answer : Answer}
    (h : ((signServer isProfane user req gen imageHash).eval Database.perform db).2 = .ok answer) :
    ∃ server, ((signServer isProfane user req gen imageHash).eval Database.perform db).1.servers.find?
        (·.id == gen.id) = some server ∧ server.levelSetup = req.level imageHash ∧
      server.explodedMods = req.explodedMods := by
  unfold signServer at h ⊢
  split at h
  · cases h
  next proxyToken hsigned =>
  simp only [ask, eval_attempt, Database.perform] at h ⊢
  cases htoken : (Database.insert (·.id)
      ({ id := proxyToken.text, token := "", user := user.id, server := gen.id,
         created := gen.now } : JoinTokenModel) db.joinTokens).2 with
  | error e =>
      simp only [htoken] at h
      cases h
  | ok _ =>
      simp only [htoken, publishServer] at h ⊢
      split at h
      · next hvalid =>
          rw [if_pos hvalid]
          simp only [ask, eval_attempt, Database.perform, Database.insert] at h ⊢
          by_cases hany : (db.servers.any fun server => server.id == gen.id) = true
          · simp only [if_pos hany] at h
            cases h
          · have hnone : db.servers.find? (·.id == gen.id) = none := by
              rw [List.find?_eq_none]
              intro server hserver hid
              exact hany (List.any_eq_true.mpr ⟨server, hserver, hid⟩)
            simp only [if_neg hany, eval_call, eval_ret, Database.perform, List.find?_append, hnone,
              Option.none_or, List.find?_cons_of_pos, beq_self_eq_true]
            exact ⟨_, rfl, rfl, rfl⟩
      · cases h

theorem registerServer_eval {req : RegisterServerRequest} {gen : Generated}
    {unpublished : List String} {answer : Answer} {level : LevelSetup}
    (hlevel : req.levelSetup = some level)
    (h : ((registerServer isProfane user req gen unpublished).eval Database.perform db).2
      = .ok answer) :
    ∃ server imageHash,
      ((registerServer isProfane user req gen unpublished).eval Database.perform db).1.servers.find?
        (·.id == gen.id) = some server ∧ server.levelSetup = req.level imageHash ∧
      server.explodedMods = req.explodedMods ∧
      ∀ hash, imageHash = some hash → Approved db level req.explodedMods hash := by
  unfold registerServer at h ⊢
  simp only [ask, eval_attempt, Database.perform, hlevel] at h ⊢
  split at h
  · cases h
  next hlimit =>
  rw [if_neg hlimit]
  split at h
  · cases h
  next hmeta =>
  rw [if_neg hmeta]
  have hsigned : ∀ {db' : Database} {imageHash : Option String},
      (∀ hash, imageHash = some hash → Approved db level req.explodedMods hash) →
      ((signServer isProfane user req gen imageHash).eval Database.perform db').2 = .ok answer →
      ∃ server imageHash', ((signServer isProfane user req gen imageHash).eval Database.perform
          db').1.servers.find? (·.id == gen.id) = some server ∧
        server.levelSetup = req.level imageHash' ∧ server.explodedMods = req.explodedMods ∧
        ∀ hash, imageHash' = some hash → Approved db level req.explodedMods hash := by
    intro db' imageHash hfound h
    obtain ⟨server, hserver, hlevel, hmods⟩ := signServer_eval h
    exact ⟨server, imageHash, hserver, hlevel, hmods, hfound⟩
  split at h
  · next hmap =>
      rw [if_pos hmap]
      obtain ⟨result, db', heq, -, hfound⟩ :=
        getServerMapImage_eval db level req.explodedMods unpublished
      rw [heq] at h ⊢
      cases result with
      | error _ => exact hsigned (fun hash h => by cases h) h
      | ok imageHash => exact hsigned (fun hash h => hfound hash (by rw [h])) h
  · next hmap =>
      rw [if_neg hmap]
      exact hsigned (fun hash h => by cases h) h

end Evaluation

/-! ## Histories -/

theorem register_advertised_iff {lib : Libraries} {db : Database} {user : UserDocument}
    {req : RegisterServerRequest} {gen : Generated} {unpublished : List String} {level : LevelSetup}
    {answer : Answer} (hlevel : req.levelSetup = some level)
    (h : ((registerServer lib.isProfane user req gen unpublished).eval Database.perform db).2
      = .ok answer) :
    (∃ server, ((registerServer lib.isProfane user req gen unpublished).eval Database.perform
        db).1.servers.find? (·.id == gen.id) = some server ∧ Advertised db level server) ↔
      level.mapName.isSome ∧ level.modeName.isSome := by
  obtain ⟨server, imageHash, hserver, hsetup, hmods, hfound⟩ := registerServer_eval hlevel h
  have hname : ∀ name : Option String, some (name.getD "") = name ↔ name.isSome := by
    intro name
    cases name <;> simp
  have hmap : server.levelSetup.mapName = some (level.mapName.getD "") := by
    rw [hsetup, RegisterServerRequest.level, hlevel]
    rfl
  have hmode : server.levelSetup.modeName = some (level.modeName.getD "") := by
    rw [hsetup, RegisterServerRequest.level, hlevel]
    rfl
  have hmoderated : Moderated db level server := by
    intro hash hhash
    rw [hmods]
    exact hfound hash (by rw [← hhash, hsetup, RegisterServerRequest.level])
  simp only [hserver, Option.some.injEq, exists_eq_left', Advertised, hmap, hmode, hname,
    hmoderated, and_true]

theorem update_advertised_iff {lib : Libraries} {db : Database} {user : UserDocument}
    {req : UpdateServerRequest} {unpublished : List String} {now : Instant} {level : LevelSetup}
    {answer : Answer} (hlevel : req.levelSetup = some level)
    (h : ((updateServer lib.isProfane user req unpublished now).eval Database.perform db).2
      = .ok answer) :
    (∃ server, ((updateServer lib.isProfane user req unpublished now).eval Database.perform
        db).1.servers.find? (·.id == req.id) = some server ∧ Advertised db level server) ↔
      NamesLevel db (.update user req unpublished now) := by
  obtain ⟨server, s, hserver, hafter, hmap, hmode, himage⟩ := updateServer_eval hlevel h
  simp only [hafter, Option.some.injEq, exists_eq_left', NamesLevel, hlevel, hserver, Advertised]
  have hsetup : ((ServerUpdate.settings s (dateOf now)).apply server).levelSetup = s.levelSetup := rfl
  rw [hsetup, hmap, hmode]
  constructor
  · rintro ⟨hmapName, hmodeName, hmoderated⟩ level' server' hl hs
    subst hl hs
    refine ⟨hmapName, hmodeName, fun hempty hash hhash => ?_⟩
    rw [if_neg (by simpa using hempty)] at himage
    exact hmoderated hash (himage.trans hhash)
  · intro hnames
    obtain ⟨hmapName, hmodeName, hmoderated⟩ := hnames level server rfl rfl
    refine ⟨hmapName, hmodeName, fun hash hhash => ?_⟩
    split at himage
    · exact himage hash hhash
    · next hempty => exact hmoderated (by simpa using hempty) hash (himage.symm.trans hhash)

/-- In every history, a call with a level setup that succeeds leaves the server with the
names of the request and a moderated picture, or none, exactly in these cases. -/
theorem level_history (lib : Libraries) (db : Database) (as : List HistoryAction) :
    ∀ m ∈ moves (historyStep lib) db as, ∀ r id level answer, m.2 = .request r →
      r.carries = some (id, level) → ((r.handler lib).eval Database.perform m.1).2 = .ok answer →
      ((∃ server, ((r.handler lib).eval Database.perform m.1).1.servers.find? (·.id == id)
          = some server ∧ Advertised m.1 level server) ↔ NamesLevel m.1 r) := by
  intro m _ r id level answer _ hcarries hanswer
  cases r with
  | register user req gen unpublished =>
      obtain ⟨level', hlevel, heq⟩ := Option.map_eq_some_iff.mp hcarries
      cases heq
      refine (register_advertised_iff hlevel hanswer).trans ?_
      simp only [NamesLevel, hlevel, Option.some.injEq, forall_eq']
  | update user req unpublished now =>
      obtain ⟨level', hlevel, heq⟩ := Option.map_eq_some_iff.mp hcarries
      cases heq
      exact update_advertised_iff hlevel hanswer
  | _ => cases hcarries

/-! ## A level with names, and one without -/

/-- A registration that names its map and mode. -/
def namedRegistration : Request :=
  .register { id := "h", token := "t", name := "Host" }
    { name := "Second", maxPlayerCount := 40, explodedMods := [{ name := "mod", version := "1" }],
      levelSetup := some { map := "m", mode := "n", mapName := some "Map", modeName := some "Mode" } }
    { id := "b", signed := some ⟨"jwt-b", by decide⟩, now := 0 } []

/-- An approved picture of the level is there. -/
def picturedDatabase : Database :=
  { listedDatabase with
    modImages := [{ id := "p", levels := ["m"], modes := ["n"],
                    mods := [{ name := "mod", version := "1" }], status := .approved,
                    useCount := 1 }] }

theorem namedRegistration_advertised :
    ∃ server, ((namedRegistration.handler plainLibraries).eval Database.perform
        picturedDatabase).1.servers.find? (·.id == "b") = some server ∧
      Advertised picturedDatabase
        { map := "m", mode := "n", mapName := some "Map", modeName := some "Mode" } server := by
  have hmove : moves (historyStep plainLibraries) picturedDatabase [.request namedRegistration]
      = [(picturedDatabase, .request namedRegistration)] := rfl
  have hok : ((namedRegistration.handler plainLibraries).eval Database.perform picturedDatabase).2
      = .ok (.server "b" "jwt-b") := by decide
  refine (level_history plainLibraries picturedDatabase [.request namedRegistration]
    (picturedDatabase, .request namedRegistration) (hmove ▸ List.mem_singleton_self _)
    namedRegistration "b" _ _ rfl rfl hok).mpr ?_
  rintro level hlevel
  cases hlevel
  exact ⟨rfl, rfl⟩

/-- After the update of the game server, the server is still shown with the names of the
level before. -/
theorem levelUpdate_not_advertised :
    ∃ answer, ((levelUpdate.handler plainLibraries).eval Database.perform listedDatabase).2
        = .ok answer ∧
      levelUpdate.carries
        = some ("s", { map := "m2", mode := "n2", mapName := none, modeName := none }) ∧
      ¬ ∃ server, ((levelUpdate.handler plainLibraries).eval Database.perform
          listedDatabase).1.servers.find? (·.id == "s") = some server ∧
        Advertised listedDatabase
          { map := "m2", mode := "n2", mapName := none, modeName := none } server := by
  have hafter : (((levelUpdate.handler plainLibraries).eval Database.perform
      listedDatabase).1.servers.find? (·.id == "s")).map (·.levelSetup.mapName)
      = some (some "Map") := by decide
  refine ⟨.empty, by decide, rfl, ?_⟩
  rintro ⟨server, hserver, hmapName, -⟩
  rw [hserver, Option.map_some, Option.some.injEq, hmapName] at hafter
  cases hafter

end Kyber.Api.Listing
