import Kyber.Api.Listing
import Kyber.Proofs.Database

/-!
# The calls behind the listing

Which calls the program of a request makes. Every write to a server, to a mod image
or to the list is then the write of one kind of request.
-/

namespace Kyber.Api.Listing

open Kyber.Lib Prog

/-- The API's calls about listed servers, as a system of interleaved calls. -/
abbrev ListingSystem :=
  System Database (fun q : Query => Except DbError q.Result) (Except Rejection Answer) Request

abbrev ListingAction := System.Action Request Outcome Change

def Request.mayCall : Request → Query → Bool
  | .register user _ gen _, q =>
      match q with
      | .serversByHostID _ | .searchMapImage _ _ _ | .updateImage _ .used | .createJoinToken _
      | .updateUser _ .metrics => true
      | .createServer server =>
          server.id == gen.id && server.hostID == user.id && server.hostToken == user.token
      | _ => false
  | .update _ _ _ _, q =>
      match q with
      | .serverByID _ | .userByID _ | .searchMapImage _ _ _ | .updateImage _ .used
      | .updateServer _ (.settings _ _) => true
      | _ => false
  | .serverEvent _ _ _, q | .serverGone _ _, q =>
      match q with
      | .updateServer _ (.seen _) | .updateServer _ (.players _ _) | .joinTokensByServerID _ =>
          true
      | _ => false
  | .cleanup _, q =>
      match q with
      | .serversBefore _ | .deleteServers _ => true
      | _ => false
  | .check _, q =>
      match q with
      | .imagesByIDs _ | .updateImage _ (.checked _ _) => true
      | _ => false
  | .upload _ _ _, q =>
      match q with
      | .imageByID _ | .updateImage _ (.uploaded _ _ _) | .createImage _ => true
      | _ => false

section

variable {P : Query → Prop} {isProfane : String → Bool} {user : UserDocument}

theorem getServerMapImage_makes (hsearch : ∀ level mode mods, P (.searchMapImage level mode mods))
    (hused : ∀ id, P (.updateImage id .used)) {levelSetup : LevelSetup}
    {mods : List ModImageModModel} {unpublished : List String}
    {k : Except Rejection (Option String) → Task} (hk : ∀ result, Makes P (k result)) :
    Makes P (getServerMapImage levelSetup mods unpublished k) := by
  refine .call (hsearch _ _ _) fun found => ?_
  match found with
  | .error _ => exact hk _
  | .ok none => exact hk _
  | .ok (some image) =>
      refine .call (hused _) fun updated => ?_
      cases updated with
      | error _ => exact hk _
      | ok _ =>
          simp only
          split
          · exact hk _
          · split <;> exact hk _
          · exact hk _

theorem writeSettings_makes (hwrite : ∀ id s now, P (.updateServer id (.settings s now)))
    (id : String) (s : ServerSettings) (now : Instant) :
    Makes P (writeSettings isProfane id s now) := by
  unfold writeSettings
  split
  · exact makes_attempt (hwrite _ _ _) fun _ => .ret _
  · exact .ret _

theorem updateServer_makes (req : UpdateServerRequest) (unpublished : List String) (now : Instant) :
    Makes (fun q => (Request.update user req unpublished now).mayCall q = true)
      (updateServer isProfane user req unpublished now) := by
  refine makes_attempt rfl fun server => ?_
  cases server with
  | none => exact .ret _
  | some server =>
      refine makes_attempt rfl fun host => ?_
      cases host with
      | none => exact .ret _
      | some host =>
          simp only
          split
          · exact .ret _
          split
          · exact .ret _
          split
          · exact writeSettings_makes (fun _ _ _ => rfl) _ _ _
          split
          · refine getServerMapImage_makes (fun _ _ _ => rfl) (fun _ => rfl) fun result => ?_
            cases result with
            | error _ => exact .ret _
            | ok _ => exact writeSettings_makes (fun _ _ _ => rfl) _ _ _
          · exact writeSettings_makes (fun _ _ _ => rfl) _ _ _

theorem signServer_makes (req : RegisterServerRequest) (gen : Generated) (unpublished : List String)
    (imageHash : Option String) :
    Makes (fun q => (Request.register user req gen unpublished).mayCall q = true)
      (signServer isProfane user req gen imageHash) := by
  unfold signServer
  split
  · exact .ret _
  · refine makes_attempt rfl fun _ => ?_
    unfold publishServer
    simp only
    split
    · refine makes_attempt (by simp [Request.mayCall]) fun _ => ?_
      exact .call rfl fun _ => .ret _
    · exact .ret _

theorem registerServer_makes (req : RegisterServerRequest) (gen : Generated)
    (unpublished : List String) :
    Makes (fun q => (Request.register user req gen unpublished).mayCall q = true)
      (registerServer isProfane user req gen unpublished) := by
  refine makes_attempt rfl fun hosted => ?_
  split
  · exact .ret _
  split
  · exact .ret _
  split
  · exact signServer_makes _ _ _ _
  split
  · refine getServerMapImage_makes (fun _ _ _ => rfl) (fun _ => rfl) fun result => ?_
    cases result with
    | error _ => exact signServer_makes _ _ _ _
    | ok _ => exact signServer_makes _ _ _ _
  · exact signServer_makes _ _ _ _

theorem serverEvent_makes (id : String) (players : Option (UInt32 × Instant)) (now : Instant) :
    Makes (fun q => (Request.serverEvent id players now).mayCall q = true)
      (serverEvent id players now) := by
  refine .call rfl fun seen => ?_
  cases seen with
  | error _ => exact .ret _
  | ok _ =>
      cases players with
      | none => exact .ret _
      | some players =>
          refine .call rfl fun tokens => ?_
          cases tokens with
          | error _ => exact .ret _
          | ok _ => exact .call rfl fun _ => .ret _

theorem cleanupStaleServers_makes (now : Instant) :
    Makes (fun q => (Request.cleanup now).mayCall q = true) (cleanupStaleServers now) := by
  refine .call rfl fun servers => ?_
  cases servers with
  | error _ => exact .ret _
  | ok servers =>
      simp only
      split
      · exact .ret _
      · exact .call rfl fun _ => .ret _

theorem checkImages_makes (hwrite : ∀ id levels modes, P (.updateImage id (.checked levels modes)))
    (items : List CheckModImageItem) (images : List ModImageModel) (existing : List String) :
    Makes P (checkImages items existing images) := by
  induction images generalizing existing with
  | nil => exact .ret _
  | cons image images ih =>
      rw [checkImages]
      split
      · exact ih _
      split
      · exact ih _
      · exact makes_attempt (hwrite _ _ _) fun _ => ih _

theorem uploadImages_makes (imageHash : List UInt8 → String) (all images : List ModImage)
    (unpublished : List String) :
    Makes (fun q => (Request.upload user all unpublished).mayCall q = true)
      (uploadImages imageHash user unpublished images) := by
  induction images with
  | nil => exact .ret _
  | cons img images ih =>
      rw [uploadImages]
      split
      · exact .ret _
      split
      · exact .ret _
      refine makes_attempt rfl fun existing => ?_
      cases existing with
      | some existing => exact makes_attempt rfl fun _ => ih
      | none =>
          simp only
          split
          · exact .ret _
          · exact makes_attempt rfl fun _ => ih

theorem Request.handler_makes (lib : Libraries) (r : Request) :
    Makes (fun q => r.mayCall q = true) (r.handler lib) := by
  cases r with
  | register user req gen unpublished => exact registerServer_makes _ _ _
  | update user req unpublished now => exact updateServer_makes _ _ _
  | serverEvent id players now => exact serverEvent_makes _ _ _
  | serverGone id now => exact .call rfl fun _ => .ret _
  | cleanup now => exact cleanupStaleServers_makes _
  | check items =>
      simp only [Request.handler, checkModImages]
      split
      · exact .ret _
      · exact makes_attempt rfl fun _ => checkImages_makes (fun _ _ _ => rfl) _ _ _
  | upload user images unpublished =>
      simp only [Request.handler, uploadModImages]
      split
      · exact .ret _
      · exact uploadImages_makes _ _ _ _

end

/-- No two servers come to share an id. -/
theorem servers_keys_step {lib : Libraries} {sys sys' : ListingSystem} {a : ListingAction}
    (hkeys : (sys.store.servers.map (·.id)).Nodup)
    (hstep : (service lib).step sys a = some sys') : (sys'.store.servers.map (·.id)).Nodup := by
  rcases Service.step_cases hstep with ⟨r, -, rfl⟩ | ⟨i, outcome, q, k, -, -, rfl⟩ | ⟨e, -, rfl⟩
  · exact hkeys
  · exact Database.servers_keys hkeys outcome q
  · cases e <;> exact hkeys

/-- No two pictures come to share an id. -/
theorem modImages_keys_step {lib : Libraries} {sys sys' : ListingSystem} {a : ListingAction}
    (hkeys : (sys.store.modImages.map (·.id)).Nodup)
    (hstep : (service lib).step sys a = some sys') : (sys'.store.modImages.map (·.id)).Nodup := by
  rcases Service.step_cases hstep with ⟨r, -, rfl⟩ | ⟨i, outcome, q, k, -, -, rfl⟩ | ⟨e, -, rfl⟩
  · exact hkeys
  · exact Database.modImages_keys hkeys outcome q
  · cases e with
    | review id status =>
        have hids : (change sys.store (.review id status)).modImages.map (·.id)
            = sys.store.modImages.map (·.id) := by
          refine map_updateFirst ?_ _
          exact fun _ _ => rfl
        show ((change sys.store (.review id status)).modImages.map (·.id)).Nodup
        rw [hids]
        exact hkeys
    | others users joinTokens now => exact hkeys

end Kyber.Api.Listing
