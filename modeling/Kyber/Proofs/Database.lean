import Kyber.Api.Database

/-!
# What the calls do to the collections

Each collection is changed by an insertion, by updates that keep the key of a
document, or by a deletion. So no two documents come to share a key, and a document
that is there after a call was there before, has been updated by it, or has been
inserted by it.
-/

namespace Kyber.Api

open Kyber.Lib Prog

@[simp] theorem UserUpdate.apply_id (update : UserUpdate) (user : UserDocument) :
    (update.apply user).id = user.id := by
  cases update <;> rfl

@[simp] theorem ServerUpdate.apply_id (update : ServerUpdate) (server : ServerDocument) :
    (update.apply server).id = server.id := by
  cases update <;> rfl

@[simp] theorem ServerUpdate.apply_lastUpdated (update : ServerUpdate) (server : ServerDocument) :
    (update.apply server).lastUpdated = update.now := by
  cases update <;> rfl

@[simp] theorem ImageUpdate.apply_id (update : ImageUpdate) (image : ModImageModel) :
    (update.apply image).id = image.id := by
  cases update <;> rfl

namespace Database

section Collections

variable {α : Type} {key : α → String} {l : List α}

theorem insert_keys (hkeys : (l.map key).Nodup) (a : α) : ((insert key a l).1.map key).Nodup := by
  unfold insert
  split
  · exact hkeys
  · next hnew => exact nodup_map_append hkeys (Bool.eq_false_iff.mpr hnew)

theorem mem_insert {a b : α} (h : b ∈ (insert key a l).1) : b ∈ l ∨ b = a := by
  unfold insert at h
  split at h
  · exact .inl h
  · simpa using h

theorem updateByID_keys {f : α → α} (hf : ∀ a, key (f a) = key a) (id : String) :
    (updateByID key id f l).1.map key = l.map key := by
  unfold updateByID
  split
  · exact map_updateFirst (fun a _ => hf a) l
  · rfl

theorem mem_updateByID {f : α → α} {id : String} {b : α} (h : b ∈ (updateByID key id f l).1) :
    b ∈ l ∨ ∃ a ∈ l, key a = id ∧ b = f a := by
  unfold updateByID at h
  split at h
  · rcases mem_updateFirst h with h | ⟨a, ha, hkey, rfl⟩
    · exact .inl h
    · exact .inr ⟨a, ha, eq_of_beq hkey, rfl⟩
  · exact .inl h

end Collections

variable {db : Database}

theorem users_keys (h : (db.users.map (·.id)).Nodup) (outcome : Outcome) (q : Query) :
    ((db.serve outcome q).1.users.map (·.id)).Nodup := by
  have hperform : ((db.perform q).1.users.map (·.id)).Nodup := by
    cases q with
    | createUser user => exact insert_keys h user
    | updateUser id update =>
        rw [perform, map_updateFirst fun user _ => update.apply_id user]
        exact h
    | _ => exact h
  cases outcome with
  | answered | unacknowledged => exact hperform
  | failed => exact h

theorem servers_keys (h : (db.servers.map (·.id)).Nodup) (outcome : Outcome) (q : Query) :
    ((db.serve outcome q).1.servers.map (·.id)).Nodup := by
  have hperform : ((db.perform q).1.servers.map (·.id)).Nodup := by
    cases q with
    | createServer server => exact insert_keys h server
    | updateServer id update =>
        rw [perform, updateByID_keys update.apply_id]
        exact h
    | deleteServers ids => exact h.sublist (List.filter_sublist.map _)
    | _ => exact h
  cases outcome with
  | answered | unacknowledged => exact hperform
  | failed => exact h

theorem modImages_keys (h : (db.modImages.map (·.id)).Nodup) (outcome : Outcome) (q : Query) :
    ((db.serve outcome q).1.modImages.map (·.id)).Nodup := by
  have hperform : ((db.perform q).1.modImages.map (·.id)).Nodup := by
    cases q with
    | createImage image => exact insert_keys h image
    | updateImage id update =>
        rw [perform, updateByID_keys update.apply_id]
        exact h
    | _ => exact h
  cases outcome with
  | answered | unacknowledged => exact hperform
  | failed => exact h

/-- A call that succeeds has been answered. -/
theorem answered_of_serve_ok {outcome : Outcome} {q : Query} {result : q.Result}
    (h : (db.serve outcome q).2 = .ok result) : outcome = .answered := by
  cases outcome with
  | answered => rfl
  | failed | unacknowledged => cases h

theorem serve_createServer_ok {outcome : Outcome} {server : ServerDocument}
    (h : (db.serve outcome (.createServer server)).2 = .ok ()) :
    (db.serve outcome (.createServer server)).1.servers = db.servers ++ [server] ∧
      ∀ other ∈ db.servers, other.id ≠ server.id := by
  obtain rfl := answered_of_serve_ok h
  simp only [serve, perform, insert] at h ⊢
  split at h
  · cases h
  · next hnew =>
      rw [if_neg hnew]
      refine ⟨rfl, fun other hother heq => hnew ?_⟩
      exact List.any_eq_true.mpr ⟨other, hother, by simpa using heq⟩

theorem serve_updateServer_ok (hkeys : (db.servers.map (·.id)).Nodup) {outcome : Outcome}
    {id : String} {update : ServerUpdate}
    (h : (db.serve outcome (.updateServer id update)).2 = .ok ()) :
    (db.serve outcome (.updateServer id update)).1.servers =
      db.servers.map fun server => if server.id == id then update.apply server else server := by
  obtain rfl := answered_of_serve_ok h
  simp only [serve, perform, updateByID] at h ⊢
  split at h
  · next hany => rw [if_pos hany, updateFirst_key hkeys]
  · cases h

/-- The answer to a query by id has the id. -/
theorem id_of_userByID {outcome : Outcome} {id : String} {user : UserDocument}
    (h : (db.serve outcome (.userByID id)).2 = .ok (some user)) : user.id = id := by
  obtain rfl := answered_of_serve_ok h
  have hfound : db.users.find? (·.id == id) = some user := Except.ok.inj h
  simpa using List.find?_some hfound

theorem id_of_serverByID {outcome : Outcome} {id : String} {server : ServerDocument}
    (h : (db.serve outcome (.serverByID id)).2 = .ok (some server)) : server.id = id := by
  obtain rfl := answered_of_serve_ok h
  have hfound : db.servers.find? (·.id == id) = some server := Except.ok.inj h
  simpa using List.find?_some hfound

theorem id_of_imageByID {outcome : Outcome} {id : String} {image : ModImageModel}
    (h : (db.serve outcome (.imageByID id)).2 = .ok (some image)) : image.id = id := by
  obtain rfl := answered_of_serve_ok h
  have hfound : db.modImages.find? (·.id == id) = some image := Except.ok.inj h
  simpa using List.find?_some hfound

/-- Where a server document comes from. -/
theorem mem_servers_serve {outcome : Outcome} {q : Query} {server : ServerDocument}
    (h : server ∈ (db.serve outcome q).1.servers) :
    server ∈ db.servers ∨ outcome ≠ .failed ∧
      ((∃ id update old, q = .updateServer id update ∧ old ∈ db.servers ∧ old.id = id ∧
          server = update.apply old) ∨ q = .createServer server) := by
  have hperform : server ∈ (db.perform q).1.servers → server ∈ db.servers ∨
      (∃ id update old, q = .updateServer id update ∧ old ∈ db.servers ∧ old.id = id ∧
          server = update.apply old) ∨ q = .createServer server := by
    intro h
    cases q with
    | createServer new =>
        rcases mem_insert h with h | rfl
        · exact .inl h
        · exact .inr (.inr rfl)
    | updateServer id update =>
        rcases mem_updateByID h with h | ⟨old, hold, hid, rfl⟩
        · exact .inl h
        · exact .inr (.inl ⟨id, update, old, rfl, hold, hid, rfl⟩)
    | deleteServers ids => exact .inl (List.mem_of_mem_filter h)
    | _ => exact .inl h
  cases outcome with
  | answered | unacknowledged => exact (hperform h).imp_right fun h => ⟨by decide, h⟩
  | failed => exact .inl h

/-- What a call makes of the mod images. -/
theorem modImages_serve (hkeys : (db.modImages.map (·.id)).Nodup) (outcome : Outcome) (q : Query) :
    (db.serve outcome q).1.modImages = db.modImages ∨ outcome ≠ .failed ∧
      ((∃ id update, q = .updateImage id update ∧ (db.serve outcome q).1.modImages =
          db.modImages.map fun image => if image.id == id then update.apply image else image) ∨
        ∃ image, q = .createImage image ∧ db.modImages.any (·.id == image.id) = false ∧
          (db.serve outcome q).1.modImages = db.modImages ++ [image]) := by
  have hperform : (db.perform q).1.modImages = db.modImages ∨
      ((∃ id update, q = .updateImage id update ∧ (db.perform q).1.modImages =
          db.modImages.map fun image => if image.id == id then update.apply image else image) ∨
        ∃ image, q = .createImage image ∧ db.modImages.any (·.id == image.id) = false ∧
          (db.perform q).1.modImages = db.modImages ++ [image]) := by
    cases q with
    | updateImage id update =>
        simp only [perform, updateByID]
        split
        · exact .inr (.inl ⟨id, update, rfl, updateFirst_key hkeys _ _⟩)
        · exact .inl rfl
    | createImage image =>
        simp only [perform, insert]
        split
        · exact .inl rfl
        · next hnew => exact .inr (.inr ⟨image, rfl, Bool.eq_false_iff.mpr hnew, rfl⟩)
    | _ => exact .inl rfl
  cases outcome with
  | answered | unacknowledged => exact hperform.imp_right fun h => ⟨by decide, h⟩
  | failed => exact .inl rfl

/-- An update that has an effect changes the user with the id. -/
theorem serve_updateUser (hkeys : (db.users.map (·.id)).Nodup) {outcome : Outcome}
    (houtcome : outcome ≠ .failed) (id : String) (update : UserUpdate) :
    (db.serve outcome (.updateUser id update)).1.users =
      db.users.map fun user => if user.id == id then update.apply user else user := by
  cases outcome with
  | answered | unacknowledged => exact updateFirst_key hkeys _ _
  | failed => exact absurd rfl houtcome

/-- What a call makes of a user who is there. -/
def written (outcome : Outcome) (q : Query) (user : UserDocument) : UserDocument :=
  match q with
  | .updateUser id update => if user.id == id && outcome != .failed then update.apply user else user
  | _ => user

/-- Where a user document comes from. -/
theorem mem_users_serve (hkeys : (db.users.map (·.id)).Nodup) {outcome : Outcome} {q : Query}
    {user : UserDocument} (h : user ∈ (db.serve outcome q).1.users) :
    (∃ old ∈ db.users, old.id = user.id ∧ user = written outcome q old) ∨ q = .createUser user := by
  cases q with
  | updateUser id update =>
      by_cases houtcome : outcome = .failed
      · subst houtcome
        exact .inl ⟨user, h, rfl, by simp [written]⟩
      · rw [serve_updateUser hkeys houtcome] at h
        obtain ⟨old, hold, rfl⟩ := List.mem_map.mp h
        refine .inl ⟨old, hold, ?_, by simp [written, houtcome]⟩
        split <;> simp
  | createUser new =>
      cases outcome with
      | failed => exact .inl ⟨user, h, rfl, rfl⟩
      | answered | unacknowledged =>
          rcases mem_insert h with h | rfl
          · exact .inl ⟨user, h, rfl, rfl⟩
          · exact .inr rfl
  | _ => cases outcome <;> exact .inl ⟨user, h, rfl, rfl⟩

/-- What a call makes of the users. -/
theorem users_serve (hkeys : (db.users.map (·.id)).Nodup) (outcome : Outcome) (q : Query) :
    (db.serve outcome q).1.users = db.users ∨ outcome ≠ .failed ∧
      ((∃ id update, q = .updateUser id update ∧ (db.serve outcome q).1.users =
          db.users.map fun user => if user.id == id then update.apply user else user) ∨
        ∃ user, q = .createUser user ∧ db.users.any (·.id == user.id) = false ∧
          (db.serve outcome q).1.users = db.users ++ [user]) := by
  have hperform : (db.perform q).1.users = db.users ∨
      ((∃ id update, q = .updateUser id update ∧ (db.perform q).1.users =
          db.users.map fun user => if user.id == id then update.apply user else user) ∨
        ∃ user, q = .createUser user ∧ db.users.any (·.id == user.id) = false ∧
          (db.perform q).1.users = db.users ++ [user]) := by
    cases q with
    | updateUser id update => exact .inr (.inl ⟨id, update, rfl, updateFirst_key hkeys _ _⟩)
    | createUser user =>
        simp only [perform, insert]
        split
        · exact .inl rfl
        · next hnew => exact .inr (.inr ⟨user, rfl, Bool.eq_false_iff.mpr hnew, rfl⟩)
    | _ => exact .inl rfl
  cases outcome with
  | answered | unacknowledged => exact hperform.imp_right fun h => ⟨by decide, h⟩
  | failed => exact .inl rfl

end Database

end Kyber.Api
