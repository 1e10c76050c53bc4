import Kyber.Api.Messages

/-!
# What the codec of management messages keeps

A message is decoded from what it is encoded as just when its server id is written
without escapes and its variant is one that both sides of the codec know. The
first half is about the frame around a variant (`status_roundTrips_iff`,
`request_roundTrips_iff`), the second about the variants one by one.
-/

namespace Kyber.Api

open Kyber.Lib Json

/-! ## The structs inside -/

theorem ServerPlayerModel.setField_teamID (p : ServerPlayerModel) (n : UInt32) :
    p.setField "TEAM_ID" (.num n.toNat) = .ok { p with teamID := n } := by
  unfold setField
  rw [if_neg (by decide), if_neg (by decide), if_pos rfl, toUInt32_toNat]
  rfl

theorem ServerPlayerModel.ofJson_toJson (p : ServerPlayerModel) :
    ServerPlayerModel.ofJson p.toJson = .ok p := by
  have hid : setField {} "ID" (.str p.id) = .ok { id := p.id } := by
    simp [setField, toStr, bind, Except.bind, pure, Except.pure]
  have hname : setField { id := p.id } "NAME" (.str p.name) =
      .ok { id := p.id, name := p.name } := by
    simp [setField, toStr, bind, Except.bind, pure, Except.pure]
  have hteam := setField_teamID { id := p.id, name := p.name } p.teamID
  have hfold : foldName "id" = "ID" ∧ foldName "name" = "NAME" ∧
      foldName "team_id" = "TEAM_ID" := by
    simp [foldName, foldRune]
  unfold ofJson toJson toStruct
  simp only [List.foldlM_cons, List.foldlM_nil, hfold, hid, hname, ok_bind]
  rw [hteam]
  rfl

theorem ConsoleMessageModel.ofJson_toJson (m : ConsoleMessageModel) :
    ConsoleMessageModel.ofJson m.toJson = .ok m := by
  simp [ofJson, toJson, toStruct, List.foldlM_cons, setField, foldName, foldRune, toStr,
    Json.toBool, bind, Except.bind, pure, Except.pure]

/-! ## The frame -/

/-- A server id that is written as it is. -/
def Plain (serverID : String) : Prop := ∀ c ∈ serverID.toList, htmlSafe c = true

instance (serverID : String) : Decidable (Plain serverID) :=
  inferInstanceAs (Decidable (∀ c ∈ serverID.toList, htmlSafe c = true))

theorem cutQuotes_str (s : String) : cutQuotes (.str s) = .ok (String.ofList (escape s)) := by
  simp [cutQuotes, Json.text, quote]

theorem ofList_escape_eq_iff (s : String) : String.ofList (escape s) = s ↔ Plain s := by
  rw [Plain, ← flatMap_escapeRune_eq_iff s.toList]
  constructor
  · intro h
    have hlist := congrArg String.toList h
    simpa [escape] using hlist
  · intro h
    rw [escape, h, String.ofList_toList]

def ServerStatusMessage.RoundTrips (m : ServerStatusMessage) : Prop :=
  ∃ data, m.marshalJSON = .ok data ∧ ServerStatusMessage.unmarshalJSON data = .ok m

def ServerRequestMessage.RoundTrips (m : ServerRequestMessage) : Prop :=
  ∃ data, m.marshalJSON = .ok data ∧ ServerRequestMessage.unmarshalJSON data = .ok m

theorem toSlice_ok (items : List Json) : toSlice Except.ok (.arr items) = .ok (some items) := by
  have h := @toSlice_map Json Except.ok id (fun _ => rfl) items
  rwa [List.map_id] at h

theorem unmarshalJSON_status (serverID : String) (data : Json) :
    APIManagementMessage.unmarshalJSON (.obj [("SERVER_STATUS", .arr [.str serverID, data])]) =
      (ServerStatusMessage.unmarshalJSON data).map fun status =>
        { serverID := String.ofList (escape serverID), status := some status } := by
  simp only [APIManagementMessage.unmarshalJSON, toMap, get?_singleton, toSlice_ok, index_zero,
    index_succ, cutQuotes_str, bind, Except.bind, if_true]
  cases ServerStatusMessage.unmarshalJSON data <;> rfl

theorem unmarshalJSON_request (serverID : String) (data : Json) :
    APIManagementMessage.unmarshalJSON (.obj [("SERVER_REQUEST", .arr [.str serverID, data])]) =
      (ServerRequestMessage.unmarshalJSON data).map fun request =>
        { serverID := String.ofList (escape serverID), request := some request } := by
  have hkey : "SERVER_STATUS" ≠ "SERVER_REQUEST" := by decide
  simp only [APIManagementMessage.unmarshalJSON, toMap, get?_singleton, toSlice_ok, index_zero,
    index_succ, cutQuotes_str, bind, Except.bind, if_true, hkey, if_false]
  cases ServerRequestMessage.unmarshalJSON data <;> rfl

/-- Around a status, the frame keeps a server id that is plain, and no other. -/
theorem status_roundTrips_iff (serverID : String) (status : ServerStatusMessage) :
    APIManagementMessage.RoundTrips { serverID, status := some status } ↔
      Plain serverID ∧ status.RoundTrips := by
  rw [← ofList_escape_eq_iff]
  unfold APIManagementMessage.RoundTrips ServerStatusMessage.RoundTrips
  cases hm : status.marshalJSON with
  | error e => simp [APIManagementMessage.marshalJSON, hm, bind, Except.bind]
  | ok data =>
      have hmarshal : APIManagementMessage.marshalJSON { serverID, status := some status } =
          .ok (.obj [("SERVER_STATUS", .arr [.str serverID, data])]) := by
        simp only [APIManagementMessage.marshalJSON, hm, bind, Except.bind, pure, Except.pure]
      simp only [hmarshal, Except.ok.injEq, exists_eq_left', unmarshalJSON_status]
      cases ServerStatusMessage.unmarshalJSON data with
      | error e => simp [Except.map]
      | ok read => simp [Except.map]

/-- And so around a request. -/
theorem request_roundTrips_iff (serverID : String) (request : ServerRequestMessage) :
    APIManagementMessage.RoundTrips { serverID, request := some request } ↔
      Plain serverID ∧ request.RoundTrips := by
  rw [← ofList_escape_eq_iff]
  unfold APIManagementMessage.RoundTrips ServerRequestMessage.RoundTrips
  cases hm : request.marshalJSON with
  | error e => simp [APIManagementMessage.marshalJSON, hm, bind, Except.bind]
  | ok data =>
      have hmarshal : APIManagementMessage.marshalJSON { serverID, request := some request } =
          .ok (.obj [("SERVER_REQUEST", .arr [.str serverID, data])]) := by
        simp only [APIManagementMessage.marshalJSON, hm, bind, Except.bind, pure, Except.pure]
      simp only [hmarshal, Except.ok.injEq, exists_eq_left', unmarshalJSON_request]
      cases ServerRequestMessage.unmarshalJSON data with
      | error e => simp [Except.map]
      | ok read => simp [Except.map]

/-! ## The variants -/

theorem newStatusStaleServer_roundTrips : newStatusStaleServer.RoundTrips :=
  ⟨_, rfl, by
    simp [ServerStatusMessage.unmarshalJSON, toMap, newStatusStaleServer, bind, Except.bind, pure,
      Except.pure]⟩

/-- A nil slice is written as `null`, which is read as no slice at all. -/
theorem newStatusPlayerList_roundTrips_iff (players : Option (List ServerPlayerModel)) :
    (newStatusPlayerList players).RoundTrips ↔ players.isSome = true := by
  cases players with
  | none =>
      simp [ServerStatusMessage.RoundTrips, ServerStatusMessage.marshalJSON, newStatusPlayerList,
        deref, sliceJson, ServerStatusMessage.unmarshalJSON, toMap, toPtr, bind, Except.bind, pure,
        Except.pure]
  | some players =>
      have hread := toSlice_map ServerPlayerModel.ofJson_toJson players
      simp [ServerStatusMessage.RoundTrips, ServerStatusMessage.marshalJSON, newStatusPlayerList,
        deref, sliceJson, ServerStatusMessage.unmarshalJSON, toMap, toPtr, hread, bind, Except.bind,
        pure, Except.pure]

/-- The encoder dereferences the pointer it is given. -/
theorem newStatusConsole_roundTrips_iff (msg : Option ConsoleMessageModel) :
    (newStatusConsole msg).RoundTrips ↔ msg.isSome = true := by
  cases msg with
  | none =>
      simp [ServerStatusMessage.RoundTrips, ServerStatusMessage.marshalJSON, newStatusConsole,
        deref, bind, Except.bind]
  | some msg =>
      simp [ServerStatusMessage.RoundTrips, ServerStatusMessage.marshalJSON, newStatusConsole,
        deref, ServerStatusMessage.unmarshalJSON, toMap, ConsoleMessageModel.ofJson_toJson, bind,
        Except.bind, pure, Except.pure]

/-- The decoder of a status falls through after a player search. -/
theorem newStatusSearchServerID_not_roundTrips (serverID playerID : String) :
    ¬ (newStatusSearchServerID serverID playerID).RoundTrips := by
  rintro ⟨data, hm, hu⟩
  simp only [ServerStatusMessage.marshalJSON, newStatusSearchServerID, deref, bind, Except.bind,
    pure, Except.pure, Except.ok.injEq] at hm
  subst hm
  simp only [ServerStatusMessage.unmarshalJSON, toMap, bind, Except.bind] at hu
  simp at hu
  split at hu
  · cases hu
  · cases hu

theorem newReqRunCommand_roundTrips (cmd : String) : (newReqRunCommand cmd).RoundTrips :=
  ⟨_, rfl, by
    simp [ServerRequestMessage.unmarshalJSON, toMap, newReqRunCommand, toStr, bind, Except.bind,
      pure, Except.pure]⟩

theorem newReqKickPlayer_roundTrips (userID reason : String) :
    (newReqKickPlayer userID reason).RoundTrips := by
  have hread := @toSlice_map String (toStr "") Json.str (fun _ => rfl) [userID, reason]
  simp only [List.map_cons, List.map_nil] at hread
  refine ⟨_, rfl, ?_⟩
  simp [ServerRequestMessage.unmarshalJSON, toMap, newReqKickPlayer, hread, bind, Except.bind,
    pure, Except.pure]

theorem newReqPlayerList_roundTrips : newReqPlayerList.RoundTrips :=
  ⟨_, rfl, by
    simp [ServerRequestMessage.unmarshalJSON, toMap, newReqPlayerList, bind, Except.bind, pure,
      Except.pure]⟩

/-- The constructor gives a search the tag of a command, so that the id is not written. -/
theorem newReqSearchPlayer_roundTrips_iff (id : String) :
    (newReqSearchPlayer id).RoundTrips ↔ id = "" := by
  rw [eq_comm]
  simp [ServerRequestMessage.RoundTrips, ServerRequestMessage.marshalJSON, newReqSearchPlayer,
    ServerRequestMessage.unmarshalJSON, toMap, toStr, bind, Except.bind, pure, Except.pure]

/-! ## Every message -/

/-- The calls of the constructors whose result the codec keeps: not a search for a
server, a search for a player only without an id, and no nil slice or pointer. -/
def Payload.Kept : Payload → Prop
  | .statusPlayerList players => players.isSome = true
  | .statusConsole msg => msg.isSome = true
  | .statusSearchServerID _ _ => False
  | .reqSearchPlayer id => id = ""
  | _ => True

theorem message_roundTrips_iff (serverID : String) (payload : Payload) :
    (payload.message serverID).RoundTrips ↔ Plain serverID ∧ payload.Kept := by
  cases payload with
  | statusStaleServer =>
      simp only [Payload.message, Payload.Kept, status_roundTrips_iff,
        newStatusStaleServer_roundTrips]
  | statusPlayerList players =>
      simp only [Payload.message, Payload.Kept, status_roundTrips_iff,
        newStatusPlayerList_roundTrips_iff]
  | statusConsole msg =>
      simp only [Payload.message, Payload.Kept, status_roundTrips_iff,
        newStatusConsole_roundTrips_iff]
  | statusSearchServerID server player =>
      simp only [Payload.message, Payload.Kept, status_roundTrips_iff,
        newStatusSearchServerID_not_roundTrips]
  | reqRunCommand cmd =>
      simp only [Payload.message, Payload.Kept, request_roundTrips_iff,
        newReqRunCommand_roundTrips]
  | reqKickPlayer user reason =>
      simp only [Payload.message, Payload.Kept, request_roundTrips_iff,
        newReqKickPlayer_roundTrips]
  | reqSearchPlayer id =>
      simp only [Payload.message, Payload.Kept, request_roundTrips_iff,
        newReqSearchPlayer_roundTrips_iff]
  | reqPlayerList =>
      simp only [Payload.message, Payload.Kept, request_roundTrips_iff,
        newReqPlayerList_roundTrips]

/-- A search for player `7` on server `a`: the message goes out as an empty command. -/
theorem searchPlayer_dropped :
    ¬ ∀ (serverID : String) (payload : Payload), (payload.message serverID).RoundTrips := by
  intro h
  obtain ⟨data, hm, hu⟩ := h "a" (.reqSearchPlayer "7")
  simp only [Payload.message, APIManagementMessage.marshalJSON, newReqSearchPlayer,
    ServerRequestMessage.marshalJSON, bind, Except.bind, pure, Except.pure,
    Except.ok.injEq] at hm
  subst hm
  rw [unmarshalJSON_request] at hu
  simp [ServerRequestMessage.unmarshalJSON, toMap, toStr, Except.map, bind, Except.bind, pure,
    Except.pure, Payload.message, newReqSearchPlayer] at hu

end Kyber.Api
