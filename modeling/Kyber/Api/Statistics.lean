import Kyber.Api.Rpc

/-!
# Player statistics (`statistics.go`, `stats_repository.go`, `models/stats.go`)

A server that is entitled to it stores the official statistics of players. A request has a map from
the names of the statistics to their values, and puts it in the place of the one that is stored, if
it has not got fewer names.

`φ` is the type of a value. A request has 32-bit values and a document 64-bit ones, which all
32-bit ones are, so that converting them changes nothing. The other calls read statistics, and are
left out.
-/

namespace Kyber.Api

open Kyber.Lib

/-- `pbapi.StatsSource`. The field can carry a number that has no name. -/
inductive ProtoStatsSource
  | eaPc
  | eaXbox
  | eaPs4
  | kyber
  | personal
  | unrecognized (value : Int32)
  deriving DecidableEq, Repr

/-- `models.StatsSource`. -/
inductive StatsSource
  | ea
  | kyber
  | personal
  deriving DecidableEq, Repr

/-- `StatsSourceFromProto`. -/
def ProtoStatsSource.toModel : ProtoStatsSource → StatsSource
  | .eaPc | .eaXbox | .eaPs4 => .ea
  | .kyber => .kyber
  | .personal | .unrecognized _ => .personal

abbrev UserStats (φ : Type) := Std.TreeMap String φ

structure UserStatsModel (φ : Type) where
  userID : String
  source : StatsSource
  stats : UserStats φ

structure UpdateStatsRequest (φ : Type) where
  source : ProtoStatsSource
  user : String
  stats : UserStats φ

/-! ## The collections -/

/-- `getDBKey`. -/
def statsKey (ownerID userID : String) : StatsSource → String
  | .kyber => "official-" ++ userID
  | _ => ownerID ++ "-" ++ userID

/-- The users, and the statistics by their `_id`. -/
structure StatsStore (φ : Type) where
  users : List UserModel := []
  stats : Std.TreeMap String (UserStatsModel φ) := {}

inductive StatsOp (φ : Type)
  | userByID (id : String)
  /-- `Stats.Get` -/
  | get (userID : String) (source : StatsSource)
  /-- `Stats.Upsert` -/
  | upsert (ownerID userID : String) (source : StatsSource) (stats : UserStats φ)

abbrev StatsOp.Result {φ : Type} : StatsOp φ → Type
  | .userByID _ => Option UserModel
  | .get _ _ => Option (UserStatsModel φ)
  | .upsert _ _ _ _ => Unit

abbrev StatsAns {φ : Type} (op : StatsOp φ) : Type := Except DbError op.Result

namespace StatsStore

variable {φ : Type}

/-- A call that is answered. A source that `Upsert` does not know is an error, here that of no
documents. -/
def perform (st : StatsStore φ) : (op : StatsOp φ) → StatsStore φ × StatsAns op
  | .userByID id => (st, .ok (st.users.find? (·.id == id)))
  | .get userID source => (st, .ok st.stats[statsKey "" userID source]?)
  | .upsert ownerID userID source stats =>
      if source ≠ .kyber ∧ source ≠ .personal then (st, .error .noDocuments)
      else ({ st with stats := st.stats.insert (statsKey ownerID userID source)
                        { userID, source, stats } }, .ok ())

def serve (st : StatsStore φ) (outcome : Outcome) (op : StatsOp φ) : StatsStore φ × StatsAns op :=
  match outcome with
  | .answered => st.perform op
  | .failed => (st, .error .unavailable)
  | .unacknowledged => ((st.perform op).1, .error .unavailable)

/-- The next call, where the outcomes of the calls are given. Those that are not are answered. -/
def serveNext (s : StatsStore φ × List Outcome) (op : StatsOp φ) :
    (StatsStore φ × List Outcome) × StatsAns op :=
  let served := s.1.serve (s.2.headD .answered) op
  ((served.1, s.2.tail), served.2)

end StatsStore

/-! ## `UpdateStats` -/

section

variable {φ : Type}

abbrev StatsHandler (φ : Type) := Prog (StatsOp φ) StatsAns (Except Failure Unit)

def refuseStats (code : Code) (message : String) : StatsHandler φ :=
  .ret (.error (.status code message))

/-- The end of `UpdateStats`. -/
def storeStats (owner user : UserModel) (req : UpdateStatsRequest φ) : StatsHandler φ :=
  .call (.upsert owner.id user.id req.source.toModel req.stats) fun
    | .error _ => refuseStats .internal "Failed to update stats"
    | .ok () => .ret (.ok ())

/-- `UpdateStats`. The error of `Stats.Get` is dropped, and there is nothing stored then. -/
def updateStats (owner : UserModel) (req : UpdateStatsRequest φ) : StatsHandler φ :=
  if req.source ≠ .kyber then
    refuseStats .invalidArgument "Only Kyber stats can be updated"
  else
    .call (.userByID req.user) fun
      | .error _ => refuseStats .internal "Failed to get user"
      | .ok none => refuseStats .notFound "User not found"
      | .ok (some user) =>
          if !owner.entitled .officialStats then
            refuseStats .permissionDenied "You do not have permission to update Kyber stats"
          else
            .call (.get user.id .kyber) fun
              | .ok (some currentStats) =>
                  if req.stats.size < currentStats.stats.size then
                    refuseStats .invalidArgument "Insufficient stats provided"
                  else
                    storeStats owner user req
              | _ => storeStats owner user req

/-- The request alone, with the outcomes of its calls: what is stored then, and the reply. -/
def StatsStore.update (st : StatsStore φ) (owner : UserModel) (req : UpdateStatsRequest φ)
    (outcomes : List Outcome) : StatsStore φ × Except Failure Unit :=
  let run := (updateStats owner req).eval StatsStore.serveNext (st, outcomes)
  (run.1.1, run.2)

end

end Kyber.Api
