import Kyber.Api.ServerManagement

/-!
# Reports (`report.go`, `models/report.go`)

Players report players; staff reject a report, set its status, or approve all open
reports against a player, which bans the player globally. A report is `NEW` until
one of these calls closes it.

What only moderators see is left out: texts, notes, who has handled a report and
when, and where the banned player came from. A new report is published, and a
globally banned player is kicked from all servers; of this the model keeps that it
can fail.
-/

namespace Kyber.Api

open Kyber.Lib

/-- `pbapi.ReportStatus`. The field can carry a number that has no name. -/
inductive ProtoReportStatus
  | new
  | inProgress
  | resolved
  | rejected
  | unrecognized (value : Int32)
  deriving DecidableEq, Repr

/-- `GetReportStatusFromProto`. -/
def ProtoReportStatus.toModel : ProtoReportStatus → ReportStatus
  | .new => .new
  | .resolved => .resolved
  | .rejected => .rejected
  | _ => .new

/-- The check at the start of the calls for staff. -/
def staffOnly (user : UserModel) (k : Handler) : Handler :=
  if user.entitled .staff then k
  else refuse .permissionDenied "User is not a staff member"

/-! ## `CreateReport` -/

structure CreateReportModel where
  reportedPlayerID : String
  /-- the first evidence link that is not a valid URL -/
  invalidLink : Option String
  deriving DecidableEq, Repr

/-- `CreateReport`, with the generated id and whether the report is published. -/
def createReport (user : UserModel) (req : Option CreateReportModel) (id : String)
    (published : Bool) : Handler :=
  match req with
  | none => refuse .invalidArgument "Report cannot be nil"
  | some report =>
      query (.newReportsBy user.id) .internal "Failed to get open reports" fun openReports =>
        if openReports.length ≥ 6 then
          refuse .resourceExhausted "You have reached the maximum number of open reports"
        else if openReports.countP (·.reportedPlayerID == report.reportedPlayerID) ≥ 2 then
          refuse .resourceExhausted
            "You have reached the maximum number of open reports for this player"
        else
          match report.invalidLink with
          | some link => refuse .invalidArgument ("Invalid evidence link: " ++ link)
          | none =>
              query (.userByID report.reportedPlayerID) .internal "Failed to get reported user" fun
                | none => refuse .notFound "Reported user not found"
                | some _ =>
                    query (.createReport
                        { id, reporterID := user.id, reportedPlayerID := report.reportedPlayerID,
                          status := .new }) .internal "Failed to create report" fun () =>
                      if published then .ret (.ok .empty)
                      else refuse .internal "Failed to publish image hash"

/-! ## What staff do -/

def rejectReport (user : UserModel) (reportID : String) : Handler :=
  staffOnly user <|
    query (.reportByID reportID) .internal "Failed to get report" fun
      | none => refuse .notFound "Report not found"
      | some report =>
          if report.status ≠ .new then
            refuse .invalidArgument "Report has already been processed"
          else
            query (.updateReport report.id .rejected) .internal "Failed to update report status"
              fun () => .ret (.ok .empty)

/-- The end of `UpdateStatus`. -/
def setReportStatus (report : ReportModel) (status : ProtoReportStatus) : Handler :=
  query (.updateReport report.id status.toModel) .internal "Failed to update report"
    fun () => .ret (.ok .empty)

def updateStatus (user : UserModel) (id : String) (status : ProtoReportStatus) : Handler :=
  staffOnly user <|
    if id = "" then refuse .invalidArgument "Report ID cannot be empty"
    else
      query (.reportByID id) .internal "Failed to get report" fun
        | none => refuse .notFound "Report not found"
        | some report =>
            if status = .new then refuse .invalidArgument "Cannot set report status to NEW"
            else if status = .resolved ∨ status = .rejected then
              query (.updateReports (.reportedPlayer report.reportedPlayerID) status.toModel)
                .internal "Failed to update reports by filter"
                fun () => setReportStatus report status
            else
              setReportStatus report status

structure ApproveReportsRequest where
  playerID : String
  banMessage : String
  /-- in seconds, 0 for a permanent ban -/
  banDuration : UInt64
  deriving DecidableEq, Repr

/-- `ApproveReports` from the ban on. -/
def closeReports (ids : List String) : Handler :=
  query (.updateReports (.ids ids) .resolved) .internal "Failed to update reports" fun () =>
    match ids with
    -- `ids[0]` is published, and a failure to do so is only logged.
    | [] => .ret (.error .panic)
    | _ :: _ =>
        query .allServers .internal "Failed to kick user globally" fun _ => .ret (.ok .empty)

def approveReports (user : UserModel) (req : ApproveReportsRequest) (stamp : Stamp) : Handler :=
  staffOnly user <|
    query (.userByID req.playerID) .internal "Failed to get target user" fun
      | none => refuse .notFound "Target user not found"
      | some target =>
          query (.openReportsFor target.id) .internal "Failed to get new reports" fun reports =>
            if reports.isEmpty then refuse .notFound "No new reports found"
            else
              let ids := (reports.map (·.id)).filter (· ≠ "")
              let expiresAt := if req.banDuration > 0 then
                  some (dateOf (stamp.now.add (seconds req.banDuration)))
                else none
              query (.createPunishment
                  { id := stamp.id, type := .ban, issuer := none, user := some target.id,
                    reason := some req.banMessage, expiresAt, overturnedBy := none })
                .internal "Failed to create punishment" fun () => closeReports ids

/-! ## The calls, one after the other -/

inductive ReportRequest
  | create (user : UserModel) (req : Option CreateReportModel) (id : String) (published : Bool)
  | reject (user : UserModel) (reportID : String)
  | updateStatus (user : UserModel) (id : String) (status : ProtoReportStatus)
  | approve (user : UserModel) (req : ApproveReportsRequest) (stamp : Stamp)
  deriving DecidableEq, Repr

def ReportRequest.handler : ReportRequest → Handler
  | .create user req id published => createReport user req id published
  | .reject user reportID => rejectReport user reportID
  | .updateStatus user id status => Api.updateStatus user id status
  | .approve user req stamp => approveReports user req stamp

inductive ReportAction
  | request (r : ReportRequest)
  /-- the users change -/
  | others (users : List UserModel)
  deriving DecidableEq, Repr

def reportStep (st : Store) : ReportAction → Option Store
  | .request r => some (r.handler.eval Store.perform st).1
  | .others users => some { st with users }

end Kyber.Api
