import Kyber.Api.Reports
import Kyber.Proofs.Rpc

/-!
# The life of a report

A report is created as `NEW`, and the calls of the staff close it. The limits on how
many new reports a user may have are checked only when a report is created, so they
hold as long as no closed report becomes new again.

One call can do that: `UpdateStatus` refuses the status `NEW`, but turns every
status that it does not know, `IN_PROGRESS` among them, into `NEW`. A run keeps
reports closed, and the limits, exactly if this call is never made for a closed
report.
-/

namespace Kyber.Api

open Kyber.Lib Prog

/-! ## What is said of the reports -/

/-- The status of the report with this id. -/
def statusOf (reports : List ReportModel) (id : String) : Option ReportStatus :=
  (reports.find? (·.id == id)).map (·.status)

/-- The report has left the status `NEW`. -/
def Closed (reports : List ReportModel) (id : String) : Prop :=
  ∃ status, statusOf reports id = some status ∧ status ≠ .new

def newBy (userID : String) (r : ReportModel) : Bool := r.reporterID == userID && r.status == .new

def newAgainst (userID playerID : String) (r : ReportModel) : Bool :=
  r.reportedPlayerID == playerID && newBy userID r

/-- Every user has at most six new reports, and at most two against one player. -/
structure Limits (reports : List ReportModel) : Prop where
  all : ∀ userID, reports.countP (newBy userID) ≤ 6
  player : ∀ userID playerID, reports.countP (newAgainst userID playerID) ≤ 2

/-- No report is opened and none is forgotten. -/
structure Settles (reports reports' : List ReportModel) : Prop where
  closed : ∀ id, Closed reports id → Closed reports' id
  all : ∀ userID, reports'.countP (newBy userID) ≤ reports.countP (newBy userID)
  player : ∀ userID playerID,
    reports'.countP (newAgainst userID playerID) ≤ reports.countP (newAgainst userID playerID)

variable {reports reports' : List ReportModel}

theorem Settles.refl (reports : List ReportModel) : Settles reports reports :=
  ⟨fun _ h => h, fun _ => Nat.le_refl _, fun _ _ => Nat.le_refl _⟩

theorem Settles.trans {reports'' : List ReportModel} (h : Settles reports reports')
    (h' : Settles reports' reports'') : Settles reports reports'' where
  closed id hclosed := h'.closed id (h.closed id hclosed)
  all userID := Nat.le_trans (h'.all userID) (h.all userID)
  player userID playerID := Nat.le_trans (h'.player userID playerID) (h.player userID playerID)

theorem Settles.limits (h : Settles reports reports') (hlimits : Limits reports) :
    Limits reports' where
  all userID := Nat.le_trans (h.all userID) (hlimits.all userID)
  player userID playerID := Nat.le_trans (h.player userID playerID) (hlimits.player userID playerID)

/-! ## Updates -/

theorem newBy_status {userID : String} {r : ReportModel} {status : ReportStatus}
    (hstatus : status ≠ .new) : newBy userID { r with status } = false := by
  simp [newBy, hstatus]

theorem newAgainst_status {userID playerID : String} {r : ReportModel} {status : ReportStatus}
    (hstatus : status ≠ .new) : newAgainst userID playerID { r with status } = false := by
  rw [newAgainst, newBy_status hstatus, Bool.and_false]

theorem statusOf_updateFirst (id : String) (status : ReportStatus) (other : String) :
    statusOf (updateFirst (·.id == id) ({ · with status }) reports) other =
      if other = id then (statusOf reports id).map fun _ => status else statusOf reports other := by
  unfold statusOf
  split
  · next heq =>
      subst heq
      rw [find?_updateFirst, Option.map_map, Option.map_map]
      · rfl
      · exact fun _ h => h
  · next hne =>
      rw [find?_updateFirst_of_not]
      intro r hr
      have hr : r.id = id := eq_of_beq hr
      simp [hr, Ne.symm hne]

theorem settles_updateFirst (id : String) {status : ReportStatus} (hstatus : status ≠ .new) :
    Settles reports (updateFirst (·.id == id) ({ · with status }) reports) where
  closed other := by
    rintro ⟨old, hold, hne⟩
    rw [Closed, statusOf_updateFirst]
    split
    · next heq =>
        subst heq
        exact ⟨status, by rw [hold, Option.map_some], hstatus⟩
    · exact ⟨old, hold, hne⟩
  all userID := countP_updateFirst_le (fun r h => by
    rw [newBy_status hstatus] at h
    cases h) reports
  player userID playerID := countP_updateFirst_le (fun r h => by
    rw [newAgainst_status hstatus] at h
    cases h) reports

/-- The update of all reports that a filter selects. -/
def closeSelected (filter : ReportFilter) (status : ReportStatus) (r : ReportModel) : ReportModel :=
  if filter.selects r then { r with status } else r

theorem settles_closeSelected (filter : ReportFilter) {status : ReportStatus}
    (hstatus : status ≠ .new) : Settles reports (reports.map (closeSelected filter status)) where
  closed id := by
    rintro ⟨old, hold, hne⟩
    have hid : ((·.id == id) ∘ closeSelected filter status : ReportModel → Bool) = (·.id == id) := by
      funext r
      simp only [Function.comp_apply, closeSelected]
      split <;> rfl
    unfold statusOf at hold
    rw [Closed, statusOf, List.find?_map, hid]
    cases hfind : reports.find? (·.id == id) with
    | none =>
        rw [hfind] at hold
        cases hold
    | some r =>
        rw [hfind, Option.map_some, Option.some.injEq] at hold
        refine ⟨_, rfl, ?_⟩
        unfold closeSelected
        split
        · exact hstatus
        · exact fun h => hne (hold.symm.trans h)
  all userID := by
    rw [List.countP_map]
    refine List.countP_mono_left fun r _ h => ?_
    simp only [Function.comp_apply, closeSelected] at h
    split at h
    · rw [newBy_status hstatus] at h
      cases h
    · exact h
  player userID playerID := by
    rw [List.countP_map]
    refine List.countP_mono_left fun r _ h => ?_
    simp only [Function.comp_apply, closeSelected] at h
    split at h
    · rw [newAgainst_status hstatus] at h
      cases h
    · exact h

/-! ## Calls -/

/-- A report is created only within the limits. -/
theorem createReport_eval (st : Store) (user : UserModel) (req : Option CreateReportModel)
    (id : String) (published : Bool) :
    let st' := ((createReport user req id published).eval Store.perform st).1
    st'.reports = st.reports ∨ ∃ doc : ReportModel, st'.reports = st.reports ++ [doc] ∧
      doc.reporterID = user.id ∧ st.reports.any (·.id == doc.id) = false ∧
      st.reports.countP (newBy user.id) < 6 ∧
      st.reports.countP (newAgainst user.id doc.reportedPlayerID) < 2 := by
  intro st'
  cases req with
  | none => exact .inl rfl
  | some report =>
      simp only [st', createReport, eval_query, Store.perform]
      split
      · exact .inl rfl
      split
      · exact .inl rfl
      next hall hplayer =>
        cases report.invalidLink with
        | some link => exact .inl rfl
        | none =>
            simp only [eval_query, Store.perform]
            cases st.users.find? (·.id == report.reportedPlayerID) with
            | none => exact .inl rfl
            | some reported =>
                simp only [eval_query, Store.perform]
                cases hany : st.reports.any (·.id == id) with
                | true => exact .inl rfl
                | false =>
                    let doc : ReportModel :=
                      { id, reporterID := user.id, reportedPlayerID := report.reportedPlayerID,
                        status := .new }
                    refine .inr ⟨doc, ?_, rfl, hany, ?_, ?_⟩
                    · cases published <;> rfl
                    · rw [List.countP_eq_length_filter]
                      exact Nat.lt_of_not_ge hall
                    · rw [List.countP_filter] at hplayer
                      exact Nat.lt_of_not_ge hplayer

theorem rejectReport_settles (st : Store) (user : UserModel) (reportID : String) :
    Settles st.reports ((rejectReport user reportID).eval Store.perform st).1.reports := by
  simp only [rejectReport, staffOnly]
  split
  · simp only [eval_query, Store.perform]
    cases st.reports.find? (·.id == reportID) with
    | none => exact .refl _
    | some report =>
        dsimp only
        split
        · exact .refl _
        · exact settles_updateFirst report.id (by simp)
  · exact .refl _

theorem closeReports_settles (st : Store) (ids : List String) :
    Settles st.reports ((closeReports ids).eval Store.perform st).1.reports := by
  have hsettles : Settles st.reports (st.reports.map (closeSelected (.ids ids) .resolved)) :=
    settles_closeSelected _ (by simp)
  cases ids with
  | nil => exact hsettles
  | cons id ids => exact hsettles

theorem approveReports_settles (st : Store) (user : UserModel) (req : ApproveReportsRequest)
    (stamp : Stamp) :
    Settles st.reports ((approveReports user req stamp).eval Store.perform st).1.reports := by
  simp only [approveReports, staffOnly]
  split
  · simp only [eval_query, Store.perform]
    cases st.users.find? (·.id == req.playerID) with
    | none => exact .refl _
    | some target =>
        simp only [eval_query, Store.perform]
        split
        · exact .refl _
        · simp only [eval_query, Store.perform]
          cases st.punishments.any (·.id == stamp.id) with
          | true => exact .refl _
          | false =>
              exact closeReports_settles { st with punishments := st.punishments ++ [_] } _
  · exact .refl _

/-- A status that the conversion from the request's enumeration does not know. -/
def ProtoReportStatus.unknown (status : ProtoReportStatus) : Prop :=
  status ≠ .new ∧ status ≠ .resolved ∧ status ≠ .rejected

/-- The report is set to `NEW`. -/
def SetsNew (st : Store) (user : UserModel) (id : String) (status : ProtoReportStatus) : Prop :=
  user.entitled .staff = true ∧ id ≠ "" ∧ status.unknown ∧ ∃ old, statusOf st.reports id = some old

theorem updateStatus_eval (st : Store) (user : UserModel) (id : String)
    (status : ProtoReportStatus) :
    let st' := ((updateStatus user id status).eval Store.perform st).1
    ¬ SetsNew st user id status ∧ Settles st.reports st'.reports ∨
      SetsNew st user id status ∧
        st'.reports = updateFirst (·.id == id) ({ · with status := .new }) st.reports := by
  intro st'
  simp only [st', updateStatus, staffOnly]
  split
  case isFalse hstaff => exact .inl ⟨fun h => hstaff h.1, .refl _⟩
  case isTrue hstaff =>
    split
    case isTrue hid => exact .inl ⟨fun h => h.2.1 hid, .refl _⟩
    case isFalse hid =>
      simp only [eval_query, Store.perform]
      cases hfind : st.reports.find? (·.id == id) with
      | none =>
          refine .inl ⟨?_, .refl _⟩
          rintro ⟨-, -, -, old, hold⟩
          rw [statusOf, hfind] at hold
          cases hold
      | some report =>
          have hreport : report.id = id := by simpa using List.find?_some hfind
          cases status with
          | new => exact .inl ⟨fun h => h.2.2.1.1 rfl, .refl _⟩
          | resolved =>
              refine .inl ⟨fun h => h.2.2.1.2.1 rfl, ?_⟩
              exact (settles_closeSelected _ (by simp [ProtoReportStatus.toModel])).trans
                (settles_updateFirst report.id (by simp [ProtoReportStatus.toModel]))
          | rejected =>
              refine .inl ⟨fun h => h.2.2.1.2.2 rfl, ?_⟩
              exact (settles_closeSelected _ (by simp [ProtoReportStatus.toModel])).trans
                (settles_updateFirst report.id (by simp [ProtoReportStatus.toModel]))
          | inProgress =>
              refine .inr ⟨⟨hstaff, hid, by simp [ProtoReportStatus.unknown], report.status, ?_⟩, ?_⟩
              · rw [statusOf, hfind, Option.map_some]
              · rw [← hreport]
                rfl
          | unrecognized value =>
              refine .inr ⟨⟨hstaff, hid, by simp [ProtoReportStatus.unknown], report.status, ?_⟩, ?_⟩
              · rw [statusOf, hfind, Option.map_some]
              · rw [← hreport]
                rfl

/-! ## Runs -/

/-- A closed report is set to `NEW`. -/
def Reopens (st : Store) : ReportAction → Prop
  | .request (.updateStatus user id status) => SetsNew st user id status ∧ Closed st.reports id
  | _ => False

theorem closed_append {id : String} (doc : ReportModel) (h : Closed reports id) :
    Closed (reports ++ [doc]) id := by
  obtain ⟨status, hstatus, hne⟩ := h
  obtain ⟨r, hr, hrs⟩ := Option.map_eq_some_iff.mp hstatus
  refine ⟨status, ?_, hne⟩
  rw [statusOf, List.find?_append, hr, Option.some_or, Option.map_some, hrs]

theorem Limits.append (h : Limits reports) {doc : ReportModel}
    (hall : reports.countP (newBy doc.reporterID) < 6)
    (hplayer : reports.countP (newAgainst doc.reporterID doc.reportedPlayerID) < 2) :
    Limits (reports ++ [doc]) := by
  constructor
  case all =>
    intro userID
    rw [List.countP_append, List.countP_singleton]
    split
    · next hnew =>
        simp only [newBy, Bool.and_eq_true, beq_iff_eq] at hnew
        rw [← hnew.1]
        omega
    · exact h.all userID
  case player =>
    intro userID playerID
    rw [List.countP_append, List.countP_singleton]
    split
    · next hnew =>
        simp only [newAgainst, newBy, Bool.and_eq_true, beq_iff_eq] at hnew
        rw [← hnew.1, ← hnew.2.1]
        omega
    · exact h.player userID playerID

variable {st st' : Store}

/-- A step that reopens no report keeps the limits and the closed reports. -/
theorem reportStep_safe {a : ReportAction} (hlimits : Limits st.reports) (hsafe : ¬ Reopens st a)
    (hstep : reportStep st a = some st') :
    Limits st'.reports ∧ ∀ id, Closed st.reports id → Closed st'.reports id := by
  have hsettles : Settles st.reports st'.reports →
      Limits st'.reports ∧ ∀ id, Closed st.reports id → Closed st'.reports id :=
    fun h => ⟨h.limits hlimits, h.closed⟩
  cases a with
  | others users =>
      cases hstep
      exact hsettles (.refl _)
  | request r =>
      cases hstep
      cases r with
      | create user req id published =>
          rcases createReport_eval st user req id published with
            heq | ⟨doc, heq, huser, -, hall, hplayer⟩
          · refine hsettles ?_
            rw [ReportRequest.handler, heq]
            exact .refl _
          · rw [ReportRequest.handler, heq]
            rw [← huser] at hall hplayer
            exact ⟨hlimits.append hall hplayer, fun _ => closed_append doc⟩
      | reject user reportID => exact hsettles (rejectReport_settles st user reportID)
      | approve user req stamp => exact hsettles (approveReports_settles st user req stamp)
      | updateStatus user id status =>
          rcases updateStatus_eval st user id status with ⟨-, h⟩ | ⟨hsets, heq⟩
          · exact hsettles h
          · -- The report is new, so nothing changes.
            obtain ⟨old, hold⟩ := hsets.2.2.2
            obtain ⟨report, hfind, hreport⟩ := Option.map_eq_some_iff.mp hold
            have hnew : report.status = .new := by
              by_contra hne
              exact hsafe ⟨hsets, old, hold, hreport ▸ hne⟩
            rw [updateFirst_eq_self hfind (by rw [← hnew])] at heq
            refine hsettles ?_
            rw [ReportRequest.handler, heq]
            exact .refl _

theorem reportStep_reopens {a : ReportAction} (h : Reopens st a)
    (hstep : reportStep st a = some st') :
    ∃ id, Closed st.reports id ∧ statusOf st'.reports id = some .new := by
  cases a with
  | others users => cases h
  | request r =>
      cases hstep
      cases r with
      | updateStatus user id status =>
          obtain ⟨hsets, hclosed⟩ := h
          rcases updateStatus_eval st user id status with ⟨hnot, -⟩ | ⟨-, heq⟩
          · exact absurd hsets hnot
          · have ⟨old, hold, _⟩ := hclosed
            refine ⟨id, hclosed, ?_⟩
            rw [ReportRequest.handler, heq, statusOf_updateFirst, if_pos rfl, hold, Option.map_some]
      | _ => cases h

/-- No report that is closed in the first store is new in the second. -/
def StaysClosed (st st' : Store) : Prop :=
  ∀ id, Closed st.reports id → statusOf st'.reports id ≠ some .new

/-- Reports stay closed and the limits are kept along a run exactly if no step of it
reopens a report. -/
theorem report_lifeCycle_iff {st₀ : Store} (h₀ : Limits st₀.reports) (as : List ReportAction) :
    (visits reportStep st₀ as).Pairwise StaysClosed ∧
        (∀ st ∈ visits reportStep st₀ as, Limits st.reports) ↔
      ∀ m ∈ moves reportStep st₀ as, ¬ Reopens m.1 m.2 := by
  constructor
  · rintro ⟨hpairwise, -⟩ m hm hreopens
    obtain ⟨st', hstep⟩ : ∃ st', reportStep m.1 m.2 = some st' := by
      cases m.2 <;> exact ⟨_, rfl⟩
    obtain ⟨id, hclosed, hnew⟩ := reportStep_reopens hreopens hstep
    exact rel_of_pairwise_visits hpairwise hm hstep id hclosed hnew
  · intro hsafe
    constructor
    · have hpairwise : (visits reportStep st₀ as).Pairwise
          fun st st' => ∀ id, Closed st.reports id → Closed st'.reports id :=
        pairwise_visits_of_forall_moves (fun st => Limits st.reports) (fun st a => ¬ Reopens st a)
          (fun h h' id hid => h' id (h id hid)) reportStep_safe h₀ as hsafe
      refine hpairwise.imp fun h id hid hnew => ?_
      obtain ⟨status, hstatus, hne⟩ := h id hid
      rw [hnew, Option.some.injEq] at hstatus
      exact hne hstatus.symm
    · exact forall_visits_of_forall_moves (fun st => Limits st.reports)
        (fun st a => ¬ Reopens st a) (fun h hc hstep => (reportStep_safe h hc hstep).1) h₀ as hsafe

/-- A member of the staff, and a player whom somebody has reported. -/
def reportStore : Store where
  users := [{ id := "m", name := "Staff", entitlements := [.staff] }, { id := "p", name := "Player" }]
  reports := [{ id := "r", reporterID := "u", reportedPlayerID := "p", status := .new }]

def staffMember : UserModel := { id := "m", name := "Staff", entitlements := [.staff] }

theorem reportStore_limits : Limits reportStore.reports where
  all userID := Nat.le_trans List.countP_le_length (by decide)
  player userID playerID := Nat.le_trans List.countP_le_length (by decide)

/-- The report is set to be in progress while it is new, and then rejected. -/
theorem report_lifeCycle_rejected :
    Limits reportStore.reports ∧
      (visits reportStep reportStore [.request (.updateStatus staffMember "r" .inProgress),
        .request (.reject staffMember "r")]).Pairwise StaysClosed := by
  refine ⟨reportStore_limits, ((report_lifeCycle_iff reportStore_limits _).mpr ?_).1⟩
  intro m hm
  simp only [moves, reportStep, List.mem_cons, List.not_mem_nil, or_false] at hm
  rcases hm with rfl | rfl
  · rintro ⟨-, status, hstatus, hne⟩
    have hnew : statusOf reportStore.reports "r" = some .new := by decide
    rw [hnew, Option.some.injEq] at hstatus
    exact hne hstatus.symm
  · exact fun h => h

/-- The report is rejected, and then set to be in progress. -/
def reopening : List ReportAction :=
  [.request (.reject staffMember "r"), .request (.updateStatus staffMember "r" .inProgress)]

/-- The rejected report is new again. -/
theorem reopening_not_closed :
    Limits reportStore.reports ∧ ¬ (visits reportStep reportStore reopening).Pairwise StaysClosed := by
  refine ⟨reportStore_limits, fun h => ?_⟩
  let rejected := ((rejectReport staffMember "r").eval Store.perform reportStore).1
  have hclosed : Closed rejected.reports "r" := ⟨.rejected, by decide, by decide⟩
  have hopen : statusOf ((updateStatus staffMember "r" .inProgress).eval Store.perform
      rejected).1.reports "r" = some .new := by decide
  have hmem : (rejected, .request (.updateStatus staffMember "r" .inProgress))
      ∈ moves reportStep reportStore reopening := List.mem_cons_of_mem _ List.mem_cons_self
  exact rel_of_pairwise_visits h hmem rfl "r" hclosed hopen

end Kyber.Api
