import IBotCoreApi.DrawnEnrollments
import IBotCoreApi.EmailTasks
import IBotCoreApi.Library.KeyedLists
import IBotCoreApi.RealtimeStreams
import IBotCoreApi.RecruiterIsolation
import IBotCoreApi.RecruiterReads

namespace IBotCoreApi
open Python Transactions Runs RecruiterRequests

namespace RecruiterDatabase

/-- What `_dispatch_assessment_cancellations` collects about an enrollment. -/
def candidateInfo (db : RecruiterDatabase) (record : RecruiterEnrollment) :
    Option CancellationPayload := do
  let candidate ← db.candidate? record.candidateId
  let assessment ← db.assessment? record.assessmentId
  guard (candidate.email ≠ "")
  return ⟨record.id, candidate.fullName, candidate.email, assessment.title, assessment.roleName⟩

def candidatesInfo (db : RecruiterDatabase) (assessmentId : Uuid) : List CancellationPayload :=
  (RecruiterReads.getAllByAssessment db assessmentId).filterMap db.candidateInfo

/-- The window of an assessment that is not closed has ended. -/
def elapsed (clock : Clock) (a : Assessment) : Bool :=
  a.status != .closed && decide (a.windowEnd ≤ clock.dbNow)

def setAssessments (db : RecruiterDatabase) (p : Assessment → Bool) (u : AssessmentUpdate) :
    RecruiterDatabase :=
  { db with assessments := Tables.updateWhere p u db.assessments }

/-- `_close_expired_assessments`: the rows that the statement returns, as it publishes them. -/
def closeExpired (db : RecruiterDatabase) (clock : Clock) :
    List DashboardUpdate × RecruiterDatabase :=
  ((db.assessments.filter (elapsed clock)).map fun a =>
      .assessmentExpired a.recruiterId a.id a.title a.roleName,
    db.setAssessments (elapsed clock) (AssessmentRepository.withStatus clock .closed))

def assessmentStatus? (db : RecruiterDatabase) (assessmentId : Uuid) : Option AssessmentStatus :=
  (db.assessment? assessmentId).map (·.status)

end RecruiterDatabase

/-- The rows, and the cancellations that are queued and not acknowledged. -/
structure ClosingSystem where
  db : RecruiterDatabase
  dispatches : List Uuid

inductive ClosingEvent where
  /-- A recruiter's request, whether the broker takes a cancellation, and whether its commit
  raises. -/
  | request (recruiterId : Uuid) (request : RecruiterRequest) (enqueues : Bool)
      (commit : Option Unit)
  | sweep (clock : Clock) (commits : Bool)
  /-- The worker activates an assessment, or closes one on failure. -/
  | activate (clock : Clock) (assessmentId : Uuid) (jdText : String)
      (jdAnalysis interviewPlan : Json)
  | closeOnFailure (clock : Clock) (assessmentId : Uuid)
  /-- A cancellation is delivered, perhaps again: its rows may not be read, and the broker takes the
  first of its e-mails. -/
  | dispatch (message : ℕ) (reads : Bool) (enqueued : ℕ) (acknowledged : Bool)

inductive ClosingResult where
  | quiet
  /-- The cancellations that a request has queued. -/
  | requested (started : List Uuid)
  | expired (updates : List DashboardUpdate)
  /-- The cancellation e-mails that are queued. -/
  | told (emails : List CancellationPayload)

def cancellationOf : RecruiterEffect → Option Uuid
  | .assessmentCancellations assessmentId => some assessmentId
  | _ => none

section Machine

variable [Runtime]

def closingSystem : Machine ClosingSystem ClosingEvent ClosingResult := fun s event =>
  match event with
  | .request recruiterId request enqueues commit =>
    let program := request.program recruiterId
    let started := (program.emitted recruiterEngine s.db).filterMap cancellationOf
    -- a broker that refuses makes the request raise before its statement
    if !enqueues && !started.isEmpty then (.requested [], s)
    else
      let scope := asyncSessionScope recruiterEngine commit (fun _ => none) program s.db
      (.requested started, ⟨scope.database, s.dispatches ++ started⟩)
  | .sweep clock commits =>
    if !commits then (.quiet, s)
    else
      let (updates, db) := s.db.closeExpired clock
      (.expired updates, { s with db := db })
  | .activate clock assessmentId jdText jdAnalysis interviewPlan =>
    let u := AssessmentRepository.activated clock jdText jdAnalysis interviewPlan
    (.quiet, { s with db := s.db.setAssessments (·.id == assessmentId) u })
  | .closeOnFailure clock assessmentId =>
    let u := AssessmentRepository.withStatus clock .closed
    (.quiet, { s with db := s.db.setAssessments (·.id == assessmentId) u })
  | .dispatch message reads enqueued acknowledged =>
    match s.dispatches[message]? with
    | none => (.quiet, s)
    | some assessmentId =>
      let emails := if reads then (s.db.candidatesInfo assessmentId).take enqueued else []
      (.told emails,
        if acknowledged then { s with dispatches := s.dispatches.eraseIdx message } else s)

end Machine

/-- The assessments whose closing a step tells. -/
def ClosingResult.announced : ClosingResult → List Uuid
  | requested started => started
  | expired updates => updates.filterMap fun
    | .assessmentExpired _ assessmentId _ _ => some assessmentId
    | _ => none
  | _ => []

namespace ClosingEvent

/-- Requests and sweeps tell the closings that they cause. -/
def Tells : ClosingEvent → Prop
  | request .. | sweep .. => True
  | _ => False

def Commits : ClosingEvent → Prop
  | request _ _ _ commit => commit = none
  | _ => True

end ClosingEvent

def Closes (assessmentId : Uuid) (db after : RecruiterDatabase) : Prop :=
  (∃ status, db.assessmentStatus? assessmentId = some status ∧ status ≠ .closed) ∧
    after.assessmentStatus? assessmentId = some .closed

/-- A committed request of its owner takes the assessment from closed to active. -/
structure Reopens (assessmentId : Uuid)
    (t : Transition ClosingSystem ClosingEvent ClosingResult) : Prop where
  closed : t.pre.db.assessmentStatus? assessmentId = some .closed
  active : t.post.db.assessmentStatus? assessmentId = some .active
  asked : ∃ recruiterId clock enqueues a,
    t.input = .request recruiterId (.updateStatus clock assessmentId .active) enqueues none ∧
    t.pre.db.assessment? assessmentId = some a ∧ a.recruiterId = recruiterId

def AsksToClose (assessmentId : Uuid)
    (t : Transition ClosingSystem ClosingEvent ClosingResult) : Prop :=
  ∃ recruiterId clock enqueues commit a,
    t.input = .request recruiterId (.updateStatus clock assessmentId .closed) enqueues commit ∧
    t.pre.db.assessment? assessmentId = some a ∧ a.recruiterId = recruiterId ∧ a.status ≠ .closed

/-- Each e-mail tells the candidate of another enrollment in the assessment. -/
structure TellsCandidates (db : RecruiterDatabase) (assessmentId : Uuid)
    (emails : List CancellationPayload) : Prop where
  nodup : (emails.map (·.candidateAssessmentId)).Nodup
  enrolled : ∀ email ∈ emails, ∃ e ∈ db.enrollments, e.assessmentId = assessmentId ∧
    ∃ c a, db.candidate? e.candidateId = some c ∧ db.assessment? assessmentId = some a ∧
      c.email ≠ "" ∧ email = ⟨e.id, c.fullName, c.email, a.title, a.roleName⟩

section Rows

variable {db after : RecruiterDatabase} {id : Uuid}

theorem mem_getAllByAssessment {e : RecruiterEnrollment} :
    e ∈ RecruiterReads.getAllByAssessment db id ↔ e ∈ db.enrollments ∧ e.assessmentId = id := by
  unfold RecruiterReads.getAllByAssessment
  rw [Sorting.mem_sortedDown, List.mem_filter, beq_iff_eq]

theorem candidateInfo_eq_some {record : RecruiterEnrollment} {email : CancellationPayload} :
    db.candidateInfo record = some email ↔ ∃ c a, db.candidate? record.candidateId = some c ∧
      db.assessment? record.assessmentId = some a ∧ c.email ≠ "" ∧
      email = ⟨record.id, c.fullName, c.email, a.title, a.roleName⟩ := by
  unfold RecruiterDatabase.candidateInfo
  simp only [Option.bind_eq_bind, Option.bind_eq_some_iff]
  constructor
  · rintro ⟨c, hc, a, ha, _, hguard, hemail⟩
    exact ⟨c, a, hc, ha, by simpa using hguard, (Option.some.inj hemail).symm⟩
  · rintro ⟨c, a, hc, ha, hguard, rfl⟩
    exact ⟨c, hc, a, ha, (), by simpa using hguard, rfl⟩

theorem candidatesInfo_tells (hkeyed : db.Keyed) {emails : List CancellationPayload}
    (h : emails <+: db.candidatesInfo id) : TellsCandidates db id emails where
  nodup := by
    have hkey : ∀ record email, db.candidateInfo record = some email →
        email.candidateAssessmentId = record.id := by
      intro record email hinfo
      obtain ⟨c, a, _, _, _, rfl⟩ := candidateInfo_eq_some.mp hinfo
      rfl
    have hids : ((db.candidatesInfo id).map (·.candidateAssessmentId)).Sublist
        ((RecruiterReads.getAllByAssessment db id).map (·.id)) :=
      KeyedLists.map_filterMap_sublist hkey _
    have hnodup : ((RecruiterReads.getAllByAssessment db id).map (·.id)).Nodup :=
      ((Sorting.sortedDown_perm _ _).map _).nodup_iff.mpr
        (hkeyed.enrollmentIds.sublist ((List.filter_sublist).map _))
    exact (hnodup.sublist hids).sublist (h.sublist.map _)
  enrolled := by
    intro email hemail
    obtain ⟨e, he, hinfo⟩ := List.mem_filterMap.mp (h.subset hemail)
    obtain ⟨hmem, hassessment⟩ := mem_getAllByAssessment.mp he
    obtain ⟨c, a, hc, ha, hguard, rfl⟩ := candidateInfo_eq_some.mp hinfo
    exact ⟨e, hmem, hassessment, c, a, hc, hassessment ▸ ha, hguard, rfl⟩

/-- The statuses are kept, and assessments may be new. -/
def StatusesKept (db after : RecruiterDatabase) : Prop :=
  ∀ id status, db.assessmentStatus? id = some status → after.assessmentStatus? id = some status

theorem StatusesKept.apply {D : Uuid → Prop} {C : Prop} {w : RecruiterWrite}
    (hw : DrawnWrite D C False w) (h : StatusesKept db after) :
    StatusesKept db (RecruiterWrite.apply after w) := by
  cases w with
  | insertAssessment assessment =>
    intro id status hstatus
    obtain ⟨a, ha, rfl⟩ := Option.map_eq_some_iff.mp (h id status hstatus)
    exact Option.map_eq_some_iff.mpr ⟨a, Tables.lookup_append_of_some ha, rfl⟩
  | updateStatus => exact hw.elim
  | deleteEnrollment enrollmentId =>
    cases hfound : after.enrollment? enrollmentId with
    | none =>
      rw [apply_deleteEnrollment_none hfound]
      exact h
    | some e =>
      rw [apply_deleteEnrollment_some hfound]
      exact h
  | insertEnrollment | decide | insertCandidate | renameCandidate | deleteCandidate
  | recordEvent => exact h

theorem StatusesKept.not_closes (h : StatusesKept db after) : ¬ Closes id db after := by
  rintro ⟨⟨status, hopen, hne⟩, hclosed⟩
  rw [h id status hopen] at hclosed
  exact hne (Option.some.inj hclosed)

theorem assessment?_setAssessments (p : Assessment → Bool) (u : AssessmentUpdate) :
    (db.setAssessments p u).assessment? id = (db.assessment? id).map (u.onRow p) :=
  Tables.lookup_updateWhere u Prod.fst id

theorem RecruiterDatabase.Keyed.setAssessments (h : db.Keyed) (p : Assessment → Bool)
    (u : AssessmentUpdate) : (db.setAssessments p u).Keyed where
  assessmentIds := by
    have hids : (Tables.updateWhere p u db.assessments).map (·.id) = db.assessments.map (·.id) :=
      Tables.map_proj_updateWhere u Prod.fst db.assessments
    exact hids ▸ h.assessmentIds
  candidateIds := h.candidateIds
  emails := h.emails
  enrollmentIds := h.enrollmentIds
  candidates := h.candidates

/-- A request to set a status raises, or sets it and queues the cancellation of an open assessment
that it closes. -/
theorem closing_cases (clock : Clock) (assessmentId recruiterId : Uuid)
    (newStatus : StatusUpdate) (db : RecruiterDatabase) :
    let p := updateStatus clock assessmentId recruiterId newStatus
    (∃ error, p.perform recruiterEngine db [] = .error error ∧ p.emitted recruiterEngine db = []) ∨
      ∃ a response, db.assessment? assessmentId = some a ∧ a.recruiterId = recruiterId ∧
        p.perform recruiterEngine db [] = .ok (response,
          RecruiterWrite.apply db (.updateStatus clock assessmentId newStatus.status), []) ∧
        p.emitted recruiterEngine db =
          if a.status ≠ .closed ∧ newStatus = .closed then [.assessmentCancellations assessmentId]
          else [] := by
  intro p
  simp only [p, updateStatus, getAssessmentById]
  rw [Program.perform_select, Program.emitted_select]
  cases hfound : db.assessment? assessmentId with
  | none => exact .inl ⟨_, rfl, rfl⟩
  | some a =>
    dsimp only
    by_cases howner : a.recruiterId ≠ recruiterId
    · rw [if_pos howner]
      exact .inl ⟨_, rfl, rfl⟩
    · rw [if_neg howner]
      refine .inr ⟨a, .assessment ((AssessmentRepository.withStatus clock newStatus.status).set a),
        rfl, not_not.mp howner, ?_⟩
      split_ifs
      · refine ⟨?_, rfl⟩
        rw [Program.perform]
        exact Program.perform_write_eq_ok.mpr ⟨rfl, rfl⟩
      · exact ⟨Program.perform_write_eq_ok.mpr ⟨rfl, rfl⟩, rfl⟩

end Rows

section Steps

variable [Runtime] {s : ClosingSystem} {id : Uuid}

/-- A request queues nothing and keeps the statuses, or sets one. -/
theorem request_cases (recruiterId : Uuid) (request : RecruiterRequest) (enqueues : Bool)
    (commit : Option Unit) :
    let t := Transition.of closingSystem s (.request recruiterId request enqueues commit)
    (t.output.announced = [] ∧ StatusesKept s.db t.post.db) ∨
      ∃ clock assessmentId newStatus a, request = .updateStatus clock assessmentId newStatus ∧
        s.db.assessment? assessmentId = some a ∧ a.recruiterId = recruiterId ∧
        t.output.announced =
          (if a.status ≠ .closed ∧ newStatus = .closed then [assessmentId] else []) ∧
        t.post.db =
          if commit = none then
            RecruiterWrite.apply s.db (.updateStatus clock assessmentId newStatus.status)
          else s.db := by
  intro t
  let p := request.program recruiterId
  let started := (p.emitted recruiterEngine s.db).filterMap cancellationOf
  by_cases hrefused : (!enqueues && !started.isEmpty) = true
  · have ht : closingSystem s (.request recruiterId request enqueues commit) =
        (.requested [], s) := if_pos hrefused
    refine .inl ?_
    simp only [t, Transition.of, ht]
    exact ⟨rfl, fun _ _ h => h⟩
  · let scope : ScopeOutcome _ _ _ _ Unit :=
      asyncSessionScope recruiterEngine commit (fun _ => none) p s.db
    have ht : closingSystem s (.request recruiterId request enqueues commit) =
        (.requested started, ⟨scope.database, s.dispatches ++ started⟩) := if_neg hrefused
    simp only [t, Transition.of, ht, ClosingResult.announced]
    by_cases hsets : request.SetsStatus
    · cases request with
      | updateStatus clock assessmentId newStatus =>
        rcases closing_cases clock assessmentId recruiterId newStatus s.db with
          ⟨error, hrun, hemitted⟩ | ⟨a, response, hfound, howner, hrun, hemitted⟩
        · have hsame : scope.database = s.db := by
            simp only [scope, asyncSessionScope, p, RecruiterRequest.program, hrun]
          have hnone : started = [] := congrArg (List.filterMap cancellationOf) hemitted
          rw [hsame]
          exact .inl ⟨hnone, fun _ _ h => h⟩
        · refine .inr ⟨clock, assessmentId, newStatus, a, rfl, hfound, howner, ?_, ?_⟩
          · have hstarted : started = _ := congrArg (List.filterMap cancellationOf) hemitted
            rw [hstarted]
            split_ifs
            · rfl
            · rfl
          · cases commit with
            | none => exact (asyncSessionScope_commits (fun _ => none) hrun).1
            | some error => simp [scope, asyncSessionScope, p, RecruiterRequest.program, hrun]
      | _ => exact hsets.elim
    · obtain ⟨R, honly⟩ := request.exists_only recruiterId
      have hnone : started = [] := by
        rw [List.filterMap_eq_nil_iff]
        intro effect heffect
        have hkind := honly.emitted s.db effect heffect
        cases effect with
        | assessmentCancellations assessmentId => exact absurd hkind hsets
        | _ => rfl
      refine .inl ⟨hnone, ?_⟩
      rcases asyncSessionScope_cases recruiterEngine p s.db commit (fun _ => none) with
        ⟨hsame, _⟩ | ⟨response, registered, hrun, _⟩
      · exact hsame ▸ fun _ _ h => h
      · refine (honly.perform (StatusesKept s.db) ?_ hrun (fun _ _ h => h) (by simp)).1
        intro after w hw _ hkept
        refine hkept.apply (D := request.Draws) (C := request.Decides) ?_
        cases w with
        | updateStatus => exact absurd hw hsets
        | _ => exact hw

omit [Runtime] in
theorem statusOf_setAssessments {db : RecruiterDatabase} (p : Assessment → Bool)
    (u : AssessmentUpdate) :
    (db.setAssessments p u).assessmentStatus? id =
      (db.assessment? id).map fun a => (u.onRow p a).status := by
  unfold RecruiterDatabase.assessmentStatus?
  rw [assessment?_setAssessments, Option.map_map]
  rfl

omit [Runtime] in
theorem apply_updateStatus (clock : Clock) (assessmentId : Uuid) (status : AssessmentStatus)
    (db : RecruiterDatabase) : RecruiterWrite.apply db (.updateStatus clock assessmentId status) =
      db.setAssessments (·.id == assessmentId) (AssessmentRepository.withStatus clock status) := rfl

omit [Runtime] in
theorem status_withStatus (clock : Clock) (status : AssessmentStatus) (a : Assessment) :
    ((AssessmentRepository.withStatus clock status).onRow (·.id == id) a).status =
      if a.id = id then status else a.status := by
  unfold Tables.Update.onRow
  by_cases hid : a.id = id
  · rw [if_pos hid, if_pos (beq_iff_eq.mpr hid)]
    rfl
  · rw [if_neg hid, if_neg fun h => hid (beq_iff_eq.mp h)]

omit [Runtime] in
theorem closes_setAssessments_iff {db : RecruiterDatabase} {p : Assessment → Bool}
    {u : AssessmentUpdate} : Closes id db (db.setAssessments p u) ↔
      ∃ a, db.assessment? id = some a ∧ a.status ≠ .closed ∧ (u.onRow p a).status = .closed := by
  unfold Closes
  rw [statusOf_setAssessments]
  constructor
  · rintro ⟨⟨status, hopen, hne⟩, hclosed⟩
    obtain ⟨a, ha, rfl⟩ := Option.map_eq_some_iff.mp hopen
    rw [ha] at hclosed
    exact ⟨a, ha, hne, Option.some.inj hclosed⟩
  · rintro ⟨a, ha, hne, hclosed⟩
    refine ⟨⟨a.status, congrArg (Option.map _) ha, hne⟩, ?_⟩
    rw [ha, Option.map_some, hclosed]

theorem keyed_step (h : s.db.Keyed) (event : ClosingEvent) :
    (closingSystem s event).2.db.Keyed := by
  cases event with
  | request recruiterId request enqueues commit =>
    simp only [closingSystem]
    split
    · exact h
    · rcases asyncSessionScope_cases recruiterEngine (request.program recruiterId) s.db commit
        (fun _ => none) with ⟨hsame, _⟩ | ⟨response, registered, hrun, _⟩
      · dsimp only
        rw [hsame]
        exact h
      · exact Program.perform_invariant RecruiterDatabase.Keyed (fun _ _ hw hs => hs.apply hw)
          hrun h
  | sweep clock commits =>
    simp only [closingSystem]
    split
    · exact h
    · exact h.setAssessments _ _
  | activate clock assessmentId jdText jdAnalysis interviewPlan => exact h.setAssessments _ _
  | closeOnFailure clock assessmentId => exact h.setAssessments _ _
  | dispatch message reads enqueued acknowledged =>
    simp only [closingSystem]
    split
    · exact h
    · dsimp only
      split
      · exact h
      · exact h

theorem announced_sweep (clock : Clock) :
    (closingSystem s (.sweep clock true)).1.announced =
      (s.db.assessments.filter (RecruiterDatabase.elapsed clock)).map (·.id) := by
  simp [closingSystem, RecruiterDatabase.closeExpired, ClosingResult.announced]

theorem open_of_announced (hkeyed : s.db.Keyed) {event : ClosingEvent}
    (h : id ∈ (closingSystem s event).1.announced) :
    ∃ status, s.db.assessmentStatus? id = some status ∧ status ≠ .closed := by
  cases event with
  | request recruiterId request enqueues commit =>
    rcases request_cases (s := s) recruiterId request enqueues commit with
      ⟨hnone, _⟩ | ⟨clock, assessmentId, newStatus, a, _, hfound, _, hannounced, _⟩
    · have hempty : (closingSystem s _).1.announced = [] := hnone
      rw [hempty] at h
      cases h
    · have hids : (closingSystem s _).1.announced = _ := hannounced
      rw [hids] at h
      split_ifs at h with hopen
      · obtain rfl := List.mem_singleton.mp h
        exact ⟨a.status, congrArg (Option.map _) hfound, hopen.1⟩
      · cases h
  | sweep clock commits =>
    cases commits with
    | false => cases h
    | true =>
      rw [announced_sweep] at h
      obtain ⟨a, ha, rfl⟩ := List.mem_map.mp h
      obtain ⟨hmem, helapsed⟩ := List.mem_filter.mp ha
      have hlookup : s.db.assessment? a.id = some a :=
        Tables.lookup_of_mem hkeyed.assessmentIds hmem
      refine ⟨a.status, congrArg (Option.map _) hlookup, ?_⟩
      simp only [RecruiterDatabase.elapsed, Bool.and_eq_true, bne_iff_ne] at helapsed
      exact helapsed.1
  | activate | closeOnFailure => cases h
  | dispatch message reads enqueued acknowledged =>
    simp only [closingSystem] at h
    split at h
    · cases h
    · cases h

theorem nodup_announced (hkeyed : s.db.Keyed) (event : ClosingEvent) :
    (closingSystem s event).1.announced.Nodup := by
  cases event with
  | request recruiterId request enqueues commit =>
    rcases request_cases (s := s) recruiterId request enqueues commit with
      ⟨hnone, _⟩ | ⟨_, _, _, _, _, _, _, hannounced, _⟩
    · exact hnone ▸ List.nodup_nil
    · refine hannounced ▸ ?_
      split
      · exact List.nodup_singleton _
      · exact List.nodup_nil
  | sweep clock commits =>
    cases commits with
    | false => exact List.nodup_nil
    | true =>
      rw [announced_sweep]
      exact hkeyed.assessmentIds.sublist ((List.filter_sublist).map _)
  | activate | closeOnFailure => exact List.nodup_nil
  | dispatch message reads enqueued acknowledged =>
    simp only [closingSystem]
    split
    · exact List.nodup_nil
    · exact List.nodup_nil

/-- Only a request of its owner takes an assessment out of the closed ones. -/
theorem reopens_step {event : ClosingEvent} (hclosed : s.db.assessmentStatus? id = some .closed)
    (hleaves : (closingSystem s event).2.db.assessmentStatus? id ≠ some .closed) :
    Reopens id (Transition.of closingSystem s event) := by
  obtain ⟨a, ha, hstatus⟩ := Option.map_eq_some_iff.mp hclosed
  -- no update below sets a closed row to another status
  have hset : ∀ (p : Assessment → Bool) (u : AssessmentUpdate), (u.set a).status = .closed →
      (s.db.setAssessments p u).assessmentStatus? id = some .closed := by
    intro p u hu
    rw [statusOf_setAssessments, ha, Option.map_some]
    unfold Tables.Update.onRow
    split_ifs
    · rw [hu]
    · rw [hstatus]
  cases event with
  | request recruiterId request enqueues commit =>
    rcases request_cases (s := s) recruiterId request enqueues commit with
      ⟨_, hkept⟩ | ⟨clock, assessmentId, newStatus, a', rfl, hfound, howner, _, hpost⟩
    · exact absurd (hkept id .closed hclosed) hleaves
    · have hdb : (closingSystem s _).2.db = _ := hpost
      rw [hdb] at hleaves
      split_ifs at hleaves with hcommit
      · rw [apply_updateStatus] at hdb hleaves
        cases newStatus with
        | closed => exact absurd (hset _ _ rfl) hleaves
        | active =>
          have hid : a.id = assessmentId := by
            by_contra hother
            refine hleaves ?_
            rw [statusOf_setAssessments, ha, Option.map_some, status_withStatus, if_neg hother,
              hstatus]
          have hactive : (s.db.setAssessments (·.id == assessmentId)
              (AssessmentRepository.withStatus clock .active)).assessmentStatus? id =
                some .active := by
            rw [statusOf_setAssessments, ha, Option.map_some, status_withStatus, if_pos hid]
          obtain rfl : assessmentId = id := hid.symm.trans (Tables.lookup_key ha)
          refine ⟨hclosed, ?_, recruiterId, clock, enqueues, a', ?_, hfound, howner⟩
          · exact (congrArg (·.assessmentStatus? assessmentId) (hdb.trans (if_pos hcommit))).trans
              hactive
          · rw [hcommit]
            rfl
      · exact absurd hclosed hleaves
  | sweep clock commits =>
    cases commits with
    | false => exact absurd hclosed hleaves
    | true => exact absurd (hset _ _ rfl) hleaves
  | activate clock assessmentId jdText jdAnalysis interviewPlan =>
    exact absurd (hset _ _ (if_pos hstatus)) hleaves
  | closeOnFailure clock assessmentId => exact absurd (hset _ _ rfl) hleaves
  | dispatch message reads enqueued acknowledged =>
    refine absurd ?_ hleaves
    simp only [closingSystem]
    split
    · exact hclosed
    · dsimp only
      split
      · exact hclosed
      · exact hclosed

/-- A committed request tells exactly the closing that it causes. -/
theorem announced_request_iff (recruiterId : Uuid) (request : RecruiterRequest) (enqueues : Bool) :
    let t := Transition.of closingSystem s (.request recruiterId request enqueues none)
    id ∈ t.output.announced ↔ Closes id s.db t.post.db := by
  intro t
  rcases request_cases (s := s) recruiterId request enqueues none with
    ⟨hnone, hkept⟩ | ⟨clock, assessmentId, newStatus, a, hrequest, hfound, _, hannounced, hpost⟩
  · have hempty : t.output.announced = [] := hnone
    rw [hempty]
    exact ⟨fun h => (List.not_mem_nil h).elim, fun h => absurd h hkept.not_closes⟩
  · have hids : t.output.announced = _ := hannounced
    have hdb : t.post.db = _ := hpost
    rw [hids, hdb, if_pos rfl, apply_updateStatus, closes_setAssessments_iff]
    constructor
    · intro h
      split_ifs at h with hopen
      · obtain rfl := List.mem_singleton.mp h
        obtain ⟨hne, rfl⟩ := hopen
        refine ⟨a, hfound, hne, ?_⟩
        rw [status_withStatus, if_pos (Tables.lookup_key hfound)]
        rfl
      · cases h
    · rintro ⟨a', ha', hne, hstatus⟩
      rw [status_withStatus] at hstatus
      split_ifs at hstatus with hid
      · obtain rfl : id = assessmentId := (Tables.lookup_key ha').symm.trans hid
        obtain rfl := Option.some.inj (ha'.symm.trans hfound)
        cases newStatus with
        | active => cases hstatus
        | closed =>
          rw [if_pos ⟨hne, rfl⟩]
          exact List.mem_singleton_self id
      · exact absurd hstatus hne

theorem announced_sweep_iff (hkeyed : s.db.Keyed) (clock : Clock) :
    let t := Transition.of closingSystem s (.sweep clock true)
    id ∈ t.output.announced ↔ Closes id s.db t.post.db := by
  intro t
  have hids : t.output.announced = _ := announced_sweep clock
  have hdb : t.post.db = s.db.setAssessments
      (RecruiterDatabase.elapsed clock) (AssessmentRepository.withStatus clock .closed) := rfl
  rw [hids, hdb, closes_setAssessments_iff]
  constructor
  · intro h
    obtain ⟨a, ha, rfl⟩ := List.mem_map.mp h
    obtain ⟨hmem, helapsed⟩ := List.mem_filter.mp ha
    have hlookup : s.db.assessment? a.id = some a :=
      Tables.lookup_of_mem hkeyed.assessmentIds hmem
    have hopen : a.status ≠ .closed := by
      simp only [RecruiterDatabase.elapsed, Bool.and_eq_true, bne_iff_ne] at helapsed
      exact helapsed.1
    refine ⟨a, hlookup, hopen, ?_⟩
    rw [Tables.Update.onRow_of_true helapsed]
    rfl
  · rintro ⟨a, ha, hne, hstatus⟩
    refine List.mem_map.mpr ⟨a, List.mem_filter.mpr ⟨Tables.lookup_mem ha, ?_⟩,
      Tables.lookup_key ha⟩
    by_contra helapsed
    rw [Tables.Update.onRow_of_false (by simpa using helapsed)] at hstatus
    exact hne hstatus

theorem announced_iff (hkeyed : s.db.Keyed) {event : ClosingEvent} (hcommits : event.Commits) :
    id ∈ (closingSystem s event).1.announced ↔
      event.Tells ∧ Closes id s.db (closingSystem s event).2.db := by
  cases event with
  | request recruiterId request enqueues commit =>
    obtain rfl : commit = none := hcommits
    have htold : id ∈ (closingSystem s (.request recruiterId request enqueues none)).1.announced ↔
        Closes id s.db (closingSystem s (.request recruiterId request enqueues none)).2.db :=
      announced_request_iff recruiterId request enqueues
    exact htold.trans ⟨fun h => ⟨trivial, h⟩, fun h => h.2⟩
  | sweep clock commits =>
    cases commits with
    | false =>
      have hstays : ¬ Closes id s.db s.db := StatusesKept.not_closes fun _ _ h => h
      exact ⟨fun h => (List.not_mem_nil h).elim, fun h => absurd h.2 hstays⟩
    | true =>
      exact (announced_sweep_iff hkeyed clock).trans ⟨fun h => ⟨trivial, h⟩, fun h => h.2⟩
  | activate | closeOnFailure =>
    exact ⟨fun h => (List.not_mem_nil h).elim, fun h => h.1.elim⟩
  | dispatch message reads enqueued acknowledged =>
    refine ⟨fun h => ?_, fun h => h.1.elim⟩
    simp only [closingSystem] at h
    split at h
    · cases h
    · cases h

theorem asked_of_queued {event : ClosingEvent}
    (h : id ∈ (closingSystem s event).2.dispatches) :
    id ∈ s.dispatches ∨ AsksToClose id (Transition.of closingSystem s event) := by
  cases event with
  | request recruiterId request enqueues commit =>
    have hqueued : (closingSystem s (.request recruiterId request enqueues commit)).2.dispatches =
        s.dispatches ++
          (closingSystem s (.request recruiterId request enqueues commit)).1.announced := by
      simp only [closingSystem]
      split
      · exact (List.append_nil _).symm
      · rfl
    rw [hqueued] at h
    rcases List.mem_append.mp h with h | h
    · exact .inl h
    · rcases request_cases (s := s) recruiterId request enqueues commit with
        ⟨hnone, _⟩ | ⟨clock, assessmentId, newStatus, a, hrequest, hfound, howner, hannounced, _⟩
      · have hempty : (closingSystem s _).1.announced = [] := hnone
        rw [hempty] at h
        cases h
      · have hids : (closingSystem s _).1.announced = _ := hannounced
        rw [hids] at h
        split_ifs at h with hopen
        · obtain rfl := List.mem_singleton.mp h
          obtain ⟨hne, rfl⟩ := hopen
          exact .inr ⟨recruiterId, clock, enqueues, commit, a, hrequest ▸ rfl, hfound, howner, hne⟩
        · cases h
  | sweep clock commits =>
    cases commits with
    | false => exact .inl h
    | true => exact .inl h
  | activate clock assessmentId jdText jdAnalysis interviewPlan => exact .inl h
  | closeOnFailure clock assessmentId => exact .inl h
  | dispatch message reads enqueued acknowledged =>
    refine .inl ?_
    simp only [closingSystem] at h
    split at h
    · exact h
    · dsimp only at h
      split at h
      · exact List.mem_of_mem_eraseIdx h
      · exact h

end Steps

section Runs

variable [Runtime] {s : ClosingSystem} {id : Uuid}

theorem keyed_exec (h : s.db.Keyed) (events : List ClosingEvent) :
    (exec closingSystem s events).db.Keyed := by
  have hstep : ∀ (s : ClosingSystem) (event : ClosingEvent), True → s.db.Keyed →
      (closingSystem s event).2.db.Keyed := fun _ event _ hs => keyed_step hs event
  exact exec_invariant hstep (fun _ _ => trivial) h

/-- An assessment that a run takes out of the closed ones is reopened on the way. -/
theorem reopened_exec (hclosed : s.db.assessmentStatus? id = some .closed)
    {events : List ClosingEvent}
    (hopen : (exec closingSystem s events).db.assessmentStatus? id ≠ some .closed) :
    ∃ t ∈ trace closingSystem s events, Reopens id t := by
  obtain ⟨t, ht, hpre, hpost⟩ := exists_begin
    (P := fun s : ClosingSystem => s.db.assessmentStatus? id ≠ some .closed)
    (fun hne => hne hclosed) hopen
  obtain ⟨before, event, after, _, rfl⟩ := mem_trace ht
  exact ⟨_, ht, reopens_step (not_not.mp hpre) hpost⟩

theorem asked_exec {events : List ClosingEvent} (hnone : s.dispatches = [])
    (h : id ∈ (exec closingSystem s events).dispatches) :
    ∃ t ∈ trace closingSystem s events, AsksToClose id t := by
  induction events using List.reverseRecOn with
  | nil =>
    rw [exec_nil, hnone] at h
    cases h
  | append_singleton events event ih =>
    rw [exec_snoc] at h
    rw [trace_snoc]
    rcases asked_of_queued h with hold | hasks
    · obtain ⟨t, ht, hasks⟩ := ih hold
      exact ⟨t, List.mem_append_left _ ht, hasks⟩
    · exact ⟨_, List.mem_append_right _ (List.mem_singleton_self _), hasks⟩

end Runs

section Main

variable [Runtime]

end Main

section Samples

def ownerSets (status : StatusUpdate) : ClosingEvent :=
  .request 2 (.updateStatus ⟨220, 220⟩ 20 status) true none

def reopening : List ClosingEvent := [ownerSets .active, .sweep ⟨220, 220⟩ true]

end Samples

end IBotCoreApi
