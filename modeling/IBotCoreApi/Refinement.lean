import IBotCoreApi.Library.Runs
import IBotCoreApi.ViolationRequests

namespace IBotCoreApi
open Python Outcomes CandidateSessionRepository InterviewSessionRepository
  AssessmentContextRepository EvaluationRepository InternalInterview

variable {db db' : Database} {clock : Clock} {id : Uuid} {e e' : Enrollment}

namespace Enrollment

def TurnStep (sessionId : Uuid) (e e' : Enrollment) : Prop :=
  e' = e ∨ ∃ ca s s', e = ⟨ca, some s⟩ ∧ s.id = sessionId ∧ TurnPersisted s s' ∧ e' = ⟨ca, some s'⟩

theorem TurnStep.trans {sessionId : Uuid} {e e' e'' : Enrollment} (h : TurnStep sessionId e e')
    (h' : TurnStep sessionId e' e'') : TurnStep sessionId e e'' := by
  rcases h with rfl | ⟨ca, s, s', rfl, hid, hturn, rfl⟩
  · exact h'
  rcases h' with rfl | ⟨_, _, s'', heq, _, hturn', rfl⟩
  · exact .inr ⟨ca, s, s', rfl, hid, hturn, rfl⟩
  · cases heq
    exact .inr ⟨ca, s, s'', rfl, hid, hturn.trans hturn', rfl⟩

end Enrollment

open Enrollment

/-- A well-formed database in which every enrollment has gone through turns of one session. -/
structure AfterTurns (sessionId : Uuid) (before db : Database) : Prop where
  wellFormed : db.WellFormed
  keys : db.enrollmentKeys = before.enrollmentKeys
  turns : ∀ id e, before.enrollment? id = some e →
    ∃ e', db.enrollment? id = some e' ∧ TurnStep sessionId e e'

theorem AfterTurns.refl {sessionId : Uuid} (h : db.WellFormed) : AfterTurns sessionId db db :=
  ⟨h, rfl, fun _ e he => ⟨e, he, .inl rfl⟩⟩

theorem AfterTurns.updateSessions {sessionId : Uuid} {before : Database} {u : SessionUpdate}
    (h : AfterTurns sessionId before db)
    (htoken : ∀ s, (u.set s).sessionToken = s.sessionToken)
    (hturn : ∀ s, db.session? sessionId = some s → TurnPersisted s (u.set s)) :
    AfterTurns sessionId before (db.updateSessions (·.id == sessionId) u) := by
  refine ⟨h.wellFormed.updateSessions_of_token htoken, h.keys, fun id e he => ?_⟩
  obtain ⟨⟨ca, o⟩, he', hstep⟩ := h.turns id e he
  by_cases hid : ∃ s, o = some s ∧ s.id = sessionId
  · obtain ⟨s, rfl, hid⟩ := hid
    refine ⟨_, enrollment?_updateSessions_of_eq he' (by simpa using hid), hstep.trans ?_⟩
    have hs := h.wellFormed.session?_of_mem (enrollment_session_mem he' rfl)
    exact .inr ⟨ca, s, u.set s, rfl, hid, hturn s (hid ▸ hs), rfl⟩
  · refine ⟨⟨ca, o⟩, ?_, hstep⟩
    rw [enrollment?_updateSessions, he', Option.map_some, map_onRow_of_not]
    intro s hs
    simpa using fun heq => hid ⟨s, hs, heq⟩

section Turn

variable [Runtime] {sessionId : Uuid} {before : Database}

theorem appendTranscriptTurn_afterTurns {turn : Json.Entries} {appended : Bool}
    (hrun : appendTranscriptTurn db clock sessionId turn none = .ok (appended, db'))
    (h : AfterTurns sessionId before db) : AfterTurns sessionId before db' := by
  unfold appendTranscriptTurn at hrun
  obtain ⟨session, hsession, hrun⟩ := bind_eq_ok.mp hrun
  obtain ⟨⟨transcript, _⟩, _, hrun⟩ := bind_eq_ok.mp hrun
  cases hrun
  refine h.updateSessions (fun _ => rfl) ?_
  intro s hs
  rw [lockedSession_ok hsession] at hs
  cases hs
  exact ⟨le_rfl, le_rfl, rfl⟩

theorem appendViolation_afterTurns {violation : Json.Entries} {appended : Bool}
    (hrun : appendViolation db clock sessionId violation = .ok (appended, db'))
    (h : AfterTurns sessionId before db) : AfterTurns sessionId before db' := by
  unfold appendViolation at hrun
  obtain ⟨session, hsession, hrun⟩ := bind_eq_ok.mp hrun
  obtain ⟨⟨violations, isNew⟩, _, hrun⟩ := bind_eq_ok.mp hrun
  cases hrun
  split
  · exact h.updateSessions (fun _ => rfl) fun s _ => ⟨le_rfl, le_rfl, rfl⟩
  · exact h

theorem persistTurn_afterTurns {transcriptItems violations : List Json.Entries}
    {elapsedSecs : Option ℤ}
    (hrun : persistTurn db clock sessionId transcriptItems violations elapsedSecs = .ok ((), db'))
    (h : AfterTurns sessionId before db) : AfterTurns sessionId before db' := by
  unfold persistTurn at hrun
  obtain ⟨db₁, hitems, hrun⟩ := bind_eq_ok.mp hrun
  obtain ⟨db₂, hviolations, hrun⟩ := bind_eq_ok.mp hrun
  have h₁ : AfterTurns sessionId before db₁ := by
    refine foldlM_invariant ?_ hitems h
    intro db item db' hrun
    obtain ⟨⟨appended, _⟩, hitem, rfl⟩ := map_eq_ok.mp hrun
    exact appendTranscriptTurn_afterTurns hitem
  have h₂ : AfterTurns sessionId before db₂ := by
    refine foldlM_invariant ?_ hviolations h₁
    intro db violation db' hrun
    obtain ⟨⟨appended, _⟩, hviolation, rfl⟩ := map_eq_ok.mp hrun
    exact appendViolation_afterTurns hviolation
  cases hrun
  cases elapsedSecs with
  | none => exact h₂
  | some secs =>
    refine h₂.updateSessions (fun _ => rfl) fun s _ => ⟨?_, ?_, rfl⟩
    · simp [elapsed]
    · simp [elapsed]

end Turn

theorem sessionStatement_step (he : db.enrollment? id = some e) {sessionId : Uuid}
    {u : SessionUpdate} {request : SessionRequest}
    (hstep : ∀ ca s, e = ⟨ca, some s⟩ → s.id = sessionId →
      e.Step clock request ⟨ca, some (u.set s)⟩) :
    ∃ e', (db.updateSessions (·.id == sessionId) u).enrollment? id = some e' ∧
      e.Step clock request e' := by
  obtain ⟨ca, o⟩ := e
  by_cases hid : ∃ s, o = some s ∧ s.id = sessionId
  · obtain ⟨s, rfl, hid⟩ := hid
    exact ⟨_, enrollment?_updateSessions_of_eq he (by simpa using hid), hstep ca s rfl hid⟩
  · refine ⟨⟨ca, o⟩, ?_, .unchanged _ _⟩
    rw [enrollment?_updateSessions, he, Option.map_some, map_onRow_of_not]
    intro s hs
    simpa using fun heq => hid ⟨s, hs, heq⟩

theorem candidateStatement_step (he : db.enrollment? id = some e) {ca : Uuid}
    {v : CandidateUpdate} {request : SessionRequest}
    (hstep : e.candidate.id = ca → e.Step clock request { e with candidate := v.set e.candidate }) :
    ∃ e', (db.updateCandidateAssessments (·.id == ca) v).enrollment? id = some e' ∧
      e.Step clock request e' := by
  by_cases hid : ca = id
  · subst hid
    exact ⟨_, enrollment?_updateCandidate_of_eq he v, hstep (enrollment_candidate_id he)⟩
  · exact ⟨e, enrollment?_updateCandidate_of_ne he hid v, .unchanged _ _⟩

theorem initializeInterviewContext_cases {newSessionId ca : Uuid}
    {data : InterviewContext × InterviewSession}
    (hrun : initializeInterviewContext db clock newSessionId ca = .ok (data, db')) :
    (db.candidateAssessment? ca).isSome ∧
    ∃ opened, db.getOrCreateSession clock newSessionId ca = .ok (data.2, opened) ∧
      db' = markCandidateStarted (markSessionInProgress opened clock data.2.id) clock ca := by
  unfold initializeInterviewContext at hrun
  split at hrun
  · cases hrun
  · rename_i context hcontext
    obtain ⟨⟨session, opened⟩, hget, hrun⟩ := bind_eq_ok.mp hrun
    cases hrun
    refine ⟨?_, opened, hget, rfl⟩
    simp only [loadInterviewContext, Option.bind_eq_bind, Option.bind_eq_some_iff] at hcontext
    obtain ⟨row, hrow, _⟩ := hcontext
    simp [hrow]

theorem initializeInterviewContext_wellFormed (h : db.WellFormed) {newSessionId ca : Uuid}
    {data : InterviewContext × InterviewSession}
    (hrun : initializeInterviewContext db clock newSessionId ca = .ok (data, db')) :
    db'.WellFormed := by
  obtain ⟨hca, opened, hget, rfl⟩ := initializeInterviewContext_cases hrun
  have hopened := getOrCreateSession_wellFormed h hca hget
  have hstarted := hopened.updateSessions_of_token (p := (·.id == data.2.id))
    (u := inProgress clock) fun _ => rfl
  exact hstarted.updateCandidateAssessments _ _

theorem initializeInterviewContext_step (h : db.WellFormed) (he : db.enrollment? id = some e)
    {newSessionId ca : Uuid} {data : InterviewContext × InterviewSession}
    (hrun : initializeInterviewContext db clock newSessionId ca = .ok (data, db')) :
    ∃ e', db'.enrollment? id = some e' ∧
      e.Step clock (.initializeInterviewContext newSessionId ca) e' := by
  obtain ⟨hca, opened, hget, rfl⟩ := initializeInterviewContext_cases hrun
  obtain ⟨hmem, hkey⟩ := getOrCreateSession_mem hget
  by_cases hid : id = ca
  · subst hid
    obtain ⟨hsession, heopened⟩ := enrollment?_getOrCreateSession he hget
    have hstarted := enrollment?_updateSessions_of_eq (p := (·.id == data.2.id))
      (u := inProgress clock) heopened (by simp)
    have hcandidate := enrollment?_updateCandidate_of_eq hstarted (candidateInProgress clock)
    refine ⟨_, hcandidate, ?_⟩
    rw [hsession, ← enrollment_candidate_id he]
    exact .initialized e
  · have hopened := getOrCreateSession_wellFormed h hca hget
    have heopened := enrollment?_getOrCreateSession_of_ne he hid hget
    have hstarted := enrollment?_updateSessions_of_ne (p := (·.id == data.2.id))
      (u := inProgress clock) hopened heopened hmem (hkey.trans_ne (Ne.symm hid))
      (by simp)
    exact ⟨e, enrollment?_updateCandidate_of_ne hstarted (Ne.symm hid) _, .unchanged _ _⟩

theorem markCandidateTimerStarted_cases {ca : Uuid} {startedAt : Time}
    (hrun : markCandidateTimerStarted db clock ca = .ok (startedAt, db')) :
    ∃ row, db.candidateAssessment? ca = some row ∧
      db' = db.updateCandidateAssessments (·.id == ca) (timerStarted clock) := by
  unfold markCandidateTimerStarted at hrun
  split at hrun
  · cases hrun
  · rename_i row hrow
    split at hrun
    · cases hrun
    · cases hrun
      exact ⟨row, hrow, rfl⟩

theorem markEvaluationFailed_step (he : db.enrollment? id = some e) (ca : Uuid) :
    ∃ e', (markEvaluationFailed db clock ca).enrollment? id = some e' ∧
      e.Step clock (.markEvaluationFailed ca) e' := by
  obtain ⟨candidate, o⟩ := e
  by_cases hfails : ca = id ∧ ∃ s, o = some s ∧ s.status ≠ .evaluated
  · obtain ⟨rfl, s, rfl, hstatus⟩ := hfails
    have hkey := enrollment_session he rfl
    refine ⟨_, enrollment?_updateSessions_of_eq he (by simp [hkey, hstatus]), ?_⟩
    rw [← enrollment_candidate_id he]
    exact .evaluationFailed hstatus
  · refine ⟨⟨candidate, o⟩, ?_, .unchanged _ _⟩
    rw [markEvaluationFailed, enrollment?_updateSessions, he, Option.map_some, map_onRow_of_not]
    intro s hs
    have hkey := enrollment_session he hs
    by_contra hp
    simp only [Bool.not_eq_false, Bool.and_eq_true, beq_iff_eq, bne_iff_ne] at hp
    exact hfails ⟨hp.1.symm.trans hkey, s, hs, hp.2⟩

theorem upsertEvaluation_cases {newId : Uuid} {record : FinalEvaluationRecord}
    (hrun : upsertEvaluation db clock newId record = .ok db') :
    ∃ evaluations, db' = { db with interviewEvaluations := evaluations } := by
  unfold upsertEvaluation at hrun
  simp only at hrun
  split_ifs at hrun <;>
  · cases hrun
    exact ⟨_, rfl⟩

/-- A saved evaluation changes the two lifecycle rows and tables that no constraint mentions. -/
theorem saveFinalEvaluation_cases {draws : EvaluationDraws} {record : FinalEvaluationRecord}
    {recruiterEmail : String} {notification : NotificationLog}
    (hrun : saveFinalEvaluation db clock draws record recruiterEmail = .ok (notification, db')) :
    ∃ evaluations notifications, db' =
      { (db.updateSessions (·.id == record.sessionId)
          (sessionEvaluated clock)).updateCandidateAssessments
            (·.id == record.candidateAssessmentId) (candidateEvaluated clock) with
        interviewEvaluations := evaluations
        notificationLogs := notifications } := by
  unfold saveFinalEvaluation at hrun
  obtain ⟨upserted, hupsert, hrun⟩ := bind_eq_ok.mp hrun
  obtain ⟨evaluations, rfl⟩ := upsertEvaluation_cases hupsert
  simp only at hrun
  split at hrun
  · cases hrun
  split at hrun
  · cases hrun
  · cases hrun
    exact ⟨_, _, rfl⟩

theorem saveFinalEvaluation_wellFormed (h : db.WellFormed) {draws : EvaluationDraws}
    {record : FinalEvaluationRecord} {recruiterEmail : String} {notification : NotificationLog}
    (hrun : saveFinalEvaluation db clock draws record recruiterEmail = .ok (notification, db')) :
    db'.WellFormed := by
  obtain ⟨evaluations, notifications, rfl⟩ := saveFinalEvaluation_cases hrun
  have hsession := h.updateSessions_of_token (p := (·.id == record.sessionId))
    (u := sessionEvaluated clock) fun _ => rfl
  exact (hsession.updateCandidateAssessments _ _).of_tables rfl rfl rfl rfl

theorem saveFinalEvaluation_step (he : db.enrollment? id = some e) {draws : EvaluationDraws}
    {record : FinalEvaluationRecord} {recruiterEmail : String} {notification : NotificationLog}
    (hrun : saveFinalEvaluation db clock draws record recruiterEmail = .ok (notification, db')) :
    ∃ e', db'.enrollment? id = some e' ∧
      e.Step clock (.saveFinalEvaluation draws record recruiterEmail) e' := by
  obtain ⟨evaluations, notifications, rfl⟩ := saveFinalEvaluation_cases hrun
  refine ⟨_, ?_, .evaluated e⟩
  change Database.enrollment? (Database.updateCandidateAssessments _ _ _) id = _
  rw [enrollment?_updateCandidateAssessments, enrollment?_updateSessions, he]
  rfl

/-- A transaction that refines the lifecycle when it returns refines it when it rolls back. -/
theorem transact_step {α : Type} {body : Except ApiException (α × Database)}
    {request : SessionRequest} (he : db.enrollment? id = some e)
    (hbody : ∀ a db', body = .ok (a, db') →
      ∃ e', db'.enrollment? id = some e' ∧ e.Step clock request e') :
    ∃ e', (transact db body).2.enrollment? id = some e' ∧ e.Step clock request e' := by
  match body with
  | .ok (a, db') => exact hbody a db' rfl
  | .error _ => exact ⟨e, he, .unchanged _ _⟩

theorem transact_enrollmentKeys {α : Type} {body : Except ApiException (α × Database)}
    (hbody : ∀ a db', body = .ok (a, db') → db'.enrollmentKeys = db.enrollmentKeys) :
    (transact db body).2.enrollmentKeys = db.enrollmentKeys := by
  match body with
  | .ok (a, db') => exact hbody a db' rfl
  | .error _ => rfl

theorem saveViolations_step (h : db.WellFormed) (he : db.enrollment? id = some e)
    {s : InterviewSession} {sessionId : Uuid} (hs : db.session? sessionId = some s)
    {violations : List Json} {terminated : Bool} {request : SessionRequest}
    (hstep : ∀ ca, ca.id = s.candidateAssessmentId → s.id = sessionId → e = ⟨ca, some s⟩ →
      e.Step clock request (violated clock violations terminated ca s)) :
    ∃ e', (saveViolations db clock sessionId s.candidateAssessmentId violations
        terminated).enrollment? id = some e' ∧ e.Step clock request e' := by
  have hmem := Tables.lookup_mem hs
  obtain rfl : s.id = sessionId := Tables.lookup_key hs
  by_cases hid : s.candidateAssessmentId = id
  · subst hid
    obtain ⟨ca, hca⟩ := Option.isSome_iff_exists.mp (h.enrolled s hmem)
    obtain rfl := enrollment_eq_of_mem h he hmem hca
    exact ⟨_, enrollment?_saveViolations he violations terminated,
      hstep ca (enrollment_candidate_id he) rfl rfl⟩
  · exact ⟨e, enrollment?_saveViolations_of_ne h he hmem hid violations terminated,
      .unchanged _ _⟩

section Handle

variable [Runtime]

theorem recordProctoringEvent_ok {sessionId : Uuid} {connectionId : String} {ca : Uuid}
    {event : FaceEvent} {response : RecordProctoringEventOutcome}
    (hrun : InternalInterview.recordProctoringEvent db clock sessionId connectionId ca event =
      .ok (response, db')) :
    InterviewSessionRepository.recordProctoringEvent db clock sessionId connectionId ca event =
      .ok (response, db') := by
  unfold InternalInterview.recordProctoringEvent at hrun
  obtain ⟨⟨outcome, db₁⟩, houtcome, hrun⟩ := bind_eq_ok.mp hrun
  obtain ⟨validated, hvalidate, hrun⟩ := bind_eq_ok.mp hrun
  cases hrun
  unfold validateOutcome at hvalidate
  split at hvalidate
  · cases hvalidate
    exact houtcome
  · cases hvalidate
    exact houtcome
  · cases hvalidate

theorem handle_wellFormed (h : db.WellFormed) (call : Call) : (handle db call).2.WellFormed := by
  obtain ⟨clock, request⟩ := call
  cases request with
  | enterWithInvitation draws token => exact enterWithInvitation_wellFormed h
  | getSessionContext | authorizeDemo => exact h
  | authorizeInterviewConnection draw token => exact authorizeInterviewConnection_wellFormed h _ _
  | recordDisconnect => exact recordDisconnect_wellFormed h _ _ _ _ _
  | createEventLog event => exact h.recordEvent event
  | initializeInterviewContext newSessionId ca =>
    exact transact_wellFormed h fun _ _ hrun => initializeInterviewContext_wellFormed h hrun
  | persistTurn sessionId items violations elapsedSecs =>
    exact transact_wellFormed h fun _ _ hrun => (persistTurn_afterTurns hrun (.refl h)).wellFormed
  | recordTabSwitch sessionId connectionId ca eventId occurredAt =>
    simp only [handle, respond]
    refine transact_wellFormed h fun response db' hrun => ?_
    obtain ⟨s, _, _, ⟨_, _, rfl, _⟩ | ⟨_, _, _, _, violation, _, rfl⟩⟩ := recordTabSwitch_cases hrun
    · exact h
    · exact saveViolations_wellFormed h _ _ _ _
  | recordProctoringEvent sessionId connectionId ca event =>
    simp only [handle, respond]
    refine transact_wellFormed h fun response db' hrun => ?_
    obtain ⟨s, policy, _, _, _, ⟨_, rfl⟩ | ⟨_, violations, _, rfl⟩⟩ :=
      recordProctoringEvent_cases (recordProctoringEvent_ok hrun)
    · exact h
    · exact saveViolations_wellFormed h _ _ _ _
  | markSessionInProgress | completeSession | markEvaluationFailed =>
    exact h.updateSessions_of_token fun _ => rfl
  | markCandidateTimerStarted ca =>
    simp only [handle, respond]
    refine transact_wellFormed h fun startedAt db' hrun => ?_
    obtain ⟨row, _, rfl⟩ := markCandidateTimerStarted_cases hrun
    exact h.updateCandidateAssessments _ _
  | markCandidateStarted | markCandidateCompleted => exact h.updateCandidateAssessments _ _
  | saveFinalEvaluation draws record recruiterEmail =>
    exact transact_wellFormed h fun _ _ hrun => saveFinalEvaluation_wellFormed h hrun

theorem handle_enrollmentKeys (h : db.WellFormed) (call : Call) :
    (handle db call).2.enrollmentKeys = db.enrollmentKeys := by
  obtain ⟨clock, request⟩ := call
  cases request with
  | enterWithInvitation draws token => exact enterWithInvitation_enrollmentKeys
  | getSessionContext | authorizeDemo | createEventLog => rfl
  | authorizeInterviewConnection draw token =>
    exact authorizeInterviewConnection_enrollmentKeys h _ _
  | recordDisconnect => exact recordDisconnect_enrollmentKeys _ _ _ _ _
  | initializeInterviewContext newSessionId ca =>
    refine transact_enrollmentKeys fun _ _ hrun => ?_
    obtain ⟨_, opened, hget, rfl⟩ := initializeInterviewContext_cases hrun
    simp [markCandidateStarted, markSessionInProgress, enrollmentKeys_getOrCreateSession hget]
  | persistTurn sessionId items violations elapsedSecs =>
    exact transact_enrollmentKeys fun _ _ hrun => (persistTurn_afterTurns hrun (.refl h)).keys
  | recordTabSwitch sessionId connectionId ca eventId occurredAt =>
    simp only [handle, respond]
    refine transact_enrollmentKeys fun response db' hrun => ?_
    obtain ⟨s, _, _, ⟨_, _, rfl, _⟩ | ⟨_, _, _, _, violation, _, rfl⟩⟩ := recordTabSwitch_cases hrun
    · rfl
    · exact enrollmentKeys_saveViolations _ _ _ _
  | recordProctoringEvent sessionId connectionId ca event =>
    simp only [handle, respond]
    refine transact_enrollmentKeys fun response db' hrun => ?_
    obtain ⟨s, policy, _, _, _, ⟨_, rfl⟩ | ⟨_, violations, _, rfl⟩⟩ :=
      recordProctoringEvent_cases (recordProctoringEvent_ok hrun)
    · rfl
    · exact enrollmentKeys_saveViolations _ _ _ _
  | markSessionInProgress | completeSession | markEvaluationFailed =>
    exact enrollmentKeys_updateSessions _ _
  | markCandidateTimerStarted ca =>
    simp only [handle, respond]
    refine transact_enrollmentKeys fun startedAt db' hrun => ?_
    obtain ⟨row, _, rfl⟩ := markCandidateTimerStarted_cases hrun
    exact enrollmentKeys_updateCandidateAssessments _ _
  | markCandidateStarted | markCandidateCompleted =>
    exact enrollmentKeys_updateCandidateAssessments _ _
  | saveFinalEvaluation draws record recruiterEmail =>
    refine transact_enrollmentKeys fun _ _ hrun => ?_
    obtain ⟨evaluations, notifications, rfl⟩ := saveFinalEvaluation_cases hrun
    exact (enrollmentKeys_updateCandidateAssessments _ _).trans (enrollmentKeys_updateSessions _ _)

/-- What a request does to one enrollment is a step of the lifecycle. -/
theorem handle_step (h : db.WellFormed) (he : db.enrollment? id = some e) (call : Call) :
    ∃ e', (handle db call).2.enrollment? id = some e' ∧ e.Step call.clock call.request e' := by
  obtain ⟨clock, request⟩ := call
  cases request with
  | enterWithInvitation draws token => exact enterWithInvitation_step h he
  | getSessionContext | authorizeDemo => exact ⟨e, he, .unchanged _ _⟩
  | authorizeInterviewConnection draw token => exact authorizeInterviewConnection_step h he _ _
  | recordDisconnect => exact recordDisconnect_step h he _ _ _ _ _
  | createEventLog event => exact ⟨e, he, .unchanged _ _⟩
  | initializeInterviewContext newSessionId ca =>
    exact transact_step he fun _ _ hrun => initializeInterviewContext_step h he hrun
  | persistTurn sessionId items violations elapsedSecs =>
    refine transact_step he fun _ db' hrun => ?_
    obtain ⟨e', he', hturn⟩ := (persistTurn_afterTurns hrun (.refl h)).turns id e he
    refine ⟨e', he', ?_⟩
    rcases hturn with rfl | ⟨ca, s, s', rfl, rfl, hturn, rfl⟩
    · exact .unchanged _ _
    · exact .turnPersisted hturn
  | recordTabSwitch sessionId connectionId ca eventId occurredAt =>
    refine transact_step he fun response db' hrun => ?_
    obtain ⟨s, hs, rfl, ⟨_, _, rfl, _⟩ | ⟨_, _, hsender, _, violation, _, rfl⟩⟩ :=
      recordTabSwitch_cases hrun
    · exact ⟨e, he, .unchanged _ _⟩
    · refine saveViolations_step h he hs ?_
      rintro ca hca rfl rfl
      rw [← hca]
      exact .tabSwitched (sendsFrom_iff.mp hsender).1 (sendsFrom_iff.mp hsender).2
  | recordProctoringEvent sessionId connectionId ca event =>
    refine transact_step he fun response db' hrun => ?_
    obtain ⟨s, policy, hs, rfl, hpolicy, ⟨_, rfl⟩ | ⟨_, violations, hrecorded, rfl⟩⟩ :=
      recordProctoringEvent_cases (recordProctoringEvent_ok hrun)
    · exact ⟨e, he, .unchanged _ _⟩
    · refine saveViolations_step h he hs ?_
      rintro ca hca rfl rfl
      rw [← hca]
      exact .proctored (sendsFrom_iff.mp hrecorded.sender).1 (sendsFrom_iff.mp hrecorded.sender).2
        (validateFaceEvent_policy hpolicy)
  | markSessionInProgress sessionId =>
    refine sessionStatement_step he ?_
    rintro ca s rfl rfl
    exact .sessionInProgress
  | completeSession sessionId totalElapsedSecs =>
    refine sessionStatement_step he ?_
    rintro ca s rfl rfl
    exact .sessionCompleted
  | markCandidateTimerStarted ca =>
    refine transact_step he fun startedAt db' hrun => ?_
    obtain ⟨row, _, rfl⟩ := markCandidateTimerStarted_cases hrun
    refine candidateStatement_step he ?_
    rintro rfl
    exact .timerStarted e
  | markCandidateStarted ca =>
    refine candidateStatement_step he ?_
    rintro rfl
    exact .candidateStarted e
  | markCandidateCompleted ca =>
    refine candidateStatement_step he ?_
    rintro rfl
    exact .candidateCompleted e
  | markEvaluationFailed ca => exact markEvaluationFailed_step he ca
  | saveFinalEvaluation draws record recruiterEmail =>
    exact transact_step he fun _ _ hrun => saveFinalEvaluation_step he hrun

theorem handle_origin (h : db.WellFormed) {e' : Enrollment} (call : Call)
    (he' : (handle db call).2.enrollment? id = some e') :
    ∃ e, db.enrollment? id = some e ∧ e.Step call.clock call.request e' := by
  have hsome := enrollment?_isSome_iff.mp (Option.isSome_iff_exists.mpr ⟨_, he'⟩)
  rw [handle_enrollmentKeys h, ← enrollment?_isSome_iff] at hsome
  obtain ⟨e, he⟩ := Option.isSome_iff_exists.mp hsome
  obtain ⟨e'', he'', hstep⟩ := handle_step h he call
  cases he'.symm.trans he''
  exact ⟨e, he, hstep⟩

def serve : Runs.Machine Store Call SessionResult := fun store call =>
  ((handle store.db call).1, ⟨(handle store.db call).2, handle_wellFormed store.wellFormed call⟩)

theorem serve_session_step {store : Store} {s : InterviewSession} (call : Call)
    (hs : s ∈ store.db.interviewSessions) :
    ∃ e e', store.db.enrollment? s.candidateAssessmentId = some e ∧ e.session = some s ∧
      (serve store call).2.db.enrollment? s.candidateAssessmentId = some e' ∧
      e.Step call.clock call.request e' := by
  obtain ⟨ca, hca⟩ := Option.isSome_iff_exists.mp (store.wellFormed.enrolled s hs)
  have he : store.db.enrollment? s.candidateAssessmentId = some ⟨ca, some s⟩ :=
    enrollment?_eq_some.mpr ⟨hca, store.wellFormed.sessionOf?_of_mem hs⟩
  obtain ⟨e', he', hstep⟩ := handle_step store.wellFormed he call
  exact ⟨_, e', he, rfl, he', hstep⟩

theorem serve_session_origin {store : Store} {s' : InterviewSession} (call : Call)
    (hs' : s' ∈ (serve store call).2.db.interviewSessions) :
    ∃ e e', store.db.enrollment? s'.candidateAssessmentId = some e ∧
      (serve store call).2.db.enrollment? s'.candidateAssessmentId = some e' ∧
      e'.session = some s' ∧ e.Step call.clock call.request e' := by
  have hpost := (serve store call).2.wellFormed
  obtain ⟨ca, hca⟩ := Option.isSome_iff_exists.mp (hpost.enrolled s' hs')
  have he' : (serve store call).2.db.enrollment? s'.candidateAssessmentId = some ⟨ca, some s'⟩ :=
    enrollment?_eq_some.mpr ⟨hca, hpost.sessionOf?_of_mem hs'⟩
  obtain ⟨e, he, hstep⟩ := handle_origin store.wellFormed call he'
  exact ⟨e, _, he, he', rfl, hstep⟩

end Handle

end IBotCoreApi
