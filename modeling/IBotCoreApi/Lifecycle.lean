import IBotCoreApi.Store

namespace IBotCoreApi
open Python

structure Enrollment where
  candidate : CandidateAssessment
  session : Option InterviewSession

def Database.enrollment? (db : Database) (candidateAssessmentId : Uuid) : Option Enrollment :=
  (db.candidateAssessment? candidateAssessmentId).map fun ca =>
    ⟨ca, db.sessionOf? candidateAssessmentId⟩

def Database.enrollmentKeys (db : Database) : List (Uuid × Uuid × Uuid × Uuid) :=
  db.candidateAssessments.map (·.keys)

section Lookups

variable {db : Database} {id : Uuid} {e : Enrollment}

@[simp] theorem enrollmentKeys_updateSessions (p : InterviewSession → Bool) (u : SessionUpdate) :
    (db.updateSessions p u).enrollmentKeys = db.enrollmentKeys := rfl

@[simp] theorem enrollmentKeys_updateCandidateAssessments (q : CandidateAssessment → Bool)
    (v : CandidateUpdate) :
    (db.updateCandidateAssessments q v).enrollmentKeys = db.enrollmentKeys :=
  Tables.map_updateWhere

@[simp] theorem enrollmentKeys_record (eventName : EventName) (correlationId : String)
    (candidateAssessmentId : Option Uuid) (metadata : Json.Entries) :
    (InterviewSessionService.record db eventName correlationId candidateAssessmentId
      metadata).enrollmentKeys = db.enrollmentKeys := rfl

@[simp] theorem enrollment?_updateSessions (p : InterviewSession → Bool) (u : SessionUpdate) :
    (db.updateSessions p u).enrollment? id =
      (db.enrollment? id).map fun e => { e with session := e.session.map (u.onRow p) } := by
  simp [Database.enrollment?, Function.comp_def]

@[simp] theorem enrollment?_updateCandidateAssessments (q : CandidateAssessment → Bool)
    (v : CandidateUpdate) :
    (db.updateCandidateAssessments q v).enrollment? id =
      (db.enrollment? id).map fun e => { e with candidate := v.onRow q e.candidate } := by
  simp [Database.enrollment?, Function.comp_def]

@[simp] theorem enrollment?_recordEvent (event : EventLog) :
    (db.recordEvent event).enrollment? id = db.enrollment? id := rfl

@[simp] theorem enrollment?_record (eventName : EventName) (correlationId : String)
    (candidateAssessmentId : Option Uuid) (metadata : Json.Entries) :
    (InterviewSessionService.record db eventName correlationId candidateAssessmentId
      metadata).enrollment? id = db.enrollment? id := rfl

theorem enrollment?_eq_some :
    db.enrollment? id = some e ↔
      db.candidateAssessment? id = some e.candidate ∧ db.sessionOf? id = e.session := by
  simp only [Database.enrollment?, Option.map_eq_some_iff]
  constructor
  · rintro ⟨ca, hca, rfl⟩
    exact ⟨hca, rfl⟩
  · rintro ⟨hca, hsession⟩
    exact ⟨e.candidate, hca, by rw [hsession]⟩

theorem enrollment?_isSome_iff :
    (db.enrollment? id).isSome ↔ id ∈ db.enrollmentKeys.map Prod.fst := by
  have hnone : db.candidateAssessment? id = none ↔ id ∉ db.candidateAssessments.map (·.id) :=
    Tables.lookup_eq_none_iff
  have hkeys : db.enrollmentKeys.map Prod.fst = db.candidateAssessments.map (·.id) := by
    simp [Database.enrollmentKeys, CandidateAssessment.keys]
  rw [hkeys, Database.enrollment?, Option.isSome_map, ← not_iff_not, ← hnone,
    Option.not_isSome_iff_eq_none]

theorem enrollment_candidate_id (he : db.enrollment? id = some e) : e.candidate.id = id :=
  Database.id_of_candidateAssessment? (enrollment?_eq_some.mp he).1

theorem enrollment_session (he : db.enrollment? id = some e) {s : InterviewSession}
    (hs : e.session = some s) : s.candidateAssessmentId = id :=
  Database.candidateAssessmentId_of_sessionOf? ((enrollment?_eq_some.mp he).2.trans hs)

theorem enrollment_session_of_mem (h : db.WellFormed) (he : db.enrollment? id = some e)
    {s : InterviewSession} (hs : s ∈ db.interviewSessions) (hid : s.candidateAssessmentId = id) :
    e.session = some s := by
  rw [← (enrollment?_eq_some.mp he).2, ← hid]
  exact h.sessionOf?_of_mem hs

/-- A session and its row of `candidate_assessments` are the enrollment of the session. -/
theorem enrollment_eq_of_mem (h : db.WellFormed) {s : InterviewSession} {ca : CandidateAssessment}
    (he : db.enrollment? s.candidateAssessmentId = some e) (hs : s ∈ db.interviewSessions)
    (hca : db.candidateAssessment? s.candidateAssessmentId = some ca) : e = ⟨ca, some s⟩ := by
  have hcandidate := (enrollment?_eq_some.mp he).1.symm.trans hca
  have hsession := enrollment_session_of_mem h he hs rfl
  cases e
  simp_all

theorem enrollment_session_mem (he : db.enrollment? id = some e) {s : InterviewSession}
    (hs : e.session = some s) : s ∈ db.interviewSessions :=
  Tables.lookup_mem ((enrollment?_eq_some.mp he).2.trans hs)

theorem session_id_ne (h : db.WellFormed) (he : db.enrollment? id = some e)
    {s s' : InterviewSession} (hs : e.session = some s) (hs' : s' ∈ db.interviewSessions)
    (hother : s'.candidateAssessmentId ≠ id) : s.id ≠ s'.id := by
  intro heq
  have hrow := h.session?_of_mem (enrollment_session_mem he hs)
  rw [heq, h.session?_of_mem hs'] at hrow
  exact hother (Option.some.inj hrow ▸ enrollment_session he hs)

theorem map_onRow_of_not {o : Option InterviewSession} {p : InterviewSession → Bool}
    {u : SessionUpdate} (hp : ∀ s, o = some s → p s = false) : o.map (u.onRow p) = o := by
  cases o with
  | none => rfl
  | some s => simp [Tables.Update.onRow_of_false (hp s rfl)]

end Lookups

namespace Enrollment

open CandidateSessionRepository InterviewSessionRepository AssessmentContextRepository
  EvaluationRepository InterviewSessionService

/-- The session that `get_or_create` finds or inserts. -/
def sessionOr (e : Enrollment) (newId : Uuid) (clock : Clock) : InterviewSession :=
  e.session.getD (.fresh newId e.candidate.id clock)

def issued (clock : Clock) (sessionToken : String) (expiresAt : Time) (s : InterviewSession) :
    InterviewSession :=
  if s.sessionToken.getD "" = "" then (credentials clock sessionToken expiresAt).set s else s

/-- The enrollment after an admission: the first one consumes the invitation. -/
def invited (clock : Clock) (ca : CandidateAssessment) : CandidateAssessment :=
  if ca.inviteConsumed then ca else (consumed clock).set ca

def nextConnection (s : InterviewSession) (draw : Uuid) : String :=
  if s.status = .inProgress then draw.hex else orText (s.activeConnectionId.getD "") draw.hex

/-- The enrollment after an accepted disconnect: the third one ends it too. -/
def dropped (clock : Clock) (s : InterviewSession) (ca : CandidateAssessment) :
    CandidateAssessment :=
  if s.status = .terminated then (candidateTerminated clock).set ca else ca

def violated (clock : Clock) (violations : List Json) (terminated : Bool) (ca : CandidateAssessment)
    (s : InterviewSession) : Enrollment :=
  if terminated then
    ⟨(candidateTerminated clock).set ca,
      some (sessionTerminated.set ((violationsSaved clock violations).set s))⟩
  else ⟨ca, some ((violationsSaved clock violations).set s)⟩

/-- The columns that `persist-turn` writes. -/
structure TurnPersisted (s s' : InterviewSession) : Prop where
  elapsed : s.totalElapsedSecs ≤ s'.totalElapsedSecs
  pause : s.totalPauseSecs ≤ s'.totalPauseSecs
  rest : s' = { s with
    transcript := s'.transcript
    violations := s'.violations
    totalElapsedSecs := s'.totalElapsedSecs
    totalPauseSecs := s'.totalPauseSecs
    lastUpdatedAt := s'.lastUpdatedAt }

theorem TurnPersisted.refl (s : InterviewSession) : TurnPersisted s s := ⟨le_rfl, le_rfl, rfl⟩

theorem TurnPersisted.trans {s s' s'' : InterviewSession} (h : TurnPersisted s s')
    (h' : TurnPersisted s' s'') : TurnPersisted s s'' where
  elapsed := h.elapsed.trans h'.elapsed
  pause := h.pause.trans h'.pause
  rest := by
    have hrest := h'.rest
    rw [h.rest] at hrest
    exact hrest

theorem TurnPersisted.id_eq {s s' : InterviewSession} (h : TurnPersisted s s') : s'.id = s.id := by
  rw [h.rest]

/-- What a request can do to an enrollment, with a constructor for each branch of a statement that
can match its rows. -/
inductive Step (clock : Clock) : SessionRequest → Enrollment → Enrollment → Prop
  | unchanged (request : SessionRequest) (e : Enrollment) : Step clock request e e
  | refused {draws : EntryDraws} {invitationToken : Uuid} (e : Enrollment)
      (hinvitation : e.candidate.invitationToken = invitationToken) :
      Step clock (.enterWithInvitation draws invitationToken) e
        ⟨e.candidate, some (e.sessionOr draws.sessionId clock)⟩
  | admitted {draws : EntryDraws} {invitationToken : Uuid} (e : Enrollment)
      (hinvitation : e.candidate.invitationToken = invitationToken)
      (hopen : isTerminal (e.sessionOr draws.sessionId clock).status e.candidate.status = false)
      (expiresAt : Time) :
      Step clock (.enterWithInvitation draws invitationToken) e
        ⟨invited clock e.candidate,
          some (issued clock draws.sessionToken expiresAt (e.sessionOr draws.sessionId clock))⟩
  | bound {draw : Uuid} {sessionToken : String} {ca : CandidateAssessment} {s : InterviewSession}
      (htoken : s.sessionToken = some sessionToken) (hactive : s.isActive) :
      Step clock (.authorizeInterviewConnection draw sessionToken) ⟨ca, some s⟩
        ⟨ca, some ((bound clock (nextConnection s draw)).set s)⟩
  | reconnected {draw : Uuid} {sessionToken : String} {ca : CandidateAssessment}
      {s : InterviewSession} (htoken : s.sessionToken = some sessionToken)
      (hstatus : s.status = .disconnected) (hopen : isTerminal s.status ca.status = false)
      (hdeadline : reconnectExpired s.reconnectDeadline clock.utcNow = false) :
      Step clock (.authorizeInterviewConnection draw sessionToken) ⟨ca, some s⟩
        ⟨(candidateInProgress clock).set ca,
          some ((CandidateSessionRepository.bound clock (nextConnection s draw)).set
            ((restored clock).set s))⟩
  | timedOut {draw : Uuid} {sessionToken : String} {ca : CandidateAssessment}
      {s : InterviewSession} (htoken : s.sessionToken = some sessionToken)
      (hstatus : s.status = .disconnected)
      (hdeadline : reconnectExpired s.reconnectDeadline clock.utcNow) :
      Step clock (.authorizeInterviewConnection draw sessionToken) ⟨ca, some s⟩
        ⟨(candidateTerminated clock).set ca, some ((timedOut clock).set s)⟩
  | disconnected {sessionId : Uuid} {connectionId : String} {candidateAssessmentId : Uuid}
      {reason : String} {elapsedSecs : ℤ} {ca : CandidateAssessment} {s : InterviewSession}
      (haccepts : acceptsDisconnect sessionId connectionId s) :
      Step clock
        (.recordDisconnect sessionId connectionId candidateAssessmentId reason elapsedSecs)
        ⟨ca, some s⟩
        ⟨dropped clock
            ((disconnected clock (clock.utcNow + reconnectWindow) elapsedSecs).set s) ca,
          some ((disconnected clock (clock.utcNow + reconnectWindow) elapsedSecs).set s)⟩
  | initialized {newSessionId : Uuid} (e : Enrollment) :
      Step clock (.initializeInterviewContext newSessionId e.candidate.id) e
        ⟨(candidateInProgress clock).set e.candidate,
          some ((inProgress clock).set (e.sessionOr newSessionId clock))⟩
  | turnPersisted {transcriptItems violations : List Json.Entries} {elapsedSecs : Option ℤ}
      {ca : CandidateAssessment} {s s' : InterviewSession} (hturn : TurnPersisted s s') :
      Step clock (.persistTurn s.id transcriptItems violations elapsedSecs)
        ⟨ca, some s⟩ ⟨ca, some s'⟩
  | tabSwitched {connectionId : String} {eventId : Uuid} {occurredAt : String}
      {ca : CandidateAssessment} {s : InterviewSession} {violations : List Json}
      (hactive : s.isActive) (hconnection : s.activeConnectionId = some connectionId) :
      Step clock (.recordTabSwitch s.id connectionId ca.id eventId occurredAt) ⟨ca, some s⟩
        (violated clock violations (tabSwitchCount s.violations + 1 ≥ maxAllowedTabSwitches) ca s)
  | proctored {connectionId : String} {event : FaceEvent} {policy : ℤ × ℤ}
      {ca : CandidateAssessment} {s : InterviewSession} {violations : List Json}
      (hactive : s.isActive) (hconnection : s.activeConnectionId = some connectionId)
      (hpolicy : faceProctoringPolicies event.eventType = some policy) :
      Step clock (.recordProctoringEvent s.id connectionId ca.id event) ⟨ca, some s⟩
        (violated clock violations (event.observedDurationMs ≥ policy.2) ca s)
  | sessionInProgress {ca : CandidateAssessment} {s : InterviewSession} :
      Step clock (.markSessionInProgress s.id) ⟨ca, some s⟩ ⟨ca, some ((inProgress clock).set s)⟩
  | sessionCompleted {ca : CandidateAssessment} {s : InterviewSession} {totalElapsedSecs : ℤ} :
      Step clock (.completeSession s.id totalElapsedSecs) ⟨ca, some s⟩
        ⟨ca, some ((completed clock totalElapsedSecs).set s)⟩
  | timerStarted (e : Enrollment) :
      Step clock (.markCandidateTimerStarted e.candidate.id) e
        { e with candidate := (timerStarted clock).set e.candidate }
  | candidateStarted (e : Enrollment) :
      Step clock (.markCandidateStarted e.candidate.id) e
        { e with candidate := (candidateInProgress clock).set e.candidate }
  | candidateCompleted (e : Enrollment) :
      Step clock (.markCandidateCompleted e.candidate.id) e
        { e with candidate := (candidateCompleted clock).set e.candidate }
  | evaluationFailed {ca : CandidateAssessment} {s : InterviewSession}
      (hstatus : s.status ≠ .evaluated) :
      Step clock (.markEvaluationFailed ca.id) ⟨ca, some s⟩
        ⟨ca, some ((evaluationFailed clock).set s)⟩
  | evaluated {draws : EvaluationDraws} {record : FinalEvaluationRecord} {recruiterEmail : String}
      (e : Enrollment) :
      Step clock (.saveFinalEvaluation draws record recruiterEmail) e
        ⟨(candidateEvaluated clock).onRow (·.id == record.candidateAssessmentId) e.candidate,
          e.session.map ((sessionEvaluated clock).onRow (·.id == record.sessionId))⟩

theorem Step.session_kept {clock : Clock} {request : SessionRequest} {e e' : Enrollment}
    {s : InterviewSession} (h : e.Step clock request e') (hs : e.session = some s) :
    ∃ s', e'.session = some s' ∧ s'.id = s.id := by
  have hsessionOr (newId : Uuid) : e.sessionOr newId clock = s := by
    simp [sessionOr, hs]
  cases h with
  | refused => exact ⟨_, rfl, by rw [hsessionOr]⟩
  | admitted =>
    refine ⟨_, rfl, ?_⟩
    rw [hsessionOr, issued]
    split <;> simp
  | initialized => exact ⟨_, rfl, by rw [set_id, hsessionOr]⟩
  | turnPersisted hturn =>
    cases hs
    exact ⟨_, rfl, hturn.id_eq⟩
  | tabSwitched | proctored =>
    cases hs
    unfold violated
    split
    · exact ⟨_, rfl, by simp⟩
    · exact ⟨_, rfl, by simp⟩
  | evaluated =>
    rw [hs]
    exact ⟨_, rfl, by simp⟩
  | unchanged | timerStarted | candidateStarted | candidateCompleted => exact ⟨s, hs, rfl⟩
  | _ =>
    cases hs
    exact ⟨_, rfl, by simp⟩

end Enrollment

end IBotCoreApi
