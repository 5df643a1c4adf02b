import IBotCoreApi.Library.Outcomes
import IBotCoreApi.Library.PyJson
import IBotCoreApi.Library.PyValues
import IBotCoreApi.Library.Tables

namespace IBotCoreApi
open Python

/-- `interview_sessions.status`. -/
inductive SessionStatus where
  | initializing
  | inProgress
  | disconnected
  | completed
  | evaluated
  | evaluationFailed
  | deactivated
  | terminated
deriving DecidableEq

def SessionStatus.text : SessionStatus → String
  | .initializing => "INITIALIZING"
  | .inProgress => "IN_PROGRESS"
  | .disconnected => "DISCONNECTED"
  | .completed => "COMPLETED"
  | .evaluated => "EVALUATED"
  | .evaluationFailed => "EVALUATION_FAILED"
  | .deactivated => "DEACTIVATED"
  | .terminated => "TERMINATED"

/-- `candidate_assessments.status`. -/
inductive CandidateStatus where
  | invited
  | waitingRoom
  | inProgress
  | completed
  | evaluated
  | terminated
deriving DecidableEq

def CandidateStatus.text : CandidateStatus → String
  | .invited => "INVITED"
  | .waitingRoom => "WAITING_ROOM"
  | .inProgress => "IN_PROGRESS"
  | .completed => "COMPLETED"
  | .evaluated => "EVALUATED"
  | .terminated => "TERMINATED"

/-- `assessments.status`. -/
inductive AssessmentStatus where
  | draft
  | processing
  | active
  | closed
deriving DecidableEq

structure Recruiter where
  id : Uuid
  companyName : String

structure Candidate where
  id : Uuid
  fullName : String

structure Assessment where
  id : Uuid
  recruiterId : Uuid
  title : String
  roleName : String
  jdText : String
  jdFilePath : Option String
  jdAnalysis : Option Json
  focusAreas : Option Json
  interviewPlan : Option Json
  interviewDurationMins : ℤ
  windowStart : Time
  windowEnd : Time
  status : AssessmentStatus
  updatedAt : Time

def Assessment.keys (a : Assessment) : Uuid × Uuid := (a.id, a.recruiterId)

abbrev AssessmentUpdate := Tables.Update Assessment.keys

structure CandidateAssessment where
  id : Uuid
  candidateId : Uuid
  assessmentId : Uuid
  resumeFilePath : String
  resumeParsed : Option Json
  resumeParseStatus : String
  invitationToken : Uuid
  inviteConsumed : Bool
  inviteConsumedAt : Option Time
  status : CandidateStatus
  interviewStartedAt : Option Time
  interviewEndedAt : Option Time
  recruiterDecision : String
  updatedAt : Time

/-- The columns of an enrollment that no statement changes. -/
def CandidateAssessment.keys (ca : CandidateAssessment) : Uuid × Uuid × Uuid × Uuid :=
  (ca.id, ca.candidateId, ca.assessmentId, ca.invitationToken)

abbrev CandidateUpdate := Tables.Update CandidateAssessment.keys

structure InterviewSession where
  id : Uuid
  candidateAssessmentId : Uuid
  transcript : List Json
  violations : List Json
  status : SessionStatus
  totalElapsedSecs : ℤ
  totalPauseSecs : ℤ
  sessionToken : Option String
  sessionTokenExpiresAt : Option Time
  disconnectCount : ℤ
  timeoutDisconnectCount : ℤ
  lastDisconnectedAt : Option Time
  reconnectDeadline : Option Time
  activeConnectionId : Option String
  lastUpdatedAt : Time

/-- The columns of a session that no statement changes. -/
def InterviewSession.keys (s : InterviewSession) : Uuid × Uuid := (s.id, s.candidateAssessmentId)

abbrev SessionUpdate := Tables.Update InterviewSession.keys

/-- The columns of `interview_evaluations` that `FinalEvaluationRecord` carries besides its keys. -/
structure EvaluationReport where
  introSectionScore : ℚ
  introSectionSummary : String
  introSectionEvidence : List String
  skillScores : Json
  overallTechnicalSkillScore : ℚ
  skillSummary : Json
  skillEvidence : Json
  questionEvaluations : Json
  behaviouralCulturalScore : ℚ
  behaviouralCulturalSummary : String
  behaviouralCulturalEvidence : List String
  communicationScore : ℚ
  communicationSummary : String
  communicationEvidence : List String
  sectionCommunicationScores : Json
  violationSummary : Json
  violationEvidence : List String
  rawOverallScore : ℚ
  violationPenalty : ℚ
  overallScore : ℚ
  hiringRecommendation : String
  modelRecommendation : String
  recommendationOverrideReason : Option String
  overallSummary : String
  recommendationReasoning : String
  strengths : List String
  concerns : List String
  promptVersion : String
  modelName : String
  modelProvider : String
  evaluationSchemaVersion : String
  transcriptHash : String
  rawModelOutput : Json

structure InterviewEvaluation where
  id : Uuid
  candidateAssessmentId : Uuid
  sessionId : Uuid
  report : EvaluationReport
  rankInAssessment : Option ℤ
  percentileInAssessment : Option ℤ
  totalCandidatesEvaluated : Option ℤ
  generatedAt : Time

def InterviewEvaluation.keys (e : InterviewEvaluation) : Uuid × Uuid := (e.id, e.candidateAssessmentId)

abbrev EvaluationUpdate := Tables.Update InterviewEvaluation.keys

structure NotificationLog where
  id : Uuid
  candidateAssessmentId : Uuid
  notificationType : String
  recipientEmail : String
  deliveryStatus : String
  sentAt : Time

/-- `EventName`: the canonical event names. -/
inductive EventName where
  | inviteLinkConsumed
  | sessionTokenReissued
  | inviteLinkRejected
  | sessionDisconnected
  | sessionTerminatedMaxDisconnects
  | sessionReconnected
  | sessionDisconnectTimeoutRecorded
  | sessionTerminatedReconnectTimeout
  | interviewStarted
  | interviewDisconnected
  | interviewReconnected
  | interviewEnded
  | csvRowFailed
  | celeryTaskStarted
  | celeryTaskRetrying
  | celeryTaskCompleted
  | celeryTaskFailed
  | passwordReseted
deriving DecidableEq

inductive EventSource where
  | coreApi
  | interviewEngine
deriving DecidableEq

/-- A row of `event_logs`, which is also the payload `EventLogCreate`. -/
structure EventLog where
  eventName : EventName
  sourceService : EventSource
  correlationId : String
  candidateAssessmentId : Option Uuid
  recruiterId : Option Uuid
  metadata : Json.Entries
  errorMessage : Option String
  durationMs : Option ℤ

/-- The columns that a modelled statement reads or writes. -/
structure Database where
  recruiters : List Recruiter
  candidates : List Candidate
  assessments : List Assessment
  candidateAssessments : List CandidateAssessment
  interviewSessions : List InterviewSession
  interviewEvaluations : List InterviewEvaluation
  notificationLogs : List NotificationLog
  eventLogs : List EventLog

/-- `_utc_now()` of the API process and `now()` of the database transaction. -/
structure Clock where
  utcNow : Time
  dbNow : Time

/-- The exceptions a request can end with: the service's own, and those of the layers below. -/
inductive ApiException where
  | invalidInvitation
  | invalidSessionToken
  | sessionExpired
  | sessionClosed
  | reconnectTimeout
  | forbidden (message : String)
  | sessionBootstrapFailed (message : String)
  | sessionTokenExpiryMissing
  | interviewConnectionFailed
  | interviewConfiguration (message : String)
  | interviewContextNotFound (message : String)
  | invalidSessionAppend (message : String)
  | assessmentNotFound
  | assessmentAccessDenied
  | assessmentValidation (message : String)
  | candidateRegistrationNotFound
  | candidateAccessDenied (message : String)
  /-- `scalar_one()` on an empty result. -/
  | noResultFound
  /-- A unique or foreign-key constraint refused the statement. -/
  | integrityError
  | python (error : PyError)
deriving DecidableEq

/-- A request's database transaction: an exception rolls everything back. -/
def transact {α : Type} (db : Database) (body : Except ApiException (α × Database)) :
    Except ApiException α × Database :=
  match body with
  | .ok (a, db') => (.ok a, db')
  | .error e => (.error e, db)

section Keys

variable (p : InterviewSession → Bool) (u : SessionUpdate) (s : InterviewSession)
  (q : CandidateAssessment → Bool) (v : CandidateUpdate) (ca : CandidateAssessment)

@[simp] theorem set_id : (u.set s).id = s.id := congrArg Prod.fst (u.keeps s)

@[simp] theorem set_candidateAssessmentId :
    (u.set s).candidateAssessmentId = s.candidateAssessmentId :=
  congrArg Prod.snd (u.keeps s)

@[simp] theorem onRow_id : (u.onRow p s).id = s.id := congrArg Prod.fst (u.onRow_keeps s)

@[simp] theorem onRow_candidateAssessmentId :
    (u.onRow p s).candidateAssessmentId = s.candidateAssessmentId :=
  congrArg Prod.snd (u.onRow_keeps s)

@[simp] theorem candidate_set_id : (v.set ca).id = ca.id := congrArg Prod.fst (v.keeps ca)

@[simp] theorem candidate_set_assessmentId : (v.set ca).assessmentId = ca.assessmentId :=
  congrArg (fun k => k.2.2.1) (v.keeps ca)

@[simp] theorem candidate_set_invitationToken : (v.set ca).invitationToken = ca.invitationToken :=
  congrArg (fun k => k.2.2.2) (v.keeps ca)

@[simp] theorem candidate_onRow_id : (v.onRow q ca).id = ca.id :=
  congrArg Prod.fst (v.onRow_keeps ca)

@[simp] theorem candidate_onRow_candidateId : (v.onRow q ca).candidateId = ca.candidateId :=
  congrArg (fun k => k.2.1) (v.onRow_keeps ca)

@[simp] theorem candidate_onRow_assessmentId : (v.onRow q ca).assessmentId = ca.assessmentId :=
  congrArg (fun k => k.2.2.1) (v.onRow_keeps ca)

@[simp] theorem candidate_onRow_invitationToken :
    (v.onRow q ca).invitationToken = ca.invitationToken :=
  congrArg (fun k => k.2.2.2) (v.onRow_keeps ca)

end Keys

namespace Database

def session? (db : Database) (sessionId : Uuid) : Option InterviewSession :=
  Tables.lookup (·.id) sessionId db.interviewSessions

def sessionOf? (db : Database) (candidateAssessmentId : Uuid) : Option InterviewSession :=
  Tables.lookup (·.candidateAssessmentId) candidateAssessmentId db.interviewSessions

def candidateAssessment? (db : Database) (candidateAssessmentId : Uuid) :
    Option CandidateAssessment :=
  Tables.lookup (·.id) candidateAssessmentId db.candidateAssessments

def assessment? (db : Database) (assessmentId : Uuid) : Option Assessment :=
  Tables.lookup (·.id) assessmentId db.assessments

def candidate? (db : Database) (candidateId : Uuid) : Option Candidate :=
  Tables.lookup (·.id) candidateId db.candidates

def recruiter? (db : Database) (recruiterId : Uuid) : Option Recruiter :=
  Tables.lookup (·.id) recruiterId db.recruiters

/-- `UPDATE interview_sessions`. -/
def updateSessions (db : Database) (p : InterviewSession → Bool) (u : SessionUpdate) : Database :=
  { db with interviewSessions := Tables.updateWhere p u db.interviewSessions }

/-- `UPDATE candidate_assessments`. -/
def updateCandidateAssessments (db : Database) (p : CandidateAssessment → Bool)
    (u : CandidateUpdate) : Database :=
  { db with candidateAssessments := Tables.updateWhere p u db.candidateAssessments }

/-- `UPDATE assessments`. -/
def updateAssessments (db : Database) (p : Assessment → Bool) (u : AssessmentUpdate) : Database :=
  { db with assessments := Tables.updateWhere p u db.assessments }

/-- `EventLogsRepository.create`. -/
def recordEvent (db : Database) (event : EventLog) : Database :=
  { db with eventLogs := db.eventLogs ++ [event] }

section Lookups

variable (db : Database) (p : InterviewSession → Bool) (u : SessionUpdate)
  (q : CandidateAssessment → Bool) (v : CandidateUpdate) (event : EventLog) (id : Uuid)

@[simp] theorem session?_updateSessions :
    (db.updateSessions p u).session? id = (db.session? id).map (u.onRow p) :=
  Tables.lookup_updateWhere u Prod.fst id

@[simp] theorem sessionOf?_updateSessions :
    (db.updateSessions p u).sessionOf? id = (db.sessionOf? id).map (u.onRow p) :=
  Tables.lookup_updateWhere u Prod.snd id

@[simp] theorem candidateAssessment?_updateCandidateAssessments :
    (db.updateCandidateAssessments q v).candidateAssessment? id =
      (db.candidateAssessment? id).map (v.onRow q) :=
  Tables.lookup_updateWhere v Prod.fst id

@[simp] theorem assessment?_updateAssessments (r : Assessment → Bool) (w : AssessmentUpdate) :
    (db.updateAssessments r w).assessment? id = (db.assessment? id).map (w.onRow r) :=
  Tables.lookup_updateWhere w Prod.fst id

@[simp] theorem candidateAssessment?_updateSessions :
    (db.updateSessions p u).candidateAssessment? id = db.candidateAssessment? id := rfl

@[simp] theorem session?_updateCandidateAssessments :
    (db.updateCandidateAssessments q v).session? id = db.session? id := rfl

@[simp] theorem sessionOf?_updateCandidateAssessments :
    (db.updateCandidateAssessments q v).sessionOf? id = db.sessionOf? id := rfl

@[simp] theorem session?_recordEvent : (db.recordEvent event).session? id = db.session? id := rfl

@[simp] theorem sessionOf?_recordEvent :
    (db.recordEvent event).sessionOf? id = db.sessionOf? id := rfl

@[simp] theorem candidateAssessment?_recordEvent :
    (db.recordEvent event).candidateAssessment? id = db.candidateAssessment? id := rfl

@[simp] theorem eventLogs_updateSessions : (db.updateSessions p u).eventLogs = db.eventLogs := rfl

@[simp] theorem eventLogs_updateCandidateAssessments :
    (db.updateCandidateAssessments q v).eventLogs = db.eventLogs := rfl

@[simp] theorem eventLogs_recordEvent :
    (db.recordEvent event).eventLogs = db.eventLogs ++ [event] := rfl

variable {db id}

theorem id_of_session? {s : InterviewSession} (h : db.session? id = some s) : s.id = id :=
  Tables.lookup_key h

theorem session?_update {s : InterviewSession} (h : db.session? id = some s) (u : SessionUpdate) :
    (db.updateSessions (·.id == id) u).session? id = some (u.set s) := by
  rw [session?_updateSessions, h, Option.map_some, Tables.Update.onRow_of_true]
  simpa using id_of_session? h

theorem candidateAssessmentId_of_sessionOf? {s : InterviewSession}
    (h : db.sessionOf? id = some s) : s.candidateAssessmentId = id :=
  Tables.lookup_key h

theorem id_of_candidateAssessment? {ca : CandidateAssessment}
    (h : db.candidateAssessment? id = some ca) : ca.id = id :=
  Tables.lookup_key h

end Lookups

end Database

end IBotCoreApi
