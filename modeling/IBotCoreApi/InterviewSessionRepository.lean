import IBotCoreApi.CandidateSessionRepository
import IBotCoreApi.Violations

namespace IBotCoreApi
open Python

structure RecordTabSwitchResponse where
  appended : Bool
  recorded : Bool
  tabSwitchCount : ℤ
  terminated : Bool
  status : SessionStatus

structure RecordProctoringEventOutcome where
  appended : Bool
  recorded : Bool
  occurrenceCount : ℤ
  terminated : Bool
  terminationReason : Json
  status : SessionStatus

def ofPython {α : Type} (value : Except PyError α) : Except ApiException α :=
  value.mapError ApiException.python

theorem ofPython_of_ok {α : Type} (a : α) : ofPython (.ok a) = .ok a := rfl

theorem ofPython_ok {α : Type} {value : Except PyError α} {a : α} (h : ofPython value = .ok a) :
    value = .ok a := by
  cases value with
  | error e => cases h
  | ok b =>
    cases h
    rfl

namespace InterviewSessionRepository

def getOrCreateSession (db : Database) (clock : Clock) (newId candidateAssessmentId : Uuid) :
    Except ApiException (InterviewSession × Database) :=
  db.getOrCreateSession clock newId candidateAssessmentId

def lockedSession (db : Database) (sessionId : Uuid) : Except ApiException InterviewSession :=
  match db.session? sessionId with
  | some session => .ok session
  | none => .error .noResultFound

variable [Runtime]

/-- `str(d.get(id_key) or "")`. -/
def idText (d : Json.Entries) (idKey : String) : String :=
  ((Json.get d idKey).orElse (.str "")).pyStr

/-- `any(str(existing.get(id_key) or "") == item_id for existing in current)`: an entry that is no
dict has no `get`. -/
def anyWithId (idKey itemId : String) : List Json → Except PyError Bool
  | [] => .ok false
  | .dict d :: rest => if idText d idKey = itemId then .ok true else anyWithId idKey itemId rest
  | _ :: _ => .error .attributeError

def appendUnique (items : List Json) (item : Json.Entries) (idKey : String) :
    Except ApiException (List Json × Bool) :=
  let itemId := idText item idKey
  if itemId = "" then
    .error (.invalidSessionAppend (idKey ++ " is required for idempotent append"))
  else do
    let known ← ofPython (anyWithId idKey itemId items)
    return if known then (items, false) else (items ++ [.dict item], true)

omit [Runtime] in
/-- The `SET` of `append_transcript_turn`. -/
def turnAppended (clock : Clock) (transcript : List Json) (totalElapsedSecs : ℤ) : SessionUpdate where
  set s := { s with
    transcript := transcript
    totalElapsedSecs := totalElapsedSecs
    lastUpdatedAt := clock.dbNow }

def appendTranscriptTurn (db : Database) (clock : Clock) (sessionId : Uuid) (turn : Json.Entries)
    (totalElapsedSecs : Option ℤ) : Except ApiException (Bool × Database) := do
  let session ← lockedSession db sessionId
  let (transcript, appended) ← appendUnique session.transcript turn "turn_id"
  let elapsed := match totalElapsedSecs with
    | some secs => max session.totalElapsedSecs (max 0 secs)
    | none => session.totalElapsedSecs
  return (appended,
    db.updateSessions (·.id == sessionId) (turnAppended clock transcript elapsed))

omit [Runtime] in
/-- `SET violations`. -/
def violationsSaved (clock : Clock) (violations : List Json) : SessionUpdate where
  set s := { s with violations := violations, lastUpdatedAt := clock.dbNow }

def appendViolation (db : Database) (clock : Clock) (sessionId : Uuid) (violation : Json.Entries) :
    Except ApiException (Bool × Database) := do
  let session ← lockedSession db sessionId
  let (violations, appended) ← appendUnique session.violations violation "violation_id"
  return (appended, if appended then
    db.updateSessions (·.id == sessionId) (violationsSaved clock violations) else db)

omit [Runtime] in
/-- What `_terminate_session` sets on the session. -/
def sessionTerminated : SessionUpdate where
  set s := { s with
    status := .terminated
    reconnectDeadline := none
    activeConnectionId := none }

omit [Runtime] in
/-- `_terminate_session`: both lifecycle rows. -/
def terminateSession (db : Database) (clock : Clock) (sessionId candidateAssessmentId : Uuid) :
    Database :=
  CandidateSessionRepository.markCandidateTerminated
    (db.updateSessions (·.id == sessionId) sessionTerminated) clock candidateAssessmentId

omit [Runtime] in
/-- The columns that a recorded violation writes; a terminating one ends both lifecycle rows. -/
def saveViolations (db : Database) (clock : Clock) (sessionId candidateAssessmentId : Uuid)
    (violations : List Json) (terminated : Bool) : Database :=
  let db := db.updateSessions (·.id == sessionId) (violationsSaved clock violations)
  if terminated then terminateSession db clock sessionId candidateAssessmentId else db

omit [Runtime] in
/-- The status of the row after `saveViolations`. -/
def statusAfter (session : InterviewSession) (terminated : Bool) : SessionStatus :=
  if terminated then .terminated else session.status

def recordTabSwitch (db : Database) (clock : Clock) (sessionId : Uuid) (connectionId : String)
    (candidateAssessmentId eventId : Uuid) (occurredAt : String) :
    Except ApiException (RecordTabSwitchResponse × Database) := do
  let session ← lockedSession db sessionId
  if session.candidateAssessmentId ≠ candidateAssessmentId then
    throw (.invalidSessionAppend "candidate_assessment_id does not match the interview session")
  let current := session.violations
  let currentCount := tabSwitchCount current
  let ignored : RecordTabSwitchResponse := {
    appended := false
    recorded := false
    tabSwitchCount := currentCount
    terminated := session.status == .terminated
    status := session.status }
  if !session.isActive || session.activeConnectionId != some connectionId then
    return (ignored, db)
  let tabViolations := current.filter (hasType tabSwitchViolationType)
  if eventId.str ∈ eventIds tabViolations then
    return (ignored, db)
  let occurrenceCount := currentCount + 1
  let terminated : Bool := occurrenceCount ≥ maxAllowedTabSwitches
  let violation ← ofPython
    (tabSwitchViolation tabViolations session.transcript currentCount eventId.str occurredAt)
  let violations := replaceViolationType current tabSwitchViolationType violation
  return ({
    appended := tabViolations.isEmpty
    recorded := true
    tabSwitchCount := occurrenceCount
    terminated := terminated
    status := statusAfter session terminated },
    saveViolations db clock sessionId candidateAssessmentId violations terminated)

omit [Runtime] in
/-- `min_confidence is not None and max_confidence is not None and min_confidence > max_confidence`. -/
def confidenceInverted (event : FaceEvent) : Bool :=
  match event.minConfidence, event.maxConfidence with
  | some minConfidence, some maxConfidence => minConfidence > maxConfidence
  | _, _ => false

omit [Runtime] in
/-- The checks of a face event against its policy, in the order of the source. -/
def validateFaceEvent (event : FaceEvent) : Except ApiException (ℤ × ℤ) :=
  match faceProctoringPolicies event.eventType with
  | none => .error (.invalidSessionAppend "unsupported proctoring event type")
  | some policy =>
    if event.observedDurationMs < policy.1 then
      .error (.invalidSessionAppend
        (event.eventType ++ " must persist for at least " ++ toString policy.1 ++ "ms"))
    else if event.source = "camera_state" ∧ event.eventType ≠ "face_absent" then
      .error (.invalidSessionAppend "camera_state can only report a face_absent event")
    else if event.eventType = "face_absent" ∧ event.maxFaceCount ≠ 0 then
      .error (.invalidSessionAppend "face_absent cannot report a positive face count")
    else if event.eventType = "multiple_faces" ∧ event.maxFaceCount < 2 then
      .error (.invalidSessionAppend "multiple_faces must report at least two faces")
    else if confidenceInverted event then
      .error (.invalidSessionAppend "min_confidence cannot exceed max_confidence")
    else .ok policy

/-- `recordedAt` is the `isoformat()` of the `datetime.now(UTC)` that the call reads. -/
def recordProctoringEvent (db : Database) (clock : Clock) (sessionId : Uuid)
    (connectionId : String) (candidateAssessmentId : Uuid) (event : FaceEvent) :
    Except ApiException (RecordProctoringEventOutcome × Database) := do
  let session ← lockedSession db sessionId
  if session.candidateAssessmentId ≠ candidateAssessmentId then
    throw (.invalidSessionAppend "candidate_assessment_id does not match the interview session")
  let policy ← validateFaceEvent event
  let current := session.violations
  let existing := current.filter (hasType event.eventType)
  let existingMetadata := metadata (existing.headD (.dict []))
  if !session.isActive || session.activeConnectionId != some connectionId then
    return ({
      appended := false
      recorded := false
      occurrenceCount :=
        (positiveInt (Json.get existingMetadata "occurrence_count")).getD existing.length
      terminated := session.status == .terminated
      terminationReason := Json.get existingMetadata "termination_reason"
      status := session.status }, db)
  let recordedAt := Time.isoformat clock.utcNow
  let episodes ← ofPython (faceEpisodes existing)
  let ids := eventIds existing
  let episode := episodes.find? (startsAt event.conditionStartedAt)
  let previousDurationMs ← ofPython (previousDuration episode)
  if event.eventId.str ∈ ids ∧ event.observedDurationMs ≤ previousDurationMs then
    return ({
      appended := false
      recorded := false
      occurrenceCount := if episodes.isEmpty then existing.length else episodes.length
      terminated := false
      terminationReason := .null
      status := session.status }, db)
  let ids := FirstOccurrences.pushNew ids event.eventId.str
  let payload ← ofPython (mergeFaceEpisode episode event recordedAt)
  let episodes := putEpisode event.conditionStartedAt payload episodes
  let terminated : Bool := event.observedDurationMs ≥ policy.2
  let violation ← ofPython
    (faceViolation existing session.transcript policy event connectionId recordedAt ids episodes)
  let violations := replaceViolationType current event.eventType violation
  return ({
    appended := existing.isEmpty
    recorded := true
    occurrenceCount := episodes.length
    terminated := terminated
    terminationReason := if terminated then .str (terminationReason event.eventType) else .null
    status := statusAfter session terminated },
    saveViolations db clock sessionId candidateAssessmentId violations terminated)

omit [Runtime] in
/-- The `SET` of `update_elapsed_time`. -/
def elapsed (clock : Clock) (elapsedSecs totalPauseSecs : ℤ) : SessionUpdate where
  set s := { s with
    totalElapsedSecs := max s.totalElapsedSecs (max 0 elapsedSecs)
    totalPauseSecs := max s.totalPauseSecs (max 0 totalPauseSecs)
    lastUpdatedAt := clock.dbNow }

omit [Runtime] in
def updateElapsedTime (db : Database) (clock : Clock) (sessionId : Uuid)
    (elapsedSecs totalPauseSecs : ℤ) : Database :=
  db.updateSessions (·.id == sessionId) (elapsed clock elapsedSecs totalPauseSecs)

omit [Runtime] in
/-- The `SET` of `mark_session_in_progress`. -/
def inProgress (clock : Clock) : SessionUpdate where
  set s := { s with
    status := .inProgress
    reconnectDeadline := none
    lastUpdatedAt := clock.dbNow }

omit [Runtime] in
def markSessionInProgress (db : Database) (clock : Clock) (sessionId : Uuid) : Database :=
  db.updateSessions (·.id == sessionId) (inProgress clock)

omit [Runtime] in
/-- The `SET` of `complete_session`. -/
def completed (clock : Clock) (totalElapsedSecs : ℤ) : SessionUpdate where
  set s := { s with
    status := .completed
    totalElapsedSecs := max 0 totalElapsedSecs
    reconnectDeadline := none
    activeConnectionId := none
    lastUpdatedAt := clock.dbNow }

omit [Runtime] in
def completeSession (db : Database) (clock : Clock) (sessionId : Uuid) (totalElapsedSecs : ℤ) :
    Database :=
  db.updateSessions (·.id == sessionId) (completed clock totalElapsedSecs)

end InterviewSessionRepository

namespace AssessmentContextRepository

structure InterviewContext where
  interviewStartedAt : Option Time
  resumeParsed : Option Json
  candidateName : String
  roleName : String
  jdAnalysis : Option Json
  interviewPlan : Option Json
  interviewDurationMins : ℤ
  companyName : String

def loadInterviewContext (db : Database) (candidateAssessmentId : Uuid) :
    Option InterviewContext := do
  let ca ← db.candidateAssessment? candidateAssessmentId
  let candidate ← db.candidate? ca.candidateId
  let assessment ← db.assessment? ca.assessmentId
  return {
    interviewStartedAt := ca.interviewStartedAt
    resumeParsed := ca.resumeParsed
    candidateName := candidate.fullName
    roleName := assessment.roleName
    jdAnalysis := assessment.jdAnalysis
    interviewPlan := assessment.interviewPlan
    interviewDurationMins := assessment.interviewDurationMins
    companyName := ((db.recruiter? assessment.recruiterId).map (·.companyName)).getD "" }

def markCandidateStarted (db : Database) (clock : Clock) (candidateAssessmentId : Uuid) :
    Database :=
  db.updateCandidateAssessments (·.id == candidateAssessmentId)
    (CandidateSessionRepository.candidateInProgress clock)

/-- The `SET` of `mark_candidate_timer_started`. -/
def timerStarted (clock : Clock) : CandidateUpdate where
  set ca := { ca with
    status := .inProgress
    interviewStartedAt := ca.interviewStartedAt <|> some clock.dbNow
    updatedAt := clock.dbNow }

def markCandidateTimerStarted (db : Database) (clock : Clock) (candidateAssessmentId : Uuid) :
    Except ApiException (Time × Database) :=
  match db.candidateAssessment? candidateAssessmentId with
  | none => .error .noResultFound
  | some ca =>
    match ((timerStarted clock).set ca).interviewStartedAt with
    | none => .error (.interviewConfiguration "Interview start timestamp was not persisted")
    | some startedAt => .ok (startedAt,
      db.updateCandidateAssessments (·.id == candidateAssessmentId) (timerStarted clock))

/-- The `SET` of `mark_candidate_completed`. -/
def candidateCompleted (clock : Clock) : CandidateUpdate where
  set ca := { ca with
    status := .completed
    interviewEndedAt := ca.interviewEndedAt <|> some clock.dbNow
    updatedAt := clock.dbNow }

def markCandidateCompleted (db : Database) (clock : Clock) (candidateAssessmentId : Uuid) :
    Database :=
  db.updateCandidateAssessments (·.id == candidateAssessmentId) (candidateCompleted clock)

end AssessmentContextRepository

end IBotCoreApi
