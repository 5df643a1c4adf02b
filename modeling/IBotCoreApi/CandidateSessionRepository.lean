import IBotCoreApi.Database

namespace IBotCoreApi
open Python

/-- The columns of the enrollment, its candidate, assessment and recruiter that both lifecycle
contexts select. -/
structure LifecycleContext where
  candidateAssessmentId : Uuid
  candidateId : Uuid
  assessmentId : Uuid
  candidateAssessmentStatus : CandidateStatus
  interviewStartedAt : Option Time
  candidateName : String
  assessmentTitle : String
  interviewPlan : Option Json
  interviewDurationMins : ℤ
  windowEnd : Time
  companyName : String

structure InvitationContext extends LifecycleContext where
  inviteConsumed : Bool
  inviteConsumedAt : Option Time

structure SessionContext extends LifecycleContext where
  sessionId : Uuid
  sessionStatus : SessionStatus
  sessionToken : Option String
  sessionTokenExpiresAt : Option Time
  disconnectCount : ℤ
  timeoutDisconnectCount : ℤ
  lastDisconnectedAt : Option Time
  reconnectDeadline : Option Time
  activeConnectionId : Option String
  totalElapsedSecs : ℤ
  totalPauseSecs : ℤ
  violations : List Json

/-- `status IN ('INITIALIZING', 'IN_PROGRESS')`. -/
def InterviewSession.isActive (s : InterviewSession) : Bool :=
  s.status == .initializing || s.status == .inProgress

/-- The row that both `get_or_create` statements insert. -/
def InterviewSession.fresh (id candidateAssessmentId : Uuid) (clock : Clock) : InterviewSession where
  id := id
  candidateAssessmentId := candidateAssessmentId
  transcript := []
  violations := []
  status := .initializing
  totalElapsedSecs := 0
  totalPauseSecs := 0
  sessionToken := none
  sessionTokenExpiresAt := none
  disconnectCount := 0
  timeoutDisconnectCount := 0
  lastDisconnectedAt := none
  reconnectDeadline := none
  activeConnectionId := none
  lastUpdatedAt := clock.dbNow

/-- `INSERT … ON CONFLICT (candidate_assessment_id) DO NOTHING`, then `SELECT … FOR UPDATE`. -/
def Database.getOrCreateSession (db : Database) (clock : Clock) (newId candidateAssessmentId : Uuid) :
    Except ApiException (InterviewSession × Database) :=
  match db.sessionOf? candidateAssessmentId with
  | some session => .ok (session, db)
  | none =>
    if (db.session? newId).isSome then
      .error .integrityError
    else
      let session := InterviewSession.fresh newId candidateAssessmentId clock
      .ok (session, { db with interviewSessions := db.interviewSessions ++ [session] })

namespace CandidateSessionRepository

/-- The joins on candidate, assessment and recruiter. -/
def lifecycleContext (db : Database) (ca : CandidateAssessment) : Option LifecycleContext := do
  let candidate ← db.candidate? ca.candidateId
  let assessment ← db.assessment? ca.assessmentId
  return {
    candidateAssessmentId := ca.id
    candidateId := ca.candidateId
    assessmentId := ca.assessmentId
    candidateAssessmentStatus := ca.status
    interviewStartedAt := ca.interviewStartedAt
    candidateName := candidate.fullName
    assessmentTitle := assessment.title
    interviewPlan := assessment.interviewPlan
    interviewDurationMins := assessment.interviewDurationMins
    windowEnd := assessment.windowEnd
    companyName := ((db.recruiter? assessment.recruiterId).map (·.companyName)).getD "" }

def lockInvitationContext (db : Database) (invitationToken : Uuid) : Option InvitationContext := do
  let ca ← Tables.lookup (·.invitationToken) invitationToken db.candidateAssessments
  let context ← lifecycleContext db ca
  return {
    toLifecycleContext := context
    inviteConsumed := ca.inviteConsumed
    inviteConsumedAt := ca.inviteConsumedAt }

def getOrCreateSessionForUpdate (db : Database) (clock : Clock)
    (newId candidateAssessmentId : Uuid) : Except ApiException (InterviewSession × Database) :=
  db.getOrCreateSession clock newId candidateAssessmentId

/-- The `SET` of `consume_invitation`. -/
def consumed (clock : Clock) : CandidateUpdate where
  set ca := { ca with
    inviteConsumed := true
    inviteConsumedAt := ca.inviteConsumedAt <|> some clock.dbNow
    updatedAt := clock.dbNow }

def consumeInvitation (db : Database) (clock : Clock) (candidateAssessmentId : Uuid) : Database :=
  db.updateCandidateAssessments
    (fun ca => ca.id == candidateAssessmentId && !ca.inviteConsumed) (consumed clock)

/-- The `SET` of `set_session_credentials`. -/
def credentials (clock : Clock) (sessionToken : String) (expiresAt : Time) : SessionUpdate where
  set s := { s with
    sessionToken := some sessionToken
    sessionTokenExpiresAt := some expiresAt
    lastUpdatedAt := clock.dbNow }

/-- The unique constraint on `session_token` refuses a token that another row holds. -/
def setSessionCredentials (db : Database) (clock : Clock) (sessionId : Uuid) (sessionToken : String)
    (expiresAt : Time) : Except ApiException Database :=
  if db.interviewSessions.any fun s => s.id != sessionId && s.sessionToken == some sessionToken then
    .error .integrityError
  else
    .ok (db.updateSessions (·.id == sessionId) (credentials clock sessionToken expiresAt))

/-- The columns of the session that the authentication joins to its lifecycle context. -/
def sessionContext (context : LifecycleContext) (session : InterviewSession) : SessionContext where
  toLifecycleContext := context
  sessionId := session.id
  sessionStatus := session.status
  sessionToken := session.sessionToken
  sessionTokenExpiresAt := session.sessionTokenExpiresAt
  disconnectCount := session.disconnectCount
  timeoutDisconnectCount := session.timeoutDisconnectCount
  lastDisconnectedAt := session.lastDisconnectedAt
  reconnectDeadline := session.reconnectDeadline
  activeConnectionId := session.activeConnectionId
  totalElapsedSecs := session.totalElapsedSecs
  totalPauseSecs := session.totalPauseSecs
  violations := session.violations

def lockSessionContextByToken (db : Database) (sessionToken : String) : Option SessionContext := do
  let session ← Tables.lookup (·.sessionToken) (some sessionToken) db.interviewSessions
  let ca ← db.candidateAssessment? session.candidateAssessmentId
  let context ← lifecycleContext db ca
  return sessionContext context session

/-- The `SET` of `bind_active_connection`. -/
def bound (clock : Clock) (connectionId : String) : SessionUpdate where
  set s := { s with activeConnectionId := some connectionId, lastUpdatedAt := clock.dbNow }

def bindActiveConnection (db : Database) (clock : Clock) (sessionId : Uuid)
    (connectionId : String) : Database :=
  db.updateSessions (fun s => s.id == sessionId && s.isActive) (bound clock connectionId)

/-- `CAST(EXTRACT(epoch FROM d) AS INTEGER)`: seconds, halves rounded away from zero. -/
def epochSeconds (d : ℤ) : ℤ :=
  if 0 ≤ d then (d + 500000) / Time.second else -((-d + 500000) / Time.second)

/-- `COALESCE(GREATEST(0, …), 0)`: `GREATEST` skips a null. -/
def pauseSeconds (clock : Clock) (lastDisconnectedAt : Option Time) : ℤ :=
  match lastDisconnectedAt with
  | some t => max 0 (epochSeconds (clock.dbNow - t))
  | none => 0

/-- The `SET` of `restore_disconnected_session`. -/
def restored (clock : Clock) : SessionUpdate where
  set s := { s with
    status := .inProgress
    totalPauseSecs := s.totalPauseSecs + pauseSeconds clock s.lastDisconnectedAt
    reconnectDeadline := none
    activeConnectionId := none
    lastUpdatedAt := clock.dbNow }

/-- `SET status = 'IN_PROGRESS'` on the enrollment. -/
def candidateInProgress (clock : Clock) : CandidateUpdate where
  set ca := { ca with status := .inProgress, updatedAt := clock.dbNow }

/-- The `WHERE` of both statements that end a disconnection. -/
def isDisconnected (sessionId : Uuid) (s : InterviewSession) : Bool :=
  s.id == sessionId && s.status == .disconnected

def restoreDisconnectedSession (db : Database) (clock : Clock) (sessionId : Uuid) :
    Except ApiException (InterviewSession × Database) :=
  match db.interviewSessions.find? (isDisconnected sessionId) with
  | none => .error .noResultFound
  | some s => .ok ((restored clock).set s,
      (db.updateSessions (isDisconnected sessionId) (restored clock)).updateCandidateAssessments
        (·.id == s.candidateAssessmentId) (candidateInProgress clock))

/-- The `SET` of `_mark_candidate_terminated`. -/
def candidateTerminated (clock : Clock) : CandidateUpdate where
  set ca := { ca with
    status := .terminated
    interviewEndedAt := ca.interviewEndedAt <|> some clock.dbNow
    updatedAt := clock.dbNow }

def markCandidateTerminated (db : Database) (clock : Clock) (candidateAssessmentId : Uuid) :
    Database :=
  db.updateCandidateAssessments (·.id == candidateAssessmentId) (candidateTerminated clock)

/-- The `SET` of `terminate_reconnect_timeout`. -/
def timedOut (clock : Clock) : SessionUpdate where
  set s := { s with
    status := .terminated
    timeoutDisconnectCount := s.timeoutDisconnectCount + 1
    reconnectDeadline := none
    activeConnectionId := none
    lastUpdatedAt := clock.dbNow }

def terminateReconnectTimeout (db : Database) (clock : Clock) (sessionId : Uuid) :
    Except ApiException (InterviewSession × Database) :=
  match db.interviewSessions.find? (isDisconnected sessionId) with
  | none => .error .noResultFound
  | some s => .ok ((timedOut clock).set s,
      markCandidateTerminated (db.updateSessions (isDisconnected sessionId) (timedOut clock)) clock
        s.candidateAssessmentId)

/-- The `WHERE` of the disconnect statement: the current connection of an active session. -/
def acceptsDisconnect (sessionId : Uuid) (connectionId : String) (s : InterviewSession) : Bool :=
  s.id == sessionId && s.activeConnectionId == some connectionId && s.isActive

/-- The `SET` of the disconnect statement: the third drop terminates. -/
def disconnected (clock : Clock) (reconnectDeadline : Time) (elapsedSecs : ℤ) : SessionUpdate where
  set s :=
    let shouldTerminate := s.disconnectCount + 1 ≥ 3
    { s with
      disconnectCount := s.disconnectCount + 1
      status := if shouldTerminate then .terminated else .disconnected
      totalElapsedSecs := max s.totalElapsedSecs (max 0 elapsedSecs)
      lastDisconnectedAt := some clock.dbNow
      reconnectDeadline := if shouldTerminate then none else some reconnectDeadline
      activeConnectionId := none
      lastUpdatedAt := clock.dbNow }

def recordDisconnect (db : Database) (clock : Clock) (sessionId : Uuid) (connectionId : String)
    (reconnectDeadline : Time) (elapsedSecs : ℤ) : Option InterviewSession × Database :=
  let u := disconnected clock reconnectDeadline elapsedSecs
  match db.interviewSessions.find? (acceptsDisconnect sessionId connectionId) with
  | none => (none, db)
  | some s =>
    let db := db.updateSessions (acceptsDisconnect sessionId connectionId) u
    (some (u.set s), if (u.set s).status = .terminated then
      markCandidateTerminated db clock s.candidateAssessmentId else db)

end CandidateSessionRepository

end IBotCoreApi
