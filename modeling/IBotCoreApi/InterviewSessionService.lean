import IBotCoreApi.InterviewSessionRepository
import IBotCoreApi.Library.Pydantic

namespace IBotCoreApi
open Python

def reconnectWindow : ℤ := 5 * Time.minute

def terminalSessionStatuses : List SessionStatus :=
  [.completed, .evaluated, .evaluationFailed, .deactivated, .terminated]

def terminalCandidateStatuses : List CandidateStatus := [.completed, .evaluated, .terminated]

/-- What `_bootstrap_response` reads of the session. -/
structure BootstrapSession where
  sessionToken : Option String
  sessionTokenExpiresAt : Option Time
  status : SessionStatus
  reconnectDeadline : Option Time
  disconnectCount : ℤ

structure CandidateSessionBootstrapResponse where
  sessionToken : String
  sessionTokenExpiresAt : Time
  sessionStatus : SessionStatus
  inviteReissued : Bool
  interviewStarted : Bool
  reconnectDeadline : Option Time
  disconnectCount : ℤ
  candidateName : String
  companyName : String
  assessmentTitle : String
  interviewDurationMins : ℤ
  windowEnd : Time
  status : CandidateStatus
  sectionsOverview : List String

structure CandidateConnectionContext where
  sessionId : Uuid
  connectionId : String
  candidateAssessmentId : Uuid
  candidateId : Uuid
  assessmentId : Uuid
  candidateName : String
  sessionTokenExpiresAt : Time
  elapsedSecs : ℤ
  interviewStarted : Bool
  tabSwitchCount : ℤ

/-- `text or default`. -/
def orText (text default : String) : String := if text = "" then default else text

/-- `value.isoformat() if value is not None else None`. -/
def optionalIsoformat : Option Time → Json
  | some t => .str (Time.isoformat t)
  | none => .null

/-- What an entry draws at random: the id of a new session row and `secrets.token_urlsafe(48)`. -/
structure EntryDraws where
  sessionId : Uuid
  sessionToken : String

namespace InterviewSessionService

def record (db : Database) (eventName : EventName) (correlationId : String)
    (candidateAssessmentId : Option Uuid) (metadata : Json.Entries) : Database :=
  db.recordEvent {
    eventName := eventName
    sourceService := .interviewEngine
    correlationId := correlationId
    candidateAssessmentId := candidateAssessmentId
    recruiterId := none
    metadata := metadata
    errorMessage := none
    durationMs := none }

/-- How a request ends once its transaction is committed: `raise rejection`, or the response. -/
def conclude {α : Type} (missing : ApiException) (rejection : Option ApiException)
    (response : Option α) : Except ApiException α :=
  match rejection, response with
  | some e, _ => .error e
  | none, none => .error missing
  | none, some r => .ok r

section Entry

variable [Runtime]

def sectionsOverview (interviewPlan : Option Json) : List String :=
  match (interviewPlan.getD .null).field "sections" with
  | .list sections => sections.filterMap fun section_ =>
      if (section_.field "section_name").truthy then some (section_.field "section_name").pyStr
      else none
  | _ => []

/-- The model of the response strips its texts; a token that the service has drawn is as it is. -/
def bootstrapResponse (context : LifecycleContext) (session : BootstrapSession)
    (inviteReissued : Bool) : Except ApiException CandidateSessionBootstrapResponse :=
  match session.sessionTokenExpiresAt with
  | none => .error .sessionTokenExpiryMissing
  | some expiresAt => .ok {
      sessionToken := session.sessionToken.getD "None"
      sessionTokenExpiresAt := expiresAt
      sessionStatus := session.status
      inviteReissued := inviteReissued
      interviewStarted := context.interviewStartedAt.isSome
      reconnectDeadline := session.reconnectDeadline
      disconnectCount := session.disconnectCount
      candidateName := Pydantic.trim (orText context.candidateName "Candidate")
      companyName := Pydantic.trim (orText context.companyName "the company")
      assessmentTitle := Pydantic.trim (orText context.assessmentTitle "Interview")
      interviewDurationMins := context.interviewDurationMins
      windowEnd := context.windowEnd
      status := context.candidateAssessmentStatus
      sectionsOverview := (sectionsOverview context.interviewPlan).map Pydantic.trim }

omit [Runtime] in
/-- `window_end <= now` for an interview that has not started. -/
def windowExpired (context : LifecycleContext) (now : Time) : Bool :=
  decide (context.windowEnd ≤ now) && context.interviewStartedAt.isNone

omit [Runtime] in
def isTerminal (sessionStatus : SessionStatus) (candidateStatus : CandidateStatus) : Bool :=
  terminalSessionStatuses.contains sessionStatus || terminalCandidateStatuses.contains candidateStatus

omit [Runtime] in
/-- The expiry of a new token: an hour after the window, or the interview and an hour from now. -/
def newExpiry (context : LifecycleContext) (now : Time) : Time :=
  let durationMins := max 1 context.interviewDurationMins
  let minimumExpiry := now + (durationMins + 60) * Time.minute
  max minimumExpiry (context.windowEnd + Time.hour)

omit [Runtime] in
/-- The token and expiry of a session, drawn and stored when it has none. -/
def issueCredentials (db : Database) (clock : Clock) (context : LifecycleContext)
    (session : InterviewSession) (token : String) :
    Except ApiException (Option String × Option Time × Database) :=
  if (session.sessionToken.getD "") = "" then do
    let expiresAt := newExpiry context clock.utcNow
    let db ← CandidateSessionRepository.setSessionCredentials db clock session.id token expiresAt
    return (some token, some expiresAt, db)
  else
    .ok (session.sessionToken, session.sessionTokenExpiresAt, db)

/-- The branch of `enter_with_invitation` that admits the candidate. -/
def admitEntry (db : Database) (clock : Clock) (draws : EntryDraws) (context : InvitationContext)
    (session : InterviewSession) :
    Except ApiException (CandidateSessionBootstrapResponse × Database) := do
  let (token, expiresAt, db) ←
    issueCredentials db clock context.toLifecycleContext session draws.sessionToken
  let db := if context.inviteConsumed then db
    else CandidateSessionRepository.consumeInvitation db clock context.candidateAssessmentId
  let db := record db
    (if context.inviteConsumed then .sessionTokenReissued else .inviteLinkConsumed)
    session.id.str (some context.candidateAssessmentId) [
      ("session_status", .str session.status.text),
      ("session_token_expires_at", optionalIsoformat expiresAt)]
  let response ← bootstrapResponse context.toLifecycleContext {
    sessionToken := token
    sessionTokenExpiresAt := expiresAt
    status := session.status
    reconnectDeadline := session.reconnectDeadline
    disconnectCount := session.disconnectCount } context.inviteConsumed
  return (response, db)

/-- The transaction of `enter_with_invitation`: a rejection or a response, and the rows. -/
def entryTransaction (db : Database) (clock : Clock) (draws : EntryDraws) (invitationToken : Uuid) :
    Except ApiException
      ((Option ApiException × Option CandidateSessionBootstrapResponse) × Database) :=
  match CandidateSessionRepository.lockInvitationContext db invitationToken with
  | none => .ok ((some .invalidInvitation, none),
      record db .inviteLinkRejected invitationToken.str none
        [("reason", .str "invitation_not_found")])
  | some context => do
    let (session, db) ← CandidateSessionRepository.getOrCreateSessionForUpdate db clock
      draws.sessionId context.candidateAssessmentId
    let reject (metadata : Json.Entries) : Database :=
      record db .inviteLinkRejected session.id.str (some context.candidateAssessmentId) metadata
    if windowExpired context.toLifecycleContext clock.utcNow then
      return ((some .sessionExpired, none), reject [
        ("reason", .str "assessment_window_expired"),
        ("window_end", .str (Time.isoformat context.windowEnd))])
    else if isTerminal session.status context.candidateAssessmentStatus then
      return ((some .sessionClosed, none), reject [
        ("reason", .str "session_terminal"),
        ("session_status", .str session.status.text),
        ("candidate_assessment_status", .str context.candidateAssessmentStatus.text)])
    else if context.inviteConsumed && session.sessionTokenExpiresAt.any (· ≤ clock.utcNow) then
      return ((some .sessionExpired, none), reject [
        ("reason", .str "session_token_expired"),
        ("session_status", .str session.status.text)])
    else do
      let (response, db) ← admitEntry db clock draws context session
      return ((none, some response), db)

def enterWithInvitation (db : Database) (clock : Clock) (draws : EntryDraws)
    (invitationToken : Uuid) :
    Except ApiException CandidateSessionBootstrapResponse × Database :=
  let (result, db) := transact db (entryTransaction db clock draws invitationToken)
  (result.bind fun (rejection, response) =>
    conclude (.sessionBootstrapFailed "Candidate session entry produced no result")
      rejection response, db)

omit [Runtime] in
/-- `_validate_active_token`: why a token is refused. -/
def validateActiveToken (context : Option SessionContext) (now : Time) : Option ApiException :=
  match context with
  | none => some .invalidSessionToken
  | some context =>
    if context.sessionTokenExpiresAt.all (· ≤ now) then some .sessionExpired
    else if windowExpired context.toLifecycleContext now then some .sessionExpired
    else if isTerminal context.sessionStatus context.candidateAssessmentStatus then
      some .sessionClosed
    else none

def getSessionContext (db : Database) (clock : Clock) (sessionToken : String) :
    Except ApiException CandidateSessionBootstrapResponse :=
  let context := CandidateSessionRepository.lockSessionContextByToken db sessionToken
  match validateActiveToken context clock.utcNow, context with
  | some rejection, _ => .error rejection
  | none, none =>
    .error (.sessionBootstrapFailed "Candidate session context produced no result")
  | none, some context => bootstrapResponse context.toLifecycleContext {
      sessionToken := context.sessionToken
      sessionTokenExpiresAt := context.sessionTokenExpiresAt
      status := context.sessionStatus
      reconnectDeadline := context.reconnectDeadline
      disconnectCount := context.disconnectCount } false

omit [Runtime] in
def authorizeDemo (db : Database) (clock : Clock) (sessionToken : String) :
    Except ApiException SessionContext :=
  let context := CandidateSessionRepository.lockSessionContextByToken db sessionToken
  match validateActiveToken context clock.utcNow, context with
  | some rejection, _ => .error rejection
  | none, none => .error .invalidSessionToken
  | none, some context =>
    if context.sessionStatus = .disconnected then
      .error (.forbidden "Resume the active interview instead of starting a demo.")
    else .ok context

end Entry

/-- Why a lazily enforced reconnect fails or not: the deadline has passed or was never set. -/
def reconnectExpired (reconnectDeadline : Option Time) (now : Time) : Bool :=
  reconnectDeadline.all (· < now)

def resolveDisconnected (db : Database) (clock : Clock) (context : SessionContext) :
    Except ApiException (Option ApiException × Database) :=
  if reconnectExpired context.reconnectDeadline clock.utcNow then do
    let (terminated, db) ←
      CandidateSessionRepository.terminateReconnectTimeout db clock context.sessionId
    let db := record db .sessionDisconnectTimeoutRecorded context.sessionId.str
      (some context.candidateAssessmentId) [
        ("timeout_disconnect_count", .int terminated.timeoutDisconnectCount),
        ("reconnect_deadline", optionalIsoformat context.reconnectDeadline)]
    let db := record db .sessionTerminatedReconnectTimeout context.sessionId.str
      (some context.candidateAssessmentId) [
        ("timeout_disconnect_count", .int terminated.timeoutDisconnectCount),
        ("disconnect_count", .int terminated.disconnectCount)]
    return (some .reconnectTimeout, db)
  else do
    let (restored, db) ←
      CandidateSessionRepository.restoreDisconnectedSession db clock context.sessionId
    return (none, record db .sessionReconnected context.sessionId.str
      (some context.candidateAssessmentId) [
        ("disconnect_count", .int restored.disconnectCount),
        ("timeout_disconnect_count", .int restored.timeoutDisconnectCount),
        ("reconnected_at", .str (Time.isoformat clock.utcNow))])

/-- A new id for an interview in progress, else the one already bound. -/
def chooseConnectionId (context : SessionContext) (draw : Uuid) : String :=
  if context.sessionStatus = .inProgress then draw.hex
  else orText (context.activeConnectionId.getD "") draw.hex

/-- The end of `authorize_interview_connection`: the connection is bound and returned. -/
def bindConnection (db : Database) (clock : Clock) (draw : Uuid) (context : SessionContext) :
    (Option ApiException × Option CandidateConnectionContext) × Database :=
  let connectionId := chooseConnectionId context draw
  let response : CandidateConnectionContext := {
    sessionId := context.sessionId
    connectionId := connectionId
    candidateAssessmentId := context.candidateAssessmentId
    candidateId := context.candidateId
    assessmentId := context.assessmentId
    candidateName := Pydantic.trim (orText context.candidateName "Candidate")
    sessionTokenExpiresAt := context.sessionTokenExpiresAt.getD clock.utcNow
    elapsedSecs := max 0 context.totalElapsedSecs
    interviewStarted := context.interviewStartedAt.isSome
    tabSwitchCount := tabSwitchCount context.violations }
  ((none, some response),
    CandidateSessionRepository.bindActiveConnection db clock context.sessionId connectionId)

/-- The transaction of `authorize_interview_connection`. -/
def authorizeTransaction (db : Database) (clock : Clock) (draw : Uuid) (sessionToken : String) :
    Except ApiException ((Option ApiException × Option CandidateConnectionContext) × Database) :=
  let context := CandidateSessionRepository.lockSessionContextByToken db sessionToken
  match validateActiveToken context clock.utcNow, context with
  | some rejection, _ => .ok ((some rejection, none), db)
  | none, none => .ok ((none, none), db)
  | none, some context =>
    if context.sessionStatus = .disconnected then
      match resolveDisconnected db clock context with
      | .error e => .error e
      | .ok (some rejection, db) => .ok ((some rejection, none), db)
      | .ok (none, db) => .ok (bindConnection db clock draw context)
    else .ok (bindConnection db clock draw context)

def authorizeInterviewConnection (db : Database) (clock : Clock) (draw : Uuid)
    (sessionToken : String) : Except ApiException CandidateConnectionContext × Database :=
  let (result, db) := transact db (authorizeTransaction db clock draw sessionToken)
  (result.bind fun (rejection, response) =>
    conclude .interviewConnectionFailed rejection response, db)

def recordDisconnect (db : Database) (clock : Clock) (sessionId : Uuid) (connectionId : String)
    (candidateAssessmentId : Uuid) (reason : String) (elapsedSecs : ℤ) :
    Option InterviewSession × Database :=
  let reconnectDeadline := clock.utcNow + reconnectWindow
  match CandidateSessionRepository.recordDisconnect db clock sessionId connectionId
      reconnectDeadline elapsedSecs with
  | (none, db) => (none, db)
  | (some outcome, db) =>
    let reason : Json := .str (orText reason "livekit_session_closed")
    if outcome.status = .terminated then
      (some outcome, record db .sessionTerminatedMaxDisconnects sessionId.str
        (some candidateAssessmentId) [
          ("reason", reason),
          ("disconnect_count", .int outcome.disconnectCount),
          ("elapsed_secs", .int (max 0 elapsedSecs))])
    else
      (some outcome, record db .sessionDisconnected sessionId.str (some candidateAssessmentId) [
        ("reason", reason),
        ("disconnect_count", .int outcome.disconnectCount),
        ("timeout_disconnect_count", .int outcome.timeoutDisconnectCount),
        ("reconnect_deadline", .str (Time.isoformat reconnectDeadline)),
        ("elapsed_secs", .int (max 0 elapsedSecs))])

end InterviewSessionService

end IBotCoreApi
