import IBotCoreApi.EvaluationRepository
import IBotCoreApi.InterviewSessionService

namespace IBotCoreApi
open Python

inductive SessionRequest where
  | enterWithInvitation (draws : EntryDraws) (invitationToken : Uuid)
  | getSessionContext (sessionToken : String)
  | authorizeInterviewConnection (draw : Uuid) (sessionToken : String)
  | authorizeDemo (sessionToken : String)
  | recordDisconnect (sessionId : Uuid) (connectionId : String) (candidateAssessmentId : Uuid)
      (reason : String) (elapsedSecs : ℤ)
  | createEventLog (event : EventLog)
  | initializeInterviewContext (newSessionId candidateAssessmentId : Uuid)
  | persistTurn (sessionId : Uuid) (transcriptItems violations : List Json.Entries)
      (elapsedSecs : Option ℤ)
  | recordTabSwitch (sessionId : Uuid) (connectionId : String)
      (candidateAssessmentId eventId : Uuid) (occurredAt : String)
  | recordProctoringEvent (sessionId : Uuid) (connectionId : String)
      (candidateAssessmentId : Uuid) (event : FaceEvent)
  | markSessionInProgress (sessionId : Uuid)
  | completeSession (sessionId : Uuid) (totalElapsedSecs : ℤ)
  | markCandidateTimerStarted (candidateAssessmentId : Uuid)
  | markCandidateStarted (candidateAssessmentId : Uuid)
  | markCandidateCompleted (candidateAssessmentId : Uuid)
  | markEvaluationFailed (candidateAssessmentId : Uuid)
  | saveFinalEvaluation (draws : EvaluationRepository.EvaluationDraws) (record : FinalEvaluationRecord)
      (recruiterEmail : String)

inductive SessionResponse where
  | bootstrap (data : CandidateSessionBootstrapResponse)
  | connection (data : CandidateConnectionContext)
  | demo (data : SessionContext)
  | disconnect (outcome : Option InterviewSession)
  | context (context : AssessmentContextRepository.InterviewContext) (session : InterviewSession)
  | tabSwitch (data : RecordTabSwitchResponse)
  | proctoring (data : RecordProctoringEventOutcome)
  | timerStarted (startedAt : Time)
  | evaluation (notificationId : Uuid) (sentAt : Time)
  | ok

abbrev SessionResult := Except ApiException SessionResponse

structure Call where
  clock : Clock
  request : SessionRequest

namespace InternalInterview

def respond {α : Type} (response : α → SessionResponse)
    (outcome : Except ApiException α × Database) : SessionResult × Database :=
  (outcome.1.map response, outcome.2)

def initializeInterviewContext (db : Database) (clock : Clock)
    (newSessionId candidateAssessmentId : Uuid) :
    Except ApiException
      ((AssessmentContextRepository.InterviewContext × InterviewSession) × Database) :=
  match AssessmentContextRepository.loadInterviewContext db candidateAssessmentId with
  | none => .error (.interviewContextNotFound
      ("Candidate assessment context not found: " ++ candidateAssessmentId.str))
  | some context => do
    let (session, db) ← InterviewSessionRepository.getOrCreateSession db clock newSessionId
      candidateAssessmentId
    let db := InterviewSessionRepository.markSessionInProgress db clock session.id
    let db := AssessmentContextRepository.markCandidateStarted db clock candidateAssessmentId
    return ((context, session), db)

variable [Runtime]

/-- The transcript items, then the violations, then the elapsed time. -/
def persistTurn (db : Database) (clock : Clock) (sessionId : Uuid)
    (transcriptItems violations : List Json.Entries) (elapsedSecs : Option ℤ) :
    Except ApiException (Unit × Database) := do
  let db ← transcriptItems.foldlM (fun db item => Prod.snd <$>
    InterviewSessionRepository.appendTranscriptTurn db clock sessionId item none) db
  let db ← violations.foldlM (fun db violation => Prod.snd <$>
    InterviewSessionRepository.appendViolation db clock sessionId violation) db
  return ((), match elapsedSecs with
    | some secs => InterviewSessionRepository.updateElapsedTime db clock sessionId secs 0
    | none => db)

omit [Runtime] in
/-- `RecordProctoringEventResponse.model_validate`: the stored reason is a text or null. -/
def validateOutcome (outcome : RecordProctoringEventOutcome) :
    Except ApiException RecordProctoringEventOutcome :=
  match outcome.terminationReason with
  | .null | .str _ => .ok outcome
  | _ => .error (.python .valueError)

def recordProctoringEvent (db : Database) (clock : Clock) (sessionId : Uuid)
    (connectionId : String) (candidateAssessmentId : Uuid) (event : FaceEvent) :
    Except ApiException (RecordProctoringEventOutcome × Database) := do
  let (outcome, db) ← InterviewSessionRepository.recordProctoringEvent db clock sessionId
    connectionId candidateAssessmentId event
  let response ← validateOutcome outcome
  return (response, db)

def handle (db : Database) (call : Call) : SessionResult × Database :=
  let clock := call.clock
  match call.request with
  | .enterWithInvitation draws invitationToken =>
    respond .bootstrap
      (InterviewSessionService.enterWithInvitation db clock draws invitationToken)
  | .getSessionContext sessionToken =>
    respond .bootstrap (InterviewSessionService.getSessionContext db clock sessionToken, db)
  | .authorizeInterviewConnection draw sessionToken =>
    respond .connection
      (InterviewSessionService.authorizeInterviewConnection db clock draw sessionToken)
  | .authorizeDemo sessionToken =>
    respond .demo (InterviewSessionService.authorizeDemo db clock sessionToken, db)
  | .recordDisconnect sessionId connectionId candidateAssessmentId reason elapsedSecs =>
    let (outcome, db) := InterviewSessionService.recordDisconnect db clock sessionId connectionId
      candidateAssessmentId reason elapsedSecs
    (.ok (.disconnect outcome), db)
  | .createEventLog event => (.ok .ok, db.recordEvent event)
  | .initializeInterviewContext newSessionId candidateAssessmentId =>
    respond (fun data => .context data.1 data.2)
      (transact db (initializeInterviewContext db clock newSessionId candidateAssessmentId))
  | .persistTurn sessionId transcriptItems violations elapsedSecs =>
    respond (fun _ => .ok)
      (transact db (persistTurn db clock sessionId transcriptItems violations elapsedSecs))
  | .recordTabSwitch sessionId connectionId candidateAssessmentId eventId occurredAt =>
    respond .tabSwitch (transact db (InterviewSessionRepository.recordTabSwitch db clock sessionId
      connectionId candidateAssessmentId eventId occurredAt))
  | .recordProctoringEvent sessionId connectionId candidateAssessmentId event =>
    respond .proctoring (transact db
      (recordProctoringEvent db clock sessionId connectionId candidateAssessmentId event))
  | .markSessionInProgress sessionId =>
    (.ok .ok, InterviewSessionRepository.markSessionInProgress db clock sessionId)
  | .completeSession sessionId totalElapsedSecs =>
    (.ok .ok, InterviewSessionRepository.completeSession db clock sessionId totalElapsedSecs)
  | .markCandidateTimerStarted candidateAssessmentId =>
    respond .timerStarted (transact db
      (AssessmentContextRepository.markCandidateTimerStarted db clock candidateAssessmentId))
  | .markCandidateStarted candidateAssessmentId =>
    (.ok .ok, AssessmentContextRepository.markCandidateStarted db clock candidateAssessmentId)
  | .markCandidateCompleted candidateAssessmentId =>
    (.ok .ok, AssessmentContextRepository.markCandidateCompleted db clock candidateAssessmentId)
  | .markEvaluationFailed candidateAssessmentId =>
    (.ok .ok, EvaluationRepository.markEvaluationFailed db clock candidateAssessmentId)
  | .saveFinalEvaluation draws record recruiterEmail =>
    respond (fun (notification : NotificationLog) => .evaluation notification.id notification.sentAt)
      (transact db (EvaluationRepository.saveFinalEvaluation db clock draws record recruiterEmail))

end InternalInterview

end IBotCoreApi
