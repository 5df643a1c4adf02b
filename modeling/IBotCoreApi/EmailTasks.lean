import IBotCoreApi.Database
import IBotCoreApi.SkillMatching
import IBotCoreApi.Library.Redelivery

namespace IBotCoreApi
open Python

/-- An e-mail that Brevo is asked to send, before it is rendered. -/
inductive Email where
  | invitation (candidateName recipientEmail assessmentTitle roleName invitationLink : String)
      (interviewDurationMins : ℤ)
  | cancellation (candidateName recipientEmail assessmentTitle roleName : String)
  | reportReady (recruiterEmail recruiterName candidateName assessmentTitle roleName : String)
      (overallScore : Option ℚ) (hiringRecommendation : Option String) (reportLink : String)

/-- A row of `notification_logs` with its `error_message`. -/
structure NotificationEntry extends NotificationLog where
  errorMessage : Option String

/-- The e-mails that have gone out for a message, and the rows that its tasks have committed. -/
structure Outbox where
  emails : List Email
  notificationLogs : List NotificationEntry

/-- The name of the class and the `str` of an exception. -/
structure TaskException where
  typeName : String
  text : String

/-- What ends a task early.  When the process dies no handler runs. -/
inductive Interruption where
  | raised (exception : TaskException)
  | died

/-- How a call of the mail provider, the database or the broker ends.  A call that raises, or during
which the process dies, may have taken effect all the same. -/
inductive CallOutcome where
  | returned
  | raised (tookEffect : Bool) (exception : TaskException)
  | died (tookEffect : Bool)

namespace CallOutcome

def tookEffect : CallOutcome → Bool
  | .returned => true
  | .raised tookEffect _ | .died tookEffect => tookEffect

def isRaised : CallOutcome → Bool
  | .raised _ _ => true
  | _ => false

def result : CallOutcome → Except Interruption Unit
  | .returned => .ok ()
  | .raised _ exception => .error (.raised exception)
  | .died _ => .error .died

end CallOutcome

abbrev TaskM := ExceptT Interruption (StateM Outbox)

def CallOutcome.perform (outcome : CallOutcome) (effect : Outbox → Outbox) : TaskM Unit :=
  ExceptT.mk do
    if outcome.tookEffect then modify effect
    pure outcome.result

/-- The row of `load_report_email_context`. -/
structure ReportEmailContext where
  candidateName : Option String
  assessmentTitle : Option String
  roleName : Option String
  recruiterName : Option String
  overallScore : Option ℚ
  hiringRecommendation : Option String

/-- `uuid4` and `now()` for a new row. -/
structure LogDraws where
  id : Uuid
  sentAt : Time

structure Calls where
  /-- `load_report_email_context`, which only the report-ready task calls. -/
  context : Except Interruption (Option ReportEmailContext)
  send : CallOutcome
  logSent : CallOutcome
  sentDraws : LogDraws
  retry : CallOutcome
  logFailed : CallOutcome
  failedDraws : LogDraws

namespace NotificationLogRepository

def create (outcome : CallOutcome) (draws : LogDraws) (candidateAssessmentId : Uuid)
    (notificationType recipientEmail deliveryStatus : String) (errorMessage : Option String) :
    TaskM Unit :=
  outcome.perform fun outbox => { outbox with
    notificationLogs := outbox.notificationLogs ++ [{
      id := draws.id
      candidateAssessmentId := candidateAssessmentId
      notificationType := notificationType
      recipientEmail := recipientEmail
      deliveryStatus := deliveryStatus
      sentAt := draws.sentAt
      errorMessage := errorMessage }] }

def logInvitationSent (outcome : CallOutcome) (draws : LogDraws) (caRecordId : Uuid)
    (recipientEmail : String) : TaskM Unit :=
  create outcome draws caRecordId "INVITATION" recipientEmail "SENT" none

def logInvitationFailed (outcome : CallOutcome) (draws : LogDraws) (caRecordId : Uuid)
    (recipientEmail errorMessage : String) : TaskM Unit :=
  create outcome draws caRecordId "INVITATION" recipientEmail "FAILED" (some errorMessage)

end NotificationLogRepository

def sendEmail (outcome : CallOutcome) (email : Email) : TaskM Unit :=
  outcome.perform fun outbox => { outbox with emails := outbox.emails ++ [email] }

structure InvitationPayload where
  candidateAssessmentId : Uuid
  candidateName : String
  recipientEmail : String
  assessmentTitle : String
  roleName : String
  invitationLink : String
  interviewDurationMins : ℤ

structure CancellationPayload where
  candidateAssessmentId : Uuid
  candidateName : String
  recipientEmail : String
  assessmentTitle : String
  roleName : String

structure ReportReadyPayload where
  candidateAssessmentId : Uuid
  recipientEmail : String
deriving DecidableEq

namespace NotificationTasks
open NotificationLogRepository

def sendInvitation (payload : InvitationPayload) (calls : Calls) : TaskM Unit := do
  sendEmail calls.send <| .invitation payload.candidateName payload.recipientEmail
    payload.assessmentTitle payload.roleName payload.invitationLink payload.interviewDurationMins
  logInvitationSent calls.logSent calls.sentDraws payload.candidateAssessmentId
    payload.recipientEmail

def logInvitationFailure (payload : InvitationPayload) (errorMessage : String) (calls : Calls) :
    TaskM Unit :=
  logInvitationFailed calls.logFailed calls.failedDraws payload.candidateAssessmentId
    payload.recipientEmail errorMessage

def sendCancellation (payload : CancellationPayload) (calls : Calls) : TaskM Unit := do
  sendEmail calls.send <| .cancellation payload.candidateName payload.recipientEmail
    payload.assessmentTitle payload.roleName
  create calls.logSent calls.sentDraws payload.candidateAssessmentId "ASSESSMENT_CANCELLATION"
    payload.recipientEmail "SENT" none

def logCancellationFailure (payload : CancellationPayload) (errorMessage : String)
    (calls : Calls) : TaskM Unit :=
  create calls.logFailed calls.failedDraws payload.candidateAssessmentId "ASSESSMENT_CANCELLATION"
    payload.recipientEmail "FAILED" (some errorMessage)

/-- `text or default`. -/
def orDefault (text : Option String) (default : String) : String :=
  match text with
  | none | some "" => default
  | some text => text

def sendReportReady (frontendBaseUrl : String) (payload : ReportReadyPayload) (calls : Calls) :
    TaskM Unit := do
  let recipientEmail := strip payload.recipientEmail
  match ← ExceptT.mk (pure calls.context) with
  | none => throw <| .raised {
      typeName := "ReportContextNotFoundException"
      text := "No report-ready email context found for " ++ payload.candidateAssessmentId.str }
  | some context =>
    sendEmail calls.send <| .reportReady recipientEmail (orDefault context.recruiterName "")
      (orDefault context.candidateName "The candidate")
      (orDefault context.assessmentTitle "Assessment") (orDefault context.roleName "")
      context.overallScore context.hiringRecommendation (frontendBaseUrl ++ "/evaluations")
    create calls.logSent calls.sentDraws payload.candidateAssessmentId "REPORT_READY_EMAIL"
      recipientEmail "SENT" none

def logReportReadyFailure (payload : ReportReadyPayload) (errorMessage : String) (calls : Calls) :
    TaskM Unit :=
  create calls.logFailed calls.failedDraws payload.candidateAssessmentId "REPORT_READY_EMAIL"
    payload.recipientEmail "FAILED" (some errorMessage)

def maxRetries : ℕ := 3

/-- What `self.retry` publishes: the number of the retry and its countdown in seconds. -/
structure Retry where
  retries : ℕ
  countdown : ℕ

/-- The body of the three tasks.  The failure to write the failure is swallowed. -/
def emailTask (send : Calls → TaskM Unit) (logFailure : String → Calls → TaskM Unit) (retries : ℕ)
    (calls : Calls) (outbox : Outbox) : Option Retry × Outbox :=
  match (send calls).run outbox with
  | (.ok (), outbox) | (.error .died, outbox) => (none, outbox)
  | (.error (.raised exception), outbox) =>
    if retries < maxRetries then
      let countdown := min 60 (2 ^ retries)
      (if calls.retry.tookEffect then some ⟨retries + 1, countdown⟩ else none, outbox)
    else
      let errorMessage := exception.typeName ++ ": " ++ exception.text
      (none, ((logFailure errorMessage calls).run outbox).2)

def sendInvitationEmailTask (payload : InvitationPayload) :
    ℕ → Calls → Outbox → Option Retry × Outbox :=
  emailTask (sendInvitation payload) (logInvitationFailure payload)

def sendCancellationEmailTask (payload : CancellationPayload) :
    ℕ → Calls → Outbox → Option Retry × Outbox :=
  emailTask (sendCancellation payload) (logCancellationFailure payload)

def sendReportReadyEmailTask (frontendBaseUrl : String) (payload : ReportReadyPayload) :
    ℕ → Calls → Outbox → Option Retry × Outbox :=
  emailTask (sendReportReady frontendBaseUrl payload) (logReportReadyFailure payload)

end NotificationTasks

/-- A task of the queue `core.email` with its argument. -/
inductive Notification where
  | invitation (payload : InvitationPayload)
  | cancellation (payload : CancellationPayload)
  | reportReady (payload : ReportReadyPayload)

def Notification.task (frontendBaseUrl : String) :
    Notification → ℕ → Calls → Outbox → Option NotificationTasks.Retry × Outbox
  | .invitation payload => NotificationTasks.sendInvitationEmailTask payload
  | .cancellation payload => NotificationTasks.sendCancellationEmailTask payload
  | .reportReady payload => NotificationTasks.sendReportReadyEmailTask frontendBaseUrl payload

/-- A message of the queue `core.email`. -/
structure TaskMessage where
  notification : Notification
  retries : ℕ
  countdown : ℕ

/-- `enqueue_invitation_email`, `enqueue_cancellation_email` and `enqueue_report_ready_email`. -/
def Notification.enqueue (notification : Notification) : TaskMessage where
  notification := notification
  retries := 0
  countdown :=
    match notification with
    | .reportReady _ => 5
    | _ => 0

/-- The worker of the queue `core.email`. -/
def emailWorker (frontendBaseUrl : String) : Redelivery.Worker Outbox TaskMessage Calls :=
  fun message calls outbox =>
    let (retry, outbox) :=
      message.notification.task frontendBaseUrl message.retries calls outbox
    (retry.toList.map fun retry => ⟨message.notification, retry.retries, retry.countdown⟩, outbox)

end IBotCoreApi
