import IBotCoreApi.ExternalEffects
import IBotCoreApi.NotificationDeliveries
import IBotCoreApi.WaitingRoom

namespace IBotCoreApi
open Python Runs NotificationTasks InternalInterview

/-- Load the recruiter/candidate context needed for a report-ready email; `fullName` is the column
of that name in `recruiters`. -/
def EvaluationRepository.loadReportEmailContext (fullName : Uuid → String) (db : Database)
    (candidateAssessmentId : Uuid) : Option ReportEmailContext := do
  let ca ← db.candidateAssessment? candidateAssessmentId
  let candidate ← db.candidate? ca.candidateId
  let assessment ← db.assessment? ca.assessmentId
  let evaluation := Tables.lookup (·.candidateAssessmentId) ca.id db.interviewEvaluations
  return {
    candidateName := some candidate.fullName
    assessmentTitle := some assessment.title
    roleName := some assessment.roleName
    recruiterName :=
      some (((db.recruiter? assessment.recruiterId).map fun r => fullName r.id).getD "")
    overallScore := evaluation.map (·.report.overallScore)
    hiringRecommendation := evaluation.map (·.report.hiringRecommendation) }

open EvaluationRepository

/-- The e-mail of `send_report_ready_email`. -/
def ReportEmailContext.email (context : ReportEmailContext)
    (frontendBaseUrl recipientEmail : String) : Email :=
  .reportReady (strip recipientEmail) (orDefault context.recruiterName "")
    (orDefault context.candidateName "The candidate")
    (orDefault context.assessmentTitle "Assessment") (orDefault context.roleName "")
    context.overallScore context.hiringRecommendation (frontendBaseUrl ++ "/evaluations")

def Email.recipientEmail : Email → String
  | .invitation _ recipientEmail _ _ _ _ | .cancellation _ recipientEmail _ _ => recipientEmail
  | .reportReady recruiterEmail _ _ _ _ _ _ _ => recruiterEmail

def Notification.recipientEmail : Notification → String
  | .invitation payload => payload.recipientEmail
  | .cancellation payload => payload.recipientEmail
  | .reportReady payload => payload.recipientEmail

def reportReadyTasks (request : ServiceRequest) (result : SessionResult) :
    List ReportReadyPayload :=
  match request, result with
  | .session (.saveFinalEvaluation _ record recruiterEmail), .ok _ =>
    let recruiterEmail := strip recruiterEmail
    if recruiterEmail ≠ "" then [⟨record.candidateAssessmentId, recruiterEmail⟩] else []
  | _, _ => []

def Calls.reading (calls : Calls) (context : Option ReportEmailContext) : Calls :=
  { calls with context := calls.context.map fun _ => context }

/-- The service, the report-ready tasks that wait, and what has been sent. -/
structure ReportSystem where
  store : Store
  outbox : Outbox
  queue : List TaskMessage

inductive Ending where
  | committed
  /-- The broker or the commit fails, or the process dies.  The task may be in the queue. -/
  | rolledBack (published : Bool)

inductive ReportEvent where
  | serve (call : ServiceCall) (ending : Ending)
  /-- An attempt of a task, which reads the context unless its calls say that the read fails. -/
  | deliver (delivery : Redelivery.Delivery Calls)

section System

variable (frontendBaseUrl : String) (fullName : Uuid → String)

def reportWorker (db : Database) : Redelivery.Worker Outbox TaskMessage Calls :=
  fun message calls outbox =>
    match message.notification with
    | .reportReady payload =>
      emailWorker frontendBaseUrl message
        (calls.reading (loadReportEmailContext fullName db payload.candidateAssessmentId)) outbox
    | _ => emailWorker frontendBaseUrl message calls outbox

variable [Runtime]

def reportSystem : Machine ReportSystem ReportEvent Unit
  | s, .serve call ending =>
    let served := service s.store call
    let tasks := (reportReadyTasks call.request served.1).map fun payload =>
      (Notification.reportReady payload).enqueue
    match ending with
    | .committed => ((), { s with store := served.2, queue := s.queue ++ tasks })
    | .rolledBack true => ((), { s with queue := s.queue ++ tasks })
    | .rolledBack false => ((), s)
  | s, .deliver delivery =>
    let delivered := (Redelivery.deliver (reportWorker frontendBaseUrl fullName s.store.db)
      ⟨s.outbox, s.queue⟩ delivery).2
    ((), { s with outbox := delivered.state, queue := delivered.queue })

def reportRun (events : List ReportEvent) : ReportSystem :=
  exec (reportSystem frontendBaseUrl fullName) ⟨emptyStore, ⟨[], []⟩, []⟩ events

omit [Runtime] in
def committedCalls (events : List ReportEvent) : List ServiceCall :=
  events.filterMap fun
    | .serve call .committed => some call
    | _ => none

/-- The request enqueues the task, whatever becomes of its transaction. -/
def ReportEvent.Publishes (store : Store) (payload : ReportReadyPayload) : ReportEvent → Prop
  | .serve call _ => payload ∈ reportReadyTasks call.request (service store call).1
  | .deliver _ => False

omit [Runtime] in
def ReportEvent.Commits : ReportEvent → Prop
  | .serve _ .committed => True
  | _ => False

omit [Runtime] in
def ReportEvent.Deletes (id : Uuid) : ReportEvent → Prop
  | .serve call _ => ∃ recruiterId, call.request = .deleteCandidateFromAssessment id recruiterId
  | .deliver _ => False

omit [Runtime] in
/-- Transactions are committed, attempts end without a failure, and no enrollment is deleted. -/
def ReportEvent.Reliable : ReportEvent → Prop
  | .serve call ending => ending = .committed ∧
    ∀ id recruiterId, call.request ≠ .deleteCandidateFromAssessment id recruiterId
  | .deliver delivery => delivery.acknowledged = true ∧
    (∃ context, delivery.input.context = .ok context) ∧ delivery.input.send = .returned ∧
      delivery.input.logSent = .returned

end System

section Attempts

variable (frontendBaseUrl : String) (payload : ReportReadyPayload) (calls : Calls)

def reportEmails : List Email :=
  match calls.context with
  | .ok (some context) =>
    if calls.send.tookEffect then [context.email frontendBaseUrl payload.recipientEmail] else []
  | _ => []

theorem sendLog_emails (send logSent : CallOutcome) (draws : LogDraws) (email : Email)
    (candidateAssessmentId : Uuid) (notificationType recipientEmail : String) (outbox : Outbox) :
    ((do
        sendEmail send email
        NotificationLogRepository.create logSent draws candidateAssessmentId notificationType
          recipientEmail "SENT" none : TaskM Unit).run outbox).2.emails =
      outbox.emails ++ if send.tookEffect then [email] else [] := by
  cases send with
  | returned =>
    obtain ⟨rows, _, _, hrun⟩ := create_run logSent draws candidateAssessmentId
      notificationType recipientEmail "SENT" none { outbox with emails := outbox.emails ++ [email] }
    exact congrArg (fun run => run.2.emails) hrun
  | raised tookEffect exception => cases tookEffect <;> simp [CallOutcome.tookEffect] <;> rfl
  | died tookEffect => cases tookEffect <;> simp [CallOutcome.tookEffect] <;> rfl

theorem sendReportReady_emails (outbox : Outbox) :
    ((sendReportReady frontendBaseUrl payload calls).run outbox).2.emails =
      outbox.emails ++ reportEmails frontendBaseUrl payload calls := by
  obtain ⟨context, send, logSent, sentDraws, retry, logFailed, failedDraws⟩ := calls
  match context with
  | .error (.raised exception) => simp [reportEmails]; rfl
  | .error .died => simp [reportEmails]; rfl
  | .ok none => simp [reportEmails]; rfl
  | .ok (some context) =>
    exact sendLog_emails send logSent sentDraws _ payload.candidateAssessmentId
      "REPORT_READY_EMAIL" (strip payload.recipientEmail) outbox

theorem sendReportReadyEmailTask_emails (retries : ℕ) (outbox : Outbox) :
    (sendReportReadyEmailTask frontendBaseUrl payload retries calls outbox).2.emails =
      outbox.emails ++ reportEmails frontendBaseUrl payload calls := by
  have hsent := sendReportReady_emails frontendBaseUrl payload calls outbox
  unfold sendReportReadyEmailTask emailTask
  split
  · rename_i hrun
    rw [hrun] at hsent
    exact hsent
  · rename_i hrun
    rw [hrun] at hsent
    exact hsent
  · rename_i exception sent hrun
    rw [hrun] at hsent
    split_ifs
    · exact hsent
    · exact hsent
    · obtain ⟨rows, _, _, hlogged⟩ := logFailure_run (.reportReady payload) calls sent
        (exception.typeName ++ ": " ++ exception.text)
      have hemails := congrArg Outbox.emails hlogged
      exact hemails.trans hsent

theorem emailWorker_published (message : TaskMessage) (outbox : Outbox) :
    ∀ retry ∈ (emailWorker frontendBaseUrl message calls outbox).1,
      retry.notification = message.notification := by
  intro retry hretry
  obtain ⟨_, _, rfl⟩ := List.mem_map.mp hretry
  rfl

variable {payload calls} in
theorem sendReportReadyEmailTask_returned {context : ReportEmailContext}
    (hcontext : calls.context = .ok (some context)) (hsend : calls.send = .returned)
    (hlog : calls.logSent = .returned) (retries : ℕ) (outbox : Outbox) :
    (sendReportReadyEmailTask frontendBaseUrl payload retries calls outbox).1 = none := by
  obtain ⟨_, _, _, sentDraws, _, _, _⟩ := calls
  cases hcontext
  cases hsend
  cases hlog
  rfl

end Attempts

section Reads

variable (fullName : Uuid → String) {db : Database} {id : Uuid} {context : ReportEmailContext}

theorem loadReportEmailContext_isSome (h : db.WellFormed)
    (henrolled : (db.candidateAssessment? id).isSome) :
    (loadReportEmailContext fullName db id).isSome := by
  obtain ⟨ca, hca⟩ := Option.isSome_iff_exists.mp henrolled
  have hmem := Tables.lookup_mem hca
  obtain ⟨candidate, hcandidate⟩ := Option.isSome_iff_exists.mp (h.candidates ca hmem)
  obtain ⟨assessment, hassessment⟩ := Option.isSome_iff_exists.mp (h.assessments ca hmem)
  simp [loadReportEmailContext, hca, hcandidate, hassessment]

theorem loadReportEmailContext_evaluation
    (hread : loadReportEmailContext fullName db id = some context) :
    context.overallScore = (db.savedEvaluation? id).map (·.2.overallScore) ∧
      context.hiringRecommendation = (db.savedEvaluation? id).map (·.2.hiringRecommendation) := by
  simp only [loadReportEmailContext, Option.bind_eq_bind, Option.bind_eq_some_iff] at hread
  obtain ⟨ca, hca, candidate, _, assessment, _, hcontext⟩ := hread
  cases hcontext
  obtain rfl : ca.id = id := Tables.lookup_key hca
  simp only [Database.savedEvaluation?, Option.map_map]
  exact ⟨rfl, rfl⟩

end Reads

section Steps

variable {frontendBaseUrl : String} {fullName : Uuid → String} {s : ReportSystem}
  {message : TaskMessage} {payload : ReportReadyPayload} {db : Database} {calls : Calls}
  {outbox : Outbox}

theorem mem_reportEmails_reading {context : Option ReportEmailContext} {email : Email}
    (h : email ∈ reportEmails frontendBaseUrl payload (calls.reading context)) :
    ∃ read, context = some read ∧ email = read.email frontendBaseUrl payload.recipientEmail := by
  obtain ⟨outcome, send, logSent, sentDraws, retry, logFailed, failedDraws⟩ := calls
  cases outcome with
  | error interruption => cases h
  | ok ignored =>
    cases context with
    | none => cases h
    | some read =>
      change email ∈ if send.tookEffect then
        [read.email frontendBaseUrl payload.recipientEmail] else [] at h
      split_ifs at h
      · exact ⟨read, rfl, List.mem_singleton.mp h⟩
      · cases h

theorem reportWorker_eq (hmessage : message.notification = .reportReady payload) :
    reportWorker frontendBaseUrl fullName db message calls outbox =
      emailWorker frontendBaseUrl message
        (calls.reading (loadReportEmailContext fullName db payload.candidateAssessmentId))
        outbox := by
  simp only [reportWorker, hmessage]

theorem reportWorker_emails (hmessage : message.notification = .reportReady payload) :
    (reportWorker frontendBaseUrl fullName db message calls outbox).2.emails =
      outbox.emails ++ reportEmails frontendBaseUrl payload
        (calls.reading (loadReportEmailContext fullName db payload.candidateAssessmentId)) := by
  obtain ⟨notification, retries, countdown⟩ := message
  obtain rfl : notification = .reportReady payload := hmessage
  exact sendReportReadyEmailTask_emails frontendBaseUrl payload _ retries outbox

theorem reportWorker_published (hmessage : message.notification = .reportReady payload) :
    ∀ retry ∈ (reportWorker frontendBaseUrl fullName db message calls outbox).1,
      retry.notification = .reportReady payload := by
  intro retry hretry
  rw [reportWorker_eq hmessage] at hretry
  exact (emailWorker_published frontendBaseUrl _ message outbox retry hretry).trans hmessage

variable [Runtime]

/-- What waits after an attempt has the payload of what waited before it. -/
theorem deliver_queue {delivery : Redelivery.Delivery Calls}
    (hqueue : ∀ waiting ∈ s.queue, ∃ payload, waiting.notification = .reportReady payload)
    {waiting : TaskMessage}
    (h : waiting ∈ (reportSystem frontendBaseUrl fullName s (.deliver delivery)).2.queue) :
    ∃ earlier ∈ s.queue, waiting.notification = earlier.notification := by
  rcases Redelivery.mem_queue_deliver h with hold | ⟨message, hmessage, hpublished⟩
  · exact ⟨waiting, hold, rfl⟩
  · have hmem : message ∈ s.queue := List.mem_of_getElem? hmessage
    obtain ⟨payload, hpayload⟩ := hqueue message hmem
    exact ⟨message, hmem, (reportWorker_published hpayload waiting hpublished).trans hpayload.symm⟩

/-- What an attempt sends has been read from the rows at that moment. -/
theorem deliver_emails {delivery : Redelivery.Delivery Calls}
    (hqueue : ∀ waiting ∈ s.queue, ∃ payload, waiting.notification = .reportReady payload)
    {email : Email}
    (h : email ∈ (reportSystem frontendBaseUrl fullName s (.deliver delivery)).2.outbox.emails) :
    email ∈ s.outbox.emails ∨ ∃ message ∈ s.queue, ∃ payload context,
      message.notification = .reportReady payload ∧
      loadReportEmailContext fullName s.store.db payload.candidateAssessmentId = some context ∧
      email = context.email frontendBaseUrl payload.recipientEmail := by
  cases hmessage : s.queue[delivery.position]? with
  | none =>
    left
    have hsame : (Redelivery.deliver (reportWorker frontendBaseUrl fullName s.store.db)
        ⟨s.outbox, s.queue⟩ delivery).2 = ⟨s.outbox, s.queue⟩ :=
      Redelivery.deliver_of_none hmessage
    simp only [reportSystem, hsame] at h
    exact h
  | some message =>
    have hmem : message ∈ s.queue := List.mem_of_getElem? hmessage
    obtain ⟨payload, hpayload⟩ := hqueue message hmem
    have hstate : (Redelivery.deliver (reportWorker frontendBaseUrl fullName s.store.db)
        ⟨s.outbox, s.queue⟩ delivery).2.state =
          (reportWorker frontendBaseUrl fullName s.store.db message delivery.input s.outbox).2 :=
      Redelivery.deliver_of_some hmessage
    simp only [reportSystem, hstate, reportWorker_emails hpayload] at h
    rcases List.mem_append.mp h with hold | hsent
    · exact .inl hold
    · obtain ⟨context, hread, hemail⟩ := mem_reportEmails_reading hsent
      exact .inr ⟨message, hmem, payload, context, hpayload, hread, hemail⟩

end Steps

section Requests

variable [Runtime] {store : Store} {payload : ReportReadyPayload} {request : ServiceRequest}
  {result : SessionResult}

omit [Runtime] in
/-- A task is enqueued by the accepted save of an evaluation with an address. -/
theorem mem_reportReadyTasks (h : payload ∈ reportReadyTasks request result) :
    ∃ draws record recruiterEmail response,
      request = .session (.saveFinalEvaluation draws record recruiterEmail) ∧
      result = .ok response ∧ strip recruiterEmail ≠ "" ∧
      payload = ⟨record.candidateAssessmentId, strip recruiterEmail⟩ := by
  unfold reportReadyTasks at h
  split at h
  · rename_i draws record recruiterEmail response
    dsimp only at h
    split_ifs at h with haddress
    · exact ⟨draws, record, recruiterEmail, response, rfl, rfl, haddress, List.mem_singleton.mp h⟩
    · cases h
  · cases h

theorem publishes_enrolled {call : ServiceCall}
    (h : payload ∈ reportReadyTasks call.request (service store call).1) :
    (store.db.candidateAssessment? payload.candidateAssessmentId).isSome := by
  obtain ⟨clock, request⟩ := call
  obtain ⟨draws, record, recruiterEmail, response, hrequest, hresult, _, rfl⟩ :=
    mem_reportReadyTasks h
  obtain rfl : request = .session (.saveFinalEvaluation draws record recruiterEmail) := hrequest
  cases hrun : EvaluationRepository.saveFinalEvaluation store.db clock draws record
    recruiterEmail with
  | error exception =>
    have hfailed : (service store ⟨clock, .session (.saveFinalEvaluation draws record
        recruiterEmail)⟩).1 = .error exception := by
      simp only [service, operate, handle, respond, transact, hrun, Except.map]
    rw [hfailed] at hresult
    cases hresult
  | ok saved =>
    let save : FinalEvaluationRoute.Save := ⟨clock, draws, record, recruiterEmail⟩
    have haccepted : save.Accepted store.db := save_accepted_iff.mp ⟨saved, hrun⟩
    exact haccepted.enrollment

theorem registered_isSome {id : Uuid} (calls : List ServiceCall)
    (hdeletes : ∀ call ∈ calls, ∀ deletedId recruiterId,
      call.request ≠ .deleteCandidateFromAssessment deletedId recruiterId)
    {current : Option SavedEvaluation} (h : current.isSome) :
    ((trace service store calls).foldl (evaluationAfter id) current).isSome := by
  induction calls generalizing store current with
  | nil => exact h
  | cons call calls ih =>
    obtain ⟨hfirst, hrest⟩ := List.forall_mem_cons.mp hdeletes
    rw [trace_cons, List.foldl_cons]
    refine ih hrest ?_
    unfold evaluationAfter
    split
    · split_ifs
      · rfl
      · exact h
    · rename_i deletedId recruiterId response hrequest _
      exact absurd hrequest (hfirst deletedId recruiterId)
    · exact h

end Requests

section Runs

variable (frontendBaseUrl : String) (fullName : Uuid → String) [Runtime]

def Enqueued (events : List ReportEvent) (payload : ReportReadyPayload) : Prop :=
  ∃ before event after, events = before ++ event :: after ∧
    event.Publishes (reportRun frontendBaseUrl fullName before).store payload

def Sent (events : List ReportEvent) (email : Email) : Prop :=
  ∃ before delivery after payload context, events = before ++ .deliver delivery :: after ∧
    Enqueued frontendBaseUrl fullName before payload ∧
    loadReportEmailContext fullName (reportRun frontendBaseUrl fullName before).store.db
      payload.candidateAssessmentId = some context ∧
    email = context.email frontendBaseUrl payload.recipientEmail

variable {frontendBaseUrl fullName} {events : List ReportEvent} {payload : ReportReadyPayload}

theorem reportRun_append (events events' : List ReportEvent) :
    reportRun frontendBaseUrl fullName (events ++ events') =
      exec (reportSystem frontendBaseUrl fullName) (reportRun frontendBaseUrl fullName events)
        events' :=
  exec_append events events'

theorem reportRun_snoc (events : List ReportEvent) (event : ReportEvent) :
    reportRun frontendBaseUrl fullName (events ++ [event]) =
      (reportSystem frontendBaseUrl fullName (reportRun frontendBaseUrl fullName events) event).2 :=
  exec_snoc events event

theorem Enqueued.snoc (h : Enqueued frontendBaseUrl fullName events payload)
    (event : ReportEvent) : Enqueued frontendBaseUrl fullName (events ++ [event]) payload := by
  obtain ⟨before, earlier, after, rfl, hpublishes⟩ := h
  exact ⟨before, earlier, after ++ [event], by simp, hpublishes⟩

theorem Sent.snoc {email : Email} (h : Sent frontendBaseUrl fullName events email)
    (event : ReportEvent) : Sent frontendBaseUrl fullName (events ++ [event]) email := by
  obtain ⟨before, delivery, after, payload, context, rfl, henqueued, hread, hemail⟩ := h
  exact ⟨before, delivery, after ++ [event], payload, context, by simp, henqueued, hread, hemail⟩

variable (frontendBaseUrl fullName) in
/-- What waits was enqueued, and what went out was sent, in the run. -/
structure Explained (events : List ReportEvent) (s : ReportSystem) : Prop where
  queue : ∀ message ∈ s.queue, ∃ payload, message.notification = .reportReady payload ∧
    Enqueued frontendBaseUrl fullName events payload
  emails : ∀ email ∈ s.outbox.emails, Sent frontendBaseUrl fullName events email

theorem Explained.snoc {s : ReportSystem} (h : Explained frontendBaseUrl fullName events s)
    (event : ReportEvent) : Explained frontendBaseUrl fullName (events ++ [event]) s where
  queue message hmessage := by
    obtain ⟨payload, hpayload, henqueued⟩ := h.queue message hmessage
    exact ⟨payload, hpayload, henqueued.snoc event⟩
  emails email hemail := (h.emails email hemail).snoc event

theorem Explained.enqueue {s : ReportSystem} (h : Explained frontendBaseUrl fullName events s)
    {store : Store} {payloads : List ReportReadyPayload}
    (hpayloads : ∀ payload ∈ payloads, Enqueued frontendBaseUrl fullName events payload) :
    Explained frontendBaseUrl fullName events
      { s with store := store, queue := s.queue ++ payloads.map fun payload =>
          (Notification.reportReady payload).enqueue } where
  queue message hmessage := by
    rcases List.mem_append.mp hmessage with hold | hnew
    · exact h.queue message hold
    · obtain ⟨payload, hpayload, rfl⟩ := List.mem_map.mp hnew
      exact ⟨payload, rfl, hpayloads payload hpayload⟩
  emails := h.emails

theorem reportRun_explained (events : List ReportEvent) :
    Explained frontendBaseUrl fullName events (reportRun frontendBaseUrl fullName events) := by
  induction events using List.reverseRecOn with
  | nil => exact ⟨by simp [reportRun], by simp [reportRun]⟩
  | append_singleton events event ih =>
    have hbefore := ih.snoc event
    rw [reportRun_snoc]
    cases event with
    | serve call ending =>
      have hpublished : ∀ payload ∈ reportReadyTasks call.request
          (service (reportRun frontendBaseUrl fullName events).store call).1,
          Enqueued frontendBaseUrl fullName (events ++ [.serve call ending]) payload :=
        fun payload hpayload => ⟨events, .serve call ending, [], rfl, hpayload⟩
      cases ending with
      | committed => exact hbefore.enqueue hpublished
      | rolledBack published =>
        cases published with
        | true => exact hbefore.enqueue hpublished
        | false => exact hbefore
    | deliver delivery =>
      have hqueue : ∀ waiting ∈ (reportRun frontendBaseUrl fullName events).queue,
          ∃ payload, waiting.notification = .reportReady payload := by
        intro waiting hwaiting
        obtain ⟨payload, hpayload, _⟩ := ih.queue waiting hwaiting
        exact ⟨payload, hpayload⟩
      refine ⟨fun waiting hwaiting => ?_, fun email hemail => ?_⟩
      · obtain ⟨earlier, hearlier, hsame⟩ := deliver_queue hqueue hwaiting
        obtain ⟨payload, hpayload, henqueued⟩ := hbefore.queue earlier hearlier
        exact ⟨payload, hsame.trans hpayload, henqueued⟩
      · rcases deliver_emails hqueue hemail with
          hold | ⟨message, hmessage, payload, context, hpayload, hread, hcontent⟩
        · exact hbefore.emails email hold
        · obtain ⟨payload', hpayload', henqueued⟩ := ih.queue message hmessage
          cases hpayload.symm.trans hpayload'
          exact ⟨events, delivery, [], payload, context, rfl, henqueued, hread, hcontent⟩

theorem reportRun_store (events : List ReportEvent) :
    (reportRun frontendBaseUrl fullName events).store =
      exec service emptyStore (committedCalls events) := by
  induction events using List.reverseRecOn with
  | nil => rfl
  | append_singleton events event ih =>
    rw [reportRun_snoc, committedCalls, List.filterMap_append, exec_append]
    cases event with
    | deliver delivery => exact ih
    | serve call ending =>
      cases ending with
      | committed => exact congrArg (fun store => (service store call).2) ih
      | rolledBack published => cases published <;> exact ih

theorem reportSystem_kept {s : ReportSystem} {event : ReportEvent} {id : Uuid}
    (h : ¬ event.Deletes id) : InvitationKept (fun _ => True) id s.store.db
      (reportSystem frontendBaseUrl fullName s event).2.store.db := by
  cases event with
  | deliver delivery => exact .refl id s.store.db
  | serve call ending =>
    cases ending with
    | committed =>
      exact service_invitationKept s.store call
        (fun recruiterId hrequest => h ⟨recruiterId, hrequest⟩) fun _ _ _ => trivial
    | rolledBack published => cases published <;> exact .refl id s.store.db

/-- The evaluation in force for an enrollment after the committed requests. -/
def registered (events : List ReportEvent) (candidateAssessmentId : Uuid) :
    Option SavedEvaluation :=
  (trace service emptyStore (committedCalls events)).foldl
    (evaluationAfter candidateAssessmentId) none

theorem reportRun_registered (events : List ReportEvent) (id : Uuid) :
    (reportRun frontendBaseUrl fullName events).store.db.savedEvaluation? id =
      registered events id := by
  have hempty : Registers emptyStore.db fun _ => none := ⟨List.nodup_nil, fun _ => rfl⟩
  rw [reportRun_store]
  exact (registers_exec hempty (committedCalls events)).saved id

/-- Unless its enrollment is deleted, the context of an enqueued task can be read. -/
theorem read_of_publishes {before after : List ReportEvent} {event : ReportEvent}
    (hpublishes : event.Publishes (reportRun frontendBaseUrl fullName before).store payload)
    (hdeletes : ∀ later ∈ after, ¬ later.Deletes payload.candidateAssessmentId) :
    (loadReportEmailContext fullName
      (reportRun frontendBaseUrl fullName (before ++ event :: after)).store.db
      payload.candidateAssessmentId).isSome := by
  cases event with
  | deliver delivery => exact hpublishes.elim
  | serve call ending =>
    obtain ⟨ca, hca⟩ := Option.isSome_iff_exists.mp (publishes_enrolled hpublishes)
    obtain ⟨draws, record, recruiterEmail, _, hrequest, _, _, rfl⟩ :=
      mem_reportReadyTasks hpublishes
    have hsave : ¬ (ReportEvent.serve call ending).Deletes record.candidateAssessmentId := by
      rintro ⟨recruiterId, hdeletion⟩
      cases hrequest.symm.trans hdeletion
    have hstep (s : ReportSystem) (later : ReportEvent)
        (hlater : ¬ later.Deletes record.candidateAssessmentId)
        (h : InvitationKept (fun _ => True) record.candidateAssessmentId
          (reportRun frontendBaseUrl fullName before).store.db s.store.db) :
        InvitationKept (fun _ => True) record.candidateAssessmentId
          (reportRun frontendBaseUrl fullName before).store.db
          (reportSystem frontendBaseUrl fullName s later).2.store.db :=
      h.trans (reportSystem_kept hlater)
    have hkept := exec_invariant hstep (List.forall_mem_cons.mpr ⟨hsave, hdeletes⟩)
      (.refl record.candidateAssessmentId _)
    rw [← reportRun_append] at hkept
    obtain ⟨ca', hca', _⟩ := hkept.enrollment ca hca
    exact loadReportEmailContext_isSome fullName (Store.wellFormed _)
      (Option.isSome_iff_exists.mpr ⟨ca', hca'⟩)

theorem registered_of_publishes {before after : List ReportEvent} {call : ServiceCall}
    (hpublishes : (ReportEvent.serve call .committed).Publishes
      (reportRun frontendBaseUrl fullName before).store payload)
    (hdeletes : ∀ later ∈ after, ∀ id, ¬ later.Deletes id) :
    (registered (before ++ .serve call .committed :: after)
      payload.candidateAssessmentId).isSome := by
  have hcalls : committedCalls (before ++ .serve call .committed :: after) =
      committedCalls before ++ call :: committedCalls after := by
    rw [committedCalls, List.filterMap_append, List.filterMap_cons]
    rfl
  rw [registered, hcalls, trace_append_cons, List.foldl_append, List.foldl_cons]
  refine registered_isSome _ ?_ ?_
  · intro later hlater id recruiterId hrequest
    obtain ⟨event, hevent, hcommitted⟩ := List.mem_filterMap.mp hlater
    cases event with
    | deliver delivery => cases hcommitted
    | serve call ending =>
      cases ending with
      | rolledBack published => cases hcommitted
      | committed =>
        cases hcommitted
        exact hdeletes _ hevent id ⟨recruiterId, hrequest⟩
  · obtain ⟨draws, record, recruiterEmail, response, hrequest, hresult, _, rfl⟩ :=
      mem_reportReadyTasks hpublishes
    rw [reportRun_store] at hresult
    simp [evaluationAfter, Transition.of, hrequest, hresult]

def notifiedAddresses (events : List ReportEvent) : List String :=
  (trace service emptyStore (committedCalls events)).flatMap fun t =>
    (reportReadyTasks t.input.request t.output).map (·.recipientEmail)

def ReportSystem.addresses (s : ReportSystem) : List String :=
  s.outbox.emails.map (·.recipientEmail) ++ s.queue.map (·.notification.recipientEmail)

/-- A reliable attempt of a task whose context is there sends its e-mail and ends it. -/
theorem deliver_addresses {s : ReportSystem} {delivery : Redelivery.Delivery Calls}
    (hreliable : (ReportEvent.deliver delivery).Reliable)
    (hqueue : ∀ waiting ∈ s.queue, ∃ payload, waiting.notification = .reportReady payload ∧
      strip payload.recipientEmail = payload.recipientEmail ∧
      (loadReportEmailContext fullName s.store.db payload.candidateAssessmentId).isSome) :
    (reportSystem frontendBaseUrl fullName s (.deliver delivery)).2.addresses.Perm
      s.addresses := by
  obtain ⟨hack, ⟨outcome, hcontext⟩, hsend, hlog⟩ := hreliable
  cases hmessage : s.queue[delivery.position]? with
  | none =>
    have hsame : (Redelivery.deliver (reportWorker frontendBaseUrl fullName s.store.db)
        ⟨s.outbox, s.queue⟩ delivery).2 = ⟨s.outbox, s.queue⟩ :=
      Redelivery.deliver_of_none hmessage
    simp only [reportSystem, hsame]
    exact .rfl
  | some message =>
    obtain ⟨payload, hpayload, hstripped, hread⟩ := hqueue message (List.mem_of_getElem? hmessage)
    obtain ⟨context, hcontext'⟩ := Option.isSome_iff_exists.mp hread
    have hstate : (Redelivery.deliver (reportWorker frontendBaseUrl fullName s.store.db)
        ⟨s.outbox, s.queue⟩ delivery).2.state =
          (reportWorker frontendBaseUrl fullName s.store.db message delivery.input s.outbox).2 :=
      Redelivery.deliver_of_some hmessage
    have hreading : (delivery.input.reading (some context)).context = .ok (some context) := by
      simp [Calls.reading, hcontext, Except.map]
    have hsent : reportEmails frontendBaseUrl payload (delivery.input.reading (some context)) =
        [context.email frontendBaseUrl payload.recipientEmail] := by
      simp only [reportEmails, hreading]
      simp [Calls.reading, hsend, CallOutcome.tookEffect]
    have hnone : (reportWorker frontendBaseUrl fullName s.store.db message delivery.input
        s.outbox).1 = [] := by
      rw [reportWorker_eq hpayload, hcontext']
      obtain ⟨notification, retries, countdown⟩ := message
      obtain rfl : notification = .reportReady payload := hpayload
      have hended : (sendReportReadyEmailTask frontendBaseUrl payload retries
          (delivery.input.reading (some context)) s.outbox).1 = none :=
        sendReportReadyEmailTask_returned frontendBaseUrl hreading hsend hlog retries s.outbox
      simp only [emailWorker, Notification.task, hended]
      rfl
    have hperm : (message :: (Redelivery.deliver (reportWorker frontendBaseUrl fullName s.store.db)
        ⟨s.outbox, s.queue⟩ delivery).2.queue).Perm s.queue :=
      Redelivery.perm_queue_deliver hmessage hack hnone
    have haddress : (context.email frontendBaseUrl payload.recipientEmail).recipientEmail =
        message.notification.recipientEmail := by
      rw [hpayload]
      exact hstripped
    have haddresses := (hperm.map (·.notification.recipientEmail)).append_left
      (s.outbox.emails.map (·.recipientEmail))
    unfold ReportSystem.addresses
    simp only [reportSystem]
    rw [hstate, reportWorker_emails hpayload, hcontext', hsent, List.map_append, List.map_singleton,
      haddress, List.append_assoc]
    exact haddresses

theorem reportRun_addresses (hreliable : ∀ event ∈ events, event.Reliable) :
    (reportRun frontendBaseUrl fullName events).addresses.Perm (notifiedAddresses events) := by
  induction events using List.reverseRecOn with
  | nil => exact .rfl
  | append_singleton events event ih =>
    have hearlier : ∀ event ∈ events, event.Reliable :=
      fun event hevent => hreliable event (List.mem_append_left _ hevent)
    have hevent : event.Reliable := hreliable event (by simp)
    rw [reportRun_snoc]
    cases event with
    | serve call ending =>
      obtain ⟨rfl, _⟩ := hevent
      have hcalls : committedCalls (events ++ [.serve call .committed]) =
          committedCalls events ++ [call] := by
        rw [committedCalls, List.filterMap_append]
        rfl
      have haddresses : (notifiedAddresses (events ++ [.serve call .committed])) =
          notifiedAddresses events ++ (reportReadyTasks call.request
            (service (reportRun frontendBaseUrl fullName events).store call).1).map
              (·.recipientEmail) := by
        rw [notifiedAddresses, hcalls, trace_snoc, List.flatMap_append, reportRun_store]
        simp only [List.flatMap_singleton]
        rfl
      rw [haddresses]
      have hqueued := (ih hearlier).append_right ((reportReadyTasks call.request
        (service (reportRun frontendBaseUrl fullName events).store call).1).map (·.recipientEmail))
      simpa [ReportSystem.addresses, reportSystem, Function.comp_def, Notification.enqueue,
        Notification.recipientEmail] using hqueued
    | deliver delivery =>
      have haddresses : notifiedAddresses (events ++ [.deliver delivery]) =
          notifiedAddresses events := by
        unfold notifiedAddresses committedCalls
        rw [List.filterMap_append]
        simp
      rw [haddresses]
      refine (deliver_addresses hevent ?_).trans (ih hearlier)
      intro waiting hwaiting
      obtain ⟨payload, hpayload, before, earlier, after, rfl, hpublishes⟩ :=
        (reportRun_explained events).queue waiting hwaiting
      refine ⟨payload, hpayload, ?_, read_of_publishes hpublishes fun later hlater => ?_⟩
      · cases earlier with
        | deliver delivery => exact hpublishes.elim
        | serve call ending =>
          obtain ⟨_, _, recruiterEmail, _, _, _, _, rfl⟩ := mem_reportReadyTasks hpublishes
          exact strip_strip recruiterEmail
      · have hlate : later.Reliable := hearlier later (by simp [hlater])
        cases later with
        | deliver delivery => exact id
        | serve call ending =>
          rintro ⟨recruiterId, hdeletion⟩
          exact hlate.2 _ recruiterId hdeletion

variable (frontendBaseUrl fullName events) in
/-- Each e-mail was enqueued by a save and tells the evaluation that was in force when it was read.
Its context is there unless the enrollment is deleted, with a score after a committed save and no
deletion, and where nothing fails each address that is given to a save gets one e-mail. -/
theorem report_emails_correct :
    (∀ email ∈ (reportRun frontendBaseUrl fullName events).outbox.emails,
      ∃ before delivery after payload context, events = before ++ .deliver delivery :: after ∧
        Enqueued frontendBaseUrl fullName before payload ∧
        loadReportEmailContext fullName (reportRun frontendBaseUrl fullName before).store.db
          payload.candidateAssessmentId = some context ∧
        email = context.email frontendBaseUrl payload.recipientEmail ∧
        context.overallScore =
          (registered before payload.candidateAssessmentId).map (·.2.overallScore) ∧
        context.hiringRecommendation =
          (registered before payload.candidateAssessmentId).map (·.2.hiringRecommendation)) ∧
    (∀ before event after payload, events = before ++ event :: after →
      event.Publishes (reportRun frontendBaseUrl fullName before).store payload →
      (∀ later ∈ after, ¬ later.Deletes payload.candidateAssessmentId) →
      ∃ context, loadReportEmailContext fullName
          (reportRun frontendBaseUrl fullName events).store.db payload.candidateAssessmentId =
            some context ∧
        (event.Commits → (∀ later ∈ after, ∀ id, ¬ later.Deletes id) →
          context.overallScore.isSome)) ∧
    ((∀ event ∈ events, event.Reliable) →
      (reportRun frontendBaseUrl fullName events).addresses.Perm (notifiedAddresses events)) := by
  refine ⟨fun email hemail => ?_, fun before event after payload hevents hpublishes hdeletes => ?_,
    reportRun_addresses⟩
  · obtain ⟨before, delivery, after, payload, context, hevents, henqueued, hread, hcontent⟩ :=
      (reportRun_explained events).emails email hemail
    obtain ⟨hscore, hrecommendation⟩ := loadReportEmailContext_evaluation fullName hread
    rw [reportRun_registered] at hscore hrecommendation
    exact ⟨before, delivery, after, payload, context, hevents, henqueued, hread, hcontent, hscore,
      hrecommendation⟩
  · subst hevents
    obtain ⟨context, hread⟩ :=
      Option.isSome_iff_exists.mp (read_of_publishes hpublishes hdeletes)
    refine ⟨context, hread, fun hcommits hkept => ?_⟩
    obtain ⟨hscore, _⟩ := loadReportEmailContext_evaluation fullName hread
    rw [hscore, reportRun_registered, Option.isSome_map]
    cases event with
    | deliver delivery => exact hcommits.elim
    | serve call ending =>
      cases ending with
      | rolledBack published => exact hcommits.elim
      | committed => exact registered_of_publishes hpublishes hkept

end Runs

section Samples

def returning : Calls where
  context := .ok none
  send := .returned
  logSent := .returned
  sentDraws := ⟨60, 3⟩
  retry := .returned
  logFailed := .returned
  failedDraws := ⟨61, 3⟩

def firstSave : ReportEvent :=
  .serve ⟨⟨1, 1⟩, .session (.saveFinalEvaluation ⟨20, 21⟩ ⟨4, 10, 3, sampleReport 8⟩ "r@acme.test")⟩
    .committed

/-- An interview is evaluated and its task delivered. -/
def reportedOnce : List ReportEvent :=
  interviewedTwice.map (.serve · .committed) ++ [firstSave, .deliver ⟨0, returning, true⟩]

/-- The e-mail tells the saved score, and its task was the only one. -/
theorem report_emails_correct_sample :
    let _ : Runtime := .ascii
    let fullName := fun _ : Uuid => "Grace Hopper"
    let run := reportRun "https://ibot.example" fullName reportedOnce
    run.addresses = ["r@acme.test"] ∧ run.addresses.Perm (notifiedAddresses reportedOnce) ∧
      (∃ email ∈ run.outbox.emails, ∃ before payload, ∃ context : ReportEmailContext,
        Enqueued "https://ibot.example" fullName before payload ∧
        email = context.email "https://ibot.example" payload.recipientEmail ∧
        context.overallScore =
          (registered before payload.candidateAssessmentId).map (·.2.overallScore)) ∧
      ∃ context, loadReportEmailContext fullName run.store.db 4 = some context ∧
        context.overallScore.isSome := by
  intro runtime fullName run
  obtain ⟨hcontent, hread, haddresses⟩ :=
    report_emails_correct "https://ibot.example" fullName reportedOnce
  have hsent : run.addresses = ["r@acme.test"] := by decide +kernel
  have hqueue : run.queue.length = 0 := by decide +kernel
  refine ⟨hsent, haddresses ?_, ?_, ?_⟩
  · intro event hevent
    rcases List.mem_append.mp hevent with hevent | hevent
    · obtain ⟨call, hcall, rfl⟩ := List.mem_map.mp hevent
      refine ⟨rfl, fun id recruiterId hdeletion => ?_⟩
      obtain ⟨request, hrequest, rfl⟩ := List.mem_map.mp hcall
      subst hdeletion
      simp at hrequest
    · rcases List.mem_cons.mp hevent with rfl | hevent
      · exact ⟨rfl, fun id recruiterId hdeletion => ServiceRequest.noConfusion hdeletion⟩
      · obtain rfl := List.mem_singleton.mp hevent
        exact ⟨rfl, ⟨none, rfl⟩, rfl, rfl⟩
  · have hemails : run.outbox.emails ≠ [] := by
      intro hnone
      have hwaiting : run.queue = [] := List.length_eq_zero_iff.mp hqueue
      rw [ReportSystem.addresses, hnone, hwaiting] at hsent
      cases hsent
    obtain ⟨email, hemail⟩ := List.exists_mem_of_ne_nil _ hemails
    obtain ⟨before, _, _, payload, context, _, henqueued, _, htold, hscore, _⟩ :=
      hcontent email hemail
    exact ⟨email, hemail, before, payload, context, henqueued, htold, hscore⟩
  · have hpublishes : firstSave.Publishes (reportRun "https://ibot.example" fullName
        (interviewedTwice.map (.serve · .committed))).store ⟨4, "r@acme.test"⟩ := by
      unfold ReportEvent.Publishes firstSave
      decide +kernel
    obtain ⟨context, hcontext, hscore⟩ := hread _ firstSave [.deliver ⟨0, returning, true⟩]
      ⟨4, "r@acme.test"⟩ rfl hpublishes fun later hlater => by
        obtain rfl := List.mem_singleton.mp hlater
        exact not_false
    refine ⟨context, hcontext, hscore trivial fun later hlater id => ?_⟩
    obtain rfl := List.mem_singleton.mp hlater
    exact not_false

end Samples

end IBotCoreApi
