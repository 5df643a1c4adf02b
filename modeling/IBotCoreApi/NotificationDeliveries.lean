import IBotCoreApi.EmailTasks

namespace IBotCoreApi
open Python NotificationTasks NotificationLogRepository

namespace Notification

variable (frontendBaseUrl : String)

def send : Notification → Calls → TaskM Unit
  | .invitation payload => sendInvitation payload
  | .cancellation payload => sendCancellation payload
  | .reportReady payload => sendReportReady frontendBaseUrl payload

def logFailure : Notification → String → Calls → TaskM Unit
  | .invitation payload => logInvitationFailure payload
  | .cancellation payload => logCancellationFailure payload
  | .reportReady payload => logReportReadyFailure payload

theorem task_eq (notification : Notification) : notification.task frontendBaseUrl =
    emailTask (notification.send frontendBaseUrl) notification.logFailure := by
  cases notification <;> rfl

/-- The attempt gets to its e-mail: the report-ready task reads the context of its e-mail first. -/
def reachesSend (notification : Notification) (calls : Calls) : Bool :=
  match notification, calls.context with
  | .reportReady _, .ok (some _) => true
  | .reportReady _, _ => false
  | _, _ => true

def emailed (notification : Notification) (calls : Calls) : Bool :=
  notification.reachesSend calls && calls.send.tookEffect

def raises (notification : Notification) (calls : Calls) : Bool :=
  if notification.reachesSend calls then
    match calls.send with
    | .returned => calls.logSent.isRaised
    | .raised _ _ => true
    | .died _ => false
  else
    match calls.context with
    | .error .died => false
    | _ => true

/-- The attempt is the last retry, ends in an exception, and its failure is recorded. -/
def givesUp (notification : Notification) (retries : ℕ) (calls : Calls) : Bool :=
  decide (maxRetries ≤ retries) && notification.raises calls && calls.logFailed.tookEffect

end Notification

/-- The e-mails have been sent at most once, and none has been when a failure is recorded. -/
def Outbox.Agrees (outbox : Outbox) : Prop :=
  outbox.emails.length ≤ 1 ∧
    ((∃ row ∈ outbox.notificationLogs, row.deliveryStatus = "FAILED") → outbox.emails = [])

/-- The attempt sends its e-mail only before any other e-mail and any recorded failure of its
message, and its own failure is recorded only when no e-mail has gone out, its own included. -/
def SafeAttempt (outbox : Outbox) (message : TaskMessage) (calls : Calls) : Prop :=
  (message.notification.emailed calls = true → outbox.emails = [] ∧
      message.notification.givesUp message.retries calls = false ∧
      ∀ row ∈ outbox.notificationLogs, row.deliveryStatus ≠ "FAILED") ∧
    (message.notification.givesUp message.retries calls = true → outbox.emails = [])

section Calls

theorem perform_run (outcome : CallOutcome) (effect : Outbox → Outbox) (outbox : Outbox) :
    (outcome.perform effect).run outbox =
      (outcome.result, if outcome.tookEffect then effect outbox else outbox) := by
  unfold CallOutcome.perform
  cases outcome.tookEffect with
  | true => rfl
  | false => rfl

theorem exists_raised_iff (outcome : CallOutcome) :
    (∃ exception, outcome.result = .error (.raised exception)) ↔ outcome.isRaised = true := by
  cases outcome with
  | returned => simp [CallOutcome.result, CallOutcome.isRaised]
  | raised => simp [CallOutcome.result, CallOutcome.isRaised]
  | died => simp [CallOutcome.result, CallOutcome.isRaised]

theorem create_run (outcome : CallOutcome) (draws : LogDraws) (candidateAssessmentId : Uuid)
    (notificationType recipientEmail deliveryStatus : String) (errorMessage : Option String)
    (outbox : Outbox) :
    ∃ rows : List NotificationEntry, (∀ row ∈ rows, row.deliveryStatus = deliveryStatus) ∧
      (rows ≠ [] ↔ outcome.tookEffect = true) ∧
      (create outcome draws candidateAssessmentId notificationType recipientEmail deliveryStatus
        errorMessage).run outbox =
          (outcome.result, { outbox with notificationLogs := outbox.notificationLogs ++ rows }) := by
  unfold create
  rw [perform_run]
  cases houtcome : outcome.tookEffect with
  | true =>
    refine ⟨_, ?_, ?_, rfl⟩
    · intro row hrow
      rw [List.mem_singleton.mp hrow]
    · simp
  | false => exact ⟨[], by simp, by simp, by simp⟩

theorem sendLog_run (send logSent : CallOutcome) (draws : LogDraws) (email : Email)
    (candidateAssessmentId : Uuid) (notificationType recipientEmail : String) (outbox : Outbox) :
    ∃ emails rows result, emails.length = send.tookEffect.toNat ∧
      (∀ row ∈ rows, row.deliveryStatus = "SENT") ∧
      ((∃ exception, result = .error (.raised exception)) ↔
        send.isRaised = true ∨ send = .returned ∧ logSent.isRaised = true) ∧
      (do
        sendEmail send email
        create logSent draws candidateAssessmentId notificationType recipientEmail "SENT" none :
          TaskM Unit).run outbox =
        (result, ⟨outbox.emails ++ emails, outbox.notificationLogs ++ rows⟩) := by
  cases send with
  | returned =>
    obtain ⟨rows, hstatus, _, hrun⟩ := create_run logSent draws candidateAssessmentId
      notificationType recipientEmail "SENT" none { outbox with emails := outbox.emails ++ [email] }
    refine ⟨[email], rows, logSent.result, rfl, hstatus, ?_, hrun⟩
    simpa [CallOutcome.isRaised] using exists_raised_iff logSent
  | raised tookEffect exception =>
    have hraised : (CallOutcome.raised tookEffect exception).isRaised = true := rfl
    cases tookEffect with
    | true =>
      exact ⟨[email], [], .error (.raised exception), rfl, by simp, by simp [hraised],
        by simp; rfl⟩
    | false =>
      exact ⟨[], [], .error (.raised exception), rfl, by simp, by simp [hraised], by simp; rfl⟩
  | died tookEffect =>
    have hdied : (CallOutcome.died tookEffect).isRaised = false := rfl
    cases tookEffect with
    | true => exact ⟨[email], [], .error .died, rfl, by simp, by simp [hdied], by simp; rfl⟩
    | false => exact ⟨[], [], .error .died, rfl, by simp, by simp [hdied], by simp; rfl⟩

theorem raises_of_reachesSend {notification : Notification} {calls : Calls}
    (h : notification.reachesSend calls = true) : notification.raises calls = true ↔
      calls.send.isRaised = true ∨ calls.send = .returned ∧ calls.logSent.isRaised = true := by
  rw [Notification.raises, if_pos h]
  cases calls.send with
  | returned => simp [CallOutcome.isRaised]
  | raised => simp [CallOutcome.isRaised]
  | died => simp [CallOutcome.isRaised]

end Calls

section Attempts

variable (frontendBaseUrl : String) (notification : Notification) (calls : Calls) (outbox : Outbox)

theorem send_run :
    ∃ emails rows result, emails.length = (notification.emailed calls).toNat ∧
      (∀ row ∈ rows, row.deliveryStatus = "SENT") ∧
      ((∃ exception, result = .error (.raised exception)) ↔ notification.raises calls = true) ∧
      (notification.send frontendBaseUrl calls).run outbox =
        (result, ⟨outbox.emails ++ emails, outbox.notificationLogs ++ rows⟩) := by
  cases notification with
  | invitation payload =>
    rw [raises_of_reachesSend rfl]
    exact sendLog_run calls.send calls.logSent calls.sentDraws _ payload.candidateAssessmentId
      "INVITATION" payload.recipientEmail outbox
  | cancellation payload =>
    rw [raises_of_reachesSend rfl]
    exact sendLog_run calls.send calls.logSent calls.sentDraws _ payload.candidateAssessmentId
      "ASSESSMENT_CANCELLATION" payload.recipientEmail outbox
  | reportReady payload =>
    obtain ⟨context, send, logSent, sentDraws, retry, logFailed, failedDraws⟩ := calls
    cases context with
    | error interruption =>
      cases interruption with
      | raised exception =>
        exact ⟨[], [], .error (.raised exception), rfl, by simp, by simp [Notification.raises,
          Notification.reachesSend], by simp; rfl⟩
      | died =>
        exact ⟨[], [], .error .died, rfl, by simp, by simp [Notification.raises,
          Notification.reachesSend], by simp; rfl⟩
    | ok context =>
      cases context with
      | none =>
        exact ⟨[], [], .error (.raised _), rfl, by simp, by simp [Notification.raises,
          Notification.reachesSend], by simp; rfl⟩
      | some context =>
        rw [raises_of_reachesSend rfl]
        exact sendLog_run send logSent sentDraws _ payload.candidateAssessmentId
          "REPORT_READY_EMAIL" (strip payload.recipientEmail) outbox

theorem logFailure_run (errorMessage : String) :
    ∃ rows : List NotificationEntry, (∀ row ∈ rows, row.deliveryStatus = "FAILED") ∧
      (rows ≠ [] ↔ calls.logFailed.tookEffect = true) ∧
      ((notification.logFailure errorMessage calls).run outbox).2 =
        { outbox with notificationLogs := outbox.notificationLogs ++ rows } := by
  -- each kind of notification logs its failure as one row of its own type
  obtain ⟨candidateAssessmentId, notificationType, recipientEmail, hlogs⟩ :
      ∃ candidateAssessmentId notificationType recipientEmail,
        notification.logFailure errorMessage calls = create calls.logFailed calls.failedDraws
          candidateAssessmentId notificationType recipientEmail "FAILED" (some errorMessage) := by
    cases notification with
    | invitation | cancellation | reportReady => exact ⟨_, _, _, rfl⟩
  obtain ⟨rows, hstatus, hrows, hrun⟩ := create_run calls.logFailed calls.failedDraws
    candidateAssessmentId notificationType recipientEmail "FAILED" (some errorMessage) outbox
  refine ⟨rows, hstatus, hrows, ?_⟩
  rw [hlogs, hrun]

theorem task_run (retries : ℕ) :
    ∃ emails rows, emails.length = (notification.emailed calls).toNat ∧
      ((∃ row ∈ rows, row.deliveryStatus = "FAILED") ↔
        notification.givesUp retries calls = true) ∧
      (notification.task frontendBaseUrl retries calls outbox).2 =
        ⟨outbox.emails ++ emails, outbox.notificationLogs ++ rows⟩ ∧
      ((notification.task frontendBaseUrl retries calls outbox).1.isSome →
        notification.raises calls = true ∧ retries < maxRetries) := by
  rw [Notification.task_eq]
  unfold emailTask
  obtain ⟨emails, rows, result, hemails, hsent, hraises, hrun⟩ :=
    send_run frontendBaseUrl notification calls outbox
  have hnotFailed : ¬ ∃ row ∈ rows, row.deliveryStatus = "FAILED" := by
    rintro ⟨row, hrow, hfailed⟩
    rw [hsent row hrow] at hfailed
    simp at hfailed
  rw [hrun]
  cases result with
  | ok =>
    have hreturns : notification.raises calls = false := by simpa using hraises
    refine ⟨emails, rows, hemails, ?_, rfl, by simp⟩
    simp [hnotFailed, Notification.givesUp, hreturns]
  | error interruption =>
    cases interruption with
    | died =>
      have hreturns : notification.raises calls = false := by simpa using hraises
      refine ⟨emails, rows, hemails, ?_, rfl, by simp⟩
      simp [hnotFailed, Notification.givesUp, hreturns]
    | raised exception =>
      have hraised : notification.raises calls = true := hraises.mp ⟨exception, rfl⟩
      by_cases hretry : retries < maxRetries
      · refine ⟨emails, rows, hemails, ?_, by simp [hretry], fun _ => ⟨hraised, hretry⟩⟩
        simp [hnotFailed, Notification.givesUp, hretry]
      · -- the exception is recorded after the last retry
        obtain ⟨failures, hfailed, hwritten, hlog⟩ := logFailure_run notification calls
          ⟨outbox.emails ++ emails, outbox.notificationLogs ++ rows⟩
          (exception.typeName ++ ": " ++ exception.text)
        refine ⟨emails, rows ++ failures, hemails, ?_, ?_, by simp [hretry]⟩
        · have hgivesUp : notification.givesUp retries calls = calls.logFailed.tookEffect := by
            simp [Notification.givesUp, hraised, not_lt.mp hretry]
          rw [hgivesUp, ← hwritten]
          constructor
          · rintro ⟨row, hrow, hstatus⟩ rfl
            rw [List.append_nil] at hrow
            exact hnotFailed ⟨row, hrow, hstatus⟩
          · intro hne
            obtain ⟨row, hrow⟩ := List.exists_mem_of_ne_nil failures hne
            exact ⟨row, List.mem_append_right rows hrow, hfailed row hrow⟩
        · simp only [hretry, if_false, hlog, List.append_assoc]

end Attempts

section Runs

variable {frontendBaseUrl : String}

def attempts (frontendBaseUrl : String) (notification : Notification)
    (deliveries : List (Redelivery.Delivery Calls)) : Redelivery.System Outbox TaskMessage :=
  Runs.exec (Redelivery.deliver (emailWorker frontendBaseUrl)) ⟨⟨[], []⟩, [notification.enqueue]⟩
    deliveries

theorem agrees_worker_iff (message : TaskMessage) (calls : Calls) (outbox : Outbox) :
    (emailWorker frontendBaseUrl message calls outbox).2.Agrees ↔
      outbox.Agrees ∧ SafeAttempt outbox message calls := by
  obtain ⟨emails, rows, hemails, hfailed, hrun, _⟩ := task_run frontendBaseUrl message.notification
    calls outbox message.retries
  have hworker : (emailWorker frontendBaseUrl message calls outbox).2 =
    ⟨outbox.emails ++ emails, outbox.notificationLogs ++ rows⟩ := hrun
  have hlogged : (∃ row ∈ outbox.notificationLogs ++ rows, row.deliveryStatus = "FAILED") ↔
      (∃ row ∈ outbox.notificationLogs, row.deliveryStatus = "FAILED") ∨
        message.notification.givesUp message.retries calls = true := by
    rw [← hfailed]
    simp only [List.mem_append, or_and_right, exists_or]
  rw [hworker]
  unfold Outbox.Agrees SafeAttempt
  rw [hlogged]
  cases hemailed : message.notification.emailed calls with
  | false =>
    rw [hemailed, Bool.toNat_false] at hemails
    rw [List.eq_nil_of_length_eq_zero hemails, List.append_nil]
    simp only [Bool.false_eq_true, false_implies, true_and, or_imp, and_assoc]
  | true =>
    rw [hemailed, Bool.toNat_true] at hemails
    have hsome : outbox.emails ++ emails ≠ [] := by
      intro hnil
      rw [(List.append_eq_nil_iff.mp hnil).2] at hemails
      cases hemails
    have hfirst : (outbox.emails ++ emails).length ≤ 1 ↔ outbox.emails = [] := by
      rw [List.length_append, hemails, ← List.length_eq_zero_iff]
      omega
    simp only [hfirst, hsome, imp_false, not_or, Bool.not_eq_true, true_implies, not_exists, not_and]
    constructor
    · rintro ⟨hnone, hunfailed, hkept⟩
      refine ⟨⟨by simp [hnone], fun _ => hnone⟩, ⟨hnone, hkept, hunfailed⟩, fun _ => hnone⟩
    · rintro ⟨_, ⟨hnone, hkept, hunfailed⟩, _⟩
      exact ⟨hnone, hunfailed, hkept⟩

/-- The log of a message agrees with its deliveries exactly when every attempt is safe. -/
theorem notification_log_agrees_iff (frontendBaseUrl : String) (notification : Notification)
    (deliveries : List (Redelivery.Delivery Calls)) :
    (attempts frontendBaseUrl notification deliveries).state.Agrees ↔
      ∀ before delivery after, deliveries = before ++ delivery :: after → ∀ message,
        (attempts frontendBaseUrl notification before).queue[delivery.position]? = some message →
          SafeAttempt (attempts frontendBaseUrl notification before).state message
            delivery.input := by
  have hstep (system : Redelivery.System Outbox TaskMessage)
      (delivery : Redelivery.Delivery Calls) :
      (Redelivery.deliver (emailWorker frontendBaseUrl) system delivery).2.state.Agrees ↔
        system.state.Agrees ∧ ∀ message, system.queue[delivery.position]? = some message →
          SafeAttempt system.state message delivery.input := by
    cases hmessage : system.queue[delivery.position]? with
    | none => simp [Redelivery.deliver_of_none hmessage]
    | some message =>
      rw [Redelivery.deliver_of_some hmessage, agrees_worker_iff]
      simp
  have hstart : Outbox.Agrees ⟨[], []⟩ := ⟨by simp, by simp⟩
  have hrun := Runs.exec_iff (P := fun system : Redelivery.System Outbox TaskMessage =>
    system.state.Agrees) (s := ⟨⟨[], []⟩, [notification.enqueue]⟩) hstep deliveries
  exact hrun.trans (and_iff_right hstart)

/-- The delivery is acknowledged, and an e-mail that goes out is followed by its row. -/
structure Reliable (notification : Notification) (delivery : Redelivery.Delivery Calls) : Prop where
  acknowledged : delivery.acknowledged = true
  logged : notification.emailed delivery.input = true →
    delivery.input.send = .returned ∧ delivery.input.logSent = .returned

theorem Reliable.raises {notification : Notification} {delivery : Redelivery.Delivery Calls}
    (h : Reliable notification delivery) (hemailed : notification.emailed delivery.input = true) :
    notification.raises delivery.input = false := by
  obtain ⟨hsend, hlog⟩ := h.logged hemailed
  have hreached := (Bool.and_eq_true_iff.mp hemailed).1
  simp [Notification.raises, hreached, hsend, hlog, CallOutcome.isRaised]

structure Unsent (notification : Notification) (system : Redelivery.System Outbox TaskMessage) :
    Prop where
  short : system.queue = [] ∨ ∃ message, system.queue = [message] ∧
    message.notification = notification ∧ system.state.emails = [] ∧
    ∀ row ∈ system.state.notificationLogs, row.deliveryStatus ≠ "FAILED"
  agrees : system.state.Agrees

theorem Unsent.deliver {notification : Notification}
    {system : Redelivery.System Outbox TaskMessage} {delivery : Redelivery.Delivery Calls}
    (hreliable : Reliable notification delivery) (h : Unsent notification system) :
    Unsent notification (Redelivery.deliver (emailWorker frontendBaseUrl) system delivery).2 := by
  rcases h.short with hempty | ⟨message, hqueue, rfl, hnone, hunfailed⟩
  · rw [Redelivery.deliver_of_none (by simp [hempty])]
    exact h
  rcases Redelivery.deliver_single (emailWorker frontendBaseUrl) hqueue
    hreliable.acknowledged with hsame | hnext
  · rw [hsame]
    exact h
  obtain ⟨emails, rows, hemails, hfailed, hrun, hretry⟩ :=
    task_run frontendBaseUrl message.notification delivery.input system.state
      message.retries
  have hsafe : SafeAttempt system.state message delivery.input := by
    refine ⟨fun hemailed => ⟨hnone, ?_, hunfailed⟩, fun _ => hnone⟩
    simp [Notification.givesUp, hreliable.raises hemailed]
  rw [hnext]
  refine ⟨?_, agrees_worker_iff message delivery.input system.state |>.mpr ⟨h.agrees, hsafe⟩⟩
  have hstate : (emailWorker frontendBaseUrl message delivery.input system.state).2 =
    ⟨system.state.emails ++ emails, system.state.notificationLogs ++ rows⟩ := hrun
  simp only [hstate]
  cases hpublished : (message.notification.task frontendBaseUrl message.retries delivery.input
      system.state).1 with
  | none => exact .inl (by simp [emailWorker, hpublished])
  | some retry =>
    -- an attempt that is retried has sent nothing
    obtain ⟨hraises, hmore⟩ := hretry (by simp [hpublished])
    have hunsent : message.notification.emailed delivery.input = false := by
      rw [← Bool.not_eq_true]
      intro hemailed
      rw [hreliable.raises hemailed] at hraises
      cases hraises
    refine .inr ⟨⟨message.notification, retry.retries, retry.countdown⟩,
      by simp [emailWorker, hpublished], rfl, ?_, ?_⟩
    · rw [hunsent, Bool.toNat_false] at hemails
      rw [hnone, List.eq_nil_of_length_eq_zero hemails, List.append_nil]
    · intro row hrow hstatus
      rcases List.mem_append.mp hrow with hold | hnew
      · exact hunfailed row hold hstatus
      · have hgivesUp := hfailed.mp ⟨row, hnew, hstatus⟩
        simp only [Notification.givesUp, Bool.and_eq_true, decide_eq_true_eq] at hgivesUp
        exact absurd hgivesUp.1.1 (not_le.mpr hmore)

/-- Deliveries that are acknowledged, with e-mails that are logged, keep the log in agreement. -/
theorem agrees_of_reliable {notification : Notification}
    {deliveries : List (Redelivery.Delivery Calls)}
    (h : ∀ delivery ∈ deliveries, Reliable notification delivery) :
    (attempts frontendBaseUrl notification deliveries).state.Agrees := by
  have hstart : Unsent notification
      (⟨⟨[], []⟩, [notification.enqueue]⟩ : Redelivery.System Outbox TaskMessage) :=
    ⟨.inr ⟨_, rfl, rfl, rfl, by simp⟩, by simp, by simp⟩
  exact (Runs.exec_invariant (fun _ _ hreliable hunsent => hunsent.deliver hreliable) h
    hstart).agrees

end Runs

section Sample

/-- The e-mail is sent, and its row is refused: the enrollment is not there any more, or the
database is not. -/
def unlogged : Calls where
  context := .ok (some ⟨some "Grace", some "Backend", some "Engineer", some "Ada", none, none⟩)
  send := .returned
  logSent := .raised false ⟨"IntegrityError", "the row is refused"⟩
  sentDraws := ⟨1, 0⟩
  retry := .returned
  logFailed := .returned
  failedDraws := ⟨2, 0⟩

/-- Every attempt of a message, each of them acknowledged. -/
def unloggedDeliveries : List (Redelivery.Delivery Calls) := List.replicate 4 ⟨0, unlogged, true⟩

def sampleNotifications : List Notification :=
  [.invitation ⟨7, "Grace", "grace@example.org", "Backend", "Engineer", "https://ibot.example/i", 30⟩,
    .cancellation ⟨7, "Grace", "grace@example.org", "Backend", "Engineer"⟩,
    .reportReady ⟨7, "ada@acme.example"⟩]

def unloggedOutboxes : List Outbox :=
  sampleNotifications.map fun notification =>
    (attempts "https://ibot.example" notification unloggedDeliveries).state

/-- Four e-mails are sent for one message, and a failure is recorded after them. -/
theorem unlogged_email_resent :
    unloggedOutboxes.map (·.emails.length) = [4, 4, 4] ∧
      unloggedOutboxes.map (·.notificationLogs.map (·.deliveryStatus)) =
        [["FAILED"], ["FAILED"], ["FAILED"]] ∧
      ¬ ∃ outbox ∈ unloggedOutboxes, outbox.Agrees := by
  have hemails : unloggedOutboxes.map (·.emails.length) = [4, 4, 4] := by decide +kernel
  refine ⟨hemails, by decide +kernel, ?_⟩
  rintro ⟨outbox, hmem, hagrees⟩
  have hfour : outbox.emails.length ∈ [4, 4, 4] := hemails ▸ List.mem_map_of_mem hmem
  have honce := hagrees.1
  simp only [List.mem_cons, List.not_mem_nil, or_false, or_self] at hfour
  omega

end Sample

end IBotCoreApi
