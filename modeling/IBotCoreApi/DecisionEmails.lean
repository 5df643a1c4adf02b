import IBotCoreApi.DrawnEnrollments
import IBotCoreApi.EmailTasks
import Mathlib.Data.List.Chain
import Mathlib.Data.List.Perm.Subperm

namespace IBotCoreApi
open Python Transactions Runs RecruiterRequests

/-- The arguments of `dispatch_decision_with_logging`. -/
structure DecisionTask where
  caRecordId : Uuid
  candidateName : String
  recipientEmail : String
  assessmentTitle : String
  roleName : String
  decision : String
  feedback : Option String
deriving DecidableEq

def DecisionTask.notificationType (task : DecisionTask) : String :=
  if task.decision = "APPROVED" then "APPROVAL" else "REJECTION"

/-- The e-mails that have gone out, each by its task, and the committed log rows. -/
structure DecisionOutbox where
  emails : List DecisionTask
  notificationLogs : List NotificationEntry

structure DecisionCalls where
  send : CallOutcome
  logSent : CallOutcome
  sentDraws : LogDraws
  logFailed : CallOutcome
  failedDraws : LogDraws

namespace DecisionOutbox

def sendHiringDecisionEmail (outbox : DecisionOutbox) (outcome : CallOutcome)
    (task : DecisionTask) : DecisionOutbox :=
  if outcome.tookEffect then { outbox with emails := outbox.emails ++ [task] } else outbox

/-- `NotificationLogRepository.create` in its own transaction. -/
def log (outbox : DecisionOutbox) (outcome : CallOutcome) (draws : LogDraws)
    (task : DecisionTask) (deliveryStatus : String) (errorMessage : Option String) :
    DecisionOutbox :=
  if outcome.tookEffect then
    { outbox with
      notificationLogs := outbox.notificationLogs ++ [{
        id := draws.id
        candidateAssessmentId := task.caRecordId
        notificationType := task.notificationType
        recipientEmail := task.recipientEmail
        deliveryStatus := deliveryStatus
        sentAt := draws.sentAt
        errorMessage := errorMessage }] }
  else outbox

def logDecisionSent (outbox : DecisionOutbox) (calls : DecisionCalls) (task : DecisionTask) :
    DecisionOutbox :=
  outbox.log calls.logSent calls.sentDraws task "SENT" none

def logDecisionFailed (outbox : DecisionOutbox) (calls : DecisionCalls) (task : DecisionTask)
    (exception : TaskException) : DecisionOutbox :=
  outbox.log calls.logFailed calls.failedDraws task "FAILED"
    (some (exception.typeName ++ ": " ++ exception.text))

end DecisionOutbox

def dispatchDecisionWithLogging (task : DecisionTask) (calls : DecisionCalls)
    (outbox : DecisionOutbox) : DecisionOutbox :=
  let sent := outbox.sendHiringDecisionEmail calls.send task
  match calls.send.result with
  | .error .died => sent
  | .error (.raised exception) => sent.logDecisionFailed calls task exception
  | .ok () =>
    let logged := sent.logDecisionSent calls task
    match calls.logSent.result with
    -- a log that fails is handled like a send that fails
    | .error (.raised exception) => logged.logDecisionFailed calls task exception
    | .ok () | .error .died => logged

/-- The rows, the tasks that have not run yet, and what the others have done. -/
structure DecisionSystem where
  db : RecruiterDatabase
  pending : List DecisionTask
  outbox : DecisionOutbox

inductive DecisionSystemEvent where
  /-- A recruiter's request, and whether its commit raises. -/
  | request (recruiterId : Uuid) (request : RecruiterRequest) (commit : Option Unit)
  /-- A task runs to its end. -/
  | dispatch (task : ℕ) (calls : DecisionCalls)
  /-- The process is replaced, and its tasks are lost. -/
  | restart

def DecisionTask.ofEffect : RecruiterEffect → Option DecisionTask
  | .decisionEmail candidateAssessmentId candidateName recipientEmail assessment decision feedback =>
    some ⟨candidateAssessmentId, candidateName, recipientEmail, assessment.title,
      assessment.roleName, decision, feedback⟩
  | _ => none

section Machine

variable [Runtime]

/-- The requests and the tasks, in any order.  A step shows the tasks that it has started. -/
def decisionSystem : Machine DecisionSystem DecisionSystemEvent (List DecisionTask) :=
  fun s event =>
    match event with
    | .request recruiterId request commit =>
      let program := request.program recruiterId
      let started := (program.emitted recruiterEngine s.db).filterMap DecisionTask.ofEffect
      let scope := asyncSessionScope recruiterEngine commit (fun _ => none) program s.db
      (started, { s with db := scope.database, pending := s.pending ++ started })
    | .dispatch i calls =>
      match s.pending[i]? with
      | none => ([], s)
      | some task => ([], { s with
          pending := s.pending.eraseIdx i
          outbox := dispatchDecisionWithLogging task calls s.outbox })
    | .restart => ([], { s with pending := [] })

end Machine

def decisionsFor (id : Uuid) (tasks : List DecisionTask) : List String :=
  (tasks.filter (·.caRecordId == id)).map (·.decision)

def DecisionSystemEvent.Commits : DecisionSystemEvent → Prop
  | .request _ _ commit => commit = none
  | _ => True

def DecisionSystemEvent.Draws : DecisionSystemEvent → Uuid → Prop
  | .request _ served _, id => served.Draws id
  | _, _ => False

section Requests

variable {db after : RecruiterDatabase} {D : Uuid → Prop}

def DecisionsKept (D : Uuid → Prop) (db after : RecruiterDatabase) : Prop :=
  ∀ e ∈ after.enrollments, D e.id ∨
    ∃ e₀ ∈ db.enrollments, e₀.id = e.id ∧ e₀.recruiterDecision = e.recruiterDecision

theorem DecisionsKept.refl : DecisionsKept D db db := fun e he => .inr ⟨e, he, rfl, rfl⟩

theorem DecisionsKept.apply {S : Prop} {w : RecruiterWrite} (hw : DrawnWrite D False S w)
    (h : DecisionsKept D db after) : DecisionsKept D db (RecruiterWrite.apply after w) := by
  cases w with
  | insertEnrollment enrollment =>
    intro e he
    rcases List.mem_append.mp he with he | he
    · exact h e he
    · rw [List.mem_singleton.mp he]
      exact .inl hw.1
  | decide => exact hw.elim
  | deleteEnrollment enrollmentId =>
    cases hfound : after.enrollment? enrollmentId with
    | none =>
      rw [apply_deleteEnrollment_none hfound]
      exact h
    | some e =>
      rw [apply_deleteEnrollment_some hfound]
      exact fun e' he' => h e' (List.mem_of_mem_filter he')
  | insertAssessment | updateStatus | insertCandidate | renameCandidate | deleteCandidate
  | recordEvent => exact h

/-- What a request does to the decision on an enrollment that it does not draw: the tasks tell the
change. -/
structure DecisionTold (db after : RecruiterDatabase) (id : Uuid) (started : List DecisionTask) :
    Prop where
  told : ∀ e' ∈ after.enrollments, e'.id = id → ∃ e ∈ db.enrollments, e.id = id ∧
    decisionsFor id started =
      if e.recruiterDecision = e'.recruiterDecision then [] else [e'.recruiterDecision]

theorem DecisionTold.of_kept {id : Uuid} (h : DecisionsKept D db after) (hid : ¬ D id) :
    DecisionTold db after id [] where
  told := by
    rintro e' he' rfl
    rcases h e' he' with hdrawn | ⟨e, he, hsame, hdecision⟩
    · exact absurd hdrawn hid
    · exact ⟨e, he, hsame, by rw [if_pos hdecision]; rfl⟩

/-- The candidate of the enrollment has an e-mail, without which no task is started. -/
def HasEmail (db : RecruiterDatabase) (id : Uuid) : Prop :=
  ∀ e ∈ db.enrollments, e.id = id → ∀ c, db.candidate? e.candidateId = some c → c.email ≠ ""

theorem decisionTasks_of_not_decides {S : Prop} {effects : List RecruiterEffect}
    (h : ∀ effect ∈ effects, DrawnEffect D False S effect) :
    effects.filterMap DecisionTask.ofEffect = [] := by
  rw [List.filterMap_eq_nil_iff]
  intro effect heffect
  have hkind := h effect heffect
  cases effect with
  | decisionEmail => exact hkind.elim
  | _ => rfl

/-- A decision request raises, or stores the decision and tells it when it is new. -/
theorem updateRecruiterDecision_cases (clock : Clock) (candidateAssessmentId recruiterId : Uuid)
    (decision : Decision) (feedback : Option String) (db : RecruiterDatabase) :
    let p := updateRecruiterDecision clock candidateAssessmentId recruiterId decision feedback
    (∃ error, p.perform recruiterEngine db [] = .error error ∧ p.emitted recruiterEngine db = []) ∨
      ∃ e a, db.enrollment? candidateAssessmentId = some e ∧
        p.perform recruiterEngine db [] = .ok (
          .enrollment ((RecruiterWrite.decided clock decision.text feedback).set e),
          RecruiterWrite.apply db (.decide clock candidateAssessmentId decision.text feedback), []) ∧
        p.emitted recruiterEngine db =
          let email := ((db.candidate? e.candidateId).map (·.email)).getD ""
          if e.recruiterDecision ≠ decision.text ∧ email ≠ "" then
            [.decisionEmail e.id (((db.candidate? e.candidateId).map (·.fullName)).getD "") email a
              decision.text feedback]
          else [] := by
  intro p
  simp only [p, updateRecruiterDecision, getOwnedEnrollment]
  rw [Program.perform_select, Program.emitted_select, getEnrollmentById]
  cases hfound : db.enrollment? candidateAssessmentId with
  | none => exact .inl ⟨_, rfl, rfl⟩
  | some e =>
    cases hassessment : db.assessment? e.assessmentId with
    | none =>
      rw [Option.map_some, hassessment]
      exact .inl ⟨_, rfl, rfl⟩
    | some a =>
      rw [Option.map_some, hassessment]
      dsimp only
      by_cases howner : a.recruiterId ≠ recruiterId
      · rw [if_pos howner]
        exact .inl ⟨_, rfl, rfl⟩
      · rw [if_neg howner]
        refine .inr ⟨e, a, rfl, ?_, ?_⟩
        · refine Program.perform_write_eq_ok.mpr ⟨rfl, ?_⟩
          split
          · rfl
          · rfl
        · rw [Program.write, Program.emitted_statement rfl]
          split
          · rfl
          · rfl

theorem decisionsFor_singleton (id : Uuid) (task : DecisionTask) :
    decisionsFor id [task] = if task.caRecordId = id then [task.decision] else [] := by
  unfold decisionsFor
  by_cases hid : task.caRecordId = id
  · rw [if_pos hid, List.filter_cons_of_pos (by simpa using hid)]
    rfl
  · rw [if_neg hid, List.filter_cons_of_neg (by simpa using hid)]
    rfl

theorem decide_told (hkeyed : db.Keyed) {clock : Clock} {candidateAssessmentId : Uuid}
    {decision : String} {feedback : Option String} {e : RecruiterEnrollment}
    (hfound : db.enrollment? candidateAssessmentId = some e) {started : List DecisionTask} {id : Uuid}
    (hstarted : decisionsFor id started =
      if e.recruiterDecision ≠ decision ∧ e.id = id then [decision] else []) :
    DecisionTold db
      (RecruiterWrite.apply db (.decide clock candidateAssessmentId decision feedback)) id
      started where
  told := by
    intro e' he' hid
    obtain ⟨e₀, he₀, rfl⟩ := Tables.mem_updateWhere.mp he'
    let u := RecruiterWrite.decided clock decision feedback
    have hsame : (u.onRow (·.id == candidateAssessmentId) e₀).id = e₀.id := by
      unfold Tables.Update.onRow
      split <;> rfl
    have hid₀ : e₀.id = id := hsame.symm.trans hid
    refine ⟨e₀, he₀, hid₀, ?_⟩
    have hlookup := hkeyed.enrollment?_of_mem he₀
    have hkey : e.id = candidateAssessmentId := by simpa using List.find?_some hfound
    rw [hstarted]
    by_cases hmine : e₀.id = candidateAssessmentId
    · have hset : (RecruiterWrite.decided clock decision feedback).onRow
          (·.id == candidateAssessmentId) e₀ =
            (RecruiterWrite.decided clock decision feedback).set e₀ :=
        if_pos (beq_iff_eq.mpr hmine)
      rw [hmine, hfound] at hlookup
      cases hlookup
      rw [hset]
      simp [hid₀, RecruiterWrite.decided, ite_not]
    · have hother : (RecruiterWrite.decided clock decision feedback).onRow
          (·.id == candidateAssessmentId) e₀ = e₀ :=
        if_neg fun hbeq => hmine (beq_iff_eq.mp hbeq)
      rw [hother, if_pos rfl, if_neg]
      rintro ⟨_, hsame⟩
      exact hmine (hid₀.trans (hsame.symm.trans hkey))

variable [Runtime]

/-- A committed request tells the changes of the decision on an enrollment that it does not draw. -/
theorem request_told {s : DecisionSystem} (hkeyed : s.db.Keyed) (recruiterId : Uuid)
    (request : RecruiterRequest) {id : Uuid} (hid : ¬ request.Draws id) (hemail : HasEmail s.db id) :
    let t := Transition.of decisionSystem s (.request recruiterId request none)
    DecisionTold s.db t.post.db id t.output := by
  intro t
  let p := request.program recruiterId
  let scope : ScopeOutcome _ _ _ _ Unit :=
    asyncSessionScope recruiterEngine none (fun _ => none) p s.db
  change DecisionTold s.db scope.database id
    ((p.emitted recruiterEngine s.db).filterMap DecisionTask.ofEffect)
  by_cases hdecides : request.Decides
  · cases request with
    | updateRecruiterDecision clock candidateAssessmentId decision feedback =>
      rcases updateRecruiterDecision_cases clock candidateAssessmentId recruiterId decision feedback
        s.db with ⟨error, hrun, hemitted⟩ | ⟨e, a, hfound, hrun, hemitted⟩
      · have hsame : scope.database = s.db := by
          simp only [scope, asyncSessionScope, p, RecruiterRequest.program, hrun]
        rw [hsame, show p.emitted recruiterEngine s.db = [] from hemitted]
        exact .of_kept (D := fun _ => False) .refl not_false
      · have hdatabase : scope.database = _ := (asyncSessionScope_commits (fun _ => none) hrun).1
        rw [hdatabase, show p.emitted recruiterEngine s.db = _ from hemitted]
        refine decide_told hkeyed hfound ?_
        obtain ⟨c, hc⟩ := Option.isSome_iff_exists.mp
          (hkeyed.candidates e (Tables.lookup_mem hfound))
        simp only [hc, Option.map_some, Option.getD_some]
        by_cases hnew : e.recruiterDecision ≠ decision.text
        · by_cases hmine : e.id = id
          · have hsendable : c.email ≠ "" :=
              hemail e (Tables.lookup_mem hfound) hmine c hc
            rw [if_pos ⟨hnew, hsendable⟩]
            exact (decisionsFor_singleton id _).trans (by simp [hnew])
          -- whether the other enrollment's task is started does not matter here
          · have hother : ¬ (e.recruiterDecision ≠ decision.text ∧ e.id = id) := fun h => hmine h.2
            rw [if_neg hother]
            split
            · exact (decisionsFor_singleton id _).trans (by simp [hmine])
            · rfl
        · rw [if_neg fun h => hnew h.1, if_neg fun h => hnew h.1]
          rfl
    | _ => exact hdecides.elim
  · obtain ⟨R, honly⟩ := request.exists_only recruiterId
    rw [eq_false hdecides] at honly
    rw [decisionTasks_of_not_decides (honly.emitted s.db)]
    have hscope : (scope.database = s.db ∧ _) ∨ _ :=
      asyncSessionScope_cases recruiterEngine p s.db none (fun _ => none)
    rcases hscope with ⟨hdatabase, _⟩ | ⟨response, registered, hrun, _⟩
    · rw [hdatabase]
      exact .of_kept (D := fun _ => False) .refl not_false
    · refine .of_kept (D := request.Draws) ?_ hid
      exact (honly.perform (DecisionsKept request.Draws s.db) (fun _ _ hw _ => .apply hw) hrun .refl
        (by simp)).1

end Requests

section Deliveries

variable {task : DecisionTask} {calls : DecisionCalls} {outbox : DecisionOutbox}

/-- Whom an e-mail is about, to whom it goes, and its kind. -/
def DecisionTask.key (task : DecisionTask) : Uuid × String × String :=
  (task.caRecordId, task.recipientEmail, task.notificationType)

def DecisionOutbox.sentKeys (outbox : DecisionOutbox) : List (Uuid × String × String) :=
  (outbox.notificationLogs.filter (·.deliveryStatus == "SENT")).map fun row =>
    (row.candidateAssessmentId, row.recipientEmail, row.notificationType)

@[simp] theorem log_emails (outcome : CallOutcome) (draws : LogDraws) (status : String)
    (message : Option String) :
    (outbox.log outcome draws task status message).emails = outbox.emails := by
  unfold DecisionOutbox.log
  split
  · rfl
  · rfl

@[simp] theorem logDecisionFailed_sentKeys (exception : TaskException) :
    (outbox.logDecisionFailed calls task exception).sentKeys = outbox.sentKeys := by
  unfold DecisionOutbox.logDecisionFailed DecisionOutbox.log DecisionOutbox.sentKeys
  split
  · rw [List.filter_append, List.filter_cons_of_neg (by simp), List.filter_nil, List.append_nil]
  · rfl

theorem logDecisionSent_sentKeys : (outbox.logDecisionSent calls task).sentKeys =
    outbox.sentKeys ++ if calls.logSent.tookEffect then [task.key] else [] := by
  unfold DecisionOutbox.logDecisionSent DecisionOutbox.log DecisionOutbox.sentKeys
  split
  · rw [List.filter_append, List.map_append]
    rfl
  · exact (List.append_nil _).symm

/-- A task sends its e-mail unless the call fails without effect. -/
theorem dispatch_emails : (dispatchDecisionWithLogging task calls outbox).emails =
    outbox.emails ++ if calls.send.tookEffect then [task] else [] := by
  have hsent : (outbox.sendHiringDecisionEmail calls.send task).emails =
      outbox.emails ++ if calls.send.tookEffect then [task] else [] := by
    unfold DecisionOutbox.sendHiringDecisionEmail
    split
    · rfl
    · exact (List.append_nil _).symm
  unfold dispatchDecisionWithLogging
  dsimp only
  split
  · exact hsent
  · rw [DecisionOutbox.logDecisionFailed, log_emails, hsent]
  · split
    · rw [DecisionOutbox.logDecisionFailed, log_emails, DecisionOutbox.logDecisionSent, log_emails,
        hsent]
    · rw [DecisionOutbox.logDecisionSent, log_emails, hsent]
    · rw [DecisionOutbox.logDecisionSent, log_emails, hsent]

theorem dispatch_sentKeys (task : DecisionTask) (calls : DecisionCalls)
    (outbox : DecisionOutbox) : ∃ reported : List (Uuid × String × String),
    (dispatchDecisionWithLogging task calls outbox).sentKeys = outbox.sentKeys ++ reported ∧
      reported.Sublist (if calls.send.tookEffect then [task.key] else []) := by
  have hsent : (outbox.sendHiringDecisionEmail calls.send task).sentKeys = outbox.sentKeys := by
    unfold DecisionOutbox.sendHiringDecisionEmail
    split
    · rfl
    · rfl
  unfold dispatchDecisionWithLogging
  dsimp only
  cases hsend : calls.send with
  | returned =>
    refine ⟨if calls.logSent.tookEffect then [task.key] else [], ?_, ?_⟩
    · rw [hsend] at hsent
      dsimp only [CallOutcome.result]
      split
      · rw [logDecisionFailed_sentKeys, logDecisionSent_sentKeys, hsent]
      · rw [logDecisionSent_sentKeys, hsent]
      · rw [logDecisionSent_sentKeys, hsent]
    · split
      · exact List.Sublist.refl _
      · exact List.nil_sublist _
  | raised tookEffect exception =>
    refine ⟨[], ?_, List.nil_sublist _⟩
    rw [hsend] at hsent
    exact (logDecisionFailed_sentKeys exception).trans (hsent.trans (List.append_nil _).symm)
  | died tookEffect =>
    refine ⟨[], ?_, List.nil_sublist _⟩
    rw [hsend] at hsent
    exact hsent.trans (List.append_nil _).symm

end Deliveries

section Runs

variable [Runtime] {s : DecisionSystem}

omit [Runtime] in
theorem decisionsFor_append (id : Uuid) (tasks tasks' : List DecisionTask) :
    decisionsFor id (tasks ++ tasks') = decisionsFor id tasks ++ decisionsFor id tasks' := by
  rw [decisionsFor, List.filter_append, List.map_append]
  rfl

theorem decisionSystem_keyed (hkeyed : s.db.Keyed) (event : DecisionSystemEvent) :
    (decisionSystem s event).2.db.Keyed := by
  cases event with
  | request recruiterId request commit =>
    rcases asyncSessionScope_cases recruiterEngine (request.program recruiterId) s.db commit
      (fun _ => none) with ⟨hdatabase, _⟩ | ⟨response, registered, hrun, _⟩
    · have hdb : (decisionSystem s (.request recruiterId request commit)).2.db = s.db := hdatabase
      exact hdb.symm ▸ hkeyed
    · exact Program.perform_invariant RecruiterDatabase.Keyed (fun _ _ hw hs => hs.apply hw) hrun
        hkeyed
  | dispatch i calls =>
    dsimp only [decisionSystem]
    split
    · exact hkeyed
    · exact hkeyed
  | restart => exact hkeyed

theorem decisionSystem_told (hkeyed : s.db.Keyed) {event : DecisionSystemEvent}
    (hcommits : event.Commits) {id : Uuid} (hid : ¬ event.Draws id) (hemail : HasEmail s.db id) :
    DecisionTold s.db (decisionSystem s event).2.db id (decisionSystem s event).1 := by
  cases event with
  | request recruiterId request commit =>
    cases hcommits
    exact request_told hkeyed recruiterId request hid hemail
  | dispatch i calls =>
    dsimp only [decisionSystem]
    split
    · exact .of_kept (D := fun _ => False) .refl not_false
    · exact .of_kept (D := fun _ => False) .refl not_false
  | restart => exact .of_kept (D := fun _ => False) .refl not_false

def startedTasks (history : List (Transition DecisionSystem DecisionSystemEvent (List DecisionTask))) :
    List DecisionTask := history.flatMap (·.output)

theorem startedTasks_snoc
    (history : List (Transition DecisionSystem DecisionSystemEvent (List DecisionTask)))
    (s : DecisionSystem) (event : DecisionSystemEvent) :
    startedTasks (history ++ [Transition.of decisionSystem s event]) =
      startedTasks history ++ (decisionSystem s event).1 := by
  simp [startedTasks, Transition.of]

/-- The decisions that an enrollment has had, its first one included. -/
structure DecisionHistory (id : Uuid) (first : String)
    (history : List (Transition DecisionSystem DecisionSystemEvent (List DecisionTask)))
    (s : DecisionSystem) : Prop where
  keyed : s.db.Keyed
  told : ∀ e ∈ s.db.enrollments, e.id = id →
    (first :: decisionsFor id (startedTasks history)).IsChain (· ≠ ·) ∧
      (first :: decisionsFor id (startedTasks history)).getLast? = some e.recruiterDecision

theorem DecisionHistory.step {id : Uuid} {first : String}
    {history : List (Transition DecisionSystem DecisionSystemEvent (List DecisionTask))}
    (h : DecisionHistory id first history s) (hemail : HasEmail s.db id)
    {event : DecisionSystemEvent} (hcommits : event.Commits) (hid : ¬ event.Draws id) :
    DecisionHistory id first (history ++ [Transition.of decisionSystem s event])
      (decisionSystem s event).2 where
  keyed := decisionSystem_keyed h.keyed event
  told := by
    intro e' he' hsame
    obtain ⟨e, he, heid, htold⟩ := (decisionSystem_told h.keyed hcommits hid hemail).told e' he'
      hsame
    obtain ⟨hchain, hlast⟩ := h.told e he heid
    rw [startedTasks_snoc, decisionsFor_append, htold]
    split
    · next hkept => simpa [hkept] using And.intro hchain (hlast.trans (congrArg some hkept))
    · next hnew =>
      rw [← List.cons_append]
      refine ⟨List.isChain_append.mpr ⟨hchain, List.isChain_singleton _, ?_⟩, List.getLast?_concat⟩
      intro d hd d' hd'
      rw [hlast] at hd
      cases hd
      cases hd'
      exact hnew

/-- The e-mails and the tasks that wait are started tasks, and the log reports e-mails only. -/
structure Delivered (started : List DecisionTask) (s : DecisionSystem) : Prop where
  emails : (s.outbox.emails ++ s.pending).Subperm started
  log : s.outbox.sentKeys.Subperm (s.outbox.emails.map (·.key))

theorem Delivered.step {started : List DecisionTask} (h : Delivered started s)
    (event : DecisionSystemEvent) :
    Delivered (started ++ (decisionSystem s event).1) (decisionSystem s event).2 := by
  cases event with
  | request recruiterId request commit =>
    refine ⟨?_, h.log⟩
    dsimp only [decisionSystem]
    rw [← List.append_assoc]
    exact (List.subperm_append_right _).mpr h.emails
  | dispatch i calls =>
    cases htask : s.pending[i]? with
    | none =>
      simp only [decisionSystem, htask, List.append_nil]
      exact h
    | some task =>
      simp only [decisionSystem, htask, List.append_nil]
      obtain ⟨hlt, rfl⟩ := List.getElem?_eq_some_iff.mp htask
      have hperm := List.getElem_cons_eraseIdx_perm hlt
      constructor
      · refine List.Subperm.trans ?_ h.emails
        dsimp only
        rw [dispatch_emails, List.append_assoc]
        refine (List.subperm_append_left _).mpr (List.Subperm.trans ?_ hperm.subperm)
        split
        · exact List.Subperm.refl _
        · exact (List.sublist_cons_self _ _).subperm
      · obtain ⟨reported, hkeys, hreported⟩ := dispatch_sentKeys s.pending[i] calls
          s.outbox
        dsimp only
        rw [dispatch_emails, hkeys, List.map_append]
        refine h.log.append ?_
        split
        · next hsent =>
          rw [if_pos hsent] at hreported
          exact hreported.subperm
        · next hunsent =>
          rw [if_neg hunsent] at hreported
          exact hreported.subperm
  | restart =>
    refine ⟨?_, h.log⟩
    simp only [decisionSystem, List.append_nil]
    exact (List.sublist_append_left _ _).subperm.trans h.emails

end Runs

section Samples

/-- The owner of an enrollment approves, approves again and rejects. -/
def wavering : List DecisionSystemEvent :=
  [.approved, .approved, .rejected].map fun decision =>
    .request 2 (.updateRecruiterDecision ⟨10, 10⟩ 40 decision none) none

end Samples

end IBotCoreApi
