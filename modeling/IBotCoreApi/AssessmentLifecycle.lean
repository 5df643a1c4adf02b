import IBotCoreApi.Service

namespace IBotCoreApi
open Python Outcomes Runs InternalInterview InterviewSessionService CandidateSessionRepository
  AssessmentRepository

variable {db db' : Database} {clock : Clock}

section Frame

theorem transact_assessments {α : Type} {body : Except ApiException (α × Database)}
    (hbody : ∀ a db', body = .ok (a, db') → db'.assessments = db.assessments) :
    (transact db body).2.assessments = db.assessments := by
  match body with
  | .ok (a, db') => exact hbody a db' rfl
  | .error _ => rfl

theorem assessments_getOrCreateSession {newId ca : Uuid} {s : InterviewSession}
    (hget : db.getOrCreateSession clock newId ca = .ok (s, db')) :
    db'.assessments = db.assessments := by
  obtain ⟨_, rfl⟩ | ⟨_, _, _, rfl⟩ := getOrCreateSession_cases hget
  · rfl
  · rfl

theorem assessments_issueCredentials {context : LifecycleContext} {session : InterviewSession}
    {drawn : String} {token : Option String} {expiresAt : Option Time}
    (hissue : issueCredentials db clock context session drawn = .ok (token, expiresAt, db')) :
    db'.assessments = db.assessments := by
  obtain ⟨_, _, _, _, rfl⟩ | ⟨_, _, _, rfl⟩ := issueCredentials_cases hissue
  · rfl
  · rfl

variable [Runtime]

theorem enterWithInvitation_assessments {draws : EntryDraws} {invitationToken : Uuid} :
    (enterWithInvitation db clock draws invitationToken).2.assessments = db.assessments := by
  have houtcome := enterWithInvitation_outcome db clock draws invitationToken
  generalize (enterWithInvitation db clock draws invitationToken).1 = result at houtcome
  generalize (enterWithInvitation db clock draws invitationToken).2 = db' at houtcome ⊢
  cases houtcome with
  | unknown | sessionIdTaken | tokenTaken | expiryMissing => rfl
  | rejected metadata hlock hget hreason =>
    exact (assessments_getOrCreateSession hget : _ = db.assessments)
  | admitted hlock hget hopen hissue =>
    have hissued := (assessments_issueCredentials hissue).trans
      (assessments_getOrCreateSession hget)
    unfold admittedDatabase
    split
    · exact hissued
    · exact hissued

omit [Runtime] in
theorem authorizeInterviewConnection_assessments (h : db.WellFormed) (draw : Uuid)
    (sessionToken : String) :
    (authorizeInterviewConnection db clock draw sessionToken).2.assessments = db.assessments := by
  have houtcome := authorizeInterviewConnection_outcome h clock draw sessionToken
  generalize (authorizeInterviewConnection db clock draw sessionToken).1 = result at houtcome
  generalize (authorizeInterviewConnection db clock draw sessionToken).2 = db' at houtcome ⊢
  cases houtcome with
  | refused | timedOut | reconnected | bound => rfl

omit [Runtime] in
theorem recordDisconnect_assessments (sessionId : Uuid) (connectionId : String)
    (candidateAssessmentId : Uuid) (reason : String) (elapsedSecs : ℤ) :
    (InterviewSessionService.recordDisconnect db clock sessionId connectionId candidateAssessmentId
      reason elapsedSecs).2.assessments = db.assessments := by
  generalize hrun : InterviewSessionService.recordDisconnect db clock sessionId connectionId
    candidateAssessmentId reason elapsedSecs = result
  obtain ⟨outcome, db'⟩ := result
  rcases recordDisconnect_cases hrun with ⟨_, rfl, _⟩ | ⟨s, _, eventName, m, _, _, rfl⟩
  · rfl
  · simp only [record, Database.recordEvent]
    split
    · rfl
    · rfl

omit [Runtime] in
theorem saveViolations_assessments (sessionId candidateAssessmentId : Uuid) (violations : List Json)
    (terminated : Bool) :
    (InterviewSessionRepository.saveViolations db clock sessionId candidateAssessmentId violations
      terminated).assessments = db.assessments := by
  unfold InterviewSessionRepository.saveViolations
  cases terminated <;> rfl

theorem persistTurn_assessments {sessionId : Uuid} {transcriptItems violations : List Json.Entries}
    {elapsedSecs : Option ℤ}
    (hrun : persistTurn db clock sessionId transcriptItems violations elapsedSecs = .ok ((), db')) :
    db'.assessments = db.assessments := by
  unfold persistTurn at hrun
  obtain ⟨db₁, hitems, hrun⟩ := bind_eq_ok.mp hrun
  obtain ⟨db₂, hviolations, hrun⟩ := bind_eq_ok.mp hrun
  have h₁ : db₁.assessments = db.assessments := by
    refine foldlM_invariant (P := fun db₁ => db₁.assessments = db.assessments) ?_ hitems rfl
    intro db₀ item db₁ hrun hsame
    obtain ⟨⟨appended, _⟩, hitem, rfl⟩ := map_eq_ok.mp hrun
    unfold InterviewSessionRepository.appendTranscriptTurn at hitem
    obtain ⟨session, _, hitem⟩ := bind_eq_ok.mp hitem
    obtain ⟨⟨transcript, _⟩, _, hitem⟩ := bind_eq_ok.mp hitem
    cases hitem
    exact hsame
  have h₂ : db₂.assessments = db.assessments := by
    refine foldlM_invariant (P := fun db₁ => db₁.assessments = db.assessments) ?_ hviolations h₁
    intro db₀ violation db₁ hrun hsame
    obtain ⟨⟨appended, _⟩, hitem, rfl⟩ := map_eq_ok.mp hrun
    unfold InterviewSessionRepository.appendViolation at hitem
    obtain ⟨session, _, hitem⟩ := bind_eq_ok.mp hitem
    obtain ⟨⟨stored, isNew⟩, _, hitem⟩ := bind_eq_ok.mp hitem
    cases hitem
    split
    · exact hsame
    · exact hsame
  cases hrun
  cases elapsedSecs <;> exact h₂

theorem handle_assessments (h : db.WellFormed) (call : Call) :
    (handle db call).2.assessments = db.assessments := by
  obtain ⟨clock, request⟩ := call
  cases request with
  | enterWithInvitation draws token => exact enterWithInvitation_assessments
  | authorizeInterviewConnection draw token => exact authorizeInterviewConnection_assessments h _ _
  | recordDisconnect => exact recordDisconnect_assessments _ _ _ _ _
  | getSessionContext | authorizeDemo | createEventLog | markSessionInProgress | completeSession
    | markCandidateStarted | markCandidateCompleted | markEvaluationFailed => rfl
  | initializeInterviewContext newSessionId ca =>
    refine transact_assessments fun data db' hrun => ?_
    obtain ⟨_, opened, hget, rfl⟩ := initializeInterviewContext_cases hrun
    exact (assessments_getOrCreateSession hget : _ = db.assessments)
  | persistTurn sessionId items violations elapsedSecs =>
    exact transact_assessments fun _ _ hrun => persistTurn_assessments hrun
  | recordTabSwitch sessionId connectionId ca eventId occurredAt =>
    refine transact_assessments fun response db' hrun => ?_
    obtain ⟨s, _, _, ⟨_, _, rfl, _⟩ | ⟨_, _, _, _, violation, _, rfl⟩⟩ := recordTabSwitch_cases hrun
    · rfl
    · exact saveViolations_assessments _ _ _ _
  | recordProctoringEvent sessionId connectionId ca event =>
    refine transact_assessments fun response db' hrun => ?_
    obtain ⟨s, policy, _, _, _, ⟨_, rfl⟩ | ⟨_, violations, _, rfl⟩⟩ :=
      recordProctoringEvent_cases (recordProctoringEvent_ok hrun)
    · rfl
    · exact saveViolations_assessments _ _ _ _
  | markCandidateTimerStarted ca =>
    refine transact_assessments fun startedAt db' hrun => ?_
    obtain ⟨row, _, rfl⟩ := markCandidateTimerStarted_cases hrun
    rfl
  | saveFinalEvaluation draws record recruiterEmail =>
    refine transact_assessments fun notification db' hrun => ?_
    obtain ⟨evaluations, notifications, rfl⟩ := saveFinalEvaluation_cases hrun
    rfl

end Frame

/-- Every `ACTIVE` assessment has the analysis and the plan that processing stores. -/
def Database.Planned (db : Database) : Prop :=
  ∀ id a, db.assessment? id = some a → a.status = .active →
    a.jdAnalysis.isSome ∧ a.interviewPlan.isSome

/-- What an operation at time `now` may do to the assessments: a closed one stays closed, one whose
window has ended is active only if it was, and an active one has its plan. -/
structure LifecycleKept (now : Time) (db db' : Database) : Prop where
  closed : ∀ id a, db.assessment? id = some a → a.status = .closed →
    ∃ a', db'.assessment? id = some a' ∧ a'.status = .closed
  notLate : ∀ id a', db'.assessment? id = some a' → a'.status = .active → a'.windowEnd ≤ now →
    ∃ a, db.assessment? id = some a ∧ a.status = .active
  planned : db'.Planned

/-- The recruiter's request sets an assessment of theirs to `ACTIVE` only when it is not closed,
its window is open or it is active already, and it has been processed. -/
def ActivatesOnlyReady (db : Database) (call : ServiceCall) : Prop :=
  ∀ id recruiterId a, call.request = .updateStatus id recruiterId .active →
    db.assessment? id = some a → a.recruiterId = recruiterId →
    a.status ≠ .closed ∧ (a.windowEnd ≤ call.clock.dbNow → a.status = .active) ∧
      a.jdAnalysis.isSome ∧ a.interviewPlan.isSome

theorem LifecycleKept.of_same {now : Time} (h : db.Planned)
    (hsame : db'.assessments = db.assessments) : LifecycleKept now db db' := by
  have hlookup (id : Uuid) : db'.assessment? id = db.assessment? id := by
    rw [Database.assessment?, hsame, Database.assessment?]
  constructor
  · intro id a ha hclosed
    exact ⟨a, (hlookup id).trans ha, hclosed⟩
  · intro id a ha hactive _
    exact ⟨a, (hlookup id).symm.trans ha, hactive⟩
  · intro id a ha
    exact h id a ((hlookup id).symm.trans ha)

/-- An update of the rows that `p` matches. -/
theorem LifecycleKept.of_update {now : Time} (h : db.Planned) {p : Assessment → Bool}
    {u : AssessmentUpdate}
    (hclosed : ∀ id a, db.assessment? id = some a → p a → a.status = .closed →
      (u.set a).status = .closed)
    (hopen : ∀ id a, db.assessment? id = some a → p a → (u.set a).status = .active →
      ((u.set a).windowEnd ≤ now → a.status = .active) ∧
        (u.set a).jdAnalysis.isSome ∧ (u.set a).interviewPlan.isSome) :
    LifecycleKept now db (db.updateAssessments p u) := by
  have horigin {id : Uuid} {a' : Assessment}
      (ha' : (db.updateAssessments p u).assessment? id = some a') :
      ∃ a, db.assessment? id = some a ∧ a' = u.onRow p a := by
    rw [Database.assessment?_updateAssessments, Option.map_eq_some_iff] at ha'
    obtain ⟨a, ha, rfl⟩ := ha'
    exact ⟨a, ha, rfl⟩
  constructor
  · intro id a ha hstatus
    refine ⟨u.onRow p a, by simp [ha], ?_⟩
    unfold Tables.Update.onRow
    split
    · rename_i hp
      exact hclosed id a ha hp hstatus
    · exact hstatus
  · intro id a' ha' hactive hlate
    obtain ⟨a, ha, rfl⟩ := horigin ha'
    refine ⟨a, ha, ?_⟩
    unfold Tables.Update.onRow at hactive hlate
    split at hactive
    · rename_i hp
      rw [if_pos hp] at hlate
      exact (hopen id a ha hp hactive).1 hlate
    · exact hactive
  · intro id a' ha' hactive
    obtain ⟨a, ha, rfl⟩ := horigin ha'
    unfold Tables.Update.onRow at hactive ⊢
    split at hactive
    · rename_i hp
      rw [if_pos hp]
      exact (hopen id a ha hp hactive).2
    · rename_i hp
      rw [if_neg hp]
      exact h id a ha hactive

theorem LifecycleKept.of_insert {now : Time} (h : db.Planned) {assessment : Assessment}
    (hnew : assessment.status ≠ .active) :
    LifecycleKept now db { db with assessments := db.assessments ++ [assessment] } := by
  have horigin {id : Uuid} {a' : Assessment} (hactive : a'.status = .active)
      (ha' : Tables.lookup (·.id) id (db.assessments ++ [assessment]) = some a') :
      db.assessment? id = some a' := by
    cases hold : db.assessment? id with
    | some a => exact (Tables.lookup_append_of_some hold).symm.trans ha'
    | none =>
      rw [Tables.lookup_append_of_none hold, Tables.lookup_singleton] at ha'
      split at ha'
      · cases ha'
        exact absurd hactive hnew
      · cases ha'
  constructor
  · intro id a ha hclosed
    exact ⟨a, Tables.lookup_append_of_some ha, hclosed⟩
  · intro id a' ha' hactive _
    exact ⟨a', horigin hactive ha', hactive⟩
  · intro id a' ha' hactive
    exact h id a' (horigin hactive ha') hactive

/-- Activation does not reopen closed or expired work. -/
theorem activated_kept (h : db.Planned) (clock : Clock) (p : Assessment → Bool) (jdText : String)
    (jdAnalysis interviewPlan : Json) :
    LifecycleKept clock.dbNow db
      (db.updateAssessments p (activated clock jdText jdAnalysis interviewPlan)) := by
  refine .of_update h ?_ ?_
  · intro id a _ _ hclosed
    simp [activated, hclosed]
  · intro id a _ _ hactive
    refine ⟨fun hlate => ?_, rfl, rfl⟩
    have hnever : (if a.status = .closed then AssessmentStatus.closed
        else if a.windowEnd ≤ clock.dbNow then .closed else .active) = .active := hactive
    rw [if_pos (show a.windowEnd ≤ clock.dbNow from hlate), ite_self] at hnever
    cases hnever

theorem close_kept (h : db.Planned) (clock : Clock) (p : Assessment → Bool) :
    LifecycleKept clock.dbNow db (db.updateAssessments p (withStatus clock .closed)) := by
  refine .of_update h (fun _ _ _ _ _ => rfl) ?_
  intro id a _ _ hactive
  cases hactive

theorem opened_kept (h : db.Planned) {assessmentId : Uuid} {a : Assessment}
    (ha : db.assessment? assessmentId = some a)
    (hready : a.status ≠ .closed ∧ (a.windowEnd ≤ clock.dbNow → a.status = .active) ∧
      a.jdAnalysis.isSome ∧ a.interviewPlan.isSome) :
    LifecycleKept clock.dbNow db
      (db.updateAssessments (·.id == assessmentId) (withStatus clock .active)) := by
  have hmatch {id : Uuid} {row : Assessment} (hrow : db.assessment? id = some row)
      (hp : (row.id == assessmentId) = true) : row = a := by
    obtain rfl : row.id = id := Tables.lookup_key hrow
    rw [beq_iff_eq.mp hp, ha] at hrow
    exact (Option.some.inj hrow).symm
  refine .of_update h ?_ ?_
  · intro id row hrow hp hclosed
    rw [hmatch hrow hp] at hclosed
    exact absurd hclosed hready.1
  · intro id row hrow hp _
    rw [hmatch hrow hp]
    exact hready.2

theorem updateStatus_cases {assessmentId recruiterId : Uuid} {newStatus : AssessmentStatus}
    {a : Assessment}
    (hrun : AssessmentService.updateStatus db clock assessmentId recruiterId newStatus =
      .ok (a, db')) :
    ∃ found, db.assessment? assessmentId = some found ∧ found.recruiterId = recruiterId ∧
      db' = db.updateAssessments (·.id == assessmentId) (withStatus clock newStatus) := by
  obtain ⟨found, hfound, hrun⟩ := bind_eq_ok.mp hrun
  unfold AssessmentService.getAssessmentById at hfound
  split at hfound
  · cases hfound
  · rename_i hrow
    split at hfound
    · rename_i howner
      cases hfound
      cases hrun
      obtain rfl : found.id = assessmentId := Tables.lookup_key hrow
      exact ⟨found, hrow, howner, rfl⟩
    · cases hfound

theorem updateStatus_ok {assessmentId recruiterId : Uuid} {newStatus : AssessmentStatus}
    {a : Assessment} (ha : db.assessment? assessmentId = some a)
    (howner : a.recruiterId = recruiterId) :
    AssessmentService.updateStatus db clock assessmentId recruiterId newStatus =
      .ok ((withStatus clock newStatus).set a,
        db.updateAssessments (·.id == assessmentId) (withStatus clock newStatus)) := by
  obtain rfl : a.id = assessmentId := Tables.lookup_key ha
  simp [AssessmentService.updateStatus, AssessmentService.getAssessmentById, ha, howner,
    AssessmentRepository.updateStatus, bind, Except.bind, pure, Except.pure]

theorem deleteCandidateFromAssessment_assessments {candidateAssessmentId recruiterId : Uuid}
    (hrun : CandidateService.deleteCandidateFromAssessment db candidateAssessmentId recruiterId =
      .ok ((), db')) : db'.assessments = db.assessments := by
  obtain ⟨_, _, _, _, _, _, rfl⟩ := deleteCandidateFromAssessment_cases hrun
  rfl

inductive AssessmentWrite (db : Database) (call : ServiceCall) : Database → Prop
  | unchanged {db' : Database} (hsame : db'.assessments = db.assessments) :
      AssessmentWrite db call db'
  | inserted (assessment : Assessment) (hnew : assessment.status = .processing) :
      AssessmentWrite db call { db with assessments := db.assessments ++ [assessment] }
  | activated (assessmentId : Uuid) (jdText : String) (jdAnalysis interviewPlan : Json) :
      AssessmentWrite db call (db.updateAssessments (·.id == assessmentId)
        (activated call.clock jdText jdAnalysis interviewPlan))
  | closed (p : Assessment → Bool) :
      AssessmentWrite db call (db.updateAssessments p (withStatus call.clock .closed))
  | opened {assessmentId recruiterId : Uuid} {a : Assessment}
      (hrequest : call.request = .updateStatus assessmentId recruiterId .active)
      (ha : db.assessment? assessmentId = some a) (howner : a.recruiterId = recruiterId) :
      AssessmentWrite db call
        (db.updateAssessments (·.id == assessmentId) (withStatus call.clock .active))

section Runs

variable [Runtime]

theorem service_assessmentWrite (store : Store) (call : ServiceCall) :
    AssessmentWrite store.db call (service store call).2.db := by
  obtain ⟨clock, request⟩ := call
  cases request with
  | session request => exact .unchanged (handle_assessments store.wellFormed _)
  | createRecruiter newId companyName =>
    refine .unchanged (transact_assessments fun recruiter db' hrun => ?_)
    unfold createRecruiter at hrun
    split at hrun
    · cases hrun
    · cases hrun
      rfl
  | createCandidate newId fullName =>
    refine .unchanged (transact_assessments fun candidate db' hrun => ?_)
    unfold createCandidate at hrun
    split at hrun
    · cases hrun
    · cases hrun
      rfl
  | renameCandidate candidateId name => exact .unchanged rfl
  | createAssessment newId recruiterId request jdFileBytes jdFilename =>
    change AssessmentWrite _ _ (transact store.db (AssessmentService.createAssessment store.db clock
      newId recruiterId request jdFileBytes jdFilename)).2
    cases hrun : AssessmentService.createAssessment store.db clock newId recruiterId request
        jdFileBytes jdFilename with
    | error e => exact .unchanged rfl
    | ok result =>
      unfold AssessmentService.createAssessment createAssessment at hrun
      split_ifs at hrun
      cases hrun
      exact .inserted _ rfl
  | activateAssessment assessmentId jdText jdAnalysis interviewPlan =>
    change AssessmentWrite _ _ (activateAssessment store.db clock assessmentId jdText jdAnalysis
      interviewPlan).2
    unfold activateAssessment
    split
    · exact .unchanged rfl
    · exact .activated _ _ _ _
  | updateStatus assessmentId recruiterId newStatus =>
    change AssessmentWrite _ _ (transact store.db (AssessmentService.updateStatus store.db clock
      assessmentId recruiterId newStatus.status)).2
    cases hrun : AssessmentService.updateStatus store.db clock assessmentId recruiterId
        newStatus.status with
    | error e => exact .unchanged rfl
    | ok result =>
      obtain ⟨a, db'⟩ := result
      obtain ⟨found, hfound, howner, rfl⟩ := updateStatus_cases hrun
      -- only the opening names its row: a closing leaves nothing to check
      cases newStatus with
      | active => exact .opened rfl hfound howner
      | closed => exact .closed _
  | closeAssessmentOnFailure | closeExpiredAssessments => exact .closed _
  | enroll draws candidateId assessmentId resumeFilePath resumeParseStatus resumeParsed =>
    refine .unchanged (transact_assessments fun ca db' hrun => ?_)
    unfold CandidateAssessmentRepository.create at hrun
    split at hrun
    · cases hrun
      rfl
    · cases hrun
  | updateResumeParsingResult | updateRecruiterDecision => exact .unchanged rfl
  | deleteCandidateFromAssessment candidateAssessmentId recruiterId =>
    exact .unchanged (transact_assessments fun _ _ hrun =>
      deleteCandidateFromAssessment_assessments hrun)

/-- One request keeps the lifecycle exactly when it does not activate what is not ready. -/
theorem lifecycleKept_iff (store : Store) (call : ServiceCall) (h : store.db.Planned) :
    LifecycleKept call.clock.dbNow store.db (service store call).2.db ↔
      ActivatesOnlyReady store.db call := by
  constructor
  · rintro hkept id recruiterId a hrequest ha howner
    obtain ⟨clock, request⟩ := call
    obtain rfl : request = .updateStatus id recruiterId .active := hrequest
    have hpost : (service store ⟨clock, .updateStatus id recruiterId .active⟩).2.db.assessment? id =
        some ((withStatus clock .active).set a) := by
      obtain rfl : a.id = id := Tables.lookup_key ha
      change (transact store.db (AssessmentService.updateStatus store.db clock a.id recruiterId
        .active)).2.assessment? a.id = _
      rw [updateStatus_ok ha howner, transact, Database.assessment?_updateAssessments, ha,
        Option.map_some, Tables.Update.onRow_of_true (by simp)]
    have hplanned := hkept.planned id _ hpost rfl
    refine ⟨fun hclosed => ?_, fun hlate => ?_, hplanned⟩
    · obtain ⟨a', ha', hstill⟩ := hkept.closed id a ha hclosed
      rw [hpost] at ha'
      cases ha'
      cases hstill
    · obtain ⟨before, hbefore, hactive⟩ := hkept.notLate id _ hpost rfl hlate
      cases ha.symm.trans hbefore
      exact hactive
  · intro hready
    have hwrite := service_assessmentWrite store call
    generalize (service store call).2.db = db' at hwrite ⊢
    cases hwrite with
    | unchanged hsame => exact .of_same h hsame
    | inserted assessment hnew => exact .of_insert h (by simp [hnew])
    | activated => exact activated_kept h call.clock _ _ _ _
    | closed => exact close_kept h call.clock _
    | opened hrequest ha howner =>
      exact opened_kept h ha (hready _ _ _ hrequest ha howner)

theorem lifecycleKept_trace_iff (store : Store) (calls : List ServiceCall) (h : store.db.Planned) :
    (∀ t ∈ trace service store calls,
      LifecycleKept t.input.clock.dbNow t.pre.db t.post.db) ↔
    ∀ t ∈ trace service store calls, ActivatesOnlyReady t.pre.db t.input := by
  induction calls generalizing store with
  | nil => simp
  | cons call calls ih =>
    rw [trace_cons, List.forall_mem_cons, List.forall_mem_cons]
    change LifecycleKept call.clock.dbNow store.db (service store call).2.db ∧ _ ↔
      ActivatesOnlyReady store.db call ∧ _
    rw [lifecycleKept_iff store call h]
    apply and_congr_right
    intro hready
    exact ih _ ((lifecycleKept_iff store call h).mpr hready).planned

/-- From the empty database, every operation of a run keeps the lifecycle of every assessment
exactly when no recruiter's `update_status` activates a closed, elapsed or unprocessed one. -/
theorem assessment_lifecycle_run (calls : List ServiceCall) :
    (∀ t ∈ trace service emptyStore calls,
      LifecycleKept t.input.clock.dbNow t.pre.db t.post.db) ↔
    ∀ t ∈ trace service emptyStore calls, ActivatesOnlyReady t.pre.db t.input :=
  lifecycleKept_trace_iff emptyStore calls fun _ _ h => by cases h

omit [Runtime] in
/-- A recruiter closes an assessment that was never processed and opens it again after its
window. -/
def reopened : List ServiceCall :=
  [⟨⟨0, 0⟩, .createRecruiter 1 "Acme"⟩, ⟨⟨0, 0⟩, .createAssessment 3 1 sampleRequest [] none⟩,
    ⟨⟨1, 1⟩, .updateStatus 3 1 .closed⟩,
    ⟨⟨2000 * Time.second, 2000 * Time.second⟩, .updateStatus 3 1 .active⟩]

omit [Runtime] in
/-- The reopened assessment was closed, its window is over and it has no plan. -/
theorem assessment_lifecycle_broken :
    ∃ calls, ∃ t ∈ trace (@service .ascii) emptyStore calls,
      (∃ id a, t.pre.db.assessment? id = some a ∧ a.status = .closed ∧
        ∃ a', t.post.db.assessment? id = some a' ∧ a'.status = .active ∧
          a'.windowEnd ≤ t.input.clock.dbNow ∧ a'.interviewPlan = none) ∧
      ¬ LifecycleKept t.input.clock.dbNow t.pre.db t.post.db := by
  let _ : Runtime := .ascii
  let before := exec service emptyStore (reopened.take 3)
  let closed := { sampleAssessment with status := .closed, updatedAt := 1 }
  have hclosed : before.db.assessment? 3 = some closed := rfl
  let t := Transition.of service before ⟨⟨2000 * Time.second, 2000 * Time.second⟩,
    .updateStatus 3 1 .active⟩
  have hactive : t.post.db.assessment? 3 =
    some { closed with status := .active, updatedAt := 2000 * Time.second } := rfl
  refine ⟨reopened, t, ?_, ⟨3, closed, hclosed, rfl, _, hactive, rfl, by decide, rfl⟩, ?_⟩
  · simp [reopened, t, before]
  · intro hkept
    obtain ⟨a', ha', hstill⟩ := hkept.closed 3 closed hclosed rfl
    rw [hactive] at ha'
    cases ha'
    cases hstill

end Runs

end IBotCoreApi
