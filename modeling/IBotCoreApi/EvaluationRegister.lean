import IBotCoreApi.EvaluationReports
import IBotCoreApi.Service

namespace IBotCoreApi
open Python Outcomes Runs InternalInterview InterviewSessionService CandidateSessionRepository
  EvaluationRepository

namespace Database

/-- `evaluation_exists_for_hash`: whether this exact immutable context was evaluated. -/
def evaluationExistsForHash (db : Database) (candidateAssessmentId : Uuid)
    (transcriptHash : String) : Bool :=
  db.interviewEvaluations.any fun e =>
    e.candidateAssessmentId == candidateAssessmentId && e.report.transcriptHash == transcriptHash

def interviews (db : Database) : List InterviewSession × List InterviewEvaluation :=
  (db.interviewSessions, db.interviewEvaluations)

/-- The tables that the interview itself does not write. -/
def untouched (db : Database) : Database :=
  { db with candidateAssessments := [], interviewSessions := [], eventLogs := [] }

end Database

variable {db db' : Database} {clock : Clock}

section Frame

theorem transact_untouched {α : Type} {body : Except ApiException (α × Database)}
    (hbody : ∀ a db', body = .ok (a, db') → db'.untouched = db.untouched) :
    (transact db body).2.untouched = db.untouched := by
  match body with
  | .ok (a, db') => exact hbody a db' rfl
  | .error _ => rfl

theorem untouched_getOrCreateSession {newId ca : Uuid} {s : InterviewSession}
    (hget : db.getOrCreateSession clock newId ca = .ok (s, db')) :
    db'.untouched = db.untouched := by
  obtain ⟨_, rfl⟩ | ⟨_, _, _, rfl⟩ := getOrCreateSession_cases hget
  · rfl
  · rfl

theorem untouched_issueCredentials {context : LifecycleContext} {session : InterviewSession}
    {drawn : String} {token : Option String} {expiresAt : Option Time}
    (hissue : issueCredentials db clock context session drawn = .ok (token, expiresAt, db')) :
    db'.untouched = db.untouched := by
  obtain ⟨_, _, _, _, rfl⟩ | ⟨_, _, _, rfl⟩ := issueCredentials_cases hissue
  · rfl
  · rfl

variable [Runtime]

theorem enterWithInvitation_untouched (draws : EntryDraws) (invitationToken : Uuid) :
    (enterWithInvitation db clock draws invitationToken).2.untouched = db.untouched := by
  have houtcome := enterWithInvitation_outcome db clock draws invitationToken
  generalize (enterWithInvitation db clock draws invitationToken).1 = result at houtcome
  generalize (enterWithInvitation db clock draws invitationToken).2 = db' at houtcome ⊢
  cases houtcome with
  | unknown | sessionIdTaken | tokenTaken | expiryMissing => rfl
  | rejected metadata hlock hget hreason =>
    exact (untouched_getOrCreateSession hget : _ = db.untouched)
  | admitted hlock hget hopen hissue =>
    have hissued := (untouched_issueCredentials hissue).trans (untouched_getOrCreateSession hget)
    unfold admittedDatabase
    split
    · exact hissued
    · exact hissued

omit [Runtime] in
theorem authorizeInterviewConnection_untouched (h : db.WellFormed) (draw : Uuid)
    (sessionToken : String) :
    (authorizeInterviewConnection db clock draw sessionToken).2.untouched = db.untouched := by
  have houtcome := authorizeInterviewConnection_outcome h clock draw sessionToken
  generalize (authorizeInterviewConnection db clock draw sessionToken).1 = result at houtcome
  generalize (authorizeInterviewConnection db clock draw sessionToken).2 = db' at houtcome ⊢
  cases houtcome with
  | refused | timedOut | reconnected | bound => rfl

omit [Runtime] in
theorem recordDisconnect_untouched (sessionId : Uuid) (connectionId : String)
    (candidateAssessmentId : Uuid) (reason : String) (elapsedSecs : ℤ) :
    (InterviewSessionService.recordDisconnect db clock sessionId connectionId candidateAssessmentId
      reason elapsedSecs).2.untouched = db.untouched := by
  generalize hrun : InterviewSessionService.recordDisconnect db clock sessionId connectionId
    candidateAssessmentId reason elapsedSecs = result
  obtain ⟨outcome, db'⟩ := result
  rcases recordDisconnect_cases hrun with ⟨_, rfl, _⟩ | ⟨s, _, eventName, m, _, _, rfl⟩
  · rfl
  · simp only [record, Database.recordEvent]
    split
    · rfl
    · rfl

omit [Runtime] in
theorem saveViolations_untouched (sessionId candidateAssessmentId : Uuid) (violations : List Json)
    (terminated : Bool) :
    (InterviewSessionRepository.saveViolations db clock sessionId candidateAssessmentId violations
      terminated).untouched = db.untouched := by
  unfold InterviewSessionRepository.saveViolations
  cases terminated <;> rfl

theorem persistTurn_untouched {sessionId : Uuid} {transcriptItems violations : List Json.Entries}
    {elapsedSecs : Option ℤ}
    (hrun : persistTurn db clock sessionId transcriptItems violations elapsedSecs = .ok ((), db')) :
    db'.untouched = db.untouched := by
  unfold persistTurn at hrun
  obtain ⟨db₁, hitems, hrun⟩ := bind_eq_ok.mp hrun
  obtain ⟨db₂, hviolations, hrun⟩ := bind_eq_ok.mp hrun
  have h₁ : db₁.untouched = db.untouched := by
    refine foldlM_invariant (P := fun db₁ => db₁.untouched = db.untouched) ?_ hitems rfl
    intro db₀ item db₁ hrun hsame
    obtain ⟨⟨appended, _⟩, hitem, rfl⟩ := map_eq_ok.mp hrun
    unfold InterviewSessionRepository.appendTranscriptTurn at hitem
    obtain ⟨session, _, hitem⟩ := bind_eq_ok.mp hitem
    obtain ⟨⟨transcript, _⟩, _, hitem⟩ := bind_eq_ok.mp hitem
    cases hitem
    exact hsame
  have h₂ : db₂.untouched = db.untouched := by
    refine foldlM_invariant (P := fun db₁ => db₁.untouched = db.untouched) ?_ hviolations h₁
    intro db₀ violation db₁ hrun hsame
    obtain ⟨⟨appended, _⟩, hitem, rfl⟩ := map_eq_ok.mp hrun
    unfold InterviewSessionRepository.appendViolation at hitem
    obtain ⟨session, _, hitem⟩ := bind_eq_ok.mp hitem
    obtain ⟨⟨stored, isNew⟩, _, hitem⟩ := bind_eq_ok.mp hitem
    cases hitem
    split
    · exact hsame
    · exact hsame
  cases hrun
  cases elapsedSecs <;> exact h₂

/-- A request of the interview writes sessions, enrollments and event logs only, unless it saves an
evaluation. -/
theorem handle_untouched (h : db.WellFormed) (call : Call)
    (hsave : ∀ draws record email, call.request ≠ .saveFinalEvaluation draws record email) :
    (handle db call).2.untouched = db.untouched := by
  obtain ⟨clock, request⟩ := call
  cases request with
  | enterWithInvitation draws token => exact enterWithInvitation_untouched _ _
  | authorizeInterviewConnection draw token => exact authorizeInterviewConnection_untouched h _ _
  | recordDisconnect => exact recordDisconnect_untouched _ _ _ _ _
  | getSessionContext | authorizeDemo | createEventLog | markSessionInProgress | completeSession
    | markCandidateStarted | markCandidateCompleted | markEvaluationFailed => rfl
  | initializeInterviewContext newSessionId ca =>
    refine transact_untouched fun data db' hrun => ?_
    obtain ⟨_, opened, hget, rfl⟩ := initializeInterviewContext_cases hrun
    exact (untouched_getOrCreateSession hget : _ = db.untouched)
  | persistTurn sessionId items violations elapsedSecs =>
    exact transact_untouched fun _ _ hrun => persistTurn_untouched hrun
  | recordTabSwitch sessionId connectionId ca eventId occurredAt =>
    refine transact_untouched fun response db' hrun => ?_
    obtain ⟨s, _, _, ⟨_, _, rfl, _⟩ | ⟨_, _, _, _, violation, _, rfl⟩⟩ := recordTabSwitch_cases hrun
    · rfl
    · exact saveViolations_untouched _ _ _ _
  | recordProctoringEvent sessionId connectionId ca event =>
    refine transact_untouched fun response db' hrun => ?_
    obtain ⟨s, policy, _, _, _, ⟨_, rfl⟩ | ⟨_, violations, _, rfl⟩⟩ :=
      recordProctoringEvent_cases (recordProctoringEvent_ok hrun)
    · rfl
    · exact saveViolations_untouched _ _ _ _
  | markCandidateTimerStarted ca =>
    refine transact_untouched fun startedAt db' hrun => ?_
    obtain ⟨row, _, rfl⟩ := markCandidateTimerStarted_cases hrun
    rfl
  | saveFinalEvaluation draws record email => exact absurd rfl (hsave draws record email)

end Frame

abbrev SavedEvaluation := Uuid × EvaluationReport

def InterviewEvaluation.saved (e : InterviewEvaluation) : SavedEvaluation := (e.sessionId, e.report)

namespace Database

def savedEvaluation? (db : Database) (candidateAssessmentId : Uuid) : Option SavedEvaluation :=
  (Tables.lookup (·.candidateAssessmentId) candidateAssessmentId db.interviewEvaluations).map
    InterviewEvaluation.saved

/-- The unique constraint of `interview_evaluations`. -/
def EvaluationKeys (db : Database) : Prop :=
  (db.interviewEvaluations.map (·.candidateAssessmentId)).Nodup

end Database

def evaluationAfter (candidateAssessmentId : Uuid) (current : Option SavedEvaluation)
    (t : Transition Store ServiceCall SessionResult) : Option SavedEvaluation :=
  match t.input.request, t.output with
  | .session (.saveFinalEvaluation _ record _), .ok _ =>
    if record.candidateAssessmentId = candidateAssessmentId then
      some (record.sessionId, record.report)
    else current
  | .deleteCandidateFromAssessment deletedId _, .ok _ =>
    current.filter fun e => !t.pre.db.interviewSessions.any fun s =>
      s.candidateAssessmentId == deletedId && s.id == e.1
  | _, _ => current

section Saving

theorem interviewEvaluations_congr (h : db'.untouched = db.untouched) :
    db'.interviewEvaluations = db.interviewEvaluations := by
  have hsame : db'.untouched.interviewEvaluations = db.untouched.interviewEvaluations := by rw [h]
  exact hsame

/-- The evaluation of an enrollment, in a table under its keys. -/
structure Registers (db : Database) (current : Uuid → Option SavedEvaluation) : Prop where
  keys : db.EvaluationKeys
  saved : ∀ id, db.savedEvaluation? id = current id

variable {current : Uuid → Option SavedEvaluation}

theorem Registers.congr (h : Registers db current)
    (hsame : db'.interviewEvaluations = db.interviewEvaluations) : Registers db' current where
  keys := by
    unfold Database.EvaluationKeys
    rw [hsame]
    exact h.keys
  saved id := by
    unfold Database.savedEvaluation?
    rw [hsame]
    exact h.saved id

theorem Registers.refresh (h : Registers db current) (assessmentId : Uuid) :
    Registers (refreshAssessmentRanking db assessmentId) current where
  keys := by
    have hkeys : (refreshAssessmentRanking db assessmentId).interviewEvaluations.map
        (·.candidateAssessmentId) = db.interviewEvaluations.map (·.candidateAssessmentId) := by
      rw [refreshAssessmentRanking, List.map_map]
      refine List.map_congr_left fun e _ => ?_
      dsimp only [Function.comp_apply]
      split <;> rfl
    unfold Database.EvaluationKeys
    rw [hkeys]
    exact h.keys
  saved id := by
    rw [← h.saved id]
    unfold Database.savedEvaluation? refreshAssessmentRanking
    dsimp only
    rw [Tables.lookup_map, Option.map_map]
    · congr 1
      funext e
      dsimp only [Function.comp_apply]
      split <;> rfl
    · intro e
      split <;> rfl

theorem Registers.overwrite (h : Registers db current) {record : FinalEvaluationRecord}
    (hany : db.interviewEvaluations.any fun e =>
      e.candidateAssessmentId == record.candidateAssessmentId) :
    Registers
      { db with
        interviewEvaluations := Tables.updateWhere
          (fun e => e.candidateAssessmentId == record.candidateAssessmentId)
          (overwriteEvaluation clock record) db.interviewEvaluations }
      fun id =>
        if record.candidateAssessmentId = id then some (record.sessionId, record.report)
        else current id := by
  let sameKey (e : InterviewEvaluation) := e.candidateAssessmentId == record.candidateAssessmentId
  let u := overwriteEvaluation clock record
  constructor
  · have hkeys : (Tables.updateWhere sameKey u db.interviewEvaluations).map
        (·.candidateAssessmentId) = db.interviewEvaluations.map (·.candidateAssessmentId) :=
      Tables.map_proj_updateWhere u Prod.snd db.interviewEvaluations
    exact (congrArg List.Nodup hkeys).mpr h.keys
  · intro id
    have hlookup : Tables.lookup (·.candidateAssessmentId) id
        (Tables.updateWhere sameKey u db.interviewEvaluations) =
          (Tables.lookup (·.candidateAssessmentId) id db.interviewEvaluations).map
            (u.onRow sameKey) :=
      Tables.lookup_updateWhere u Prod.snd id
    have hsaved := h.saved id
    unfold Database.savedEvaluation? at hsaved ⊢
    dsimp only
    rw [hlookup, ← hsaved]
    cases hfound : Tables.lookup (·.candidateAssessmentId) id db.interviewEvaluations with
    | none =>
      have hne : record.candidateAssessmentId ≠ id := by
        obtain ⟨e, he, hsame⟩ := List.any_eq_true.mp hany
        rintro rfl
        exact Tables.key_ne_of_lookup_eq_none hfound he (beq_iff_eq.mp hsame)
      rw [if_neg hne]
      rfl
    | some e =>
      have hid : e.candidateAssessmentId = id := Tables.lookup_key hfound
      rw [Option.map_some, Option.map_some]
      by_cases hsame : record.candidateAssessmentId = id
      · have hrow : sameKey e = true := beq_iff_eq.mpr (hid.trans hsame.symm)
        rw [if_pos hsame, Tables.Update.onRow_of_true hrow]
        rfl
      · have hrow : sameKey e = false := by
          simpa [sameKey, hid] using fun h => hsame h.symm
        rw [if_neg hsame, Tables.Update.onRow_of_false hrow]
        rfl

theorem Registers.insert (h : Registers db current) {newId : Uuid} {record : FinalEvaluationRecord}
    (hnew : ∀ e ∈ db.interviewEvaluations,
      e.candidateAssessmentId ≠ record.candidateAssessmentId) :
    Registers
      { db with
        interviewEvaluations := db.interviewEvaluations ++ [newEvaluation clock newId record] }
      fun id =>
        if record.candidateAssessmentId = id then some (record.sessionId, record.report)
        else current id := by
  constructor
  · exact Tables.nodup_map_append h.keys hnew
  · intro id
    have hsaved := h.saved id
    unfold Database.savedEvaluation? at hsaved ⊢
    dsimp only
    rw [← hsaved]
    by_cases hsame : record.candidateAssessmentId = id
    · subst hsame
      have hnone : Tables.lookup (·.candidateAssessmentId) record.candidateAssessmentId
          db.interviewEvaluations = none := by
        rw [Tables.lookup_eq_none_iff]
        intro hmem
        obtain ⟨e, he, hkey⟩ := List.mem_map.mp hmem
        exact hnew e he hkey
      rw [if_pos rfl, Tables.lookup_append_of_none hnone]
      simp [Tables.lookup, newEvaluation, InterviewEvaluation.saved]
    · rw [if_neg hsame]
      cases hfound : Tables.lookup (·.candidateAssessmentId) id db.interviewEvaluations with
      | none =>
        rw [Tables.lookup_append_of_none hfound]
        simp [Tables.lookup, newEvaluation, hsame]
      | some e => rw [Tables.lookup_append_of_some hfound]

theorem Registers.upsert (h : Registers db current) {newId : Uuid} {record : FinalEvaluationRecord}
    (hrun : upsertEvaluation db clock newId record = .ok db') :
    Registers db' fun id =>
      if record.candidateAssessmentId = id then some (record.sessionId, record.report)
      else current id := by
  unfold upsertEvaluation at hrun
  simp only at hrun
  split_ifs at hrun with _ hany
  · cases hrun
    exact h.overwrite hany
  · cases hrun
    refine h.insert fun e he hsame => hany ?_
    exact List.any_eq_true.mpr ⟨e, he, beq_iff_eq.mpr hsame⟩

theorem Registers.save (h : Registers db current) {draws : EvaluationDraws}
    {record : FinalEvaluationRecord} {recruiterEmail : String} {notification : NotificationLog}
    (hrun : EvaluationRepository.saveFinalEvaluation db clock draws record recruiterEmail =
      .ok (notification, db')) :
    Registers db' fun id =>
      if record.candidateAssessmentId = id then some (record.sessionId, record.report)
      else current id := by
  unfold EvaluationRepository.saveFinalEvaluation at hrun
  obtain ⟨upserted, hupsert, hrun⟩ := bind_eq_ok.mp hrun
  simp only at hrun
  split at hrun
  · cases hrun
  split at hrun
  · cases hrun
  · cases hrun
    have hupserted := h.upsert hupsert
    refine Registers.refresh (Registers.congr hupserted ?_) _
    rfl

theorem Registers.delete (h : Registers db current) (ca : CandidateAssessment) :
    Registers (CandidateAssessmentRepository.delete db ca) fun id =>
      (current id).filter fun e => !db.interviewSessions.any fun s =>
        s.candidateAssessmentId == ca.id && s.id == e.1 where
  keys := h.keys.sublist ((List.filter_sublist).map _)
  saved id := by
    rw [← h.saved id]
    unfold Database.savedEvaluation? CandidateAssessmentRepository.delete
    dsimp only
    rw [Tables.lookup_filter_eq h.keys]
    cases Tables.lookup (·.candidateAssessmentId) id db.interviewEvaluations with
    | none => rfl
    | some e =>
      simp only [Option.filter_some, Option.map_some, List.any_filter, InterviewEvaluation.saved]
      split
      · rfl
      · rfl

/-- The check by hash reads the one evaluation of the enrollment. -/
theorem evaluationExistsForHash_eq (hkeys : db.EvaluationKeys) (candidateAssessmentId : Uuid)
    (transcriptHash : String) :
    db.evaluationExistsForHash candidateAssessmentId transcriptHash =
      (db.savedEvaluation? candidateAssessmentId).any (·.2.transcriptHash == transcriptHash) := by
  rw [Bool.eq_iff_iff]
  unfold Database.evaluationExistsForHash Database.savedEvaluation?
  simp only [List.any_eq_true, Bool.and_eq_true, beq_iff_eq, Option.any_map]
  constructor
  · rintro ⟨e, he, rfl, hhash⟩
    rw [Tables.lookup_of_mem hkeys he]
    simpa [InterviewEvaluation.saved] using hhash
  · intro h
    cases hfound : Tables.lookup (·.candidateAssessmentId) candidateAssessmentId
        db.interviewEvaluations with
    | none =>
      rw [hfound] at h
      cases h
    | some e =>
      rw [hfound] at h
      exact ⟨e, Tables.lookup_mem hfound, Tables.lookup_key hfound, beq_iff_eq.mp h⟩

end Saving

section Runs

variable [Runtime]

/-- Outside the internal API only the deletion of an enrollment reaches the sessions and the
evaluations. -/
theorem operate_interviews {request : ServiceRequest} (hsession : ∀ r, request ≠ .session r)
    (hdelete : ∀ id recruiterId, request ≠ .deleteCandidateFromAssessment id recruiterId) :
    (operate db ⟨clock, request⟩).2.interviews = db.interviews := by
  have htransact {α : Type} {body : Except ApiException (α × Database)}
      (hbody : ∀ a db', body = .ok (a, db') → db'.interviews = db.interviews) :
      (transact db body).2.interviews = db.interviews := by
    match body with
    | .ok (a, db') => exact hbody a db' rfl
    | .error _ => rfl
  cases request with
  | session request => exact absurd rfl (hsession request)
  | deleteCandidateFromAssessment id recruiterId => exact absurd rfl (hdelete id recruiterId)
  | createRecruiter newId companyName =>
    refine htransact fun recruiter db' hrun => ?_
    unfold createRecruiter at hrun
    split at hrun
    · cases hrun
    · cases hrun
      rfl
  | createCandidate newId fullName =>
    refine htransact fun candidate db' hrun => ?_
    unfold createCandidate at hrun
    split at hrun
    · cases hrun
    · cases hrun
      rfl
  | createAssessment newId recruiterId request jdFileBytes jdFilename =>
    refine htransact fun assessment db' hrun => ?_
    unfold AssessmentService.createAssessment AssessmentRepository.createAssessment at hrun
    split_ifs at hrun
    cases hrun
    rfl
  | activateAssessment assessmentId jdText jdAnalysis interviewPlan =>
    simp only [operate, AssessmentRepository.activateAssessment]
    split
    · rfl
    · rfl
  | updateStatus assessmentId recruiterId newStatus =>
    refine htransact fun assessment db' hrun => ?_
    obtain ⟨found, _, hrun⟩ := bind_eq_ok.mp hrun
    cases hrun
    rfl
  | enroll draws candidateId assessmentId resumeFilePath resumeParseStatus resumeParsed =>
    refine htransact fun ca db' hrun => ?_
    unfold CandidateAssessmentRepository.create at hrun
    split at hrun
    · cases hrun
      rfl
    · cases hrun
  | renameCandidate | closeAssessmentOnFailure | closeExpiredAssessments
  | updateResumeParsingResult | updateRecruiterDecision => rfl

theorem operate_evaluations {request : ServiceRequest} (hsession : ∀ r, request ≠ .session r)
    (hdelete : ∀ id recruiterId, request ≠ .deleteCandidateFromAssessment id recruiterId) :
    (operate db ⟨clock, request⟩).2.interviewEvaluations = db.interviewEvaluations :=
  congrArg Prod.snd (operate_interviews hsession hdelete)

theorem Registers.step {store : Store} {current : Uuid → Option SavedEvaluation}
    (h : Registers store.db current) (call : ServiceCall) :
    Registers (service store call).2.db fun id =>
      evaluationAfter id (current id) (Transition.of service store call) := by
  obtain ⟨clock, request⟩ := call
  cases request with
  | session request =>
    cases request with
    | saveFinalEvaluation draws record email =>
      cases hrun : EvaluationRepository.saveFinalEvaluation store.db clock draws record email with
      | error exception =>
        have hstep : operate store.db ⟨clock, .session (.saveFinalEvaluation draws record email)⟩ =
            (.error exception, store.db) := by
          simp only [operate, handle, respond, transact, hrun, Except.map]
        simp only [evaluationAfter, Transition.of, service, hstep]
        exact h
      | ok outcome =>
        obtain ⟨notification, db'⟩ := outcome
        have hstep : operate store.db ⟨clock, .session (.saveFinalEvaluation draws record email)⟩ =
            (.ok (.evaluation notification.id notification.sentAt), db') := by
          simp only [operate, handle, respond, transact, hrun, Except.map]
        simp only [evaluationAfter, Transition.of, service, hstep]
        exact h.save hrun
    | _ =>
      refine h.congr (interviewEvaluations_congr (handle_untouched store.wellFormed ⟨clock, _⟩ ?_))
      simp
  | deleteCandidateFromAssessment candidateAssessmentId recruiterId =>
    cases hrun : CandidateService.deleteCandidateFromAssessment store.db candidateAssessmentId
      recruiterId with
    | error exception =>
      have hstep : operate store.db ⟨clock, .deleteCandidateFromAssessment candidateAssessmentId
          recruiterId⟩ = (.error exception, store.db) := by
        simp only [operate, respond, transact, hrun, Except.map]
      simp only [evaluationAfter, Transition.of, service, hstep]
      exact h
    | ok outcome =>
      obtain ⟨result, db'⟩ := outcome
      have hstep : operate store.db ⟨clock, .deleteCandidateFromAssessment candidateAssessmentId
          recruiterId⟩ = (.ok .ok, db') := by
        simp only [operate, respond, transact, hrun, Except.map]
      simp only [evaluationAfter, Transition.of, service, hstep]
      obtain ⟨ca, a, hca, _, _, candidates, rfl⟩ := deleteCandidateFromAssessment_cases hrun
      obtain rfl : ca.id = candidateAssessmentId := Tables.lookup_key hca
      exact (h.delete ca).congr rfl
  | _ => exact h.congr (operate_evaluations (by simp) (by simp))

theorem registers_exec {store : Store} {current : Uuid → Option SavedEvaluation}
    (h : Registers store.db current) (calls : List ServiceCall) :
    Registers (exec service store calls).db fun id =>
      (trace service store calls).foldl (evaluationAfter id) (current id) := by
  induction calls generalizing store current with
  | nil => exact h
  | cons call calls ih => exact ih (h.step call)

/-- Over every run the evaluation of an enrollment is the last one saved for it, until its session
is deleted, and the check by hash answers whether that one was of the very context. -/
theorem evaluations_registered (calls : List ServiceCall) (candidateAssessmentId : Uuid) :
    let registered := (trace service emptyStore calls).foldl
      (evaluationAfter candidateAssessmentId) none
    (exec service emptyStore calls).db.savedEvaluation? candidateAssessmentId = registered ∧
      ∀ transcriptHash,
        (exec service emptyStore calls).db.evaluationExistsForHash candidateAssessmentId
            transcriptHash =
          registered.any (·.2.transcriptHash == transcriptHash) := by
  intro registered
  have hempty : Registers emptyStore.db fun _ => none := ⟨List.nodup_nil, fun _ => rfl⟩
  have h := registers_exec hempty calls
  have hsaved : _ = registered := h.saved candidateAssessmentId
  refine ⟨hsaved, fun transcriptHash => ?_⟩
  rw [evaluationExistsForHash_eq h.keys, hsaved]

end Runs

end IBotCoreApi
