import IBotCoreApi.Library.Effects
import IBotCoreApi.Ranking
import IBotCoreApi.RecruiterRequests

namespace IBotCoreApi
open Python Transactions

namespace FinalEvaluationRoute

/-- What `evaluation/final` stores. -/
structure Save where
  clock : Clock
  draws : EvaluationRepository.EvaluationDraws
  record : FinalEvaluationRecord
  recruiterEmail : String

def Save.run (save : Save) (db : Database) : Except ApiException (NotificationLog × Database) :=
  EvaluationRepository.saveFinalEvaluation db save.clock save.draws save.record save.recruiterEmail

/-- The statements of `save_final_evaluation`, as one write. -/
def engine : Engine Database Save ApiException where
  apply db save :=
    match save.run db with
    | .ok (_, db') => db'
    | .error _ => db
  refuses db save :=
    match save.run db with
    | .ok _ => none
    | .error exception => some exception
  conflicts save save' := save.record.assessmentId == save'.record.assessmentId

/-- `enqueue_report_ready_email`. -/
structure ReportReadyEmail where
  candidateAssessmentId : Uuid
  recruiterEmail : String

def saveFinalEvaluation (save : Save) :
    Program Database Save Unit ReportReadyEmail ApiException NotificationLog :=
  .statement [] (fun _ => [save]) fun db =>
    match save.run db with
    | .error exception => .raise exception
    | .ok (notification, _) =>
      let recruiterEmail := strip save.recruiterEmail
      -- the session of the request commits when the handler has returned
      if recruiterEmail ≠ "" then
        .emit ⟨save.record.candidateAssessmentId, recruiterEmail⟩ (.finish notification)
      else .finish notification

/-- The session and the enrollment of the record exist, no other enrollment's evaluation uses the
session, and the ids of the new rows are new. -/
structure Save.Accepted (save : Save) (db : Database) : Prop where
  session : (db.session? save.record.sessionId).isSome
  enrollment : (db.candidateAssessment? save.record.candidateAssessmentId).isSome
  unshared : ∀ e ∈ db.interviewEvaluations, e.sessionId = save.record.sessionId →
    e.candidateAssessmentId = save.record.candidateAssessmentId
  evaluationId : (∃ e ∈ db.interviewEvaluations,
      e.candidateAssessmentId = save.record.candidateAssessmentId) ∨
    ∀ e ∈ db.interviewEvaluations, e.id ≠ save.draws.evaluationId
  notificationId : ∀ n ∈ db.notificationLogs, n.id ≠ save.draws.notificationId

end FinalEvaluationRoute

/-- The effects that reach a queue or a mail server; a temporary file is none. -/
def RecruiterEffect.Dispatches : RecruiterEffect → Prop
  | .temporaryResume _ _ => False
  | _ => True

inductive StateChangingRequest where
  | recruiter (recruiterId : Uuid) (request : RecruiterRequest)
  | finalEvaluation (save : FinalEvaluationRoute.Save)

namespace StateChangingRequest

variable [Runtime]

/-- Whenever the transaction of the request fails, no task is enqueued and no e-mail dispatched. -/
def EffectsAfterCommit (db : RecruiterDatabase) : StateChangingRequest → Prop
  | recruiter recruiterId request =>
    (request.program recruiterId).NoEarlyEffect recruiterEngine RecruiterEffect.Dispatches db
  | finalEvaluation save =>
    (FinalEvaluationRoute.saveFinalEvaluation save).NoEarlyEffect FinalEvaluationRoute.engine
      (fun _ => True) db.toDatabase

omit [Runtime] in
/-- The request neither closes an open assessment, nor changes the decision on a candidate who has
an address, nor saves an evaluation for a recruiter who has one. -/
def CausesNothingEarly (db : RecruiterDatabase) : StateChangingRequest → Prop
  | recruiter recruiterId (.updateStatus _ assessmentId newStatus) =>
    ¬ (newStatus = .closed ∧ ∃ a, db.assessment? assessmentId = some a ∧
      a.recruiterId = recruiterId ∧ a.status ≠ .closed)
  | recruiter recruiterId (.updateRecruiterDecision _ candidateAssessmentId decision _) =>
    ¬ ∃ e a c, db.enrollment? candidateAssessmentId = some e ∧
      db.assessment? e.assessmentId = some a ∧ a.recruiterId = recruiterId ∧
      db.candidate? e.candidateId = some c ∧ c.email ≠ "" ∧ e.recruiterDecision ≠ decision.text
  | recruiter _ _ => True
  | finalEvaluation save => ¬ (strip save.recruiterEmail ≠ "" ∧ save.Accepted db.toDatabase)

end StateChangingRequest

section FinalEvaluation

open EvaluationRepository FinalEvaluationRoute

variable {db : Database}

theorem upsertEvaluation_accepts_iff (db : Database) (clock : Clock) (newId : Uuid)
    (record : FinalEvaluationRecord) : (∃ db', upsertEvaluation db clock newId record = .ok db') ↔
    (db.session? record.sessionId).isSome ∧
      (∀ e ∈ db.interviewEvaluations, e.sessionId = record.sessionId →
        e.candidateAssessmentId = record.candidateAssessmentId) ∧
      ((∃ e ∈ db.interviewEvaluations, e.candidateAssessmentId = record.candidateAssessmentId) ∨
        ∀ e ∈ db.interviewEvaluations, e.id ≠ newId) := by
  have hsession : (db.session? record.sessionId).isNone = true ↔
      ¬ (db.session? record.sessionId).isSome := by simp
  unfold upsertEvaluation
  simp only
  split_ifs with hrefused hkey hid
  · refine iff_of_false (by simp) ?_
    rintro ⟨hsome, hunshared, _⟩
    rcases Bool.or_eq_true_iff.mp hrefused with hnone | hclash
    · exact hsession.mp hnone hsome
    · obtain ⟨e, he, hboth⟩ := List.any_eq_true.mp hclash
      simp only [Bool.and_eq_true, beq_iff_eq, Bool.not_eq_true', beq_eq_false_iff_ne] at hboth
      exact hboth.2 (hunshared e he hboth.1)
  all_goals
    obtain ⟨hsome, hclash⟩ := not_or.mp (mt Bool.or_eq_true_iff.mpr hrefused)
    have hunshared : ∀ e ∈ db.interviewEvaluations, e.sessionId = record.sessionId →
        e.candidateAssessmentId = record.candidateAssessmentId := by
      intro e he hshared
      by_contra hne
      exact hclash (List.any_eq_true.mpr ⟨e, he, by simp [hshared, hne]⟩)
  · refine iff_of_true ⟨_, rfl⟩ ⟨not_not.mp (mt hsession.mpr hsome), hunshared, .inl ?_⟩
    simpa using hkey
  · refine iff_of_false (by simp) ?_
    rintro ⟨_, _, hold | hnew⟩
    · exact hkey (by simpa using hold)
    · obtain ⟨e, he, hsame⟩ := List.any_eq_true.mp hid
      exact hnew e he (beq_iff_eq.mp hsame)
  · refine iff_of_true ⟨_, rfl⟩ ⟨not_not.mp (mt hsession.mpr hsome), hunshared, .inr ?_⟩
    simpa using hid

theorem save_accepted_iff {save : Save} : (∃ saved, save.run db = .ok saved) ↔ save.Accepted db := by
  have hupsert := upsertEvaluation_accepts_iff db save.clock save.draws.evaluationId save.record
  unfold Save.run EvaluationRepository.saveFinalEvaluation
  cases hrun : upsertEvaluation db save.clock save.draws.evaluationId save.record with
  | error exception =>
    rw [hrun] at hupsert
    refine iff_of_false (by simp [bind, Except.bind]) ?_
    intro h
    obtain ⟨db', hok⟩ := hupsert.mpr ⟨h.session, h.unshared, h.evaluationId⟩
    cases hok
  | ok db' =>
    obtain ⟨hsession, hunshared, hid⟩ := hupsert.mp ⟨db', hrun⟩
    obtain ⟨evaluations, rfl⟩ := upsertEvaluation_cases hrun
    simp only [bind, Except.bind, pure, Except.pure, throw, throwThe, MonadExceptOf.throw,
      Database.candidateAssessment?_updateCandidateAssessments, Option.isNone_map,
      Database.candidateAssessment?_updateSessions]
    have hrows : (db.candidateAssessment? save.record.candidateAssessmentId).isSome ∧
        (∀ n ∈ db.notificationLogs, n.id ≠ save.draws.notificationId) ↔ save.Accepted db :=
      ⟨fun h => ⟨hsession, h.1, hunshared, hid, h.2⟩, fun h => ⟨h.enrollment, h.notificationId⟩⟩
    rw [← hrows]
    split
    · rename_i hnone
      refine iff_of_false (by simp) ?_
      rintro ⟨hsome, _⟩
      rw [Option.isNone_iff_eq_none] at hnone
      exact Option.isSome_iff_ne_none.mp hsome hnone
    · rename_i hsome
      split
      · rename_i hclash
        refine iff_of_false (by simp) ?_
        rintro ⟨_, hfresh⟩
        obtain ⟨n, hn, hsame⟩ := List.any_eq_true.mp hclash
        exact hfresh n hn (beq_iff_eq.mp hsame)
      · rename_i hfresh
        refine iff_of_true ⟨_, rfl⟩ ⟨?_, ?_⟩
        · exact Option.isSome_iff_ne_none.mpr (mt Option.isNone_iff_eq_none.mpr hsome)
        · intro n hn hsame
          exact hfresh (List.any_eq_true.mpr ⟨n, hn, beq_iff_eq.mpr hsame⟩)

theorem saveFinalEvaluation_quiet_iff {save : Save} :
    (FinalEvaluationRoute.saveFinalEvaluation save).Quiet engine (fun _ => True) db ↔
      ¬ (strip save.recruiterEmail ≠ "" ∧ save.Accepted db) := by
  rw [← save_accepted_iff]
  cases hrun : save.run db with
  | error exception =>
    have hrefusal : engine.refusal db [save] = some exception := by
      simp [Engine.refusal, engine, hrun]
    refine iff_of_true ?_ (by simp)
    intro hnone
    rw [hrefusal] at hnone
    cases hnone
  | ok saved =>
    have hrefusal : engine.refusal db [save] = none := by
      simp [Engine.refusal, engine, hrun]
    unfold FinalEvaluationRoute.saveFinalEvaluation
    simp only [Program.Quiet, hrefusal, hrun, forall_true_left]
    split_ifs with hemail
    · simp [Program.Quiet, hemail]
    · simp [Program.Quiet, hemail]

end FinalEvaluation

section Silence

open RecruiterRequests

variable {next : RecruiterProgram} {rest : Upload → RecruiterProgram}

abbrev Deferred (p : RecruiterProgram) : Prop := p.Silent RecruiterEffect.Dispatches

theorem getAssessmentById_deferred {assessmentId recruiterId : Uuid}
    {next : Assessment → RecruiterProgram} (h : ∀ a, Deferred (next a)) :
    Deferred (getAssessmentById assessmentId recruiterId next) := by
  refine Program.silent_select ?_
  intro assessment?
  cases assessment? with
  | none => trivial
  | some assessment =>
    dsimp only
    split
    · trivial
    · exact h assessment

theorem assertNoWindowOverlap_deferred {candidateId : Uuid} {newAssessment : Assessment}
    {next : Option String → RecruiterProgram} (h : ∀ message, Deferred (next message)) :
    Deferred (assertNoWindowOverlap candidateId newAssessment next) :=
  Program.silent_select h

theorem createAssessment_deferred (clock : Clock) (newId recruiterId : Uuid)
    (request : AssessmentCreateRequest) (jdFileBytes : List UInt8) (jdFilename : Option String) :
    Deferred (createAssessment clock newId recruiterId request jdFileBytes jdFilename) := by
  unfold createAssessment
  split_ifs
  · trivial
  · exact fun _ => trivial

theorem deleteCandidate_deferred {candidateId : Uuid} (h : Deferred next) :
    Deferred (deleteCandidate candidateId next) :=
  fun _ _ => h

theorem getOwnedEnrollment_deferred {candidateAssessmentId recruiterId : Uuid} {denied : String}
    {next : RecruiterEnrollment → Assessment → Option CandidateProfile → RecruiterProgram}
    (h : ∀ e a c, Deferred (next e a c)) :
    Deferred (getOwnedEnrollment candidateAssessmentId recruiterId denied next) := by
  refine Program.silent_select ?_
  intro found?
  match found? with
  | none => trivial
  | some (_, none, _) => trivial
  | some (enrollment, some assessment, candidate) =>
    dsimp only
    split
    · trivial
    · exact h enrollment assessment candidate

theorem deleteCandidateFromAssessment_deferred (candidateAssessmentId recruiterId : Uuid) :
    Deferred (deleteCandidateFromAssessment candidateAssessmentId recruiterId) := by
  refine getOwnedEnrollment_deferred ?_
  intro enrollment _ _ _
  refine Program.silent_select ?_
  intro remaining
  split
  · refine Program.silent_select ?_
    intro candidate?
    cases candidate? with
    | none => trivial
    | some candidate => exact deleteCandidate_deferred trivial
  · trivial

theorem enrollRow_deferred {context : UploadContext} {rowIdx : ℕ} {row : UploadRow}
    {draws : RowDraws} {upload : Upload} {candidateId : Uuid} (h : ∀ upload, Deferred (rest upload)) :
    Deferred (enrollRow context rowIdx row draws upload candidateId rest) := by
  refine assertNoWindowOverlap_deferred ?_
  intro message
  cases message with
  | some message => exact h _
  | none => exact fun _ => h _

variable [Runtime]

theorem uploadRow_deferred {context : UploadContext} {rowIdx : ℕ} {row : UploadRow}
    {draws : RowDraws} {upload : Upload} (h : ∀ upload, Deferred (rest upload)) :
    Deferred (uploadRow context rowIdx row draws upload rest) := by
  unfold uploadRow
  split
  · exact h _
  · refine Program.silent_select ?_
    intro existing?
    cases existing? with
    | none => exact fun _ => enrollRow_deferred h
    | some existing =>
      refine Program.silent_select ?_
      intro enrolled?
      cases enrolled? with
      | some enrolled => exact h _
      | none =>
        dsimp only
        split_ifs
        · exact fun _ => enrollRow_deferred h
        · exact enrollRow_deferred h

theorem uploadRows_deferred {context : UploadContext} {draws : ℕ → RowDraws} {rowIdx : ℕ}
    {rows : List UploadRow} {upload : Upload} (h : ∀ upload, Deferred (rest upload)) :
    Deferred (uploadRows context draws rowIdx rows upload rest) := by
  induction rows generalizing rowIdx upload with
  | nil => exact h upload
  | cons row rows ih => exact uploadRow_deferred fun _ => ih

theorem bulkUploadFromCsv_deferred (clock : Clock) (recruiterId assessmentId : Uuid)
    (file : CsvFile) (filename : String) (uploadId : Uuid) (draws : ℕ → RowDraws) :
    Deferred (bulkUploadFromCsv clock recruiterId assessmentId file filename uploadId draws) := by
  refine getAssessmentById_deferred ?_
  intro assessment
  cases parseCsv file with
  | error exception => trivial
  | ok rows =>
    refine uploadRows_deferred ?_
    intro upload _
    exact Program.silent_afterCommits trivial

theorem createSingleCandidate_deferred (clock : Clock) (recruiterId : Uuid) (name email : String)
    (assessmentId : Uuid) (resumeFileBytes : List UInt8) (resumeFilename : String)
    (draws : RowDraws) :
    Deferred (createSingleCandidate clock recruiterId name email assessmentId resumeFileBytes
      resumeFilename draws) := by
  refine Program.silent_select ?_
  intro matched?
  cases matched?.filter (·.recruiterId == recruiterId) with
  | none => trivial
  | some matchedAssessment =>
    dsimp only
    generalize hcreate : Program.write (RecruiterWrite.insertCandidate _) _ = create
    have hdeferred : Deferred create := by
      subst hcreate
      intro _
      refine assertNoWindowOverlap_deferred ?_
      intro message
      cases message with
      | some message => trivial
      | none =>
        refine Program.silent_select ?_
        intro enrolled?
        cases enrolled? with
        | some enrolled => trivial
        | none => exact fun _ => ⟨id, trivial⟩
    refine Program.silent_select ?_
    intro existing?
    cases existing? with
    | none => exact hdeferred
    | some existing =>
      refine Program.silent_select ?_
      intro existingEnrollments
      split
      · trivial
      · exact deleteCandidate_deferred hdeferred

omit [Runtime] in
theorem enrollExistingCandidate_deferred (clock : Clock) (recruiterId candidateId assessmentId : Uuid)
    (resumeFileBytes : Option (List UInt8)) (resumeFilename : Option String)
    (draws : CandidateAssessmentRepository.EnrollmentDraws) :
    Deferred (enrollExistingCandidate clock recruiterId candidateId assessmentId resumeFileBytes
      resumeFilename draws) := by
  refine Program.silent_select ?_
  intro new?
  cases new?.filter (·.recruiterId == recruiterId) with
  | none => trivial
  | some newAssessment =>
    refine Program.silent_select ?_
    intro candidate?
    cases candidate? with
    | none => trivial
    | some candidate =>
      refine Program.silent_select ?_
      intro enrolled?
      cases enrolled? with
      | some enrolled => trivial
      | none =>
        refine Program.silent_select ?_
        intro allEnrollments
        dsimp only
        split
        · trivial
        · refine assertNoWindowOverlap_deferred ?_
          intro message
          cases message with
          | some message => trivial
          | none =>
            intro _
            change Deferred (if _ then _ else _)
            split
            · exact ⟨id, trivial⟩
            · trivial

end Silence

section Early

open RecruiterRequests

variable {db : RecruiterDatabase}

theorem updateStatus_quiet_iff {clock : Clock} {assessmentId recruiterId : Uuid}
    {newStatus : StatusUpdate} :
    (updateStatus clock assessmentId recruiterId newStatus).Quiet recruiterEngine
        RecruiterEffect.Dispatches db ↔
      ¬ (newStatus = .closed ∧ ∃ a, db.assessment? assessmentId = some a ∧
        a.recruiterId = recruiterId ∧ a.status ≠ .closed) := by
  unfold updateStatus getAssessmentById Program.select
  simp only [Program.Quiet, Engine.refusal, Engine.applyAll_nil, forall_true_left]
  cases db.assessment? assessmentId with
  | none => simp [Program.Quiet]
  | some a =>
    dsimp only
    split
    · rename_i howner
      simp [Program.Quiet, howner]
    · rename_i howner
      split
      · rename_i hclosing
        simp only [Program.Quiet, RecruiterEffect.Dispatches, not_true_eq_false, false_and,
          false_iff, not_not]
        exact ⟨hclosing.2, a, rfl, not_not.mp howner, hclosing.1⟩
      · rename_i hkeeping
        refine iff_of_true (fun _ => trivial) ?_
        rintro ⟨hclosed, _, ⟨⟩, _, hopen⟩
        exact hkeeping ⟨hopen, hclosed⟩

theorem updateRecruiterDecision_quiet_iff {clock : Clock}
    {candidateAssessmentId recruiterId : Uuid} {decision : Decision} {feedback : Option String} :
    (updateRecruiterDecision clock candidateAssessmentId recruiterId decision feedback).Quiet
        recruiterEngine RecruiterEffect.Dispatches db ↔
      ¬ ∃ e a c, db.enrollment? candidateAssessmentId = some e ∧
        db.assessment? e.assessmentId = some a ∧ a.recruiterId = recruiterId ∧
        db.candidate? e.candidateId = some c ∧ c.email ≠ "" ∧
        e.recruiterDecision ≠ decision.text := by
  unfold updateRecruiterDecision getOwnedEnrollment Program.select getEnrollmentById
  simp only [Program.Quiet, Engine.refusal, Engine.applyAll_nil, forall_true_left]
  cases hfound : db.enrollment? candidateAssessmentId with
  | none => simp [Program.Quiet]
  | some e =>
    simp only [Option.map_some, Option.some.injEq]
    cases hassessment : db.assessment? e.assessmentId with
    | none => simp [Program.Quiet, hassessment]
    | some a =>
      dsimp only
      split
      · rename_i howner
        simp [Program.Quiet, hassessment, howner]
      · rename_i howner
        have hrefusal (s : RecruiterDatabase) : recruiterEngine.refusal s
            [.decide clock candidateAssessmentId decision.text feedback] = none := rfl
        unfold Program.write
        simp only [Program.Quiet, hrefusal, forall_true_left]
        split
        · rename_i hnotified
          simp only [Program.Quiet, RecruiterEffect.Dispatches, not_true_eq_false, false_and,
            false_iff, not_not]
          cases hcandidate : db.candidate? e.candidateId with
          | none => simp [hcandidate] at hnotified
          | some c =>
            refine ⟨e, a, c, rfl, hassessment, not_not.mp howner, hcandidate, ?_, hnotified.1⟩
            simpa [hcandidate] using hnotified.2
        · rename_i hsilent
          refine iff_of_true trivial ?_
          rintro ⟨_, _, c, rfl, _, _, hcandidate, hemail, hdecision⟩
          exact hsilent ⟨hdecision, by simpa [hcandidate] using hemail⟩

variable [Runtime]

/-- The tasks and e-mails of a request all follow its commit exactly when it neither closes an open
assessment, nor changes the decision on a candidate with an address, nor saves an evaluation for a
recruiter with one. -/
theorem effects_after_commit_iff (db : RecruiterDatabase) (request : StateChangingRequest) :
    request.EffectsAfterCommit db ↔ request.CausesNothingEarly db := by
  have hdeferred {p : RecruiterProgram} (h : Deferred p) :
      p.NoEarlyEffect recruiterEngine RecruiterEffect.Dispatches db ↔ True :=
    iff_of_true (Program.noEarlyEffect_iff_quiet.mpr (h.quiet db)) trivial
  cases request with
  | finalEvaluation save =>
    exact Program.noEarlyEffect_iff_quiet.trans saveFinalEvaluation_quiet_iff
  | recruiter recruiterId request =>
    cases request with
    | createAssessment clock newId request jdFileBytes jdFilename =>
      exact hdeferred (createAssessment_deferred clock newId recruiterId request jdFileBytes
        jdFilename)
    | updateStatus clock assessmentId newStatus =>
      exact Program.noEarlyEffect_iff_quiet.trans updateStatus_quiet_iff
    | enroll request =>
      cases request with
      | bulkUploadFromCsv clock assessmentId file filename uploadId draws =>
        exact hdeferred (bulkUploadFromCsv_deferred clock recruiterId assessmentId file filename
          uploadId draws)
      | createSingleCandidate clock name email assessmentId resumeFileBytes resumeFilename draws =>
        exact hdeferred (createSingleCandidate_deferred clock recruiterId name email assessmentId
          resumeFileBytes resumeFilename draws)
      | enrollExistingCandidate clock candidateId assessmentId resumeFileBytes resumeFilename
          draws =>
        exact hdeferred (enrollExistingCandidate_deferred clock recruiterId candidateId
          assessmentId resumeFileBytes resumeFilename draws)
    | updateRecruiterDecision clock candidateAssessmentId decision feedback =>
      exact Program.noEarlyEffect_iff_quiet.trans updateRecruiterDecision_quiet_iff
    | deleteCandidateFromAssessment candidateAssessmentId =>
      exact hdeferred (deleteCandidateFromAssessment_deferred candidateAssessmentId recruiterId)

omit [Runtime] in
/-- Closing an assessment, deciding on a candidate and saving an evaluation each reach a queue or a
mail server before their commit. -/
theorem effects_before_commit :
    let _ : Runtime := .ascii
    ¬ (StateChangingRequest.recruiter 1 (.updateStatus ⟨5, 5⟩ 10 .closed)).EffectsAfterCommit
        sharedCandidate ∧
      ¬ (StateChangingRequest.recruiter 2
        (.updateRecruiterDecision ⟨220, 220⟩ 40 .approved none)).EffectsAfterCommit
          sharedCandidate ∧
      ¬ (StateChangingRequest.finalEvaluation
        ⟨⟨220, 220⟩, ⟨60, 61⟩, ⟨40, 50, 20, sampleReport 8⟩, "hr@globex.example"⟩).EffectsAfterCommit
          sharedCandidate := by
  intro runtime
  refine ⟨?_, ?_, ?_⟩
  · intro h
    refine updateStatus_quiet_iff.mp (Program.noEarlyEffect_iff_quiet.mp h) ⟨rfl, ?_⟩
    exact ⟨openAssessment 10 1 0 100, rfl, rfl, by decide⟩
  · intro h
    refine updateRecruiterDecision_quiet_iff.mp (Program.noEarlyEffect_iff_quiet.mp h) ?_
    exact ⟨_, _, _, rfl, rfl, rfl, rfl, by decide, by decide⟩
  · intro h
    refine saveFinalEvaluation_quiet_iff.mp (Program.noEarlyEffect_iff_quiet.mp h)
      ⟨by decide, ?_⟩
    exact ⟨rfl, rfl, by simp [RecruiterDatabase.toDatabase, sharedCandidate],
      .inr (by simp [RecruiterDatabase.toDatabase, sharedCandidate]),
      by simp [RecruiterDatabase.toDatabase, sharedCandidate]⟩

end Early

end IBotCoreApi
