import IBotCoreApi.EvaluationSchemas
import IBotCoreApi.RecruiterDatabase

namespace IBotCoreApi
open Python Pydantic EvaluationSchemas

inductive EvaluationException where
  | candidateRegistrationNotFound
  | assessmentNotFound
  | accessDenied (message : String)
  | evaluationNotFound
  /-- `pydantic.ValidationError`. -/
  | validationError
  /-- The `ValueError` of `_uuid`. -/
  | valueError
  | api (error : ApiException)

/-- The `SET` of `save_final_evaluation` on the whole row of the enrollment. -/
def RecruiterEnrollment.evaluated (clock : Clock) : Tables.Update RecruiterEnrollment.keys where
  set e := { e with
    toCandidateAssessment :=
      (EvaluationRepository.candidateEvaluated clock).set e.toCandidateAssessment }

/-- `save_final_evaluation` on the tables with all columns. -/
def RecruiterDatabase.saveFinalEvaluation (db : RecruiterDatabase) (clock : Clock)
    (draws : EvaluationRepository.EvaluationDraws) (record : FinalEvaluationRecord)
    (recruiterEmail : String) : Except ApiException (NotificationLog × RecruiterDatabase) :=
  (EvaluationRepository.saveFinalEvaluation db.toDatabase clock draws record recruiterEmail).map
    fun (notification, saved) => (notification, { db with
      enrollments := Tables.updateWhere (·.id == record.candidateAssessmentId)
        (RecruiterEnrollment.evaluated clock) db.enrollments
      interviewSessions := saved.interviewSessions
      interviewEvaluations := saved.interviewEvaluations
      notificationLogs := saved.notificationLogs })

/-- The route `POST /evaluation/final`: the stored record and the database after it. -/
def EvaluationRoutes.saveFinalEvaluation [Runtime] [NumberText] [UuidText]
    (db : RecruiterDatabase) (clock : Clock)
    (draws : EvaluationRepository.EvaluationDraws) (body : Json) :
    Except EvaluationException (FinalEvaluationRecord × RecruiterDatabase) :=
  match SaveFinalEvaluationRequest.modelValidate body with
  | none => .error .validationError
  | some request =>
    match request.record.parsed with
    | none => .error .valueError
    | some record =>
      match db.saveFinalEvaluation clock draws record request.recruiterEmail with
      | .error exception => .error (.api exception)
      | .ok (_, db') => .ok (record, db')

/-- The full report of one candidate; `report` has the fields that come from the record. -/
structure InterviewEvaluationResponse where
  id : Uuid
  candidateAssessmentId : Uuid
  sessionId : Uuid
  candidateName : Option String
  candidateEmail : Option String
  assessmentTitle : Option String
  roleName : Option String
  recruiterDecision : Option String
  recruiterFeedback : Option String
  report : Json.Entries
  rankInAssessment : Option ℤ
  percentileInAssessment : Option ℤ
  totalCandidatesEvaluated : Option ℤ
  generatedAt : Time

structure RecruiterEvaluationListItem where
  candidateAssessmentId : Uuid
  candidateName : String
  candidateEmail : String
  assessmentId : Uuid
  assessmentTitle : String
  roleName : String
  recruiterDecision : String
  interviewStartedAt : Option Time
  interviewEndedAt : Option Time
  generatedAt : Time
  report : Json.Entries
  rankInAssessment : Option ℤ
  percentileInAssessment : Option ℤ
  totalCandidatesEvaluated : Option ℤ

/-- A row of `list_by_recruiter`. -/
structure EvaluationRow where
  evaluation : InterviewEvaluation
  enrollment : RecruiterEnrollment
  candidate : CandidateProfile
  assessment : Assessment

namespace EvaluationService

/-- `get_by_candidate_assessment_id`. -/
def evaluationOf? (db : RecruiterDatabase) (candidateAssessmentId : Uuid) :
    Option InterviewEvaluation :=
  Tables.lookup (·.candidateAssessmentId) candidateAssessmentId db.interviewEvaluations

def getOwnedCandidateAssessment (db : RecruiterDatabase) (caId recruiterId : Uuid)
    (resourceName : String) :
    Except EvaluationException (RecruiterEnrollment × Assessment) :=
  match db.enrollment? caId with
  | none => .error .candidateRegistrationNotFound
  | some ca =>
    match db.assessment? ca.assessmentId with
    | none => .error .assessmentNotFound
    | some assessment =>
      if assessment.recruiterId ≠ recruiterId then
        .error (.accessDenied ("You do not have access to this " ++ resourceName ++ "."))
      else .ok (ca, assessment)

/-- The inner join of an evaluation with its enrollment, candidate and assessment. -/
def joined (db : RecruiterDatabase) (evaluation : InterviewEvaluation) : Option EvaluationRow := do
  let enrollment ← db.enrollment? evaluation.candidateAssessmentId
  let candidate ← db.candidate? enrollment.candidateId
  let assessment ← db.assessment? enrollment.assessmentId
  return ⟨evaluation, enrollment, candidate, assessment⟩

/-- `list_by_recruiter`: the newest evaluation first. -/
def listByRecruiter (db : RecruiterDatabase) (recruiterId : Uuid) : List EvaluationRow :=
  Sorting.sortedDown (·.evaluation.generatedAt)
    ((db.interviewEvaluations.filterMap (joined db)).filter
      (·.assessment.recruiterId == recruiterId))

variable [Runtime]

def validatedViolationCount : Json → ℤ
  | .dict d =>
    match ((Json.get d "validated_violation_count").orElse (.int 0)).toInt with
    | .ok count => count
    | .error _ => 0
  | _ => 0

/-- What `_build_list_item` takes from the record. -/
def listItemAttributes (r : EvaluationReport) : Json.Entries :=
  [("overall_score", .float r.overallScore),
    ("hiring_recommendation", .str r.hiringRecommendation),
    ("recommendation_reasoning", .str r.recommendationReasoning),
    ("overall_summary", .str r.overallSummary),
    ("overall_technical_skill_score", .float r.overallTechnicalSkillScore),
    ("behavioural_cultural_score", .float r.behaviouralCulturalScore),
    ("communication_score", .float r.communicationScore),
    ("strengths", dumpStrs r.strengths),
    ("concerns", dumpStrs r.concerns),
    ("validated_violation_count", .int (validatedViolationCount r.violationSummary)),
    ("skill_scores", r.skillScores)]

variable [NumberText]

def getCandidateEvaluation (db : RecruiterDatabase) (caId recruiterId : Uuid) :
    Except EvaluationException InterviewEvaluationResponse := do
  let (ca, assessment) ← getOwnedCandidateAssessment db caId recruiterId "evaluation"
  let candidate := db.candidate? ca.candidateId
  match evaluationOf? db caId with
  | none => throw .evaluationNotFound
  | some evaluation =>
    match Schema.readFields evaluation.report.attributes interviewEvaluationFields with
    | none => throw .validationError
    | some report => return {
        id := evaluation.id
        candidateAssessmentId := evaluation.candidateAssessmentId
        sessionId := evaluation.sessionId
        candidateName := candidate.map (·.fullName)
        candidateEmail := candidate.map (·.email)
        assessmentTitle := some assessment.title
        roleName := some assessment.roleName
        recruiterDecision := some ca.recruiterDecision
        recruiterFeedback := ca.recruiterFeedback
        report := report
        rankInAssessment := evaluation.rankInAssessment
        percentileInAssessment := evaluation.percentileInAssessment
        totalCandidatesEvaluated := evaluation.totalCandidatesEvaluated
        generatedAt := evaluation.generatedAt }

def buildListItem (row : EvaluationRow) :
    Except EvaluationException RecruiterEvaluationListItem :=
  match Schema.readFields (listItemAttributes row.evaluation.report) recruiterEvaluationFields with
  | none => .error .validationError
  | some report => .ok {
      candidateAssessmentId := row.enrollment.id
      candidateName := trim row.candidate.fullName
      candidateEmail := trim row.candidate.email
      assessmentId := row.assessment.id
      assessmentTitle := trim row.assessment.title
      roleName := trim row.assessment.roleName
      recruiterDecision := trim row.enrollment.recruiterDecision
      interviewStartedAt := row.enrollment.interviewStartedAt
      interviewEndedAt := row.enrollment.interviewEndedAt
      generatedAt := row.evaluation.generatedAt
      report := report
      rankInAssessment := row.evaluation.rankInAssessment
      percentileInAssessment := row.evaluation.percentileInAssessment
      totalCandidatesEvaluated := row.evaluation.totalCandidatesEvaluated }

def listRecruiterEvaluations (db : RecruiterDatabase) (recruiterId : Uuid) :
    Except EvaluationException (List RecruiterEvaluationListItem) :=
  (listByRecruiter db recruiterId).mapM buildListItem

end EvaluationService

end IBotCoreApi
