import IBotCoreApi.InterviewSessionRepository
import Mathlib.Data.List.Sort

namespace IBotCoreApi
open Python

/-- `FinalEvaluationRecord`, its three keys parsed by `_uuid`. -/
structure FinalEvaluationRecord where
  candidateAssessmentId : Uuid
  sessionId : Uuid
  assessmentId : Uuid
  report : EvaluationReport

namespace EvaluationRepository

/-- The `SET` of `mark_evaluation_failed`. -/
def evaluationFailed (clock : Clock) : SessionUpdate where
  set s := { s with status := .evaluationFailed, lastUpdatedAt := clock.dbNow }

def markEvaluationFailed (db : Database) (clock : Clock) (candidateAssessmentId : Uuid) : Database :=
  db.updateSessions
    (fun s => s.candidateAssessmentId == candidateAssessmentId && s.status != .evaluated)
    (evaluationFailed clock)

def newEvaluation (clock : Clock) (newId : Uuid) (record : FinalEvaluationRecord) :
    InterviewEvaluation where
  id := newId
  candidateAssessmentId := record.candidateAssessmentId
  sessionId := record.sessionId
  report := record.report
  rankInAssessment := none
  percentileInAssessment := none
  totalCandidatesEvaluated := none
  generatedAt := clock.dbNow

/-- The `DO UPDATE SET` of a later evaluation. -/
def overwriteEvaluation (clock : Clock) (record : FinalEvaluationRecord) : EvaluationUpdate where
  set e := { e with
    sessionId := record.sessionId
    report := record.report
    generatedAt := clock.dbNow }

/-- `INSERT … ON CONFLICT (candidate_assessment_id) DO UPDATE`.  The foreign key on `session_id`
and its unique constraint may refuse the statement. -/
def upsertEvaluation (db : Database) (clock : Clock) (newId : Uuid)
    (record : FinalEvaluationRecord) : Except ApiException Database :=
  let sameKey (e : InterviewEvaluation) := e.candidateAssessmentId == record.candidateAssessmentId
  let clash := db.interviewEvaluations.any fun e => e.sessionId == record.sessionId && !sameKey e
  if (db.session? record.sessionId).isNone || clash then
    .error .integrityError
  else if db.interviewEvaluations.any sameKey then
    .ok { db with
      interviewEvaluations :=
        Tables.updateWhere sameKey (overwriteEvaluation clock record) db.interviewEvaluations }
  else if db.interviewEvaluations.any (·.id == newId) then
    .error .integrityError
  else
    .ok { db with
      interviewEvaluations := db.interviewEvaluations ++ [newEvaluation clock newId record] }

/-- The join of `_refresh_assessment_ranking`. -/
def belongsTo (db : Database) (assessmentId : Uuid) (e : InterviewEvaluation) : Bool :=
  (db.candidateAssessment? e.candidateAssessmentId).any (·.assessmentId == assessmentId)

/-- `ORDER BY overall_score DESC, generated_at ASC`. -/
def ranksBefore (a b : InterviewEvaluation) : Prop :=
  b.report.overallScore < a.report.overallScore ∨
    (a.report.overallScore = b.report.overallScore ∧ a.generatedAt ≤ b.generatedAt)

instance : DecidableRel ranksBefore := fun a b => by
  unfold ranksBefore
  infer_instance

/-- `floor((total - rank) / (total - 1) * 100 + 0.5)`, and 100 for a single evaluation. -/
def percentile (total rank : ℤ) : ℤ :=
  if total ≤ 1 then 100 else ((total - rank : ℚ) / (total - 1) * 100 + 1 / 2).floor

/-- The three ranking columns of the evaluation at place `rank` of `total`. -/
def ranked (total rank : ℤ) (e : InterviewEvaluation) : InterviewEvaluation :=
  { e with
    rankInAssessment := some rank
    totalCandidatesEvaluated := some total
    percentileInAssessment := some (percentile total rank) }

def refreshAssessmentRanking (db : Database) (assessmentId : Uuid) : Database :=
  let evaluations := (db.interviewEvaluations.filter (belongsTo db assessmentId)).insertionSort
    ranksBefore
  let total : ℤ := evaluations.length
  { db with interviewEvaluations := db.interviewEvaluations.map fun e =>
      if belongsTo db assessmentId e then
        ranked total (evaluations.findIdx (·.id == e.id) + 1 : ℕ) e
      else e }

/-- What `save_final_evaluation` sets on the session. -/
def sessionEvaluated (clock : Clock) : SessionUpdate where
  set s := { s with status := .evaluated, lastUpdatedAt := clock.dbNow }

/-- What `save_final_evaluation` sets on the enrollment. -/
def candidateEvaluated (clock : Clock) : CandidateUpdate where
  set ca := { ca with
    status := .evaluated
    interviewEndedAt := ca.interviewEndedAt <|> some clock.dbNow
    updatedAt := clock.dbNow }

/-- The identifiers that the statements of `save_final_evaluation` draw. -/
structure EvaluationDraws where
  evaluationId : Uuid
  notificationId : Uuid

def saveFinalEvaluation (db : Database) (clock : Clock) (draws : EvaluationDraws)
    (record : FinalEvaluationRecord) (recruiterEmail : String) :
    Except ApiException (NotificationLog × Database) := do
  let db ← upsertEvaluation db clock draws.evaluationId record
  let db := db.updateSessions (·.id == record.sessionId) (sessionEvaluated clock)
  let db := db.updateCandidateAssessments (·.id == record.candidateAssessmentId)
    (candidateEvaluated clock)
  -- the notice references its enrollment
  if (db.candidateAssessment? record.candidateAssessmentId).isNone then
    throw .integrityError
  if db.notificationLogs.any (·.id == draws.notificationId) then
    throw .integrityError
  let notification : NotificationLog := {
    id := draws.notificationId
    candidateAssessmentId := record.candidateAssessmentId
    notificationType := "REPORT_READY"
    recipientEmail := recruiterEmail
    deliveryStatus := "SENT"
    sentAt := clock.dbNow }
  let db := { db with notificationLogs := db.notificationLogs ++ [notification] }
  return (notification, refreshAssessmentRanking db record.assessmentId)

end EvaluationRepository

end IBotCoreApi
