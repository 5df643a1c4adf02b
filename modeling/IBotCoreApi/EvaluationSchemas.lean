import IBotCoreApi.EvaluationRepository
import IBotCoreApi.Library.Schemas

namespace IBotCoreApi
open Python Pydantic

/-- `uuid.UUID(text)`, `none` for a `ValueError`. -/
class UuidText where
  uuidOfStr : String → Option Uuid

def hexDigit? (c : Char) : Option ℕ :=
  if '0' ≤ c ∧ c ≤ '9' then some (c.toNat - 48)
  else if 'a' ≤ c ∧ c ≤ 'f' then some (c.toNat - 87)
  else if 'A' ≤ c ∧ c ≤ 'F' then some (c.toNat - 55)
  else none

/-- The texts of thirty-two digits, with hyphens anywhere. -/
@[reducible] def UuidText.hexadecimal : UuidText where
  uuidOfStr s :=
    let digits := s.toList.filter (· != '-')
    if digits.length = 32 then
      (digits.mapM hexDigit?).map fun values =>
        BitVec.ofNat 128 (values.foldl (fun n digit => 16 * n + digit) 0)
    else none

/-- `FinalEvaluationRecord` as it is accepted, its three keys still texts. -/
structure EvaluationPayload where
  candidateAssessmentId : String
  sessionId : String
  assessmentId : String
  report : EvaluationReport

namespace EvaluationModel

/-- The bound that `clamp_model_scores` applies to a field. -/
def upperBound (name : String) : Option ℚ :=
  if name = "confidence" then some 1
  else if name = "score" || "_score".toList.isSuffixOf name.toList then some 10
  else none

def clamp (upper q : ℚ) : Json := .float (min upper (max 0 q))

variable [Runtime]

/-- `clamp_model_scores`: what cannot be converted is left to the validation of the field.  An
`OverflowError` ends the request. -/
def clampModelScores (name : String) (value : Json) : Option Json :=
  match upperBound name, value with
  | none, _ | some _, .bool _ => some value
  | some upper, .int i => (Runtime.floatOfInt i).map (clamp upper)
  | some upper, .float q => some (clamp upper q)
  | some upper, .str s => some (((Runtime.floatOfStr s).map (clamp upper)).getD value)
  | some _, _ => some value

/-- A field of an `EvaluationModel`. -/
def field {α : Type} (v : Validator α) (d : Json.Entries) (name : String) : Option α :=
  (d.lookup name).bind fun value => (clampModelScores name value).bind v

end EvaluationModel

namespace FinalEvaluationRecord
open EvaluationModel

/-- `str` as it is. -/
def text : Validator String
  | .str s => some s
  | _ => none

def dictOf (p : Json → Bool) : Validator Json
  | .dict d => if d.all fun entry => p entry.2 then some (.dict d) else none
  | _ => none

def isText : Json → Bool
  | .str _ => true
  | _ => false

def isTexts : Json → Bool
  | .list js => js.all isText
  | _ => false

def isDict : Json → Bool
  | .dict _ => true
  | _ => false

/-- `list[dict[str, Any]]`. -/
def dicts : Validator Json
  | .list js => if js.all isDict then some (.list js) else none
  | _ => none

def hiringRecommendation : Validator String :=
  literal [("hire", "hire"), ("consider", "consider"), ("no hire", "no hire")]

def fieldNames : List String :=
  ["candidate_assessment_id", "session_id", "assessment_id",
    "intro_section_score", "intro_section_summary", "intro_section_evidence",
    "skill_scores", "overall_technical_skill_score", "skill_summary", "skill_evidence",
    "question_evaluations", "behavioural_cultural_score", "behavioural_cultural_summary",
    "behavioural_cultural_evidence", "communication_score", "communication_summary",
    "communication_evidence", "section_communication_scores", "violation_summary",
    "violation_evidence", "raw_overall_score", "violation_penalty", "overall_score",
    "hiring_recommendation", "model_recommendation", "recommendation_override_reason",
    "overall_summary", "recommendation_reasoning", "strengths", "concerns", "prompt_version",
    "model_name", "model_provider", "evaluation_schema_version", "transcript_hash",
    "raw_model_output"]

variable [Runtime] [NumberText]

def modelValidate : Validator EvaluationPayload
  | .dict d => do
    onlyKeys fieldNames d
    return {
      candidateAssessmentId := ← field text d "candidate_assessment_id"
      sessionId := ← field text d "session_id"
      assessmentId := ← field text d "assessment_id"
      report := {
        introSectionScore := ← field float d "intro_section_score"
        introSectionSummary := ← field text d "intro_section_summary"
        introSectionEvidence := ← field (list text) d "intro_section_evidence"
        skillScores := ← field (dictOf isDict) d "skill_scores"
        overallTechnicalSkillScore := ← field float d "overall_technical_skill_score"
        skillSummary := ← field (dictOf isText) d "skill_summary"
        skillEvidence := ← field (dictOf isTexts) d "skill_evidence"
        questionEvaluations := ← field dicts d "question_evaluations"
        behaviouralCulturalScore := ← field float d "behavioural_cultural_score"
        behaviouralCulturalSummary := ← field text d "behavioural_cultural_summary"
        behaviouralCulturalEvidence := ← field (list text) d "behavioural_cultural_evidence"
        communicationScore := ← field float d "communication_score"
        communicationSummary := ← field text d "communication_summary"
        communicationEvidence := ← field (list text) d "communication_evidence"
        sectionCommunicationScores :=
          ← field (dictOf fun _ => true) d "section_communication_scores"
        violationSummary := ← field (dictOf fun _ => true) d "violation_summary"
        violationEvidence := ← field (list text) d "violation_evidence"
        rawOverallScore := ← field float d "raw_overall_score"
        violationPenalty := ← field float d "violation_penalty"
        overallScore := ← field float d "overall_score"
        hiringRecommendation := ← field hiringRecommendation d "hiring_recommendation"
        modelRecommendation := ← field hiringRecommendation d "model_recommendation"
        recommendationOverrideReason :=
          ← field (optional text) d "recommendation_override_reason"
        overallSummary := ← field text d "overall_summary"
        recommendationReasoning := ← field text d "recommendation_reasoning"
        strengths := ← field (list text) d "strengths"
        concerns := ← field (list text) d "concerns"
        promptVersion := ← field text d "prompt_version"
        modelName := ← field text d "model_name"
        modelProvider := ← field text d "model_provider"
        evaluationSchemaVersion := ← field text d "evaluation_schema_version"
        transcriptHash := ← field text d "transcript_hash"
        rawModelOutput := ← field (dictOf fun _ => true) d "raw_model_output" } }
  | _ => none

end FinalEvaluationRecord

structure SaveFinalEvaluationRequest where
  record : EvaluationPayload
  recruiterEmail : String

def SaveFinalEvaluationRequest.modelValidate [Runtime] [NumberText] :
    Validator SaveFinalEvaluationRequest
  | .dict d => do
    onlyKeys ["record", "recruiter_email"] d
    return {
      record := ← required FinalEvaluationRecord.modelValidate d "record"
      recruiterEmail := ← required str d "recruiter_email" }
  | _ => none

/-- The record with its keys parsed by `_uuid`. -/
def EvaluationPayload.parsed [UuidText] (payload : EvaluationPayload) :
    Option FinalEvaluationRecord := do
  return {
    candidateAssessmentId := ← UuidText.uuidOfStr payload.candidateAssessmentId
    sessionId := ← UuidText.uuidOfStr payload.sessionId
    assessmentId := ← UuidText.uuidOfStr payload.assessmentId
    report := payload.report }

namespace EvaluationSchemas

variable [Runtime] [NumberText]

def evaluationSkillBreakdown : Schema := .model
  [.required "score" .float,
    .required "priority_score" .float,
    .required "questions_evaluated" .int,
    .required "confidence" .float] (by simp)

def questionEvaluationBreakdown : Schema := .model
  [.required "question_id" .str,
    .required "section" .str,
    .defaulted "skill" (.optional .str) .null,
    .required "difficulty" .str,
    .required "question_text" .str,
    .required "answered" .bool,
    .required "answer_summary" .str,
    .required "score" .float,
    .required "relevance_class" .str,
    .defaulted "evidence" (.list .str) (.list []),
    .required "confidence" .float] (by simp)

def sectionCommunicationBreakdown : Schema := .model
  [.required "score" .float,
    .required "summary" .str,
    .defaulted "evidence" (.list .str) (.list [])] (by simp)

def severityCounts : Schema := .model
  [.required "low" .int,
    .required "medium" .int,
    .required "high" .int,
    .required "critical" .int] (by simp)

def violationCategoryDetail : Schema := .model
  [.required "violation_type" .str,
    .required "severity" (.literal ["low", "medium", "high", "critical"]),
    .defaulted "scored_occurrence_count" (.intFrom 1) (.int 1),
    .required "occurrence_count" (.intFrom 1),
    .defaulted "timestamp" (.optional .str) .null,
    .defaulted "termination_triggered" .bool (.bool false),
    .defaulted "termination_reason" (.optional .str) .null,
    .defaulted "tab_switch_count" (.optional (.intFrom 1)) .null,
    .defaulted "observed_duration_ms" (.optional (.intFrom 0)) .null,
    .defaulted "observed_durations_ms" (.list .int) (.list []),
    .defaulted "max_observed_duration_ms" (.optional (.intFrom 0)) .null,
    .defaulted "total_observed_duration_ms" (.optional (.intFrom 0)) .null,
    .defaulted "termination_duration_ms" (.optional (.intFrom 0)) .null,
    .defaulted "max_face_count" (.optional (.intFrom 0)) .null,
    .defaulted "metadata" (.dict .any) (.dict [])] (by simp)

def violationSummary : Schema := .model
  [.required "has_violation" .bool,
    .required "validated_violation_count" .int,
    .required "severity_counts" severityCounts,
    .required "summary" .str,
    .defaulted "penalty_applied" .float (.float 0),
    .defaulted "hard_gate_reasons" (.list .str) (.list []),
    .defaulted "category_details" (.list violationCategoryDetail) (.list [])] (by simp)

/-- The fields of `InterviewEvaluationResponse` that come from the record. -/
def interviewEvaluationFields : List Schema.Field :=
  [.required "intro_section_score" .float,
    .required "intro_section_summary" .str,
    .required "intro_section_evidence" (.list .str),
    .required "skill_scores" (.dict evaluationSkillBreakdown),
    .required "overall_technical_skill_score" .float,
    .required "skill_summary" (.dict .str),
    .required "skill_evidence" (.dict (.list .str)),
    .defaulted "question_evaluations" (.list questionEvaluationBreakdown) (.list []),
    .required "behavioural_cultural_score" .float,
    .required "behavioural_cultural_summary" .str,
    .required "behavioural_cultural_evidence" (.list .str),
    .required "communication_score" .float,
    .required "communication_summary" .str,
    .required "communication_evidence" (.list .str),
    .required "section_communication_scores" (.dict sectionCommunicationBreakdown),
    .required "violation_summary" (.optional violationSummary),
    .required "violation_evidence" (.optional (.list .str)),
    .required "raw_overall_score" .float,
    .required "violation_penalty" .float,
    .required "overall_score" .float,
    .required "hiring_recommendation" .str,
    .required "model_recommendation" .str,
    .required "recommendation_override_reason" (.optional .str),
    .required "overall_summary" .str,
    .required "recommendation_reasoning" .str,
    .required "strengths" (.list .str),
    .required "concerns" (.list .str),
    .required "prompt_version" .str,
    .required "model_name" .str,
    .required "model_provider" .str,
    .required "evaluation_schema_version" .str,
    .required "transcript_hash" .str]

/-- The fields of `RecruiterEvaluationListItem` that come from the record. -/
def recruiterEvaluationFields : List Schema.Field :=
  [.required "overall_score" .float,
    .required "hiring_recommendation" .str,
    .required "recommendation_reasoning" .str,
    .required "overall_summary" .str,
    .required "overall_technical_skill_score" .float,
    .required "behavioural_cultural_score" .float,
    .required "communication_score" .float,
    .required "strengths" (.list .str),
    .required "concerns" (.list .str),
    .required "validated_violation_count" .int,
    .required "skill_scores" (.dict evaluationSkillBreakdown)]

end EvaluationSchemas

namespace EvaluationReport

/-- The columns of the record as the attributes of a row. -/
def attributes (r : EvaluationReport) : Json.Entries :=
  [("intro_section_score", .float r.introSectionScore),
    ("intro_section_summary", .str r.introSectionSummary),
    ("intro_section_evidence", dumpStrs r.introSectionEvidence),
    ("skill_scores", r.skillScores),
    ("overall_technical_skill_score", .float r.overallTechnicalSkillScore),
    ("skill_summary", r.skillSummary),
    ("skill_evidence", r.skillEvidence),
    ("question_evaluations", r.questionEvaluations),
    ("behavioural_cultural_score", .float r.behaviouralCulturalScore),
    ("behavioural_cultural_summary", .str r.behaviouralCulturalSummary),
    ("behavioural_cultural_evidence", dumpStrs r.behaviouralCulturalEvidence),
    ("communication_score", .float r.communicationScore),
    ("communication_summary", .str r.communicationSummary),
    ("communication_evidence", dumpStrs r.communicationEvidence),
    ("section_communication_scores", r.sectionCommunicationScores),
    ("violation_summary", r.violationSummary),
    ("violation_evidence", dumpStrs r.violationEvidence),
    ("raw_overall_score", .float r.rawOverallScore),
    ("violation_penalty", .float r.violationPenalty),
    ("overall_score", .float r.overallScore),
    ("hiring_recommendation", .str r.hiringRecommendation),
    ("model_recommendation", .str r.modelRecommendation),
    ("recommendation_override_reason",
      (r.recommendationOverrideReason.map .str).getD .null),
    ("overall_summary", .str r.overallSummary),
    ("recommendation_reasoning", .str r.recommendationReasoning),
    ("strengths", dumpStrs r.strengths),
    ("concerns", dumpStrs r.concerns),
    ("prompt_version", .str r.promptVersion),
    ("model_name", .str r.modelName),
    ("model_provider", .str r.modelProvider),
    ("evaluation_schema_version", .str r.evaluationSchemaVersion),
    ("transcript_hash", .str r.transcriptHash),
    ("raw_model_output", r.rawModelOutput)]

end EvaluationReport

end IBotCoreApi
