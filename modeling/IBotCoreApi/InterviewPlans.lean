import IBotCoreApi.Library.KeyedLists
import IBotCoreApi.Library.Pydantic

namespace IBotCoreApi
open Python Pydantic

/-- A `ValueError` with its message. -/
structure ValueError where
  message : String
deriving DecidableEq

inductive InferredDifficulty where
  | juniorLevel
  | midLevel
  | seniorLevel
deriving DecidableEq

namespace InferredDifficulty

def value : InferredDifficulty → String
  | juniorLevel => "junior level"
  | midLevel => "mid-level"
  | seniorLevel => "senior level"

def modelDump (difficulty : InferredDifficulty) : Json := .str difficulty.value

def modelValidate : Validator InferredDifficulty :=
  literal [("junior level", juniorLevel), ("mid-level", midLevel), ("senior level", seniorLevel)]

theorem format : Format modelValidate modelDump fun _ => True where
  accepted _ := trivial
  reads {difficulty} _ := by cases difficulty <;> decide +kernel

end InferredDifficulty

structure SkillPriority where
  skill : String
  priorityScore : ℚ
  reasoning : String
  priority_bounds : 1 ≤ priorityScore ∧ priorityScore ≤ 10
deriving DecidableEq

structure JDAnalysis where
  inferredDifficulty : InferredDifficulty
  skills : List SkillPriority
  behaviouralSignals : List String
deriving DecidableEq

/-- The intro section; its name is `self_intro` and its skill `None`. -/
structure SelfIntroSection where
  allocatedMins : ℚ := 1
deriving DecidableEq

structure TechnicalQuestionBrief where
  expectedSignals : List String
  roleResponsibility : String
  operatingEnvironment : String
  importantTools : List String
  constraints : List String
  seniorityDepth : String
  outOfScopeTopics : List String
deriving DecidableEq

/-- Mutable after its validation: the data carries no proof of it. -/
structure TechnicalInterviewSection where
  sectionName : String
  skill : String
  allocatedMins : ℚ
  expectedSignals : List String
  questionBrief : Option TechnicalQuestionBrief
deriving DecidableEq

/-- The last section; its name is `behavioural_cultural` and its skill `None`. -/
structure BehaviouralCulturalSection where
  allocatedMins : ℚ
  expectedSignals : List String
deriving DecidableEq

inductive InterviewSection where
  | selfIntro (s : SelfIntroSection)
  | technical (s : TechnicalInterviewSection)
  | behaviouralCultural (s : BehaviouralCulturalSection)
deriving DecidableEq

structure InterviewPlan where
  totalMins : ℤ
  inferredDifficulty : InferredDifficulty
  sections : List InterviewSection
deriving DecidableEq

structure JDAnalysisAndInterviewPlan where
  jdAnalysis : JDAnalysis
  interviewPlan : InterviewPlan
deriving DecidableEq

section Dumps

def SkillPriority.modelDump (s : SkillPriority) : Json :=
  .dict [("skill", .str s.skill), ("priority_score", .float s.priorityScore),
    ("reasoning", .str s.reasoning)]

def JDAnalysis.modelDump (a : JDAnalysis) : Json :=
  .dict [("inferred_difficulty", a.inferredDifficulty.modelDump),
    ("skills", .list (a.skills.map SkillPriority.modelDump)),
    ("behavioural_signals", dumpStrs a.behaviouralSignals)]

def SelfIntroSection.modelDump (s : SelfIntroSection) : Json :=
  .dict [("section_name", .str "self_intro"), ("skill", .null),
    ("allocated_mins", .float s.allocatedMins)]

def TechnicalQuestionBrief.modelDump (b : TechnicalQuestionBrief) : Json :=
  .dict [("expected_signals", dumpStrs b.expectedSignals),
    ("role_responsibility", .str b.roleResponsibility),
    ("operating_environment", .str b.operatingEnvironment),
    ("important_tools", dumpStrs b.importantTools), ("constraints", dumpStrs b.constraints),
    ("seniority_depth", .str b.seniorityDepth),
    ("out_of_scope_topics", dumpStrs b.outOfScopeTopics)]

def TechnicalInterviewSection.modelDump (s : TechnicalInterviewSection) : Json :=
  .dict [("section_name", .str s.sectionName), ("skill", .str s.skill),
    ("allocated_mins", .float s.allocatedMins), ("expected_signals", dumpStrs s.expectedSignals),
    ("question_brief", (s.questionBrief.map TechnicalQuestionBrief.modelDump).getD .null)]

def BehaviouralCulturalSection.modelDump (s : BehaviouralCulturalSection) : Json :=
  .dict [("section_name", .str "behavioural_cultural"), ("skill", .null),
    ("allocated_mins", .float s.allocatedMins), ("expected_signals", dumpStrs s.expectedSignals)]

def InterviewSection.modelDump : InterviewSection → Json
  | selfIntro s => s.modelDump
  | technical s => s.modelDump
  | behaviouralCultural s => s.modelDump

def InterviewPlan.modelDump (p : InterviewPlan) : Json :=
  .dict [("total_mins", .int p.totalMins), ("inferred_difficulty", p.inferredDifficulty.modelDump),
    ("sections", .list (p.sections.map InterviewSection.modelDump))]

end Dumps

section Validators

variable [Runtime] [NumberText]

def SkillPriority.modelValidate : Validator SkillPriority
  | .dict d => do
    let skill ← required str d "skill"
    let priorityScore ← required float d "priority_score"
    let reasoning ← required str d "reasoning"
    if h : 1 ≤ priorityScore ∧ priorityScore ≤ 10 then some ⟨skill, priorityScore, reasoning, h⟩
    else none
  | _ => none

def JDAnalysis.modelValidate : Validator JDAnalysis
  | .dict d => do
    let inferredDifficulty ← required InferredDifficulty.modelValidate d "inferred_difficulty"
    let skills ← required (list SkillPriority.modelValidate) d "skills"
    let behaviouralSignals ← defaulted (list str) [] d "behavioural_signals"
    return { inferredDifficulty, skills, behaviouralSignals }
  | _ => none

def SelfIntroSection.modelValidate : Validator SelfIntroSection
  | .dict d => do
    let _ ← defaulted (literal [("self_intro", ())]) () d "section_name"
    let _ ← defaulted null () d "skill"
    let allocatedMins ← defaulted float 1 d "allocated_mins"
    return { allocatedMins }
  | _ => none

omit [Runtime] [NumberText] in
/-- The one section that forbids other keys. -/
def TechnicalQuestionBrief.modelValidate : Validator TechnicalQuestionBrief
  | .dict d => do
    onlyKeys ["expected_signals", "role_responsibility", "operating_environment",
      "important_tools", "constraints", "seniority_depth", "out_of_scope_topics"] d
    let expectedSignals ← required (strsBetween 2 4) d "expected_signals"
    let roleResponsibility ← required (strBetween 1 320) d "role_responsibility"
    let operatingEnvironment ← required (strBetween 1 240) d "operating_environment"
    let importantTools ← defaulted (strsBetween 0 6) [] d "important_tools"
    let constraints ← defaulted (strsBetween 0 6) [] d "constraints"
    let seniorityDepth ← required (strBetween 1 240) d "seniority_depth"
    let outOfScopeTopics ← defaulted (strsBetween 0 6) [] d "out_of_scope_topics"
    return ⟨expectedSignals, roleResponsibility, operatingEnvironment, importantTools, constraints,
      seniorityDepth, outOfScopeTopics⟩
  | _ => none

namespace TechnicalInterviewSection

def reservedNames : List String := ["self_intro", "behavioural_cultural"]

def mirrored (s : TechnicalInterviewSection) : TechnicalInterviewSection :=
  { s with questionBrief := s.questionBrief.map ({ · with expectedSignals := s.expectedSignals }) }

/-- The validator that runs after the fields: it changes the brief and does not check it again. -/
def validateTechnicalSection (s : TechnicalInterviewSection) :
    Except ValueError TechnicalInterviewSection :=
  if s.sectionName ∈ reservedNames then
    .error ⟨"Technical section_name cannot be self_intro or behavioural_cultural."⟩
  else if s.sectionName ≠ s.skill then
    .error ⟨"For technical sections, section_name must match skill."⟩
  else .ok s.mirrored

def modelValidate : Validator TechnicalInterviewSection
  | .dict d => do
    let sectionName ← required str d "section_name"
    let skill ← required str d "skill"
    let allocatedMins ← required (constrained float (0 < ·)) d "allocated_mins"
    let expectedSignals ← defaulted (list str) [] d "expected_signals"
    let questionBrief ←
      defaulted (optional TechnicalQuestionBrief.modelValidate) none d "question_brief"
    (validateTechnicalSection
      { sectionName, skill, allocatedMins, expectedSignals, questionBrief }).toOption
  | _ => none

end TechnicalInterviewSection

def BehaviouralCulturalSection.modelValidate : Validator BehaviouralCulturalSection
  | .dict d => do
    let _ ← defaulted (literal [("behavioural_cultural", ())]) () d "section_name"
    let _ ← defaulted null () d "skill"
    let allocatedMins ← required (constrained float (0 < ·)) d "allocated_mins"
    let expectedSignals ← defaulted (list str) [] d "expected_signals"
    return { allocatedMins, expectedSignals }
  | _ => none

/-- The union of the three sections.  Only an intro and a behavioural section can both accept an
input, one without a `section_name`; they read the same fields, so they are equally exact. -/
def InterviewSection.modelValidate : Validator InterviewSection :=
  smartUnion [
    modelChoice SelfIntroSection.modelValidate .selfIntro
      ["section_name", "skill", "allocated_mins"],
    modelChoice TechnicalInterviewSection.modelValidate .technical
      ["section_name", "skill", "allocated_mins", "expected_signals", "question_brief"],
    modelChoice BehaviouralCulturalSection.modelValidate .behaviouralCultural
      ["section_name", "skill", "allocated_mins", "expected_signals"]]

def InterviewPlan.modelValidate : Validator InterviewPlan
  | .dict d => do
    let totalMins ← required int d "total_mins"
    let inferredDifficulty ← required InferredDifficulty.modelValidate d "inferred_difficulty"
    let sections ← required (list InterviewSection.modelValidate) d "sections"
    return { totalMins, inferredDifficulty, sections }
  | _ => none

namespace JDAnalysisAndInterviewPlan

/-- `{**d, key: v}`. -/
def withItem (d : Json.Entries) (key : String) (v : Json) : Json.Entries :=
  KeyedLists.put (fun entry => entry.1 == key) (key, v) d

def inheritInterviewPlanDifficulty : Json → Json
  | .dict d =>
    match Json.get d "jd_analysis", Json.get d "interview_plan" with
    | .dict jdAnalysis, .dict interviewPlan =>
      match Json.get jdAnalysis "inferred_difficulty" with
      | .null => .dict d
      | inferredDifficulty => .dict (withItem d "interview_plan"
          (.dict (withItem interviewPlan "inferred_difficulty" inferredDifficulty)))
    | _, _ => .dict d
  | data => data

end JDAnalysisAndInterviewPlan

def InterviewPlan.technicalSections (p : InterviewPlan) : List TechnicalInterviewSection :=
  p.sections.filterMap fun
    | .technical s => some s
    | _ => none

namespace JDAnalysisAndInterviewPlan

/-- The plan takes the difficulty of the analysis, and every technical section needs its brief. -/
def syncInterviewPlanDifficulty (combined : JDAnalysisAndInterviewPlan) :
    Except ValueError JDAnalysisAndInterviewPlan :=
  let combined := { combined with
    interviewPlan := { combined.interviewPlan with
      inferredDifficulty := combined.jdAnalysis.inferredDifficulty } }
  let missingBriefs := (combined.interviewPlan.technicalSections.filter
    (·.questionBrief.isNone)).map (·.skill)
  if missingBriefs.isEmpty then .ok combined
  else .error ⟨"Every technical interview section requires question_brief: " ++
    ", ".intercalate missingBriefs⟩

def modelValidate (payload : Json) : Option JDAnalysisAndInterviewPlan :=
  match inheritInterviewPlanDifficulty payload with
  | .dict d => do
    let jdAnalysis ← required JDAnalysis.modelValidate d "jd_analysis"
    let interviewPlan ← required InterviewPlan.modelValidate d "interview_plan"
    (syncInterviewPlanDifficulty { jdAnalysis, interviewPlan }).toOption
  | _ => none

end JDAnalysisAndInterviewPlan

end Validators

end IBotCoreApi
