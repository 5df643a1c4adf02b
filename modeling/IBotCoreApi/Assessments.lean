import IBotCoreApi.Database

namespace IBotCoreApi
open Python

/-- `FocusAreaOverride`, a recruiter's weight for one skill. -/
structure FocusAreaOverride where
  skill : String
  weightOverride : ℚ
  weight_bounds : 0 ≤ weightOverride ∧ weightOverride ≤ 10

def FocusAreaOverride.modelDump (o : FocusAreaOverride) : Json :=
  .dict [("skill", .str o.skill), ("weight_override", .float o.weightOverride)]

/-- `AssessmentCreateRequest` after validation. -/
structure AssessmentCreateRequest where
  title : String
  roleName : String
  jdText : Option String
  interviewDurationMins : ℤ
  windowStart : Time
  windowEnd : Time
  focusAreas : List FocusAreaOverride
  title_length : 2 ≤ title.length ∧ title.length ≤ 200
  roleName_length : 2 ≤ roleName.length ∧ roleName.length ≤ 120
  duration_bounds : 2 ≤ interviewDurationMins ∧ interviewDurationMins ≤ 180
  window_order : windowStart < windowEnd

/-- The statuses that `AssessmentUpdateStatusRequest` admits. -/
inductive StatusUpdate where
  | active
  | closed
deriving DecidableEq

def StatusUpdate.status : StatusUpdate → AssessmentStatus
  | .active => .active
  | .closed => .closed

namespace AssessmentRepository

def createAssessment (db : Database) (assessment : Assessment) :
    Except ApiException (Assessment × Database) :=
  if (db.recruiter? assessment.recruiterId).isNone || (db.assessment? assessment.id).isSome then
    .error .integrityError
  else
    .ok (assessment, { db with assessments := db.assessments ++ [assessment] })

/-- The `SET` of `activate_assessment`: closed or expired work is not reopened. -/
def activated (clock : Clock) (jdText : String) (jdAnalysis interviewPlan : Json) :
    AssessmentUpdate where
  set a := { a with
    jdText := jdText
    jdAnalysis := some jdAnalysis
    interviewPlan := some interviewPlan
    status :=
      if a.status = .closed then .closed
      else if a.windowEnd ≤ clock.dbNow then .closed
      else .active
    updatedAt := clock.dbNow }

def activateAssessment (db : Database) (clock : Clock) (assessmentId : Uuid) (jdText : String)
    (jdAnalysis interviewPlan : Json) : AssessmentStatus × Database :=
  match db.assessment? assessmentId with
  | none => (.closed, db)
  | some a =>
    let u := activated clock jdText jdAnalysis interviewPlan
    ((u.set a).status, db.updateAssessments (·.id == assessmentId) u)

/-- A status that stays as it was is not written, and leaves `updated_at` alone. -/
def withStatus (clock : Clock) (status : AssessmentStatus) : AssessmentUpdate where
  set a := { a with
    status := status
    updatedAt := if a.status = status then a.updatedAt else clock.dbNow }

def closeExpiredAssessments (db : Database) (clock : Clock) : Database :=
  db.updateAssessments (fun a => a.status != .closed && decide (a.windowEnd ≤ clock.dbNow))
    (withStatus clock .closed)

def closeAssessmentOnFailure (db : Database) (clock : Clock) (assessmentId : Uuid) : Database :=
  db.updateAssessments (·.id == assessmentId) (withStatus clock .closed)

def updateStatus (db : Database) (clock : Clock) (assessment : Assessment)
    (status : AssessmentStatus) : Assessment × Database :=
  ((withStatus clock status).set assessment,
    db.updateAssessments (·.id == assessment.id) (withStatus clock status))

end AssessmentRepository

namespace AssessmentService

def getAssessmentById (db : Database) (assessmentId recruiterId : Uuid) :
    Except ApiException Assessment :=
  match db.assessment? assessmentId with
  | none => .error .assessmentNotFound
  | some a => if a.recruiterId = recruiterId then .ok a else .error .assessmentAccessDenied

def updateStatus (db : Database) (clock : Clock) (assessmentId recruiterId : Uuid)
    (newStatus : AssessmentStatus) : Except ApiException (Assessment × Database) := do
  let assessment ← getAssessmentById db assessmentId recruiterId
  return AssessmentRepository.updateStatus db clock assessment newStatus

/-- The row of a new assessment, in `PROCESSING` status. -/
def newAssessment (clock : Clock) (newId recruiterId : Uuid) (request : AssessmentCreateRequest)
    (jdFilename : Option String) : Assessment where
  id := newId
  recruiterId := recruiterId
  title := request.title
  roleName := request.roleName
  jdText := request.jdText.getD ""
  jdFilePath := jdFilename
  jdAnalysis := none
  focusAreas :=
    if request.focusAreas.isEmpty then none
    else some (.list (request.focusAreas.map FocusAreaOverride.modelDump))
  interviewPlan := none
  interviewDurationMins := request.interviewDurationMins
  windowStart := request.windowStart
  windowEnd := request.windowEnd
  status := .processing
  updatedAt := clock.dbNow

def createAssessment (db : Database) (clock : Clock) (newId recruiterId : Uuid)
    (request : AssessmentCreateRequest) (jdFileBytes : List UInt8) (jdFilename : Option String) :
    Except ApiException (Assessment × Database) :=
  if jdFileBytes.isEmpty && request.jdText.getD "" == "" then
    .error (.assessmentValidation "Either job description text or a PDF file must be provided.")
  else
    AssessmentRepository.createAssessment db (newAssessment clock newId recruiterId request jdFilename)

end AssessmentService

namespace CandidateAssessmentRepository

/-- The identifiers that `create` draws. -/
structure EnrollmentDraws where
  id : Uuid
  invitationToken : Uuid

def newCandidateAssessment (clock : Clock) (draws : EnrollmentDraws)
    (candidateId assessmentId : Uuid) (resumeFilePath resumeParseStatus : String)
    (resumeParsed : Option Json) : CandidateAssessment where
  id := draws.id
  candidateId := candidateId
  assessmentId := assessmentId
  resumeFilePath := resumeFilePath
  resumeParsed := resumeParsed
  resumeParseStatus := resumeParseStatus
  invitationToken := draws.invitationToken
  inviteConsumed := false
  inviteConsumedAt := none
  status := .invited
  interviewStartedAt := none
  interviewEndedAt := none
  recruiterDecision := "PENDING"
  updatedAt := clock.dbNow

/-- The two foreign keys, and the unique id, token and pair of candidate and assessment. -/
def canInsert (db : Database) (ca : CandidateAssessment) : Bool :=
  (db.candidate? ca.candidateId).isSome && (db.assessment? ca.assessmentId).isSome &&
    db.candidateAssessments.all fun other =>
      other.id != ca.id && other.invitationToken != ca.invitationToken &&
        !(other.candidateId == ca.candidateId && other.assessmentId == ca.assessmentId)

def create (db : Database) (ca : CandidateAssessment) :
    Except ApiException (CandidateAssessment × Database) :=
  if canInsert db ca then
    .ok (ca, { db with candidateAssessments := db.candidateAssessments ++ [ca] })
  else .error .integrityError

/-- `update_resume_parsing_result`. -/
def resumeParsed (status : String) (parsedData : Json) : CandidateUpdate where
  set ca := { ca with resumeParseStatus := status, resumeParsed := some parsedData }

def updateResumeParsingResult (db : Database) (candidateAssessmentId : Uuid) (status : String)
    (parsedData : Json) : Database :=
  db.updateCandidateAssessments (·.id == candidateAssessmentId) (resumeParsed status parsedData)

/-- `update_recruiter_decision`. -/
def decided (decision : String) : CandidateUpdate where
  set ca := { ca with recruiterDecision := decision }

/-- Delete an enrollment with its session, its evaluation and its notices. -/
def delete (db : Database) (ca : CandidateAssessment) : Database :=
  let gone := db.interviewSessions.filter (·.candidateAssessmentId == ca.id)
  { db with
    candidateAssessments := db.candidateAssessments.filter (·.id != ca.id)
    interviewSessions := db.interviewSessions.filter (·.candidateAssessmentId != ca.id)
    interviewEvaluations := db.interviewEvaluations.filter fun e =>
      !gone.any fun s => s.id == e.sessionId
    notificationLogs := db.notificationLogs.filter (·.candidateAssessmentId != ca.id) }

end CandidateAssessmentRepository

namespace CandidateService

/-- Delete an enrollment, and its candidate when no enrollment remains. -/
def deleteCandidateFromAssessment (db : Database) (candidateAssessmentId recruiterId : Uuid) :
    Except ApiException (Unit × Database) := do
  let some ca := db.candidateAssessment? candidateAssessmentId
    | throw .candidateRegistrationNotFound
  let some assessment := db.assessment? ca.assessmentId | throw .noResultFound
  if assessment.recruiterId ≠ recruiterId then
    throw (.candidateAccessDenied "You do not have permission to delete this candidate.")
  else
    let db := CandidateAssessmentRepository.delete db ca
    return ((), if db.candidateAssessments.any (·.candidateId == ca.candidateId) then db
      else { db with candidates := db.candidates.filter (·.id != ca.candidateId) })

end CandidateService

end IBotCoreApi
