import IBotCoreApi.Assessments
import IBotCoreApi.Library.Sorting
import IBotCoreApi.Library.Transactions

namespace IBotCoreApi
open Python Transactions

/-- A row of `candidates`. -/
structure CandidateProfile extends Candidate where
  email : String
  createdBy : Uuid

/-- A row of `candidate_assessments`. -/
structure RecruiterEnrollment extends CandidateAssessment where
  recruiterFeedback : Option String
  createdAt : Time

structure RecruiterDatabase where
  recruiters : List Recruiter
  candidates : List CandidateProfile
  assessments : List Assessment
  enrollments : List RecruiterEnrollment
  interviewSessions : List InterviewSession
  interviewEvaluations : List InterviewEvaluation
  notificationLogs : List NotificationLog
  eventLogs : List EventLog

inductive RecruiterException where
  | api (error : ApiException)
  | csvValidation (message : String)
  /-- `csv.Error`. -/
  | csvError
  | candidateNotFound
  | duplicateEnrollment
deriving DecidableEq

namespace RecruiterDatabase

def toDatabase (db : RecruiterDatabase) : Database where
  recruiters := db.recruiters
  candidates := db.candidates.map (·.toCandidate)
  assessments := db.assessments
  candidateAssessments := db.enrollments.map (·.toCandidateAssessment)
  interviewSessions := db.interviewSessions
  interviewEvaluations := db.interviewEvaluations
  notificationLogs := db.notificationLogs
  eventLogs := db.eventLogs

def assessment? (db : RecruiterDatabase) (assessmentId : Uuid) : Option Assessment :=
  Tables.lookup (·.id) assessmentId db.assessments

def candidate? (db : RecruiterDatabase) (candidateId : Uuid) : Option CandidateProfile :=
  Tables.lookup (·.id) candidateId db.candidates

def enrollment? (db : RecruiterDatabase) (enrollmentId : Uuid) : Option RecruiterEnrollment :=
  Tables.lookup (·.id) enrollmentId db.enrollments

/-- `get_by_candidate_and_assessment`. -/
def enrollmentOf? (db : RecruiterDatabase) (candidateId assessmentId : Uuid) :
    Option RecruiterEnrollment :=
  db.enrollments.find? fun e => e.candidateId == candidateId && e.assessmentId == assessmentId

/-- `get_all_by_candidate_id`: the newest enrollment first. -/
def enrollmentsOf (db : RecruiterDatabase) (candidateId : Uuid) : List RecruiterEnrollment :=
  Sorting.sortedDown (·.createdAt) (db.enrollments.filter (·.candidateId == candidateId))

end RecruiterDatabase

def CandidateProfile.keys (c : CandidateProfile) : Uuid × String := (c.id, c.email)

def RecruiterEnrollment.keys (e : RecruiterEnrollment) : Uuid × Uuid × Uuid :=
  (e.id, e.candidateId, e.assessmentId)

inductive RecruiterWrite where
  | insertAssessment (assessment : Assessment)
  | updateStatus (clock : Clock) (assessmentId : Uuid) (status : AssessmentStatus)
  | insertCandidate (candidate : CandidateProfile)
  | renameCandidate (candidateId : Uuid) (fullName : String)
  | deleteCandidate (candidateId : Uuid)
  | insertEnrollment (enrollment : RecruiterEnrollment)
  | decide (clock : Clock) (enrollmentId : Uuid) (decision : String) (feedback : Option String)
  | deleteEnrollment (enrollmentId : Uuid)
  | recordEvent (event : EventLog)

namespace RecruiterWrite

/-- What `update_candidate` stores. -/
def renamed (fullName : String) : Tables.Update CandidateProfile.keys where
  set c := { c with fullName := fullName }

/-- What `update_recruiter_decision` stores. -/
def decided (clock : Clock) (decision : String) (feedback : Option String) :
    Tables.Update RecruiterEnrollment.keys where
  set e := { e with
    recruiterDecision := decision
    recruiterFeedback := feedback
    updatedAt := clock.dbNow }

/-- The rows that go with an enrollment. -/
def deleteWith (db : RecruiterDatabase) (e : RecruiterEnrollment) : RecruiterDatabase :=
  let rest := CandidateAssessmentRepository.delete db.toDatabase e.toCandidateAssessment
  { db with
    enrollments := db.enrollments.filter (·.id != e.id)
    interviewSessions := rest.interviewSessions
    interviewEvaluations := rest.interviewEvaluations
    notificationLogs := rest.notificationLogs }

def apply (db : RecruiterDatabase) : RecruiterWrite → RecruiterDatabase
  | insertAssessment assessment => { db with assessments := db.assessments ++ [assessment] }
  | updateStatus clock assessmentId status => { db with
      assessments := Tables.updateWhere (·.id == assessmentId)
        (AssessmentRepository.withStatus clock status) db.assessments }
  | insertCandidate candidate => { db with candidates := db.candidates ++ [candidate] }
  | renameCandidate candidateId fullName => { db with
      candidates := Tables.updateWhere (·.id == candidateId) (renamed fullName) db.candidates }
  | deleteCandidate candidateId => { db with
      candidates := db.candidates.filter (·.id != candidateId) }
  | insertEnrollment enrollment => { db with enrollments := db.enrollments ++ [enrollment] }
  | decide clock enrollmentId decision feedback => { db with
      enrollments := Tables.updateWhere (·.id == enrollmentId) (decided clock decision feedback)
        db.enrollments }
  | deleteEnrollment enrollmentId =>
    match db.enrollment? enrollmentId with
    | none => db
    | some e => deleteWith db e
  | recordEvent event => { db with eventLogs := db.eventLogs ++ [event] }

/-- Primary and foreign keys, and the unique e-mail, invitation token and pair of candidate and
assessment. -/
def refuses (db : RecruiterDatabase) : RecruiterWrite → Bool
  | insertAssessment assessment =>
    !db.recruiters.any (·.id == assessment.recruiterId) || (db.assessment? assessment.id).isSome
  | insertCandidate candidate =>
    !db.recruiters.any (·.id == candidate.createdBy) ||
      db.candidates.any fun c => c.id == candidate.id || c.email == candidate.email
  | deleteCandidate candidateId => db.enrollments.any (·.candidateId == candidateId)
  | insertEnrollment enrollment =>
    !CandidateAssessmentRepository.canInsert db.toDatabase enrollment.toCandidateAssessment
  | _ => false

/-- Two open transactions may not write one row or one unique key, nor delete a candidate that the
other enrolls. -/
def conflicts : RecruiterWrite → RecruiterWrite → Bool
  | insertAssessment a, insertAssessment a' => a.id == a'.id
  | updateStatus _ assessmentId _, updateStatus _ assessmentId' _ => assessmentId == assessmentId'
  | insertCandidate c, insertCandidate c' => c.id == c'.id || c.email == c'.email
  | renameCandidate candidateId _, renameCandidate candidateId' _
  | renameCandidate candidateId _, deleteCandidate candidateId'
  | deleteCandidate candidateId, renameCandidate candidateId' _
  | deleteCandidate candidateId, deleteCandidate candidateId' => candidateId == candidateId'
  | deleteCandidate candidateId, insertEnrollment e
  | insertEnrollment e, deleteCandidate candidateId => candidateId == e.candidateId
  | insertEnrollment e, insertEnrollment e' =>
    e.id == e'.id || e.invitationToken == e'.invitationToken ||
      (e.candidateId == e'.candidateId && e.assessmentId == e'.assessmentId)
  | decide _ enrollmentId _ _, decide _ enrollmentId' _ _
  | decide _ enrollmentId _ _, deleteEnrollment enrollmentId'
  | deleteEnrollment enrollmentId, decide _ enrollmentId' _ _
  | deleteEnrollment enrollmentId, deleteEnrollment enrollmentId' => enrollmentId == enrollmentId'
  | _, _ => false

end RecruiterWrite

section Deletion

variable {db : RecruiterDatabase} {enrollmentId : Uuid}

theorem apply_deleteEnrollment_none (h : db.enrollment? enrollmentId = none) :
    RecruiterWrite.apply db (.deleteEnrollment enrollmentId) = db := by
  simp only [RecruiterWrite.apply, h]

theorem apply_deleteEnrollment_some {e : RecruiterEnrollment}
    (h : db.enrollment? enrollmentId = some e) :
    RecruiterWrite.apply db (.deleteEnrollment enrollmentId) = RecruiterWrite.deleteWith db e := by
  simp only [RecruiterWrite.apply, h]

end Deletion

def recruiterEngine : Engine RecruiterDatabase RecruiterWrite RecruiterException where
  apply := RecruiterWrite.apply
  refuses db w := if w.refuses db then some (.api .integrityError) else none
  conflicts := RecruiterWrite.conflicts

section Samples

def openAssessment (id recruiterId : Uuid) (windowStart windowEnd : Time) : Assessment where
  id := id
  recruiterId := recruiterId
  title := "Backend"
  roleName := "Engineer"
  jdText := "Python"
  jdFilePath := none
  jdAnalysis := none
  focusAreas := none
  interviewPlan := none
  interviewDurationMins := 30
  windowStart := windowStart
  windowEnd := windowEnd
  status := .active
  updatedAt := 0

/-- A recruiter with two assessments at the same time has created a candidate, who is enrolled with
another recruiter and has entered the interview. -/
def sharedCandidate : RecruiterDatabase where
  recruiters := [⟨1, "Acme"⟩, ⟨2, "Globex"⟩]
  candidates := [⟨⟨30, "Ada Lovelace"⟩, "ada@mail.example", 1⟩]
  assessments := [openAssessment 10 1 0 100, openAssessment 11 1 50 150,
    openAssessment 20 2 200 300]
  enrollments := [{
    id := 40
    candidateId := 30
    assessmentId := 20
    resumeFilePath := "ada.pdf"
    resumeParsed := none
    resumeParseStatus := "PENDING"
    invitationToken := 41
    inviteConsumed := true
    inviteConsumedAt := some 210
    status := .waitingRoom
    interviewStartedAt := none
    interviewEndedAt := none
    recruiterDecision := "PENDING"
    updatedAt := 210
    recruiterFeedback := none
    createdAt := 5 }]
  interviewSessions := [{
    id := 50
    candidateAssessmentId := 40
    transcript := []
    violations := []
    status := .initializing
    totalElapsedSecs := 0
    totalPauseSecs := 0
    sessionToken := some "session-token"
    sessionTokenExpiresAt := some 300
    disconnectCount := 0
    timeoutDisconnectCount := 0
    lastDisconnectedAt := none
    reconnectDeadline := none
    activeConnectionId := none
    lastUpdatedAt := 210 }]
  interviewEvaluations := []
  notificationLogs := []
  eventLogs := []

end Samples

end IBotCoreApi
