import IBotCoreApi.RecruiterDatabase
import IBotCoreApi.SkillMatching

namespace IBotCoreApi
open Python Transactions

inductive RecruiterEffect where
  | assessmentProcessing (assessmentId : Uuid) (jdText : Option String) (jdFileBytes : List UInt8)
      (jdFilename : Option String) (focusAreas : List FocusAreaOverride)
  | assessmentCancellations (assessmentId : Uuid)
  | invitationEmail (candidateAssessmentId : Uuid) (candidateName recipientEmail : String)
      (assessment : Assessment) (invitationToken : Uuid)
  | resumeFromUrl (candidateAssessmentId : Uuid) (resumeUrl : String)
  | resumeFromFile (candidateAssessmentId : Uuid)
  | decisionEmail (candidateAssessmentId : Uuid) (candidateName recipientEmail : String)
      (assessment : Assessment) (decision : String) (feedback : Option String)
  /-- `write_temporary_resume`. -/
  | temporaryResume (candidateAssessmentId : Uuid) (resumeFileBytes : List UInt8)

structure CSVRowResult where
  row : ℕ
  email : String
  status : String
  reason : Option String

structure BulkUploadResponse where
  uploadId : Uuid
  totalRows : ℕ
  successfulRows : ℕ
  failedRows : ℕ
  rowResults : List CSVRowResult
  overallStatus : String

inductive RecruiterResponse where
  | assessment (assessment : Assessment)
  | upload (response : BulkUploadResponse)
  | enrollment (enrollment : RecruiterEnrollment)
  | enrolled (enrollment : RecruiterEnrollment) (candidate : CandidateProfile)
  | deleted

/-- A read of the enrollments of a candidate, for the assessment they are checked against. -/
structure OverlapCheck where
  candidateId : Uuid
  assessmentId : Uuid
deriving DecidableEq

abbrev RecruiterProgram :=
  Program RecruiterDatabase RecruiterWrite OverlapCheck RecruiterEffect RecruiterException
    RecruiterResponse

namespace RecruiterRequests

/-- `get_assessment_by_id`: fetch an assessment and ensure the recruiter owns it. -/
def getAssessmentById (assessmentId recruiterId : Uuid) (next : Assessment → RecruiterProgram) :
    RecruiterProgram :=
  .select [] (·.assessment? assessmentId) fun
    | none => .raise (.api .assessmentNotFound)
    | some assessment =>
      if assessment.recruiterId ≠ recruiterId then .raise (.api .assessmentAccessDenied)
      else next assessment

def updateStatus (clock : Clock) (assessmentId recruiterId : Uuid) (newStatus : StatusUpdate) :
    RecruiterProgram :=
  getAssessmentById assessmentId recruiterId fun assessment =>
    let save : RecruiterProgram :=
      .write (.updateStatus clock assessmentId newStatus.status) <|
      .finish (.assessment
        ((AssessmentRepository.withStatus clock newStatus.status).set assessment))
    -- the cancellations are enqueued before the row is written
    if assessment.status ≠ .closed ∧ newStatus = .closed then
      .emit (.assessmentCancellations assessmentId) save
    else save

def createAssessment (clock : Clock) (newId recruiterId : Uuid) (request : AssessmentCreateRequest)
    (jdFileBytes : List UInt8) (jdFilename : Option String) : RecruiterProgram :=
  if jdFileBytes.isEmpty && request.jdText.getD "" == "" then
    .raise (.api
      (.assessmentValidation "Either job description text or a PDF file must be provided."))
  else
    let assessment := AssessmentService.newAssessment clock newId recruiterId request jdFilename
    .write (.insertAssessment assessment) <|
    .afterCommit (.assessmentProcessing newId request.jdText jdFileBytes jdFilename
      request.focusAreas) <|
    .finish (.assessment assessment)

def completedEnrollmentStatuses : List CandidateStatus := [.completed, .evaluated]

def windowsOverlap (new existing : Assessment) : Bool :=
  decide (new.windowStart < existing.windowEnd) && decide (existing.windowStart < new.windowEnd)

/-- `get_all_by_candidate_id` with the assessments it loads. -/
def getAllByCandidateId (db : RecruiterDatabase) (candidateId : Uuid) :
    List (RecruiterEnrollment × Option Assessment) :=
  (db.enrollmentsOf candidateId).map fun e => (e, db.assessment? e.assessmentId)

def overlapMessage (existing : Assessment) : String :=
  "Candidate already has an active enrollment in '" ++ existing.title ++ "' (ID: " ++
    existing.id.str ++ ") whose interview window overlaps with the new assessment. " ++
    "The candidate must complete that assessment first."

/-- An unfinished enrollment in an overlapping assessment, with the message that it causes. -/
def overlapReason (newAssessment : Assessment) :
    RecruiterEnrollment × Option Assessment → Option String
  | (_, none) => none
  | (enrollment, some existing) =>
    if windowsOverlap newAssessment existing &&
        !completedEnrollmentStatuses.contains enrollment.status then
      some (overlapMessage existing)
    else none

/-- `_assert_no_window_overlap`: `some` message where it raises. -/
def assertNoWindowOverlap (candidateId : Uuid) (newAssessment : Assessment)
    (next : Option String → RecruiterProgram) : RecruiterProgram :=
  .select [⟨candidateId, newAssessment.id⟩]
    (fun db => (getAllByCandidateId db candidateId).findSome? (overlapReason newAssessment)) next

/-- The row that `CandidateAssessmentRepository.create` inserts. -/
def newEnrollment (clock : Clock) (draws : CandidateAssessmentRepository.EnrollmentDraws)
    (candidateId assessmentId : Uuid) (resumeFilePath resumeParseStatus : String)
    (resumeParsed : Option Json) : RecruiterEnrollment where
  toCandidateAssessment := CandidateAssessmentRepository.newCandidateAssessment clock draws
    candidateId assessmentId resumeFilePath resumeParseStatus resumeParsed
  recruiterFeedback := none
  createdAt := clock.dbNow

/-- `delete_candidate`: the candidate with the enrollments that the cascade loads. -/
def deleteCandidate (candidateId : Uuid) (next : RecruiterProgram) : RecruiterProgram :=
  .select [] (·.enrollmentsOf candidateId) fun enrollments =>
    .statement [] (fun _ =>
      enrollments.map (.deleteEnrollment ·.id) ++ [.deleteCandidate candidateId]) fun _ => next

section Upload

variable [Runtime]

/-- `email.lower().strip()`. -/
def normalizedEmail (email : String) : String := strip (Runtime.lower email)

def getByEmail (db : RecruiterDatabase) (email : String) : Option CandidateProfile :=
  Tables.lookup (·.email) (normalizedEmail email) db.candidates

/-- A row of `csv.DictReader`, without the fields beyond the header. -/
abbrev CsvRow := List (String × Option String)

/-- What `csv.DictReader` makes of the uploaded file: its header, and its rows unless it raises. -/
inductive CsvFile where
  | notUtf8
  | unreadable
  | table (fieldnames : Option (List String)) (rows : Option (List CsvRow))

/-- `REQUIRED_COLUMNS`, sorted. -/
def requiredColumns : List String := ["email", "name", "resume"]

def missingColumns (fieldnames : List String) : List String :=
  let normalizedHeaders := fieldnames.map fun h => Runtime.lower (strip h)
  requiredColumns.filter fun column => !normalizedHeaders.contains column

/-- The rows of the file, or the exception of its first defect. -/
def parseCsv : CsvFile → Except RecruiterException (List CsvRow)
  | .notUtf8 => .error (.csvValidation "CSV file must be UTF-8 encoded.")
  | .unreadable => .error .csvError
  | .table none _ =>
    .error (.csvValidation "CSV file appears to be empty or has no headers.")
  | .table (some fieldnames) rows =>
    let missing := missingColumns fieldnames
    if missing ≠ [] then
      .error (.csvValidation ("CSV is missing required columns: " ++ ", ".intercalate missing ++
        ". Expected: name, email, resume."))
    else
      match rows with
      | none => .error .csvError
      | some [] => .error (.csvValidation "CSV file contains no data rows.")
      | some rows => .ok rows

/-- `{k.strip().lower(): (v or "").strip() for k, v in raw_row.items() if k}`. -/
def normalizeRow (rawRow : CsvRow) : List (String × String) :=
  (rawRow.filter (·.1 != "")).map fun (k, v) => (Runtime.lower (strip k), strip (v.getD ""))

/-- The three columns of a row; of two equal keys the later one counts. -/
structure UploadRow where
  name : String
  email : String
  resume : String

def UploadRow.ofCsv (rawRow : CsvRow) : UploadRow :=
  let row := (normalizeRow rawRow).reverse
  { name := (row.lookup "name").getD ""
    email := (row.lookup "email").getD ""
    resume := (row.lookup "resume").getD "" }

def UploadRow.complete (row : UploadRow) : Bool :=
  row.email != "" && row.name != "" && row.resume != ""

structure RowDraws where
  candidateId : Uuid
  enrollment : CandidateAssessmentRepository.EnrollmentDraws

structure UploadContext where
  clock : Clock
  recruiterId : Uuid
  assessment : Assessment
  filename : String
  uploadId : Uuid

/-- An entry of `processed_ca_records`. -/
structure ProcessedRecord where
  enrollment : RecruiterEnrollment
  name : String
  email : String

structure Upload where
  rowResults : List CSVRowResult
  failureEvents : List EventLog
  processed : List ProcessedRecord
  successfulRows : ℕ
  failedRows : ℕ

def Upload.empty : Upload := ⟨[], [], [], 0, 0⟩

omit [Runtime] in
def Upload.fail (upload : Upload) (context : UploadContext) (rowIdx : ℕ)
    (email reasonCode reason : String) : Upload :=
  { upload with
    rowResults := upload.rowResults ++ [⟨rowIdx, email, "failed", some reason⟩]
    failureEvents := upload.failureEvents ++ [{
      eventName := .csvRowFailed
      sourceService := .coreApi
      correlationId := context.uploadId.str
      candidateAssessmentId := none
      recruiterId := some context.recruiterId
      metadata := [("filename", .str context.filename), ("row_number", .int rowIdx),
        ("email", .str email), ("assessment_id", .str context.assessment.id.str),
        ("reason_code", .str reasonCode)]
      errorMessage := some reason
      durationMs := none }]
    failedRows := upload.failedRows + 1 }

omit [Runtime] in
def Upload.succeed (upload : Upload) (rowIdx : ℕ) (record : ProcessedRecord) : Upload :=
  { upload with
    rowResults := upload.rowResults ++ [⟨rowIdx, record.email, "success", none⟩]
    processed := upload.processed ++ [record]
    successfulRows := upload.successfulRows + 1 }

def enrollRow (context : UploadContext) (rowIdx : ℕ) (row : UploadRow) (draws : RowDraws)
    (upload : Upload) (candidateId : Uuid) (next : Upload → RecruiterProgram) : RecruiterProgram :=
  assertNoWindowOverlap candidateId context.assessment fun
    | some message => next (upload.fail context rowIdx row.email "ROW_VALIDATION_FAILED" message)
    | none =>
      let enrollment := newEnrollment context.clock draws.enrollment candidateId
        context.assessment.id row.resume "PENDING" none
      .write (.insertEnrollment enrollment) <|
      next (upload.succeed rowIdx ⟨enrollment, row.name, row.email⟩)

/-- One row of the file.  A statement that the database refuses ends the whole request: its session
takes no further statement. -/
def uploadRow (context : UploadContext) (rowIdx : ℕ) (row : UploadRow) (draws : RowDraws)
    (upload : Upload) (next : Upload → RecruiterProgram) : RecruiterProgram :=
  if !row.complete then
    next (upload.fail context rowIdx (if row.email = "" then "(empty)" else row.email)
      "MISSING_REQUIRED_FIELDS" "Missing required fields: name, email, or resume.")
  else
    .select [] (getByEmail · row.email) fun
      | none =>
        .write (.insertCandidate {
          id := draws.candidateId
          fullName := row.name
          email := normalizedEmail row.email
          createdBy := context.recruiterId }) <|
        enrollRow context rowIdx row draws upload draws.candidateId next
      | some existing =>
        .select [] (·.enrollmentOf? existing.id context.assessment.id) fun
          | some _ => next (upload.fail context rowIdx row.email "CANDIDATE_ALREADY_REGISTERED"
            "Candidate is already registered for this assessment.")
          | none =>
            if existing.fullName ≠ row.name then
              .write (.renameCandidate existing.id row.name) <|
              enrollRow context rowIdx row draws upload existing.id next
            else enrollRow context rowIdx row draws upload existing.id next

def uploadRows (context : UploadContext) (draws : ℕ → RowDraws) :
    ℕ → List UploadRow → Upload → (Upload → RecruiterProgram) → RecruiterProgram
  | _, [], upload, next => next upload
  | rowIdx, row :: rows, upload, next =>
    uploadRow context rowIdx row (draws rowIdx) upload fun upload =>
      uploadRows context draws (rowIdx + 1) rows upload next

omit [Runtime] in
def callbacks (assessment : Assessment) (processed : List ProcessedRecord) :
    List RecruiterEffect :=
  processed.flatMap fun record =>
    let e := record.enrollment
    .invitationEmail e.id record.name record.email assessment e.invitationToken ::
      if e.resumeFilePath = "" then [] else [.resumeFromUrl e.id e.resumeFilePath]

omit [Runtime] in
/-- `create_many` of the failed rows, and the response. -/
def finishUpload (context : UploadContext) (totalRows : ℕ) (upload : Upload) : RecruiterProgram :=
  .statement [] (fun _ => upload.failureEvents.map .recordEvent) fun _ =>
    (callbacks context.assessment upload.processed).foldr .afterCommit <|
      .finish (.upload {
        uploadId := context.uploadId
        totalRows := totalRows
        successfulRows := upload.successfulRows
        failedRows := upload.failedRows
        rowResults := upload.rowResults
        overallStatus :=
          if upload.failedRows = 0 then "COMPLETED" else "COMPLETED_WITH_ERRORS" })

def bulkUploadFromCsv (clock : Clock) (recruiterId assessmentId : Uuid) (file : CsvFile)
    (filename : String) (uploadId : Uuid) (draws : ℕ → RowDraws) : RecruiterProgram :=
  getAssessmentById assessmentId recruiterId fun assessment =>
    match parseCsv file with
    | .error exception => .raise exception
    | .ok rows =>
      let context : UploadContext := ⟨clock, recruiterId, assessment, filename, uploadId⟩
      uploadRows context draws 1 (rows.map UploadRow.ofCsv) .empty fun upload =>
        finishUpload context rows.length upload

def createSingleCandidate (clock : Clock) (recruiterId : Uuid) (name email : String)
    (assessmentId : Uuid) (resumeFileBytes : List UInt8) (resumeFilename : String)
    (draws : RowDraws) : RecruiterProgram :=
  .select [] (·.assessment? assessmentId) fun matched? =>
    match matched?.filter (·.recruiterId == recruiterId) with
    | none => .raise (.csvValidation
        ("No assessment found with ID '" ++ assessmentId.str ++ "' for your account."))
    | some matchedAssessment =>
      let create : RecruiterProgram :=
        .write (.insertCandidate {
          id := draws.candidateId
          fullName := name
          email := normalizedEmail email
          createdBy := recruiterId }) <|
        assertNoWindowOverlap draws.candidateId matchedAssessment fun
          | some message => .raise (.csvValidation message)
          | none =>
            .select [] (·.enrollmentOf? draws.candidateId assessmentId) fun
              | some _ => .raise .duplicateEnrollment
              | none =>
                let enrollment := newEnrollment clock draws.enrollment draws.candidateId
                  assessmentId resumeFilename "PENDING" none
                .write (.insertEnrollment enrollment) <|
                .emit (.temporaryResume enrollment.id resumeFileBytes) <|
                .afterCommit (.invitationEmail enrollment.id name email matchedAssessment
                  enrollment.invitationToken) <|
                .afterCommit (.resumeFromFile enrollment.id) <|
                .finish (.enrollment enrollment)
      .select [] (getByEmail · email) fun
        | none => create
        | some existing =>
          .select [] (·.enrollmentsOf existing.id) fun existingEnrollments =>
            if !existingEnrollments.isEmpty then
              .raise (.csvValidation ("A candidate with this email already exists. " ++
                "Use Enroll to add them to another assessment."))
            else deleteCandidate existing.id create

end Upload

def findReusableResumeEnrollment (enrollments : List RecruiterEnrollment) :
    Option RecruiterEnrollment :=
  enrollments.find? fun e => e.resumeParseStatus == "COMPLETED" && e.resumeParsed.isSome

/-- The resume columns of a new enrollment: path, parse status and parsed resume. -/
def resumeColumns (uploaded : Option String) (enrollments : List RecruiterEnrollment) :
    String × String × Option Json :=
  match uploaded, findReusableResumeEnrollment enrollments with
  | some filename, _ => (filename, "PENDING", none)
  | none, some reusable => (reusable.resumeFilePath, "COMPLETED", reusable.resumeParsed)
  | none, none =>
    let earlier := enrollments.find? fun e =>
      e.resumeFilePath != "" && e.resumeFilePath != "placeholder_resume.pdf"
    ((earlier.map (·.resumeFilePath)).getD "placeholder_resume.pdf", "PENDING", none)

def enrollExistingCandidate (clock : Clock) (recruiterId candidateId assessmentId : Uuid)
    (resumeFileBytes : Option (List UInt8)) (resumeFilename : Option String)
    (draws : CandidateAssessmentRepository.EnrollmentDraws) : RecruiterProgram :=
  .select [] (·.assessment? assessmentId) fun new? =>
    match new?.filter (·.recruiterId == recruiterId) with
    | none => .raise (.api .assessmentNotFound)
    | some newAssessment =>
      .select [] (·.candidate? candidateId) fun
        | none => .raise .candidateNotFound
        | some candidate =>
          .select [] (·.enrollmentOf? candidateId assessmentId) fun
            | some _ => .raise .duplicateEnrollment
            | none =>
              .select [] (getAllByCandidateId · candidateId) fun allEnrollments =>
                if !allEnrollments.any (fun (_, assessment) =>
                    assessment.any (·.recruiterId == recruiterId)) &&
                    candidate.createdBy != recruiterId then
                  .raise (.api (.candidateAccessDenied
                    "You do not have permission to enroll this candidate."))
                else
                  assertNoWindowOverlap candidateId newAssessment fun
                    | some message => .raise (.csvValidation message)
                    | none =>
                      let bytes := (resumeFileBytes.getD [])
                      let uploaded := resumeFilename.filter fun filename =>
                        !bytes.isEmpty && filename != ""
                      let (path, status, parsed) := resumeColumns uploaded
                        (allEnrollments.map (·.1))
                      let enrollment := newEnrollment clock draws candidateId assessmentId path
                        status parsed
                      let finish : RecruiterProgram := .finish (.enrolled enrollment candidate)
                      .write (.insertEnrollment enrollment) <|
                      .afterCommit (.invitationEmail enrollment.id candidate.fullName
                        candidate.email newAssessment enrollment.invitationToken) <|
                      if uploaded.isSome then
                        .emit (.temporaryResume enrollment.id bytes) <|
                        .afterCommit (.resumeFromFile enrollment.id) finish
                      else finish

/-- The decisions that `RecruiterDecisionRequest` admits. -/
inductive Decision where
  | approved
  | rejected
deriving DecidableEq

def Decision.text : Decision → String
  | .approved => "APPROVED"
  | .rejected => "REJECTED"

/-- `get_by_id` of an enrollment with its candidate and its assessment. -/
def getEnrollmentById (db : RecruiterDatabase) (candidateAssessmentId : Uuid) :
    Option (RecruiterEnrollment × Option Assessment × Option CandidateProfile) :=
  (db.enrollment? candidateAssessmentId).map fun e =>
    (e, db.assessment? e.assessmentId, db.candidate? e.candidateId)

def getOwnedEnrollment (candidateAssessmentId recruiterId : Uuid) (denied : String)
    (next : RecruiterEnrollment → Assessment → Option CandidateProfile → RecruiterProgram) :
    RecruiterProgram :=
  .select [] (getEnrollmentById · candidateAssessmentId) fun
    | none => .raise (.api .candidateRegistrationNotFound)
    | some (_, none, _) => .raise (.api (.python .attributeError))
    | some (enrollment, some assessment, candidate) =>
      if assessment.recruiterId ≠ recruiterId then .raise (.api (.candidateAccessDenied denied))
      else next enrollment assessment candidate

def updateRecruiterDecision (clock : Clock) (candidateAssessmentId recruiterId : Uuid)
    (decision : Decision) (feedback : Option String) : RecruiterProgram :=
  getOwnedEnrollment candidateAssessmentId recruiterId
      "You do not have permission to update this candidate." fun enrollment assessment candidate =>
    let recipientEmail := (candidate.map (·.email)).getD ""
    let candidateName := (candidate.map (·.fullName)).getD ""
    let finish : RecruiterProgram := .finish (.enrollment
      ((RecruiterWrite.decided clock decision.text feedback).set enrollment))
    .write (.decide clock candidateAssessmentId decision.text feedback) <|
    -- the e-mail leaves while the transaction is still open
    if enrollment.recruiterDecision ≠ decision.text ∧ recipientEmail ≠ "" then
      .emit (.decisionEmail enrollment.id candidateName recipientEmail assessment decision.text
        feedback) finish
    else finish

def deleteCandidateFromAssessment (candidateAssessmentId recruiterId : Uuid) : RecruiterProgram :=
  getOwnedEnrollment candidateAssessmentId recruiterId
      "You do not have permission to delete this candidate." fun enrollment _ _ =>
    .write (.deleteEnrollment candidateAssessmentId) <|
    .select [] (·.enrollmentsOf enrollment.candidateId) fun remainingEnrollments =>
      if remainingEnrollments.isEmpty then
        .select [] (·.candidate? enrollment.candidateId) fun
          | none => .finish .deleted
          | some candidate => deleteCandidate candidate.id (.finish .deleted)
      else .finish .deleted

end RecruiterRequests

inductive EnrollmentRequest where
  | bulkUploadFromCsv (clock : Clock) (assessmentId : Uuid) (file : RecruiterRequests.CsvFile)
      (filename : String) (uploadId : Uuid) (draws : ℕ → RecruiterRequests.RowDraws)
  | createSingleCandidate (clock : Clock) (name email : String) (assessmentId : Uuid)
      (resumeFileBytes : List UInt8) (resumeFilename : String) (draws : RecruiterRequests.RowDraws)
  | enrollExistingCandidate (clock : Clock) (candidateId assessmentId : Uuid)
      (resumeFileBytes : Option (List UInt8)) (resumeFilename : Option String)
      (draws : CandidateAssessmentRepository.EnrollmentDraws)

inductive RecruiterRequest where
  | createAssessment (clock : Clock) (newId : Uuid) (request : AssessmentCreateRequest)
      (jdFileBytes : List UInt8) (jdFilename : Option String)
  | updateStatus (clock : Clock) (assessmentId : Uuid) (newStatus : StatusUpdate)
  | enroll (request : EnrollmentRequest)
  | updateRecruiterDecision (clock : Clock) (candidateAssessmentId : Uuid)
      (decision : RecruiterRequests.Decision) (feedback : Option String)
  | deleteCandidateFromAssessment (candidateAssessmentId : Uuid)

open RecruiterRequests

variable [Runtime]

def EnrollmentRequest.program (recruiterId : Uuid) : EnrollmentRequest → RecruiterProgram
  | .bulkUploadFromCsv clock assessmentId file filename uploadId draws =>
    RecruiterRequests.bulkUploadFromCsv clock recruiterId assessmentId file filename uploadId draws
  | .createSingleCandidate clock name email assessmentId resumeFileBytes resumeFilename draws =>
    RecruiterRequests.createSingleCandidate clock recruiterId name email assessmentId
      resumeFileBytes resumeFilename draws
  | .enrollExistingCandidate clock candidateId assessmentId resumeFileBytes resumeFilename draws =>
    RecruiterRequests.enrollExistingCandidate clock recruiterId candidateId assessmentId
      resumeFileBytes resumeFilename draws

def RecruiterRequest.program (recruiterId : Uuid) : RecruiterRequest → RecruiterProgram
  | .createAssessment clock newId request jdFileBytes jdFilename =>
    RecruiterRequests.createAssessment clock newId recruiterId request jdFileBytes jdFilename
  | .updateStatus clock assessmentId newStatus =>
    RecruiterRequests.updateStatus clock assessmentId recruiterId newStatus
  | .enroll request => request.program recruiterId
  | .updateRecruiterDecision clock candidateAssessmentId decision feedback =>
    RecruiterRequests.updateRecruiterDecision clock candidateAssessmentId recruiterId decision
      feedback
  | .deleteCandidateFromAssessment candidateAssessmentId =>
    RecruiterRequests.deleteCandidateFromAssessment candidateAssessmentId recruiterId

end IBotCoreApi
