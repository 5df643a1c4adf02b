import IBotCoreApi.FailedRows
import IBotCoreApi.Library.AbortedTransactions

namespace IBotCoreApi
open Python Transactions RecruiterRequests

/-- A row of the file, with the identifiers that it draws and the exceptions by which its statements
fail for reasons outside the tables. -/
structure UploadedRow where
  csv : CsvRow
  draws : RowDraws
  faults : ℕ → Option String

structure UploadedFile where
  fieldnames : List String
  rows : List UploadedRow

def UploadedFile.csv (file : UploadedFile) : CsvFile :=
  .table (some file.fieldnames) (some (file.rows.map (·.csv)))

/-- What happens to a row in the end: it is reported as the code decides, or its work raises an
exception of some type. -/
inductive RowOutcome where
  | reported (report : RowReport)
  | crashed (email exceptionType : String)

def RowOutcome.crashes : RowOutcome → Bool
  | reported _ => false
  | crashed .. => true

/-- A failed row of an exception that the code does not expect. -/
def RecruiterRequests.Upload.failProcessing (upload : Upload) (context : UploadContext)
    (rowIdx : ℕ) (email exceptionType : String) : Upload :=
  let reason := "The row could not be processed because of an internal error."
  { upload with
    rowResults := upload.rowResults ++ [⟨rowIdx, email, "failed", some reason⟩]
    failureEvents := upload.failureEvents ++ [{
      eventName := .csvRowFailed
      sourceService := .coreApi
      correlationId := context.uploadId.str
      candidateAssessmentId := none
      recruiterId := some context.recruiterId
      metadata := [("filename", .str context.filename), ("row_number", .int rowIdx),
        ("email", .str email), ("assessment_id", .str context.assessment.id.str),
        ("reason_code", .str "ROW_PROCESSING_FAILED"), ("exception_type", .str exceptionType)]
      errorMessage := some reason
      durationMs := none }]
    failedRows := upload.failedRows + 1 }

def RowOutcome.onto (context : UploadContext) (rowIdx : ℕ) (upload : Upload) : RowOutcome → Upload
  | reported report => report.onto context rowIdx upload
  | crashed email exceptionType => upload.failProcessing context rowIdx email exceptionType

/-- The tables of the upload; an error is the name of its type. -/
def uploadEngine : Engine RecruiterDatabase RecruiterWrite String where
  apply := RecruiterWrite.apply
  refuses db w := if w.refuses db then some "IntegrityError" else none
  conflicts := RecruiterWrite.conflicts

abbrev UploadProgram :=
  Program RecruiterDatabase RecruiterWrite OverlapCheck RecruiterEffect String

abbrev UploadConnection := Connection RecruiterDatabase RecruiterEffect

inductive UploadException where
  | recruiter (exception : RecruiterException)
  | database (exceptionType : String)
deriving DecidableEq

/-- An upload; `pending` is what every statement raises once one has failed. -/
structure BulkUpload where
  clock : Clock
  recruiterId : Uuid
  assessmentId : Uuid
  file : UploadedFile
  filename : String
  uploadId : Uuid
  pending : String

section Requests

/-- The end of the `try` of a row. -/
def enrollProgram (context : UploadContext) (row : UploadRow) (draws : RowDraws)
    (candidateId : Uuid) : UploadProgram RowReport :=
  .select [⟨candidateId, context.assessment.id⟩]
    (fun db => (getAllByCandidateId db candidateId).findSome? (overlapReason context.assessment)) fun
    | some message => .finish (.failed row.email "ROW_VALIDATION_FAILED" message)
    | none =>
      let enrollment := rowEnrollment context row draws candidateId
      .write (.insertEnrollment enrollment) <|
      .finish (.success ⟨enrollment, row.name, row.email⟩)

variable [Runtime]

/-- The statements of a row; a row with a missing field has none. -/
def rowProgram (context : UploadContext) (row : UploadRow) (draws : RowDraws) :
    UploadProgram RowReport :=
  if !row.complete then
    .finish (.failed (if row.email = "" then "(empty)" else row.email) "MISSING_REQUIRED_FIELDS"
      "Missing required fields: name, email, or resume.")
  else
    .select [] (getByEmail · row.email) fun
      | none =>
        .write (.insertCandidate (newCandidate context row draws)) <|
        enrollProgram context row draws draws.candidateId
      | some existing =>
        .select [] (·.enrollmentOf? existing.id context.assessment.id) fun
          | some _ => .finish (.failed row.email "CANDIDATE_ALREADY_REGISTERED"
            "Candidate is already registered for this assessment.")
          | none =>
            if existing.fullName ≠ row.name then
              .write (.renameCandidate existing.id row.name) <|
              enrollProgram context row draws existing.id
            else enrollProgram context row draws existing.id

/-- The `try` of a row with its `except Exception`.  The connection stays as the failure has left
it. -/
def processRow (context : UploadContext) (pending : String) (row : UploadedRow)
    (c : UploadConnection) : RowOutcome × UploadConnection :=
  let uploaded := UploadRow.ofCsv row.csv
  match (rowProgram context uploaded row.draws).attempt uploadEngine pending row.faults 0 c with
  | (.ok report, c) => (.reported report, c)
  | (.error exceptionType, c) => (.crashed uploaded.email exceptionType, c)

def processRows (context : UploadContext) (pending : String) :
    ℕ → List UploadedRow → Upload → UploadConnection → Upload × UploadConnection
  | _, [], upload, c => (upload, c)
  | rowIdx, row :: rows, upload, c =>
    let processed := processRow context pending row c
    processRows context pending (rowIdx + 1) rows (processed.1.onto context rowIdx upload)
      processed.2

omit [Runtime] in
/-- `EventLogsRepository.create_many`, which executes no statement without records. -/
def createMany {α : Type} (events : List EventLog) (next : UploadProgram α) : UploadProgram α :=
  match events with
  | [] => next
  | events => .statement [] (fun _ => events.map .recordEvent) fun _ => next

omit [Runtime] in
def closeUpload (context : UploadContext) (totalRows : ℕ) (upload : Upload) :
    UploadProgram BulkUploadResponse :=
  createMany upload.failureEvents <|
    (callbacks context.assessment upload.processed).foldr .afterCommit <|
      .finish (upload.response context totalRows)

omit [Runtime] in
/-- `async_session_scope`: what the request commits, or its exception after the rollback. -/
def sessionScope {α : Type} (pending : String)
    (finished : Except String α × UploadConnection) :
    Except UploadException (α × RecruiterDatabase × List RecruiterEffect) :=
  match finished with
  | (.error exceptionType, _) => .error (.database exceptionType)
  | (.ok response, c) =>
    if c.aborted then .error (.database pending) else .ok (response, c.database, c.registered)

namespace BulkUpload

omit [Runtime] in
def context (upload : BulkUpload) (assessment : Assessment) : UploadContext :=
  ⟨upload.clock, upload.recruiterId, assessment, upload.filename, upload.uploadId⟩

/-- `bulk_upload_from_csv` in its transaction: the response, the committed tables and the callbacks,
or the exception of the request. -/
def perform (upload : BulkUpload) (db : RecruiterDatabase) :
    Except UploadException (BulkUploadResponse × RecruiterDatabase × List RecruiterEffect) :=
  match db.assessment? upload.assessmentId with
  | none => .error (.recruiter (.api .assessmentNotFound))
  | some assessment =>
    if assessment.recruiterId ≠ upload.recruiterId then
      .error (.recruiter (.api .assessmentAccessDenied))
    else
      match parseCsv upload.file.csv with
      | .error exception => .error (.recruiter exception)
      | .ok rows =>
        let context := upload.context assessment
        let processed := processRows context upload.pending 1 upload.file.rows .empty
          ⟨db, [], false⟩
        sessionScope upload.pending <|
          (closeUpload context rows.length processed.1).attempt uploadEngine upload.pending
            (fun _ => none) 0 processed.2

end BulkUpload

end Requests

section Programs

variable {context : UploadContext} {row : UploadRow} {draws : RowDraws} {db : RecruiterDatabase}

theorem uploadEngine_accept (db : RecruiterDatabase) (w : RecruiterWrite) :
    (∃ error error', uploadEngine.accept db w = .error error ∧
      recruiterEngine.accept db w = .error error') ∨
      uploadEngine.accept db w = .ok (w.apply db) ∧
        recruiterEngine.accept db w = .ok (w.apply db) := by
  unfold Engine.accept uploadEngine recruiterEngine
  dsimp only
  cases w.refuses db with
  | true => exact .inl ⟨_, _, rfl, rfl⟩
  | false => exact .inr ⟨rfl, rfl⟩

theorem enrollProgram_perform {candidateId : Uuid} {registered : List RecruiterEffect} :
    ((enrollProgram context row draws candidateId).perform uploadEngine db registered).toOption =
      (enrollStep context row draws candidateId db).toOption.map fun outcome =>
        (outcome.1, outcome.2, registered) := by
  unfold enrollProgram enrollStep
  rw [Program.perform_select]
  cases (getAllByCandidateId db candidateId).findSome? (overlapReason context.assessment) with
  | some message => rfl
  | none =>
    dsimp only
    rw [Program.perform_write]
    rcases uploadEngine_accept db
      (.insertEnrollment (rowEnrollment context row draws candidateId)) with
      ⟨_, _, haccept, haccept'⟩ | ⟨haccept, haccept'⟩
    · rw [haccept, haccept']
      rfl
    · rw [haccept, haccept']
      rfl

theorem enrollProgram_calm (candidateId : Uuid) :
    (enrollProgram context row draws candidateId).Calm := by
  refine Program.calm_select fun reason => ?_
  cases reason with
  | some message => trivial
  | none => exact Program.calm_write trivial

variable [Runtime]

/-- The statements of a row do what the row does in a request of its own. -/
theorem rowProgram_perform {registered : List RecruiterEffect} :
    ((rowProgram context row draws).perform uploadEngine db registered).toOption =
      (rowStep context row draws db).toOption.map fun outcome =>
        (outcome.1, outcome.2, registered) := by
  unfold rowProgram rowStep
  split
  · rfl
  · rw [Program.perform_select]
    cases getByEmail db row.email with
    | none =>
      dsimp only
      rw [Program.perform_write]
      rcases uploadEngine_accept db (.insertCandidate (newCandidate context row draws)) with
        ⟨_, _, haccept, haccept'⟩ | ⟨haccept, haccept'⟩
      · rw [haccept, haccept']
        rfl
      · rw [haccept, haccept']
        exact enrollProgram_perform
    | some existing =>
      dsimp only
      rw [Program.perform_select]
      cases db.enrollmentOf? existing.id context.assessment.id with
      | some => rfl
      | none =>
        dsimp only
        split
        · rw [Program.perform_write]
          exact enrollProgram_perform
        · exact enrollProgram_perform

theorem rowProgram_calm : (rowProgram context row draws).Calm := by
  unfold rowProgram
  split
  · trivial
  · refine Program.calm_select fun found => ?_
    cases found with
    | none => exact Program.calm_write (enrollProgram_calm _)
    | some existing =>
      refine Program.calm_select fun registered => ?_
      cases registered with
      | some => trivial
      | none =>
        dsimp only
        split
        · exact Program.calm_write (enrollProgram_calm _)
        · exact enrollProgram_calm _

theorem rowProgram_perform_eq_ok {registered registered' : List RecruiterEffect}
    {report : RowReport} {after : RecruiterDatabase} :
    (rowProgram context row draws).perform uploadEngine db registered =
        .ok (report, after, registered') ↔
      rowStep context row draws db = .ok (report, after) ∧ registered' = registered := by
  have hsame : ((rowProgram context row draws).perform uploadEngine db registered).toOption = _ :=
    rowProgram_perform
  rw [← Outcomes.toOption_eq_some, ← Outcomes.toOption_eq_some, hsame, Option.map_eq_some_iff]
  constructor
  · rintro ⟨outcome, houtcome, heq⟩
    cases heq
    exact ⟨houtcome, rfl⟩
  · rintro ⟨houtcome, rfl⟩
    exact ⟨_, houtcome, rfl⟩

end Programs

section Outcomes

variable [Runtime]

def rowOutcomes (context : UploadContext) (pending : String) :
    List UploadedRow → UploadConnection → List RowOutcome × UploadConnection
  | [], c => ([], c)
  | row :: rows, c =>
    let processed := processRow context pending row c
    let rest := rowOutcomes context pending rows processed.2
    (processed.1 :: rest.1, rest.2)

def RowsUndisturbed (context : UploadContext) : List UploadedRow → RecruiterDatabase → Prop
  | [], _ => True
  | row :: rows, db =>
    (rowProgram context (.ofCsv row.csv) row.draws).Undisturbed uploadEngine row.faults 0 db ∧
      ∀ report after, rowStep context (.ofCsv row.csv) row.draws db = .ok (report, after) →
        RowsUndisturbed context rows after

def collect (context : UploadContext) (rowIdx : ℕ) (upload : Upload)
    (outcomes : List RowOutcome) : Upload :=
  (outcomes.zipIdx rowIdx).foldl (fun upload x => x.1.onto context x.2 upload) upload

/-- What happens to a row in an aborted transaction. -/
def stalled (pending : String) (row : UploadRow) : RowOutcome :=
  if !row.complete then
    .reported (.failed (if row.email = "" then "(empty)" else row.email) "MISSING_REQUIRED_FIELDS"
      "Missing required fields: name, email, or resume.")
  else .crashed row.email pending

variable {context : UploadContext} {pending : String} {row : UploadedRow} {rows : List UploadedRow}
  {db after : RecruiterDatabase} {registered : List RecruiterEffect} {report : RowReport}
  {c : UploadConnection} {upload : Upload} {rowIdx : ℕ}

theorem processRows_eq : processRows context pending rowIdx rows upload c =
    (collect context rowIdx upload (rowOutcomes context pending rows c).1,
      (rowOutcomes context pending rows c).2) := by
  induction rows generalizing rowIdx upload c with
  | nil => rfl
  | cons row rows ih =>
    rw [processRows, ih]
    rfl

theorem processRow_undisturbed (pending : String) (registered : List RecruiterEffect)
    (h : (rowProgram context (.ofCsv row.csv) row.draws).Undisturbed uploadEngine row.faults 0 db) :
    ∃ report after, rowStep context (.ofCsv row.csv) row.draws db = .ok (report, after) ∧
      processRow context pending row ⟨db, registered, false⟩ =
        (.reported report, ⟨after, registered, false⟩) := by
  obtain ⟨⟨report, after, registered'⟩, hrun⟩ := h.perform rowProgram_calm registered
  obtain ⟨hrow, rfl⟩ := rowProgram_perform_eq_ok.mp hrun
  refine ⟨report, after, hrow, ?_⟩
  have hattempt := Program.attempt_of_undisturbed pending h hrun
  unfold processRow
  dsimp only
  rw [hattempt]

/-- A row with a failing statement leaves the transaction aborted. -/
theorem processRow_disturbed (pending : String) (registered : List RecruiterEffect)
    (h : ¬ (rowProgram context (.ofCsv row.csv) row.draws).Undisturbed uploadEngine row.faults 0
      db) :
    ∃ exceptionType c', processRow context pending row ⟨db, registered, false⟩ =
      (.crashed (UploadRow.ofCsv row.csv).email exceptionType, c') ∧ c'.aborted = true := by
  obtain ⟨error, database, registered', hattempt⟩ :=
    Program.attempt_of_disturbed pending registered h
  refine ⟨error, ⟨database, registered', true⟩, ?_, rfl⟩
  unfold processRow
  dsimp only
  rw [hattempt]

theorem processRow_aborted (h : c.aborted = true) :
    processRow context pending row c = (stalled pending (.ofCsv row.csv), c) := by
  unfold processRow rowProgram stalled
  cases hcomplete : (UploadRow.ofCsv row.csv).complete with
  | false => simp [hcomplete, Program.attempt]
  | true => simp [hcomplete, Program.select, Program.attempt, h]

/-- After a failure every complete row fails too. -/
theorem rowOutcomes_aborted (h : c.aborted = true) : rowOutcomes context pending rows c =
    (rows.map fun row => stalled pending (.ofCsv row.csv), c) := by
  induction rows with
  | nil => rfl
  | cons row rows ih =>
    rw [rowOutcomes, processRow_aborted h, ih]
    rfl

omit [Runtime] in
theorem collect_cons (outcome : RowOutcome) (outcomes : List RowOutcome) :
    collect context rowIdx upload (outcome :: outcomes) =
      collect context (rowIdx + 1) (outcome.onto context rowIdx upload) outcomes := rfl

theorem rowOutcomes_append (before later : List UploadedRow) :
    rowOutcomes context pending (before ++ later) c =
      ((rowOutcomes context pending before c).1 ++
          (rowOutcomes context pending later (rowOutcomes context pending before c).2).1,
        (rowOutcomes context pending later (rowOutcomes context pending before c).2).2) := by
  induction before generalizing c with
  | nil => rfl
  | cons row before ih =>
    rw [List.cons_append, rowOutcomes, ih]
    rfl

/-- Undisturbed rows are reported as in a request whose statements end it when they fail. -/
theorem rowOutcomes_undisturbed (pending : String) (registered : List RecruiterEffect)
    {draws : ℕ → RowDraws} (hdraws : ∀ x ∈ rows.zipIdx rowIdx, draws x.2 = x.1.draws)
    (h : RowsUndisturbed context rows db) : ∃ (steps : List RowStep) (last : RecruiterDatabase),
      rowSteps context draws rowIdx (rows.map fun row => .ofCsv row.csv) db = .ok (steps, last) ∧
      rowOutcomes context pending rows ⟨db, registered, false⟩ =
        (steps.map fun step => .reported step.report, ⟨last, registered, false⟩) ∧
      ∀ upload, collect context rowIdx upload (steps.map fun step => .reported step.report) =
        tally context upload steps := by
  induction rows generalizing db rowIdx with
  | nil => exact ⟨[], db, rfl, rfl, fun _ => rfl⟩
  | cons row rows ih =>
    obtain ⟨hrow, hrows⟩ := h
    rw [List.zipIdx_cons, List.forall_mem_cons] at hdraws
    obtain ⟨report, after, hstep, hprocessed⟩ := processRow_undisturbed pending registered hrow
    obtain ⟨steps, last, hsteps, hlater, hcollect⟩ := ih hdraws.2 (hrows report after hstep)
    refine ⟨⟨rowIdx, .ofCsv row.csv, db, report, after⟩ :: steps, last, ?_, ?_, ?_⟩
    · rw [List.map_cons, rowSteps_cons]
      exact ⟨report, after, steps, hdraws.1 ▸ hstep, hsteps, rfl⟩
    · rw [rowOutcomes, hprocessed, hlater]
      rfl
    · intro upload
      rw [List.map_cons, collect_cons, hcollect]
      rfl

/-- A failing statement leaves the transaction aborted at the end of the loop, and its row among the
outcomes. -/
theorem rowOutcomes_disturbed (pending : String) (registered : List RecruiterEffect)
    (h : ¬ RowsUndisturbed context rows db) :
    (rowOutcomes context pending rows ⟨db, registered, false⟩).2.aborted = true ∧
      ∃ email exceptionType, .crashed email exceptionType ∈
        (rowOutcomes context pending rows ⟨db, registered, false⟩).1 := by
  induction rows generalizing db with
  | nil => exact absurd trivial h
  | cons row rows ih =>
    rw [rowOutcomes]
    by_cases hrow : (rowProgram context (.ofCsv row.csv) row.draws).Undisturbed uploadEngine
      row.faults 0 db
    · obtain ⟨report, after, hstep, hprocessed⟩ := processRow_undisturbed pending registered hrow
      have hlater : ¬ RowsUndisturbed context rows after := by
        intro hlater
        refine h ⟨hrow, fun report' after' hstep' => ?_⟩
        cases hstep.symm.trans hstep'
        exact hlater
      obtain ⟨haborted, email, exceptionType, hmem⟩ := ih hlater
      rw [hprocessed]
      exact ⟨haborted, email, exceptionType, List.mem_cons_of_mem _ hmem⟩
    · obtain ⟨exceptionType, c', hprocessed, haborted⟩ := processRow_disturbed pending registered hrow
      rw [hprocessed, rowOutcomes_aborted haborted]
      exact ⟨haborted, _, exceptionType, List.mem_cons_self⟩

theorem rowsUndisturbed_of_rowSteps {draws : ℕ → RowDraws} {steps : List RowStep}
    {last : RecruiterDatabase} (hfaults : ∀ row ∈ rows, ∀ k, row.faults k = none)
    (hdraws : ∀ x ∈ rows.zipIdx rowIdx, draws x.2 = x.1.draws)
    (h : rowSteps context draws rowIdx (rows.map fun row => .ofCsv row.csv) db =
      .ok (steps, last)) : RowsUndisturbed context rows db := by
  induction rows generalizing db rowIdx steps with
  | nil => trivial
  | cons row rows ih =>
    rw [List.zipIdx_cons, List.forall_mem_cons] at hdraws
    rw [List.forall_mem_cons] at hfaults
    rw [List.map_cons, rowSteps_cons] at h
    obtain ⟨report, after, later, hstep, hlater, _⟩ := h
    have hfirst : draws rowIdx = row.draws := hdraws.1
    rw [hfirst] at hstep
    have hrun : (rowProgram context (.ofCsv row.csv) row.draws).perform uploadEngine db [] =
      .ok (report, after, []) := rowProgram_perform_eq_ok.mpr ⟨hstep, rfl⟩
    refine ⟨Program.undisturbed_of_perform hfaults.1 hrun, fun report' after' hstep' => ?_⟩
    cases hstep.symm.trans hstep'
    exact ih hfaults.2 hdraws.2 hlater

omit [Runtime] in
theorem collect_failureEvents {outcomes : List RowOutcome}
    (h : upload.failureEvents ≠ [] ∨
      ∃ email exceptionType, .crashed email exceptionType ∈ outcomes) :
    (collect context rowIdx upload outcomes).failureEvents ≠ [] := by
  induction outcomes generalizing rowIdx upload with
  | nil =>
    rcases h with h | ⟨_, _, h⟩
    · exact h
    · cases h
  | cons outcome outcomes ih =>
    rw [collect_cons]
    apply ih
    have hkept : upload.failureEvents ≠ [] →
        (outcome.onto context rowIdx upload).failureEvents ≠ [] := by
      intro hevents
      cases outcome with
      | reported report =>
        cases report with
        | failed => exact List.append_ne_nil_of_left_ne_nil hevents _
        | success => exact hevents
      | crashed => exact List.append_ne_nil_of_left_ne_nil hevents _
    rcases h with hevents | ⟨email, exceptionType, hmem⟩
    · exact .inl (hkept hevents)
    · rcases List.mem_cons.mp hmem with rfl | hmem
      · exact .inl (List.append_ne_nil_of_right_ne_nil _ (by simp))
      · exact .inr ⟨email, exceptionType, hmem⟩

end Outcomes

section Closing

variable {context : UploadContext} {totalRows : ℕ} {upload : Upload} {pending : String}
  {c : UploadConnection}

theorem closeUpload_attempt (h : c.aborted = false) :
    (closeUpload context totalRows upload).attempt uploadEngine pending (fun _ => none) 0 c =
      (.ok (upload.response context totalRows),
        { c with
          database := { c.database with
            eventLogs := c.database.eventLogs ++ upload.failureEvents }
          registered := c.registered ++ callbacks context.assessment upload.processed }) := by
  have hrefusal : uploadEngine.refusal c.database (upload.failureEvents.map .recordEvent) =
      none := by
    apply Engine.refusal_of_forall
    intro s w hw
    obtain ⟨event, _, rfl⟩ := List.mem_map.mp hw
    rfl
  unfold closeUpload createMany
  cases hevents : upload.failureEvents with
  | nil =>
    dsimp only
    rw [Program.attempt_afterCommits, List.append_nil]
    rfl
  | cons event events =>
    rw [hevents] at hrefusal
    dsimp only
    rw [Program.attempt, if_neg (by simp [h]), Option.none_or, hrefusal]
    dsimp only
    rw [Program.attempt_afterCommits]
    have happly : uploadEngine.applyAll c.database ((event :: events).map .recordEvent) = _ :=
      applyAll_recordEvents (event :: events)
    rw [happly]
    rfl

/-- With an event to insert, an aborted transaction ends the upload. -/
theorem closeUpload_aborted (h : c.aborted = true) (hevents : upload.failureEvents ≠ []) :
    (closeUpload context totalRows upload).attempt uploadEngine pending (fun _ => none) 0 c =
      (.error pending, c) := by
  unfold closeUpload createMany
  cases hfailures : upload.failureEvents with
  | nil => exact absurd hfailures hevents
  | cons event events =>
    dsimp only
    rw [Program.attempt, if_pos h]

end Closing

section Isolation

def others {α : Type} (erring : Finset ℕ) (xs : List α) : List α :=
  ((xs.zipIdx 1).filter fun x => x.2 ∉ erring).map (·.1)

/-- What the response tells about a row, without its number. -/
def CSVRowResult.outcome (result : CSVRowResult) :
    String × String × Option String :=
  (result.email, result.status, result.reason)

namespace BulkUpload

def without (upload : BulkUpload) (erring : Finset ℕ) : BulkUpload :=
  { upload with file := { upload.file with rows := others erring upload.file.rows } }

def draws (upload : BulkUpload) (rowIdx : ℕ) : RowDraws :=
  ((upload.file.rows[rowIdx - 1]?).map (·.draws)).getD ⟨0, ⟨0, 0⟩⟩

structure Accepted [Runtime] (upload : BulkUpload) (db : RecruiterDatabase)
    (assessment : Assessment) : Prop where
  found : db.assessment? upload.assessmentId = some assessment
  owner : assessment.recruiterId = upload.recruiterId
  parsed : parseCsv upload.file.csv = .ok (upload.file.rows.map (·.csv))

variable [Runtime] (upload : BulkUpload) (db : RecruiterDatabase)

def processingFailed (assessment : Assessment) : List ℕ :=
  (((rowOutcomes (upload.context assessment) upload.pending upload.file.rows
    ⟨db, [], false⟩).1.zipIdx 1).filter (·.1.crashes)).map (·.2)

/-- The upload returns, and the other rows fare as in a file without the erring ones: they are
reported alike, and the same enrollments are committed. -/
def Isolated (erring : Finset ℕ) : Prop :=
  ∃ response after registered, upload.perform db = .ok (response, after, registered) ∧
    ((upload.without erring).file.rows ≠ [] → ∃ response' after' registered',
      (upload.without erring).perform db = .ok (response', after', registered') ∧
      others erring (response.rowResults.map (·.outcome)) =
        response'.rowResults.map (·.outcome) ∧
      after.enrollments = after'.enrollments)

variable {upload db} {assessment : Assessment}

omit [Runtime] in
theorem others_empty {α : Type} (xs : List α) : others ∅ xs = xs := by
  simp [others]

theorem perform_accepted (haccepted : upload.Accepted db assessment) :
    upload.perform db =
      sessionScope upload.pending
        ((closeUpload (upload.context assessment) upload.file.rows.length
          (collect (upload.context assessment) 1 .empty
            (rowOutcomes (upload.context assessment) upload.pending upload.file.rows
              ⟨db, [], false⟩).1)).attempt uploadEngine upload.pending (fun _ => none) 0
          (rowOutcomes (upload.context assessment) upload.pending upload.file.rows
            ⟨db, [], false⟩).2) := by
  unfold perform
  rw [haccepted.found]
  dsimp only
  rw [if_neg (not_not.mpr haccepted.owner), haccepted.parsed]
  dsimp only
  rw [processRows_eq, List.length_map]

theorem perform_disturbed (haccepted : upload.Accepted db assessment)
    (h : ¬ RowsUndisturbed (upload.context assessment) upload.file.rows db) :
    upload.perform db = .error (.database upload.pending) := by
  obtain ⟨haborted, hcrashed⟩ :=
    rowOutcomes_disturbed upload.pending [] h
  rw [perform_accepted haccepted,
    closeUpload_aborted haborted (collect_failureEvents (.inr hcrashed))]
  rfl

omit [Runtime] in
theorem draws_eq : ∀ x ∈ upload.file.rows.zipIdx 1, upload.draws x.2 = x.1.draws := by
  intro x hx
  obtain ⟨_, hrow⟩ := List.mk_mem_zipIdx_iff_le_and_getElem?_sub.mp hx
  rw [draws, hrow]
  rfl

theorem perform_undisturbed (haccepted : upload.Accepted db assessment)
    (h : RowsUndisturbed (upload.context assessment) upload.file.rows db) :
    ∃ response after registered, upload.perform db = .ok (response, after, registered) ∧
      (bulkUploadFromCsv upload.clock upload.recruiterId upload.assessmentId upload.file.csv
        upload.filename upload.uploadId upload.draws).perform recruiterEngine db [] =
          .ok (.upload response, after, registered) := by
  obtain ⟨steps, last, hsteps, houtcomes, hcollect⟩ :=
    rowOutcomes_undisturbed upload.pending [] draws_eq h
  rw [perform_accepted haccepted, houtcomes, hcollect]
  dsimp only
  rw [closeUpload_attempt rfl]
  refine ⟨_, _, _, rfl, ?_⟩
  unfold bulkUploadFromCsv getAssessmentById
  rw [Program.perform_select, haccepted.found]
  dsimp only
  rw [if_neg (not_not.mpr haccepted.owner), haccepted.parsed]
  dsimp only
  rw [uploadRows_perform, List.map_map]
  have hrows : rowSteps (upload.context assessment) upload.draws 1
      (upload.file.rows.map (UploadRow.ofCsv ∘ (·.csv))) db = .ok (steps, last) := hsteps
  unfold context at hrows
  rw [hrows]
  change (finishUpload _ _ _).perform recruiterEngine last [] = _
  rw [finishUpload_perform, List.length_map]
  rfl

/-- The upload returns exactly what its request returns on its own, if no statement fails. -/
theorem perform_eq_ok_iff (haccepted : upload.Accepted db assessment)
    {response : BulkUploadResponse} {after : RecruiterDatabase}
    {registered : List RecruiterEffect} :
    upload.perform db = .ok (response, after, registered) ↔
      RowsUndisturbed (upload.context assessment) upload.file.rows db ∧
        (bulkUploadFromCsv upload.clock upload.recruiterId upload.assessmentId upload.file.csv
          upload.filename upload.uploadId upload.draws).perform recruiterEngine db [] =
            .ok (.upload response, after, registered) := by
  by_cases h : RowsUndisturbed (upload.context assessment) upload.file.rows db
  · obtain ⟨response', after', registered', hperform, hrequest⟩ := perform_undisturbed haccepted h
    rw [hperform, hrequest]
    simp [h]
  · rw [perform_disturbed haccepted h]
    exact iff_of_false (by simp) fun hboth => h hboth.1

theorem perform_faultless (haccepted : upload.Accepted db assessment)
    (hfaults : ∀ row ∈ upload.file.rows, ∀ k, row.faults k = none)
    {response : BulkUploadResponse} {after : RecruiterDatabase}
    {registered : List RecruiterEffect} :
    upload.perform db = .ok (response, after, registered) ↔
      (bulkUploadFromCsv upload.clock upload.recruiterId upload.assessmentId upload.file.csv
        upload.filename upload.uploadId upload.draws).perform recruiterEngine db [] =
          .ok (.upload response, after, registered) := by
  rw [perform_eq_ok_iff haccepted, and_iff_right_iff_imp]
  intro hrequest
  obtain ⟨a, rows, steps, last, hfound, _, hparsed, hsteps, _⟩ := bulkUploadFromCsv_returns hrequest
  cases haccepted.found.symm.trans hfound
  cases haccepted.parsed.symm.trans hparsed
  rw [List.map_map] at hsteps
  exact rowsUndisturbed_of_rowSteps hfaults draws_eq hsteps

theorem processingFailed_undisturbed
    (h : RowsUndisturbed (upload.context assessment) upload.file.rows db) :
    upload.processingFailed db assessment = [] := by
  obtain ⟨steps, last, _, houtcomes, _⟩ :=
    rowOutcomes_undisturbed upload.pending [] draws_eq h
  unfold processingFailed
  rw [houtcomes, List.map_eq_nil_iff, List.filter_eq_nil_iff]
  intro x hx
  obtain ⟨step, _, hstep⟩ := List.mem_map.mp (List.fst_mem_of_mem_zipIdx hx)
  simp [← hstep, RowOutcome.crashes]

end BulkUpload

/-- After a failing statement every complete row fails, whatever its own statements would do. -/
theorem rowOutcomes_after_failure [Runtime] {context : UploadContext} {pending : String}
    {before later : List UploadedRow} {db : RecruiterDatabase}
    {registered : List RecruiterEffect} (h : ¬ RowsUndisturbed context before db) :
    (rowOutcomes context pending (before ++ later) ⟨db, registered, false⟩).1 =
      (rowOutcomes context pending before ⟨db, registered, false⟩).1 ++
        later.map fun row => stalled pending (.ofCsv row.csv) := by
  obtain ⟨haborted, _⟩ := rowOutcomes_disturbed pending registered h
  rw [rowOutcomes_append, rowOutcomes_aborted haborted]

/-- For every accepted file and every set of rows that are reported as ROW_PROCESSING_FAILED, the
upload returns and treats the other rows as in a file without these exactly if no statement of a row
fails.  As soon as one fails, every later complete row fails too, the final insert raises and nothing
is committed. -/
theorem bulk_rows_isolated_iff [Runtime] (upload : BulkUpload) (db : RecruiterDatabase)
    (assessment : Assessment) (haccepted : upload.Accepted db assessment) (erring : Finset ℕ)
    (herring : ∀ rowIdx ∈ erring, rowIdx ∈ upload.processingFailed db assessment) :
    (upload.Isolated db erring ↔
      RowsUndisturbed (upload.context assessment) upload.file.rows db) ∧
      (¬ RowsUndisturbed (upload.context assessment) upload.file.rows db →
        upload.perform db = .error (.database upload.pending)) ∧
      ∀ before later, upload.file.rows = before ++ later →
        ¬ RowsUndisturbed (upload.context assessment) before db →
          (rowOutcomes (upload.context assessment) upload.pending upload.file.rows
            ⟨db, [], false⟩).1 =
            (rowOutcomes (upload.context assessment) upload.pending before ⟨db, [], false⟩).1 ++
              later.map fun row => stalled upload.pending (.ofCsv row.csv) := by
  refine ⟨⟨?_, ?_⟩, BulkUpload.perform_disturbed haccepted, fun before later hrows hfails => ?_⟩
  · rintro ⟨response, after, registered, hperform, _⟩
    exact ((BulkUpload.perform_eq_ok_iff haccepted).mp hperform).1
  · intro h
    obtain ⟨response, after, registered, hperform, _⟩ := BulkUpload.perform_undisturbed haccepted h
    -- no row errs, so no row is removed
    rw [BulkUpload.processingFailed_undisturbed h] at herring
    have hnone : erring = ∅ := Finset.eq_empty_of_forall_notMem fun rowIdx hrow =>
      List.not_mem_nil (herring rowIdx hrow)
    subst hnone
    have hsame : upload.without ∅ = upload := by
      unfold BulkUpload.without
      rw [BulkUpload.others_empty]
    refine ⟨response, after, registered, hperform, fun _ => ?_⟩
    rw [hsame, BulkUpload.others_empty]
    exact ⟨response, after, registered, hperform, rfl, rfl⟩
  · rw [hrows]
    exact rowOutcomes_after_failure hfails

end Isolation

section Samples

/-- A file of two new candidates.  The first one's insertion fails, because another upload has
inserted the same e-mail in the meantime. -/
def racedUpload (faults : ℕ → Option String) : BulkUpload where
  clock := ⟨10, 10⟩
  recruiterId := 1
  assessmentId := 10
  file := {
    fieldnames := ["name", "email", "resume"]
    rows := [
      ⟨[("name", some "Bob"), ("email", some "bob@mail.example"), ("resume", some "bob.pdf")],
        ⟨81, ⟨91, 101⟩⟩, faults⟩,
      ⟨[("name", some "Eve"), ("email", some "eve@mail.example"), ("resume", some "eve.pdf")],
        ⟨82, ⟨92, 102⟩⟩, fun _ => none⟩] }
  filename := "candidates.csv"
  uploadId := 70
  pending := "PendingRollbackError"

def emailRace (statement : ℕ) : Option String :=
  if statement = 1 then some "IntegrityError" else none

theorem racedUpload_accepted (faults : ℕ → Option String) :
    let _ : Runtime := .ascii
    (racedUpload faults).Accepted sharedStore.db (openAssessment 10 1 0 100) := by
  intro _
  exact ⟨rfl, rfl, rfl⟩

theorem racedUpload_failed :
    let _ : Runtime := .ascii
    (racedUpload emailRace).processingFailed sharedStore.db (openAssessment 10 1 0 100) = [1, 2] := by
  decide +kernel

theorem racedUpload_disturbed :
    let _ : Runtime := .ascii
    ¬ RowsUndisturbed ((racedUpload emailRace).context (openAssessment 10 1 0 100))
      (racedUpload emailRace).file.rows sharedStore.db := by
  intro _ h
  have hnone : (racedUpload emailRace).processingFailed sharedStore.db _ = [] :=
    BulkUpload.processingFailed_undisturbed h
  rw [racedUpload_failed] at hnone
  cases hnone

/-- The upload ends with the exception of its final insert. -/
theorem bulk_rows_isolated_sample :
    let _ : Runtime := .ascii
    (racedUpload emailRace).perform sharedStore.db = .error (.database "PendingRollbackError") := by
  intro _
  have herring : ∀ rowIdx ∈ ({1} : Finset ℕ),
      rowIdx ∈ (racedUpload emailRace).processingFailed sharedStore.db
        (openAssessment 10 1 0 100) := by
    rw [racedUpload_failed]
    decide
  exact (bulk_rows_isolated_iff (racedUpload emailRace) sharedStore.db (openAssessment 10 1 0 100)
    (racedUpload_accepted emailRace) {1} herring).2.1 racedUpload_disturbed

/-- Without the row that fails, the other candidate is enrolled; with it, the upload does not return,
and the other row fails too. -/
theorem raced_row_not_isolated :
    let _ : Runtime := .ascii
    (racedUpload emailRace).processingFailed sharedStore.db (openAssessment 10 1 0 100) = [1, 2] ∧
      ((((racedUpload emailRace).without {1}).perform sharedStore.db).toOption.map fun result =>
        result.1.rowResults.map (·.outcome)) = some [("eve@mail.example", "success", none)] ∧
      ¬ (racedUpload emailRace).Isolated sharedStore.db {1} := by
  intro runtime
  refine ⟨racedUpload_failed, by decide +kernel, ?_⟩
  rintro ⟨response, after, registered, hperform, _⟩
  have hraises := BulkUpload.perform_disturbed (racedUpload_accepted emailRace) racedUpload_disturbed
  cases hraises.symm.trans hperform

end Samples

end IBotCoreApi
