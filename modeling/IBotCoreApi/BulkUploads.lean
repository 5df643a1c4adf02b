import IBotCoreApi.Library.Effects
import IBotCoreApi.Library.Outcomes
import IBotCoreApi.RecruiterIsolation

namespace IBotCoreApi
open Python Transactions RecruiterRequests

/-- What the loop collects of a row. -/
inductive RowReport where
  | failed (email reasonCode reason : String)
  | success (record : ProcessedRecord)

namespace RowReport

def onto (context : UploadContext) (rowIdx : ℕ) (upload : Upload) : RowReport → Upload
  | failed email reasonCode reason => upload.fail context rowIdx email reasonCode reason
  | success record => upload.succeed rowIdx record

def created : RowReport → Option ProcessedRecord
  | failed .. => none
  | success record => some record

def result (rowIdx : ℕ) : RowReport → CSVRowResult
  | failed email _ reason => ⟨rowIdx, email, "failed", some reason⟩
  | success record => ⟨rowIdx, record.email, "success", none⟩

end RowReport

/-- A row of the run with the database before and after it. -/
structure RowStep where
  rowIdx : ℕ
  row : UploadRow
  before : RecruiterDatabase
  report : RowReport
  after : RecruiterDatabase

section Rows

variable [Runtime]

def newCandidate (context : UploadContext) (row : UploadRow) (draws : RowDraws) :
    CandidateProfile where
  id := draws.candidateId
  fullName := row.name
  email := normalizedEmail row.email
  createdBy := context.recruiterId

omit [Runtime] in
def rowEnrollment (context : UploadContext) (row : UploadRow) (draws : RowDraws)
    (candidateId : Uuid) : RecruiterEnrollment :=
  newEnrollment context.clock draws.enrollment candidateId context.assessment.id row.resume
    "PENDING" none

omit [Runtime] in
/-- `enrollRow` without the rest of the upload. -/
def enrollStep (context : UploadContext) (row : UploadRow) (draws : RowDraws) (candidateId : Uuid)
    (db : RecruiterDatabase) : Except RecruiterException (RowReport × RecruiterDatabase) :=
  match (getAllByCandidateId db candidateId).findSome? (overlapReason context.assessment) with
  | some message => .ok (.failed row.email "ROW_VALIDATION_FAILED" message, db)
  | none =>
    let enrollment := rowEnrollment context row draws candidateId
    (recruiterEngine.accept db (.insertEnrollment enrollment)).map fun db =>
      (.success ⟨enrollment, row.name, row.email⟩, db)

/-- `uploadRow` without the rest of the upload. -/
def rowStep (context : UploadContext) (row : UploadRow) (draws : RowDraws)
    (db : RecruiterDatabase) : Except RecruiterException (RowReport × RecruiterDatabase) :=
  if !row.complete then
    .ok (.failed (if row.email = "" then "(empty)" else row.email) "MISSING_REQUIRED_FIELDS"
      "Missing required fields: name, email, or resume.", db)
  else
    match getByEmail db row.email with
    | none => do
      let db ← recruiterEngine.accept db (.insertCandidate (newCandidate context row draws))
      enrollStep context row draws draws.candidateId db
    | some existing =>
      match db.enrollmentOf? existing.id context.assessment.id with
      | some _ => .ok (.failed row.email "CANDIDATE_ALREADY_REGISTERED"
          "Candidate is already registered for this assessment.", db)
      | none =>
        if existing.fullName ≠ row.name then do
          let db ← recruiterEngine.accept db (.renameCandidate existing.id row.name)
          enrollStep context row draws existing.id db
        else enrollStep context row draws existing.id db

def rowSteps (context : UploadContext) (draws : ℕ → RowDraws) :
    ℕ → List UploadRow → RecruiterDatabase →
      Except RecruiterException (List RowStep × RecruiterDatabase)
  | _, [], db => .ok ([], db)
  | rowIdx, row :: rows, db => do
    let (report, after) ← rowStep context row (draws rowIdx) db
    let (steps, last) ← rowSteps context draws (rowIdx + 1) rows after
    return (⟨rowIdx, row, db, report, after⟩ :: steps, last)

/-- What the loop has collected after some rows. -/
def tally (context : UploadContext) (upload : Upload) (steps : List RowStep) : Upload :=
  steps.foldl (fun upload step => step.report.onto context step.rowIdx upload) upload

end Rows

section Performs

variable [Runtime] {context : UploadContext} {db : RecruiterDatabase} {rowIdx : ℕ}
  {row : UploadRow} {upload : Upload} {next : Upload → RecruiterProgram}
  {registered : List RecruiterEffect}

omit [Runtime] in
theorem enrollRow_perform {draws : RowDraws} {candidateId : Uuid} :
    (enrollRow context rowIdx row draws upload candidateId next).perform recruiterEngine db
        registered =
      enrollStep context row draws candidateId db >>= fun (report, db) =>
        (next (report.onto context rowIdx upload)).perform recruiterEngine db registered := by
  unfold enrollRow assertNoWindowOverlap enrollStep rowEnrollment
  rw [Program.perform_select]
  cases (getAllByCandidateId db candidateId).findSome? (overlapReason context.assessment) with
  | some message => rfl
  | none =>
    dsimp only
    rw [Program.perform_write]
    cases recruiterEngine.accept db _ with
    | error => rfl
    | ok => rfl

theorem uploadRow_perform {draws : RowDraws} :
    (uploadRow context rowIdx row draws upload next).perform recruiterEngine db registered =
      rowStep context row draws db >>= fun (report, db) =>
        (next (report.onto context rowIdx upload)).perform recruiterEngine db registered := by
  unfold uploadRow rowStep newCandidate
  split
  · rfl
  · rw [Program.perform_select]
    cases getByEmail db row.email with
    | none =>
      simp only [Program.perform_write, enrollRow_perform]
      cases recruiterEngine.accept db _ with
      | error => rfl
      | ok => rfl
    | some existing =>
      dsimp only
      rw [Program.perform_select]
      cases db.enrollmentOf? existing.id context.assessment.id with
      | some => rfl
      | none =>
        dsimp only
        split
        · simp only [Program.perform_write, enrollRow_perform]
          cases recruiterEngine.accept db _ with
          | error => rfl
          | ok => rfl
        · exact enrollRow_perform

theorem uploadRows_perform {draws : ℕ → RowDraws} {rows : List UploadRow} :
    (uploadRows context draws rowIdx rows upload next).perform recruiterEngine db registered =
      rowSteps context draws rowIdx rows db >>= fun (steps, last) =>
        (next (tally context upload steps)).perform recruiterEngine last registered := by
  induction rows generalizing rowIdx db upload with
  | nil => rfl
  | cons row rows ih =>
    rw [uploadRows, uploadRow_perform, rowSteps, bind_assoc]
    congr 1
    funext outcome
    dsimp only
    rw [ih, bind_assoc]
    rfl

end Performs

section Cases

variable [Runtime] {context : UploadContext} {row : UploadRow} {draws : RowDraws}
  {db db' : RecruiterDatabase} {candidateId : Uuid} {report : RowReport}

/-- How a row comes by its candidate. -/
inductive RowCandidate (context : UploadContext) (row : UploadRow) (draws : RowDraws)
    (db : RecruiterDatabase) : Uuid → RecruiterDatabase → Prop
  | created (hnone : getByEmail db row.email = none)
      (haccepted : recruiterEngine.refuses db
        (.insertCandidate (newCandidate context row draws)) = none) :
      RowCandidate context row draws db draws.candidateId
        (RecruiterWrite.apply db (.insertCandidate (newCandidate context row draws)))
  | renamed {c : CandidateProfile} (hfound : getByEmail db row.email = some c)
      (hnone : db.enrollmentOf? c.id context.assessment.id = none) (hname : c.fullName ≠ row.name) :
      RowCandidate context row draws db c.id
        (RecruiterWrite.apply db (.renameCandidate c.id row.name))
  | kept {c : CandidateProfile} (hfound : getByEmail db row.email = some c)
      (hnone : db.enrollmentOf? c.id context.assessment.id = none) (hname : c.fullName = row.name) :
      RowCandidate context row draws db c.id db

omit [Runtime] in
theorem enrollStep_cases (h : enrollStep context row draws candidateId db = .ok (report, db')) :
    (db.Overlaps context.assessment candidateId ∧ report.created = none ∧ db' = db) ∨
      (¬ db.Overlaps context.assessment candidateId ∧
        recruiterEngine.refuses db
          (.insertEnrollment (rowEnrollment context row draws candidateId)) = none ∧
        report = .success ⟨rowEnrollment context row draws candidateId, row.name, row.email⟩ ∧
        db' = RecruiterWrite.apply db
          (.insertEnrollment (rowEnrollment context row draws candidateId))) := by
  unfold enrollStep at h
  unfold RecruiterDatabase.Overlaps
  cases hreason : (getAllByCandidateId db candidateId).findSome?
      (overlapReason context.assessment) with
  | some message =>
    rw [hreason] at h
    cases h
    exact .inl ⟨Option.some_ne_none message, rfl, rfl⟩
  | none =>
    rw [hreason] at h
    obtain ⟨inserted, haccepted, h⟩ := Outcomes.map_eq_ok.mp h
    obtain ⟨hrefuses, rfl⟩ := Engine.accept_eq_ok.mp haccepted
    cases h
    exact .inr ⟨not_not.mpr rfl, hrefuses, rfl, rfl⟩

theorem rowStep_cases (h : rowStep context row draws db = .ok (report, db')) :
    (report.created = none ∧ db' = db ∧ (row.complete → ∃ c,
        getByEmail db row.email = some c ∧ db.enrollmentOf? c.id context.assessment.id ≠ none)) ∨
      (row.complete ∧ ∃ candidateId named, RowCandidate context row draws db candidateId named ∧
        enrollStep context row draws candidateId named = .ok (report, db')) := by
  unfold rowStep at h
  split at h
  · rename_i hincomplete
    cases h
    refine .inl ⟨rfl, rfl, fun hcomplete => ?_⟩
    simp [hcomplete] at hincomplete
  · rename_i hcomplete
    replace hcomplete : row.complete := by simpa using hcomplete
    cases hfound : getByEmail db row.email with
    | none =>
      rw [hfound] at h
      obtain ⟨hrefuses, h⟩ := Engine.accept_bind_eq_ok.mp h
      exact .inr ⟨hcomplete, _, _, .created hfound hrefuses, h⟩
    | some c =>
      rw [hfound] at h
      dsimp only at h
      cases hregistered : db.enrollmentOf? c.id context.assessment.id with
      | some e =>
        rw [hregistered] at h
        cases h
        exact .inl ⟨rfl, rfl, fun _ => ⟨c, rfl, by simp [hregistered]⟩⟩
      | none =>
        rw [hregistered] at h
        dsimp only at h
        split at h
        · rename_i hname
          obtain ⟨_, h⟩ := Engine.accept_bind_eq_ok.mp h
          exact .inr ⟨hcomplete, _, _, .renamed hfound hregistered hname, h⟩
        · rename_i hname
          exact .inr ⟨hcomplete, _, _, .kept hfound hregistered (not_not.mp hname), h⟩

end Cases

namespace RecruiterDatabase

def Registered (db : RecruiterDatabase) (email : String) (assessmentId : Uuid) : Prop :=
  ∃ c ∈ db.candidates, c.email = email ∧
    ∃ e ∈ db.enrollments, e.candidateId = c.id ∧ e.assessmentId = assessmentId

/-- What the rows of an upload may do to the tables. -/
structure Grows (db db' : RecruiterDatabase) : Prop where
  keyed : db.Keyed → db'.Keyed
  candidates : db.candidates.map (·.keys) <+: db'.candidates.map (·.keys)
  enrollments : db.enrollments <+: db'.enrollments
  assessments : db'.assessments = db.assessments
  eventLogs : db'.eventLogs = db.eventLogs

namespace Grows

variable {db db' db'' : RecruiterDatabase}

theorem refl (db : RecruiterDatabase) : db.Grows db where
  keyed := id
  candidates := List.prefix_refl _
  enrollments := List.prefix_refl _
  assessments := rfl
  eventLogs := rfl

theorem trans (h : db.Grows db') (h' : db'.Grows db'') : db.Grows db'' where
  keyed hdb := h'.keyed (h.keyed hdb)
  candidates := h.candidates.trans h'.candidates
  enrollments := h.enrollments.trans h'.enrollments
  assessments := h'.assessments.trans h.assessments
  eventLogs := h'.eventLogs.trans h.eventLogs

theorem candidate (h : db.Grows db') {c : CandidateProfile} (hc : c ∈ db.candidates) :
    ∃ c' ∈ db'.candidates, c'.id = c.id ∧ c'.email = c.email := by
  have hkeys : c.keys ∈ db'.candidates.map (·.keys) :=
    h.candidates.subset (List.mem_map_of_mem hc)
  obtain ⟨c', hc', heq⟩ := List.mem_map.mp hkeys
  exact ⟨c', hc', Prod.mk.inj heq⟩

theorem registered (h : db.Grows db') {email : String} {assessmentId : Uuid}
    (hregistered : db.Registered email assessmentId) : db'.Registered email assessmentId := by
  obtain ⟨c, hc, hemail, e, he, hcandidate, hassessment⟩ := hregistered
  obtain ⟨c', hc', hid, hemail'⟩ := h.candidate hc
  exact ⟨c', hc', hemail'.trans hemail, e, h.enrollments.subset he, hcandidate.trans hid.symm,
    hassessment⟩

theorem insertCandidate {c : CandidateProfile}
    (hw : recruiterEngine.refuses db (.insertCandidate c) = none) :
    db.Grows (RecruiterWrite.apply db (.insertCandidate c)) where
  keyed hdb := hdb.apply hw
  candidates := by
    change _ <+: (db.candidates ++ [c]).map (·.keys)
    rw [List.map_append]
    exact List.prefix_append _ _
  enrollments := List.prefix_refl _
  assessments := rfl
  eventLogs := rfl

theorem renameCandidate (candidateId : Uuid) (fullName : String) :
    db.Grows (RecruiterWrite.apply db (.renameCandidate candidateId fullName)) where
  keyed hdb := hdb.renameCandidate candidateId fullName
  candidates := by
    change _ <+: (Tables.updateWhere _ (RecruiterWrite.renamed fullName) _).map CandidateProfile.keys
    rw [Tables.map_updateWhere]
  enrollments := List.prefix_refl _
  assessments := rfl
  eventLogs := rfl

theorem insertEnrollment {e : RecruiterEnrollment}
    (hw : recruiterEngine.refuses db (.insertEnrollment e) = none) :
    db.Grows (RecruiterWrite.apply db (.insertEnrollment e)) where
  keyed hdb := hdb.apply hw
  candidates := List.prefix_refl _
  enrollments := List.prefix_append _ _
  assessments := rfl
  eventLogs := rfl

end Grows

end RecruiterDatabase

/-- What a row owes to the tables and to the recruiter. -/
structure RowAccount [Runtime] (context : UploadContext) (step : RowStep) : Prop where
  grows : step.before.Grows step.after
  enrollments : step.after.enrollments =
    step.before.enrollments ++ (step.report.created.map (·.enrollment)).toList
  email : ∀ record ∈ step.report.created, record.email = step.row.email
  resume : ∀ record ∈ step.report.created, record.enrollment.resumeFilePath ≠ ""
  assessment : ∀ record ∈ step.report.created,
    record.enrollment.assessmentId = context.assessment.id
  candidate : ∀ record ∈ step.report.created, ∃ c ∈ step.after.candidates,
    c.id = record.enrollment.candidateId ∧ c.email = normalizedEmail step.row.email
  fresh : ∀ record ∈ step.report.created,
    ¬ step.before.Registered (normalizedEmail step.row.email) context.assessment.id

namespace RowAccount

variable [Runtime] {context : UploadContext} {step : RowStep}

theorem registers (h : RowAccount context step) {record : ProcessedRecord}
    (hrecord : record ∈ step.report.created) :
    step.after.Registered (normalizedEmail step.row.email) context.assessment.id := by
  obtain ⟨c, hc, hid, hemail⟩ := h.candidate record hrecord
  refine ⟨c, hc, hemail, record.enrollment, ?_, hid.symm, h.assessment record hrecord⟩
  rw [h.enrollments, Option.mem_def.mp hrecord]
  exact List.mem_append_right _ (List.mem_singleton_self _)

end RowAccount

section RowAccounts

variable [Runtime] {context : UploadContext} {row : UploadRow} {draws : RowDraws}
  {db named : RecruiterDatabase} {candidateId : Uuid}

open RecruiterDatabase

theorem RowCandidate.grows (h : RowCandidate context row draws db candidateId named) :
    db.Grows named := by
  cases h with
  | created _ haccepted => exact .insertCandidate haccepted
  | renamed => exact .renameCandidate _ _
  | kept => exact .refl db

theorem RowCandidate.enrollments (h : RowCandidate context row draws db candidateId named) :
    named.enrollments = db.enrollments := by
  cases h with
  | created | renamed | kept => rfl

theorem not_registered_of_found (h : db.Keyed) {email : String} {c : CandidateProfile}
    {assessmentId : Uuid} (hfound : getByEmail db email = some c)
    (hnone : db.enrollmentOf? c.id assessmentId = none) :
    ¬ db.Registered (normalizedEmail email) assessmentId := by
  rintro ⟨c', hc', hemail, e, he, hcandidate, hassessment⟩
  obtain ⟨hc, hkey⟩ := (getByEmail_eq_some_iff h).mp hfound
  have heq : c' = c := List.inj_on_of_nodup_map h.emails hc' hc (hemail.trans hkey.symm)
  subst heq
  exact enrollmentOf?_eq_none.mp hnone e he hcandidate hassessment

theorem RowCandidate.fresh (h : RowCandidate context row draws db candidateId named)
    (hdb : db.Keyed) : ¬ db.Registered (normalizedEmail row.email) context.assessment.id := by
  cases h with
  | created hnone =>
    rintro ⟨c, hc, hemail, _⟩
    exact Tables.key_ne_of_lookup_eq_none hnone hc hemail
  | renamed hfound hnone | kept hfound hnone => exact not_registered_of_found hdb hfound hnone

theorem RowCandidate.candidate (h : RowCandidate context row draws db candidateId named)
    (hdb : db.Keyed) :
    ∃ c ∈ named.candidates, c.id = candidateId ∧ c.email = normalizedEmail row.email := by
  have hfound : ∀ c, getByEmail db row.email = some c → ∃ c' ∈ named.candidates,
      c'.id = c.id ∧ c'.email = normalizedEmail row.email := by
    intro c hc
    obtain ⟨hmem, hemail⟩ := (getByEmail_eq_some_iff hdb).mp hc
    obtain ⟨c', hc', hid, hemail'⟩ := h.grows.candidate hmem
    exact ⟨c', hc', hid, hemail'.trans hemail⟩
  cases h with
  | created =>
    exact ⟨newCandidate context row draws, List.mem_append_right _ (List.mem_singleton_self _),
      rfl, rfl⟩
  | renamed hc => exact hfound _ hc
  | kept hc => exact hfound _ hc

theorem rowStep_account (hdb : db.Keyed) (rowIdx : ℕ) {report : RowReport}
    {after : RecruiterDatabase} (h : rowStep context row draws db = .ok (report, after)) :
    RowAccount context ⟨rowIdx, row, db, report, after⟩ := by
  have hfailed : ∀ {db'}, report.created = none → db.Grows db' →
      db'.enrollments = db.enrollments → RowAccount context ⟨rowIdx, row, db, report, db'⟩ := by
    intro db' hnone hgrows henrollments
    constructor <;> simp_all
  rcases rowStep_cases h with ⟨hnone, rfl, _⟩ | ⟨hcomplete, candidateId, named, hcandidate, henroll⟩
  · exact hfailed hnone (.refl _) rfl
  · rcases enrollStep_cases henroll with ⟨_, hnone, rfl⟩ | ⟨_, haccepted, rfl, rfl⟩
    · exact hfailed hnone hcandidate.grows hcandidate.enrollments
    · have hresume : row.resume ≠ "" := by
        simp only [UploadRow.complete, Bool.and_eq_true, bne_iff_ne] at hcomplete
        exact hcomplete.2
      constructor
      · exact hcandidate.grows.trans (.insertEnrollment haccepted)
      · change named.enrollments ++ _ = _
        rw [hcandidate.enrollments]
        rfl
      all_goals
        intro record hrecord
        cases hrecord
      · rfl
      · exact hresume
      · rfl
      · exact hcandidate.candidate hdb
      · exact hcandidate.fresh hdb

end RowAccounts

section Runs

variable [Runtime] {context : UploadContext} {draws : ℕ → RowDraws} {rowIdx : ℕ}
  {row : UploadRow} {rows : List UploadRow} {db last : RecruiterDatabase} {steps : List RowStep}

theorem rowSteps_nil : rowSteps context draws rowIdx [] db = .ok (steps, last) ↔
    steps = [] ∧ last = db := by
  simp [rowSteps, eq_comm]

theorem rowSteps_cons :
    rowSteps context draws rowIdx (row :: rows) db = .ok (steps, last) ↔
      ∃ report after later, rowStep context row (draws rowIdx) db = .ok (report, after) ∧
        rowSteps context draws (rowIdx + 1) rows after = .ok (later, last) ∧
        steps = ⟨rowIdx, row, db, report, after⟩ :: later := by
  rw [rowSteps, Outcomes.bind_eq_ok]
  constructor
  · rintro ⟨⟨report, after⟩, hrow, h⟩
    obtain ⟨⟨later, last'⟩, hrows, h⟩ := Outcomes.bind_eq_ok.mp h
    cases h
    exact ⟨report, after, later, hrow, hrows, rfl⟩
  · rintro ⟨report, after, later, hrow, hrows, rfl⟩
    exact ⟨(report, after), hrow, Outcomes.bind_eq_ok.mpr ⟨(later, last), hrows, rfl⟩⟩

theorem rowSteps_rows (h : rowSteps context draws rowIdx rows db = .ok (steps, last)) :
    steps.map (·.row) = rows ∧ steps.map (·.rowIdx) = List.range' rowIdx rows.length := by
  induction rows generalizing rowIdx db steps with
  | nil =>
    obtain ⟨rfl, _⟩ := rowSteps_nil.mp h
    exact ⟨rfl, rfl⟩
  | cons row rows ih =>
    obtain ⟨report, after, later, _, hrows, rfl⟩ := rowSteps_cons.mp h
    obtain ⟨hlater, hnumbers⟩ := ih hrows
    constructor
    · rw [List.map_cons, hlater]
    · rw [List.map_cons, hnumbers, List.length_cons, List.range'_succ]

/-- The rows of a run keep their accounts, between the databases before and after it. -/
structure StepsAccount (context : UploadContext) (db last : RecruiterDatabase)
    (steps : List RowStep) : Prop where
  grows : db.Grows last
  reached : ∀ step ∈ steps, db.Grows step.before
  accounts : ∀ step ∈ steps, RowAccount context step
  enrollments : last.enrollments =
    db.enrollments ++ (steps.filterMap (·.report.created)).map (·.enrollment)
  distinct : steps.Pairwise fun step later => step.report.created.isSome →
    later.report.created.isSome → normalizedEmail step.row.email ≠ normalizedEmail later.row.email

theorem rowSteps_account (h : rowSteps context draws rowIdx rows db = .ok (steps, last))
    (hdb : db.Keyed) : StepsAccount context db last steps := by
  induction rows generalizing rowIdx db steps with
  | nil =>
    obtain ⟨rfl, rfl⟩ := rowSteps_nil.mp h
    constructor <;> simp [RecruiterDatabase.Grows.refl]
  | cons row rows ih =>
    obtain ⟨report, after, later, hrow, hrows, rfl⟩ := rowSteps_cons.mp h
    have hfirst := rowStep_account hdb rowIdx hrow
    have hlater := ih hrows (hfirst.grows.keyed hdb)
    constructor
    · exact hfirst.grows.trans hlater.grows
    · refine List.forall_mem_cons.mpr ⟨.refl db, ?_⟩
      intro step hstep
      exact hfirst.grows.trans (hlater.reached step hstep)
    · exact List.forall_mem_cons.mpr ⟨hfirst, hlater.accounts⟩
    · have henrollments := hfirst.enrollments
      rw [hlater.enrollments, henrollments, List.append_assoc, List.filterMap_cons]
      cases report.created <;> rfl
    · refine List.pairwise_cons.mpr ⟨?_, hlater.distinct⟩
      intro step hstep hcreated hcreated' hemail
      obtain ⟨record, hrecord⟩ := Option.isSome_iff_exists.mp hcreated
      obtain ⟨record', hrecord'⟩ := Option.isSome_iff_exists.mp hcreated'
      -- the first row has registered the candidate whom the later one finds unregistered
      have hregistered := (hlater.reached step hstep).registered (hfirst.registers hrecord)
      rw [hemail] at hregistered
      exact (hlater.accounts step hstep).fresh record' hrecord' hregistered

end Runs

section Tally

variable {context : UploadContext} {upload : Upload} {steps : List RowStep}

structure RecruiterRequests.Upload.Balanced (upload : Upload) : Prop where
  successes : upload.successfulRows = upload.processed.length
  failures : upload.failedRows = upload.failureEvents.length
  results : upload.rowResults.length = upload.successfulRows + upload.failedRows
  events : ∀ event ∈ upload.failureEvents, event.eventName = .csvRowFailed

theorem RowReport.onto_balanced (h : upload.Balanced) (rowIdx : ℕ) (report : RowReport) :
    (report.onto context rowIdx upload).Balanced := by
  obtain ⟨hsuccesses, hfailures, hresults, hevents⟩ := h
  cases report with
  | failed email reasonCode reason =>
    constructor
    · exact hsuccesses
    · simp [onto, Upload.fail, hfailures]
    · simp only [onto, Upload.fail, List.length_append, List.length_singleton]
      omega
    · intro event hevent
      rcases List.mem_append.mp hevent with hold | hnew
      · exact hevents event hold
      · rw [List.mem_singleton.mp hnew]
  | success record =>
    constructor
    · simp [onto, Upload.succeed, hsuccesses]
    · exact hfailures
    · simp only [onto, Upload.succeed, List.length_append, List.length_singleton]
      omega
    · exact hevents

theorem tally_balanced (h : upload.Balanced) : (tally context upload steps).Balanced := by
  induction steps generalizing upload with
  | nil => exact h
  | cons step steps ih => exact ih (RowReport.onto_balanced h step.rowIdx step.report)

theorem tally_rowResults : (tally context upload steps).rowResults =
    upload.rowResults ++ steps.map fun step => step.report.result step.rowIdx := by
  induction steps generalizing upload with
  | nil => exact (List.append_nil _).symm
  | cons step steps ih =>
    have hstep : (step.report.onto context step.rowIdx upload).rowResults =
        upload.rowResults ++ [step.report.result step.rowIdx] := by
      cases step.report <;> rfl
    rw [tally, List.foldl_cons, ← tally, ih, hstep, List.append_assoc]
    rfl

theorem tally_processed : (tally context upload steps).processed =
    upload.processed ++ steps.filterMap (·.report.created) := by
  induction steps generalizing upload with
  | nil => exact (List.append_nil _).symm
  | cons step steps ih =>
    have hstep : (step.report.onto context step.rowIdx upload).processed =
        upload.processed ++ step.report.created.toList := by
      cases step.report with
      | failed => exact (List.append_nil _).symm
      | success => rfl
    rw [tally, List.foldl_cons, ← tally, ih, hstep, List.append_assoc, List.filterMap_cons]
    cases step.report.created <;> rfl

end Tally

section Finish

variable {context : UploadContext} {db : RecruiterDatabase}

/-- The response of `finishUpload`. -/
def RecruiterRequests.Upload.response (upload : Upload) (context : UploadContext) (totalRows : ℕ) :
    BulkUploadResponse where
  uploadId := context.uploadId
  totalRows := totalRows
  successfulRows := upload.successfulRows
  failedRows := upload.failedRows
  rowResults := upload.rowResults
  overallStatus := if upload.failedRows = 0 then "COMPLETED" else "COMPLETED_WITH_ERRORS"

theorem refusal_recordEvents (events : List EventLog) :
    recruiterEngine.refusal db (events.map .recordEvent) = none := by
  apply Engine.refusal_of_forall
  intro s w hw
  obtain ⟨event, _, rfl⟩ := List.mem_map.mp hw
  rfl

theorem applyAll_recordEvents (events : List EventLog) :
    recruiterEngine.applyAll db (events.map .recordEvent) =
      { db with eventLogs := db.eventLogs ++ events } := by
  induction events generalizing db with
  | nil =>
    rw [List.append_nil]
    rfl
  | cons event events ih =>
    rw [List.map_cons, Engine.applyAll_cons, ih, List.append_cons db.eventLogs]
    rfl

theorem finishUpload_perform {totalRows : ℕ} {upload : Upload}
    {registered : List RecruiterEffect} :
    (finishUpload context totalRows upload).perform recruiterEngine db registered =
      .ok (.upload (upload.response context totalRows),
        { db with eventLogs := db.eventLogs ++ upload.failureEvents },
        registered ++ callbacks context.assessment upload.processed) := by
  rw [finishUpload, Program.perform, refusal_recordEvents, applyAll_recordEvents]
  dsimp only
  rw [Program.perform_afterCommits]
  rfl

end Finish

section Uploads

variable [Runtime] {clock : Clock} {recruiterId assessmentId : Uuid} {file : CsvFile}
  {filename : String} {uploadId : Uuid} {draws : ℕ → RowDraws} {db db' : RecruiterDatabase}
  {outcome : RecruiterResponse} {registered : List RecruiterEffect}

theorem bulkUploadFromCsv_returns
    (hrun : (bulkUploadFromCsv clock recruiterId assessmentId file filename uploadId draws).perform
      recruiterEngine db [] = .ok (outcome, db', registered)) :
    ∃ a rows steps last, db.assessment? assessmentId = some a ∧ a.recruiterId = recruiterId ∧
      parseCsv file = .ok rows ∧
      rowSteps ⟨clock, recruiterId, a, filename, uploadId⟩ draws 1 (rows.map UploadRow.ofCsv) db =
        .ok (steps, last) ∧
      (finishUpload ⟨clock, recruiterId, a, filename, uploadId⟩ rows.length
        (tally ⟨clock, recruiterId, a, filename, uploadId⟩ .empty steps)).perform recruiterEngine
          last [] = .ok (outcome, db', registered) := by
  unfold bulkUploadFromCsv getAssessmentById at hrun
  rw [Program.perform_select] at hrun
  cases hfound : db.assessment? assessmentId with
  | none =>
    rw [hfound] at hrun
    cases hrun
  | some a =>
    rw [hfound] at hrun
    dsimp only at hrun
    split at hrun
    · cases hrun
    · rename_i howner
      cases hparsed : parseCsv file with
      | error =>
        rw [hparsed] at hrun
        cases hrun
      | ok rows =>
        rw [hparsed] at hrun
        dsimp only at hrun
        rw [uploadRows_perform] at hrun
        obtain ⟨⟨steps, last⟩, hsteps, hfinish⟩ := Outcomes.bind_eq_ok.mp hrun
        exact ⟨a, rows, steps, last, rfl, not_not.mp howner, rfl, hsteps, hfinish⟩

structure UploadAccount (context : UploadContext) (rows : List UploadRow)
    (db db' : RecruiterDatabase) (steps : List RowStep) (response : BulkUploadResponse)
    (registered : List RecruiterEffect) : Prop where
  processed : steps.map (·.row) = rows
  rowNumbers : steps.map (·.rowIdx) = List.range' 1 rows.length
  rowResults : response.rowResults = steps.map fun step => step.report.result step.rowIdx
  totalRows : response.totalRows = rows.length
  totals : response.successfulRows + response.failedRows = response.totalRows
  successes : response.successfulRows = (steps.filterMap (·.report.created)).length
  status : response.overallStatus = "COMPLETED" ↔ response.failedRows = 0
  events : ∃ events, db'.eventLogs = db.eventLogs ++ events ∧
    events.length = response.failedRows ∧ ∀ event ∈ events, event.eventName = .csvRowFailed
  accounts : ∀ step ∈ steps, RowAccount context step
  enrollments : db'.enrollments =
    db.enrollments ++ (steps.filterMap (·.report.created)).map (·.enrollment)
  callbacks : registered = (steps.filterMap (·.report.created)).flatMap fun record =>
    [.invitationEmail record.enrollment.id record.name record.email context.assessment
        record.enrollment.invitationToken,
      .resumeFromUrl record.enrollment.id record.enrollment.resumeFilePath]
  distinct : steps.Pairwise fun step later => step.report.created.isSome →
    later.report.created.isSome → normalizedEmail step.row.email ≠ normalizedEmail later.row.email
  fresh : ∀ step ∈ steps, step.report.created.isSome →
    ¬ db.Registered (normalizedEmail step.row.email) context.assessment.id

omit [Runtime] in
theorem callbacks_of_resumes {a : Assessment} {processed : List ProcessedRecord}
    (h : ∀ record ∈ processed, record.enrollment.resumeFilePath ≠ "") :
    callbacks a processed = processed.flatMap fun record =>
      [.invitationEmail record.enrollment.id record.name record.email a
          record.enrollment.invitationToken,
        .resumeFromUrl record.enrollment.id record.enrollment.resumeFilePath] := by
  unfold callbacks
  rw [List.flatMap_congr]
  intro record hrecord
  simp only [if_neg (h record hrecord)]

theorem StepsAccount.callbacks {context : UploadContext} {last : RecruiterDatabase}
    {steps : List RowStep} (h : StepsAccount context db last steps) :
    RecruiterRequests.callbacks context.assessment (tally context .empty steps).processed =
      (steps.filterMap (·.report.created)).flatMap fun record =>
        [.invitationEmail record.enrollment.id record.name record.email context.assessment
            record.enrollment.invitationToken,
          .resumeFromUrl record.enrollment.id record.enrollment.resumeFilePath] := by
  have hprocessed : (tally context .empty steps).processed =
    steps.filterMap (·.report.created) := tally_processed
  rw [hprocessed]
  apply callbacks_of_resumes
  intro record hrecord
  obtain ⟨step, hstep, hcreated⟩ := List.mem_filterMap.mp hrecord
  exact (h.accounts step hstep).resume record hcreated

/-- Whatever rows a file has, its upload reports each of them once and in order, and every reported
success is one new enrollment with its two callbacks. -/
theorem bulk_upload_accounting (store : RecruiterStore)
    (hrun : (bulkUploadFromCsv clock recruiterId assessmentId file filename uploadId draws).perform
      recruiterEngine store.db [] = .ok (outcome, db', registered)) :
    ∃ a rows steps last response, store.db.assessment? assessmentId = some a ∧
      parseCsv file = .ok rows ∧
      rowSteps ⟨clock, recruiterId, a, filename, uploadId⟩ draws 1 (rows.map UploadRow.ofCsv)
        store.db = .ok (steps, last) ∧
      outcome = .upload response ∧
      UploadAccount ⟨clock, recruiterId, a, filename, uploadId⟩ (rows.map UploadRow.ofCsv)
        store.db db' steps response registered := by
  obtain ⟨a, rows, steps, last, hfound, _, hparsed, hsteps, hfinish⟩ :=
    bulkUploadFromCsv_returns hrun
  rw [finishUpload_perform] at hfinish
  cases hfinish
  refine ⟨a, rows, steps, last, _, hfound, hparsed, hsteps, rfl, ?_⟩
  obtain ⟨hrows, hnumbers⟩ := rowSteps_rows hsteps
  have haccount := rowSteps_account hsteps store.keyed
  let context : UploadContext := ⟨clock, recruiterId, a, filename, uploadId⟩
  have hbalanced : (tally context .empty steps).Balanced :=
    tally_balanced ⟨rfl, rfl, rfl, by simp [Upload.empty]⟩
  have hresults : (tally context .empty steps).rowResults =
    steps.map fun step => step.report.result step.rowIdx := tally_rowResults
  have hprocessed : (tally context .empty steps).processed =
    steps.filterMap (·.report.created) := tally_processed
  constructor
  · exact hrows
  · exact hnumbers
  · exact hresults
  · exact List.length_map _ |>.symm
  · have hlength := hbalanced.results
    rw [hresults, List.length_map, ← List.length_map (f := (·.row)), hrows, List.length_map]
      at hlength
    exact hlength.symm
  · exact hbalanced.successes.trans (congrArg List.length hprocessed)
  · change (if _ then _ else _) = _ ↔ _
    split_ifs with hfailed
    · exact iff_of_true rfl hfailed
    · exact iff_of_false (by decide) hfailed
  · refine ⟨(tally context .empty steps).failureEvents, ?_, hbalanced.failures.symm,
      hbalanced.events⟩
    exact congrArg (· ++ _) haccount.grows.eventLogs
  · exact haccount.accounts
  · exact haccount.enrollments
  · exact haccount.callbacks
  · exact haccount.distinct
  · intro step hstep hcreated hregistered
    obtain ⟨record, hrecord⟩ := Option.isSome_iff_exists.mp hcreated
    exact (haccount.accounts step hstep).fresh record hrecord
      ((haccount.reached step hstep).registered hregistered)

end Uploads

section Samples

/-- A file that names one new candidate twice, after an incomplete row. -/
def repeatingFile : CsvFile :=
  .table (some ["Name", "email", "resume"]) (some [
    [("Name", some "Bob"), ("email", none), ("resume", some "bob.pdf")],
    [("Name", some "Bob"), ("email", some "bob@mail.example"), ("resume", some "bob.pdf")],
    [("Name", some "Bob"), ("email", some " BOB@mail.example"), ("resume", some "bob.pdf")]])

/-- The second row succeeds, and the third one finds its candidate. -/
theorem bulk_upload_accounting_sample :
    let _ : Runtime := .ascii
    ∃ (outcome : RecruiterResponse) (db' : RecruiterDatabase) (registered : List RecruiterEffect)
        (a : Assessment) (rows : List CsvRow) (steps : List RowStep) (last : RecruiterDatabase)
        (response : BulkUploadResponse),
      sharedStore.db.assessment? 10 = some a ∧ parseCsv repeatingFile = .ok rows ∧
      rowSteps ⟨⟨10, 10⟩, 1, a, "candidates.csv", 70⟩ (fun i => ⟨80 + i, ⟨90 + i, 100 + i⟩⟩) 1
        (rows.map UploadRow.ofCsv) sharedStore.db = .ok (steps, last) ∧
      outcome = .upload response ∧
      UploadAccount ⟨⟨10, 10⟩, 1, a, "candidates.csv", 70⟩ (rows.map UploadRow.ofCsv)
        sharedStore.db db' steps response registered := by
  intro runtime
  have hreturns : ((bulkUploadFromCsv ⟨10, 10⟩ 1 10 repeatingFile "candidates.csv" 70
      fun i => ⟨80 + i, ⟨90 + i, 100 + i⟩⟩).perform recruiterEngine sharedStore.db
        []).toOption.isSome := by
    decide +kernel
  obtain ⟨⟨outcome, db', registered⟩, hsome⟩ := Option.isSome_iff_exists.mp hreturns
  have hrun := Outcomes.toOption_eq_some.mp hsome
  exact ⟨outcome, db', registered, bulk_upload_accounting sharedStore hrun⟩

end Samples

end IBotCoreApi
