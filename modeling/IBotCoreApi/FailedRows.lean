import IBotCoreApi.BulkUploads

namespace IBotCoreApi
open Python Transactions RecruiterRequests RecruiterDatabase

namespace RowStep

def Unchanged (step : RowStep) : Prop :=
  step.after.candidates = step.before.candidates ∧ step.after.enrollments = step.before.enrollments

/-- The row names an unregistered candidate by another name, and the overlap check fails on the
candidate. -/
def RenamesRefused [Runtime] (a : Assessment) (step : RowStep) : Prop :=
  step.row.complete ∧ ∃ c, getByEmail step.before step.row.email = some c ∧
    step.before.enrollmentOf? c.id a.id = none ∧ c.fullName ≠ step.row.name ∧
    step.before.Overlaps a c.id

end RowStep

section Rows

variable {db : RecruiterDatabase} {a : Assessment}

theorem not_overlaps_of_unenrolled {candidateId : Uuid}
    (h : ∀ e ∈ db.enrollments, e.candidateId ≠ candidateId) : ¬ db.Overlaps a candidateId := by
  have hnone : db.enrollmentsOf candidateId = [] := by
    have hfilter : db.enrollments.filter (·.candidateId == candidateId) = [] := by
      rw [List.filter_eq_nil_iff]
      intro e he
      simpa using h e he
    rw [RecruiterDatabase.enrollmentsOf, hfilter]
    rfl
  rw [Overlaps, getAllByCandidateId, hnone]
  exact not_not.mpr rfl

theorem unenrolled_of_insertCandidate (h : db.Keyed) {c : CandidateProfile}
    (hw : recruiterEngine.refuses db (.insertCandidate c) = none) :
    ∀ e ∈ db.enrollments, e.candidateId ≠ c.id := by
  intro e he hid
  have hfresh := refuses_eq_false hw
  simp only [RecruiterWrite.refuses, Bool.or_eq_false_iff, List.any_eq_false] at hfresh
  obtain ⟨found, hfound⟩ := Option.isSome_iff_exists.mp (h.candidates e he)
  have hkey : found.id = c.id := (Tables.lookup_key hfound).trans hid
  exact hfresh.2 found (Tables.lookup_mem hfound) (by simp [hkey])

theorem renameCandidate_ne (h : db.Keyed) {c : CandidateProfile} (hc : c ∈ db.candidates)
    {fullName : String} (hname : c.fullName ≠ fullName) :
    (RecruiterWrite.apply db (.renameCandidate c.id fullName)).candidates ≠ db.candidates := by
  intro heq
  let u := RecruiterWrite.renamed fullName
  have hmem : u.onRow (·.id == c.id) c ∈ db.candidates := by
    rw [← heq]
    exact Tables.mem_updateWhere.mpr ⟨c, hc, rfl⟩
  have hset : u.onRow (·.id == c.id) c = u.set c :=
    Tables.Update.onRow_of_true (beq_self_eq_true c.id)
  rw [hset] at hmem
  have hsame : u.set c = c := List.inj_on_of_nodup_map h.candidateIds hmem hc rfl
  exact hname (congrArg (·.fullName) hsame).symm

variable [Runtime] {context : UploadContext} {row : UploadRow} {draws : RowDraws} {rowIdx : ℕ}
  {report : RowReport} {after : RecruiterDatabase}

theorem rowStep_unchanged_iff (hdb : db.Keyed)
    (h : rowStep context row draws db = .ok (report, after)) :
    let step : RowStep := ⟨rowIdx, row, db, report, after⟩
    (report.created = none → step.Unchanged) ↔ ¬ step.RenamesRefused context.assessment := by
  intro step
  rcases rowStep_cases h with
    ⟨_, rfl, hregistered⟩ | ⟨hcomplete, candidateId, named, hcandidate, henroll⟩
  · refine iff_of_true (fun _ => ⟨rfl, rfl⟩) ?_
    rintro ⟨hcomplete, c, hfound, hnone, _⟩
    obtain ⟨c', hfound', hsome⟩ := hregistered hcomplete
    cases hfound.symm.trans hfound'
    exact hsome hnone
  · rcases enrollStep_cases henroll with ⟨hoverlaps, hnone, rfl⟩ | ⟨hpasses, _, rfl, _⟩
    · cases hcandidate with
      | created _ haccepted =>
        have hfresh := unenrolled_of_insertCandidate hdb haccepted
        exact absurd hoverlaps (not_overlaps_of_unenrolled hfresh)
      | renamed hfound hunregistered hname =>
        have hc := ((getByEmail_eq_some_iff hdb).mp hfound).1
        refine iff_of_false ?_ (not_not.mpr ⟨hcomplete, _, hfound, hunregistered, hname, hoverlaps⟩)
        intro hunchanged
        exact renameCandidate_ne hdb hc hname (hunchanged hnone).1
      | kept hfound _ hname =>
        refine iff_of_true (fun _ => ⟨rfl, rfl⟩) ?_
        rintro ⟨_, c, hfound', _, hname', _⟩
        cases hfound.symm.trans hfound'
        exact hname' hname
    · refine iff_of_true (fun hcreated => nomatch hcreated) ?_
      rintro ⟨_, c, hfound', _, _, hoverlaps⟩
      cases hcandidate with
      | created hmissing => cases hmissing.symm.trans hfound'
      | renamed hfound | kept hfound =>
        cases hfound.symm.trans hfound'
        exact hpasses hoverlaps

theorem rowSteps_mem {draws : ℕ → RowDraws} {rows : List UploadRow} {steps : List RowStep}
    {last : RecruiterDatabase} (h : rowSteps context draws rowIdx rows db = .ok (steps, last))
    {step : RowStep} (hstep : step ∈ steps) :
    rowStep context step.row (draws step.rowIdx) step.before = .ok (step.report, step.after) := by
  induction rows generalizing rowIdx db steps with
  | nil =>
    obtain ⟨rfl, _⟩ := rowSteps_nil.mp h
    cases hstep
  | cons row rows ih =>
    obtain ⟨report, after, later, hrow, hrows, rfl⟩ := rowSteps_cons.mp h
    rcases List.mem_cons.mp hstep with rfl | hlater
    · exact hrow
    · exact ih hrows hlater

end Rows

section Uploads

variable [Runtime] {clock : Clock} {recruiterId assessmentId : Uuid} {file : CsvFile}
  {filename : String} {uploadId : Uuid} {draws : ℕ → RowDraws} {db' : RecruiterDatabase}
  {outcome : RecruiterResponse} {registered : List RecruiterEffect}

/-- In every returning upload, a failed row leaves the candidates and the enrollments unchanged
exactly if it is not one that renames its candidate before the overlap check fails. -/
theorem failed_row_unchanged_iff (store : RecruiterStore)
    (hrun : (bulkUploadFromCsv clock recruiterId assessmentId file filename uploadId draws).perform
      recruiterEngine store.db [] = .ok (outcome, db', registered)) :
    ∃ a rows steps last response, store.db.assessment? assessmentId = some a ∧
      parseCsv file = .ok rows ∧
      rowSteps ⟨clock, recruiterId, a, filename, uploadId⟩ draws 1 (rows.map UploadRow.ofCsv)
        store.db = .ok (steps, last) ∧
      outcome = .upload response ∧
      response.rowResults = (steps.map fun step => step.report.result step.rowIdx) ∧
      ∀ step ∈ steps, (step.report.created = none → step.Unchanged) ↔ ¬ step.RenamesRefused a := by
  obtain ⟨a, rows, steps, last, hfound, _, hparsed, hsteps, hfinish⟩ :=
    bulkUploadFromCsv_returns hrun
  rw [finishUpload_perform] at hfinish
  cases hfinish
  refine ⟨a, rows, steps, last, _, hfound, hparsed, hsteps, rfl, tally_rowResults, ?_⟩
  intro step hstep
  have hkeyed := ((rowSteps_account hsteps store.keyed).reached step hstep).keyed store.keyed
  exact rowStep_unchanged_iff hkeyed (rowSteps_mem hsteps hstep)

end Uploads

section Samples

/-- A candidate enrolled in the first assessment of a recruiter. -/
def busyCandidate : RecruiterDatabase :=
  { sharedCandidate with
    enrollments := sharedCandidate.enrollments.map fun e => { e with assessmentId := 10 } }

def busyStore : RecruiterStore where
  db := busyCandidate
  keyed := {
    assessmentIds := by decide
    candidateIds := by decide
    emails := by decide
    enrollmentIds := by decide
    candidates := by decide }

/-- One row for that candidate. -/
def busyFile (name : String) : CsvFile :=
  .table (some ["name", "email", "resume"])
    (some [[("name", some name), ("email", some "ada@mail.example"), ("resume", some "ada.pdf")]])

/-- Under the stored name the row fails without a trace. -/
theorem failed_row_unchanged_iff_sample :
    let _ : Runtime := .ascii
    ∃ (outcome : RecruiterResponse) (a : Assessment) (rows : List CsvRow) (steps : List RowStep)
        (last : RecruiterDatabase) (response : BulkUploadResponse),
      busyStore.db.assessment? 11 = some a ∧ parseCsv (busyFile "Ada Lovelace") = .ok rows ∧
      rowSteps ⟨⟨10, 10⟩, 1, a, "candidates.csv", 70⟩ (fun _ => ⟨71, ⟨72, 73⟩⟩) 1
        (rows.map UploadRow.ofCsv) busyStore.db = .ok (steps, last) ∧
      outcome = .upload response ∧
      response.rowResults = (steps.map fun step => step.report.result step.rowIdx) ∧
      ∀ step ∈ steps, (step.report.created = none → step.Unchanged) ↔
        ¬ step.RenamesRefused a := by
  intro runtime
  have hreturns : ((bulkUploadFromCsv ⟨10, 10⟩ 1 11 (busyFile "Ada Lovelace") "candidates.csv" 70
      fun _ => ⟨71, ⟨72, 73⟩⟩).perform recruiterEngine busyStore.db []).toOption.isSome := by
    decide +kernel
  obtain ⟨⟨outcome, db', registered⟩, hsome⟩ := Option.isSome_iff_exists.mp hreturns
  have hrun := Outcomes.toOption_eq_some.mp hsome
  exact ⟨outcome, failed_row_unchanged_iff busyStore hrun⟩

/-- Under another name the only row fails, and the candidate has the new name. -/
theorem failed_row_renames :
    let _ : Runtime := .ascii
    let upload := (bulkUploadFromCsv ⟨10, 10⟩ 1 11 (busyFile "Ada L.") "candidates.csv" 70
      fun _ => ⟨71, ⟨72, 73⟩⟩).perform recruiterEngine busyStore.db []
    let rows := rowSteps ⟨⟨10, 10⟩, 1, openAssessment 11 1 50 150, "candidates.csv", 70⟩
      (fun _ => ⟨71, ⟨72, 73⟩⟩) 1 [⟨"Ada L.", "ada@mail.example", "ada.pdf"⟩] busyStore.db
    (rows.toOption.map fun run => run.1.map (·.report.created.isSome)) = some [false] ∧
      (upload.toOption.map fun run => run.2.1.candidates.map (·.fullName)) = some ["Ada L."] ∧
      busyStore.db.candidates.map (·.fullName) = ["Ada Lovelace"] := by
  decide +kernel

end Samples

end IBotCoreApi
