import IBotCoreApi.BulkUploads

namespace IBotCoreApi
open Python Transactions RecruiterRequests

def resumeTask : RecruiterEffect → Option Uuid
  | .resumeFromUrl candidateAssessmentId _ => some candidateAssessmentId
  | .resumeFromFile candidateAssessmentId => some candidateAssessmentId
  | _ => none

/-- The resume of a new enrollment is taken from an earlier one that is parsed, or it is pending and
one of the registered callbacks parses it. -/
inductive ResumeProvided (db : RecruiterDatabase) (registered : List RecruiterEffect)
    (e : RecruiterEnrollment) : Prop
  | reused {earlier : RecruiterEnrollment} {parsed : Json} (hearlier : earlier ∈ db.enrollments)
      (hcandidate : earlier.candidateId = e.candidateId)
      (hcompleted : earlier.resumeParseStatus = "COMPLETED")
      (hbelongs : earlier.resumeParsed = some parsed) (hstatus : e.resumeParseStatus = "COMPLETED")
      (hparsed : e.resumeParsed = some parsed)
  | scheduled (hstatus : e.resumeParseStatus = "PENDING")
      (honce : (registered.filterMap resumeTask).count e.id = 1)

/-- The rows and the callbacks that a committed request leaves: its new enrollments, and the ones of
them that it schedules. -/
structure Enrolls (db after : RecruiterDatabase) (registered : List RecruiterEffect)
    (new : List RecruiterEnrollment) (scheduled : List Uuid) : Prop where
  enrollments : after.enrollments = db.enrollments ++ new
  tasks : registered.filterMap resumeTask = scheduled

def uploadedResume (resumeFileBytes : Option (List UInt8)) (resumeFilename : Option String) :
    Option String :=
  resumeFilename.filter fun filename => !(resumeFileBytes.getD []).isEmpty && filename != ""

/-- The request has a resume for each enrollment: every row of an upload and every new candidate
brings one, a known candidate brings one or has one that is parsed. -/
def EnrollmentRequest.HasResume (db : RecruiterDatabase) : EnrollmentRequest → Prop
  | .bulkUploadFromCsv .. => True
  | .createSingleCandidate .. => True
  | .enrollExistingCandidate _ candidateId _ resumeFileBytes resumeFilename _ =>
    (uploadedResume resumeFileBytes resumeFilename).isSome ∨
      ∃ e ∈ db.enrollments, e.candidateId = candidateId ∧ e.resumeParseStatus = "COMPLETED" ∧
        e.resumeParsed.isSome

section Performs

variable {db after : RecruiterDatabase} {outcome : RecruiterResponse} {clock : Clock}
  {recruiterId candidateId assessmentId : Uuid} {registered : List RecruiterEffect}

theorem findReusableResumeEnrollment_eq_some {enrollments : List RecruiterEnrollment}
    {e : RecruiterEnrollment} (h : findReusableResumeEnrollment enrollments = some e) :
    e ∈ enrollments ∧ e.resumeParseStatus = "COMPLETED" ∧ e.resumeParsed.isSome := by
  have hfound := List.find?_some h
  rw [Bool.and_eq_true, beq_iff_eq] at hfound
  exact ⟨List.mem_of_find?_eq_some h, hfound⟩

theorem findReusableResumeEnrollment_eq_none {enrollments : List RecruiterEnrollment} :
    findReusableResumeEnrollment enrollments = none ↔
      ∀ e ∈ enrollments, e.resumeParseStatus = "COMPLETED" → e.resumeParsed = none := by
  simp [findReusableResumeEnrollment]

theorem map_fst_getAllByCandidateId :
    (getAllByCandidateId db candidateId).map (·.1) = db.enrollmentsOf candidateId := by
  rw [getAllByCandidateId, List.map_map]
  exact List.map_id _

theorem mem_enrollmentsOf {e : RecruiterEnrollment} :
    e ∈ db.enrollmentsOf candidateId ↔ e ∈ db.enrollments ∧ e.candidateId = candidateId := by
  rw [RecruiterDatabase.enrollmentsOf, Sorting.mem_sortedDown, List.mem_filter, beq_iff_eq]

theorem enrollExistingCandidate_performs {resumeFileBytes : Option (List UInt8)}
    {resumeFilename : Option String} {draws : CandidateAssessmentRepository.EnrollmentDraws}
    (hrun : (enrollExistingCandidate clock recruiterId candidateId assessmentId resumeFileBytes
      resumeFilename draws).perform recruiterEngine db [] = .ok (outcome, after, registered)) :
    ∃ e, e.candidateId = candidateId ∧
      (e.resumeFilePath, e.resumeParseStatus, e.resumeParsed) =
        resumeColumns (uploadedResume resumeFileBytes resumeFilename)
          (db.enrollmentsOf candidateId) ∧
      Enrolls db after registered [e]
        (if (uploadedResume resumeFileBytes resumeFilename).isSome then [e.id] else []) := by
  unfold enrollExistingCandidate at hrun
  rw [Program.perform_select] at hrun
  cases hmatched : (db.assessment? assessmentId).filter (·.recruiterId == recruiterId) with
  | none =>
    rw [hmatched] at hrun
    cases hrun
  | some newAssessment =>
    rw [hmatched] at hrun
    dsimp only at hrun
    rw [Program.perform_select] at hrun
    cases hcandidate : db.candidate? candidateId with
    | none =>
      rw [hcandidate] at hrun
      cases hrun
    | some candidate =>
      rw [hcandidate] at hrun
      dsimp only at hrun
      rw [Program.perform_select] at hrun
      cases henrolled : db.enrollmentOf? candidateId assessmentId with
      | some enrolled =>
        rw [henrolled] at hrun
        cases hrun
      | none =>
        rw [henrolled] at hrun
        dsimp only at hrun
        rw [Program.perform_select, map_fst_getAllByCandidateId] at hrun
        split at hrun
        · cases hrun
        · unfold assertNoWindowOverlap at hrun
          rw [Program.perform_select] at hrun
          cases hadmits : (getAllByCandidateId db candidateId).findSome?
              (overlapReason newAssessment) with
          | some message =>
            rw [hadmits] at hrun
            cases hrun
          | none =>
            rw [hadmits] at hrun
            dsimp only at hrun
            obtain ⟨_, hrun⟩ := Program.perform_write_eq_ok.mp hrun
            -- the task depends on the file only, the columns also on the earlier resumes
            dsimp only [Program.perform] at hrun
            split at hrun
            · rename_i hfile
              cases hrun
              exact ⟨_, rfl, rfl, rfl, (if_pos hfile).symm⟩
            · rename_i hfile
              cases hrun
              exact ⟨_, rfl, rfl, rfl, (if_neg hfile).symm⟩

theorem deleteCandidate_perform {next : RecruiterProgram}
    (h : db.enrollmentsOf candidateId = []) :
    (deleteCandidate candidateId next).perform recruiterEngine db registered =
      (Program.write (.deleteCandidate candidateId) next).perform recruiterEngine db
        registered := by
  rw [deleteCandidate, Program.perform_select, h]
  rfl

variable [Runtime]

theorem createSingleCandidate_performs {name email resumeFilename : String}
    {resumeFileBytes : List UInt8} {draws : RowDraws}
    (hrun : (createSingleCandidate clock recruiterId name email assessmentId resumeFileBytes
      resumeFilename draws).perform recruiterEngine db [] = .ok (outcome, after, registered)) :
    ∃ e, e.resumeParseStatus = "PENDING" ∧ Enrolls db after registered [e] [e.id] := by
  unfold createSingleCandidate at hrun
  rw [Program.perform_select] at hrun
  cases hmatched : (db.assessment? assessmentId).filter (·.recruiterId == recruiterId) with
  | none =>
    rw [hmatched] at hrun
    cases hrun
  | some matchedAssessment =>
    rw [hmatched] at hrun
    dsimp only at hrun
    -- both branches end in the same creation, with or without a deletion before it
    generalize hcreate : Program.write (RecruiterWrite.insertCandidate _) _ = create at hrun
    have hcreates (cleared : RecruiterDatabase) (hcleared : cleared.enrollments = db.enrollments)
        (hrun : create.perform recruiterEngine cleared [] = .ok (outcome, after, registered)) :
        ∃ e, e.resumeParseStatus = "PENDING" ∧ Enrolls db after registered [e] [e.id] := by
      subst hcreate
      obtain ⟨_, hrun⟩ := Program.perform_write_eq_ok.mp hrun
      unfold assertNoWindowOverlap at hrun
      rw [Program.perform_select] at hrun
      split at hrun
      · cases hrun
      · rw [Program.perform_select] at hrun
        split at hrun
        · cases hrun
        · obtain ⟨_, hrun⟩ := Program.perform_write_eq_ok.mp hrun
          cases hrun
          exact ⟨_, rfl, congrArg (· ++ _) hcleared, rfl⟩
    rw [Program.perform_select] at hrun
    cases hexisting : getByEmail db email with
    | none =>
      rw [hexisting] at hrun
      exact hcreates db rfl hrun
    | some existing =>
      rw [hexisting] at hrun
      dsimp only at hrun
      rw [Program.perform_select] at hrun
      split at hrun
      · cases hrun
      · next hempty =>
        have hnone : db.enrollmentsOf existing.id = [] := by simpa using hempty
        rw [deleteCandidate_perform hnone] at hrun
        obtain ⟨_, hrun⟩ := Program.perform_write_eq_ok.mp hrun
        exact hcreates (RecruiterWrite.apply db (.deleteCandidate existing.id)) rfl hrun

theorem rowSteps_pending {context : UploadContext} {draws : ℕ → RowDraws} {rowIdx : ℕ}
    {rows : List UploadRow} {last : RecruiterDatabase} {steps : List RowStep}
    (h : rowSteps context draws rowIdx rows db = .ok (steps, last)) :
    ∀ record ∈ steps.filterMap (·.report.created),
      record.enrollment.resumeParseStatus = "PENDING" := by
  induction rows generalizing rowIdx db steps with
  | nil =>
    obtain ⟨rfl, _⟩ := rowSteps_nil.mp h
    simp
  | cons row rows ih =>
    obtain ⟨report, after, later, hrow, hrows, rfl⟩ := rowSteps_cons.mp h
    intro record hrecord
    obtain ⟨step, hstep, hcreated⟩ := List.mem_filterMap.mp hrecord
    rcases List.mem_cons.mp hstep with rfl | hlater
    · rcases rowStep_cases hrow with ⟨hnone, _⟩ | ⟨_, candidateId, named, _, henroll⟩
      · rw [hnone] at hcreated
        cases hcreated
      · rcases enrollStep_cases henroll with ⟨_, hnone, _⟩ | ⟨_, _, rfl, _⟩
        · rw [hnone] at hcreated
          cases hcreated
        · cases hcreated
          rfl
    · exact ih hrows record (List.mem_filterMap.mpr ⟨step, hlater, hcreated⟩)

theorem bulkUploadFromCsv_performs {file : CsvFile} {filename : String} {uploadId : Uuid}
    {draws : ℕ → RowDraws} (hkeyed : db.Keyed)
    (hrun : (bulkUploadFromCsv clock recruiterId assessmentId file filename uploadId draws).perform
      recruiterEngine db [] = .ok (outcome, after, registered)) :
    ∃ new : List RecruiterEnrollment, (∀ e ∈ new, e.resumeParseStatus = "PENDING") ∧
      Enrolls db after registered new (new.map (·.id)) := by
  obtain ⟨a, rows, steps, last, _, _, _, hsteps, hfinish⟩ := bulkUploadFromCsv_returns hrun
  have haccount := rowSteps_account hsteps hkeyed
  rw [finishUpload_perform] at hfinish
  cases hfinish
  refine ⟨(steps.filterMap (·.report.created)).map (·.enrollment), ?_, haccount.enrollments, ?_⟩
  · intro e he
    obtain ⟨record, hrecord, rfl⟩ := List.mem_map.mp he
    exact rowSteps_pending hsteps record hrecord
  · rw [List.nil_append, haccount.callbacks, List.map_map]
    induction steps.filterMap (·.report.created) with
    | nil => rfl
    | cons record records ih =>
      rw [List.flatMap_cons, List.filterMap_append, ih]
      rfl

end Performs

section Provided

variable {db after : RecruiterDatabase} {registered : List RecruiterEffect}
  {new : List RecruiterEnrollment} {scheduled : List Uuid}

namespace Enrolls

theorem mem_new_iff (h : Enrolls db after registered new scheduled) (hafter : after.Keyed)
    {e : RecruiterEnrollment} :
    e ∈ after.enrollments ∧ e.id ∉ db.enrollments.map (·.id) ↔ e ∈ new := by
  have hids := hafter.enrollmentIds
  rw [h.enrollments, List.map_append, List.nodup_append] at hids
  rw [h.enrollments, List.mem_append]
  constructor
  · rintro ⟨hold | hnew, hfresh⟩
    · exact absurd (List.mem_map_of_mem hold) hfresh
    · exact hnew
  · intro hnew
    refine ⟨.inr hnew, fun hold => ?_⟩
    exact hids.2.2 _ hold _ (List.mem_map_of_mem hnew) rfl

theorem ids_nodup (h : Enrolls db after registered new scheduled) (hafter : after.Keyed) :
    (new.map (·.id)).Nodup := by
  have hids := hafter.enrollmentIds
  rw [h.enrollments, List.map_append, List.nodup_append] at hids
  exact hids.2.1

theorem provided (h : Enrolls db after registered new (new.map (·.id))) (hafter : after.Keyed)
    (hpending : ∀ e ∈ new, e.resumeParseStatus = "PENDING") :
    ∀ e ∈ new, ResumeProvided db registered e := by
  intro e he
  refine .scheduled (hpending e he) ?_
  rw [h.tasks]
  exact List.count_eq_one_of_mem (h.ids_nodup hafter) (List.mem_map_of_mem he)

end Enrolls

/-- The one new enrollment of a known candidate is provided for when there is a file or a parsed
resume. -/
theorem resumeProvided_iff {candidateId : Uuid} {resumeFileBytes : Option (List UInt8)}
    {resumeFilename : Option String} {e : RecruiterEnrollment}
    (hcandidate : e.candidateId = candidateId)
    (hcolumns : (e.resumeFilePath, e.resumeParseStatus, e.resumeParsed) =
      resumeColumns (uploadedResume resumeFileBytes resumeFilename) (db.enrollmentsOf candidateId))
    (htasks : registered.filterMap resumeTask =
      if (uploadedResume resumeFileBytes resumeFilename).isSome then [e.id] else []) :
    ResumeProvided db registered e ↔
      (uploadedResume resumeFileBytes resumeFilename).isSome ∨
        ∃ e ∈ db.enrollments, e.candidateId = candidateId ∧ e.resumeParseStatus = "COMPLETED" ∧
          e.resumeParsed.isSome := by
  cases hfile : uploadedResume resumeFileBytes resumeFilename with
  | some filename =>
    simp only [hfile, resumeColumns, Prod.mk.injEq] at hcolumns
    rw [hfile] at htasks
    refine iff_of_true (.scheduled hcolumns.2.1 ?_) (.inl rfl)
    rw [htasks]
    exact List.count_singleton_self
  | none =>
    rw [hfile] at htasks
    cases hreusable : findReusableResumeEnrollment (db.enrollmentsOf candidateId) with
    | some reusable =>
      simp only [hfile, resumeColumns, hreusable, Prod.mk.injEq] at hcolumns
      obtain ⟨hmem, hcompleted, hparsed⟩ := findReusableResumeEnrollment_eq_some hreusable
      obtain ⟨hmem, hsame⟩ := mem_enrollmentsOf.mp hmem
      obtain ⟨parsed, hbelongs⟩ := Option.isSome_iff_exists.mp hparsed
      refine iff_of_true ?_ (.inr ⟨reusable, hmem, hsame, hcompleted, hparsed⟩)
      exact .reused hmem (hsame.trans hcandidate.symm) hcompleted hbelongs hcolumns.2.1
        (hcolumns.2.2.trans hbelongs)
    | none =>
      simp only [hfile, resumeColumns, hreusable, Prod.mk.injEq] at hcolumns
      obtain ⟨_, hpending, _⟩ := hcolumns
      -- pending, and nothing is scheduled
      refine iff_of_false ?_ ?_
      · intro hprovided
        cases hprovided with
        | reused _ _ _ _ hstatus =>
          rw [hpending] at hstatus
          exact absurd hstatus (by decide)
        | scheduled _ honce =>
          rw [htasks] at honce
          exact absurd honce (by simp)
      · rintro (hsome | ⟨earlier, hmem, hsame, hcompleted, hparsed⟩)
        · cases hsome
        · have hnone := findReusableResumeEnrollment_eq_none.mp hreusable earlier
            (mem_enrollmentsOf.mpr ⟨hmem, hsame⟩) hcompleted
          rw [hnone] at hparsed
          cases hparsed

end Provided

section Requests

variable [Runtime]

/-- The new enrollments of a request all have a parsed resume or one task that parses it exactly
when the request has a resume for each of them: a known candidate who has none needs a file. -/
theorem resume_provided_iff (store : RecruiterStore) (recruiterId : Uuid)
    (request : EnrollmentRequest) {response : RecruiterResponse} {after : RecruiterDatabase}
    {registered : List RecruiterEffect}
    (hrun : (request.program recruiterId).perform recruiterEngine store.db [] =
      .ok (response, after, registered)) :
    (∀ e ∈ after.enrollments, e.id ∉ store.db.enrollments.map (·.id) →
        ResumeProvided store.db registered e) ↔
      request.HasResume store.db := by
  have hafter : after.Keyed :=
    Program.perform_invariant RecruiterDatabase.Keyed (fun _ _ hw hs => hs.apply hw) hrun
      store.keyed
  have hnew {new : List RecruiterEnrollment} {scheduled : List Uuid}
      (h : Enrolls store.db after registered new scheduled) :
      (∀ e ∈ after.enrollments, e.id ∉ store.db.enrollments.map (·.id) →
          ResumeProvided store.db registered e) ↔
        ∀ e ∈ new, ResumeProvided store.db registered e := by
    refine forall_congr' fun e => ?_
    rw [← and_imp, h.mem_new_iff hafter]
  cases request with
  | bulkUploadFromCsv clock assessmentId file filename uploadId draws =>
    obtain ⟨new, hpending, henrolls⟩ := bulkUploadFromCsv_performs store.keyed hrun
    exact iff_of_true ((hnew henrolls).mpr (henrolls.provided hafter hpending)) trivial
  | createSingleCandidate clock name email assessmentId resumeFileBytes resumeFilename draws =>
    obtain ⟨e, hpending, henrolls⟩ := createSingleCandidate_performs hrun
    refine iff_of_true ((hnew henrolls).mpr (henrolls.provided hafter ?_)) trivial
    exact List.forall_mem_singleton.mpr hpending
  | enrollExistingCandidate clock candidateId assessmentId resumeFileBytes resumeFilename draws =>
    obtain ⟨e, hcandidate, hcolumns, henrolls⟩ := enrollExistingCandidate_performs hrun
    rw [hnew henrolls, List.forall_mem_singleton]
    exact resumeProvided_iff hcandidate hcolumns henrolls.tasks

end Requests

section Samples

/-- Ada, whose resume is still unparsed, is enrolled by the first recruiter. -/
def enrollAda (resumeFileBytes : Option (List UInt8)) (resumeFilename : Option String) :
    EnrollmentRequest :=
  .enrollExistingCandidate ⟨10, 10⟩ 30 10 resumeFileBytes resumeFilename ⟨81, 82⟩

/-- With a new file her enrollment has its task. -/
theorem resume_provided_sample :
    let _ : Runtime := .ascii
    ∃ (response : RecruiterResponse) (after : RecruiterDatabase)
        (registered : List RecruiterEffect),
      ((enrollAda (some [37]) (some "ada.pdf")).program 1).perform recruiterEngine sharedStore.db
          [] = .ok (response, after, registered) ∧
        ((∀ e ∈ after.enrollments, e.id ∉ sharedStore.db.enrollments.map (·.id) →
            ResumeProvided sharedStore.db registered e) ↔
          (enrollAda (some [37]) (some "ada.pdf")).HasResume sharedStore.db) := by
  intro runtime
  have hreturns : (((enrollAda (some [37]) (some "ada.pdf")).program 1).perform recruiterEngine
      sharedStore.db []).toOption.isSome := by
    decide +kernel
  obtain ⟨⟨response, after, registered⟩, hsome⟩ := Option.isSome_iff_exists.mp hreturns
  have hrun := Outcomes.toOption_eq_some.mp hsome
  exact ⟨response, after, registered, hrun, resume_provided_iff sharedStore 1 _ hrun⟩

/-- Without one it is pending with the path of her first resume, and nothing will parse it. -/
theorem pending_resume_unscheduled :
    let _ : Runtime := .ascii
    ¬ ∀ (response : RecruiterResponse) (after : RecruiterDatabase)
        (registered : List RecruiterEffect),
      ((enrollAda none none).program 1).perform recruiterEngine sharedStore.db [] =
        .ok (response, after, registered) →
      ∀ e ∈ after.enrollments, e.id ∉ sharedStore.db.enrollments.map (·.id) →
        ResumeProvided sharedStore.db registered e := by
  intro runtime hclaim
  have hpending : (((enrollAda none none).program 1).perform recruiterEngine sharedStore.db
      []).toOption.any fun committed =>
        (committed.2.1.enrollments.any fun e =>
          e.id == 81 && e.resumeFilePath == "ada.pdf" && e.resumeParseStatus == "PENDING") &&
        (committed.2.2.filterMap resumeTask).isEmpty := by
    decide +kernel
  obtain ⟨committed, hsome, hpending⟩ := (Option.any_eq_true _ _).mp hpending
  obtain ⟨response, after, registered⟩ := committed
  obtain ⟨hstored, htasks⟩ := Bool.and_eq_true_iff.mp hpending
  obtain ⟨e, he, hcolumns⟩ := List.any_eq_true.mp hstored
  simp only [Bool.and_eq_true, beq_iff_eq] at hcolumns
  obtain ⟨⟨hid, _⟩, hstatus⟩ := hcolumns
  have hfresh : e.id ∉ sharedStore.db.enrollments.map (·.id) := by
    rw [hid]
    decide
  have hprovided := hclaim response after registered (Outcomes.toOption_eq_some.mp hsome) e he
    hfresh
  cases hprovided with
  | reused _ _ _ _ hcompleted =>
    rw [hstatus] at hcompleted
    exact absurd hcompleted (by decide)
  | scheduled _ honce =>
    rw [List.isEmpty_iff.mp htasks] at honce
    cases honce

end Samples

end IBotCoreApi
