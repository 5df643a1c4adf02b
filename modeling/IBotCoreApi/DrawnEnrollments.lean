import IBotCoreApi.ResumeParsing

namespace IBotCoreApi
open Python Transactions Runs RecruiterRequests

def EnrollmentRequest.Draws : EnrollmentRequest → Uuid → Prop
  | .bulkUploadFromCsv _ _ _ _ _ draws, id => ∃ i, (draws i).enrollment.id = id
  | .createSingleCandidate _ _ _ _ _ _ draws, id => draws.enrollment.id = id
  | .enrollExistingCandidate _ _ _ _ _ draws, id => draws.id = id

def RecruiterRequest.Draws : RecruiterRequest → Uuid → Prop
  | .enroll request, id => request.Draws id
  | _, _ => False

/-- The resume columns of a new enrollment: pending, or taken over from one that is parsed. -/
def NewColumns (e : RecruiterEnrollment) : Prop :=
  e.resumeParseStatus = "PENDING" ∧ e.resumeParsed = none ∨
    e.resumeParseStatus = "COMPLETED" ∧ e.resumeParsed.isSome

def RecruiterRequest.Decides : RecruiterRequest → Prop
  | .updateRecruiterDecision .. => True
  | _ => False

def RecruiterRequest.SetsStatus : RecruiterRequest → Prop
  | .updateStatus .. => True
  | _ => False

/-- An enrollment is inserted with such columns under a drawn identifier, and only a decision is
written to another one, and a status to an assessment. -/
def DrawnWrite (D : Uuid → Prop) (C S : Prop) : RecruiterWrite → Prop
  | .insertEnrollment e => D e.id ∧ NewColumns e
  | .decide .. => C
  | .updateStatus .. => S
  | _ => True

/-- A file is written under a drawn identifier, and only a decision or a status is told at once. -/
def DrawnEffect (D : Uuid → Prop) (C S : Prop) : RecruiterEffect → Prop
  | .temporaryResume candidateAssessmentId _ => D candidateAssessmentId
  | .decisionEmail .. => C
  | .assessmentCancellations _ => S
  | _ => True

section Drawn

abbrev OnlyDrawn (D : Uuid → Prop) (C S : Prop) (R : RecruiterEffect → Prop)
    (p : RecruiterProgram) : Prop :=
  p.Only (DrawnWrite D C S) (DrawnEffect D C S) R

variable {D : Uuid → Prop} {C S : Prop} {R : RecruiterEffect → Prop} {next : RecruiterProgram}
  {rest : Upload → RecruiterProgram}

theorem getAssessmentById_only {assessmentId recruiterId : Uuid}
    {next : Assessment → RecruiterProgram} (h : ∀ a, OnlyDrawn D C S R (next a)) :
    OnlyDrawn D C S R (getAssessmentById assessmentId recruiterId next) := by
  refine Program.only_select ?_
  intro assessment?
  cases assessment? with
  | none => trivial
  | some assessment =>
    dsimp only
    split
    · trivial
    · exact h assessment

theorem assertNoWindowOverlap_only {candidateId : Uuid} {newAssessment : Assessment}
    {next : Option String → RecruiterProgram} (h : ∀ message, OnlyDrawn D C S R (next message)) :
    OnlyDrawn D C S R (assertNoWindowOverlap candidateId newAssessment next) :=
  Program.only_select h

theorem deleteCandidate_only {candidateId : Uuid} (h : OnlyDrawn D C S R next) :
    OnlyDrawn D C S R (deleteCandidate candidateId next) := by
  refine Program.only_select fun enrollments _ => ⟨?_, h⟩
  intro w hw
  rcases List.mem_append.mp hw with hw | hw
  · obtain ⟨e, _, rfl⟩ := List.mem_map.mp hw
    trivial
  · rw [List.mem_singleton.mp hw]
    trivial

theorem getOwnedEnrollment_only {candidateAssessmentId recruiterId : Uuid} {denied : String}
    {next : RecruiterEnrollment → Assessment → Option CandidateProfile → RecruiterProgram}
    (h : ∀ e a c, OnlyDrawn D C S R (next e a c)) :
    OnlyDrawn D C S R (getOwnedEnrollment candidateAssessmentId recruiterId denied next) := by
  refine Program.only_select ?_
  intro found?
  match found? with
  | none => trivial
  | some (_, none, _) => trivial
  | some (enrollment, some assessment, candidate) =>
    dsimp only
    split
    · trivial
    · exact h enrollment assessment candidate

theorem enrollRow_only {context : UploadContext} {rowIdx : ℕ} {row : UploadRow}
    {draws : RowDraws} {upload : Upload} {candidateId : Uuid} (hdrawn : D draws.enrollment.id)
    (h : ∀ upload, OnlyDrawn D C S R (rest upload)) :
    OnlyDrawn D C S R (enrollRow context rowIdx row draws upload candidateId rest) := by
  refine assertNoWindowOverlap_only ?_
  intro message
  cases message with
  | some message => exact h _
  | none => exact Program.only_write ⟨hdrawn, .inl ⟨rfl, rfl⟩⟩ (h _)

variable [Runtime]

theorem uploadRow_only {context : UploadContext} {rowIdx : ℕ} {row : UploadRow}
    {draws : RowDraws} {upload : Upload} (hdrawn : D draws.enrollment.id)
    (h : ∀ upload, OnlyDrawn D C S R (rest upload)) :
    OnlyDrawn D C S R (uploadRow context rowIdx row draws upload rest) := by
  unfold uploadRow
  split
  · exact h _
  · refine Program.only_select ?_
    intro existing?
    cases existing? with
    | none => exact Program.only_write trivial (enrollRow_only hdrawn h)
    | some existing =>
      refine Program.only_select ?_
      intro enrolled?
      cases enrolled? with
      | some enrolled => exact h _
      | none =>
        dsimp only
        split_ifs
        · exact Program.only_write trivial (enrollRow_only hdrawn h)
        · exact enrollRow_only hdrawn h

theorem uploadRows_only {context : UploadContext} {draws : ℕ → RowDraws} {rowIdx : ℕ}
    {rows : List UploadRow} {upload : Upload} (hdrawn : ∀ i, D (draws i).enrollment.id)
    (h : ∀ upload, OnlyDrawn D C S R (rest upload)) :
    OnlyDrawn D C S R (uploadRows context draws rowIdx rows upload rest) := by
  induction rows generalizing rowIdx upload with
  | nil => exact h upload
  | cons row rows ih => exact uploadRow_only (hdrawn rowIdx) fun _ => ih

theorem bulkUploadFromCsv_only (clock : Clock) (recruiterId assessmentId : Uuid)
    (file : CsvFile) (filename : String) (uploadId : Uuid) {draws : ℕ → RowDraws}
    (hdrawn : ∀ i, D (draws i).enrollment.id) :
    OnlyDrawn D C S (fun _ => True)
      (bulkUploadFromCsv clock recruiterId assessmentId file filename uploadId draws) := by
  refine getAssessmentById_only ?_
  intro assessment
  cases parseCsv file with
  | error exception => trivial
  | ok rows =>
    refine uploadRows_only hdrawn ?_
    intro upload _
    refine ⟨?_, Program.only_afterCommits (fun _ _ => trivial) trivial⟩
    intro w hw
    obtain ⟨event, _, rfl⟩ := List.mem_map.mp hw
    trivial

theorem createSingleCandidate_only (clock : Clock) (recruiterId : Uuid) (name email : String)
    (assessmentId : Uuid) (resumeFileBytes : List UInt8) (resumeFilename : String)
    {draws : RowDraws} (hdrawn : D draws.enrollment.id) :
    OnlyDrawn D C S (fun _ => True) (createSingleCandidate clock recruiterId name email assessmentId
      resumeFileBytes resumeFilename draws) := by
  refine Program.only_select ?_
  intro matched?
  cases matched?.filter (·.recruiterId == recruiterId) with
  | none => trivial
  | some matchedAssessment =>
    dsimp only
    generalize hcreate : Program.write (RecruiterWrite.insertCandidate _) _ = create
    have honly : OnlyDrawn D C S (fun _ => True) create := by
      subst hcreate
      refine Program.only_write trivial (assertNoWindowOverlap_only ?_)
      intro message
      cases message with
      | some message => trivial
      | none =>
        refine Program.only_select ?_
        intro enrolled?
        cases enrolled? with
        | some enrolled => trivial
        | none =>
          refine Program.only_write ⟨hdrawn, .inl ⟨rfl, rfl⟩⟩ ?_
          exact ⟨hdrawn, trivial, trivial, trivial⟩
    refine Program.only_select ?_
    intro existing?
    cases existing? with
    | none => exact honly
    | some existing =>
      refine Program.only_select ?_
      intro existingEnrollments
      split
      · trivial
      · exact deleteCandidate_only honly

omit [Runtime] in
theorem resumeColumns_new (uploaded : Option String) (enrollments : List RecruiterEnrollment) :
    let columns := resumeColumns uploaded enrollments
    columns.2.1 = "PENDING" ∧ columns.2.2 = none ∨
      columns.2.1 = "COMPLETED" ∧ columns.2.2.isSome := by
  unfold resumeColumns
  cases uploaded with
  | some filename => exact .inl ⟨rfl, rfl⟩
  | none =>
    cases hreusable : findReusableResumeEnrollment enrollments with
    | some reusable =>
      exact .inr ⟨rfl, (findReusableResumeEnrollment_eq_some hreusable).2.2⟩
    | none => exact .inl ⟨rfl, rfl⟩

omit [Runtime] in
theorem enrollExistingCandidate_only (clock : Clock) (recruiterId candidateId assessmentId : Uuid)
    (resumeFileBytes : Option (List UInt8)) (resumeFilename : Option String)
    {draws : CandidateAssessmentRepository.EnrollmentDraws} (hdrawn : D draws.id) :
    OnlyDrawn D C S (fun _ => True) (enrollExistingCandidate clock recruiterId candidateId assessmentId
      resumeFileBytes resumeFilename draws) := by
  refine Program.only_select ?_
  intro new?
  cases new?.filter (·.recruiterId == recruiterId) with
  | none => trivial
  | some newAssessment =>
    refine Program.only_select ?_
    intro candidate?
    cases candidate? with
    | none => trivial
    | some candidate =>
      refine Program.only_select ?_
      intro enrolled?
      cases enrolled? with
      | some enrolled => trivial
      | none =>
        refine Program.only_select ?_
        intro allEnrollments
        dsimp only
        split
        · trivial
        · refine assertNoWindowOverlap_only ?_
          intro message
          cases message with
          | some message => trivial
          | none =>
            refine Program.only_write ⟨hdrawn, resumeColumns_new _ _⟩ ⟨trivial, ?_⟩
            split
            · exact ⟨hdrawn, trivial, trivial⟩
            · trivial

end Drawn

section Requests

variable [Runtime]

theorem EnrollmentRequest.only (recruiterId : Uuid) (request : EnrollmentRequest) :
    OnlyDrawn request.Draws C S (fun _ => True) (request.program recruiterId) := by
  cases request with
  | bulkUploadFromCsv clock assessmentId file filename uploadId draws =>
    exact bulkUploadFromCsv_only clock recruiterId assessmentId file filename uploadId
      fun i => ⟨i, rfl⟩
  | createSingleCandidate clock name email assessmentId resumeFileBytes resumeFilename draws =>
    exact createSingleCandidate_only clock recruiterId name email assessmentId resumeFileBytes
      resumeFilename rfl
  | enrollExistingCandidate clock candidateId assessmentId resumeFileBytes resumeFilename draws =>
    exact enrollExistingCandidate_only clock recruiterId candidateId assessmentId resumeFileBytes
      resumeFilename rfl

omit [Runtime] in
theorem createAssessment_only (clock : Clock) (newId recruiterId : Uuid)
    (request : AssessmentCreateRequest) (jdFileBytes : List UInt8)
    (jdFilename : Option String) :
    OnlyDrawn (fun _ => False) C S (fun effect => ResumeTask.ofCallback effect = none)
      (createAssessment clock newId recruiterId request jdFileBytes jdFilename) := by
  unfold createAssessment
  split_ifs
  · trivial
  · exact Program.only_write trivial ⟨rfl, trivial⟩

/-- The other requests insert no enrollment, write no file and register no task. -/
theorem RecruiterRequest.only_of_not_enroll (recruiterId : Uuid) (request : RecruiterRequest)
    (h : ∀ enrollment, request ≠ .enroll enrollment) :
    OnlyDrawn request.Draws request.Decides request.SetsStatus
      (fun effect => ResumeTask.ofCallback effect = none) (request.program recruiterId) := by
  cases request with
  | enroll enrollment => exact absurd rfl (h enrollment)
  | createAssessment clock newId request jdFileBytes jdFilename =>
    exact createAssessment_only clock newId recruiterId request jdFileBytes jdFilename
  | updateStatus clock assessmentId newStatus =>
    refine getAssessmentById_only ?_
    intro assessment
    dsimp only
    split
    · exact ⟨trivial, Program.only_write trivial trivial⟩
    · exact Program.only_write trivial trivial
  | updateRecruiterDecision clock candidateAssessmentId decision feedback =>
    refine getOwnedEnrollment_only ?_
    intro enrollment assessment candidate
    refine Program.only_write trivial ?_
    split
    · exact ⟨trivial, trivial⟩
    · trivial
  | deleteCandidateFromAssessment candidateAssessmentId =>
    refine getOwnedEnrollment_only ?_
    intro enrollment _ _
    refine Program.only_write trivial (Program.only_select ?_)
    intro remainingEnrollments
    split
    · refine Program.only_select ?_
      intro candidate?
      cases candidate? with
      | none => trivial
      | some candidate => exact deleteCandidate_only trivial
    · trivial

theorem RecruiterRequest.exists_only (recruiterId : Uuid) (request : RecruiterRequest) :
    ∃ R : RecruiterEffect → Prop,
      OnlyDrawn request.Draws request.Decides request.SetsStatus R
        (request.program recruiterId) := by
  cases request with
  | enroll enrollment => exact ⟨_, enrollment.only recruiterId⟩
  | _ => exact ⟨_, RecruiterRequest.only_of_not_enroll recruiterId _ (by simp)⟩

end Requests

theorem resumeTask_eq (effect : RecruiterEffect) :
    resumeTask effect = (ResumeTask.ofCallback effect).map (·.candidateAssessmentId) := by
  cases effect with
  | _ => rfl

section Rows

variable {D : Uuid → Prop} {db after : RecruiterDatabase} {registered : List RecruiterEffect}
  {new : List RecruiterEnrollment} {scheduled : List Uuid}

structure SameResume (e₀ e : RecruiterEnrollment) : Prop where
  id : e₀.id = e.id
  status : e₀.resumeParseStatus = e.resumeParseStatus
  parsed : e₀.resumeParsed = e.resumeParsed

/-- The enrollments are the ones from before with their resumes, and new ones. -/
def KeptOrDrawn (D : Uuid → Prop) (db after : RecruiterDatabase) : Prop :=
  ∀ e ∈ after.enrollments, D e.id ∧ NewColumns e ∨ ∃ e₀ ∈ db.enrollments, SameResume e₀ e

theorem KeptOrDrawn.refl : KeptOrDrawn D db db := fun e he => .inr ⟨e, he, rfl, rfl, rfl⟩

theorem KeptOrDrawn.apply {C S : Prop} {w : RecruiterWrite} (hw : DrawnWrite D C S w)
    (h : KeptOrDrawn D db after) : KeptOrDrawn D db (RecruiterWrite.apply after w) := by
  cases w with
  | insertEnrollment enrollment =>
    intro e he
    rcases List.mem_append.mp he with he | he
    · exact h e he
    · rw [List.mem_singleton.mp he]
      exact .inl hw
  | decide clock enrollmentId decision feedback =>
    intro e he
    obtain ⟨e₀, he₀, rfl⟩ := Tables.mem_updateWhere.mp he
    let u := RecruiterWrite.decided clock decision feedback
    have hset : SameResume (u.onRow (·.id == enrollmentId) e₀) e₀ := by
      unfold Tables.Update.onRow
      split
      · exact ⟨rfl, rfl, rfl⟩
      · exact ⟨rfl, rfl, rfl⟩
    rcases h e₀ he₀ with ⟨hdrawn, hcolumns⟩ | ⟨e₁, he₁, hsame⟩
    · refine .inl ⟨hset.id ▸ hdrawn, ?_⟩
      unfold NewColumns
      rw [hset.status, hset.parsed]
      exact hcolumns
    · exact .inr ⟨e₁, he₁, hsame.id.trans hset.id.symm, hsame.status.trans hset.status.symm,
        hsame.parsed.trans hset.parsed.symm⟩
  | deleteEnrollment enrollmentId =>
    cases hfound : after.enrollment? enrollmentId with
    | none =>
      rw [apply_deleteEnrollment_none hfound]
      exact h
    | some e =>
      rw [apply_deleteEnrollment_some hfound]
      exact fun e' he' => h e' (List.mem_of_mem_filter he')
  | insertAssessment | updateStatus | insertCandidate | renameCandidate | deleteCandidate
  | recordEvent => exact h

theorem Enrolls.starts (h : Enrolls db after registered new scheduled) (hafter : after.Keyed)
    (hkept : KeptOrDrawn D db after) (hscheduled : scheduled.Sublist (new.map (·.id)))
    (hpending : ∀ e ∈ new, e.id ∈ scheduled → e.resumeParseStatus = "PENDING") :
    scheduled.Nodup ∧ ∀ id ∈ scheduled, D id ∧
      ∀ e ∈ after.enrollments, e.id = id → e.resumeParseStatus = "PENDING" := by
  refine ⟨(h.ids_nodup hafter).sublist hscheduled, fun id hid => ?_⟩
  obtain ⟨e, he, rfl⟩ := List.mem_map.mp (hscheduled.subset hid)
  obtain ⟨hmem, hfresh⟩ := (h.mem_new_iff hafter).mpr he
  constructor
  · rcases hkept e hmem with ⟨hdrawn, _⟩ | ⟨e₀, he₀, hsame⟩
    · exact hdrawn
    · exact absurd (List.mem_map.mpr ⟨e₀, he₀, hsame.id⟩) hfresh
  · intro e' he' hsame
    obtain rfl := List.inj_on_of_nodup_map hafter.enrollmentIds he' hmem hsame
    exact hpending e' he hid

end Rows

section Committed

variable [Runtime] {db after : RecruiterDatabase} {response : RecruiterResponse}
  {recruiterId : Uuid} {registered : List RecruiterEffect}

theorem RecruiterRequest.kept (request : RecruiterRequest)
    (hrun : (request.program recruiterId).perform recruiterEngine db [] =
      .ok (response, after, registered)) : KeptOrDrawn request.Draws db after := by
  obtain ⟨R, honly⟩ := request.exists_only recruiterId
  exact (honly.perform (KeptOrDrawn request.Draws db) (fun _ _ hw _ => .apply hw) hrun .refl
    (by simp)).1

/-- The enrollments whose resumes a committed request schedules are drawn, and pending. -/
theorem RecruiterRequest.schedules (request : RecruiterRequest) (hkeyed : db.Keyed)
    (hrun : (request.program recruiterId).perform recruiterEngine db [] =
      .ok (response, after, registered)) :
    (registered.filterMap resumeTask).Nodup ∧ ∀ id ∈ registered.filterMap resumeTask,
      request.Draws id ∧ ∀ e ∈ after.enrollments, e.id = id → e.resumeParseStatus = "PENDING" := by
  have hafter : after.Keyed :=
    Program.perform_invariant RecruiterDatabase.Keyed (fun _ _ hw hs => hs.apply hw) hrun hkeyed
  have hkept := request.kept hrun
  by_cases henroll : ∃ enrollment, request = .enroll enrollment
  · obtain ⟨enrollment, rfl⟩ := henroll
    cases enrollment with
    | bulkUploadFromCsv clock assessmentId file filename uploadId draws =>
      obtain ⟨new, hpending, henrolls⟩ := bulkUploadFromCsv_performs hkeyed hrun
      rw [henrolls.tasks]
      exact henrolls.starts hafter hkept (List.Sublist.refl _) fun e he _ => hpending e he
    | createSingleCandidate clock name email assessmentId resumeFileBytes resumeFilename draws =>
      obtain ⟨e, hpending, henrolls⟩ := createSingleCandidate_performs hrun
      rw [henrolls.tasks]
      refine henrolls.starts hafter hkept (List.Sublist.refl _) ?_
      simpa using hpending
    | enrollExistingCandidate clock candidateId assessmentId resumeFileBytes resumeFilename draws =>
      obtain ⟨e, _, hcolumns, henrolls⟩ := enrollExistingCandidate_performs hrun
      rw [henrolls.tasks]
      cases hfile : uploadedResume resumeFileBytes resumeFilename with
      | none => simp
      | some filename =>
        rw [hfile] at hcolumns henrolls
        simp only [resumeColumns, Prod.mk.injEq] at hcolumns
        refine henrolls.starts hafter hkept (List.Sublist.refl _) ?_
        simpa using hcolumns.2.1
  · have honly := RecruiterRequest.only_of_not_enroll recruiterId request
      fun enrollment heq => henroll ⟨enrollment, heq⟩
    have hregistered := (honly.perform (fun _ => True) (fun _ _ _ _ _ => trivial) hrun trivial
      (by simp)).2
    have hnone : registered.filterMap resumeTask = [] := by
      rw [List.filterMap_eq_nil_iff]
      intro effect heffect
      rw [resumeTask_eq, hregistered effect heffect]
      rfl
    rw [hnone]
    simp

end Committed

end IBotCoreApi
