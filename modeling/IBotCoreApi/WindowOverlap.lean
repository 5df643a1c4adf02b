import IBotCoreApi.Library.Interleavings
import IBotCoreApi.RecruiterRequests

namespace IBotCoreApi
open Python Transactions RecruiterRequests

/-- The status is neither `COMPLETED` nor `EVALUATED`. -/
def RecruiterEnrollment.Unfinished (e : RecruiterEnrollment) : Prop :=
  e.status ∉ completedEnrollmentStatuses

instance RecruiterEnrollment.decidableUnfinished (e : RecruiterEnrollment) :
    Decidable e.Unfinished :=
  inferInstanceAs (Decidable (e.status ∉ completedEnrollmentStatuses))

namespace RecruiterDatabase

def overlapping (db : RecruiterDatabase) (assessmentId assessmentId' : Uuid) : Bool :=
  match db.assessment? assessmentId, db.assessment? assessmentId' with
  | some a, some a' => windowsOverlap a a'
  | _, _ => false

def NoOverlap (db : RecruiterDatabase) : Prop :=
  ∀ e ∈ db.enrollments, ∀ e' ∈ db.enrollments, e.id ≠ e'.id → e.candidateId = e'.candidateId →
    e.Unfinished → e'.Unfinished → db.overlapping e.assessmentId e'.assessmentId = false

/-- An enrollment that a check for another assessment has to find. -/
def Bars (db : RecruiterDatabase) (e : RecruiterEnrollment) (check : OverlapCheck) : Prop :=
  e.candidateId = check.candidateId ∧ e.Unfinished ∧
    db.overlapping check.assessmentId e.assessmentId = true

def Admits (db : RecruiterDatabase) (check : OverlapCheck) : Prop :=
  ∀ a, db.assessment? check.assessmentId = some a →
    (getAllByCandidateId db check.candidateId).findSome? (overlapReason a) = none

end RecruiterDatabase

abbrev RecruiterObservation := Observation RecruiterDatabase RecruiterWrite OverlapCheck

abbrev RecruiterCommit (ι : Type) := Commit RecruiterDatabase RecruiterWrite OverlapCheck ι

/-- Between a check that admits an enrollment and the commit of its request, no other request commits
an enrollment that the check would have found. -/
def Unraced {ι : Type} (db : RecruiterDatabase) (log : List (RecruiterCommit ι)) : Prop :=
  ∀ before c after, log = before ++ c :: after → ∀ o ∈ c.history, ∀ check ∈ o.reads,
    o.view.Admits check → ∀ other ∈ before.drop o.position,
      ∀ e, RecruiterWrite.insertEnrollment e ∈ other.writes → ¬ db.Bars e check

section Overlap

variable {db : RecruiterDatabase}

theorem windowsOverlap_comm (a a' : Assessment) : windowsOverlap a a' = windowsOverlap a' a :=
  Bool.and_comm _ _

theorem RecruiterDatabase.overlapping_comm (assessmentId assessmentId' : Uuid) :
    db.overlapping assessmentId assessmentId' = db.overlapping assessmentId' assessmentId := by
  unfold RecruiterDatabase.overlapping
  cases db.assessment? assessmentId with
  | none => cases db.assessment? assessmentId' <;> rfl
  | some a =>
    cases db.assessment? assessmentId' with
    | none => rfl
    | some a' => exact windowsOverlap_comm a a'

theorem RecruiterDatabase.overlapping_congr {db' : RecruiterDatabase}
    (h : db'.assessments = db.assessments) : db'.overlapping = db.overlapping := by
  funext assessmentId assessmentId'
  unfold RecruiterDatabase.overlapping RecruiterDatabase.assessment?
  rw [h]

theorem RecruiterDatabase.Admits.not_bars {check : OverlapCheck} (h : db.Admits check)
    {e : RecruiterEnrollment} (he : e ∈ db.enrollments) : ¬ db.Bars e check := by
  rintro ⟨hcandidate, hunfinished, hoverlap⟩
  unfold RecruiterDatabase.overlapping at hoverlap
  cases ha : db.assessment? check.assessmentId with
  | none => simp [ha] at hoverlap
  | some a =>
    cases ha' : db.assessment? e.assessmentId with
    | none => simp [ha, ha'] at hoverlap
    | some a' =>
      simp only [ha, ha'] at hoverlap
      have hmem : (e, some a') ∈ getAllByCandidateId db check.candidateId := by
        refine List.mem_map.mpr ⟨e, Sorting.mem_sortedDown.mpr ?_, by rw [ha']⟩
        exact List.mem_filter.mpr ⟨he, beq_iff_eq.mpr hcandidate⟩
      have hnone := List.findSome?_eq_none_iff.mp (h a ha) _ hmem
      have hstatus : e.status ∉ completedEnrollmentStatuses := hunfinished
      simp [overlapReason, hoverlap, hstatus] at hnone

end Overlap

/-- The writes of the enrolling requests: they change no assessment and no enrollment in place. -/
def RecruiterWrite.Enrolling : RecruiterWrite → Prop
  | insertAssessment _ | updateStatus _ _ _ | decide _ _ _ _ => False
  | _ => True

def Loaded (history : List RecruiterObservation) (assessment : Assessment) : Prop :=
  ∃ o ∈ history, o.view.assessment? assessment.id = some assessment

/-- Every inserted enrollment follows a check that admits it, with nothing written in between. -/
inductive Checked : List RecruiterObservation → Prop
  | nil : Checked []
  | other {history : List RecruiterObservation} {o : RecruiterObservation} (h : Checked history)
      (hwrites : ∀ w ∈ o.writes, w.Enrolling ∧ ∀ e, w ≠ .insertEnrollment e) :
      Checked (history ++ [o])
  | enroll {earlier later : List RecruiterObservation} {position : ℕ} {view : RecruiterDatabase}
      {assessment : Assessment} {e : RecruiterEnrollment}
      (h : Checked (earlier ++ [⟨position, view, [⟨e.candidateId, assessment.id⟩], []⟩] ++ later))
      (hloaded : Loaded earlier assessment) (hassessment : e.assessmentId = assessment.id)
      (hadmits : (getAllByCandidateId view e.candidateId).findSome? (overlapReason assessment) =
        none)
      (hlater : written later = []) (position' : ℕ) (view' : RecruiterDatabase) :
      Checked (earlier ++ [⟨position, view, [⟨e.candidateId, assessment.id⟩], []⟩] ++ later ++
        [⟨position', view', [], [.insertEnrollment e]⟩])

section Programs

variable {history : List RecruiterObservation} {assessment : Assessment}

theorem Loaded.snoc (h : Loaded history assessment) (o : RecruiterObservation) :
    Loaded (history ++ [o]) assessment := by
  obtain ⟨o', ho', hread⟩ := h
  exact ⟨o', List.mem_append_left _ ho', hread⟩

theorem Checked.read (h : Checked history) (position : ℕ) (view : RecruiterDatabase)
    (reads : List OverlapCheck) : Checked (history ++ [⟨position, view, reads, []⟩]) :=
  h.other (by simp)

theorem Checked.write (h : Checked history) (w : RecruiterWrite) (hw : w.Enrolling)
    (hother : ∀ e, w ≠ .insertEnrollment e) (position : ℕ) (view : RecruiterDatabase) :
    Checked (history ++ [⟨position, view, [], [w]⟩]) := by
  refine h.other ?_
  intro w' hw'
  rw [List.mem_singleton.mp hw']
  exact ⟨hw, hother⟩

theorem Checked.enrollNext {view : RecruiterDatabase} (h : Checked history)
    (hloaded : Loaded history assessment) (e : RecruiterEnrollment)
    (hassessment : e.assessmentId = assessment.id)
    (hadmits : (getAllByCandidateId view e.candidateId).findSome? (overlapReason assessment) =
      none) (position position' : ℕ) (view' : RecruiterDatabase) :
    Checked (history ++ [⟨position, view, [⟨e.candidateId, assessment.id⟩], []⟩] ++
      [⟨position', view', [], [.insertEnrollment e]⟩]) := by
  have hread := h.read position view [⟨e.candidateId, assessment.id⟩]
  rw [← List.append_nil (history ++ _)] at hread
  have henrolled := hread.enroll hloaded hassessment hadmits rfl position' view'
  rwa [List.append_nil] at henrolled

theorem getAssessmentById_ensures {assessmentId recruiterId : Uuid}
    {next : Assessment → RecruiterProgram} (h : Checked history)
    (hnext : ∀ history' assessment, Checked history' → Loaded history' assessment →
      (next assessment).Ensures Checked history') :
    (getAssessmentById assessmentId recruiterId next).Ensures Checked history := by
  intro position view
  dsimp only
  cases hfound : view.assessment? assessmentId with
  | none => trivial
  | some assessment =>
    dsimp only
    split
    · trivial
    · refine hnext _ assessment (h.read position view []) ⟨_, List.mem_append_right _
        List.mem_cons_self, ?_⟩
      have hid : assessment.id = assessmentId := Tables.lookup_key hfound
      rw [hid]
      exact hfound

theorem deleteCandidate_ensures {candidateId : Uuid} {next : RecruiterProgram}
    (h : Checked history) (hloaded : Loaded history assessment)
    (hnext : ∀ history', Checked history' → Loaded history' assessment →
      next.Ensures Checked history') :
    (deleteCandidate candidateId next).Ensures Checked history := by
  intro position view position' view'
  refine hnext _ ((h.read position view []).other ?_) ((hloaded.snoc _).snoc _)
  intro w hw
  rcases List.mem_append.mp hw with hw | hw
  · obtain ⟨e, _, rfl⟩ := List.mem_map.mp hw
    exact ⟨trivial, by simp⟩
  · rw [List.mem_singleton.mp hw]
    exact ⟨trivial, by simp⟩

variable {context : UploadContext} {rowIdx : ℕ} {row : UploadRow} {upload : Upload}
  {rest : Upload → RecruiterProgram}

theorem enrollRow_ensures {draws : RowDraws} {candidateId : Uuid} (h : Checked history)
    (hloaded : Loaded history context.assessment)
    (hrest : ∀ history' upload, Checked history' → Loaded history' context.assessment →
      (rest upload).Ensures Checked history') :
    (enrollRow context rowIdx row draws upload candidateId rest).Ensures Checked history := by
  intro position view
  dsimp only
  cases hfound : (getAllByCandidateId view candidateId).findSome?
      (overlapReason context.assessment) with
  | some message => exact hrest _ _ (h.read position view _) (hloaded.snoc _)
  | none =>
    refine Program.ensures_write.mpr ?_
    intro position' view'
    have henrolled := h.enrollNext hloaded (newEnrollment context.clock draws.enrollment candidateId
      context.assessment.id row.resume "PENDING" none) rfl hfound position position' view'
    exact hrest _ _ henrolled ((hloaded.snoc _).snoc _)

variable [Runtime]

theorem uploadRow_ensures {draws : RowDraws} (h : Checked history)
    (hloaded : Loaded history context.assessment)
    (hrest : ∀ history' upload, Checked history' → Loaded history' context.assessment →
      (rest upload).Ensures Checked history') :
    (uploadRow context rowIdx row draws upload rest).Ensures Checked history := by
  unfold uploadRow
  split
  · exact hrest _ _ h hloaded
  · intro position view
    have hread := h.read position view []
    dsimp only
    cases getByEmail view row.email with
    | none =>
      refine Program.ensures_write.mpr ?_
      intro position' view'
      exact enrollRow_ensures (hread.write (.insertCandidate _) trivial (by simp) position' view')
        ((hloaded.snoc _).snoc _) hrest
    | some existing =>
      intro position' view'
      have hread' := hread.read position' view' []
      dsimp only
      cases view'.enrollmentOf? existing.id context.assessment.id with
      | some enrolled => exact hrest _ _ hread' ((hloaded.snoc _).snoc _)
      | none =>
        dsimp only
        split
        · refine Program.ensures_write.mpr ?_
          intro position'' view''
          exact enrollRow_ensures (hread'.write (.renameCandidate _ _) trivial (by simp) position''
            view'') (((hloaded.snoc _).snoc _).snoc _) hrest
        · exact enrollRow_ensures hread' ((hloaded.snoc _).snoc _) hrest

theorem uploadRows_ensures {draws : ℕ → RowDraws} {rows : List UploadRow} (h : Checked history)
    (hloaded : Loaded history context.assessment)
    (hrest : ∀ history' upload, Checked history' → Loaded history' context.assessment →
      (rest upload).Ensures Checked history') :
    (uploadRows context draws rowIdx rows upload rest).Ensures Checked history := by
  induction rows generalizing rowIdx upload history with
  | nil => exact hrest history upload h hloaded
  | cons row rows ih => exact uploadRow_ensures h hloaded fun _ _ h' hloaded' => ih h' hloaded'

omit [Runtime] in
theorem finishUpload_ensures {totalRows : ℕ} (h : Checked history) :
    (finishUpload context totalRows upload).Ensures Checked history := by
  intro position view
  have hrecorded : Checked (history ++
      [⟨position, view, [], upload.failureEvents.map .recordEvent⟩]) := by
    refine h.other ?_
    intro w hw
    obtain ⟨event, _, rfl⟩ := List.mem_map.mp hw
    exact ⟨trivial, by simp⟩
  generalize callbacks context.assessment upload.processed = effects
  induction effects with
  | nil => exact hrecorded
  | cons effect effects ih => exact ih

theorem bulkUploadFromCsv_ensures (clock : Clock) (recruiterId assessmentId : Uuid)
    (file : CsvFile) (filename : String) (uploadId : Uuid) (draws : ℕ → RowDraws) :
    (bulkUploadFromCsv clock recruiterId assessmentId file filename uploadId draws).Ensures Checked
      [] := by
  refine getAssessmentById_ensures .nil ?_
  intro history assessment h hloaded
  cases parseCsv file with
  | error exception => trivial
  | ok rows => exact uploadRows_ensures h hloaded fun _ _ h' _ => finishUpload_ensures h'

theorem createSingleCandidate_ensures (clock : Clock) (recruiterId : Uuid) (name email : String)
    (assessmentId : Uuid) (resumeFileBytes : List UInt8) (resumeFilename : String)
    (draws : RowDraws) :
    (createSingleCandidate clock recruiterId name email assessmentId resumeFileBytes
      resumeFilename draws).Ensures Checked [] := by
  intro position view
  have hread := Checked.nil.read position view []
  dsimp only
  cases hmatched : (view.assessment? assessmentId).filter (·.recruiterId == recruiterId) with
  | none => trivial
  | some matchedAssessment =>
    have hfound : view.assessment? assessmentId = some matchedAssessment :=
      (Option.filter_eq_some_iff.mp hmatched).1
    have hid : matchedAssessment.id = assessmentId := Tables.lookup_key hfound
    have hloaded : Loaded ([] ++ [⟨position, view, [], []⟩]) matchedAssessment :=
      ⟨_, List.mem_cons_self, by rw [hid]; exact hfound⟩
    dsimp only
    -- both branches end in the same creation, with or without a deletion before it
    generalize hcreate : Program.write (RecruiterWrite.insertCandidate _) _ = create
    have hcreates (history : List RecruiterObservation) (h : Checked history)
        (hloaded : Loaded history matchedAssessment) : create.Ensures Checked history := by
      subst hcreate
      refine Program.ensures_write.mpr ?_
      intro position₁ view₁
      have hwrite := h.write (.insertCandidate ⟨⟨draws.candidateId, name⟩, normalizedEmail email,
        recruiterId⟩) trivial (by simp) position₁ view₁
      intro position₂ view₂
      have hcheck := hwrite.read position₂ view₂ [⟨draws.candidateId, matchedAssessment.id⟩]
      dsimp only
      cases hadmits : (getAllByCandidateId view₂ draws.candidateId).findSome?
          (overlapReason matchedAssessment) with
      | some message => trivial
      | none =>
        intro position₃ view₃
        dsimp only
        cases view₃.enrollmentOf? draws.candidateId assessmentId with
        | some enrolled => trivial
        | none =>
          refine Program.ensures_write.mpr ?_
          intro position₄ view₄
          have hduplicate := hcheck.read position₃ view₃ []
          exact .enroll (e := newEnrollment clock draws.enrollment draws.candidateId assessmentId
            resumeFilename "PENDING" none) hduplicate (hloaded.snoc _) hid.symm hadmits rfl position₄
              view₄
    intro position' view'
    have hread' := hread.read position' view' []
    dsimp only
    cases getByEmail view' email with
    | none => exact hcreates _ hread' (hloaded.snoc _)
    | some existing =>
      intro position'' view''
      dsimp only
      split
      · trivial
      · exact deleteCandidate_ensures (hread'.read position'' view'' [])
          ((hloaded.snoc _).snoc _) hcreates

omit [Runtime] in
theorem enrollExistingCandidate_ensures (clock : Clock)
    (recruiterId candidateId assessmentId : Uuid) (resumeFileBytes : Option (List UInt8))
    (resumeFilename : Option String) (draws : CandidateAssessmentRepository.EnrollmentDraws) :
    (enrollExistingCandidate clock recruiterId candidateId assessmentId resumeFileBytes
      resumeFilename draws).Ensures Checked [] := by
  intro position view
  have hread := Checked.nil.read position view []
  dsimp only
  cases hmatched : (view.assessment? assessmentId).filter (·.recruiterId == recruiterId) with
  | none => trivial
  | some newAssessment =>
    have hfound : view.assessment? assessmentId = some newAssessment :=
      (Option.filter_eq_some_iff.mp hmatched).1
    have hid : newAssessment.id = assessmentId := Tables.lookup_key hfound
    have hloaded : Loaded ([] ++ [⟨position, view, [], []⟩]) newAssessment :=
      ⟨_, List.mem_cons_self, by rw [hid]; exact hfound⟩
    intro position₁ view₁
    dsimp only
    cases view₁.candidate? candidateId with
    | none => trivial
    | some candidate =>
      intro position₂ view₂
      dsimp only
      cases view₂.enrollmentOf? candidateId assessmentId with
      | some enrolled => trivial
      | none =>
        intro position₃ view₃
        have hread₃ := ((hread.read position₁ view₁ []).read position₂ view₂ []).read position₃
          view₃ []
        have hloaded₃ := ((hloaded.snoc ⟨position₁, view₁, [], []⟩).snoc
          ⟨position₂, view₂, [], []⟩).snoc ⟨position₃, view₃, [], []⟩
        dsimp only
        split
        · trivial
        · intro position₄ view₄
          dsimp only
          cases hadmits : (getAllByCandidateId view₄ candidateId).findSome?
              (overlapReason newAssessment) with
          | some message => trivial
          | none =>
            dsimp only
            -- the resume has no part in the checks
            generalize resumeColumns _ _ = columns
            obtain ⟨path, status, parsed⟩ := columns
            refine Program.ensures_write.mpr ?_
            intro position₅ view₅
            have henrolled := hread₃.enrollNext hloaded₃ (newEnrollment clock draws candidateId
              assessmentId path status parsed) hid.symm hadmits position₄ position₅ view₅
            change Program.Ensures Checked _ (if _ then _ else _)
            split
            · exact henrolled
            · exact henrolled

theorem EnrollmentRequest.ensures (recruiterId : Uuid) (request : EnrollmentRequest) :
    (request.program recruiterId).Ensures Checked [] := by
  cases request with
  | bulkUploadFromCsv clock assessmentId file filename uploadId draws =>
    exact bulkUploadFromCsv_ensures clock recruiterId assessmentId file filename uploadId draws
  | createSingleCandidate clock name email assessmentId resumeFileBytes resumeFilename draws =>
    exact createSingleCandidate_ensures clock recruiterId name email assessmentId resumeFileBytes
      resumeFilename draws
  | enrollExistingCandidate clock candidateId assessmentId resumeFileBytes resumeFilename draws =>
    exact enrollExistingCandidate_ensures clock recruiterId candidateId assessmentId
      resumeFileBytes resumeFilename draws

end Programs

section Writes

variable {db db' : RecruiterDatabase} {w : RecruiterWrite} {ws : List RecruiterWrite}

theorem Checked.enrolling {history : List RecruiterObservation} (h : Checked history) :
    ∀ w ∈ written history, w.Enrolling := by
  induction h with
  | nil => simp [written]
  | other _ hwrites ih =>
    intro w hw
    rw [written, List.flatMap_append, List.flatMap_singleton, List.mem_append] at hw
    rcases hw with hw | hw
    · exact ih w hw
    · exact (hwrites w hw).1
  | enroll _ _ _ _ _ _ _ ih =>
    intro w hw
    rw [written, List.flatMap_append, List.flatMap_singleton, List.mem_append] at hw
    rcases hw with hw | hw
    · exact ih w hw
    · rw [List.mem_singleton.mp hw]
      trivial

theorem RecruiterWrite.Enrolling.assessments (hw : w.Enrolling) (db : RecruiterDatabase) :
    (recruiterEngine.apply db w).assessments = db.assessments := by
  cases w with
  | insertAssessment | updateStatus | decide => cases hw
  | deleteEnrollment enrollmentId =>
    change (RecruiterWrite.apply db _).assessments = _
    cases hfound : db.enrollment? enrollmentId with
    | none => rw [apply_deleteEnrollment_none hfound]
    | some e =>
      rw [apply_deleteEnrollment_some hfound]
      rfl
  | _ => rfl

theorem applyAll_assessments (h : ∀ w ∈ ws, w.Enrolling) (db : RecruiterDatabase) :
    (recruiterEngine.applyAll db ws).assessments = db.assessments :=
  recruiterEngine.applyAll_frame (·.assessments) (fun db w hw => (h w hw).assessments db) db

theorem mem_enrollments_apply (hw : w.Enrolling) {e : RecruiterEnrollment} :
    e ∈ (recruiterEngine.apply db w).enrollments ↔
      (e ∈ db.enrollments ∧ ∀ enrollmentId, w = .deleteEnrollment enrollmentId → e.id ≠ enrollmentId) ∨
        w = .insertEnrollment e := by
  cases w with
  | insertAssessment | updateStatus | decide => cases hw
  | deleteEnrollment enrollmentId =>
    change e ∈ (RecruiterWrite.apply db _).enrollments ↔ _
    cases hfound : db.enrollment? enrollmentId with
    | none =>
      rw [apply_deleteEnrollment_none hfound]
      have hnone := Tables.lookup_eq_none_iff.mp hfound
      simp only [RecruiterWrite.deleteEnrollment.injEq, forall_eq', reduceCtorEq, or_false]
      constructor
      · intro he
        refine ⟨he, ?_⟩
        rintro rfl
        exact hnone (List.mem_map_of_mem he)
      · exact And.left
    | some found =>
      rw [apply_deleteEnrollment_some hfound]
      have hid := Tables.lookup_key hfound
      simp [RecruiterWrite.deleteWith, hid]
  | insertEnrollment enrollment =>
    change e ∈ db.enrollments ++ [enrollment] ↔ _
    simp [eq_comm]
  | insertCandidate | renameCandidate | deleteCandidate | recordEvent =>
    change e ∈ db.enrollments ↔ _
    simp

/-- The enrollments that bar a check in one database are all in another one. -/
def Covers (base : RecruiterDatabase) (check : OverlapCheck) (db db' : RecruiterDatabase) : Prop :=
  ∀ e ∈ db.enrollments, base.Bars e check → e ∈ db'.enrollments

variable {base : RecruiterDatabase} {check : OverlapCheck}

theorem Covers.apply (h : Covers base check db db') (hw : w.Enrolling) :
    Covers base check (recruiterEngine.apply db w) (recruiterEngine.apply db' w) := by
  intro e he hbars
  rcases (mem_enrollments_apply hw).mp he with ⟨hold, hkept⟩ | hnew
  · exact (mem_enrollments_apply hw).mpr (.inl ⟨h e hold hbars, hkept⟩)
  · exact (mem_enrollments_apply hw).mpr (.inr hnew)

theorem Covers.applyAll (h : Covers base check db db') (hws : ∀ w ∈ ws, w.Enrolling) :
    Covers base check (recruiterEngine.applyAll db ws) (recruiterEngine.applyAll db' ws) := by
  induction ws generalizing db db' with
  | nil => exact h
  | cons w ws ih =>
    exact ih (h.apply (hws w List.mem_cons_self)) fun w' hw' => hws w' (List.mem_cons_of_mem w hw')

theorem covers_applyAll (hws : ∀ w ∈ ws, w.Enrolling)
    (hnone : ∀ e, RecruiterWrite.insertEnrollment e ∈ ws → ¬ base.Bars e check)
    (db : RecruiterDatabase) : Covers base check (recruiterEngine.applyAll db ws) db := by
  induction ws generalizing db with
  | nil => exact fun e he _ => he
  | cons w ws ih =>
    intro e he hbars
    have hstep := ih (fun w' hw' => hws w' (List.mem_cons_of_mem w hw'))
      (fun e' he' => hnone e' (List.mem_cons_of_mem w he')) (recruiterEngine.apply db w) e he hbars
    rcases (mem_enrollments_apply (hws w List.mem_cons_self)).mp hstep with ⟨hold, _⟩ | rfl
    · exact hold
    · exact absurd hbars (hnone e List.mem_cons_self)

end Writes

section Commits

variable {ι : Type} {db : RecruiterDatabase} {before : List (RecruiterCommit ι)}

theorem NoOverlap.apply_other {w : RecruiterWrite} (h : db.NoOverlap) (hw : w.Enrolling)
    (hother : ∀ e, w ≠ .insertEnrollment e) : (recruiterEngine.apply db w).NoOverlap := by
  intro e he e' he'
  rw [RecruiterDatabase.overlapping_congr (hw.assessments db)]
  rcases (mem_enrollments_apply hw).mp he with ⟨hold, _⟩ | rfl
  · rcases (mem_enrollments_apply hw).mp he' with ⟨hold', _⟩ | rfl
    · exact h e hold e' hold'
    · exact absurd rfl (hother e')
  · exact absurd rfl (hother e)

theorem NoOverlap.apply_insertEnrollment {e : RecruiterEnrollment} (h : db.NoOverlap)
    (hfree : ∀ e' ∈ db.enrollments, e'.candidateId = e.candidateId → e'.Unfinished →
      db.overlapping e.assessmentId e'.assessmentId = false) :
    (recruiterEngine.apply db (.insertEnrollment e)).NoOverlap := by
  have hw : (RecruiterWrite.insertEnrollment e).Enrolling := trivial
  intro e₁ he₁ e₂ he₂ hne hcandidate hunfinished₁ hunfinished₂
  rw [RecruiterDatabase.overlapping_congr (hw.assessments db)]
  rcases (mem_enrollments_apply hw).mp he₁ with ⟨hold₁, _⟩ | hnew₁
  · rcases (mem_enrollments_apply hw).mp he₂ with ⟨hold₂, _⟩ | hnew₂
    · exact h e₁ hold₁ e₂ hold₂ hne hcandidate hunfinished₁ hunfinished₂
    · cases hnew₂
      rw [RecruiterDatabase.overlapping_comm]
      exact hfree e₁ hold₁ hcandidate hunfinished₁
  · cases hnew₁
    rcases (mem_enrollments_apply hw).mp he₂ with ⟨hold₂, _⟩ | hnew₂
    · exact hfree e₂ hold₂ hcandidate.symm hunfinished₂
    · cases hnew₂
      exact absurd rfl hne

theorem replay_assessments (hbefore : ∀ c ∈ before, ∀ w ∈ c.writes, w.Enrolling) :
    (replay recruiterEngine db before).assessments = db.assessments := by
  refine applyAll_assessments ?_ db
  intro w hw
  obtain ⟨c, hc, hwc⟩ := List.mem_flatMap.mp hw
  exact hbefore c hc w hwc

theorem view_assessments {history : List RecruiterObservation}
    (hbefore : ∀ c ∈ before, ∀ w ∈ c.writes, w.Enrolling)
    (hviews : Views recruiterEngine db before history) (henrolling : ∀ w ∈ written history, w.Enrolling)
    {o : RecruiterObservation} (ho : o ∈ history) : o.view.assessments = db.assessments := by
  obtain ⟨earlier, later, rfl⟩ := List.append_of_mem ho
  rw [hviews.view earlier o later rfl, applyAll_assessments, replay_assessments]
  · intro c hc
    exact hbefore c (List.mem_of_mem_take hc)
  · intro w hw
    refine henrolling w ?_
    rw [written, List.flatMap_append]
    exact List.mem_append_left _ hw

theorem Loaded.found {history : List RecruiterObservation} {assessment : Assessment}
    (h : Loaded history assessment) (hbefore : ∀ c ∈ before, ∀ w ∈ c.writes, w.Enrolling)
    (hviews : Views recruiterEngine db before history)
    (henrolling : ∀ w ∈ written history, w.Enrolling) :
    db.assessment? assessment.id = some assessment := by
  obtain ⟨o, ho, hread⟩ := h
  rwa [RecruiterDatabase.assessment?, view_assessments hbefore hviews henrolling ho] at hread

/-- What an admitting check did not find is not there either when its transaction commits, unless a
commit in between has inserted it. -/
theorem not_bars_of_admits {earlier later : List RecruiterObservation} {o : RecruiterObservation}
    {check : OverlapCheck} (hbefore : ∀ c ∈ before, ∀ w ∈ c.writes, w.Enrolling)
    (hviews : Views recruiterEngine db before (earlier ++ o :: later))
    (henrolling : ∀ w ∈ written (earlier ++ o :: later), w.Enrolling) (hadmits : o.view.Admits check)
    (hunraced : ∀ other ∈ before.drop o.position, ∀ e,
      RecruiterWrite.insertEnrollment e ∈ other.writes → ¬ db.Bars e check) :
    ∀ e ∈ (recruiterEngine.applyAll (replay recruiterEngine db before)
      (written earlier)).enrollments, ¬ db.Bars e check := by
  -- the commits after the check insert nothing that bars it
  have hcommits : Covers db check (replay recruiterEngine db before)
      (replay recruiterEngine db (before.take o.position)) := by
    have hsplit := replay_append recruiterEngine db (before.take o.position)
      (before.drop o.position)
    rw [List.take_append_drop] at hsplit
    rw [hsplit]
    refine covers_applyAll ?_ ?_ _
    · intro w hw
      obtain ⟨c, hc, hwc⟩ := List.mem_flatMap.mp hw
      exact hbefore c (List.mem_of_mem_drop hc) w hwc
    · intro e he
      obtain ⟨c, hc, hec⟩ := List.mem_flatMap.mp he
      exact hunraced c hc e hec
  have hown : ∀ w ∈ written earlier, w.Enrolling := by
    intro w hw
    refine henrolling w ?_
    rw [written, List.flatMap_append]
    exact List.mem_append_left _ hw
  have hcovers := hcommits.applyAll hown
  rw [← hviews.view earlier o later rfl] at hcovers
  intro e he hbars
  refine hadmits.not_bars (hcovers e he hbars) ?_
  rw [RecruiterDatabase.Bars, RecruiterDatabase.overlapping_congr
    (view_assessments hbefore hviews henrolling (by simp))]
  exact hbars

/-- The statements of a transaction that commits after a list of others, none of which races with
its checks. -/
theorem Checked.noOverlap {history : List RecruiterObservation} (h : Checked history)
    (hbefore : ∀ c ∈ before, ∀ w ∈ c.writes, w.Enrolling)
    (hviews : Views recruiterEngine db before history)
    (hunraced : ∀ o ∈ history, ∀ check ∈ o.reads, o.view.Admits check →
      ∀ other ∈ before.drop o.position, ∀ e,
        RecruiterWrite.insertEnrollment e ∈ other.writes → ¬ db.Bars e check)
    (hdb : (replay recruiterEngine db before).NoOverlap) :
    (recruiterEngine.applyAll (replay recruiterEngine db before) (written history)).NoOverlap := by
  -- on the statements: only an enrollment can make windows overlap, and it follows its check
  induction h with
  | nil => exact hdb
  | @other history o h hwrites ih =>
    have hrest := ih hviews.init fun o' ho' => hunraced o' (List.mem_append_left _ ho')
    rw [written, List.flatMap_append, List.flatMap_singleton, Engine.applyAll_append]
    refine recruiterEngine.applyAll_invariant RecruiterDatabase.NoOverlap ?_ hrest
    intro s w hw hs
    exact NoOverlap.apply_other hs (hwrites w hw).1 (hwrites w hw).2
  | @enroll earlier later position view assessment e h hloaded hassessment hadmits hlater position'
      view' ih =>
    have hrest := ih hviews.init fun o' ho' => hunraced o' (List.mem_append_left _ ho')
    have henrolling := h.enrolling
    have hviewsHere := hviews.init
    rw [List.append_assoc, List.singleton_append] at henrolling hviewsHere hrest
    rw [List.append_assoc _ _ later, List.singleton_append, written, List.flatMap_append,
      ← written, List.flatMap_singleton, Engine.applyAll_append]
    have hwritten : written (earlier ++ (⟨position, view, [⟨e.candidateId, assessment.id⟩], []⟩ ::
        later : List RecruiterObservation)) = written earlier := by
      have hsplit : written (earlier ++ (⟨position, view, [⟨e.candidateId, assessment.id⟩], []⟩ ::
        later : List RecruiterObservation)) = written earlier ++ written later := by simp [written]
      rw [hsplit, hlater, List.append_nil]
    rw [hwritten] at hrest ⊢
    have hfound : db.assessment? assessment.id = some assessment := by
      obtain ⟨o, ho, hread⟩ := hloaded
      exact Loaded.found ⟨o, List.mem_append_left _ ho, hread⟩ hbefore hviewsHere henrolling
    have hadmitted : view.Admits ⟨e.candidateId, assessment.id⟩ := by
      intro a ha
      have hseen : view.assessments = db.assessments :=
        view_assessments hbefore hviewsHere henrolling
          (List.mem_append_right earlier List.mem_cons_self)
      rw [RecruiterDatabase.assessment?, hseen] at ha
      cases hfound.symm.trans ha
      exact hadmits
    refine NoOverlap.apply_insertEnrollment hrest ?_
    intro e' he' hcandidate hunfinished
    have hraced := hunraced ⟨position, view, [⟨e.candidateId, assessment.id⟩], []⟩ (by simp) _
      List.mem_cons_self hadmitted
    have hfree := not_bars_of_admits hbefore hviewsHere henrolling hadmitted hraced e' he'
    have hassessments := (applyAll_assessments (fun w hw => henrolling w (hwritten ▸ hw))
      (replay recruiterEngine db before)).trans (replay_assessments hbefore)
    rw [RecruiterDatabase.overlapping_congr hassessments, hassessment, ← Bool.not_eq_true]
    intro hoverlap
    exact hfree ⟨hcandidate, hunfinished, hoverlap⟩

end Commits

section Runs

variable {ι : Type} [Runtime] {db : RecruiterDatabase} {requests : ι → Uuid × EnrollmentRequest}
  {world : World RecruiterDatabase RecruiterWrite OverlapCheck RecruiterEffect RecruiterException
    RecruiterResponse ι}

/-- Every commit keeps the rule. -/
theorem noOverlap_of_sound
    (hsound : world.Sound recruiterEngine db fun i => (requests i).2.program (requests i).1)
    (hdb : db.NoOverlap) (hunraced : Unraced db world.log) : world.database.NoOverlap := by
  have hchecked (before after : List (RecruiterCommit ι)) (c : RecruiterCommit ι)
      (hlog : world.log = before ++ c :: after) : Checked c.history := by
    obtain ⟨⟨result, hrun⟩, _⟩ := hsound.logged before c after hlog
    exact (EnrollmentRequest.ensures (requests c.request).1 (requests c.request).2).finished hrun
  have hprefix (before after : List (RecruiterCommit ι)) (hlog : world.log = before ++ after) :
      (replay recruiterEngine db before).NoOverlap := by
    induction before using List.reverseRecOn generalizing after with
    | nil => exact hdb
    | append_singleton before c ih =>
      rw [List.append_assoc, List.singleton_append] at hlog
      rw [replay_snoc]
      refine (hchecked before after c hlog).noOverlap ?_ (hsound.logged before c after hlog).2 ?_
        (ih (c :: after) hlog)
      · intro c' hc'
        obtain ⟨earlier, later, rfl⟩ := List.append_of_mem hc'
        exact (hchecked earlier (later ++ c :: after) c' (by simp [hlog])).enrolling
      · exact hunraced before c after hlog
  rw [hsound.database]
  exact hprefix world.log [] (by simp)

variable [DecidableEq ι] [Fintype ι]

/-- In every interleaving of enrolling requests without a race between a check and a commit, no
candidate ever comes to have two unfinished enrollments with overlapping windows. -/
theorem no_window_overlap (db : RecruiterDatabase) (requests : ι → Uuid × EnrollmentRequest)
    (moves : List (Move ι)) (hdb : db.NoOverlap) :
    let run := Runs.exec (World.scheduler recruiterEngine)
      (World.start db fun i => (requests i).2.program (requests i).1)
    Unraced db (run moves).log → ∀ reached, reached <+: moves → (run reached).database.NoOverlap := by
  rintro run hunraced reached ⟨rest, rfl⟩
  refine noOverlap_of_sound (scheduler_sound reached) hdb ?_
  obtain ⟨later, hlater⟩ : (run reached).log <+:
      (Runs.exec (World.scheduler recruiterEngine) (run reached) rest).log :=
    World.log_prefix_exec (run reached) rest
  rw [← Runs.exec_append] at hlater
  intro before c after hlog
  exact hunraced before c (after ++ later) (by rw [← hlater, hlog]; simp)

end Runs

section Race

instance decidableNoOverlap (db : RecruiterDatabase) : Decidable db.NoOverlap :=
  inferInstanceAs (Decidable (∀ e ∈ db.enrollments, ∀ e' ∈ db.enrollments, e.id ≠ e'.id →
    e.candidateId = e'.candidateId → e.Unfinished → e'.Unfinished →
      db.overlapping e.assessmentId e'.assessmentId = false))

/-- One recruiter enrolls a candidate in two assessments at the same time. -/
def racingEnrollments (i : Fin 2) : Uuid × EnrollmentRequest :=
  (1, .enrollExistingCandidate ⟨10, 10⟩ 30 (if i.val = 0 then 10 else 11) none none
    (if i.val = 0 then ⟨60, 61⟩ else ⟨62, 63⟩))

def racingWorld (moves : List (Move (Fin 2))) :
    World RecruiterDatabase RecruiterWrite OverlapCheck RecruiterEffect RecruiterException
      RecruiterResponse (Fin 2) :=
  let _ : Runtime := .ascii
  Runs.exec (World.scheduler recruiterEngine) (World.start sharedCandidate fun i =>
    (racingEnrollments i).2.program (racingEnrollments i).1) moves

/-- One request after the other: the second one is refused. -/
theorem no_window_overlap_serial :
    (racingWorld (List.replicate 8 (.advance 0) ++ List.replicate 8 (.advance 1))).database.NoOverlap := by
  let _ : Runtime := .ascii
  refine no_window_overlap sharedCandidate racingEnrollments _ (by decide) ?_ _ (List.prefix_refl _)
  intro before c after hlog
  have hlength : (racingWorld (List.replicate 8 (.advance 0) ++
      List.replicate 8 (.advance 1))).log.length = 1 := by decide +kernel
  have hsplit := hlength.symm.trans (congrArg List.length hlog)
  rw [List.length_append, List.length_cons] at hsplit
  have hnone : before = [] := List.length_eq_zero_iff.mp (by omega)
  simp [hnone]

/-- Both requests check the windows before either of them inserts its enrollment. -/
theorem window_overlap_race : sharedCandidate.NoOverlap ∧
    ¬ (racingWorld (List.replicate 5 (.advance 0) ++ List.replicate 8 (.advance 1) ++
      List.replicate 3 (.advance 0))).database.NoOverlap := by
  constructor
  · decide
  · decide +kernel

end Race

end IBotCoreApi
