import IBotCoreApi.RecruiterStore

namespace IBotCoreApi
open Python Transactions RecruiterRequests

structure RecruiterView where
  assessments : List Assessment
  enrollments : List (RecruiterEnrollment × Option (String × String))

namespace RecruiterDatabase

def owns (db : RecruiterDatabase) (recruiterId : Uuid) (e : RecruiterEnrollment) : Bool :=
  (db.assessment? e.assessmentId).any (·.recruiterId == recruiterId)

def nameOf? (db : RecruiterDatabase) (candidateId : Uuid) : Option (String × String) :=
  (db.candidate? candidateId).map fun c => (c.fullName, c.email)

def viewOf (db : RecruiterDatabase) (recruiterId : Uuid) : RecruiterView where
  assessments := db.assessments.filter (·.recruiterId == recruiterId)
  enrollments := (db.enrollments.filter (db.owns recruiterId)).map fun e =>
    (e, db.nameOf? e.candidateId)

def Enrolled (db : RecruiterDatabase) (recruiterId candidateId : Uuid) : Prop :=
  ∃ e ∈ db.enrollments, db.owns recruiterId e ∧ e.candidateId = candidateId

end RecruiterDatabase

section Views

variable {db db' : RecruiterDatabase} {other : Uuid}

/-- Two databases with the same rows of a recruiter, and the same names of the candidates in them. -/
theorem viewOf_congr
    (hassessments : db'.assessments.filter (·.recruiterId == other) =
      db.assessments.filter (·.recruiterId == other))
    (henrollments : db'.enrollments.filter (db'.owns other) = db.enrollments.filter (db.owns other))
    (hnames : ∀ candidateId, db.Enrolled other candidateId →
      db'.nameOf? candidateId = db.nameOf? candidateId) : db'.viewOf other = db.viewOf other := by
  unfold RecruiterDatabase.viewOf
  rw [hassessments, henrollments, RecruiterView.mk.injEq]
  refine ⟨rfl, List.map_congr_left ?_⟩
  intro e he
  obtain ⟨hmem, howned⟩ := List.mem_filter.mp he
  rw [hnames e.candidateId ⟨e, hmem, howned, rfl⟩]

theorem owns_congr (h : ∀ e, (db'.assessment? e).any (·.recruiterId == other) =
    (db.assessment? e).any (·.recruiterId == other)) : db'.owns other = db.owns other := by
  funext e
  exact h e.assessmentId

theorem insertAssessment_view {a : Assessment} (ha : a.recruiterId ≠ other) :
    RecruiterDatabase.viewOf { db with assessments := db.assessments ++ [a] } other =
      db.viewOf other := by
  have howns : RecruiterDatabase.owns { db with assessments := db.assessments ++ [a] } other =
      db.owns other := by
    apply owns_congr
    intro assessmentId
    unfold RecruiterDatabase.assessment?
    cases hfound : Tables.lookup (·.id) assessmentId db.assessments with
    | some found => rw [Tables.lookup_append_of_some hfound]
    | none =>
      rw [Tables.lookup_append_of_none hfound, Tables.lookup_singleton]
      split <;> simp [ha]
  refine viewOf_congr ?_ ?_ fun _ _ => rfl
  · simp [List.filter_append, ha]
  · simp only [howns]

theorem updateStatus_view (h : db.Keyed) {clock : Clock} {assessmentId : Uuid}
    {status : AssessmentStatus}
    (howner : ∀ a, db.assessment? assessmentId = some a → a.recruiterId ≠ other) :
    (RecruiterWrite.apply db (.updateStatus clock assessmentId status)).viewOf other =
      db.viewOf other := by
  let u := AssessmentRepository.withStatus clock status
  have howns : (RecruiterWrite.apply db (.updateStatus clock assessmentId status)).owns other =
      db.owns other := by
    apply owns_congr
    intro id
    rw [RecruiterDatabase.assessment?_updateStatus, Option.any_map]
    congr 1
    funext a
    have hkeys := congrArg Prod.snd (u.onRow_keeps (p := (·.id == assessmentId)) a)
    simp only [Assessment.keys] at hkeys
    simp only [← hkeys, u]
  refine viewOf_congr ?_ ?_ fun _ _ => rfl
  · apply Tables.filter_updateWhere
    intro a ha hid
    have hfound : db.assessment? a.id = some a := Tables.lookup_of_mem h.assessmentIds ha
    rw [beq_iff_eq.mp hid] at hfound
    have hne := howner a hfound
    exact ⟨beq_eq_false_iff_ne.mpr hne, beq_eq_false_iff_ne.mpr hne⟩
  · rw [howns]
    rfl

theorem insertCandidate_view (h : db.Keyed) {c : CandidateProfile} :
    (RecruiterWrite.apply db (.insertCandidate c)).viewOf other = db.viewOf other := by
  refine viewOf_congr rfl rfl ?_
  rintro candidateId ⟨e, he, _, rfl⟩
  obtain ⟨found, hfound⟩ := Option.isSome_iff_exists.mp (h.candidates e he)
  have hkept : (RecruiterWrite.apply db (.insertCandidate c)).candidate? e.candidateId =
    some found := Tables.lookup_append_of_some hfound
  rw [RecruiterDatabase.nameOf?, hkept, RecruiterDatabase.nameOf?, hfound]

theorem renameCandidate_view {candidateId : Uuid} {fullName : String}
    (hother : ¬ db.Enrolled other candidateId) :
    (RecruiterWrite.apply db (.renameCandidate candidateId fullName)).viewOf other =
      db.viewOf other := by
  refine viewOf_congr rfl rfl ?_
  intro id henrolled
  unfold RecruiterDatabase.nameOf?
  rw [RecruiterDatabase.candidate?_renameCandidate, Option.map_map]
  cases hfound : db.candidate? id with
  | none => rfl
  | some c =>
    have hid := Tables.lookup_key hfound
    have hne : (c.id == candidateId) = false := by
      apply beq_eq_false_iff_ne.mpr
      rintro rfl
      exact hother (hid ▸ henrolled)
    have hrow : (RecruiterWrite.renamed fullName).onRow (·.id == candidateId) c = c :=
      Tables.Update.onRow_of_false hne
    rw [Option.map_some, Option.map_some, Function.comp_apply, hrow]

theorem deleteCandidate_view {candidateId : Uuid}
    (hnone : ∀ e ∈ db.enrollments, e.candidateId ≠ candidateId) :
    (RecruiterWrite.apply db (.deleteCandidate candidateId)).viewOf other = db.viewOf other := by
  refine viewOf_congr rfl rfl ?_
  rintro _ ⟨e, he, _, rfl⟩
  have hkept : (RecruiterWrite.apply db (.deleteCandidate candidateId)).candidate? e.candidateId =
      db.candidate? e.candidateId := by
    apply Tables.lookup_filter
    intro c _ hc
    simpa [hc] using hnone e he
  rw [RecruiterDatabase.nameOf?, hkept, RecruiterDatabase.nameOf?]

theorem insertEnrollment_view {e : RecruiterEnrollment} (howner : db.owns other e = false) :
    (RecruiterWrite.apply db (.insertEnrollment e)).viewOf other = db.viewOf other := by
  refine viewOf_congr rfl ?_ fun _ _ => rfl
  change (db.enrollments ++ [e]).filter (db.owns other) = _
  simp [List.filter_append, howner]

theorem decide_view (h : db.Keyed) {clock : Clock} {enrollmentId : Uuid} {decision : String}
    {feedback : Option String}
    (howner : ∀ e, db.enrollment? enrollmentId = some e → db.owns other e = false) :
    (RecruiterWrite.apply db (.decide clock enrollmentId decision feedback)).viewOf other =
      db.viewOf other := by
  refine viewOf_congr rfl ?_ fun _ _ => rfl
  apply Tables.filter_updateWhere
  intro e he hid
  have hfound := h.enrollment?_of_mem he
  rw [beq_iff_eq.mp hid] at hfound
  exact ⟨howner e hfound, howner e hfound⟩

theorem deleteWith_view (h : db.Keyed) {e : RecruiterEnrollment} (he : e ∈ db.enrollments)
    (howner : db.owns other e = false) :
    (RecruiterWrite.deleteWith db e).viewOf other = db.viewOf other := by
  refine viewOf_congr rfl ?_ fun _ _ => rfl
  change (db.enrollments.filter (·.id != e.id)).filter (db.owns other) = _
  rw [List.filter_filter]
  apply List.filter_congr
  intro e' he'
  cases howned : db.owns other e' with
  | false => rfl
  | true =>
    have hne : e'.id ≠ e.id := by
      intro hid
      rw [List.inj_on_of_nodup_map h.enrollmentIds he' he hid, howner] at howned
      cases howned
    simpa using hne

end Views

def Leaves (other : Uuid) (view : RecruiterView) (p : RecruiterProgram) (db : RecruiterDatabase) :
    Prop :=
  p.Establishes recruiterEngine (fun _ db' => db'.viewOf other = view) db

section Requests

variable {db : RecruiterDatabase} {other recruiterId : Uuid} {view : RecruiterView}
  {next : RecruiterProgram}

theorem refuses_eq_false {w : RecruiterWrite} (hw : recruiterEngine.refuses db w = none) :
    w.refuses db = false := by
  by_contra hrefused
  simp [recruiterEngine, hrefused] at hw

theorem leaves_write {w : RecruiterWrite} (h : db.Keyed) (hview : db.viewOf other = view)
    (hunseen : w.refuses db = false → (RecruiterWrite.apply db w).viewOf other = db.viewOf other)
    (hnext : (RecruiterWrite.apply db w).Keyed → (RecruiterWrite.apply db w).viewOf other = view →
      Leaves other view next (RecruiterWrite.apply db w)) :
    Leaves other view (.write w next) db := by
  refine Program.establishes_write.mpr ?_
  intro hw
  exact hnext (h.apply hw) ((hunseen (refuses_eq_false hw)).trans hview)

theorem createAssessment_leaves (h : db.Keyed) (hne : recruiterId ≠ other)
    (hview : db.viewOf other = view) {clock : Clock} {newId : Uuid}
    {request : AssessmentCreateRequest} {jdFileBytes : List UInt8} {jdFilename : Option String} :
    Leaves other view (createAssessment clock newId recruiterId request jdFileBytes jdFilename)
      db := by
  unfold createAssessment
  split
  · trivial
  · exact leaves_write h hview (fun _ => insertAssessment_view hne) fun _ hview' => hview'

theorem getAssessmentById_leaves {assessmentId : Uuid} {next : Assessment → RecruiterProgram}
    (hnext : ∀ a, db.assessment? assessmentId = some a → a.recruiterId = recruiterId →
      Leaves other view (next a) db) :
    Leaves other view (getAssessmentById assessmentId recruiterId next) db := by
  refine Program.establishes_select.mpr ?_
  cases hfound : db.assessment? assessmentId with
  | none => trivial
  | some a =>
    dsimp only
    split
    · trivial
    · rename_i howner
      exact hnext a hfound (not_not.mp howner)

theorem updateStatus_leaves (h : db.Keyed) (hne : recruiterId ≠ other)
    (hview : db.viewOf other = view) {clock : Clock} {assessmentId : Uuid} {newStatus : StatusUpdate} :
    Leaves other view (updateStatus clock assessmentId recruiterId newStatus) db := by
  refine getAssessmentById_leaves ?_
  intro a hfound howner
  have hsave : Leaves other view (.write (.updateStatus clock assessmentId newStatus.status)
      (.finish (.assessment ((AssessmentRepository.withStatus clock newStatus.status).set a)))) db := by
    refine leaves_write h hview (fun _ => updateStatus_view h ?_) fun _ hview' => hview'
    intro a' hfound'
    cases hfound.symm.trans hfound'
    rwa [howner]
  dsimp only
  split
  · exact hsave
  · exact hsave

theorem getOwnedEnrollment_leaves {candidateAssessmentId : Uuid} {denied : String}
    {next : RecruiterEnrollment → Assessment → Option CandidateProfile → RecruiterProgram}
    (hne : recruiterId ≠ other)
    (hnext : ∀ e a c, db.enrollment? candidateAssessmentId = some e → db.owns other e = false →
      Leaves other view (next e a c) db) :
    Leaves other view (getOwnedEnrollment candidateAssessmentId recruiterId denied next) db := by
  refine Program.establishes_select.mpr ?_
  unfold getEnrollmentById
  cases hfound : db.enrollment? candidateAssessmentId with
  | none => trivial
  | some e =>
    rw [Option.map_some]
    cases hassessment : db.assessment? e.assessmentId with
    | none => trivial
    | some a =>
      dsimp only
      split
      · trivial
      · rename_i howner
        refine hnext e a _ hfound ?_
        rw [RecruiterDatabase.owns, hassessment, Option.any_some, not_not.mp howner]
        exact beq_eq_false_iff_ne.mpr hne

theorem updateRecruiterDecision_leaves (h : db.Keyed) (hne : recruiterId ≠ other)
    (hview : db.viewOf other = view) {clock : Clock} {candidateAssessmentId : Uuid}
    {decision : Decision} {feedback : Option String} :
    Leaves other view
      (updateRecruiterDecision clock candidateAssessmentId recruiterId decision feedback) db := by
  refine getOwnedEnrollment_leaves hne ?_
  intro e a c hfound howner
  refine leaves_write h hview (fun _ => decide_view h ?_) ?_
  · intro e' hfound'
    cases hfound.symm.trans hfound'
    exact howner
  · intro _ hview'
    split
    · exact hview'
    · exact hview'

theorem deleteCandidate_leaves {candidateId : Uuid} (h : db.Keyed) (hview : db.viewOf other = view)
    (hnone : (db.enrollmentsOf candidateId).isEmpty)
    (hnext : ∀ db', db'.Keyed → db'.viewOf other = view → db'.assessments = db.assessments →
      Leaves other view next db') :
    Leaves other view (deleteCandidate candidateId next) db := by
  refine Program.establishes_select.mpr ?_
  rw [List.isEmpty_iff.mp hnone]
  refine leaves_write h hview ?_ fun hkeyed hview' => hnext _ hkeyed hview' rfl
  intro hw
  refine deleteCandidate_view ?_
  intro e he
  simp only [RecruiterWrite.refuses, List.any_eq_false] at hw
  simpa using hw e he

theorem deleteCandidateFromAssessment_leaves (h : db.Keyed) (hne : recruiterId ≠ other)
    (hview : db.viewOf other = view) {candidateAssessmentId : Uuid} :
    Leaves other view (deleteCandidateFromAssessment candidateAssessmentId recruiterId) db := by
  refine getOwnedEnrollment_leaves hne ?_
  intro e a c hfound howner
  refine leaves_write h hview ?_ ?_
  · intro _
    rw [apply_deleteEnrollment_some hfound]
    exact deleteWith_view h (Tables.lookup_mem hfound) howner
  · intro hkeyed hview'
    refine Program.establishes_select.mpr ?_
    split
    · rename_i hempty
      refine Program.establishes_select.mpr ?_
      cases hcandidate : RecruiterDatabase.candidate? _ e.candidateId with
      | none => exact hview'
      | some candidate =>
        have hid := Tables.lookup_key hcandidate
        refine deleteCandidate_leaves hkeyed hview' ?_ fun _ _ hview'' _ => hview''
        rw [hid]
        exact hempty
    · exact hview'

theorem insertEnrollment_leaves (h : db.Keyed) (hne : recruiterId ≠ other)
    (hview : db.viewOf other = view) {a : Assessment} {e : RecruiterEnrollment}
    (hassessment : db.assessment? e.assessmentId = some a) (howner : a.recruiterId = recruiterId)
    (hnext : ∀ db', db'.viewOf other = view → Leaves other view next db') :
    Leaves other view (.write (.insertEnrollment e) next) db := by
  refine leaves_write h hview (fun _ => insertEnrollment_view ?_) fun _ hview' => hnext _ hview'
  rw [RecruiterDatabase.owns, hassessment, Option.any_some, howner]
  exact beq_eq_false_iff_ne.mpr hne

theorem enrollExistingCandidate_leaves (h : db.Keyed) (hne : recruiterId ≠ other)
    (hview : db.viewOf other = view) {clock : Clock} {candidateId assessmentId : Uuid}
    {resumeFileBytes : Option (List UInt8)} {resumeFilename : Option String}
    {draws : CandidateAssessmentRepository.EnrollmentDraws} :
    Leaves other view (enrollExistingCandidate clock recruiterId candidateId assessmentId
      resumeFileBytes resumeFilename draws) db := by
  refine Program.establishes_select.mpr ?_
  cases hfound : (db.assessment? assessmentId).filter (·.recruiterId == recruiterId) with
  | none => trivial
  | some a =>
    obtain ⟨hassessment, howner⟩ := Option.filter_eq_some_iff.mp hfound
    refine Program.establishes_select.mpr ?_
    split
    · trivial
    · refine Program.establishes_select.mpr ?_
      split
      · trivial
      · refine Program.establishes_select.mpr ?_
        split
        · trivial
        · refine Program.establishes_select.mpr ?_
          split
          · trivial
          · refine insertEnrollment_leaves h hne hview hassessment (beq_iff_eq.mp howner) ?_
            intro db' hview'
            simp only [Leaves, Program.Establishes]
            split
            · exact hview'
            · exact hview'

section Single

variable [Runtime]

theorem createSingleCandidate_leaves (h : db.Keyed) (hne : recruiterId ≠ other)
    (hview : db.viewOf other = view) {clock : Clock} {name email : String} {assessmentId : Uuid}
    {resumeFileBytes : List UInt8} {resumeFilename : String} {draws : RowDraws} :
    Leaves other view (createSingleCandidate clock recruiterId name email assessmentId
      resumeFileBytes resumeFilename draws) db := by
  refine Program.establishes_select.mpr ?_
  cases hfound : (db.assessment? assessmentId).filter (·.recruiterId == recruiterId) with
  | none => trivial
  | some a =>
    obtain ⟨hassessment, howner⟩ := Option.filter_eq_some_iff.mp hfound
    dsimp -zeta -zetaHave only
    extract_lets enrollment create
    have hcreate : ∀ db', db'.Keyed → db'.viewOf other = view → db'.assessments = db.assessments →
        Leaves other view create db' := by
      intro db' hkeyed hview' hassessments
      refine leaves_write hkeyed hview' (fun _ => insertCandidate_view hkeyed) ?_
      intro hkeyed' hview''
      refine Program.establishes_select.mpr ?_
      split
      · trivial
      · refine Program.establishes_select.mpr ?_
        split
        · trivial
        · have hassessment' : db'.assessment? assessmentId = some a := by
            rw [RecruiterDatabase.assessment?, hassessments]
            exact hassessment
          exact insertEnrollment_leaves hkeyed' hne hview'' hassessment' (beq_iff_eq.mp howner)
            fun _ hview''' => hview'''
    refine Program.establishes_select.mpr ?_
    split
    · exact hcreate db h hview rfl
    · refine Program.establishes_select.mpr ?_
      split
      · trivial
      · rename_i hempty
        refine deleteCandidate_leaves h hview ?_ hcreate
        simpa using hempty

end Single

end Requests

end IBotCoreApi
