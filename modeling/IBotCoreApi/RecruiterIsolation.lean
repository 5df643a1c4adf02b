import IBotCoreApi.RecruiterViews

namespace IBotCoreApi
open Python Transactions RecruiterRequests

namespace RecruiterDatabase

/-- What the rows of an upload into an assessment change, as far as another recruiter is
concerned. -/
structure Extends (other : Uuid) (a : Assessment) (db db' : RecruiterDatabase) : Prop where
  keyed : db'.Keyed
  view : db'.viewOf other = db.viewOf other
  assessments : db'.assessments = db.assessments
  enrollments : ∃ added, db'.enrollments = db.enrollments ++ added ∧
    ∀ e ∈ added, e.assessmentId = a.id
  shared : ∀ c, db.Enrolled other c.id → (c ∈ db'.candidates ↔ c ∈ db.candidates)

def Overlaps (db : RecruiterDatabase) (a : Assessment) (candidateId : Uuid) : Prop :=
  (getAllByCandidateId db candidateId).findSome? (overlapReason a) ≠ none

variable {other : Uuid} {a : Assessment} {db db' db'' : RecruiterDatabase}

namespace Extends

theorem assessment? (h : Extends other a db db') (assessmentId : Uuid) :
    db'.assessment? assessmentId = db.assessment? assessmentId := by
  rw [RecruiterDatabase.assessment?, RecruiterDatabase.assessment?, h.assessments]

theorem owns (h : Extends other a db db') : db'.owns other = db.owns other := by
  apply owns_congr
  intro assessmentId
  rw [h.assessment?]

theorem enrolled (h : Extends other a db db') {candidateId : Uuid}
    (henrolled : db.Enrolled other candidateId) : db'.Enrolled other candidateId := by
  obtain ⟨e, he, howned, hcandidate⟩ := henrolled
  obtain ⟨added, hadded, _⟩ := h.enrollments
  refine ⟨e, ?_, ?_, hcandidate⟩
  · rw [hadded]
    exact List.mem_append_left added he
  · rwa [h.owns]

theorem refl (h : db.Keyed) : Extends other a db db where
  keyed := h
  view := rfl
  assessments := rfl
  enrollments := ⟨[], (List.append_nil _).symm, by simp⟩
  shared _ _ := Iff.rfl

theorem trans (h : Extends other a db db') (h' : Extends other a db' db'') :
    Extends other a db db'' where
  keyed := h'.keyed
  view := h'.view.trans h.view
  assessments := h'.assessments.trans h.assessments
  enrollments := by
    obtain ⟨added, hadded, hin⟩ := h.enrollments
    obtain ⟨added', hadded', hin'⟩ := h'.enrollments
    refine ⟨added ++ added', ?_, ?_⟩
    · rw [hadded', hadded, List.append_assoc]
    · intro e he
      rcases List.mem_append.mp he with he | he
      · exact hin e he
      · exact hin' e he
  shared c henrolled := (h'.shared c (h.enrolled henrolled)).trans (h.shared c henrolled)

theorem of_enrolled (h : Extends other a db db')
    (howner : ∀ e : RecruiterEnrollment, e.assessmentId = a.id → db.owns other e = false)
    {candidateId : Uuid} (henrolled : db'.Enrolled other candidateId) :
    db.Enrolled other candidateId := by
  obtain ⟨e, he, howned, hcandidate⟩ := henrolled
  obtain ⟨added, hadded, hin⟩ := h.enrollments
  rw [h.owns] at howned
  rw [hadded] at he
  rcases List.mem_append.mp he with he | he
  · exact ⟨e, he, howned, hcandidate⟩
  · rw [howner e (hin e he)] at howned
    cases howned

end Extends

section Steps

theorem enrollmentOf?_eq_none {candidateId assessmentId : Uuid} :
    db.enrollmentOf? candidateId assessmentId = none ↔
      ∀ e ∈ db.enrollments, e.candidateId = candidateId → e.assessmentId ≠ assessmentId := by
  simp [enrollmentOf?, List.find?_eq_none]

theorem Extends.enrollmentsOf (h : Extends other a db db') {candidateId : Uuid}
    (hnone : db'.enrollmentOf? candidateId a.id = none) :
    db'.enrollmentsOf candidateId = db.enrollmentsOf candidateId := by
  obtain ⟨added, hadded, hin⟩ := h.enrollments
  have hother : added.filter (·.candidateId == candidateId) = [] := by
    rw [List.filter_eq_nil_iff]
    intro e he hcandidate
    refine enrollmentOf?_eq_none.mp hnone e ?_ (beq_iff_eq.mp hcandidate) (hin e he)
    rw [hadded]
    exact List.mem_append_right _ he
  rw [RecruiterDatabase.enrollmentsOf, hadded, List.filter_append, hother, List.append_nil]
  rfl

theorem Extends.overlaps (h : Extends other a db db') {candidateId : Uuid}
    (hnone : db'.enrollmentOf? candidateId a.id = none) (hoverlaps : db'.Overlaps a candidateId) :
    db.Overlaps a candidateId := by
  unfold Overlaps getAllByCandidateId at hoverlaps ⊢
  simpa only [h.enrollmentsOf hnone, h.assessment?] using hoverlaps

theorem Extends.enrollmentOf?_eq_none (h : Extends other a db db') {candidateId : Uuid}
    (hnone : db'.enrollmentOf? candidateId a.id = none) :
    db.enrollmentOf? candidateId a.id = none := by
  rw [RecruiterDatabase.enrollmentOf?_eq_none] at hnone ⊢
  obtain ⟨added, hadded, _⟩ := h.enrollments
  intro e he
  apply hnone
  rw [hadded]
  exact List.mem_append_left added he

theorem insertCandidate_extends (h : db.Keyed) {c : CandidateProfile}
    (hw : recruiterEngine.refuses db (.insertCandidate c) = none) :
    Extends other a db (RecruiterWrite.apply db (.insertCandidate c)) where
  keyed := h.apply hw
  view := insertCandidate_view h
  assessments := rfl
  enrollments := ⟨[], (List.append_nil _).symm, by simp⟩
  shared c' henrolled := by
    have hfresh := refuses_eq_false hw
    simp only [RecruiterWrite.refuses, Bool.or_eq_false_iff, List.any_eq_false] at hfresh
    obtain ⟨e, he, _, hcandidate⟩ := henrolled
    obtain ⟨found, hfound⟩ := Option.isSome_iff_exists.mp (h.candidates e he)
    have hne : c' ≠ c := by
      rintro rfl
      have hkey : found.id = c'.id := (Tables.lookup_key hfound).trans hcandidate
      exact hfresh.2 found (Tables.lookup_mem hfound) (by simp [hkey])
    simp [RecruiterWrite.apply, hne]

theorem renameCandidate_extends (h : db.Keyed) {candidateId : Uuid} {fullName : String}
    (hother : ¬ db.Enrolled other candidateId) :
    Extends other a db (RecruiterWrite.apply db (.renameCandidate candidateId fullName)) where
  keyed := h.renameCandidate candidateId fullName
  view := renameCandidate_view hother
  assessments := rfl
  enrollments := ⟨[], (List.append_nil _).symm, by simp⟩
  shared c henrolled := by
    have hid : (c.id == candidateId) = false := by
      apply beq_eq_false_iff_ne.mpr
      rintro rfl
      exact hother henrolled
    refine Tables.mem_updateWhere_of_not ?_ hid
    intro c₀
    have hkeys := congrArg Prod.fst
      ((RecruiterWrite.renamed fullName).onRow_keeps (p := (·.id == candidateId)) c₀)
    exact congrArg (· == candidateId) hkeys

theorem insertEnrollment_extends (h : db.Keyed) {e : RecruiterEnrollment}
    (hin : e.assessmentId = a.id) (howner : db.owns other e = false)
    (hw : recruiterEngine.refuses db (.insertEnrollment e) = none) :
    Extends other a db (RecruiterWrite.apply db (.insertEnrollment e)) where
  keyed := h.apply hw
  view := insertEnrollment_view howner
  assessments := rfl
  enrollments := ⟨[e], rfl, by simpa using hin⟩
  shared _ _ := Iff.rfl

theorem insertEnrollment_registers {e : RecruiterEnrollment} :
    (RecruiterWrite.apply db (.insertEnrollment e)).enrollmentOf? e.candidateId e.assessmentId ≠
      none := by
  intro hnone
  have hmem : e ∈ db.enrollments ++ [e] := List.mem_append_right _ (List.mem_singleton_self e)
  exact enrollmentOf?_eq_none.mp hnone e hmem rfl rfl

end Steps

section Upload

variable [Runtime]

/-- A row of an upload gives a candidate of another recruiter a new name: it is complete, it has the
candidate's e-mail, and the candidate is not registered for the assessment, neither before the
upload nor by an earlier row. -/
def RenamesShared (db : RecruiterDatabase) (other : Uuid) (a : Assessment)
    (rows : List UploadRow) : Prop :=
  ∃ before row after c, rows = before ++ row :: after ∧ row.complete ∧
    getByEmail db row.email = some c ∧ c.fullName ≠ row.name ∧ db.Enrolled other c.id ∧
    db.enrollmentOf? c.id a.id = none ∧
    ((∀ earlier ∈ before, earlier.complete → getByEmail db earlier.email ≠ some c) ∨
      db.Overlaps a c.id)

theorem getByEmail_eq_some_iff (h : db.Keyed) {email : String} {c : CandidateProfile} :
    getByEmail db email = some c ↔ c ∈ db.candidates ∧ c.email = normalizedEmail email := by
  constructor
  · intro hfound
    exact ⟨Tables.lookup_mem hfound, Tables.lookup_key hfound⟩
  · rintro ⟨hc, hemail⟩
    rw [getByEmail, ← hemail]
    exact Tables.lookup_of_mem h.emails hc

theorem Extends.getByEmail_iff (hext : Extends other a db db') (h : db.Keyed) {email : String}
    {c : CandidateProfile} (henrolled : db.Enrolled other c.id) :
    getByEmail db' email = some c ↔ getByEmail db email = some c := by
  rw [getByEmail_eq_some_iff hext.keyed, getByEmail_eq_some_iff h, hext.shared c henrolled]

/-- The database after a row: its candidate is registered, unless the overlap check fails. -/
structure AfterRow (other : Uuid) (a : Assessment) (row : UploadRow)
    (db db' : RecruiterDatabase) : Prop extends Extends other a db db' where
  registers : ∀ c, row.complete → getByEmail db row.email = some c →
    db'.enrollmentOf? c.id a.id = none → db.Overlaps a c.id

theorem AfterRow.renamesShared {row : UploadRow} {rows : List UploadRow} (h : db.Keyed)
    (hafter : AfterRow other a row db db')
    (howner : ∀ e : RecruiterEnrollment, e.assessmentId = a.id → db.owns other e = false)
    (hrenames : db'.RenamesShared other a rows) : db.RenamesShared other a (row :: rows) := by
  obtain ⟨before, later, after, c, rfl, hcomplete, hfound, hname, henrolled, hnone, hfirst⟩ :=
    hrenames
  have hext := hafter.toExtends
  have henrolled' := hext.of_enrolled howner henrolled
  refine ⟨row :: before, later, after, c, rfl, hcomplete,
    (hext.getByEmail_iff h henrolled').mp hfound, hname, henrolled',
    hext.enrollmentOf?_eq_none hnone, ?_⟩
  by_cases hnames : row.complete ∧ getByEmail db row.email = some c
  · right
    exact hafter.registers c hnames.1 hnames.2 hnone
  · rcases hfirst with hfirst | hoverlaps
    · left
      intro earlier hmem hearlier hemail
      rcases List.mem_cons.mp hmem with rfl | hmem
      · exact hnames ⟨hearlier, hemail⟩
      · exact hfirst earlier hmem hearlier ((hext.getByEmail_iff h henrolled').mpr hemail)
    · right
      exact hext.overlaps hnone hoverlaps

end Upload

end RecruiterDatabase

section Requests

variable {db : RecruiterDatabase} {other : Uuid} {view : RecruiterView}

open RecruiterDatabase

theorem enrollRow_leaves {db₀ : RecruiterDatabase} {context : UploadContext}
    (hext : Extends other context.assessment db₀ db)
    (howner : ∀ e : RecruiterEnrollment, e.assessmentId = context.assessment.id →
      db.owns other e = false)
    {rowIdx : ℕ} {row : UploadRow} {draws : RowDraws} {upload : Upload} {candidateId : Uuid}
    {next : Upload → RecruiterProgram}
    (hnext : ∀ upload db', Extends other context.assessment db₀ db' →
      (db'.enrollmentOf? candidateId context.assessment.id = none →
        db₀.Overlaps context.assessment candidateId) → Leaves other view (next upload) db') :
    Leaves other view (enrollRow context rowIdx row draws upload candidateId next) db := by
  unfold enrollRow assertNoWindowOverlap
  refine Program.establishes_select.mpr ?_
  split
  · rename_i message hreason
    refine hnext _ db hext fun hnone => hext.overlaps hnone ?_
    rw [Overlaps, hreason]
    exact Option.some_ne_none message
  · refine Program.establishes_write.mpr ?_
    intro hw
    have hstep := insertEnrollment_extends hext.keyed (a := context.assessment) rfl
      (howner _ rfl) hw
    refine hnext _ _ (hext.trans hstep) fun hnone => ?_
    exact absurd hnone insertEnrollment_registers

theorem finishUpload_leaves (hview : db.viewOf other = view) {context : UploadContext}
    {totalRows : ℕ} {upload : Upload} :
    Leaves other view (finishUpload context totalRows upload) db := by
  intro _
  refine Program.establishes_foldr_afterCommit.mpr ?_
  refine (recruiterEngine.applyAll_frame (·.viewOf other) ?_ db).trans hview
  intro s w hw
  obtain ⟨event, _, rfl⟩ := List.mem_map.mp hw
  rfl

section Upload

variable [Runtime]

theorem uploadRow_leaves {context : UploadContext} {row : UploadRow} (h : db.Keyed)
    (howner : ∀ e : RecruiterEnrollment, e.assessmentId = context.assessment.id →
      db.owns other e = false)
    (hname : ∀ c, row.complete → getByEmail db row.email = some c →
      db.enrollmentOf? c.id context.assessment.id = none → c.fullName ≠ row.name →
      ¬ db.Enrolled other c.id)
    {rowIdx : ℕ} {draws : RowDraws} {upload : Upload} {next : Upload → RecruiterProgram}
    (hnext : ∀ upload db', AfterRow other context.assessment row db db' →
      Leaves other view (next upload) db') :
    Leaves other view (uploadRow context rowIdx row draws upload next) db := by
  unfold uploadRow
  split
  · rename_i hincomplete
    refine hnext _ db ⟨.refl h, fun c hcomplete => ?_⟩
    simp [hcomplete] at hincomplete
  · rename_i hcomplete
    refine Program.establishes_select.mpr ?_
    cases hfound : getByEmail db row.email with
    | none =>
      refine Program.establishes_write.mpr ?_
      intro hw
      refine enrollRow_leaves (insertCandidate_extends h hw) ?_ fun upload db' hext' _ => ?_
      · exact howner
      refine hnext upload db' ⟨hext', fun c _ hc => ?_⟩
      cases hfound.symm.trans hc
    | some existing =>
      refine Program.establishes_select.mpr ?_
      cases hregistered : db.enrollmentOf? existing.id context.assessment.id with
      | some e =>
        refine hnext _ db ⟨.refl h, fun c _ hc hnone => ?_⟩
        cases hfound.symm.trans hc
        cases hregistered.symm.trans hnone
      | none =>
        have hregisters : ∀ {db'}, Extends other context.assessment db db' →
            (db'.enrollmentOf? existing.id context.assessment.id = none →
              db.Overlaps context.assessment existing.id) →
            AfterRow other context.assessment row db db' := by
          intro db' hext hoverlaps
          refine ⟨hext, fun c _ hc hnone => ?_⟩
          cases hfound.symm.trans hc
          exact hoverlaps hnone
        dsimp only
        split
        · rename_i hrenamed
          refine Program.establishes_write.mpr ?_
          intro _
          have hunshared := hname existing (by simpa using hcomplete) hfound hregistered hrenamed
          have hext : Extends other context.assessment db
              (RecruiterWrite.apply db (.renameCandidate existing.id row.name)) :=
            renameCandidate_extends h hunshared
          refine enrollRow_leaves hext howner fun upload db' hext' hoverlaps => ?_
          exact hnext upload db' (hregisters hext' hoverlaps)
        · refine enrollRow_leaves (.refl h) howner fun upload db' hext hoverlaps => ?_
          exact hnext upload db' (hregisters hext hoverlaps)

/-- The rows of an upload, none of which gives a candidate of the other recruiter a new name. -/
theorem uploadRows_leaves {context : UploadContext} {draws : ℕ → RowDraws} {rows : List UploadRow}
    (h : db.Keyed)
    (howner : ∀ e : RecruiterEnrollment, e.assessmentId = context.assessment.id →
      db.owns other e = false)
    (hrenames : ¬ db.RenamesShared other context.assessment rows) {rowIdx : ℕ} {upload : Upload}
    {next : Upload → RecruiterProgram}
    (hnext : ∀ upload db', db'.viewOf other = db.viewOf other →
      Leaves other view (next upload) db') :
    Leaves other view (uploadRows context draws rowIdx rows upload next) db := by
  induction rows generalizing db rowIdx upload with
  | nil => exact hnext upload db rfl
  | cons row rows ih =>
    refine uploadRow_leaves h howner ?_ ?_
    · intro c hcomplete hfound hnone hname henrolled
      exact hrenames ⟨[], row, rows, c, rfl, hcomplete, hfound, hname, henrolled, hnone,
        .inl (by simp)⟩
    · intro upload db' hafter
      refine ih hafter.keyed ?_ ?_ ?_
      · intro e he
        rw [hafter.owns]
        exact howner e he
      · exact fun hlater => hrenames (hafter.renamesShared h howner hlater)
      · intro upload db'' hview
        exact hnext upload db'' (hview.trans hafter.view)

theorem bulkUploadFromCsv_leaves {recruiterId : Uuid} (h : db.Keyed) (hne : recruiterId ≠ other)
    {clock : Clock} {assessmentId : Uuid} {file : CsvFile} {filename : String} {uploadId : Uuid}
    {draws : ℕ → RowDraws}
    (hrenames : ∀ a rows, db.assessment? assessmentId = some a → a.recruiterId = recruiterId →
      parseCsv file = .ok rows → ¬ db.RenamesShared other a (rows.map UploadRow.ofCsv)) :
    Leaves other (db.viewOf other)
      (bulkUploadFromCsv clock recruiterId assessmentId file filename uploadId draws) db := by
  refine getAssessmentById_leaves ?_
  intro a hfound howned
  cases hparsed : parseCsv file with
  | error => trivial
  | ok rows =>
    refine uploadRows_leaves h ?_ (hrenames a rows hfound howned hparsed) ?_
    · intro e he
      have hassessment : db.assessment? e.assessmentId = some a := by
        rw [he, Tables.lookup_key hfound]
        exact hfound
      rw [RecruiterDatabase.owns, hassessment, Option.any_some, howned]
      exact beq_eq_false_iff_ne.mpr hne
    · intro upload db' hview
      exact finishUpload_leaves hview

end Upload

end Requests

section Service

variable [Runtime]

/-- The request is a bulk upload that gives a candidate of another recruiter a new name. -/
def RecruiterRequest.RenamesShared (recruiterId other : Uuid) (db : RecruiterDatabase) :
    RecruiterRequest → Prop
  | .enroll (.bulkUploadFromCsv _ assessmentId file _ _ _) =>
    ∃ a rows, db.assessment? assessmentId = some a ∧ a.recruiterId = recruiterId ∧
      parseCsv file = .ok rows ∧ db.RenamesShared other a (rows.map UploadRow.ofCsv)
  | _ => False

/-- Every other request leaves the other recruiter's view as it is. -/
theorem request_leaves {db : RecruiterDatabase} {recruiterId other : Uuid} (h : db.Keyed)
    (hne : recruiterId ≠ other) {request : RecruiterRequest}
    (hrenames : ¬ request.RenamesShared recruiterId other db) :
    Leaves other (db.viewOf other) (request.program recruiterId) db := by
  cases request with
  | createAssessment => exact createAssessment_leaves h hne rfl
  | updateStatus => exact updateStatus_leaves h hne rfl
  | enroll request =>
    cases request with
    | bulkUploadFromCsv =>
      refine bulkUploadFromCsv_leaves h hne ?_
      intro a rows hfound howned hparsed hrows
      exact hrenames ⟨a, rows, hfound, howned, hparsed, hrows⟩
    | createSingleCandidate => exact createSingleCandidate_leaves h hne rfl
    | enrollExistingCandidate => exact enrollExistingCandidate_leaves h hne rfl
  | updateRecruiterDecision => exact updateRecruiterDecision_leaves h hne rfl
  | deleteCandidateFromAssessment => exact deleteCandidateFromAssessment_leaves h hne rfl

theorem recruiterService_viewOf {store : RecruiterStore} {recruiterId other : Uuid}
    (hne : recruiterId ≠ other) {request : RecruiterRequest}
    (hrenames : ¬ request.RenamesShared recruiterId other store.db) :
    (recruiterService recruiterId store request).2.db.viewOf other = store.db.viewOf other :=
  recruiterService_establishes (Q := fun db => db.viewOf other = store.db.viewOf other) rfl
    (request_leaves store.keyed hne hrenames)

/-- A run of one recruiter's requests, none of them a bulk upload that gives a candidate of another
recruiter a new name, changes nothing that the other recruiter sees. -/
theorem recruiter_isolation (store : RecruiterStore) {recruiterId other : Uuid}
    (hne : recruiterId ≠ other) (requests : List RecruiterRequest)
    (hrenames : ∀ t ∈ Runs.trace (recruiterService recruiterId) store requests,
      ¬ t.input.RenamesShared recruiterId other t.pre.db) :
    (Runs.exec (recruiterService recruiterId) store requests).db.viewOf other =
      store.db.viewOf other := by
  refine Runs.exec_rel
    (R := fun s s' : RecruiterStore => s'.db.viewOf other = s.db.viewOf other)
    (fun _ => rfl) (fun h h' => h'.trans h) ?_
  intro t ht
  obtain ⟨before, request, after, rfl, rfl⟩ := Runs.mem_trace ht
  exact recruiterService_viewOf hne (hrenames _ ht)

end Service

section Renaming

theorem sharedCandidate_keyed : sharedCandidate.Keyed where
  assessmentIds := by decide
  candidateIds := by decide
  emails := by decide
  enrollmentIds := by decide
  candidates := by decide

def sharedStore : RecruiterStore := ⟨sharedCandidate, sharedCandidate_keyed⟩

def uploadAs (name : String) : RecruiterRequest :=
  .enroll (.bulkUploadFromCsv ⟨10, 10⟩ 10 (.table (some ["name", "email", "resume"])
    (some [[("name", some name), ("email", some "ADA@mail.example"), ("resume", some "ada.pdf")]]))
    "candidates.csv" 70 fun _ => ⟨71, ⟨72, 73⟩⟩)

/-- An upload under the stored name, a decision on the other recruiter's enrollment and its
deletion. -/
theorem recruiter_isolation_sample :
    let _ : Runtime := .ascii
    let requests := [uploadAs "Ada Lovelace", .updateRecruiterDecision ⟨20, 20⟩ 40 .rejected none,
      .deleteCandidateFromAssessment 40]
    (Runs.exec (recruiterService 1) sharedStore requests).db.viewOf 2 =
      sharedStore.db.viewOf 2 := by
  intro runtime requests
  refine recruiter_isolation sharedStore (by decide) requests ?_
  intro t ht
  simp only [requests, Runs.trace_cons, Runs.trace_nil, List.mem_cons, List.not_mem_nil,
    or_false] at ht
  rcases ht with rfl | rfl | rfl
  · rintro ⟨a, rows, _, _, hparsed, before, row, after, c, hrows, _, hfound, hname, _⟩
    have hnames : ∀ row ∈ rows.map UploadRow.ofCsv, row.name = "Ada Lovelace" := by
      cases hparsed
      decide +kernel
    have hstored : ∀ c ∈ sharedCandidate.candidates, c.fullName = "Ada Lovelace" := by decide
    refine hname ((hstored c (Tables.lookup_mem hfound)).trans (hnames row ?_).symm)
    rw [hrows]
    exact List.mem_append_right before List.mem_cons_self
  · exact not_false
  · exact not_false

/-- The upload changes the name that the second recruiter sees. -/
theorem recruiter_isolation_renamed :
    let _ : Runtime := .ascii
    let reached := Runs.exec (recruiterService 1) sharedStore [uploadAs "Ada L."]
    (reached.db.viewOf 2).enrollments.map (·.2) = [some ("Ada L.", "ada@mail.example")] ∧
      reached.db.viewOf 2 ≠ sharedStore.db.viewOf 2 := by
  intro runtime reached
  have hname : (reached.db.viewOf 2).enrollments.map (·.2) =
      [some ("Ada L.", "ada@mail.example")] := by
    decide +kernel
  refine ⟨hname, ?_⟩
  intro hview
  rw [hview] at hname
  revert hname
  decide

end Renaming

end IBotCoreApi
