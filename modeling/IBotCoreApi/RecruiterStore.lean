import IBotCoreApi.Library.Runs
import IBotCoreApi.RecruiterRequests

namespace IBotCoreApi
open Python Transactions

namespace RecruiterDatabase

variable (db : RecruiterDatabase) (id : Uuid)

theorem candidate?_toDatabase :
    db.toDatabase.candidate? id = (db.candidate? id).map (·.toCandidate) := by
  unfold Database.candidate? RecruiterDatabase.candidate? RecruiterDatabase.toDatabase
  simp only [Tables.lookup, List.find?_map, Function.comp_def]

theorem candidate?_renameCandidate (candidateId : Uuid) (fullName : String) :
    (RecruiterWrite.apply db (.renameCandidate candidateId fullName)).candidate? id =
      (db.candidate? id).map ((RecruiterWrite.renamed fullName).onRow (·.id == candidateId)) :=
  Tables.lookup_updateWhere (RecruiterWrite.renamed fullName) Prod.fst id

theorem assessment?_updateStatus (clock : Clock) (assessmentId : Uuid) (status : AssessmentStatus) :
    (RecruiterWrite.apply db (.updateStatus clock assessmentId status)).assessment? id =
      (db.assessment? id).map
        ((AssessmentRepository.withStatus clock status).onRow (·.id == assessmentId)) :=
  Tables.lookup_updateWhere (AssessmentRepository.withStatus clock status) Prod.fst id

end RecruiterDatabase

/-- The primary keys, the unique e-mail, and the candidate of each enrollment. -/
structure RecruiterDatabase.Keyed (db : RecruiterDatabase) : Prop where
  assessmentIds : (db.assessments.map (·.id)).Nodup
  candidateIds : (db.candidates.map (·.id)).Nodup
  emails : (db.candidates.map (·.email)).Nodup
  enrollmentIds : (db.enrollments.map (·.id)).Nodup
  candidates : ∀ e ∈ db.enrollments, (db.candidate? e.candidateId).isSome

namespace RecruiterDatabase.Keyed

variable {db : RecruiterDatabase}

theorem enrollment?_of_mem (h : db.Keyed) {e : RecruiterEnrollment} (he : e ∈ db.enrollments) :
    db.enrollment? e.id = some e :=
  Tables.lookup_of_mem h.enrollmentIds he

theorem insertAssessment (h : db.Keyed) {a : Assessment} (hnew : db.assessment? a.id = none) :
    Keyed { db with assessments := db.assessments ++ [a] } where
  assessmentIds := Tables.nodup_map_append h.assessmentIds fun _ hr =>
    Tables.key_ne_of_lookup_eq_none hnew hr
  candidateIds := h.candidateIds
  emails := h.emails
  enrollmentIds := h.enrollmentIds
  candidates := h.candidates

theorem insertCandidate (h : db.Keyed) {c : CandidateProfile}
    (hnew : ∀ c' ∈ db.candidates, c'.id ≠ c.id ∧ c'.email ≠ c.email) :
    Keyed { db with candidates := db.candidates ++ [c] } where
  assessmentIds := h.assessmentIds
  candidateIds := Tables.nodup_map_append h.candidateIds fun c' hc' => (hnew c' hc').1
  emails := Tables.nodup_map_append h.emails fun c' hc' => (hnew c' hc').2
  enrollmentIds := h.enrollmentIds
  candidates := by
    intro e he
    obtain ⟨c', hc'⟩ := Option.isSome_iff_exists.mp (h.candidates e he)
    exact Option.isSome_iff_exists.mpr ⟨c', Tables.lookup_append_of_some hc'⟩

theorem renameCandidate (h : db.Keyed) (candidateId : Uuid) (fullName : String) :
    (RecruiterWrite.apply db (.renameCandidate candidateId fullName)).Keyed where
  assessmentIds := h.assessmentIds
  candidateIds := by
    have hids : (Tables.updateWhere (·.id == candidateId) (RecruiterWrite.renamed fullName)
        db.candidates).map (·.id) = db.candidates.map (·.id) :=
      Tables.map_proj_updateWhere (RecruiterWrite.renamed fullName) Prod.fst db.candidates
    exact hids ▸ h.candidateIds
  emails := by
    have hemails : (Tables.updateWhere (·.id == candidateId) (RecruiterWrite.renamed fullName)
        db.candidates).map (·.email) = db.candidates.map (·.email) :=
      Tables.map_proj_updateWhere (RecruiterWrite.renamed fullName) Prod.snd db.candidates
    exact hemails ▸ h.emails
  enrollmentIds := h.enrollmentIds
  candidates := by
    intro e he
    rw [RecruiterDatabase.candidate?_renameCandidate, Option.isSome_map]
    exact h.candidates e he

theorem deleteCandidate (h : db.Keyed) {candidateId : Uuid}
    (hnone : ∀ e ∈ db.enrollments, e.candidateId ≠ candidateId) :
    (RecruiterWrite.apply db (.deleteCandidate candidateId)).Keyed where
  assessmentIds := h.assessmentIds
  candidateIds := h.candidateIds.sublist ((List.filter_sublist).map _)
  emails := h.emails.sublist ((List.filter_sublist).map _)
  enrollmentIds := h.enrollmentIds
  candidates := by
    intro e he
    have hkept : (RecruiterWrite.apply db (.deleteCandidate candidateId)).candidate? e.candidateId =
        db.candidate? e.candidateId := by
      apply Tables.lookup_filter
      intro c _ hc
      simpa [hc] using hnone e he
    rw [hkept]
    exact h.candidates e he

theorem updateStatus (h : db.Keyed) (clock : Clock) (assessmentId : Uuid)
    (status : AssessmentStatus) :
    (RecruiterWrite.apply db (.updateStatus clock assessmentId status)).Keyed where
  assessmentIds := by
    have hids : (Tables.updateWhere (·.id == assessmentId)
        (AssessmentRepository.withStatus clock status) db.assessments).map (·.id) =
          db.assessments.map (·.id) :=
      Tables.map_proj_updateWhere (AssessmentRepository.withStatus clock status) Prod.fst
        db.assessments
    exact hids ▸ h.assessmentIds
  candidateIds := h.candidateIds
  emails := h.emails
  enrollmentIds := h.enrollmentIds
  candidates := h.candidates

theorem decide (h : db.Keyed) (clock : Clock) (enrollmentId : Uuid) (decision : String)
    (feedback : Option String) :
    (RecruiterWrite.apply db (.decide clock enrollmentId decision feedback)).Keyed where
  assessmentIds := h.assessmentIds
  candidateIds := h.candidateIds
  emails := h.emails
  enrollmentIds := by
    have hids : (Tables.updateWhere (·.id == enrollmentId)
        (RecruiterWrite.decided clock decision feedback) db.enrollments).map (·.id) =
          db.enrollments.map (·.id) :=
      Tables.map_proj_updateWhere (RecruiterWrite.decided clock decision feedback) Prod.fst
        db.enrollments
    exact hids ▸ h.enrollmentIds
  candidates := by
    intro e he
    obtain ⟨e₀, he₀, rfl⟩ := Tables.mem_updateWhere.mp he
    have hkeys := (RecruiterWrite.decided clock decision feedback).onRow_keeps
      (p := (·.id == enrollmentId)) e₀
    have hcandidate := congrArg (fun keys => keys.2.1) hkeys
    simp only [RecruiterEnrollment.keys] at hcandidate
    rw [hcandidate]
    exact h.candidates e₀ he₀

theorem insertEnrollment (h : db.Keyed) {e : RecruiterEnrollment}
    (hnew : ∀ e' ∈ db.enrollments, e'.id ≠ e.id)
    (hcandidate : (db.candidate? e.candidateId).isSome) :
    Keyed { db with enrollments := db.enrollments ++ [e] } where
  assessmentIds := h.assessmentIds
  candidateIds := h.candidateIds
  emails := h.emails
  enrollmentIds := Tables.nodup_map_append h.enrollmentIds hnew
  candidates := by
    intro e' he'
    rcases List.mem_append.mp he' with hold | hnew
    · exact h.candidates e' hold
    · rw [List.mem_singleton.mp hnew]
      exact hcandidate

theorem deleteWith (h : db.Keyed) (e : RecruiterEnrollment) :
    (RecruiterWrite.deleteWith db e).Keyed where
  assessmentIds := h.assessmentIds
  candidateIds := h.candidateIds
  emails := h.emails
  enrollmentIds := h.enrollmentIds.sublist ((List.filter_sublist).map _)
  candidates := by
    intro e' he'
    exact h.candidates e' (List.mem_of_mem_filter he')

theorem apply (h : db.Keyed) {w : RecruiterWrite} (hw : recruiterEngine.refuses db w = none) :
    (recruiterEngine.apply db w).Keyed := by
  have hw : w.refuses db = false := by
    by_contra hrefused
    simp [recruiterEngine, hrefused] at hw
  cases w with
  | insertAssessment assessment =>
    refine h.insertAssessment ?_
    simp only [RecruiterWrite.refuses, Bool.or_eq_false_iff] at hw
    simpa using hw.2
  | updateStatus clock assessmentId status => exact h.updateStatus clock assessmentId status
  | insertCandidate candidate =>
    refine h.insertCandidate ?_
    intro c hc
    simp only [RecruiterWrite.refuses, Bool.or_eq_false_iff, List.any_eq_false] at hw
    simpa using hw.2 c hc
  | renameCandidate candidateId fullName => exact h.renameCandidate candidateId fullName
  | deleteCandidate candidateId =>
    refine h.deleteCandidate ?_
    intro e he
    simp only [RecruiterWrite.refuses, List.any_eq_false] at hw
    simpa using hw e he
  | insertEnrollment enrollment =>
    simp only [RecruiterWrite.refuses, Bool.not_eq_false', CandidateAssessmentRepository.canInsert,
      Bool.and_eq_true, List.all_eq_true] at hw
    refine h.insertEnrollment ?_ ?_
    · intro e he
      have hfresh := hw.2 e.toCandidateAssessment (List.mem_map_of_mem he)
      simp only [bne_iff_ne] at hfresh
      exact hfresh.1.1
    · have hcandidate := hw.1.1
      rwa [RecruiterDatabase.candidate?_toDatabase, Option.isSome_map] at hcandidate
  | decide clock enrollmentId decision feedback => exact h.decide clock enrollmentId decision feedback
  | deleteEnrollment enrollmentId =>
    change (RecruiterWrite.apply db (.deleteEnrollment enrollmentId)).Keyed
    cases hfound : db.enrollment? enrollmentId with
    | none =>
      rw [apply_deleteEnrollment_none hfound]
      exact h
    | some e =>
      rw [apply_deleteEnrollment_some hfound]
      exact h.deleteWith e
  | recordEvent event => exact ⟨h.assessmentIds, h.candidateIds, h.emails, h.enrollmentIds, h.candidates⟩

end RecruiterDatabase.Keyed

structure RecruiterStore where
  db : RecruiterDatabase
  keyed : db.Keyed

variable [Runtime]

/-- One request in its own transaction: an exception rolls everything back. -/
def recruiterService (recruiterId : Uuid) :
    Runs.Machine RecruiterStore RecruiterRequest (Except RecruiterException RecruiterResponse) :=
  fun store request =>
    match hrun : (request.program recruiterId).execute recruiterEngine store.db with
    | .ok (response, db) => (.ok response, ⟨db, Program.execute_invariant RecruiterDatabase.Keyed
        (fun _ _ hw hs => hs.apply hw) hrun store.keyed⟩)
    | .error exception => (.error exception, store)

/-- What a request establishes when it commits holds after it, and otherwise nothing has changed. -/
theorem recruiterService_establishes {Q : RecruiterDatabase → Prop} {recruiterId : Uuid}
    {store : RecruiterStore} {request : RecruiterRequest} (hstart : Q store.db)
    (h : (request.program recruiterId).Establishes recruiterEngine (fun _ => Q) store.db) :
    Q (recruiterService recruiterId store request).2.db := by
  unfold recruiterService
  split
  · rename_i response db hrun
    exact h.execute hrun
  · exact hstart

end IBotCoreApi
