import IBotCoreApi.Refinement

namespace IBotCoreApi
open Python

inductive ServiceRequest where
  | session (request : SessionRequest)
  | createRecruiter (newId : Uuid) (companyName : String)
  | createCandidate (newId : Uuid) (fullName : String)
  /-- An uploaded row names a candidate that is already stored. -/
  | renameCandidate (candidateId : Uuid) (name : String)
  | createAssessment (newId recruiterId : Uuid) (request : AssessmentCreateRequest)
      (jdFileBytes : List UInt8) (jdFilename : Option String)
  | activateAssessment (assessmentId : Uuid) (jdText : String) (jdAnalysis interviewPlan : Json)
  | updateStatus (assessmentId recruiterId : Uuid) (newStatus : StatusUpdate)
  | closeAssessmentOnFailure (assessmentId : Uuid)
  | closeExpiredAssessments
  | enroll (draws : CandidateAssessmentRepository.EnrollmentDraws) (candidateId assessmentId : Uuid)
      (resumeFilePath resumeParseStatus : String) (resumeParsed : Option Json)
  | updateResumeParsingResult (candidateAssessmentId : Uuid) (status : String) (parsedData : Json)
  | updateRecruiterDecision (candidateAssessmentId : Uuid) (decision : String)
  | deleteCandidateFromAssessment (candidateAssessmentId recruiterId : Uuid)

structure ServiceCall where
  clock : Clock
  request : ServiceRequest

/-- A write to `candidates` leaves its keys. -/
abbrev CandidateRename := Tables.Update Candidate.id

def createRecruiter (db : Database) (newId : Uuid) (companyName : String) :
    Except ApiException (Recruiter × Database) :=
  if (db.recruiter? newId).isSome then .error .integrityError
  else
    let recruiter : Recruiter := ⟨newId, companyName⟩
    .ok (recruiter, { db with recruiters := db.recruiters ++ [recruiter] })

def createCandidate (db : Database) (newId : Uuid) (fullName : String) :
    Except ApiException (Candidate × Database) :=
  if (db.candidate? newId).isSome then .error .integrityError
  else
    let candidate : Candidate := ⟨newId, fullName⟩
    .ok (candidate, { db with candidates := db.candidates ++ [candidate] })

/-- `if name and candidate.full_name != name`: store the name of an uploaded row. -/
def renameCandidate (db : Database) (candidateId : Uuid) (name : String) : Database :=
  { db with
    candidates := Tables.updateWhere
      (fun c => c.id == candidateId && (name != "" && c.fullName != name))
      ({ set := fun c => { c with fullName := name } } : CandidateRename) db.candidates }

section Constraints

variable {db db' : Database}

namespace Database.WellFormed

theorem insertRecruiter (h : db.WellFormed) (recruiter : Recruiter) :
    Database.WellFormed { db with recruiters := db.recruiters ++ [recruiter] } :=
  h.of_tables rfl rfl rfl rfl

theorem insertCandidate (h : db.WellFormed) (candidate : Candidate) :
    Database.WellFormed { db with candidates := db.candidates ++ [candidate] } where
  sessionIds := h.sessionIds
  sessionKeys := h.sessionKeys
  sessionTokens := h.sessionTokens
  candidateAssessmentIds := h.candidateAssessmentIds
  invitationTokens := h.invitationTokens
  candidates := by
    intro ca hca
    obtain ⟨found, hfound⟩ := Option.isSome_iff_exists.mp (h.candidates ca hca)
    exact Option.isSome_iff_exists.mpr ⟨found, Tables.lookup_append_of_some hfound⟩
  assessments := h.assessments
  enrolled := h.enrolled

theorem renameCandidate (h : db.WellFormed) (p : Candidate → Bool) (u : CandidateRename) :
    Database.WellFormed { db with candidates := Tables.updateWhere p u db.candidates } where
  sessionIds := h.sessionIds
  sessionKeys := h.sessionKeys
  sessionTokens := h.sessionTokens
  candidateAssessmentIds := h.candidateAssessmentIds
  invitationTokens := h.invitationTokens
  candidates := by
    intro ca hca
    have hlookup : Tables.lookup (·.id) ca.candidateId (Tables.updateWhere p u db.candidates) =
        (db.candidate? ca.candidateId).map (u.onRow p) :=
      Tables.lookup_updateWhere u id ca.candidateId
    exact (congrArg Option.isSome hlookup).trans
      (Option.isSome_map.trans (h.candidates ca hca))
  assessments := h.assessments
  enrolled := h.enrolled

theorem insertAssessment (h : db.WellFormed) (assessment : Assessment) :
    Database.WellFormed { db with assessments := db.assessments ++ [assessment] } where
  sessionIds := h.sessionIds
  sessionKeys := h.sessionKeys
  sessionTokens := h.sessionTokens
  candidateAssessmentIds := h.candidateAssessmentIds
  invitationTokens := h.invitationTokens
  candidates := h.candidates
  assessments := by
    intro ca hca
    obtain ⟨found, hfound⟩ := Option.isSome_iff_exists.mp (h.assessments ca hca)
    exact Option.isSome_iff_exists.mpr ⟨found, Tables.lookup_append_of_some hfound⟩
  enrolled := h.enrolled

theorem updateAssessments (h : db.WellFormed) (p : Assessment → Bool) (u : AssessmentUpdate) :
    (db.updateAssessments p u).WellFormed where
  sessionIds := h.sessionIds
  sessionKeys := h.sessionKeys
  sessionTokens := h.sessionTokens
  candidateAssessmentIds := h.candidateAssessmentIds
  invitationTokens := h.invitationTokens
  candidates := h.candidates
  assessments := by
    intro ca hca
    rw [Database.assessment?_updateAssessments, Option.isSome_map]
    exact h.assessments ca hca
  enrolled := h.enrolled

theorem insertCandidateAssessment (h : db.WellFormed) {ca : CandidateAssessment}
    (hinsert : CandidateAssessmentRepository.canInsert db ca) :
    Database.WellFormed { db with candidateAssessments := db.candidateAssessments ++ [ca] } := by
  simp only [CandidateAssessmentRepository.canInsert, Bool.and_eq_true, List.all_eq_true,
    bne_iff_ne] at hinsert
  obtain ⟨⟨hcandidate, hassessment⟩, hunique⟩ := hinsert
  exact {
    sessionIds := h.sessionIds
    sessionKeys := h.sessionKeys
    sessionTokens := h.sessionTokens
    candidateAssessmentIds := Tables.nodup_map_append h.candidateAssessmentIds
      fun other hother => (hunique other hother).1.1
    invitationTokens := Tables.nodup_map_append h.invitationTokens
      fun other hother => (hunique other hother).1.2
    candidates := by
      intro row hrow
      rcases List.mem_append.mp hrow with hrow | hrow
      · exact h.candidates row hrow
      · exact List.mem_singleton.mp hrow ▸ hcandidate
    assessments := by
      intro row hrow
      rcases List.mem_append.mp hrow with hrow | hrow
      · exact h.assessments row hrow
      · exact List.mem_singleton.mp hrow ▸ hassessment
    enrolled := by
      intro s hs
      obtain ⟨found, hfound⟩ := Option.isSome_iff_exists.mp (h.enrolled s hs)
      exact Option.isSome_iff_exists.mpr ⟨found, Tables.lookup_append_of_some hfound⟩ }

theorem delete (h : db.WellFormed) (ca : CandidateAssessment) :
    (CandidateAssessmentRepository.delete db ca).WellFormed where
  sessionIds := h.sessionIds.sublist (List.filter_sublist.map _)
  sessionKeys := h.sessionKeys.sublist (List.filter_sublist.map _)
  sessionTokens := by
    intro s hs s' hs'
    exact h.sessionTokens s (List.mem_of_mem_filter hs) s' (List.mem_of_mem_filter hs')
  candidateAssessmentIds := h.candidateAssessmentIds.sublist (List.filter_sublist.map _)
  invitationTokens := h.invitationTokens.sublist (List.filter_sublist.map _)
  candidates := fun row hrow => h.candidates row (List.mem_of_mem_filter hrow)
  assessments := fun row hrow => h.assessments row (List.mem_of_mem_filter hrow)
  enrolled := by
    intro s hs
    obtain ⟨hmem, hother⟩ := List.mem_filter.mp hs
    have hlookup : (CandidateAssessmentRepository.delete db ca).candidateAssessment?
        s.candidateAssessmentId = db.candidateAssessment? s.candidateAssessmentId := by
      apply Tables.lookup_filter
      intro row _ hrow
      rw [hrow]
      exact hother
    rw [hlookup]
    exact h.enrolled s hmem

theorem deleteCandidate (h : db.WellFormed) {candidateId : Uuid}
    (hnone : ∀ ca ∈ db.candidateAssessments, ca.candidateId ≠ candidateId) :
    Database.WellFormed { db with candidates := db.candidates.filter (·.id != candidateId) } where
  sessionIds := h.sessionIds
  sessionKeys := h.sessionKeys
  sessionTokens := h.sessionTokens
  candidateAssessmentIds := h.candidateAssessmentIds
  invitationTokens := h.invitationTokens
  candidates := by
    intro ca hca
    have hlookup : Tables.lookup (·.id) ca.candidateId
        (db.candidates.filter (·.id != candidateId)) = db.candidate? ca.candidateId := by
      apply Tables.lookup_filter
      intro row _ hrow
      rw [bne_iff_ne, hrow]
      exact hnone ca hca
    exact (congrArg Option.isSome hlookup).trans (h.candidates ca hca)
  assessments := h.assessments
  enrolled := h.enrolled

end Database.WellFormed

end Constraints

section Operate

open InternalInterview

variable [Runtime] {db : Database}

def operate (db : Database) (call : ServiceCall) : SessionResult × Database :=
  let clock := call.clock
  match call.request with
  | .session request => handle db ⟨clock, request⟩
  | .createRecruiter newId companyName =>
    respond (fun _ => .ok) (transact db (createRecruiter db newId companyName))
  | .createCandidate newId fullName =>
    respond (fun _ => .ok) (transact db (createCandidate db newId fullName))
  | .renameCandidate candidateId name => (.ok .ok, renameCandidate db candidateId name)
  | .createAssessment newId recruiterId request jdFileBytes jdFilename =>
    respond (fun _ => .ok) (transact db (AssessmentService.createAssessment db clock newId
      recruiterId request jdFileBytes jdFilename))
  | .activateAssessment assessmentId jdText jdAnalysis interviewPlan =>
    (.ok .ok, (AssessmentRepository.activateAssessment db clock assessmentId jdText jdAnalysis
      interviewPlan).2)
  | .updateStatus assessmentId recruiterId newStatus =>
    respond (fun _ => .ok) (transact db
      (AssessmentService.updateStatus db clock assessmentId recruiterId newStatus.status))
  | .closeAssessmentOnFailure assessmentId =>
    (.ok .ok, AssessmentRepository.closeAssessmentOnFailure db clock assessmentId)
  | .closeExpiredAssessments => (.ok .ok, AssessmentRepository.closeExpiredAssessments db clock)
  | .enroll draws candidateId assessmentId resumeFilePath resumeParseStatus resumeParsed =>
    respond (fun _ => .ok) (transact db (CandidateAssessmentRepository.create db
      (CandidateAssessmentRepository.newCandidateAssessment clock draws candidateId assessmentId
        resumeFilePath resumeParseStatus resumeParsed)))
  | .updateResumeParsingResult candidateAssessmentId status parsedData =>
    (.ok .ok, CandidateAssessmentRepository.updateResumeParsingResult db candidateAssessmentId status
      parsedData)
  | .updateRecruiterDecision candidateAssessmentId decision =>
    (.ok .ok, db.updateCandidateAssessments (·.id == candidateAssessmentId)
      (CandidateAssessmentRepository.decided decision))
  | .deleteCandidateFromAssessment candidateAssessmentId recruiterId =>
    respond (fun _ => .ok) (transact db
      (CandidateService.deleteCandidateFromAssessment db candidateAssessmentId recruiterId))

/-- What the requests outside the internal API can do to the tables. -/
inductive Administration (db : Database) : Database → Prop
  | unchanged : Administration db db
  | recruiterInserted (recruiter : Recruiter) :
      Administration db { db with recruiters := db.recruiters ++ [recruiter] }
  | candidateInserted (candidate : Candidate) :
      Administration db { db with candidates := db.candidates ++ [candidate] }
  | candidateRenamed (p : Candidate → Bool) (u : CandidateRename) :
      Administration db { db with candidates := Tables.updateWhere p u db.candidates }
  | assessmentInserted (assessment : Assessment) :
      Administration db { db with assessments := db.assessments ++ [assessment] }
  | assessmentsUpdated (p : Assessment → Bool) (u : AssessmentUpdate) :
      Administration db (db.updateAssessments p u)
  | enrolled {ca : CandidateAssessment}
      (hinsert : CandidateAssessmentRepository.canInsert db ca) :
      Administration db { db with candidateAssessments := db.candidateAssessments ++ [ca] }
  | enrollmentsUpdated (q : CandidateAssessment → Bool) (v : CandidateUpdate) :
      Administration db (db.updateCandidateAssessments q v)
  | deleted (ca : CandidateAssessment) :
      Administration db (CandidateAssessmentRepository.delete db ca)
  | candidateDeleted (ca : CandidateAssessment)
      (hnone : ∀ row ∈ (CandidateAssessmentRepository.delete db ca).candidateAssessments,
        row.candidateId ≠ ca.candidateId) :
      Administration db { CandidateAssessmentRepository.delete db ca with
        candidates := (CandidateAssessmentRepository.delete db ca).candidates.filter
          (·.id != ca.candidateId) }

omit [Runtime] in
theorem transact_administration {α : Type} {body : Except ApiException (α × Database)}
    (hbody : ∀ a db', body = .ok (a, db') → Administration db db') :
    Administration db (transact db body).2 := by
  match body with
  | .ok (a, db') => exact hbody a db' rfl
  | .error _ => exact .unchanged

omit [Runtime] in
theorem deleteCandidateFromAssessment_cases {db' : Database}
    {candidateAssessmentId recruiterId : Uuid}
    (hrun : CandidateService.deleteCandidateFromAssessment db candidateAssessmentId recruiterId =
      .ok ((), db')) :
    ∃ ca a, db.candidateAssessment? candidateAssessmentId = some ca ∧
      db.assessment? ca.assessmentId = some a ∧ a.recruiterId = recruiterId ∧
      ∃ candidates, db' =
        { CandidateAssessmentRepository.delete db ca with candidates := candidates } := by
  unfold CandidateService.deleteCandidateFromAssessment at hrun
  split at hrun
  · rename_i ca hca
    split at hrun
    · rename_i a ha
      split at hrun
      · cases hrun
      · rename_i howner
        cases hrun
        refine ⟨ca, a, hca, ha, not_not.mp howner, ?_⟩
        split
        · exact ⟨_, rfl⟩
        · exact ⟨_, rfl⟩
    · cases hrun
  · cases hrun

omit [Runtime] in
theorem deleteCandidateFromAssessment_administration {candidateAssessmentId recruiterId : Uuid}
    {db' : Database} (hrun : CandidateService.deleteCandidateFromAssessment db
      candidateAssessmentId recruiterId = .ok ((), db')) : Administration db db' := by
  unfold CandidateService.deleteCandidateFromAssessment at hrun
  split at hrun
  · rename_i ca _
    split at hrun
    · split at hrun
      · cases hrun
      · cases hrun
        split
        · exact .deleted ca
        · rename_i hnone
          exact .candidateDeleted ca (by simpa using hnone)
    · cases hrun
  · cases hrun

theorem operate_administration {clock : Clock} {request : ServiceRequest}
    (hrequest : ∀ r, request ≠ .session r) :
    Administration db (operate db ⟨clock, request⟩).2 := by
  cases request with
  | session request => exact absurd rfl (hrequest request)
  | createRecruiter newId companyName =>
    simp only [operate, respond]
    refine transact_administration fun recruiter db' hrun => ?_
    unfold createRecruiter at hrun
    split at hrun
    · cases hrun
    · cases hrun
      exact .recruiterInserted _
  | createCandidate newId fullName =>
    simp only [operate, respond]
    refine transact_administration fun candidate db' hrun => ?_
    unfold createCandidate at hrun
    split at hrun
    · cases hrun
    · cases hrun
      exact .candidateInserted _
  | renameCandidate candidateId name => exact .candidateRenamed _ _
  | createAssessment newId recruiterId request jdFileBytes jdFilename =>
    simp only [operate, respond]
    refine transact_administration fun assessment db' hrun => ?_
    unfold AssessmentService.createAssessment AssessmentRepository.createAssessment at hrun
    split_ifs at hrun
    cases hrun
    exact .assessmentInserted _
  | activateAssessment assessmentId jdText jdAnalysis interviewPlan =>
    simp only [operate, AssessmentRepository.activateAssessment]
    split
    · exact .unchanged
    · exact .assessmentsUpdated _ _
  | updateStatus assessmentId recruiterId newStatus =>
    simp only [operate, respond]
    refine transact_administration fun assessment db' hrun => ?_
    obtain ⟨found, _, hrun⟩ := Outcomes.bind_eq_ok.mp hrun
    cases hrun
    exact .assessmentsUpdated _ _
  | closeAssessmentOnFailure | closeExpiredAssessments => exact .assessmentsUpdated _ _
  | enroll draws candidateId assessmentId resumeFilePath resumeParseStatus resumeParsed =>
    simp only [operate, respond]
    refine transact_administration fun ca db' hrun => ?_
    unfold CandidateAssessmentRepository.create at hrun
    split at hrun
    · rename_i hinsert
      cases hrun
      exact .enrolled hinsert
    · cases hrun
  | updateResumeParsingResult | updateRecruiterDecision => exact .enrollmentsUpdated _ _
  | deleteCandidateFromAssessment candidateAssessmentId recruiterId =>
    exact transact_administration fun _ db' hrun =>
      deleteCandidateFromAssessment_administration hrun

omit [Runtime] in
theorem Administration.wellFormed {db' : Database} (hstep : Administration db db')
    (h : db.WellFormed) : db'.WellFormed := by
  cases hstep with
  | unchanged => exact h
  | recruiterInserted => exact h.insertRecruiter _
  | candidateInserted => exact h.insertCandidate _
  | candidateRenamed => exact h.renameCandidate _ _
  | assessmentInserted => exact h.insertAssessment _
  | assessmentsUpdated => exact h.updateAssessments _ _
  | enrolled hinsert => exact h.insertCandidateAssessment hinsert
  | enrollmentsUpdated => exact h.updateCandidateAssessments _ _
  | deleted ca => exact h.delete ca
  | candidateDeleted ca hnone => exact (h.delete ca).deleteCandidate hnone

omit [Runtime] in
/-- Outside the internal API a session can only be deleted. -/
theorem Administration.sessions {db' : Database} (hstep : Administration db db')
    {s : InterviewSession} (hs : s ∈ db'.interviewSessions) : s ∈ db.interviewSessions := by
  cases hstep with
  | deleted | candidateDeleted => exact List.mem_of_mem_filter hs
  | _ => exact hs

theorem operate_wellFormed (h : db.WellFormed) (call : ServiceCall) :
    (operate db call).2.WellFormed := by
  obtain ⟨clock, request⟩ := call
  by_cases hrequest : ∃ r, request = .session r
  · obtain ⟨r, rfl⟩ := hrequest
    exact handle_wellFormed h ⟨clock, r⟩
  · exact (operate_administration fun r heq => hrequest ⟨r, heq⟩).wellFormed h

def service : Runs.Machine Store ServiceCall SessionResult := fun store call =>
  ((operate store.db call).1, ⟨(operate store.db call).2, operate_wellFormed store.wellFormed call⟩)

omit [Runtime] in
def emptyStore : Store where
  db := ⟨[], [], [], [], [], [], [], []⟩
  wellFormed := by constructor <;> simp

def Reachable (store : Store) : Prop := ∃ calls, store = Runs.exec service emptyStore calls

/-- What every request preserves holds in every reachable state. -/
theorem Reachable.invariant {Inv : Store → Prop} {store : Store} (h : Reachable store)
    (hstart : Inv emptyStore) (hstep : ∀ store call, Inv store → Inv (service store call).2) :
    Inv store := by
  obtain ⟨calls, rfl⟩ := h
  have hkeep (store : Store) (call : ServiceCall) (_ : True) (hinv : Inv store) :
      Inv (service store call).2 := hstep store call hinv
  exact Runs.exec_invariant hkeep (fun _ _ => trivial) hstart

end Operate

section Enrollments

/-- The recruiter's requests and the résumé worker write four columns of an enrollment, and leave its
session alone. -/
structure Enrollment.Administered (e e' : Enrollment) : Prop where
  session : e'.session = e.session
  candidate : e'.candidate = { e.candidate with
    resumeParsed := e'.candidate.resumeParsed
    resumeParseStatus := e'.candidate.resumeParseStatus
    recruiterDecision := e'.candidate.recruiterDecision
    updatedAt := e'.candidate.updatedAt }

/-- An enrollment as it is created: invited, without a session. -/
structure Enrollment.Created (e : Enrollment) : Prop where
  session : e.session = none
  status : e.candidate.status = .invited
  notConsumed : e.candidate.inviteConsumed = false ∧ e.candidate.inviteConsumedAt = none
  notStarted : e.candidate.interviewStartedAt = none ∧ e.candidate.interviewEndedAt = none

def EnrollmentsKept (db db' : Database) : Prop :=
  ∀ id e', db'.enrollment? id = some e' →
    (∃ e, db.enrollment? id = some e ∧ e.Administered e') ∨ e'.Created

variable {db : Database}

theorem EnrollmentsKept.of_same {db' : Database}
    (h : ∀ id e', db'.enrollment? id = some e' → db.enrollment? id = some e') :
    EnrollmentsKept db db' := fun id e' he' => .inl ⟨e', h id e' he', rfl, rfl⟩

theorem EnrollmentsKept.refl (db : Database) : EnrollmentsKept db db := .of_same fun _ _ he => he

theorem EnrollmentsKept.update {v : CandidateUpdate}
    (hv : ∀ ca, v.set ca = { ca with
      resumeParsed := (v.set ca).resumeParsed
      resumeParseStatus := (v.set ca).resumeParseStatus
      recruiterDecision := (v.set ca).recruiterDecision
      updatedAt := (v.set ca).updatedAt }) (q : CandidateAssessment → Bool) :
    EnrollmentsKept db (db.updateCandidateAssessments q v) := by
  intro id e' he'
  rw [enrollment?_updateCandidateAssessments, Option.map_eq_some_iff] at he'
  obtain ⟨e, he, rfl⟩ := he'
  refine .inl ⟨e, he, rfl, ?_⟩
  show v.onRow q e.candidate = _
  unfold Tables.Update.onRow
  split
  · exact hv e.candidate
  · rfl

theorem EnrollmentsKept.insert (h : db.WellFormed) {ca : CandidateAssessment}
    (hnew : Enrollment.Created ⟨ca, none⟩) :
    EnrollmentsKept db { db with candidateAssessments := db.candidateAssessments ++ [ca] } := by
  intro id e' he'
  obtain ⟨hcandidate, hsession⟩ := enrollment?_eq_some.mp he'
  cases hbefore : db.candidateAssessment? id with
  | some row =>
    have hrow : some row = some e'.candidate :=
      (Tables.lookup_append_of_some hbefore).symm.trans hcandidate
    refine .inl ⟨e', enrollment?_eq_some.mpr ⟨?_, hsession⟩, rfl, rfl⟩
    rw [hbefore, hrow]
  | none =>
    have hlast : e'.candidate = ca := by
      have hfound : Tables.lookup (·.id) id [ca] = some e'.candidate :=
        (Tables.lookup_append_of_none hbefore).symm.trans hcandidate
      exact List.mem_singleton.mp (Tables.lookup_mem hfound)
    have hnone : e'.session = none := by
      cases hs : e'.session with
      | none => rfl
      | some s =>
        rw [hs] at hsession
        have henrolled := h.enrolled s (Tables.lookup_mem hsession)
        rw [Database.candidateAssessmentId_of_sessionOf? hsession, hbefore] at henrolled
        cases henrolled
    obtain ⟨candidate, session⟩ := e'
    simp only at hlast hnone
    subst hlast hnone
    exact .inr hnew

theorem EnrollmentsKept.delete (ca : CandidateAssessment) (candidates : List Candidate) :
    EnrollmentsKept db { CandidateAssessmentRepository.delete db ca with
      candidates := candidates } := by
  refine .of_same fun id e' he' => ?_
  obtain ⟨hcandidate, hsession⟩ := enrollment?_eq_some.mp he'
  have hother : id ≠ ca.id := by
    rintro rfl
    have hgone := (List.mem_filter.mp (Tables.lookup_mem hcandidate)).2
    rw [Tables.lookup_key hcandidate] at hgone
    simp at hgone
  refine enrollment?_eq_some.mpr ⟨?_, ?_⟩
  · rw [← hcandidate]
    refine (Tables.lookup_filter fun row _ hrow => ?_).symm
    simpa [hrow] using hother
  · rw [← hsession]
    refine (Tables.lookup_filter fun row _ hrow => ?_).symm
    simpa [hrow] using hother

theorem transact_enrollmentsKept {α : Type} {body : Except ApiException (α × Database)}
    (hbody : ∀ a db', body = .ok (a, db') → EnrollmentsKept db db') :
    EnrollmentsKept db (transact db body).2 := by
  match body with
  | .ok (a, db') => exact hbody a db' rfl
  | .error _ => exact .refl db

variable [Runtime]

theorem operate_enrollmentsKept {clock : Clock} (h : db.WellFormed) {request : ServiceRequest}
    (hrequest : ∀ r, request ≠ .session r) :
    EnrollmentsKept db (operate db ⟨clock, request⟩).2 := by
  cases request with
  | session request => exact absurd rfl (hrequest request)
  | createRecruiter newId companyName =>
    simp only [operate, InternalInterview.respond]
    refine transact_enrollmentsKept fun recruiter db' hrun => ?_
    unfold createRecruiter at hrun
    split at hrun
    · cases hrun
    · cases hrun
      exact .refl db
  | createCandidate newId fullName =>
    simp only [operate, InternalInterview.respond]
    refine transact_enrollmentsKept fun candidate db' hrun => ?_
    unfold createCandidate at hrun
    split at hrun
    · cases hrun
    · cases hrun
      exact .refl db
  | renameCandidate candidateId name => exact .refl db
  | createAssessment newId recruiterId request jdFileBytes jdFilename =>
    simp only [operate, InternalInterview.respond]
    refine transact_enrollmentsKept fun assessment db' hrun => ?_
    unfold AssessmentService.createAssessment AssessmentRepository.createAssessment at hrun
    split_ifs at hrun
    cases hrun
    exact .refl db
  | activateAssessment assessmentId jdText jdAnalysis interviewPlan =>
    simp only [operate, AssessmentRepository.activateAssessment]
    split
    · exact .refl db
    · exact .refl db
  | updateStatus assessmentId recruiterId newStatus =>
    simp only [operate, InternalInterview.respond]
    refine transact_enrollmentsKept fun assessment db' hrun => ?_
    obtain ⟨found, _, hrun⟩ := Outcomes.bind_eq_ok.mp hrun
    cases hrun
    exact .refl db
  | closeAssessmentOnFailure | closeExpiredAssessments => exact .refl db
  | enroll draws candidateId assessmentId resumeFilePath resumeParseStatus resumeParsed =>
    simp only [operate, InternalInterview.respond]
    refine transact_enrollmentsKept fun ca db' hrun => ?_
    unfold CandidateAssessmentRepository.create at hrun
    split at hrun
    · cases hrun
      exact .insert h ⟨rfl, rfl, ⟨rfl, rfl⟩, rfl, rfl⟩
    · cases hrun
  | updateResumeParsingResult | updateRecruiterDecision => exact .update (fun _ => rfl) _
  | deleteCandidateFromAssessment candidateAssessmentId recruiterId =>
    simp only [operate, InternalInterview.respond]
    refine transact_enrollmentsKept fun _ db' hrun => ?_
    obtain ⟨ca, _, _, _, _, candidates, rfl⟩ := deleteCandidateFromAssessment_cases hrun
    exact .delete ca candidates

/-- What every step keeps of an enrollment and every new one has holds in every reachable state. -/
theorem Reachable.enrollment {P : Enrollment → Prop} {store : Store} (h : Reachable store)
    (hstep : ∀ {clock request} {e e' : Enrollment}, e.Step clock request e' → P e → P e')
    (hadministered : ∀ {e e' : Enrollment}, e.Administered e' → P e → P e')
    (hcreated : ∀ {e : Enrollment}, e.Created → P e) :
    ∀ id e, store.db.enrollment? id = some e → P e := by
  let Holds (store : Store) : Prop := ∀ id e, store.db.enrollment? id = some e → P e
  have hstart : Holds emptyStore := by
    intro id e he
    cases he
  have hkeep (store : Store) (call : ServiceCall) (hold : Holds store) :
      Holds (service store call).2 := by
    intro id e' he'
    obtain ⟨clock, request⟩ := call
    by_cases hrequest : ∃ r, request = .session r
    · obtain ⟨r, rfl⟩ := hrequest
      obtain ⟨e, he, hlifecycle⟩ := handle_origin store.wellFormed ⟨clock, r⟩ he'
      exact hstep hlifecycle (hold id e he)
    · rcases operate_enrollmentsKept store.wellFormed (fun r heq => hrequest ⟨r, heq⟩) id e' he'
        with ⟨e, he, hsame⟩ | hnew
      · exact hadministered hsame (hold id e he)
      · exact hcreated hnew
  exact @Reachable.invariant _ Holds store h hstart hkeep

end Enrollments

end IBotCoreApi
