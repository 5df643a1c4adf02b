import IBotCoreApi.ExternalEffects
import IBotCoreApi.WaitingRoom

namespace IBotCoreApi
open Python Runs Outcomes InternalInterview EvaluationRepository

/-- The e-mail addresses of candidates and recruiters, which the rows leave out. -/
class ContactColumns where
  candidateEmail : Uuid → String
  recruiterEmail : Uuid → String

/-- A row of `load_evaluation_source`. -/
structure EvaluationSource where
  sessionId : Uuid
  candidateAssessmentId : Uuid
  sessionStatus : SessionStatus
  transcript : List Json
  violations : List Json
  totalElapsedSecs : ℤ
  totalPauseSecs : ℤ
  assessmentId : Uuid
  candidateAssessmentStatus : CandidateStatus
  recruiterId : Uuid
  candidateName : String
  candidateEmail : String
  assessmentTitle : String
  roleName : String
  jdAnalysis : Option Json
  interviewPlan : Option Json
  interviewDurationMins : ℤ
  companyName : String
  recruiterEmail : String

def EvaluationRepository.loadEvaluationSource [ContactColumns] (db : Database)
    (candidateAssessmentId : Uuid) : Option EvaluationSource := do
  let session ← db.sessionOf? candidateAssessmentId
  let ca ← db.candidateAssessment? session.candidateAssessmentId
  let candidate ← db.candidate? ca.candidateId
  let assessment ← db.assessment? ca.assessmentId
  let recruiter := db.recruiter? assessment.recruiterId
  return {
    sessionId := session.id
    candidateAssessmentId := session.candidateAssessmentId
    sessionStatus := session.status
    transcript := session.transcript
    violations := session.violations
    totalElapsedSecs := session.totalElapsedSecs
    totalPauseSecs := session.totalPauseSecs
    assessmentId := ca.assessmentId
    candidateAssessmentStatus := ca.status
    recruiterId := assessment.recruiterId
    candidateName := candidate.fullName
    candidateEmail := ContactColumns.candidateEmail candidate.id
    assessmentTitle := assessment.title
    roleName := assessment.roleName
    jdAnalysis := assessment.jdAnalysis
    interviewPlan := assessment.interviewPlan
    interviewDurationMins := assessment.interviewDurationMins
    companyName := (recruiter.map (·.companyName)).getD ""
    recruiterEmail := (recruiter.map fun r => ContactColumns.recruiterEmail r.id).getD "" }

section Sessions

variable [Runtime] {store : Store} {id : Uuid} {s : InterviewSession}

/-- A deletion takes the session of no other enrollment, and if it is refused of none. -/
theorem delete_session_kept {clock : Clock} {deletedId recruiterId : Uuid}
    (hs : store.db.sessionOf? id = some s)
    (hother : (∃ response, (service store
      ⟨clock, .deleteCandidateFromAssessment deletedId recruiterId⟩).1 = .ok response) →
        id ≠ deletedId) :
    (service store ⟨clock, .deleteCandidateFromAssessment deletedId recruiterId⟩).2.db.sessionOf?
      id = some s := by
  cases hrun : CandidateService.deleteCandidateFromAssessment store.db deletedId recruiterId with
  | error exception =>
    simp only [service, operate, respond, transact, hrun]
    exact hs
  | ok outcome =>
    have hne : id ≠ deletedId := hother (by
      simp only [service, operate, respond, transact, hrun, Except.map]
      exact ⟨_, rfl⟩)
    obtain ⟨_, db'⟩ := outcome
    obtain ⟨ca, _, hca, _, _, candidates, rfl⟩ := deleteCandidateFromAssessment_cases hrun
    obtain rfl : ca.id = deletedId := Tables.lookup_key hca
    simp only [service, operate, respond, transact, hrun]
    rw [← hs]
    refine Tables.lookup_filter fun row _ hrow => ?_
    simpa [hrow] using hne

theorem service_session_kept {call : ServiceCall} (hs : store.db.sessionOf? id = some s)
    (hdelete : ∀ recruiterId response,
      call.request = .deleteCandidateFromAssessment id recruiterId →
        (service store call).1 ≠ .ok response) :
    ∃ s', (service store call).2.db.sessionOf? id = some s' ∧ s'.id = s.id := by
  by_cases hsession : ∃ request, call.request = .session request
  · obtain ⟨clock, request⟩ := call
    obtain ⟨request, rfl⟩ := hsession
    obtain ⟨ca, hca⟩ := Option.isSome_iff_exists.mp
      (store.wellFormed.enrolled s (Tables.lookup_mem hs))
    rw [Database.candidateAssessmentId_of_sessionOf? hs] at hca
    have he : store.db.enrollment? id = some ⟨ca, some s⟩ := enrollment?_eq_some.mpr ⟨hca, hs⟩
    obtain ⟨e', he', hstep⟩ := handle_step store.wellFormed he ⟨clock, request⟩
    obtain ⟨s', hs', hsame⟩ := hstep.session_kept rfl
    exact ⟨s', (enrollment?_eq_some.mp he').2.trans hs', hsame⟩
  · by_cases hdeletion : ∃ deletedId recruiterId,
      call.request = .deleteCandidateFromAssessment deletedId recruiterId
    · obtain ⟨clock, request⟩ := call
      obtain ⟨deletedId, recruiterId, hrequest⟩ := hdeletion
      obtain rfl : request = .deleteCandidateFromAssessment deletedId recruiterId := hrequest
      refine ⟨s, delete_session_kept hs ?_, rfl⟩
      rintro ⟨response, hresult⟩ rfl
      exact hdelete recruiterId response rfl hresult
    · obtain ⟨clock, request⟩ := call
      have hsame : (operate store.db ⟨clock, request⟩).2.interviews = store.db.interviews :=
        operate_interviews (fun r hr => hsession ⟨r, hr⟩)
          fun deletedId recruiterId hr => hdeletion ⟨deletedId, recruiterId, hr⟩
      refine ⟨s, ?_, rfl⟩
      have hrows : (service store ⟨clock, request⟩).2.db.interviewSessions =
          store.db.interviewSessions := congrArg Prod.fst hsame
      rw [Database.sessionOf?, hrows]
      exact hs

theorem exec_session_kept {calls : List ServiceCall} (hs : store.db.sessionOf? id = some s)
    (hdeletes : ∀ call ∈ calls, ∀ recruiterId,
      call.request ≠ .deleteCandidateFromAssessment id recruiterId) :
    ∃ s', (exec service store calls).db.sessionOf? id = some s' ∧ s'.id = s.id := by
  have hstep (store' : Store) (call : ServiceCall)
      (hcall : ∀ recruiterId, call.request ≠ .deleteCandidateFromAssessment id recruiterId)
      (h : ∃ s', store'.db.sessionOf? id = some s' ∧ s'.id = s.id) :
      ∃ s', (service store' call).2.db.sessionOf? id = some s' ∧ s'.id = s.id := by
    obtain ⟨s', hs', hsame⟩ := h
    obtain ⟨s'', hs'', hsame'⟩ :=
      service_session_kept hs' fun recruiterId _ hrequest => absurd hrequest (hcall recruiterId)
    exact ⟨s'', hs'', hsame'.trans hsame⟩
  exact exec_invariant hstep hdeletes ⟨s, hs, rfl⟩

theorem exec_invitationKept {calls : List ServiceCall}
    (hdeletes : ∀ call ∈ calls, ∀ recruiterId,
      call.request ≠ .deleteCandidateFromAssessment id recruiterId) :
    InvitationKept (fun _ => True) id store.db (exec service store calls).db := by
  have hstep (store' : Store) (call : ServiceCall)
      (hcall : ∀ recruiterId, call.request ≠ .deleteCandidateFromAssessment id recruiterId)
      (h : InvitationKept (fun _ => True) id store.db store'.db) :
      InvitationKept (fun _ => True) id store.db (service store' call).2.db :=
    h.trans (service_invitationKept store' call hcall fun _ _ _ => trivial)
  exact exec_invariant hstep hdeletes (.refl id store.db)

end Sessions

section Sources

variable [ContactColumns] {db : Database} {id : Uuid} {source : EvaluationSource}

theorem loadEvaluationSource_eq_some (h : loadEvaluationSource db id = some source) :
    ∃ s ca, db.sessionOf? id = some s ∧ db.candidateAssessment? id = some ca ∧
      source.sessionId = s.id ∧ source.assessmentId = ca.assessmentId := by
  simp only [loadEvaluationSource, Option.bind_eq_bind, Option.bind_eq_some_iff] at h
  obtain ⟨s, hs, ca, hca, candidate, _, assessment, _, hsource⟩ := h
  cases hsource
  rw [Database.candidateAssessmentId_of_sessionOf? hs] at hca
  exact ⟨s, ca, hs, hca, rfl, rfl⟩

theorem loadEvaluationSource_of_session (h : db.WellFormed) {s : InterviewSession}
    (hs : db.sessionOf? id = some s) :
    ∃ source, loadEvaluationSource db id = some source ∧ source.sessionId = s.id := by
  obtain ⟨ca, hca⟩ := Option.isSome_iff_exists.mp (h.enrolled s (Tables.lookup_mem hs))
  have hmem := Tables.lookup_mem hca
  obtain ⟨candidate, hcandidate⟩ := Option.isSome_iff_exists.mp (h.candidates ca hmem)
  obtain ⟨assessment, hassessment⟩ := Option.isSome_iff_exists.mp (h.assessments ca hmem)
  simp [loadEvaluationSource, hs, hca, hcandidate, hassessment]

end Sources

section Runs

/-- The ids that the save of an evaluation draws are new; to overwrite one draws only the id of the
notice. -/
structure FreshDraws (db : Database) (draws : EvaluationDraws) (candidateAssessmentId : Uuid) :
    Prop where
  evaluationId : (∃ e ∈ db.interviewEvaluations, e.candidateAssessmentId = candidateAssessmentId) ∨
    ∀ e ∈ db.interviewEvaluations, e.id ≠ draws.evaluationId
  notificationId : ∀ n ∈ db.notificationLogs, n.id ≠ draws.notificationId

/-- Every evaluation names the session of its own enrollment. -/
def OwnSessions (db : Database) : Prop :=
  ∀ id sessionId report, db.savedEvaluation? id = some (sessionId, report) →
    ∃ s, db.sessionOf? id = some s ∧ s.id = sessionId

variable [Runtime]

/-- A save comes with the ids of a source that was loaded earlier, and no request in between asks
to delete its enrollment. -/
def Sourced [ContactColumns] (before : List ServiceCall) (call : ServiceCall) : Prop :=
  ∀ draws record recruiterEmail,
    call.request = .session (.saveFinalEvaluation draws record recruiterEmail) →
    ∃ early between source, before = early ++ between ∧
      loadEvaluationSource (exec service emptyStore early).db record.candidateAssessmentId =
        some source ∧
      source.sessionId = record.sessionId ∧ source.assessmentId = record.assessmentId ∧
      ∀ later ∈ between, ∀ recruiterId, later.request ≠
        .deleteCandidateFromAssessment record.candidateAssessmentId recruiterId

variable {store : Store} {before : List ServiceCall} {call : ServiceCall} {draws : EvaluationDraws}
  {record : FinalEvaluationRecord} {recruiterEmail : String}

theorem Sourced.rows [ContactColumns] (h : Sourced before call)
    (hrequest : call.request = .session (.saveFinalEvaluation draws record recruiterEmail)) :
    (∃ s, (exec service emptyStore before).db.sessionOf? record.candidateAssessmentId = some s ∧
      s.id = record.sessionId) ∧
    ∃ ca, (exec service emptyStore before).db.candidateAssessment? record.candidateAssessmentId =
      some ca ∧ ca.assessmentId = record.assessmentId := by
  obtain ⟨early, between, source, rfl, hsource, hsession, hassessment, hdeletes⟩ :=
    h draws record recruiterEmail hrequest
  obtain ⟨s, ca, hs, hca, hsame, hof⟩ := loadEvaluationSource_eq_some hsource
  rw [exec_append]
  constructor
  · obtain ⟨s', hs', hkept⟩ := exec_session_kept hs hdeletes
    exact ⟨s', hs', hkept.trans (hsame.symm.trans hsession)⟩
  · obtain ⟨ca', hca', hkeys⟩ := (exec_invitationKept hdeletes).enrollment ca hca
    have hassessmentId : ca'.assessmentId = ca.assessmentId :=
      congrArg (fun keys => keys.2.2.1) hkeys
    exact ⟨ca', hca', hassessmentId.trans (hof.symm.trans hassessment)⟩

/-- A save for the session of its own enrollment is accepted unless an id is taken. -/
theorem save_accepted_of_ownSession (hkeys : store.db.EvaluationKeys) (hown : OwnSessions store.db)
    (hrequest : call.request = .session (.saveFinalEvaluation draws record recruiterEmail))
    {s : InterviewSession} (hs : store.db.sessionOf? record.candidateAssessmentId = some s)
    (hid : s.id = record.sessionId) : (∃ response, (service store call).1 = .ok response) ↔
      FreshDraws store.db draws record.candidateAssessmentId := by
  obtain ⟨clock, request⟩ := call
  obtain rfl : request = .session (.saveFinalEvaluation draws record recruiterEmail) := hrequest
  let save : FinalEvaluationRoute.Save := ⟨clock, draws, record, recruiterEmail⟩
  have hanswer : (∃ response, (service store ⟨clock, .session (.saveFinalEvaluation draws record
      recruiterEmail)⟩).1 = .ok response) ↔ ∃ saved, save.run store.db = .ok saved := by
    cases hrun : save.run store.db with
    | error exception =>
      have hsaved : EvaluationRepository.saveFinalEvaluation store.db clock draws record
        recruiterEmail = .error exception := hrun
      simp [service, operate, handle, respond, transact, hsaved, Except.map]
    | ok saved =>
      have hsaved : EvaluationRepository.saveFinalEvaluation store.db clock draws record
        recruiterEmail = .ok saved := hrun
      simp [service, operate, handle, respond, transact, hsaved, Except.map]
  rw [hanswer, save_accepted_iff]
  refine ⟨fun h => ⟨h.evaluationId, h.notificationId⟩, fun h => ?_⟩
  have hmem := Tables.lookup_mem hs
  have hrow : store.db.session? record.sessionId = some s :=
    hid ▸ store.wellFormed.session?_of_sessionOf? hs
  exact {
    session := Option.isSome_iff_exists.mpr ⟨s, hrow⟩
    enrollment := by
      have henrolled := store.wellFormed.enrolled s hmem
      rw [Database.candidateAssessmentId_of_sessionOf? hs] at henrolled
      exact henrolled
    unshared := by
      intro e he hshared
      have hsaved : store.db.savedEvaluation? e.candidateAssessmentId =
          some (e.sessionId, e.report) := by
        rw [Database.savedEvaluation?, Tables.lookup_of_mem hkeys he]
        rfl
      obtain ⟨s', hs', hid'⟩ := hown _ _ _ hsaved
      have hrow' := store.wellFormed.session?_of_sessionOf? hs'
      rw [hid', hshared] at hrow'
      cases hrow.symm.trans hrow'
      rw [← Database.candidateAssessmentId_of_sessionOf? hs']
      exact Database.candidateAssessmentId_of_sessionOf? hs
    evaluationId := h.evaluationId
    notificationId := h.notificationId }

theorem ownSessions_step (hkeys : store.db.EvaluationKeys) (hown : OwnSessions store.db)
    (call : ServiceCall)
    (hsave : ∀ draws record recruiterEmail,
      call.request = .session (.saveFinalEvaluation draws record recruiterEmail) →
      ∃ s, store.db.sessionOf? record.candidateAssessmentId = some s ∧ s.id = record.sessionId) :
    OwnSessions (service store call).2.db := by
  have hregisters : Registers store.db fun id => store.db.savedEvaluation? id :=
    ⟨hkeys, fun _ => rfl⟩
  intro id sessionId report hsaved
  rw [(hregisters.step call).saved id] at hsaved
  unfold evaluationAfter at hsaved
  split at hsaved
  · rename_i draws record recruiterEmail response hrequest _
    change call.request = _ at hrequest
    have hnotDeletion (id recruiterId : Uuid) :
        call.request ≠ .deleteCandidateFromAssessment id recruiterId := by
      rw [hrequest]
      exact fun hdeletion => ServiceRequest.noConfusion hdeletion
    have hkept {s : InterviewSession} {id : Uuid} (hs : store.db.sessionOf? id = some s) :=
      service_session_kept hs fun recruiterId _ hdeletion =>
        absurd hdeletion (hnotDeletion id recruiterId)
    split_ifs at hsaved with hsame
    · cases hsaved
      subst hsame
      obtain ⟨s, hs, hid⟩ := hsave draws record recruiterEmail hrequest
      obtain ⟨s', hs', hid'⟩ := hkept hs
      exact ⟨s', hs', hid'.trans hid⟩
    · obtain ⟨s, hs, hid⟩ := hown id sessionId report hsaved
      obtain ⟨s', hs', hid'⟩ := hkept hs
      exact ⟨s', hs', hid'.trans hid⟩
  · rename_i deletedId recruiterId response hrequest _
    change call.request = _ at hrequest
    obtain ⟨hbefore, hstays⟩ := Option.filter_eq_some_iff.mp hsaved
    obtain ⟨s, hs, hid⟩ := hown id sessionId report hbefore
    have hother : id ≠ deletedId := by
      rintro rfl
      have hgone : (store.db.interviewSessions.any fun s' =>
          s'.candidateAssessmentId == id && s'.id == sessionId) = true :=
        List.any_eq_true.mpr ⟨s, Tables.lookup_mem hs, by
          simp [Database.candidateAssessmentId_of_sessionOf? hs, hid]⟩
      change (!store.db.interviewSessions.any fun s' =>
          s'.candidateAssessmentId == id && s'.id == sessionId) = true at hstays
      rw [hgone] at hstays
      cases hstays
    obtain ⟨s', hs', hid'⟩ := service_session_kept hs fun recruiterId' _ hdeletion => by
      rw [hrequest] at hdeletion
      cases hdeletion
      exact absurd rfl hother
    exact ⟨s', hs', hid'.trans hid⟩
  · rename_i hneither
    obtain ⟨s, hs, hid⟩ := hown id sessionId report hsaved
    obtain ⟨s', hs', hid'⟩ := service_session_kept hs fun recruiterId response hdeletion hresult =>
      hneither id recruiterId response hdeletion hresult
    exact ⟨s', hs', hid'.trans hid⟩

theorem exec_evaluationKeys (calls : List ServiceCall) :
    (exec service emptyStore calls).db.EvaluationKeys := by
  have hempty : Registers emptyStore.db fun _ => none := ⟨List.nodup_nil, fun _ => rfl⟩
  exact (registers_exec hempty calls).keys

theorem exec_ownSessions [ContactColumns] {calls : List ServiceCall}
    (hsourced : ∀ before call after, calls = before ++ call :: after → Sourced before call) :
    OwnSessions (exec service emptyStore calls).db := by
  induction calls using List.reverseRecOn with
  | nil =>
    intro id sessionId report hsaved
    cases hsaved
  | append_singleton calls call ih =>
    have hown := ih fun before earlier after hsplit =>
      hsourced before earlier (after ++ [call]) (by simp [hsplit])
    rw [exec_snoc]
    exact ownSessions_step (exec_evaluationKeys calls) hown call fun _ _ _ hrequest =>
      ((hsourced calls call [] rfl).rows hrequest).1

/-- Where every save is made from a source that was loaded since its enrollment could last be
deleted, each is for the assessment of its enrollment, and is accepted exactly when the ids that it
draws are new; and every stored evaluation is of the session that its source names. -/
theorem sourced_evaluations_accepted [ContactColumns] (calls : List ServiceCall)
    (hsourced : ∀ before call after, calls = before ++ call :: after → Sourced before call) :
    (∀ before call after draws record recruiterEmail, calls = before ++ call :: after →
      call.request = .session (.saveFinalEvaluation draws record recruiterEmail) →
      NamesOwnAssessment (exec service emptyStore before).db record ∧
        ((∃ response, (service (exec service emptyStore before) call).1 = .ok response) ↔
          FreshDraws (exec service emptyStore before).db draws record.candidateAssessmentId)) ∧
    ∀ e ∈ (exec service emptyStore calls).db.interviewEvaluations,
      ∃ source, loadEvaluationSource (exec service emptyStore calls).db e.candidateAssessmentId =
        some source ∧ source.sessionId = e.sessionId := by
  constructor
  · intro before call after draws record recruiterEmail hsplit hrequest
    obtain ⟨⟨s, hs, hid⟩, ca, hca, hassessment⟩ :=
      (hsourced before call after hsplit).rows hrequest
    have hown : OwnSessions (exec service emptyStore before).db :=
      exec_ownSessions fun earlier other rest hbefore =>
        hsourced earlier other (rest ++ call :: after) (by simp [hsplit, hbefore])
    refine ⟨fun found hfound => ?_, save_accepted_of_ownSession (exec_evaluationKeys before) hown
      hrequest hs hid⟩
    cases hca.symm.trans hfound
    exact hassessment
  · intro e he
    have hsaved : (exec service emptyStore calls).db.savedEvaluation? e.candidateAssessmentId =
        some (e.sessionId, e.report) := by
      rw [Database.savedEvaluation?, Tables.lookup_of_mem (exec_evaluationKeys calls) he]
      rfl
    obtain ⟨s, hs, hid⟩ := exec_ownSessions hsourced _ _ _ hsaved
    obtain ⟨source, hsource, hsession⟩ :=
      loadEvaluationSource_of_session (Store.wellFormed _) hs
    exact ⟨source, hsource, hsession.trans hid⟩

end Runs

section Samples

variable [Runtime] [ContactColumns]

/-- A save, if the call is one, has the ids of the source at its moment. -/
def savesCurrent (before : List ServiceCall) (call : ServiceCall) : Bool :=
  match call.request with
  | .session (.saveFinalEvaluation _ record _) =>
    (loadEvaluationSource (exec service emptyStore before).db record.candidateAssessmentId).any
      fun source =>
        source.sessionId == record.sessionId && source.assessmentId == record.assessmentId
  | _ => true

theorem sourced_of_savesCurrent {before : List ServiceCall} {call : ServiceCall}
    (h : savesCurrent before call = true) : Sourced before call := by
  intro draws record recruiterEmail hrequest
  simp only [savesCurrent, hrequest, Option.any_eq_true, Bool.and_eq_true, beq_iff_eq] at h
  obtain ⟨source, hsource, hsession, hassessment⟩ := h
  exact ⟨before, [], source, (List.append_nil before).symm, hsource, hsession, hassessment, by simp⟩

@[reducible] def noContacts : ContactColumns := ⟨fun _ => "", fun _ => ""⟩

def savedOnce : List ServiceCall := interviewedTwice ++ evaluatedTwice.take 1

def secondSave : ServiceCall :=
  ⟨⟨2, 2⟩, .session (.saveFinalEvaluation ⟨22, 23⟩ ⟨7, 11, 3, sampleReport 6⟩ "r@acme.test")⟩

def savedOnceStore : Store := exec (@service .ascii) emptyStore savedOnce

omit [Runtime] [ContactColumns] in
theorem savedOnce_sourced : ∀ before call after,
    savedOnce ++ [secondSave] = before ++ call :: after → @Sourced .ascii noContacts before call := by
  let _ : Runtime := .ascii
  let _ : ContactColumns := noContacts
  intro before call after hsplit
  have hall : ((List.range 10).all fun n => (savedOnce ++ [secondSave])[n]?.all fun call =>
      savesCurrent ((savedOnce ++ [secondSave]).take n) call) = true := by
    decide +kernel
  have hlength : (savedOnce ++ [secondSave]).length = before.length + (after.length + 1) := by
    rw [hsplit, List.length_append, List.length_cons]
  have hlt : before.length < 10 := by
    have hten : (savedOnce ++ [secondSave]).length = 10 := rfl
    omega
  have hcall := List.all_eq_true.mp hall before.length (List.mem_range.mpr hlt)
  rw [hsplit, List.take_left, List.getElem?_append_right le_rfl, Nat.sub_self] at hcall
  exact sourced_of_savesCurrent hcall

omit [Runtime] [ContactColumns] in
/-- The second evaluation is accepted, and is stored with the session of its source. -/
theorem sourced_evaluations_accepted_sample :
    (∃ response, (@service .ascii savedOnceStore secondSave).1 = .ok response) ∧
    ∀ e ∈ (exec (@service .ascii) emptyStore (savedOnce ++ [secondSave])).db.interviewEvaluations,
      ∃ source, @loadEvaluationSource noContacts
        (exec (@service .ascii) emptyStore (savedOnce ++ [secondSave])).db e.candidateAssessmentId =
          some source ∧ source.sessionId = e.sessionId := by
  let _ : Runtime := .ascii
  let _ : ContactColumns := noContacts
  obtain ⟨haccepted, hstored⟩ :=
    sourced_evaluations_accepted (savedOnce ++ [secondSave]) savedOnce_sourced
  obtain ⟨_, hsave⟩ := haccepted savedOnce secondSave [] ⟨22, 23⟩ ⟨7, 11, 3, sampleReport 6⟩
    "r@acme.test" rfl rfl
  have hevaluation : ∀ e ∈ savedOnceStore.db.interviewEvaluations, e.id ≠ 22 := by decide +kernel
  have hnotification : ∀ n ∈ savedOnceStore.db.notificationLogs, n.id ≠ 23 := by decide +kernel
  exact ⟨hsave.mpr ⟨.inr hevaluation, hnotification⟩, hstored⟩

end Samples

end IBotCoreApi
