import IBotCoreApi.Refinement

namespace IBotCoreApi
open Python Runs InternalInterview

def StatusLaw (request : SessionRequest) (before after : SessionStatus) : Prop :=
  before ∈ terminalSessionStatuses →
    match request with
    | .saveFinalEvaluation .. => after = before ∨ after = .evaluated
    | .markEvaluationFailed _ => after = before ∨ (before ≠ .evaluated ∧ after = .evaluationFailed)
    | _ => after = before

def StatusLawful (t : Transition Store Call SessionResult) : Prop :=
  ∀ s ∈ t.pre.db.interviewSessions, ∃ s', t.post.db.session? s.id = some s' ∧
    StatusLaw t.input.request s.status s'.status

/-- No unguarded statement meets a terminal session that it would change. -/
def MeetsNoTerminal (db : Database) : SessionRequest → Prop
  | .markSessionInProgress sessionId =>
    ∀ s, db.session? sessionId = some s → s.status ∉ terminalSessionStatuses
  | .initializeInterviewContext _ candidateAssessmentId =>
    ∀ s, db.sessionOf? candidateAssessmentId = some s → s.status ∉ terminalSessionStatuses
  | .completeSession sessionId _ => ∀ s, db.session? sessionId = some s →
    s.status ∈ terminalSessionStatuses → s.status = .completed
  | _ => True

variable {clock : Clock} {request : SessionRequest} {e e' : Enrollment} {s s' : InterviewSession}

theorem StatusLaw.refl (request : SessionRequest) (status : SessionStatus) :
    StatusLaw request status status := by
  intro _
  cases request <;> simp

theorem StatusLaw.of_open {before after : SessionStatus}
    (h : before ∉ terminalSessionStatuses) : StatusLaw request before after :=
  fun hterminal => absurd hterminal h

theorem not_terminal_of_isActive (h : s.isActive) : s.status ∉ terminalSessionStatuses := by
  cases hs : s.status <;> simp_all [InterviewSession.isActive, terminalSessionStatuses]

theorem not_terminal_disconnected (h : s.status = .disconnected) :
    s.status ∉ terminalSessionStatuses := by
  simp [h, terminalSessionStatuses]

theorem issued_status (clock : Clock) (token : String) (expiresAt : Time) (s : InterviewSession) :
    (Enrollment.issued clock token expiresAt s).status = s.status := by
  unfold Enrollment.issued
  split <;> rfl

theorem Enrollment.Step.statusLaw (h : e.Step clock request e') (hs : e.session = some s)
    (hs' : e'.session = some s')
    (hinProgress : request = .markSessionInProgress s.id → s.status ∉ terminalSessionStatuses)
    (hinit : ∀ newId, request = .initializeInterviewContext newId e.candidate.id →
      s.status ∉ terminalSessionStatuses)
    (hcomplete : ∀ secs, request = .completeSession s.id secs →
      s.status ∈ terminalSessionStatuses → s.status = .completed) :
    StatusLaw request s.status s'.status := by
  have hsessionOr (newId : Uuid) : e.sessionOr newId clock = s := by
    simp [Enrollment.sessionOr, hs]
  cases h with
  | unchanged =>
    cases hs.symm.trans hs'
    exact .refl _ _
  | refused =>
    cases hs'
    rw [hsessionOr]
    exact .refl _ _
  | admitted =>
    cases hs'
    rw [hsessionOr, issued_status]
    exact .refl _ _
  -- these steps are taken from an open session only, which the law leaves free
  | bound _ hactive | tabSwitched hactive | proctored hactive =>
    cases hs
    exact .of_open (not_terminal_of_isActive hactive)
  | disconnected haccepts =>
    cases hs
    exact .of_open (not_terminal_of_isActive (acceptsDisconnect_isActive haccepts))
  | reconnected _ hstatus | timedOut _ hstatus =>
    cases hs
    exact .of_open (not_terminal_disconnected hstatus)
  | @initialized newId => exact .of_open (hinit newId rfl)
  | turnPersisted hturn =>
    cases hs
    cases hs'
    rw [hturn.rest]
    exact .refl _ _
  | sessionInProgress =>
    cases hs
    exact .of_open (hinProgress rfl)
  | sessionCompleted =>
    cases hs
    cases hs'
    intro hterminal
    exact (hcomplete _ rfl hterminal).symm
  | timerStarted | candidateStarted | candidateCompleted =>
    cases hs.symm.trans hs'
    exact .refl _ _
  | evaluationFailed hstatus =>
    cases hs
    cases hs'
    exact fun _ => .inr ⟨hstatus, rfl⟩
  | @evaluated draws record =>
    rw [hs] at hs'
    cases hs'
    intro _
    -- the evaluation names its session, which need not be the enrollment's own
    by_cases hid : s.id = record.sessionId
    · rw [Tables.Update.onRow_of_true (by simpa using hid)]
      exact .inr rfl
    · rw [Tables.Update.onRow_of_false (by simpa using hid)]
      exact .inl rfl

/-- Where a terminal status can lead. -/
def StatusSettled (before after : SessionStatus) : Prop :=
  before ∈ terminalSessionStatuses → after ∈ terminalSessionStatuses ∧
    (after = before ∨ after = .evaluated ∨ after = .evaluationFailed) ∧
    (before = .evaluated → after = .evaluated)

theorem StatusLaw.settled {before after : SessionStatus} (h : StatusLaw request before after) :
    StatusSettled before after := by
  intro hterminal
  have hlaw := h hterminal
  cases request <;> simp only at hlaw
  case saveFinalEvaluation =>
    rcases hlaw with rfl | rfl
    · exact ⟨hterminal, .inl rfl, id⟩
    · exact ⟨by simp [terminalSessionStatuses], .inr (.inl rfl), fun _ => rfl⟩
  case markEvaluationFailed =>
    rcases hlaw with rfl | ⟨hne, rfl⟩
    · exact ⟨hterminal, .inl rfl, id⟩
    · exact ⟨by simp [terminalSessionStatuses], .inr (.inr rfl), fun heq => absurd heq hne⟩
  all_goals
    subst hlaw
    exact ⟨hterminal, .inl rfl, id⟩

theorem StatusSettled.trans {a b c : SessionStatus} (hab : StatusSettled a b)
    (hbc : StatusSettled b c) : StatusSettled a c := by
  intro ha
  obtain ⟨hb, hab, hab'⟩ := hab ha
  obtain ⟨hc, hbc, hbc'⟩ := hbc hb
  refine ⟨hc, ?_, fun h => hbc' (hab' h)⟩
  rcases hbc with rfl | hbc
  · exact hab
  · exact .inr hbc

def AllSettled (store store' : Store) : Prop :=
  ∀ s ∈ store.db.interviewSessions, ∃ s', store'.db.session? s.id = some s' ∧
    StatusSettled s.status s'.status

theorem AllSettled.trans {a b c : Store} (hab : AllSettled a b) (hbc : AllSettled b c) :
    AllSettled a c := by
  intro s hs
  obtain ⟨s', hs', hsettled⟩ := hab s hs
  obtain ⟨s'', hs'', hsettled'⟩ := hbc s' (Tables.lookup_mem hs')
  rw [Database.id_of_session? hs'] at hs''
  exact ⟨s'', hs'', hsettled.trans hsettled'⟩

theorem loadInterviewContext_isSome {db : Database} (h : db.WellFormed) {id : Uuid}
    (hid : (db.candidateAssessment? id).isSome) :
    ∃ context, AssessmentContextRepository.loadInterviewContext db id = some context := by
  obtain ⟨ca, hca⟩ := Option.isSome_iff_exists.mp hid
  have hmem := Tables.lookup_mem hca
  obtain ⟨candidate, hcandidate⟩ := Option.isSome_iff_exists.mp (h.candidates ca hmem)
  obtain ⟨assessment, hassessment⟩ := Option.isSome_iff_exists.mp (h.assessments ca hmem)
  exact ⟨_, by
    simp [AssessmentContextRepository.loadInterviewContext, hca, hcandidate, hassessment]; rfl⟩

/-- Initialising the context of an enrollment that has a session puts the session in progress. -/
theorem initializeInterviewContext_of_session {db : Database} (h : db.WellFormed)
    (clock : Clock) (newId : Uuid) {id : Uuid} (hs : db.sessionOf? id = some s) :
    (transact db (initializeInterviewContext db clock newId id)).2.session? s.id =
      some ((InterviewSessionRepository.inProgress clock).set s) := by
  have hkey := Database.candidateAssessmentId_of_sessionOf? hs
  have hca : (db.candidateAssessment? id).isSome := hkey ▸ h.enrolled s (Tables.lookup_mem hs)
  obtain ⟨context, hcontext⟩ := loadInterviewContext_isSome h hca
  have hget : InterviewSessionRepository.getOrCreateSession db clock newId id = .ok (s, db) := by
    simp [InterviewSessionRepository.getOrCreateSession, Database.getOrCreateSession, hs]
  unfold initializeInterviewContext
  rw [hcontext]
  simp only [hget, bind, Except.bind, pure, Except.pure, transact]
  simp [AssessmentContextRepository.markCandidateStarted,
    InterviewSessionRepository.markSessionInProgress, h.session?_of_sessionOf? hs,
    Tables.Update.onRow_of_true]

variable [Runtime]

/-- A request keeps to the law exactly when it meets no terminal session that it would change. -/
theorem statusLawful_iff (store : Store) (call : Call) :
    StatusLawful (Transition.of serve store call) ↔ MeetsNoTerminal store.db call.request := by
  obtain ⟨clock, request⟩ := call
  constructor
  · intro hlaw
    cases request with
    | markSessionInProgress sessionId =>
      intro s hs hterminal
      obtain rfl := Database.id_of_session? hs
      obtain ⟨s', hs', hlaw⟩ := hlaw s (Tables.lookup_mem hs)
      have hpost := Database.session?_update hs (InterviewSessionRepository.inProgress clock)
      cases hs'.symm.trans hpost
      have hstatus : SessionStatus.inProgress = s.status := hlaw hterminal
      simp [← hstatus, terminalSessionStatuses] at hterminal
    | completeSession sessionId secs =>
      intro s hs hterminal
      obtain rfl := Database.id_of_session? hs
      obtain ⟨s', hs', hlaw⟩ := hlaw s (Tables.lookup_mem hs)
      have hpost := Database.session?_update hs (InterviewSessionRepository.completed clock secs)
      cases hs'.symm.trans hpost
      have hstatus : SessionStatus.completed = s.status := hlaw hterminal
      exact hstatus.symm
    | initializeInterviewContext newId id =>
      intro s hs hterminal
      obtain ⟨s', hs', hlaw⟩ := hlaw s (Tables.lookup_mem hs)
      have hpost := (initializeInterviewContext_of_session store.wellFormed clock newId
        hs).symm.trans hs'
      cases hpost
      have hstatus : SessionStatus.inProgress = s.status := hlaw hterminal
      simp [← hstatus, terminalSessionStatuses] at hterminal
    | _ => trivial
  · intro hguard s hs
    obtain ⟨e, e', he, hsession, he', hstep⟩ := serve_session_step ⟨clock, request⟩ hs
    obtain ⟨s', hs', hid⟩ := hstep.session_kept hsession
    refine ⟨s', ?_, hstep.statusLaw hsession hs' ?_ ?_ ?_⟩
    · rw [← hid]
      exact (serve store ⟨clock, request⟩).2.wellFormed.session?_of_mem
        (enrollment_session_mem he' hs')
    · rintro rfl
      exact hguard s (store.wellFormed.session?_of_mem hs)
    · rintro newId rfl
      exact hguard s (by rw [enrollment_candidate_id he]; exact store.wellFormed.sessionOf?_of_mem hs)
    · rintro secs rfl
      exact hguard s (store.wellFormed.session?_of_mem hs)

/-- The status law over runs: it holds of every step exactly when no step meets a terminal session
it would change, and then a terminal status is left for an evaluation status only, for ever. -/
theorem status_law_run (store : Store) (calls : List Call) :
    ((∀ t ∈ trace serve store calls, StatusLawful t) ↔
      ∀ t ∈ trace serve store calls, MeetsNoTerminal t.pre.db t.input.request) ∧
    ((∀ t ∈ trace serve store calls, MeetsNoTerminal t.pre.db t.input.request) →
      ∀ before after, calls = before ++ after →
        AllSettled (exec serve store before) (exec serve store calls)) := by
  have hiff (t : Transition Store Call SessionResult) (ht : t ∈ trace serve store calls) :
      StatusLawful t ↔ MeetsNoTerminal t.pre.db t.input.request := by
    obtain ⟨before, call, after, _, rfl⟩ := mem_trace ht
    exact statusLawful_iff _ _
  refine ⟨⟨fun h t ht => (hiff t ht).mp (h t ht), fun h t ht => (hiff t ht).mpr (h t ht)⟩, ?_⟩
  rintro hguard before after rfl
  rw [exec_append]
  apply exec_rel
  · intro store s hs
    exact ⟨s, store.wellFormed.session?_of_mem hs, fun h => ⟨h, .inl rfl, id⟩⟩
  · exact AllSettled.trans
  · intro t ht s hs
    have htrace : t ∈ trace serve store (before ++ after) := by
      rw [trace_append]
      exact List.mem_append_right _ ht
    obtain ⟨s', hs', hlaw⟩ := (hiff t htrace).mpr (hguard t htrace) s hs
    exact ⟨s', hs', hlaw.settled⟩

/-- A completed session, then a late report that the interview is in progress. -/
def lateInProgress : List Call :=
  [⟨⟨0, 0⟩, .initializeInterviewContext 10 4⟩,
    ⟨⟨1, 1⟩, .completeSession 10 60⟩,
    ⟨⟨2, 2⟩, .markSessionInProgress 10⟩]

omit [Runtime] in
theorem status_law_broken :
    ¬ ∀ [Runtime] (store : Store) (calls : List Call),
      ∀ t ∈ trace serve store calls, StatusLawful t := by
  intro hlaw
  let _runtime : Runtime := .ascii
  have hlate := hlaw sampleStore lateInProgress
    (.of serve (exec serve sampleStore (lateInProgress.take 2)) ⟨⟨2, 2⟩, .markSessionInProgress 10⟩)
    (by simp [lateInProgress])
  have hstatus : ((exec serve sampleStore (lateInProgress.take 2)).db.session? 10).map (·.status) =
      some .completed := by decide
  obtain ⟨s, hs, hcompleted⟩ := Option.map_eq_some_iff.mp hstatus
  exact (statusLawful_iff _ _).mp hlate s hs (by simp [hcompleted, terminalSessionStatuses])

end IBotCoreApi
