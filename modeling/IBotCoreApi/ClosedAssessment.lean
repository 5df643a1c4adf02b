import IBotCoreApi.Invitation
import IBotCoreApi.Service

namespace IBotCoreApi
open Python Runs InternalInterview CandidateSessionRepository InterviewSessionService Enrollment

/-- A session that has a token has an expiry for it. -/
def Enrollment.Expirable (e : Enrollment) : Prop :=
  e.sessionToken.isSome → e.sessionTokenExpiresAt.isSome

theorem Enrollment.Step.expirable {clock : Clock} {request : SessionRequest} {e e' : Enrollment}
    (h : e.Step clock request e') (hold : e.Expirable) : e'.Expirable := by
  by_cases hentry : IsEntry e.candidate.invitationToken request
  · obtain ⟨draws, rfl⟩ := hentry
    obtain ⟨htoken, hexpiry⟩ := sessionOr_credential e draws.sessionId clock
    unfold Expirable at hold
    rw [← htoken, ← hexpiry] at hold
    cases h with
    | unchanged =>
      rw [htoken, hexpiry] at hold
      exact hold
    | refused => exact hold
    | admitted hinvitation hopen expiresAt =>
      change (issued _ _ _ _).sessionToken.isSome → (issued _ _ _ _).sessionTokenExpiresAt.isSome
      unfold issued
      split
      · exact fun _ => rfl
      · exact hold
  · have hsame := h.sameCredential hentry
    unfold Expirable
    rw [hsame.token, hsame.expiry]
    exact hold

variable [Runtime] {store : Store}

theorem Reachable.expirable (h : Reachable store) :
    ∀ s ∈ store.db.interviewSessions, s.sessionToken.isSome → s.sessionTokenExpiresAt.isSome := by
  have hkeep (store : Store) (call : ServiceCall)
      (hold : ∀ s ∈ store.db.interviewSessions,
        s.sessionToken.isSome → s.sessionTokenExpiresAt.isSome) :
      ∀ s ∈ (service store call).2.db.interviewSessions,
        s.sessionToken.isSome → s.sessionTokenExpiresAt.isSome := by
    intro s' hs'
    obtain ⟨clock, request⟩ := call
    by_cases hrequest : ∃ r, request = .session r
    · obtain ⟨r, rfl⟩ := hrequest
      have hserved : s' ∈ (serve store ⟨clock, r⟩).2.db.interviewSessions := hs'
      obtain ⟨e, e', he, he', hsession, hstep⟩ := serve_session_origin ⟨clock, r⟩ hserved
      have hbefore : e.Expirable := by
        unfold Enrollment.Expirable sessionToken sessionTokenExpiresAt
        cases hs : e.session with
        | none => exact fun h => h
        | some s => exact hold s (enrollment_session_mem he hs)
      have hafter := hstep.expirable hbefore
      unfold Enrollment.Expirable sessionToken sessionTokenExpiresAt at hafter
      rw [hsession] at hafter
      exact hafter
    · exact hold s' ((operate_administration fun r heq => hrequest ⟨r, heq⟩).sessions hs')
  have hstart : ∀ s ∈ emptyStore.db.interviewSessions,
      s.sessionToken.isSome → s.sessionTokenExpiresAt.isSome := by
    simp [emptyStore]
  exact h.invariant hstart hkeep

theorem Reachable.enrollment_expirable (h : Reachable store) {id : Uuid} {e : Enrollment}
    (he : store.db.enrollment? id = some e) : e.Expirable := by
  unfold Enrollment.Expirable sessionToken sessionTokenExpiresAt
  cases hs : e.session with
  | none => exact fun h => h
  | some s => exact h.expirable s (enrollment_session_mem he hs)

/-- A candidate enrolled in a closed assessment who has not started the interview. -/
structure Awaiting (store : Store) (e : Enrollment) (assessment : Assessment) : Prop where
  enrolled : store.db.enrollment? e.candidate.id = some e
  invited : store.db.assessment? e.candidate.assessmentId = some assessment
  closed : assessment.status = .closed
  notStarted : e.candidate.interviewStartedAt = none

/-- The call is rejected and binds no connection to the session of the enrollment. -/
structure TurnedAway (store : Store) (e : Enrollment) (call : Call) : Prop where
  rejected : ∃ reason, (serve store call).1 = .error reason
  unbound : ∃ e', (serve store call).2.db.enrollment? e.candidate.id = some e' ∧
    e'.session.bind (·.activeConnectionId) = e.session.bind (·.activeConnectionId)

def AdmitsNoInterview (store : Store) (e : Enrollment) (clock : Clock) (draws : EntryDraws)
    (draw : Uuid) : Prop :=
  TurnedAway store e ⟨clock, .enterWithInvitation draws e.candidate.invitationToken⟩ ∧
  ∀ token, e.sessionToken = some token →
    TurnedAway store e ⟨clock, .getSessionContext token⟩ ∧
    TurnedAway store e ⟨clock, .authorizeInterviewConnection draw token⟩

/-- What bars a candidate who has not started: the window is over, the session or the enrollment
has ended, or the credential of the consumed invitation has expired. -/
def Barred (assessment : Assessment) (e : Enrollment) (now : Time) : Prop :=
  assessment.windowEnd ≤ now ∨
  e.candidate.status ∈ terminalCandidateStatuses ∨
  (∃ s, e.session = some s ∧ s.status ∈ terminalSessionStatuses) ∨
  (e.candidate.inviteConsumed ∧ ∃ expiresAt, e.sessionTokenExpiresAt = some expiresAt ∧
    expiresAt ≤ now)

variable {e : Enrollment} {assessment : Assessment} {clock : Clock} {draws : EntryDraws} {draw : Uuid}

omit [Runtime] in
theorem isTerminal_iff (sessionStatus : SessionStatus) (candidateStatus : CandidateStatus) :
    isTerminal sessionStatus candidateStatus ↔
      sessionStatus ∈ terminalSessionStatuses ∨ candidateStatus ∈ terminalCandidateStatuses := by
  simp [isTerminal]

omit [Runtime] in
theorem windowExpired_iff (h : Awaiting store e assessment) {context : LifecycleContext}
    (hshows : LifecycleContext.Shows store.db e.candidate context) (now : Time) :
    windowExpired context now ↔ assessment.windowEnd ≤ now := by
  obtain ⟨a, ha, hwindow⟩ := hshows.windowEnd
  rw [h.invited] at ha
  cases ha
  simp [windowExpired, hwindow, hshows.interviewStartedAt, h.notStarted]

omit [Runtime] in
/-- An entry is rejected for what bars the candidate, and for nothing else. -/
theorem entryRejection_isSome_iff (clock : Clock) (h : Awaiting store e assessment)
    {context : InvitationContext}
    (hlock : lockInvitationContext store.db e.candidate.invitationToken = some context)
    (newId : Uuid) (now : Time) :
    (entryRejection context (e.sessionOr newId clock) now).isSome ↔ Barred assessment e now := by
  obtain ⟨ca, hca, hshows, hconsumed⟩ := lockInvitationContext_some hlock
  have hcandidate := Tables.lookup_of_mem store.wellFormed.invitationTokens
    (Tables.lookup_mem (enrollment?_eq_some.mp h.enrolled).1)
  cases hca.symm.trans hcandidate
  have hwindow := windowExpired_iff h hshows now
  have hsession : (e.sessionOr newId clock).status ∈ terminalSessionStatuses ↔
      ∃ s, e.session = some s ∧ s.status ∈ terminalSessionStatuses := by
    unfold sessionOr
    cases e.session with
    | none => simp [InterviewSession.fresh, terminalSessionStatuses]
    | some s => simp
  have hterminal := isTerminal_iff (e.sessionOr newId clock).status e.candidate.status
  have hexpired : (context.inviteConsumed &&
      (e.sessionOr newId clock).sessionTokenExpiresAt.any (· ≤ now)) ↔
      e.candidate.inviteConsumed ∧ ∃ expiresAt, e.sessionTokenExpiresAt = some expiresAt ∧
        expiresAt ≤ now := by
    rw [(sessionOr_credential e newId clock).2, hconsumed]
    simp [Option.any_eq_true]
  unfold entryRejection Barred
  rw [hshows.status, ← hwindow, ← hsession, ← hexpired]
  split_ifs with hover hended hstale
  · exact iff_of_true rfl (.inl hover)
  · apply iff_of_true rfl
    rcases hterminal.mp hended with hs | hc
    · exact .inr (.inr (.inl hs))
    · exact .inr (.inl hc)
  · exact iff_of_true rfl (.inr (.inr (.inr hstale)))
  · apply iff_of_false (by simp)
    rintro (hyes | hyes | hyes | hyes)
    · exact hover hyes
    · exact hended (hterminal.mpr (.inr hyes))
    · exact hended (hterminal.mpr (.inl hyes))
    · exact hstale hyes

omit [Runtime] in
theorem validateActiveToken_of_barred (h : Awaiting store e assessment) {token : String}
    (htoken : e.sessionToken = some token) {now : Time} (hbarred : Barred assessment e now) :
    ∃ reason, validateActiveToken (lockSessionContextByToken store.db token) now = some reason := by
  cases hvalid : validateActiveToken (lockSessionContextByToken store.db token) now with
  | some reason => exact ⟨reason, rfl⟩
  | none =>
    obtain ⟨context, hcontext, hunexpired, hwindow, hopen⟩ := validateActiveToken_none hvalid
    obtain ⟨s, ca, lifecycle, hs, hca, hshows, rfl⟩ := lockSessionContextByToken_some hcontext
    obtain ⟨session, hsession, hheld⟩ := Option.bind_eq_some_iff.mp htoken
    -- the token belongs to the session of the enrollment
    have hmem := enrollment_session_mem h.enrolled hsession
    obtain rfl := store.wellFormed.eq_of_sessionToken hmem (Tables.lookup_mem hs) hheld
      (Tables.lookup_key hs)
    rw [enrollment_session h.enrolled hsession, (enrollment?_eq_some.mp h.enrolled).1] at hca
    cases hca
    change windowExpired lifecycle now = false at hwindow
    change isTerminal session.status lifecycle.candidateAssessmentStatus = false at hopen
    rw [hshows.status] at hopen
    have hlive := (isTerminal_iff session.status e.candidate.status).not.mp (by simp [hopen])
    rcases hbarred with hover | hended | ⟨s, hs, hended⟩ | ⟨_, expiresAt, hexpiry, hover⟩
    · rw [(windowExpired_iff h hshows now).mpr hover] at hwindow
      cases hwindow
    · exact absurd (.inr hended) hlive
    · cases hsession.symm.trans hs
      exact absurd (.inl hended) hlive
    · have hstored : session.sessionTokenExpiresAt = some expiresAt := by
        rw [← hexpiry, sessionTokenExpiresAt, hsession]
        rfl
      change session.sessionTokenExpiresAt.all (· ≤ now) = false at hunexpired
      simp [hstored, hover] at hunexpired

theorem serve_entry_turnedAway (h : Awaiting store e assessment) {reason : ApiException}
    (hrejected : (enterWithInvitation store.db clock draws e.candidate.invitationToken).1 =
      .error reason) :
    TurnedAway store e ⟨clock, .enterWithInvitation draws e.candidate.invitationToken⟩ := by
  obtain ⟨context, hlock, hid, _⟩ :=
    lockInvitationContext_of_enrollment store.wellFormed h.enrolled
  refine ⟨⟨reason, by simp only [serve, handle, respond, hrejected]; rfl⟩, ?_⟩
  have houtcome := enterWithInvitation_outcome store.db clock draws e.candidate.invitationToken
  change ∃ e', (enterWithInvitation store.db clock draws
    e.candidate.invitationToken).2.enrollment? _ = some e' ∧ _
  rw [hrejected] at houtcome
  generalize (enterWithInvitation store.db clock draws e.candidate.invitationToken).2 = db'
    at houtcome ⊢
  cases houtcome with
  | unknown | sessionIdTaken | tokenTaken | expiryMissing => exact ⟨e, h.enrolled, rfl⟩
  | @rejected _ session opened reason metadata hlock' hget hreason =>
    cases hlock.symm.trans hlock'
    rw [← hid]
    refine ⟨_, enrollment?_rejected (hid.symm ▸ h.enrolled) hget metadata, ?_⟩
    unfold sessionOr
    cases e.session <;> rfl

theorem serve_context_turnedAway (h : Awaiting store e assessment) {token : String}
    {reason : ApiException}
    (hrefused : validateActiveToken (lockSessionContextByToken store.db token) clock.utcNow =
      some reason) : TurnedAway store e ⟨clock, .getSessionContext token⟩ := by
  refine ⟨⟨reason, ?_⟩, e, h.enrolled, rfl⟩
  simp only [serve, handle, respond, getSessionContext, hrefused]
  rfl

theorem serve_authorization_turnedAway (h : Awaiting store e assessment) {token : String}
    {reason : ApiException}
    (hrefused : validateActiveToken (lockSessionContextByToken store.db token) clock.utcNow =
      some reason) : TurnedAway store e ⟨clock, .authorizeInterviewConnection draw token⟩ := by
  have hrun : authorizeInterviewConnection store.db clock draw token = (.error reason, store.db) := by
    unfold authorizeInterviewConnection authorizeTransaction
    simp only [hrefused]
    rfl
  refine ⟨⟨reason, ?_⟩, e, ?_, rfl⟩
  · simp only [serve, handle, respond, hrun]
    rfl
  · simp only [serve, handle, respond, hrun]
    exact h.enrolled

theorem enterWithInvitation_error_iff (clock : Clock) (hreach : Reachable store)
    (h : Awaiting store e assessment) (hdraws : ¬ DrawTaken store.db draws) :
    (∃ reason, (enterWithInvitation store.db clock draws e.candidate.invitationToken).1 =
      .error reason) ↔ Barred assessment e clock.utcNow := by
  obtain ⟨context, hlock, hid, _⟩ :=
    lockInvitationContext_of_enrollment store.wellFormed h.enrolled
  have he : store.db.enrollment? context.candidateAssessmentId = some e := hid.symm ▸ h.enrolled
  rw [← entryRejection_isSome_iff clock h hlock draws.sessionId clock.utcNow]
  have houtcome := enterWithInvitation_outcome store.db clock draws e.candidate.invitationToken
  generalize (enterWithInvitation store.db clock draws e.candidate.invitationToken).1 = result
    at houtcome ⊢
  generalize (enterWithInvitation store.db clock draws e.candidate.invitationToken).2 = db'
    at houtcome
  cases houtcome with
  | unknown hnone => cases hlock.symm.trans hnone
  | sessionIdTaken _ _ htaken => exact absurd (.inl htaken) hdraws
  | tokenTaken _ hget _ htaken => exact absurd (drawTaken_of_tokenTaken hget htaken) hdraws
  | @expiryMissing _ session opened hlock' hget hfull hmissing =>
    cases hlock.symm.trans hlock'
    obtain ⟨rfl, _⟩ := enrollment?_getOrCreateSession he hget
    obtain ⟨htoken, hexpiry⟩ := sessionOr_credential e draws.sessionId clock
    rw [htoken] at hfull
    rw [hexpiry] at hmissing
    -- a stored token has its expiry
    have hexpirable : e.Expirable := hreach.enrollment_expirable he
    cases htoken : e.sessionToken with
    | none => simp [htoken] at hfull
    | some token => simpa [hmissing] using hexpirable (by simp [htoken])
  | @rejected _ session opened reason metadata hlock' hget hreason =>
    cases hlock.symm.trans hlock'
    obtain ⟨rfl, _⟩ := enrollment?_getOrCreateSession he hget
    simp [hreason]
  | @admitted _ session opened issued token expiresAt response hlock' hget hopen =>
    cases hlock.symm.trans hlock'
    obtain ⟨rfl, _⟩ := enrollment?_getOrCreateSession he hget
    simp [hopen]

/-- The three entry paths turn a candidate of a closed assessment away exactly when the candidate
is barred: the status of the assessment plays no part in it. -/
theorem closed_assessment_admits_iff (store : Store) (e : Enrollment) (assessment : Assessment)
    (clock : Clock) (draws : EntryDraws) (draw : Uuid) (hreach : Reachable store)
    (h : Awaiting store e assessment) (hdraws : ¬ DrawTaken store.db draws) :
    AdmitsNoInterview store e clock draws draw ↔ Barred assessment e clock.utcNow := by
  have hentry := enterWithInvitation_error_iff clock hreach h hdraws
  constructor
  · rintro ⟨hturned, _⟩
    obtain ⟨reason, hrejected⟩ := hturned.rejected
    exact hentry.mp ⟨reason, Outcomes.map_eq_error.mp hrejected⟩
  · intro hbarred
    obtain ⟨reason, hrejected⟩ := hentry.mpr hbarred
    refine ⟨serve_entry_turnedAway h hrejected, fun token htoken => ?_⟩
    obtain ⟨reason, hrefused⟩ := validateActiveToken_of_barred h htoken hbarred
    exact ⟨serve_context_turnedAway h hrefused, serve_authorization_turnedAway h hrefused⟩

/-- A recruiter closes the assessment of the sample enrollment before its window ends. -/
def closedEarly : List ServiceCall :=
  ([.createRecruiter 1 "Acme", .createCandidate 2 "Ada", .createAssessment 3 1 sampleRequest [] none,
    .enroll ⟨4, 5⟩ 2 3 "resume.pdf" "PENDING" none, .updateStatus 3 1 .closed] :
    List ServiceRequest).map fun request => ⟨⟨0, 0⟩, request⟩

def closedStore : Store := exec (@service .ascii) emptyStore closedEarly

omit [Runtime] in
theorem closedStore_awaiting :
    Awaiting closedStore ⟨sampleEnrollment, none⟩ { sampleAssessment with status := .closed } where
  enrolled := rfl
  invited := rfl
  closed := rfl
  notStarted := rfl

omit [Runtime] in
/-- Once the window is over the candidate is turned away. -/
theorem closed_assessment_sample :
    @AdmitsNoInterview .ascii closedStore ⟨sampleEnrollment, none⟩
      ⟨2000 * Time.second, 2000 * Time.second⟩ ⟨10, "session-token"⟩ 11 :=
  (@closed_assessment_admits_iff .ascii closedStore ⟨sampleEnrollment, none⟩
    { sampleAssessment with status := .closed } _ _ 11 ⟨closedEarly, rfl⟩ closedStore_awaiting
    (by rintro (h | ⟨s, hs, _⟩)
        · cases h
        · cases hs)).mpr (.inl (by decide))

omit [Runtime] in
/-- The candidate of an assessment that was closed before its window ended still enters. -/
theorem closed_assessment_broken :
    ∃ store e assessment clock draws draw, @Reachable .ascii store ∧
      Awaiting store e assessment ∧ ¬ @AdmitsNoInterview .ascii store e clock draws draw := by
  refine ⟨closedStore, ⟨sampleEnrollment, none⟩, _,
    ⟨10 * Time.second, 10 * Time.second⟩, ⟨10, "session-token"⟩, 11, ⟨closedEarly, rfl⟩,
    closedStore_awaiting, ?_⟩
  rintro ⟨hturned, _⟩
  obtain ⟨reason, hrejected⟩ := @TurnedAway.rejected .ascii _ _ _ hturned
  have hadmitted : (@serve .ascii closedStore ⟨⟨10 * Time.second, 10 * Time.second⟩,
      .enterWithInvitation ⟨10, "session-token"⟩ 5⟩).1.isOk := by decide
  rw [show (5 : Uuid) = sampleEnrollment.invitationToken from rfl, hrejected] at hadmitted
  cases hadmitted

end IBotCoreApi
