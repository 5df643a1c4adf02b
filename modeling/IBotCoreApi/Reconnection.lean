import IBotCoreApi.Refinement

namespace IBotCoreApi
open Python Runs CandidateSessionRepository InterviewSessionService

structure Reconnectable (s : InterviewSession) (ca : CandidateAssessment) : Prop where
  live : s.status = .initializing ∨ s.status = .inProgress ∨ s.status = .disconnected →
    s.disconnectCount ≤ 2 ∧ s.timeoutDisconnectCount = 0
  disconnects : s.disconnectCount ≤ 3
  timeouts : s.timeoutDisconnectCount ≤ 1
  exhausted : s.disconnectCount = 3 ∨ s.timeoutDisconnectCount = 1 → s.status = .terminated
  ended : s.status = .terminated → ca.status = .terminated ∧ ca.interviewEndedAt.isSome
  deadline : s.status = .disconnected → s.reconnectDeadline.isSome

structure DisconnectionLaw (call : Call) (s s' : InterviewSession) : Prop where
  entered : s.status ≠ .disconnected → s'.status = .disconnected →
    (∃ sessionId connectionId candidateAssessmentId reason elapsedSecs, call.request =
      .recordDisconnect sessionId connectionId candidateAssessmentId reason elapsedSecs) ∧
    s'.reconnectDeadline = some (call.clock.utcNow + 5 * Time.minute) ∧
    s'.lastDisconnectedAt = some call.clock.dbNow
  kept : s.status = .disconnected → s'.status = .disconnected →
    s'.reconnectDeadline = s.reconnectDeadline ∧ s'.lastDisconnectedAt = s.lastDisconnectedAt
  left : s.status = .disconnected → s'.status ≠ .disconnected →
    ∃ draw sessionToken deadline,
      call.request = .authorizeInterviewConnection draw sessionToken ∧
      s.reconnectDeadline = some deadline ∧
      ((s'.status = .inProgress ∧ call.clock.utcNow ≤ deadline ∧
          s'.totalPauseSecs = s.totalPauseSecs + pauseSeconds call.clock s.lastDisconnectedAt) ∨
        (s'.status = .terminated ∧ deadline < call.clock.utcNow ∧ s'.timeoutDisconnectCount = 1))

def IsCandidateRequest : SessionRequest → Prop
  | .enterWithInvitation .. | .getSessionContext .. | .authorizeDemo ..
  | .authorizeInterviewConnection .. | .recordDisconnect .. | .recordTabSwitch ..
  | .recordProctoringEvent .. | .persistTurn .. => True
  | _ => False

variable {clock : Clock} {request : SessionRequest} {e e' : Enrollment} {s s' : InterviewSession}
  {ca : CandidateAssessment}

structure SameReconnection (s s' : InterviewSession) : Prop where
  status : s'.status = s.status
  disconnectCount : s'.disconnectCount = s.disconnectCount
  timeoutDisconnectCount : s'.timeoutDisconnectCount = s.timeoutDisconnectCount
  reconnectDeadline : s'.reconnectDeadline = s.reconnectDeadline
  lastDisconnectedAt : s'.lastDisconnectedAt = s.lastDisconnectedAt

theorem SameReconnection.refl (s : InterviewSession) : SameReconnection s s :=
  ⟨rfl, rfl, rfl, rfl, rfl⟩

theorem SameReconnection.law (h : SameReconnection s s') (call : Call) :
    DisconnectionLaw call s s' where
  entered hs hs' := absurd (h.status ▸ hs') hs
  kept _ _ := ⟨h.reconnectDeadline, h.lastDisconnectedAt⟩
  left hs hs' := absurd (h.status.trans hs) hs'

theorem Reconnectable.of_same (hJ : Reconnectable s ca) (h : SameReconnection s s')
    {ca' : CandidateAssessment} (hstatus : ca'.status = ca.status)
    (hended : ca'.interviewEndedAt = ca.interviewEndedAt) : Reconnectable s' ca' where
  live := by
    rw [h.status, h.disconnectCount, h.timeoutDisconnectCount]
    exact hJ.live
  disconnects := h.disconnectCount ▸ hJ.disconnects
  timeouts := h.timeoutDisconnectCount ▸ hJ.timeouts
  exhausted := by
    rw [h.status, h.disconnectCount, h.timeoutDisconnectCount]
    exact hJ.exhausted
  ended := by
    rw [h.status, hstatus, hended]
    exact hJ.ended
  deadline := by
    rw [h.status, h.reconnectDeadline]
    exact hJ.deadline

theorem live_of_isActive (h : s.isActive) :
    s.status = .initializing ∨ s.status = .inProgress ∨ s.status = .disconnected := by
  cases hs : s.status <;> simp_all [InterviewSession.isActive]

theorem not_disconnected_of_isActive (h : s.isActive) : s.status ≠ .disconnected := by
  cases hs : s.status <;> simp_all [InterviewSession.isActive]

theorem candidateTerminated_ended (clock : Clock) (ca : CandidateAssessment) :
    ((candidateTerminated clock).set ca).status = .terminated ∧
      ((candidateTerminated clock).set ca).interviewEndedAt.isSome := by
  refine ⟨rfl, ?_⟩
  cases h : ca.interviewEndedAt <;> simp [candidateTerminated, h]

/-- A violation that ends the session ends it for both rows; any other leaves the reconnection
alone. -/
theorem Reconnectable.violated (hJ : Reconnectable s ca) (hactive : s.isActive)
    (violations : List Json) (terminated : Bool) (call : Call) :
    ∃ s', (Enrollment.violated clock violations terminated ca s).session = some s' ∧
      Reconnectable s' (Enrollment.violated clock violations terminated ca s).candidate ∧
      DisconnectionLaw call s s' := by
  obtain ⟨hcount, htimeout⟩ := hJ.live (live_of_isActive hactive)
  cases terminated with
  | false =>
    have hsame : SameReconnection s
        ((InterviewSessionRepository.violationsSaved clock violations).set s) :=
      ⟨rfl, rfl, rfl, rfl, rfl⟩
    exact ⟨_, rfl, hJ.of_same hsame rfl rfl, hsame.law call⟩
  | true =>
    refine ⟨_, rfl, ?_, ?_⟩
    · exact {
        live := by rintro (h | h | h) <;> cases h
        disconnects := hJ.disconnects
        timeouts := hJ.timeouts
        exhausted := fun _ => rfl
        ended := fun _ => candidateTerminated_ended clock ca
        deadline := fun h => by cases h }
    · exact {
        entered := fun _ h => by cases h
        kept := fun _ h => by cases h
        left := fun h => absurd h (not_disconnected_of_isActive hactive) }

theorem invited_same (clock : Clock) (ca : CandidateAssessment) :
    (Enrollment.invited clock ca).status = ca.status ∧
      (Enrollment.invited clock ca).interviewEndedAt = ca.interviewEndedAt := by
  unfold Enrollment.invited
  split <;> exact ⟨rfl, rfl⟩

theorem issued_same (clock : Clock) (token : String) (expiresAt : Time) (s : InterviewSession) :
    SameReconnection s (Enrollment.issued clock token expiresAt s) := by
  unfold Enrollment.issued
  split <;> exact ⟨rfl, rfl, rfl, rfl, rfl⟩

/-- An accepted disconnect: the third one ends both rows, an earlier one opens a grace period. -/
theorem Reconnectable.dropped (hJ : Reconnectable s ca) (hactive : s.isActive) {sessionId : Uuid}
    {connectionId : String} {candidateAssessmentId : Uuid} {reason : String} {elapsedSecs : ℤ} :
    Reconnectable
        ((disconnected clock (clock.utcNow + reconnectWindow) elapsedSecs).set s)
        (Enrollment.dropped clock
          ((disconnected clock (clock.utcNow + reconnectWindow) elapsedSecs).set s) ca) ∧
      DisconnectionLaw
        ⟨clock, .recordDisconnect sessionId connectionId candidateAssessmentId reason elapsedSecs⟩ s
        ((disconnected clock (clock.utcNow + reconnectWindow) elapsedSecs).set s) := by
  obtain ⟨hcount, htimeout⟩ := hJ.live (live_of_isActive hactive)
  have hnot := not_disconnected_of_isActive hactive
  unfold Enrollment.dropped
  by_cases hthird : s.disconnectCount + 1 ≥ 3
  · have hstatus : ((disconnected clock (clock.utcNow + reconnectWindow) elapsedSecs).set s).status =
      .terminated := by simp [disconnected, hthird]
    -- the third disconnect terminates the session, without a new deadline
    rw [if_pos hstatus]
    constructor
    · exact {
        live := by simp [hstatus]
        disconnects := by
          change s.disconnectCount + 1 ≤ 3
          omega
        timeouts := hJ.timeouts
        exhausted := fun _ => hstatus
        ended := fun _ => candidateTerminated_ended clock ca
        deadline := by simp [hstatus] }
    · exact {
        entered := by simp [hstatus]
        kept := by simp [hstatus]
        left := fun h => absurd h hnot }
  · have hstatus : ((disconnected clock (clock.utcNow + reconnectWindow) elapsedSecs).set s).status =
      .disconnected := by simp [disconnected, hthird]
    have hdeadline : ((disconnected clock (clock.utcNow + reconnectWindow)
      elapsedSecs).set s).reconnectDeadline = some (clock.utcNow + 5 * Time.minute) := by
        simp [disconnected, hthird, reconnectWindow]
    -- an earlier one leaves the session waiting for five minutes
    rw [if_neg (by simp [hstatus])]
    constructor
    · exact {
        live := by
          intro _
          change s.disconnectCount + 1 ≤ 2 ∧ s.timeoutDisconnectCount = 0
          omega
        disconnects := by
          change s.disconnectCount + 1 ≤ 3
          omega
        timeouts := hJ.timeouts
        exhausted := by
          change s.disconnectCount + 1 = 3 ∨ s.timeoutDisconnectCount = 1 → _
          omega
        ended := by simp [hstatus]
        deadline := fun _ => by rw [hdeadline]; rfl }
    · exact {
        entered := fun _ _ => ⟨⟨_, _, _, _, _, rfl⟩, hdeadline, rfl⟩
        kept := fun h => absurd h hnot
        left := fun h => absurd h hnot }

theorem reconnectExpired_iff {deadline : Time} {now : Time} :
    reconnectExpired (some deadline) now ↔ deadline < now := by
  simp [reconnectExpired]

/-- What a candidate's request preserves, and how it may change the disconnection. -/
theorem Enrollment.Step.reconnection (h : e.Step clock request e')
    (hrequest : IsCandidateRequest request) (hs : e.session = some s)
    (hJ : Reconnectable s e.candidate) :
    ∃ s', e'.session = some s' ∧ Reconnectable s' e'.candidate ∧
      DisconnectionLaw ⟨clock, request⟩ s s' := by
  have hsessionOr (newId : Uuid) : e.sessionOr newId clock = s := by
    simp [Enrollment.sessionOr, hs]
  cases h with
  | unchanged => exact ⟨s, hs, hJ, (SameReconnection.refl s).law _⟩
  | refused =>
    rw [hsessionOr]
    exact ⟨s, rfl, hJ, (SameReconnection.refl s).law _⟩
  | @admitted draws _ _ _ _ expiresAt =>
    rw [hsessionOr]
    have hsame := issued_same clock draws.sessionToken expiresAt s
    obtain ⟨hstatus, hended⟩ := invited_same clock e.candidate
    exact ⟨_, rfl, hJ.of_same hsame hstatus hended, hsame.law _⟩
  | @bound draw =>
    cases hs
    have hsame : SameReconnection s
        ((CandidateSessionRepository.bound clock (nextConnection s draw)).set s) :=
      ⟨rfl, rfl, rfl, rfl, rfl⟩
    exact ⟨_, rfl, hJ.of_same hsame rfl rfl, hsame.law _⟩
  | reconnected htoken hstatus hopen hdeadline =>
    cases hs
    -- back in time: a disconnected session has a deadline, and it has not passed
    obtain ⟨deadline, hsome⟩ := Option.isSome_iff_exists.mp (hJ.deadline hstatus)
    rw [hsome, ← Bool.not_eq_true, reconnectExpired_iff] at hdeadline
    refine ⟨_, rfl, ?_, ?_⟩
    · exact {
        live := fun _ => hJ.live (.inr (.inr hstatus))
        disconnects := hJ.disconnects
        timeouts := hJ.timeouts
        exhausted := fun h => by
          have hterminated := hJ.exhausted h
          simp [hstatus] at hterminated
        ended := fun h => by cases h
        deadline := fun h => by cases h }
    · exact {
        entered := fun h => absurd hstatus h
        kept := fun _ h => by cases h
        left := fun _ _ => ⟨_, _, deadline, rfl, hsome, .inl ⟨rfl, by simpa using hdeadline, rfl⟩⟩ }
  | timedOut htoken hstatus hdeadline =>
    cases hs
    -- too late: the first and last timeout ends the interview
    obtain ⟨deadline, hsome⟩ := Option.isSome_iff_exists.mp (hJ.deadline hstatus)
    rw [hsome, reconnectExpired_iff] at hdeadline
    obtain ⟨hcount, htimeout⟩ := hJ.live (.inr (.inr hstatus))
    have htimeout' : ((CandidateSessionRepository.timedOut clock).set s).timeoutDisconnectCount = 1 := by
      simp [CandidateSessionRepository.timedOut, htimeout]
    refine ⟨_, rfl, ?_, ?_⟩
    · exact {
        live := by rintro (h | h | h) <;> cases h
        disconnects := hJ.disconnects
        timeouts := htimeout'.le
        exhausted := fun _ => rfl
        ended := fun _ => candidateTerminated_ended clock _
        deadline := fun h => by cases h }
    · exact {
        entered := fun h => absurd hstatus h
        kept := fun _ h => by cases h
        left := fun _ _ => ⟨_, _, deadline, rfl, hsome, .inr ⟨rfl, hdeadline, htimeout'⟩⟩ }
  | disconnected haccepts =>
    cases hs
    exact ⟨_, rfl, hJ.dropped (acceptsDisconnect_isActive haccepts)⟩
  | @turnPersisted _ _ _ _ _ s' hturn =>
    cases hs
    have hsame : SameReconnection s s' := by
      rw [hturn.rest]
      exact ⟨rfl, rfl, rfl, rfl, rfl⟩
    exact ⟨_, rfl, hJ.of_same hsame rfl rfl, hsame.law _⟩
  | tabSwitched hactive | proctored hactive =>
    cases hs
    exact hJ.violated hactive _ _ _
  | _ => exact hrequest.elim

variable [Runtime]

def HoldsReconnectable (sessionId candidateAssessmentId : Uuid) (store : Store) : Prop :=
  ∃ s ca, store.db.session? sessionId = some s ∧ s.candidateAssessmentId = candidateAssessmentId ∧
    store.db.candidateAssessment? candidateAssessmentId = some ca ∧ Reconnectable s ca

theorem serve_reconnection {sessionId candidateAssessmentId : Uuid} {store : Store} {call : Call}
    (hcall : IsCandidateRequest call.request)
    (h : HoldsReconnectable sessionId candidateAssessmentId store) :
    HoldsReconnectable sessionId candidateAssessmentId (serve store call).2 ∧
    ∃ s s', store.db.session? sessionId = some s ∧
      (serve store call).2.db.session? sessionId = some s' ∧ DisconnectionLaw call s s' := by
  obtain ⟨s, ca, hs, rfl, hca, hJ⟩ := h
  obtain rfl := Database.id_of_session? hs
  have hmem := Tables.lookup_mem hs
  obtain ⟨e, e', he, hsession, he', hstep⟩ := serve_session_step call hmem
  obtain rfl := enrollment_eq_of_mem store.wellFormed he hmem hca
  obtain ⟨s', hs', hJ', hlaw⟩ := hstep.reconnection hcall hsession hJ
  obtain ⟨s'', hs'', hid⟩ := hstep.session_kept hsession
  cases hs'.symm.trans hs''
  have hrow : (serve store call).2.db.session? s.id = some s' :=
    hid ▸ (serve store call).2.wellFormed.session?_of_mem (enrollment_session_mem he' hs')
  exact ⟨⟨s', e'.candidate, hrow, enrollment_session he' hs', (enrollment?_eq_some.mp he').1, hJ'⟩,
    s, s', hs, hrow, hlaw⟩

/-- The reconnection invariant is kept by every run of candidate requests, and along the run a
session enters and leaves `DISCONNECTED` by the law. -/
theorem bounded_reconnection (store : Store) (calls : List Call) (s : InterviewSession)
    (ca : CandidateAssessment) (hs : store.db.session? s.id = some s)
    (hca : store.db.candidateAssessment? s.candidateAssessmentId = some ca)
    (hJ : Reconnectable s ca) (hcalls : ∀ call ∈ calls, IsCandidateRequest call.request) :
    HoldsReconnectable s.id s.candidateAssessmentId (exec serve store calls) ∧
    ∀ t ∈ trace serve store calls, ∃ s₁ s₂, t.pre.db.session? s.id = some s₁ ∧
      t.post.db.session? s.id = some s₂ ∧ DisconnectionLaw t.input s₁ s₂ := by
  have hstart : HoldsReconnectable s.id s.candidateAssessmentId store := ⟨s, ca, hs, rfl, hca, hJ⟩
  have hkeep (store : Store) (call : Call) (hcall : IsCandidateRequest call.request)
      (h : HoldsReconnectable s.id s.candidateAssessmentId store) :
      HoldsReconnectable s.id s.candidateAssessmentId (serve store call).2 :=
    (serve_reconnection hcall h).1
  have hrun (prior : List Call) (hprior : ∀ call ∈ prior, IsCandidateRequest call.request) :
      HoldsReconnectable s.id s.candidateAssessmentId (exec serve store prior) :=
    exec_invariant hkeep hprior hstart
  refine ⟨hrun calls hcalls, fun t ht => ?_⟩
  obtain ⟨prior, call, later, rfl, rfl⟩ := mem_trace ht
  have hprior := hrun prior fun c hc => hcalls c (List.mem_append_left _ hc)
  exact (serve_reconnection (hcalls call (by simp)) hprior).2

omit [Runtime] in
theorem sampleSession_reconnectable :
    Reconnectable sampleSession sampleInterviewed where
  live _ := by decide
  disconnects := by decide
  timeouts := by decide
  exhausted := by decide
  ended h := by cases h
  deadline h := by cases h

/-- A drop after ten seconds and a return ten seconds later. -/
def dropAndReturn : List Call :=
  [⟨⟨10 * Time.second, 10 * Time.second⟩, .recordDisconnect 10 "first-connection" 4 "lost" 10⟩,
    ⟨⟨20 * Time.second, 20 * Time.second⟩, .authorizeInterviewConnection 11 "session-token"⟩]

omit [Runtime] in
theorem bounded_reconnection_sample :
    HoldsReconnectable 10 4 (exec (@serve .ascii) runningStore dropAndReturn) ∧
    ∀ t ∈ trace (@serve .ascii) runningStore dropAndReturn, ∃ s₁ s₂,
      t.pre.db.session? 10 = some s₁ ∧ t.post.db.session? 10 = some s₂ ∧
      DisconnectionLaw t.input s₁ s₂ :=
  @bounded_reconnection .ascii runningStore dropAndReturn sampleSession sampleInterviewed rfl rfl
    sampleSession_reconnectable (by simp [dropAndReturn, IsCandidateRequest])

end IBotCoreApi
