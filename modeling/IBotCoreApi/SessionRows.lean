import IBotCoreApi.Service

namespace IBotCoreApi
open Python Outcomes Runs CandidateSessionRepository InterviewSessionRepository EvaluationRepository
  InternalInterview InterviewSessionService

/-- The three `ck_interview_sessions` constraints. -/
structure CheckConstraints (s : InterviewSession) : Prop where
  disconnectCountsNonnegative : 0 ≤ s.disconnectCount ∧ 0 ≤ s.timeoutDisconnectCount
  reconnectDeadlineState : s.status ∉ [.inProgress, .terminated] ∨ s.reconnectDeadline = none
  sessionTokenPair : s.sessionToken = none ∧ s.sessionTokenExpiresAt = none ∨
    s.sessionToken.isSome ∧ s.sessionTokenExpiresAt.isSome

instance (s : InterviewSession) : Decidable (CheckConstraints s) :=
  decidable_of_iff ((0 ≤ s.disconnectCount ∧ 0 ≤ s.timeoutDisconnectCount) ∧
      (s.status ∉ [.inProgress, .terminated] ∨ s.reconnectDeadline = none) ∧
      (s.sessionToken = none ∧ s.sessionTokenExpiresAt = none ∨
        s.sessionToken.isSome ∧ s.sessionTokenExpiresAt.isSome))
    ⟨fun h => ⟨h.1, h.2.1, h.2.2⟩, fun h => ⟨h.1, h.2, h.3⟩⟩

structure RowShape (s : InterviewSession) : Prop where
  deadline : s.status ∈ [.initializing, .inProgress, .completed, .terminated] →
    s.reconnectDeadline = none
  connection : s.status ∈ [.disconnected, .completed, .terminated] → s.activeConnectionId = none
  disconnected : s.status = .disconnected → s.reconnectDeadline.isSome ∧
    s.lastDisconnectedAt.isSome ∧ 1 ≤ s.disconnectCount ∧ s.disconnectCount ≤ 2
  tokenPair : s.sessionToken = none ↔ s.sessionTokenExpiresAt = none
  counts : 0 ≤ s.disconnectCount ∧ 0 ≤ s.timeoutDisconnectCount

theorem RowShape.checks {s : InterviewSession} (h : RowShape s) : CheckConstraints s where
  disconnectCountsNonnegative := h.counts
  reconnectDeadlineState := by
    by_cases hstatus : s.status ∈ [.inProgress, .terminated]
    · refine .inr (h.deadline ?_)
      simp only [List.mem_cons, List.not_mem_nil, or_false] at hstatus ⊢
      tauto
    · exact .inl hstatus
  sessionTokenPair := by
    have hpair := h.tokenPair
    cases htoken : s.sessionToken with
    | none => exact .inl ⟨rfl, hpair.mp htoken⟩
    | some token =>
      refine .inr ⟨rfl, Option.isSome_iff_ne_none.mpr fun hexpiry => ?_⟩
      rw [hpair.mpr hexpiry] at htoken
      cases htoken

theorem fresh_shape (newId candidateAssessmentId : Uuid) (clock : Clock) :
    RowShape (.fresh newId candidateAssessmentId clock) := by
  constructor <;> simp [InterviewSession.fresh]

/-- The updates of `interview_sessions`. -/
inductive SessionStatement where
  | setSessionCredentials (sessionId : Uuid) (sessionToken : String) (expiresAt : Time)
  | bindActiveConnection (sessionId : Uuid) (connectionId : String)
  | restoreDisconnectedSession (sessionId : Uuid)
  | terminateReconnectTimeout (sessionId : Uuid)
  | recordDisconnect (sessionId : Uuid) (connectionId : String) (reconnectDeadline : Time)
      (elapsedSecs : ℤ)
  | appendTranscriptTurn (sessionId : Uuid) (transcript : List Json) (totalElapsedSecs : ℤ)
  | saveViolations (sessionId : Uuid) (violations : List Json)
  | terminateSession (sessionId : Uuid)
  | updateElapsedTime (sessionId : Uuid) (elapsedSecs totalPauseSecs : ℤ)
  | markSessionInProgress (sessionId : Uuid)
  | completeSession (sessionId : Uuid) (totalElapsedSecs : ℤ)
  | markEvaluationFailed (candidateAssessmentId : Uuid)
  | saveFinalEvaluation (sessionId : Uuid)

namespace SessionStatement

/-- The `WHERE` of a statement. -/
def selects : SessionStatement → InterviewSession → Bool
  | setSessionCredentials sessionId _ _ | appendTranscriptTurn sessionId _ _
  | saveViolations sessionId _ | terminateSession sessionId | updateElapsedTime sessionId _ _
  | markSessionInProgress sessionId | completeSession sessionId _
  | saveFinalEvaluation sessionId => fun s => s.id == sessionId
  | bindActiveConnection sessionId _ => fun s => s.id == sessionId && s.isActive
  | restoreDisconnectedSession sessionId | terminateReconnectTimeout sessionId =>
    isDisconnected sessionId
  | recordDisconnect sessionId connectionId _ _ => acceptsDisconnect sessionId connectionId
  | markEvaluationFailed candidateAssessmentId => fun s =>
    s.candidateAssessmentId == candidateAssessmentId && s.status != .evaluated

/-- The `SET` of a statement. -/
def update (clock : Clock) : SessionStatement → SessionUpdate
  | setSessionCredentials _ sessionToken expiresAt => credentials clock sessionToken expiresAt
  | bindActiveConnection _ connectionId => bound clock connectionId
  | restoreDisconnectedSession _ => restored clock
  | terminateReconnectTimeout _ => timedOut clock
  | recordDisconnect _ _ reconnectDeadline elapsedSecs =>
    disconnected clock reconnectDeadline elapsedSecs
  | appendTranscriptTurn _ transcript totalElapsedSecs =>
    turnAppended clock transcript totalElapsedSecs
  | saveViolations _ violations => violationsSaved clock violations
  | terminateSession _ => sessionTerminated
  | updateElapsedTime _ elapsedSecs totalPauseSecs => elapsed clock elapsedSecs totalPauseSecs
  | markSessionInProgress _ => inProgress clock
  | completeSession _ totalElapsedSecs => completed clock totalElapsedSecs
  | markEvaluationFailed _ => evaluationFailed clock
  | saveFinalEvaluation _ => sessionEvaluated clock

theorem update_shape (clock : Clock) (statement : SessionStatement) {s : InterviewSession}
    (h : RowShape s) (hselects : statement.selects s) :
    RowShape ((statement.update clock).set s) := by
  obtain ⟨hdeadline, hconnection, hdisconnected, hpair, hcounts⟩ := h
  cases statement with
  | setSessionCredentials =>
    exact ⟨hdeadline, hconnection, hdisconnected, by simp [update, credentials], hcounts⟩
  | bindActiveConnection sessionId connectionId =>
    simp only [selects, InterviewSession.isActive, Bool.and_eq_true, Bool.or_eq_true,
      beq_iff_eq] at hselects
    refine ⟨hdeadline, ?_, hdisconnected, hpair, hcounts⟩
    rcases hselects.2 with hstatus | hstatus <;> simp [update, bound, hstatus]
  | restoreDisconnectedSession => exact ⟨fun _ => rfl, fun _ => rfl, by rintro ⟨⟩, hpair, hcounts⟩
  | terminateReconnectTimeout =>
    refine ⟨fun _ => rfl, fun _ => rfl, by rintro ⟨⟩, hpair, hcounts.1, ?_⟩
    change 0 ≤ s.timeoutDisconnectCount + 1
    omega
  | recordDisconnect sessionId connectionId reconnectDeadline elapsedSecs =>
    have hnext : 0 ≤ s.disconnectCount + 1 := by omega
    refine ⟨?_, fun _ => rfl, ?_, hpair, hnext, hcounts.2⟩
    -- the third drop terminates, and a terminated row has no deadline
    · simp only [update, disconnected]
      split_ifs <;> simp
    · simp only [update, disconnected]
      split_ifs
      · simp
      · intro _
        exact ⟨rfl, rfl, by omega, by omega⟩
  | appendTranscriptTurn | saveViolations | updateElapsedTime =>
    exact ⟨hdeadline, hconnection, hdisconnected, hpair, hcounts⟩
  | terminateSession | completeSession =>
    exact ⟨fun _ => rfl, fun _ => rfl, by rintro ⟨⟩, hpair, hcounts⟩
  | markSessionInProgress =>
    exact ⟨fun _ => rfl, by simp [update, inProgress], by rintro ⟨⟩, hpair, hcounts⟩
  | markEvaluationFailed | saveFinalEvaluation =>
    refine ⟨?_, ?_, by rintro ⟨⟩, hpair, hcounts⟩
    · simp [update, evaluationFailed, sessionEvaluated]
    · simp [update, evaluationFailed, sessionEvaluated]

end SessionStatement

/-- A statement that writes the table: the insert of a missing row, or an update. -/
inductive SessionWrite where
  | insert (newId candidateAssessmentId : Uuid)
  | update (statement : SessionStatement)

/-- A statement is refused when a row that it writes violates a check constraint. -/
def SessionWrite.execute (clock : Clock) (rows : List InterviewSession) :
    SessionWrite → Except ApiException (List InterviewSession)
  | .insert newId candidateAssessmentId =>
    let row := InterviewSession.fresh newId candidateAssessmentId clock
    if CheckConstraints row then .ok (rows ++ [row]) else .error .integrityError
  | .update statement =>
    if ∀ s ∈ rows, statement.selects s → CheckConstraints ((statement.update clock).set s) then
      .ok (Tables.updateWhere statement.selects (statement.update clock) rows)
    else .error .integrityError

def executeAll (clock : Clock) (rows : List InterviewSession) (writes : List SessionWrite) :
    Except ApiException (List InterviewSession) :=
  writes.foldlM (fun rows write => write.execute clock rows) rows

def Shaped (rows : List InterviewSession) : Prop := ∀ s ∈ rows, RowShape s

section Statements

variable {clock : Clock} {rows rows' rows'' : List InterviewSession}

theorem execute_insert (newId candidateAssessmentId : Uuid) :
    (SessionWrite.insert newId candidateAssessmentId).execute clock rows =
      .ok (rows ++ [.fresh newId candidateAssessmentId clock]) := by
  unfold SessionWrite.execute
  exact if_pos (fresh_shape newId candidateAssessmentId clock).checks

theorem execute_update (h : Shaped rows) (statement : SessionStatement) :
    (SessionWrite.update statement).execute clock rows =
      .ok (Tables.updateWhere statement.selects (statement.update clock) rows) :=
  if_pos fun s hs hselects => (statement.update_shape clock (h s hs) hselects).checks

theorem Shaped.insert (h : Shaped rows) (newId candidateAssessmentId : Uuid) :
    Shaped (rows ++ [.fresh newId candidateAssessmentId clock]) := by
  intro s hs
  rcases List.mem_append.mp hs with hs | hs
  · exact h s hs
  · rw [List.mem_singleton.mp hs]
    exact fresh_shape newId candidateAssessmentId clock

theorem Shaped.update (h : Shaped rows) (statement : SessionStatement) :
    Shaped (Tables.updateWhere statement.selects (statement.update clock) rows) := by
  intro s' hs'
  obtain ⟨s, hs, rfl⟩ := Tables.mem_updateWhere.mp hs'
  unfold Tables.Update.onRow
  split
  · rename_i hselects
    exact statement.update_shape clock (h s hs) hselects
  · exact h s hs

theorem execute_shaped (clock : Clock) (h : Shaped rows) (write : SessionWrite) :
    ∃ rows', write.execute clock rows = .ok rows' ∧ Shaped rows' := by
  cases write with
  | insert newId candidateAssessmentId => exact ⟨_, execute_insert _ _, h.insert _ _⟩
  | update statement => exact ⟨_, execute_update h statement, h.update statement⟩

theorem executeAll_shaped (clock : Clock) (h : Shaped rows) (writes : List SessionWrite) :
    ∃ rows', executeAll clock rows writes = .ok rows' ∧ Shaped rows' := by
  induction writes generalizing rows with
  | nil => exact ⟨rows, rfl, h⟩
  | cons write writes ih =>
    obtain ⟨next, hnext, hshaped⟩ := execute_shaped clock h write
    obtain ⟨last, hlast, hshaped⟩ := ih hshaped
    refine ⟨last, ?_, hshaped⟩
    rw [executeAll, List.foldlM_cons, hnext]
    exact hlast

/-- On shaped rows, statements that all pass their checks lead from one table to the other. -/
def Written (clock : Clock) (rows rows' : List InterviewSession) : Prop :=
  Shaped rows → ∃ writes, executeAll clock rows writes = .ok rows'

theorem Written.refl (rows : List InterviewSession) : Written clock rows rows := fun _ => ⟨[], rfl⟩

theorem Written.trans (h : Written clock rows rows') (h' : Written clock rows' rows'') :
    Written clock rows rows'' := by
  intro hshaped
  obtain ⟨writes, hwrites⟩ := h hshaped
  obtain ⟨reached, hreached, hshaped'⟩ := executeAll_shaped clock hshaped writes
  cases hwrites.symm.trans hreached
  obtain ⟨more, hmore⟩ := h' hshaped'
  refine ⟨writes ++ more, ?_⟩
  unfold executeAll at hwrites hmore ⊢
  rw [List.foldlM_append, hwrites]
  exact hmore

theorem Written.insert (newId candidateAssessmentId : Uuid) :
    Written clock rows (rows ++ [.fresh newId candidateAssessmentId clock]) := by
  intro _
  refine ⟨[.insert newId candidateAssessmentId], ?_⟩
  rw [executeAll, List.foldlM_cons, execute_insert]
  rfl

theorem Written.update (clock : Clock) (rows : List InterviewSession)
    (statement : SessionStatement) :
    Written clock rows (Tables.updateWhere statement.selects (statement.update clock) rows) := by
  intro hshaped
  refine ⟨[.update statement], ?_⟩
  rw [executeAll, List.foldlM_cons, execute_update hshaped]
  rfl

end Statements

section Handle

variable {db db' : Database} {clock : Clock}

theorem transact_written {α : Type} {body : Except ApiException (α × Database)}
    (hbody : ∀ a db', body = .ok (a, db') →
      Written clock db.interviewSessions db'.interviewSessions) :
    Written clock db.interviewSessions (transact db body).2.interviewSessions := by
  match body with
  | .ok (a, db') => exact hbody a db' rfl
  | .error _ => exact .refl _

theorem getOrCreateSession_written {newId ca : Uuid} {s : InterviewSession}
    (hget : db.getOrCreateSession clock newId ca = .ok (s, db')) :
    Written clock db.interviewSessions db'.interviewSessions := by
  obtain ⟨_, rfl⟩ | ⟨_, _, rfl, rfl⟩ := getOrCreateSession_cases hget
  · exact .refl _
  · exact .insert newId ca

theorem issueCredentials_written {context : LifecycleContext} {session : InterviewSession}
    {drawn : String} {token : Option String} {expiresAt : Option Time}
    (hissue : issueCredentials db clock context session drawn = .ok (token, expiresAt, db')) :
    Written clock db.interviewSessions db'.interviewSessions := by
  obtain ⟨_, _, _, _, rfl⟩ | ⟨_, _, _, rfl⟩ := issueCredentials_cases hissue
  · exact .update clock _ (.setSessionCredentials session.id drawn (newExpiry context clock.utcNow))
  · exact .refl _

theorem saveViolations_written (sessionId candidateAssessmentId : Uuid) (violations : List Json)
    (terminated : Bool) :
    Written clock db.interviewSessions (InterviewSessionRepository.saveViolations db clock sessionId
      candidateAssessmentId violations terminated).interviewSessions := by
  have hsaved := Written.update clock db.interviewSessions (.saveViolations sessionId violations)
  unfold InterviewSessionRepository.saveViolations
  cases terminated with
  | false => exact hsaved
  | true => exact hsaved.trans (.update clock _ (.terminateSession sessionId))

variable [Runtime]

theorem enterWithInvitation_written {draws : EntryDraws} {invitationToken : Uuid} :
    Written clock db.interviewSessions
      (enterWithInvitation db clock draws invitationToken).2.interviewSessions := by
  have houtcome := enterWithInvitation_outcome db clock draws invitationToken
  generalize (enterWithInvitation db clock draws invitationToken).1 = result at houtcome
  generalize (enterWithInvitation db clock draws invitationToken).2 = db' at houtcome ⊢
  cases houtcome with
  | unknown | sessionIdTaken | tokenTaken | expiryMissing => exact .refl _
  | rejected metadata hlock hget hreason =>
    have hopened := getOrCreateSession_written hget
    exact hopened
  | admitted hlock hget hopen hissue =>
    have hissued := (getOrCreateSession_written hget).trans (issueCredentials_written hissue)
    unfold admittedDatabase
    split
    · exact hissued
    · exact hissued

omit [Runtime] in
theorem authorizeInterviewConnection_written (h : db.WellFormed) (draw : Uuid)
    (sessionToken : String) :
    Written clock db.interviewSessions
      (authorizeInterviewConnection db clock draw sessionToken).2.interviewSessions := by
  have houtcome := authorizeInterviewConnection_outcome h clock draw sessionToken
  generalize (authorizeInterviewConnection db clock draw sessionToken).1 = result at houtcome
  generalize (authorizeInterviewConnection db clock draw sessionToken).2 = db' at houtcome ⊢
  cases houtcome with
  | refused => exact .refl _
  | @timedOut s => exact .update clock _ (.terminateReconnectTimeout s.id)
  | @reconnected s =>
    have hrestored := Written.update clock db.interviewSessions (.restoreDisconnectedSession s.id)
    exact hrestored.trans (.update clock _ (.bindActiveConnection s.id _))
  | @bound s => exact .update clock _ (.bindActiveConnection s.id _)

omit [Runtime] in
theorem recordDisconnect_written (sessionId : Uuid) (connectionId : String)
    (candidateAssessmentId : Uuid) (reason : String) (elapsedSecs : ℤ) :
    Written clock db.interviewSessions (InterviewSessionService.recordDisconnect db clock sessionId
      connectionId candidateAssessmentId reason elapsedSecs).2.interviewSessions := by
  generalize hrun : InterviewSessionService.recordDisconnect db clock sessionId connectionId
    candidateAssessmentId reason elapsedSecs = result
  obtain ⟨outcome, db'⟩ := result
  have hdropped := Written.update clock db.interviewSessions
    (.recordDisconnect sessionId connectionId (clock.utcNow + reconnectWindow) elapsedSecs)
  rcases recordDisconnect_cases hrun with ⟨_, rfl, _⟩ | ⟨s, _, eventName, m, _, _, rfl⟩
  · exact .refl _
  · simp only [record, Database.recordEvent]
    split
    · exact hdropped
    · exact hdropped

theorem persistTurn_written {sessionId : Uuid} {transcriptItems violations : List Json.Entries}
    {elapsedSecs : Option ℤ}
    (hrun : persistTurn db clock sessionId transcriptItems violations elapsedSecs = .ok ((), db')) :
    Written clock db.interviewSessions db'.interviewSessions := by
  unfold persistTurn at hrun
  obtain ⟨db₁, hitems, hrun⟩ := bind_eq_ok.mp hrun
  obtain ⟨db₂, hviolations, hrun⟩ := bind_eq_ok.mp hrun
  have hturn {db₀ db₁ : Database} {item : Json.Entries}
      (hrun : Prod.snd <$> appendTranscriptTurn db₀ clock sessionId item none = .ok db₁) :
      Written clock db₀.interviewSessions db₁.interviewSessions := by
    obtain ⟨⟨appended, _⟩, hitem, rfl⟩ := map_eq_ok.mp hrun
    unfold appendTranscriptTurn at hitem
    obtain ⟨session, _, hitem⟩ := bind_eq_ok.mp hitem
    obtain ⟨⟨transcript, _⟩, _, hitem⟩ := bind_eq_ok.mp hitem
    cases hitem
    exact .update clock _ (.appendTranscriptTurn sessionId transcript _)
  have hviolation {db₀ db₁ : Database} {violation : Json.Entries}
      (hrun : Prod.snd <$> appendViolation db₀ clock sessionId violation = .ok db₁) :
      Written clock db₀.interviewSessions db₁.interviewSessions := by
    obtain ⟨⟨appended, _⟩, hitem, rfl⟩ := map_eq_ok.mp hrun
    unfold appendViolation at hitem
    obtain ⟨session, _, hitem⟩ := bind_eq_ok.mp hitem
    obtain ⟨⟨stored, isNew⟩, _, hitem⟩ := bind_eq_ok.mp hitem
    cases hitem
    split
    · exact .update clock _ (.saveViolations sessionId stored)
    · exact .refl _
  have h₁ : Written clock db.interviewSessions db₁.interviewSessions := by
    refine foldlM_invariant (P := fun reached => Written clock db.interviewSessions
      reached.interviewSessions) ?_ hitems (.refl _)
    intro db₀ item db₁ hitem hwritten
    exact hwritten.trans (hturn hitem)
  have h₂ : Written clock db.interviewSessions db₂.interviewSessions := by
    refine foldlM_invariant (P := fun reached => Written clock db.interviewSessions
      reached.interviewSessions) ?_ hviolations h₁
    intro db₀ violation db₁ hitem hwritten
    exact hwritten.trans (hviolation hitem)
  cases hrun
  cases elapsedSecs with
  | none => exact h₂
  | some secs => exact h₂.trans (.update clock _ (.updateElapsedTime sessionId secs 0))

/-- What a request does to the sessions is a sequence of statements that pass their checks. -/
theorem handle_written (h : db.WellFormed) (call : Call) :
    Written call.clock db.interviewSessions (handle db call).2.interviewSessions := by
  obtain ⟨clock, request⟩ := call
  cases request with
  | enterWithInvitation draws token => exact enterWithInvitation_written
  | authorizeInterviewConnection draw token => exact authorizeInterviewConnection_written h _ _
  | recordDisconnect => exact recordDisconnect_written _ _ _ _ _
  | getSessionContext | authorizeDemo | createEventLog | markCandidateStarted
    | markCandidateCompleted => exact .refl _
  | initializeInterviewContext newSessionId ca =>
    refine transact_written fun data db' hrun => ?_
    obtain ⟨_, opened, hget, rfl⟩ := initializeInterviewContext_cases hrun
    exact (getOrCreateSession_written hget).trans (.update clock _ (.markSessionInProgress _))
  | persistTurn sessionId items violations elapsedSecs =>
    exact transact_written fun _ _ hrun => persistTurn_written hrun
  | recordTabSwitch sessionId connectionId ca eventId occurredAt =>
    refine transact_written fun response db' hrun => ?_
    obtain ⟨s, _, _, ⟨_, _, rfl, _⟩ | ⟨_, _, _, _, violation, _, rfl⟩⟩ := recordTabSwitch_cases hrun
    · exact .refl _
    · exact saveViolations_written _ _ _ _
  | recordProctoringEvent sessionId connectionId ca event =>
    refine transact_written fun response db' hrun => ?_
    obtain ⟨s, policy, _, _, _, ⟨_, rfl⟩ | ⟨_, violations, _, rfl⟩⟩ :=
      recordProctoringEvent_cases (recordProctoringEvent_ok hrun)
    · exact .refl _
    · exact saveViolations_written _ _ _ _
  | markSessionInProgress sessionId => exact .update clock _ (.markSessionInProgress sessionId)
  | completeSession sessionId secs => exact .update clock _ (.completeSession sessionId secs)
  | markCandidateTimerStarted ca =>
    refine transact_written fun startedAt db' hrun => ?_
    obtain ⟨row, _, rfl⟩ := markCandidateTimerStarted_cases hrun
    exact .refl _
  | markEvaluationFailed ca => exact .update clock _ (.markEvaluationFailed ca)
  | saveFinalEvaluation draws record recruiterEmail =>
    refine transact_written fun notification db' hrun => ?_
    obtain ⟨evaluations, notifications, rfl⟩ := saveFinalEvaluation_cases hrun
    exact .update clock _ (.saveFinalEvaluation record.sessionId)

end Handle

section Reachable

variable [Runtime] {store : Store}

theorem service_shaped (store : Store) (call : ServiceCall)
    (h : Shaped store.db.interviewSessions) :
    Shaped (service store call).2.db.interviewSessions := by
  obtain ⟨clock, request⟩ := call
  by_cases hrequest : ∃ r, request = .session r
  · obtain ⟨r, rfl⟩ := hrequest
    obtain ⟨writes, hwrites⟩ := handle_written store.wellFormed ⟨clock, r⟩ h
    obtain ⟨rows, hrows, hshaped⟩ := executeAll_shaped clock h writes
    cases hwrites.symm.trans hrows
    exact hshaped
  · intro s hs
    exact h s ((operate_administration fun r heq => hrequest ⟨r, heq⟩).sessions hs)

theorem Reachable.shaped (h : Reachable store) : Shaped store.db.interviewSessions := by
  refine h.invariant ?_ service_shaped
  intro s hs
  cases hs

/-- After every run of the service each session row has its shape; what the next request does to
the table is a sequence of its statements that all pass the check constraints, and no sequence of
statements would be refused. -/
theorem session_rows_shaped (calls : List ServiceCall) :
    let store := exec service emptyStore calls
    (∀ s ∈ store.db.interviewSessions, RowShape s) ∧
      (∀ call : Call, ∃ writes, executeAll call.clock store.db.interviewSessions writes =
        .ok (handle store.db call).2.interviewSessions) ∧
      ∀ clock writes, ∃ rows, executeAll clock store.db.interviewSessions writes = .ok rows := by
  intro store
  have hshaped : Shaped store.db.interviewSessions := Reachable.shaped ⟨calls, rfl⟩
  refine ⟨hshaped, fun call => handle_written store.wellFormed call hshaped, ?_⟩
  intro clock writes
  obtain ⟨rows, hrows, _⟩ := executeAll_shaped clock hshaped writes
  exact ⟨rows, hrows⟩

end Reachable

end IBotCoreApi
