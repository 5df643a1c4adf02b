import IBotCoreApi.Refinement

namespace IBotCoreApi
open Python Runs Outcomes InternalInterview CandidateSessionRepository InterviewSessionRepository
  InterviewSessionService

def connectionDraw (call : Call) : Option String :=
  match call.request with
  | .authorizeInterviewConnection draw _ => some draw.hex
  | _ => none

def acceptedDisconnect (t : Transition Store Call SessionResult) : Option (Uuid × String) :=
  match t.input.request, t.output with
  | .recordDisconnect sessionId connectionId _ _ _, .ok (.disconnect (some _)) =>
    some (sessionId, connectionId)
  | _, _ => none

def IsCurrent (connectionId : String) (store : Store) : Prop :=
  ∃ s ∈ store.db.interviewSessions, s.activeConnectionId = some connectionId

/-- A call that carries another connection than the current one of its session. -/
def IsStale (db : Database) : SessionRequest → Prop
  | .recordDisconnect sessionId connectionId .. | .recordTabSwitch sessionId connectionId ..
  | .recordProctoringEvent sessionId connectionId .. =>
    ∀ s, db.session? sessionId = some s → s.activeConnectionId ≠ some connectionId
  | _ => False

theorem connectionDraw_of_authorize {call : Call} {draw : Uuid} {sessionToken : String}
    (h : call.request = .authorizeInterviewConnection draw sessionToken) :
    connectionDraw call = some draw.hex := by
  simp [connectionDraw, h]

variable {clock : Clock} {request : SessionRequest} {e e' : Enrollment} {s s' : InterviewSession}

def Idle (s : InterviewSession) : Prop := s.status = .disconnected → s.activeConnectionId = none

/-- What a request may do to the connection of a session. -/
structure ConnectionStep (request : SessionRequest) (e : Enrollment) (s' : InterviewSession) :
    Prop where
  idle : Idle s'
  origin : ∀ c, s'.activeConnectionId = some c →
    (∃ s, e.session = some s ∧ s.activeConnectionId = some c) ∨
    ∃ draw sessionToken, request = .authorizeInterviewConnection draw sessionToken ∧
      c = draw.hex ∧ s'.sessionToken = some sessionToken
  count : s'.disconnectCount = (e.session.map (·.disconnectCount)).getD 0 ∨
    ∃ sessionId connectionId candidateAssessmentId reason elapsedSecs, request =
      .recordDisconnect sessionId connectionId candidateAssessmentId reason elapsedSecs

theorem ConnectionStep.of_kept (hs : e.session = some s) (hidle : Idle s)
    (hcurrent : s'.activeConnectionId = s.activeConnectionId ∨ s'.activeConnectionId = none)
    (hstatus : s'.status = s.status ∨ s'.status ≠ .disconnected)
    (hcount : s'.disconnectCount = s.disconnectCount) : ConnectionStep request e s' where
  idle h := by
    rcases hcurrent with hcurrent | hcurrent
    · rw [hcurrent]
      exact hidle (hstatus.resolve_right (not_not.mpr h) ▸ h)
    · exact hcurrent
  origin c hc := by
    rcases hcurrent with hcurrent | hcurrent
    · exact .inl ⟨s, hs, hcurrent ▸ hc⟩
    · simp [hcurrent] at hc
  count := .inl (by simp [hs, hcount])

theorem ConnectionStep.of_new (hs : e.session = none) (hcurrent : s'.activeConnectionId = none)
    (hcount : s'.disconnectCount = 0) : ConnectionStep request e s' where
  idle _ := hcurrent
  origin c hc := by simp [hcurrent] at hc
  count := .inl (by simp [hs, hcount])

theorem ConnectionStep.of_sessionOr (hidle : ∀ s, e.session = some s → Idle s) {newId : Uuid}
    (hcurrent : s'.activeConnectionId = (e.sessionOr newId clock).activeConnectionId)
    (hstatus : s'.status = (e.sessionOr newId clock).status ∨ s'.status ≠ .disconnected)
    (hcount : s'.disconnectCount = (e.sessionOr newId clock).disconnectCount) :
    ConnectionStep request e s' := by
  cases hs : e.session with
  | none =>
    simp only [Enrollment.sessionOr, hs, Option.getD_none] at hcurrent hcount
    exact .of_new hs hcurrent hcount
  | some s =>
    simp only [Enrollment.sessionOr, hs, Option.getD_some] at hcurrent hstatus hcount
    exact .of_kept hs (hidle s hs) (.inl hcurrent) hstatus hcount

theorem issued_connection (clock : Clock) (token : String) (expiresAt : Time)
    (s : InterviewSession) :
    (Enrollment.issued clock token expiresAt s).activeConnectionId = s.activeConnectionId ∧
      (Enrollment.issued clock token expiresAt s).status = s.status ∧
      (Enrollment.issued clock token expiresAt s).disconnectCount = s.disconnectCount := by
  unfold Enrollment.issued
  split <;> exact ⟨rfl, rfl, rfl⟩

theorem nextConnection_cases (s : InterviewSession) (draw : Uuid) :
    s.activeConnectionId = some (Enrollment.nextConnection s draw) ∨
      Enrollment.nextConnection s draw = draw.hex := by
  unfold Enrollment.nextConnection orText
  split_ifs with hstatus hempty
  · exact .inr rfl
  · exact .inr rfl
  · cases h : s.activeConnectionId with
    | none => simp [h] at hempty
    | some c => exact .inl (by simp)

theorem Enrollment.Step.connection (h : e.Step clock request e')
    (hidle : ∀ s, e.session = some s → Idle s) (hs' : e'.session = some s') :
    ConnectionStep request e s' := by
  cases h with
  | unchanged | timerStarted | candidateStarted | candidateCompleted =>
    exact .of_kept hs' (hidle s' hs') (.inl rfl) (.inl rfl) rfl
  | refused =>
    cases hs'
    exact .of_sessionOr hidle rfl (.inl rfl) rfl
  | @admitted draws _ _ _ _ expiresAt =>
    cases hs'
    obtain ⟨hcurrent, hstatus, hcount⟩ := issued_connection clock draws.sessionToken expiresAt
      (e.sessionOr draws.sessionId clock)
    exact .of_sessionOr hidle hcurrent (.inl hstatus) hcount
  | @bound draw sessionToken ca s htoken hactive =>
    cases hs'
    refine ⟨?_, fun c hc => ?_, .inl rfl⟩
    -- only an active session is bound without a reconnection
    · intro hstatus
      change s.status = .disconnected at hstatus
      simp [InterviewSession.isActive, hstatus] at hactive
    · cases hc
      rcases nextConnection_cases s draw with hcurrent | hdrawn
      · exact .inl ⟨s, rfl, hcurrent⟩
      · exact .inr ⟨draw, sessionToken, rfl, hdrawn, htoken⟩
  | @reconnected draw sessionToken ca s htoken hstatus =>
    cases hs'
    refine ⟨fun h => (by cases h), fun c hc => ?_, .inl rfl⟩
    cases hc
    -- a disconnected session has no connection to keep, so the drawn one is bound
    rcases nextConnection_cases s draw with hcurrent | hdrawn
    · simp [hidle s rfl hstatus] at hcurrent
    · exact .inr ⟨draw, sessionToken, rfl, hdrawn, htoken⟩
  | timedOut =>
    cases hs'
    exact .of_kept rfl (hidle _ rfl) (.inr rfl) (.inr fun h => by cases h) rfl
  | disconnected =>
    cases hs'
    exact ⟨fun _ => rfl, fun c hc => (by cases hc), .inr ⟨_, _, _, _, _, rfl⟩⟩
  | initialized =>
    cases hs'
    exact .of_sessionOr hidle rfl (.inr fun h => by cases h) rfl
  | turnPersisted hturn =>
    cases hs'
    rw [hturn.rest]
    exact .of_kept rfl (hidle _ rfl) (.inl rfl) (.inl rfl) rfl
  | tabSwitched | proctored =>
    unfold violated at hs'
    split at hs'
    · cases hs'
      exact .of_kept rfl (hidle _ rfl) (.inr rfl) (.inr fun h => by cases h) rfl
    · cases hs'
      exact .of_kept rfl (hidle _ rfl) (.inl rfl) (.inl rfl) rfl
  | sessionInProgress =>
    cases hs'
    exact .of_kept rfl (hidle _ rfl) (.inl rfl) (.inr fun h => by cases h) rfl
  | sessionCompleted =>
    cases hs'
    exact .of_kept rfl (hidle _ rfl) (.inr rfl) (.inr fun h => by cases h) rfl
  | evaluationFailed =>
    cases hs'
    exact .of_kept rfl (hidle _ rfl) (.inl rfl) (.inr fun h => by cases h) rfl
  | @evaluated draws record =>
    obtain ⟨s, hs, rfl⟩ := Option.map_eq_some_iff.mp hs'
    unfold Tables.Update.onRow
    split
    · exact .of_kept hs (hidle s hs) (.inl rfl) (.inr fun h => by cases h) rfl
    · exact .of_kept hs (hidle s hs) (.inl rfl) (.inl rfl) rfl

/-- The connections of a store; `issued` are the ids that were generated so far. -/
structure Connections (issued : List String) (store : Store) : Prop where
  idle : ∀ s ∈ store.db.interviewSessions, Idle s
  issued : ∀ c, IsCurrent c store → c ∈ issued
  exclusive : ∀ s ∈ store.db.interviewSessions, ∀ s' ∈ store.db.interviewSessions, ∀ c,
    s.activeConnectionId = some c → s'.activeConnectionId = some c → s.id = s'.id

variable [Runtime] {store : Store} {call : Call}

/-- Where a session of the next store has its connection from. -/
theorem serve_connection (hidle : ∀ s ∈ store.db.interviewSessions, Idle s)
    (hs' : s' ∈ (serve store call).2.db.interviewSessions) :
    Idle s' ∧ ∀ c, s'.activeConnectionId = some c →
      (∃ s ∈ store.db.interviewSessions, s.id = s'.id ∧ s.activeConnectionId = some c) ∨
      ∃ draw sessionToken, call.request = .authorizeInterviewConnection draw sessionToken ∧
        c = draw.hex ∧ s'.sessionToken = some sessionToken := by
  obtain ⟨e, e', he, he', hsession, hstep⟩ := serve_session_origin call hs'
  have hconnection := hstep.connection
    (fun s hs => hidle s (enrollment_session_mem he hs)) hsession
  refine ⟨hconnection.idle, fun c hc => ?_⟩
  rcases hconnection.origin c hc with ⟨s, hs, hcurrent⟩ | hdrawn
  · obtain ⟨s'', hs'', hid⟩ := hstep.session_kept hs
    cases hsession.symm.trans hs''
    exact .inl ⟨s, enrollment_session_mem he hs, hid.symm, hcurrent⟩
  · exact .inr hdrawn

theorem Connections.next {issued : List String} (h : Connections issued store)
    (hfresh : ∀ c, connectionDraw call = some c → c ∉ issued) :
    Connections (issued ++ (connectionDraw call).toList) (serve store call).2 where
  idle s' hs' := (serve_connection h.idle hs').1
  issued := by
    rintro c ⟨s', hs', hc⟩
    rcases (serve_connection h.idle hs').2 c hc with ⟨s, hs, -, hcurrent⟩ | ⟨draw, _, hrequest, rfl, _⟩
    · exact List.mem_append_left _ (h.issued c ⟨s, hs, hcurrent⟩)
    · simp [connectionDraw_of_authorize hrequest]
  exclusive := by
    intro s₁ hs₁ s₂ hs₂ c hc₁ hc₂
    rcases (serve_connection h.idle hs₁).2 c hc₁ with
        ⟨r₁, hr₁, hid₁, hcurrent₁⟩ | ⟨draw₁, token₁, hrequest₁, hdrawn₁, htoken₁⟩ <;>
      rcases (serve_connection h.idle hs₂).2 c hc₂ with
        ⟨r₂, hr₂, hid₂, hcurrent₂⟩ | ⟨draw₂, token₂, hrequest₂, hdrawn₂, htoken₂⟩
    · rw [← hid₁, ← hid₂]
      exact h.exclusive r₁ hr₁ r₂ hr₂ c hcurrent₁ hcurrent₂
    · exact absurd (h.issued c ⟨r₁, hr₁, hcurrent₁⟩)
        (hfresh c (hdrawn₂ ▸ connectionDraw_of_authorize hrequest₂))
    · exact absurd (h.issued c ⟨r₂, hr₂, hcurrent₂⟩)
        (hfresh c (hdrawn₁ ▸ connectionDraw_of_authorize hrequest₁))
    · -- both sessions hold the token of the one authorization
      cases hrequest₁.symm.trans hrequest₂
      exact (serve store call).2.wellFormed.sessionTokens s₁ hs₁ s₂ hs₂ _ htoken₁ htoken₂

theorem Connections.run {issued : List String} {calls : List Call} (h : Connections issued store)
    (hfresh : (issued ++ calls.filterMap connectionDraw).Nodup) :
    Connections (issued ++ calls.filterMap connectionDraw) (exec serve store calls) := by
  induction calls generalizing store issued with
  | nil => simpa using h
  | cons call calls ih =>
    have hsplit : issued ++ (call :: calls).filterMap connectionDraw =
        (issued ++ (connectionDraw call).toList) ++ calls.filterMap connectionDraw := by
      cases hdraw : connectionDraw call <;> simp [hdraw]
    rw [hsplit] at hfresh ⊢
    refine ih (h.next fun c hc hissued => ?_) hfresh
    have hprefix := (List.nodup_append.mp hfresh).1
    rw [hc] at hprefix
    exact (List.nodup_append.mp hprefix).2.2 c hissued c (by simp) rfl

/-- A connection that is not current can only become current by being drawn. -/
theorem not_isCurrent_serve (hidle : ∀ s ∈ store.db.interviewSessions, Idle s) {c : String}
    (hdraw : connectionDraw call ≠ some c) (h : ¬ IsCurrent c store) :
    ¬ IsCurrent c (serve store call).2 := by
  rintro ⟨s', hs', hc⟩
  rcases (serve_connection hidle hs').2 c hc with ⟨s, hs, -, hcurrent⟩ | ⟨draw, _, hrequest, rfl, _⟩
  · exact h ⟨s, hs, hcurrent⟩
  · exact hdraw (connectionDraw_of_authorize hrequest)

theorem not_isCurrent_exec (hidle : ∀ s ∈ store.db.interviewSessions, Idle s) {c : String}
    {calls : List Call} (hdraws : ∀ call ∈ calls, connectionDraw call ≠ some c)
    (h : ¬ IsCurrent c store) : ¬ IsCurrent c (exec serve store calls) := by
  have hkeep (store : Store) (call : Call) (hcall : connectionDraw call ≠ some c)
      (h : (∀ s ∈ store.db.interviewSessions, Idle s) ∧ ¬ IsCurrent c store) :
      (∀ s ∈ (serve store call).2.db.interviewSessions, Idle s) ∧
        ¬ IsCurrent c (serve store call).2 :=
    ⟨fun s hs => (serve_connection h.1 hs).1, not_isCurrent_serve h.1 hcall h.2⟩
  exact (exec_invariant hkeep hdraws ⟨hidle, h⟩).2

def acceptsSession (sessionId : Uuid) (t : Transition Store Call SessionResult) : Bool :=
  (acceptedDisconnect t).any (·.1 == sessionId)

def acceptsConnection (connectionId : String) (t : Transition Store Call SessionResult) : Bool :=
  (acceptedDisconnect t).any (·.2 == connectionId)

def disconnectCount (sessionId : Uuid) (store : Store) : ℤ :=
  ((store.db.session? sessionId).map (·.disconnectCount)).getD 0

omit [Runtime] in
theorem transact_unchanged {α : Type} {db : Database} {body : Except ApiException (α × Database)}
    (hbody : ∀ a db', body = .ok (a, db') → db' = db) : (transact db body).2 = db := by
  match body with
  | .ok (a, db') => exact hbody a db' rfl
  | .error _ => rfl

theorem acceptedDisconnect_recordDisconnect (store : Store) (clock : Clock) (sessionId : Uuid)
    (connectionId : String) (candidateAssessmentId : Uuid) (reason : String) (elapsedSecs : ℤ) :
    let t := Transition.of serve store
      ⟨clock, .recordDisconnect sessionId connectionId candidateAssessmentId reason elapsedSecs⟩
    (acceptedDisconnect t = none ∧ t.post.db = store.db) ∨
    (acceptedDisconnect t = some (sessionId, connectionId) ∧
      (∃ s ∈ store.db.interviewSessions, acceptsDisconnect sessionId connectionId s) ∧
      ∀ id, t.post.db.session? id = (store.db.session? id).map
        ((disconnected clock (clock.utcNow + reconnectWindow) elapsedSecs).onRow
          (acceptsDisconnect sessionId connectionId))) := by
  intro t
  generalize hrun : InterviewSessionService.recordDisconnect store.db clock sessionId connectionId
    candidateAssessmentId reason elapsedSecs = result
  have hserve : handle store.db t.input = (.ok (.disconnect result.1), result.2) := by
    rw [← hrun]
    rfl
  obtain ⟨outcome, db'⟩ := result
  have houtput : t.output = .ok (.disconnect outcome) := congrArg Prod.fst hserve
  have hpost : t.post.db = db' := congrArg Prod.snd hserve
  rw [hpost]
  rcases recordDisconnect_cases hrun with ⟨rfl, rfl, _⟩ | ⟨s, hs, eventName, m, haccepts, rfl, rfl⟩
  · exact .inl ⟨by simp [acceptedDisconnect, houtput], rfl⟩
  · refine .inr ⟨?_, ⟨s, hs, haccepts⟩, fun id => ?_⟩
    · simp only [acceptedDisconnect, houtput]
      rfl
    · rw [← Database.session?_updateSessions]
      split <;> rfl

omit [Runtime] in
theorem acceptedDisconnect_of_ne {t : Transition Store Call SessionResult}
    (hne : ∀ sessionId connectionId candidateAssessmentId reason elapsedSecs, t.input.request ≠
      .recordDisconnect sessionId connectionId candidateAssessmentId reason elapsedSecs) :
    acceptedDisconnect t = none := by
  unfold acceptedDisconnect
  split
  · rename_i hrequest _
    exact absurd hrequest (hne _ _ _ _ _)
  · rfl

theorem disconnectCount_recordDisconnect (clock : Clock) (sessionId : Uuid)
    (connectionId : String) (candidateAssessmentId : Uuid) (reason : String) (elapsedSecs : ℤ)
    (id : Uuid) :
    let t := Transition.of serve store
      ⟨clock, .recordDisconnect sessionId connectionId candidateAssessmentId reason elapsedSecs⟩
    disconnectCount id t.post = disconnectCount id store + if acceptsSession id t then 1 else 0 := by
  intro t
  rcases acceptedDisconnect_recordDisconnect store clock sessionId connectionId
      candidateAssessmentId reason elapsedSecs with ⟨hnone, hpost⟩ | ⟨hsome, ⟨s, hs, haccepts⟩, hpost⟩
  · simp [disconnectCount, acceptsSession, t, hnone, hpost]
  have hid := acceptsDisconnect_id haccepts
  have hrow := store.wellFormed.session?_of_mem hs
  simp only [disconnectCount, acceptsSession, t, hsome, hpost, Option.any_some, beq_iff_eq]
  by_cases hsame : sessionId = id
  · rw [if_pos hsame, ← hsame, ← hid, hrow, Option.map_some,
      Tables.Update.onRow_of_true (hid ▸ haccepts)]
    simp [disconnected]
  · rw [if_neg hsame]
    cases hother : store.db.session? id with
    | none => simp
    | some r =>
      have hnot : acceptsDisconnect sessionId connectionId r = false := by
        by_contra h
        rw [Bool.not_eq_false] at h
        exact hsame ((acceptsDisconnect_id h).symm.trans (Database.id_of_session? hother))
      simp [Tables.Update.onRow_of_false hnot]

theorem session?_of_serve (hs' : s' ∈ (serve store call).2.db.interviewSessions)
    (he : store.db.enrollment? s'.candidateAssessmentId = some e) :
    store.db.session? s'.id = e.session := by
  have hrow := (serve store call).2.wellFormed.session?_of_mem hs'
  cases hbefore : store.db.session? s'.id with
  | some s =>
    obtain ⟨e₀, e₀', he₀, hsession, he₀', hstep⟩ := serve_session_step call (Tables.lookup_mem hbefore)
    obtain ⟨s₀', hs₀', hid⟩ := hstep.session_kept hsession
    have hrow₀ := (serve store call).2.wellFormed.session?_of_mem (enrollment_session_mem he₀' hs₀')
    rw [hid, Database.id_of_session? hbefore, hrow] at hrow₀
    cases hrow₀
    rw [← enrollment_session he₀' hs₀', he] at he₀
    cases he₀
    exact hsession.symm
  | none =>
    cases hsession : e.session with
    | none => rfl
    | some s =>
      obtain ⟨e', he', hstep⟩ := handle_step store.wellFormed he call
      obtain ⟨s'', hs'', hid⟩ := hstep.session_kept hsession
      have hnext : (serve store call).2.db.enrollment? s'.candidateAssessmentId = some e' := he'
      rw [enrollment_session_of_mem (serve store call).2.wellFormed hnext hs' rfl] at hs''
      cases hs''
      have hfound := store.wellFormed.session?_of_mem (enrollment_session_mem he hsession)
      rw [← hid, hbefore] at hfound
      cases hfound

theorem disconnectCount_serve (hidle : ∀ s ∈ store.db.interviewSessions, Idle s) (call : Call)
    (id : Uuid) : disconnectCount id (serve store call).2 =
      disconnectCount id store + if acceptsSession id (.of serve store call) then 1 else 0 := by
  obtain ⟨clock, request⟩ := call
  by_cases hrequest : ∃ sessionId connectionId candidateAssessmentId reason elapsedSecs, request =
      .recordDisconnect sessionId connectionId candidateAssessmentId reason elapsedSecs
  · obtain ⟨sessionId, connectionId, candidateAssessmentId, reason, elapsedSecs, rfl⟩ := hrequest
    exact disconnectCount_recordDisconnect clock sessionId connectionId candidateAssessmentId reason
      elapsedSecs id
  have hnone : acceptedDisconnect (.of serve store ⟨clock, request⟩) = none :=
    acceptedDisconnect_of_ne fun _ _ _ _ _ heq => hrequest ⟨_, _, _, _, _, heq⟩
  rw [acceptsSession, hnone, Option.any_none, if_neg Bool.false_ne_true, add_zero]
  unfold disconnectCount
  cases hafter : (serve store ⟨clock, request⟩).2.db.session? id with
  | some s' =>
    have hs' := Tables.lookup_mem hafter
    obtain ⟨e, e', he, he', hsession, hstep⟩ := serve_session_origin _ hs'
    have hconnection := hstep.connection
      (fun s hs => hidle s (enrollment_session_mem he hs)) hsession
    rw [← Database.id_of_session? hafter, session?_of_serve hs' he]
    exact hconnection.count.resolve_right hrequest
  | none =>
    cases hbefore : store.db.session? id with
    | none => rfl
    | some s =>
      obtain ⟨e, e', he, hsession, he', hstep⟩ :=
        serve_session_step ⟨clock, request⟩ (Tables.lookup_mem hbefore)
      obtain ⟨s', hs', hid⟩ := hstep.session_kept hsession
      have hfound := (serve store ⟨clock, request⟩).2.wellFormed.session?_of_mem
        (enrollment_session_mem he' hs')
      rw [hid, Database.id_of_session? hbefore, hafter] at hfound
      cases hfound

/-- The stored number of disconnects is the number of accepted ones. -/
theorem disconnectCount_exec (hempty : store.db.interviewSessions = []) (calls : List Call)
    (id : Uuid) : disconnectCount id (exec serve store calls) =
      (trace serve store calls).countP (acceptsSession id) := by
  have hkeep (history : List (Transition Store Call SessionResult)) (store : Store) (call : Call)
      (_ : True) (h : (∀ s ∈ store.db.interviewSessions, Idle s) ∧
        disconnectCount id store = history.countP (acceptsSession id)) :
      (∀ s ∈ (serve store call).2.db.interviewSessions, Idle s) ∧
        disconnectCount id (serve store call).2 =
          (history ++ [Transition.of serve store call]).countP (acceptsSession id) := by
    refine ⟨fun s hs => (serve_connection h.1 hs).1, ?_⟩
    rw [disconnectCount_serve h.1, h.2, List.countP_append, List.countP_singleton]
    push_cast
    rfl
  have hstart : (∀ s ∈ store.db.interviewSessions, Idle s) ∧
      disconnectCount id store = ([] : List _).countP (acceptsSession id) := by
    simp [hempty, disconnectCount, Database.session?, Tables.lookup]
  exact (history_invariant hkeep (fun _ _ => trivial) hstart).2

/-- A successful authorization leaves an active session with the connection that it returns, which
is the drawn one unless the session had not started. -/
theorem serve_authorized {draw : Uuid} {sessionToken : String}
    {response : CandidateConnectionContext}
    (hidle : ∀ s ∈ store.db.interviewSessions, Idle s)
    (hrequest : call.request = .authorizeInterviewConnection draw sessionToken)
    (hresponse : (serve store call).1 = .ok (.connection response)) :
    ∃ s s', store.db.session? response.sessionId = some s ∧
      (serve store call).2.db.session? response.sessionId = some s' ∧
      (s'.status = .initializing ∨ s'.status = .inProgress) ∧
      s'.activeConnectionId = some response.connectionId ∧
      (s.status = .inProgress ∨ s.status = .disconnected → response.connectionId = draw.hex) := by
  obtain ⟨clock, request⟩ := call
  subst hrequest
  have houtcome := authorizeInterviewConnection_outcome store.wellFormed clock draw sessionToken
  obtain ⟨result, hresult, hconnection⟩ := map_eq_ok.mp hresponse
  cases hconnection
  change ∃ s s', _ ∧ (authorizeInterviewConnection store.db clock draw
    sessionToken).2.session? response.sessionId = some s' ∧ _
  rw [hresult] at houtcome
  generalize (authorizeInterviewConnection store.db clock draw sessionToken).2 = db' at houtcome ⊢
  cases houtcome with
  | @reconnected s ca _ m hs htoken hca hvalid hopen hstatus hdeadline hsession hconnection =>
    have hrow := store.wellFormed.session?_of_mem hs
    have hactive : ((restored clock).set s).isActive := rfl
    rw [hsession, hconnection]
    refine ⟨s, (bound clock (Enrollment.nextConnection s draw)).set ((restored clock).set s), hrow,
      ?_, .inr rfl, rfl, fun _ => ?_⟩
    · have hrestored : (store.db.updateSessions (isDisconnected s.id) (restored clock)).session? s.id =
          some ((restored clock).set s) := by
        rw [Database.session?_updateSessions, hrow, Option.map_some,
          Tables.Update.onRow_of_true (by simp [isDisconnected, hstatus])]
      rw [bindActiveConnection, Database.session?_updateSessions]
      change ((store.db.updateSessions _ _).session? s.id).map _ = _
      rw [hrestored, Option.map_some, Tables.Update.onRow_of_true (by simp [hactive])]
    · exact (nextConnection_cases s draw).resolve_left (by simp [hidle s hs hstatus])
  | @bound s ca _ hs htoken hca hvalid hopen hstatus hsession hconnection =>
    have hrow := store.wellFormed.session?_of_mem hs
    have hactive := isActive_of_open hopen hstatus
    rw [hsession, hconnection]
    refine ⟨s, (bound clock (Enrollment.nextConnection s draw)).set s, hrow, ?_, ?_, rfl, ?_⟩
    · rw [bindActiveConnection, Database.session?_updateSessions, hrow, Option.map_some,
        Tables.Update.onRow_of_true (by simp [hactive])]
    · change s.status = .initializing ∨ s.status = .inProgress
      simpa [InterviewSession.isActive] using hactive
    · rintro (hstarted | hdropped)
      · exact if_pos hstarted
      · exact absurd hdropped hstatus

/-- A call that does not carry the current connection of its session changes nothing. -/
theorem serve_stale (hstale : IsStale store.db call.request) :
    (serve store call).2.db = store.db := by
  obtain ⟨clock, request⟩ := call
  cases request <;> try exact hstale.elim
  case recordDisconnect sessionId connectionId candidateAssessmentId reason elapsedSecs =>
    rcases acceptedDisconnect_recordDisconnect store clock sessionId connectionId
        candidateAssessmentId reason elapsedSecs with ⟨_, hpost⟩ | ⟨_, ⟨s, hs, haccepts⟩, _⟩
    · exact hpost
    · have hrow := store.wellFormed.session?_of_mem hs
      rw [acceptsDisconnect_id haccepts] at hrow
      simp only [acceptsDisconnect, Bool.and_eq_true, beq_iff_eq] at haccepts
      exact absurd haccepts.1.2 (hstale s hrow)
  case recordTabSwitch sessionId connectionId ca eventId occurredAt =>
    simp only [serve, handle, respond]
    refine transact_unchanged fun response db' hrun => ?_
    obtain ⟨s, hs, _, ⟨_, _, rfl, _⟩ | ⟨_, _, hsender, _⟩⟩ := recordTabSwitch_cases hrun
    · rfl
    · exact absurd (sendsFrom_iff.mp hsender).2 (hstale s hs)
  case recordProctoringEvent sessionId connectionId ca event =>
    simp only [serve, handle, respond]
    refine transact_unchanged fun response db' hrun => ?_
    obtain ⟨s, policy, hs, _, _, ⟨_, rfl⟩ | ⟨_, violations, hrecorded, _⟩⟩ :=
      recordProctoringEvent_cases (recordProctoringEvent_ok hrun)
    · rfl
    · exact absurd (sendsFrom_iff.mp hrecorded.sender).2 (hstale s hs)

/-- The connections of a run. -/
structure ConnectionLaw (store : Store) (calls : List Call) : Prop where
  /-- An id that a session replaces or clears is never current again, in any session. -/
  retired : ∀ before call middle after, calls = before ++ call :: (middle ++ after) →
    ∀ s ∈ (exec serve store before).db.interviewSessions, ∀ c, s.activeConnectionId = some c →
      (∀ s', (exec serve store (before ++ [call])).db.session? s.id = some s' →
        s'.activeConnectionId ≠ some c) →
      ¬ IsCurrent c (exec serve store (before ++ call :: middle))
  accepted : ∀ c, (trace serve store calls).countP (acceptsConnection c) ≤ 1
  counted : ∀ s ∈ (exec serve store calls).db.interviewSessions,
    s.disconnectCount = (trace serve store calls).countP (acceptsSession s.id)
  stale : ∀ t ∈ trace serve store calls, IsStale t.pre.db t.input.request → t.post.db = t.pre.db
  authorized : ∀ before call after draw sessionToken response, calls = before ++ call :: after →
    call.request = .authorizeInterviewConnection draw sessionToken →
    (serve (exec serve store before) call).1 = .ok (.connection response) →
    ∃ s s', (exec serve store before).db.session? response.sessionId = some s ∧
      (exec serve store (before ++ [call])).db.session? response.sessionId = some s' ∧
      (s'.status = .initializing ∨ s'.status = .inProgress) ∧
      s'.activeConnectionId = some response.connectionId ∧
      (s.status = .inProgress ∨ s.status = .disconnected → ∀ earlier later,
        before = earlier ++ later → ¬ IsCurrent response.connectionId (exec serve store earlier))

theorem current_of_accepts {c : String} (haccepts : acceptsConnection c (.of serve store call)) :
    ∃ s ∈ store.db.interviewSessions, s.activeConnectionId = some c ∧
      ∀ s', (serve store call).2.db.session? s.id = some s' → s'.activeConnectionId ≠ some c := by
  obtain ⟨clock, request⟩ := call
  by_cases hrequest : ∃ sessionId connectionId candidateAssessmentId reason elapsedSecs, request =
      .recordDisconnect sessionId connectionId candidateAssessmentId reason elapsedSecs
  · obtain ⟨sessionId, connectionId, candidateAssessmentId, reason, elapsedSecs, rfl⟩ := hrequest
    rcases acceptedDisconnect_recordDisconnect store clock sessionId connectionId
        candidateAssessmentId reason elapsedSecs with ⟨hnone, _⟩ | ⟨hsome, ⟨s, hs, hmatches⟩, hpost⟩
    · simp [acceptsConnection, hnone] at haccepts
    · have hcurrent : s.activeConnectionId = some connectionId := by
        simp only [acceptsDisconnect, Bool.and_eq_true, beq_iff_eq] at hmatches
        exact hmatches.1.2
      simp only [acceptsConnection, hsome, Option.any_some, beq_iff_eq] at haccepts
      refine ⟨s, hs, haccepts ▸ hcurrent, fun s' hs' => ?_⟩
      have hrow := hpost s.id
      rw [store.wellFormed.session?_of_mem hs, Option.map_some,
        Tables.Update.onRow_of_true hmatches] at hrow
      cases hrow.symm.trans hs'
      simp [disconnected]
  · have hnone : acceptedDisconnect (.of serve store ⟨clock, request⟩) = none :=
      acceptedDisconnect_of_ne fun _ _ _ _ _ heq => hrequest ⟨_, _, _, _, _, heq⟩
    simp [acceptsConnection, hnone] at haccepts

theorem connection_counted (hempty : store.db.interviewSessions = []) {calls : List Call}
    (hs : s ∈ (exec serve store calls).db.interviewSessions) :
    s.disconnectCount = (trace serve store calls).countP (acceptsSession s.id) := by
  rw [← disconnectCount_exec hempty, disconnectCount,
    (exec serve store calls).wellFormed.session?_of_mem hs]
  rfl

section Run

variable {calls : List Call} (hempty : store.db.interviewSessions = [])
  (hfresh : (calls.filterMap connectionDraw).Nodup)

omit [Runtime] in
include hfresh in
theorem draw_ne {before after : List Call} (hsplit : calls = before ++ after) {c : String}
    (hc : c ∈ before.filterMap connectionDraw) {call : Call} (hcall : call ∈ after) :
    connectionDraw call ≠ some c := by
  intro hdraw
  rw [hsplit, List.filterMap_append] at hfresh
  exact (List.nodup_append.mp hfresh).2.2 c hc c (List.mem_filterMap.mpr ⟨call, hcall, hdraw⟩) rfl

include hempty hfresh

theorem connections_of_split {before after : List Call} (hsplit : calls = before ++ after) :
    Connections (before.filterMap connectionDraw) (exec serve store before) := by
  have hstart : Connections [] store := by
    refine ⟨by simp [hempty], ?_, by simp [hempty]⟩
    rintro c ⟨s, hs, _⟩
    simp [hempty] at hs
  rw [hsplit, List.filterMap_append] at hfresh
  simpa using hstart.run (by simpa using (List.nodup_append.mp hfresh).1)

theorem connection_retired {before middle after : List Call} {call : Call} {c : String}
    (hsplit : calls = before ++ call :: (middle ++ after))
    (hs : s ∈ (exec serve store before).db.interviewSessions) (hc : s.activeConnectionId = some c)
    (hgone : ∀ s', (exec serve store (before ++ [call])).db.session? s.id = some s' →
      s'.activeConnectionId ≠ some c) :
    ¬ IsCurrent c (exec serve store (before ++ call :: middle)) := by
  have hbefore := connections_of_split hempty hfresh hsplit
  have hissued := hbefore.issued c ⟨s, hs, hc⟩
  have hnext : ¬ IsCurrent c (exec serve store (before ++ [call])) := by
    rw [exec_snoc] at hgone ⊢
    rintro ⟨s', hs', hc'⟩
    rcases (serve_connection hbefore.idle hs').2 c hc' with
      ⟨r, hr, hid, hcurrent⟩ | ⟨draw, _, hrequest, rfl, _⟩
    · have hsame := hbefore.exclusive s hs r hr c hc hcurrent
      have hrow := (serve (exec serve store before) call).2.wellFormed.session?_of_mem hs'
      rw [← hid, ← hsame] at hrow
      exact hgone s' hrow hc'
    · exact draw_ne hfresh hsplit hissued List.mem_cons_self
        (connectionDraw_of_authorize hrequest)
  have hsplit' : calls = (before ++ [call]) ++ (middle ++ after) := by simp [hsplit]
  rw [List.append_cons before call middle, exec_append]
  refine not_isCurrent_exec (connections_of_split hempty hfresh hsplit').idle ?_ hnext
  intro next hnext
  exact draw_ne hfresh hsplit hissued (by simp [hnext])

theorem connection_accepted (c : String) :
    (trace serve store calls).countP (acceptsConnection c) ≤ 1 := by
  apply countP_trace_le_one
  intro before call after hsplit haccepts t ht
  obtain ⟨middle, next, rest, rfl, rfl⟩ := mem_trace ht
  obtain ⟨s, hs, hc, hgone⟩ := current_of_accepts haccepts
  intro haccepts'
  obtain ⟨s', hs', hc', _⟩ := current_of_accepts haccepts'
  refine connection_retired hempty hfresh hsplit hs hc ?_ ⟨s', ?_, hc'⟩
  · rw [exec_snoc]
    exact hgone
  · rw [List.append_cons before call middle, exec_append]
    exact hs'

theorem connection_authorized {before after : List Call} {call : Call} {draw : Uuid}
    {sessionToken : String} {response : CandidateConnectionContext}
    (hsplit : calls = before ++ call :: after)
    (hrequest : call.request = .authorizeInterviewConnection draw sessionToken)
    (hresponse : (serve (exec serve store before) call).1 = .ok (.connection response)) :
    ∃ s s', (exec serve store before).db.session? response.sessionId = some s ∧
      (exec serve store (before ++ [call])).db.session? response.sessionId = some s' ∧
      (s'.status = .initializing ∨ s'.status = .inProgress) ∧
      s'.activeConnectionId = some response.connectionId ∧
      (s.status = .inProgress ∨ s.status = .disconnected → ∀ earlier later,
        before = earlier ++ later → ¬ IsCurrent response.connectionId (exec serve store earlier)) := by
  have hbefore := connections_of_split hempty hfresh hsplit
  obtain ⟨s, s', hs, hs', hactive, hcurrent, hdrawn⟩ :=
    serve_authorized hbefore.idle hrequest hresponse
  rw [exec_snoc]
  refine ⟨s, s', hs, hs', hactive, hcurrent, ?_⟩
  rintro hstarted earlier later rfl hpast
  have hsplit' : calls = earlier ++ (later ++ call :: after) := by simp [hsplit]
  have hissued := (connections_of_split hempty hfresh hsplit').issued _ hpast
  have hlater : call ∈ later ++ call :: after := by simp
  refine draw_ne hfresh hsplit' hissued hlater ?_
  rw [connectionDraw_of_authorize hrequest, hdrawn hstarted]

end Run

/-- Connection generations: along every run with fresh draws a connection id that is gone never
comes back, and what follows from it. -/
theorem connection_generations (store : Store) (calls : List Call)
    (hempty : store.db.interviewSessions = []) (hfresh : (calls.filterMap connectionDraw).Nodup) :
    ConnectionLaw store calls where
  retired _ _ _ _ hsplit _ hs _ hc hgone :=
    connection_retired hempty hfresh hsplit hs hc hgone
  accepted := connection_accepted hempty hfresh
  counted _ hs := connection_counted hempty hs
  stale t ht hstale := by
    obtain ⟨before, call, after, _, rfl⟩ := mem_trace ht
    exact serve_stale hstale
  authorized _ _ _ _ _ _ hsplit hrequest hresponse :=
    connection_authorized hempty hfresh hsplit hrequest hresponse

/-- An entry, an authorization, a drop, its late repetition, and a reconnection. -/
def dropReplayed : List Call :=
  [⟨⟨0, 0⟩, .enterWithInvitation ⟨10, "session-token"⟩ 5⟩,
    ⟨⟨1, 1⟩, .authorizeInterviewConnection 11 "session-token"⟩,
    ⟨⟨2, 2⟩, .recordDisconnect 10 (Uuid.hex 11) 4 "lost" 1⟩,
    ⟨⟨3, 3⟩, .recordDisconnect 10 (Uuid.hex 11) 4 "lost" 1⟩,
    ⟨⟨4, 4⟩, .authorizeInterviewConnection 12 "session-token"⟩]

omit [Runtime] in
theorem connection_generations_sample : @ConnectionLaw .ascii sampleStore dropReplayed :=
  @connection_generations .ascii sampleStore dropReplayed rfl (by decide)

end IBotCoreApi
