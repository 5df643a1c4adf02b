import IBotCoreApi.EntryStep

namespace IBotCoreApi
open Python CandidateSessionRepository InterviewSessionService

variable {db : Database} {clock : Clock}

theorem lockSessionContextByToken_some {sessionToken : String} {context : SessionContext}
    (hlock : lockSessionContextByToken db sessionToken = some context) :
    ∃ s ca lifecycle, Tables.lookup (·.sessionToken) (some sessionToken) db.interviewSessions =
      some s ∧ db.candidateAssessment? s.candidateAssessmentId = some ca ∧
      LifecycleContext.Shows db ca lifecycle ∧ context = sessionContext lifecycle s := by
  simp only [lockSessionContextByToken, Option.bind_eq_bind, Option.bind_eq_some_iff] at hlock
  obtain ⟨s, hs, ca, hca, lifecycle, hlifecycle, hcontext⟩ := hlock
  cases hcontext
  exact ⟨s, ca, lifecycle, hs, hca, lifecycleContext_shows hlifecycle, rfl⟩

/-- A token that is accepted shows an unexpired, open session inside its window. -/
theorem validateActiveToken_none {context : Option SessionContext} {now : Time}
    (hvalid : validateActiveToken context now = none) :
    ∃ c, context = some c ∧ c.sessionTokenExpiresAt.all (· ≤ now) = false ∧
      windowExpired c.toLifecycleContext now = false ∧
      isTerminal c.sessionStatus c.candidateAssessmentStatus = false := by
  unfold validateActiveToken at hvalid
  split at hvalid
  · cases hvalid
  · rename_i c
    split_ifs at hvalid with hexpired hwindow hterminal
    exact ⟨c, rfl, by simpa using hexpired, by simpa using hwindow, by simpa using hterminal⟩

/-- Everything a call of `authorize_interview_connection` can do. -/
inductive ConnectionOutcome (db : Database) (clock : Clock) (draw : Uuid) (sessionToken : String) :
    Except ApiException CandidateConnectionContext → Database → Prop
  | refused {reason : ApiException}
      (hreason : validateActiveToken (lockSessionContextByToken db sessionToken) clock.utcNow =
        some reason) :
      ConnectionOutcome db clock draw sessionToken (.error reason) db
  | timedOut {s : InterviewSession} {ca : CandidateAssessment} (m m' : Json.Entries)
      (hs : s ∈ db.interviewSessions) (htoken : s.sessionToken = some sessionToken)
      (hca : db.candidateAssessment? s.candidateAssessmentId = some ca)
      (hvalid : validateActiveToken (lockSessionContextByToken db sessionToken) clock.utcNow = none)
      (hstatus : s.status = .disconnected)
      (hdeadline : reconnectExpired s.reconnectDeadline clock.utcNow) :
      ConnectionOutcome db clock draw sessionToken (.error .reconnectTimeout)
        (record (record (markCandidateTerminated
            (db.updateSessions (isDisconnected s.id) (timedOut clock)) clock
            s.candidateAssessmentId)
          .sessionDisconnectTimeoutRecorded s.id.str (some ca.id) m)
          .sessionTerminatedReconnectTimeout s.id.str (some ca.id) m')
  | reconnected {s : InterviewSession} {ca : CandidateAssessment}
      {response : CandidateConnectionContext} (m : Json.Entries)
      (hs : s ∈ db.interviewSessions) (htoken : s.sessionToken = some sessionToken)
      (hca : db.candidateAssessment? s.candidateAssessmentId = some ca)
      (hvalid : validateActiveToken (lockSessionContextByToken db sessionToken) clock.utcNow = none)
      (hopen : isTerminal s.status ca.status = false) (hstatus : s.status = .disconnected)
      (hdeadline : reconnectExpired s.reconnectDeadline clock.utcNow = false)
      (hsession : response.sessionId = s.id)
      (hconnection : response.connectionId = Enrollment.nextConnection s draw) :
      ConnectionOutcome db clock draw sessionToken (.ok response)
        (bindActiveConnection (record
            ((db.updateSessions (isDisconnected s.id) (restored clock)).updateCandidateAssessments
              (·.id == s.candidateAssessmentId) (candidateInProgress clock))
            .sessionReconnected s.id.str (some ca.id) m)
          clock s.id (Enrollment.nextConnection s draw))
  | bound {s : InterviewSession} {ca : CandidateAssessment} {response : CandidateConnectionContext}
      (hs : s ∈ db.interviewSessions) (htoken : s.sessionToken = some sessionToken)
      (hca : db.candidateAssessment? s.candidateAssessmentId = some ca)
      (hvalid : validateActiveToken (lockSessionContextByToken db sessionToken) clock.utcNow = none)
      (hopen : isTerminal s.status ca.status = false) (hstatus : s.status ≠ .disconnected)
      (hsession : response.sessionId = s.id)
      (hconnection : response.connectionId = Enrollment.nextConnection s draw) :
      ConnectionOutcome db clock draw sessionToken (.ok response)
        (bindActiveConnection db clock s.id (Enrollment.nextConnection s draw))

theorem authorizeInterviewConnection_outcome (h : db.WellFormed) (clock : Clock) (draw : Uuid)
    (sessionToken : String) :
    ConnectionOutcome db clock draw sessionToken
      (authorizeInterviewConnection db clock draw sessionToken).1
      (authorizeInterviewConnection db clock draw sessionToken).2 := by
  unfold authorizeInterviewConnection authorizeTransaction
  cases hvalid : validateActiveToken (lockSessionContextByToken db sessionToken) clock.utcNow with
  | some reason =>
    simp only [hvalid]
    exact .refused hvalid
  | none =>
    obtain ⟨context, hcontext, _, _, hopen⟩ := validateActiveToken_none hvalid
    obtain ⟨s, ca, lifecycle, hs, hca, hshows, rfl⟩ := lockSessionContextByToken_some hcontext
    have hmem := Tables.lookup_mem hs
    have htoken := Tables.lookup_key hs
    rw [show (sessionContext lifecycle s).candidateAssessmentStatus = ca.status from hshows.status]
      at hopen
    have hid : (sessionContext lifecycle s).candidateAssessmentId = ca.id :=
      hshows.candidateAssessmentId
    have haccepted := hvalid
    rw [hcontext] at haccepted
    simp only [hcontext, haccepted]
    split_ifs with hstatus
    · change s.status = .disconnected at hstatus
      have hfind := h.find?_of_mem hmem (p := isDisconnected s.id)
        (by simp [isDisconnected, hstatus]) (by simp +contextual [isDisconnected])
      simp only [resolveDisconnected, terminateReconnectTimeout, restoreDisconnectedSession]
      rw [show (sessionContext lifecycle s).sessionId = s.id from rfl, hid, hfind]
      simp only [bind, Except.bind, pure, Except.pure]
      split_ifs with hdeadline
      · exact .timedOut _ _ hmem htoken hca hvalid hstatus hdeadline
      · rw [Bool.not_eq_true] at hdeadline
        exact .reconnected _ hmem htoken hca hvalid hopen hstatus hdeadline rfl rfl
    · exact .bound hmem htoken hca hvalid hopen hstatus rfl rfl

theorem authorizeInterviewConnection_wellFormed (h : db.WellFormed) (draw : Uuid)
    (sessionToken : String) :
    (authorizeInterviewConnection db clock draw sessionToken).2.WellFormed := by
  have houtcome := authorizeInterviewConnection_outcome h clock draw sessionToken
  generalize (authorizeInterviewConnection db clock draw sessionToken).1 = result at houtcome
  generalize (authorizeInterviewConnection db clock draw sessionToken).2 = db' at houtcome ⊢
  cases houtcome with
  | refused => exact h
  | @timedOut s ca m m' =>
    have htimedOut := h.updateSessions_of_token (p := isDisconnected s.id) (u := timedOut clock)
      fun _ => rfl
    exact ((htimedOut.updateCandidateAssessments _ _).recordEvent _).recordEvent _
  | @reconnected s ca response m =>
    have hrestored := h.updateSessions_of_token (p := isDisconnected s.id) (u := restored clock)
      fun _ => rfl
    exact Database.WellFormed.updateSessions_of_token
      ((hrestored.updateCandidateAssessments _ _).recordEvent _) fun _ => rfl
  | bound => exact h.updateSessions_of_token fun _ => rfl

theorem authorizeInterviewConnection_enrollmentKeys (h : db.WellFormed) (draw : Uuid)
    (sessionToken : String) :
    (authorizeInterviewConnection db clock draw sessionToken).2.enrollmentKeys =
      db.enrollmentKeys := by
  have houtcome := authorizeInterviewConnection_outcome h clock draw sessionToken
  generalize (authorizeInterviewConnection db clock draw sessionToken).1 = result at houtcome
  generalize (authorizeInterviewConnection db clock draw sessionToken).2 = db' at houtcome ⊢
  cases houtcome with
  | refused => rfl
  | timedOut | reconnected | bound => simp [bindActiveConnection, markCandidateTerminated]

section Update

variable {id : Uuid} {e : Enrollment} {s : InterviewSession} {p : InterviewSession → Bool}
  {u : SessionUpdate}

theorem enrollment?_updateSessions_of_eq {ca : CandidateAssessment}
    (he : db.enrollment? id = some ⟨ca, some s⟩) (hp : p s) :
    (db.updateSessions p u).enrollment? id = some ⟨ca, some (u.set s)⟩ := by
  rw [enrollment?_updateSessions, he, Option.map_some, Option.map_some,
    Tables.Update.onRow_of_true hp]

theorem enrollment?_updateSessions_of_ne (h : db.WellFormed) (he : db.enrollment? id = some e)
    (hs : s ∈ db.interviewSessions) (hother : s.candidateAssessmentId ≠ id)
    (hid : ∀ r, p r → r.id = s.id) : (db.updateSessions p u).enrollment? id = some e := by
  rw [enrollment?_updateSessions, he, Option.map_some, map_onRow_of_not]
  intro r hr
  have hne := session_id_ne h he hr hs hother
  by_contra hp
  exact hne (hid r (by simpa using hp))

theorem enrollment?_updateCandidate_of_eq (he : db.enrollment? id = some e) (v : CandidateUpdate) :
    (db.updateCandidateAssessments (·.id == id) v).enrollment? id =
      some { e with candidate := v.set e.candidate } := by
  rw [enrollment?_updateCandidateAssessments, he, Option.map_some,
    Tables.Update.onRow_of_true (by simp [enrollment_candidate_id he])]

theorem enrollment?_updateCandidate_of_ne {ca : Uuid} (he : db.enrollment? id = some e)
    (hne : ca ≠ id) (v : CandidateUpdate) :
    (db.updateCandidateAssessments (·.id == ca) v).enrollment? id = some e := by
  rw [enrollment?_updateCandidateAssessments, he, Option.map_some,
    Tables.Update.onRow_of_false (by simp [enrollment_candidate_id he, Ne.symm hne])]

end Update

variable {id : Uuid} {e : Enrollment}

theorem isActive_of_open {s : InterviewSession} {status : CandidateStatus}
    (hopen : isTerminal s.status status = false) (hstatus : s.status ≠ .disconnected) :
    s.isActive := by
  cases hs : s.status <;> simp_all [isTerminal, terminalSessionStatuses, InterviewSession.isActive]

theorem authorizeInterviewConnection_step (h : db.WellFormed) (he : db.enrollment? id = some e)
    (draw : Uuid) (sessionToken : String) :
    ∃ e', (authorizeInterviewConnection db clock draw sessionToken).2.enrollment? id = some e' ∧
      e.Step clock (.authorizeInterviewConnection draw sessionToken) e' := by
  have houtcome := authorizeInterviewConnection_outcome h clock draw sessionToken
  generalize (authorizeInterviewConnection db clock draw sessionToken).1 = result at houtcome
  generalize (authorizeInterviewConnection db clock draw sessionToken).2 = db' at houtcome ⊢
  cases houtcome with
  | refused => exact ⟨e, he, .unchanged _ _⟩
  | @timedOut s ca m m' hs htoken hca hvalid hstatus hdeadline =>
    by_cases hid : s.candidateAssessmentId = id
    · subst hid
      obtain rfl := enrollment_eq_of_mem h he hs hca
      have htimedOut := enrollment?_updateSessions_of_eq (p := isDisconnected s.id)
        (u := timedOut clock) he (by simp [isDisconnected, hstatus])
      refine ⟨_, ?_, .timedOut htoken hstatus hdeadline⟩
      exact enrollment?_updateCandidate_of_eq htimedOut _
    · have htimedOut := enrollment?_updateSessions_of_ne (p := isDisconnected s.id)
        (u := timedOut clock) h he hs hid (by simp +contextual [isDisconnected])
      refine ⟨e, ?_, .unchanged _ _⟩
      rw [enrollment?_record, enrollment?_record]
      exact enrollment?_updateCandidate_of_ne htimedOut hid _
  | @reconnected s ca response m hs htoken hca hvalid hopen hstatus hdeadline =>
    have hactive : ((restored clock).set s).isActive := rfl
    by_cases hid : s.candidateAssessmentId = id
    · subst hid
      obtain rfl := enrollment_eq_of_mem h he hs hca
      have hrestored := enrollment?_updateSessions_of_eq (p := isDisconnected s.id)
        (u := restored clock) he (by simp [isDisconnected, hstatus])
      have hcandidate := enrollment?_updateCandidate_of_eq hrestored (candidateInProgress clock)
      refine ⟨_, ?_, .reconnected htoken hstatus hopen hdeadline⟩
      exact enrollment?_updateSessions_of_eq hcandidate (by simp [hactive])
    · have hrestored := enrollment?_updateSessions_of_ne (p := isDisconnected s.id)
        (u := restored clock) h he hs hid (by simp +contextual [isDisconnected])
      have hcandidate := enrollment?_updateCandidate_of_ne hrestored hid (candidateInProgress clock)
      refine ⟨e, ?_, .unchanged _ _⟩
      rw [bindActiveConnection, enrollment?_updateSessions, enrollment?_record, hcandidate,
        Option.map_some, map_onRow_of_not]
      intro r hr
      simp [session_id_ne h he hr hs hid]
  | @bound s ca response hs htoken hca hvalid hopen hstatus =>
    by_cases hid : s.candidateAssessmentId = id
    · subst hid
      obtain rfl := enrollment_eq_of_mem h he hs hca
      have hactive := isActive_of_open hopen hstatus
      exact ⟨_, enrollment?_updateSessions_of_eq he (by simp [hactive]), .bound htoken hactive⟩
    · exact ⟨e, enrollment?_updateSessions_of_ne h he hs hid (by simp +contextual), .unchanged _ _⟩

/-- `record_disconnect` either ignores the call or matches one active session. -/
theorem recordDisconnect_cases {sessionId : Uuid} {connectionId : String}
    {candidateAssessmentId : Uuid} {reason : String} {elapsedSecs : ℤ}
    {outcome : Option InterviewSession} {db' : Database}
    (hrun : InterviewSessionService.recordDisconnect db clock sessionId connectionId
      candidateAssessmentId reason elapsedSecs = (outcome, db')) :
    let u := disconnected clock (clock.utcNow + reconnectWindow) elapsedSecs
    (outcome = none ∧ db' = db ∧
      ∀ s ∈ db.interviewSessions, acceptsDisconnect sessionId connectionId s = false) ∨
    ∃ s ∈ db.interviewSessions, ∃ eventName m, acceptsDisconnect sessionId connectionId s ∧
      outcome = some (u.set s) ∧
      db' = record (if (u.set s).status = .terminated then
          markCandidateTerminated
            (db.updateSessions (acceptsDisconnect sessionId connectionId) u) clock
            s.candidateAssessmentId
        else db.updateSessions (acceptsDisconnect sessionId connectionId) u)
        eventName sessionId.str (some candidateAssessmentId) m := by
  intro u
  unfold InterviewSessionService.recordDisconnect CandidateSessionRepository.recordDisconnect at hrun
  cases hfind : db.interviewSessions.find? (acceptsDisconnect sessionId connectionId) with
  | none =>
    rw [hfind] at hrun
    cases hrun
    exact .inl ⟨rfl, rfl, by simpa using hfind⟩
  | some s =>
    rw [hfind] at hrun
    refine .inr ⟨s, List.mem_of_find?_eq_some hfind, ?_⟩
    simp only at hrun
    split_ifs at hrun with hterminated
    · cases hrun
      exact ⟨_, _, List.find?_some hfind, rfl, by rw [if_pos hterminated]⟩
    · cases hrun
      exact ⟨_, _, List.find?_some hfind, rfl, by rw [if_neg hterminated]⟩

theorem acceptsDisconnect_id {sessionId : Uuid} {connectionId : String} {s : InterviewSession}
    (h : acceptsDisconnect sessionId connectionId s) : s.id = sessionId := by
  simp only [acceptsDisconnect, Bool.and_eq_true, beq_iff_eq] at h
  exact h.1.1

theorem acceptsDisconnect_isActive {sessionId : Uuid} {connectionId : String}
    {s : InterviewSession} (h : acceptsDisconnect sessionId connectionId s) : s.isActive := by
  simp only [acceptsDisconnect, Bool.and_eq_true] at h
  exact h.2

theorem recordDisconnect_wellFormed (h : db.WellFormed) (sessionId : Uuid) (connectionId : String)
    (candidateAssessmentId : Uuid) (reason : String) (elapsedSecs : ℤ) :
    (InterviewSessionService.recordDisconnect db clock sessionId connectionId
      candidateAssessmentId reason elapsedSecs).2.WellFormed := by
  rcases recordDisconnect_cases (Prod.eta _).symm with ⟨_, heq, _⟩ | ⟨s, hs, eventName, m, _, _, heq⟩
  · rw [heq]
    exact h
  · rw [heq]
    have hupdated := h.updateSessions_of_token (p := acceptsDisconnect sessionId connectionId)
      (u := disconnected clock (clock.utcNow + reconnectWindow) elapsedSecs) fun _ => rfl
    apply Database.WellFormed.recordEvent
    split
    · exact hupdated.updateCandidateAssessments _ _
    · exact hupdated

theorem recordDisconnect_enrollmentKeys (sessionId : Uuid) (connectionId : String)
    (candidateAssessmentId : Uuid) (reason : String) (elapsedSecs : ℤ) :
    (InterviewSessionService.recordDisconnect db clock sessionId connectionId candidateAssessmentId
      reason elapsedSecs).2.enrollmentKeys = db.enrollmentKeys := by
  generalize hrun : InterviewSessionService.recordDisconnect db clock sessionId connectionId
    candidateAssessmentId reason elapsedSecs = result
  obtain ⟨outcome, db'⟩ := result
  rcases recordDisconnect_cases hrun with ⟨_, rfl, _⟩ | ⟨s, _, eventName, m, _, _, rfl⟩
  · rfl
  · rw [enrollmentKeys_record]
    split <;> simp [markCandidateTerminated]

theorem recordDisconnect_step (h : db.WellFormed) (he : db.enrollment? id = some e)
    (sessionId : Uuid) (connectionId : String) (candidateAssessmentId : Uuid) (reason : String)
    (elapsedSecs : ℤ) :
    ∃ e', (InterviewSessionService.recordDisconnect db clock sessionId connectionId
        candidateAssessmentId reason elapsedSecs).2.enrollment? id = some e' ∧
      e.Step clock (.recordDisconnect sessionId connectionId candidateAssessmentId reason
        elapsedSecs) e' := by
  rcases recordDisconnect_cases (Prod.eta _).symm with
    ⟨_, heq, _⟩ | ⟨s, hs, eventName, m, haccepts, _, heq⟩
  · rw [heq]
    exact ⟨e, he, .unchanged _ _⟩
  · rw [heq, enrollment?_record]
    by_cases hid : s.candidateAssessmentId = id
    · subst hid
      obtain ⟨ca, hca⟩ := Option.isSome_iff_exists.mp (h.enrolled s hs)
      obtain rfl := enrollment_eq_of_mem h he hs hca
      have hdropped := enrollment?_updateSessions_of_eq
        (u := disconnected clock (clock.utcNow + reconnectWindow) elapsedSecs) he haccepts
      refine ⟨_, ?_, .disconnected haccepts⟩
      unfold Enrollment.dropped
      split
      · exact enrollment?_updateCandidate_of_eq hdropped _
      · exact hdropped
    · have hdropped := enrollment?_updateSessions_of_ne (p := acceptsDisconnect sessionId connectionId)
        (u := disconnected clock (clock.utcNow + reconnectWindow) elapsedSecs) h he hs hid
        fun r hr => (acceptsDisconnect_id hr).trans (acceptsDisconnect_id haccepts).symm
      refine ⟨e, ?_, .unchanged _ _⟩
      split
      · exact enrollment?_updateCandidate_of_ne hdropped hid _
      · exact hdropped

end IBotCoreApi
