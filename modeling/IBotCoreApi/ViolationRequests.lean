import IBotCoreApi.Connection

namespace IBotCoreApi
open Python Outcomes FirstOccurrences CandidateSessionRepository InterviewSessionRepository

variable {db db' : Database} {clock : Clock}

theorem lockedSession_ok {sessionId : Uuid} {s : InterviewSession}
    (h : lockedSession db sessionId = .ok s) : db.session? sessionId = some s := by
  unfold lockedSession at h
  split at h
  · cases h
    assumption
  · cases h

/-- The session is active and the call carries its current connection. -/
def sendsFrom (connectionId : String) (s : InterviewSession) : Bool :=
  s.isActive && s.activeConnectionId == some connectionId

theorem not_sendsFrom (connectionId : String) (s : InterviewSession) :
    (!s.isActive || s.activeConnectionId != some connectionId) = !sendsFrom connectionId s := by
  simp [sendsFrom, bne]

theorem sendsFrom_iff {connectionId : String} {s : InterviewSession} :
    sendsFrom connectionId s ↔ s.isActive ∧ s.activeConnectionId = some connectionId := by
  simp [sendsFrom]

theorem validateFaceEvent_policy {event : FaceEvent} {policy : ℤ × ℤ}
    (h : validateFaceEvent event = .ok policy) :
    faceProctoringPolicies event.eventType = some policy := by
  unfold validateFaceEvent at h
  split at h
  · cases h
  · rename_i found hfound
    split_ifs at h
    cases h
    exact hfound

section Save

variable {id : Uuid} {e : Enrollment}

theorem saveViolations_wellFormed (h : db.WellFormed) (sessionId candidateAssessmentId : Uuid)
    (violations : List Json) (terminated : Bool) :
    (saveViolations db clock sessionId candidateAssessmentId violations terminated).WellFormed := by
  have hsaved := h.updateSessions_of_token (p := (·.id == sessionId))
    (u := violationsSaved clock violations) fun _ => rfl
  unfold saveViolations
  split
  · have hterminated := hsaved.updateSessions_of_token (p := (·.id == sessionId))
      (u := sessionTerminated) fun _ => rfl
    exact hterminated.updateCandidateAssessments _ _
  · exact hsaved

theorem enrollmentKeys_saveViolations (sessionId candidateAssessmentId : Uuid)
    (violations : List Json) (terminated : Bool) :
    (saveViolations db clock sessionId candidateAssessmentId violations
      terminated).enrollmentKeys = db.enrollmentKeys := by
  unfold saveViolations
  split <;> simp [terminateSession, markCandidateTerminated]

theorem enrollment?_saveViolations {s : InterviewSession} {ca : CandidateAssessment}
    (he : db.enrollment? id = some ⟨ca, some s⟩) (violations : List Json) (terminated : Bool) :
    (saveViolations db clock s.id id violations terminated).enrollment? id =
      some (Enrollment.violated clock violations terminated ca s) := by
  have hsaved := enrollment?_updateSessions_of_eq (p := (·.id == s.id))
    (u := violationsSaved clock violations) he (by simp)
  unfold saveViolations Enrollment.violated
  split
  · have hterminated := enrollment?_updateSessions_of_eq (p := (·.id == s.id))
      (u := sessionTerminated) hsaved (by simp)
    exact enrollment?_updateCandidate_of_eq hterminated _
  · exact hsaved

theorem enrollment?_saveViolations_of_ne (h : db.WellFormed) {s : InterviewSession}
    (he : db.enrollment? id = some e) (hs : s ∈ db.interviewSessions)
    (hother : s.candidateAssessmentId ≠ id) (violations : List Json) (terminated : Bool) :
    (saveViolations db clock s.id s.candidateAssessmentId violations terminated).enrollment? id =
      some e := by
  have hp (r : InterviewSession) (hr : e.session = some r) : (r.id == s.id) = false := by
    simpa using session_id_ne h he hr hs hother
  have hsaved : (db.updateSessions (·.id == s.id) (violationsSaved clock violations)).enrollment? id
      = some e := by
    rw [enrollment?_updateSessions, he, Option.map_some, map_onRow_of_not hp]
  unfold saveViolations
  split
  · refine enrollment?_updateCandidate_of_ne ?_ hother _
    rw [enrollment?_updateSessions, hsaved, Option.map_some, map_onRow_of_not hp]
  · exact hsaved

end Save

def savedSession (clock : Clock) (violations : List Json) (terminated : Bool)
    (s : InterviewSession) : InterviewSession :=
  if terminated then sessionTerminated.set ((violationsSaved clock violations).set s)
  else (violationsSaved clock violations).set s

section Saved

variable {db : Database} {clock : Clock} {violations : List Json} {terminated : Bool}
  {s : InterviewSession}

@[simp] theorem savedSession_violations :
    (savedSession clock violations terminated s).violations = violations := by
  unfold savedSession
  split <;> rfl

@[simp] theorem savedSession_transcript :
    (savedSession clock violations terminated s).transcript = s.transcript := by
  unfold savedSession
  split <;> rfl

theorem savedSession_status :
    (savedSession clock violations terminated s).status =
      if terminated then .terminated else s.status := by
  unfold savedSession
  split <;> rfl

theorem session?_saveViolations (sessionId candidateAssessmentId id : Uuid) :
    (saveViolations db clock sessionId candidateAssessmentId violations terminated).session? id =
      (db.session? id).map fun s =>
        if s.id = sessionId then savedSession clock violations terminated s else s := by
  have honRow (s : InterviewSession) (u : SessionUpdate) :
      u.onRow (·.id == sessionId) s = if s.id = sessionId then u.set s else s := by
    by_cases h : s.id = sessionId
    · rw [Tables.Update.onRow_of_true (by simpa using h), if_pos h]
    · rw [Tables.Update.onRow_of_false (by simpa using h), if_neg h]
  unfold saveViolations savedSession
  split
  · rw [terminateSession, markCandidateTerminated, Database.session?_updateCandidateAssessments,
      Database.session?_updateSessions, Database.session?_updateSessions, Option.map_map]
    congr 1
    funext s
    simp only [Function.comp_apply, honRow]
    split <;> simp_all
  · rw [Database.session?_updateSessions]
    congr 1
    funext s
    exact honRow s _

theorem session?_saveViolations_of_ne {sessionId id : Uuid} (hne : sessionId ≠ id)
    (candidateAssessmentId : Uuid) :
    (saveViolations db clock sessionId candidateAssessmentId violations terminated).session? id =
      db.session? id := by
  rw [session?_saveViolations]
  cases hs : db.session? id with
  | none => rfl
  | some s =>
    have hid : s.id = id := Tables.lookup_key hs
    rw [Option.map_some, if_neg (hid.trans_ne (Ne.symm hne))]

theorem session?_saveViolations_self {id : Uuid} (hs : db.session? id = some s)
    (candidateAssessmentId : Uuid) :
    (saveViolations db clock id candidateAssessmentId violations terminated).session? id =
      some (savedSession clock violations terminated s) := by
  have hid : s.id = id := Tables.lookup_key hs
  rw [session?_saveViolations, hs, Option.map_some, if_pos hid]

theorem candidateAssessment?_saveViolations_terminated {id : Uuid} {ca : CandidateAssessment}
    (hca : db.candidateAssessment? id = some ca) (sessionId : Uuid) :
    (saveViolations db clock sessionId id violations true).candidateAssessment? id =
      some ((candidateTerminated clock).set ca) := by
  have hid : ca.id = id := Database.id_of_candidateAssessment? hca
  rw [saveViolations, if_pos rfl, terminateSession, markCandidateTerminated,
    Database.candidateAssessment?_updateCandidateAssessments,
    Database.candidateAssessment?_updateSessions,
    Database.candidateAssessment?_updateSessions, hca, Option.map_some,
    Tables.Update.onRow_of_true (by simpa using hid)]

end Saved

variable [Runtime]

theorem recordTabSwitch_cases {sessionId : Uuid} {connectionId : String}
    {candidateAssessmentId eventId : Uuid} {occurredAt : String}
    {response : RecordTabSwitchResponse}
    (hrun : recordTabSwitch db clock sessionId connectionId candidateAssessmentId eventId
      occurredAt = .ok (response, db')) :
    ∃ s, db.session? sessionId = some s ∧ s.candidateAssessmentId = candidateAssessmentId ∧
      ((response.recorded = false ∧ response.tabSwitchCount = tabSwitchCount s.violations ∧
          db' = db ∧ (sendsFrom connectionId s = false ∨
            eventId.str ∈ eventIds (s.violations.filter (hasType tabSwitchViolationType)))) ∨
        (response.recorded = true ∧ response.tabSwitchCount = tabSwitchCount s.violations + 1 ∧
          sendsFrom connectionId s ∧
          eventId.str ∉ eventIds (s.violations.filter (hasType tabSwitchViolationType)) ∧
          ∃ violation, tabSwitchViolation (s.violations.filter (hasType tabSwitchViolationType))
              s.transcript (tabSwitchCount s.violations) eventId.str occurredAt = .ok violation ∧
            db' = saveViolations db clock sessionId candidateAssessmentId
              (replaceViolationType s.violations tabSwitchViolationType violation)
              (tabSwitchCount s.violations + 1 ≥ maxAllowedTabSwitches))) := by
  unfold recordTabSwitch at hrun
  obtain ⟨s, hs, hrun⟩ := bind_eq_ok.mp hrun
  refine ⟨s, lockedSession_ok hs, ?_⟩
  by_cases hca : s.candidateAssessmentId = candidateAssessmentId
  · simp only [ne_eq, hca, not_true_eq_false, if_false, not_sendsFrom] at hrun
    refine ⟨hca, ?_⟩
    split_ifs at hrun with hsender hknown
    · cases hrun
      exact .inl ⟨rfl, rfl, rfl, .inl (by simpa using hsender)⟩
    · cases hrun
      exact .inl ⟨rfl, rfl, rfl, .inr hknown⟩
    · obtain ⟨violation, hviolation, hrun⟩ := bind_eq_ok.mp hrun
      cases hrun
      refine .inr ⟨rfl, rfl, by simpa using hsender, hknown, violation, ?_, rfl⟩
      exact ofPython_ok hviolation
  · rw [if_pos hca] at hrun
    cases hrun

/-- What a recorded face event reads and writes. -/
structure RecordedFaceEvent (s : InterviewSession) (clock : Clock) (connectionId : String)
    (event : FaceEvent) (policy : ℤ × ℤ) (response : RecordProctoringEventOutcome)
    (violations : List Json) : Prop where
  sender : sendsFrom connectionId s
  merge : ∃ episodes previous payload violation,
    faceEpisodes (s.violations.filter (hasType event.eventType)) = .ok episodes ∧
    previousDuration (episodes.find? (startsAt event.conditionStartedAt)) = .ok previous ∧
    ¬ (event.eventId.str ∈ eventIds (s.violations.filter (hasType event.eventType)) ∧
      event.observedDurationMs ≤ previous) ∧
    mergeFaceEpisode (episodes.find? (startsAt event.conditionStartedAt)) event
      (Time.isoformat clock.utcNow) = .ok payload ∧
    faceViolation (s.violations.filter (hasType event.eventType)) s.transcript policy event
      connectionId (Time.isoformat clock.utcNow)
      (pushNew (eventIds (s.violations.filter (hasType event.eventType))) event.eventId.str)
      (putEpisode event.conditionStartedAt payload episodes) = .ok violation ∧
    violations = replaceViolationType s.violations event.eventType violation
  terminated : response.terminated = decide (event.observedDurationMs ≥ policy.2)

theorem recordProctoringEvent_cases {sessionId : Uuid} {connectionId : String}
    {candidateAssessmentId : Uuid} {event : FaceEvent} {response : RecordProctoringEventOutcome}
    (hrun : recordProctoringEvent db clock sessionId connectionId candidateAssessmentId event =
      .ok (response, db')) :
    ∃ s policy, db.session? sessionId = some s ∧
      s.candidateAssessmentId = candidateAssessmentId ∧ validateFaceEvent event = .ok policy ∧
      ((response.recorded = false ∧ db' = db) ∨
        (response.recorded = true ∧ ∃ violations,
          RecordedFaceEvent s clock connectionId event policy response violations ∧
          db' = saveViolations db clock sessionId candidateAssessmentId violations
            (event.observedDurationMs ≥ policy.2))) := by
  unfold recordProctoringEvent at hrun
  obtain ⟨s, hs, hrun⟩ := bind_eq_ok.mp hrun
  by_cases hca : s.candidateAssessmentId = candidateAssessmentId
  · simp only [ne_eq, hca, not_true_eq_false, if_false, not_sendsFrom] at hrun
    obtain ⟨policy, hpolicy, hrun⟩ := bind_eq_ok.mp hrun
    refine ⟨s, policy, lockedSession_ok hs, hca, hpolicy, ?_⟩
    split at hrun
    · cases hrun
      exact .inl ⟨rfl, rfl⟩
    · rename_i hsender
      obtain ⟨episodes, hepisodes, hrun⟩ := bind_eq_ok.mp hrun
      obtain ⟨previous, hprevious, hrun⟩ := bind_eq_ok.mp hrun
      split at hrun
      · cases hrun
        exact .inl ⟨rfl, rfl⟩
      · rename_i hknown
        obtain ⟨payload, hpayload, hrun⟩ := bind_eq_ok.mp hrun
        obtain ⟨violation, hviolation, hrun⟩ := bind_eq_ok.mp hrun
        cases hrun
        exact .inr ⟨rfl, _, ⟨by simpa using hsender, ⟨episodes, previous, payload, violation,
          ofPython_ok hepisodes, ofPython_ok hprevious, hknown, ofPython_ok hpayload,
          ofPython_ok hviolation, rfl⟩, rfl⟩, rfl⟩
  · rw [if_pos hca] at hrun
    cases hrun

end IBotCoreApi
