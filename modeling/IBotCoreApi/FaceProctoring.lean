import IBotCoreApi.FaceRecords
import IBotCoreApi.Refinement

namespace IBotCoreApi
open Python Runs Outcomes FirstOccurrences CandidateSessionRepository InterviewSessionRepository
  InternalInterview

def proctoringEvent (sessionId : Uuid) : SessionRequest → Option FaceEvent
  | .recordProctoringEvent sender _ _ event => if sender = sessionId then some event else none
  | _ => none

def proctoringRecorded : SessionResult → Bool
  | .ok (.proctoring outcome) => outcome.recorded
  | _ => false

def acceptedEvent (sessionId : Uuid) (t : Transition Store Call SessionResult) : Option FaceEvent :=
  if proctoringRecorded t.output then proctoringEvent sessionId t.input.request else none

def acceptedEvents (sessionId : Uuid) (history : List (Transition Store Call SessionResult)) :
    List FaceEvent :=
  history.filterMap (acceptedEvent sessionId)

/-- The event is accepted after the events `accepted`: it is valid, it comes from the bound
connection of an active session of its enrollment, and its id or its duration is new. -/
structure AcceptsFaceEvent (accepted : List FaceEvent) (s : InterviewSession)
    (connectionId : String) (candidateAssessmentId : Uuid) (event : FaceEvent) : Prop where
  enrollment : s.candidateAssessmentId = candidateAssessmentId
  valid : ∃ policy, validateFaceEvent event = .ok policy
  sender : sendsFrom connectionId s
  new : ¬ (event.eventId ∈ acceptedIds accepted ∧
    ∃ other ∈ eventsAt accepted event.conditionStartedAt,
      event.observedDurationMs ≤ other.observedDurationMs)

variable [Runtime] {db db' : Database} {clock : Clock} {s s' : InterviewSession} {sessionId : Uuid}
  {connectionId : String} {candidateAssessmentId : Uuid} {event : FaceEvent}
  {accepted : List FaceEvent} {policy : ℤ × ℤ}

theorem previousDuration_ok {current : Option Json.Entries}
    (h : FoundEpisode accepted event.conditionStartedAt current) :
    ∃ previous, previousDuration current = .ok previous ∧
      (event.observedDurationMs ≤ previous ↔
        ∃ other ∈ eventsAt accepted event.conditionStartedAt,
          event.observedDurationMs ≤ other.observedDurationMs) := by
  cases current with
  | none =>
    refine ⟨0, rfl, iff_of_false ?_ ?_⟩
    · have hpositive := event.duration_bounds.1
      omega
    · rintro ⟨other, hother, _⟩
      exact h (mem_acceptedStarts.mpr ⟨other, hother⟩)
  | some episode =>
    obtain ⟨longest, hlongest, hgreatest⟩ := h.duration
    refine ⟨longest, intOrZero_of_int hlongest, ?_, ?_⟩
    · intro hle
      obtain ⟨other, hother, hduration⟩ := hgreatest.1
      exact ⟨other, hother, by rwa [hduration]⟩
    · rintro ⟨other, hother, hle⟩
      exact hle.trans (hgreatest.2 ⟨other, hother, rfl⟩)

/-- Everything a call of `record_proctoring_event` on a stored session can do. -/
inductive ProctoringOutcome (db : Database) (clock : Clock) (s : InterviewSession)
    (connectionId : String) (candidateAssessmentId : Uuid) (event : FaceEvent)
    (accepted : List FaceEvent) (policy : ℤ × ℤ) : SessionResult → Database → Prop
  | ignored {output : SessionResult} (hnot : proctoringRecorded output = false)
      (hwhy : ¬ AcceptsFaceEvent accepted s connectionId candidateAssessmentId event) :
      ProctoringOutcome db clock s connectionId candidateAssessmentId event accepted policy output db
  | recorded {outcome : RecordProctoringEventOutcome} {record : Json}
      (hrecorded : outcome.recorded = true)
      (haccepts : AcceptsFaceEvent accepted s connectionId candidateAssessmentId event)
      (htype : hasType event.eventType record)
      (hrecord : IsFaceRecord policy.2 (accepted ++ [event]) record) :
      ProctoringOutcome db clock s connectionId candidateAssessmentId event accepted policy
        (.ok (.proctoring outcome))
        (saveViolations db clock s.id candidateAssessmentId
          (replaceViolationType s.violations event.eventType record)
          (event.observedDurationMs ≥ policy.2))

omit [Runtime] in
theorem validateOutcome_ok {outcome : RecordProctoringEventOutcome}
    (h : outcome.terminationReason = .null ∨ ∃ reason, outcome.terminationReason = .str reason) :
    validateOutcome outcome = .ok outcome := by
  unfold validateOutcome
  rcases h with h | ⟨reason, h⟩ <;> rw [h]

theorem recordProctoringEvent_of_accepts (clock : Clock) (hs : db.session? sessionId = some s)
    (hpolicy : faceProctoringPolicies event.eventType = some policy)
    (hsummary : Summarizes policy.2 accepted (s.violations.filter (hasType event.eventType)))
    (haccepts : AcceptsFaceEvent accepted s connectionId candidateAssessmentId event) :
    ∃ outcome record, outcome.recorded = true ∧ hasType event.eventType record ∧
      IsFaceRecord policy.2 (accepted ++ [event]) record ∧
      InternalInterview.recordProctoringEvent db clock sessionId connectionId candidateAssessmentId
        event = .ok (outcome, saveViolations db clock sessionId candidateAssessmentId
          (replaceViolationType s.violations event.eventType record)
          (event.observedDurationMs ≥ policy.2)) := by
  obtain ⟨found, hvalid⟩ := haccepts.valid
  cases (validateFaceEvent_policy hvalid).symm.trans hpolicy
  obtain ⟨episodes, hreads⟩ := hsummary.reads s.transcript
  have hcurrent := foundEpisode_find? hreads.episodes event.conditionStartedAt
  obtain ⟨previous, hprevious, hduration⟩ := previousDuration_ok hcurrent
  obtain ⟨payload, hmerge, hpayload⟩ :=
    mergeFaceEpisode_isEpisode hcurrent (Time.isoformat clock.utcNow)
  obtain ⟨record, hviolation, htype, hrecord⟩ := faceViolation_isFaceRecord hreads hpayload
    connectionId (Time.isoformat clock.utcNow)
  have hnew : ¬ (event.eventId.str ∈ eventIds (s.violations.filter (hasType event.eventType)) ∧
      event.observedDurationMs ≤ previous) := by
    rw [hreads.ids, List.mem_map_of_injective Uuid.str_injective, hduration]
    exact haccepts.new
  have hsender : (!s.isActive || s.activeConnectionId != some connectionId) = false := by
    rw [not_sendsFrom, haccepts.sender]
    rfl
  unfold InternalInterview.recordProctoringEvent InterviewSessionRepository.recordProctoringEvent
    lockedSession
  simp only [hs, haccepts.enrollment, ne_eq, not_true_eq_false, if_false, hvalid, hsender,
    hreads.loaded, hprevious, hnew, hmerge, hviolation, ofPython, Except.mapError, bind,
    Except.bind, pure, Except.pure, Bool.false_eq_true]
  rw [validateOutcome_ok (by dsimp only; split_ifs <;> simp)]
  refine ⟨_, record, ?_, htype, hrecord, rfl⟩
  rfl

theorem accepts_of_recordedFaceEvent {outcome : RecordProctoringEventOutcome}
    {violations : List Json} (hvalid : validateFaceEvent event = .ok policy)
    (hca : s.candidateAssessmentId = candidateAssessmentId)
    (hsummary : Summarizes policy.2 accepted (s.violations.filter (hasType event.eventType)))
    (hrecorded : RecordedFaceEvent s clock connectionId event policy outcome violations) :
    AcceptsFaceEvent accepted s connectionId candidateAssessmentId event := by
  refine ⟨hca, ⟨policy, hvalid⟩, hrecorded.sender, ?_⟩
  obtain ⟨episodes, previous, payload, record, hloaded, hprevious, hnew, _⟩ := hrecorded.merge
  obtain ⟨found, hreads⟩ := hsummary.reads s.transcript
  cases hreads.loaded.symm.trans hloaded
  obtain ⟨duration, hduration, hiff⟩ :=
    previousDuration_ok (foundEpisode_find? hreads.episodes event.conditionStartedAt)
  cases hduration.symm.trans hprevious
  rw [hreads.ids, List.mem_map_of_injective Uuid.str_injective, hiff] at hnew
  exact hnew

theorem recordProctoringEvent_outcome (clock : Clock) (connectionId : String)
    (candidateAssessmentId : Uuid) (hs : db.session? sessionId = some s)
    (hpolicy : faceProctoringPolicies event.eventType = some policy)
    (hsummary : Summarizes policy.2 accepted (s.violations.filter (hasType event.eventType))) :
    ProctoringOutcome db clock s connectionId candidateAssessmentId event accepted policy
      (handle db ⟨clock, .recordProctoringEvent sessionId connectionId candidateAssessmentId
        event⟩).1
      (handle db ⟨clock, .recordProctoringEvent sessionId connectionId candidateAssessmentId
        event⟩).2 := by
  have hid : s.id = sessionId := Tables.lookup_key hs
  simp only [handle, respond]
  by_cases haccepts : AcceptsFaceEvent accepted s connectionId candidateAssessmentId event
  · obtain ⟨outcome, record, hrecorded, htype, hrecord, hrun⟩ :=
      recordProctoringEvent_of_accepts clock hs hpolicy hsummary haccepts
    rw [hrun, ← hid]
    exact .recorded hrecorded haccepts htype hrecord
  · cases hrun : InternalInterview.recordProctoringEvent db clock sessionId connectionId
        candidateAssessmentId event with
    | error reason => exact .ignored rfl haccepts
    | ok result =>
      obtain ⟨outcome, db'⟩ := result
      obtain ⟨found, policy', hfound, hca, hvalid, ⟨hnot, rfl⟩ | ⟨_, violations, hrecorded, _⟩⟩ :=
        recordProctoringEvent_cases (recordProctoringEvent_ok hrun)
      · exact .ignored hnot haccepts
      · cases hs.symm.trans hfound
        cases (validateFaceEvent_policy hvalid).symm.trans hpolicy
        exact absurd (accepts_of_recordedFaceEvent hvalid hca hsummary hrecorded) haccepts

namespace ProctoringOutcome

variable {output : SessionResult}

omit [Runtime] in
theorem recorded_iff (h : ProctoringOutcome db clock s connectionId candidateAssessmentId event
      accepted policy output db') :
    proctoringRecorded output ↔
      AcceptsFaceEvent accepted s connectionId candidateAssessmentId event := by
  cases h with
  | ignored hnot hwhy => exact iff_of_false (by simp [hnot]) hwhy
  | recorded hrecorded haccepts => exact iff_of_true hrecorded haccepts

omit [Runtime] in
theorem unchanged (h : ProctoringOutcome db clock s connectionId candidateAssessmentId event
      accepted policy output db') (hnot : proctoringRecorded output = false) : db' = db := by
  cases h with
  | ignored => rfl
  | recorded hrecorded => simp [proctoringRecorded, hrecorded] at hnot

omit [Runtime] in
theorem summarized (h : ProctoringOutcome db clock s connectionId candidateAssessmentId event
      accepted policy output db') (hs : db.session? s.id = some s)
    (hrecorded : proctoringRecorded output) :
    ∃ s', db'.session? s.id = some s' ∧
      Summarizes policy.2 (accepted ++ [event]) (s'.violations.filter (hasType event.eventType)) := by
  cases h with
  | ignored hnot =>
    rw [hnot] at hrecorded
    cases hrecorded
  | recorded _ haccepts htype hrecord =>
    refine ⟨_, session?_saveViolations_self hs candidateAssessmentId, ?_⟩
    rw [savedSession_violations, (replaceViolationType_consolidates htype s.violations).only]
    exact .one (by simp) hrecord

omit [Runtime] in
/-- An accepted call that reaches the termination duration ends both lifecycle rows. -/
theorem terminated (h : ProctoringOutcome db clock s connectionId candidateAssessmentId event
      accepted policy output db') (hwell : db.WellFormed) (hs : db.session? s.id = some s)
    (hrecorded : proctoringRecorded output) (hreached : policy.2 ≤ event.observedDurationMs) :
    ∃ s' ca', db'.session? s.id = some s' ∧ s'.status = .terminated ∧
      db'.candidateAssessment? s'.candidateAssessmentId = some ca' ∧ ca'.status = .terminated := by
  cases h with
  | ignored hnot =>
    rw [hnot] at hrecorded
    cases hrecorded
  | recorded _ haccepts =>
    obtain ⟨ca, hca⟩ := Option.isSome_iff_exists.mp (hwell.enrolled s (Tables.lookup_mem hs))
    rw [haccepts.enrollment] at hca
    have hterminated : decide (event.observedDurationMs ≥ policy.2) = true := by simpa using hreached
    rw [hterminated]
    refine ⟨_, (candidateTerminated clock).set ca,
      session?_saveViolations_self hs candidateAssessmentId, rfl, ?_, rfl⟩
    change Database.candidateAssessment? _ s.candidateAssessmentId = _
    rw [haccepts.enrollment]
    exact candidateAssessment?_saveViolations_terminated hca s.id

end ProctoringOutcome

def ReportsType (eventType : String) (request : SessionRequest) : Prop :=
  ∃ sender connectionId candidateAssessmentId event,
    request = .recordProctoringEvent sender connectionId candidateAssessmentId event ∧
      event.eventType = eventType

variable {store : Store} {eventType : String} {calls : List Call}

theorem serve_proctoring_of_ne {sender : Uuid} (hne : sender ≠ sessionId) (connectionId : String)
    (candidateAssessmentId : Uuid) (event : FaceEvent) :
    (serve store ⟨clock, .recordProctoringEvent sender connectionId candidateAssessmentId
      event⟩).2.db.session? sessionId = store.db.session? sessionId := by
  simp only [serve, handle, respond]
  cases hrun : InternalInterview.recordProctoringEvent store.db clock sender connectionId
      candidateAssessmentId event with
  | error reason => rfl
  | ok result =>
    obtain ⟨outcome, db'⟩ := result
    obtain ⟨found, policy, hfound, hca, hvalid, ⟨_, rfl⟩ | ⟨_, violations, _, rfl⟩⟩ :=
      recordProctoringEvent_cases (recordProctoringEvent_ok hrun)
    · rfl
    · exact session?_saveViolations_of_ne hne candidateAssessmentId

theorem serve_proctoring {call : Call} (hcall : ReportsType eventType call.request)
    (hpolicy : faceProctoringPolicies eventType = some policy)
    (hs : store.db.session? sessionId = some s)
    (hsummary : Summarizes policy.2 accepted (s.violations.filter (hasType eventType))) :
    let t := Transition.of serve store call
    ∃ s', t.post.db.session? sessionId = some s' ∧
      Summarizes policy.2 (accepted ++ (acceptedEvent sessionId t).toList)
        (s'.violations.filter (hasType eventType)) := by
  intro t
  obtain ⟨clock, request⟩ := call
  obtain ⟨sender, connectionId, candidateAssessmentId, event, hrequest, rfl⟩ := hcall
  change request = _ at hrequest
  subst hrequest
  by_cases hsender : sender = sessionId
  · subst hsender
    have houtcome := recordProctoringEvent_outcome clock connectionId candidateAssessmentId
      hs hpolicy hsummary
    have hid : s.id = sender := Tables.lookup_key hs
    have hevent : acceptedEvent sender t =
        if proctoringRecorded t.output then some event else none := by
      simp [acceptedEvent, t, Transition.of, proctoringEvent]
    by_cases hrecorded : proctoringRecorded t.output
    · rw [← hid] at hs
      obtain ⟨s', hs', hsummary'⟩ := houtcome.summarized hs hrecorded
      rw [hevent, if_pos hrecorded]
      exact ⟨s', hid ▸ hs', hsummary'⟩
    · rw [hevent, if_neg hrecorded]
      rw [Bool.not_eq_true] at hrecorded
      refine ⟨s, ?_, by simpa using hsummary⟩
      rw [show t.post.db = store.db from houtcome.unchanged hrecorded, hs]
  · refine ⟨s, (serve_proctoring_of_ne hsender _ _ _).trans hs, ?_⟩
    have hevent : acceptedEvent sessionId t = none := by
      simp [acceptedEvent, t, Transition.of, proctoringEvent, hsender]
    rw [hevent]
    simpa using hsummary

theorem summarizes_run (hpolicy : faceProctoringPolicies eventType = some policy)
    (hs : store.db.session? sessionId = some s)
    (hnone : s.violations.filter (hasType eventType) = [])
    (hcalls : ∀ call ∈ calls, ReportsType eventType call.request) :
    ∃ s', (exec serve store calls).db.session? sessionId = some s' ∧
      Summarizes policy.2 (acceptedEvents sessionId (trace serve store calls))
        (s'.violations.filter (hasType eventType)) := by
  have hkeep (history : List (Transition Store Call SessionResult)) (store : Store) (call : Call)
      (hcall : ReportsType eventType call.request)
      (h : ∃ s', store.db.session? sessionId = some s' ∧
        Summarizes policy.2 (acceptedEvents sessionId history)
          (s'.violations.filter (hasType eventType))) :
      ∃ s', (serve store call).2.db.session? sessionId = some s' ∧
        Summarizes policy.2
          (acceptedEvents sessionId (history ++ [Transition.of serve store call]))
          (s'.violations.filter (hasType eventType)) := by
    obtain ⟨s₁, hs₁, hsummary⟩ := h
    obtain ⟨s₂, hs₂, hnext⟩ := serve_proctoring hcall hpolicy hs₁ hsummary
    refine ⟨s₂, hs₂, ?_⟩
    have hevents : acceptedEvents sessionId (history ++ [Transition.of serve store call]) =
        acceptedEvents sessionId history ++
          (acceptedEvent sessionId (Transition.of serve store call)).toList := by
      rw [acceptedEvents, List.filterMap_append]
      cases hevent : acceptedEvent sessionId (Transition.of serve store call) <;>
        simp [acceptedEvents, hevent]
    rw [hevents]
    exact hnext
  exact history_invariant hkeep hcalls ⟨s, hs, by rw [hnone]; exact .none⟩

/-- The record of one type is the history of the accepted events of a run. -/
structure RecordsHistory (sessionId : Uuid) (eventType : String) (policy : ℤ × ℤ) (store : Store)
    (calls : List Call) : Prop where
  summary : ∃ s, (exec serve store calls).db.session? sessionId = some s ∧
    Summarizes policy.2 (acceptedEvents sessionId (trace serve store calls))
      (s.violations.filter (hasType eventType))
  accepted : ∀ before call after, calls = before ++ call :: after →
    ∀ connectionId candidateAssessmentId event, call.request =
      .recordProctoringEvent sessionId connectionId candidateAssessmentId event →
    ∃ s, (exec serve store before).db.session? sessionId = some s ∧
      (acceptedEvent sessionId (Transition.of serve (exec serve store before) call) = some event ↔
        AcceptsFaceEvent (acceptedEvents sessionId (trace serve store before)) s connectionId
          candidateAssessmentId event)
  terminated : ∀ t ∈ trace serve store calls, ∀ event, acceptedEvent sessionId t = some event →
    policy.2 ≤ event.observedDurationMs →
    ∃ s ca, t.post.db.session? sessionId = some s ∧ s.status = .terminated ∧
      t.post.db.candidateAssessment? s.candidateAssessmentId = some ca ∧ ca.status = .terminated
  repeated : ∀ before first between again after,
    calls = before ++ first :: (between ++ again :: after) → again.request = first.request →
    (acceptedEvent sessionId (Transition.of serve (exec serve store before) first)).isSome →
    let t := Transition.of serve (exec serve store (before ++ first :: between)) again
    proctoringRecorded t.output = false ∧ t.post.db = t.pre.db

omit [Runtime] in
theorem acceptedEvent_of_request {t : Transition Store Call SessionResult} {event : FaceEvent}
    (hrequest : t.input.request =
      .recordProctoringEvent sessionId connectionId candidateAssessmentId event) :
    acceptedEvent sessionId t = if proctoringRecorded t.output then some event else none := by
  simp [acceptedEvent, hrequest, proctoringEvent]

omit [Runtime] in
theorem request_of_acceptedEvent {t : Transition Store Call SessionResult} {event : FaceEvent}
    (h : acceptedEvent sessionId t = some event) :
    proctoringRecorded t.output ∧ ∃ connectionId candidateAssessmentId, t.input.request =
      .recordProctoringEvent sessionId connectionId candidateAssessmentId event := by
  unfold acceptedEvent at h
  split at h
  · rename_i hrecorded
    refine ⟨hrecorded, ?_⟩
    cases hrequest : t.input.request with
    | recordProctoringEvent sender connectionId candidateAssessmentId reported =>
      rw [hrequest, proctoringEvent] at h
      split at h
      · rename_i hsender
        cases h
        exact ⟨connectionId, candidateAssessmentId, by rw [hsender]⟩
      · cases h
    | _ =>
      rw [hrequest] at h
      cases h
  · cases h

/-- The call that a step of a run executed, on the session that the run keeps. -/
theorem proctoring_outcome_of_split {before after : List Call} {call : Call}
    (hpolicy : faceProctoringPolicies eventType = some policy)
    (hs : store.db.session? sessionId = some s)
    (hnone : s.violations.filter (hasType eventType) = [])
    (hcalls : ∀ c ∈ before ++ call :: after, ReportsType eventType c.request)
    (hrequest : call.request =
      .recordProctoringEvent sessionId connectionId candidateAssessmentId event) :
    let t := Transition.of serve (exec serve store before) call
    ∃ s₁, t.pre.db.session? sessionId = some s₁ ∧
      ProctoringOutcome t.pre.db call.clock s₁ connectionId candidateAssessmentId event
        (acceptedEvents sessionId (trace serve store before)) policy t.output t.post.db := by
  intro t
  have hbefore : ∀ c ∈ before, ReportsType eventType c.request := fun c hc =>
    hcalls c (List.mem_append_left _ hc)
  obtain ⟨s₁, hs₁, hsummary⟩ := summarizes_run hpolicy hs hnone hbefore
  refine ⟨s₁, hs₁, ?_⟩
  have htype : event.eventType = eventType := by
    obtain ⟨_, _, _, reported, hreported, htype⟩ := hcalls call (by simp)
    rw [hrequest] at hreported
    cases hreported
    exact htype
  obtain ⟨clock, request⟩ := call
  change request = _ at hrequest
  subst hrequest htype
  exact recordProctoringEvent_outcome _ _ _ hs₁ hpolicy hsummary

/-- The record of a face event type is the history of the accepted events: for every session that
has no record of the type, and every run of `record_proctoring_event` calls of the type. -/
theorem face_record_is_history (store : Store) (calls : List Call) (sessionId : Uuid)
    (eventType : String) (policy : ℤ × ℤ) (s : InterviewSession)
    (hpolicy : faceProctoringPolicies eventType = some policy)
    (hs : store.db.session? sessionId = some s)
    (hnone : s.violations.filter (hasType eventType) = [])
    (hcalls : ∀ call ∈ calls, ReportsType eventType call.request) :
    RecordsHistory sessionId eventType policy store calls := by
  constructor
  · exact summarizes_run hpolicy hs hnone hcalls
  · rintro before call after rfl connectionId candidateAssessmentId event hrequest
    obtain ⟨s₁, hs₁, houtcome⟩ := proctoring_outcome_of_split hpolicy hs hnone hcalls hrequest
    refine ⟨s₁, hs₁, ?_⟩
    rw [acceptedEvent_of_request hrequest, ← houtcome.recorded_iff]
    simp
  · intro t ht event hevent hreached
    obtain ⟨before, call, after, rfl, rfl⟩ := mem_trace ht
    obtain ⟨hrecorded, connectionId, candidateAssessmentId, hrequest⟩ :=
      request_of_acceptedEvent hevent
    obtain ⟨s₁, hs₁, houtcome⟩ := proctoring_outcome_of_split hpolicy hs hnone hcalls hrequest
    have hid : s₁.id = sessionId := Tables.lookup_key hs₁
    rw [← hid] at hs₁ ⊢
    exact houtcome.terminated (exec serve store before).wellFormed hs₁ hrecorded hreached
  · rintro before first between again after rfl hsame haccepted t
    obtain ⟨event, hevent⟩ := Option.isSome_iff_exists.mp haccepted
    obtain ⟨_, connectionId, candidateAssessmentId, hrequest⟩ := request_of_acceptedEvent hevent
    have hsplit : before ++ first :: (between ++ again :: after) =
        (before ++ first :: between) ++ again :: after := by simp
    rw [hsplit] at hcalls
    obtain ⟨s₁, hs₁, houtcome⟩ :=
      proctoring_outcome_of_split hpolicy hs hnone hcalls (hsame.trans hrequest)
    have hmem : event ∈ acceptedEvents sessionId (trace serve store (before ++ first :: between)) := by
      rw [acceptedEvents, trace_append_cons, List.mem_filterMap]
      exact ⟨_, by simp, hevent⟩
    -- the event itself is among the accepted ones
    have hrejected : proctoringRecorded t.output = false := by
      rw [← Bool.not_eq_true, houtcome.recorded_iff]
      intro haccepts
      exact haccepts.new ⟨mem_distinct.mpr (List.mem_map_of_mem hmem), event, ⟨hmem, rfl⟩, le_refl _⟩
    exact ⟨hrejected, houtcome.unchanged hrejected⟩

def sampleFaceEvent : FaceEvent where
  eventId := 30
  eventType := "face_absent"
  conditionStartedAt := "2026-01-01T00:00:00+00:00"
  observedDurationMs := 6000
  sampleCount := 3
  maxFaceCount := 0
  minConfidence := none
  maxConfidence := none
  source := "mediapipe_face_detector"
  detectorVersion := "1"
  modelName := "blaze_face"
  duration_bounds := by decide
  sampleCount_bounds := by decide
  maxFaceCount_bounds := by decide

/-- The event, its repetition, another start, and the first condition until it terminates. -/
def faceEvents : List FaceEvent :=
  [sampleFaceEvent, sampleFaceEvent,
    { sampleFaceEvent with eventId := 31, conditionStartedAt := "2026-01-01T00:01:00+00:00" },
    { sampleFaceEvent with observedDurationMs := 31000, duration_bounds := by decide }]

def faceCalls : List Call :=
  faceEvents.map fun event => ⟨⟨0, 0⟩, .recordProctoringEvent 10 "first-connection" 4 event⟩

omit [Runtime] in
theorem face_record_is_history_sample :
    @RecordsHistory .ascii 10 "face_absent" (5000, 30000) runningStore faceCalls := by
  have htypes : ∀ event ∈ faceEvents, event.eventType = "face_absent" := by decide
  refine @face_record_is_history .ascii runningStore faceCalls 10 "face_absent" (5000, 30000)
    sampleSession rfl rfl rfl ?_
  intro call hcall
  obtain ⟨event, hevent, rfl⟩ := List.mem_map.mp hcall
  exact ⟨10, "first-connection", 4, event, rfl, htypes event hevent⟩

-- the repetition is not accepted, and the longer observation of a known id is
example : (acceptedEvents 10 (trace (@serve .ascii) runningStore faceCalls)).map
    (fun event => (event.eventId, event.observedDurationMs)) =
      [(30, 6000), (31, 6000), (30, 31000)] := by decide

end IBotCoreApi
