import IBotCoreApi.FaceEpisodes

namespace IBotCoreApi
open Python Runs Outcomes FirstOccurrences KeyedLists OptionalBounds CandidateSessionRepository
  InterviewSessionRepository InternalInterview

/-- The episode satisfies the rules of its event type, except for the order of its confidences. -/
structure KeepsEventRules (eventType : String) (minimumDurationMs : ℤ) (episode : Json.Entries) :
    Prop where
  duration : ∃ v, Json.get episode "max_observed_duration_ms" = .int v ∧ minimumDurationMs ≤ v
  faces : ∃ n, Json.get episode "max_face_count" = .int n ∧
    (eventType = "face_absent" → n = 0) ∧ (eventType = "multiple_faces" → 2 ≤ n)
  ids : ∃ ids : List String, Json.get episode "event_ids" = .list (ids.map .str) ∧
    ids ≠ [] ∧ ids.Nodup
  confidences : IsConfidence (Json.get episode "min_confidence") ∧
    IsConfidence (Json.get episode "max_confidence")

/-- `min_confidence <= max_confidence` whenever both are present. -/
def ConfidencesOrdered (episode : Json.Entries) : Prop :=
  ∀ low high : ℚ, Json.get episode "min_confidence" = .float low →
    Json.get episode "max_confidence" = .float high → low ≤ high

def EveryEpisode (holds : String → ℤ × ℤ → Json.Entries → Prop) (sessionId : Uuid) (store : Store) :
    Prop :=
  ∀ s, store.db.session? sessionId = some s → ∀ eventType policy,
    faceProctoringPolicies eventType = some policy →
      ∀ episode ∈ storedEpisodes (s.violations.filter (hasType eventType)),
        holds eventType policy episode

section Merge

variable [Runtime] {event : FaceEvent} {policy : ℤ × ℤ} {accepted : List FaceEvent}
  {start : String} {episode : Json.Entries}

omit [Runtime] in
theorem validateFaceEvent_ok (h : validateFaceEvent event = .ok policy) :
    policy.1 ≤ event.observedDurationMs ∧
      (event.eventType = "face_absent" → event.maxFaceCount = 0) ∧
      (event.eventType = "multiple_faces" → 2 ≤ event.maxFaceCount) ∧
      Ordered event.minConfidence event.maxConfidence := by
  unfold validateFaceEvent at h
  rw [validateFaceEvent_policy h] at h
  dsimp only at h
  split_ifs at h with hduration hcamera habsent hseveral hinverted
  refine ⟨by omega, by tauto, fun htype => ?_, fun low high hlow hhigh => ?_⟩
  · by_contra hless
    exact hseveral ⟨htype, by omega⟩
  · simpa [confidenceInverted, hlow, hhigh] using hinverted

omit [Runtime] in
theorem ExactEpisode.keepsEventRules {eventType : String}
    (hvalid : ∀ event ∈ accepted, event.eventType = eventType ∧ validateFaceEvent event = .ok policy)
    (hsome : start ∈ acceptedStarts accepted) (h : ExactEpisode accepted start episode) :
    KeepsEventRules eventType policy.1 episode := by
  obtain ⟨first, hfirst⟩ := mem_acceptedStarts.mp hsome
  constructor
  · obtain ⟨v, hv, hgreatest⟩ := h.duration
    have hle : first.observedDurationMs ≤ v := hgreatest.2 ⟨first, hfirst, rfl⟩
    exact ⟨v, hv, (validateFaceEvent_ok (hvalid first hfirst.1).2).1.trans hle⟩
  · obtain ⟨n, hn, ⟨crowd, hcrowd, rfl⟩, _⟩ := h.faces
    obtain ⟨htype, hok⟩ := hvalid crowd hcrowd.1
    obtain ⟨_, habsent, hseveral, _⟩ := validateFaceEvent_ok hok
    exact ⟨crowd.maxFaceCount, hn, htype ▸ habsent, htype ▸ hseveral⟩
  · refine ⟨(acceptedIds (acceptedAt accepted start)).map Uuid.str, ?_, ?_, ?_⟩
    · rw [h.ids, List.map_map]
      rfl
    · have hmem : first.eventId ∈ acceptedIds (acceptedAt accepted start) :=
        mem_distinct.mpr (List.mem_map_of_mem (mem_acceptedAt.mpr hfirst))
      exact List.ne_nil_of_mem (List.mem_map_of_mem hmem)
    · exact acceptedIds_isIdList.nodup
  · exact ⟨h.minConfidence, h.maxConfidence⟩

omit [Runtime] in
theorem FaceHistory.keepsEventRules {eventType : String} {existing : List Json}
    (h : FaceHistory eventType policy accepted existing) (hepisode : episode ∈ storedEpisodes existing) :
    KeepsEventRules eventType policy.1 episode := by
  obtain ⟨start, hstart, hexact⟩ := forall₂_mem_right h.episodes hepisode
  exact hexact.keepsEventRules h.valid hstart

theorem mergeFaceEpisode_confidences {current : Option Json.Entries} {recordedAt : String}
    {payload : Json.Entries} {lower upper : Option ℚ}
    (hlower : Json.get (current.getD []) "min_confidence" = optionalFloat lower)
    (hupper : Json.get (current.getD []) "max_confidence" = optionalFloat upper)
    (h : mergeFaceEpisode current event recordedAt = .ok payload) :
    Json.get payload "min_confidence" = optionalFloat (combine min lower event.minConfidence) ∧
      Json.get payload "max_confidence" =
        optionalFloat (combine max upper event.maxConfidence) := by
  obtain ⟨lowest, hlowest, h⟩ := bind_eq_ok.mp h
  obtain ⟨highest, hhighest, h⟩ := bind_eq_ok.mp h
  rw [hlower, combineConfidence_eq] at hlowest
  rw [hupper, combineConfidence_eq] at hhighest
  cases hlowest
  cases hhighest
  obtain ⟨duration, _, h⟩ := bind_eq_ok.mp h
  obtain ⟨samples, _, h⟩ := bind_eq_ok.mp h
  obtain ⟨faces, _, h⟩ := bind_eq_ok.mp h
  cases h
  exact ⟨rfl, rfl⟩

omit [Runtime] in
theorem optionalFloat_eq_float {confidence : Option ℚ} {q : ℚ} :
    optionalFloat confidence = .float q ↔ confidence = some q := by
  cases confidence <;> simp [optionalFloat]

omit [Runtime] in
theorem optionalFloat_injective : Function.Injective optionalFloat := by
  rintro (_ | low) (_ | high) h <;> simp_all [optionalFloat]

omit [Runtime] in
theorem confidencesOrdered_iff {lower upper : Option ℚ}
    (hlower : Json.get episode "min_confidence" = optionalFloat lower)
    (hupper : Json.get episode "max_confidence" = optionalFloat upper) :
    ConfidencesOrdered episode ↔ Ordered lower upper := by
  simp only [ConfidencesOrdered, Ordered, hlower, hupper, optionalFloat_eq_float]

/-- The event reports one bound only to an episode that has the other one only, and the two are
the wrong way round. -/
def CrossesEpisode (event : FaceEvent) (episode : Json.Entries) : Prop :=
  ∃ lower upper, Json.get episode "min_confidence" = optionalFloat lower ∧
    Json.get episode "max_confidence" = optionalFloat upper ∧
    Crosses lower upper event.minConfidence event.maxConfidence

/-- A merge into an ordered episode leaves it ordered unless the event crosses it. -/
theorem mergeFaceEpisode_ordered_iff {recordedAt : String} {payload : Json.Entries}
    (hexact : ExactEpisode accepted start episode) (hordered : ConfidencesOrdered episode)
    (hvalid : validateFaceEvent event = .ok policy)
    (h : mergeFaceEpisode (some episode) event recordedAt = .ok payload) :
    ConfidencesOrdered payload ↔ ¬ CrossesEpisode event episode := by
  obtain ⟨lower, hlower, _⟩ := hexact.lowest
  obtain ⟨upper, hupper, _⟩ := hexact.highest
  have hcurrent : Json.get ((some episode).getD []) "min_confidence" = optionalFloat lower := hlower
  obtain ⟨hlow, hhigh⟩ := mergeFaceEpisode_confidences hcurrent hupper h
  have hcrosses : CrossesEpisode event episode ↔
      Crosses lower upper event.minConfidence event.maxConfidence := by
    refine ⟨?_, fun hcrosses => ⟨lower, upper, hlower, hupper, hcrosses⟩⟩
    rintro ⟨lower', upper', hlower', hupper', hcrosses⟩
    rwa [optionalFloat_injective (hlower.symm.trans hlower'),
      optionalFloat_injective (hupper.symm.trans hupper')]
  rw [confidencesOrdered_iff hlow hhigh, hcrosses]
  exact ordered_combine_iff ((confidencesOrdered_iff hlower hupper).mp hordered)
    (validateFaceEvent_ok hvalid).2.2.2

theorem mergeFaceEpisode_none_ordered {recordedAt : String} {payload : Json.Entries}
    (hvalid : validateFaceEvent event = .ok policy)
    (h : mergeFaceEpisode none event recordedAt = .ok payload) : ConfidencesOrdered payload := by
  have hnone (key : String) : Json.get ((none : Option Json.Entries).getD []) key =
      optionalFloat none := rfl
  obtain ⟨hlow, hhigh⟩ := mergeFaceEpisode_confidences (hnone _) (hnone _) h
  exact (confidencesOrdered_iff hlow hhigh).mpr (validateFaceEvent_ok hvalid).2.2.2

end Merge

section Run

variable [Runtime] {store : Store} {calls : List Call} {sessionId : Uuid} {s : InterviewSession}
  {connectionId : String} {candidateAssessmentId : Uuid} {event : FaceEvent}
  {history : List (Transition Store Call SessionResult)}

def episodeOf (s : InterviewSession) (event : FaceEvent) : Option Json.Entries :=
  (storedEpisodes (s.violations.filter (hasType event.eventType))).find?
    (startsAt event.conditionStartedAt)

/-- The session takes the event: it is valid, it comes from the bound connection of the active
session, and its id or its duration is new to the stored records. -/
structure TakesFaceEvent (s : InterviewSession) (connectionId : String)
    (candidateAssessmentId : Uuid) (event : FaceEvent) : Prop where
  enrollment : s.candidateAssessmentId = candidateAssessmentId
  valid : ∃ policy, validateFaceEvent event = .ok policy
  sender : sendsFrom connectionId s
  new : ¬ (event.eventId.str ∈ knownIds event.eventType s.violations ∧
    ∃ previous, previousDuration (episodeOf s event) = .ok previous ∧
      event.observedDurationMs ≤ previous)

/-- The call reports an event that the session takes and that crosses its stored episode. -/
def CrossesStored (sessionId : Uuid) (store : Store) (call : Call) : Prop :=
  ∃ s connectionId candidateAssessmentId event, store.db.session? sessionId = some s ∧
    call.request = .recordProctoringEvent sessionId connectionId candidateAssessmentId event ∧
    TakesFaceEvent s connectionId candidateAssessmentId event ∧
    ∃ episode, episodeOf s event = some episode ∧ CrossesEpisode event episode

theorem takes_of_recorded {accepted : List FaceEvent} {policy : ℤ × ℤ} {clock : Clock}
    {response : RecordProctoringEventOutcome} {violations : List Json}
    (h : FaceHistory event.eventType policy accepted
      (s.violations.filter (hasType event.eventType)))
    (hca : s.candidateAssessmentId = candidateAssessmentId)
    (hvalid : validateFaceEvent event = .ok policy)
    (hrecorded : RecordedFaceEvent s clock connectionId event policy response violations) :
    TakesFaceEvent s connectionId candidateAssessmentId event := by
  obtain ⟨episodes, previous, _, _, hloaded, hprevious, hnew, _⟩ := hrecorded.merge
  cases h.loads.symm.trans hloaded
  refine ⟨hca, ⟨policy, hvalid⟩, hrecorded.sender, ?_⟩
  rintro ⟨hknown, longest, hlongest, hle⟩
  cases hprevious.symm.trans hlongest
  exact hnew ⟨hknown, hle⟩

theorem acceptedEvent_of_takes (clock : Clock) {policy : ℤ × ℤ}
    (hpolicy : faceProctoringPolicies event.eventType = some policy)
    (h : TypeHistory sessionId event.eventType policy history store)
    (hs : store.db.session? sessionId = some s)
    (htakes : TakesFaceEvent s connectionId candidateAssessmentId event) :
    acceptedEvent sessionId (Transition.of serve store
      ⟨clock, .recordProctoringEvent sessionId connectionId candidateAssessmentId event⟩) =
        some event := by
  obtain ⟨found, hfound, htype⟩ := h.stored
  cases hs.symm.trans hfound
  have haccepts : AcceptsFaceEvent (acceptedOf sessionId event.eventType history) s connectionId
      candidateAssessmentId event := by
    refine ⟨htakes.enrollment, htakes.valid, htakes.sender, ?_⟩
    obtain ⟨previous, hprevious, hiff⟩ := previousDuration_ok
      (foundExact_find? htype.episodes event.conditionStartedAt).found
    obtain ⟨_, hreads⟩ := htype.summary.reads s.transcript
    rintro ⟨hknown, hother⟩
    refine htakes.new ⟨?_, previous, hprevious, hiff.mpr hother⟩
    rw [knownIds, hreads.ids]
    exact List.mem_map_of_mem hknown
  have houtcome := recordProctoringEvent_outcome clock connectionId candidateAssessmentId hs hpolicy
    htype.summary
  exact (acceptedEvent_of_request rfl).trans (if_pos (houtcome.recorded_iff.mpr haccepts))

omit [Runtime] in
theorem everyEpisode_congr {holds : String → ℤ × ℤ → Json.Entries → Prop} {store store' : Store}
    (h : store'.db.session? sessionId = store.db.session? sessionId) :
    EveryEpisode holds sessionId store' ↔ EveryEpisode holds sessionId store := by
  rw [EveryEpisode, EveryEpisode, h]

/-- Where the episodes of the other types and starts are ordered, a recorded event leaves all
episodes ordered exactly when it leaves the merged one ordered. -/
theorem ordered_recorded_iff {store' : Store} {policy : ℤ × ℤ} {accepted : List FaceEvent}
    {clock : Clock} {response : RecordProctoringEventOutcome} {violations : List Json}
    {terminated : Bool} (h : FaceHistory event.eventType policy accepted
      (s.violations.filter (hasType event.eventType)))
    (hrecorded : RecordedFaceEvent s clock connectionId event policy response violations)
    (hvalid : validateFaceEvent event = .ok policy)
    (hs : store.db.session? sessionId = some s)
    (hs' : store'.db.session? sessionId = some (savedSession clock violations terminated s))
    (hordered : EveryEpisode (fun _ _ => ConfidencesOrdered) sessionId store) :
    EveryEpisode (fun _ _ => ConfidencesOrdered) sessionId store' ↔
      ∀ episode, episodeOf s event = some episode → ¬ CrossesEpisode event episode := by
  have hpolicy := validateFaceEvent_policy hvalid
  obtain ⟨payload, record, hmerge, _, rfl, htype, _, hstored⟩ := h.merges hrecorded
  have honly := (replaceViolationType_consolidates htype s.violations).only
  -- a put replaces one episode of one record, so only the merged episode can break the order
  have hpayload : EveryEpisode (fun _ _ => ConfidencesOrdered) sessionId store' ↔
      ConfidencesOrdered payload := by
    constructor
    · intro hevery
      refine hevery _ hs' event.eventType policy hpolicy payload ?_
      rw [savedSession_violations, honly, hstored]
      exact self_mem_put _ payload _
    · rintro hmerged s' hfound eventType other hother episode hepisode
      cases hs'.symm.trans hfound
      rw [savedSession_violations] at hepisode
      by_cases heq : eventType = event.eventType
      · subst heq
        rw [honly, hstored] at hepisode
        rcases mem_of_mem_put hepisode with rfl | hold
        · exact hmerged
        · exact hordered s hs _ other hother episode hold
      · rw [filter_replaceViolationType_of_ne heq htype] at hepisode
        exact hordered s hs eventType other hother episode hepisode
  rw [hpayload]
  change mergeFaceEpisode (episodeOf s event) event _ = _ at hmerge
  have hfound : FoundExact accepted event.conditionStartedAt (episodeOf s event) :=
    foundExact_find? h.episodes _
  cases hepisode : episodeOf s event with
  | none =>
    rw [hepisode] at hmerge
    exact iff_of_true (mergeFaceEpisode_none_ordered hvalid hmerge) (by simp)
  | some episode =>
    rw [hepisode] at hmerge hfound
    have hmem : episode ∈ storedEpisodes (s.violations.filter (hasType event.eventType)) :=
      List.mem_of_find?_eq_some hepisode
    rw [mergeFaceEpisode_ordered_iff hfound (hordered s hs _ policy hpolicy episode hmem) hvalid
      hmerge]
    simp

/-- From ordered episodes, a call leaves all episodes ordered exactly when it does not cross one. -/
theorem ordered_step_iff {call : Call} (hs : store.db.session? sessionId = some s)
    (h : ∀ eventType policy, faceProctoringPolicies eventType = some policy →
      TypeHistory sessionId eventType policy history store)
    (hcall : ReportsFaceEvent call.request)
    (hordered : EveryEpisode (fun _ _ => ConfidencesOrdered) sessionId store) :
    EveryEpisode (fun _ _ => ConfidencesOrdered) sessionId (serve store call).2 ↔
      ¬ CrossesStored sessionId store call := by
  obtain ⟨clock, request⟩ := call
  obtain ⟨sender, connectionId, candidateAssessmentId, event, hrequest⟩ := hcall
  change request = _ at hrequest
  subst hrequest
  by_cases hsender : sender = sessionId
  · subst hsender
    -- an event that is not recorded leaves the row, and crosses nothing
    obtain ⟨hnone, hdb⟩ | ⟨_, policy, response, violations, hca, hvalid, hrecorded, hs'⟩ :=
      serve_recordProctoringEvent clock connectionId candidateAssessmentId event hs
    · refine iff_of_true ((everyEpisode_congr (congrArg (·.session? sender) hdb)).mpr hordered) ?_
      rintro ⟨s', connectionId', ca', event', hs', hrequest, htakes, _⟩
      cases hrequest
      obtain ⟨policy, hvalid⟩ := htakes.valid
      have hpolicy := validateFaceEvent_policy hvalid
      have hsome := acceptedEvent_of_takes clock hpolicy (h _ _ hpolicy) hs' htakes
      rw [hnone] at hsome
      cases hsome
    · obtain ⟨found, hfound, htype⟩ := (h _ _ (validateFaceEvent_policy hvalid)).stored
      cases hs.symm.trans hfound
      refine (ordered_recorded_iff htype hrecorded hvalid hs hs' hordered).trans ?_
      constructor
      · rintro hkeeps ⟨s', connectionId', ca', event', hfound, hrequest, _, episode, hepisode, hcross⟩
        cases hrequest
        cases hs.symm.trans hfound
        exact hkeeps episode hepisode hcross
      · intro hkeeps episode hepisode hcross
        exact hkeeps ⟨s, connectionId, candidateAssessmentId, event, hs, rfl,
          takes_of_recorded htype hca hvalid hrecorded, episode, hepisode, hcross⟩
  · have hsame : (serve store ⟨clock, .recordProctoringEvent sender connectionId
        candidateAssessmentId event⟩).2.db.session? sessionId = store.db.session? sessionId :=
      serve_proctoring_of_ne hsender connectionId candidateAssessmentId event
    refine iff_of_true ((everyEpisode_congr hsame).mpr hordered) ?_
    rintro ⟨s', connectionId', ca', event', hfound, hrequest, _⟩
    cases hrequest
    exact hsender rfl

/-- The rules hold in every stored episode of every state that a run reaches, except for the order
of the confidences, which holds in all of them exactly when no call crosses a stored episode. -/
theorem episodes_keep_rules_iff (store : Store) (calls : List Call) (sessionId : Uuid)
    (s : InterviewSession) (hs : store.db.session? sessionId = some s) (hnone : NoFaceRecords s)
    (hcalls : ∀ call ∈ calls, ReportsFaceEvent call.request) :
    (∀ before, before <+: calls → EveryEpisode (fun eventType policy =>
        KeepsEventRules eventType policy.1) sessionId (exec serve store before)) ∧
      ((∀ before, before <+: calls → EveryEpisode (fun eventType policy episode =>
          KeepsEventRules eventType policy.1 episode ∧ ConfidencesOrdered episode) sessionId
            (exec serve store before)) ↔
        ∀ before call after, calls = before ++ call :: after →
          ¬ CrossesStored sessionId (exec serve store before) call) := by
  -- after every prefix the records of each type sum up the accepted events of the type
  have hhistories (before : List Call) (hstart : before <+: calls) (eventType : String)
      (policy : ℤ × ℤ) (hpolicy : faceProctoringPolicies eventType = some policy) :
      TypeHistory sessionId eventType policy (trace serve store before) (exec serve store before) :=
    typeHistory_run hpolicy hs (hnone eventType policy hpolicy) fun call hcall =>
      hcalls call (hstart.subset hcall)
  have hrules (before : List Call) (hstart : before <+: calls) :
      EveryEpisode (fun eventType policy => KeepsEventRules eventType policy.1) sessionId
        (exec serve store before) := by
    intro s' hs' eventType policy hpolicy episode hepisode
    obtain ⟨found, hfound, hhistory⟩ := (hhistories before hstart eventType policy hpolicy).stored
    cases hs'.symm.trans hfound
    exact hhistory.keepsEventRules hepisode
  -- the session starts without records of a face event, hence without episodes
  have hinitial : EveryEpisode (fun _ _ => ConfidencesOrdered) sessionId store := by
    intro s' hs' eventType policy hpolicy episode hepisode
    cases hs.symm.trans hs'
    rw [hnone eventType policy hpolicy] at hepisode
    cases hepisode
  have hstep (before : List Call) (call : Call) (after : List Call)
      (hsplit : calls = before ++ call :: after)
      (hbefore : EveryEpisode (fun _ _ => ConfidencesOrdered) sessionId (exec serve store before)) :
      EveryEpisode (fun _ _ => ConfidencesOrdered) sessionId (serve (exec serve store before) call).2 ↔
        ¬ CrossesStored sessionId (exec serve store before) call := by
    have hhistory := hhistories before ⟨call :: after, hsplit.symm⟩
    obtain ⟨s', hs', _⟩ := (hhistory "face_absent" (5000, 30000) rfl).stored
    exact ordered_step_iff hs' hhistory (hcalls call (by simp [hsplit])) hbefore
  refine ⟨hrules, Iff.trans ?_ (prefixes_iff (C := fun store call =>
    ¬ CrossesStored sessionId store call) hinitial hstep)⟩
  constructor
  · intro hall before hprefix s' hs' eventType policy hpolicy episode hepisode
    exact (hall before hprefix s' hs' eventType policy hpolicy episode hepisode).2
  · intro hall before hprefix s' hs' eventType policy hpolicy episode hepisode
    exact ⟨hrules before hprefix s' hs' eventType policy hpolicy episode hepisode,
      hall before hprefix s' hs' eventType policy hpolicy episode hepisode⟩

end Run

/-- An event that reports a lower bound only, and one of the same condition that reports an upper
bound only, below it. -/
def crossingEvents : List FaceEvent :=
  [{ sampleFaceEvent with minConfidence := some (9 / 10) },
    { sampleFaceEvent with eventId := 31, maxConfidence := some (1 / 2) }]

def crossingCalls : List Call :=
  crossingEvents.map fun event => ⟨⟨0, 0⟩, .recordProctoringEvent 10 "first-connection" 4 event⟩

/-- Two admissible events store an episode whose lower confidence exceeds its upper one. -/
theorem stored_confidences_inverted :
    let _ : Runtime := .ascii
    (∀ event ∈ crossingEvents, (validateFaceEvent event).toOption = some (5000, 30000)) ∧
      (∀ call ∈ crossingCalls, ReportsFaceEvent call.request) ∧ NoFaceRecords sampleSession ∧
      ¬ EveryEpisode (fun eventType policy episode =>
        KeepsEventRules eventType policy.1 episode ∧ ConfidencesOrdered episode) 10
          (exec serve runningStore crossingCalls) := by
  refine ⟨by decide, ?_, fun _ _ _ => rfl, fun hevery => ?_⟩
  · intro call hcall
    obtain ⟨event, _, rfl⟩ := List.mem_map.mp hcall
    exact ⟨10, "first-connection", 4, event, rfl⟩
  · have hepisode := hevery _ rfl "face_absent" (5000, 30000) rfl _ List.mem_cons_self
    have hle := hepisode.2 (9 / 10) (1 / 2) rfl rfl
    norm_num at hle

def confidentEvents : List FaceEvent :=
  [{ sampleFaceEvent with minConfidence := some (1 / 2), maxConfidence := some (9 / 10) },
    { sampleFaceEvent with
      eventId := 31, minConfidence := some (1 / 5), maxConfidence := some (3 / 10) },
    { sampleFaceEvent with
      eventId := 32, minConfidence := some (19 / 20), maxConfidence := some (19 / 20) }]

def confidentCalls : List Call :=
  confidentEvents.map fun event => ⟨⟨0, 0⟩, .recordProctoringEvent 10 "first-connection" 4 event⟩

/-- Events with both confidences cross no episode: theirs stay ordered, from the lowest to the
highest. -/
theorem episodes_keep_rules_sample :
    let _ : Runtime := .ascii
    let _ : Pydantic.NumberText := .ascii
    (∀ before, before <+: confidentCalls → EveryEpisode (fun eventType policy episode =>
      KeepsEventRules eventType policy.1 episode ∧ ConfidencesOrdered episode) 10
        (exec serve runningStore before)) ∧
      ((exec serve runningStore confidentCalls).db.session? 10).map (fun s =>
        (storedEpisodes (s.violations.filter (hasType "face_absent"))).map fun episode =>
          (Pydantic.float (Json.get episode "min_confidence"),
            Pydantic.float (Json.get episode "max_confidence"))) =
        some [(some (1 / 5), some (19 / 20))] := by
  intro runtime numberText
  have hmem (call : Call) (hcall : call ∈ confidentCalls) : ∃ event ∈ confidentEvents,
      call.request = .recordProctoringEvent 10 "first-connection" 4 event := by
    obtain ⟨event, hevent, rfl⟩ := List.mem_map.mp hcall
    exact ⟨event, hevent, rfl⟩
  have hboth : ∀ event ∈ confidentEvents,
      event.minConfidence ≠ none ∧ event.maxConfidence ≠ none := by
    decide
  constructor
  · refine ((episodes_keep_rules_iff runningStore confidentCalls 10 sampleSession rfl
      (fun _ _ _ => rfl) ?_).2).mpr ?_
    · intro call hcall
      obtain ⟨event, _, hrequest⟩ := hmem call hcall
      exact ⟨10, "first-connection", 4, event, hrequest⟩
    · intro before call after hsplit hcross
      obtain ⟨event, hevent, hrequest⟩ := hmem call (by simp [hsplit])
      obtain ⟨_, _, _, _, _, hreported, _, _, _, _, _, _, _, low, high, _, hbounds⟩ := hcross
      cases hrequest.symm.trans hreported
      obtain ⟨hmin, hmax⟩ := hboth event hevent
      simp [hmin, hmax] at hbounds
  · decide +kernel

end IBotCoreApi
