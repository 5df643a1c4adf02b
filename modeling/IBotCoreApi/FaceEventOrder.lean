import IBotCoreApi.EpisodeRules

namespace IBotCoreApi
open Python Runs Outcomes FirstOccurrences KeyedLists OptionalBounds CandidateSessionRepository
  InterviewSessionRepository InternalInterview

def faceSources : List String := ["mediapipe_face_detector", "camera_state"]

structure QualifiedEvent (eventType : String) (policy : ℤ × ℤ) (event : FaceEvent) : Prop where
  typed : event.eventType = eventType
  source : event.source ∈ faceSources
  valid : validateFaceEvent event = .ok policy
  below : event.observedDurationMs < policy.2

def SameIds (stored stored' : Json) : Prop :=
  ∃ ids ids' : List String, stored = .list (ids.map .str) ∧ stored' = .list (ids'.map .str) ∧
    ids.Perm ids'

structure SameEpisode (episode episode' : Json.Entries) : Prop where
  duration : Json.get episode "max_observed_duration_ms" =
    Json.get episode' "max_observed_duration_ms"
  samples : Json.get episode "sample_count" = Json.get episode' "sample_count"
  faces : Json.get episode "max_face_count" = Json.get episode' "max_face_count"
  lowest : Json.get episode "min_confidence" = Json.get episode' "min_confidence"
  highest : Json.get episode "max_confidence" = Json.get episode' "max_confidence"
  source : Json.get episode "source" = Json.get episode' "source"
  ids : SameIds (Json.get episode "event_ids") (Json.get episode' "event_ids")

def startedAt (episode : Json.Entries) : Json := Json.get episode "condition_started_at"

structure SameEpisodes (episodes episodes' : List Json.Entries) : Prop where
  distinct : (episodes.map startedAt).Nodup
  starts : (episodes.map startedAt).Perm (episodes'.map startedAt)
  agree : ∀ episode ∈ episodes, ∀ episode' ∈ episodes', startedAt episode = startedAt episode' →
    SameEpisode episode episode'

structure SameFaceRecord (record record' : Json) : Prop where
  occurrences : Json.get (metadata record) "occurrence_count" =
    Json.get (metadata record') "occurrence_count"
  events : Json.get (metadata record) "event_count" = Json.get (metadata record') "event_count"
  ids : SameIds (Json.get (metadata record) "event_ids") (Json.get (metadata record') "event_ids")
  duration : Json.get (metadata record) "max_observed_duration_ms" =
    Json.get (metadata record') "max_observed_duration_ms"
  episodes : ∃ episodes episodes', Json.get (metadata record) "episodes" =
      .list (episodes.map .dict) ∧
    Json.get (metadata record') "episodes" = .list (episodes'.map .dict) ∧
    SameEpisodes episodes episodes'

section Summaries

variable {accepted accepted' : List FaceEvent} {start eventType : String} {policy : ℤ × ℤ}
  {episode episode' : Json.Entries}

theorem HoldsGreatest.unique {entries entries' : Json.Entries} {key : String} {values : Set ℤ}
    (h : HoldsGreatest entries key values) (h' : HoldsGreatest entries' key values) :
    Json.get entries key = Json.get entries' key := by
  obtain ⟨v, hv, hgreatest⟩ := h
  obtain ⟨v', hv', hgreatest'⟩ := h'
  rw [hv, hv', hgreatest.unique hgreatest']

theorem HoldsConfidence.unique {IsExtreme : Set ℚ → ℚ → Prop} {pick : ℚ → ℚ → ℚ}
    (hpick : Picks IsExtreme pick) {values : Set ℚ} {stored stored' : Json}
    (h : HoldsConfidence IsExtreme values stored) (h' : HoldsConfidence IsExtreme values stored') :
    stored = stored' := by
  obtain ⟨confidence, rfl, hextreme⟩ := h
  obtain ⟨confidence', rfl, hextreme'⟩ := h'
  rw [hextreme.unique hpick hextreme']

theorem HoldsSource.unique {events : Set FaceEvent} {stored stored' : Json}
    (hsources : ∀ event ∈ events, event.source ∈ faceSources)
    (h : HoldsSource events stored) (h' : HoldsSource events stored') : stored = stored' := by
  obtain ⟨event, hevent, rfl, hsticky⟩ := h
  obtain ⟨event', hevent', rfl, hsticky'⟩ := h'
  by_cases hcamera : ∃ other ∈ events, other.source = "camera_state"
  · rw [hsticky hcamera, hsticky' hcamera]
  · have hdetector (other : FaceEvent) (hother : other ∈ events) :
        other.source = "mediapipe_face_detector" := by
      have hsource := hsources other hother
      simp only [faceSources, List.mem_cons, List.not_mem_nil, or_false] at hsource
      exact hsource.resolve_right fun hfound => hcamera ⟨other, hother, hfound⟩
    rw [hdetector event hevent, hdetector event' hevent']

theorem eventsAt_perm (hperm : accepted.Perm accepted') (start : String) :
    eventsAt accepted start = eventsAt accepted' start := by
  ext event
  simp [eventsAt, hperm.mem_iff]

theorem acceptedIds_perm (hperm : accepted.Perm accepted') :
    (acceptedIds accepted).Perm (acceptedIds accepted') :=
  distinct_perm (hperm.map _)

theorem sameIds_of_perm {ids ids' : List Uuid} (hperm : ids.Perm ids') :
    SameIds (.list (ids.map fun id => .str id.str)) (.list (ids'.map fun id => .str id.str)) := by
  refine ⟨ids.map Uuid.str, ids'.map Uuid.str, ?_, ?_, hperm.map _⟩ <;> rw [List.map_map] <;> rfl

theorem ExactEpisode.same (hperm : accepted.Perm accepted')
    (hsources : ∀ event ∈ accepted, event.source ∈ faceSources)
    (h : ExactEpisode accepted start episode) (h' : ExactEpisode accepted' start episode') :
    SameEpisode episode episode' := by
  have hevents := eventsAt_perm hperm start
  exact {
    duration := h.duration.unique (hevents ▸ h'.duration)
    samples := h.samples.unique (hevents ▸ h'.samples)
    faces := h.faces.unique (hevents ▸ h'.faces)
    lowest := h.lowest.unique picks_min (hevents ▸ h'.lowest)
    highest := h.highest.unique picks_max (hevents ▸ h'.highest)
    source := h.source.unique (fun event hevent => hsources event hevent.1) (hevents ▸ h'.source)
    ids := by
      rw [h.ids, h'.ids]
      exact sameIds_of_perm (acceptedIds_perm (hperm.filter _)) }

theorem map_startedAt {starts : List String} {episodes : List Json.Entries}
    (h : List.Forall₂ (ExactEpisode accepted) starts episodes) :
    episodes.map startedAt = starts.map .str := by
  induction h with
  | nil => rfl
  | cons hepisode _ ih => rw [List.map_cons, List.map_cons, ih, startedAt, hepisode.startedAt]

theorem sameEpisodes_of_perm (hperm : accepted.Perm accepted')
    (hsources : ∀ event ∈ accepted, event.source ∈ faceSources) {episodes episodes' : List Json.Entries}
    (h : List.Forall₂ (ExactEpisode accepted) (acceptedStarts accepted) episodes)
    (h' : List.Forall₂ (ExactEpisode accepted') (acceptedStarts accepted') episodes') :
    SameEpisodes episodes episodes' where
  distinct := by
    rw [map_startedAt h]
    exact (nodup_distinct _).map fun _ _ hsame => Json.str.inj hsame
  starts := by
    rw [map_startedAt h, map_startedAt h']
    exact (distinct_perm (hperm.map _)).map _
  agree := by
    intro episode hepisode episode' hepisode' hsame
    obtain ⟨start, _, hexact⟩ := forall₂_mem_right h hepisode
    obtain ⟨start', _, hexact'⟩ := forall₂_mem_right h' hepisode'
    rw [startedAt, startedAt, hexact.startedAt, hexact'.startedAt] at hsame
    cases hsame
    exact hexact.same hperm hsources hexact'

/-- The records that sum up the same events in two orders. -/
theorem FaceHistory.same (hperm : accepted.Perm accepted')
    (hsources : ∀ event ∈ accepted, event.source ∈ faceSources) {existing existing' : List Json}
    (h : FaceHistory eventType policy accepted existing)
    (h' : FaceHistory eventType policy accepted' existing') :
    List.Forall₂ SameFaceRecord existing existing' := by
  cases h.summary with
  | none =>
    cases h'.summary with
    | none => exact .nil
    | one hsome => exact absurd hperm.nil_eq.symm hsome
  | @one _ record hsome hrecord =>
    cases h'.summary with
    | none => exact absurd hperm.eq_nil hsome
    | @one _ record' hsome' hrecord' =>
      refine .cons ?_ .nil
      obtain ⟨episodes, hstored, _⟩ := hrecord.episodes
      obtain ⟨episodes', hstored', _⟩ := hrecord'.episodes
      have hepisodes := h.episodes
      have hepisodes' := h'.episodes
      rw [storedEpisodes_singleton hstored] at hepisodes
      rw [storedEpisodes_singleton hstored'] at hepisodes'
      have hids := acceptedIds_perm hperm
      -- both orders have the same ids and starts, up to their order, and the same set of events
      have hstarts : (acceptedStarts accepted).Perm (acceptedStarts accepted') :=
        distinct_perm (hperm.map _)
      have hevents : {event | event ∈ accepted} = {event | event ∈ accepted'} := by
        ext event
        exact hperm.mem_iff
      exact {
        occurrences := by
          rw [hrecord.occurrenceCount, hrecord'.occurrenceCount, hstarts.length_eq]
        events := by rw [hrecord.eventCount, hrecord'.eventCount, hids.length_eq]
        ids := by
          rw [hrecord.ids, hrecord'.ids]
          exact sameIds_of_perm hids
        duration := hrecord.duration.unique (hevents ▸ hrecord'.duration)
        episodes := ⟨episodes, episodes', hstored, hstored',
          sameEpisodes_of_perm hperm hsources hepisodes hepisodes'⟩ }

end Summaries

section Run

variable [Runtime] {store : Store} {sessionId candidateAssessmentId : Uuid} {s : InterviewSession}
  {connectionId eventType : String} {policy : ℤ × ℤ} {events : List FaceEvent} {calls : List Call}

def ReportEvents (sessionId : Uuid) (connectionId : String) (candidateAssessmentId : Uuid)
    (events : List FaceEvent) (calls : List Call) : Prop :=
  calls.map (·.request) =
    events.map (.recordProctoringEvent sessionId connectionId candidateAssessmentId)

omit [Runtime] in
theorem ReportEvents.reports (h : ReportEvents sessionId connectionId candidateAssessmentId events
      calls) : ∀ call ∈ calls, ReportsFaceEvent call.request := by
  intro call hcall
  have hrequest : call.request ∈ calls.map (·.request) := List.mem_map_of_mem hcall
  rw [h] at hrequest
  obtain ⟨event, _, hevent⟩ := List.mem_map.mp hrequest
  exact ⟨sessionId, connectionId, candidateAssessmentId, event, hevent.symm⟩

def Listens (s : InterviewSession) (connectionId : String) (candidateAssessmentId : Uuid) : Prop :=
  s.candidateAssessmentId = candidateAssessmentId ∧ sendsFrom connectionId s

/-- Qualified events with distinct ids are all recorded, and the session stays active. -/
theorem events_all_recorded (hpolicy : faceProctoringPolicies eventType = some policy)
    (hs : store.db.session? sessionId = some s)
    (hlistens : Listens s connectionId candidateAssessmentId)
    (hnone : s.violations.filter (hasType eventType) = [])
    (hevents : ∀ event ∈ events, QualifiedEvent eventType policy event)
    (hids : (events.map (·.eventId)).Nodup)
    (hcalls : ReportEvents sessionId connectionId candidateAssessmentId events calls) :
    acceptedEvents sessionId (trace serve store calls) = events ∧
      ∃ s', (exec serve store calls).db.session? sessionId = some s' ∧
        Listens s' connectionId candidateAssessmentId := by
  -- on the last event: the ones before it are in the history that its call reads
  induction events using List.reverseRecOn generalizing calls with
  | nil =>
    obtain rfl : calls = [] := List.map_eq_nil_iff.mp hcalls
    exact ⟨rfl, s, hs, hlistens⟩
  | append_singleton events event ih =>
    obtain ⟨before, last, rfl, hbefore, hlast⟩ := List.map_eq_append_iff.mp
      (hcalls.trans (List.map_append ..))
    obtain ⟨call, rfl, hrequest⟩ : ∃ call, last = [call] ∧ call.request =
        .recordProctoringEvent sessionId connectionId candidateAssessmentId event := by
      obtain ⟨call, rest, rfl, hcall, hrest⟩ := List.map_eq_cons_iff.mp hlast
      exact ⟨call, by rw [List.map_eq_nil_iff.mp hrest], hcall⟩
    rw [List.map_append, List.nodup_append] at hids
    obtain ⟨haccepted, s₁, hs₁, hca, hsender⟩ := ih
      (fun other hother => hevents other (List.mem_append_left _ hother)) hids.1 hbefore
    have hqualified := hevents event (by simp)
    have hhistory : TypeHistory sessionId event.eventType policy (trace serve store before)
        (exec serve store before) := by
      rw [hqualified.typed]
      exact typeHistory_run hpolicy hs hnone (ReportEvents.reports hbefore)
    -- the id is new, because the ids of the events before are others
    have hnew : event.eventId.str ∉ knownIds event.eventType s₁.violations := by
      obtain ⟨found, hfound, hfaces⟩ := hhistory.stored
      cases hs₁.symm.trans hfound
      obtain ⟨_, hreads⟩ := hfaces.summary.reads s₁.transcript
      rw [knownIds, hreads.ids, List.mem_map_of_injective Uuid.str_injective, acceptedIds,
        mem_distinct, acceptedOf, haccepted]
      intro hmem
      obtain ⟨other, hother, hsame⟩ := List.mem_map.mp hmem
      refine hids.2.2 _ (List.mem_map_of_mem (List.mem_filter.mp hother).1) event.eventId ?_ hsame
      simp
    have htakes : TakesFaceEvent s₁ connectionId candidateAssessmentId event :=
      ⟨hca, ⟨policy, hqualified.valid⟩, hsender, fun hknown => hnew hknown.1⟩
    obtain ⟨clock, request⟩ := call
    change request = _ at hrequest
    subst hrequest
    have hevent := acceptedEvent_of_takes clock (hqualified.typed ▸ hpolicy) hhistory hs₁ htakes
    rw [trace_snoc, exec_snoc]
    refine ⟨?_, ?_⟩
    · simp [acceptedEvents, ← haccepted, hevent]
    · obtain ⟨hignored, _⟩ | ⟨_, found, response, violations, _, hvalid, _, hs'⟩ :=
        serve_recordProctoringEvent clock connectionId candidateAssessmentId event hs₁
      · rw [hevent] at hignored
        cases hignored
      · cases hvalid.symm.trans hqualified.valid
        refine ⟨_, hs', ?_⟩
        -- below the termination duration the session is saved as it was, so it goes on listening
        have hlasts : decide (event.observedDurationMs ≥ policy.2) = false := by
          simpa using hqualified.below
        rw [hlasts]
        exact ⟨hca, hsender⟩

/-- Recording valid events of one type with distinct ids, below the termination duration, from the
active connection, in any two orders: every event is recorded, and the records of the type agree. -/
theorem face_events_order_independent (store : Store) (sessionId candidateAssessmentId : Uuid)
    (s : InterviewSession) (connectionId eventType : String) (policy : ℤ × ℤ)
    (events events' : List FaceEvent) (calls calls' : List Call)
    (hpolicy : faceProctoringPolicies eventType = some policy)
    (hs : store.db.session? sessionId = some s)
    (hlistens : Listens s connectionId candidateAssessmentId)
    (hnone : s.violations.filter (hasType eventType) = [])
    (hevents : ∀ event ∈ events, QualifiedEvent eventType policy event)
    (hids : (events.map (·.eventId)).Nodup) (hperm : events.Perm events')
    (hcalls : ReportEvents sessionId connectionId candidateAssessmentId events calls)
    (hcalls' : ReportEvents sessionId connectionId candidateAssessmentId events' calls') :
    acceptedEvents sessionId (trace serve store calls) = events ∧
      acceptedEvents sessionId (trace serve store calls') = events' ∧
      ∃ s₁ s₂, (exec serve store calls).db.session? sessionId = some s₁ ∧
        (exec serve store calls').db.session? sessionId = some s₂ ∧
        List.Forall₂ SameFaceRecord (s₁.violations.filter (hasType eventType))
          (s₂.violations.filter (hasType eventType)) := by
  have hevents' : ∀ event ∈ events', QualifiedEvent eventType policy event := fun event hevent =>
    hevents event (hperm.mem_iff.mpr hevent)
  have hids' : (events'.map (·.eventId)).Nodup := (hperm.map _).nodup_iff.mp hids
  obtain ⟨haccepted, _⟩ :=
    events_all_recorded hpolicy hs hlistens hnone hevents hids hcalls
  obtain ⟨haccepted', _⟩ :=
    events_all_recorded hpolicy hs hlistens hnone hevents' hids' hcalls'
  obtain ⟨s₁, hs₁, hfaces⟩ := (typeHistory_run hpolicy hs hnone hcalls.reports).stored
  obtain ⟨s₂, hs₂, hfaces'⟩ := (typeHistory_run hpolicy hs hnone hcalls'.reports).stored
  -- all events are of the one type, so each history is the whole list in its order
  have hall (events : List FaceEvent)
      (hevents : ∀ event ∈ events, QualifiedEvent eventType policy event) :
      events.filter (·.eventType = eventType) = events :=
    List.filter_eq_self.mpr fun event hevent => by simpa using (hevents event hevent).typed
  rw [acceptedOf, haccepted, hall events hevents] at hfaces
  rw [acceptedOf, haccepted', hall events' hevents'] at hfaces'
  exact ⟨haccepted, haccepted', s₁, s₂, hs₁, hs₂,
    hfaces.same hperm (fun event hevent => (hevents event hevent).source) hfaces'⟩

end Run

/-- Three absences of one condition and one of another, with confidences that are partly missing. -/
def orderedEvents : List FaceEvent :=
  [{ sampleFaceEvent with minConfidence := some (1 / 4) },
    { sampleFaceEvent with
      eventId := 31
      source := "camera_state"
      sampleCount := 7
      sampleCount_bounds := by decide },
    { sampleFaceEvent with
      eventId := 32
      observedDurationMs := 9000
      maxConfidence := some (1 / 2)
      duration_bounds := by decide },
    { sampleFaceEvent with eventId := 33, conditionStartedAt := "2026-01-01T00:01:00+00:00" }]

def orderedCalls (events : List FaceEvent) : List Call :=
  events.map fun event => ⟨⟨0, 0⟩, .recordProctoringEvent 10 "first-connection" 4 event⟩

theorem face_events_order_independent_sample :
    let _ : Runtime := .ascii
    ∃ s₁ s₂, (exec serve runningStore (orderedCalls orderedEvents)).db.session? 10 = some s₁ ∧
      (exec serve runningStore (orderedCalls orderedEvents.reverse)).db.session? 10 = some s₂ ∧
      List.Forall₂ SameFaceRecord (s₁.violations.filter (hasType "face_absent"))
        (s₂.violations.filter (hasType "face_absent")) := by
  intro _
  have hreport (events : List FaceEvent) :
      ReportEvents 10 "first-connection" 4 events (orderedCalls events) := by
    rw [ReportEvents, orderedCalls, List.map_map]
    rfl
  have hqualified : ∀ event ∈ orderedEvents, event.eventType = "face_absent" ∧
      event.source ∈ faceSources ∧ (validateFaceEvent event).toOption = some (5000, 30000) ∧
        event.observedDurationMs < 30000 := by
    decide
  refine (face_events_order_independent runningStore 10 4 sampleSession "first-connection"
    "face_absent" (5000, 30000) orderedEvents orderedEvents.reverse _ _ rfl rfl ⟨rfl, rfl⟩ rfl ?_
    (by decide) (List.reverse_perm _).symm (hreport _) (hreport _)).2.2
  intro event hevent
  obtain ⟨htype, hsource, hvalid, hbelow⟩ := hqualified event hevent
  refine ⟨htype, hsource, ?_, hbelow⟩
  cases hok : validateFaceEvent event with
  | error reason => simp [hok, Except.toOption] at hvalid
  | ok policy => simpa [hok, Except.toOption] using hvalid

end IBotCoreApi
