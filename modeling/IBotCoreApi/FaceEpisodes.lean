import IBotCoreApi.FaceProctoring
import IBotCoreApi.Library.OptionalBounds

namespace IBotCoreApi
open Python Runs Outcomes FirstOccurrences KeyedLists OptionalBounds CandidateSessionRepository
  InterviewSessionRepository InternalInterview

def reported (confidence : FaceEvent → Option ℚ) (events : Set FaceEvent) : Set ℚ :=
  {q | ∃ event ∈ events, confidence event = some q}

/-- The stored confidence is the extreme one of the reported values. -/
def HoldsConfidence (IsExtreme : Set ℚ → ℚ → Prop) (values : Set ℚ) (stored : Json) : Prop :=
  ∃ confidence, stored = optionalFloat confidence ∧ ExtremeOf IsExtreme values confidence

/-- The stored source is the one of an event, and `camera_state` if any event has it. -/
def HoldsSource (events : Set FaceEvent) (stored : Json) : Prop :=
  ∃ event ∈ events, stored = .str event.source ∧
    ((∃ other ∈ events, other.source = "camera_state") → event.source = "camera_state")

/-- The accepted events of one start, in the order of acceptance. -/
def acceptedAt (accepted : List FaceEvent) (start : String) : List FaceEvent :=
  accepted.filter (·.conditionStartedAt = start)

/-- The episode sums up the accepted events with its start, in every field that it measures. -/
structure ExactEpisode (accepted : List FaceEvent) (start : String) (episode : Json.Entries) : Prop
    extends IsEpisode accepted start episode where
  lowest : HoldsConfidence IsLeast (reported FaceEvent.minConfidence (eventsAt accepted start))
    (Json.get episode "min_confidence")
  highest : HoldsConfidence IsGreatest (reported FaceEvent.maxConfidence (eventsAt accepted start))
    (Json.get episode "max_confidence")
  source : HoldsSource (eventsAt accepted start) (Json.get episode "source")
  ids : Json.get episode "event_ids" =
    .list ((acceptedIds (acceptedAt accepted start)).map fun id => .str id.str)

section Events

variable {accepted : List FaceEvent} {event : FaceEvent} {start : String} {episode : Json.Entries}

theorem mem_acceptedAt : event ∈ acceptedAt accepted start ↔ event ∈ eventsAt accepted start := by
  simp [acceptedAt, eventsAt]

theorem acceptedAt_snoc_self : acceptedAt (accepted ++ [event]) event.conditionStartedAt =
    acceptedAt accepted event.conditionStartedAt ++ [event] := by
  simp [acceptedAt]

theorem acceptedAt_snoc_of_ne (hne : start ≠ event.conditionStartedAt) :
    acceptedAt (accepted ++ [event]) start = acceptedAt accepted start := by
  simp [acceptedAt, Ne.symm hne]

theorem reported_insert (confidence : FaceEvent → Option ℚ) (events : Set FaceEvent) :
    reported confidence (insert event events) =
      reported confidence events ∪ {q | confidence event = some q} := by
  ext q
  simp [reported, or_comm]

theorem ExactEpisode.frame (h : ExactEpisode accepted start episode)
    (hne : start ≠ event.conditionStartedAt) :
    ExactEpisode (accepted ++ [event]) start episode := by
  have hevents := eventsAt_snoc_of_ne accepted hne
  exact {
    toIsEpisode := h.toIsEpisode.frame hne
    lowest := hevents ▸ h.lowest
    highest := hevents ▸ h.highest
    source := hevents ▸ h.source
    ids := by rw [acceptedAt_snoc_of_ne hne, h.ids] }

/-- The episode that a start finds: the one of the start, or none when no event has it. -/
def FoundExact (accepted : List FaceEvent) (start : String) : Option Json.Entries → Prop
  | some episode => ExactEpisode accepted start episode
  | none => start ∉ acceptedStarts accepted

theorem FoundExact.found {current : Option Json.Entries} (h : FoundExact accepted start current) :
    FoundEpisode accepted start current := by
  cases current with
  | none => exact h
  | some episode => exact h.toIsEpisode

theorem foundExact_find? {episodes : List Json.Entries}
    (h : List.Forall₂ (ExactEpisode accepted) (acceptedStarts accepted) episodes) (start : String) :
    FoundExact accepted start (episodes.find? (startsAt start)) := by
  have hfinds : Finds (ExactEpisode accepted) (startsAt start) start := fun k episode hepisode =>
    startsAt_finds start k episode hepisode.toIsEpisode
  cases hfind : episodes.find? (startsAt start) with
  | none => exact find?_none h hfinds hfind
  | some episode => exact (find?_some h hfinds hfind).1

theorem eventsAt_eq_empty (h : start ∉ acceptedStarts accepted) : eventsAt accepted start = ∅ :=
  Set.not_nonempty_iff_eq_empty.mp fun hsome => h (mem_acceptedStarts.mpr hsome)

end Events

section Merge

variable [Runtime] {accepted : List FaceEvent} {event : FaceEvent} {current : Option Json.Entries}
  {payload : Json.Entries} {recordedAt : String}

theorem combineConfidence_eq (pick : ℚ → ℚ → ℚ) (stored incoming : Option ℚ) :
    combineConfidence pick (optionalFloat stored) incoming = .ok (combine pick stored incoming) := by
  cases stored with
  | none => rfl
  | some q => cases incoming <;> rfl

theorem combineConfidence_holds {IsExtreme : Set ℚ → ℚ → Prop} {pick : ℚ → ℚ → ℚ}
    (hpick : Picks IsExtreme pick) {confidence : FaceEvent → Option ℚ} {events : Set FaceEvent}
    {stored : Json} {combined : Option ℚ}
    (h : HoldsConfidence IsExtreme (reported confidence events) stored)
    (hcombined : combineConfidence pick stored (confidence event) = .ok combined) :
    HoldsConfidence IsExtreme (reported confidence (insert event events))
      (optionalFloat combined) := by
  obtain ⟨value, rfl, hvalue⟩ := h
  rw [combineConfidence_eq] at hcombined
  cases hcombined
  refine ⟨_, rfl, ?_⟩
  rw [reported_insert]
  exact hvalue.union hpick (extremeOf_reported hpick (confidence event))

omit [Runtime] in
theorem holdsConfidence_current {IsExtreme : Set ℚ → ℚ → Prop}
    {confidence : FaceEvent → Option ℚ} {start key : String}
    (hkey : ∀ episode, ExactEpisode accepted start episode →
      HoldsConfidence IsExtreme (reported confidence (eventsAt accepted start))
        (Json.get episode key))
    (hcurrent : FoundExact accepted start current) :
    HoldsConfidence IsExtreme (reported confidence (eventsAt accepted start))
      (Json.get (current.getD []) key) := by
  cases current with
  | none =>
    refine ⟨none, rfl, ?_⟩
    simp [eventsAt_eq_empty hcurrent, reported, ExtremeOf]
  | some episode => exact hkey episode hcurrent

omit [Runtime] in
theorem mergedSource_holds (hcurrent : FoundExact accepted event.conditionStartedAt current) :
    HoldsSource (insert event (eventsAt accepted event.conditionStartedAt))
      (.str (if event.source = "camera_state" ∨
        (Json.get (current.getD []) "source").eqStr "camera_state" then "camera_state"
        else event.source)) := by
  by_cases hevent : event.source = "camera_state"
  · refine ⟨event, Set.mem_insert event _, ?_, fun _ => hevent⟩
    simp [hevent]
  · cases current with
    | none =>
      refine ⟨event, Set.mem_insert event _, by simp [hevent, Json.get, Json.eqStr], ?_⟩
      rw [eventsAt_eq_empty hcurrent]
      rintro ⟨other, rfl | hother, hcamera⟩
      · exact hcamera
      · exact absurd hother (Set.notMem_empty other)
    | some episode =>
      obtain ⟨first, hfirst, hstored, hsticky⟩ := hcurrent.source
      by_cases hcamera : first.source = "camera_state"
      · refine ⟨first, Set.mem_insert_of_mem event hfirst, ?_, fun _ => hcamera⟩
        simp [hstored, hcamera, Json.eqStr]
      · refine ⟨event, Set.mem_insert event _, by simp [hevent, hstored, hcamera, Json.eqStr], ?_⟩
        rintro ⟨other, rfl | hother, hsource⟩
        · exact hsource
        · exact absurd (hsticky ⟨other, hother, hsource⟩) hcamera

omit [Runtime] in
theorem Json.filter_texts (ids : List Uuid) :
    (ids.map Uuid.str).filter (· ≠ "") = ids.map Uuid.str := by
  rw [List.filter_eq_self]
  intro text htext
  obtain ⟨id, _, rfl⟩ := List.mem_map.mp htext
  simpa using Uuid.str_ne_empty id

/-- The ids of an episode as a merge reads them. -/
def rawEventIds (current : Json.Entries) : List String :=
  match Json.get current "event_ids" with
  | .list xs => (xs.map (·.pyStr)).filter (· ≠ "")
  | _ => []

theorem pushNew_rawEventIds (hcurrent : FoundExact accepted event.conditionStartedAt current) :
    pushNew (rawEventIds (current.getD [])) event.eventId.str =
      (acceptedIds (acceptedAt (accepted ++ [event]) event.conditionStartedAt)).map Uuid.str := by
  rw [acceptedAt_snoc_self, acceptedIds_snoc, ← pushNew_map Uuid.str_injective]
  cases current with
  | none =>
    have hnone : acceptedAt accepted event.conditionStartedAt = [] := by
      rw [List.eq_nil_iff_forall_not_mem]
      intro other hother
      rw [mem_acceptedAt, eventsAt_eq_empty hcurrent] at hother
      exact hother
    rw [hnone]
    rfl
  | some episode =>
    rw [Option.getD_some, rawEventIds, hcurrent.ids]
    have htexts : ((acceptedIds (acceptedAt accepted event.conditionStartedAt)).map
        fun id => Json.str id.str).map Json.pyStr =
          (acceptedIds (acceptedAt accepted event.conditionStartedAt)).map Uuid.str := by
      rw [List.map_map]
      rfl
    simp only [htexts, Json.filter_texts]

/-- Merging an event sums up one more event. -/
theorem mergeFaceEpisode_exact (hcurrent : FoundExact accepted event.conditionStartedAt current)
    (hmerge : mergeFaceEpisode current event recordedAt = .ok payload) :
    ExactEpisode (accepted ++ [event]) event.conditionStartedAt payload := by
  obtain ⟨merged, hmerged, hepisode⟩ := mergeFaceEpisode_isEpisode hcurrent.found recordedAt
  cases hmerged.symm.trans hmerge
  have hids := pushNew_rawEventIds hcurrent
  obtain ⟨lowest, hlowest, hmerge⟩ := bind_eq_ok.mp hmerge
  obtain ⟨highest, hhighest, hmerge⟩ := bind_eq_ok.mp hmerge
  obtain ⟨duration, _, hmerge⟩ := bind_eq_ok.mp hmerge
  obtain ⟨samples, _, hmerge⟩ := bind_eq_ok.mp hmerge
  obtain ⟨faces, _, hmerge⟩ := bind_eq_ok.mp hmerge
  cases hmerge
  exact {
    toIsEpisode := hepisode
    lowest := by
      rw [eventsAt_snoc_self]
      exact combineConfidence_holds picks_min
        (holdsConfidence_current (fun _ h => h.lowest) hcurrent) hlowest
    highest := by
      rw [eventsAt_snoc_self]
      exact combineConfidence_holds picks_max
        (holdsConfidence_current (fun _ h => h.highest) hcurrent) hhighest
    source := by
      rw [eventsAt_snoc_self]
      exact mergedSource_holds hcurrent
    ids := by
      have hlist := congrArg (fun ids => Json.list (ids.map Json.str)) hids
      simp only [List.map_map] at hlist
      exact hlist }

end Merge

def canonicalEpisodes (record : Json) : List Json.Entries :=
  match Json.get (metadata record) "episodes" with
  | .list items => dicts items
  | _ => []

def storedEpisodes (records : List Json) : List Json.Entries := records.flatMap canonicalEpisodes

/-- The records of one type sum up the accepted events of the type, with every measured field. -/
structure FaceHistory (eventType : String) (policy : ℤ × ℤ) (accepted : List FaceEvent)
    (existing : List Json) : Prop where
  valid : ∀ event ∈ accepted, event.eventType = eventType ∧ validateFaceEvent event = .ok policy
  summary : Summarizes policy.2 accepted existing
  episodes : List.Forall₂ (ExactEpisode accepted) (acceptedStarts accepted)
    (storedEpisodes existing)

section Records

variable [Runtime] {accepted : List FaceEvent} {event : FaceEvent} {existing : List Json}
  {policy : ℤ × ℤ} {eventType : String}

omit [Runtime] in
theorem storedEpisodes_singleton {record : Json} {episodes : List Json.Entries}
    (h : Json.get (metadata record) "episodes" = .list (episodes.map .dict)) :
    storedEpisodes [record] = episodes := by
  simp [storedEpisodes, canonicalEpisodes, h, dicts_map_dict]

theorem FaceHistory.loads (h : FaceHistory eventType policy accepted existing) :
    faceEpisodes existing = .ok (storedEpisodes existing) := by
  cases h.summary with
  | none => rfl
  | one hsome hrecord =>
    obtain ⟨episodes, hstored, hepisodes⟩ := hrecord.episodes
    have hne : episodes ≠ [] := by
      rintro rfl
      exact acceptedStarts_ne_nil hsome (List.forall₂_nil_right_iff.mp hepisodes)
    rw [faceEpisodes_singleton hstored hne, storedEpisodes_singleton hstored]

theorem faceViolation_episodes {transcript : List Json} {connectionId recordedAt : String}
    {ids : List String} {episodes : List Json.Entries} {record : Json}
    (h : faceViolation existing transcript policy event connectionId recordedAt ids episodes =
      .ok record) : Json.get (metadata record) "episodes" = .list (episodes.map .dict) := by
  obtain ⟨longest, _, h⟩ := bind_eq_ok.mp h
  obtain ⟨turn, _, h⟩ := bind_eq_ok.mp h
  cases h
  rfl

omit [Runtime] in
theorem hasType_of_ne {eventType other : String} (hne : other ≠ eventType) {item : Json}
    (h : hasType other item) : hasType eventType item = false := by
  unfold hasType at h ⊢
  cases hfield : item.field "violation_type" with
  | str text =>
    rw [hfield, Json.eqStr, beq_iff_eq] at h
    subst h
    simpa [Json.eqStr] using hne
  | _ =>
    rw [hfield] at h
    cases h

omit [Runtime] in
theorem filter_replaceViolationType_of_ne {eventType other : String} (hne : other ≠ eventType)
    {record : Json} (htype : hasType eventType record) (violations : List Json) :
    (replaceViolationType violations eventType record).filter (hasType other) =
      violations.filter (hasType other) := by
  have hothers := (replaceViolationType_consolidates htype violations).others
  have hsub (items : List Json) :
      (items.filter fun item => !hasType eventType item).filter (hasType other) =
        items.filter (hasType other) := by
    rw [List.filter_filter]
    refine List.filter_congr fun item _ => ?_
    by_cases h : hasType other item
    · simp [h, hasType_of_ne hne h]
    · simp [h]
  rw [← hsub, hothers, hsub]

theorem FaceHistory.merges {s : InterviewSession} {clock : Clock} {connectionId : String}
    {response : RecordProctoringEventOutcome} {violations : List Json}
    (h : FaceHistory event.eventType policy accepted
      (s.violations.filter (hasType event.eventType)))
    (hrecorded : RecordedFaceEvent s clock connectionId event policy response violations) :
    ∃ payload record,
      mergeFaceEpisode ((storedEpisodes (s.violations.filter (hasType event.eventType))).find?
        (startsAt event.conditionStartedAt)) event (Time.isoformat clock.utcNow) = .ok payload ∧
      ExactEpisode (accepted ++ [event]) event.conditionStartedAt payload ∧
      violations = replaceViolationType s.violations event.eventType record ∧
      hasType event.eventType record ∧ IsFaceRecord policy.2 (accepted ++ [event]) record ∧
      storedEpisodes [record] = putEpisode event.conditionStartedAt payload
        (storedEpisodes (s.violations.filter (hasType event.eventType))) := by
  obtain ⟨episodes, previous, payload, violation, hloaded, _, _, hmerge, hviolation, hsaved⟩ :=
    hrecorded.merge
  cases h.loads.symm.trans hloaded
  obtain ⟨found, hreads⟩ := h.summary.reads s.transcript
  cases hreads.loaded.symm.trans hloaded
  have hpayload := mergeFaceEpisode_exact (foundExact_find? h.episodes _) hmerge
  obtain ⟨record, hrecord, htype, hsums⟩ :=
    faceViolation_isFaceRecord hreads hpayload.toIsEpisode connectionId (Time.isoformat clock.utcNow)
  cases hrecord.symm.trans hviolation
  exact ⟨payload, violation, hmerge, hpayload, hsaved, htype, hsums,
    storedEpisodes_singleton (faceViolation_episodes hviolation)⟩

theorem FaceHistory.recorded {s : InterviewSession} {clock : Clock} {connectionId : String}
    {response : RecordProctoringEventOutcome} {violations : List Json}
    (h : FaceHistory event.eventType policy accepted
      (s.violations.filter (hasType event.eventType)))
    (hvalid : validateFaceEvent event = .ok policy)
    (hrecorded : RecordedFaceEvent s clock connectionId event policy response violations) :
    FaceHistory event.eventType policy (accepted ++ [event])
      (violations.filter (hasType event.eventType)) := by
  obtain ⟨payload, record, _, hpayload, rfl, htype, hsums, hstored⟩ := h.merges hrecorded
  rw [(replaceViolationType_consolidates htype s.violations).only]
  refine ⟨?_, .one (by simp) hsums, ?_⟩
  · intro other hother
    rcases List.mem_append.mp hother with hold | hnew
    · exact h.valid other hold
    · rw [List.mem_singleton.mp hnew]
      exact ⟨rfl, hvalid⟩
  · rw [hstored, acceptedStarts_snoc]
    exact forall₂_put h.episodes (nodup_distinct _)
      (fun k episode hepisode => startsAt_finds _ k episode hepisode.toIsEpisode) hpayload
      fun _ _ hother hne => hother.frame hne

theorem RecordedFaceEvent.others {s : InterviewSession} {clock : Clock} {connectionId : String}
    {response : RecordProctoringEventOutcome} {violations : List Json} {other : String}
    (hrecorded : RecordedFaceEvent s clock connectionId event policy response violations)
    (hne : other ≠ event.eventType) :
    violations.filter (hasType other) = s.violations.filter (hasType other) := by
  obtain ⟨_, _, _, record, _, _, _, _, hviolation, rfl⟩ := hrecorded.merge
  refine filter_replaceViolationType_of_ne hne ?_ s.violations
  obtain ⟨longest, _, hviolation⟩ := bind_eq_ok.mp hviolation
  obtain ⟨turn, _, hviolation⟩ := bind_eq_ok.mp hviolation
  cases hviolation
  simp [hasType]

end Records

section Run

variable [Runtime] {store : Store} {sessionId : Uuid} {s : InterviewSession} {calls : List Call}

def ReportsFaceEvent (request : SessionRequest) : Prop :=
  ∃ sender connectionId candidateAssessmentId event,
    request = .recordProctoringEvent sender connectionId candidateAssessmentId event

def acceptedOf (sessionId : Uuid) (eventType : String)
    (history : List (Transition Store Call SessionResult)) : List FaceEvent :=
  (acceptedEvents sessionId history).filter (·.eventType = eventType)

/-- A call of `record_proctoring_event` on a stored session records its event, or changes
nothing. -/
theorem serve_recordProctoringEvent (clock : Clock) (connectionId : String)
    (candidateAssessmentId : Uuid) (event : FaceEvent) (hs : store.db.session? sessionId = some s) :
    let t := Transition.of serve store
      ⟨clock, .recordProctoringEvent sessionId connectionId candidateAssessmentId event⟩
    (acceptedEvent sessionId t = none ∧ t.post.db = store.db) ∨
      (acceptedEvent sessionId t = some event ∧ ∃ policy response violations,
        s.candidateAssessmentId = candidateAssessmentId ∧ validateFaceEvent event = .ok policy ∧
        RecordedFaceEvent s clock connectionId event policy response violations ∧
        t.post.db.session? sessionId =
          some (savedSession clock violations (event.observedDurationMs ≥ policy.2) s)) := by
  have hid : s.id = sessionId := Tables.lookup_key hs
  simp only [Transition.of, acceptedEvent, proctoringEvent, serve, handle, respond]
  cases hrun : InternalInterview.recordProctoringEvent store.db clock sessionId connectionId
      candidateAssessmentId event with
  | error reason => exact .inl ⟨rfl, rfl⟩
  | ok result =>
    obtain ⟨outcome, db'⟩ := result
    obtain ⟨found, policy, hfound, hca, hvalid, ⟨hnot, rfl⟩ | ⟨hyes, violations, hrecorded, rfl⟩⟩ :=
      recordProctoringEvent_cases (recordProctoringEvent_ok hrun)
    · refine .inl ⟨if_neg ?_, rfl⟩
      change ¬ outcome.recorded
      simp [hnot]
    · cases hs.symm.trans hfound
      refine .inr ⟨(if_pos hyes).trans (if_pos trivial), policy, outcome, violations, hca, hvalid,
        hrecorded, ?_⟩
      subst hid
      exact session?_saveViolations_self hs candidateAssessmentId

structure TypeHistory (sessionId : Uuid) (eventType : String) (policy : ℤ × ℤ)
    (history : List (Transition Store Call SessionResult)) (store : Store) : Prop where
  stored : ∃ s, store.db.session? sessionId = some s ∧
    FaceHistory eventType policy (acceptedOf sessionId eventType history)
      (s.violations.filter (hasType eventType))

omit [Runtime] in
theorem acceptedOf_snoc (sessionId : Uuid) (eventType : String)
    (history : List (Transition Store Call SessionResult))
    (t : Transition Store Call SessionResult) :
    acceptedOf sessionId eventType (history ++ [t]) = acceptedOf sessionId eventType history ++
      ((acceptedEvent sessionId t).toList.filter (·.eventType = eventType)) := by
  rw [acceptedOf, acceptedEvents, List.filterMap_append, List.filter_append]
  cases hevent : acceptedEvent sessionId t <;> simp [acceptedOf, acceptedEvents, hevent]

theorem TypeHistory.step {eventType : String} {policy : ℤ × ℤ}
    {history : List (Transition Store Call SessionResult)} {call : Call}
    (h : TypeHistory sessionId eventType policy history store)
    (hpolicy : faceProctoringPolicies eventType = some policy)
    (hcall : ReportsFaceEvent call.request) :
    TypeHistory sessionId eventType policy (history ++ [Transition.of serve store call])
      (serve store call).2 := by
  obtain ⟨s, hs, hhistory⟩ := h.stored
  obtain ⟨clock, request⟩ := call
  obtain ⟨sender, connectionId, candidateAssessmentId, event, hrequest⟩ := hcall
  change request = _ at hrequest
  subst hrequest
  by_cases hsender : sender = sessionId
  · subst hsender
    obtain ⟨hnone, hdb⟩ | ⟨hsome, found, response, violations, _, hvalid, hrecorded, hs'⟩ :=
      serve_recordProctoringEvent clock connectionId candidateAssessmentId event hs
    · refine ⟨s, (congrArg (·.session? sender) hdb).trans hs, ?_⟩
      rw [acceptedOf_snoc, hnone]
      simpa using hhistory
    · refine ⟨_, hs', ?_⟩
      rw [acceptedOf_snoc, hsome, savedSession_violations]
      by_cases htype : event.eventType = eventType
      · subst htype
        cases (validateFaceEvent_policy hvalid).symm.trans hpolicy
        simpa using hhistory.recorded hvalid hrecorded
      · rw [hrecorded.others (Ne.symm htype)]
        simpa [htype] using hhistory
  · refine ⟨s, (serve_proctoring_of_ne hsender _ _ _).trans hs, ?_⟩
    have hnone : acceptedEvent sessionId (Transition.of serve store
        ⟨clock, .recordProctoringEvent sender connectionId candidateAssessmentId event⟩) = none := by
      simp [acceptedEvent, Transition.of, proctoringEvent, hsender]
    rw [acceptedOf_snoc, hnone]
    simpa using hhistory

theorem typeHistory_run {eventType : String} {policy : ℤ × ℤ}
    (hpolicy : faceProctoringPolicies eventType = some policy)
    (hs : store.db.session? sessionId = some s)
    (hnone : s.violations.filter (hasType eventType) = [])
    (hcalls : ∀ call ∈ calls, ReportsFaceEvent call.request) :
    TypeHistory sessionId eventType policy (trace serve store calls) (exec serve store calls) := by
  refine history_invariant (fun _ _ _ hcall h => h.step hpolicy hcall) hcalls ⟨s, hs, ?_⟩
  rw [hnone]
  exact ⟨by simp [acceptedOf, acceptedEvents], .none, .nil⟩

def NoFaceRecords (s : InterviewSession) : Prop :=
  ∀ eventType policy, faceProctoringPolicies eventType = some policy →
    s.violations.filter (hasType eventType) = []

end Run

end IBotCoreApi
