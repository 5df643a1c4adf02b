import IBotCoreApi.CanonicalViolations
import Mathlib.Order.Bounds.Basic
import Mathlib.Data.Set.Image

namespace IBotCoreApi
open Python FirstOccurrences KeyedLists Outcomes

def eventsAt (accepted : List FaceEvent) (start : String) : Set FaceEvent :=
  {event | event ∈ accepted ∧ event.conditionStartedAt = start}

def acceptedIds (accepted : List FaceEvent) : List Uuid := distinct (accepted.map (·.eventId))

def acceptedStarts (accepted : List FaceEvent) : List String :=
  distinct (accepted.map (·.conditionStartedAt))

def HoldsGreatest (entries : Json.Entries) (key : String) (values : Set ℤ) : Prop :=
  ∃ v, Json.get entries key = .int v ∧ IsGreatest values v

def IsConfidence (value : Json) : Prop := value = .null ∨ ∃ q, value = .float q

structure IsEpisode (accepted : List FaceEvent) (start : String) (episode : Json.Entries) :
    Prop where
  startedAt : Json.get episode "condition_started_at" = .str start
  duration : HoldsGreatest episode "max_observed_duration_ms"
    (FaceEvent.observedDurationMs '' eventsAt accepted start)
  samples : HoldsGreatest episode "sample_count" (FaceEvent.sampleCount '' eventsAt accepted start)
  faces : HoldsGreatest episode "max_face_count"
    (FaceEvent.maxFaceCount '' eventsAt accepted start)
  minConfidence : IsConfidence (Json.get episode "min_confidence")
  maxConfidence : IsConfidence (Json.get episode "max_confidence")

structure IsFaceRecord (terminationDurationMs : ℤ) (accepted : List FaceEvent) (record : Json) :
    Prop where
  turn : ∃ turn, record.field "turn_number" = .int turn
  ids : Json.get (metadata record) "event_ids" =
    .list ((acceptedIds accepted).map fun id => .str id.str)
  legacyId : Json.get (metadata record) "event_id" = .null
  eventCount : Json.get (metadata record) "event_count" = .int (acceptedIds accepted).length
  episodes : ∃ episodes, Json.get (metadata record) "episodes" = .list (episodes.map .dict) ∧
    List.Forall₂ (IsEpisode accepted) (acceptedStarts accepted) episodes
  occurrenceCount : Json.get (metadata record) "occurrence_count" =
    .int (acceptedStarts accepted).length
  duration : HoldsGreatest (metadata record) "max_observed_duration_ms"
    (FaceEvent.observedDurationMs '' {event | event ∈ accepted})
  triggered : Json.get (metadata record) "termination_triggered" =
    .bool (accepted.any fun event => terminationDurationMs ≤ event.observedDurationMs)

/-- The records of a type are the summary of the accepted events: none, or one. -/
inductive Summarizes (terminationDurationMs : ℤ) : List FaceEvent → List Json → Prop
  | none : Summarizes terminationDurationMs [] []
  | one {accepted : List FaceEvent} {record : Json} (hsome : accepted ≠ [])
      (hrecord : IsFaceRecord terminationDurationMs accepted record) :
      Summarizes terminationDurationMs accepted [record]

section Events

variable {accepted : List FaceEvent} {event : FaceEvent} {start : String}

theorem mem_acceptedStarts : start ∈ acceptedStarts accepted ↔ (eventsAt accepted start).Nonempty := by
  simp [acceptedStarts, eventsAt, Set.Nonempty]

theorem acceptedStarts_ne_nil (h : accepted ≠ []) : acceptedStarts accepted ≠ [] := by
  obtain ⟨first, rest, rfl⟩ := List.exists_cons_of_ne_nil h
  have hmem : first.conditionStartedAt ∈ acceptedStarts (first :: rest) :=
    mem_acceptedStarts.mpr ⟨first, List.mem_cons_self, rfl⟩
  exact List.ne_nil_of_mem hmem

theorem setOf_mem_acceptedStarts :
    {event | event ∈ accepted ∧ event.conditionStartedAt ∈ acceptedStarts accepted} =
      {event | event ∈ accepted} := by
  ext event
  refine and_iff_left_of_imp fun hmem => ?_
  exact mem_acceptedStarts.mpr ⟨event, hmem, rfl⟩

theorem eventsAt_snoc_self : eventsAt (accepted ++ [event]) event.conditionStartedAt =
    insert event (eventsAt accepted event.conditionStartedAt) := by
  ext other
  simp only [eventsAt, List.mem_append, List.mem_singleton, Set.mem_ofPred_eq, Set.mem_insert_iff]
  constructor
  · rintro ⟨hmem | rfl, hstart⟩
    · exact .inr ⟨hmem, hstart⟩
    · exact .inl rfl
  · rintro (rfl | ⟨hmem, hstart⟩)
    · exact ⟨.inr rfl, rfl⟩
    · exact ⟨.inl hmem, hstart⟩

theorem eventsAt_snoc_of_ne (accepted : List FaceEvent) (hne : start ≠ event.conditionStartedAt) :
    eventsAt (accepted ++ [event]) start = eventsAt accepted start := by
  ext other
  simp only [eventsAt, List.mem_append, List.mem_singleton, Set.mem_ofPred_eq]
  constructor
  · rintro ⟨hmem | rfl, hstart⟩
    · exact ⟨hmem, hstart⟩
    · exact absurd hstart.symm hne
  · exact fun ⟨hmem, hstart⟩ => ⟨.inl hmem, hstart⟩

theorem acceptedIds_snoc :
    acceptedIds (accepted ++ [event]) = pushNew (acceptedIds accepted) event.eventId := by
  simp [acceptedIds, distinct_snoc]

theorem acceptedStarts_snoc : acceptedStarts (accepted ++ [event]) =
    pushNew (acceptedStarts accepted) event.conditionStartedAt := by
  simp [acceptedStarts, distinct_snoc]

theorem map_str_acceptedIds : (acceptedIds accepted).map Uuid.str =
    distinct (accepted.map fun event => event.eventId.str) := by
  rw [acceptedIds, ← distinct_map Uuid.str_injective, List.map_map]
  rfl

theorem acceptedIds_isIdList : IsIdList ((acceptedIds accepted).map Uuid.str) where
  nodup := by
    rw [map_str_acceptedIds]
    exact nodup_distinct _
  nonempty := by
    intro h
    obtain ⟨id, _, hid⟩ := List.mem_map.mp h
    exact Uuid.str_ne_empty id hid

theorem IsEpisode.frame {episode : Json.Entries} (h : IsEpisode accepted start episode)
    (hne : start ≠ event.conditionStartedAt) : IsEpisode (accepted ++ [event]) start episode := by
  have hevents := eventsAt_snoc_of_ne accepted hne
  exact {
    startedAt := h.startedAt
    duration := hevents ▸ h.duration
    samples := hevents ▸ h.samples
    faces := hevents ▸ h.faces
    minConfidence := h.minConfidence
    maxConfidence := h.maxConfidence }

theorem startsAt_finds (start : String) :
    Finds (IsEpisode accepted) (startsAt start) start := by
  intro k episode hepisode
  simp [startsAt, hepisode.startedAt]

end Events

theorem intOrZero_of_int [Runtime] {entries : Json.Entries} {key : String} {v : ℤ}
    (h : Json.get entries key = .int v) : intOrZero entries key = .ok v := by
  rw [intOrZero, h, Json.toInt_orElse_zero]

section Merge

variable [Runtime] {accepted : List FaceEvent} {event : FaceEvent} {start : String}
  {current : Option Json.Entries}

/-- The episode that a start finds: the one of the start, or none when no event has it. -/
def FoundEpisode (accepted : List FaceEvent) (start : String) : Option Json.Entries → Prop
  | some episode => IsEpisode accepted start episode
  | none => start ∉ acceptedStarts accepted

omit [Runtime] in
theorem foundEpisode_find? {episodes : List Json.Entries}
    (h : List.Forall₂ (IsEpisode accepted) (acceptedStarts accepted) episodes) (start : String) :
    FoundEpisode accepted start (episodes.find? (startsAt start)) := by
  cases hfind : episodes.find? (startsAt start) with
  | none => exact find?_none h (startsAt_finds start) hfind
  | some episode => exact (find?_some h (startsAt_finds start) hfind).1

theorem intOrZero_current {key : String} {measure : FaceEvent → ℤ}
    (hcurrent : FoundEpisode accepted event.conditionStartedAt current)
    (hkey : ∀ episode, IsEpisode accepted event.conditionStartedAt episode →
      HoldsGreatest episode key (measure '' eventsAt accepted event.conditionStartedAt))
    (hmeasure : 0 ≤ measure event) :
    ∃ v, intOrZero (current.getD []) key = .ok v ∧
      IsGreatest (measure '' eventsAt (accepted ++ [event]) event.conditionStartedAt)
        (max v (measure event)) := by
  rw [eventsAt_snoc_self, Set.image_insert_eq]
  cases current with
  | none =>
    have hempty : eventsAt accepted event.conditionStartedAt = ∅ :=
      Set.not_nonempty_iff_eq_empty.mp fun h => hcurrent (mem_acceptedStarts.mpr h)
    refine ⟨0, rfl, ?_⟩
    rw [hempty, Set.image_empty, max_eq_right hmeasure]
    simp
  | some episode =>
    obtain ⟨v, hv, hgreatest⟩ := hkey episode hcurrent
    refine ⟨v, intOrZero_of_int hv, ?_⟩
    · rw [max_comm]
      exact hgreatest.insert _

theorem combineConfidence_ok (pick : ℚ → ℚ → ℚ) {stored : Json} (h : IsConfidence stored)
    (incoming : Option ℚ) : ∃ combined, combineConfidence pick stored incoming = .ok combined := by
  rcases h with rfl | ⟨q, rfl⟩ <;> exact ⟨_, rfl⟩

omit [Runtime] in
theorem isConfidence_optionalFloat (confidence : Option ℚ) :
    IsConfidence (optionalFloat confidence) := by
  cases confidence with
  | none => exact .inl rfl
  | some q => exact .inr ⟨q, rfl⟩

omit [Runtime] in
theorem isConfidence_current {key : String}
    (hkey : ∀ episode, IsEpisode accepted start episode → IsConfidence (Json.get episode key))
    (hcurrent : FoundEpisode accepted start current) :
    IsConfidence (Json.get (current.getD []) key) := by
  cases current with
  | none => exact .inl rfl
  | some episode => exact hkey episode hcurrent

/-- Merging an event sums up one more event. -/
theorem mergeFaceEpisode_isEpisode (hcurrent : FoundEpisode accepted event.conditionStartedAt current)
    (recordedAt : String) :
    ∃ payload, mergeFaceEpisode current event recordedAt = .ok payload ∧
      IsEpisode (accepted ++ [event]) event.conditionStartedAt payload := by
  have hduration := event.duration_bounds.1
  have hsamples := event.sampleCount_bounds.1
  obtain ⟨duration, hduration, hlongest⟩ := intOrZero_current hcurrent
    (fun _ h => h.duration) (by omega)
  obtain ⟨samples, hsamples, hmost⟩ := intOrZero_current hcurrent (fun _ h => h.samples) (by omega)
  obtain ⟨faces, hfaces, hcrowd⟩ := intOrZero_current hcurrent (fun _ h => h.faces)
    event.maxFaceCount_bounds.1
  obtain ⟨lowest, hlowest⟩ := combineConfidence_ok min
    (isConfidence_current (fun _ h => h.minConfidence) hcurrent) event.minConfidence
  obtain ⟨highest, hhighest⟩ := combineConfidence_ok max
    (isConfidence_current (fun _ h => h.maxConfidence) hcurrent) event.maxConfidence
  simp only [mergeFaceEpisode, hduration, hsamples, hfaces, hlowest, hhighest]
  refine ⟨_, rfl, ?_⟩
  exact {
    startedAt := by simp
    duration := ⟨_, by simp, hlongest⟩
    samples := ⟨_, by simp, hmost⟩
    faces := ⟨_, by simp, hcrowd⟩
    minConfidence := by simpa using isConfidence_optionalFloat lowest
    maxConfidence := by simpa using isConfidence_optionalFloat highest }

theorem maxObservedDuration_isGreatest {keys : List String} {episodes : List Json.Entries}
    (h : List.Forall₂ (IsEpisode accepted) keys episodes) (hsome : keys ≠ []) :
    ∃ v, maxObservedDuration episodes = .ok v ∧ IsGreatest
      (FaceEvent.observedDurationMs '' {event | event ∈ accepted ∧ event.conditionStartedAt ∈ keys})
      v := by
  induction h with
  | nil => exact absurd rfl hsome
  | @cons key episode keys episodes hepisode hrest ih =>
    obtain ⟨v, hv, hgreatest⟩ := hepisode.duration
    have hread := intOrZero_of_int hv
    cases hrest with
    | nil =>
      refine ⟨v, hread, ?_⟩
      simpa [eventsAt] using hgreatest
    | @cons key' episode' keys' episodes' hepisode' hrest' =>
      obtain ⟨w, hw, hrestGreatest⟩ := ih (by simp)
      refine ⟨max v w, ?_, ?_⟩
      · rw [maxObservedDuration, hread, hw]
        · rfl
        · simp
      · have hunion : {event | event ∈ accepted ∧ event.conditionStartedAt ∈ key :: key' :: keys'} =
            eventsAt accepted key ∪
              {event | event ∈ accepted ∧ event.conditionStartedAt ∈ key' :: keys'} := by
          ext event
          simp only [eventsAt, List.mem_cons, Set.mem_union, Set.mem_ofPred_eq]
          tauto
        rw [hunion, Set.image_union]
        exact hgreatest.union hrestGreatest

end Merge

section Record

variable [Runtime] {accepted : List FaceEvent} {event : FaceEvent} {existing transcript : List Json}
  {episodes : List Json.Entries} {terminationDurationMs : ℤ}

/-- What a call reads of the records that are there. -/
structure ReadsHistory (terminationDurationMs : ℤ) (accepted : List FaceEvent)
    (existing transcript : List Json) (episodes : List Json.Entries) : Prop where
  loaded : faceEpisodes existing = .ok episodes
  episodes : List.Forall₂ (IsEpisode accepted) (acceptedStarts accepted) episodes
  ids : eventIds existing = (acceptedIds accepted).map Uuid.str
  triggered : (Json.get (metadata (existing.headD (.dict []))) "termination_triggered").truthy =
    accepted.any fun event => terminationDurationMs ≤ event.observedDurationMs
  turn : ∃ turn, turnNumber (existing.headD (.dict [])) transcript = .ok turn

omit [Runtime] in
theorem dicts_map_dict (episodes : List Json.Entries) : dicts (episodes.map .dict) = episodes := by
  induction episodes with
  | nil => rfl
  | cons episode episodes ih =>
    simp only [List.map_cons, dicts, List.filterMap_cons]
    exact congrArg _ ih

theorem faceEpisodes_singleton {record : Json} {episodes : List Json.Entries}
    (h : Json.get (metadata record) "episodes" = .list (episodes.map .dict)) (hne : episodes ≠ []) :
    faceEpisodes [record] = .ok episodes := by
  obtain ⟨first, rest, rfl⟩ := List.exists_cons_of_ne_nil hne
  have hdicts := dicts_map_dict (first :: rest)
  rw [List.map_cons] at h hdicts
  simp only [faceEpisodes, recordEpisodes, h, hdicts]
  simp [bind, Except.bind, pure, Except.pure]

theorem Summarizes.reads (h : Summarizes terminationDurationMs accepted existing)
    (transcript : List Json) :
    ∃ episodes, ReadsHistory terminationDurationMs accepted existing transcript episodes := by
  cases h with
  | none => exact ⟨[], rfl, .nil, rfl, rfl, turnNumber_ok transcript (.inl rfl)⟩
  | @one _ record hsome hrecord =>
    obtain ⟨episodes, hstored, hepisodes⟩ := hrecord.episodes
    refine ⟨episodes, ?_, hepisodes, ?_, ?_, turnNumber_ok transcript (.inr hrecord.turn)⟩
    · have hne : episodes ≠ [] := by
        rintro rfl
        exact acceptedStarts_ne_nil hsome (List.forall₂_nil_right_iff.mp hepisodes)
      exact faceEpisodes_singleton hstored hne
    · apply eventIds_canonical acceptedIds_isIdList ?_ hrecord.legacyId
      rw [hrecord.ids, List.map_map]
      rfl
    · rw [List.headD_cons, hrecord.triggered]
      rfl

/-- The record that is written sums up one more event. -/
theorem faceViolation_isFaceRecord {policy : ℤ × ℤ} {payload : Json.Entries}
    (hreads : ReadsHistory policy.2 accepted existing transcript episodes)
    (hpayload : IsEpisode (accepted ++ [event]) event.conditionStartedAt payload)
    (connectionId recordedAt : String) :
    ∃ record, faceViolation existing transcript policy event connectionId recordedAt
        (pushNew (eventIds existing) event.eventId.str)
        (putEpisode event.conditionStartedAt payload episodes) = .ok record ∧
      hasType event.eventType record ∧ IsFaceRecord policy.2 (accepted ++ [event]) record := by
  have hepisodes : List.Forall₂ (IsEpisode (accepted ++ [event]))
      (acceptedStarts (accepted ++ [event]))
      (putEpisode event.conditionStartedAt payload episodes) := by
    rw [acceptedStarts_snoc]
    exact forall₂_put hreads.episodes (nodup_distinct _) (startsAt_finds _) hpayload
      fun _ _ hother hne => hother.frame hne
  obtain ⟨longest, hlongest, hgreatest⟩ :=
    maxObservedDuration_isGreatest hepisodes (acceptedStarts_ne_nil (by simp))
  rw [setOf_mem_acceptedStarts] at hgreatest
  obtain ⟨turn, hturn⟩ := hreads.turn
  have hids : pushNew (eventIds existing) event.eventId.str =
      (acceptedIds (accepted ++ [event])).map Uuid.str := by
    rw [hreads.ids, acceptedIds_snoc, pushNew_map Uuid.str_injective]
  simp only [faceViolation, hlongest, hturn, hids, hreads.triggered]
  refine ⟨_, rfl, by simp [hasType], ?_⟩
  exact {
    turn := ⟨turn, by simp⟩
    ids := by simp [metadata]
    legacyId := by simp [metadata]
    eventCount := by simp [metadata]
    episodes := ⟨_, by simp [metadata], hepisodes⟩
    occurrenceCount := by simp [metadata, hepisodes.length_eq]
    duration := ⟨longest, by simp [metadata], hgreatest⟩
    triggered := by simp [metadata, Bool.or_comm] }

end Record

end IBotCoreApi
