import IBotCoreApi.FaceEpisodes

namespace IBotCoreApi
open Python Outcomes FirstOccurrences KeyedLists InterviewSessionRepository

/-- `occurrence_count` as a rejected call reports it. -/
def reportedOccurrences (existing : List Json) : ℤ :=
  (positiveInt (Json.get (metadata (existing.headD (.dict []))) "occurrence_count")).getD
    existing.length

def HasDuration (entries : Json.Entries) (d : ℤ) : Prop :=
  Json.get entries "max_observed_duration_ms" = .int d

/-- The durations that a record knows: its own one, its longest one, and those of its episodes. -/
def knownDurations (record : Json) : Set ℤ :=
  {d | Json.get (metadata record) "observed_duration_ms" = .int d ∨
    HasDuration (metadata record) d ∨ ∃ episode ∈ canonicalEpisodes record, HasDuration episode d}

def terminationTriggered (record : Json) : Bool :=
  (Json.get (metadata record) "termination_triggered").truthy

/-- The formats of a face record: episodes that cover what the record declares, or one event. -/
inductive FaceRecordFormat (record : Json) : Prop
  | canonical {episodes : List Json.Entries} (hsome : episodes ≠ [])
      (hepisodes : Json.get (metadata record) "episodes" = .list (episodes.map .dict))
      (hdurations : ∀ episode ∈ episodes, ∃ d, HasDuration episode d)
      (hcount : ∀ n, positiveInt (Json.get (metadata record) "occurrence_count") = some n →
        n ≤ episodes.length)
      (hlongest : ∀ d, HasDuration (metadata record) d →
        ∃ episode ∈ episodes, ∃ d', HasDuration episode d' ∧ d ≤ d')
      (hevent : Json.get (metadata record) "observed_duration_ms" = .null)
  | legacy (hepisodes : Json.get (metadata record) "episodes" = .null)
      (hcount : ∀ n, positiveInt (Json.get (metadata record) "occurrence_count") = some n → n ≤ 1)
      (hlongest : Json.get (metadata record) "max_observed_duration_ms" = .null)
      (hduration : Json.get (metadata record) "observed_duration_ms" = .null ∨
        ∃ d, Json.get (metadata record) "observed_duration_ms" = .int d)

variable [Runtime]

/-- What a call keeps of the records of its type. -/
structure KeepsEvidence (existing existing' : List Json) : Prop where
  ids : ∀ id ∈ eventIds existing, id ∈ eventIds existing'
  occurrences : reportedOccurrences existing ≤ reportedOccurrences existing'
  durations : ∀ record ∈ existing, ∀ d ∈ knownDurations record,
    ∃ record' ∈ existing', ∃ d' ∈ knownDurations record', d ≤ d'
  triggered : existing.any terminationTriggered → existing'.any terminationTriggered

def legacyStart (record : Json) : String :=
  ((Json.get (metadata record) "condition_started_at").orElse
    ((record.field "timestamp").orElse (.str ""))).pyStr

/-- The record has no episodes, and neither the start of its condition nor a timestamp. -/
def isUndated (record : Json) : Bool :=
  (canonicalEpisodes record).isEmpty && legacyStart record == ""

omit [Runtime] in
/-- The episodes beyond one in each record. -/
def surplus (existing : List Json) : ℕ :=
  (existing.map fun record => (canonicalEpisodes record).length - 1).sum

def OpensEpisode (existing : List Json) (event : FaceEvent) : Prop :=
  ∀ episodes, faceEpisodes existing = .ok episodes →
    episodes.find? (startsAt event.conditionStartedAt) = none

/-- The records that are there lose nothing to the event: the undated ones are no more than the
surplus of episodes and the episode that the event opens, none of them knows a duration above all
others, and the mark of termination is on the first record if it is on any. -/
structure LosesNothing (terminationDurationMs : ℤ) (event : FaceEvent) (existing : List Json) :
    Prop where
  occurrences : (positiveInt (Json.get (metadata (existing.headD (.dict [])))
      "occurrence_count")).isSome ∨ existing.countP isUndated ≤ surplus existing ∨
    (OpensEpisode existing event ∧ existing.countP isUndated ≤ surplus existing + 1)
  durations : ∀ record ∈ existing, isUndated record → ∀ d ∈ knownDurations record,
    d ≤ event.observedDurationMs ∨ ∃ other ∈ existing, isUndated other = false ∧
      ∃ d' ∈ knownDurations other, d ≤ d'
  triggered : existing.any terminationTriggered → terminationDurationMs ≤ event.observedDurationMs ∨
    terminationTriggered (existing.headD (.dict []))

section Load

variable {record : Json} {here episodes : List Json.Entries} {existing : List Json} {d : ℤ}

omit [Runtime] in
theorem canonicalEpisodes_eq (h : Json.get (metadata record) "episodes" = .list (episodes.map .dict)) :
    canonicalEpisodes record = episodes := by
  simp [canonicalEpisodes, h, dicts_map_dict]

theorem recordEpisodes_canonical (hsome : episodes ≠ [])
    (h : Json.get (metadata record) "episodes" = .list (episodes.map .dict)) :
    recordEpisodes record = .ok episodes := by
  obtain ⟨first, rest, rfl⟩ := List.exists_cons_of_ne_nil hsome
  have hdicts := dicts_map_dict (first :: rest)
  rw [List.map_cons] at h hdicts
  rw [recordEpisodes, h]
  exact congrArg Except.ok hdicts

theorem recordEpisodes_legacy (h : Json.get (metadata record) "episodes" = .null) :
    recordEpisodes record = if legacyStart record = "" then .ok []
      else (legacyEpisode record (legacyStart record)).map ([·]) := by
  rw [recordEpisodes, h]
  rfl

theorem legacyEpisode_duration {start : String} {episode : Json.Entries}
    (h : legacyEpisode record start = .ok episode) :
    ∃ d, intOrZero (metadata record) "observed_duration_ms" = .ok d ∧ HasDuration episode d := by
  obtain ⟨d, hd, h⟩ := bind_eq_ok.mp h
  obtain ⟨samples, _, h⟩ := bind_eq_ok.mp h
  obtain ⟨faces, _, h⟩ := bind_eq_ok.mp h
  cases h
  exact ⟨d, hd, rfl⟩

structure Contributes (record : Json) (here : List Json.Entries) : Prop where
  length : 1 + ((canonicalEpisodes record).length - 1) =
    here.length + if isUndated record then 1 else 0
  durations : ∀ episode ∈ here, ∃ d, HasDuration episode d
  keeps : isUndated record = false → ∀ d ∈ knownDurations record,
    ∃ episode ∈ here, ∃ d', HasDuration episode d' ∧ d ≤ d'
  known : ∀ episode ∈ here, ∀ d, HasDuration episode d → 0 < d →
    isUndated record = false ∧ d ∈ knownDurations record

theorem FaceRecordFormat.contributes (hformat : FaceRecordFormat record)
    (h : recordEpisodes record = .ok here) : Contributes record here := by
  cases hformat with
  | @canonical episodes hsome hepisodes hdurations hcount hlongest hevent =>
    rw [recordEpisodes_canonical hsome hepisodes] at h
    cases h
    have heq := canonicalEpisodes_eq hepisodes
    have hpositive := List.length_pos_of_ne_nil hsome
    -- a canonical record is loaded as it is, and its longest duration is one of its episodes'
    have hdated : isUndated record = false := by simp [isUndated, heq, hsome]
    refine ⟨?_, hdurations, ?_, ?_⟩
    · rw [heq, hdated, if_neg Bool.false_ne_true]
      omega
    · rintro _ d (hown | htop | ⟨episode, hepisode, hd⟩)
      · rw [hevent] at hown
        cases hown
      · exact hlongest d htop
      · rw [heq] at hepisode
        exact ⟨episode, hepisode, d, hd, le_rfl⟩
    · intro episode hepisode d hd _
      exact ⟨hdated, .inr (.inr ⟨episode, heq ▸ hepisode, hd⟩)⟩
  | legacy hepisodes hcount hlongest hduration =>
    have hnone : canonicalEpisodes record = [] := by simp [canonicalEpisodes, hepisodes]
    rw [recordEpisodes_legacy hepisodes] at h
    -- a legacy record without a start loads no episode, so what it knows is lost
    by_cases hstart : legacyStart record = ""
    · rw [if_pos hstart] at h
      cases h
      have hundated : isUndated record := by simp [isUndated, hnone, hstart]
      refine ⟨by simp [hnone, hundated], by simp, ?_, by simp⟩
      rw [hundated]
      exact fun hfalse => absurd hfalse (by simp)
    · rw [if_neg hstart] at h
      -- one with a start loads a single episode of its own duration
      obtain ⟨episode, hepisode, rfl⟩ := map_eq_ok.mp h
      obtain ⟨d, hd, hhas⟩ := legacyEpisode_duration hepisode
      have hdated : isUndated record = false := by simp [isUndated, hstart]
      refine ⟨by simp [hnone, hdated], by simpa using ⟨d, hhas⟩, ?_, ?_⟩
      · rintro _ d' (hown | htop | ⟨_, hmem, _⟩)
        · cases hd.symm.trans (intOrZero_of_int hown)
          exact ⟨episode, List.mem_singleton_self episode, d, hhas, le_rfl⟩
        · rw [HasDuration, hlongest] at htop
          cases htop
        · rw [hnone] at hmem
          cases hmem
      · intro found hfound d' hd' hpositive
        rw [List.mem_singleton.mp hfound] at hd'
        cases hhas.symm.trans hd'
        refine ⟨hdated, .inl ?_⟩
        rcases hduration with hnull | ⟨own, hown⟩
        · -- a missing duration is loaded as zero
          rw [intOrZero, hnull] at hd
          cases hd
          exact absurd hpositive (lt_irrefl 0)
        · cases hd.symm.trans (intOrZero_of_int hown)
          exact hown

structure LoadsEvidence (existing : List Json) (episodes : List Json.Entries) : Prop where
  length : existing.length + surplus existing = episodes.length + existing.countP isUndated
  durations : ∀ episode ∈ episodes, ∃ d, HasDuration episode d
  keeps : ∀ record ∈ existing, isUndated record = false → ∀ d ∈ knownDurations record,
    ∃ episode ∈ episodes, ∃ d', HasDuration episode d' ∧ d ≤ d'
  known : ∀ episode ∈ episodes, ∀ d, HasDuration episode d → 0 < d →
    ∃ record ∈ existing, isUndated record = false ∧ d ∈ knownDurations record

theorem faceEpisodes_loadsEvidence (hformat : ∀ record ∈ existing, FaceRecordFormat record)
    (h : faceEpisodes existing = .ok episodes) : LoadsEvidence existing episodes := by
  induction existing generalizing episodes with
  | nil =>
    cases h
    exact ⟨rfl, by simp, by simp, by simp⟩
  | cons record rest ih =>
    obtain ⟨here, hhere, h⟩ := bind_eq_ok.mp h
    obtain ⟨others, hothers, h⟩ := bind_eq_ok.mp h
    cases h
    have hfirst := (hformat record List.mem_cons_self).contributes hhere
    have hrest := ih (fun other hother => hformat other (List.mem_cons_of_mem record hother)) hothers
    refine ⟨?_, ?_, ?_, ?_⟩
    · have hlength := hfirst.length
      have hlengths := hrest.length
      simp only [surplus, List.map_cons, List.sum_cons, List.length_cons, List.length_append,
        List.countP_cons] at hlengths ⊢
      omega
    · intro episode hepisode
      rcases List.mem_append.mp hepisode with hmem | hmem
      · exact hfirst.durations episode hmem
      · exact hrest.durations episode hmem
    · intro other hother hdated d hd
      rcases List.mem_cons.mp hother with rfl | hother
      · obtain ⟨episode, hepisode, hkept⟩ := hfirst.keeps hdated d hd
        exact ⟨episode, List.mem_append_left _ hepisode, hkept⟩
      · obtain ⟨episode, hepisode, hkept⟩ := hrest.keeps other hother hdated d hd
        exact ⟨episode, List.mem_append_right _ hepisode, hkept⟩
    · intro episode hepisode d hd hpositive
      rcases List.mem_append.mp hepisode with hmem | hmem
      · exact ⟨record, List.mem_cons_self, hfirst.known episode hmem d hd hpositive⟩
      · obtain ⟨other, hother, hknown⟩ := hrest.known episode hmem d hd hpositive
        exact ⟨other, List.mem_cons_of_mem record hother, hknown⟩

end Load

section Written

variable {event : FaceEvent} {existing transcript : List Json} {episodes : List Json.Entries}
  {policy : ℤ × ℤ} {connectionId recordedAt : String} {ids : List String} {record : Json} {v : ℤ}

structure WrittenRecord (existing : List Json) (policy : ℤ × ℤ) (event : FaceEvent)
    (ids : List String) (episodes : List Json.Entries) (longest : ℤ) (record : Json) : Prop where
  typed : hasType event.eventType record
  ids : Json.get (metadata record) "event_ids" = .list (ids.map .str)
  legacyId : Json.get (metadata record) "event_id" = .null
  occurrences : Json.get (metadata record) "occurrence_count" = .int episodes.length
  episodes : Json.get (metadata record) "episodes" = .list (episodes.map .dict)
  duration : HasDuration (metadata record) longest
  ownDuration : Json.get (metadata record) "observed_duration_ms" = .null
  triggered : terminationTriggered record = (decide (event.observedDurationMs ≥ policy.2) ||
    terminationTriggered (existing.headD (.dict [])))

theorem faceViolation_written (h : faceViolation existing transcript policy event connectionId
      recordedAt ids episodes = .ok record) :
    ∃ longest, maxObservedDuration episodes = .ok longest ∧
      WrittenRecord existing policy event ids episodes longest record := by
  obtain ⟨longest, hlongest, h⟩ := bind_eq_ok.mp h
  obtain ⟨turn, _, h⟩ := bind_eq_ok.mp h
  cases h
  exact ⟨longest, hlongest, {
    typed := by simp [hasType]
    ids := rfl
    legacyId := rfl
    occurrences := rfl
    episodes := rfl
    duration := rfl
    ownDuration := rfl
    triggered := rfl }⟩

theorem maxObservedDuration_ok (hdurations : ∀ episode ∈ episodes, ∃ d, HasDuration episode d)
    (h : maxObservedDuration episodes = .ok v) :
    (∀ episode ∈ episodes, ∀ d, HasDuration episode d → d ≤ v) ∧
      ∃ episode ∈ episodes, HasDuration episode v := by
  induction episodes generalizing v with
  | nil => cases h
  | cons episode rest ih =>
    obtain ⟨d, hd⟩ := hdurations episode List.mem_cons_self
    cases rest with
    | nil =>
      cases h.symm.trans (intOrZero_of_int hd)
      refine ⟨?_, episode, List.mem_cons_self, hd⟩
      intro other hother d' hd'
      rw [List.mem_singleton.mp hother] at hd'
      cases hd.symm.trans hd'
      exact le_rfl
    | cons next rest =>
      obtain ⟨here, hhere, h⟩ := bind_eq_ok.mp h
      obtain ⟨others, hothers, h⟩ := bind_eq_ok.mp h
      cases h
      cases hhere.symm.trans (intOrZero_of_int hd)
      obtain ⟨hle, longest, hlongest, hv⟩ := ih
        (fun other hother => hdurations other (List.mem_cons_of_mem episode hother)) hothers
      refine ⟨?_, ?_⟩
      · intro other hother d' hd'
        rcases List.mem_cons.mp hother with rfl | hother
        · cases hd.symm.trans hd'
          exact le_max_left _ _
        · exact (hle other hother d' hd').trans (le_max_right _ _)
      · rcases max_choice d others with hmax | hmax
        · exact ⟨episode, List.mem_cons_self, by rwa [hmax]⟩
        · exact ⟨longest, List.mem_cons_of_mem episode hlongest, by rwa [hmax]⟩

theorem mergeFaceEpisode_duration {current : Option Json.Entries} {payload : Json.Entries}
    (h : mergeFaceEpisode current event recordedAt = .ok payload) :
    ∃ old, intOrZero (current.getD []) "max_observed_duration_ms" = .ok old ∧
      HasDuration payload (max old event.observedDurationMs) := by
  obtain ⟨lowest, _, h⟩ := bind_eq_ok.mp h
  obtain ⟨highest, _, h⟩ := bind_eq_ok.mp h
  obtain ⟨old, hold, h⟩ := bind_eq_ok.mp h
  obtain ⟨samples, _, h⟩ := bind_eq_ok.mp h
  obtain ⟨faces, _, h⟩ := bind_eq_ok.mp h
  cases h
  exact ⟨old, hold, rfl⟩

theorem putEpisode_durations {payload : Json.Entries}
    (hdurations : ∀ episode ∈ episodes, ∃ d, HasDuration episode d)
    (hmerge : mergeFaceEpisode (episodes.find? (startsAt event.conditionStartedAt)) event
      recordedAt = .ok payload) :
    ∀ episode ∈ putEpisode event.conditionStartedAt payload episodes,
      ∃ d, HasDuration episode d := by
  intro episode hepisode
  obtain ⟨old, _, hpayload⟩ := mergeFaceEpisode_duration hmerge
  rcases mem_of_mem_put hepisode with rfl | hmem
  · exact ⟨_, hpayload⟩
  · exact hdurations episode hmem

theorem le_longest_iff {payload : Json.Entries}
    (hdurations : ∀ episode ∈ episodes, ∃ d, HasDuration episode d)
    (hmerge : mergeFaceEpisode (episodes.find? (startsAt event.conditionStartedAt)) event
      recordedAt = .ok payload)
    (hlongest : maxObservedDuration
      (putEpisode event.conditionStartedAt payload episodes) = .ok v) (d : ℤ) :
    d ≤ v ↔ d ≤ event.observedDurationMs ∨
      ∃ episode ∈ episodes, ∃ d', HasDuration episode d' ∧ d ≤ d' := by
  obtain ⟨old, hold, hpayload⟩ := mergeFaceEpisode_duration hmerge
  obtain ⟨hle, longest, hmem, hhas⟩ := maxObservedDuration_ok
    (putEpisode_durations hdurations hmerge) hlongest
  have hpayloadLe := hle payload (self_mem_put _ payload episodes) _ hpayload
  constructor
  · intro hd
    rcases mem_of_mem_put hmem with rfl | hmem
    · cases hhas.symm.trans hpayload
      rcases le_max_iff.mp hd with hd | hd
      · cases hfind : episodes.find? (startsAt event.conditionStartedAt) with
        | none =>
          -- a new episode starts from zero
          rw [hfind] at hold
          cases hold
          exact .inl (hd.trans (by have := event.duration_bounds.1; omega))
        | some current =>
          have hcurrent := List.mem_of_find?_eq_some hfind
          obtain ⟨d', hd'⟩ := hdurations current hcurrent
          rw [hfind] at hold
          cases hold.symm.trans (intOrZero_of_int hd')
          exact .inr ⟨current, hcurrent, _, hd', hd⟩
      · exact .inl hd
    · exact .inr ⟨longest, hmem, v, hhas, hd⟩
  · rintro (hd | ⟨episode, hepisode, d', hd', hdd'⟩)
    · exact hd.trans ((le_max_right old _).trans hpayloadLe)
    · rcases mem_put_of_mem hepisode with hmem | hfind
      · exact hdd'.trans (hle episode hmem d' hd')
      · -- the replaced episode is the one that the merge has read
        rw [hfind] at hold
        cases hold.symm.trans (intOrZero_of_int hd')
        exact hdd'.trans ((le_max_left _ _).trans hpayloadLe)

end Written

section Consolidation

variable {db db' : Database} {clock : Clock} {sessionId candidateAssessmentId : Uuid}
  {s : InterviewSession} {connectionId : String} {event : FaceEvent} {existing : List Json}
  {episodes : List Json.Entries} {policy : ℤ × ℤ} {record : Json} {longest : ℤ}

omit [Runtime] in
theorem reportedOccurrences_written {ids : List String}
    (h : WrittenRecord existing policy event ids episodes longest record) (hsome : episodes ≠ []) :
    reportedOccurrences [record] = episodes.length := by
  have hpositive := List.length_pos_of_ne_nil hsome
  have hcount : positiveInt (.int episodes.length) = some (episodes.length : ℤ) :=
    if_neg (by omega)
  rw [reportedOccurrences, List.headD_cons, h.occurrences, hcount]
  rfl

theorem declared_le (hformat : ∀ record ∈ existing, FaceRecordFormat record)
    (h : faceEpisodes existing = .ok episodes) {n : ℤ}
    (hn : positiveInt (Json.get (metadata (existing.headD (.dict []))) "occurrence_count") =
      some n) : n ≤ max 1 episodes.length := by
  cases existing with
  | nil => cases hn
  | cons record rest =>
    obtain ⟨here, hhere, h⟩ := bind_eq_ok.mp h
    obtain ⟨others, _, h⟩ := bind_eq_ok.mp h
    cases h
    rw [List.headD_cons] at hn
    cases hformat record List.mem_cons_self with
    | canonical hsome hepisodes _ hcount =>
      rw [recordEpisodes_canonical hsome hepisodes] at hhere
      cases hhere
      have hle := hcount n hn
      rw [List.length_append]
      omega
    | legacy _ hcount =>
      have hle := hcount n hn
      omega

theorem occurrences_kept_iff {payload : Json.Entries} {ids : List String}
    (hformat : ∀ record ∈ existing, FaceRecordFormat record)
    (hloaded : faceEpisodes existing = .ok episodes)
    (hwritten : WrittenRecord existing policy event ids
      (putEpisode event.conditionStartedAt payload episodes) longest record) :
    reportedOccurrences existing ≤ reportedOccurrences [record] ↔
      ((positiveInt (Json.get (metadata (existing.headD (.dict []))) "occurrence_count")).isSome ∨
        existing.countP isUndated ≤ surplus existing ∨
        (OpensEpisode existing event ∧ existing.countP isUndated ≤ surplus existing + 1)) := by
  have hlength := (faceEpisodes_loadsEvidence hformat hloaded).length
  have hput := length_put (startsAt event.conditionStartedAt) payload episodes
  -- the loaded episodes are the only ones, so a condition on them all is one on these
  have hopens : OpensEpisode existing event ↔
      episodes.find? (startsAt event.conditionStartedAt) = none := by
    refine ⟨fun h => h episodes hloaded, fun h episodes' hloaded' => ?_⟩
    cases hloaded.symm.trans hloaded'
    exact h
  have hsome : putEpisode event.conditionStartedAt payload episodes ≠ [] :=
    List.ne_nil_of_mem (self_mem_put _ payload episodes)
  have hpositive := List.length_pos_of_ne_nil hsome
  rw [reportedOccurrences_written hwritten hsome, hopens]
  change _ ≤ ((put _ payload episodes).length : ℤ) ↔ _
  change 0 < (put _ payload episodes).length at hpositive
  rw [hput] at hpositive ⊢
  -- the stored records count what the first one declares, or else their own number
  cases hn : positiveInt (Json.get (metadata (existing.headD (.dict []))) "occurrence_count") with
  | some n =>
    have hle := declared_le hformat hloaded hn
    refine iff_of_true ?_ (.inl rfl)
    rw [reportedOccurrences, hn, Option.getD_some]
    omega
  | none =>
    rw [reportedOccurrences, hn, Option.getD_none]
    by_cases hfind : episodes.find? (startsAt event.conditionStartedAt) = none
    · simp only [hfind, if_true, Option.isSome_none, Bool.false_eq_true, false_or, true_and]
      omega
    · simp only [hfind, if_false, Option.isSome_none, Bool.false_eq_true, false_or, false_and,
        or_false]
      omega

theorem durations_kept_iff {payload : Json.Entries} {ids : List String} {recordedAt : String}
    (hformat : ∀ record ∈ existing, FaceRecordFormat record)
    (hloaded : faceEpisodes existing = .ok episodes)
    (hmerge : mergeFaceEpisode (episodes.find? (startsAt event.conditionStartedAt)) event
      recordedAt = .ok payload)
    (hlongest : maxObservedDuration
      (putEpisode event.conditionStartedAt payload episodes) = .ok longest)
    (hwritten : WrittenRecord existing policy event ids
      (putEpisode event.conditionStartedAt payload episodes) longest record) :
    (∀ other ∈ existing, ∀ d ∈ knownDurations other, ∃ record' ∈ [record],
        ∃ d' ∈ knownDurations record', d ≤ d') ↔
      ∀ other ∈ existing, isUndated other → ∀ d ∈ knownDurations other,
        d ≤ event.observedDurationMs ∨ ∃ dated ∈ existing, isUndated dated = false ∧
          ∃ d' ∈ knownDurations dated, d ≤ d' := by
  have hloads := faceEpisodes_loadsEvidence hformat hloaded
  have hlongest_iff := le_longest_iff hloads.durations hmerge hlongest
  obtain ⟨hle, _⟩ := maxObservedDuration_ok (putEpisode_durations hloads.durations hmerge) hlongest
  -- the new record knows its longest duration and those of its episodes, none of them longer
  have hknows (d : ℤ) : (∃ record' ∈ [record], ∃ d' ∈ knownDurations record', d ≤ d') ↔
      d ≤ longest := by
    constructor
    · rintro ⟨record', hrecord', d', hd', hdd'⟩
      rw [List.mem_singleton.mp hrecord'] at hd'
      rcases hd' with hown | htop | ⟨episode, hepisode, hd'⟩
      · cases hwritten.ownDuration.symm.trans hown
      · cases hwritten.duration.symm.trans htop
        exact hdd'
      · rw [canonicalEpisodes_eq hwritten.episodes] at hepisode
        exact hdd'.trans (hle episode hepisode d' hd')
    · exact fun hd => ⟨record, List.mem_singleton_self record, longest, .inr (.inl hwritten.duration), hd⟩
  simp only [hknows, hlongest_iff]
  constructor
  · intro hkept other hother _ d hd
    rcases hkept other hother d hd with hevent | ⟨episode, hepisode, d', hd', hdd'⟩
    · exact .inl hevent
    · by_cases hpositive : 0 < d'
      · obtain ⟨dated, hdated, hnot, hknown⟩ := hloads.known episode hepisode d' hd' hpositive
        exact .inr ⟨dated, hdated, hnot, d', hknown, hdd'⟩
      -- a duration of zero is exceeded by every event
      · have hminimum := event.duration_bounds.1
        exact .inl (by omega)
  · intro hundated other hother d hd
    cases hdate : isUndated other with
    | false =>
      obtain ⟨episode, hepisode, d', hd', hdd'⟩ := hloads.keeps other hother hdate d hd
      exact .inr ⟨episode, hepisode, d', hd', hdd'⟩
    | true =>
      rcases hundated other hother hdate d hd with hevent | ⟨dated, hdated, hnot, d', hd', hdd'⟩
      · exact .inl hevent
      · obtain ⟨episode, hepisode, d'', hd'', hle'⟩ := hloads.keeps dated hdated hnot d' hd'
        exact .inr ⟨episode, hepisode, d'', hd'', hdd'.trans hle'⟩

omit [Runtime] in
theorem triggered_kept_iff {ids : List String}
    (hwritten : WrittenRecord existing policy event ids episodes longest record) :
    (existing.any terminationTriggered → [record].any terminationTriggered) ↔
      (existing.any terminationTriggered → policy.2 ≤ event.observedDurationMs ∨
        terminationTriggered (existing.headD (.dict []))) := by
  simp [hwritten.triggered]

theorem mem_eventIds_written {id : String} (hwritten : WrittenRecord existing policy event
      (pushNew (eventIds existing) event.eventId.str) episodes longest record) :
    id ∈ eventIds [record] ↔ id ∈ eventIds existing ∨ id = event.eventId.str := by
  have hids : IsIdList (pushNew (eventIds existing) event.eventId.str) :=
    (eventIds_isIdList existing).pushNew (Uuid.str_ne_empty _)
  rw [eventIds_canonical hids hwritten.ids hwritten.legacyId, mem_pushNew]

/-- A written record is canonical. -/
theorem WrittenRecord.format {ids : List String}
    (hwritten : WrittenRecord existing policy event ids episodes longest record)
    (hsome : episodes ≠ []) (hdurations : ∀ episode ∈ episodes, ∃ d, HasDuration episode d)
    (hlongest : maxObservedDuration episodes = .ok longest) : FaceRecordFormat record := by
  have hpositive := List.length_pos_of_ne_nil hsome
  refine .canonical hsome hwritten.episodes hdurations ?_ ?_ hwritten.ownDuration
  · intro n hn
    have hcount : positiveInt (.int episodes.length) = some (episodes.length : ℤ) :=
      if_neg (by omega)
    rw [hwritten.occurrences, hcount] at hn
    cases hn
    exact le_rfl
  · intro d hd
    cases hwritten.duration.symm.trans hd
    obtain ⟨_, episode, hepisode, hhas⟩ := maxObservedDuration_ok hdurations hlongest
    exact ⟨episode, hepisode, longest, hhas, le_rfl⟩

/-- Every accepted call keeps the ids of the records of its type, and the new record is canonical.
It keeps all evidence of them exactly when they lose nothing to the event. -/
theorem consolidation_keeps_evidence_iff (db db' : Database) (clock : Clock) (sessionId : Uuid)
    (connectionId : String) (candidateAssessmentId : Uuid) (event : FaceEvent)
    (outcome : RecordProctoringEventOutcome) (s : InterviewSession)
    (hs : db.session? sessionId = some s)
    (hformat : ∀ record ∈ s.violations.filter (hasType event.eventType), FaceRecordFormat record)
    (hrun : recordProctoringEvent db clock sessionId connectionId candidateAssessmentId event =
      .ok (outcome, db')) (hrecorded : outcome.recorded) :
    ∃ s' policy record, db'.session? sessionId = some s' ∧
      faceProctoringPolicies event.eventType = some policy ∧
      s'.violations.filter (hasType event.eventType) = [record] ∧ FaceRecordFormat record ∧
      (∀ id ∈ knownIds event.eventType s.violations, id ∈ knownIds event.eventType s'.violations) ∧
      (KeepsEvidence (s.violations.filter (hasType event.eventType))
          (s'.violations.filter (hasType event.eventType)) ↔
        LosesNothing policy.2 event (s.violations.filter (hasType event.eventType))) := by
  have hid : s.id = sessionId := Tables.lookup_key hs
  obtain ⟨found, policy, hfound, _, hvalid, ⟨hnot, _⟩ | ⟨_, violations, hface, rfl⟩⟩ :=
    recordProctoringEvent_cases hrun
  · rw [hrecorded] at hnot
    cases hnot
  · cases hs.symm.trans hfound
    obtain ⟨episodes, previous, payload, record, hloaded, _, _, hmerge, hviolation, rfl⟩ :=
      hface.merge
    obtain ⟨longest, hlongest, hwritten⟩ := faceViolation_written hviolation
    have hdurations := putEpisode_durations
      (faceEpisodes_loadsEvidence hformat hloaded).durations hmerge
    have hsome : putEpisode event.conditionStartedAt payload episodes ≠ [] :=
      List.ne_nil_of_mem (self_mem_put _ payload episodes)
    have honly := (replaceViolationType_consolidates hwritten.typed s.violations).only
    have hids (id : String) (hid : id ∈ eventIds (s.violations.filter (hasType event.eventType))) :
        id ∈ eventIds [record] := (mem_eventIds_written hwritten).mpr (.inl hid)
    subst hid
    refine ⟨_, policy, record, session?_saveViolations_self hs candidateAssessmentId,
      validateFaceEvent_policy hvalid, ?_, hwritten.format hsome hdurations hlongest, ?_, ?_⟩
    · rw [savedSession_violations, honly]
    · rw [savedSession_violations, knownIds, knownIds, honly]
      exact hids
    · rw [savedSession_violations, honly]
      have hcount := occurrences_kept_iff hformat hloaded hwritten
      have hduration := durations_kept_iff hformat hloaded hmerge hlongest hwritten
      have htriggered := triggered_kept_iff hwritten
      constructor
      · intro hkeeps
        exact ⟨hcount.mp hkeeps.occurrences, hduration.mp hkeeps.durations,
          htriggered.mp hkeeps.triggered⟩
      · intro hloses
        exact ⟨hids, hcount.mpr hloses.occurrences, hduration.mpr hloses.durations,
          htriggered.mpr hloses.triggered⟩

end Consolidation

def legacyRecord (entries : Json.Entries) : Json :=
  .dict [("violation_type", .str "face_absent"),
    ("metadata", .dict (("observed_duration_ms", .int 20000) :: entries))]

def violatedDatabase (violations : List Json) : Database :=
  .single ⟨1, "Acme"⟩ ⟨2, "Ada"⟩ sampleAssessment sampleInterviewed
    (some { sampleSession with violations := violations })

omit [Runtime] in
theorem legacyRecord_format {entries : Json.Entries} (hepisodes : Json.get entries "episodes" = .null)
    (hlongest : Json.get entries "max_observed_duration_ms" = .null)
    (hcount : Json.get entries "occurrence_count" = .null) :
    FaceRecordFormat (legacyRecord entries) := by
  refine .legacy hepisodes ?_ hlongest (.inr ⟨20000, rfl⟩)
  intro n hn
  have hnone : Json.get (metadata (legacyRecord entries)) "occurrence_count" = .null := hcount
  rw [hnone] at hn
  cases hn

/-- Two legacy records without a start, the second one with the mark of termination. -/
def undatedRecords : List Json :=
  [legacyRecord [("event_id", .str "first")],
    legacyRecord [("event_id", .str "second"), ("termination_triggered", .bool true)]]

omit [Runtime] in
/-- Of two legacy records without a start, an accepted event keeps the ids only: the count falls to
one, the longest duration to that of the event, and the mark of termination goes. -/
theorem undated_evidence_lost :
    let _ : Runtime := .ascii
    (∀ record ∈ undatedRecords, FaceRecordFormat record) ∧
      undatedRecords.filter (hasType "face_absent") = undatedRecords ∧
      ∃ outcome db' s', recordProctoringEvent (violatedDatabase undatedRecords) ⟨0, 0⟩ 10
          "first-connection" 4 sampleFaceEvent = .ok (outcome, db') ∧ outcome.recorded ∧
        db'.session? 10 = some s' ∧ reportedOccurrences undatedRecords = 2 ∧
        reportedOccurrences s'.violations = 1 ∧ undatedRecords.any terminationTriggered ∧
        s'.violations.any terminationTriggered = false ∧
        s'.violations.map (fun record => Json.get (metadata record) "max_observed_duration_ms") =
          [.int 6000] ∧ ¬ KeepsEvidence undatedRecords s'.violations := by
  intro _
  refine ⟨?_, rfl, _, _, _, rfl, rfl, rfl, rfl, rfl, rfl, rfl, rfl, fun hkeeps => ?_⟩
  · intro record hrecord
    simp only [undatedRecords, List.mem_cons, List.not_mem_nil, or_false] at hrecord
    rcases hrecord with rfl | rfl <;> exact legacyRecord_format rfl rfl rfl
  · have hfalls := hkeeps.occurrences
    revert hfalls
    decide

def mixedEpisodes : List Json.Entries :=
  [[("condition_started_at", .str "2025-12-31T00:00:00+00:00"),
      ("max_observed_duration_ms", .int 21000)],
    [("condition_started_at", .str "2025-12-31T01:00:00+00:00"),
      ("max_observed_duration_ms", .int 7000)]]

def canonicalRecord : Json :=
  .dict [("violation_type", .str "face_absent"), ("metadata", .dict [
    ("occurrence_count", .int 2),
    ("max_observed_duration_ms", .int 21000),
    ("episodes", .list (mixedEpisodes.map .dict))])]

/-- A canonical record of two episodes, and a legacy record without a start. -/
def mixedRecords : List Json := [canonicalRecord, legacyRecord [("event_id", .str "undated")]]

omit [Runtime] in
theorem canonicalRecord_format : FaceRecordFormat canonicalRecord := by
  have hsome : mixedEpisodes ≠ [] := List.cons_ne_nil _ _
  refine .canonical hsome rfl ?_ ?_ ?_ rfl
  · intro episode hepisode
    simp only [mixedEpisodes, List.mem_cons, List.not_mem_nil, or_false] at hepisode
    rcases hepisode with rfl | rfl
    · exact ⟨21000, rfl⟩
    · exact ⟨7000, rfl⟩
  · intro n hn
    have htwo : some (2 : ℤ) = some n := hn
    cases htwo
    decide
  · intro d hd
    have hlongest : Json.int 21000 = .int d := hd
    cases hlongest
    exact ⟨_, List.mem_cons_self, 21000, rfl, le_rfl⟩

omit [Runtime] in
/-- The undated record of a mixed list knows no longer duration than the canonical one. -/
theorem consolidation_keeps_evidence_sample :
    let _ : Runtime := .ascii
    ∃ outcome db' s', recordProctoringEvent (violatedDatabase mixedRecords) ⟨0, 0⟩ 10
        "first-connection" 4 sampleFaceEvent = .ok (outcome, db') ∧
      db'.session? 10 = some s' ∧
      KeepsEvidence mixedRecords (s'.violations.filter (hasType "face_absent")) := by
  intro _
  have hformat : ∀ record ∈ mixedRecords, FaceRecordFormat record := by
    intro record hrecord
    simp only [mixedRecords, List.mem_cons, List.not_mem_nil, or_false] at hrecord
    rcases hrecord with rfl | rfl
    · exact canonicalRecord_format
    · exact legacyRecord_format rfl rfl rfl
  obtain ⟨outcome, db', hrun, hrecorded⟩ : ∃ outcome db', recordProctoringEvent
      (violatedDatabase mixedRecords) ⟨0, 0⟩ 10 "first-connection" 4 sampleFaceEvent =
        .ok (outcome, db') ∧ outcome.recorded := ⟨_, _, rfl, rfl⟩
  obtain ⟨s', policy, record, hs', _, _, _, _, hiff⟩ :=
    consolidation_keeps_evidence_iff (violatedDatabase mixedRecords) db' ⟨0, 0⟩ 10
      "first-connection" 4 sampleFaceEvent outcome { sampleSession with violations := mixedRecords }
      rfl hformat hrun hrecorded
  refine ⟨outcome, db', s', hrun, hs', hiff.mpr ⟨.inl rfl, ?_, fun hany => ?_⟩⟩
  · change ∀ record ∈ mixedRecords, _
    intro record hrecord hundated d hd
    simp only [mixedRecords, List.mem_cons, List.not_mem_nil, or_false] at hrecord
    rcases hrecord with rfl | rfl
    · exact absurd hundated (by decide)
    · rcases hd with hown | htop | ⟨episode, hepisode, _⟩
      · have hduration : Json.int 20000 = .int d := hown
        cases hduration
        exact .inr ⟨canonicalRecord, List.mem_cons_self, rfl, 21000, .inr (.inl rfl), by decide⟩
      · have hnone : Json.null = .int d := htop
        cases hnone
      · have hmem : episode ∈ ([] : List Json.Entries) := hepisode
        cases hmem
  · exact absurd hany (by decide)

end IBotCoreApi
