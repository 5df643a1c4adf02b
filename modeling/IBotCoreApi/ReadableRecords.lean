import IBotCoreApi.FaceEvidence

namespace IBotCoreApi
open Python Outcomes FirstOccurrences KeyedLists InterviewSessionRepository

section Conversions

variable [Runtime] {value : Json} {d : Json.Entries} {key : String}

/-- `int(value or n)` returns: the value is falsy, a boolean, a number or the text of an integer. -/
def IntLike : Json → Prop
  | .str s => s = "" ∨ (Runtime.intOfStr s).isSome
  | .list xs => xs = []
  | .dict d => d = []
  | .null | .bool _ | .int _ | .float _ => True

/-- `float(value)` returns, if the value is a number. -/
def FloatLike : Json → Prop
  | .int i => (Runtime.floatOfInt i).isSome
  | .null | .bool _ | .float _ | .str _ | .list _ | .dict _ => True

theorem toInt_returns {n : ℤ} : Returns (value.orElse (.int n)).toInt ↔ IntLike value := by
  cases value with
  | null => exact iff_of_true (returns_ok n) trivial
  | bool b => exact iff_of_true (by cases b <;> exact returns_ok _) trivial
  | int i | float q =>
    refine iff_of_true ?_ trivial
    unfold Json.orElse
    split <;> exact returns_ok _
  | str s =>
    by_cases hs : s = ""
    · subst hs
      exact iff_of_true (returns_ok n) (.inl rfl)
    · rw [Json.orElse, Json.truthy_str, if_pos (bne_iff_ne.mpr hs), IntLike, Json.toInt]
      cases Runtime.intOfStr s with
      | none => exact iff_of_false (not_returns_error _) (by simp [hs])
      | some i => exact iff_of_true (returns_ok i) (by simp)
  | list xs =>
    cases xs with
    | nil => exact iff_of_true (returns_ok n) rfl
    | cons x xs => exact iff_of_false (not_returns_error _) (List.cons_ne_nil x xs)
  | dict d =>
    cases d with
    | nil => exact iff_of_true (returns_ok n) rfl
    | cons x d => exact iff_of_false (not_returns_error _) (List.cons_ne_nil x d)

theorem intOrZero_returns : Returns (intOrZero d key) ↔ IntLike (Json.get d key) := toInt_returns

theorem combineConfidence_returns {pick : ℚ → ℚ → ℚ} {incoming : Option ℚ} :
    Returns (combineConfidence pick value incoming) ↔ FloatLike value := by
  cases value with
  | int i =>
    unfold combineConfidence FloatLike
    dsimp only
    cases Runtime.floatOfInt i with
    | none => exact iff_of_false (not_returns_error _) (by simp)
    | some q => exact iff_of_true (returns_ok _) rfl
  | _ => exact iff_of_true (returns_ok _) trivial

theorem turnNumber_returns {firstViolation : Json} {transcript : List Json} :
    Returns (turnNumber firstViolation transcript) ↔
      IntLike (firstViolation.field "turn_number") :=
  toInt_returns

end Conversions

/-- The fields of an episode that its readers convert or compare. -/
structure EpisodeFields where
  startedAt : Json
  duration : Json
  samples : Json
  faces : Json
  lowest : Json
  highest : Json

namespace EpisodeFields

def ofEpisode (episode : Json.Entries) : EpisodeFields where
  startedAt := Json.get episode "condition_started_at"
  duration := Json.get episode "max_observed_duration_ms"
  samples := Json.get episode "sample_count"
  faces := Json.get episode "max_face_count"
  lowest := Json.get episode "min_confidence"
  highest := Json.get episode "max_confidence"

variable [Runtime]

def ofEvent (record : Json) : EpisodeFields where
  startedAt := .str (legacyStart record)
  duration := Json.get (metadata record) "observed_duration_ms"
  samples := Json.get (metadata record) "sample_count"
  faces := Json.get (metadata record) "max_face_count"
  lowest := Json.get (metadata record) "min_confidence"
  highest := Json.get (metadata record) "max_confidence"

structure Measured (fields : EpisodeFields) : Prop where
  duration : IntLike fields.duration
  samples : IntLike fields.samples
  faces : IntLike fields.faces

structure Mergeable (fields : EpisodeFields) : Prop extends Measured fields where
  lowest : FloatLike fields.lowest
  highest : FloatLike fields.highest

structure LoadedAs (fields : EpisodeFields) (episode : Json.Entries) : Prop where
  startedAt : Json.get episode "condition_started_at" = fields.startedAt
  duration : intOrZero episode "max_observed_duration_ms" =
    (fields.duration.orElse (.int 0)).toInt
  mergeable : (ofEpisode episode).Mergeable ↔ fields.Mergeable

theorem loadedAs_ofEpisode (episode : Json.Entries) : (ofEpisode episode).LoadedAs episode :=
  ⟨rfl, rfl, Iff.rfl⟩

end EpisodeFields

open EpisodeFields

section Loading

variable [Runtime] {record : Json} {existing : List Json} {here episodes : List Json.Entries}
  {start : String}

def hasEpisodes (record : Json) : Bool :=
  match Json.get (metadata record) "episodes" with
  | .list (_ :: _) => true
  | _ => false

/-- The record is read as one event: it has no episodes, and it has a start. -/
def isEventRecord (record : Json) : Bool := !hasEpisodes record && legacyStart record != ""

def recordFields (record : Json) : List EpisodeFields :=
  if hasEpisodes record then (canonicalEpisodes record).map .ofEpisode
  else if legacyStart record = "" then []
  else [.ofEvent record]

theorem recordEpisodes_eq : recordEpisodes record =
    if hasEpisodes record then .ok (canonicalEpisodes record)
    else if legacyStart record = "" then .ok []
    else (legacyEpisode record (legacyStart record)).map ([·]) := by
  unfold recordEpisodes hasEpisodes canonicalEpisodes
  cases Json.get (metadata record) "episodes" with
  | list items =>
    cases items with
    | nil => rfl
    | cons item items => rfl
  | _ => rfl

theorem legacyEpisode_returns :
    Returns (legacyEpisode record start) ↔ (ofEvent record).Measured := by
  unfold legacyEpisode
  refine (returns_bind fun _ => returns_bind fun _ => returns_bind fun _ =>
    iff_of_true (returns_ok _) trivial).trans ?_
  rw [intOrZero_returns, intOrZero_returns, intOrZero_returns]
  constructor
  · rintro ⟨hduration, hsamples, hfaces, -⟩
    exact ⟨hduration, hsamples, hfaces⟩
  · rintro ⟨hduration, hsamples, hfaces⟩
    exact ⟨hduration, hsamples, hfaces, trivial⟩

theorem legacyEpisode_loadedAs {episode : Json.Entries}
    (h : legacyEpisode record (legacyStart record) = .ok episode) :
    (ofEvent record).LoadedAs episode := by
  have hmeasured := legacyEpisode_returns.mp ⟨episode, h⟩
  obtain ⟨duration, hduration, h⟩ := bind_eq_ok.mp h
  obtain ⟨samples, _, h⟩ := bind_eq_ok.mp h
  obtain ⟨faces, _, h⟩ := bind_eq_ok.mp h
  cases h
  refine ⟨rfl, ?_, ?_⟩
  · exact (Json.toInt_orElse_zero duration).trans hduration.symm
  · -- the measures are integers now, and the confidences are as they were stored
    constructor
    · rintro ⟨_, hlowest, hhighest⟩
      exact ⟨hmeasured, hlowest, hhighest⟩
    · rintro ⟨_, hlowest, hhighest⟩
      exact ⟨⟨trivial, trivial, trivial⟩, hlowest, hhighest⟩

theorem recordEpisodes_returns :
    Returns (recordEpisodes record) ↔ (isEventRecord record → (ofEvent record).Measured) := by
  rw [recordEpisodes_eq, isEventRecord]
  by_cases hepisodes : hasEpisodes record
  · rw [if_pos hepisodes]
    exact iff_of_true (returns_ok _) (by simp [hepisodes])
  · rw [if_neg hepisodes]
    by_cases hstart : legacyStart record = ""
    · rw [if_pos hstart]
      exact iff_of_true (returns_ok _) (by simp [hstart])
    · rw [if_neg hstart, returns_map, legacyEpisode_returns]
      simp [hepisodes, hstart]

theorem recordEpisodes_loadedAs (h : recordEpisodes record = .ok here) :
    List.Forall₂ LoadedAs (recordFields record) here := by
  rw [recordEpisodes_eq] at h
  unfold recordFields
  by_cases hepisodes : hasEpisodes record
  · rw [if_pos hepisodes] at h ⊢
    cases h
    rw [List.forall₂_map_left_iff, List.forall₂_same]
    exact fun episode _ => loadedAs_ofEpisode episode
  · rw [if_neg hepisodes] at h ⊢
    by_cases hstart : legacyStart record = ""
    · rw [if_pos hstart] at h ⊢
      cases h
      exact .nil
    · rw [if_neg hstart] at h ⊢
      obtain ⟨episode, hepisode, rfl⟩ := map_eq_ok.mp h
      exact .cons (legacyEpisode_loadedAs hepisode) .nil

theorem faceEpisodes_returns : Returns (faceEpisodes existing) ↔
    ∀ record ∈ existing, isEventRecord record → (ofEvent record).Measured := by
  induction existing with
  | nil => exact iff_of_true (returns_ok _) (by simp)
  | cons record rest ih =>
    rw [List.forall_mem_cons, ← recordEpisodes_returns, ← ih]
    refine (returns_bind fun _ => returns_bind fun _ => iff_of_true (returns_ok _) trivial).trans ?_
    rw [and_true]

theorem faceEpisodes_loadedAs (h : faceEpisodes existing = .ok episodes) :
    List.Forall₂ LoadedAs (existing.flatMap recordFields) episodes := by
  induction existing generalizing episodes with
  | nil =>
    cases h
    exact .nil
  | cons record rest ih =>
    obtain ⟨here, hhere, h⟩ := bind_eq_ok.mp h
    obtain ⟨others, hothers, h⟩ := bind_eq_ok.mp h
    cases h
    rw [List.flatMap_cons]
    exact List.rel_append (recordEpisodes_loadedAs hhere) (ih hothers)

end Loading

section Recording

variable [Runtime] {existing transcript : List Json} {episodes : List Json.Entries}
  {event : FaceEvent} {policy : ℤ × ℤ} {connectionId recordedAt : String} {ids : List String}

def continuedFields (existing : List Json) (event : FaceEvent) : Option EpisodeFields :=
  (existing.flatMap recordFields).find? (·.startedAt.eqStr event.conditionStartedAt)

/-- The duration that an event is compared with. -/
def storedDuration : Option EpisodeFields → Except PyError ℤ
  | some fields => (fields.duration.orElse (.int 0)).toInt
  | none => .ok 0

/-- The event is a duplicate: its id is known, and its episode has lasted as long. -/
def Repeats (existing : List Json) (event : FaceEvent) : Prop :=
  event.eventId.str ∈ eventIds existing ∧
    ∃ d, storedDuration (continuedFields existing event) = .ok d ∧ event.observedDurationMs ≤ d

/-- The fields that an event makes its readers convert.  A duplicate makes them load the episodes
and compare its duration, a new event also makes them merge, sum up and number the new record. -/
structure ReadableFor (existing : List Json) (event : FaceEvent) : Prop where
  events : ∀ record ∈ existing, isEventRecord record → (ofEvent record).Measured
  compared : ∀ fields ∈ continuedFields existing event, IntLike fields.duration
  merged : ¬ Repeats existing event → ∀ fields ∈ continuedFields existing event, fields.Mergeable
  durations : ¬ Repeats existing event →
    ∀ fields ∈ existing.flatMap recordFields, IntLike fields.duration
  turn : ¬ Repeats existing event →
    IntLike ((existing.headD (.dict [])).field "turn_number")

theorem EpisodeFields.LoadedAs.intLike {fields : EpisodeFields} {episode : Json.Entries}
    (h : fields.LoadedAs episode) :
    IntLike (Json.get episode "max_observed_duration_ms") ↔ IntLike fields.duration := by
  rw [← intOrZero_returns, h.duration, toInt_returns]

theorem mergeFaceEpisode_returns {current : Option Json.Entries} :
    Returns (mergeFaceEpisode current event recordedAt) ↔
      ∀ episode ∈ current, (ofEpisode episode).Mergeable := by
  unfold mergeFaceEpisode
  refine (returns_bind fun _ => returns_bind fun _ => returns_bind fun _ => returns_bind fun _ =>
    returns_bind fun _ => iff_of_true (returns_ok _) trivial).trans ?_
  rw [combineConfidence_returns, combineConfidence_returns, intOrZero_returns, intOrZero_returns,
    intOrZero_returns]
  cases current with
  | none => exact iff_of_true ⟨trivial, trivial, trivial, trivial, trivial, trivial⟩ (by simp)
  | some episode =>
    constructor
    · rintro ⟨hlowest, hhighest, hduration, hsamples, hfaces, -⟩ _ ⟨⟩
      exact ⟨⟨hduration, hsamples, hfaces⟩, hlowest, hhighest⟩
    · intro h
      obtain ⟨⟨hduration, hsamples, hfaces⟩, hlowest, hhighest⟩ := h episode rfl
      exact ⟨hlowest, hhighest, hduration, hsamples, hfaces, trivial⟩

theorem maxObservedDuration_returns (hsome : episodes ≠ []) :
    Returns (maxObservedDuration episodes) ↔
      ∀ episode ∈ episodes, IntLike (Json.get episode "max_observed_duration_ms") := by
  induction episodes with
  | nil => exact absurd rfl hsome
  | cons episode rest ih =>
    rw [List.forall_mem_cons, ← intOrZero_returns]
    cases rest with
    | nil => exact (and_iff_left (by simp)).symm
    | cons next rest =>
      rw [← ih (List.cons_ne_nil next rest)]
      refine (returns_bind fun _ => returns_bind fun _ =>
        iff_of_true (returns_ok _) trivial).trans ?_
      rw [and_true]

theorem faceViolation_returns (hsome : episodes ≠ []) :
    Returns (faceViolation existing transcript policy event connectionId recordedAt ids episodes) ↔
      (∀ episode ∈ episodes, IntLike (Json.get episode "max_observed_duration_ms")) ∧
        IntLike ((existing.headD (.dict [])).field "turn_number") := by
  rw [← maxObservedDuration_returns hsome, ← turnNumber_returns]
  unfold faceViolation
  refine (returns_bind fun _ => returns_bind fun _ => iff_of_true (returns_ok _) trivial).trans ?_
  rw [and_true]

theorem continuedFields_loadedAs (h : faceEpisodes existing = .ok episodes) :
    Option.Rel LoadedAs (continuedFields existing event)
      (episodes.find? (startsAt event.conditionStartedAt)) := by
  refine forall₂_find? (faceEpisodes_loadedAs h) fun fields episode hloaded => ?_
  rw [startsAt, hloaded.startedAt]

theorem previousDuration_eq (h : faceEpisodes existing = .ok episodes) :
    previousDuration (episodes.find? (startsAt event.conditionStartedAt)) =
      storedDuration (continuedFields existing event) := by
  have hfound : Option.Rel LoadedAs (continuedFields existing event)
      (episodes.find? (startsAt event.conditionStartedAt)) := continuedFields_loadedAs h
  generalize continuedFields existing event = fields at hfound ⊢
  generalize episodes.find? (startsAt event.conditionStartedAt) = episode at hfound ⊢
  cases hfound with
  | none => rfl
  | some hloaded => exact hloaded.duration

theorem storedDuration_returns {fields : Option EpisodeFields} :
    Returns (storedDuration fields) ↔ ∀ f ∈ fields, IntLike f.duration := by
  cases fields with
  | none => exact iff_of_true (returns_ok 0) (by simp)
  | some f => exact toInt_returns.trans (by simp)

theorem mergeContinued_returns (h : faceEpisodes existing = .ok episodes) :
    Returns (mergeFaceEpisode (episodes.find? (startsAt event.conditionStartedAt)) event
      recordedAt) ↔ ∀ fields ∈ continuedFields existing event, fields.Mergeable := by
  have hfound : Option.Rel LoadedAs (continuedFields existing event)
      (episodes.find? (startsAt event.conditionStartedAt)) := continuedFields_loadedAs h
  rw [mergeFaceEpisode_returns]
  generalize continuedFields existing event = fields at hfound ⊢
  generalize episodes.find? (startsAt event.conditionStartedAt) = episode at hfound ⊢
  cases hfound with
  | none => simp
  | some hloaded => simpa using hloaded.mergeable

theorem putEpisode_durations_iff {payload : Json.Entries} (h : faceEpisodes existing = .ok episodes)
    (hpayload : ∃ d, HasDuration payload d)
    (hcompared : ∀ fields ∈ continuedFields existing event, IntLike fields.duration) :
    (∀ episode ∈ putEpisode event.conditionStartedAt payload episodes,
        IntLike (Json.get episode "max_observed_duration_ms")) ↔
      ∀ fields ∈ existing.flatMap recordFields, IntLike fields.duration := by
  have hloaded := faceEpisodes_loadedAs h
  constructor
  · intro hput fields hfields
    obtain ⟨episode, hepisode, hsame⟩ := forall₂_mem_left hloaded hfields
    rw [← hsame.intLike]
    rcases mem_put_of_mem hepisode with hkept | hreplaced
    · exact hput episode hkept
    · -- the replaced episode is the one that the duration was compared with
      have hfound : Option.Rel LoadedAs (continuedFields existing event)
          (episodes.find? (startsAt event.conditionStartedAt)) := continuedFields_loadedAs h
      rw [hreplaced] at hfound
      cases hcontinued : continuedFields existing event with
      | none =>
        rw [hcontinued] at hfound
        cases hfound
      | some found =>
        rw [hcontinued] at hfound
        cases hfound with
        | some hsame' => exact hsame'.intLike.mpr (hcompared found hcontinued)
  · intro hstored episode hepisode
    rcases mem_of_mem_put hepisode with rfl | hkept
    · obtain ⟨d, hd⟩ := hpayload
      rw [HasDuration] at hd
      rw [hd]
      trivial
    · obtain ⟨fields, hfields, hsame⟩ := forall₂_mem_right hloaded hkept
      exact hsame.intLike.mpr (hstored fields hfields)

variable (transcript policy connectionId recordedAt ids) in
theorem builds_iff (h : faceEpisodes existing = .ok episodes)
    (hcompared : ∀ fields ∈ continuedFields existing event, IntLike fields.duration) :
    (∃ payload record,
      mergeFaceEpisode (episodes.find? (startsAt event.conditionStartedAt)) event recordedAt =
        .ok payload ∧
      faceViolation existing transcript policy event connectionId recordedAt ids
        (putEpisode event.conditionStartedAt payload episodes) = .ok record) ↔
    (∀ fields ∈ continuedFields existing event, fields.Mergeable) ∧
      (∀ fields ∈ existing.flatMap recordFields, IntLike fields.duration) ∧
      IntLike ((existing.headD (.dict [])).field "turn_number") := by
  have hsome (payload : Json.Entries) :
      putEpisode event.conditionStartedAt payload episodes ≠ [] :=
    List.ne_nil_of_mem (self_mem_put _ payload episodes)
  have hduration {payload : Json.Entries}
      (hmerge : mergeFaceEpisode (episodes.find? (startsAt event.conditionStartedAt)) event
        recordedAt = .ok payload) : ∃ d, HasDuration payload d := by
    obtain ⟨_, _, hd⟩ := mergeFaceEpisode_duration hmerge
    exact ⟨_, hd⟩
  constructor
  · rintro ⟨payload, record, hmerge, hrecord⟩
    obtain ⟨hdurations, hturn⟩ := (faceViolation_returns (hsome payload)).mp ⟨record, hrecord⟩
    exact ⟨(mergeContinued_returns h).mp ⟨payload, hmerge⟩,
      (putEpisode_durations_iff h (hduration hmerge) hcompared).mp hdurations, hturn⟩
  · rintro ⟨hmerged, hdurations, hturn⟩
    obtain ⟨payload, hmerge⟩ := (mergeContinued_returns h).mpr hmerged
    obtain ⟨record, hrecord⟩ := (faceViolation_returns (hsome payload)).mpr
      ⟨(putEpisode_durations_iff h (hduration hmerge) hcompared).mpr hdurations, hturn⟩
    exact ⟨payload, record, hmerge, hrecord⟩

theorem tabSwitchViolation_returns {tabViolations : List Json} {currentCount : ℤ}
    {incomingEventId occurredAt : String} :
    Returns (tabSwitchViolation tabViolations transcript currentCount incomingEventId
        occurredAt) ↔ IntLike ((tabViolations.headD (.dict [])).field "turn_number") := by
  unfold tabSwitchViolation
  refine (returns_bind fun _ => iff_of_true (returns_ok _) trivial).trans ?_
  rw [and_true, turnNumber_returns]

end Recording

section Calls

variable [Runtime] {db : Database} {clock : Clock} {s : InterviewSession} {sessionId : Uuid}
  {connectionId : String} {event : FaceEvent} {policy : ℤ × ℤ}

/-- The call records the event under its session, or it finds a duplicate and changes nothing. -/
inductive Handled (violationType : String) (sessionId eventId : Uuid) (Duplicate : Prop)
    (db : Database) : Except ApiException (Bool × Database) → Prop
  | recorded {db' : Database} {s' : InterviewSession} (hnew : ¬ Duplicate)
      (hs' : db'.session? sessionId = some s')
      (hid : eventId.str ∈ knownIds violationType s'.violations) :
      Handled violationType sessionId eventId Duplicate db (.ok (true, db'))
  | duplicate (hduplicate : Duplicate) :
      Handled violationType sessionId eventId Duplicate db (.ok (false, db))

theorem Handled.returns {violationType : String} {eventId : Uuid} {Duplicate : Prop}
    {result : Except ApiException (Bool × Database)}
    (h : Handled violationType sessionId eventId Duplicate db result) : Returns result := by
  cases h with
  | recorded | duplicate => exact returns_ok _

theorem not_handled_error {violationType : String} {eventId : Uuid} {Duplicate : Prop}
    (reason : ApiException) :
    ¬ Handled violationType sessionId eventId Duplicate db (.error reason) :=
  fun h => not_returns_error reason h.returns

theorem recordProctoringEvent_handled_iff (clock : Clock) (hs : db.session? sessionId = some s)
    (hsender : sendsFrom connectionId s) (hvalid : validateFaceEvent event = .ok policy) :
    Handled event.eventType sessionId event.eventId
        (Repeats (s.violations.filter (hasType event.eventType)) event) db
        ((recordProctoringEvent db clock sessionId connectionId s.candidateAssessmentId event).map
          fun result => (result.1.recorded, result.2)) ↔
      ReadableFor (s.violations.filter (hasType event.eventType)) event := by
  unfold recordProctoringEvent lockedSession
  simp only [hs, hvalid, ne_eq, not_true_eq_false, if_false, not_sendsFrom, hsender, Bool.not_true,
    Bool.false_eq_true, ok_bind]
  generalize hexisting : s.violations.filter (hasType event.eventType) = existing
  cases hloaded : faceEpisodes existing with
  | error e =>
    refine iff_of_false (not_handled_error _) fun h => ?_
    exact not_returns_error e (hloaded ▸ faceEpisodes_returns.mpr h.events)
  | ok episodes =>
    have hevents := faceEpisodes_returns.mp ⟨episodes, hloaded⟩
    simp only [ofPython_of_ok, ok_bind, previousDuration_eq hloaded]
    cases hprevious : storedDuration (continuedFields existing event) with
    | error e =>
      refine iff_of_false (not_handled_error _) fun h => ?_
      exact not_returns_error e (hprevious ▸ storedDuration_returns.mpr h.compared)
    | ok previous =>
      have hcompared := storedDuration_returns.mp ⟨previous, hprevious⟩
      simp only [ofPython_of_ok, ok_bind]
      split
      · next hduplicate =>
        have hrepeats : Repeats existing event := ⟨hduplicate.1, previous, hprevious, hduplicate.2⟩
        exact iff_of_true (.duplicate hrepeats) {
          events := hevents
          compared := hcompared
          merged := fun hnew => absurd hrepeats hnew
          durations := fun hnew => absurd hrepeats hnew
          turn := fun hnew => absurd hrepeats hnew }
      · next hnot =>
        have hnew : ¬ Repeats existing event := by
          rintro ⟨hknown, d, hd, hle⟩
          cases hprevious.symm.trans hd
          exact hnot ⟨hknown, hle⟩
        have hbuilds := builds_iff s.transcript policy connectionId
          (Time.isoformat clock.utcNow) (pushNew (eventIds existing) event.eventId.str) hloaded
          hcompared
        constructor
        · intro hhandled
          obtain ⟨result, hresult⟩ := returns_map.mp hhandled.returns
          obtain ⟨payload, hmerge, hresult⟩ := bind_eq_ok.mp hresult
          obtain ⟨record, hrecord, _⟩ := bind_eq_ok.mp hresult
          obtain ⟨hmerged, hdurations, hturn⟩ :=
            hbuilds.mp ⟨payload, record, ofPython_ok hmerge, ofPython_ok hrecord⟩
          exact ⟨hevents, hcompared, fun _ => hmerged, fun _ => hdurations, fun _ => hturn⟩
        · intro hreadable
          obtain ⟨payload, record, hmerge, hrecord⟩ :=
            hbuilds.mpr ⟨hreadable.merged hnew, hreadable.durations hnew, hreadable.turn hnew⟩
          obtain ⟨longest, _, hwritten⟩ := faceViolation_written hrecord
          simp only [hmerge, hrecord, ofPython_of_ok, ok_bind]
          refine .recorded hnew (session?_saveViolations_self hs s.candidateAssessmentId) ?_
          rw [savedSession_violations, knownIds,
            (replaceViolationType_consolidates hwritten.typed s.violations).only]
          exact (mem_eventIds_written hwritten).mpr (.inr rfl)

/-- A tab switch makes its readers convert the turn number of the first record, unless the event is
known. -/
theorem recordTabSwitch_handled_iff (clock : Clock) (hs : db.session? sessionId = some s)
    (hsender : sendsFrom connectionId s) (eventId : Uuid) (occurredAt : String) :
    Handled tabSwitchViolationType sessionId eventId
        (eventId.str ∈ knownIds tabSwitchViolationType s.violations) db
        ((recordTabSwitch db clock sessionId connectionId s.candidateAssessmentId eventId
          occurredAt).map fun result => (result.1.recorded, result.2)) ↔
      (eventId.str ∉ knownIds tabSwitchViolationType s.violations →
        IntLike (((s.violations.filter (hasType tabSwitchViolationType)).headD (.dict [])).field
          "turn_number")) := by
  unfold recordTabSwitch lockedSession
  simp only [hs, ne_eq, not_true_eq_false, if_false, not_sendsFrom, hsender, Bool.not_true,
    Bool.false_eq_true, ok_bind]
  split
  · next hknown => exact iff_of_true (.duplicate hknown) fun hnew => absurd hknown hnew
  · next hnew =>
    constructor
    · intro hhandled _
      obtain ⟨result, hresult⟩ := returns_map.mp hhandled.returns
      obtain ⟨record, hrecord, _⟩ := bind_eq_ok.mp hresult
      exact tabSwitchViolation_returns.mp ⟨record, ofPython_ok hrecord⟩
    · intro hreadable
      obtain ⟨record, hrecord⟩ : Returns (tabSwitchViolation
          (s.violations.filter (hasType tabSwitchViolationType)) s.transcript
          (tabSwitchCount s.violations) eventId.str occurredAt) :=
        tabSwitchViolation_returns.mpr (hreadable hnew)
      have hwritten := tabSwitchViolation_record (tabSwitchCount_nonneg s.violations) hnew
        (Uuid.str_ne_empty eventId) hrecord
      simp only [hrecord, ofPython_of_ok, ok_bind]
      refine .recorded hnew (session?_saveViolations_self hs s.candidateAssessmentId) ?_
      rw [savedSession_violations, knownIds,
        (replaceViolationType_consolidates hwritten.type s.violations).only, hwritten.ids]
      exact List.mem_append_right _ (List.mem_singleton_self _)

/-- Whatever violations are stored, a tab switch from the bound connection of an active session is
recorded, or found to be a duplicate, exactly when it is known or the first tab-switch record has a
turn number that can be converted.  A valid face event is exactly when the records of its type are
readable for it. -/
theorem proctoring_handled_iff (db : Database) (clock : Clock) (sessionId : Uuid)
    (connectionId : String) (s : InterviewSession) (hs : db.session? sessionId = some s)
    (hsender : sendsFrom connectionId s) :
    (∀ (eventId : Uuid) (occurredAt : String),
      Handled tabSwitchViolationType sessionId eventId
          (eventId.str ∈ knownIds tabSwitchViolationType s.violations) db
          ((recordTabSwitch db clock sessionId connectionId s.candidateAssessmentId eventId
            occurredAt).map fun result => (result.1.recorded, result.2)) ↔
        (eventId.str ∉ knownIds tabSwitchViolationType s.violations →
          IntLike (((s.violations.filter (hasType tabSwitchViolationType)).headD (.dict [])).field
            "turn_number"))) ∧
      ∀ (event : FaceEvent) (policy : ℤ × ℤ), validateFaceEvent event = .ok policy →
        (Handled event.eventType sessionId event.eventId
            (Repeats (s.violations.filter (hasType event.eventType)) event) db
            ((recordProctoringEvent db clock sessionId connectionId s.candidateAssessmentId
              event).map fun result => (result.1.recorded, result.2)) ↔
          ReadableFor (s.violations.filter (hasType event.eventType)) event) :=
  ⟨recordTabSwitch_handled_iff clock hs hsender,
    fun _ _ hvalid => recordProctoringEvent_handled_iff clock hs hsender hvalid⟩

end Calls

section Sample

/-- A tab-switch violation whose turn is a list. -/
def listedTurn : Json.Entries :=
  [("violation_id", .str "engine:1"), ("violation_type", .str "tab_switch"),
    ("turn_number", .list [.int 3])]

/-- A face violation with an episode whose duration is a list. -/
def listedDuration : Json.Entries :=
  [("violation_id", .str "engine:2"), ("violation_type", .str "face_absent"),
    ("metadata", .dict [("episodes", .list [.dict [
      ("max_observed_duration_ms", .list [.int 6000])]])])]

def appendedDatabase [Runtime] (violations : List Json.Entries) : Except ApiException Database :=
  violations.foldlM (fun db violation =>
    (appendViolation db ⟨0, 0⟩ 10 violation).map Prod.snd) runningStore.db

/-- With two appended violations that cannot be converted, every tab switch and every absence of the
face raises a `TypeError`. -/
theorem listed_violations_raise :
    let _ : Runtime := .ascii
    ∃ db, appendedDatabase [listedTurn, listedDuration] = .ok db ∧
      db.session? 10 = some { sampleSession with
        violations := [.dict listedTurn, .dict listedDuration] } ∧
      (∀ eventId occurredAt, recordTabSwitch db ⟨0, 0⟩ 10 "first-connection" 4 eventId occurredAt =
        .error (.python .typeError)) ∧
      validateFaceEvent sampleFaceEvent = .ok (5000, 30000) ∧
      recordProctoringEvent db ⟨0, 0⟩ 10 "first-connection" 4 sampleFaceEvent =
        .error (.python .typeError) := by
  intro _
  exact ⟨_, rfl, rfl, fun _ _ => rfl, rfl, rfl⟩

/-- A tab switch and an absence of the face on top of a canonical and a legacy record. -/
theorem proctoring_handled_sample :
    let _ : Runtime := .ascii
    let db := violatedDatabase mixedRecords
    Handled tabSwitchViolationType 10 40
        (Uuid.str 40 ∈ knownIds tabSwitchViolationType mixedRecords) db
        ((recordTabSwitch db ⟨0, 0⟩ 10 "first-connection" 4 40 "now").map fun result =>
          (result.1.recorded, result.2)) ∧
      Handled "face_absent" 10 30 (Repeats mixedRecords sampleFaceEvent) db
        ((recordProctoringEvent db ⟨0, 0⟩ 10 "first-connection" 4 sampleFaceEvent).map fun result =>
          (result.1.recorded, result.2)) := by
  intro _ db
  obtain ⟨htab, hface⟩ := proctoring_handled_iff db ⟨0, 0⟩ 10 "first-connection"
    { sampleSession with violations := mixedRecords } rfl rfl
  refine ⟨(htab 40 "now").mpr fun _ => trivial, (hface sampleFaceEvent _ rfl).mpr ?_⟩
  have hnone : continuedFields mixedRecords sampleFaceEvent = none := rfl
  have hfields : mixedRecords.flatMap recordFields = mixedEpisodes.map .ofEpisode := rfl
  exact {
    events := by
      intro record hrecord hevent
      have hnot : ∀ record ∈ mixedRecords, isEventRecord record = false := by decide
      rw [hnot record hrecord] at hevent
      cases hevent
    compared := by
      intro fields hfound
      cases hnone.symm.trans hfound
    merged := by
      intro _ fields hfound
      cases hnone.symm.trans hfound
    durations := by
      intro _ fields hmem
      have hmem' : fields ∈ mixedEpisodes.map EpisodeFields.ofEpisode := hfields ▸ hmem
      simp only [mixedEpisodes, List.map_cons, List.map_nil, List.mem_cons, List.not_mem_nil,
        or_false] at hmem'
      rcases hmem' with rfl | rfl <;> trivial
    turn := fun _ => trivial }

end Sample

end IBotCoreApi
