import IBotCoreApi.Library.KeyedLists
import IBotCoreApi.Library.PyJson
import IBotCoreApi.Library.PyValues

namespace IBotCoreApi
open Python FirstOccurrences

def tabSwitchViolationType : String := "tab_switch"
def maxAllowedTabSwitches : ℤ := 5
def tabSwitchViolationId : String := "proctoring:tab_switch"

/-- Minimum duration for a violation and continuous duration for termination, in milliseconds. -/
def faceProctoringPolicies (eventType : String) : Option (ℤ × ℤ) :=
  if eventType = "face_absent" then some (5000, 30000)
  else if eventType = "multiple_faces" then some (3000, 20000)
  else none

/-- `isinstance(item, dict) and item.get("violation_type") == violation_type`. -/
def hasType (violationType : String) (item : Json) : Bool :=
  (item.field "violation_type").eqStr violationType

def metadata (item : Json) : Json.Entries :=
  match item.field "metadata" with
  | .dict d => d
  | _ => []

def positiveInt (value : Json) : Option ℤ :=
  match value with
  | .int i => if i < 1 then none else some i
  | _ => none

/-- The declared counters of one record, `occurrence_count` before `tab_switch_count`. -/
def declaredCounts (item : Json) : List ℤ :=
  [positiveInt (Json.get (metadata item) "occurrence_count"),
    positiveInt (Json.get (metadata item) "tab_switch_count")].reduceOption

def tabSwitchCount (violations : List Json) : ℤ :=
  let tabViolations := violations.filter (hasType tabSwitchViolationType)
  let declared := tabViolations.flatMap declaredCounts
  declared.foldl max (tabViolations.length : ℤ)

variable [Runtime]

/-- The ids of one record's metadata: the canonical list, then the legacy id. -/
def idCandidates (metadata : Json.Entries) : List String :=
  let candidates := match Json.get metadata "event_ids" with
    | .list xs => xs
    | _ => []
  let legacyId := ((Json.get metadata "event_id").orElse (.str "")).pyStr
  (candidates ++ [.str legacyId]).map fun candidate => (candidate.orElse (.str "")).pyStr

/-- `if value and value not in result: result.append(value)`. -/
def collectId (result : List String) (value : String) : List String :=
  if value ≠ "" then pushNew result value else result

def eventIds (items : List Json) : List String :=
  items.foldl (fun result item => (idCandidates (metadata item)).foldl collectId result) []

omit [Runtime] in
/-- Replace the first record of a type and drop its other records, or append. -/
def replaceViolationType (violations : List Json) (violationType : String) (replacement : Json) :
    List Json :=
  match violations with
  | [] => [replacement]
  | item :: rest =>
    if hasType violationType item then
      replacement :: rest.filter fun other => !hasType violationType other
    else
      item :: replaceViolationType rest violationType replacement

/-- `int(first_violation.get("turn_number") or max(1, len(transcript or [])))`. -/
def turnNumber (firstViolation : Json) (transcript : List Json) : Except PyError ℤ :=
  ((firstViolation.field "turn_number").orElse (.int (max 1 (transcript.length : ℤ)))).toInt

/-- The canonical tab-switch record that replaces the records `tabViolations`. -/
def tabSwitchViolation (tabViolations transcript : List Json) (currentCount : ℤ)
    (incomingEventId occurredAt : String) : Except PyError Json := do
  let occurrenceCount := currentCount + 1
  let firstViolation := tabViolations.headD (.dict [])
  let firstOccurredAt := ((Json.get (metadata firstViolation) "first_occurred_at").orElse
    ((firstViolation.field "timestamp").orElse (.str occurredAt))).pyStr
  let turn ← turnNumber firstViolation transcript
  return .dict [
    ("violation_id", .str tabSwitchViolationId),
    ("turn_number", .int turn),
    ("violation_type", .str tabSwitchViolationType),
    ("candidate_transcript", .str ""),
    ("severity", .str "low"),
    ("timestamp", .str firstOccurredAt),
    ("metadata", .dict [
      ("source", .str "browser_visibility"),
      ("affects_evaluation", .bool true),
      ("occurrence_count", .int occurrenceCount),
      ("tab_switch_count", .int occurrenceCount),
      ("event_ids", .list ((eventIds tabViolations ++ [incomingEventId]).map .str)),
      ("first_occurred_at", .str firstOccurredAt),
      ("last_occurred_at", .str occurredAt),
      ("termination_threshold_count", .int maxAllowedTabSwitches),
      ("termination_triggered", .bool (occurrenceCount ≥ maxAllowedTabSwitches))])]

/-- The measured fields of a `RecordProctoringEventRequest`, within the bounds of the schema.  The
repository reads the datetime only as `isoformat()` text. -/
structure FaceEvent where
  eventId : Uuid
  eventType : String
  conditionStartedAt : String
  observedDurationMs : ℤ
  sampleCount : ℤ
  maxFaceCount : ℤ
  minConfidence : Option ℚ
  maxConfidence : Option ℚ
  source : String
  detectorVersion : String
  modelName : String
  duration_bounds : 3000 ≤ observedDurationMs ∧ observedDurationMs ≤ 3600000
  sampleCount_bounds : 1 ≤ sampleCount ∧ sampleCount ≤ 10000
  maxFaceCount_bounds : 0 ≤ maxFaceCount ∧ maxFaceCount ≤ 20

def optionalFloat : Option ℚ → Json
  | some q => .float q
  | none => .null

/-- `int(d.get(k) or 0)`. -/
def intOrZero (d : Json.Entries) (k : String) : Except PyError ℤ :=
  ((Json.get d k).orElse (.int 0)).toInt

def legacyEpisode (violation : Json) (conditionStartedAt : String) :
    Except PyError Json.Entries := do
  let m := metadata violation
  let recorded := ((Json.get m "recorded_at").orElse
    ((violation.field "timestamp").orElse (.str conditionStartedAt))).pyStr
  let duration ← intOrZero m "observed_duration_ms"
  let samples ← intOrZero m "sample_count"
  let faces ← intOrZero m "max_face_count"
  return [
    ("condition_started_at", .str conditionStartedAt),
    ("first_recorded_at", .str recorded),
    ("last_recorded_at", .str recorded),
    ("max_observed_duration_ms", .int duration),
    ("sample_count", .int samples),
    ("max_face_count", .int faces),
    ("min_confidence", Json.get m "min_confidence"),
    ("max_confidence", Json.get m "max_confidence"),
    ("source", .str ((Json.get m "source").orElse (.str "unknown")).pyStr),
    ("detector_version", .str ((Json.get m "detector_version").orElse (.str "unknown")).pyStr),
    ("model_name", .str ((Json.get m "model_name").orElse (.str "unknown")).pyStr),
    ("event_ids", .list ((eventIds [violation]).map .str))]

omit [Runtime] in
def dicts (items : List Json) : List Json.Entries :=
  items.filterMap fun item => match item with
    | .dict d => some d
    | _ => none

/-- The episodes one record contributes: its canonical list, or itself read as a legacy event. -/
def recordEpisodes (violation : Json) : Except PyError (List Json.Entries) :=
  match Json.get (metadata violation) "episodes" with
  | .list (item :: items) => .ok (dicts (item :: items))
  | _ =>
    let conditionStartedAt := ((Json.get (metadata violation) "condition_started_at").orElse
      ((violation.field "timestamp").orElse (.str ""))).pyStr
    if conditionStartedAt = "" then .ok []
    else (legacyEpisode violation conditionStartedAt).map ([·])

def faceEpisodes (existing : List Json) : Except PyError (List Json.Entries) :=
  match existing with
  | [] => .ok []
  | violation :: rest => do
    let here ← recordEpisodes violation
    let others ← faceEpisodes rest
    return here ++ others

/-- `combined = value if incoming is None else pick(value, incoming)` for a stored number. -/
def combineConfidence (pick : ℚ → ℚ → ℚ) (stored : Json) (incoming : Option ℚ) :
    Except PyError (Option ℚ) := do
  let value : Option ℚ ← match stored with
    | .float q => pure (some q)
    | .int i => match Runtime.floatOfInt i with
      | some q => pure (some q)
      | none => throw .overflowError
    | _ => pure none
  return match value, incoming with
    | none, incoming => incoming
    | some q, none => some q
    | some q, some r => some (pick q r)

/-- `_merge_face_episode`: merge a packet into its continuous episode. -/
def mergeFaceEpisode (existing : Option Json.Entries) (event : FaceEvent) (recordedAt : String) :
    Except PyError Json.Entries := do
  let current := existing.getD []
  let rawEventIds := match Json.get current "event_ids" with
    | .list xs => (xs.map (·.pyStr)).filter (· ≠ "")
    | _ => []
  let ids := pushNew rawEventIds event.eventId.str
  let combinedMin ← combineConfidence min (Json.get current "min_confidence") event.minConfidence
  let combinedMax ← combineConfidence max (Json.get current "max_confidence") event.maxConfidence
  let duration ← intOrZero current "max_observed_duration_ms"
  let samples ← intOrZero current "sample_count"
  let faces ← intOrZero current "max_face_count"
  return [
    ("condition_started_at", .str event.conditionStartedAt),
    ("first_recorded_at",
      .str ((Json.get current "first_recorded_at").orElse (.str recordedAt)).pyStr),
    ("last_recorded_at", .str recordedAt),
    ("max_observed_duration_ms", .int (max duration event.observedDurationMs)),
    ("sample_count", .int (max samples event.sampleCount)),
    ("max_face_count", .int (max faces event.maxFaceCount)),
    ("min_confidence", optionalFloat combinedMin),
    ("max_confidence", optionalFloat combinedMax),
    ("source", .str (if event.source = "camera_state" ∨
        (Json.get current "source").eqStr "camera_state" then "camera_state" else event.source)),
    ("detector_version", .str event.detectorVersion),
    ("model_name", .str event.modelName),
    ("event_ids", .list (ids.map .str))]

omit [Runtime] in
/-- `item.get("condition_started_at") == condition_started_at_value`. -/
def startsAt (conditionStartedAt : String) (episode : Json.Entries) : Bool :=
  (Json.get episode "condition_started_at").eqStr conditionStartedAt

omit [Runtime] in
/-- Put the merged episode at the place of the first one with its start, or at the end. -/
def putEpisode (conditionStartedAt : String) (payload : Json.Entries)
    (episodes : List Json.Entries) : List Json.Entries :=
  KeyedLists.put (startsAt conditionStartedAt) payload episodes

/-- `int(episode.get("max_observed_duration_ms") or 0) if episode else 0`. -/
def previousDuration : Option Json.Entries → Except PyError ℤ
  | some episode => intOrZero episode "max_observed_duration_ms"
  | none => .ok 0

/-- `max(int(item.get("max_observed_duration_ms") or 0) for item in episodes)`, which a merged
list never leaves empty. -/
def maxObservedDuration : List Json.Entries → Except PyError ℤ
  | [] => .error .valueError
  | [episode] => intOrZero episode "max_observed_duration_ms"
  | episode :: rest => do
    let here ← intOrZero episode "max_observed_duration_ms"
    let others ← maxObservedDuration rest
    return max here others

omit [Runtime] in
def terminationReason (eventType : String) : String := eventType ++ "_continuous_duration_exceeded"

/-- The canonical record of a face event type that replaces the records `existing`. -/
def faceViolation (existing transcript : List Json) (policy : ℤ × ℤ) (event : FaceEvent)
    (connectionId recordedAt : String) (ids : List String) (episodes : List Json.Entries) :
    Except PyError Json := do
  let firstViolation := existing.headD (.dict [])
  let existingMetadata := metadata firstViolation
  let terminated := event.observedDurationMs ≥ policy.2
  let maxDuration ← maxObservedDuration episodes
  let firstRecordedAt := ((Json.get existingMetadata "first_recorded_at").orElse
    ((firstViolation.field "timestamp").orElse (.str recordedAt))).pyStr
  let turn ← turnNumber firstViolation transcript
  return .dict [
    ("violation_id", .str ("proctoring:" ++ event.eventType)),
    ("turn_number", .int turn),
    ("violation_type", .str event.eventType),
    ("candidate_transcript", .str ""),
    ("severity", .str "high"),
    ("timestamp", .str firstRecordedAt),
    ("metadata", .dict [
      ("source", .str "browser_face_proctoring"),
      ("connection_id", .str connectionId),
      ("occurrence_count", .int episodes.length),
      ("event_count", .int ids.length),
      ("event_ids", .list (ids.map .str)),
      ("episodes", .list (episodes.map .dict)),
      ("first_recorded_at", .str firstRecordedAt),
      ("recorded_at", .str recordedAt),
      ("last_condition_started_at", .str event.conditionStartedAt),
      ("max_observed_duration_ms", .int maxDuration),
      ("minimum_violation_duration_ms", .int policy.1),
      ("termination_duration_ms", .int policy.2),
      ("termination_triggered",
        .bool (terminated || (Json.get existingMetadata "termination_triggered").truthy)),
      ("termination_reason", if terminated then .str (terminationReason event.eventType)
        else Json.get existingMetadata "termination_reason"),
      ("affects_evaluation", .bool true),
      ("review_status", .str "server_qualified"),
      ("raw_frames_uploaded", .bool false)])]

end IBotCoreApi
