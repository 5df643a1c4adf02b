import IBotCoreApi.AssessmentProcessing
import IBotCoreApi.ResumeParsing
import IBotCoreApi.Library.EventStream
import IBotCoreApi.Library.JsonTexts
import Mathlib.Data.List.Infix

namespace IBotCoreApi
open Python Runs EventStream

def AssessmentStatus.text : AssessmentStatus → String
  | .draft => "DRAFT"
  | .processing => "PROCESSING"
  | .active => "ACTIVE"
  | .closed => "CLOSED"

inductive DashboardUpdate where
  | assessmentProcessed (recruiterId assessmentId : Uuid) (title roleName : String)
      (finalStatus : AssessmentStatus)
  | assessmentProcessingFailed (recruiterId assessmentId : Uuid) (title roleName : String)
  | assessmentExpired (recruiterId assessmentId : Uuid) (title roleName : String)
  | resumeParsed (context : RealtimeContext) (status : String)

namespace DashboardUpdate

def recruiterId : DashboardUpdate → String
  | assessmentProcessed recruiterId .. => recruiterId.str
  | assessmentProcessingFailed recruiterId .. => recruiterId.str
  | assessmentExpired recruiterId .. => recruiterId.str
  | resumeParsed context _ => context.recruiterId

def eventType : DashboardUpdate → String
  | assessmentProcessed _ _ _ _ finalStatus =>
    if finalStatus.text = "ACTIVE" then "ASSESSMENT_PROCESSING_COMPLETED" else "ASSESSMENT_EXPIRED"
  | assessmentProcessingFailed .. => "ASSESSMENT_PROCESSING_FAILED"
  | assessmentExpired .. => "ASSESSMENT_EXPIRED"
  | resumeParsed _ status =>
    if status = "COMPLETED" then "RESUME_PARSING_COMPLETED" else "RESUME_PARSING_FAILED"

def assessmentPayload (assessmentId : Uuid) (title roleName status : String) :
    List (String × String) :=
  [("assessment_id", assessmentId.str), ("title", title), ("role_name", roleName),
    ("status", status)]

def payload : DashboardUpdate → List (String × String)
  | assessmentProcessed _ assessmentId title roleName finalStatus =>
    assessmentPayload assessmentId title roleName finalStatus.text
  | assessmentProcessingFailed _ assessmentId title roleName =>
    assessmentPayload assessmentId title roleName "CLOSED"
  | assessmentExpired _ assessmentId title roleName =>
    assessmentPayload assessmentId title roleName "CLOSED"
  | resumeParsed context status =>
    [("candidate_assessment_id", context.candidateAssessmentId),
      ("assessment_id", context.assessmentId), ("recruiter_id", context.recruiterId),
      ("candidate_name", context.candidateName), ("resume_parse_status", status)]

end DashboardUpdate

structure RecruiterRealtimeEvent where
  eventId : Uuid
  eventType : String
  occurredAt : String
  payload : List (String × String)

namespace RecruiterRealtimeEvent

def json (event : RecruiterRealtimeEvent) : List (List Char × JsonTexts.Value) :=
  [("event_id".toList, .text event.eventId.str.toList),
    ("event_type".toList, .text event.eventType.toList),
    ("occurred_at".toList, .text event.occurredAt.toList),
    ("payload".toList, .object (event.payload.map fun entry => (entry.1.toList, entry.2.toList)))]

def modelDumpJson (event : RecruiterRealtimeEvent) : List Char :=
  JsonTexts.writeObject JsonTexts.writeValue event.json

end RecruiterRealtimeEvent

def recruiterChannelPrefix : String := "recruiter-dashboard"

def recruiterEventChannel (recruiterId : String) : String :=
  recruiterChannelPrefix ++ ":" ++ recruiterId

def keepaliveIntervalSeconds : ℚ := 15

/-- A stream: the messages that Redis has passed on and no poll has read, and the text sent. -/
structure EventSubscription where
  channel : String
  queue : List (List Char)
  lastKeepalive : ℚ
  sent : List Char
  subscribed : Bool

namespace EventSubscription

/-- Redis passes a message on, as often as it does. -/
def receive (s : EventSubscription) (channel : String) (data : List Char) (copies : ℕ) :
    EventSubscription :=
  if s.subscribed && s.channel == channel then
    { s with queue := s.queue ++ List.replicate copies data }
  else s

/-- `stream_recruiter_events` up to its loop. -/
def connect (recruiterId : Uuid) (now : ℚ) : EventSubscription where
  channel := recruiterEventChannel recruiterId.str
  queue := []
  lastKeepalive := now
  sent := "retry: 3000\n\n".toList
  subscribed := true

/-- A round of the loop.  A message that Redis has passed on may not have arrived in time. -/
def poll (s : EventSubscription) (arrived : Bool) (checkedAt sentAt : ℚ) : EventSubscription :=
  if !s.subscribed then s
  else
    match (if arrived then s.queue else []) with
    | data :: queue =>
      { s with
        queue := queue
        sent := s.sent ++ ("event: recruiter-update\ndata: ".toList ++ data ++ "\n\n".toList)
        lastKeepalive := sentAt }
    | [] =>
      if keepaliveIntervalSeconds ≤ checkedAt - s.lastKeepalive then
        { s with sent := s.sent ++ ": keep-alive\n\n".toList, lastKeepalive := sentAt }
      else s

/-- The generator ends, whether the browser went away or Redis raised. -/
def disconnect (s : EventSubscription) : EventSubscription :=
  { s with queue := [], subscribed := false }

end EventSubscription

inductive RealtimeCall where
  /-- `publish_recruiter_event`: `copies` is how often Redis passes the message on to a stream, and
  the command may raise all the same. -/
  | publish (update : DashboardUpdate) (eventId : Uuid) (occurredAt : String) (copies : ℕ → ℕ)
      (raises : Bool)
  | connect (recruiterId : Uuid) (now : ℚ)
  | poll (stream : ℕ) (arrived : Bool) (checkedAt sentAt : ℚ)
  | disconnect (stream : ℕ)

def DashboardUpdate.event (update : DashboardUpdate) (eventId : Uuid) (occurredAt : String) :
    RecruiterRealtimeEvent :=
  ⟨eventId, update.eventType, occurredAt, update.payload⟩

def realtime : Machine (List EventSubscription) RealtimeCall (Option Bool) := fun streams call =>
  match call with
  | .publish update eventId occurredAt copies raises =>
    (some !raises, streams.mapIdx fun stream s =>
      s.receive (recruiterEventChannel update.recruiterId)
        (update.event eventId occurredAt).modelDumpJson (copies stream))
  | .connect recruiterId now => (none, streams ++ [.connect recruiterId now])
  | .poll stream arrived checkedAt sentAt =>
    (none, streams.modify stream (·.poll arrived checkedAt sentAt))
  | .disconnect stream => (none, streams.modify stream (·.disconnect))

def RealtimeCall.passedOn (recruiterId : Uuid) (stream : ℕ) :
    RealtimeCall → List RecruiterRealtimeEvent
  | .publish update eventId occurredAt copies _ =>
    if update.recruiterId = recruiterId.str then
      List.replicate (copies stream) (update.event eventId occurredAt)
    else []
  | _ => []

/-- What a dashboard is shown: the type of an event, and the object that its data is read as. -/
abbrev Shown := List Char × Option (List (List Char × JsonTexts.Value))

def RecruiterRealtimeEvent.shown (event : RecruiterRealtimeEvent) : Shown :=
  ("recruiter-update".toList, some event.json)

def dashboard (received : List Char) : List Shown :=
  (decode received).map fun event => (event.1, JsonTexts.parse event.2)

theorem retryFrame_eq : "retry: 3000\n\n".toList = (Chunk.retry "3000".toList).text := by
  simp [Chunk.text_retry]

theorem keepaliveFrame_eq : ": keep-alive\n\n".toList = (Chunk.comment "keep-alive".toList).text := by
  simp [Chunk.text_comment]

theorem updateFrame_eq (data : List Char) :
    "event: recruiter-update\ndata: ".toList ++ data ++ "\n\n".toList =
      (Chunk.event "recruiter-update".toList data).text := by
  have hfront : "event: recruiter-update\ndata: ".toList =
      "event: ".toList ++ "recruiter-update".toList ++ "\ndata: ".toList := by simp
  rw [hfront, Chunk.text_event]

theorem recruiterEventChannel_injective : Function.Injective recruiterEventChannel := by
  intro first second h
  exact String.append_right_inj _ |>.mp h

theorem RecruiterRealtimeEvent.oneLine_modelDumpJson (event : RecruiterRealtimeEvent) :
    Chunk.OneLine event.modelDumpJson := by
  intro c hc
  have hprintable := JsonTexts.printable_writeObject JsonTexts.printable_writeValue event.json c hc
  constructor
  · rintro rfl
    exact absurd hprintable (by decide)
  · rintro rfl
    exact absurd hprintable (by decide)

def RecruiterRealtimeEvent.frame (event : RecruiterRealtimeEvent) : List Char × List Char :=
  ("recruiter-update".toList, event.modelDumpJson)

theorem RecruiterRealtimeEvent.shown_frame (event : RecruiterRealtimeEvent) :
    (event.frame.1, JsonTexts.parse event.frame.2) = event.shown := by
  unfold frame shown modelDumpJson
  rw [JsonTexts.parse_writeObject]

/-- The chunks that a stream has sent, the events in them, and those in its queue. -/
structure Streams (recruiterId : Uuid) (s : EventSubscription)
    (passed : List RecruiterRealtimeEvent) (chunks : List Chunk)
    (events waiting : List RecruiterRealtimeEvent) : Prop where
  channel : s.channel = recruiterEventChannel recruiterId.str
  wellFormed : ∀ chunk ∈ chunks, chunk.WellFormed
  sent : s.sent = chunks.flatMap Chunk.text
  dispatched : chunks.filterMap Chunk.event? = events.map (·.frame)
  queue : s.queue = waiting.map (·.modelDumpJson)
  first : events ++ waiting <+: passed
  all : s.subscribed = true → events ++ waiting = passed

def EventSubscription.next (stream : ℕ) (s : EventSubscription) : RealtimeCall → EventSubscription
  | .publish update eventId occurredAt copies _ =>
    s.receive (recruiterEventChannel update.recruiterId)
      (update.event eventId occurredAt).modelDumpJson (copies stream)
  | .connect .. => s
  | .poll other arrived checkedAt sentAt =>
    if other = stream then s.poll arrived checkedAt sentAt else s
  | .disconnect other => if other = stream then s.disconnect else s

theorem realtime_getElem? {streams : List EventSubscription} {stream : ℕ} {s : EventSubscription}
    (h : streams[stream]? = some s) (call : RealtimeCall) :
    (realtime streams call).2[stream]? = some (s.next stream call) := by
  cases call with
  | publish update eventId occurredAt copies raises =>
    simp [realtime, EventSubscription.next, List.getElem?_mapIdx, h]
  | connect recruiterId now =>
    have hlt : stream < streams.length := (List.getElem?_eq_some_iff.mp h).1
    simp [realtime, EventSubscription.next, List.getElem?_append_left hlt, h]
  | poll other arrived checkedAt sentAt =>
    by_cases hother : other = stream
    · simp [realtime, EventSubscription.next, h, hother]
    · simp [realtime, EventSubscription.next, h, hother]
  | disconnect other =>
    by_cases hother : other = stream
    · simp [realtime, EventSubscription.next, h, hother]
    · simp [realtime, EventSubscription.next, h, hother]

theorem exec_realtime_getElem? {streams : List EventSubscription} {stream : ℕ}
    {s : EventSubscription} (h : streams[stream]? = some s) (calls : List RealtimeCall) :
    (exec realtime streams calls)[stream]? = some (calls.foldl (·.next stream ·) s) := by
  induction calls generalizing streams s with
  | nil => exact h
  | cons call calls ih => exact ih (realtime_getElem? h call)

section

variable {recruiterId : Uuid} {s : EventSubscription} {passed : List RecruiterRealtimeEvent}
  {chunks : List Chunk} {events waiting : List RecruiterRealtimeEvent}

theorem Streams.ended (h : Streams recruiterId s passed chunks events waiting)
    (hended : s.subscribed = false) (more : List RecruiterRealtimeEvent) :
    Streams recruiterId s (passed ++ more) chunks events waiting where
  channel := h.channel
  wellFormed := h.wellFormed
  sent := h.sent
  dispatched := h.dispatched
  queue := h.queue
  first := h.first.trans (List.prefix_append _ _)
  all hsubscribed := absurd (hended.symm.trans hsubscribed) Bool.false_ne_true

theorem Streams.receive (h : Streams recruiterId s passed chunks events waiting)
    (update : DashboardUpdate) (event : RecruiterRealtimeEvent) (copies : ℕ) :
    ∃ waiting, Streams recruiterId
      (s.receive (recruiterEventChannel update.recruiterId) event.modelDumpJson copies)
      (passed ++ if update.recruiterId = recruiterId.str then List.replicate copies event else [])
      chunks events waiting := by
  unfold EventSubscription.receive
  cases hsubscribed : s.subscribed with
  | false => exact ⟨waiting, h.ended hsubscribed _⟩
  | true =>
    by_cases hrecruiter : update.recruiterId = recruiterId.str
    · rw [if_pos hrecruiter, if_pos (by simp [h.channel, hrecruiter])]
      have hall : events ++ (waiting ++ List.replicate copies event) =
          passed ++ List.replicate copies event := by
        rw [← List.append_assoc, h.all hsubscribed]
      exact ⟨waiting ++ List.replicate copies event,
        { channel := h.channel
          wellFormed := h.wellFormed
          sent := h.sent
          dispatched := h.dispatched
          queue := by simp [h.queue]
          first := hall ▸ List.prefix_rfl
          all := fun _ => hall }⟩
    · have hchannel : (s.channel == recruiterEventChannel update.recruiterId) = false := by
        rw [h.channel, beq_eq_false_iff_ne]
        exact fun heq => hrecruiter (recruiterEventChannel_injective heq).symm
      rw [if_neg hrecruiter, if_neg (by simp [hchannel]), List.append_nil]
      exact ⟨waiting, h⟩

/-- A round of the loop sends the first event that waits, a comment or nothing. -/
theorem Streams.poll (h : Streams recruiterId s passed chunks events waiting) (arrived : Bool)
    (checkedAt sentAt : ℚ) :
    ∃ chunks events waiting,
      Streams recruiterId (s.poll arrived checkedAt sentAt) passed chunks events waiting := by
  unfold EventSubscription.poll
  cases hsubscribed : s.subscribed with
  | false => exact ⟨chunks, events, waiting, h⟩
  | true =>
    simp only [Bool.not_true, Bool.false_eq_true, if_false]
    split
    · rename_i data queue hqueue
      have harrived : s.queue = data :: queue := by
        cases arrived with
        | true => exact hqueue
        | false => cases hqueue
      rw [h.queue] at harrived
      obtain ⟨event, rest, rfl, rfl, rfl⟩ := List.map_eq_cons_iff.mp harrived
      refine ⟨chunks ++ [.event "recruiter-update".toList event.modelDumpJson],
        events ++ [event], rest, ?_⟩
      have hall : events ++ [event] ++ rest = events ++ event :: rest := by
        rw [List.append_assoc, List.singleton_append]
      constructor
      case channel => exact h.channel
      case wellFormed =>
        refine List.forall_mem_append.mpr ⟨h.wellFormed, List.forall_mem_singleton.mpr ?_⟩
        exact ⟨by simp, by simp [Chunk.OneLine], event.oneLine_modelDumpJson⟩
      case sent => rw [List.flatMap_append, ← h.sent, List.flatMap_singleton, updateFrame_eq]
      case dispatched =>
        rw [List.filterMap_append, h.dispatched, List.map_append]
        rfl
      case queue => rfl
      case first => exact hall ▸ h.first
      case all => exact fun _ => hall.trans (h.all hsubscribed)
    · split
      · refine ⟨chunks ++ [.comment "keep-alive".toList], events, waiting, ?_⟩
        constructor
        case channel => exact h.channel
        case wellFormed =>
          exact List.forall_mem_append.mpr ⟨h.wellFormed, by simp [Chunk.WellFormed, Chunk.OneLine]⟩
        case sent =>
          rw [List.flatMap_append, ← h.sent, List.flatMap_singleton, keepaliveFrame_eq]
        case dispatched =>
          rw [List.filterMap_append, h.dispatched]
          exact List.append_nil _
        case queue => exact h.queue
        case first => exact h.first
        case all => exact fun _ => h.all hsubscribed
      · exact ⟨chunks, events, waiting, h⟩

theorem Streams.disconnect (h : Streams recruiterId s passed chunks events waiting) :
    Streams recruiterId s.disconnect passed chunks events [] where
  channel := h.channel
  wellFormed := h.wellFormed
  sent := h.sent
  dispatched := h.dispatched
  queue := rfl
  first := by
    rw [List.append_nil]
    exact (List.prefix_append _ _).trans h.first
  all hsubscribed := absurd hsubscribed Bool.false_ne_true

theorem Streams.next (h : Streams recruiterId s passed chunks events waiting) (stream : ℕ)
    (call : RealtimeCall) :
    ∃ chunks events waiting, Streams recruiterId (s.next stream call)
      (passed ++ call.passedOn recruiterId stream) chunks events waiting := by
  cases call with
  | publish update eventId occurredAt copies raises =>
    obtain ⟨waiting, hreceived⟩ := h.receive update (update.event eventId occurredAt) (copies stream)
    exact ⟨chunks, events, waiting, hreceived⟩
  | connect other now => exact ⟨chunks, events, waiting, (List.append_nil passed).symm ▸ h⟩
  | poll other arrived checkedAt sentAt =>
    simp only [EventSubscription.next, RealtimeCall.passedOn, List.append_nil]
    split
    · exact h.poll arrived checkedAt sentAt
    · exact ⟨chunks, events, waiting, h⟩
  | disconnect other =>
    simp only [EventSubscription.next, RealtimeCall.passedOn, List.append_nil]
    split
    · exact ⟨chunks, events, [], h.disconnect⟩
    · exact ⟨chunks, events, waiting, h⟩

theorem streams_connect (recruiterId : Uuid) (now : ℚ) :
    Streams recruiterId (.connect recruiterId now) [] [.retry "3000".toList] [] [] where
  channel := rfl
  wellFormed := by simp [Chunk.WellFormed, Chunk.OneLine]
  sent := by
    rw [List.flatMap_singleton, ← retryFrame_eq]
    rfl
  dispatched := rfl
  queue := rfl
  first := List.prefix_rfl
  all _ := rfl

theorem Streams.run (h : Streams recruiterId s passed chunks events waiting) (stream : ℕ)
    (calls : List RealtimeCall) :
    ∃ chunks events waiting, Streams recruiterId (calls.foldl (·.next stream ·) s)
      (passed ++ calls.flatMap (·.passedOn recruiterId stream)) chunks events waiting := by
  induction calls generalizing s passed chunks events waiting with
  | nil => exact ⟨chunks, events, waiting, (List.append_nil passed).symm ▸ h⟩
  | cons call calls ih =>
    obtain ⟨chunks, events, waiting, hnext⟩ := h.next stream call
    rw [List.flatMap_cons, ← List.append_assoc]
    exact ih hnext

theorem subscribed_run {stream : ℕ} {calls : List RealtimeCall}
    (hcalls : .disconnect stream ∉ calls) :
    (calls.foldl (·.next stream ·) s).subscribed = s.subscribed := by
  induction calls generalizing s with
  | nil => rfl
  | cons call calls ih =>
    obtain ⟨hcall, hrest⟩ := not_or.mp (List.mem_cons.not.mp hcalls)
    rw [List.foldl_cons, ih hrest]
    cases call with
    | publish update eventId occurredAt copies raises =>
      simp only [EventSubscription.next, EventSubscription.receive]
      split <;> rfl
    | connect other now => rfl
    | poll other arrived checkedAt sentAt =>
      simp only [EventSubscription.next, EventSubscription.poll]
      repeat' split
      all_goals rfl
    | disconnect other =>
      have hother : other ≠ stream := fun heq => hcall (heq ▸ rfl)
      simp only [EventSubscription.next, if_neg hother]

theorem Streams.dashboard_eq (h : Streams recruiterId s passed chunks events waiting) :
    dashboard s.sent = events.map (·.shown) := by
  unfold dashboard
  rw [h.sent, decode_chunks h.wellFormed, h.dispatched, List.map_map]
  exact List.map_congr_left fun event _ => event.shown_frame

end

theorem dashboard_prefix {received text : List Char} (h : received <+: text) :
    dashboard received <+: dashboard text :=
  (decode_isPrefix h).map _

/-- What a dashboard is shown is the first of the events that Redis has passed on to its stream:
they are all of its recruiter, in the order of their publication, and each as it was published.
Until the stream ends, the others wait in its queue. -/
theorem dashboards_correct (before after : List RealtimeCall) (recruiterId : Uuid) (now : ℚ) :
    ∃ s, (exec realtime [] (before ++ .connect recruiterId now :: after))[
        (exec realtime [] before).length]? = some s ∧
      (∀ received, received <+: s.sent → dashboard received <+:
        (after.flatMap (·.passedOn recruiterId (exec realtime [] before).length)).map (·.shown)) ∧
      (.disconnect (exec realtime [] before).length ∉ after →
        dashboard s.sent ++ s.queue.map (fun data => ("recruiter-update".toList,
            JsonTexts.parse data)) =
          (after.flatMap (·.passedOn recruiterId (exec realtime [] before).length)).map
            (·.shown)) := by
  set stream := (exec realtime [] before).length with hstream
  have hconnected : (realtime (exec realtime [] before) (.connect recruiterId now)).2[stream]? =
      some (.connect recruiterId now) := by
    simp [realtime, hstream]
  obtain ⟨chunks, events, waiting, h⟩ := (streams_connect recruiterId now).run stream after
  rw [List.nil_append] at h
  refine ⟨after.foldl (·.next stream ·) (.connect recruiterId now), ?_, ?_, ?_⟩
  · rw [exec_append_cons]
    exact exec_realtime_getElem? hconnected after
  · intro received hreceived
    have hevents : events <+: after.flatMap (·.passedOn recruiterId stream) :=
      (List.prefix_append _ _).trans h.first
    have hshown := dashboard_prefix hreceived
    rw [h.dashboard_eq] at hshown
    exact hshown.trans (hevents.map _)
  · intro hopen
    have hsubscribed := subscribed_run (s := .connect recruiterId now) hopen
    have hqueue : waiting.map (fun event => ("recruiter-update".toList,
        JsonTexts.parse event.modelDumpJson)) = waiting.map (·.shown) :=
      List.map_congr_left fun event _ => event.shown_frame
    rw [h.dashboard_eq, h.queue, List.map_map, ← h.all (hsubscribed.trans rfl), List.map_append,
      ← hqueue]
    rfl

end IBotCoreApi
