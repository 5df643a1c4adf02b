import IBotCoreApi.AssessmentProcessing
import IBotCoreApi.EmailTasks
import IBotCoreApi.EvaluationSchemas
import IBotCoreApi.Library.Base64

namespace IBotCoreApi
open Python Pydantic Runs

/-- The arguments of `process_assessment_task`, as the broker carries them. -/
structure TaskArguments where
  assessmentId : String
  jdText : Option String
  jdFileBase64 : Option String
  jdFilename : Option String
  focusAreasPayload : Option (List Json)

/-- The arguments of `process_assessment_task.delay`. -/
def enqueueAssessmentProcessing (assessmentId : Uuid) (jdText : Option String)
    (jdFileBytes : List UInt8) (jdFilename : Option String)
    (focusAreas : Option (List FocusAreaOverride)) : TaskArguments where
  assessmentId := assessmentId.str
  jdText := jdText
  jdFileBase64 :=
    if jdFileBytes.isEmpty then none else some (String.ofList (Base64.encode jdFileBytes))
  jdFilename := jdFilename
  focusAreasPayload :=
    match focusAreas with
    | none | some [] => none
    | some focusAreas => some (focusAreas.map FocusAreaOverride.modelDump)

section Decode

variable [Runtime] [NumberText]

def FocusAreaOverride.modelValidate : Validator FocusAreaOverride
  | .dict d => do
    onlyKeys ["skill", "weight_override"] d
    let skill ← required str d "skill"
    let weight ← required float d "weight_override"
    if h : 0 ≤ weight ∧ weight ≤ 10 then some ⟨skill, weight, h⟩ else none
  | _ => none

/-- `base64.b64decode(text.encode("ascii"))`, `none` where either of the two raises. -/
def b64decode (text : String) : Option (List UInt8) :=
  if text.toList.all fun c => decide (c.toNat < 128) then (Base64.decode text.toList).toOption
  else none

/-- `file_bytes`. -/
def fileBytesOf : Option String → Option (List UInt8)
  | none | some "" => some []
  | some text => b64decode text

/-- `focus_areas`. -/
def focusAreasOf : Option (List Json) → Option (Option (List FocusAreaOverride))
  | none | some [] => some none
  | some payload => (items FocusAreaOverride.modelValidate payload).map some

/-- What `_process_assessment` makes of its arguments, `none` where it raises. -/
def TaskArguments.decoded [UuidText] (arguments : TaskArguments) : Option ProcessMessage := do
  let fileBytes ← fileBytesOf arguments.jdFileBase64
  let focusAreas ← focusAreasOf arguments.focusAreasPayload
  let assessmentId ← UuidText.uuidOfStr arguments.assessmentId
  return ⟨assessmentId, arguments.jdText, fileBytes, arguments.jdFilename, focusAreas⟩

end Decode

namespace AssessmentTasks

inductive EventName where
  | celeryTaskStarted
  | celeryTaskCompleted
  | celeryTaskRetrying
  | celeryTaskFailed
deriving DecidableEq

/-- What `process_assessment_task` records in the event log. -/
structure TaskEvent where
  eventName : EventName
  assessmentId : String
  retryNumber : ℕ
  retryInSeconds : Option ℕ
  exception : Option TaskException

structure AssessmentTask where
  arguments : TaskArguments
  retries : ℕ

def maxRetries : ℕ := 3

/-- What `self.retry` publishes, and the events of the delivery.  The body raises only where it
cannot read its arguments: all later exceptions end in its failure handler, and those of the handler
in the log. -/
def processAssessmentTask [Runtime] [NumberText] [UuidText]
    (refusal : TaskArguments → TaskException) (task : AssessmentTask) :
    List NotificationTasks.Retry × List TaskEvent :=
  let event (eventName : EventName) : TaskEvent :=
    ⟨eventName, task.arguments.assessmentId, task.retries, none, none⟩
  match task.arguments.decoded with
  | some _ => ([], [event .celeryTaskStarted, event .celeryTaskCompleted])
  | none =>
    let exception := refusal task.arguments
    let countdown := min 60 (2 ^ task.retries)
    if maxRetries ≤ task.retries then
      ([], [event .celeryTaskStarted,
        { event .celeryTaskFailed with exception := some exception }])
    else
      ([⟨task.retries + 1, countdown⟩], [event .celeryTaskStarted,
        { event .celeryTaskRetrying with
          retryInSeconds := some countdown, exception := some exception }])

/-- The worker: a retry is a message with the same arguments. -/
def assessmentWorker [Runtime] [NumberText] [UuidText] (refusal : TaskArguments → TaskException) :
    Redelivery.Worker (List TaskEvent) AssessmentTask Unit :=
  fun task _ eventLogs =>
    let (retries, events) := processAssessmentTask refusal task
    (retries.map fun retry => ⟨task.arguments, retry.retries⟩, eventLogs ++ events)

end AssessmentTasks

section UuidText

class LawfulUuidText [UuidText] : Prop where
  uuidOfStr_str (u : Uuid) : UuidText.uuidOfStr u.str = some u

theorem hexDigit?_digitChar {n : ℕ} (h : n < 16) : hexDigit? (Nat.digitChar n) = some n := by
  have hall : ∀ n < 16, hexDigit? (Nat.digitChar n) = some n := by decide
  exact hall n h

/-- The last `k` hexadecimal digits of a number, read from the first to the last. -/
theorem foldl_hexDigits (k n : ℕ) :
    ((List.range k).map fun i => n / 16 ^ (k - 1 - i) % 16).foldl
      (fun m digit => 16 * m + digit) 0 = n % 16 ^ k := by
  induction k generalizing n with
  | zero => simp [Nat.mod_one]
  | succ k ih =>
    rw [List.range_succ, List.map_append, List.foldl_append]
    have hfront : (List.range k).map (fun i => n / 16 ^ (k + 1 - 1 - i) % 16) =
        (List.range k).map fun i => n / 16 / 16 ^ (k - 1 - i) % 16 := by
      refine List.map_congr_left fun i hi => ?_
      have hlt := List.mem_range.mp hi
      rw [Nat.div_div_eq_div_mul, ← pow_succ', show k - 1 - i + 1 = k + 1 - 1 - i by omega]
    rw [hfront, ih]
    simp only [List.map_cons, List.map_nil, List.foldl_cons, List.foldl_nil, Nat.add_sub_cancel,
      Nat.sub_self, pow_zero, Nat.div_one]
    rw [pow_succ', Nat.mod_mul, Nat.add_comm]

theorem digit_lt (u : Uuid) (i : ℕ) : u.toNat / 16 ^ (31 - i) % 16 < 16 := Nat.mod_lt _ (by decide)

theorem filter_str (u : Uuid) : u.str.toList.filter (· != '-') = u.digits := by
  have hdigits : ∀ c ∈ u.digits, (c != '-') = true := by
    intro c hc
    obtain ⟨i, _, rfl⟩ := List.mem_map.mp hc
    have hall : ∀ n < 16, (Nat.digitChar n != '-') = true := by decide
    exact hall _ (digit_lt u i)
  have hpart {part : List Char} (h : ∀ c ∈ part, c ∈ u.digits) : part.filter (· != '-') = part :=
    List.filter_eq_self.mpr fun c hc => hdigits c (h c hc)
  have hdrop {m n : ℕ} : ∀ c ∈ (u.digits.drop m).take n, c ∈ u.digits := fun c hc =>
    List.mem_of_mem_drop (List.mem_of_mem_take hc)
  simp only [Uuid.str, String.toList_ofList, List.filter_append, List.filter_cons,
    hpart fun c hc => List.mem_of_mem_take hc, hpart hdrop,
    hpart fun c hc => List.mem_of_mem_drop hc, bne_self_eq_false, Bool.false_eq_true, if_false]
  rw [List.append_assoc, List.append_assoc, List.append_assoc]
  exact Uuid.groups_eq u.digits

instance UuidText.hexadecimal_lawful : @LawfulUuidText .hexadecimal :=
  letI := UuidText.hexadecimal
  { uuidOfStr_str := fun u => by
      have hlength : u.digits.length = 32 := by simp [Uuid.digits]
      have hvalues : u.digits.mapM hexDigit? =
          some ((List.range 32).map fun i => u.toNat / 16 ^ (31 - i) % 16) := by
        have hdigit : ∀ i, hexDigit? (Nat.digitChar (u.toNat / 16 ^ (31 - i) % 16)) =
            pure (u.toNat / 16 ^ (31 - i) % 16) := fun i => hexDigit?_digitChar (digit_lt u i)
        rw [Uuid.digits, List.mapM_map]
        simp only [Function.comp_def, hdigit, List.mapM_pure]
        rfl
      have hread : u.toNat % 16 ^ 32 = u.toNat := Nat.mod_eq_of_lt u.isLt
      have hfilter := filter_str u
      change (if (u.str.toList.filter (· != '-')).length = 32 then
        ((u.str.toList.filter (· != '-')).mapM hexDigit?).map fun values =>
          BitVec.ofNat 128 (values.foldl (fun n digit => 16 * n + digit) 0) else none) = some u
      rw [hfilter, if_pos hlength, hvalues, Option.map_some, foldl_hexDigits 32, hread,
        BitVec.ofNat_toNat, BitVec.setWidth_eq] }

end UuidText

section RoundTrip

variable [Runtime] [NumberText]

theorem FocusAreaOverride.format :
    Format FocusAreaOverride.modelValidate FocusAreaOverride.modelDump
      (fun o => Trimmed o.skill) where
  accepted {j o} h := by
    cases j with
    | dict d =>
      simp only [modelValidate, Option.bind_eq_bind, Option.bind_eq_some_iff] at h
      obtain ⟨_, _, skill, hskill, weight, _, h⟩ := h
      split at h
      · cases h
        exact str_format.required hskill
      · cases h
    | _ => cases h
  reads {o} h := by
    have hskill := str_format.reads h
    have hweight : float (.float o.weightOverride) = some o.weightOverride := rfl
    simp [modelDump, modelValidate, onlyKeys, required, lookup_entry, hskill, hweight,
      o.weight_bounds]

/-- An empty list of overrides is sent as none. -/
def sentFocusAreas (focusAreas : Option (List FocusAreaOverride)) :
    Option (List FocusAreaOverride) := focusAreas.filter (! ·.isEmpty)

omit [Runtime] [NumberText] in
theorem b64decode_encode (bytes : List UInt8) :
    b64decode (String.ofList (Base64.encode bytes)) = some bytes := by
  have hascii : ((Base64.encode bytes).all fun c => decide (c.toNat < 128)) = true := by
    simpa using Base64.encode_ascii bytes
  unfold b64decode
  rw [String.toList_ofList, if_pos hascii, Base64.decode_encode]
  rfl

omit [Runtime] [NumberText] in
theorem fileBytesOf_encode (bytes : List UInt8) :
    fileBytesOf (if bytes.isEmpty then none else some (String.ofList (Base64.encode bytes))) =
      some bytes := by
  by_cases hbytes : bytes = []
  · subst hbytes
    rfl
  · have htext : String.ofList (Base64.encode bytes) ≠ "" := fun h =>
      Base64.encode_ne_nil hbytes (by simpa using congrArg String.toList h)
    rw [if_neg (by simpa using hbytes), fileBytesOf, b64decode_encode]
    exact htext

theorem focusAreasOf_dump {overrides : List FocusAreaOverride} (hne : overrides ≠ [])
    (hskills : ∀ o ∈ overrides, Trimmed o.skill) :
    focusAreasOf (some (overrides.map FocusAreaOverride.modelDump)) = some (some overrides) := by
  have hread := items_reads fun o ho => FocusAreaOverride.format.reads (hskills o ho)
  rw [focusAreasOf, hread, Option.map_some]
  exact fun h => hne (by simpa using h)

/-- The arguments of every message are read back as the data that it was published with. -/
theorem decoded_enqueue [UuidText] [LawfulUuidText] (assessmentId : Uuid) (jdText : Option String)
    (jdFileBytes : List UInt8) (jdFilename : Option String)
    (focusAreas : Option (List FocusAreaOverride))
    (hskills : ∀ overrides ∈ focusAreas, ∀ o ∈ overrides, Trimmed o.skill) :
    (enqueueAssessmentProcessing assessmentId jdText jdFileBytes jdFilename focusAreas).decoded =
      some ⟨assessmentId, jdText, jdFileBytes, jdFilename, sentFocusAreas focusAreas⟩ := by
  have hfocusAreas : focusAreasOf (enqueueAssessmentProcessing assessmentId jdText jdFileBytes
      jdFilename focusAreas).focusAreasPayload = some (sentFocusAreas focusAreas) := by
    match focusAreas with
    | none | some [] => rfl
    | some (o :: overrides) =>
      exact focusAreasOf_dump (List.cons_ne_nil o overrides) (hskills _ rfl)
  have hid := LawfulUuidText.uuidOfStr_str assessmentId
  simp only [TaskArguments.decoded, hfocusAreas]
  simp only [enqueueAssessmentProcessing, fileBytesOf_encode, hid, bind, Option.bind_some, pure]

end RoundTrip

section Deliveries

variable [Runtime] [NumberText] [UuidText] {initial : List TaskArguments}

open AssessmentTasks Redelivery

def ProcessMessage.enqueued (message : ProcessMessage) : TaskArguments :=
  enqueueAssessmentProcessing message.assessmentId message.jdText message.fileBytes
    message.jdFilename message.focusAreas

def ProcessMessage.Validated (message : ProcessMessage) : Prop :=
  ∀ overrides ∈ message.focusAreas, ∀ o ∈ overrides, Trimmed o.skill

/-- The queue holds the initial messages and retries of those that cannot be read, and the log has
failures of the latter only. -/
structure RetriesOnlyUnreadable (initial : List TaskArguments)
    (system : System (List TaskEvent) AssessmentTask) : Prop where
  queue : ∀ task ∈ system.queue, task.arguments ∈ initial ∧ task.retries ≤ maxRetries ∧
    (task.retries = 0 ∨ task.arguments.decoded = none)
  eventLogs : ∀ event ∈ system.state,
    event.eventName = .celeryTaskStarted ∨ event.eventName = .celeryTaskCompleted ∨
      ∃ arguments ∈ initial, arguments.decoded = none ∧ event.assessmentId = arguments.assessmentId

theorem processAssessmentTask_retries (refusal : TaskArguments → TaskException)
    {task : AssessmentTask} (hinitial : task.arguments ∈ initial) :
    (∀ retry ∈ (processAssessmentTask refusal task).1,
      retry.retries ≤ maxRetries ∧ task.arguments.decoded = none) ∧
    ∀ event ∈ (processAssessmentTask refusal task).2,
      event.eventName = .celeryTaskStarted ∨ event.eventName = .celeryTaskCompleted ∨
        ∃ arguments ∈ initial, arguments.decoded = none ∧
          event.assessmentId = arguments.assessmentId := by
  unfold processAssessmentTask
  cases hdecoded : task.arguments.decoded with
  | some message => simp
  | none =>
    by_cases hexhausted : maxRetries ≤ task.retries
    · simp only [hexhausted, if_true, List.forall_mem_cons, List.not_mem_nil, false_imp_iff,
        implies_true, and_true, true_and, true_or]
      exact .inr (.inr ⟨_, hinitial, hdecoded, rfl⟩)
    · simp only [hexhausted, if_false, List.forall_mem_cons, List.not_mem_nil, false_imp_iff,
        implies_true, and_true, true_and, true_or]
      exact ⟨by omega, .inr (.inr ⟨_, hinitial, hdecoded, rfl⟩)⟩

theorem RetriesOnlyUnreadable.deliver {system : System (List TaskEvent) AssessmentTask}
    (h : RetriesOnlyUnreadable initial system) (refusal : TaskArguments → TaskException)
    (delivery : Delivery Unit) :
    RetriesOnlyUnreadable initial
      (Redelivery.deliver (assessmentWorker refusal) system delivery).2 := by
  cases hposition : system.queue[delivery.position]? with
  | none =>
    rw [deliver_of_none hposition]
    exact h
  | some task =>
    have hinitial := (h.queue task (List.mem_of_getElem? hposition)).1
    obtain ⟨hpublished, hevents⟩ :=
      processAssessmentTask_retries refusal hinitial
    simp only [Redelivery.deliver, hposition, assessmentWorker]
    constructor
    · intro other hother
      rcases List.mem_append.mp hother with hkept | hretry
      · refine h.queue other ?_
        split at hkept
        · exact List.mem_of_mem_eraseIdx hkept
        · exact hkept
      · obtain ⟨retry, hmem, rfl⟩ := List.mem_map.mp hretry
        obtain ⟨hbound, hdecoded⟩ := hpublished retry hmem
        exact ⟨hinitial, hbound, .inr hdecoded⟩
    · intro event hevent
      rcases List.mem_append.mp hevent with hold | hnew
      · exact h.eventLogs event hold
      · exact hevents event hnew

/-- In every run of deliveries, a message is published again only where its arguments cannot be
read, and at most three times in a row. -/
theorem retries_only_unreadable (refusal : TaskArguments → TaskException)
    (initial : List TaskArguments) (deliveries : List (Delivery Unit)) :
    RetriesOnlyUnreadable initial (exec (Redelivery.deliver (assessmentWorker refusal))
      ⟨[], initial.map (⟨·, 0⟩)⟩ deliveries) := by
  have hstep (system : System (List TaskEvent) AssessmentTask) (delivery : Delivery Unit)
      (_ : True) (h : RetriesOnlyUnreadable initial system) :
      RetriesOnlyUnreadable initial
        (Redelivery.deliver (assessmentWorker refusal) system delivery).2 :=
    h.deliver refusal delivery
  refine exec_invariant hstep (fun _ _ => trivial) ⟨?_, by simp⟩
  intro task htask
  obtain ⟨arguments, hmem, rfl⟩ := List.mem_map.mp htask
  exact ⟨hmem, Nat.zero_le _, .inl rfl⟩

/-- Every message that `enqueue_assessment_processing` publishes is read back as its data, and so no
run of deliveries ever retries one. -/
theorem enqueued_messages_processed [LawfulUuidText] (refusal : TaskArguments → TaskException)
    (messages : List ProcessMessage) (hvalidated : ∀ message ∈ messages, message.Validated)
    (deliveries : List (Delivery Unit)) :
    (∀ message ∈ messages, message.enqueued.decoded =
      some { message with focusAreas := sentFocusAreas message.focusAreas }) ∧
    let system := exec (Redelivery.deliver (assessmentWorker refusal))
      ⟨[], messages.map fun message => ⟨message.enqueued, 0⟩⟩ deliveries
    (∀ task ∈ system.queue, ∃ message ∈ messages, task = ⟨message.enqueued, 0⟩) ∧
      ∀ event ∈ system.state,
        event.eventName = .celeryTaskStarted ∨ event.eventName = .celeryTaskCompleted := by
  have hdecoded : ∀ message ∈ messages, message.enqueued.decoded =
      some { message with focusAreas := sentFocusAreas message.focusAreas } :=
    fun message hmessage => decoded_enqueue _ _ _ _ _ (hvalidated message hmessage)
  have hreadable :
      ∀ arguments ∈ messages.map ProcessMessage.enqueued, arguments.decoded ≠ none := by
    intro arguments harguments
    obtain ⟨message, hmessage, rfl⟩ := List.mem_map.mp harguments
    rw [hdecoded message hmessage]
    simp
  refine ⟨hdecoded, ?_⟩
  dsimp only
  have hruns := retries_only_unreadable refusal (messages.map ProcessMessage.enqueued) deliveries
  rw [List.map_map] at hruns
  constructor
  · intro task htask
    obtain ⟨hinitial, _, hzero | hnone⟩ := hruns.queue task htask
    · obtain ⟨message, hmessage, heq⟩ := List.mem_map.mp hinitial
      refine ⟨message, hmessage, ?_⟩
      rw [heq, ← hzero]
    · exact absurd hnone (hreadable _ hinitial)
  · intro event hevent
    rcases hruns.eventLogs event hevent with hstarted | hcompleted | ⟨arguments, hmem, hnone, _⟩
    · exact .inl hstarted
    · exact .inr hcompleted
    · exact absurd hnone (hreadable arguments hmem)

end Deliveries

section Samples

open AssessmentTasks

def sampleFileMessage : ProcessMessage where
  assessmentId := 3
  jdText := none
  fileBytes := [37, 80, 68, 70]
  jdFilename := some "jd.pdf"
  focusAreas := some [⟨"Python", 9, by norm_num⟩]

def badlyFormed : TaskException := ⟨"ValueError", "badly formed hexadecimal UUID string"⟩

/-- The first delivery is not acknowledged, and the message is delivered again. -/
theorem enqueued_messages_processed_sample :
    let _ : Runtime := .ascii
    let _ : NumberText := .ascii
    let _ : UuidText := .hexadecimal
    let system := exec (Redelivery.deliver (assessmentWorker fun _ => badlyFormed))
      ⟨[], [⟨sampleFileMessage.enqueued, 0⟩]⟩ [⟨0, (), false⟩, ⟨0, (), true⟩]
    sampleFileMessage.enqueued.decoded = some sampleFileMessage ∧ system.state.length = 4 ∧
      ∀ event ∈ system.state,
        event.eventName = .celeryTaskStarted ∨ event.eventName = .celeryTaskCompleted := by
  intro runtime numberText uuidText system
  have hvalidated : ∀ message ∈ [sampleFileMessage], message.Validated := by
    intro message hmessage overrides hoverrides o ho
    cases List.mem_singleton.mp hmessage
    cases hoverrides
    cases List.mem_singleton.mp ho
    decide
  obtain ⟨hdecoded, _, hevents⟩ := enqueued_messages_processed (fun _ => badlyFormed)
    [sampleFileMessage] hvalidated [⟨0, (), false⟩, ⟨0, (), true⟩]
  exact ⟨hdecoded sampleFileMessage List.mem_cons_self, by decide +kernel, hevents⟩

end Samples

end IBotCoreApi
