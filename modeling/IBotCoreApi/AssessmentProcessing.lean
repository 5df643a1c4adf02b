import IBotCoreApi.AssessmentLifecycle
import IBotCoreApi.FinalizedPlans

namespace IBotCoreApi
open Python Runs AssessmentRepository

/-- The arguments of one `core.process_assessment` message. -/
structure ProcessMessage where
  assessmentId : Uuid
  jdText : Option String
  fileBytes : List UInt8
  jdFilename : Option String
  focusAreas : Option (List FocusAreaOverride)

/-- `assessment_info`, which the first transaction reads. -/
structure AssessmentInfo where
  recruiterId : Uuid
  title : String
  roleName : String
  durationMins : ℤ

inductive RecruiterEventType where
  | assessmentProcessingCompleted
  | assessmentExpired
  | assessmentProcessingFailed
deriving DecidableEq

/-- Where an execution stands: each phase but the last names the next piece of work. -/
inductive Phase where
  | delivered
  | informed (info : AssessmentInfo)
  | generated (info : AssessmentInfo) (formattedJdText : String)
      (result : JDAnalysisAndInterviewPlan)
  | activated (info : AssessmentInfo) (finalStatus : AssessmentStatus)
  | raised
  | closedOnFailure (info : AssessmentInfo)
  | finished

/-- What the outside decides about one step of an execution. -/
structure Outcome where
  /-- The transaction of the step commits. -/
  commits : Bool
  /-- `parse_pdf_jd`, `none` for its exception. -/
  parsedPdf : Option String
  /-- The validated answer of the language model, `none` when every attempt failed. -/
  analysis : Option JDAnalysisAndInterviewPlan
  formattedJdText : String
  /-- Redis took the event. -/
  published : Bool

/-- What a step shows to the outside. -/
inductive ProcessingResult where
  | quiet
  /-- `activate_assessment` committed. -/
  | activated (assessmentId : Uuid) (status : AssessmentStatus)
  /-- `publish_recruiter_event`, and whether it could publish. -/
  | event (recruiterId : Uuid) (eventType : RecruiterEventType) (published : Bool)
  | served (result : SessionResult)

/-- The rows, and the executions of every message delivered so far. -/
structure Processing where
  store : Store
  executions : List (ProcessMessage × Phase)

inductive ProcessingEvent where
  /-- The broker delivers a message, for the first time or again. -/
  | deliver (message : ProcessMessage)
  | advance (execution : ℕ) (clock : Clock) (outcome : Outcome)
  | serve (call : ServiceCall)

def assessmentInfo (a : Assessment) : AssessmentInfo :=
  ⟨a.recruiterId, a.title, a.roleName, a.interviewDurationMins⟩

/-- The text of the job description, `none` where parsing it or its emptiness raises. -/
def parsedJdText (message : ProcessMessage) (outcome : Outcome) : Option String :=
  let text : Option String :=
    if !message.fileBytes.isEmpty && message.jdFilename.getD "" != "" then outcome.parsedPdf
    else some (message.jdText.getD "")
  text.filter (strip · != "")

variable [Runtime]

/-- `run_jd_analysis_and_interview_plan` on the parsed text. -/
def generatedAnalysis (message : ProcessMessage) (info : AssessmentInfo) (outcome : Outcome) :
    Option JDAnalysisAndInterviewPlan := do
  let _ ← parsedJdText message outcome
  let combined ← outcome.analysis
  (finalizeAnalysis combined info.durationMins message.focusAreas).toOption

/-- One step of an execution: a transaction, the work between two, or a publication. -/
def advance (store : Store) (clock : Clock) (outcome : Outcome) (message : ProcessMessage) :
    Phase → ProcessingResult × Phase × Store
  | .delivered =>
    if !outcome.commits then (.quiet, .raised, store)
    else
      match store.db.assessment? message.assessmentId with
      | none => (.quiet, .finished, store)
      | some a => (.quiet, .informed (assessmentInfo a), store)
  | .informed info =>
    match generatedAnalysis message info outcome with
    | none => (.quiet, .raised, store)
    | some result => (.quiet, .generated info outcome.formattedJdText result, store)
  | .generated info formattedJdText result =>
    if !outcome.commits then (.quiet, .raised, store)
    else
      let jdAnalysis := result.jdAnalysis.modelDump
      let interviewPlan := result.interviewPlan.modelDump
      let finalStatus := (activateAssessment store.db clock message.assessmentId formattedJdText
        jdAnalysis interviewPlan).1
      (.activated message.assessmentId finalStatus, .activated info finalStatus,
        (service store ⟨clock, .activateAssessment message.assessmentId formattedJdText jdAnalysis
          interviewPlan⟩).2)
  | .activated info finalStatus =>
    -- a publication never raises, so no failure follows the activation of the same execution
    (.event info.recruiterId
      (if finalStatus = .active then .assessmentProcessingCompleted else .assessmentExpired)
      outcome.published, .finished, store)
  | .raised =>
    if !outcome.commits then (.quiet, .finished, store)
    else
      match store.db.assessment? message.assessmentId with
      | none => (.quiet, .finished, store)
      | some a => (.quiet, .closedOnFailure (assessmentInfo a),
          (service store ⟨clock, .closeAssessmentOnFailure message.assessmentId⟩).2)
  | .closedOnFailure info =>
    (.event info.recruiterId .assessmentProcessingFailed outcome.published, .finished, store)
  | .finished => (.quiet, .finished, store)

def process : Machine Processing ProcessingEvent ProcessingResult := fun s event =>
  match event with
  | .deliver message => (.quiet, { s with executions := s.executions ++ [(message, .delivered)] })
  | .advance execution clock outcome =>
    match s.executions[execution]? with
    | none => (.quiet, s)
    | some (message, phase) =>
      let (result, phase, store) := advance s.store clock outcome message phase
      (result, ⟨store, s.executions.set execution (message, phase)⟩)
  | .serve call => (.served (service s.store call).1, { s with store := (service s.store call).2 })

section Statuses

omit [Runtime]

variable {db db' : Database} {call : ServiceCall} {id : Uuid} {a : Assessment}

def Database.HasStatus (db : Database) (id : Uuid) (status : AssessmentStatus) : Prop :=
  ∃ a, db.assessment? id = some a ∧ a.status = status

/-- The assessment has left the statuses before processing ended. -/
def Database.Processed (db : Database) (id : Uuid) : Prop :=
  db.HasStatus id .active ∨ db.HasStatus id .closed

/-- A write keeps the row of an assessment, and sets its status to `ACTIVE` or `CLOSED` if at
all. -/
theorem AssessmentWrite.row (h : AssessmentWrite db call db') (ha : db.assessment? id = some a) :
    ∃ a', db'.assessment? id = some a' ∧
      (a'.status = a.status ∨ a'.status = .active ∨ a'.status = .closed) := by
  have hupdate (p : Assessment → Bool) (u : AssessmentUpdate)
      (hset : (u.set a).status = .active ∨ (u.set a).status = .closed) :
      ∃ a', (db.updateAssessments p u).assessment? id = some a' ∧
        (a'.status = a.status ∨ a'.status = .active ∨ a'.status = .closed) := by
    refine ⟨u.onRow p a, by simp [ha], ?_⟩
    unfold Tables.Update.onRow
    split
    · exact .inr hset
    · exact .inl rfl
  cases h with
  | unchanged hsame =>
    refine ⟨a, ?_, .inl rfl⟩
    rw [Database.assessment?, hsame]
    exact ha
  | inserted assessment => exact ⟨a, Tables.lookup_append_of_some ha, .inl rfl⟩
  | activated =>
    apply hupdate
    simp only [AssessmentRepository.activated]
    split_ifs <;> simp
  | closed => exact hupdate _ _ (.inr rfl)
  | opened => exact hupdate _ _ (.inl rfl)

theorem AssessmentWrite.processed (h : AssessmentWrite db call db') (hdone : db.Processed id) :
    db'.Processed id := by
  have hkeep {status : AssessmentStatus} (hstatus : status = .active ∨ status = .closed)
      (hold : db.HasStatus id status) : db'.Processed id := by
    obtain ⟨a, ha, rfl⟩ := hold
    obtain ⟨a', ha', hsame | hactive | hclosed⟩ := h.row ha
    · rw [← hsame] at hstatus
      exact hstatus.imp (fun hactive => ⟨a', ha', hactive⟩) fun hclosed => ⟨a', ha', hclosed⟩
    · exact .inl ⟨a', ha', hactive⟩
    · exact .inr ⟨a', ha', hclosed⟩
  exact hdone.elim (hkeep (.inl rfl)) (hkeep (.inr rfl))

end Statuses

abbrev ProcessingStep := Transition Processing ProcessingEvent ProcessingResult

section Redelivery

omit [Runtime]

/-- An execution commits `activate_assessment` with status `ACTIVE`. -/
def Activates (id : Uuid) (t : ProcessingStep) : Prop := t.output = .activated id .active

/-- The step is the failure handler of an execution that raised. -/
def InHandler (t : ProcessingStep) (message : ProcessMessage) (outcome : Outcome) : Prop :=
  ∃ execution clock, t.input = .advance execution clock outcome ∧
    t.pre.executions[execution]? = some (message, .raised)

/-- The failure of an execution changes the assessment to `CLOSED`. -/
def ClosesOnFailure (id : Uuid) (t : ProcessingStep) : Prop :=
  ∃ message outcome, InHandler t message outcome ∧
    ¬ t.pre.store.db.HasStatus id .closed ∧ t.post.store.db.HasStatus id .closed

/-- The failure handler of an execution of this assessment's message finds it `ACTIVE`. -/
def HandlerFindsActive (id : Uuid) (t : ProcessingStep) : Prop :=
  ∃ message outcome, InHandler t message outcome ∧ message.assessmentId = id ∧ outcome.commits ∧
    t.pre.store.db.HasStatus id .active

end Redelivery

variable {s : Processing} {event : ProcessingEvent} {id : Uuid}

/-- One step of the executions performs at most one request of the service. -/
theorem process_store (s : Processing) (event : ProcessingEvent) :
    (process s event).2.store = s.store ∨
      ∃ call, (process s event).2.store = (service s.store call).2 := by
  cases event with
  | deliver message => exact .inl rfl
  | serve call => exact .inr ⟨call, rfl⟩
  | advance execution clock outcome =>
    simp only [process]
    split
    · exact .inl rfl
    · rename_i message phase _
      cases phase with
      | delivered =>
        simp only [advance]
        split
        · exact .inl rfl
        · split <;> exact .inl rfl
      | informed info =>
        simp only [advance]
        split <;> exact .inl rfl
      | generated info formattedJdText result =>
        simp only [advance]
        split
        · exact .inl rfl
        · exact .inr ⟨_, rfl⟩
      | raised =>
        simp only [advance]
        split
        · exact .inl rfl
        · split
          · exact .inl rfl
          · exact .inr ⟨_, rfl⟩
      | activated | closedOnFailure | finished => exact .inl rfl

theorem process_processed (hdone : s.store.db.Processed id) (event : ProcessingEvent) :
    (process s event).2.store.db.Processed id := by
  rcases process_store s event with hsame | ⟨call, hcall⟩
  · rw [hsame]
    exact hdone
  · rw [hcall]
    exact (service_assessmentWrite s.store call).processed hdone

omit [Runtime] in
theorem activateAssessment_active {db : Database} {clock : Clock} {jdText : String}
    {jdAnalysis interviewPlan : Json}
    (h : (activateAssessment db clock id jdText jdAnalysis interviewPlan).1 = .active) :
    (activateAssessment db clock id jdText jdAnalysis interviewPlan).2.HasStatus id .active := by
  unfold activateAssessment at h ⊢
  split at h
  · cases h
  · rename_i a ha
    have hid : a.id = id := Tables.lookup_key ha
    refine ⟨_, ?_, h⟩
    rw [Database.assessment?_updateAssessments, ha, Option.map_some,
      Tables.Update.onRow_of_true (by simp [hid])]

/-- An activation that commits `ACTIVE` leaves the assessment active. -/
theorem process_activates (h : (process s event).1 = .activated id .active) :
    (process s event).2.store.db.HasStatus id .active := by
  cases event with
  | deliver message | serve call => cases h
  | advance execution clock outcome =>
    simp only [process] at h ⊢
    split at h
    · cases h
    · rename_i message phase _
      cases phase with
      | delivered =>
        simp only [advance] at h
        split at h
        · cases h
        · split at h <;> cases h
      | informed info =>
        simp only [advance] at h
        split at h <;> cases h
      | generated info formattedJdText result =>
        simp only [advance] at h ⊢
        split at h
        · cases h
        · rename_i hcommits
          simp only [ProcessingResult.activated.injEq] at h
          obtain ⟨rfl, hstatus⟩ := h
          rw [if_neg hcommits]
          exact activateAssessment_active hstatus
      | raised =>
        simp only [advance] at h
        split at h
        · cases h
        · split at h <;> cases h
      | activated | closedOnFailure | finished => cases h

theorem process_handler {execution : ℕ} {message : ProcessMessage} {clock : Clock}
    {outcome : Outcome} (h : s.executions[execution]? = some (message, .raised)) :
    (process s (.advance execution clock outcome)).2.store =
      if outcome.commits ∧ (s.store.db.assessment? message.assessmentId).isSome then
        (service s.store ⟨clock, .closeAssessmentOnFailure message.assessmentId⟩).2
      else s.store := by
  simp only [process, h, advance]
  cases outcome.commits with
  | false => rfl
  | true => cases s.store.db.assessment? message.assessmentId <;> rfl

theorem assessment?_closeOnFailure (store : Store) (clock : Clock) (assessmentId : Uuid) :
    (service store ⟨clock, .closeAssessmentOnFailure assessmentId⟩).2.db.assessment? id =
      (store.db.assessment? id).map ((withStatus clock .closed).onRow (·.id == assessmentId)) :=
  Database.assessment?_updateAssessments _ _ _ _

theorem closesOnFailure_of_findsActive {t : ProcessingStep} (ht : t = .of process t.pre t.input)
    (h : HandlerFindsActive id t) : ClosesOnFailure id t := by
  obtain ⟨message, outcome, ⟨execution, clock, hinput, hphase⟩, rfl, hcommits, a, ha, hactive⟩ := h
  refine ⟨message, outcome, ⟨execution, clock, hinput, hphase⟩, ?_, ?_⟩
  · rintro ⟨a', ha', hclosed⟩
    rw [ha] at ha'
    cases ha'
    rw [hactive] at hclosed
    cases hclosed
  · have hid : a.id = message.assessmentId := Tables.lookup_key ha
    rw [ht]
    change (process t.pre t.input).2.store.db.HasStatus _ _
    rw [hinput, process_handler hphase, if_pos ⟨hcommits, by simp [ha]⟩]
    refine ⟨(withStatus clock .closed).set a, ?_, rfl⟩
    rw [assessment?_closeOnFailure, ha, Option.map_some,
      Tables.Update.onRow_of_true (by simp [hid])]

theorem findsActive_of_closesOnFailure {t : ProcessingStep} (ht : t = .of process t.pre t.input)
    (hdone : t.pre.store.db.Processed id) (h : ClosesOnFailure id t) : HandlerFindsActive id t := by
  obtain ⟨message, outcome, ⟨execution, clock, hinput, hphase⟩, hopen, hclosed⟩ := h
  have hactive : t.pre.store.db.HasStatus id .active := hdone.resolve_right hopen
  rw [ht] at hclosed
  change (process t.pre t.input).2.store.db.HasStatus _ _ at hclosed
  rw [hinput, process_handler hphase] at hclosed
  split at hclosed
  · rename_i hruns
    refine ⟨message, outcome, ⟨execution, clock, hinput, hphase⟩, ?_, hruns.1, hactive⟩
    by_contra hother
    apply hopen
    obtain ⟨a', ha', hstatus⟩ := hclosed
    rw [assessment?_closeOnFailure, Option.map_eq_some_iff] at ha'
    obtain ⟨a, ha, rfl⟩ := ha'
    have hid : a.id = id := Tables.lookup_key ha
    rw [Tables.Update.onRow_of_false (by simpa [hid] using Ne.symm hother)] at hstatus
    exact ⟨a, ha, hstatus⟩
  · exact absurd hclosed hopen

/-- After an activation committed `ACTIVE`, every later step finds the assessment processed. -/
theorem processed_after_activation (s : Processing) (events : List ProcessingEvent) :
    (trace process s events).Pairwise fun t t' =>
      ∀ id, Activates id t → t'.pre.store.db.Processed id := by
  induction events generalizing s with
  | nil => exact .nil
  | cons event events ih =>
    rw [trace_cons]
    refine .cons (fun t' ht' id hactivates => ?_) (ih _)
    obtain ⟨before, event', after, rfl, rfl⟩ := mem_trace ht'
    have hstart : (process s event).2.store.db.Processed id :=
      .inl (process_activates hactivates)
    have hkeep (s : Processing) (event : ProcessingEvent) (_ : True)
        (hdone : s.store.db.Processed id) : (process s event).2.store.db.Processed id :=
      process_processed hdone event
    exact exec_invariant hkeep (fun _ _ => trivial) hstart

/-- In every run of the executions and the other requests, no failure closes an assessment that an
execution activated before, exactly when no failure handler finds such an assessment active. -/
theorem redelivery_safe_iff (s : Processing) (events : List ProcessingEvent) :
    ((trace process s events).Pairwise fun t t' =>
      ∀ id, Activates id t → ¬ ClosesOnFailure id t') ↔
    (trace process s events).Pairwise fun t t' =>
      ∀ id, Activates id t → ¬ HandlerFindsActive id t' := by
  have hstep {t : ProcessingStep} (ht : t ∈ trace process s events) :
      t = .of process t.pre t.input := by
    obtain ⟨before, event, after, _, rfl⟩ := mem_trace ht
    rfl
  have hprocessed := processed_after_activation s events
  constructor
  · intro hsafe
    refine hsafe.imp_of_mem fun {t t'} _ ht' hpair id hactivates hfinds => ?_
    exact hpair id hactivates (closesOnFailure_of_findsActive (hstep ht') hfinds)
  · intro hfirst
    refine (hfirst.and hprocessed).imp_of_mem fun {t t'} _ ht' hpair id hactivates hcloses => ?_
    exact hpair.1 id hactivates
      (findsActive_of_closesOnFailure (hstep ht') (hpair.2 id hactivates) hcloses)

omit [Runtime]

def sampleMessage : ProcessMessage := ⟨3, some "Build the API.", [], none, none⟩

/-- The sample assessment is processed successfully and its message is delivered again; the second
execution gets no answer from the language model. -/
def redelivered : List ProcessingEvent :=
  let succeeds : Outcome :=
    ⟨true, none, some (sampleAnalysis ["Typing", "Testing"]), "Build the API.", true⟩
  let fails : Outcome := { succeeds with analysis := none }
  [.deliver sampleMessage, .advance 0 ⟨0, 0⟩ succeeds, .advance 0 ⟨0, 0⟩ succeeds,
    .advance 0 ⟨0, 0⟩ succeeds, .deliver sampleMessage, .advance 1 ⟨0, 0⟩ fails,
    .advance 1 ⟨0, 0⟩ fails, .advance 1 ⟨0, 0⟩ fails]

/-- The failure of the second execution closes the active assessment. -/
theorem redelivery_broken :
    ∃ s events, ¬ (trace (@process .ascii) s events).Pairwise fun t t' =>
      ∀ id, Activates id t → ¬ ClosesOnFailure id t' := by
  let _ : Runtime := .ascii
  refine ⟨⟨sampleStore, []⟩, redelivered, ?_⟩
  rw [redelivery_safe_iff]
  intro hfirst
  let before := exec process ⟨sampleStore, []⟩ (redelivered.take 3)
  let activation := Transition.of process before (redelivered.get ⟨3, by decide⟩)
  let failing := exec process before ((redelivered.drop 3).take 4)
  let handler := Transition.of process failing (redelivered.get ⟨7, by decide⟩)
  have hsplit : redelivered = redelivered.take 3 ++ redelivered.drop 3 := rfl
  rw [hsplit, trace_append, List.pairwise_append] at hfirst
  have hhandler : handler ∈ trace process activation.post (redelivered.drop 4) :=
    .tail _ (.tail _ (.tail _ (.head _)))
  have hpair := List.rel_of_pairwise_cons (a := activation) hfirst.2.1 hhandler
  refine hpair 3 rfl ⟨sampleMessage, _, ⟨1, ⟨0, 0⟩, rfl, rfl⟩, rfl, rfl, ?_⟩
  exact ⟨_, rfl, rfl⟩

end IBotCoreApi
