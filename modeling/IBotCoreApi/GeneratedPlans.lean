import IBotCoreApi.AssessmentWorker

namespace IBotCoreApi
open Python Pydantic Outcomes Runs AssessmentRepository

section Rows

variable {db db' : Database} {call : ServiceCall} {message : ProcessMessage} {phase : Phase}
  {durationMins : ℤ} {overrides : Option (List FocusAreaOverride)} {jdText : String}

/-- The column `focus_areas` for these overrides. -/
def storedFocusAreas : Option (List FocusAreaOverride) → Option Json
  | none | some [] => none
  | some overrides => some (.list (overrides.map FocusAreaOverride.modelDump))

def JobsKept (db db' : Database) : Prop :=
  ∀ id a, db.assessment? id = some a → ∃ a', db'.assessment? id = some a' ∧
    a'.interviewDurationMins = a.interviewDurationMins ∧ a'.focusAreas = a.focusAreas

def ProcessMessage.Fits (db : Database) (message : ProcessMessage) : Prop :=
  ∃ a, db.assessment? message.assessmentId = some a ∧ 2 ≤ a.interviewDurationMins ∧
    a.focusAreas = storedFocusAreas message.focusAreas

theorem JobsKept.of_same (h : db'.assessments = db.assessments) : JobsKept db db' := by
  intro id a ha
  refine ⟨a, ?_, rfl, rfl⟩
  rw [Database.assessment?, h]
  exact ha

theorem JobsKept.of_update {p : Assessment → Bool} {u : AssessmentUpdate}
    (hduration : ∀ a, (u.set a).interviewDurationMins = a.interviewDurationMins)
    (hfocus : ∀ a, (u.set a).focusAreas = a.focusAreas) :
    JobsKept db (db.updateAssessments p u) := by
  intro id a ha
  refine ⟨u.onRow p a, by simp [ha], u.onRow_column hduration a, u.onRow_column hfocus a⟩

theorem AssessmentWrite.jobsKept (h : AssessmentWrite db call db') : JobsKept db db' := by
  cases h with
  | unchanged hsame => exact .of_same hsame
  | inserted assessment => exact fun id a ha => ⟨a, Tables.lookup_append_of_some ha, rfl, rfl⟩
  | activated | closed | opened => exact .of_update (fun _ => rfl) fun _ => rfl

theorem ProcessMessage.Fits.kept (h : message.Fits db) (hkept : JobsKept db db') :
    message.Fits db' := by
  obtain ⟨a, ha, hduration, hfocus⟩ := h
  obtain ⟨a', ha', hduration', hfocus'⟩ := hkept _ a ha
  exact ⟨a', ha', hduration'.symm ▸ hduration, hfocus'.trans hfocus⟩

variable [Runtime]

/-- What processing may produce for a duration and the overrides of a recruiter. -/
structure Generated (durationMins : ℤ) (overrides : Option (List FocusAreaOverride))
    (jdText : String) (result : JDAnalysisAndInterviewPlan) : Prop where
  plan : ∃ combined : JDAnalysisAndInterviewPlan, combined.Admitted ∧
    FinalizedPlan combined (overrides.getD []) durationMins result
  sections : ∀ s ∈ result.interviewPlan.sections, s.Admitted
  jdText : jdText ≠ "" ∧ strip jdText = jdText

def Unprocessed (a : Assessment) : Prop := a.jdAnalysis = none ∧ a.interviewPlan = none

/-- The row stores what processing produced for its own duration and focus areas. -/
def PlanFits (a : Assessment) : Prop :=
  ∃ overrides result, a.focusAreas = storedFocusAreas overrides ∧
    Generated a.interviewDurationMins overrides a.jdText result ∧
    a.jdAnalysis = some result.jdAnalysis.modelDump ∧
    a.interviewPlan = some result.interviewPlan.modelDump

def Database.PlansFit (db : Database) : Prop :=
  ∀ id a, db.assessment? id = some a → Unprocessed a ∨ PlanFits a

/-- What an execution has read or generated is about the row of its assessment. -/
def Phase.Fits (db : Database) (message : ProcessMessage) : Phase → Prop
  | .informed info => ∃ a, db.assessment? message.assessmentId = some a ∧
      a.interviewDurationMins = info.durationMins
  | .generated _ formatted result => ∃ a, db.assessment? message.assessmentId = some a ∧
      Generated a.interviewDurationMins message.focusAreas formatted result
  | _ => True

theorem Phase.Fits.kept (h : phase.Fits db message) (hkept : JobsKept db db') :
    phase.Fits db' message := by
  cases phase with
  | informed info =>
    obtain ⟨a, ha, hduration⟩ := h
    obtain ⟨a', ha', hduration', _⟩ := hkept _ a ha
    exact ⟨a', ha', hduration'.trans hduration⟩
  | generated info formatted result =>
    obtain ⟨a, ha, hgenerated⟩ := h
    obtain ⟨a', ha', hduration', _⟩ := hkept _ a ha
    exact ⟨a', ha', hduration'.symm ▸ hgenerated⟩
  | delivered | activated | raised | closedOnFailure | finished => trivial

theorem Database.PlansFit.of_same (h : db.PlansFit) (hsame : db'.assessments = db.assessments) :
    db'.PlansFit := by
  intro id a ha
  rw [Database.assessment?, hsame] at ha
  exact h id a ha

theorem Database.PlansFit.of_update (h : db.PlansFit) {p : Assessment → Bool}
    {u : AssessmentUpdate}
    (hset : ∀ id a, db.assessment? id = some a → p a → Unprocessed a ∨ PlanFits a →
      Unprocessed (u.set a) ∨ PlanFits (u.set a)) :
    (db.updateAssessments p u).PlansFit := by
  intro id a' ha'
  rw [Database.assessment?_updateAssessments, Option.map_eq_some_iff] at ha'
  obtain ⟨a, ha, rfl⟩ := ha'
  unfold Tables.Update.onRow
  split
  · rename_i hp
    exact hset id a ha hp (h id a ha)
  · exact h id a ha

theorem Database.PlansFit.withStatus (h : db.PlansFit) (p : Assessment → Bool) (clock : Clock)
    (status : AssessmentStatus) :
    (db.updateAssessments p (AssessmentRepository.withStatus clock status)).PlansFit :=
  h.of_update fun _ _ _ _ hrow => hrow

theorem Database.PlansFit.insert (h : db.PlansFit) {assessment : Assessment}
    (hnew : Unprocessed assessment) :
    Database.PlansFit { db with assessments := db.assessments ++ [assessment] } := by
  intro id a ha
  cases hold : db.assessment? id with
  | some row =>
    cases (Tables.lookup_append_of_some hold).symm.trans ha
    exact h id _ hold
  | none =>
    have hlast := (Tables.lookup_append_of_none hold).symm.trans ha
    rw [Tables.lookup_singleton] at hlast
    split at hlast
    · cases hlast
      exact .inl hnew
    · cases hlast

theorem Database.PlansFit.activate (h : db.PlansFit) {clock : Clock}
    {result : JDAnalysisAndInterviewPlan} {a : Assessment}
    (ha : db.assessment? message.assessmentId = some a)
    (hfocus : a.focusAreas = storedFocusAreas message.focusAreas)
    (hgenerated : Generated a.interviewDurationMins message.focusAreas jdText result) :
    (activateAssessment db clock message.assessmentId jdText result.jdAnalysis.modelDump
      result.interviewPlan.modelDump).2.PlansFit := by
  unfold activateAssessment
  rw [ha]
  refine h.of_update fun id row hrow hp _ => .inr ?_
  obtain rfl : row.id = id := Tables.lookup_key hrow
  rw [beq_iff_eq.mp hp, ha] at hrow
  cases hrow
  exact ⟨message.focusAreas, result, hfocus, hgenerated, rfl, rfl⟩

end Rows

section Outer

variable [Runtime] {db db' : Database} {call : ServiceCall}

inductive OuterWrite (db : Database) (call : ServiceCall) : Database → Prop
  | unchanged {db' : Database} (hsame : db'.assessments = db.assessments) :
      OuterWrite db call db'
  | created {newId recruiterId : Uuid} {request : AssessmentCreateRequest}
      {jdFileBytes : List UInt8} {jdFilename : Option String}
      (hrequest : call.request = .createAssessment newId recruiterId request jdFileBytes jdFilename)
      (hnew : db.assessment? newId = none) :
      OuterWrite db call { db with assessments := db.assessments ++
        [AssessmentService.newAssessment call.clock newId recruiterId request jdFilename] }
  | status (p : Assessment → Bool) (status : AssessmentStatus) :
      OuterWrite db call (db.updateAssessments p (withStatus call.clock status))

theorem createAssessment_write {newId recruiterId : Uuid} {request : AssessmentCreateRequest}
    {jdFileBytes : List UInt8} {jdFilename : Option String} (store : Store) (call : ServiceCall)
    (hrequest : call.request = .createAssessment newId recruiterId request jdFileBytes jdFilename) :
    (service store call).1.isOk = false ∧ (service store call).2.db = store.db ∨
      store.db.assessment? newId = none ∧
        (service store call).2.db = { store.db with assessments := store.db.assessments ++
          [AssessmentService.newAssessment call.clock newId recruiterId request jdFilename] } := by
  obtain ⟨clock, _⟩ := call
  cases hrequest
  let outcome := transact store.db (AssessmentService.createAssessment store.db clock newId
    recruiterId request jdFileBytes jdFilename)
  change (outcome.1.map fun _ => SessionResponse.ok).isOk = false ∧ outcome.2 = store.db ∨
    _ ∧ outcome.2 = _
  cases hrun : AssessmentService.createAssessment store.db clock newId recruiterId request
      jdFileBytes jdFilename with
  | error e =>
    simp only [outcome, hrun, transact]
    exact .inl ⟨rfl, trivial⟩
  | ok result =>
    simp only [outcome, hrun, transact]
    unfold AssessmentService.createAssessment createAssessment at hrun
    split_ifs at hrun with _ htaken
    cases hrun
    refine .inr ⟨?_, rfl⟩
    simp only [Bool.or_eq_true, not_or, Bool.not_eq_true, Option.isSome_eq_false_iff] at htaken
    exact Option.isNone_iff_eq_none.mp htaken.2

theorem outer_write (store : Store) (call : OuterCall) :
    OuterWrite store.db call.toServiceCall (service store call.toServiceCall).2.db := by
  obtain ⟨⟨clock, request⟩, houter⟩ := call
  cases request with
  | session request => exact .unchanged (handle_assessments store.wellFormed _)
  | createRecruiter newId companyName =>
    refine .unchanged (transact_assessments fun recruiter db' hrun => ?_)
    unfold createRecruiter at hrun
    split_ifs at hrun
    cases hrun
    rfl
  | createCandidate newId fullName =>
    refine .unchanged (transact_assessments fun candidate db' hrun => ?_)
    unfold createCandidate at hrun
    split_ifs at hrun
    cases hrun
    rfl
  | renameCandidate candidateId name => exact .unchanged rfl
  | createAssessment newId recruiterId request jdFileBytes jdFilename =>
    rcases createAssessment_write store ⟨clock, .createAssessment newId recruiterId request
        jdFileBytes jdFilename⟩ rfl with ⟨_, hsame⟩ | ⟨hnew, hdb⟩
    · rw [hsame]
      exact .unchanged rfl
    · rw [hdb]
      exact .created rfl hnew
  | activateAssessment | closeAssessmentOnFailure => exact houter.elim
  | updateStatus assessmentId recruiterId newStatus =>
    change OuterWrite _ _ (transact store.db (AssessmentService.updateStatus store.db clock
      assessmentId recruiterId newStatus.status)).2
    cases hrun : AssessmentService.updateStatus store.db clock assessmentId recruiterId
        newStatus.status with
    | error e => exact .unchanged rfl
    | ok result =>
      obtain ⟨a, db'⟩ := result
      obtain ⟨found, hfound, howner, rfl⟩ := updateStatus_cases hrun
      exact .status _ _
  | closeExpiredAssessments => exact .status _ _
  | enroll draws candidateId assessmentId resumeFilePath resumeParseStatus resumeParsed =>
    refine .unchanged (transact_assessments fun ca db' hrun => ?_)
    unfold CandidateAssessmentRepository.create at hrun
    split_ifs at hrun
    cases hrun
    rfl
  | updateResumeParsingResult | updateRecruiterDecision => exact .unchanged rfl
  | deleteCandidateFromAssessment candidateAssessmentId recruiterId =>
    exact .unchanged (transact_assessments fun _ _ hrun =>
      deleteCandidateFromAssessment_assessments hrun)

theorem OuterWrite.plansFit (h : OuterWrite db call db') (hplans : db.PlansFit) :
    db'.PlansFit := by
  cases h with
  | unchanged hsame => exact hplans.of_same hsame
  | created => exact hplans.insert ⟨rfl, rfl⟩
  | status p status => exact hplans.withStatus p call.clock status

end Outer

section Worker

variable [Runtime] [NumberText] [AnalysisPrompts] [UuidText]

/-- What holds of the rows, the messages and the executions between any two steps. -/
structure Worker.Consistent (s : Worker) : Prop where
  plans : s.store.db.PlansFit
  queue : ∀ arguments ∈ s.queue, ∀ message, arguments.decoded = some message →
    message.Fits s.store.db
  executions : ∀ execution ∈ s.executions,
    execution.1.Fits s.store.db ∧ execution.2.Fits s.store.db execution.1

omit [NumberText] [AnalysisPrompts] [UuidText] in
theorem service_jobsKept (store : Store) (call : ServiceCall) :
    JobsKept store.db (service store call).2.db := (service_assessmentWrite store call).jobsKept

omit [Runtime] [NumberText] [AnalysisPrompts] [UuidText] in
theorem storedFocusAreas_sent (focusAreas : Option (List FocusAreaOverride)) :
    storedFocusAreas (sentFocusAreas focusAreas) = storedFocusAreas focusAreas := by
  match focusAreas with
  | none | some [] | some (_ :: _) => rfl

omit [AnalysisPrompts] in
theorem published_fits [LawfulUuidText] {store : Store} {call : OuterCall}
    {arguments : TaskArguments} {message : ProcessMessage}
    (hok : (service store call.toServiceCall).1.isOk = true)
    (hpublished : afterCommit call.request = some arguments)
    (hdecoded : arguments.decoded = some message) :
    message.Fits (service store call.toServiceCall).2.db := by
  obtain ⟨⟨clock, request⟩, houter⟩ := call
  cases request with
  | createAssessment newId recruiterId request jdFileBytes jdFilename =>
    cases hpublished
    have hskills : ∀ overrides ∈ some request.focusAreas, ∀ o ∈ overrides, Trimmed o.skill := by
      rintro _ ⟨⟩ o ho
      exact houter o ho
    rw [decoded_enqueue _ _ _ _ _ hskills] at hdecoded
    cases hdecoded
    rcases createAssessment_write store ⟨clock, .createAssessment newId recruiterId request
        jdFileBytes jdFilename⟩ rfl with ⟨hfailed, _⟩ | ⟨hnew, hdb⟩
    · rw [hfailed] at hok
      cases hok
    · rw [hdb]
      refine ⟨AssessmentService.newAssessment clock newId recruiterId request jdFilename, ?_,
        request.duration_bounds.1, ?_⟩
      · refine (Tables.lookup_append_of_none hnew).trans ?_
        rw [Tables.lookup_singleton]
        exact if_pos rfl
      · rw [storedFocusAreas_sent]
        cases hfocus : request.focusAreas with
        | nil => simp [AssessmentService.newAssessment, storedFocusAreas, hfocus]
        | cons o rest => simp [AssessmentService.newAssessment, storedFocusAreas, hfocus]
  | _ => cases hpublished

omit [UuidText] in
theorem generate_generated {message : ProcessMessage} {info : AssessmentInfo} {o : WorkerOutcome}
    {formatted : String} {result : JDAnalysisAndInterviewPlan}
    (h : generate message info o = some (formatted, result)) (hd : 2 ≤ info.durationMins) :
    Generated info.durationMins message.focusAreas formatted result := by
  simp only [generate, Option.bind_eq_bind, Option.bind_eq_some_iff, toOption_eq_some,
    Option.pure_def, Option.some.injEq, Prod.mk.injEq] at h
  obtain ⟨parsed, hparsed, generated, hrun, rfl, rfl⟩ := h
  obtain ⟨combined, hadmitted, hfinalize⟩ := runJdAnalysisAndInterviewPlan_finalizes hrun
  obtain ⟨hplan, hsections⟩ := finalizeAnalysis_finalized hadmitted hd hfinalize
  have hnonblank : strip parsed ≠ "" := by
    have hfilter := (Option.filter_eq_some_iff.mp hparsed).2
    simpa using hfilter
  exact ⟨⟨combined, hadmitted, hplan⟩, hsections, formatJdToMarkdown_spec hnonblank o.formatter⟩

omit [UuidText] in
/-- One step of an execution keeps the rows consistent, and so is the phase that it comes to. -/
theorem workerAdvance_fits (store : Store) (clock : Clock) (o : WorkerOutcome)
    {message : ProcessMessage} {phase : Phase} (hplans : store.db.PlansFit)
    (hmessage : message.Fits store.db) (hphase : phase.Fits store.db message) :
    let step := workerAdvance store clock o message phase
    step.2.2.db.PlansFit ∧ JobsKept store.db step.2.2.db ∧ step.2.1.Fits step.2.2.db message := by
  have hsame : JobsKept store.db store.db := .of_same rfl
  obtain ⟨row, hrow, hduration, hfocus⟩ := hmessage
  dsimp only
  cases phase with
  | delivered =>
    simp only [workerAdvance, advance, hrow]
    split
    · exact ⟨hplans, hsame, trivial⟩
    · exact ⟨hplans, hsame, row, hrow, rfl⟩
  | informed info =>
    obtain ⟨a, ha, hinfo⟩ := hphase
    cases hrow.symm.trans ha
    cases hgenerate : generate message info o with
    | none =>
      simp only [workerAdvance, hgenerate]
      exact ⟨hplans, hsame, trivial⟩
    | some generated =>
      obtain ⟨formatted, result⟩ := generated
      simp only [workerAdvance, hgenerate]
      refine ⟨hplans, hsame, row, hrow, ?_⟩
      rw [hinfo] at hduration ⊢
      exact generate_generated hgenerate hduration
  | generated info formatted result =>
    obtain ⟨a, ha, hgenerated⟩ := hphase
    cases hrow.symm.trans ha
    simp only [workerAdvance, advance]
    split
    · exact ⟨hplans, hsame, trivial⟩
    · exact ⟨hplans.activate hrow hfocus hgenerated, service_jobsKept _ _, trivial⟩
  | raised =>
    simp only [workerAdvance, advance, hrow]
    split
    · exact ⟨hplans, hsame, trivial⟩
    · exact ⟨hplans.withStatus _ _ _, service_jobsKept _ _, trivial⟩
  | activated | closedOnFailure | finished => exact ⟨hplans, hsame, trivial⟩

theorem Worker.Consistent.step [LawfulUuidText] {s : Worker} (h : s.Consistent)
    (event : WorkerEvent) : (worker s event).2.Consistent := by
  cases event with
  | serve call published =>
    have hkept := service_jobsKept s.store call.toServiceCall
    refine ⟨(outer_write s.store call).plansFit h.plans, ?_, ?_⟩
    · intro arguments harguments message hdecoded
      rcases List.mem_append.mp harguments with hold | hnew
      · exact (h.queue arguments hold message hdecoded).kept hkept
      · split at hnew
        · rename_i hsent
          obtain ⟨_, hok⟩ := Bool.and_eq_true_iff.mp hsent
          exact published_fits hok (Option.mem_toList.mp hnew) hdecoded
        · cases hnew
    · intro execution hexecution
      obtain ⟨hmessage, hphase⟩ := h.executions execution hexecution
      exact ⟨hmessage.kept hkept, hphase.kept hkept⟩
  | deliver position =>
    cases hmessage : s.queue[position]?.bind TaskArguments.decoded with
    | none =>
      simp only [worker, hmessage]
      exact h
    | some message =>
      simp only [worker, hmessage]
      refine ⟨h.plans, h.queue, ?_⟩
      intro execution hexecution
      rcases List.mem_append.mp hexecution with hold | hnew
      · exact h.executions execution hold
      · cases List.mem_singleton.mp hnew
        obtain ⟨arguments, hposition, hdecoded⟩ := Option.bind_eq_some_iff.mp hmessage
        exact ⟨h.queue arguments (List.mem_of_getElem? hposition) message hdecoded, trivial⟩
  | advance execution clock o =>
    cases hexecution : s.executions[execution]? with
    | none =>
      simp only [worker, hexecution]
      exact h
    | some running =>
      obtain ⟨message, phase⟩ := running
      obtain ⟨hmessage, hphase⟩ := h.executions _ (List.mem_of_getElem? hexecution)
      obtain ⟨hplans, hkept, hphase'⟩ :=
        workerAdvance_fits s.store clock o h.plans hmessage hphase
      simp only [worker, hexecution]
      refine ⟨hplans, ?_, ?_⟩
      · intro arguments harguments message hdecoded
        exact (h.queue arguments harguments message hdecoded).kept hkept
      · intro other hother
        rcases List.mem_or_eq_of_mem_set hother with hold | rfl
        · obtain ⟨hfits, hphase⟩ := h.executions other hold
          exact ⟨hfits.kept hkept, hphase.kept hkept⟩
        · exact ⟨hmessage.kept hkept, hphase'⟩

/-- In every run of requests, deliveries and executions, whatever the language model answers, a row
has no plan yet or the dump of a finalized one for its own duration and focus areas, with the
analysis it belongs to and a text that is not blank. -/
theorem stored_plans_fit [LawfulUuidText] (store : Store) (hstart : store.db.PlansFit)
    (events : List WorkerEvent) :
    (exec worker ⟨⟨store, []⟩, []⟩ events).store.db.PlansFit := by
  have hstep (s : Worker) (event : WorkerEvent) (_ : True) (h : s.Consistent) :
      (worker s event).2.Consistent := h.step event
  have hconsistent : Worker.Consistent ⟨⟨store, []⟩, []⟩ :=
    ⟨hstart, by simp, by simp⟩
  exact (exec_invariant hstep (fun _ _ => trivial) hconsistent).plans

end Worker

/-- An assessment is created and its message is executed, with answers of the sample model. -/
def processedOnce : List WorkerEvent :=
  let outcome : WorkerOutcome := ⟨true, none, sampleModel, fun _ => .ok (some "## Role"), true⟩
  [.serve ⟨⟨⟨0, 0⟩, .createRecruiter 1 "Acme"⟩, trivial⟩ true,
    .serve ⟨⟨⟨0, 0⟩, .createAssessment 3 1 sampleRequest [] none⟩,
      by simp [ServiceRequest.Outer, sampleRequest]⟩ true,
    .deliver 0, .advance 0 ⟨0, 0⟩ outcome, .advance 0 ⟨0, 0⟩ outcome, .advance 0 ⟨0, 0⟩ outcome]

theorem stored_plans_fit_sample :
    let _ : Runtime := .ascii
    let _ : NumberText := .ascii
    let _ : AnalysisPrompts := .sample
    let _ : UuidText := .hexadecimal
    ∃ a, (exec worker ⟨⟨emptyStore, []⟩, []⟩ processedOnce).store.db.assessment? 3 = some a ∧
      a.interviewPlan.isSome ∧ PlanFits a := by
  intro runtime numberText prompts uuidText
  have hprocessed : (((exec worker ⟨⟨emptyStore, []⟩, []⟩
      processedOnce).store.db.assessment? 3).bind (·.interviewPlan)).isSome := by
    decide +kernel
  obtain ⟨plan, hplan⟩ := Option.isSome_iff_exists.mp hprocessed
  obtain ⟨a, ha, hinterviewPlan⟩ := Option.bind_eq_some_iff.mp hplan
  have hstart : emptyStore.db.PlansFit := fun id a h => nomatch h
  refine ⟨a, ha, by simp [hinterviewPlan], ?_⟩
  refine (stored_plans_fit emptyStore hstart processedOnce 3 a ha).resolve_left ?_
  rintro ⟨_, hnone⟩
  rw [hnone] at hinterviewPlan
  cases hinterviewPlan

end IBotCoreApi
