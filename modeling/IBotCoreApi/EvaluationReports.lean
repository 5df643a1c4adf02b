import IBotCoreApi.EvaluationService
import IBotCoreApi.Library.KeyedLists
import IBotCoreApi.Refinement

namespace IBotCoreApi
open Python Pydantic EvaluationSchemas EvaluationService

namespace EvaluationReport

def texts (r : EvaluationReport) : List String :=
  [r.introSectionSummary, r.behaviouralCulturalSummary, r.communicationSummary,
    r.hiringRecommendation, r.modelRecommendation, r.overallSummary, r.recommendationReasoning,
    r.promptVersion, r.modelName, r.modelProvider, r.evaluationSchemaVersion, r.transcriptHash] ++
  r.recommendationOverrideReason.toList ++ r.introSectionEvidence ++
  r.behaviouralCulturalEvidence ++ r.communicationEvidence ++ r.violationEvidence ++
  r.strengths ++ r.concerns

variable [Runtime] [NumberText]

/-- The shape of a report that is read as it is. -/
structure Readable (r : EvaluationReport) : Prop where
  texts : ∀ s ∈ r.texts, Trimmed s
  skillScores : (Schema.dict evaluationSkillBreakdown).Keeps r.skillScores
  skillSummary : (Schema.dict .str).Keeps r.skillSummary
  skillEvidence : (Schema.dict (.list .str)).Keeps r.skillEvidence
  questionEvaluations : (Schema.list questionEvaluationBreakdown).Keeps r.questionEvaluations
  sectionCommunicationScores :
    (Schema.dict sectionCommunicationBreakdown).Keeps r.sectionCommunicationScores
  violationSummary : EvaluationSchemas.violationSummary.Keeps r.violationSummary

/-- The fields of the full report are kept exactly when the report is readable. -/
theorem attributes_keeps_iff {r : EvaluationReport} (hnull : r.violationSummary ≠ .null) :
    (∀ f ∈ interviewEvaluationFields, f.Keeps r.attributes) ↔ r.Readable := by
  simp only [interviewEvaluationFields, List.forall_mem_cons, List.not_mem_nil, false_imp_iff,
    implies_true, and_true, Schema.Field.Keeps, Schema.Field.required, Schema.Field.defaulted,
    attributes, lookup_entry, String.reduceEq, if_true, if_false, Schema.float_keeps_float,
    Schema.str_keeps_str, Schema.strs_keeps_dumpStrs, Schema.optional_str_keeps,
    Schema.optional_strs_keeps, Schema.optional_keeps_of_ne hnull, true_and]
  constructor
  · rintro ⟨introSummary, introEvidence, skillScores, skillSummary, skillEvidence, questions,
      behaviouralSummary, behaviouralEvidence, communicationSummary, communicationEvidence,
      sections, violations, violationEvidence, hiring, model, override, overall, reasoning,
      strengths, concerns, prompt, modelName, provider, version, hash⟩
    refine ⟨?_, skillScores, skillSummary, skillEvidence, questions, sections, violations⟩
    simp only [texts, List.forall_mem_append, List.forall_mem_cons, Option.mem_toList,
      List.not_mem_nil, false_imp_iff, implies_true]
    exact ⟨⟨⟨⟨⟨⟨⟨⟨introSummary, behaviouralSummary, communicationSummary, hiring, model, overall,
      reasoning, prompt, modelName, provider, version, hash, trivial⟩, override⟩, introEvidence⟩,
      behaviouralEvidence⟩, communicationEvidence⟩, violationEvidence⟩, strengths⟩, concerns⟩
  · rintro ⟨htexts, skillScores, skillSummary, skillEvidence, questions, sections, violations⟩
    simp only [texts, List.forall_mem_append, List.forall_mem_cons, Option.mem_toList,
      List.not_mem_nil, false_imp_iff, implies_true] at htexts
    obtain ⟨⟨⟨⟨⟨⟨⟨⟨introSummary, behaviouralSummary, communicationSummary, hiring, model, overall,
      reasoning, prompt, modelName, provider, version, hash, _⟩, override⟩, introEvidence⟩,
      behaviouralEvidence⟩, communicationEvidence⟩, violationEvidence⟩, strengths⟩, concerns⟩ :=
      htexts
    exact ⟨introSummary, introEvidence, skillScores, skillSummary, skillEvidence, questions,
      behaviouralSummary, behaviouralEvidence, communicationSummary, communicationEvidence,
      sections, violations, violationEvidence, hiring, model, override, overall, reasoning,
      strengths, concerns, prompt, modelName, provider, version, hash⟩

/-- The list items of a recruiter take the skill scores of the report. -/
def Listable (r : EvaluationReport) : Prop :=
  ∃ j, (Schema.dict evaluationSkillBreakdown).validate r.skillScores = some j

theorem listable_iff {r : EvaluationReport} : (∃ report,
    Schema.readFields (listItemAttributes r) recruiterEvaluationFields = some report) ↔
      r.Listable := by
  rw [Schema.exists_readFields_iff]
  simp only [recruiterEvaluationFields, List.forall_mem_cons, List.not_mem_nil, false_imp_iff,
    implies_true, and_true, Schema.Field.read, Schema.Field.required,
    listItemAttributes, lookup_entry, String.reduceEq, if_true, if_false]
  constructor
  · rintro ⟨_, _, _, _, _, _, _, _, _, _, hskills⟩
    exact hskills
  · intro hskills
    exact ⟨Schema.float_accepts _, Schema.str_accepts _, Schema.str_accepts _,
      Schema.str_accepts _, Schema.float_accepts _, Schema.float_accepts _,
      Schema.float_accepts _, Schema.strs_accepts _, Schema.strs_accepts _,
      Schema.int_accepts _, hskills⟩

theorem Readable.listItem_keeps {r : EvaluationReport} (h : r.Readable) :
    ∀ f ∈ recruiterEvaluationFields, f.Keeps (listItemAttributes r) := by
  have htexts := h.texts
  simp only [EvaluationReport.texts, List.forall_mem_append, List.forall_mem_cons] at htexts
  simp only [recruiterEvaluationFields, List.forall_mem_cons, List.not_mem_nil, false_imp_iff,
    implies_true, and_true, Schema.Field.Keeps, Schema.Field.required,
    listItemAttributes, lookup_entry, String.reduceEq, if_true, if_false,
    Schema.float_keeps_float, Schema.str_keeps_str, Schema.strs_keeps_dumpStrs,
    Schema.int_keeps_int, true_and]
  obtain ⟨⟨⟨⟨⟨⟨⟨⟨_, _, _, hiring, _, overall, reasoning, _⟩, _⟩, _⟩, _⟩, _⟩, _⟩, strengths⟩,
    concerns⟩ := htexts
  exact ⟨hiring, reasoning, overall, strengths, concerns, h.skillScores⟩

/-- `int(count or 0)` of a count that the full report keeps. -/
theorem toInt_of_keeps {j : Json} (h : Schema.int.Keeps j) :
    ∃ count, (j.orElse (.int 0)).toInt = .ok count ∧ number? j = some (count : ℚ) := by
  cases j with
  | bool b => cases b <;> simp [Json.orElse, Json.truthy, Json.toInt, number?]
  | int i => exact ⟨i, Json.toInt_orElse_zero i, rfl⟩
  | float q =>
    obtain ⟨hden, _⟩ := h
    have hnum : (q.num : ℚ) = q := (Rat.den_eq_one_iff q).mp hden
    by_cases hzero : q = 0
    · exact ⟨0, by simp [Json.orElse, Json.truthy, hzero], by simp [number?, hzero]⟩
    · refine ⟨q.num, ?_, by rw [number?, hnum]⟩
      simp [Json.orElse, Json.truthy, hzero, Json.toInt, hden]
  | _ => cases h

theorem Readable.validatedViolationCount {r : EvaluationReport} (h : r.Readable) :
    number? (r.violationSummary.field "validated_violation_count") =
      some (EvaluationService.validatedViolationCount r.violationSummary : ℚ) := by
  obtain ⟨d, hd, _, hfields⟩ := h.violationSummary
  have hcount := hfields (.required "validated_violation_count" .int) (by simp)
  rw [Schema.Field.Keeps, Schema.Field.required_name] at hcount
  rw [hd, Json.field_dict, EvaluationService.validatedViolationCount, Json.get]
  cases hlookup : d.lookup "validated_violation_count" with
  | none =>
    rw [hlookup] at hcount
    cases hcount
  | some j =>
    rw [hlookup] at hcount
    obtain ⟨count, hint, hnumber⟩ := toInt_of_keeps hcount
    rw [Option.getD_some, hint]
    exact hnumber

def listed (r : EvaluationReport) : Json.Entries :=
  ("validated_violation_count", r.violationSummary.field "validated_violation_count") ::
    r.attributes

/-- A full report is returned as it was saved exactly when it is readable. -/
theorem reads_iff {r : EvaluationReport} (hnull : r.violationSummary ≠ .null) :
    (∃ report, Schema.readFields r.attributes interviewEvaluationFields = some report ∧
      Schema.Returns interviewEvaluationFields r.attributes report) ↔ r.Readable := by
  rw [← attributes_keeps_iff hnull]
  refine Schema.readFields_returns_iff ?_ ?_
  · simp [interviewEvaluationFields]
  · simp [interviewEvaluationFields, attributes, lookup_entry]

theorem Readable.lists {r : EvaluationReport} (h : r.Readable) : ∃ report,
    Schema.readFields (listItemAttributes r) recruiterEvaluationFields = some report ∧
      Schema.Returns recruiterEvaluationFields r.listed report := by
  have hsaved : ∀ f ∈ recruiterEvaluationFields,
      ∃ v, (listItemAttributes r).lookup f.name = some v := by
    simp [recruiterEvaluationFields, listItemAttributes, lookup_entry]
  have hsame : ∀ f ∈ recruiterEvaluationFields, f.name ≠ "validated_violation_count" →
      r.listed.lookup f.name = (listItemAttributes r).lookup f.name := by
    simp [recruiterEvaluationFields, listed, attributes, listItemAttributes, lookup_entry]
  obtain ⟨report, hread, hreturns⟩ := (Schema.readFields_returns_iff
    (by simp [recruiterEvaluationFields]) hsaved).mpr h.listItem_keeps
  refine ⟨report, hread, fun f hf => ?_⟩
  obtain ⟨v, v', hv, hv', hkept⟩ := hreturns f hf
  by_cases hcount : f.name = "validated_violation_count"
  · -- the list shows the count that `_validated_violation_count` reads
    have hint : v = .int (EvaluationService.validatedViolationCount r.violationSummary) := by
      rw [hcount] at hv
      simpa [listItemAttributes, lookup_entry, eq_comm] using hv
    rw [hint] at hkept
    refine ⟨_, v', by rw [hcount, listed, List.lookup_cons_self], hv', ?_⟩
    cases hkept with
    | number hnumber hnumber' =>
      cases hnumber
      exact .number h.validatedViolationCount hnumber'
  · exact ⟨v, v', (hsame f hf hcount).trans hv, hv', hkept⟩

end EvaluationReport

def reportsOf (evaluations : List InterviewEvaluation) : List (Uuid × EvaluationReport) :=
  evaluations.map fun e => (e.candidateAssessmentId, e.report)

section Saving

open EvaluationRepository

theorem mem_reportsOf {evaluations : List InterviewEvaluation} {p : Uuid × EvaluationReport} :
    p ∈ reportsOf evaluations ↔
      ∃ e ∈ evaluations, e.candidateAssessmentId = p.1 ∧ e.report = p.2 := by
  simp [reportsOf, Prod.ext_iff]

theorem reportsOf_refresh (db : Database) (assessmentId : Uuid) :
    reportsOf (refreshAssessmentRanking db assessmentId).interviewEvaluations =
      reportsOf db.interviewEvaluations := by
  simp only [reportsOf, refreshAssessmentRanking, List.map_map]
  apply List.map_congr_left
  intro e _
  dsimp only [Function.comp_apply]
  split <;> rfl

theorem mem_reportsOf_upsert {db db' : Database} {clock : Clock} {newId : Uuid}
    {record : FinalEvaluationRecord} (hrun : upsertEvaluation db clock newId record = .ok db')
    {p : Uuid × EvaluationReport} :
    p ∈ reportsOf db'.interviewEvaluations ↔
      p = (record.candidateAssessmentId, record.report) ∨
        p ∈ reportsOf db.interviewEvaluations ∧ p.1 ≠ record.candidateAssessmentId := by
  unfold upsertEvaluation at hrun
  simp only at hrun
  split_ifs at hrun with _ hany
  · cases hrun
    have hrow (e : InterviewEvaluation) : (overwriteEvaluation clock record).onRow
        (fun e => e.candidateAssessmentId == record.candidateAssessmentId) e =
          if e.candidateAssessmentId = record.candidateAssessmentId then
            (overwriteEvaluation clock record).set e
          else e := by
      simp [Tables.Update.onRow]
    simp only [mem_reportsOf, Tables.mem_updateWhere, hrow]
    constructor
    · rintro ⟨_, ⟨e, he, rfl⟩, hid, hreport⟩
      by_cases hsame : e.candidateAssessmentId = record.candidateAssessmentId
      · rw [if_pos hsame] at hid hreport
        exact .inl (Prod.ext (hid.symm.trans hsame) hreport.symm)
      · rw [if_neg hsame] at hid hreport
        exact .inr ⟨⟨e, he, hid, hreport⟩, hid ▸ hsame⟩
    · rintro (rfl | ⟨⟨e, he, hid, hreport⟩, hne⟩)
      · obtain ⟨e, he, hsame⟩ := List.any_eq_true.mp hany
        refine ⟨_, ⟨e, he, if_pos (beq_iff_eq.mp hsame)⟩, ?_⟩
        exact ⟨beq_iff_eq.mp hsame, rfl⟩
      · exact ⟨e, ⟨e, he, if_neg (hid ▸ hne)⟩, hid, hreport⟩
  · cases hrun
    have hnone : p ∈ reportsOf db.interviewEvaluations → p.1 ≠ record.candidateAssessmentId := by
      intro hp hid
      obtain ⟨e, he, hsame, _⟩ := mem_reportsOf.mp hp
      exact hany (List.any_eq_true.mpr ⟨e, he, beq_iff_eq.mpr (hsame.trans hid)⟩)
    have hsplit : p ∈ reportsOf (db.interviewEvaluations ++ [newEvaluation clock newId record]) ↔
        p ∈ reportsOf db.interviewEvaluations ∨
          p = (record.candidateAssessmentId, record.report) := by
      simp [reportsOf, newEvaluation]
    rw [hsplit, or_comm, and_iff_left_of_imp hnone]

/-- What a saved evaluation changes that a reader sees. -/
theorem saveFinalEvaluation_reports {db db' : RecruiterDatabase} {clock : Clock}
    {draws : EvaluationDraws} {record : FinalEvaluationRecord} {recruiterEmail : String}
    {notification : NotificationLog}
    (hrun : db.saveFinalEvaluation clock draws record recruiterEmail = .ok (notification, db')) :
    (∀ p, p ∈ reportsOf db'.interviewEvaluations ↔
      p = (record.candidateAssessmentId, record.report) ∨
        p ∈ reportsOf db.interviewEvaluations ∧ p.1 ≠ record.candidateAssessmentId) ∧
    db'.candidates = db.candidates ∧ db'.assessments = db.assessments ∧
    db'.enrollments = Tables.updateWhere (·.id == record.candidateAssessmentId)
      (RecruiterEnrollment.evaluated clock) db.enrollments := by
  unfold RecruiterDatabase.saveFinalEvaluation at hrun
  cases hsave : EvaluationRepository.saveFinalEvaluation db.toDatabase clock draws record
      recruiterEmail with
  | error => simp [hsave, Except.map] at hrun
  | ok saved =>
    rw [hsave] at hrun
    cases hrun
    refine ⟨fun p => ?_, rfl, rfl, rfl⟩
    unfold EvaluationRepository.saveFinalEvaluation at hsave
    obtain ⟨upserted, hupsert, hsave⟩ := Outcomes.bind_eq_ok.mp hsave
    simp only at hsave
    split at hsave
    · cases hsave
    split at hsave
    · cases hsave
    · cases hsave
      rw [reportsOf_refresh]
      exact mem_reportsOf_upsert hupsert

end Saving

/-- The recruiter owns the assessment of the enrollment, and its rows are there. -/
def OwnedBy (db : RecruiterDatabase) (recruiterId candidateAssessmentId : Uuid) : Prop :=
  ∃ e c a, db.enrollment? candidateAssessmentId = some e ∧ db.candidate? e.candidateId = some c ∧
    db.assessment? e.assessmentId = some a ∧ a.recruiterId = recruiterId

theorem ownedBy_saved {db db' : RecruiterDatabase} {clock : Clock} {p : RecruiterEnrollment → Bool}
    (hcandidates : db'.candidates = db.candidates) (hassessments : db'.assessments = db.assessments)
    (henrollments : db'.enrollments =
      Tables.updateWhere p (RecruiterEnrollment.evaluated clock) db.enrollments)
    {recruiterId id : Uuid} : OwnedBy db' recruiterId id ↔ OwnedBy db recruiterId id := by
  have hlookup : db'.enrollment? id =
      (db.enrollment? id).map ((RecruiterEnrollment.evaluated clock).onRow p) := by
    rw [RecruiterDatabase.enrollment?, henrollments]
    exact Tables.lookup_updateWhere (RecruiterEnrollment.evaluated clock) Prod.fst id
  unfold OwnedBy RecruiterDatabase.candidate? RecruiterDatabase.assessment?
  rw [hcandidates, hassessments, hlookup]
  cases db.enrollment? id with
  | none => simp
  | some e =>
    have hkeys := (RecruiterEnrollment.evaluated clock).onRow_keeps (p := p) e
    simp only [RecruiterEnrollment.keys, Prod.mk.injEq] at hkeys
    simp [hkeys.2.1, hkeys.2.2]

section Reading

variable [Runtime] [NumberText] {db : RecruiterDatabase} {recruiterId : Uuid}

omit [Runtime] [NumberText] in
theorem mem_listByRecruiter {row : EvaluationRow} : row ∈ listByRecruiter db recruiterId ↔
    row.evaluation ∈ db.interviewEvaluations ∧
      db.enrollment? row.evaluation.candidateAssessmentId = some row.enrollment ∧
      db.candidate? row.enrollment.candidateId = some row.candidate ∧
      db.assessment? row.enrollment.assessmentId = some row.assessment ∧
      row.assessment.recruiterId = recruiterId := by
  simp only [listByRecruiter, Sorting.mem_sortedDown, List.mem_filter, List.mem_filterMap, joined,
    Option.bind_eq_bind, Option.bind_eq_some_iff, beq_iff_eq]
  constructor
  · rintro ⟨⟨e, he, enrollment, henrollment, candidate, hcandidate, a, ha, hrow⟩, howner⟩
    cases hrow
    exact ⟨he, henrollment, hcandidate, ha, howner⟩
  · rintro ⟨he, henrollment, hcandidate, ha, howner⟩
    exact ⟨⟨_, he, _, henrollment, _, hcandidate, _, ha, rfl⟩, howner⟩

theorem buildListItem_ok_iff {row : EvaluationRow} :
    (∃ item, buildListItem row = .ok item) ↔ row.evaluation.report.Listable := by
  rw [← EvaluationReport.listable_iff]
  unfold buildListItem
  split <;> simp_all

theorem listRecruiterEvaluations_ok_iff :
    (∃ items, listRecruiterEvaluations db recruiterId = .ok items) ↔
      ∀ p ∈ reportsOf db.interviewEvaluations, OwnedBy db recruiterId p.1 → p.2.Listable := by
  unfold listRecruiterEvaluations
  rw [Outcomes.exists_mapM_eq_ok]
  simp only [buildListItem_ok_iff, mem_listByRecruiter]
  constructor
  · rintro h ⟨id, report⟩ hp ⟨e, c, a, he, hc, ha, howner⟩
    obtain ⟨evaluation, hmem, rfl, rfl⟩ := mem_reportsOf.mp hp
    exact h ⟨evaluation, e, c, a⟩ ⟨hmem, he, hc, ha, howner⟩
  · rintro h row ⟨hmem, he, hc, ha, howner⟩
    exact h _ (List.mem_map_of_mem hmem) ⟨_, _, _, he, hc, ha, howner⟩

theorem getCandidateEvaluation_returns_iff {caId : Uuid} {saved : EvaluationReport}
    (howned : OwnedBy db recruiterId caId)
    (hstored : (caId, saved) ∈ reportsOf db.interviewEvaluations)
    (hunique : ∀ p ∈ reportsOf db.interviewEvaluations, p.1 = caId → p.2 = saved) :
    (∃ response, getCandidateEvaluation db caId recruiterId = .ok response ∧
      Schema.Returns interviewEvaluationFields saved.attributes response.report) ↔
    ∃ report, Schema.readFields saved.attributes interviewEvaluationFields = some report ∧
      Schema.Returns interviewEvaluationFields saved.attributes report := by
  obtain ⟨e, c, a, he, hc, ha, howner⟩ := howned
  obtain ⟨stored, hmem, hid, _⟩ := mem_reportsOf.mp hstored
  cases hevaluation : evaluationOf? db caId with
  | none => exact absurd hid (Tables.key_ne_of_lookup_eq_none hevaluation hmem)
  | some evaluation =>
    have hkey : evaluation.candidateAssessmentId = caId := Tables.lookup_key hevaluation
    have hreport : evaluation.report = saved :=
      hunique _ (List.mem_map_of_mem (Tables.lookup_mem hevaluation)) hkey
    unfold getCandidateEvaluation getOwnedCandidateAssessment
    simp only [he, ha, howner, hevaluation, hreport, ne_eq, not_true_eq_false, if_false]
    cases Schema.readFields saved.attributes interviewEvaluationFields with
    | none => simp [bind, Except.bind, throw, throwThe, MonadExceptOf.throw]
    | some report => simp [bind, Except.bind, pure, Except.pure]

theorem exists_listed {caId : Uuid} {saved : EvaluationReport}
    {items : List RecruiterEvaluationListItem}
    (hitems : listRecruiterEvaluations db recruiterId = .ok items)
    (howned : OwnedBy db recruiterId caId)
    (hstored : (caId, saved) ∈ reportsOf db.interviewEvaluations) :
    ∃ item ∈ items, item.candidateAssessmentId = caId ∧
      Schema.readFields (listItemAttributes saved) recruiterEvaluationFields =
        some item.report := by
  obtain ⟨e, c, a, he, hc, ha, howner⟩ := howned
  obtain ⟨evaluation, hmem, rfl, rfl⟩ := mem_reportsOf.mp hstored
  have hrow : (⟨evaluation, e, c, a⟩ : EvaluationRow) ∈ listByRecruiter db recruiterId :=
    mem_listByRecruiter.mpr ⟨hmem, he, hc, ha, howner⟩
  obtain ⟨item, hitem, hbuild⟩ :=
    KeyedLists.forall₂_mem_left (Outcomes.mapM_eq_ok.mp hitems) hrow
  have hid := Tables.lookup_key he
  refine ⟨item, hitem, ?_⟩
  unfold buildListItem at hbuild
  split at hbuild
  · cases hbuild
  · rename_i report hread
    cases hbuild
    exact ⟨hid, hread⟩

/-- The recruiter reads what was saved, in the full report and in the list. -/
def ReadsBack (db : RecruiterDatabase) (recruiterId : Uuid) (record : FinalEvaluationRecord) :
    Prop :=
  (∃ response, getCandidateEvaluation db record.candidateAssessmentId recruiterId = .ok response ∧
    Schema.Returns interviewEvaluationFields record.report.attributes response.report) ∧
  ∃ items, listRecruiterEvaluations db recruiterId = .ok items ∧ ∃ item ∈ items,
    item.candidateAssessmentId = record.candidateAssessmentId ∧
      Schema.Returns recruiterEvaluationFields record.report.listed item.report

theorem FinalEvaluationRecord.modelValidate_violationSummary {j : Json}
    {payload : EvaluationPayload} (h : FinalEvaluationRecord.modelValidate j = some payload) :
    payload.report.violationSummary ≠ .null := by
  cases j with
  | dict d =>
    -- the fields before the violations, and those after them
    iterate 19 obtain ⟨_, _, h⟩ := Option.bind_eq_some_iff.mp h
    obtain ⟨violations, hviolations, h⟩ := Option.bind_eq_some_iff.mp h
    iterate 17 obtain ⟨_, _, h⟩ := Option.bind_eq_some_iff.mp h
    cases h
    obtain ⟨value, _, hvalue⟩ := Option.bind_eq_some_iff.mp hviolations
    obtain ⟨clamped, _, hclamped⟩ := Option.bind_eq_some_iff.mp hvalue
    rintro rfl
    unfold dictOf at hclamped
    split at hclamped
    · split at hclamped <;> cases hclamped
    · cases hclamped
  | _ => cases h

theorem SaveFinalEvaluationRequest.modelValidate_record {body : Json}
    {request : SaveFinalEvaluationRequest}
    (h : SaveFinalEvaluationRequest.modelValidate body = some request) :
    ∃ j, FinalEvaluationRecord.modelValidate j = some request.record := by
  cases body with
  | dict d =>
    obtain ⟨_, _, h⟩ := Option.bind_eq_some_iff.mp h
    obtain ⟨payload, hpayload, h⟩ := Option.bind_eq_some_iff.mp h
    obtain ⟨_, _, h⟩ := Option.bind_eq_some_iff.mp h
    cases h
    obtain ⟨j, _, hj⟩ := required_eq_some.mp hpayload
    exact ⟨j, hj⟩
  | _ => cases h

omit [Runtime] [NumberText] in
theorem EvaluationPayload.parsed_report [UuidText] {payload : EvaluationPayload}
    {record : FinalEvaluationRecord} (h : payload.parsed = some record) :
    record.report = payload.report := by
  obtain ⟨_, _, h⟩ := Option.bind_eq_some_iff.mp h
  obtain ⟨_, _, h⟩ := Option.bind_eq_some_iff.mp h
  obtain ⟨_, _, h⟩ := Option.bind_eq_some_iff.mp h
  cases h
  rfl

theorem saveFinalEvaluation_accepted [UuidText] {db db' : RecruiterDatabase} {clock : Clock}
    {draws : EvaluationRepository.EvaluationDraws} {body : Json} {record : FinalEvaluationRecord}
    (hsaved : EvaluationRoutes.saveFinalEvaluation db clock draws body = .ok (record, db')) :
    record.report.violationSummary ≠ .null ∧ ∃ recruiterEmail notification,
      db.saveFinalEvaluation clock draws record recruiterEmail = .ok (notification, db') := by
  unfold EvaluationRoutes.saveFinalEvaluation at hsaved
  cases hbody : SaveFinalEvaluationRequest.modelValidate body with
  | none => simp [hbody] at hsaved
  | some request =>
    cases hparsed : request.record.parsed with
    | none => simp [hbody, hparsed] at hsaved
    | some parsed =>
      simp only [hbody, hparsed] at hsaved
      split at hsaved
      · cases hsaved
      · rename_i notification saved hrun
        cases hsaved
        obtain ⟨j, hj⟩ := SaveFinalEvaluationRequest.modelValidate_record hbody
        refine ⟨?_, request.recruiterEmail, notification, hrun⟩
        rw [EvaluationPayload.parsed_report hparsed]
        exact FinalEvaluationRecord.modelValidate_violationSummary hj

/-- A saved evaluation is read back by the recruiter who owns the assessment exactly when its report
is readable and every other report of the recruiter can be listed. -/
theorem evaluation_reads_back_iff [UuidText] {db db' : RecruiterDatabase} {clock : Clock}
    {draws : EvaluationRepository.EvaluationDraws} {body : Json} {record : FinalEvaluationRecord}
    (hsaved : EvaluationRoutes.saveFinalEvaluation db clock draws body = .ok (record, db'))
    (howned : OwnedBy db recruiterId record.candidateAssessmentId) :
    ReadsBack db' recruiterId record ↔ record.report.Readable ∧
      ∀ p ∈ reportsOf db.interviewEvaluations, p.1 ≠ record.candidateAssessmentId →
        OwnedBy db recruiterId p.1 → p.2.Listable := by
  obtain ⟨hnull, recruiterEmail, notification, hrun⟩ := saveFinalEvaluation_accepted hsaved
  obtain ⟨hreports, hcandidates, hassessments, henrollments⟩ := saveFinalEvaluation_reports hrun
  have howned_iff (id : Uuid) : OwnedBy db' recruiterId id ↔ OwnedBy db recruiterId id :=
    ownedBy_saved hcandidates hassessments henrollments
  have hstored := (hreports _).mpr (.inl rfl)
  have hunique : ∀ p ∈ reportsOf db'.interviewEvaluations,
      p.1 = record.candidateAssessmentId → p.2 = record.report := by
    intro p hp hid
    rcases (hreports p).mp hp with rfl | ⟨_, hne⟩
    · rfl
    · exact absurd hid hne
  have hfull := (getCandidateEvaluation_returns_iff ((howned_iff _).mpr howned) hstored
    hunique).trans (EvaluationReport.reads_iff hnull)
  constructor
  · rintro ⟨hresponse, items, hitems, _⟩
    refine ⟨hfull.mp hresponse, fun p hp hne hp_owned => ?_⟩
    exact listRecruiterEvaluations_ok_iff.mp ⟨items, hitems⟩ p ((hreports p).mpr (.inr ⟨hp, hne⟩))
      ((howned_iff _).mpr hp_owned)
  · rintro ⟨hreadable, hothers⟩
    obtain ⟨report, hread, hreturns⟩ := hreadable.lists
    obtain ⟨items, hitems⟩ : ∃ items, listRecruiterEvaluations db' recruiterId = .ok items := by
      refine listRecruiterEvaluations_ok_iff.mpr fun p hp hp_owned => ?_
      rcases (hreports p).mp hp with rfl | ⟨hp, hne⟩
      · exact EvaluationReport.listable_iff.mp ⟨report, hread⟩
      · exact hothers p hp hne ((howned_iff _).mp hp_owned)
    obtain ⟨item, hitem, hid, hitem_read⟩ :=
      exists_listed hitems ((howned_iff _).mpr howned) hstored
    cases hread.symm.trans hitem_read
    exact ⟨hfull.mpr hreadable, items, hitems, item, hitem, hid, hreturns⟩

end Reading

section Bodies

def savedReport (skillScores : Json.Entries) : EvaluationReport where
  introSectionScore := 8
  introSectionSummary := "Clear."
  introSectionEvidence := []
  skillScores := .dict [("Python", .dict skillScores)]
  overallTechnicalSkillScore := 8
  skillSummary := .dict []
  skillEvidence := .dict []
  questionEvaluations := .list []
  behaviouralCulturalScore := 8
  behaviouralCulturalSummary := "Open."
  behaviouralCulturalEvidence := []
  communicationScore := 8
  communicationSummary := "Precise."
  communicationEvidence := []
  sectionCommunicationScores := .dict []
  violationSummary := .dict [("has_violation", .bool false),
    ("validated_violation_count", .int 0),
    ("severity_counts",
      .dict [("low", .int 0), ("medium", .int 0), ("high", .int 0), ("critical", .int 0)]),
    ("summary", .str "None.")]
  violationEvidence := []
  rawOverallScore := 8
  violationPenalty := 0
  overallScore := 8
  hiringRecommendation := "hire"
  modelRecommendation := "hire"
  recommendationOverrideReason := none
  overallSummary := "Solid."
  recommendationReasoning := "Consistent."
  strengths := []
  concerns := []
  promptVersion := "v1"
  modelName := "model"
  modelProvider := "provider"
  evaluationSchemaVersion := "v1"
  transcriptHash := "hash"
  rawModelOutput := .dict []

def evaluationBody (report : EvaluationReport) : Json := .dict
  [("recruiter_email", .str "hr@globex.example"),
    ("record", .dict (("candidate_assessment_id", .str (40 : Uuid).str) ::
      ("session_id", .str (50 : Uuid).str) :: ("assessment_id", .str (20 : Uuid).str) ::
      report.attributes))]

/-- The skill has a score, but no priority, number of questions and confidence. -/
theorem evaluation_unreadable :
    let _ : Runtime := .ascii
    let _ : NumberText := .ascii
    let _ : UuidText := .hexadecimal
    ∃ record db', EvaluationRoutes.saveFinalEvaluation sharedCandidate ⟨220, 220⟩ ⟨60, 61⟩
        (evaluationBody (savedReport [("score", .int 8)])) = .ok (record, db') ∧
      OwnedBy sharedCandidate 2 record.candidateAssessmentId ∧ ¬ ReadsBack db' 2 record := by
  intro runtime numbers uuids
  have hfails : (EvaluationRoutes.saveFinalEvaluation sharedCandidate ⟨220, 220⟩ ⟨60, 61⟩
      (evaluationBody (savedReport [("score", .int 8)]))).toOption.any fun saved =>
        saved.1.candidateAssessmentId == 40 &&
          !(getCandidateEvaluation saved.2 saved.1.candidateAssessmentId 2).isOk := by
    decide +kernel
  obtain ⟨⟨record, db'⟩, hsaved, hfails⟩ := (Option.any_eq_true _ _).mp hfails
  rw [Bool.and_eq_true, beq_iff_eq, Bool.not_eq_true'] at hfails
  refine ⟨record, db', Outcomes.toOption_eq_some.mp hsaved, ?_, ?_⟩
  · rw [hfails.1]
    exact ⟨_, _, _, rfl, rfl, rfl, rfl⟩
  · rintro ⟨⟨response, hresponse, _⟩, _⟩
    rw [hresponse] at hfails
    cases hfails.2

def pythonScores : Json.Entries :=
  [("score", .int 8), ("priority_score", .int 7), ("questions_evaluated", .int 3),
    ("confidence", .float (9 / 10))]

theorem savedReport_readable :
    let _ : Runtime := .ascii
    let _ : NumberText := .ascii
    (savedReport pythonScores).Readable := by
  intro runtime numbers
  have hscores : evaluationSkillBreakdown.Keeps (.dict pythonScores) := by
    have hint (i : ℤ) : Schema.float.Keeps (.int i) := rfl
    refine ⟨pythonScores, rfl, by decide, ?_⟩
    simp [Schema.Field.Keeps, Schema.Field.required, pythonScores, lookup_entry, hint]
  have hcounts : severityCounts.Keeps (.dict [("low", .int 0), ("medium", .int 0),
      ("high", .int 0), ("critical", .int 0)]) := by
    refine ⟨_, rfl, by decide, ?_⟩
    simp [Schema.Field.Keeps, Schema.Field.required, lookup_entry]
  refine ⟨by decide, ?_, ?_, ?_, ?_, ?_, ?_⟩
  · have hkey : Trimmed "Python" := by decide
    refine ⟨_, rfl, ?_⟩
    simp [lookup_entry, hscores, hkey]
  · exact ⟨[], rfl, by simp⟩
  · exact ⟨[], rfl, by simp⟩
  · exact ⟨[], rfl, by simp⟩
  · exact ⟨[], rfl, by simp⟩
  · have hfalse : Schema.bool.Keeps (.bool false) := .inl rfl
    have hsummary : Trimmed "None." := by decide
    refine ⟨_, rfl, by decide, ?_⟩
    simp [Schema.Field.Keeps, Schema.Field.required, Schema.Field.defaulted, lookup_entry, hcounts,
      hfalse, hsummary]

/-- A report with all scores of its skill is read back. -/
theorem evaluation_reads_back_sample :
    let _ : Runtime := .ascii
    let _ : NumberText := .ascii
    let _ : UuidText := .hexadecimal
    ∃ record db', EvaluationRoutes.saveFinalEvaluation sharedCandidate ⟨220, 220⟩ ⟨60, 61⟩
        (evaluationBody (savedReport pythonScores)) = .ok (record, db') ∧
      ReadsBack db' 2 record := by
  intro runtime numbers uuids
  obtain ⟨db', hsaved⟩ : ∃ db', EvaluationRoutes.saveFinalEvaluation sharedCandidate ⟨220, 220⟩ ⟨60, 61⟩
      (evaluationBody (savedReport pythonScores)) =
        .ok (⟨40, 50, 20, savedReport pythonScores⟩, db') := ⟨_, rfl⟩
  have howned : OwnedBy sharedCandidate 2 40 := ⟨_, _, _, rfl, rfl, rfl, rfl⟩
  refine ⟨_, db', hsaved, (evaluation_reads_back_iff hsaved howned).mpr ?_⟩
  refine ⟨savedReport_readable, ?_⟩
  simp [reportsOf, sharedCandidate]

end Bodies

end IBotCoreApi
