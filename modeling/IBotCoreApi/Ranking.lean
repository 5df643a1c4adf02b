import IBotCoreApi.Library.KeyedLists
import IBotCoreApi.Service

namespace IBotCoreApi
open Python Outcomes Runs KeyedLists InternalInterview EvaluationRepository

variable {db db' : Database} {clock : Clock}

def Database.evaluationsOf (db : Database) (assessmentId : Uuid) : List InterviewEvaluation :=
  db.interviewEvaluations.filter (belongsTo db assessmentId)

/-- The ranks are `1` to `n`, each once, and every total is `n`. -/
structure RanksAll (evaluations : List InterviewEvaluation) : Prop where
  ranks : (evaluations.map (·.rankInAssessment)).Perm
    ((List.range evaluations.length).map fun i => some ((i + 1 : ℕ) : ℤ))
  totals : ∀ e ∈ evaluations, e.totalCandidatesEvaluated = some (evaluations.length : ℤ)

def Database.Ranked (db : Database) : Prop := ∀ assessmentId, RanksAll (db.evaluationsOf assessmentId)

/-- The primary key of `interview_evaluations`. -/
def Database.EvaluationIds (db : Database) : Prop := (db.interviewEvaluations.map (·.id)).Nodup

theorem RanksAll.nil : RanksAll [] := ⟨.refl _, by simp⟩

section Refresh

theorem eq_of_belongsTo {assessmentId other : Uuid} {e : InterviewEvaluation}
    (h : belongsTo db assessmentId e) (h' : belongsTo db other e) : assessmentId = other := by
  unfold belongsTo at h h'
  cases hca : db.candidateAssessment? e.candidateAssessmentId with
  | none => simp [hca] at h
  | some ca =>
    rw [hca, Option.any_some, beq_iff_eq] at h h'
    exact h.symm.trans h'

theorem filter_belongsTo_map {f : InterviewEvaluation → InterviewEvaluation}
    (hkeep : ∀ e, (f e).candidateAssessmentId = e.candidateAssessmentId) (db : Database)
    (assessmentId : Uuid) (evaluations : List InterviewEvaluation) :
    (evaluations.map f).filter (belongsTo db assessmentId) =
      (evaluations.filter (belongsTo db assessmentId)).map f := by
  have hcomp : belongsTo db assessmentId ∘ f = belongsTo db assessmentId := by
    funext e
    simp only [Function.comp_apply, belongsTo, hkeep]
  rw [List.filter_map, hcomp]

theorem evaluationsOf_refresh (db : Database) (assessmentId : Uuid) :
    (refreshAssessmentRanking db assessmentId).evaluationsOf assessmentId =
      (db.evaluationsOf assessmentId).map fun e =>
        ranked (db.evaluationsOf assessmentId).length
          (place (·.id) ((db.evaluationsOf assessmentId).insertionSort ranksBefore) e + 1 : ℕ) e := by
  refine (filter_belongsTo_map (fun e => ?_) db assessmentId db.interviewEvaluations).trans ?_
  · split <;> rfl
  · apply List.map_congr_left
    intro e he
    rw [if_pos (List.mem_filter.mp he).2, List.length_insertionSort]
    rfl

theorem evaluationsOf_refresh_of_ne (db : Database) {assessmentId other : Uuid}
    (hne : other ≠ assessmentId) :
    (refreshAssessmentRanking db assessmentId).evaluationsOf other = db.evaluationsOf other := by
  refine (filter_belongsTo_map (fun e => ?_) db other db.interviewEvaluations).trans ?_
  · split <;> rfl
  · conv_rhs => rw [← List.map_id (db.evaluationsOf other)]
    apply List.map_congr_left
    intro e he
    rw [if_neg fun hmine => hne (eq_of_belongsTo (List.mem_filter.mp he).2 hmine)]
    rfl

theorem evaluationIds_evaluationsOf (h : db.EvaluationIds) (assessmentId : Uuid) :
    ((db.evaluationsOf assessmentId).map (·.id)).Nodup :=
  h.sublist (List.filter_sublist.map _)

theorem evaluationIds_refresh (h : db.EvaluationIds) (assessmentId : Uuid) :
    (refreshAssessmentRanking db assessmentId).EvaluationIds := by
  have hsame : (refreshAssessmentRanking db assessmentId).interviewEvaluations.map (·.id) =
      db.interviewEvaluations.map (·.id) := by
    simp only [refreshAssessmentRanking, List.map_map]
    apply List.map_congr_left
    intro e _
    simp only [Function.comp_apply]
    split <;> rfl
  unfold Database.EvaluationIds
  rw [hsame]
  exact h

theorem ranksAll_refresh (h : db.EvaluationIds) (assessmentId : Uuid) :
    RanksAll ((refreshAssessmentRanking db assessmentId).evaluationsOf assessmentId) := by
  rw [evaluationsOf_refresh]
  set evaluations := db.evaluationsOf assessmentId with hevaluations
  have hplaces := map_place_perm (evaluationIds_evaluationsOf h assessmentId)
    (List.perm_insertionSort ranksBefore evaluations)
  constructor
  · have hranks := hplaces.map fun i => some ((i + 1 : ℕ) : ℤ)
    rw [List.map_map] at hranks
    rw [List.map_map, List.length_map]
    exact hranks
  · intro e' he'
    obtain ⟨e, _, rfl⟩ := List.mem_map.mp he'
    rw [List.length_map]
    rfl

theorem ranked_refresh (h : db.EvaluationIds) {assessmentId : Uuid}
    (hothers : ∀ other, other ≠ assessmentId → RanksAll (db.evaluationsOf other)) :
    (refreshAssessmentRanking db assessmentId).Ranked := by
  intro other
  by_cases hother : other = assessmentId
  · subst hother
    exact ranksAll_refresh h other
  · rw [evaluationsOf_refresh_of_ne db hother]
    exact hothers other hother

end Refresh

section Save

variable {record : FinalEvaluationRecord}

/-- The enrollment of the record is enrolled in the assessment that the record names. -/
def NamesOwnAssessment (db : Database) (record : FinalEvaluationRecord) : Prop :=
  ∀ ca, db.candidateAssessment? record.candidateAssessmentId = some ca →
    ca.assessmentId = record.assessmentId

theorem not_belongsTo_of_ne (hown : NamesOwnAssessment db record) {other : Uuid}
    (hne : other ≠ record.assessmentId) {e : InterviewEvaluation}
    (he : e.candidateAssessmentId = record.candidateAssessmentId) :
    belongsTo db other e = false := by
  unfold belongsTo
  rw [he]
  cases hca : db.candidateAssessment? record.candidateAssessmentId with
  | none => rfl
  | some ca =>
    rw [Option.any_some, hown ca hca]
    simpa using Ne.symm hne

theorem upsertEvaluation_ids {newId : Uuid} (h : db.EvaluationIds)
    (hrun : upsertEvaluation db clock newId record = .ok db') : db'.EvaluationIds := by
  unfold upsertEvaluation at hrun
  simp only at hrun
  split_ifs at hrun with hrefused hold hused
  · cases hrun
    have hkeys := Tables.map_proj_updateWhere
      (p := fun e : InterviewEvaluation => e.candidateAssessmentId == record.candidateAssessmentId)
      (overwriteEvaluation clock record) Prod.fst db.interviewEvaluations
    exact (congrArg List.Nodup hkeys).mpr h
  · cases hrun
    refine Tables.nodup_map_append h fun e he heq => hused ?_
    have hid : e.id = newId := heq
    exact List.any_eq_true.mpr ⟨e, he, by simp [hid]⟩

theorem evaluationsOf_upsert_of_ne {newId : Uuid} (hown : NamesOwnAssessment db record)
    (hrun : upsertEvaluation db clock newId record = .ok db') {other : Uuid}
    (hne : other ≠ record.assessmentId) : db'.evaluationsOf other = db.evaluationsOf other := by
  unfold upsertEvaluation at hrun
  simp only at hrun
  split_ifs at hrun
  · cases hrun
    refine (filter_belongsTo_map (fun e => ?_) db other db.interviewEvaluations).trans ?_
    · exact congrArg Prod.snd (Tables.Update.onRow_keeps (u := overwriteEvaluation clock record) e)
    · conv_rhs => rw [← List.map_id (db.evaluationsOf other)]
      apply List.map_congr_left
      intro e he
      apply Tables.Update.onRow_of_false
      by_contra hmine
      rw [Bool.not_eq_false, beq_iff_eq] at hmine
      have hnot := not_belongsTo_of_ne hown hne hmine
      rw [(List.mem_filter.mp he).2] at hnot
      cases hnot
  · cases hrun
    have hnew : belongsTo db other (newEvaluation clock newId record) = false :=
      not_belongsTo_of_ne hown hne rfl
    change (db.interviewEvaluations ++ [newEvaluation clock newId record]).filter
      (belongsTo db other) = _
    rw [List.filter_append, List.filter_singleton, hnew]
    simp [Database.evaluationsOf]

theorem evaluationsOf_updateCandidateAssessments (q : CandidateAssessment → Bool)
    (v : CandidateUpdate) (assessmentId : Uuid) :
    (db.updateCandidateAssessments q v).evaluationsOf assessmentId =
      db.evaluationsOf assessmentId := by
  have hsame : belongsTo (db.updateCandidateAssessments q v) assessmentId =
      belongsTo db assessmentId := by
    funext e
    unfold belongsTo
    rw [Database.candidateAssessment?_updateCandidateAssessments, Option.any_map]
    simp only [candidate_onRow_assessmentId]
  unfold Database.evaluationsOf
  rw [hsame]
  rfl

/-- A saved evaluation leaves every assessment ranked. -/
theorem saveFinalEvaluation_ranked {draws : EvaluationDraws} {recruiterEmail : String}
    {notification : NotificationLog} (hids : db.EvaluationIds) (hranked : db.Ranked)
    (hown : NamesOwnAssessment db record)
    (hrun : saveFinalEvaluation db clock draws record recruiterEmail = .ok (notification, db')) :
    db'.EvaluationIds ∧ db'.Ranked := by
  unfold saveFinalEvaluation at hrun
  obtain ⟨upserted, hupsert, hrun⟩ := bind_eq_ok.mp hrun
  have hids' := upsertEvaluation_ids hids hupsert
  have hothers {other : Uuid} (hne : other ≠ record.assessmentId) :
      upserted.evaluationsOf other = db.evaluationsOf other :=
    evaluationsOf_upsert_of_ne hown hupsert hne
  simp only at hrun
  split at hrun
  · cases hrun
  split at hrun
  · cases hrun
  · cases hrun
    refine ⟨evaluationIds_refresh ?_ _, ranked_refresh ?_ fun other hne => ?_⟩
    · exact hids'
    · exact hids'
    change RanksAll (((upserted.updateSessions (·.id == record.sessionId)
      (sessionEvaluated clock)).updateCandidateAssessments (·.id == record.candidateAssessmentId)
        (candidateEvaluated clock)).evaluationsOf other)
    rw [evaluationsOf_updateCandidateAssessments]
    change RanksAll (upserted.evaluationsOf other)
    rw [hothers hne]
    exact hranked other

end Save

section Delete

/-- Deleting the enrollment takes the evaluation out of the ranking: it is the evaluation of the
enrollment, or refers to its session. -/
def goesWith (db : Database) (ca : CandidateAssessment) (e : InterviewEvaluation) : Bool :=
  e.candidateAssessmentId == ca.id ||
    db.interviewSessions.any fun s => s.candidateAssessmentId == ca.id && s.id == e.sessionId

theorem interviewEvaluations_delete (db : Database) (ca : CandidateAssessment) :
    (CandidateAssessmentRepository.delete db ca).interviewEvaluations =
      db.interviewEvaluations.filter fun e => !db.interviewSessions.any fun s =>
        s.candidateAssessmentId == ca.id && s.id == e.sessionId := by
  simp only [CandidateAssessmentRepository.delete, List.any_filter]

theorem belongsTo_delete (db : Database) (ca : CandidateAssessment) (assessmentId : Uuid)
    (e : InterviewEvaluation) :
    belongsTo (CandidateAssessmentRepository.delete db ca) assessmentId e =
      (!(e.candidateAssessmentId == ca.id) && belongsTo db assessmentId e) := by
  unfold belongsTo
  by_cases hid : e.candidateAssessmentId = ca.id
  · have hgone : (CandidateAssessmentRepository.delete db ca).candidateAssessment?
        e.candidateAssessmentId = none := by
      rw [Database.candidateAssessment?, Tables.lookup_eq_none_iff]
      simp [CandidateAssessmentRepository.delete, hid]
    rw [hgone]
    simp [hid]
  · have hlookup : (CandidateAssessmentRepository.delete db ca).candidateAssessment?
        e.candidateAssessmentId = db.candidateAssessment? e.candidateAssessmentId := by
      apply Tables.lookup_filter
      intro row _ hrow
      rw [hrow]
      simpa using hid
    rw [hlookup]
    simp [hid]

theorem evaluationsOf_delete (db : Database) (ca : CandidateAssessment) (assessmentId : Uuid) :
    (CandidateAssessmentRepository.delete db ca).evaluationsOf assessmentId =
      (db.evaluationsOf assessmentId).filter (!goesWith db ca ·) := by
  unfold Database.evaluationsOf
  rw [interviewEvaluations_delete, List.filter_filter, List.filter_filter]
  apply List.filter_congr
  intro e _
  rw [belongsTo_delete, goesWith, Bool.not_or]
  grind

/-- Evaluations taken out of a ranking leave a ranking when none or all of them are. -/
theorem RanksAll.filter_iff {evaluations : List InterviewEvaluation} (h : RanksAll evaluations)
    (q : InterviewEvaluation → Bool) :
    RanksAll (evaluations.filter q) ↔
      (∀ e ∈ evaluations, q e) ∨ ∀ e ∈ evaluations, q e = false := by
  constructor
  · intro hafter
    by_contra hsome
    simp only [not_or, not_forall] at hsome
    obtain ⟨⟨gone, hgone, hleaves⟩, kept, hkept, hstays⟩ := hsome
    rw [Bool.not_eq_false] at hstays
    have hmem : kept ∈ evaluations.filter q := List.mem_filter.mpr ⟨hkept, hstays⟩
    have htotal := (h.totals kept hkept).symm.trans (hafter.totals kept hmem)
    have hlength : (evaluations.filter q).length = evaluations.length := by
      have hcast := Option.some.inj htotal
      omega
    exact hleaves (List.length_filter_eq_length_iff.mp hlength gone hgone)
  · rintro (hall | hnone)
    · rw [List.filter_eq_self.mpr hall]
      exact h
    · rw [List.filter_eq_nil_iff.mpr fun e he => by simp [hnone e he]]
      exact .nil

theorem deleteCandidateFromAssessment_ok {ca : CandidateAssessment} {a : Assessment}
    (hca : db.candidateAssessment? ca.id = some ca) (ha : db.assessment? ca.assessmentId = some a) :
    ∃ candidates, CandidateService.deleteCandidateFromAssessment db ca.id a.recruiterId =
      .ok ((), { CandidateAssessmentRepository.delete db ca with candidates := candidates }) := by
  simp only [CandidateService.deleteCandidateFromAssessment, hca, ha]
  simp only [ne_eq, not_true_eq_false, if_false, pure, Except.pure]
  split
  · exact ⟨_, rfl⟩
  · exact ⟨_, rfl⟩

/-- A deletion leaves every assessment ranked exactly when it takes none or all of its
evaluations. -/
theorem ranked_delete_iff (hranked : db.Ranked) (ca : CandidateAssessment) :
    (CandidateAssessmentRepository.delete db ca).Ranked ↔ ∀ assessmentId,
      (∀ e ∈ db.evaluationsOf assessmentId, goesWith db ca e = false) ∨
        ∀ e ∈ db.evaluationsOf assessmentId, goesWith db ca e = true := by
  apply forall_congr'
  intro assessmentId
  rw [evaluationsOf_delete, (hranked assessmentId).filter_iff]
  simp

end Delete

section Runs

/-- The requests whose runs are ranked: evaluations saved under their own assessment, and
deletions. -/
def RankingRequest (db : Database) : ServiceRequest → Prop
  | .session (.saveFinalEvaluation _ record _) => NamesOwnAssessment db record
  | .deleteCandidateFromAssessment _ _ => True
  | _ => False

/-- A deletion by the owner of the assessment takes, from every assessment, none or all of the
evaluations. -/
def KeepsRanking (db : Database) (request : ServiceRequest) : Prop :=
  ∀ ca a, request = .deleteCandidateFromAssessment ca.id a.recruiterId →
    db.candidateAssessment? ca.id = some ca → db.assessment? ca.assessmentId = some a →
    ∀ assessmentId, (∀ e ∈ db.evaluationsOf assessmentId, goesWith db ca e = false) ∨
      ∀ e ∈ db.evaluationsOf assessmentId, goesWith db ca e = true

theorem delete_evaluationIds (h : db.EvaluationIds) (ca : CandidateAssessment) :
    (CandidateAssessmentRepository.delete db ca).EvaluationIds :=
  h.sublist (List.filter_sublist.map _)

theorem RankingRequest.cases {request : ServiceRequest} (h : RankingRequest db request) :
    (∃ draws record recruiterEmail,
      request = .session (.saveFinalEvaluation draws record recruiterEmail) ∧
        NamesOwnAssessment db record) ∨
      ∃ candidateAssessmentId recruiterId,
        request = .deleteCandidateFromAssessment candidateAssessmentId recruiterId := by
  cases request with
  | session request =>
    cases request with
    | saveFinalEvaluation draws record recruiterEmail =>
      exact .inl ⟨draws, record, recruiterEmail, rfl, h⟩
    | _ => exact h.elim
  | deleteCandidateFromAssessment candidateAssessmentId recruiterId =>
    exact .inr ⟨candidateAssessmentId, recruiterId, rfl⟩
  | _ => exact h.elim

variable [Runtime]

/-- What one ranking request does to the ranks. -/
theorem ranked_step (store : Store) (call : ServiceCall) (hids : store.db.EvaluationIds)
    (hranked : store.db.Ranked) (hcall : RankingRequest store.db call.request) :
    (service store call).2.db.EvaluationIds ∧
      ((service store call).2.db.Ranked ↔ KeepsRanking store.db call.request) := by
  obtain ⟨clock, request⟩ := call
  obtain ⟨draws, record, recruiterEmail, rfl, hown⟩ | ⟨candidateAssessmentId, recruiterId, rfl⟩ :=
    RankingRequest.cases hcall
  · have hkeeps : KeepsRanking store.db
        (.session (.saveFinalEvaluation draws record recruiterEmail)) := by
      rintro ca a ⟨⟩
    suffices h : (service store ⟨clock, .session (.saveFinalEvaluation draws record
        recruiterEmail)⟩).2.db.EvaluationIds ∧ (service store ⟨clock, .session
        (.saveFinalEvaluation draws record recruiterEmail)⟩).2.db.Ranked from
      ⟨h.1, iff_of_true h.2 hkeeps⟩
    change (transact store.db (saveFinalEvaluation store.db clock draws record
      recruiterEmail)).2.EvaluationIds ∧ (transact store.db (saveFinalEvaluation store.db clock
      draws record recruiterEmail)).2.Ranked
    cases hrun : saveFinalEvaluation store.db clock draws record recruiterEmail with
    | error e => exact ⟨hids, hranked⟩
    | ok saved => exact saveFinalEvaluation_ranked hids hranked hown hrun
  · change (transact store.db (CandidateService.deleteCandidateFromAssessment store.db
      candidateAssessmentId recruiterId)).2.EvaluationIds ∧
      ((transact store.db (CandidateService.deleteCandidateFromAssessment store.db
        candidateAssessmentId recruiterId)).2.Ranked ↔ _)
    cases hrun : CandidateService.deleteCandidateFromAssessment store.db candidateAssessmentId
        recruiterId with
    | error e =>
      refine ⟨hids, iff_of_true hranked ?_⟩
      rintro ca a ⟨⟩ hca ha
      obtain ⟨candidates, hok⟩ := deleteCandidateFromAssessment_ok hca ha
      rw [hrun] at hok
      cases hok
    | ok result =>
      obtain ⟨_, db'⟩ := result
      obtain ⟨ca, a, hca, ha, rfl, candidates, rfl⟩ := deleteCandidateFromAssessment_cases hrun
      obtain rfl : ca.id = candidateAssessmentId := Tables.lookup_key hca
      refine ⟨delete_evaluationIds hids ca, (ranked_delete_iff hranked ca).trans ?_⟩
      constructor
      · intro hkeeps ca' a' hrequest hca' _
        obtain ⟨hid, _⟩ := ServiceRequest.deleteCandidateFromAssessment.inj hrequest
        rw [← hid, hca] at hca'
        cases hca'
        exact hkeeps
      · intro hkeeps
        exact hkeeps ca a rfl hca ha

/-- In every run of saved evaluations and deletions, every assessment is ranked after each request
exactly when every deletion takes none or all of the evaluations of each assessment. -/
theorem ranking_run (store : Store) (calls : List ServiceCall) (hids : store.db.EvaluationIds)
    (hranked : store.db.Ranked)
    (hcalls : ∀ t ∈ trace service store calls, RankingRequest t.pre.db t.input.request) :
    (∀ t ∈ trace service store calls, t.post.db.Ranked) ↔
      ∀ t ∈ trace service store calls, KeepsRanking t.pre.db t.input.request := by
  induction calls generalizing store with
  | nil => simp
  | cons call calls ih =>
    rw [trace_cons, List.forall_mem_cons] at hcalls
    obtain ⟨hids', hstep⟩ := ranked_step store call hids hranked hcalls.1
    rw [trace_cons, List.forall_mem_cons, List.forall_mem_cons]
    change (service store call).2.db.Ranked ∧ _ ↔ KeepsRanking store.db call.request ∧ _
    rw [← hstep]
    apply and_congr_right
    intro hranked'
    exact ih _ hids' hranked' hcalls.2

omit [Runtime] in
theorem ranked_of_nil (h : db.interviewEvaluations = []) : db.EvaluationIds ∧ db.Ranked := by
  refine ⟨by simp [Database.EvaluationIds, h], fun assessmentId => ?_⟩
  rw [Database.evaluationsOf, h]
  exact .nil

def sampleReport (overallScore : ℚ) : EvaluationReport where
  introSectionScore := overallScore
  introSectionSummary := "Clear."
  introSectionEvidence := []
  skillScores := .dict []
  overallTechnicalSkillScore := overallScore
  skillSummary := .dict []
  skillEvidence := .dict []
  questionEvaluations := .list []
  behaviouralCulturalScore := overallScore
  behaviouralCulturalSummary := "Open."
  behaviouralCulturalEvidence := []
  communicationScore := overallScore
  communicationSummary := "Precise."
  communicationEvidence := []
  sectionCommunicationScores := .dict []
  violationSummary := .dict []
  violationEvidence := []
  rawOverallScore := overallScore
  violationPenalty := 0
  overallScore := overallScore
  hiringRecommendation := "HIRE"
  modelRecommendation := "HIRE"
  recommendationOverrideReason := none
  overallSummary := "Solid."
  recommendationReasoning := "Consistent answers."
  strengths := []
  concerns := []
  promptVersion := "v1"
  modelName := "model"
  modelProvider := "provider"
  evaluationSchemaVersion := "v1"
  transcriptHash := "hash"
  rawModelOutput := .dict []

def interviewedTwice : List ServiceCall :=
  ([.createRecruiter 1 "Acme", .createCandidate 2 "Ada", .createCandidate 6 "Grace",
    .createAssessment 3 1 sampleRequest [] none, .enroll ⟨4, 5⟩ 2 3 "resume.pdf" "PENDING" none,
    .enroll ⟨7, 8⟩ 6 3 "resume.pdf" "PENDING" none,
    .session (.enterWithInvitation ⟨10, "first-token"⟩ 5),
    .session (.enterWithInvitation ⟨11, "second-token"⟩ 8)] : List ServiceRequest).map
      fun request => ⟨⟨0, 0⟩, request⟩

def evaluatedTwice : List ServiceCall :=
  [⟨⟨1, 1⟩, .session (.saveFinalEvaluation ⟨20, 21⟩ ⟨4, 10, 3, sampleReport 8⟩ "r@acme.test")⟩,
    ⟨⟨2, 2⟩, .session (.saveFinalEvaluation ⟨22, 23⟩ ⟨7, 11, 3, sampleReport 6⟩ "r@acme.test")⟩]

omit [Runtime] in
theorem namesOwnAssessment_of_all {record : FinalEvaluationRecord}
    (h : (db.candidateAssessment? record.candidateAssessmentId).all
      (·.assessmentId == record.assessmentId)) : NamesOwnAssessment db record := by
  intro ca hca
  rw [hca] at h
  simpa using h

def interviewedStore : Store := exec (@service .ascii) emptyStore interviewedTwice

omit [Runtime] in
theorem interviewedStore_ranked : interviewedStore.db.EvaluationIds ∧ interviewedStore.db.Ranked :=
  ranked_of_nil (List.isEmpty_iff.mp (by decide +kernel))

omit [Runtime] in
theorem evaluatedTwice_requests : ∀ t ∈ trace (@service .ascii) interviewedStore evaluatedTwice,
    RankingRequest t.pre.db t.input.request := by
  let _ : Runtime := .ascii
  intro t ht
  rcases List.mem_cons.mp ht with rfl | ht
  · exact namesOwnAssessment_of_all (by decide +kernel)
  · rcases List.mem_cons.mp ht with rfl | ht
    · exact namesOwnAssessment_of_all (by decide +kernel)
    · cases ht

omit [Runtime] in
/-- The two evaluations are ranked after each of them is saved. -/
theorem ranking_sample : interviewedStore.db.Ranked ∧
    ∀ t ∈ trace (@service .ascii) interviewedStore evaluatedTwice, t.post.db.Ranked := by
  let _ : Runtime := .ascii
  obtain ⟨hids, hranked⟩ := interviewedStore_ranked
  refine ⟨hranked, (ranking_run interviewedStore evaluatedTwice hids hranked
    evaluatedTwice_requests).mpr ?_⟩
  intro t ht ca a hrequest
  rcases List.mem_cons.mp ht with rfl | ht
  · cases hrequest
  · rcases List.mem_cons.mp ht with rfl | ht
    · cases hrequest
    · cases ht

def betterDeleted : ServiceCall := ⟨⟨3, 3⟩, .deleteCandidateFromAssessment 4 1⟩

def evaluatedStore : Store := exec (@service .ascii) interviewedStore evaluatedTwice

omit [Runtime] in
theorem betterDeleted_breaks : ¬ KeepsRanking evaluatedStore.db betterDeleted.request := by
  intro hkeeps
  have hca : (evaluatedStore.db.candidateAssessment? 4).any (·.assessmentId == 3) := by
    decide +kernel
  have ha : (evaluatedStore.db.assessment? 3).any (·.recruiterId == 1) := by decide +kernel
  rw [Option.any_eq_true] at hca ha
  obtain ⟨ca, hca, hassessment⟩ := hca
  obtain ⟨a, ha, howner⟩ := ha
  have hid : ca.id = 4 := Tables.lookup_key hca
  rw [beq_iff_eq] at hassessment howner
  have hgoes : goesWith evaluatedStore.db ca = goesWith evaluatedStore.db sampleEnrollment := by
    funext e
    rw [goesWith, hid]
    rfl
  have hboth := hkeeps ca a (by rw [hid, howner, betterDeleted]) (hid ▸ hca)
    (hassessment ▸ ha) 3
  rw [hgoes] at hboth
  rcases hboth with hnone | hall
  · have hgone : (evaluatedStore.db.evaluationsOf 3).any
      (goesWith evaluatedStore.db sampleEnrollment) := by decide +kernel
    obtain ⟨e, he, hgone⟩ := List.any_eq_true.mp hgone
    rw [hnone e he] at hgone
    cases hgone
  · have hkept : (evaluatedStore.db.evaluationsOf 3).all
      (goesWith evaluatedStore.db sampleEnrollment) = false := by decide +kernel
    rw [List.all_eq_true.mpr hall] at hkept
    cases hkept

omit [Runtime] in
/-- After the deletion of the better candidate the other one stays second of two. -/
theorem ranking_broken :
    ∃ store calls, store.db.EvaluationIds ∧ store.db.Ranked ∧
      (∀ t ∈ trace (@service .ascii) store calls, RankingRequest t.pre.db t.input.request) ∧
      ¬ ∀ t ∈ trace (@service .ascii) store calls, t.post.db.Ranked := by
  let _ : Runtime := .ascii
  obtain ⟨hids, hranked⟩ := interviewedStore_ranked
  have hsplit : trace service interviewedStore (evaluatedTwice ++ [betterDeleted]) =
      trace service interviewedStore evaluatedTwice ++ [.of service evaluatedStore betterDeleted] :=
    trace_snoc _ _
  have hrequests : ∀ t ∈ trace service interviewedStore (evaluatedTwice ++ [betterDeleted]),
      RankingRequest t.pre.db t.input.request := by
    rw [hsplit]
    intro t ht
    rcases List.mem_append.mp ht with ht | ht
    · exact evaluatedTwice_requests t ht
    · rw [List.mem_singleton.mp ht]
      trivial
  refine ⟨interviewedStore, evaluatedTwice ++ [betterDeleted], hids, hranked, hrequests, ?_⟩
  rw [ranking_run interviewedStore _ hids hranked hrequests, hsplit]
  intro hkeeps
  exact betterDeleted_breaks (hkeeps _ (List.mem_append_right _ (List.mem_singleton_self _)))

end Runs

end IBotCoreApi
