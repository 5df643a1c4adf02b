import IBotCoreApi.FinalizedPlans
import IBotCoreApi.PlanFormats
import IBotCoreApi.Store

namespace IBotCoreApi
open Python Pydantic Sorting

/-- What `_process_assessment` stores of a generated analysis. -/
def storeGenerated (db : Database) (clock : Clock) (assessmentId : Uuid) (formattedJdText : String)
    (generated : JDAnalysisAndInterviewPlan) : Database :=
  (AssessmentRepository.activateAssessment db clock assessmentId formattedJdText
    generated.jdAnalysis.modelDump generated.interviewPlan.modelDump).2

variable [Runtime] [NumberText]

/-- The field `interview_plan` of `AssessmentResponse`, for a row that has one. -/
def readInterviewPlan (db : Database) (assessmentId : Uuid) : Option InterviewPlan :=
  (db.assessment? assessmentId).bind fun a => a.interviewPlan.bind InterviewPlan.modelValidate

omit [Runtime] [NumberText] in
theorem assessment?_storeGenerated {db : Database} {assessmentId : Uuid} {assessment : Assessment}
    (hrow : db.assessment? assessmentId = some assessment) (clock : Clock)
    (formattedJdText : String) (generated : JDAnalysisAndInterviewPlan) :
    (storeGenerated db clock assessmentId formattedJdText generated).assessment? assessmentId =
      some ((AssessmentRepository.activated clock formattedJdText generated.jdAnalysis.modelDump
        generated.interviewPlan.modelDump).set assessment) := by
  have hid : assessment.id = assessmentId := Tables.lookup_key hrow
  simp [storeGenerated, AssessmentRepository.activateAssessment, hrow, hid, Tables.Update.onRow]

omit [Runtime] in
/-- The API reads what validation makes of the stored dump. -/
theorem readInterviewPlan_storeGenerated [Runtime] {db : Database} {assessmentId : Uuid}
    {assessment : Assessment} (hrow : db.assessment? assessmentId = some assessment)
    (clock : Clock) (formattedJdText : String) (generated : JDAnalysisAndInterviewPlan) :
    readInterviewPlan (storeGenerated db clock assessmentId formattedJdText generated)
        assessmentId = InterviewPlan.modelValidate generated.interviewPlan.modelDump := by
  rw [readInterviewPlan, assessment?_storeGenerated hrow]
  rfl

section Selected

variable {combined : JDAnalysisAndInterviewPlan} {focusAreas : List FocusAreaOverride}
  {x y : ScoredSection} {d : ℤ}

/-- A technical section of the input that fewer sections outrank than the plan has room for. -/
structure Selected (combined : JDAnalysisAndInterviewPlan) (focusAreas : List FocusAreaOverride)
    (d : ℤ) (x : ScoredSection) : Prop where
  of : x.Of combined focusAreas
  outranked : ((scoredSections combined focusAreas).countP fun y => x.rank < y.rank) <
    targetSkillCount d (technicalMinutes d)

omit [NumberText] in
theorem ScoredSection.Of.eq_of_index_eq (hx : x.Of combined focusAreas)
    (hy : y.Of combined focusAreas) (h : x.index = y.index) : x = y := by
  have htechnical : x.technical = y.technical :=
    Option.some.inj (hx.input.symm.trans (h ▸ hy.input))
  have hpriority : x.priority = y.priority := by rw [hx.priority, hy.priority, htechnical]
  have heffective : x.effective = y.effective := by rw [hx.effective, hy.effective, htechnical]
  cases x
  cases y
  simp_all

omit [NumberText] in
theorem mem_selectedSections :
    x ∈ selectedSections combined focusAreas d ↔ Selected combined focusAreas d x := by
  have hinj : Set.InjOn ScoredSection.rank {x | x ∈ scoredSections combined focusAreas} := by
    intro x hx y hy heq
    exact (mem_scoredSections.mp hx).eq_of_index_eq (mem_scoredSections.mp hy)
      (index_eq_of_rank_eq heq)
  have hnodup : (scoredSections combined focusAreas).Nodup := by
    apply List.Nodup.of_map ScoredSection.index
    rw [scoredSections_index]
    exact List.nodup_range
  constructor
  · intro hx
    have hof := of_mem_selectedSections hx
    exact ⟨hof, (mem_take_sortedDown hinj hnodup (mem_scoredSections.mpr hof)).mp hx⟩
  · intro hx
    exact (mem_take_sortedDown hinj hnodup (mem_scoredSections.mpr hx.of)).mpr hx.outranked

end Selected

section Finalized

variable {combined : JDAnalysisAndInterviewPlan} {focusAreas : List FocusAreaOverride} {d : ℤ}

omit [Runtime] [NumberText] in
theorem TechnicalInterviewSection.Admitted.withMinutes {s : TechnicalInterviewSection} {m : ℚ}
    (h : s.Admitted) (hm : 0 < m) : { s with allocatedMins := m }.Admitted :=
  { h with allocatedMins := hm }

omit [Runtime] [NumberText] in
theorem mem_technicalSections {p : InterviewPlan} {s : TechnicalInterviewSection} :
    s ∈ p.technicalSections ↔ .technical s ∈ p.sections := by
  unfold InterviewPlan.technicalSections
  rw [List.mem_filterMap]
  constructor
  · rintro ⟨section', hmem, heq⟩
    split at heq
    · cases heq
      exact hmem
    · cases heq
  · intro h
    exact ⟨_, h, rfl⟩

omit [Runtime] [NumberText] in
theorem behaviouralPart_wellFormed (h : combined.Admitted) (hd : 2 ≤ d) :
    (behaviouralPart combined d).WellFormed where
  allocatedMins := by
    have hpos : (0 : ℚ) < d := by exact_mod_cast (by omega : 0 < d)
    exact div_pos hpos (by norm_num)
  expectedSignals := by
    unfold behaviouralPart
    cases hfound : combined.interviewPlan.behavioural? with
    | none =>
      intro signal hsignal
      obtain ⟨text, _, rfl⟩ := List.mem_map.mp hsignal
      exact trim_trimmed text
    | some s =>
      obtain ⟨found, hmem, hs⟩ := List.exists_of_findSome?_eq_some hfound
      split at hs
      · cases hs
        exact (h.sections _ hmem).expectedSignals
      · cases hs

omit [NumberText] in
/-- Finalizing keeps every section one that validation could have produced. -/
theorem finalized_admitted (h : combined.Admitted) (hd : 2 ≤ d)
    (htechnical : combined.interviewPlan.technicalSections ≠ []) :
    ∀ s ∈ (finalized combined focusAreas d).interviewPlan.sections, s.Admitted := by
  have hselection := technicalPart_selection focusAreas hd htechnical
  intro s hs
  rcases List.mem_cons.mp hs with rfl | hs
  · trivial
  rcases List.mem_append.mp hs with hs | hs
  · obtain ⟨technical, hmem, rfl⟩ := List.mem_map.mp hs
    obtain ⟨x, hx, hsame⟩ := KeyedLists.forall₂_mem_left hselection.same.flip hmem
    have hinput := mem_technicalSections.mp (List.mem_of_getElem? (hselection.input x hx).input)
    have hadmitted : x.technical.Admitted := h.sections _ hinput
    change technical.Admitted
    rw [hsame]
    exact hadmitted.withMinutes (hselection.pos technical hmem)
  · cases List.mem_singleton.mp hs
    exact behaviouralPart_wellFormed h hd

def FitsBrief (signals : List String) : Prop := 2 ≤ signals.length ∧ signals.length ≤ 4

omit [NumberText] in
theorem finalized_readable_iff (h : combined.Admitted) (hd : 2 ≤ d)
    (htechnical : combined.interviewPlan.technicalSections ≠ []) :
    (∀ s ∈ (finalized combined focusAreas d).interviewPlan.sections, s.Readable) ↔
      ∀ x, Selected combined focusAreas d x → FitsBrief x.technical.expectedSignals := by
  have hselection := technicalPart_selection focusAreas hd htechnical
  constructor
  · intro hreadable x hx
    obtain ⟨s, hs, hsame⟩ :=
      KeyedLists.forall₂_mem_left hselection.same (mem_selectedSections.mpr hx)
    have hmem : InterviewSection.technical s ∈
        (finalized combined focusAreas d).interviewPlan.sections :=
      List.mem_cons_of_mem _ (List.mem_append_left _ (List.mem_map_of_mem hs))
    obtain ⟨b, hb⟩ := Option.isSome_iff_exists.mp
      (h.briefs x.technical (List.mem_of_getElem? hx.of.input))
    have hfits := hreadable _ hmem
    rw [hsame] at hfits
    exact hfits b hb
  · intro hfits s hs
    rcases List.mem_cons.mp hs with rfl | hs
    · trivial
    rcases List.mem_append.mp hs with hs | hs
    · obtain ⟨technical, hmem, rfl⟩ := List.mem_map.mp hs
      obtain ⟨x, hx, hsame⟩ := KeyedLists.forall₂_mem_left hselection.same.flip hmem
      intro b _
      rw [hsame]
      exact hfits x (mem_selectedSections.mp hx)
    · cases List.mem_singleton.mp hs
      trivial

end Finalized

/-- A stored plan is read back as it was generated exactly when each of its technical sections,
the ones that fewer sections outrank than there is room for, has two to four expected signals. -/
theorem stored_plan_reads_back_iff (payload : Json) (combined result : JDAnalysisAndInterviewPlan)
    (d : ℤ) (focusAreas : Option (List FocusAreaOverride)) (db : Database) (clock : Clock)
    (assessmentId : Uuid) (formattedJdText : String)
    (hpayload : JDAnalysisAndInterviewPlan.modelValidate payload = some combined)
    (hd : 2 ≤ d ∧ d ≤ 180) (hresult : finalizeAnalysis combined d focusAreas = .ok result)
    (hrow : (db.assessment? assessmentId).isSome) :
    readInterviewPlan (storeGenerated db clock assessmentId formattedJdText result) assessmentId =
        some result.interviewPlan ↔
      ∀ x, Selected combined (focusAreas.getD []) d x → FitsBrief x.technical.expectedSignals := by
  have hadmitted := JDAnalysisAndInterviewPlan.modelValidate_admitted hpayload
  obtain ⟨assessment, hassessment⟩ := Option.isSome_iff_exists.mp hrow
  rw [finalizeAnalysis_eq combined focusAreas hd.1] at hresult
  split at hresult
  · cases hresult
  · next htechnical =>
    cases hresult
    rw [readInterviewPlan_storeGenerated hassessment,
      InterviewPlan.reads_iff (finalized_admitted hadmitted hd.1 htechnical)]
    exact finalized_readable_iff hadmitted hd.1 htechnical

/-- The payload of the sample analysis: its brief has two signals of its own. -/
def samplePayload (signals : List String) : Json :=
  .dict [
    ("jd_analysis", .dict [("inferred_difficulty", .str "mid-level"),
      ("skills", .list [.dict [("skill", .str "Python"), ("priority_score", .int 9),
        ("reasoning", .str "Central to the role.")]]),
      ("behavioural_signals", dumpStrs ["Ownership"])]),
    ("interview_plan", .dict [("total_mins", .int 10),
      ("sections", .list [.dict [("section_name", .str "Python"), ("skill", .str " Python "),
        ("allocated_mins", .float 2), ("expected_signals", dumpStrs signals),
        ("question_brief", .dict [("expected_signals", dumpStrs ["Typing", "Testing"]),
          ("role_responsibility", .str "Build the API."),
          ("operating_environment", .str "Production services."),
          ("seniority_depth", .str "Depth of the role.")])]])])]

omit [Runtime] [NumberText] in
theorem samplePayload_accepted (signals : List String)
    (h : signals = ["Typing"] ∨ signals = ["Typing", "Testing"]) :
    @JDAnalysisAndInterviewPlan.modelValidate .ascii .ascii (samplePayload signals) =
      some (sampleAnalysis signals) := by
  rcases h with rfl | rfl <;> decide +kernel

def processingDatabase : Database :=
  .single ⟨1, "Acme"⟩ ⟨2, "Ada"⟩ sampleAssessment sampleEnrollment none

omit [Runtime] [NumberText] in
theorem stored_plan_reads_back_sample :
    @readInterviewPlan .ascii .ascii (storeGenerated processingDatabase ⟨0, 0⟩ 3 "Build the API."
      (@finalized .ascii (sampleAnalysis ["Typing", "Testing"]) [] 30)) 3 =
        some (@finalized .ascii (sampleAnalysis ["Typing", "Testing"]) [] 30).interviewPlan := by
  let _ : Runtime := .ascii
  have hfinalized := finalizeAnalysis_eq (sampleAnalysis ["Typing", "Testing"]) none
    (show (2 : ℤ) ≤ 30 by decide)
  refine (@stored_plan_reads_back_iff .ascii .ascii (samplePayload ["Typing", "Testing"]) _ _ 30 none
    processingDatabase ⟨0, 0⟩ 3 "Build the API." (samplePayload_accepted _ (.inr rfl)) (by decide)
    (hfinalized.trans (if_neg (by decide))) rfl).mpr ?_
  intro x hx
  have hinput := mem_technicalSections.mp (List.mem_of_getElem? hx.of.input)
  rw [InterviewSection.technical.inj (List.mem_singleton.mp hinput)]
  exact ⟨by decide, by decide⟩

omit [Runtime] [NumberText] in
/-- One signal for the section: its plan is generated and stored, and cannot be read. -/
theorem stored_plan_unreadable :
    ∃ payload combined result, @JDAnalysisAndInterviewPlan.modelValidate .ascii .ascii payload =
        some combined ∧ @finalizeAnalysis .ascii combined 30 none = .ok result ∧
      @readInterviewPlan .ascii .ascii (storeGenerated processingDatabase ⟨0, 0⟩ 3 "Build the API."
        result) 3 = none := by
  let _ : Runtime := .ascii
  have hfinalized := finalizeAnalysis_eq (sampleAnalysis ["Typing"]) none
    (show (2 : ℤ) ≤ 30 by decide)
  refine ⟨samplePayload ["Typing"], sampleAnalysis ["Typing"], _,
    samplePayload_accepted _ (.inl rfl), hfinalized.trans (if_neg (by decide)), ?_⟩
  decide +kernel

end IBotCoreApi
