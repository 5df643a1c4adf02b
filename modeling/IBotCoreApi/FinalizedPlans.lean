import IBotCoreApi.PlanAllocation
import Mathlib.Algebra.BigOperators.Ring.Finset

namespace IBotCoreApi
open Python Sorting

variable [Runtime] {combined : JDAnalysisAndInterviewPlan} {focusAreas : List FocusAreaOverride}
  {x y : ScoredSection} {d : ℤ}

structure ScoredSection.Of (combined : JDAnalysisAndInterviewPlan)
    (focusAreas : List FocusAreaOverride) (x : ScoredSection) : Prop where
  input : combined.interviewPlan.technicalSections[x.index]? = some x.technical
  priority : x.priority = resolvePriorityForSkill combined x.technical.skill
  effective : x.effective = effectiveWeight combined focusAreas x.technical.skill

theorem mem_scoredSections : x ∈ scoredSections combined focusAreas ↔ x.Of combined focusAreas := by
  rw [scoredSections, List.mem_map]
  constructor
  · rintro ⟨⟨technical, index⟩, hmem, rfl⟩
    exact ⟨List.mem_zipIdx_iff_getElem?.mp hmem, rfl, rfl⟩
  · intro h
    refine ⟨(x.technical, x.index), List.mem_zipIdx_iff_getElem?.mpr h.input, ?_⟩
    change ScoredSection.mk _ _ _ _ = x
    rw [← h.priority, ← h.effective]

theorem scoredSections_index : (scoredSections combined focusAreas).map ScoredSection.index =
    List.range combined.interviewPlan.technicalSections.length := by
  rw [scoredSections, List.map_map, List.range_eq_range', ← List.zipIdx_map_snd]
  rfl

/-- A section goes before another one: by weight, then by priority, then by position. -/
def ScoredSection.Before (x y : ScoredSection) : Prop :=
  y.effective < x.effective ∨ y.effective = x.effective ∧
    (y.priority < x.priority ∨ y.priority = x.priority ∧ x.index < y.index)

omit [Runtime] in
theorem rank_lt_iff : y.rank < x.rank ↔ x.Before y := by
  simp [ScoredSection.rank, ScoredSection.Before, Prod.Lex.toLex_lt_toLex]

omit [Runtime] in
theorem index_eq_of_rank_eq (h : x.rank = y.rank) : x.index = y.index := by
  simpa [ScoredSection.rank] using (congrArg (fun r => (ofLex (ofLex r).2).2) h)

theorem sorted_index_nodup (combined : JDAnalysisAndInterviewPlan)
    (focusAreas : List FocusAreaOverride) :
    ((sortedDown ScoredSection.rank (scoredSections combined focusAreas)).map
      ScoredSection.index).Nodup := by
  rw [((sortedDown_perm _ _).map _).nodup_iff, scoredSections_index]
  exact List.nodup_range

theorem selectedSections_index_nodup :
    ((selectedSections combined focusAreas d).map ScoredSection.index).Nodup :=
  (sorted_index_nodup combined focusAreas).sublist ((List.take_sublist _ _).map _)

theorem of_mem_selectedSections (h : x ∈ selectedSections combined focusAreas d) :
    x.Of combined focusAreas :=
  mem_scoredSections.mp (mem_sortedDown.mp (List.mem_of_mem_take h))

theorem selectedSections_ordered :
    (selectedSections combined focusAreas d).Pairwise ScoredSection.Before := by
  have hsorted := sortedDown_pairwise ScoredSection.rank (scoredSections combined focusAreas)
  have hdistinct := List.pairwise_map.mp (sorted_index_nodup combined focusAreas)
  refine List.Pairwise.sublist (List.take_sublist _ _)
    ((hsorted.and hdistinct).imp fun {a b} h => ?_)
  exact rank_lt_iff.mp (h.1.lt_of_ne fun heq => h.2 (index_eq_of_rank_eq heq).symm)

/-- No section that is dropped has a greater weight than one that is selected. -/
theorem effective_le_of_dropped (hx : x.Of combined focusAreas)
    (hdropped : x ∉ selectedSections combined focusAreas d)
    (hy : y ∈ selectedSections combined focusAreas d) : x.effective ≤ y.effective := by
  have hmem : x ∈ sortedDown ScoredSection.rank (scoredSections combined focusAreas) :=
    mem_sortedDown.mpr (mem_scoredSections.mpr hx)
  rw [← List.take_append_drop (targetSkillCount d (technicalMinutes d))
    (sortedDown ScoredSection.rank _), List.mem_append] at hmem
  have hrank := le_of_mem_take_of_mem_drop hy (hmem.resolve_left hdropped)
  by_contra hlt
  exact hrank.not_gt (rank_lt_iff.mpr (.inl (not_le.mp hlt)))

theorem length_selectedSections : (selectedSections combined focusAreas d).length =
    min (targetSkillCount d (technicalMinutes d))
      combined.interviewPlan.technicalSections.length := by
  rw [selectedSections, List.length_take, length_sortedDown, scoredSections, List.length_map,
    List.length_zipIdx]

section Times

omit [Runtime]

theorem timedSections_allocatedMins {kept : List ScoredSection} {minutes : List ℚ}
    (h : minutes.length = kept.length) :
    (timedSections kept minutes).map TechnicalInterviewSection.allocatedMins = minutes := by
  rw [timedSections, List.map_zipWith]
  induction kept generalizing minutes with
  | nil => simpa using h
  | cons x kept ih =>
    cases minutes with
    | nil => cases h
    | cons m minutes => exact congrArg (m :: ·) (ih (by simpa using h))

theorem timedSections_same {kept : List ScoredSection} {minutes : List ℚ}
    (h : minutes.length = kept.length) :
    List.Forall₂ (fun (x : ScoredSection) s =>
      s = { x.technical with allocatedMins := s.allocatedMins }) kept
      (timedSections kept minutes) := by
  induction kept generalizing minutes with
  | nil => exact .nil
  | cons x kept ih =>
    cases minutes with
    | nil => cases h
    | cons m minutes => exact .cons rfl (ih (by simpa using h))

end Times

/-- The technical time is split into whole units, at least the minimum depth for each section. -/
theorem technicalPart_units (focusAreas : List FocusAreaOverride) (hd : 2 ≤ d)
    (htechnical : combined.interviewPlan.technicalSections ≠ []) :
    ∃ minUnits units, minMinutesPerSkill d (technicalMinutes d) = (minUnits : ℤ) / 10 ∧
      1 ≤ minUnits ∧
      UnitAllocation (technicalUnits d) minUnits
        (selectedSections combined focusAreas d).length units ∧
      technicalPart combined focusAreas d = timedSections (selectedSections combined focusAreas d)
        (units.map fun u : ℤ => (u : ℚ) / 10) := by
  obtain ⟨minUnits, hminimum, hmin, hfits⟩ := minMinutesPerSkill_units hd
  set selected := selectedSections combined focusAreas d with hselected
  have hcount : selected.length ≤ targetSkillCount d (technicalMinutes d) :=
    length_selectedSections.trans_le (min_le_left _ _)
  have hbudget : minUnits * (selected.map ScoredSection.effective).length ≤ technicalUnits d :=
    calc minUnits * ((selected.map ScoredSection.effective).length : ℤ)
        ≤ minUnits * targetSkillCount d (technicalMinutes d) := by
          rw [List.length_map]
          gcongr
      _ ≤ technicalUnits d := minUnits_mul_targetSkillCount_le hd hminimum hmin hfits
  have hne : selected.map ScoredSection.effective ≠ [] := by
    rw [← List.length_pos_iff, List.length_map, hselected, length_selectedSections]
    exact lt_min (targetSkillCount_pos hd) (List.length_pos_iff.mpr htechnical)
  have hfalling : (selected.map ScoredSection.effective).Pairwise fun a b => b ≤ a := by
    refine List.pairwise_map.mpr (selectedSections_ordered.imp fun {a b} hbefore => ?_)
    rcases hbefore with hlt | ⟨heq, _⟩
    · exact hlt.le
    · exact heq.le
  obtain ⟨units, hunits, hallocation⟩ :=
    allocateMinutesByWeight_units hne hfalling hmin hbudget
  rw [List.length_map] at hallocation
  refine ⟨minUnits, units, hminimum, hmin, hallocation, ?_⟩
  rw [technicalPart, hminimum, ← hunits]
  rfl

/-- Which technical sections a finalized plan holds, in what order, and with how much time. -/
structure TechnicalSelection (combined : JDAnalysisAndInterviewPlan)
    (focusAreas : List FocusAreaOverride) (d : ℤ) (kept : List ScoredSection)
    (technical : List TechnicalInterviewSection) : Prop where
  input : ∀ x ∈ kept, x.Of combined focusAreas
  distinct : (kept.map ScoredSection.index).Nodup
  same : List.Forall₂ (fun x s => s = { x.technical with allocatedMins := s.allocatedMins })
    kept technical
  ordered : kept.Pairwise ScoredSection.Before
  heaviest : ∀ x : ScoredSection, x.Of combined focusAreas → x ∉ kept →
    ∀ y ∈ kept, x.effective ≤ y.effective
  nonempty : 1 ≤ technical.length
  count : technical.length ≤ targetSkillCount d (technicalMinutes d)
  depth : ∀ s ∈ technical, minMinutesPerSkill d (technicalMinutes d) ≤ s.allocatedMins
  pos : ∀ s ∈ technical, 0 < s.allocatedMins
  falling : technical.Pairwise fun a b => b.allocatedMins ≤ a.allocatedMins

theorem technicalPart_selection (focusAreas : List FocusAreaOverride) (hd : 2 ≤ d)
    (htechnical : combined.interviewPlan.technicalSections ≠ []) :
    TechnicalSelection combined focusAreas d (selectedSections combined focusAreas d)
      (technicalPart combined focusAreas d) := by
  obtain ⟨minUnits, units, hminimum, hmin, hallocation, hpart⟩ :=
    technicalPart_units focusAreas hd htechnical
  have hlength : (units.map fun u : ℤ => (u : ℚ) / 10).length =
      (selectedSections combined focusAreas d).length := by
    rw [List.length_map, hallocation.length]
  have hminutes := timedSections_allocatedMins hlength
  have hsame := timedSections_same hlength
  rw [← hpart] at hminutes hsame
  have hdepth : ∀ s ∈ technicalPart combined focusAreas d,
      minMinutesPerSkill d (technicalMinutes d) ≤ s.allocatedMins := by
    intro s hs
    have hmem := List.mem_map_of_mem (f := TechnicalInterviewSection.allocatedMins) hs
    rw [hminutes] at hmem
    obtain ⟨u, hu, heq⟩ := List.mem_map.mp hmem
    rw [hminimum, ← heq]
    have := hallocation.minimum u hu
    gcongr
  have hcount : (technicalPart combined focusAreas d).length =
      min (targetSkillCount d (technicalMinutes d))
        combined.interviewPlan.technicalSections.length := by
    rw [← hsame.length_eq, length_selectedSections]
  exact {
    input := fun x hx => of_mem_selectedSections hx
    distinct := selectedSections_index_nodup
    same := hsame
    ordered := selectedSections_ordered
    heaviest := fun x hx hdropped y hy => effective_le_of_dropped hx hdropped hy
    nonempty := by
      rw [hcount]
      exact le_min (targetSkillCount_pos hd) (List.length_pos_iff.mpr htechnical)
    count := hcount.trans_le (min_le_left _ _)
    depth := hdepth
    pos := by
      intro s hs
      have hpos : (0 : ℚ) < minUnits / 10 := by positivity
      exact (hminimum ▸ hpos).trans_le (hdepth s hs)
    falling := by
      have hfalling : ((technicalPart combined focusAreas d).map
          TechnicalInterviewSection.allocatedMins).Pairwise fun a b => b ≤ a := by
        rw [hminutes, List.pairwise_map]
        exact hallocation.falling.imp fun hle => by gcongr
      exact List.pairwise_map.mp hfalling }

def InterviewSection.allocatedMins : InterviewSection → ℚ
  | selfIntro s => s.allocatedMins
  | technical s => s.allocatedMins
  | behaviouralCultural s => s.allocatedMins

/-- The plan that `_finalize_analysis` returns where there is a technical section. -/
def finalized (combined : JDAnalysisAndInterviewPlan) (focusAreas : List FocusAreaOverride)
    (d : ℤ) : JDAnalysisAndInterviewPlan :=
  { combined with
    interviewPlan :=
      { totalMins := d
        inferredDifficulty := combined.jdAnalysis.inferredDifficulty
        sections := .selfIntro (introPart combined d) ::
          ((technicalPart combined focusAreas d).map .technical ++
            [.behaviouralCultural (behaviouralPart combined d)]) } }

theorem finalizeAnalysis_eq (combined : JDAnalysisAndInterviewPlan)
    (focusAreas : Option (List FocusAreaOverride)) (hd : 2 ≤ d) :
    finalizeAnalysis combined d focusAreas =
      if combined.interviewPlan.technicalSections = [] then
        .error ⟨"Interview plan requires at least one technical section"⟩
      else .ok (finalized combined (focusAreas.getD []) d) := by
  have hunits : ¬ technicalUnits d ≤ 0 := by
    unfold technicalUnits
    omega
  by_cases htechnical : combined.interviewPlan.technicalSections = []
  · rw [if_pos htechnical]
    exact if_pos (.inl (List.isEmpty_iff.mpr htechnical))
  · rw [if_neg htechnical]
    exact if_neg (not_or_intro (fun h => htechnical (List.isEmpty_iff.mp h)) hunits)

/-- What `_finalize_analysis` guarantees; times are in minutes, ten units each. -/
structure FinalizedPlan (combined : JDAnalysisAndInterviewPlan)
    (focusAreas : List FocusAreaOverride) (d : ℤ) (result : JDAnalysisAndInterviewPlan) : Prop where
  analysis : result.jdAnalysis = combined.jdAnalysis
  parts : ∃ (selfIntro : SelfIntroSection) (kept : List ScoredSection)
      (technical : List TechnicalInterviewSection) (behavioural : BehaviouralCulturalSection),
    result.interviewPlan.sections = .selfIntro selfIntro ::
      (technical.map .technical ++ [.behaviouralCultural behavioural]) ∧
    selfIntro.allocatedMins * 10 = (min d 15 : ℤ) ∧
    behavioural.allocatedMins * 10 = (d : ℚ) ∧
    TechnicalSelection combined focusAreas d kept technical
  units : ∀ s ∈ result.interviewPlan.sections, ∃ u : ℤ, s.allocatedMins * 10 = u
  total : (result.interviewPlan.sections.map InterviewSection.allocatedMins).sum * 10 = 10 * d

theorem finalized_plan (hd : 2 ≤ d) (htechnical : combined.interviewPlan.technicalSections ≠ []) :
    FinalizedPlan combined focusAreas d (finalized combined focusAreas d) := by
  obtain ⟨minUnits, units, _, _, hallocation, hpart⟩ := technicalPart_units focusAreas hd htechnical
  have hminutes : (technicalPart combined focusAreas d).map (·.allocatedMins) =
      units.map fun u : ℤ => (u : ℚ) / 10 := by
    rw [hpart]
    exact timedSections_allocatedMins (by rw [List.length_map, hallocation.length])
  have hintro : (introPart combined d).allocatedMins * 10 = (min d 15 : ℤ) :=
    div_mul_cancel₀ _ (by norm_num)
  have hbehavioural : (behaviouralPart combined d).allocatedMins * 10 = d :=
    div_mul_cancel₀ _ (by norm_num)
  refine ⟨rfl, ⟨introPart combined d, selectedSections combined focusAreas d,
    technicalPart combined focusAreas d, behaviouralPart combined d, rfl, hintro, hbehavioural,
    technicalPart_selection focusAreas hd htechnical⟩, ?_, ?_⟩
  · intro s hs
    rcases List.mem_cons.mp hs with rfl | hs
    · exact ⟨_, hintro⟩
    rcases List.mem_append.mp hs with hs | hs
    · obtain ⟨technical, htechnical, rfl⟩ := List.mem_map.mp hs
      have hmem := List.mem_map_of_mem (f := TechnicalInterviewSection.allocatedMins) htechnical
      rw [hminutes] at hmem
      obtain ⟨u, _, heq⟩ := List.mem_map.mp hmem
      exact ⟨u, (div_eq_iff (by norm_num)).mp heq |>.symm⟩
    · cases List.mem_singleton.mp hs
      exact ⟨d, hbehavioural⟩
  · have hsum : ((units.map fun u : ℤ => (u : ℚ) / 10)).sum = technicalUnits d / 10 := by
      rw [← hallocation.sum, Int.cast_list_sum]
      simp only [div_eq_mul_inv, List.sum_map_mul_right]
    have hall : (finalized combined focusAreas d).interviewPlan.sections.map
        InterviewSection.allocatedMins = (introPart combined d).allocatedMins ::
          ((technicalPart combined focusAreas d).map (·.allocatedMins) ++
            [(behaviouralPart combined d).allocatedMins]) := by
      simp [finalized, InterviewSection.allocatedMins, Function.comp_def]
    rw [hall, hminutes, List.sum_cons, List.sum_append, List.sum_singleton, hsum, add_mul, add_mul,
      hintro, hbehavioural, div_mul_cancel₀ _ (by norm_num)]
    unfold technicalUnits
    push_cast
    ring

/-- For every analysis and every duration from two minutes on, `_finalize_analysis` raises exactly
where the plan has no technical section, and else returns a plan that meets `FinalizedPlan`. -/
theorem finalizeAnalysis_correct (combined : JDAnalysisAndInterviewPlan) (d : ℤ)
    (focusAreas : Option (List FocusAreaOverride)) (hd : 2 ≤ d ∧ d ≤ 180) :
    (∀ e, finalizeAnalysis combined d focusAreas = .error e ↔
      combined.interviewPlan.technicalSections = [] ∧
        e = ⟨"Interview plan requires at least one technical section"⟩) ∧
    (combined.interviewPlan.technicalSections ≠ [] →
      ∃ result, finalizeAnalysis combined d focusAreas = .ok result ∧
        FinalizedPlan combined (focusAreas.getD []) d result) := by
  rw [finalizeAnalysis_eq combined focusAreas hd.1]
  by_cases htechnical : combined.interviewPlan.technicalSections = []
  · simp [htechnical, eq_comm]
  · rw [if_neg htechnical]
    refine ⟨fun e => by simp [htechnical], fun _ => ⟨_, rfl, finalized_plan hd.1 htechnical⟩⟩

/-- A section with a brief of two signals that takes over the signals of the section. -/
def sampleTechnical (skill : String) (signals : List String) : TechnicalInterviewSection where
  sectionName := skill
  skill := skill
  allocatedMins := 2
  expectedSignals := signals
  questionBrief := some {
    expectedSignals := signals
    roleResponsibility := "Build the API."
    operatingEnvironment := "Production services."
    importantTools := []
    constraints := []
    seniorityDepth := "Depth of the role."
    outOfScopeTopics := [] }

def sampleAnalysis (signals : List String) : JDAnalysisAndInterviewPlan where
  jdAnalysis :=
    { inferredDifficulty := .midLevel
      skills := [⟨"Python", 9, "Central to the role.", by norm_num⟩]
      behaviouralSignals := ["Ownership"] }
  interviewPlan :=
    { totalMins := 10
      inferredDifficulty := .midLevel
      sections := [.technical (sampleTechnical "Python" signals)] }

omit [Runtime] in
theorem finalizeAnalysis_correct_sample :
    ∃ result, @finalizeAnalysis .ascii (sampleAnalysis ["Typing"]) 5 none = .ok result ∧
      @FinalizedPlan .ascii (sampleAnalysis ["Typing"]) [] 5 result :=
  (@finalizeAnalysis_correct .ascii (sampleAnalysis ["Typing"]) 5 none (by decide)).2 (by decide)

-- three minutes of five are left for the first of three sections: the other two are dropped
example : letI := Runtime.ascii
    (technicalPart { sampleAnalysis [] with interviewPlan.sections :=
      [.technical (sampleTechnical "Rust" []), .technical (sampleTechnical "Python" []),
        .technical (sampleTechnical "SQL" [])] } [] 5).map
      (fun s => (s.skill, s.allocatedMins)) = [("Python", 5 / 2), ("Rust", 3 / 2)] := by
  decide +kernel

end IBotCoreApi
