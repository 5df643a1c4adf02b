import IBotCoreApi.FinalizedPlans

namespace IBotCoreApi
open Python

variable [Runtime] {combined : JDAnalysisAndInterviewPlan} {focusAreas : List FocusAreaOverride}
  {skillName : String} {weight : ℚ}

/-- The weight of a skill: that of the override which matches it best, or, where none matches, the
priority of the JD skill which matches it best, or 1. -/
inductive SkillWeight (combined : JDAnalysisAndInterviewPlan)
    (focusAreas : List FocusAreaOverride) (skillName : String) : ℚ → Prop
  | override {weight : ℚ} (h : BestOf (fun o : FocusAreaOverride => matchScore skillName o.skill)
      (fun o => some o.weightOverride) none focusAreas (some weight)) :
      SkillWeight combined focusAreas skillName weight
  | priority {weight : ℚ} (hnone : ∀ o ∈ focusAreas, matchScore skillName o.skill = 0)
      (h : BestOf (fun s : SkillPriority => matchScore skillName s.skill)
        SkillPriority.priorityScore 1 combined.jdAnalysis.skills weight) :
      SkillWeight combined focusAreas skillName weight

theorem skillWeight_iff : SkillWeight combined focusAreas skillName weight ↔
    effectiveWeight combined focusAreas skillName = weight := by
  have hbest := bestOf_bestMatch (fun o : FocusAreaOverride => matchScore skillName o.skill)
    (fun o => some o.weightOverride) none focusAreas
  constructor
  · intro h
    cases h with
    | override h => rw [effectiveWeight, resolveOverrideForSkill, h.bestMatch_eq, Option.getD_some]
    | priority hnone h =>
      rw [effectiveWeight, resolveOverrideForSkill, bestMatch_of_no_match hnone, Option.getD_none,
        resolvePriorityForSkill, h.bestMatch_eq]
  · rintro rfl
    unfold effectiveWeight resolveOverrideForSkill
    generalize bestMatch (fun o : FocusAreaOverride => matchScore skillName o.skill)
      (fun o => some o.weightOverride) none focusAreas = found at hbest ⊢
    cases hbest with
    | first hsplit h => exact .override (.first hsplit h)
    | unmatched hnone => exact .priority hnone (bestOf_bestMatch _ _ _ _)

/-- An added override leaves the weights of all other skills as they are exactly if it is not the
best match of one of them, or the skill has the weight of the override already. -/
theorem override_affects_one_skill_iff (combined : JDAnalysisAndInterviewPlan)
    (front back : List FocusAreaOverride) (o : FocusAreaOverride) :
    (∀ s ∈ combined.interviewPlan.technicalSections,
      normalizeSkillKey s.skill ≠ normalizeSkillKey o.skill →
        effectiveWeight combined (front ++ o :: back) s.skill =
          effectiveWeight combined (front ++ back) s.skill) ↔
      ∀ s ∈ combined.interviewPlan.technicalSections,
        normalizeSkillKey s.skill ≠ normalizeSkillKey o.skill →
          Outranks (fun other : FocusAreaOverride => matchScore s.skill other.skill) front back o →
            SkillWeight combined (front ++ back) s.skill o.weightOverride := by
  have hsection (skillName : String) :
      effectiveWeight combined (front ++ o :: back) skillName =
          effectiveWeight combined (front ++ back) skillName ↔
        (Outranks (fun other : FocusAreaOverride => matchScore skillName other.skill) front back o →
          SkillWeight combined (front ++ back) skillName o.weightOverride) := by
    by_cases houtranks :
        Outranks (fun other : FocusAreaOverride => matchScore skillName other.skill) front back o
    · have hnew : effectiveWeight combined (front ++ o :: back) skillName = o.weightOverride :=
        skillWeight_iff.mp (.override (.first rfl houtranks))
      rw [hnew, skillWeight_iff, imp_iff_right houtranks, eq_comm]
    · have hsame : effectiveWeight combined (front ++ o :: back) skillName =
          effectiveWeight combined (front ++ back) skillName := by
        rw [effectiveWeight, effectiveWeight, resolveOverrideForSkill, resolveOverrideForSkill,
          bestMatch_insert_of_not houtranks]
      exact iff_of_true hsame fun h => absurd h houtranks
  simp only [hsection]

section Sample

/-- Two skills, one of whose names contains the other. -/
def sampleSkills : JDAnalysisAndInterviewPlan :=
  { sampleAnalysis [] with
    interviewPlan := { (sampleAnalysis []).interviewPlan with
      sections := [.technical (sampleTechnical "Java" []),
        .technical (sampleTechnical "JavaScript" [])] } }

omit [Runtime] in
theorem javaWeight_bounds : (0 : ℚ) ≤ 9 ∧ (9 : ℚ) ≤ 10 := by norm_num

omit [Runtime] in
/-- An override for Java changes the weight of JavaScript. -/
theorem override_reaches_other_skill :
    let _ : Runtime := .ascii
    let java : FocusAreaOverride := ⟨"java", 9, javaWeight_bounds⟩
    (sampleSkills.interviewPlan.technicalSections.map fun s =>
      (s.skill, decide (normalizeSkillKey s.skill = normalizeSkillKey java.skill))) =
        [("Java", true), ("JavaScript", false)] ∧
      (scoredSections sampleSkills []).map (·.effective) = [1, 1] ∧
      (scoredSections sampleSkills [java]).map (·.effective) = [9, 9] := by
  decide +kernel

end Sample

end IBotCoreApi
