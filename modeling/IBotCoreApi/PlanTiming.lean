import IBotCoreApi.Library.Apportion
import IBotCoreApi.SkillMatching

namespace IBotCoreApi
open Python Sorting Apportion

/-- `int(value)` of a float. -/
def pyInt (value : ℚ) : ℤ := value.num.tdiv value.den

/-- `round(value)`: a half goes to the even neighbour. -/
def pyRound (value : ℚ) : ℤ :=
  if Int.fract value < 1 / 2 then ⌊value⌋
  else if 1 / 2 < Int.fract value then ⌊value⌋ + 1
  else if ⌊value⌋ % 2 = 0 then ⌊value⌋
  else ⌊value⌋ + 1

def minMinutesPerSkill (totalMins : ℤ) (technicalMinutes : ℚ) : ℚ :=
  if technicalMinutes ≤ 0 then 0
  else if totalMins ≤ 5 then 3 / 2
  else if totalMins ≤ 10 then 2
  else if totalMins ≤ 15 then 2
  else if totalMins ≤ 30 then 5 / 2
  else 3

def durationSoftCaps : List (ℤ × ℕ) :=
  [(2, 1), (3, 1), (4, 2), (5, 2), (8, 2), (10, 3), (15, 3), (20, 4), (30, 5), (45, 6), (60, 7)]

def targetSkillCount (totalMins : ℤ) (technicalMinutes : ℚ) : ℕ :=
  if technicalMinutes ≤ 0 then 0
  else
    let minPerSkill := minMinutesPerSkill totalMins technicalMinutes
    let hardCapByTime := max 1 ⌊technicalMinutes / minPerSkill⌋.toNat
    let softCap := ((durationSoftCaps.find? fun cap => totalMins ≤ cap.1).map (·.2)).getD 7
    max 1 (min hardCapByTime softCap)

section Allocation

/-- Equal shares of the extra units, the first ones greater by one. -/
def distributeEvenly (extraUnits : ℤ) (skillCount : ℕ) : List ℤ :=
  bump (List.range (extraUnits % skillCount).toNat)
    (List.replicate skillCount (extraUnits / skillCount))

/-- The extra units in proportion to the boosted weights, by largest remainder. -/
def distributeByWeight (extraUnits : ℤ) (boostedWeights : List ℚ) : List ℤ :=
  let scaled := boostedWeights.map fun weight => extraUnits * weight / boostedWeights.sum
  let distributed := scaled.map pyInt
  -- never negative, as every quota was rounded down
  let remainder := extraUnits - distributed.sum
  let order := sortedDown
    (fun index => toLex (scaled.getD index 0 - distributed.getD index 0,
      boostedWeights.getD index 0))
    (List.range boostedWeights.length)
  bump (order.take remainder.toNat) distributed

def allocateMinutesByWeight (totalMinutes : ℚ) (effectiveWeights : List ℚ)
    (minMinutesPerSkill : ℚ) : List ℚ :=
  let skillCount := effectiveWeights.length
  if skillCount = 0 then []
  else
    let totalUnits := pyRound (totalMinutes * 10)
    let minUnitsPerSkill := max 1 (pyRound (minMinutesPerSkill * 10))
    let baseUnits := minUnitsPerSkill * skillCount
    if totalUnits < baseUnits then
      let even := totalUnits / skillCount
      let remainder := totalUnits % skillCount
      (List.range skillCount).map fun index => (even + (if index < remainder then 1 else 0)) / 10
    else
      let extraUnits := totalUnits - baseUnits
      let boostedWeights := effectiveWeights.map fun weight => max weight 0 ^ 2
      let distributed :=
        if boostedWeights.sum ≤ 0 then distributeEvenly extraUnits skillCount
        else distributeByWeight extraUnits boostedWeights
      distributed.map fun extra => ((minUnitsPerSkill + extra : ℤ) : ℚ) / 10

end Allocation

def technicalUnits (totalMins : ℤ) : ℤ := totalMins * 10 - min totalMins 15 - totalMins

def technicalMinutes (totalMins : ℤ) : ℚ := technicalUnits totalMins / 10

structure ScoredSection where
  technical : TechnicalInterviewSection
  priority : ℚ
  effective : ℚ
  index : ℕ

/-- The sort key: weight, then priority, then the earlier position. -/
def ScoredSection.rank (s : ScoredSection) : ℚ ×ₗ ℚ ×ₗ ℤ :=
  toLex (s.effective, toLex (s.priority, -s.index))

def InterviewPlan.selfIntro? (p : InterviewPlan) : Option SelfIntroSection :=
  p.sections.findSome? fun
    | .selfIntro s => some s
    | _ => none

def InterviewPlan.behavioural? (p : InterviewPlan) : Option BehaviouralCulturalSection :=
  p.sections.findSome? fun
    | .behaviouralCultural s => some s
    | _ => none

/-- `BehaviouralCulturalSection(…)`, which validates its arguments. -/
def BehaviouralCulturalSection.create (allocatedMins : ℚ) (expectedSignals : List String) :
    BehaviouralCulturalSection where
  allocatedMins := allocatedMins
  expectedSignals := expectedSignals.map Pydantic.trim

/-- The intro of the plan, or a new one, with its minutes. -/
def introPart (combined : JDAnalysisAndInterviewPlan) (totalMins : ℤ) : SelfIntroSection :=
  { combined.interviewPlan.selfIntro?.getD {} with
    allocatedMins := ((min totalMins 15 : ℤ) : ℚ) / 10 }

/-- The behavioural section of the plan, or one from the first four signals of the analysis. -/
def behaviouralPart (combined : JDAnalysisAndInterviewPlan) (totalMins : ℤ) :
    BehaviouralCulturalSection :=
  { combined.interviewPlan.behavioural?.getD
      (.create (totalMins / 10) (combined.jdAnalysis.behaviouralSignals.take 4)) with
    allocatedMins := (totalMins : ℚ) / 10 }

/-- `section.allocated_mins = allocated`, in step. -/
def timedSections (selected : List ScoredSection) (allocations : List ℚ) :
    List TechnicalInterviewSection :=
  List.zipWith (fun s allocated => { s.technical with allocatedMins := allocated })
    selected allocations

variable [Runtime]

def scoredSections (combined : JDAnalysisAndInterviewPlan)
    (focusAreas : List FocusAreaOverride) : List ScoredSection :=
  combined.interviewPlan.technicalSections.zipIdx.map fun (technical, index) =>
    { technical
      priority := resolvePriorityForSkill combined technical.skill
      effective := effectiveWeight combined focusAreas technical.skill
      index }

def selectedSections (combined : JDAnalysisAndInterviewPlan)
    (focusAreas : List FocusAreaOverride) (totalMins : ℤ) : List ScoredSection :=
  (sortedDown ScoredSection.rank (scoredSections combined focusAreas)).take
    (targetSkillCount totalMins (technicalMinutes totalMins))

def technicalPart (combined : JDAnalysisAndInterviewPlan) (focusAreas : List FocusAreaOverride)
    (totalMins : ℤ) : List TechnicalInterviewSection :=
  let selected := selectedSections combined focusAreas totalMins
  timedSections selected
    (allocateMinutesByWeight (technicalMinutes totalMins) (selected.map (·.effective))
      (minMinutesPerSkill totalMins (technicalMinutes totalMins)))

def normalizeInterviewPlanTiming (combined : JDAnalysisAndInterviewPlan)
    (focusAreas : List FocusAreaOverride) : Except ValueError JDAnalysisAndInterviewPlan :=
  let totalMins := combined.interviewPlan.totalMins
  if combined.interviewPlan.technicalSections.isEmpty ∨ technicalUnits totalMins ≤ 0 then
    .error ⟨"Interview plan requires at least one technical section"⟩
  else
    .ok { combined with
      interviewPlan := { combined.interviewPlan with
        sections := .selfIntro (introPart combined totalMins) ::
          ((technicalPart combined focusAreas totalMins).map .technical ++
            [.behaviouralCultural (behaviouralPart combined totalMins)]) } }

def finalizeAnalysis (combined : JDAnalysisAndInterviewPlan) (durationMins : ℤ)
    (focusAreas : Option (List FocusAreaOverride)) :
    Except ValueError JDAnalysisAndInterviewPlan :=
  normalizeInterviewPlanTiming
    { combined with
      interviewPlan := { combined.interviewPlan with
        totalMins := durationMins
        inferredDifficulty := combined.jdAnalysis.inferredDifficulty } }
    (focusAreas.getD [])

end IBotCoreApi
