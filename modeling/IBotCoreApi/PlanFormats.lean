import IBotCoreApi.InterviewPlans
import IBotCoreApi.Library.Outcomes
import Mathlib.Data.Option.Basic

namespace IBotCoreApi
open Python Pydantic

/-- The constraints of `TechnicalQuestionBrief`. -/
structure TechnicalQuestionBrief.WellFormed (b : TechnicalQuestionBrief) : Prop where
  expectedSignals : Texts 2 4 b.expectedSignals
  roleResponsibility : Text 1 320 b.roleResponsibility
  operatingEnvironment : Text 1 240 b.operatingEnvironment
  importantTools : Texts 0 6 b.importantTools
  constraints : Texts 0 6 b.constraints
  seniorityDepth : Text 1 240 b.seniorityDepth
  outOfScopeTopics : Texts 0 6 b.outOfScopeTopics

theorem texts_nil (hi : ℕ) : Texts 0 hi [] := by simp [Texts]

theorem TechnicalQuestionBrief.format :
    Format TechnicalQuestionBrief.modelValidate TechnicalQuestionBrief.modelDump
      TechnicalQuestionBrief.WellFormed where
  accepted {j b} h := by
    cases j with
    | dict d =>
      simp only [modelValidate, Option.bind_eq_bind, Option.bind_eq_some_iff] at h
      obtain ⟨_, _, signals, hsignals, role, hrole, environment, henvironment, tools, htools,
        constraints, hconstraints, depth, hdepth, topics, htopics, heq⟩ := h
      cases heq
      exact {
        expectedSignals := (strsBetween_format 2 4).required hsignals
        roleResponsibility := (strBetween_format 1 320).required hrole
        operatingEnvironment := (strBetween_format 1 240).required henvironment
        importantTools := (strsBetween_format 0 6).defaulted (texts_nil 6) htools
        constraints := (strsBetween_format 0 6).defaulted (texts_nil 6) hconstraints
        seniorityDepth := (strBetween_format 1 240).required hdepth
        outOfScopeTopics := (strsBetween_format 0 6).defaulted (texts_nil 6) htopics }
    | _ => cases h
  reads {b} h := by
    have hsignals := (strsBetween_format 2 4).reads h.expectedSignals
    have hrole := (strBetween_format 1 320).reads h.roleResponsibility
    have henvironment := (strBetween_format 1 240).reads h.operatingEnvironment
    have htools := (strsBetween_format 0 6).reads h.importantTools
    have hconstraints := (strsBetween_format 0 6).reads h.constraints
    have hdepth := (strBetween_format 1 240).reads h.seniorityDepth
    have htopics := (strsBetween_format 0 6).reads h.outOfScopeTopics
    simp [modelDump, modelValidate, onlyKeys, required, defaulted, lookup_entry, hsignals, hrole,
      henvironment, htools, hconstraints, hdepth, htopics]

theorem questionBrief_format : Format (optional TechnicalQuestionBrief.modelValidate)
    (fun b => (b.map TechnicalQuestionBrief.modelDump).getD .null)
    (fun brief => ∀ b ∈ brief, b.WellFormed) :=
  TechnicalQuestionBrief.format.optional fun _ h => nomatch h

theorem TechnicalQuestionBrief.modelValidate_modelDump_signals {b b' : TechnicalQuestionBrief}
    (h : TechnicalQuestionBrief.modelValidate b.modelDump = some b')
    (htrimmed : ∀ signal ∈ b.expectedSignals, Trimmed signal) :
    2 ≤ b.expectedSignals.length ∧ b.expectedSignals.length ≤ 4 := by
  simp only [modelDump, modelValidate, Option.bind_eq_bind, Option.bind_eq_some_iff] at h
  obtain ⟨_, _, signals, hsignals, _⟩ := h
  obtain ⟨j, hj, hsignals⟩ := required_eq_some.mp hsignals
  cases hj
  obtain ⟨hread, hlength⟩ := Option.filter_eq_some_iff.mp hsignals
  rw [strs_format.reads htrimmed, Option.some.injEq] at hread
  subst hread
  simpa using hlength

variable [Runtime] [NumberText]

/-- What validation establishes of a technical section: its brief was well formed before the signals
of the section were mirrored into it. -/
structure TechnicalInterviewSection.Admitted (s : TechnicalInterviewSection) : Prop where
  skill : Trimmed s.skill
  sectionName : s.sectionName = s.skill
  notReserved : s.sectionName ∉ reservedNames
  allocatedMins : 0 < s.allocatedMins
  expectedSignals : ∀ signal ∈ s.expectedSignals, Trimmed signal
  questionBrief : ∀ b ∈ s.questionBrief, ∃ original : TechnicalQuestionBrief,
    original.WellFormed ∧ b = { original with expectedSignals := s.expectedSignals }

structure BehaviouralCulturalSection.WellFormed (s : BehaviouralCulturalSection) : Prop where
  allocatedMins : 0 < s.allocatedMins
  expectedSignals : ∀ signal ∈ s.expectedSignals, Trimmed signal

theorem minutes_format : Format (constrained float (0 < ·)) .float fun q => 0 < q :=
  (float_format.constrained _).congr fun q => by simp

theorem BehaviouralCulturalSection.format :
    Format BehaviouralCulturalSection.modelValidate BehaviouralCulturalSection.modelDump
      BehaviouralCulturalSection.WellFormed where
  accepted {j s} h := by
    cases j with
    | dict d =>
      simp only [modelValidate, Option.bind_eq_bind, Option.bind_eq_some_iff] at h
      obtain ⟨_, _, _, _, minutes, hminutes, signals, hsignals, heq⟩ := h
      cases heq
      exact {
        allocatedMins := minutes_format.required hminutes
        expectedSignals := strs_format.defaulted (by simp) hsignals }
    | _ => cases h
  reads {s} h := by
    have hminutes := minutes_format.reads h.allocatedMins
    have hsignals := strs_format.reads h.expectedSignals
    simp [modelDump, modelValidate, literal, null, required, defaulted, lookup_entry, hminutes,
      hsignals]

omit [Runtime] [NumberText] in
theorem TechnicalInterviewSection.validateTechnicalSection_eq_ok
    {s s' : TechnicalInterviewSection} : validateTechnicalSection s = .ok s' ↔
      s.sectionName ∉ reservedNames ∧ s.sectionName = s.skill ∧ s' = s.mirrored := by
  unfold validateTechnicalSection
  by_cases hreserved : s.sectionName ∈ reservedNames
  · simp [hreserved]
  · by_cases hname : s.sectionName = s.skill
    · rw [if_neg hreserved, if_neg (not_not_intro hname), Except.ok.injEq]
      exact ⟨fun h => ⟨hreserved, hname, h.symm⟩, fun h => h.2.2.symm⟩
    · simp [hreserved, hname]

theorem TechnicalInterviewSection.modelValidate_admitted {j : Json} {s : TechnicalInterviewSection}
    (h : TechnicalInterviewSection.modelValidate j = some s) : s.Admitted := by
  cases j with
  | dict d =>
    simp only [modelValidate, Option.bind_eq_bind, Option.bind_eq_some_iff, Outcomes.toOption_eq_some,
      validateTechnicalSection_eq_ok] at h
    obtain ⟨name, hname, skill, hskill, minutes, hminutes, signals, hsignals, brief, hbrief,
      hreserved, heq, rfl⟩ := h
    exact {
      skill := str_format.required hskill
      sectionName := heq
      notReserved := hreserved
      allocatedMins := minutes_format.required hminutes
      expectedSignals := strs_format.defaulted (by simp) hsignals
      questionBrief := by
        intro b hb
        obtain ⟨original, horiginal, rfl⟩ := Option.map_eq_some_iff.mp hb
        exact ⟨original, questionBrief_format.defaulted (by simp) hbrief original horiginal, rfl⟩ }
  | _ => cases h

omit [Runtime] [NumberText] in
theorem TechnicalInterviewSection.Admitted.mirrored_eq {s : TechnicalInterviewSection}
    (h : s.Admitted) : s.mirrored = s := by
  unfold mirrored
  congr 1
  cases hbrief : s.questionBrief with
  | none => rfl
  | some b =>
    obtain ⟨original, _, rfl⟩ := h.questionBrief b hbrief
    rfl

/-- A technical section is read back as it was stored exactly when its own number of signals is one
that a brief may have. -/
theorem TechnicalInterviewSection.Admitted.reads_iff {s : TechnicalInterviewSection}
    (h : s.Admitted) :
    TechnicalInterviewSection.modelValidate s.modelDump = some s ↔
      ∀ b ∈ s.questionBrief, 2 ≤ s.expectedSignals.length ∧ s.expectedSignals.length ≤ 4 := by
  have hskill := str_format.reads h.skill
  have hname : str (.str s.sectionName) = some s.sectionName := h.sectionName ▸ hskill
  have hminutes := minutes_format.reads h.allocatedMins
  have hsignals := strs_format.reads h.expectedSignals
  have hvalid (brief : Option TechnicalQuestionBrief) :
      validateTechnicalSection { s with questionBrief := brief } =
        .ok { s with questionBrief := brief }.mirrored :=
    validateTechnicalSection_eq_ok.mpr ⟨h.notReserved, h.sectionName, rfl⟩
  -- every other field is read back, so the brief decides
  have hfields : TechnicalInterviewSection.modelValidate s.modelDump =
      (optional TechnicalQuestionBrief.modelValidate
        ((s.questionBrief.map TechnicalQuestionBrief.modelDump).getD .null)).map fun brief =>
          { s with questionBrief := brief }.mirrored := by
    simp [modelDump, modelValidate, required, defaulted, lookup_entry, hname, hskill, hminutes,
      hsignals, hvalid, Except.toOption, Option.map_eq_bind]
  rw [hfields]
  constructor
  · intro hread b hb
    obtain ⟨original, _, rfl⟩ := h.questionBrief b hb
    rw [Option.mem_def.mp hb] at hread
    obtain ⟨_, hread, _⟩ := Option.map_eq_some_iff.mp hread
    obtain ⟨_, hread, _⟩ := Option.map_eq_some_iff.mp hread
    exact TechnicalQuestionBrief.modelValidate_modelDump_signals hread h.expectedSignals
  · intro hlength
    have hbrief : ∀ b ∈ s.questionBrief, b.WellFormed := by
      intro b hb
      obtain ⟨original, horiginal, rfl⟩ := h.questionBrief b hb
      exact { horiginal with expectedSignals := ⟨h.expectedSignals, hlength _ hb⟩ }
    rw [questionBrief_format.reads hbrief, Option.map_some]
    exact congrArg some h.mirrored_eq

theorem SelfIntroSection.modelValidate_modelDump (s : SelfIntroSection) :
    SelfIntroSection.modelValidate s.modelDump = some s := by
  simp [modelDump, modelValidate, literal, null, defaulted, lookup_entry, float]

namespace InterviewSection

theorem selfIntro_rejects {d : Json.Entries} {name : String}
    (hname : d.lookup "section_name" = some (.str name)) (hne : name ≠ "self_intro") :
    SelfIntroSection.modelValidate (.dict d) = none := by
  simp [SelfIntroSection.modelValidate, defaulted, hname, literal, lookup_entry, hne]

theorem behaviouralCultural_rejects {d : Json.Entries} {name : String}
    (hname : d.lookup "section_name" = some (.str name)) (hne : name ≠ "behavioural_cultural") :
    BehaviouralCulturalSection.modelValidate (.dict d) = none := by
  simp [BehaviouralCulturalSection.modelValidate, defaulted, hname, literal, lookup_entry, hne]

theorem technical_rejects {d : Json.Entries} (hskill : d.lookup "skill" = some .null) :
    TechnicalInterviewSection.modelValidate (.dict d) = none := by
  simp [TechnicalInterviewSection.modelValidate, required, hskill, str]

theorem modelValidate_selfIntro (s : SelfIntroSection) :
    InterviewSection.modelValidate (selfIntro s).modelDump = some (selfIntro s) := by
  have htechnical : TechnicalInterviewSection.modelValidate s.modelDump = none :=
    technical_rejects rfl
  have hbehavioural : BehaviouralCulturalSection.modelValidate s.modelDump = none :=
    behaviouralCultural_rejects rfl (by decide)
  have hothers : InterviewSection.modelValidate s.modelDump =
      (SelfIntroSection.modelValidate s.modelDump).map selfIntro := by
    rw [InterviewSection.modelValidate, smartUnion_cons_of_none, modelChoice_map_fst]
    simp [modelChoice_of_none htechnical, modelChoice_of_none hbehavioural]
  exact hothers.trans (congrArg (Option.map selfIntro) s.modelValidate_modelDump)

theorem modelValidate_technical (s : TechnicalInterviewSection)
    (h : s.sectionName ∉ TechnicalInterviewSection.reservedNames) :
    InterviewSection.modelValidate (technical s).modelDump =
      (TechnicalInterviewSection.modelValidate s.modelDump).map technical := by
  simp only [TechnicalInterviewSection.reservedNames, List.mem_cons, List.not_mem_nil, or_false,
    not_or] at h
  have hselfIntro : SelfIntroSection.modelValidate s.modelDump = none :=
    selfIntro_rejects rfl h.1
  have hbehavioural : BehaviouralCulturalSection.modelValidate s.modelDump = none :=
    behaviouralCultural_rejects rfl h.2
  change InterviewSection.modelValidate s.modelDump = _
  rw [InterviewSection.modelValidate, smartUnion_cons_none (modelChoice_of_none hselfIntro),
    smartUnion_cons_of_none, modelChoice_map_fst]
  simp [modelChoice_of_none hbehavioural]

theorem modelValidate_behaviouralCultural (s : BehaviouralCulturalSection) :
    InterviewSection.modelValidate (behaviouralCultural s).modelDump =
      (BehaviouralCulturalSection.modelValidate s.modelDump).map behaviouralCultural := by
  have hselfIntro : SelfIntroSection.modelValidate s.modelDump = none :=
    selfIntro_rejects rfl (by decide)
  have htechnical : TechnicalInterviewSection.modelValidate s.modelDump = none :=
    technical_rejects rfl
  change InterviewSection.modelValidate s.modelDump = _
  rw [InterviewSection.modelValidate, smartUnion_cons_none (modelChoice_of_none hselfIntro),
    smartUnion_cons_none (modelChoice_of_none htechnical), smartUnion_cons_of_none,
    modelChoice_map_fst]
  simp

/-- What validation establishes of a section. -/
def Admitted : InterviewSection → Prop
  | selfIntro _ => True
  | technical s => s.Admitted
  | behaviouralCultural s => s.WellFormed

theorem modelValidate_admitted {j : Json} {s : InterviewSection}
    (h : InterviewSection.modelValidate j = some s) : s.Admitted := by
  obtain ⟨choice, hchoice, set, hj⟩ := smartUnion_accepted h
  simp only [List.mem_cons, List.not_mem_nil, or_false] at hchoice
  rcases hchoice with rfl | rfl | rfl
  · obtain ⟨_, _, rfl⟩ := modelChoice_eq_some hj
    trivial
  · obtain ⟨_, hs, rfl⟩ := modelChoice_eq_some hj
    exact TechnicalInterviewSection.modelValidate_admitted hs
  · obtain ⟨_, hs, rfl⟩ := modelChoice_eq_some hj
    exact BehaviouralCulturalSection.format.accepted hs

/-- The sections that can be read back: the number of signals matters where there is a brief. -/
def Readable : InterviewSection → Prop
  | technical s =>
    ∀ b ∈ s.questionBrief, 2 ≤ s.expectedSignals.length ∧ s.expectedSignals.length ≤ 4
  | _ => True

theorem Admitted.reads_iff {s : InterviewSection} (h : s.Admitted) :
    InterviewSection.modelValidate s.modelDump = some s ↔ s.Readable := by
  cases s with
  | selfIntro s => exact iff_of_true (modelValidate_selfIntro s) trivial
  | technical s =>
    rw [modelValidate_technical s h.notReserved]
    refine Iff.trans ?_ (TechnicalInterviewSection.Admitted.reads_iff h)
    simp
  | behaviouralCultural s =>
    refine iff_of_true ?_ trivial
    rw [modelValidate_behaviouralCultural, BehaviouralCulturalSection.format.reads h,
      Option.map_some]

end InterviewSection

/-- A plan of admitted sections is read back exactly when each of them is. -/
theorem InterviewPlan.reads_iff {p : InterviewPlan} (h : ∀ s ∈ p.sections, s.Admitted) :
    InterviewPlan.modelValidate p.modelDump = some p ↔ ∀ s ∈ p.sections, s.Readable := by
  have hdifficulty := InferredDifficulty.format.reads (a := p.inferredDifficulty) trivial
  have hfields : InterviewPlan.modelValidate p.modelDump =
      (items InterviewSection.modelValidate (p.sections.map InterviewSection.modelDump)).map
        fun sections => { p with sections } := by
    simp [modelDump, modelValidate, required, lookup_entry, int, hdifficulty, list,
      Option.map_eq_bind]
  have hsections : InterviewPlan.modelValidate p.modelDump = some p ↔
      items InterviewSection.modelValidate (p.sections.map InterviewSection.modelDump) =
        some p.sections := by
    rw [hfields, Option.map_eq_some_iff]
    constructor
    · rintro ⟨sections, hsections, heq⟩
      rw [hsections, ← heq]
    · intro hsections
      exact ⟨p.sections, hsections, rfl⟩
  rw [hsections, items_reads_iff]
  exact forall₂_congr fun s hs => (h s hs).reads_iff

theorem InterviewPlan.modelValidate_admitted {j : Json} {p : InterviewPlan}
    (h : InterviewPlan.modelValidate j = some p) : ∀ s ∈ p.sections, s.Admitted := by
  cases j with
  | dict d =>
    simp only [modelValidate, Option.bind_eq_bind, Option.bind_eq_some_iff] at h
    obtain ⟨_, _, _, _, sections, hsections, heq⟩ := h
    cases heq
    obtain ⟨j, _, hsections⟩ := required_eq_some.mp hsections
    cases j with
    | list js => exact items_accepted InterviewSection.modelValidate_admitted hsections
    | _ => cases hsections
  | _ => cases h

section Combined

theorem SkillPriority.format : Format SkillPriority.modelValidate SkillPriority.modelDump
    fun s => Trimmed s.skill ∧ Trimmed s.reasoning where
  accepted {j s} h := by
    cases j with
    | dict d =>
      simp only [modelValidate, Option.bind_eq_bind, Option.bind_eq_some_iff] at h
      obtain ⟨skill, hskill, priority, _, reasoning, hreasoning, h⟩ := h
      split at h
      · cases h
        exact ⟨str_format.required hskill, str_format.required hreasoning⟩
      · cases h
    | _ => cases h
  reads {s} h := by
    have hskill := str_format.reads h.1
    have hreasoning := str_format.reads h.2
    simp [modelDump, modelValidate, required, lookup_entry, float, hskill, hreasoning,
      s.priority_bounds]

structure JDAnalysis.WellFormed (a : JDAnalysis) : Prop where
  skills : ∀ s ∈ a.skills, Trimmed s.skill ∧ Trimmed s.reasoning
  behaviouralSignals : ∀ signal ∈ a.behaviouralSignals, Trimmed signal

theorem JDAnalysis.format :
    Format JDAnalysis.modelValidate JDAnalysis.modelDump JDAnalysis.WellFormed where
  accepted {j a} h := by
    cases j with
    | dict d =>
      simp only [modelValidate, Option.bind_eq_bind, Option.bind_eq_some_iff] at h
      obtain ⟨_, _, skills, hskills, signals, hsignals, heq⟩ := h
      cases heq
      exact {
        skills := SkillPriority.format.list.required hskills
        behaviouralSignals := strs_format.defaulted (by simp) hsignals }
    | _ => cases h
  reads {a} h := by
    have hdifficulty := InferredDifficulty.format.reads (a := a.inferredDifficulty) trivial
    have hskills := SkillPriority.format.list.reads h.skills
    have hsignals := strs_format.reads h.behaviouralSignals
    simp [modelDump, modelValidate, required, defaulted, lookup_entry, hdifficulty, hskills, hsignals]

structure JDAnalysisAndInterviewPlan.Admitted (combined : JDAnalysisAndInterviewPlan) : Prop where
  analysis : combined.jdAnalysis.WellFormed
  sections : ∀ s ∈ combined.interviewPlan.sections, s.Admitted
  briefs : ∀ s ∈ combined.interviewPlan.technicalSections, s.questionBrief.isSome

theorem JDAnalysisAndInterviewPlan.modelValidate_admitted {payload : Json}
    {combined : JDAnalysisAndInterviewPlan}
    (h : JDAnalysisAndInterviewPlan.modelValidate payload = some combined) : combined.Admitted := by
  unfold modelValidate at h
  split at h
  · simp only [Option.bind_eq_bind, Option.bind_eq_some_iff, Outcomes.toOption_eq_some] at h
    obtain ⟨analysis, hanalysis, plan, hplan, h⟩ := h
    obtain ⟨_, _, hplan⟩ := required_eq_some.mp hplan
    simp only [syncInterviewPlanDifficulty] at h
    split at h
    · next hbriefs =>
      cases h
      have hsections := InterviewPlan.modelValidate_admitted hplan
      refine ⟨JDAnalysis.format.required hanalysis, hsections, ?_⟩
      intro s hs
      by_contra hnone
      have hmissing : s ∈ plan.technicalSections.filter (·.questionBrief.isNone) :=
        List.mem_filter.mpr ⟨hs, by simpa using hnone⟩
      have hskill := List.mem_map_of_mem (f := TechnicalInterviewSection.skill) hmissing
      exact List.not_mem_nil (List.isEmpty_iff.mp hbriefs ▸ hskill)
    · cases h
  · cases h

end Combined

end IBotCoreApi
