import IBotCoreApi.SkillMatching

namespace IBotCoreApi
open Python

variable [Runtime]

/-- The name is that of the skill, up to case and white space. -/
def NamesSkill (skillName name : String) : Prop :=
  normalizeSkillKey skillName ≠ "" ∧ normalizeSkillKey name = normalizeSkillKey skillName

section Score

variable {skillName name : String}

theorem matchScore_le (skillName name : String) : matchScore skillName name ≤ 3 := by
  unfold matchScore
  dsimp only
  split_ifs <;> omega

theorem matchScore_eq_three : matchScore skillName name = 3 ↔ NamesSkill skillName name := by
  unfold matchScore NamesSkill
  dsimp only
  by_cases hsame : normalizeSkillKey skillName ≠ "" ∧
      normalizeSkillKey skillName = normalizeSkillKey name
  · rw [if_pos hsame]
    exact iff_of_true rfl ⟨hsame.1, hsame.2.symm⟩
  · rw [if_neg hsame]
    refine iff_of_false ?_ fun h => hsame ⟨h.1, h.2.symm⟩
    split_ifs <;> decide

theorem matchScore_lt_three (h : ¬ NamesSkill skillName name) : matchScore skillName name < 3 :=
  lt_of_le_of_ne (matchScore_le skillName name) (mt matchScore_eq_three.mp h)

end Score

inductive ResolvesTo {α β : Type} (name : α → String) (value : α → β) (default : β)
    (skillName : String) (entries : List α) : β → Prop
  | exact {front back : List α} {entry : α} (hsplit : entries = front ++ entry :: back)
      (hnames : NamesSkill skillName (name entry))
      (hfirst : ∀ other ∈ front, ¬ NamesSkill skillName (name other)) :
      ResolvesTo name value default skillName entries (value entry)
  | similar {front back : List α} {entry : α} (hsplit : entries = front ++ entry :: back)
      (hnone : ∀ other ∈ entries, ¬ NamesSkill skillName (name other))
      (hpos : 0 < matchScore skillName (name entry))
      (hfront : ∀ other ∈ front,
        matchScore skillName (name other) < matchScore skillName (name entry))
      (hback : ∀ other ∈ back,
        matchScore skillName (name other) ≤ matchScore skillName (name entry)) :
      ResolvesTo name value default skillName entries (value entry)
  | unmatched (hzero : ∀ entry ∈ entries, matchScore skillName (name entry) = 0) :
      ResolvesTo name value default skillName entries default

section Resolution

variable {α β : Type} {name : α → String} {value : α → β} {default : β} {skillName : String}
  {entries : List α} {v : β}

theorem outranks_of_first_named {front back : List α} {entry : α}
    (hnames : NamesSkill skillName (name entry))
    (hfirst : ∀ other ∈ front, ¬ NamesSkill skillName (name other)) :
    Outranks (fun e => matchScore skillName (name e)) front back entry := by
  have hthree : matchScore skillName (name entry) = 3 := matchScore_eq_three.mpr hnames
  refine ⟨?_, ?_, ?_⟩
  · show 0 < matchScore skillName (name entry)
    omega
  · intro other hother
    dsimp only
    rw [hthree]
    exact matchScore_lt_three (hfirst other hother)
  · intro other _
    dsimp only
    rw [hthree]
    exact matchScore_le skillName (name other)

theorem ResolvesTo.bestOf (h : ResolvesTo name value default skillName entries v) :
    BestOf (fun e => matchScore skillName (name e)) value default entries v := by
  cases h with
  | exact hsplit hnames hfirst => exact .first hsplit (outranks_of_first_named hnames hfirst)
  | similar hsplit _ hpos hfront hback => exact .first hsplit ⟨hpos, hfront, hback⟩
  | unmatched hzero => exact .unmatched hzero

/-- The best match either has the skill's own name, and then no earlier entry has it, or no entry
has it at all. -/
theorem BestOf.resolvesTo
    (h : BestOf (fun e => matchScore skillName (name e)) value default entries v) :
    ResolvesTo name value default skillName entries v := by
  cases h with
  | unmatched hzero => exact .unmatched hzero
  | @first front back entry hsplit h =>
    obtain ⟨hpos, hfront, hback⟩ := h
    by_cases hnames : NamesSkill skillName (name entry)
    · refine .exact hsplit hnames fun other hother hothers => ?_
      have hlt := hfront other hother
      have hle := matchScore_le skillName (name entry)
      have hthree := matchScore_eq_three.mpr hothers
      dsimp only at hlt
      omega
    · -- an equal name anywhere would score higher
      have hlt := matchScore_lt_three hnames
      refine .similar hsplit (fun other hother hothers => ?_) hpos hfront hback
      have hthree := matchScore_eq_three.mpr hothers
      rw [hsplit, List.mem_append, List.mem_cons] at hother
      rcases hother with hbefore | rfl | hafter
      · have hbelow := hfront other hbefore
        dsimp only at hbelow
        omega
      · exact hnames hothers
      · have hbelow := hback other hafter
        dsimp only at hbelow
        omega

/-- The loop resolves a name as the specification does, which leaves it no choice. -/
theorem bestMatch_eq_iff_resolvesTo :
    bestMatch (fun e => matchScore skillName (name e)) value default entries = v ↔
      ResolvesTo name value default skillName entries v := by
  constructor
  · rintro rfl
    exact (bestOf_bestMatch _ value default entries).resolvesTo
  · intro h
    exact h.bestOf.bestMatch_eq

/-- The override and the priority of a skill are those of the first entry with its normalized name;
without one, of the first entry with the greatest positive score; else there is no override, and the
priority is 1. -/
theorem skill_resolution_iff (skillName : String) :
    (∀ (overrides : List FocusAreaOverride) (weight : Option ℚ),
      resolveOverrideForSkill skillName overrides = weight ↔
        ResolvesTo (·.skill) (fun o => some o.weightOverride) none skillName overrides weight) ∧
    ∀ (combined : JDAnalysisAndInterviewPlan) (priority : ℚ),
      resolvePriorityForSkill combined skillName = priority ↔
        ResolvesTo SkillPriority.skill SkillPriority.priorityScore 1 skillName
          combined.jdAnalysis.skills priority :=
  ⟨fun _ _ => bestMatch_eq_iff_resolvesTo, fun _ _ => bestMatch_eq_iff_resolvesTo⟩

/-- The second entry is an exact match, though the first one contains the name. -/
example : letI := Runtime.ascii
    bestMatch (matchScore "SQL " ·) (·.length) 0 ["sql server", " sql", "SQL", "mysql"] = 4 := by
  decide +kernel

end Resolution

end IBotCoreApi
