import IBotCoreApi.Assessments
import IBotCoreApi.InterviewPlans
import Mathlib.Data.List.Infix

namespace IBotCoreApi
open Python

/-- `str.isspace` of one character: Unicode white space and the four separators. -/
def isSpace (c : Char) : Bool :=
  Pydantic.isWhiteSpace c || (0x1C ≤ c.toNat && c.toNat ≤ 0x1F)

/-- `value.strip()`. -/
def strip (value : String) : String :=
  String.ofList ((value.toList.dropWhile isSpace).rdropWhile isSpace)

/-- The longest runs of characters in a class. -/
def runsOf (p : Char → Bool) (value : String) : List String :=
  ((value.toList.splitOnP (! p ·)).filter (! ·.isEmpty)).map String.ofList

/-- `value.split()`. -/
def split (value : String) : List String := runsOf (! isSpace ·) value

/-- `[a-z0-9\+#\.]`. -/
def isTokenChar (c : Char) : Bool :=
  ('a' ≤ c && c ≤ 'z') || ('0' ≤ c && c ≤ '9') || c == '+' || c == '#' || c == '.'

variable [Runtime]

def normalizeSkillKey (value : String) : String :=
  " ".intercalate (split (Runtime.lower (strip value)))

def skillAliasTokens (value : String) : List String :=
  let normalized := normalizeSkillKey value
  if normalized = "" then []
  else
    let tokens := runsOf isTokenChar normalized ++ [normalized]
    let aliases := ["sql", "structured query language"]
    (if normalized ∈ aliases then tokens ++ aliases else tokens).filter (· != "")

/-- 3 for equal keys, 2 for a shared token, 1 where one key contains the other, else 0. -/
def matchScore (left right : String) : ℕ :=
  let leftKey := normalizeSkillKey left
  let rightKey := normalizeSkillKey right
  if leftKey ≠ "" ∧ leftKey = rightKey then 3
  else if (skillAliasTokens left).any (skillAliasTokens right).contains then 2
  else if leftKey ≠ "" ∧ rightKey ≠ "" ∧
      (leftKey.toList <:+: rightKey.toList ∨ rightKey.toList <:+: leftKey.toList) then 1
  else 0

omit [Runtime] in
/-- One candidate of the loop: it replaces the best value so far only with a higher score. -/
def betterMatch {α β : Type} (score : α → ℕ) (value : α → β) (best : β × ℕ) (candidate : α) :
    β × ℕ :=
  if score candidate > best.2 then (value candidate, score candidate) else best

omit [Runtime] in
/-- The value of the first candidate with the highest score, or a default where all score 0. -/
def bestMatch {α β : Type} (score : α → ℕ) (value : α → β) (default : β) (candidates : List α) :
    β :=
  (candidates.foldl (betterMatch score value) (default, 0)).1

def resolveOverrideForSkill (skillName : String) (overrides : List FocusAreaOverride) : Option ℚ :=
  bestMatch (fun o => matchScore skillName o.skill) (fun o => some o.weightOverride) none overrides

def resolvePriorityForSkill (combined : JDAnalysisAndInterviewPlan) (skillName : String) : ℚ :=
  bestMatch (fun s => matchScore skillName s.skill) SkillPriority.priorityScore 1
    combined.jdAnalysis.skills

def effectiveWeight (combined : JDAnalysisAndInterviewPlan) (focusAreas : List FocusAreaOverride)
    (skillName : String) : ℚ :=
  (resolveOverrideForSkill skillName focusAreas).getD (resolvePriorityForSkill combined skillName)

example : letI := Runtime.ascii
    (matchScore " Python " "python", matchScore "SQL" "Structured  query language",
      matchScore "Java" "JavaScript", matchScore "C++" "Rust") = (3, 2, 1, 0) := by
  decide +kernel

section BestMatch

variable {α β : Type} {score : α → ℕ} {value : α → β} {default : β} {candidates : List α}

omit [Runtime] in
theorem foldl_betterMatch_of_le {best : β × ℕ} (h : ∀ c ∈ candidates, score c ≤ best.2) :
    candidates.foldl (betterMatch score value) best = best := by
  induction candidates with
  | nil => rfl
  | cons c candidates ih =>
    rw [List.forall_mem_cons] at h
    rw [List.foldl_cons, betterMatch, if_neg h.1.not_gt]
    exact ih h.2

omit [Runtime] in
theorem foldl_betterMatch_score {best : β × ℕ} {bound : ℕ} (hbest : best.2 < bound)
    (h : ∀ c ∈ candidates, score c < bound) :
    (candidates.foldl (betterMatch score value) best).2 < bound := by
  induction candidates generalizing best with
  | nil => exact hbest
  | cons c candidates ih =>
    rw [List.forall_mem_cons] at h
    rw [List.foldl_cons]
    apply ih _ h.2
    unfold betterMatch
    split
    · exact h.1
    · exact hbest

omit [Runtime] in
theorem bestMatch_of_first_highest {front back : List α} {c : α} (hpos : 0 < score c)
    (hfront : ∀ other ∈ front, score other < score c)
    (hback : ∀ other ∈ back, score other ≤ score c) :
    bestMatch score value default (front ++ c :: back) = value c := by
  have hbefore : (front.foldl (betterMatch score value) (default, 0)).2 < score c :=
    foldl_betterMatch_score hpos hfront
  unfold bestMatch
  rw [List.foldl_append, List.foldl_cons, betterMatch, if_pos hbefore,
    foldl_betterMatch_of_le hback]

omit [Runtime] in
theorem bestMatch_of_no_match (h : ∀ c ∈ candidates, score c = 0) :
    bestMatch score value default candidates = default :=
  congrArg Prod.fst (foldl_betterMatch_of_le fun c hc => (h c hc).le)

/-- Within the list `front ++ c :: back`, the candidate `c` is the first with the highest score. -/
def Outranks (score : α → ℕ) (front back : List α) (c : α) : Prop :=
  0 < score c ∧ (∀ other ∈ front, score other < score c) ∧ ∀ other ∈ back, score other ≤ score c

omit [Runtime] in
theorem le_foldl_betterMatch (score : α → ℕ) (value : α → β) (candidates : List α) (best : β × ℕ) :
    best.2 ≤ (candidates.foldl (betterMatch score value) best).2 ∧
      ∀ c ∈ candidates, score c ≤ (candidates.foldl (betterMatch score value) best).2 := by
  induction candidates generalizing best with
  | nil => simp
  | cons c candidates ih =>
    obtain ⟨hbest, hall⟩ := ih (betterMatch score value best c)
    have hstep : best.2 ≤ (betterMatch score value best c).2 ∧
        score c ≤ (betterMatch score value best c).2 := by
      unfold betterMatch
      split
      · next hbetter => exact ⟨hbetter.le, le_rfl⟩
      · next hworse => exact ⟨le_rfl, not_lt.mp hworse⟩
    rw [List.foldl_cons, List.forall_mem_cons]
    exact ⟨hstep.1.trans hbest, hstep.2.trans hbest, hall⟩

omit [Runtime] in
theorem foldl_betterMatch_eq {best best' : β × ℕ}
    (h : ∃ c ∈ candidates, best.2 < score c ∧ best'.2 < score c) :
    candidates.foldl (betterMatch score value) best =
      candidates.foldl (betterMatch score value) best' := by
  induction candidates generalizing best best' with
  | nil =>
    obtain ⟨c, hc, _⟩ := h
    cases hc
  | cons c candidates ih =>
    obtain ⟨winner, hwinner, hlt, hlt'⟩ := h
    rw [List.foldl_cons, List.foldl_cons]
    by_cases hboth : best.2 < score c ∧ best'.2 < score c
    · rw [betterMatch, betterMatch, if_pos hboth.1, if_pos hboth.2]
    · have hlater : winner ∈ candidates := by
        rcases List.mem_cons.mp hwinner with rfl | hlater
        · exact absurd ⟨hlt, hlt'⟩ hboth
        · exact hlater
      -- whichever of the two takes `c`, the winner still scores higher
      have hstep (b other : β × ℕ) (hb : b.2 < score winner) (hother : other.2 < score winner)
          (hkept : ¬ (b.2 < score c ∧ other.2 < score c)) :
          (betterMatch score value b c).2 < score winner := by
        unfold betterMatch
        split
        · next hbetter =>
          exact (not_lt.mp fun hc => hkept ⟨hbetter, hc⟩).trans_lt hother
        · exact hb
      exact ih ⟨winner, hlater, hstep best best' hlt hlt' hboth,
        hstep best' best hlt' hlt fun hc => hboth hc.symm⟩

omit [Runtime] in
/-- A candidate that does not outrank the others leaves the best match as it is. -/
theorem bestMatch_insert_of_not {front back : List α} {c : α}
    (h : ¬ Outranks score front back c) :
    bestMatch score value default (front ++ c :: back) =
      bestMatch score value default (front ++ back) := by
  unfold bestMatch
  rw [List.foldl_append, List.foldl_append, List.foldl_cons]
  obtain ⟨hzero, hfront⟩ := le_foldl_betterMatch score value front (default, 0)
  generalize front.foldl (betterMatch score value) (default, 0) = best at hzero hfront
  by_cases hbetter : score c > best.2
  · have hlater : ∃ other ∈ back, score c < score other := by
      by_contra! hback
      exact h ⟨hzero.trans_lt hbetter, fun other hother => (hfront other hother).trans_lt hbetter,
        hback⟩
    obtain ⟨other, hother, hlt⟩ := hlater
    rw [betterMatch, if_pos hbetter]
    exact congrArg Prod.fst (foldl_betterMatch_eq ⟨other, hother, hlt, hbetter.trans hlt⟩)
  · rw [betterMatch, if_neg hbetter]

/-- What a list of candidates comes to: the value of the first one with the highest score, or the
default where none matches. -/
inductive BestOf (score : α → ℕ) (value : α → β) (default : β) (candidates : List α) : β → Prop
  | first {front back : List α} {c : α} (hsplit : candidates = front ++ c :: back)
      (h : Outranks score front back c) : BestOf score value default candidates (value c)
  | unmatched (h : ∀ c ∈ candidates, score c = 0) :
      BestOf score value default candidates default

omit [Runtime] in
theorem BestOf.bestMatch_eq {v : β} (h : BestOf score value default candidates v) :
    bestMatch score value default candidates = v := by
  cases h with
  | first hsplit h =>
    rw [hsplit]
    exact bestMatch_of_first_highest h.1 h.2.1 h.2.2
  | unmatched h => exact bestMatch_of_no_match h

omit [Runtime] in
theorem bestOf_bestMatch (score : α → ℕ) (value : α → β) (default : β) (candidates : List α) :
    BestOf score value default candidates (bestMatch score value default candidates) := by
  by_cases hnone : ∀ c ∈ candidates, score c = 0
  · rw [bestMatch_of_no_match hnone]
    exact .unmatched hnone
  · -- the first candidate with the greatest score
    induction candidates using List.reverseRecOn with
    | nil => simp at hnone
    | append_singleton candidates last ih =>
      by_cases hlast : Outranks score candidates [] last
      · rw [bestMatch_of_first_highest hlast.1 hlast.2.1 hlast.2.2]
        exact .first rfl hlast
      · have hsame : bestMatch score value default (candidates ++ [last]) =
            bestMatch score value default candidates := by
          rw [bestMatch_insert_of_not hlast, List.append_nil]
        have hbefore : ¬ ∀ c ∈ candidates, score c = 0 := by
          intro hzero
          have hpos : 0 < score last := by
            by_contra hlastZero
            refine hnone fun c hc => ?_
            rcases List.mem_append.mp hc with hold | hnew
            · exact hzero c hold
            · rw [List.mem_singleton.mp hnew]
              omega
          exact hlast ⟨hpos, fun other hother => hzero other hother ▸ hpos, by simp⟩
        rw [hsame]
        generalize bestMatch score value default candidates = v at ih ⊢
        cases ih hbefore with
        | unmatched hzero => exact absurd hzero hbefore
        | @first front back c hsplit h =>
          have hle : score last ≤ score c := by
            by_contra! hlt
            refine hlast ⟨h.1.trans hlt, fun other hother => ?_, by simp⟩
            rw [hsplit] at hother
            rcases List.mem_append.mp hother with hfront | hrest
            · exact (h.2.1 other hfront).trans hlt
            · rcases List.mem_cons.mp hrest with rfl | hback
              · exact hlt
              · exact (h.2.2 other hback).trans_lt hlt
          have hsplit' : candidates ++ [last] = front ++ c :: (back ++ [last]) := by
            rw [hsplit, List.append_assoc, List.cons_append]
          refine .first hsplit' ⟨h.1, h.2.1, List.forall_mem_append.mpr ⟨h.2.2, ?_⟩⟩
          exact List.forall_mem_singleton.mpr hle

end BestMatch

end IBotCoreApi
