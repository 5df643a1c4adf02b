import IBotCoreApi.FinalizedPlans
import IBotCoreApi.Library.Attempts
import IBotCoreApi.Library.Outcomes
import IBotCoreApi.StoredPlans

namespace IBotCoreApi
open Python Pydantic Outcomes

def maxJdCharsForAnalysis : ℕ := 8000

/-- `value.rstrip()`. -/
def rstrip (value : String) : String := String.ofList (value.toList.rdropWhile isSpace)

def truncateJdText (jdText : String) (maxChars : ℕ) : String :=
  let source := strip jdText
  if source.length ≤ maxChars then source
  else rstrip (String.ofList (source.toList.take maxChars))

/-- An exception in an attempt with its text: a `ValueError`, as `JSONDecodeError` and
`ValidationError` are, or another one. -/
inductive AttemptError where
  | valueError (text : String)
  | other (text : String)

def AttemptError.text : AttemptError → String
  | valueError text | other text => text

structure ChatMessage where
  role : String
  content : String

abbrev LanguageModel := ℕ → List ChatMessage → Except AttemptError (Option String)

/-- The fixed part of the prompts, and what they leave to `json` and to Pydantic. -/
class AnalysisPrompts where
  /-- `_combined_analysis_system_prompt()` with the output rules and the schema. -/
  systemPrompt : String
  /-- `json.dumps(…, ensure_ascii=True)`. -/
  dumps : Json → String
  /-- `json.loads`. -/
  loads : String → Except AttemptError Json
  /-- The text of the validation error for a payload. -/
  refusal : Json → String

structure PromptState where
  jdForPrompt : String
  repairNote : Option String

structure LlmAnalysisFailedException where
  message : String

/-- `f"{value:.1f}"` of a float that is not negative. -/
def oneDecimal (value : ℚ) : String :=
  let tenths := pyRound (value * 10)
  toString (tenths / 10) ++ "." ++ toString (tenths % 10)

def estimatedTechnicalMinutes (totalMins : ℤ) : ℚ :=
  let selfIntro : ℚ := min (totalMins / 10) (3 / 2)
  let behavioural : ℚ := totalMins / 10
  max (totalMins - selfIntro - behavioural) 0

section Prompts

variable [Runtime] [AnalysisPrompts]

def focusAreasForPrompt : Option (List FocusAreaOverride) → String
  | none | some [] => "[]"
  | some focusAreas =>
    AnalysisPrompts.dumps (.list (focusAreas.map FocusAreaOverride.modelDump))

def analysisUserPrompt (jdText : String) (durationMins : ℤ)
    (focusAreas : Option (List FocusAreaOverride)) : String :=
  let technicalMinutes := estimatedTechnicalMinutes durationMins
  let minPerSkill := minMinutesPerSkill durationMins technicalMinutes
  "Interview duration: " ++ toString durationMins ++ " minutes\n" ++
    "Estimated technical minutes available: " ++ oneDecimal technicalMinutes ++ "\n" ++
    "Minimum minutes per technical skill section: " ++ Runtime.floatRepr minPerSkill ++ "\n" ++
    "Focus area overrides as JSON: " ++ focusAreasForPrompt focusAreas ++ "\n\n" ++
    "Analyze this Job Description and generate the combined output.\n" ++
    "The interview_plan must be complete, time-balanced, and executable for this " ++
    "exact " ++ toString durationMins ++ "-minute duration.\n\n" ++ jdText

def combinedAnalysisMessages (userPrompt : String) (repairNote : Option String) :
    List ChatMessage :=
  [⟨"system", AnalysisPrompts.systemPrompt⟩, ⟨"user", userPrompt⟩] ++
    match repairNote with
    | none | some "" => []
    | some repairNote => [⟨"user", repairNote⟩]

end Prompts

def repairNoteFor (error : String) : String :=
  "Your previous JSON response failed validation. " ++ "Error: " ++ error ++ "\n" ++
    "Return a corrected JSON object only. Follow the schema exactly."

/-- `"413" in exc_text or "request too large" in exc_text`. -/
def requestTooLarge [Runtime] (text : String) : Bool :=
  let excText := (Runtime.lower text).toList
  decide ("413".toList <:+: excText) || decide ("request too large".toList <:+: excText)

section Attempts

variable [Runtime] [NumberText] [AnalysisPrompts] (jdText : String) (durationMins : ℤ)
  (focusAreas : Option (List FocusAreaOverride)) (groqClient : LanguageModel)

/-- What one request comes to: a finalized analysis, or an exception. -/
def analysisAnswer (attempt : ℕ) (s : PromptState) :
    Except AttemptError JDAnalysisAndInterviewPlan := do
  let rawContent ← groqClient attempt (combinedAnalysisMessages
    (analysisUserPrompt s.jdForPrompt durationMins focusAreas) s.repairNote)
  let parsedJson ← AnalysisPrompts.loads (rawContent.getD "")
  match JDAnalysisAndInterviewPlan.modelValidate parsedJson with
  | none => .error (.valueError (AnalysisPrompts.refusal parsedJson))
  | some combined =>
    (finalizeAnalysis combined durationMins focusAreas).mapError fun e => .valueError e.message

def afterFailure (s : PromptState) : AttemptError → PromptState
  | .valueError text => { s with repairNote := some (repairNoteFor text) }
  | .other text =>
    if requestTooLarge text && decide (4000 < s.jdForPrompt.length) then
      { jdForPrompt := truncateJdText jdText 4000, repairNote := none }
    else s

def analysisAttempt : Attempts.Attempt PromptState AttemptError JDAnalysisAndInterviewPlan :=
  fun attempt s =>
    (analysisAnswer durationMins focusAreas groqClient attempt s).mapError fun e =>
      (e, afterFailure jdText s e)

def firstPrompt : PromptState := ⟨truncateJdText jdText maxJdCharsForAnalysis, none⟩

/-- `str(last_exc)`. -/
def lastExcText : Option AttemptError → String
  | none => "None"
  | some e => e.text

def runJdAnalysisAndInterviewPlan :
    Except LlmAnalysisFailedException JDAnalysisAndInterviewPlan :=
  (Attempts.loop (analysisAttempt jdText durationMins focusAreas groqClient) 3 0 none
    (firstPrompt jdText)).mapError fun lastExc =>
      ⟨"Failed to analyze job description and generate interview plan: " ++ lastExcText lastExc⟩

/-- The states that the requests are made from. -/
def promptsMade : List PromptState :=
  Attempts.made (analysisAttempt jdText durationMins focusAreas groqClient) 3 0
    (firstPrompt jdText)

def promptAt (attempt : ℕ) : PromptState :=
  Attempts.stateAt (analysisAttempt jdText durationMins focusAreas groqClient) 0
    (firstPrompt jdText) attempt

def answerAt (attempt : ℕ) : Except AttemptError JDAnalysisAndInterviewPlan :=
  analysisAnswer durationMins focusAreas groqClient attempt
    (promptAt jdText durationMins focusAreas groqClient attempt)

end Attempts

section Truncation

variable {jdText : String} {m n : ℕ}

theorem toList_rstrip_isPrefix (value : String) : (rstrip value).toList <+: value.toList := by
  rw [rstrip, String.toList_ofList]
  exact List.rdropWhile_prefix isSpace _

theorem truncateJdText_isPrefix (jdText : String) (n : ℕ) :
    (truncateJdText jdText n).toList <+: (strip jdText).toList := by
  unfold truncateJdText
  dsimp only
  split
  · exact List.prefix_rfl
  · refine (toList_rstrip_isPrefix _).trans ?_
    rw [String.toList_ofList]
    exact List.take_prefix n _

theorem length_truncateJdText_le (jdText : String) (n : ℕ) :
    (truncateJdText jdText n).length ≤ n := by
  unfold truncateJdText
  dsimp only
  split
  · assumption
  · have hcut := (toList_rstrip_isPrefix (String.ofList ((strip jdText).toList.take n))).length_le
    rw [String.toList_ofList] at hcut
    rw [← String.length_toList]
    exact hcut.trans (List.length_take_le n _)

theorem truncateJdText_isPrefix_of_lt (h : m < (truncateJdText jdText n).length) :
    (truncateJdText jdText m).toList <+: (truncateJdText jdText n).toList := by
  refine List.prefix_of_prefix_length_le (truncateJdText_isPrefix jdText m)
    (truncateJdText_isPrefix jdText n) ?_
  rw [String.length_toList, String.length_toList]
  exact (length_truncateJdText_le jdText m).trans h.le

end Truncation

section Requests

variable [Runtime] [NumberText] [AnalysisPrompts] {jdText : String} {durationMins : ℤ}
  {focusAreas : Option (List FocusAreaOverride)} {groqClient : LanguageModel} {attempt : ℕ}
  {s s' : PromptState} {e : AttemptError} {result : JDAnalysisAndInterviewPlan}

theorem analysisAttempt_eq_ok :
    analysisAttempt jdText durationMins focusAreas groqClient attempt s = .ok result ↔
      analysisAnswer durationMins focusAreas groqClient attempt s = .ok result :=
  mapError_eq_ok

theorem analysisAttempt_eq_error :
    analysisAttempt jdText durationMins focusAreas groqClient attempt s = .error (e, s') ↔
      analysisAnswer durationMins focusAreas groqClient attempt s = .error e ∧
        s' = afterFailure jdText s e := by
  unfold analysisAttempt
  rw [mapError_eq_error]
  constructor
  · rintro ⟨e', he', heq⟩
    cases heq
    exact ⟨he', rfl⟩
  · rintro ⟨he, rfl⟩
    exact ⟨e, he, rfl⟩

theorem allFail_iff {k : ℕ} :
    Attempts.AllFail (analysisAttempt jdText durationMins focusAreas groqClient) 0
        (firstPrompt jdText) k ↔
      ∀ j < k, ∃ e, answerAt jdText durationMins focusAreas groqClient j = .error e := by
  refine forall₂_congr fun j _ => ?_
  unfold Attempts.Fails answerAt promptAt
  simp only [Nat.zero_add, analysisAttempt_eq_error, exists_and_left, exists_eq, and_true]

theorem analysisAnswer_eq_ok
    (h : analysisAnswer durationMins focusAreas groqClient attempt s = .ok result) :
    ∃ payload combined, JDAnalysisAndInterviewPlan.modelValidate payload = some combined ∧
      finalizeAnalysis combined durationMins focusAreas = .ok result := by
  unfold analysisAnswer at h
  obtain ⟨rawContent, _, h⟩ := bind_eq_ok.mp h
  obtain ⟨payload, _, h⟩ := bind_eq_ok.mp h
  cases hvalid : JDAnalysisAndInterviewPlan.modelValidate payload with
  | none =>
    rw [hvalid] at h
    cases h
  | some combined =>
    rw [hvalid] at h
    exact ⟨payload, combined, hvalid, mapError_eq_ok.mp h⟩

omit [NumberText] [AnalysisPrompts] in
/-- Finalizing a valid analysis gives a plan for the duration, of sections that validation could
have produced. -/
theorem finalizeAnalysis_finalized {combined : JDAnalysisAndInterviewPlan}
    (hadmitted : combined.Admitted) (hd : 2 ≤ durationMins)
    (h : finalizeAnalysis combined durationMins focusAreas = .ok result) :
    FinalizedPlan combined (focusAreas.getD []) durationMins result ∧
      ∀ s ∈ result.interviewPlan.sections, s.Admitted := by
  rw [finalizeAnalysis_eq combined focusAreas hd] at h
  by_cases htechnical : combined.interviewPlan.technicalSections = []
  · rw [if_pos htechnical] at h
    cases h
  · rw [if_neg htechnical] at h
    cases h
    exact ⟨finalized_plan hd htechnical, finalized_admitted hadmitted hd htechnical⟩

theorem runJdAnalysisAndInterviewPlan_eq_ok :
    runJdAnalysisAndInterviewPlan jdText durationMins focusAreas groqClient = .ok result ↔
      ∃ k < 3, (∀ j < k, ∃ e, answerAt jdText durationMins focusAreas groqClient j = .error e) ∧
        answerAt jdText durationMins focusAreas groqClient k = .ok result := by
  rw [runJdAnalysisAndInterviewPlan, mapError_eq_ok, Attempts.loop_eq_ok_iff]
  simp only [allFail_iff, analysisAttempt_eq_ok, Nat.zero_add]
  rfl

theorem runJdAnalysisAndInterviewPlan_finalizes
    (h : runJdAnalysisAndInterviewPlan jdText durationMins focusAreas groqClient = .ok result) :
    ∃ combined : JDAnalysisAndInterviewPlan, combined.Admitted ∧
      finalizeAnalysis combined durationMins focusAreas = .ok result := by
  obtain ⟨k, _, _, hanswer⟩ := runJdAnalysisAndInterviewPlan_eq_ok.mp h
  obtain ⟨payload, combined, hvalid, hfinalize⟩ := analysisAnswer_eq_ok hanswer
  exact ⟨combined, JDAnalysisAndInterviewPlan.modelValidate_admitted hvalid, hfinalize⟩

/-- The first of the three answers that is accepted is returned, and then it is a finalized plan for
the duration; where all three are refused the call fails with the exception of the last. -/
theorem runJdAnalysisAndInterviewPlan_correct (jdText : String) (durationMins : ℤ)
    (focusAreas : Option (List FocusAreaOverride)) (groqClient : LanguageModel)
    (hd : 2 ≤ durationMins ∧ durationMins ≤ 180) :
    let answer := answerAt jdText durationMins focusAreas groqClient
    let outcome := runJdAnalysisAndInterviewPlan jdText durationMins focusAreas groqClient
    (∀ result, outcome = .ok result ↔
      ∃ k < 3, (∀ j < k, ∃ e, answer j = .error e) ∧ answer k = .ok result) ∧
    (∀ result, outcome = .ok result → ∃ combined : JDAnalysisAndInterviewPlan,
      combined.Admitted ∧ FinalizedPlan combined (focusAreas.getD []) durationMins result ∧
        ∀ s ∈ result.interviewPlan.sections, s.Admitted) ∧
    (∀ exception, outcome = .error exception ↔
      (∀ j < 3, ∃ e, answer j = .error e) ∧ ∃ e, answer 2 = .error e ∧ exception =
        ⟨"Failed to analyze job description and generate interview plan: " ++ e.text⟩) := by
  dsimp only
  refine ⟨fun result => runJdAnalysisAndInterviewPlan_eq_ok, ?_, fun exception => ?_⟩
  · intro result hresult
    obtain ⟨combined, hadmitted, hfinalize⟩ := runJdAnalysisAndInterviewPlan_finalizes hresult
    exact ⟨combined, hadmitted, finalizeAnalysis_finalized hadmitted hd.1 hfinalize⟩
  · rw [runJdAnalysisAndInterviewPlan, mapError_eq_error]
    simp only [Attempts.loop_eq_error_iff, allFail_iff, analysisAttempt_eq_error, Nat.zero_add]
    constructor
    · rintro ⟨_, ⟨hall, e, _, ⟨he, _⟩, rfl⟩, rfl⟩
      exact ⟨hall, e, he, rfl⟩
    · rintro ⟨hall, e, he, rfl⟩
      exact ⟨some e, ⟨hall, e, _, ⟨he, rfl⟩, rfl⟩, rfl⟩

omit [Runtime] [NumberText] [AnalysisPrompts]

@[reducible] def AnalysisPrompts.sample : AnalysisPrompts where
  systemPrompt := "You are an expert technical recruiter."
  dumps _ := "[]"
  loads text :=
    if text = "{}" then .ok (samplePayload ["Typing", "Testing"])
    else .error (.valueError "Expecting value: line 1 column 1 (char 0)")
  refusal _ := "1 validation error for JDAnalysisAndInterviewPlan"

/-- A model that is busy at first, then answers in prose, and only then with an analysis. -/
def sampleModel : LanguageModel
  | 0, _ => .error (.other "Error code: 429")
  | 1, _ => .ok (some "Here is the analysis.")
  | _, _ => .ok (some "{}")

theorem runJdAnalysisAndInterviewPlan_sample :
    let _ : Runtime := .ascii
    let _ : NumberText := .ascii
    let _ : AnalysisPrompts := .sample
    ∃ result combined,
      runJdAnalysisAndInterviewPlan "Build the API." 30 none sampleModel = .ok result ∧
        combined.Admitted ∧ FinalizedPlan combined [] 30 result := by
  intro runtime numberText prompts
  have hreturns : (runJdAnalysisAndInterviewPlan "Build the API." 30 none
      sampleModel).toOption.isSome := by
    decide +kernel
  obtain ⟨result, hresult⟩ := Option.isSome_iff_exists.mp hreturns
  have hok := toOption_eq_some.mp hresult
  obtain ⟨combined, hadmitted, hfinalized, _⟩ :=
    (runJdAnalysisAndInterviewPlan_correct "Build the API." 30 none sampleModel
      (by decide)).2.1 result hok
  exact ⟨result, combined, hok, hadmitted, hfinalized⟩

end Requests

section Prompts

-- unfolding it would compare lengths with numerals
attribute [local irreducible] truncateJdText

variable [Runtime] [NumberText] [AnalysisPrompts] {jdText : String} {durationMins : ℤ}
  {focusAreas : Option (List FocusAreaOverride)} {groqClient : LanguageModel} {s s' : PromptState}
  {e : AttemptError}

/-- The request that follows one that failed. -/
inductive Follows (jdText : String) (s : PromptState) : AttemptError → PromptState → Prop
  | repaired (text : String) :
      Follows jdText s (.valueError text) { s with repairNote := some (repairNoteFor text) }
  | shortened {text : String} (hlarge : requestTooLarge text) (hlong : 4000 < s.jdForPrompt.length) :
      Follows jdText s (.other text) ⟨truncateJdText jdText 4000, none⟩
  | repeated {text : String} (h : ¬ (requestTooLarge text ∧ 4000 < s.jdForPrompt.length)) :
      Follows jdText s (.other text) s

omit [NumberText] [AnalysisPrompts] in
theorem follows_afterFailure (s : PromptState) (e : AttemptError) :
    Follows jdText s e (afterFailure jdText s e) := by
  cases e with
  | valueError text => exact .repaired text
  | other text =>
    rw [afterFailure]
    split
    · rename_i hcut
      obtain ⟨hlarge, hlong⟩ := Bool.and_eq_true_iff.mp hcut
      exact .shortened hlarge (of_decide_eq_true hlong)
    · rename_i hkept
      refine .repeated fun hcut => hkept ?_
      exact Bool.and_eq_true_iff.mpr ⟨hcut.1, decide_eq_true hcut.2⟩

/-- The text of a request is that of an earlier one, or its cut to 4000 characters. -/
def CutFrom (jdText : String) (s s' : PromptState) : Prop :=
  s'.jdForPrompt = s.jdForPrompt ∨
    4000 < s.jdForPrompt.length ∧ s'.jdForPrompt = truncateJdText jdText 4000

omit [NumberText] [AnalysisPrompts] in
theorem Follows.cutFrom (h : Follows jdText s e s') : CutFrom jdText s s' := by
  cases h with
  | repaired | repeated => exact .inl rfl
  | shortened _ hlong => exact .inr ⟨hlong, rfl⟩

omit [Runtime] [NumberText] [AnalysisPrompts] in
theorem CutFrom.trans {s₁ s₂ s₃ : PromptState} (h : CutFrom jdText s₁ s₂)
    (h' : CutFrom jdText s₂ s₃) : CutFrom jdText s₁ s₃ := by
  rcases h with hsame | ⟨hlong, hcut⟩
  · rw [CutFrom, ← hsame]
    exact h'
  · rcases h' with hsame | ⟨hlong', _⟩
    · exact .inr ⟨hlong, hsame.trans hcut⟩
    · -- a text that was cut is not long enough to be cut again
      have hshort := length_truncateJdText_le jdText 4000
      rw [← hcut] at hshort
      exact absurd hlong' hshort.not_gt

theorem promptsMade_text :
    ∀ s ∈ promptsMade jdText durationMins focusAreas groqClient,
      s.jdForPrompt = truncateJdText jdText 8000 ∨ s.jdForPrompt = truncateJdText jdText 4000 := by
  refine Attempts.made_invariant ?_ (.inl rfl)
  intro k s e s' hfails hs
  obtain ⟨_, rfl⟩ := analysisAttempt_eq_error.mp hfails
  have hfollows : Follows jdText s e (afterFailure jdText s e) := follows_afterFailure s e
  rcases hfollows.cutFrom with hsame | ⟨_, hcut⟩
  · rw [hsame]
    exact hs
  · exact .inr hcut

/-- At most three requests are made, each with a beginning of the description of at most 8000
characters.  It is cut at most once, to 4000 characters after a request that was too large; a
response that is not valid is asked for again with its error, and else a request is repeated. -/
theorem promptsMade_correct (jdText : String) (durationMins : ℤ)
    (focusAreas : Option (List FocusAreaOverride)) (groqClient : LanguageModel) :
    let prompts := promptsMade jdText durationMins focusAreas groqClient
    prompts.length ≤ 3 ∧
    (∀ s ∈ prompts, s.jdForPrompt.toList <+: (strip jdText).toList ∧
      s.jdForPrompt.length ≤ 8000) ∧
    prompts.Pairwise (fun s s' => s'.jdForPrompt = s.jdForPrompt ∨
      4000 < s.jdForPrompt.length ∧ s'.jdForPrompt.length ≤ 4000 ∧
        s'.jdForPrompt.toList <+: s.jdForPrompt.toList) ∧
    ∀ i s s', prompts[i]? = some s → prompts[i + 1]? = some s' →
      ∃ e, analysisAnswer durationMins focusAreas groqClient i s = .error e ∧
        Follows jdText s e s' := by
  dsimp only
  refine ⟨Attempts.length_made_le, ?_, ?_, ?_⟩
  · intro s hs
    have hcut := length_truncateJdText_le jdText 4000
    rcases promptsMade_text s hs with htext | htext
    · rw [htext]
      exact ⟨truncateJdText_isPrefix jdText 8000, length_truncateJdText_le jdText 8000⟩
    · rw [htext]
      exact ⟨truncateJdText_isPrefix jdText 4000, hcut.trans (by norm_num)⟩
  · have hcuts : (promptsMade jdText durationMins focusAreas groqClient).Pairwise
        (CutFrom jdText) := by
      refine Attempts.made_pairwise CutFrom.trans ?_
      intro k s e s' hfails
      obtain ⟨_, rfl⟩ := analysisAttempt_eq_error.mp hfails
      exact (follows_afterFailure s e).cutFrom
    refine hcuts.imp_of_mem fun {s s'} hs _ hcut => hcut.imp_right ?_
    rintro ⟨hlong, hcut⟩
    refine ⟨hlong, hcut ▸ length_truncateJdText_le jdText 4000, ?_⟩
    rcases promptsMade_text s hs with htext | htext
    · rw [htext] at hlong
      rw [hcut, htext]
      exact truncateJdText_isPrefix_of_lt hlong
    · rw [hcut, htext]
  · intro i s s' hs hs'
    obtain ⟨_, _, hat⟩ := Attempts.getElem?_made.mp hs
    obtain ⟨_, hfail, hat'⟩ := Attempts.getElem?_made.mp hs'
    obtain ⟨e, next, hattempt⟩ := hfail i (Nat.lt_succ_self i)
    rw [Attempts.stateAt, hattempt] at hat'
    rw [← hat, Nat.zero_add] at hattempt
    obtain ⟨hanswer, hnext⟩ := analysisAttempt_eq_error.mp hattempt
    refine ⟨e, hanswer, ?_⟩
    rw [hat', hnext]
    exact follows_afterFailure s e

end Prompts

end IBotCoreApi
