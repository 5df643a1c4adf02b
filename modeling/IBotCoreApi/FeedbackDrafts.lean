import IBotCoreApi.AssessmentWorker
import IBotCoreApi.DecisionEmails
import IBotCoreApi.Ranking
import IBotCoreApi.RecruiterReads

namespace IBotCoreApi
open Python Pydantic Transactions RecruiterRequests EvaluationService

/-- `settings.GROQ_API_KEY` and `settings.FALLBACK_GROQ_API_KEY`. -/
structure GroqKeys where
  groqApiKey : String
  fallbackGroqApiKey : String

/-- The keys that are set, each once, as `dict.fromkeys` keeps them. -/
def GroqKeys.tried (keys : GroqKeys) : List String :=
  ([keys.groqApiKey, keys.fallbackGroqApiKey].filter (· ≠ "")).eraseDups

abbrev DraftModel := String → List ChatMessage → Except AttemptError (Option String)

/-- What the candidate's report tells the draft. -/
structure FeedbackEvidence where
  candidateName : String
  roleName : String
  assessmentTitle : String
  overallSummary : String
  recommendationReasoning : String
  strengths : List String
  concerns : List String

section Texts

variable [Runtime]

def firstName (candidateName : String) : String := (split (strip candidateName)).headD "there"

/-- `texts[0].strip()`, or what stands for it in an empty list. -/
def primary (texts : List String) (absent : String) : String := (texts.head?.map strip).getD absent

/-- `text.rstrip('.').lower()`. -/
def inSentence (text : String) : String :=
  Runtime.lower (String.ofList (text.toList.rdropWhile (· == '.')))

def feedbackFallback (decision : Decision) (evidence : FeedbackEvidence) : String :=
  let strength := inSentence (primary evidence.strengths
    "the time and preparation you brought to the interview")
  let concern := inSentence (primary evidence.concerns
    "showing more specific evidence and depth in future interview responses")
  "Thank you for the time and thought you put into the " ++ evidence.roleName ++ " interview, " ++
    firstName evidence.candidateName ++ match decision with
    | .approved => ". We were especially impressed by " ++ strength ++
        ". We are pleased to move forward with your application and look forward to continuing " ++
        "the conversation. Our recruiting team will contact you with the next steps and any " ++
        "additional details you need. We appreciate your interest in the opportunity and the " ++
        "preparation you brought to the interview."
    | .rejected => ". We appreciated " ++ strength ++
        ". After reviewing the interview evidence, we have decided not to move forward with " ++
        "your application at this stage. For future opportunities, we encourage you to focus on " ++
        concern ++ ". We appreciate your interest and wish you the best in your search."

end Texts

def feedbackSystemPrompt : Decision → String
  | .approved =>
    "You are an expert recruiting communications assistant. Write a warm, specific, " ++
    "candidate-facing approval message using only the provided interview evidence. Keep it " ++
    "between 70 and 120 words. Mention one or two genuine strengths, confirm that the candidate " ++
    "is moving forward, and say that the recruiting team will contact them with next steps. Do " ++
    "not mention scores, AI, models, internal recommendations, policy, integrity flags, or " ++
    "hidden evaluation criteria. Do not promise an offer, compensation, dates, or a guaranteed " ++
    "outcome. Return only the message with no heading, bullets, or quotation marks."
  | .rejected =>
    "You are an expert recruiting communications assistant. Write a warm, specific, " ++
    "candidate-facing rejection feedback paragraph using only the provided interview evidence. " ++
    "Keep it between 70 and 120 words. Mention one genuine strength and one or two constructive " ++
    "development areas. Do not mention scores, AI, models, internal recommendations, policy, " ++
    "integrity flags, or hidden evaluation criteria. Do not make promises or invite debate. " ++
    "Return only the feedback paragraph with no heading, bullets, or quotation marks."

/-- `'; '.join(texts[:4]) or 'Not specified'`. -/
def joinedOrAbsent (texts : List String) : String :=
  let joined := "; ".intercalate (texts.take 4)
  if joined = "" then "Not specified" else joined

def feedbackMessages (decision : Decision) (evidence : FeedbackEvidence) : List ChatMessage :=
  [⟨"system", feedbackSystemPrompt decision⟩,
    ⟨"user", "Decision: " ++ decision.text ++ "\n" ++
      "Candidate: " ++ evidence.candidateName ++ "\n" ++
      "Role: " ++ evidence.roleName ++ "\n" ++
      "Assessment: " ++ evidence.assessmentTitle ++ "\n" ++
      "Overall summary: " ++ evidence.overallSummary ++ "\n" ++
      "Recommendation reasoning: " ++ evidence.recommendationReasoning ++ "\n" ++
      "Strengths: " ++ joinedOrAbsent evidence.strengths ++ "\n" ++
      "Development areas: " ++ joinedOrAbsent evidence.concerns⟩]

/-- The draft in an answer; an exception and a blank answer have none. -/
def draftOf : Except AttemptError (Option String) → Option String
  | .error _ => none
  | .ok content =>
    let draft := strip (content.getD "")
    if draft = "" then none else some draft

/-- `text[:n]`. -/
def firstChars (n : ℕ) (text : String) : String := String.ofList (text.toList.take n)

/-- `RecruiterDecisionRequest.feedback`. -/
def decisionFeedback : Validator (Option String) := Pydantic.optional (strBetween 0 2000)

section Drafts

variable [Runtime]

def generateCandidateDecisionFeedback (keys : GroqKeys) (model : DraftModel) (decision : Decision)
    (evidence : FeedbackEvidence) : String :=
  -- without a key there is nothing to try, and the fallback is returned at once
  let draft := keys.tried.findSome? fun key =>
    draftOf (model key (feedbackMessages decision evidence))
  firstChars 2000 (draft.getD (feedbackFallback decision evidence))

namespace EvaluationService

omit [Runtime] in
def feedbackEvidence (db : RecruiterDatabase) (caId recruiterId : Uuid) :
    Except EvaluationException FeedbackEvidence := do
  let (ca, assessment) ← getOwnedCandidateAssessment db caId recruiterId "evaluation"
  match evaluationOf? db caId with
  | none => throw .evaluationNotFound
  | some evaluation => return {
      candidateName := ((db.candidate? ca.candidateId).map (·.fullName)).getD "Candidate"
      roleName := assessment.roleName
      assessmentTitle := assessment.title
      overallSummary := evaluation.report.overallSummary
      recommendationReasoning := evaluation.report.recommendationReasoning
      strengths := evaluation.report.strengths
      concerns := evaluation.report.concerns }

def createFeedback (decision : Decision) (keys : GroqKeys) (model : DraftModel)
    (db : RecruiterDatabase) (caId recruiterId : Uuid) : Except EvaluationException String :=
  -- the response is a schema that strips its texts
  (feedbackEvidence db caId recruiterId).map fun evidence =>
    trim (generateCandidateDecisionFeedback keys model decision evidence)

def createRejectionFeedback := createFeedback .rejected

def createApprovalFeedback := createFeedback .approved

end EvaluationService

end Drafts

section Visible

variable {text other : String}

def StartsVisible (text : String) : Prop :=
  ∃ c rest, text.toList = c :: rest ∧ isSpace c = false

theorem StartsVisible.append (h : StartsVisible text) : StartsVisible (text ++ other) := by
  obtain ⟨c, rest, htext, hvisible⟩ := h
  refine ⟨c, rest ++ other.toList, ?_, hvisible⟩
  rw [String.toList_append, htext, List.cons_append]

theorem startsVisible_strip (h : strip text ≠ "") : StartsVisible (strip text) := by
  have hhead := dropWhile_strip text
  cases hlist : (strip text).toList with
  | nil => exact absurd (String.toList_eq_nil_iff.mp hlist) h
  | cons c rest =>
    refine ⟨c, rest, hlist, ?_⟩
    rw [hlist, List.dropWhile_eq_self_iff] at hhead
    simpa using hhead (Nat.succ_pos _)

theorem startsVisible_draftOf {answer : Except AttemptError (Option String)}
    (h : draftOf answer = some text) : StartsVisible text := by
  cases answer with
  | error => cases h
  | ok content =>
    simp only [draftOf] at h
    split_ifs at h with hblank
    cases h
    exact startsVisible_strip hblank

theorem startsVisible_feedbackFallback [Runtime] (decision : Decision)
    (evidence : FeedbackEvidence) : StartsVisible (feedbackFallback decision evidence) := by
  unfold feedbackFallback
  dsimp only
  repeat apply StartsVisible.append
  exact ⟨'T', _, rfl, by decide⟩

theorem trim_firstChars_ne (h : StartsVisible text) {n : ℕ} (hn : 0 < n) :
    trim (firstChars n text) ≠ "" := by
  obtain ⟨c, rest, htext, hvisible⟩ := h
  have hwhite : isWhiteSpace c = false := by
    rw [isSpace, Bool.or_eq_false_iff] at hvisible
    exact hvisible.1
  obtain ⟨n, rfl⟩ := Nat.exists_eq_add_one_of_ne_zero hn.ne'
  have hcut : (firstChars (n + 1) text).toList = c :: rest.take n := by
    rw [firstChars, String.toList_ofList, htext, List.take_succ_cons]
  intro hempty
  have hlist := congrArg String.toList hempty
  rw [trim, String.toList_ofList, hcut, List.dropWhile_cons_of_neg (by simp [hwhite])] at hlist
  have hall := List.rdropWhile_eq_nil_iff.mp hlist c List.mem_cons_self
  rw [hwhite] at hall
  cases hall

theorem length_trim_le (text : String) : (trim text).length ≤ text.length := by
  rw [← String.length_toList, ← String.length_toList, trim, String.toList_ofList]
  exact (List.rdropWhile_prefix _ _).length_le.trans (List.dropWhile_sublist _).length_le

theorem length_firstChars_le (n : ℕ) (text : String) : (firstChars n text).length ≤ n := by
  rw [firstChars, ← String.length_toList, String.toList_ofList]
  exact List.length_take_le n _

theorem optional_str {α : Type} (v : Validator α) (text : String) :
    Pydantic.optional v (.str text) = (v (.str text)).map some := rfl

/-- The request takes a text of admitted length as it was trimmed. -/
theorem decisionFeedback_trim (h : text.length ≤ 2000) :
    decisionFeedback (.str (trim text)) = some (some (trim text)) := by
  have hlength : (trim text).length ≤ 2000 := (length_trim_le text).trans h
  have htrimmed : trim (trim text) = trim text := trim_trimmed text
  have hfield : strBetween 0 2000 (.str (trim text)) = some (trim text) := by
    simp [strBetween, constrained, Pydantic.str, htrimmed, hlength]
  rw [decisionFeedback, optional_str, hfield, Option.map_some]

end Visible

section Requests

open RecruiterReads RecruiterDatabase.Referenced

variable [Runtime] {decision : Decision} {keys : GroqKeys} {model : DraftModel}
  {db : RecruiterDatabase} {caId recruiterId : Uuid} {feedback : String}

/-- The draft is cut from the first answer that is not blank, or from the fallback. -/
theorem generateCandidateDecisionFeedback_cases (keys : GroqKeys) (model : DraftModel)
    (decision : Decision) (evidence : FeedbackEvidence) :
    ∃ text, generateCandidateDecisionFeedback keys model decision evidence = firstChars 2000 text ∧
      ((∃ earlier key later, keys.tried = earlier ++ key :: later ∧
          draftOf (model key (feedbackMessages decision evidence)) = some text ∧
          ∀ key ∈ earlier, draftOf (model key (feedbackMessages decision evidence)) = none) ∨
        text = feedbackFallback decision evidence ∧
          ∀ key ∈ keys.tried, draftOf (model key (feedbackMessages decision evidence)) = none) := by
  unfold generateCandidateDecisionFeedback
  dsimp only
  cases hdraft : keys.tried.findSome? fun key =>
      draftOf (model key (feedbackMessages decision evidence)) with
  | none => exact ⟨_, rfl, .inr ⟨rfl, List.findSome?_eq_none_iff.mp hdraft⟩⟩
  | some text => exact ⟨text, rfl, .inl (List.findSome?_eq_some_iff.mp hdraft)⟩

/-- Every draft is a feedback that the decision request takes as it is. -/
theorem draft_admitted (keys : GroqKeys) (model : DraftModel) (decision : Decision)
    (evidence : FeedbackEvidence) :
    let draft := trim (generateCandidateDecisionFeedback keys model decision evidence)
    draft ≠ "" ∧ decisionFeedback (.str draft) = some (some draft) := by
  intro draft
  obtain ⟨text, htext, hsource⟩ :=
    generateCandidateDecisionFeedback_cases keys model decision evidence
  have hvisible : StartsVisible text := by
    rcases hsource with ⟨_, _, _, _, hanswer, _⟩ | ⟨rfl, _⟩
    · exact startsVisible_draftOf hanswer
    · exact startsVisible_feedbackFallback decision evidence
  simp only [draft, htext]
  exact ⟨trim_firstChars_ne hvisible (by omega), decisionFeedback_trim (length_firstChars_le _ _)⟩

omit [Runtime] in
theorem feedbackEvidence_restrictTo (h : db.Referenced)
    (hmine : ∀ e, db.enrollment? caId = some e → db.owns recruiterId e) :
    feedbackEvidence (db.restrictTo recruiterId) caId recruiterId =
      feedbackEvidence db caId recruiterId := by
  unfold feedbackEvidence
  rw [getOwnedCandidateAssessment_restrictTo h hmine]
  cases hfound : getOwnedCandidateAssessment db caId recruiterId "evaluation" with
  | error => rfl
  | ok found =>
    obtain ⟨hrow, howned⟩ := getOwnedCandidateAssessment_eq_ok hfound
    simp only [Outcomes.ok_bind]
    rw [candidate?_of_owns (Tables.lookup_mem hrow) howned, evaluationOf?_restrictTo hrow howned]

omit [Runtime] in
theorem feedbackEvidence_foreign (h : db.Referenced) {e : RecruiterEnrollment}
    (hfound : db.enrollment? caId = some e) (hforeign : db.owns recruiterId e = false) :
    feedbackEvidence db caId recruiterId =
      .error (.accessDenied "You do not have access to this evaluation.") := by
  unfold feedbackEvidence
  rw [getOwnedCandidateAssessment_foreign h hfound hforeign]
  rfl

theorem createFeedback_eq_error {exception : EvaluationException} :
    createFeedback decision keys model db caId recruiterId = .error exception ↔
      feedbackEvidence db caId recruiterId = .error exception := by
  unfold createFeedback
  cases feedbackEvidence db caId recruiterId with
  | error => simp [Except.map]
  | ok => simp [Except.map]

theorem createFeedback_eq_ok
    (h : createFeedback decision keys model db caId recruiterId = .ok feedback) :
    ∃ evidence,
      trim (generateCandidateDecisionFeedback keys model decision evidence) = feedback := by
  unfold createFeedback at h
  cases hread : feedbackEvidence db caId recruiterId with
  | error =>
    rw [hread] at h
    cases h
  | ok evidence =>
    rw [hread] at h
    exact ⟨evidence, Except.ok.inj h⟩

/-- The request stores the decision with the feedback, and every task that it starts has both. -/
structure CarriesFeedback (p : RecruiterProgram) (db : RecruiterDatabase) (caId : Uuid)
    (decision : Decision) (feedback : String) : Prop where
  stored : ∃ e db', p.perform recruiterEngine db [] = .ok (.enrollment e, db', []) ∧
    db'.enrollment? caId = some e ∧ e.recruiterDecision = decision.text ∧
    e.recruiterFeedback = some feedback
  told : ∀ task ∈ (p.emitted recruiterEngine db).filterMap DecisionTask.ofEffect,
    task.caRecordId = caId ∧ task.decision = decision.text ∧ task.feedback = some feedback

omit [Runtime] in
theorem updateRecruiterDecision_carries (clock : Clock) (decision : Decision) (feedback : String)
    {e : RecruiterEnrollment} (hfound : db.enrollment? caId = some e)
    (howned : db.owns recruiterId e) :
    CarriesFeedback (updateRecruiterDecision clock caId recruiterId decision (some feedback)) db
      caId decision feedback := by
  have hid : e.id = caId := by simpa using List.find?_some hfound
  obtain ⟨a, ha, hmine⟩ := owns_iff.mp howned
  have haccepted : ∃ outcome, (updateRecruiterDecision clock caId recruiterId decision
      (some feedback)).perform recruiterEngine db [] = .ok outcome := by
    simp only [updateRecruiterDecision, getOwnedEnrollment]
    rw [Program.perform_select, getEnrollmentById, hfound, Option.map_some, ha]
    dsimp only
    rw [if_neg (not_not.mpr hmine)]
    split
    · exact ⟨_, rfl⟩
    · exact ⟨_, rfl⟩
  rcases updateRecruiterDecision_cases clock caId recruiterId decision (some feedback) db with
    ⟨error, hrefused, _⟩ | ⟨e', a', hfound', hstored, htold⟩
  · obtain ⟨outcome, hok⟩ := haccepted
    rw [hok] at hrefused
    cases hrefused
  · cases hfound.symm.trans hfound'
    refine ⟨⟨_, _, hstored, ?_, rfl, rfl⟩, ?_⟩
    · let decided := RecruiterWrite.decided clock decision.text (some feedback)
      have hlookup : (RecruiterWrite.apply db (.decide clock caId decision.text
          (some feedback))).enrollment? caId =
            (db.enrollment? caId).map (decided.onRow (·.id == caId)) :=
        Tables.lookup_updateWhere decided Prod.fst caId
      rw [hlookup, hfound, Option.map_some, Tables.Update.onRow, if_pos (beq_iff_eq.mpr hid)]
    · rw [htold]
      dsimp only
      intro task htask
      split at htask
      · rw [List.filterMap_cons, List.filterMap_nil] at htask
        cases List.mem_singleton.mp htask
        exact ⟨hid, rfl, rfl⟩
      · cases htask

/-- The draft for a decision is made of the recruiter's own rows and refused for another's
enrollment, whatever the language model does; it is never blank, and the request for the decision
takes it as it is, now or later, and stores and tells it. -/
theorem feedback_drafts_correct (h : db.Referenced) (decision : Decision) (keys : GroqKeys)
    (model : DraftModel) (caId recruiterId : Uuid) :
    ((∃ e, db.enrollment? caId = some e ∧ db.owns recruiterId e = false) →
      createFeedback decision keys model db caId recruiterId =
        .error (.accessDenied "You do not have access to this evaluation.")) ∧
    ((¬ ∃ e, db.enrollment? caId = some e ∧ db.owns recruiterId e = false) →
      createFeedback decision keys model db caId recruiterId =
        createFeedback decision keys model (db.restrictTo recruiterId) caId recruiterId) ∧
    (∀ exception, createFeedback decision keys model db caId recruiterId = .error exception →
      ∀ decision' keys' model',
        createFeedback decision' keys' model' db caId recruiterId = .error exception) ∧
    ∀ feedback, createFeedback decision keys model db caId recruiterId = .ok feedback →
      feedback ≠ "" ∧ decisionFeedback (.str feedback) = some (some feedback) ∧
      ∀ clock later e, later.enrollment? caId = some e → later.owns recruiterId e →
        CarriesFeedback (updateRecruiterDecision clock caId recruiterId decision (some feedback))
          later caId decision feedback := by
  refine ⟨?_, ?_, ?_, ?_⟩
  · rintro ⟨e, hfound, hforeign⟩
    exact createFeedback_eq_error.mpr (feedbackEvidence_foreign h hfound hforeign)
  · intro hnot
    unfold createFeedback
    rw [feedbackEvidence_restrictTo h]
    intro e hfound
    by_contra hother
    exact hnot ⟨e, hfound, by simpa using hother⟩
  · intro exception hrefused decision' keys' model'
    exact createFeedback_eq_error.mpr (createFeedback_eq_error.mp hrefused)
  · intro feedback hdraft
    obtain ⟨evidence, rfl⟩ := createFeedback_eq_ok hdraft
    obtain ⟨hblank, hadmitted⟩ := draft_admitted keys model decision evidence
    exact ⟨hblank, hadmitted, fun clock later e hfound howned =>
      updateRecruiterDecision_carries clock decision _ hfound howned⟩

end Requests

section Samples

def evaluatedCandidate : RecruiterDatabase :=
  { sharedCandidate with
    interviewEvaluations := [⟨60, 40, 50, sampleReport 8, none, none, none, 250⟩] }

def sampleEvidence : FeedbackEvidence where
  candidateName := "Ada Lovelace"
  roleName := (openAssessment 20 2 200 300).roleName
  assessmentTitle := (openAssessment 20 2 200 300).title
  overallSummary := "Solid."
  recommendationReasoning := "Consistent answers."
  strengths := []
  concerns := []

/-- The first key has no quota left. -/
def secondKeyOnly : DraftModel := fun key _ =>
  if key = "first" then .error (.other "429") else .ok (some " Well done.\n")

/-- The answer for the second key is the draft. -/
theorem feedback_drafts_correct_sample :
    let _ : Runtime := .ascii
    createApprovalFeedback ⟨"first", "second"⟩ secondKeyOnly evaluatedCandidate 40 2 =
        .ok "Well done." ∧
      CarriesFeedback (updateRecruiterDecision ⟨260, 260⟩ 40 2 .approved (some "Well done."))
        evaluatedCandidate 40 .approved "Well done." := by
  intro runtime
  have h : evaluatedCandidate.Referenced :=
    ⟨⟨by decide, by decide, by decide, by decide, by decide⟩, by decide⟩
  have hread : feedbackEvidence evaluatedCandidate 40 2 = .ok sampleEvidence := rfl
  have htext : trim (generateCandidateDecisionFeedback ⟨"first", "second"⟩ secondKeyOnly .approved
      sampleEvidence) = "Well done." := by
    decide +kernel
  have hdraft : createFeedback .approved ⟨"first", "second"⟩ secondKeyOnly evaluatedCandidate 40 2 =
      .ok "Well done." := by
    rw [createFeedback, hread, ← htext]
    rfl
  obtain ⟨_, _, _, hdrafts⟩ :=
    feedback_drafts_correct h .approved ⟨"first", "second"⟩ secondKeyOnly 40 2
  obtain ⟨_, _, hcarries⟩ := hdrafts _ hdraft
  exact ⟨hdraft, hcarries ⟨260, 260⟩ evaluatedCandidate _ rfl rfl⟩

end Samples

end IBotCoreApi
