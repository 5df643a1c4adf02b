import IBotCoreApi.EvaluationService
import IBotCoreApi.TranscriptAppends

namespace IBotCoreApi
open Python Pydantic Outcomes KeyedAppends

/-- `TranscriptTurn`, a single turn in the interview transcript. -/
structure TranscriptTurn where
  turnNumber : ℤ
  turnId : Option String
  speaker : String
  text : String
  tone : Option String
  timestamp : Option String
  elapsedSecs : Option ℤ
  questionId : Option String
  sectionName : Option String
  skill : Option String
  difficulty : Option String
  questionType : Option String
  responseType : Option String
deriving DecidableEq

structure InterviewTranscriptResponse where
  candidateAssessmentId : Uuid
  candidateName : Option String
  assessmentTitle : Option String
  totalElapsedSecs : ℤ
  turns : List TranscriptTurn

namespace EvaluationService

/-- `raw_turn.get(key, default)`. -/
def getOr (rawTurn : Json.Entries) (key : String) (default : Json) : Json :=
  (rawTurn.lookup key).getD default

variable [Runtime]

/-- `_first_string`: the first true value, as a text. -/
def firstString (values : List Json) : Option String := (values.find? (·.truthy)).map (·.pyStr)

def safeInt (value : Json) (fallback : ℤ) : ℤ :=
  match value.toInt with
  | .ok i => i
  | .error _ => fallback

def safeElapsedSecs (value : Json) : Option ℤ :=
  match value with
  | .null => none
  | value => match value.toInt with
    | .ok i => some (max 0 i)
    | .error _ => none

/-- `_build_transcript_turn`; `none` is the `ValidationError` of the model, which strips its
texts. -/
def buildTranscriptTurn (rawTurn : Json.Entries) (fallbackTurnNumber : ℤ) :
    Option TranscriptTurn := do
  let parsedMetadata := metadata (.dict rawTurn)
  let tone ← Pydantic.optional Pydantic.str (Json.get rawTurn "tone")
  return {
    turnNumber := safeInt (Json.get rawTurn "turn_number") fallbackTurnNumber
    turnId := (firstString [Json.get rawTurn "turn_id"]).map trim
    speaker := trim (getOr rawTurn "speaker" (.str "unknown")).pyStr
    text := trim (getOr rawTurn "text" (.str "")).pyStr
    tone := tone
    timestamp := (firstString [Json.get rawTurn "timestamp"]).map trim
    elapsedSecs := safeElapsedSecs (Json.get parsedMetadata "elapsed_secs")
    questionId := (firstString [Json.get rawTurn "question_id",
      Json.get parsedMetadata "question_id"]).map trim
    sectionName := (firstString [Json.get rawTurn "current_section", Json.get rawTurn "section",
      Json.get parsedMetadata "current_section", Json.get parsedMetadata "section"]).map trim
    skill := (firstString [Json.get rawTurn "current_skill", Json.get rawTurn "skill",
      Json.get parsedMetadata "current_skill", Json.get parsedMetadata "skill"]).map trim
    difficulty := (firstString [Json.get rawTurn "question_difficulty",
      Json.get rawTurn "difficulty", Json.get parsedMetadata "question_difficulty",
      Json.get parsedMetadata "difficulty"]).map trim
    questionType := (firstString [Json.get rawTurn "question_type",
      Json.get parsedMetadata "question_type"]).map trim
    responseType := (firstString [Json.get rawTurn "response_type",
      Json.get parsedMetadata "response_type"]).map trim }

/-- The turns of the dicts in a transcript, numbered from `index`. -/
def transcriptTurns (index : ℕ) : List Json → Option (List TranscriptTurn)
  | [] => some []
  | .dict rawTurn :: rest => do
    let turn ← buildTranscriptTurn rawTurn index
    let turns ← transcriptTurns (index + 1) rest
    return turn :: turns
  | _ :: rest => transcriptTurns (index + 1) rest

/-- `get_interview_transcript`, after the ownership of the recruiter is checked. -/
def getInterviewTranscript (db : RecruiterDatabase) (caId recruiterId : Uuid) :
    Except EvaluationException InterviewTranscriptResponse := do
  let (ca, assessment) ← getOwnedCandidateAssessment db caId recruiterId "transcript"
  let candidate := db.candidate? ca.candidateId
  let session := db.toDatabase.sessionOf? caId
  match session.elim (some []) fun s => transcriptTurns 1 s.transcript with
  | none => throw .validationError
  | some turns => return {
      candidateAssessmentId := caId
      candidateName := candidate.map fun candidate => trim candidate.fullName
      assessmentTitle := some (trim assessment.title)
      totalElapsedSecs := session.elim 0 (·.totalElapsedSecs)
      turns := turns }

end EvaluationService

open EvaluationService

section Items

variable [Runtime] {raw : Json.Entries} {items : List Json} {index : ℕ}

def HasTone (raw : Json.Entries) : Prop :=
  Json.get raw "tone" = .null ∨ ∃ tone, Json.get raw "tone" = .str tone

structure KeepsTexts (raw : Json.Entries) : Prop where
  turnId : Trimmed (Json.get raw "turn_id").pyStr
  speaker : Trimmed (getOr raw "speaker" (.str "unknown")).pyStr
  text : Trimmed (getOr raw "text" (.str "")).pyStr

structure ShowsItem (raw : Json.Entries) (position : ℕ) (turn : TranscriptTurn) : Prop where
  turnId : turn.turnId = some (Json.get raw "turn_id").pyStr
  speaker : turn.speaker = (getOr raw "speaker" (.str "unknown")).pyStr
  text : turn.text = (getOr raw "text" (.str "")).pyStr
  own : ∀ i, (Json.get raw "turn_number").toInt = .ok i → turn.turnNumber = i
  positioned : (∀ i, (Json.get raw "turn_number").toInt ≠ .ok i) → turn.turnNumber = position
  elapsed : ∀ secs, turn.elapsedSecs = some secs → 0 ≤ secs

/-- The turns show the items one by one, in their order, numbered from `index`. -/
def ShowsItems (index : ℕ) (items : List Json) (turns : List TranscriptTurn) : Prop :=
  List.Forall₂ (fun entry turn => ∃ raw, entry.1 = .dict raw ∧ ShowsItem raw entry.2 turn)
    (items.zipIdx index) turns

theorem buildTranscriptTurn_isSome_iff (raw : Json.Entries) (position : ℤ) :
    (buildTranscriptTurn raw position).isSome ↔ HasTone raw := by
  unfold buildTranscriptTurn HasTone
  cases htone : Json.get raw "tone" <;> simp [Pydantic.optional, Pydantic.str]

theorem transcriptTurns_dict (rest : List Json) :
    transcriptTurns index (.dict raw :: rest) = (buildTranscriptTurn raw index).bind fun turn =>
      (transcriptTurns (index + 1) rest).map (turn :: ·) := by
  rw [transcriptTurns]
  cases buildTranscriptTurn raw index with
  | none => rfl
  | some turn => cases transcriptTurns (index + 1) rest <;> rfl

/-- One item without a proper tone hides the whole transcript. -/
theorem transcriptTurns_isSome_iff (items : List Json) (index : ℕ) :
    (transcriptTurns index items).isSome ↔ ∀ raw, .dict raw ∈ items → HasTone raw := by
  induction items generalizing index with
  | nil => simp [transcriptTurns]
  | cons item rest ih =>
    cases item with
    | dict raw =>
      rw [transcriptTurns_dict]
      have hfirst := buildTranscriptTurn_isSome_iff raw (index : ℤ)
      cases hbuilt : buildTranscriptTurn raw index with
      | none =>
        rw [hbuilt] at hfirst
        refine iff_of_false (by simp) fun hall => ?_
        exact absurd (hfirst.mpr (hall raw List.mem_cons_self)) (by simp)
      | some turn =>
        rw [hbuilt] at hfirst
        rw [Option.bind_some, Option.isSome_map, ih]
        constructor
        · intro hrest other hother
          rcases List.mem_cons.mp hother with heq | hother
          · cases heq
            exact hfirst.mp rfl
          · exact hrest other hother
        · exact fun hall other hother => hall other (List.mem_cons_of_mem _ hother)
    | _ => simp [transcriptTurns, ih]

theorem safeElapsedSecs_nonneg {value : Json} {secs : ℤ} (h : safeElapsedSecs value = some secs) :
    0 ≤ secs := by
  unfold safeElapsedSecs at h
  split at h
  · cases h
  · split at h
    · cases h
      exact le_max_left 0 _
    · cases h

/-- The id that an append requires is the id that the display shows. -/
theorem firstString_turnId (hid : InterviewSessionRepository.idText raw "turn_id" ≠ "") :
    firstString [Json.get raw "turn_id"] = some (Json.get raw "turn_id").pyStr := by
  unfold InterviewSessionRepository.idText Json.orElse at hid
  cases htruthy : (Json.get raw "turn_id").truthy with
  | true => simp [firstString, htruthy]
  | false => simp [htruthy] at hid

theorem buildTranscriptTurn_shows_iff {position : ℕ} {turn : TranscriptTurn}
    (hid : InterviewSessionRepository.idText raw "turn_id" ≠ "")
    (h : buildTranscriptTurn raw position = some turn) :
    ShowsItem raw position turn ↔ KeepsTexts raw := by
  obtain ⟨tone, _, hturn⟩ := Option.bind_eq_some_iff.mp h
  cases hturn
  constructor
  · intro hshows
    have hturnId := hshows.turnId
    simp only [firstString_turnId hid, Option.map_some, Option.some.injEq] at hturnId
    exact ⟨hturnId, hshows.speaker, hshows.text⟩
  · intro hkeeps
    exact {
      turnId := by
        simp only [firstString_turnId hid, Option.map_some]
        exact congrArg some hkeeps.turnId
      speaker := hkeeps.speaker
      text := hkeeps.text
      own := fun i hi => by simp [safeInt, hi]
      positioned := fun hnone => by
        cases hnumber : (Json.get raw "turn_number").toInt with
        | ok i => exact absurd hnumber (hnone i)
        | error => simp [safeInt, hnumber]
      elapsed := fun secs hsecs => safeElapsedSecs_nonneg hsecs }

theorem transcriptTurns_shows_iff {turns : List TranscriptTurn}
    (hitems : ∀ item ∈ items, ∃ raw, item = .dict raw ∧
      InterviewSessionRepository.idText raw "turn_id" ≠ "")
    (h : transcriptTurns index items = some turns) :
    ShowsItems index items turns ↔ ∀ raw, .dict raw ∈ items → KeepsTexts raw := by
  induction items generalizing index turns with
  | nil =>
    cases h
    simp [ShowsItems]
  | cons item rest ih =>
    obtain ⟨raw, rfl, hid⟩ := hitems item List.mem_cons_self
    rw [transcriptTurns_dict] at h
    obtain ⟨turn, hturn, h⟩ := Option.bind_eq_some_iff.mp h
    obtain ⟨others, hothers, rfl⟩ := Option.map_eq_some_iff.mp h
    have hfirst := buildTranscriptTurn_shows_iff hid hturn
    have hrest := ih (fun other hother => hitems other (List.mem_cons_of_mem _ hother)) hothers
    rw [ShowsItems, List.zipIdx_cons, List.forall₂_cons]
    change (∃ raw', Json.dict raw = .dict raw' ∧ ShowsItem raw' index turn) ∧
      ShowsItems (index + 1) rest others ↔ _
    rw [hrest]
    constructor
    · rintro ⟨⟨raw', heq, hshows⟩, hothers⟩ other hother
      cases heq
      rcases List.mem_cons.mp hother with heq | hother
      · cases heq
        exact hfirst.mp hshows
      · exact hothers other hother
    · intro hall
      exact ⟨⟨raw, rfl, hfirst.mpr (hall raw List.mem_cons_self)⟩,
        fun other hother => hall other (List.mem_cons_of_mem _ hother)⟩

end Items

section Requests

variable [Runtime]

/-- `persist_turn` requests, one after the other, that are all accepted. -/
def PersistTurn.persistAll (db : Database) (turns : List PersistTurn) :
    Except ApiException Database :=
  turns.foldlM (fun db (turn : PersistTurn) => Prod.snd <$> turn.persist db) db

def persistTurns (db : RecruiterDatabase) (turns : List PersistTurn) :
    Except ApiException RecruiterDatabase :=
  (PersistTurn.persistAll db.toDatabase turns).map fun saved =>
    { db with interviewSessions := saved.interviewSessions }

/-- The items of the requests of a session, the first one of each id. -/
def persistedItems (sessionId : Uuid) (turns : List PersistTurn) : List Json :=
  news (entryId "turn_id") []
    ((turns.filter (·.sessionId == sessionId)).flatMap fun turn => turn.transcriptItems.map .dict)

structure InterviewTables where
  db : RecruiterDatabase
  wellFormed : db.toDatabase.WellFormed

def Displayed (db : RecruiterDatabase) (caId recruiterId : Uuid) (items : List Json) : Prop :=
  ∃ response, getInterviewTranscript db caId recruiterId = .ok response ∧
    ShowsItems 1 items response.turns

theorem persistAll_appended {db db' : Database} {turns : List PersistTurn} {sessionId : Uuid}
    {s : InterviewSession} (hrun : PersistTurn.persistAll db turns = .ok db')
    (hwell : db.WellFormed) (hs : db.session? sessionId = some s) :
    db'.WellFormed ∧ (∀ turn ∈ turns, turn.Identified) ∧
      ∃ s', db'.session? sessionId = some s' ∧
        TurnsAppended (turns.filter (·.sessionId == sessionId)) s s' := by
  induction turns generalizing db s with
  | nil =>
    cases hrun
    refine ⟨hwell, by simp, s, hs, ?_⟩
    constructor <;> simp [news]
  | cons turn turns ih =>
    rw [PersistTurn.persistAll, List.foldlM_cons] at hrun
    obtain ⟨next, hturn, hrun⟩ := bind_eq_ok.mp hrun
    obtain ⟨⟨_, saved⟩, hcommit, rfl⟩ := map_eq_ok.mp hturn
    have hsaved : saved.WellFormed := by
      rw [← commit_of_ok hcommit]
      exact handle_wellFormed hwell _
    have hidentified := persist_ok_identified hcommit
    rw [List.filter_cons]
    by_cases hid : turn.sessionId = sessionId
    · subst hid
      obtain ⟨time, hrow⟩ := persist_row hcommit hs
      obtain ⟨hwell', hothers, s', hs', happended⟩ := ih hrun hsaved hrow
      rw [if_pos (beq_self_eq_true _)]
      exact ⟨hwell', List.forall_mem_cons.mpr ⟨hidentified, hothers⟩, s', hs', happended.cons⟩
    · have hrow := (persist_other hcommit (Ne.symm hid)).trans hs
      obtain ⟨hwell', hothers, hstored⟩ := ih hrun hsaved hrow
      rw [if_neg (by simpa using hid)]
      exact ⟨hwell', List.forall_mem_cons.mpr ⟨hidentified, hothers⟩, hstored⟩

theorem persistedItems_identified {turns : List PersistTurn} {sessionId : Uuid} {item : Json}
    (hturns : ∀ turn ∈ turns, turn.Identified) (hitem : item ∈ persistedItems sessionId turns) :
    ∃ raw, item = .dict raw ∧ InterviewSessionRepository.idText raw "turn_id" ≠ "" := by
  obtain ⟨turn, hturn, hmem⟩ := List.mem_flatMap.mp (mem_of_mem_news hitem)
  obtain ⟨raw, hraw, rfl⟩ := List.mem_map.mp hmem
  exact ⟨raw, rfl, (hturns turn (List.mem_filter.mp hturn).1).1 raw hraw⟩

theorem getInterviewTranscript_owned {db : RecruiterDatabase} {caId recruiterId : Uuid}
    {s : InterviewSession} {owned : RecruiterEnrollment × Assessment}
    (howned : getOwnedCandidateAssessment db caId recruiterId "transcript" = .ok owned)
    (hs : db.toDatabase.sessionOf? caId = some s) :
    (transcriptTurns 1 s.transcript = none →
      getInterviewTranscript db caId recruiterId = .error .validationError) ∧
      ∀ turns, transcriptTurns 1 s.transcript = some turns → ∃ response,
        getInterviewTranscript db caId recruiterId = .ok response ∧ response.turns = turns := by
  unfold getInterviewTranscript
  rw [howned, hs]
  constructor
  · intro hnone
    simp only [bind, Except.bind, Option.elim_some, hnone]
    rfl
  · intro turns hturns
    simp only [bind, Except.bind, Option.elim_some, hturns]
    exact ⟨_, rfl, rfl⟩

/-- After any accepted requests, the owning recruiter gets the transcript exactly when every stored
item has a text or no tone, and then the turns show the items exactly when their texts have no white
space at their ends. -/
theorem transcript_displayed_iff (tables : InterviewTables) (turns : List PersistTurn)
    (caId recruiterId : Uuid) (s : InterviewSession) (owned : RecruiterEnrollment × Assessment)
    (db' : RecruiterDatabase)
    (howned : getOwnedCandidateAssessment tables.db caId recruiterId "transcript" = .ok owned)
    (hs : tables.db.toDatabase.sessionOf? caId = some s) (hempty : s.transcript = [])
    (hrun : persistTurns tables.db turns = .ok db') :
    (∃ s', db'.toDatabase.sessionOf? caId = some s' ∧ s'.transcript = persistedItems s.id turns) ∧
      ((∃ response, getInterviewTranscript db' caId recruiterId = .ok response) ↔
        ∀ raw, .dict raw ∈ persistedItems s.id turns → HasTone raw) ∧
      (Displayed db' caId recruiterId (persistedItems s.id turns) ↔
        ∀ raw, .dict raw ∈ persistedItems s.id turns → HasTone raw ∧ KeepsTexts raw) := by
  obtain ⟨saved, hsaved, rfl⟩ := map_eq_ok.mp hrun
  have hmem : s ∈ tables.db.toDatabase.interviewSessions := Tables.lookup_mem hs
  have hid := Database.candidateAssessmentId_of_sessionOf? hs
  obtain ⟨hwell, hidentified, s', hs', happended⟩ := persistAll_appended hsaved tables.wellFormed
    (tables.wellFormed.session?_of_mem hmem)
  have hitems : s'.transcript = persistedItems s.id turns := by
    rw [happended.transcript, hempty]
    rfl
  have hsame : s'.candidateAssessmentId = caId := by
    rw [happended.rest]
    exact hid
  have hsession : saved.sessionOf? caId = some s' := by
    rw [← hsame]
    exact hwell.sessionOf?_of_mem (Tables.lookup_mem hs')
  have hidentity : ∀ item ∈ persistedItems s.id turns, ∃ raw, item = .dict raw ∧
      InterviewSessionRepository.idText raw "turn_id" ≠ "" := fun item hitem =>
    persistedItems_identified hidentified hitem
  -- the requests write no assessment and no enrollment, so the ownership check is unchanged
  have hkept : getOwnedCandidateAssessment
      { tables.db with interviewSessions := saved.interviewSessions } caId recruiterId
      "transcript" = .ok owned := howned
  obtain ⟨hrefused, hanswered⟩ := getInterviewTranscript_owned hkept hsession
  rw [hitems] at hrefused hanswered
  have htones := transcriptTurns_isSome_iff (persistedItems s.id turns) 1
  refine ⟨⟨s', hsession, hitems⟩, ?_⟩
  cases hturns : transcriptTurns 1 (persistedItems s.id turns) with
  | none =>
    rw [hturns] at htones
    have hhidden := hrefused hturns
    have hsome : ¬ ∀ raw, .dict raw ∈ persistedItems s.id turns → HasTone raw := fun hall =>
      absurd (htones.mpr hall) (by simp)
    refine ⟨iff_of_false ?_ hsome, iff_of_false ?_ fun hall => ?_⟩
    · rintro ⟨response, hresponse⟩
      rw [hhidden] at hresponse
      cases hresponse
    · rintro ⟨response, hresponse, _⟩
      rw [hhidden] at hresponse
      cases hresponse
    · exact hsome fun raw hraw => (hall raw hraw).1
  | some shown =>
    obtain ⟨response, hresponse, rfl⟩ := hanswered shown hturns
    have hall := htones.mp (by rw [hturns]; rfl)
    have hshows := transcriptTurns_shows_iff hidentity hturns
    refine ⟨iff_of_true ⟨response, hresponse⟩ hall, ?_⟩
    constructor
    · rintro ⟨response', hresponse', hshown⟩ raw hraw
      cases hresponse.symm.trans hresponse'
      exact ⟨hall raw hraw, hshows.mp hshown raw hraw⟩
    · exact fun hkeeps => ⟨response, hresponse, hshows.mpr fun raw hraw => (hkeeps raw hraw).2⟩

end Requests

section Samples

theorem sharedCandidate_wellFormed : sharedCandidate.toDatabase.WellFormed := by
  constructor <;> decide

def sharedTables : InterviewTables := ⟨sharedCandidate, sharedCandidate_wellFormed⟩

/-- A `persist_turn` of one item in the session of the shared candidate. -/
def sampleTurn (raw : Json.Entries) : PersistTurn where
  clock := ⟨220, 220⟩
  sessionId := 50
  transcriptItems := [raw]
  violations := []
  elapsedSecs := none

def calmTurn : Json.Entries := [("turn_id", .str "t1"), ("text", .str "Hello"), ("tone", .str "calm")]

/-- A turn whose tone is a number, as a classifier without labels gives it. -/
def numberedTone : Json.Entries := [("turn_id", .str "t2"), ("text", .str "Hello"), ("tone", .int 5)]

/-- A turn of an older agent, without its speaker, its number and its tone. -/
def untonedTurn : Json.Entries := [("turn_id", .str "t3"), ("text", .str "I am ready")]

/-- Two turns, of which one says nothing of its tone, are shown. -/
theorem transcript_displayed_sample :
    let _ : Runtime := .ascii
    ∃ db', persistTurns sharedCandidate [sampleTurn calmTurn, sampleTurn untonedTurn] = .ok db' ∧
      persistedItems 50 [sampleTurn calmTurn, sampleTurn untonedTurn] =
        [.dict calmTurn, .dict untonedTurn] ∧
      Displayed db' 40 2 (persistedItems 50 [sampleTurn calmTurn, sampleTurn untonedTurn]) := by
  intro _
  obtain ⟨db', hrun⟩ : ∃ db', persistTurns sharedCandidate
      [sampleTurn calmTurn, sampleTurn untonedTurn] = .ok db' := ⟨_, rfl⟩
  have hitems : persistedItems 50 [sampleTurn calmTurn, sampleTurn untonedTurn] =
      [.dict calmTurn, .dict untonedTurn] := rfl
  refine ⟨db', hrun, hitems, ?_⟩
  refine (transcript_displayed_iff sharedTables [sampleTurn calmTurn, sampleTurn untonedTurn]
    40 2 _ _ db' rfl rfl rfl hrun).2.2.mpr fun raw hraw => ?_
  rw [show persistedItems _ _ = [.dict calmTurn, .dict untonedTurn] from hitems] at hraw
  rcases List.mem_pair.mp hraw with hcalm | huntoned
  · cases hcalm
    exact ⟨.inr ⟨"calm", rfl⟩, by decide, by decide, by decide⟩
  · cases huntoned
    exact ⟨.inl rfl, by decide, by decide, by decide⟩

/-- A persisted turn with a number as its tone hides the whole transcript from its recruiter. -/
theorem numbered_tone_hides_transcript :
    let _ : Runtime := .ascii
    ∃ db', persistTurns sharedCandidate [sampleTurn calmTurn, sampleTurn numberedTone] = .ok db' ∧
      persistedItems 50 [sampleTurn calmTurn, sampleTurn numberedTone] =
        [.dict calmTurn, .dict numberedTone] ∧
      getInterviewTranscript db' 40 2 = .error .validationError :=
  ⟨_, rfl, rfl, rfl⟩

end Samples

end IBotCoreApi
