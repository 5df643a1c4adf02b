import IBotCoreApi.EvaluationSchemas
import IBotCoreApi.Library.Effects
import IBotCoreApi.Library.Locking
import IBotCoreApi.RankedEvaluations

namespace IBotCoreApi
open Python Outcomes KeyedLists Transactions EvaluationRepository

/-- What a statement of `save_final_evaluation` locks until the transaction ends. -/
inductive RankingLock where
  | evaluation (candidateAssessmentId : Uuid)
  | evaluationSession (sessionId : Uuid)
  | evaluationId (id : Uuid)
  | session (id : Uuid)
  | candidateAssessment (id : Uuid)
  | notification (id : Uuid)
  | advisory (key : ℤ)
  deriving DecidableEq

/-- The writes of `save_final_evaluation`, one constructor per statement. -/
inductive RankingWrite where
  | upsert (clock : Clock) (newId : Uuid) (record : FinalEvaluationRecord)
  | closeSession (clock : Clock) (sessionId : Uuid)
  | closeEnrollment (clock : Clock) (candidateAssessmentId : Uuid)
  | notify (notification : NotificationLog)
  | advisoryLock (assessmentId : String)
  | lockEvaluation (candidateAssessmentId : Uuid)
  | rank (ids : List Uuid)

namespace EvaluationRepository

/-- The rows of `_refresh_assessment_ranking`, in their order. -/
def rankingRows (db : Database) (assessmentId : Uuid) : List InterviewEvaluation :=
  (db.evaluationsOf assessmentId).insertionSort ranksBefore

def rankRows (ids : List Uuid) (db : Database) : Database :=
  { db with interviewEvaluations := db.interviewEvaluations.map fun e =>
      if ids.contains e.id then ranked ids.length (ids.findIdx (· == e.id) + 1 : ℕ) e else e }

def reportReady (clock : Clock) (draws : EvaluationDraws) (record : FinalEvaluationRecord)
    (recruiterEmail : String) : NotificationLog where
  id := draws.notificationId
  candidateAssessmentId := record.candidateAssessmentId
  notificationType := "REPORT_READY"
  recipientEmail := recruiterEmail
  deliveryStatus := "SENT"
  sentAt := clock.dbNow

end EvaluationRepository

namespace RankingWrite

def apply (db : Database) : RankingWrite → Database
  | upsert clock newId record => (upsertEvaluation db clock newId record).toOption.getD db
  | closeSession clock sessionId =>
    db.updateSessions (·.id == sessionId) (sessionEvaluated clock)
  | closeEnrollment clock candidateAssessmentId =>
    db.updateCandidateAssessments (·.id == candidateAssessmentId) (candidateEvaluated clock)
  | notify notification => { db with notificationLogs := db.notificationLogs ++ [notification] }
  | advisoryLock _ | lockEvaluation _ => db
  | rank ids => rankRows ids db

def refuses (db : Database) : RankingWrite → Option ApiException
  | upsert clock newId record =>
    match upsertEvaluation db clock newId record with
    | .error error => some error
    | .ok _ => none
  | notify notification =>
    if (db.candidateAssessment? notification.candidateAssessmentId).isNone ||
        db.notificationLogs.any (·.id == notification.id) then some .integrityError
    else none
  | _ => none

/-- `hashtext` is PostgreSQL's. -/
def locks (hashtext : String → ℤ) : RankingWrite → List RankingLock
  | upsert _ newId record => [.evaluation record.candidateAssessmentId,
      .evaluationSession record.sessionId, .evaluationId newId]
  | closeSession _ sessionId => [.session sessionId]
  | closeEnrollment _ candidateAssessmentId => [.candidateAssessment candidateAssessmentId]
  | notify notification => [.notification notification.id]
  | advisoryLock assessmentId => [.advisory (hashtext assessmentId)]
  -- the `FOR UPDATE` of a join locks the rows of both tables
  | lockEvaluation candidateAssessmentId =>
    [.evaluation candidateAssessmentId, .candidateAssessment candidateAssessmentId]
  -- these rows are locked already
  | rank _ => []

/-- Both writes need one lock. -/
def conflicts (hashtext : String → ℤ) (w w' : RankingWrite) : Bool :=
  (w.locks hashtext).any (· ∈ w'.locks hashtext)

end RankingWrite

def rankingEngine (hashtext : String → ℤ) : Engine Database RankingWrite ApiException where
  apply := RankingWrite.apply
  refuses := RankingWrite.refuses
  conflicts := RankingWrite.conflicts hashtext

abbrev RankingProgram :=
  Program Database RankingWrite Unit Unit ApiException NotificationLog

/-- A call of `save_final_evaluation`: the payload as it was sent and with its keys parsed. -/
structure EvaluationSave [UuidText] where
  clock : Clock
  draws : EvaluationDraws
  payload : EvaluationPayload
  record : FinalEvaluationRecord
  parsed : payload.parsed = some record
  recruiterEmail : String

namespace EvaluationSave

variable [UuidText]

def notification (save : EvaluationSave) : NotificationLog :=
  reportReady save.clock save.draws save.record save.recruiterEmail

/-- `_refresh_assessment_ranking`: rows are selected `FOR UPDATE`, then ranked as they were read. -/
def rankProgram (assessmentId : Uuid) (next : RankingProgram) : RankingProgram :=
  .statement [] (fun db => (rankingRows db assessmentId).map (.lockEvaluation ·.candidateAssessmentId))
    fun db => .write (.rank ((rankingRows db assessmentId).map (·.id))) next

/-- The statements of `save_final_evaluation`. -/
def program (save : EvaluationSave) : RankingProgram :=
  .write (.upsert save.clock save.draws.evaluationId save.record) <|
  .write (.closeSession save.clock save.record.sessionId) <|
  .write (.closeEnrollment save.clock save.record.candidateAssessmentId) <|
  .write (.notify save.notification) <|
  -- the text is hashed, not the key that it is parsed to
  .write (.advisoryLock save.payload.assessmentId) <|
  rankProgram save.record.assessmentId <|
  .finish save.notification

def lockKey (hashtext : String → ℤ) (save : EvaluationSave) : ℤ :=
  hashtext save.payload.assessmentId

end EvaluationSave

section Ranks

variable {db : Database} {assessmentId : Uuid}

theorem mem_rankingRows {e : InterviewEvaluation} :
    e ∈ rankingRows db assessmentId ↔ e ∈ db.interviewEvaluations ∧ belongsTo db assessmentId e := by
  rw [rankingRows, List.mem_insertionSort, Database.evaluationsOf, List.mem_filter]

theorem rankRows_rankingRows (hids : db.EvaluationIds) :
    rankRows ((rankingRows db assessmentId).map (·.id)) db =
      refreshAssessmentRanking db assessmentId := by
  have hrow : ∀ e ∈ db.interviewEvaluations,
      (if ((rankingRows db assessmentId).map (·.id)).contains e.id then
        ranked ((rankingRows db assessmentId).map (·.id)).length
          (((rankingRows db assessmentId).map (·.id)).findIdx (· == e.id) + 1 : ℕ) e else e) =
        if belongsTo db assessmentId e then
          ranked (rankingRows db assessmentId).length
            ((rankingRows db assessmentId).findIdx (·.id == e.id) + 1 : ℕ) e else e := by
    intro e he
    have hmem : ((rankingRows db assessmentId).map (·.id)).contains e.id ↔
        belongsTo db assessmentId e := by
      rw [List.contains_iff_mem]
      constructor
      · intro hid
        obtain ⟨other, hother, hid⟩ := List.mem_map.mp hid
        obtain ⟨hother, hbelongs⟩ := mem_rankingRows.mp hother
        rwa [List.inj_on_of_nodup_map hids hother he hid] at hbelongs
      · intro hbelongs
        exact List.mem_map_of_mem (mem_rankingRows.mpr ⟨he, hbelongs⟩)
    rw [List.length_map, List.findIdx_map]
    by_cases hbelongs : belongsTo db assessmentId e
    · rw [if_pos (hmem.mpr hbelongs), if_pos hbelongs]
      rfl
    · rw [if_neg (fun hid => hbelongs (hmem.mp hid)), if_neg hbelongs]
  unfold rankRows refreshAssessmentRanking
  rw [List.map_congr_left hrow]
  rfl

theorem rankingRows_refresh (db : Database) (assessmentId : Uuid) :
    ∃ rank : InterviewEvaluation → ℤ,
      rankingRows (refreshAssessmentRanking db assessmentId) assessmentId =
        (rankingRows db assessmentId).map fun e =>
          ranked (db.evaluationsOf assessmentId).length (rank e) e := by
  have hsort (rank : InterviewEvaluation → ℤ) :
      ((db.evaluationsOf assessmentId).map fun e =>
        ranked (db.evaluationsOf assessmentId).length (rank e) e).insertionSort ranksBefore =
        (rankingRows db assessmentId).map fun e =>
          ranked (db.evaluationsOf assessmentId).length (rank e) e := by
    symm
    apply List.map_insertionSort
    intro _ _ _ _
    exact Iff.rfl
  refine ⟨fun e => (place (·.id) ((db.evaluationsOf assessmentId).insertionSort ranksBefore) e +
    1 : ℕ), ?_⟩
  rw [rankingRows, evaluationsOf_refresh]
  exact hsort _

theorem refreshAssessmentRanking_idem (db : Database) (assessmentId : Uuid) :
    refreshAssessmentRanking (refreshAssessmentRanking db assessmentId) assessmentId =
      refreshAssessmentRanking db assessmentId := by
  obtain ⟨rank, hrows⟩ := rankingRows_refresh db assessmentId
  have hlength : (rankingRows (refreshAssessmentRanking db assessmentId) assessmentId).length =
      (rankingRows db assessmentId).length := by
    rw [hrows, List.length_map]
  have hplace (id : Uuid) :
      (rankingRows (refreshAssessmentRanking db assessmentId) assessmentId).findIdx (·.id == id) =
        (rankingRows db assessmentId).findIdx (·.id == id) := by
    rw [hrows, List.findIdx_map]
    rfl
  have hagain : ∀ e ∈ (refreshAssessmentRanking db assessmentId).interviewEvaluations,
      (if belongsTo db assessmentId e then
        ranked (rankingRows (refreshAssessmentRanking db assessmentId) assessmentId).length
          ((rankingRows (refreshAssessmentRanking db assessmentId) assessmentId).findIdx
            (·.id == e.id) + 1 : ℕ) e else e) = e := by
    intro e he
    obtain ⟨e, _, rfl⟩ := List.mem_map.mp he
    rw [hlength, hplace]
    by_cases hbelongs : belongsTo db assessmentId e
    · rw [if_pos hbelongs]
      exact if_pos hbelongs
    · rw [if_neg hbelongs, if_neg hbelongs]
  have hmap := List.map_congr_left hagain
  rw [List.map_id'] at hmap
  conv_lhs => rw [refreshAssessmentRanking]
  exact congrArg (fun evaluations =>
    { refreshAssessmentRanking db assessmentId with interviewEvaluations := evaluations }) hmap

end Ranks

section Alone

variable {db : Database} {hashtext : String → ℤ}

theorem accept_upsert (clock : Clock) (newId : Uuid) (record : FinalEvaluationRecord) :
    (rankingEngine hashtext).accept db (.upsert clock newId record) =
      upsertEvaluation db clock newId record := by
  unfold Engine.accept
  cases hupsert : upsertEvaluation db clock newId record with
  | error error => simp only [rankingEngine, RankingWrite.refuses, hupsert]
  | ok db' =>
    simp only [rankingEngine, RankingWrite.refuses, RankingWrite.apply, hupsert]
    rfl

variable (hashtext) in
theorem lockEvaluations (db : Database) (rows : List InterviewEvaluation) :
    (rankingEngine hashtext).refusal db (rows.map (.lockEvaluation ·.candidateAssessmentId)) = none ∧
      (rankingEngine hashtext).applyAll db (rows.map (.lockEvaluation ·.candidateAssessmentId)) =
        db := by
  constructor
  · apply Engine.refusal_of_forall
    intro _ w hw
    obtain ⟨_, _, rfl⟩ := List.mem_map.mp hw
    rfl
  · apply Engine.applyAll_frame _ id
    intro _ w hw
    obtain ⟨_, _, rfl⟩ := List.mem_map.mp hw
    rfl

variable (hashtext) in
theorem execute_rankProgram (hids : db.EvaluationIds) (assessmentId : Uuid)
    (next : RankingProgram) :
    (EvaluationSave.rankProgram assessmentId next).execute (rankingEngine hashtext) db =
      next.execute (rankingEngine hashtext) (refreshAssessmentRanking db assessmentId) := by
  obtain ⟨haccepted, hkept⟩ := lockEvaluations hashtext db (rankingRows db assessmentId)
  rw [EvaluationSave.rankProgram, Program.execute, haccepted]
  simp only [hkept]
  rw [Program.execute_write]
  show next.execute (rankingEngine hashtext) (rankRows _ db) = _
  rw [rankRows_rankingRows hids]

variable (hashtext) in
theorem execute_notify (hids : db.EvaluationIds) (assessmentId : Uuid) (spelling : String)
    (notification : NotificationLog) :
    (Program.write (.notify notification) <| .write (.advisoryLock spelling) <|
        EvaluationSave.rankProgram assessmentId <| .finish notification).execute
          (rankingEngine hashtext) db =
      if (db.candidateAssessment? notification.candidateAssessmentId).isNone then
        .error .integrityError
      else if db.notificationLogs.any (·.id == notification.id) then .error .integrityError
      else .ok (notification, refreshAssessmentRanking
        { db with notificationLogs := db.notificationLogs ++ [notification] } assessmentId) := by
  have hrefuses : (rankingEngine hashtext).refuses db (.notify notification) =
      if (db.candidateAssessment? notification.candidateAssessmentId).isNone ||
        db.notificationLogs.any (·.id == notification.id) then some .integrityError else none := rfl
  rw [Program.execute_write, Engine.accept, hrefuses]
  by_cases hmissing : (db.candidateAssessment? notification.candidateAssessmentId).isNone
  · simp only [hmissing, Bool.true_or, if_true]
    rfl
  · by_cases hused : db.notificationLogs.any (·.id == notification.id)
    · simp only [hmissing, hused, Bool.or_true, if_true]
      rfl
    · simp only [hmissing, hused, Bool.or_false, Bool.false_eq_true, if_false]
      have hnotified :
          { db with notificationLogs := db.notificationLogs ++ [notification] }.EvaluationIds := hids
      exact execute_rankProgram hashtext hnotified assessmentId (.finish notification)

variable (hashtext) in
/-- A call that runs alone is the source's function. -/
theorem execute_saveFinalEvaluation [UuidText] (hids : db.EvaluationIds) (save : EvaluationSave) :
    save.program.execute (rankingEngine hashtext) db =
      saveFinalEvaluation db save.clock save.draws save.record save.recruiterEmail := by
  unfold EvaluationSave.program saveFinalEvaluation
  rw [Program.execute_write, accept_upsert]
  cases hupsert : upsertEvaluation db save.clock save.draws.evaluationId save.record with
  | error error => rfl
  | ok saved =>
    have hids' := upsertEvaluation_ids hids hupsert
    have hclosed : ((saved.updateSessions (·.id == save.record.sessionId)
        (sessionEvaluated save.clock)).updateCandidateAssessments
          (·.id == save.record.candidateAssessmentId) (candidateEvaluated save.clock)).EvaluationIds :=
      hids'
    refine (execute_notify hashtext hclosed save.record.assessmentId save.payload.assessmentId
      save.notification).trans ?_
    dsimp only [bind, Except.bind]
    generalize (saved.updateSessions (·.id == save.record.sessionId)
      (sessionEvaluated save.clock)).updateCandidateAssessments
        (·.id == save.record.candidateAssessmentId) (candidateEvaluated save.clock) = closed
    show (if (closed.candidateAssessment? save.record.candidateAssessmentId).isNone then _
      else if closed.notificationLogs.any (·.id == save.draws.notificationId) then _ else _) = _
    by_cases hmissing : (closed.candidateAssessment? save.record.candidateAssessmentId).isNone
    · simp only [hmissing, if_true]
      rfl
    · by_cases hused : closed.notificationLogs.any (·.id == save.draws.notificationId)
      · simp only [hmissing, hused, Bool.false_eq_true, if_false, if_true]
        rfl
      · simp only [hmissing, hused, Bool.false_eq_true, if_false]
        rfl

end Alone

section Interleavings

variable {ι : Type*} {db : Database} {hashtext : String → ℤ} {assessmentId : Uuid}

/-- What the statements of a completed call have done: under its advisory lock it has read the rows
of the assessment, and its last write ranks these. -/
def RanksUnderLock (spelling : String) (assessmentId : Uuid)
    (history : List (Observation Database RankingWrite Unit)) : Prop :=
  ∃ front o back, history = front ++ o :: back ∧
    .advisoryLock spelling ∈ written front ∧
    o.writes = (rankingRows o.view assessmentId).map (.lockEvaluation ·.candidateAssessmentId) ∧
    written back = [.rank ((rankingRows o.view assessmentId).map (·.id))]

theorem ensures_ranksUnderLock [UuidText] (save : EvaluationSave) :
    save.program.Ensures (RanksUnderLock save.payload.assessmentId save.record.assessmentId) [] := by
  unfold EvaluationSave.program EvaluationSave.rankProgram
  intro p₁ v₁ p₂ v₂ p₃ v₃ p₄ v₄ p₅ v₅ p₆ v₆ p₇ v₇
  let rows := rankingRows v₆ save.record.assessmentId
  refine ⟨_, ⟨p₆, v₆, [], rows.map (.lockEvaluation ·.candidateAssessmentId)⟩,
    [⟨p₇, v₇, [], [.rank (rows.map (·.id))]⟩], List.append_assoc _ _ _, ?_, rfl, rfl⟩
  simp [written]

theorem evaluationIds_apply (hids : db.EvaluationIds) (w : RankingWrite) :
    (w.apply db).EvaluationIds := by
  cases w with
  | upsert clock newId record =>
    show ((upsertEvaluation db clock newId record).toOption.getD db).EvaluationIds
    cases hupsert : upsertEvaluation db clock newId record with
    | error => exact hids
    | ok db' => exact upsertEvaluation_ids hids hupsert
  | rank ids =>
    have hsame : (rankRows ids db).interviewEvaluations.map (·.id) =
        db.interviewEvaluations.map (·.id) := by
      rw [rankRows, List.map_map]
      apply List.map_congr_left
      intro e _
      simp only [Function.comp_apply]
      split <;> rfl
    show ((rankRows ids db).interviewEvaluations.map (·.id)).Nodup
    rw [hsame]
    exact hids
  | _ => exact hids

variable [UuidText]

abbrev savesStart (db : Database) (saves : ι → EvaluationSave) :
    World Database RankingWrite Unit Unit ApiException NotificationLog ι :=
  World.start db fun i => (saves i).program

abbrev savesWorld [DecidableEq ι] [Fintype ι] (hashtext : String → ℤ) (db : Database)
    (saves : ι → EvaluationSave) (moves : List (Move ι)) :
    World Database RankingWrite Unit Unit ApiException NotificationLog ι :=
  Runs.exec (World.scheduler (rankingEngine hashtext)) (savesStart db saves) moves

/-- After a call has taken its advisory lock, no call with another key commits between the begin of
one of its statements and its commit. -/
def SavesUnraced (hashtext : String → ℤ) (saves : ι → EvaluationSave)
    (log : List (Commit Database RankingWrite Unit ι)) : Prop :=
  ∀ before c after, log = before ++ c :: after →
    ∀ front o back, c.history = front ++ o :: back →
      .advisoryLock (saves c.request).payload.assessmentId ∈ written front →
        ∀ e ∈ before.drop o.position,
          (saves e.request).lockKey hashtext = (saves c.request).lockKey hashtext

omit [UuidText] in
theorem conflicts_symm (w w' : RankingWrite) :
    RankingWrite.conflicts hashtext w w' = RankingWrite.conflicts hashtext w' w := by
  rw [Bool.eq_iff_iff]
  simp only [RankingWrite.conflicts, List.any_eq_true, decide_eq_true_eq]
  constructor
  · rintro ⟨lock, hlock, hlock'⟩
    exact ⟨lock, hlock', hlock⟩
  · rintro ⟨lock, hlock, hlock'⟩
    exact ⟨lock, hlock', hlock⟩

omit [UuidText] in
theorem conflicts_advisoryLock {spelling spelling' : String}
    (h : hashtext spelling' = hashtext spelling) :
    (rankingEngine hashtext).conflicts (.advisoryLock spelling) (.advisoryLock spelling') =
      true := by
  simp [rankingEngine, RankingWrite.conflicts, RankingWrite.locks, h]

/-- Calls that spell the assessment id alike do not race. -/
theorem savesUnraced_of_spelling {saves : ι → EvaluationSave}
    (h : ∀ i j, (saves i).payload.assessmentId = (saves j).payload.assessmentId)
    (log : List (Commit Database RankingWrite Unit ι)) : SavesUnraced hashtext saves log :=
  fun _ c _ _ _ _ _ _ _ e _ => congrArg hashtext (h e.request c.request)

variable [DecidableEq ι] [Fintype ι] {saves : ι → EvaluationSave} {moves : List (Move ι)}

/-- Every committed call has taken its lock and left the ranking of what it saw. -/
theorem logged_ranksUnderLock (hsaves : ∀ i, (saves i).record.assessmentId = assessmentId)
    {before after : List (Commit Database RankingWrite Unit ι)} {c : Commit Database RankingWrite Unit ι}
    (hlog : (savesWorld hashtext db saves moves).log = before ++ c :: after) :
    RanksUnderLock (saves c.request).payload.assessmentId assessmentId c.history := by
  obtain ⟨⟨result, hrun⟩, _⟩ := (scheduler_sound moves).logged before c after hlog
  have hranks := (ensures_ranksUnderLock (saves c.request)).finished hrun
  rwa [hsaves] at hranks

/-- The last commit of an interleaving without a race has ranked all evaluations. -/
theorem exists_refresh (hsaves : ∀ i, (saves i).record.assessmentId = assessmentId)
    (hids : db.EvaluationIds) (hcommitted : (savesWorld hashtext db saves moves).log ≠ [])
    (hunraced : SavesUnraced hashtext saves (savesWorld hashtext db saves moves).log) :
    ∃ latest : Database, latest.EvaluationIds ∧
      (savesWorld hashtext db saves moves).database = refreshAssessmentRanking latest assessmentId := by
  have hsound : (savesWorld hashtext db saves moves).Sound (rankingEngine hashtext) db
    fun i => (saves i).program := scheduler_sound moves
  have hguarded : (savesWorld hashtext db saves moves).Guarded (rankingEngine hashtext) :=
    scheduler_guarded conflicts_symm moves
  obtain hnil | ⟨before, c, hlog⟩ := List.eq_nil_or_concat (savesWorld hashtext db saves moves).log
  · exact absurd hnil hcommitted
  rw [List.concat_eq_append] at hlog
  obtain ⟨front, o, back, hhistory, hlock, hrows, hback⟩ := logged_ranksUnderLock hsaves hlog
  have hview : o.view = (rankingEngine hashtext).applyAll (replay (rankingEngine hashtext) db before)
      (written front) := by
    refine hsound.view_latest hguarded hlog hhistory hlock ?_
    intro e he
    have hkey := hunraced before c [] hlog front o back hhistory hlock e he
    obtain ⟨before', after', hsplit⟩ := List.append_of_mem (List.mem_of_mem_drop he)
    rw [hsplit, List.append_assoc] at hlog
    obtain ⟨front', o', back', hhistory', hlock', _⟩ := logged_ranksUnderLock hsaves hlog
    refine ⟨.advisoryLock (saves e.request).payload.assessmentId, ?_, conflicts_advisoryLock hkey⟩
    rw [Commit.writes, hhistory', written, List.flatMap_append]
    exact List.mem_append_left _ hlock'
  have hids' : o.view.EvaluationIds := by
    rw [hview, replay]
    have hkept (db : Database) (hids : db.EvaluationIds) (ws : List RankingWrite) :
        ((rankingEngine hashtext).applyAll db ws).EvaluationIds :=
      Engine.applyAll_invariant _ Database.EvaluationIds (fun _ w _ hids => evaluationIds_apply hids w)
        hids
    exact hkept _ (hkept db hids _) _
  refine ⟨o.view, hids', ?_⟩
  have hwrites : c.writes = written front ++ o.writes ++ written back := by
    rw [Commit.writes, hhistory, written, List.flatMap_append, List.flatMap_cons,
      List.append_assoc]
    rfl
  rw [hsound.database, hlog, replay_snoc, hwrites, Engine.applyAll_append, Engine.applyAll_append,
    ← hview, hrows, (lockEvaluations hashtext o.view _).2, hback]
  exact rankRows_rankingRows hids'

/-- After a refresh the evaluations of the assessment are ranked by score and time, and those of
other assessments are as before.  Concurrent calls of `save_final_evaluation` leave the ranks that a
refresh of the final evaluations computes, unless one with another key commits between the reading
of the rows that a call ranks and its commit. -/
theorem ranking_correct (assessmentId : Uuid) (hashtext : String → ℤ) :
    (∀ db : Database, db.EvaluationIds →
      (∃ rank : InterviewEvaluation → ℤ,
        (refreshAssessmentRanking db assessmentId).evaluationsOf assessmentId =
          (db.evaluationsOf assessmentId).map fun e =>
            ranked (db.evaluationsOf assessmentId).length (rank e) e) ∧
      FairRanking ((refreshAssessmentRanking db assessmentId).evaluationsOf assessmentId) ∧
      ∀ other, other ≠ assessmentId →
        (refreshAssessmentRanking db assessmentId).evaluationsOf other = db.evaluationsOf other) ∧
    ∀ (db : Database) (saves : ι → EvaluationSave) (moves : List (Move ι)), db.EvaluationIds →
      (∀ i, (saves i).record.assessmentId = assessmentId) →
      let world := savesWorld hashtext db saves moves
      world.log ≠ [] → SavesUnraced hashtext saves world.log →
        refreshAssessmentRanking world.database assessmentId = world.database ∧
          FairRanking (world.database.evaluationsOf assessmentId) := by
  constructor
  · intro db hids
    exact ⟨⟨_, evaluationsOf_refresh db assessmentId⟩, fairRanking_refresh hids assessmentId,
      fun other hne => evaluationsOf_refresh_of_ne db hne⟩
  · intro db saves moves hids hsaves world hcommitted hunraced
    obtain ⟨latest, hlatest, hdatabase⟩ := exists_refresh hsaves hids hcommitted hunraced
    rw [show world.database = _ from hdatabase, refreshAssessmentRanking_idem]
    exact ⟨rfl, fairRanking_refresh hlatest assessmentId⟩

end Interleavings

section Race

/-- Two texts that `_uuid` parses to the same id. -/
inductive Spelling where
  | hyphenated
  | plain

def Spelling.text : Spelling → String
  | hyphenated => "00000000-0000-0000-0000-000000000003"
  | plain => "00000000000000000000000000000003"

/-- What PostgreSQL's `hashtext` gives for the two texts. -/
def sampleHashtext (text : String) : ℤ :=
  if text = Spelling.hyphenated.text then -1073231797
  else if text = Spelling.plain.text then 56291599
  else 0

def spelledPayload (spelling : Spelling) (i : Fin 2) : EvaluationPayload where
  candidateAssessmentId := Uuid.str (if i.val = 0 then 4 else 7)
  sessionId := Uuid.str (if i.val = 0 then 10 else 11)
  assessmentId := spelling.text
  report := sampleReport (if i.val = 0 then 8 else 6)

theorem spelledPayload_parsed (spelling : Spelling) (i : Fin 2) :
    let _ : UuidText := .hexadecimal
    (spelledPayload spelling i).parsed =
      some ⟨if i.val = 0 then 4 else 7, if i.val = 0 then 10 else 11, 3,
        sampleReport (if i.val = 0 then 8 else 6)⟩ := by
  have htexts : ∀ i : Fin 2,
      UuidText.hexadecimal.uuidOfStr (Uuid.str (if i.val = 0 then 4 else 7)) =
        some (if i.val = 0 then 4 else 7) ∧
      UuidText.hexadecimal.uuidOfStr (Uuid.str (if i.val = 0 then 10 else 11)) =
        some (if i.val = 0 then 10 else 11) := by
    decide +kernel
  have hspelling : UuidText.hexadecimal.uuidOfStr spelling.text = some 3 := by
    cases spelling <;> decide +kernel
  simp only [EvaluationPayload.parsed, spelledPayload, htexts i, hspelling]
  rfl

/-- Both interviews are evaluated, the second record with its own spelling of the assessment id. -/
def twoSaves (second : Spelling) (i : Fin 2) : @EvaluationSave .hexadecimal :=
  let _ : UuidText := .hexadecimal
  { clock := ⟨i.val + 1, i.val + 1⟩
    draws := if i.val = 0 then ⟨20, 21⟩ else ⟨22, 23⟩
    payload := spelledPayload (if i.val = 0 then .hyphenated else second) i
    record := _
    parsed := spelledPayload_parsed _ i
    recruiterEmail := "r@acme.test" }

def rankingWorld (second : Spelling) (moves : List (Move (Fin 2))) :
    World Database RankingWrite Unit Unit ApiException NotificationLog (Fin 2) :=
  let _ : UuidText := .hexadecimal
  savesWorld sampleHashtext interviewedStore.db (twoSaves second) moves

/-- The second call waits for the first one's advisory lock, and ranks both evaluations. -/
theorem ranking_correct_sample :
    let world := rankingWorld .hyphenated (List.replicate 6 (.advance 0) ++
      List.replicate 6 (.advance 1) ++ List.replicate 2 (.advance 0) ++
      List.replicate 4 (.advance 1))
    world.log.length = 2 ∧ refreshAssessmentRanking world.database 3 = world.database ∧
      FairRanking (world.database.evaluationsOf 3) := by
  intro world
  have hlength : world.log.length = 2 := by decide +kernel
  let _ : UuidText := .hexadecimal
  refine ⟨hlength, (ranking_correct 3 sampleHashtext).2 interviewedStore.db
    (twoSaves .hyphenated) _ interviewedStore_ranked.1 (fun _ => rfl) ?_ ?_⟩
  · exact List.ne_nil_of_length_pos (hlength.symm ▸ Nat.two_pos)
  · exact savesUnraced_of_spelling (fun i j => by simp [twoSaves, spelledPayload]) _

/-- Under two spellings both calls rank their own evaluation before either commits: both get the
first rank. -/
theorem ranking_race :
    let _ : UuidText := .hexadecimal
    let world := rankingWorld .plain (List.replicate 7 (.advance 0) ++
      List.replicate 7 (.advance 1) ++ [.advance 0, .advance 1])
    (∀ i, (twoSaves .plain i).record.assessmentId = 3) ∧ world.log.length = 2 ∧
      (world.database.evaluationsOf 3).map (fun e => (e.candidateAssessmentId, e.rankInAssessment)) =
        [(4, some 1), (7, some 1)] ∧
      refreshAssessmentRanking world.database 3 ≠ world.database := by
  intro uuidText world
  have hranks : (world.database.evaluationsOf 3).map (·.rankInAssessment) =
      [some 1, some 1] := by decide +kernel
  have hrefreshed : ((refreshAssessmentRanking world.database 3).evaluationsOf 3).map
      (·.rankInAssessment) = [some 1, some 2] := by decide +kernel
  refine ⟨fun _ => rfl, by decide +kernel, by decide +kernel, fun hsame => ?_⟩
  rw [hsame, hranks] at hrefreshed
  cases hrefreshed

end Race

end IBotCoreApi
