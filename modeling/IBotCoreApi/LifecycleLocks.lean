import IBotCoreApi.Library.Deadlocks
import IBotCoreApi.Library.PyValues

namespace IBotCoreApi
open Python Deadlocks

inductive LockMode where
  /-- The check of a foreign key. -/
  | forKeyShare
  /-- An `UPDATE` that leaves the unique columns alone. -/
  | forNoKeyUpdate
  /-- `SELECT … FOR UPDATE`, a new row, and an `UPDATE` of a unique column. -/
  | forUpdate
deriving DecidableEq

def LockMode.conflicts : LockMode → LockMode → Bool
  | .forUpdate, _ | _, .forUpdate | .forNoKeyUpdate, .forNoKeyUpdate => true
  | _, _ => false

/-- The rows of an enrollment, and the lock of an assessment's ranking. -/
inductive LockedRow where
  | candidateAssessment (enrollment : Uuid)
  /-- The one session of the enrollment. -/
  | interviewSession (enrollment : Uuid)
  | interviewEvaluation (enrollment : Uuid)
  /-- `pg_advisory_xact_lock`. -/
  | ranking (key : ℤ)
deriving DecidableEq

/-- The locks of a transaction, but for those that it already holds as strongly.  The state is the
list of the enrollments whose evaluation is committed. -/
abbrev LockProgram := Program LockedRow LockMode (List Uuid)

structure RankingOrder where
  sort : List Uuid → List Uuid
  mem_sort : ∀ enrollments enrollment, enrollment ∈ sort enrollments ↔ enrollment ∈ enrollments

/-- What a connection drop finds: another connection or a closed session, or the session that it
disconnects or terminates. -/
inductive Drop where
  | stale
  | disconnected
  | terminated

namespace CandidateSessionRepository

/-- `lock_invitation_context` of an invitation that exists, and
`get_or_create_session_for_update`. -/
def enterLocks (enrollment : Uuid) : LockProgram :=
  .acquire (.candidateAssessment enrollment, .forUpdate) <|
  .acquire (.interviewSession enrollment, .forUpdate) <|
  .commit id

def recordDisconnectLocks (enrollment : Uuid) : Drop → LockProgram
  | .stale => .commit id
  | .disconnected => .acquire (.interviewSession enrollment, .forNoKeyUpdate) (.commit id)
  | .terminated =>
    .acquire (.interviewSession enrollment, .forNoKeyUpdate) <|
    .acquire (.candidateAssessment enrollment, .forNoKeyUpdate) <|
    .commit id

end CandidateSessionRepository

namespace InterviewSessionRepository

/-- `_locked_session`, and `_terminate_session` when the violation terminates the session. -/
def recordViolationLocks (enrollment : Uuid) (terminated : Bool) : LockProgram :=
  .acquire (.interviewSession enrollment, .forUpdate) <|
  if terminated then .acquire (.candidateAssessment enrollment, .forNoKeyUpdate) (.commit id)
  else .commit id

def recordTabSwitchLocks (enrollment : Uuid) (terminated : Bool) : LockProgram :=
  recordViolationLocks enrollment terminated

def recordProctoringEventLocks (enrollment : Uuid) (terminated : Bool) : LockProgram :=
  recordViolationLocks enrollment terminated

end InterviewSessionRepository

namespace EvaluationRepository

variable (assessmentId : Uuid → Uuid) (hashtext : String → ℤ)

def saved (enrollment : Uuid) (evaluated : List Uuid) : List Uuid :=
  if enrollment ∈ evaluated then evaluated else evaluated ++ [enrollment]

/-- The enrollments whose rows `_refresh_assessment_ranking` selects: its own evaluation and the
committed ones of the assessment. -/
def rankedEnrollments (enrollment : Uuid) (order : RankingOrder) (evaluated : List Uuid) :
    List Uuid :=
  order.sort ((saved enrollment evaluated).filter (assessmentId · == assessmentId enrollment))

/-- Both rows of the join are locked. -/
def rankedRows (enrollments : List Uuid) : List (LockedRow × LockMode) :=
  enrollments.flatMap fun enrollment =>
    [(.interviewEvaluation enrollment, .forUpdate), (.candidateAssessment enrollment, .forUpdate)]

def refreshAssessmentRankingLocks (enrollment : Uuid) (order : RankingOrder) : LockProgram :=
  .read fun evaluated =>
    .acquireAll (rankedRows (rankedEnrollments assessmentId enrollment order evaluated)) <|
    .commit (saved enrollment)

def rankingKey (enrollment : Uuid) : ℤ := hashtext (assessmentId enrollment).str

def closeAndRankLocks (enrollment : Uuid) (order : RankingOrder) : LockProgram :=
  .acquire (.interviewSession enrollment, .forNoKeyUpdate) <|
  .acquire (.candidateAssessment enrollment, .forNoKeyUpdate) <|
  .acquire (.ranking (rankingKey assessmentId hashtext enrollment), .forUpdate) <|
  refreshAssessmentRankingLocks assessmentId enrollment order

def saveFinalEvaluationLocks (enrollment : Uuid) (order : RankingOrder) : LockProgram :=
  .acquire (.interviewEvaluation enrollment, .forUpdate) <|
  .read fun evaluated =>
    if enrollment ∈ evaluated then closeAndRankLocks assessmentId hashtext enrollment order
    else
      -- a new evaluation refers to its session
      .acquire (.interviewSession enrollment, .forKeyShare) <|
      closeAndRankLocks assessmentId hashtext enrollment order

end EvaluationRepository

/-- A transaction on an enrollment, with the branch that it takes. -/
inductive LifecycleRequest where
  | enterWithInvitation (enrollment : Uuid)
  | recordDisconnect (enrollment : Uuid) (drop : Drop)
  | recordTabSwitch (enrollment : Uuid) (terminated : Bool)
  | recordProctoringEvent (enrollment : Uuid) (terminated : Bool)
  | saveFinalEvaluation (enrollment : Uuid) (order : RankingOrder)

namespace LifecycleRequest

def locks (assessmentId : Uuid → Uuid) (hashtext : String → ℤ) : LifecycleRequest → LockProgram
  | .enterWithInvitation enrollment => CandidateSessionRepository.enterLocks enrollment
  | .recordDisconnect enrollment drop =>
    CandidateSessionRepository.recordDisconnectLocks enrollment drop
  | .recordTabSwitch enrollment terminated =>
    InterviewSessionRepository.recordTabSwitchLocks enrollment terminated
  | .recordProctoringEvent enrollment terminated =>
    InterviewSessionRepository.recordProctoringEventLocks enrollment terminated
  | .saveFinalEvaluation enrollment order =>
    EvaluationRepository.saveFinalEvaluationLocks assessmentId hashtext enrollment order

/-- A drop or a violation that terminates the session of the enrollment. -/
def Terminates (request : LifecycleRequest) (enrollment : Uuid) : Prop :=
  request = .recordDisconnect enrollment .terminated ∨
    request = .recordTabSwitch enrollment true ∨ request = .recordProctoringEvent enrollment true

def Saves (request : LifecycleRequest) (enrollment : Uuid) : Prop :=
  ∃ order, request = .saveFinalEvaluation enrollment order

end LifecycleRequest

end IBotCoreApi
