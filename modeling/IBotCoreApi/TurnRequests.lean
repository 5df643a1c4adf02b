import IBotCoreApi.InternalInterview
import IBotCoreApi.Library.Locking

namespace IBotCoreApi
open Python Transactions InterviewSessionRepository

/-- A row lock or a row write of `persist-turn`. -/
inductive TurnWrite where
  /-- `SELECT … FOR UPDATE`. -/
  | lock (sessionId : Uuid)
  | appendTurn (clock : Clock) (sessionId : Uuid) (transcript : List Json) (totalElapsedSecs : ℤ)
  | saveViolations (clock : Clock) (sessionId : Uuid) (violations : List Json)
  | elapse (clock : Clock) (sessionId : Uuid) (elapsedSecs totalPauseSecs : ℤ)

namespace TurnWrite

def sessionId : TurnWrite → Uuid
  | lock sessionId | appendTurn _ sessionId _ _ | saveViolations _ sessionId _
  | elapse _ sessionId _ _ => sessionId

def apply (db : Database) : TurnWrite → Database
  | lock _ => db
  | appendTurn clock sessionId transcript totalElapsedSecs =>
    db.updateSessions (·.id == sessionId) (turnAppended clock transcript totalElapsedSecs)
  | saveViolations clock sessionId violations =>
    db.updateSessions (·.id == sessionId) (violationsSaved clock violations)
  | elapse clock sessionId elapsedSecs totalPauseSecs =>
    updateElapsedTime db clock sessionId elapsedSecs totalPauseSecs

end TurnWrite

def turnEngine : Engine Database TurnWrite ApiException where
  apply := TurnWrite.apply
  refuses _ _ := none
  conflicts w w' := w.sessionId == w'.sessionId

abbrev TurnProgram := Program Database TurnWrite Empty Empty ApiException Unit

/-- A `PersistTurnRequest` for a session, with the clock of its transaction. -/
structure PersistTurn where
  clock : Clock
  sessionId : Uuid
  transcriptItems : List Json.Entries
  violations : List Json.Entries
  elapsedSecs : Option ℤ

namespace TurnRequests

/-- `_locked_session`: the row is read once it is locked. -/
def lockedSession (sessionId : Uuid) (next : InterviewSession → TurnProgram) : TurnProgram :=
  .write (.lock sessionId) <|
  .select [] (InterviewSessionRepository.lockedSession · sessionId) fun
    | .ok session => next session
    | .error error => .raise error

variable [Runtime]

def appendTranscriptTurn (clock : Clock) (sessionId : Uuid) (turn : Json.Entries)
    (next : TurnProgram) : TurnProgram :=
  lockedSession sessionId fun session =>
    match appendUnique session.transcript turn "turn_id" with
    | .error error => .raise error
    | .ok (transcript, _) =>
      .write (.appendTurn clock sessionId transcript session.totalElapsedSecs) next

def appendViolation (clock : Clock) (sessionId : Uuid) (violation : Json.Entries)
    (next : TurnProgram) : TurnProgram :=
  lockedSession sessionId fun session =>
    match appendUnique session.violations violation "violation_id" with
    | .error error => .raise error
    | .ok (violations, true) => .write (.saveViolations clock sessionId violations) next
    | .ok (_, false) => next

end TurnRequests

namespace PersistTurn

variable [Runtime]

def program (turn : PersistTurn) : TurnProgram :=
  let elapsed : TurnProgram := match turn.elapsedSecs with
    | some secs => .write (.elapse turn.clock turn.sessionId secs 0) (.finish ())
    | none => .finish ()
  turn.transcriptItems.foldr (TurnRequests.appendTranscriptTurn turn.clock turn.sessionId) <|
  turn.violations.foldr (TurnRequests.appendViolation turn.clock turn.sessionId) elapsed

def persist (db : Database) (turn : PersistTurn) : Except ApiException (Unit × Database) :=
  InternalInterview.persistTurn db turn.clock turn.sessionId turn.transcriptItems turn.violations
    turn.elapsedSecs

end PersistTurn

section Alone

open TurnRequests

variable {db : Database} {sessionId : Uuid}

theorem execute_write (w : TurnWrite) (next : TurnProgram) (db : Database) :
    (Program.write w next).execute turnEngine db = next.execute turnEngine (w.apply db) := rfl

theorem execute_select {γ : Type} (answer : Database → γ) (next : γ → TurnProgram)
    (db : Database) :
    (Program.select [] answer next).execute turnEngine db =
      (next (answer db)).execute turnEngine db := rfl

theorem execute_lockedSession (next : InterviewSession → TurnProgram) :
    (TurnRequests.lockedSession sessionId next).execute turnEngine db =
      InterviewSessionRepository.lockedSession db sessionId >>= fun session =>
        (next session).execute turnEngine db := by
  unfold TurnRequests.lockedSession
  rw [execute_write, execute_select, TurnWrite.apply]
  cases InterviewSessionRepository.lockedSession db sessionId with
  | ok session => rfl
  | error error => rfl

variable [Runtime]

theorem execute_appendTranscriptTurn (clock : Clock) (turn : Json.Entries) (next : TurnProgram) :
    (TurnRequests.appendTranscriptTurn clock sessionId turn next).execute turnEngine db =
      InterviewSessionRepository.appendTranscriptTurn db clock sessionId turn none >>= fun result =>
        next.execute turnEngine result.2 := by
  unfold TurnRequests.appendTranscriptTurn InterviewSessionRepository.appendTranscriptTurn
  rw [execute_lockedSession, bind_assoc]
  congr 1
  funext session
  cases appendUnique session.transcript turn "turn_id" with
  | error error => rfl
  | ok appended => rfl

theorem execute_appendViolation (clock : Clock) (violation : Json.Entries) (next : TurnProgram) :
    (TurnRequests.appendViolation clock sessionId violation next).execute turnEngine db =
      InterviewSessionRepository.appendViolation db clock sessionId violation >>= fun result =>
        next.execute turnEngine result.2 := by
  unfold TurnRequests.appendViolation InterviewSessionRepository.appendViolation
  rw [execute_lockedSession, bind_assoc]
  congr 1
  funext session
  cases appendUnique session.violations violation "violation_id" with
  | error error => rfl
  | ok appended =>
    obtain ⟨violations, isNew⟩ := appended
    cases isNew with
    | true => rfl
    | false => rfl

theorem PersistTurn.execute_program (turn : PersistTurn) (db : Database) :
    turn.program.execute turnEngine db = turn.persist db := by
  obtain ⟨clock, sessionId, items, violations, elapsedSecs⟩ := turn
  unfold PersistTurn.program PersistTurn.persist InternalInterview.persistTurn
  simp only
  induction items generalizing db with
  | cons item items ih =>
    rw [List.foldr_cons, execute_appendTranscriptTurn, List.foldlM_cons]
    simp only [ih, map_eq_pure_bind, bind_assoc, pure_bind]
  | nil =>
    rw [List.foldr_nil, List.foldlM_nil, pure_bind]
    induction violations generalizing db with
    | cons violation violations ih =>
      rw [List.foldr_cons, execute_appendViolation, List.foldlM_cons]
      simp only [ih, map_eq_pure_bind, bind_assoc, pure_bind]
    | nil =>
      rw [List.foldr_nil, List.foldlM_nil, pure_bind]
      cases elapsedSecs with
      | none => rfl
      | some secs => rfl

end Alone

section Locks

variable {sessionId : Uuid}

theorem turn_conflicts_symm (w w' : TurnWrite) :
    turnEngine.conflicts w w' = turnEngine.conflicts w' w :=
  Bool.beq_comm

theorem session?_updateSessions_of_ne {db : Database} {target : Uuid} (u : SessionUpdate)
    (h : sessionId ≠ target) :
    (db.updateSessions (·.id == target) u).session? sessionId = db.session? sessionId := by
  rw [Database.session?_updateSessions]
  cases hs : db.session? sessionId with
  | none => rfl
  | some s =>
    rw [Option.map_some, Tables.Update.onRow_of_false]
    rw [Database.id_of_session? hs]
    exact beq_eq_false_iff_ne.mpr h

/-- Each lock and each write of a session row guards that row. -/
theorem turn_guards (w : TurnWrite) :
    Guards turnEngine (fun db => db.session? w.sessionId) w := by
  intro db w' hfree
  have hne : w.sessionId ≠ w'.sessionId := beq_eq_false_iff_ne.mp hfree
  cases w' with
  | lock => rfl
  | appendTurn => exact session?_updateSessions_of_ne _ hne
  | saveViolations => exact session?_updateSessions_of_ne _ hne
  | elapse => exact session?_updateSessions_of_ne _ hne

theorem turn_local (sessionId : Uuid) :
    Local turnEngine (fun db => db.session? sessionId) := by
  intro w db db' h
  cases w with
  | lock => exact h
  | _ => simp only [turnEngine, TurnWrite.apply, updateElapsedTime,
      Database.session?_updateSessions, h]

theorem lockedSession_readsThrough {next : InterviewSession → TurnProgram}
    (hnext : ∀ session, (next session).ReadsThrough fun db => db.session? sessionId) :
    (TurnRequests.lockedSession sessionId next).ReadsThrough fun db => db.session? sessionId := by
  refine Program.readsThrough_write (Program.readsThrough_select ?_ ?_)
  · intro db db' h
    unfold InterviewSessionRepository.lockedSession
    rw [h]
  · intro session
    cases session with
    | ok session => exact hnext session
    | error error => trivial

variable [Runtime] {clock : Clock} {next : TurnProgram}

theorem appendTranscriptTurn_readsThrough (turn : Json.Entries)
    (hnext : next.ReadsThrough fun db => db.session? sessionId) :
    (TurnRequests.appendTranscriptTurn clock sessionId turn next).ReadsThrough
      fun db => db.session? sessionId := by
  refine lockedSession_readsThrough fun session => ?_
  cases appendUnique session.transcript turn "turn_id" with
  | error error => trivial
  | ok appended => exact Program.readsThrough_write hnext

theorem appendViolation_readsThrough (violation : Json.Entries)
    (hnext : next.ReadsThrough fun db => db.session? sessionId) :
    (TurnRequests.appendViolation clock sessionId violation next).ReadsThrough
      fun db => db.session? sessionId := by
  refine lockedSession_readsThrough fun session => ?_
  cases appendUnique session.violations violation "violation_id" with
  | error error => trivial
  | ok appended =>
    obtain ⟨violations, isNew⟩ := appended
    cases isNew with
    | true => exact Program.readsThrough_write hnext
    | false => exact hnext

theorem PersistTurn.program_readsThrough (turn : PersistTurn) :
    turn.program.ReadsThrough fun db => db.session? turn.sessionId := by
  obtain ⟨clock, sessionId, items, violations, elapsedSecs⟩ := turn
  unfold PersistTurn.program
  simp only
  induction items with
  | cons item items ih => exact appendTranscriptTurn_readsThrough item ih
  | nil =>
    rw [List.foldr_nil]
    induction violations with
    | cons violation violations ih => exact appendViolation_readsThrough violation ih
    | nil =>
      rw [List.foldr_nil]
      cases elapsedSecs with
      | none => trivial
      | some secs => exact Program.readsThrough_write trivial

/-- The first statement of the request locks its session. -/
theorem PersistTurn.program_locked (turn : PersistTurn) (db : Database) :
    turn.program.Locked turnEngine fun db => db.session? turn.sessionId := by
  have hreads := turn.program_readsThrough
  have hguards := turn_guards (.lock turn.sessionId)
  obtain ⟨clock, sessionId, items, violations, elapsedSecs⟩ := turn
  unfold PersistTurn.program at hreads ⊢
  simp only at hreads hguards ⊢
  cases items with
  | cons item items => exact .write hguards (hreads.2 db)
  | nil =>
    rw [List.foldr_nil] at hreads ⊢
    cases violations with
    | cons violation violations => exact .write hguards (hreads.2 db)
    | nil =>
      rw [List.foldr_nil] at hreads ⊢
      cases elapsedSecs with
      | none => exact .finish ()
      | some secs => exact .write (turn_guards (.elapse clock sessionId secs 0)) trivial

end Locks

section Interleavings

variable [Runtime] {ι : Type} [DecidableEq ι] [Fintype ι]

def turnsStart (db : Database) (turns : ι → PersistTurn) :
    World Database TurnWrite Empty Empty ApiException Unit ι :=
  World.start db fun i => (turns i).program

def committedTurns (turns : ι → PersistTurn)
    (world : World Database TurnWrite Empty Empty ApiException Unit ι) : List PersistTurn :=
  world.log.map fun c => turns c.request

/-- Interleaved requests leave what the endpoint leaves on the committed requests, one after the other
in the order of their commits. -/
theorem turns_serializable (db : Database) (turns : ι → PersistTurn) (moves : List (Move ι)) :
    let world := Runs.exec (World.scheduler turnEngine) (turnsStart db turns) moves
    SerialRun turnEngine (fun i => (turns i).program) db (world.log.map (·.request))
      world.database := by
  intro world
  have hsound : world.Sound turnEngine db fun i => (turns i).program := scheduler_sound moves
  have hguarded : world.Guarded turnEngine := scheduler_guarded turn_conflicts_symm moves
  exact hsound.serializable hguarded (fun _ _ => rfl) (fun i => turn_local (turns i).sessionId)
    fun i => (turns i).program_locked db

end Interleavings

end IBotCoreApi
