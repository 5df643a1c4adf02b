import IBotCoreApi.Library.KeyedAppends
import IBotCoreApi.LifecycleTimes
import IBotCoreApi.TurnRequests

namespace IBotCoreApi
open Python Outcomes KeyedAppends Transactions InterviewSessionRepository InternalInterview

section Entries

variable [Runtime] {idKey : String} {items items' : List Json} {item : Json.Entries}

/-- `str(entry.get(id_key) or "")`. -/
def entryId (idKey : String) : Json → String
  | .dict d => idText d idKey
  | _ => ""

theorem anyWithId_ok {itemId : String} {known : Bool}
    (h : anyWithId idKey itemId items = .ok known) :
    known = true → itemId ∈ items.map (entryId idKey) := by
  induction items with
  | nil =>
    cases h
    simp
  | cons entry items ih =>
    intro hknown
    cases entry with
    | dict d =>
      simp only [anyWithId] at h
      rw [List.map_cons]
      split at h
      · rename_i hid
        exact hid ▸ List.mem_cons_self
      · exact List.mem_cons_of_mem _ (ih h hknown)
    | _ => cases h

theorem anyWithId_ok_false {itemId : String}
    (h : anyWithId idKey itemId items = .ok false) : itemId ∉ items.map (entryId idKey) := by
  induction items with
  | nil => simp
  | cons entry items ih =>
    cases entry with
    | dict d =>
      simp only [anyWithId] at h
      split at h
      · cases h
      · rename_i hother
        rw [List.map_cons, List.mem_cons, not_or]
        exact ⟨fun heq => hother heq.symm, ih h⟩
    | _ => cases h

/-- An accepted entry has an id, and is appended unless its id is known. -/
theorem appendUnique_ok {appended : Bool}
    (h : appendUnique items item idKey = .ok (items', appended)) :
    idText item idKey ≠ "" ∧ items' = push (entryId idKey) items (.dict item) ∧
      (appended = false → items' = items) ∧ (appended = true → items' = items ++ [.dict item]) := by
  unfold appendUnique at h
  simp only at h
  split at h
  · cases h
  · rename_i hid
    obtain ⟨known, hknown, h⟩ := bind_eq_ok.mp h
    have hscan := ofPython_ok hknown
    refine ⟨hid, ?_⟩
    cases known with
    | true =>
      cases h
      exact ⟨(push_of_mem (anyWithId_ok hscan rfl)).symm, fun _ => rfl, by simp⟩
    | false =>
      cases h
      exact ⟨(push_of_not_mem (anyWithId_ok_false hscan)).symm, by simp, fun _ => rfl⟩

def appendAll (idKey : String) (items : List Json) (new : List Json.Entries) :
    Except ApiException (List Json) :=
  new.foldlM (fun items item => Prod.fst <$> appendUnique items item idKey) items

theorem appendAll_ok {new : List Json.Entries} (h : appendAll idKey items new = .ok items') :
    (∀ item ∈ new, idText item idKey ≠ "") ∧
      items' = (new.map .dict).foldl (push (entryId idKey)) items := by
  induction new generalizing items with
  | nil =>
    cases h
    simp
  | cons item new ih =>
    rw [appendAll, List.foldlM_cons] at h
    obtain ⟨next, hitem, h⟩ := bind_eq_ok.mp h
    obtain ⟨⟨pushed, appended⟩, hitem, hfst⟩ := map_eq_ok.mp hitem
    obtain ⟨hid, hpushed, _⟩ := appendUnique_ok hitem
    have hnext : next = push (entryId idKey) items (.dict item) := hfst.symm.trans hpushed
    obtain ⟨hids, rfl⟩ := ih h
    refine ⟨?_, ?_⟩
    · intro other hother
      rcases List.mem_cons.mp hother with rfl | hother
      · exact hid
      · exact hids other hother
    · rw [List.map_cons, List.foldl_cons, ← hnext]

theorem prefix_of_appendAll {new : List Json.Entries} (h : appendAll idKey items new = .ok items') :
    items <+: items' := by
  obtain ⟨_, rfl⟩ := appendAll_ok h
  rw [foldl_push]
  exact List.prefix_append _ _

end Entries

section Rows

variable [Runtime] {db : Database} {clock : Clock} {sessionId : Uuid} {s : InterviewSession}

omit [Runtime] in
theorem updateSessions_twice {u v w : SessionUpdate} (h : ∀ s, v.set (u.set s) = w.set s) :
    (db.updateSessions (·.id == sessionId) u).updateSessions (·.id == sessionId) v =
      db.updateSessions (·.id == sessionId) w := by
  unfold Database.updateSessions
  rw [Tables.updateWhere_updateWhere (fun r => by rw [set_id]) h]

theorem appendTurns_eq (hs : db.session? sessionId = some s) (items : List Json.Entries) :
    items.foldlM (fun db item => Prod.snd <$> appendTranscriptTurn db clock sessionId item none) db =
      (appendAll "turn_id" s.transcript items).map fun transcript =>
        if items = [] then db
        else db.updateSessions (·.id == sessionId)
          (turnAppended clock transcript s.totalElapsedSecs) := by
  induction items generalizing db s with
  | nil => rfl
  | cons item items ih =>
    have hitem : appendTranscriptTurn db clock sessionId item none =
        (appendUnique s.transcript item "turn_id").map fun result =>
          (result.2, db.updateSessions (·.id == sessionId)
            (turnAppended clock result.1 s.totalElapsedSecs)) := by
      unfold appendTranscriptTurn lockedSession
      rw [hs]
      rfl
    rw [List.foldlM_cons, hitem, appendAll, List.foldlM_cons]
    cases appendUnique s.transcript item "turn_id" with
    | error error => rfl
    | ok appended =>
      have hnext := ih (Database.session?_update hs (turnAppended clock appended.1 s.totalElapsedSecs))
      show items.foldlM _ (db.updateSessions _ _) = _
      rw [hnext]
      show Except.map _ (appendAll "turn_id" appended.1 items) =
        Except.map _ (appendAll "turn_id" appended.1 items)
      cases hall : appendAll "turn_id" appended.1 items with
      | error error => rfl
      | ok transcript =>
        simp only [Except.map, reduceCtorEq, if_false]
        cases items with
        | nil =>
          cases hall
          rfl
        | cons => exact congrArg Except.ok (updateSessions_twice fun _ => rfl)

/-- The violations of a request are appended to the row as to a list; without a new one the row is
not written. -/
theorem appendViolations_eq (hs : db.session? sessionId = some s) (new : List Json.Entries) :
    new.foldlM (fun db violation => Prod.snd <$> appendViolation db clock sessionId violation) db =
      (appendAll "violation_id" s.violations new).map fun stored =>
        if stored.length = s.violations.length then db
        else db.updateSessions (·.id == sessionId) (violationsSaved clock stored) := by
  induction new generalizing db s with
  | nil => simp [appendAll, Except.map, pure, Except.pure]
  | cons violation new ih =>
    have hitem : appendViolation db clock sessionId violation =
        (appendUnique s.violations violation "violation_id").map fun result =>
          (result.2, if result.2 then
            db.updateSessions (·.id == sessionId) (violationsSaved clock result.1) else db) := by
      unfold appendViolation lockedSession
      rw [hs]
      rfl
    rw [List.foldlM_cons, hitem, appendAll, List.foldlM_cons]
    cases hunique : appendUnique s.violations violation "violation_id" with
    | error error => rfl
    | ok result =>
      obtain ⟨stored, appended⟩ := result
      obtain ⟨_, _, hkept, happended⟩ := appendUnique_ok hunique
      cases appended with
      | false =>
        obtain rfl := hkept rfl
        exact ih hs
      | true =>
        have hnext := ih (Database.session?_update hs (violationsSaved clock stored))
        show new.foldlM _ (db.updateSessions _ _) = _
        rw [hnext]
        show Except.map _ (appendAll "violation_id" stored new) =
          Except.map _ (appendAll "violation_id" stored new)
        cases hall : appendAll "violation_id" stored new with
        | error error => rfl
        | ok final =>
          have hgrown : stored.length = s.violations.length + 1 := by
            rw [happended rfl, List.length_append, List.length_singleton]
          have hprefix := prefix_of_appendAll hall
          have hle := hprefix.length_le
          refine congrArg Except.ok ?_
          show (if final.length = stored.length then _ else _) =
            if final.length = s.violations.length then _ else _
          rw [if_neg (by omega : ¬ final.length = s.violations.length)]
          by_cases hlength : final.length = stored.length
          · rw [if_pos hlength, hprefix.eq_of_length hlength.symm]
          · rw [if_neg hlength]
            exact updateSessions_twice fun _ => rfl

end Rows

section Requests

def PersistTurn.appended [Runtime] (turn : PersistTurn) (time : Time) (s : InterviewSession) :
    InterviewSession :=
  { s with
    transcript := (turn.transcriptItems.map .dict).foldl (push (entryId "turn_id")) s.transcript
    violations := (turn.violations.map .dict).foldl (push (entryId "violation_id")) s.violations
    totalElapsedSecs := turn.elapsedSecs.elim s.totalElapsedSecs fun secs =>
      max s.totalElapsedSecs (max 0 secs)
    totalPauseSecs := turn.elapsedSecs.elim s.totalPauseSecs fun _ => max s.totalPauseSecs 0
    lastUpdatedAt := time }

def PersistTurn.Identified [Runtime] (turn : PersistTurn) : Prop :=
  (∀ item ∈ turn.transcriptItems, idText item "turn_id" ≠ "") ∧
    ∀ violation ∈ turn.violations, idText violation "violation_id" ≠ ""

variable [Runtime] {db db' : Database} {turn : PersistTurn} {s : InterviewSession}

/-- On a session the request is three updates of its row, unless an append is refused. -/
theorem persist_of_session (hs : db.session? turn.sessionId = some s) :
    turn.persist db = do
      let transcript ← appendAll "turn_id" s.transcript turn.transcriptItems
      let violations ← appendAll "violation_id" s.violations turn.violations
      let db := if turn.transcriptItems = [] then db else
        db.updateSessions (·.id == turn.sessionId)
          (turnAppended turn.clock transcript s.totalElapsedSecs)
      let db := if violations.length = s.violations.length then db else
        db.updateSessions (·.id == turn.sessionId) (violationsSaved turn.clock violations)
      return ((), turn.elapsedSecs.elim db
        fun secs => updateElapsedTime db turn.clock turn.sessionId secs 0) := by
  unfold PersistTurn.persist persistTurn
  rw [appendTurns_eq hs]
  cases appendAll "turn_id" s.transcript turn.transcriptItems with
  | error error => rfl
  | ok transcript =>
    have hsession : ∃ s', (if turn.transcriptItems = [] then db else
        db.updateSessions (·.id == turn.sessionId)
          (turnAppended turn.clock transcript s.totalElapsedSecs)).session? turn.sessionId =
            some s' ∧ s'.violations = s.violations := by
      split
      · exact ⟨s, hs, rfl⟩
      · exact ⟨_, Database.session?_update hs _, rfl⟩
    dsimp only [Except.map, bind, Except.bind]
    generalize (if turn.transcriptItems = [] then db else
      db.updateSessions (·.id == turn.sessionId)
        (turnAppended turn.clock transcript s.totalElapsedSecs)) = opened at hsession ⊢
    obtain ⟨s', hs', hviolations⟩ := hsession
    rw [appendViolations_eq hs', hviolations]
    cases appendAll "violation_id" s.violations turn.violations with
    | error error => rfl
    | ok violations =>
      cases turn.elapsedSecs with
      | none => rfl
      | some secs => rfl

theorem persist_of_missing (hs : db.session? turn.sessionId = none)
    (happends : turn.transcriptItems ≠ [] ∨ turn.violations ≠ []) :
    turn.persist db = .error .noResultFound := by
  have hlocked : lockedSession db turn.sessionId = .error .noResultFound := by
    unfold lockedSession
    rw [hs]
  unfold PersistTurn.persist persistTurn
  cases hitems : turn.transcriptItems with
  | cons item items =>
    rw [List.foldlM_cons, appendTranscriptTurn, hlocked]
    rfl
  | nil =>
    rw [List.foldlM_nil, pure_bind]
    cases hviolations : turn.violations with
    | nil => simp_all
    | cons violation violations =>
      rw [List.foldlM_cons, appendViolation, hlocked]
      rfl

theorem persist_of_empty
    (hempty : ¬ (turn.transcriptItems ≠ [] ∨ turn.violations ≠ [])) :
    turn.persist db = .ok ((), turn.elapsedSecs.elim db
      fun secs => updateElapsedTime db turn.clock turn.sessionId secs 0) := by
  simp only [not_or, not_not] at hempty
  unfold PersistTurn.persist persistTurn
  rw [hempty.1, hempty.2, List.foldlM_nil, pure_bind, List.foldlM_nil, pure_bind]
  cases turn.elapsedSecs with
  | none => rfl
  | some secs => rfl

theorem persist_ok_identified (hrun : turn.persist db = .ok ((), db')) : turn.Identified := by
  cases hs : db.session? turn.sessionId with
  | some s =>
    rw [persist_of_session hs] at hrun
    obtain ⟨transcript, htranscript, hrun⟩ := bind_eq_ok.mp hrun
    obtain ⟨violations, hviolations, _⟩ := bind_eq_ok.mp hrun
    exact ⟨(appendAll_ok htranscript).1, (appendAll_ok hviolations).1⟩
  | none =>
    by_cases happends : turn.transcriptItems ≠ [] ∨ turn.violations ≠ []
    · rw [persist_of_missing hs happends] at hrun
      cases hrun
    · simp only [not_or, not_not] at happends
      constructor <;> simp [happends]

theorem persist_row (hrun : turn.persist db = .ok ((), db'))
    (hs : db.session? turn.sessionId = some s) :
    ∃ time, db'.session? turn.sessionId = some (turn.appended time s) := by
  rw [persist_of_session hs] at hrun
  obtain ⟨transcript, htranscript, hrun⟩ := bind_eq_ok.mp hrun
  obtain ⟨violations, hviolations, hrun⟩ := bind_eq_ok.mp hrun
  obtain ⟨_, happended⟩ := appendAll_ok htranscript
  obtain ⟨_, hstored⟩ := appendAll_ok hviolations
  have hturns : ∃ time, (if turn.transcriptItems = [] then db else
      db.updateSessions (·.id == turn.sessionId)
        (turnAppended turn.clock transcript s.totalElapsedSecs)).session? turn.sessionId =
          some { s with transcript := transcript, lastUpdatedAt := time } := by
    split
    · rename_i hnil
      rw [hnil] at htranscript
      cases htranscript
      exact ⟨s.lastUpdatedAt, hs⟩
    · exact ⟨turn.clock.dbNow, Database.session?_update hs _⟩
  obtain ⟨time, hturns⟩ := hturns
  generalize (if turn.transcriptItems = [] then db else
    db.updateSessions (·.id == turn.sessionId)
      (turnAppended turn.clock transcript s.totalElapsedSecs)) = opened at hturns hrun
  have hsaved : ∃ time, (if violations.length = s.violations.length then opened else
      opened.updateSessions (·.id == turn.sessionId)
        (violationsSaved turn.clock violations)).session? turn.sessionId =
          some { s with
            transcript := transcript
            violations := violations
            lastUpdatedAt := time } := by
    split
    · rename_i hlength
      rw [← (prefix_of_appendAll hviolations).eq_of_length hlength.symm]
      exact ⟨time, hturns⟩
    · exact ⟨turn.clock.dbNow, Database.session?_update hturns _⟩
  obtain ⟨time, hsaved⟩ := hsaved
  dsimp only at hrun
  generalize (if violations.length = s.violations.length then opened else
    opened.updateSessions (·.id == turn.sessionId)
      (violationsSaved turn.clock violations)) = saved at hsaved hrun
  cases hrun
  unfold PersistTurn.appended
  rw [← happended, ← hstored]
  cases turn.elapsedSecs with
  | none => exact ⟨time, hsaved⟩
  | some secs => exact ⟨turn.clock.dbNow, Database.session?_update hsaved _⟩

theorem persist_other (hrun : turn.persist db = .ok ((), db')) {sessionId : Uuid}
    (hother : sessionId ≠ turn.sessionId) : db'.session? sessionId = db.session? sessionId := by
  have hkept (db : Database) (u : SessionUpdate) :
      (db.updateSessions (·.id == turn.sessionId) u).session? sessionId = db.session? sessionId :=
    session?_updateSessions_of_ne u hother
  have htimed (db : Database) : (turn.elapsedSecs.elim db fun secs =>
      updateElapsedTime db turn.clock turn.sessionId secs 0).session? sessionId =
        db.session? sessionId := by
    cases turn.elapsedSecs with
    | none => rfl
    | some secs => exact hkept db _
  cases hs : db.session? turn.sessionId with
  | some s =>
    rw [persist_of_session hs] at hrun
    obtain ⟨transcript, _, hrun⟩ := bind_eq_ok.mp hrun
    obtain ⟨violations, _, hrun⟩ := bind_eq_ok.mp hrun
    cases hrun
    rw [htimed]
    split_ifs <;> simp only [hkept]
  | none =>
    by_cases happends : turn.transcriptItems ≠ [] ∨ turn.violations ≠ []
    · rw [persist_of_missing hs happends] at hrun
      cases hrun
    · rw [persist_of_empty happends] at hrun
      cases hrun
      exact htimed db

theorem persist_missing_row (hrun : turn.persist db = .ok ((), db'))
    (hs : db.session? turn.sessionId = none) : db'.session? turn.sessionId = none := by
  by_cases happends : turn.transcriptItems ≠ [] ∨ turn.violations ≠ []
  · rw [persist_of_missing hs happends] at hrun
    cases hrun
  · rw [persist_of_empty happends] at hrun
    cases hrun
    cases turn.elapsedSecs with
    | none => exact hs
    | some secs =>
      rw [Option.elim_some, updateElapsedTime, Database.session?_updateSessions, hs, Option.map_none]

theorem persist_error (clock : Clock) {error : ApiException}
    (hrun : turn.persist db = .error error) :
    { turn with clock := clock }.persist db = .error error := by
  cases hs : db.session? turn.sessionId with
  | some s =>
    rw [persist_of_session hs] at hrun
    have hs' : db.session? ({ turn with clock := clock } : PersistTurn).sessionId = some s := hs
    rw [persist_of_session hs']
    simp only at hrun ⊢
    cases htranscript : appendAll "turn_id" s.transcript turn.transcriptItems with
    | error error' =>
      rw [htranscript] at hrun
      cases hrun
      rfl
    | ok transcript =>
      rw [htranscript] at hrun
      cases hviolations : appendAll "violation_id" s.violations turn.violations with
      | error error' =>
        rw [hviolations] at hrun
        cases hrun
        rfl
      | ok violations =>
        rw [hviolations] at hrun
        cases hrun
  | none =>
    by_cases happends : turn.transcriptItems ≠ [] ∨ turn.violations ≠ []
    · rw [persist_of_missing hs happends] at hrun
      cases hrun
      have hs' : db.session? ({ turn with clock := clock } : PersistTurn).sessionId = none := hs
      exact persist_of_missing hs' happends
    · rw [persist_of_empty happends] at hrun
      cases hrun

end Requests

section Runs

variable [Runtime] {db db' : Database} {sessionId : Uuid} {s s' : InterviewSession}

/-- A row after the requests of its session have committed in this order. -/
structure TurnsAppended (turns : List PersistTurn) (s s' : InterviewSession) : Prop where
  transcript : s'.transcript = s.transcript ++ news (entryId "turn_id")
    (s.transcript.map (entryId "turn_id")) (turns.flatMap fun turn => turn.transcriptItems.map .dict)
  violations : s'.violations = s.violations ++ news (entryId "violation_id")
    (s.violations.map (entryId "violation_id")) (turns.flatMap fun turn => turn.violations.map .dict)
  elapsed : s'.totalElapsedSecs = (turns.filterMap (·.elapsedSecs)).foldl
    (fun total secs => max total (max 0 secs)) s.totalElapsedSecs
  rest : s' = { s with
    transcript := s'.transcript
    violations := s'.violations
    totalElapsedSecs := s'.totalElapsedSecs
    totalPauseSecs := s'.totalPauseSecs
    lastUpdatedAt := s'.lastUpdatedAt }

theorem TurnsAppended.nodup {turns : List PersistTurn} (h : TurnsAppended turns s s') :
    ((s.transcript.map (entryId "turn_id")).Nodup →
      (s'.transcript.map (entryId "turn_id")).Nodup) ∧
      ((s.violations.map (entryId "violation_id")).Nodup →
        (s'.violations.map (entryId "violation_id")).Nodup) := by
  rw [h.transcript, h.violations, ← foldl_push, ← foldl_push]
  exact ⟨fun hnodup => nodup_foldl hnodup _, fun hnodup => nodup_foldl hnodup _⟩

theorem TurnsAppended.cons {turn : PersistTurn} {turns : List PersistTurn} {time : Time}
    (h : TurnsAppended turns (turn.appended time s) s') : TurnsAppended (turn :: turns) s s' where
  transcript := by
    rw [h.transcript, ← foldl_push, ← foldl_push, List.flatMap_cons, List.foldl_append]
    rfl
  violations := by
    rw [h.violations, ← foldl_push, ← foldl_push, List.flatMap_cons, List.foldl_append]
    rfl
  elapsed := by
    rw [h.elapsed, List.filterMap_cons]
    unfold PersistTurn.appended
    cases turn.elapsedSecs with
    | none => rfl
    | some secs => rfl
  rest := by
    have hrest := h.rest
    unfold PersistTurn.appended at hrest
    exact hrest

omit [Runtime] in
theorem foldl_max_clamped (secs : List ℤ) {total : ℤ} (h : 0 ≤ total) :
    secs.foldl (fun total secs => max total (max 0 secs)) total =
      (secs.filter (0 ≤ ·)).foldl max total := by
  induction secs generalizing total with
  | nil => rfl
  | cons first secs ih =>
    rw [List.foldl_cons, ih (le_max_of_le_left h), List.filter_cons]
    by_cases hfirst : 0 ≤ first
    · rw [if_pos (decide_eq_true hfirst), List.foldl_cons, max_eq_right hfirst]
    · rw [if_neg (by simpa using hfirst), max_eq_left (a := 0) (by omega), max_eq_left h]

variable {ι : Type} {turns : ι → PersistTurn}

/-- A serial run appends to each row what its requests carry. -/
theorem serialRun_appended {requests : List ι}
    (hrun : SerialRun turnEngine (fun i => (turns i).program) db requests db')
    (hs : db.session? sessionId = some s) :
    ∃ s', db'.session? sessionId = some s' ∧ TurnsAppended
      ((requests.map turns).filter (·.sessionId == sessionId)) s s' := by
  induction hrun generalizing s with
  | nil =>
    refine ⟨s, hs, ?_⟩
    constructor <;> simp [news]
  | @cons db₀ db₁ db₂ i requests result hrun _ ih =>
    rw [PersistTurn.execute_program] at hrun
    rw [List.map_cons, List.filter_cons]
    by_cases hid : (turns i).sessionId = sessionId
    · subst hid
      obtain ⟨time, hrow⟩ := persist_row hrun hs
      obtain ⟨s', hs', happended⟩ := ih hrow
      rw [if_pos (beq_self_eq_true _)]
      exact ⟨s', hs', happended.cons⟩
    · rw [if_neg (by simpa using hid)]
      exact ih (by rw [persist_other hrun (Ne.symm hid), hs])

theorem serialRun_identified {requests : List ι}
    (hrun : SerialRun turnEngine (fun i => (turns i).program) db requests db') :
    ∀ i ∈ requests, (turns i).Identified := by
  induction hrun with
  | nil => simp
  | cons hrun _ ih =>
    intro i hi
    rcases List.mem_cons.mp hi with rfl | hi
    · rw [PersistTurn.execute_program] at hrun
      exact persist_ok_identified hrun
    · exact ih i hi

theorem appended_twice (turn : PersistTurn) (time time' : Time) (s : InterviewSession) :
    turn.appended time' (turn.appended time s) = turn.appended time' s := by
  unfold PersistTurn.appended
  simp only [foldl_twice]
  cases turn.elapsedSecs with
  | none => rfl
  | some secs => simp only [Option.elim_some, sup_right_idem]

def PersistTurn.commit (db : Database) (turn : PersistTurn) : Database :=
  (handle db ⟨turn.clock, .persistTurn turn.sessionId turn.transcriptItems turn.violations
    turn.elapsedSecs⟩).2

theorem commit_of_ok {turn : PersistTurn} (hrun : turn.persist db = .ok ((), db')) :
    turn.commit db = db' := by
  show (transact db (turn.persist db)).2 = _
  rw [hrun]
  rfl

theorem commit_of_error {turn : PersistTurn} {error : ApiException}
    (hrun : turn.persist db = .error error) : turn.commit db = db := by
  show (transact db (turn.persist db)).2 = _
  rw [hrun]
  rfl

omit [Runtime] in
theorem touched_of_eq {row row' : Option InterviewSession} (h : row' = row) :
    ∃ time, row' = row.map fun s => { s with lastUpdatedAt := time } := by
  subst h
  cases row' with
  | none => exact ⟨0, rfl⟩
  | some s => exact ⟨s.lastUpdatedAt, rfl⟩

/-- A retry at any time changes `last_updated_at` at most. -/
theorem commit_twice (db : Database) (turn : PersistTurn) (clock : Clock) (sessionId : Uuid) :
    ∃ time, ({ turn with clock := clock }.commit (turn.commit db)).session? sessionId =
      ((turn.commit db).session? sessionId).map fun s => { s with lastUpdatedAt := time } := by
  cases hfirst : turn.persist db with
  | error error =>
    rw [commit_of_error hfirst, commit_of_error (persist_error clock hfirst)]
    exact touched_of_eq rfl
  | ok first =>
    obtain ⟨_, db₁⟩ := first
    rw [commit_of_ok hfirst]
    cases hsecond : { turn with clock := clock }.persist db₁ with
    | error error =>
      rw [commit_of_error hsecond]
      exact touched_of_eq rfl
    | ok second =>
      obtain ⟨_, db₂⟩ := second
      rw [commit_of_ok hsecond]
      by_cases hid : sessionId = turn.sessionId
      · subst hid
        cases hs : db.session? turn.sessionId with
        | none =>
          have hrow := persist_missing_row hfirst hs
          exact touched_of_eq ((persist_missing_row hsecond hrow).trans hrow.symm)
        | some s =>
          obtain ⟨time, hrow⟩ := persist_row hfirst hs
          obtain ⟨time', hrow'⟩ := persist_row hsecond hrow
          refine ⟨time', ?_⟩
          rw [hrow', hrow]
          exact congrArg some (appended_twice turn time time' s)
      · exact touched_of_eq (persist_other hsecond hid)

variable [DecidableEq ι] [Fintype ι]

/-- In any interleaving of `persist-turn` requests, a request with an entry without id never commits;
each session row carries what it had, followed by the entries of the committed requests in the order
of the commits without those whose ids have occurred; distinct ids stay distinct; the elapsed time,
which no reachable session has below zero, is the greatest one; and a retry changes nothing but
`last_updated_at`. -/
theorem appended_exactly_once (db : Database) (turns : ι → PersistTurn) (moves : List (Move ι)) :
    let world := Runs.exec (World.scheduler turnEngine) (turnsStart db turns) moves
    (∀ i result, world.status i = .committed result → (turns i).Identified) ∧
      (∀ sessionId s, db.session? sessionId = some s →
        let committed := (committedTurns turns world).filter (·.sessionId == sessionId)
        ∃ s', world.database.session? sessionId = some s' ∧ TurnsAppended committed s s' ∧
          ((s.transcript.map (entryId "turn_id")).Nodup →
            (s'.transcript.map (entryId "turn_id")).Nodup) ∧
          ((s.violations.map (entryId "violation_id")).Nodup →
            (s'.violations.map (entryId "violation_id")).Nodup) ∧
          (0 ≤ s.totalElapsedSecs → s'.totalElapsedSecs =
            ((committed.filterMap (·.elapsedSecs)).filter (0 ≤ ·)).foldl max s.totalElapsedSecs)) ∧
      (∀ store, Reachable store → ∀ s ∈ store.db.interviewSessions, 0 ≤ s.totalElapsedSecs) ∧
      ∀ (db : Database) (turn : PersistTurn) clock sessionId, ∃ time,
        ({ turn with clock := clock }.commit (turn.commit db)).session? sessionId =
          ((turn.commit db).session? sessionId).map fun s => { s with lastUpdatedAt := time } := by
  intro world
  have hrun := turns_serializable db turns moves
  refine ⟨?_, ?_, fun _ hreach _ => hreach.elapsed_nonneg, commit_twice⟩
  · intro i result hi
    obtain ⟨c, hc, rfl⟩ := scheduler_logged moves i result hi
    exact serialRun_identified hrun c.request (List.mem_map_of_mem hc)
  · intro sessionId s hs committed
    obtain ⟨s', hs', happended⟩ := serialRun_appended hrun hs
    rw [List.map_map] at happended
    refine ⟨s', hs', happended, happended.nodup.1, happended.nodup.2, fun hnonneg => ?_⟩
    rw [happended.elapsed]
    exact foldl_max_clamped _ hnonneg

end Runs

end IBotCoreApi
