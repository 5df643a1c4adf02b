import IBotCoreApi.Service

namespace IBotCoreApi
open Python Runs InternalInterview CandidateSessionRepository InterviewSessionRepository
  AssessmentContextRepository EvaluationRepository InterviewSessionService

section Timestamps

variable {clock : Clock} {request : SessionRequest} {e e' : Enrollment}
  {ca ca' ca'' : CandidateAssessment}

structure WriteOnce (ca ca' : CandidateAssessment) : Prop where
  started : ∀ t, ca.interviewStartedAt = some t → ca'.interviewStartedAt = some t
  ended : ∀ t, ca.interviewEndedAt = some t → ca'.interviewEndedAt = some t
  consumedAt : ∀ t, ca.inviteConsumedAt = some t → ca'.inviteConsumedAt = some t
  consumed : ca.inviteConsumed → ca'.inviteConsumed

theorem WriteOnce.refl (ca : CandidateAssessment) : WriteOnce ca ca :=
  ⟨fun _ => id, fun _ => id, fun _ => id, id⟩

theorem WriteOnce.trans (h : WriteOnce ca ca') (h' : WriteOnce ca' ca'') : WriteOnce ca ca'' where
  started t ht := h'.started t (h.started t ht)
  ended t ht := h'.ended t (h.ended t ht)
  consumedAt t ht := h'.consumedAt t (h.consumedAt t ht)
  consumed hc := h'.consumed (h.consumed hc)

def EndRecorded (ca : CandidateAssessment) : Prop :=
  ca.status ∈ terminalCandidateStatuses → ca.interviewEndedAt.isSome

/-- An update of an enrollment that keeps what is set, and records the end with a terminal status. -/
structure Timely (u : CandidateUpdate) : Prop where
  writeOnce : ∀ ca, WriteOnce ca (u.set ca)
  endRecorded : ∀ ca, EndRecorded ca → EndRecorded (u.set ca)

theorem orElse_of_some {now t : Time} {stored : Option Time} (h : stored = some t) :
    (stored <|> some now) = some t := by
  rw [h]
  rfl

theorem orElse_isSome (now : Time) (stored : Option Time) : (stored <|> some now).isSome := by
  cases stored <;> rfl

theorem consumed_timely (clock : Clock) : Timely (consumed clock) where
  writeOnce _ := ⟨fun _ => id, fun _ => id, fun _ => orElse_of_some, fun _ => rfl⟩
  endRecorded _ := id

theorem candidateInProgress_timely (clock : Clock) : Timely (candidateInProgress clock) where
  writeOnce _ := ⟨fun _ => id, fun _ => id, fun _ => id, id⟩
  endRecorded _ _ hterminal := by simp [candidateInProgress, terminalCandidateStatuses] at hterminal

theorem timerStarted_timely (clock : Clock) : Timely (timerStarted clock) where
  writeOnce _ := ⟨fun _ => orElse_of_some, fun _ => id, fun _ => id, id⟩
  endRecorded _ _ hterminal := by simp [timerStarted, terminalCandidateStatuses] at hterminal

theorem candidateTerminated_timely (clock : Clock) : Timely (candidateTerminated clock) where
  writeOnce _ := ⟨fun _ => id, fun _ => orElse_of_some, fun _ => id, id⟩
  endRecorded ca _ _ := orElse_isSome clock.dbNow ca.interviewEndedAt

theorem candidateCompleted_timely (clock : Clock) : Timely (candidateCompleted clock) where
  writeOnce _ := ⟨fun _ => id, fun _ => orElse_of_some, fun _ => id, id⟩
  endRecorded ca _ _ := orElse_isSome clock.dbNow ca.interviewEndedAt

theorem candidateEvaluated_timely (clock : Clock) : Timely (candidateEvaluated clock) where
  writeOnce _ := ⟨fun _ => id, fun _ => orElse_of_some, fun _ => id, id⟩
  endRecorded ca _ _ := orElse_isSome clock.dbNow ca.interviewEndedAt

theorem Enrollment.Step.timely (h : e.Step clock request e') :
    e'.candidate = e.candidate ∨ ∃ u, Timely u ∧ e'.candidate = u.set e.candidate := by
  cases h with
  | unchanged | refused | bound | turnPersisted | sessionInProgress | sessionCompleted
    | evaluationFailed => exact .inl rfl
  | admitted =>
    unfold Enrollment.invited
    split
    · exact .inl rfl
    · exact .inr ⟨_, consumed_timely clock, rfl⟩
  | reconnected | initialized | candidateStarted =>
    exact .inr ⟨_, candidateInProgress_timely clock, rfl⟩
  | timedOut => exact .inr ⟨_, candidateTerminated_timely clock, rfl⟩
  | disconnected =>
    unfold Enrollment.dropped
    split
    · exact .inr ⟨_, candidateTerminated_timely clock, rfl⟩
    · exact .inl rfl
  | tabSwitched | proctored =>
    unfold Enrollment.violated
    split
    · exact .inr ⟨_, candidateTerminated_timely clock, rfl⟩
    · exact .inl rfl
  | timerStarted => exact .inr ⟨_, timerStarted_timely clock, rfl⟩
  | candidateCompleted => exact .inr ⟨_, candidateCompleted_timely clock, rfl⟩
  | @evaluated draws record =>
    dsimp only
    unfold Tables.Update.onRow
    split
    · exact .inr ⟨_, candidateEvaluated_timely clock, rfl⟩
    · exact .inl rfl

theorem Enrollment.Step.writeOnce (h : e.Step clock request e') :
    WriteOnce e.candidate e'.candidate := by
  rcases h.timely with heq | ⟨u, hu, heq⟩
  · rw [heq]
    exact .refl _
  · rw [heq]
    exact hu.writeOnce e.candidate

theorem Enrollment.Step.endRecorded (h : e.Step clock request e')
    (hold : EndRecorded e.candidate) : EndRecorded e'.candidate := by
  rcases h.timely with heq | ⟨u, hu, heq⟩
  · rwa [heq]
  · rw [heq]
    exact hu.endRecorded e.candidate hold

/-- Every enrollment of the earlier store is still there with its times. -/
def AllWriteOnce (store store' : Store) : Prop :=
  ∀ id ca, store.db.candidateAssessment? id = some ca →
    ∃ ca', store'.db.candidateAssessment? id = some ca' ∧ WriteOnce ca ca'

theorem AllWriteOnce.trans {a b c : Store} (hab : AllWriteOnce a b) (hbc : AllWriteOnce b c) :
    AllWriteOnce a c := by
  intro id ca hca
  obtain ⟨ca', hca', hkept⟩ := hab id ca hca
  obtain ⟨ca'', hca'', hkept'⟩ := hbc id ca' hca'
  exact ⟨ca'', hca'', hkept.trans hkept'⟩

variable [Runtime]

theorem serve_writeOnce (store : Store) (call : Call) : AllWriteOnce store (serve store call).2 := by
  intro id ca hca
  have he : store.db.enrollment? id = some ⟨ca, store.db.sessionOf? id⟩ :=
    enrollment?_eq_some.mpr ⟨hca, rfl⟩
  obtain ⟨e', he', hstep⟩ := handle_step store.wellFormed he call
  exact ⟨e'.candidate, (enrollment?_eq_some.mp he').1, hstep.writeOnce⟩

theorem Reachable.endRecorded {store : Store} (h : Reachable store) {ca : CandidateAssessment}
    (hca : ca ∈ store.db.candidateAssessments) : EndRecorded ca := by
  have hrow : store.db.candidateAssessment? ca.id = some ca :=
    Tables.lookup_of_mem store.wellFormed.candidateAssessmentIds hca
  refine h.enrollment (P := fun e => EndRecorded e.candidate) (fun hstep => hstep.endRecorded) ?_ ?_
    ca.id ⟨ca, _⟩ (enrollment?_eq_some.mpr ⟨hrow, rfl⟩)
  · intro e e' hsame hold
    rw [hsame.candidate]
    exact hold
  · intro e hnew hterminal
    rw [hnew.status] at hterminal
    simp [terminalCandidateStatuses] at hterminal

/-- Along every run each enrollment keeps the timestamps it has and a consumed invitation; in every
reachable state an interview that is over has its end. -/
theorem write_once_timestamps :
    (∀ (store : Store) (calls : List Call), AllWriteOnce store (exec serve store calls)) ∧
      ∀ store, Reachable store → ∀ ca ∈ store.db.candidateAssessments,
        ca.status ∈ terminalCandidateStatuses → ca.interviewEndedAt.isSome := by
  constructor
  · intro store calls
    apply exec_rel
    · intro store id ca hca
      exact ⟨ca, hca, .refl ca⟩
    · exact AllWriteOnce.trans
    · intro t ht
      obtain ⟨before, call, after, _, rfl⟩ := mem_trace ht
      exact serve_writeOnce (exec serve store before) call
  · intro store hreach ca hca
    exact hreach.endRecorded hca

end Timestamps

section Totals

variable {clock : Clock} {request : SessionRequest} {e e' : Enrollment}
  {s s' s'' : InterviewSession}

structure TotalsGrow (s s' : InterviewSession) : Prop where
  elapsed : s.totalElapsedSecs ≤ s'.totalElapsedSecs
  pause : s.totalPauseSecs ≤ s'.totalPauseSecs

theorem TotalsGrow.of_eq (helapsed : s'.totalElapsedSecs = s.totalElapsedSecs)
    (hpause : s'.totalPauseSecs = s.totalPauseSecs) : TotalsGrow s s' :=
  ⟨helapsed.ge, hpause.ge⟩

theorem TotalsGrow.refl (s : InterviewSession) : TotalsGrow s s := ⟨le_rfl, le_rfl⟩

theorem TotalsGrow.trans (h : TotalsGrow s s') (h' : TotalsGrow s' s'') : TotalsGrow s s'' :=
  ⟨h.elapsed.trans h'.elapsed, h.pause.trans h'.pause⟩

theorem issued_totals (clock : Clock) (token : String) (expiresAt : Time) (s : InterviewSession) :
    TotalsGrow s (Enrollment.issued clock token expiresAt s) := by
  unfold Enrollment.issued
  split
  · exact .of_eq rfl rfl
  · exact .refl s

theorem pauseSeconds_nonneg (clock : Clock) (lastDisconnectedAt : Option Time) :
    0 ≤ pauseSeconds clock lastDisconnectedAt := by
  unfold pauseSeconds
  split
  · exact le_max_left _ _
  · exact le_rfl

/-- A disconnect keeps the greater elapsed time. -/
theorem disconnected_totals (clock : Clock) (deadline : Time) (elapsedSecs : ℤ)
    (s : InterviewSession) :
    TotalsGrow s ((disconnected clock deadline elapsedSecs).set s) where
  elapsed := le_max_left _ _
  pause := le_rfl

theorem restored_totals (clock : Clock) (s : InterviewSession) :
    TotalsGrow s ((restored clock).set s) where
  elapsed := le_rfl
  pause := le_add_of_nonneg_right (pauseSeconds_nonneg clock s.lastDisconnectedAt)

theorem Enrollment.Step.totalsGrow (h : e.Step clock request e') (hs : e.session = some s)
    (hs' : e'.session = some s')
    (hcomplete : ∀ secs, request = .completeSession s.id secs → s.totalElapsedSecs ≤ max 0 secs) :
    TotalsGrow s s' := by
  have hsessionOr (newId : Uuid) : e.sessionOr newId clock = s := by
    simp [Enrollment.sessionOr, hs]
  cases h with
  | unchanged | timerStarted | candidateStarted | candidateCompleted =>
    cases hs.symm.trans hs'
    exact .refl s
  | refused =>
    cases hs'
    rw [hsessionOr]
    exact .refl s
  | admitted =>
    cases hs'
    rw [hsessionOr]
    exact issued_totals _ _ _ s
  | initialized =>
    cases hs'
    rw [hsessionOr]
    exact .of_eq rfl rfl
  | reconnected =>
    cases hs
    cases hs'
    exact (restored_totals clock s).trans (.of_eq rfl rfl)
  | disconnected =>
    cases hs
    cases hs'
    exact disconnected_totals _ _ _ s
  | turnPersisted hturn =>
    cases hs
    cases hs'
    exact ⟨hturn.elapsed, hturn.pause⟩
  | tabSwitched | proctored =>
    cases hs
    unfold Enrollment.violated at hs'
    split at hs'
    · cases hs'
      exact .of_eq rfl rfl
    · cases hs'
      exact .of_eq rfl rfl
  -- the completion overwrites the elapsed time, so the hypothesis compares it with the old one
  | sessionCompleted =>
    cases hs
    cases hs'
    exact ⟨hcomplete _ rfl, le_rfl⟩
  | evaluated =>
    rw [hs] at hs'
    cases hs'
    exact .of_eq (Tables.Update.onRow_column (fun _ => rfl) s)
      (Tables.Update.onRow_column (fun _ => rfl) s)
  | bound | timedOut | sessionInProgress | evaluationFailed =>
    cases hs
    cases hs'
    exact .of_eq rfl rfl

theorem Enrollment.Step.elapsed_nonneg (h : e.Step clock request e')
    (hold : ∀ s, e.session = some s → 0 ≤ s.totalElapsedSecs) (hs' : e'.session = some s') :
    0 ≤ s'.totalElapsedSecs := by
  have hsessionOr (newId : Uuid) : 0 ≤ (e.sessionOr newId clock).totalElapsedSecs := by
    unfold Enrollment.sessionOr
    cases hs : e.session with
    | none => exact le_rfl
    | some s => exact hold s hs
  cases h with
  | unchanged | timerStarted | candidateStarted | candidateCompleted => exact hold s' hs'
  | refused | initialized =>
    cases hs'
    exact hsessionOr _
  | admitted =>
    cases hs'
    exact (hsessionOr _).trans (issued_totals _ _ _ _).elapsed
  | disconnected =>
    cases hs'
    exact (hold _ rfl).trans (disconnected_totals _ _ _ _).elapsed
  | turnPersisted hturn =>
    cases hs'
    exact (hold _ rfl).trans hturn.elapsed
  | tabSwitched | proctored =>
    have hkept := hold _ rfl
    unfold Enrollment.violated at hs'
    split at hs'
    · cases hs'
      exact hkept
    · cases hs'
      exact hkept
  | sessionCompleted =>
    cases hs'
    exact le_max_left _ _
  | evaluated =>
    obtain ⟨s, hs, rfl⟩ := Option.map_eq_some_iff.mp hs'
    exact (hold s hs).trans (Tables.Update.onRow_column (fun _ => rfl) s).ge
  | bound | reconnected | timedOut | sessionInProgress | evaluationFailed =>
    have hkept := hold _ rfl
    cases hs'
    exact hkept

def AllTotalsGrow (store store' : Store) : Prop :=
  ∀ s ∈ store.db.interviewSessions, ∃ s', store'.db.session? s.id = some s' ∧ TotalsGrow s s'

theorem AllTotalsGrow.trans {a b c : Store} (hab : AllTotalsGrow a b) (hbc : AllTotalsGrow b c) :
    AllTotalsGrow a c := by
  intro s hs
  obtain ⟨s', hs', hgrow⟩ := hab s hs
  obtain ⟨s'', hs'', hgrow'⟩ := hbc s' (Tables.lookup_mem hs')
  rw [Database.id_of_session? hs'] at hs''
  exact ⟨s'', hs'', hgrow.trans hgrow'⟩

/-- A completion reports no less than the stored total. -/
def ReportsTotal (db : Database) : SessionRequest → Prop
  | .completeSession sessionId secs =>
    ∀ s, db.session? sessionId = some s → s.totalElapsedSecs ≤ max 0 secs
  | _ => True

variable [Runtime]

/-- The totals grow across a request exactly when it is no completion that reports too little. -/
theorem totalsGrow_iff (store : Store) (call : Call) :
    AllTotalsGrow store (serve store call).2 ↔ ReportsTotal store.db call.request := by
  obtain ⟨clock, request⟩ := call
  constructor
  · intro hgrow
    cases request with
    | completeSession sessionId secs =>
      intro s hs
      obtain rfl := Database.id_of_session? hs
      obtain ⟨s', hs', hgrow⟩ := hgrow s (Tables.lookup_mem hs)
      have hpost := Database.session?_update hs (completed clock secs)
      cases hs'.symm.trans hpost
      exact hgrow.elapsed
    | _ => trivial
  · intro hreports s hs
    obtain ⟨e, e', he, hsession, he', hstep⟩ := serve_session_step ⟨clock, request⟩ hs
    obtain ⟨s', hs', hid⟩ := hstep.session_kept hsession
    refine ⟨s', ?_, hstep.totalsGrow hsession hs' ?_⟩
    · rw [← hid]
      exact (serve store ⟨clock, request⟩).2.wellFormed.session?_of_mem
        (enrollment_session_mem he' hs')
    · rintro secs rfl
      exact hreports s (store.wellFormed.session?_of_mem hs)

theorem Reachable.elapsed_nonneg {store : Store} (h : Reachable store)
    (hs : s ∈ store.db.interviewSessions) : 0 ≤ s.totalElapsedSecs := by
  let Nonneg (e : Enrollment) : Prop := ∀ s, e.session = some s → 0 ≤ s.totalElapsedSecs
  obtain ⟨ca, hca⟩ := Option.isSome_iff_exists.mp (store.wellFormed.enrolled s hs)
  have he : store.db.enrollment? s.candidateAssessmentId = some ⟨ca, some s⟩ :=
    enrollment?_eq_some.mpr ⟨hca, store.wellFormed.sessionOf?_of_mem hs⟩
  refine h.enrollment (P := Nonneg) (fun hstep hold _ => hstep.elapsed_nonneg hold) ?_ ?_ _ _ he s
    rfl
  · intro e e' hsame hold
    simpa only [Nonneg, hsame.session] using hold
  · intro e hnew s hs
    rw [hnew.session] at hs
    cases hs

/-- An appended turn may carry a time of its own, which counts when it is greater. -/
theorem appendTranscriptTurn_totals {db db' : Database} {sessionId : Uuid} {turn : Json.Entries}
    {totalElapsedSecs : Option ℤ} {appended : Bool}
    (hrun : appendTranscriptTurn db clock sessionId turn totalElapsedSecs = .ok (appended, db'))
    (hs : db.session? sessionId = some s) :
    ∃ s', db'.session? sessionId = some s' ∧ TotalsGrow s s' := by
  unfold appendTranscriptTurn lockedSession at hrun
  rw [hs] at hrun
  obtain ⟨_, ⟨⟩, hrun⟩ := Outcomes.bind_eq_ok.mp hrun
  obtain ⟨⟨transcript, _⟩, _, hrun⟩ := Outcomes.bind_eq_ok.mp hrun
  cases hrun
  refine ⟨_, Database.session?_update hs _, ?_, le_rfl⟩
  cases totalElapsedSecs with
  | none => exact le_rfl
  | some secs => exact le_max_left _ _

/-- The totals over runs: no request of a run decreases one exactly when every completion reports at
least the stored total, and then they grow from any state of the run to any later one; an append
with a time of its own lets them grow too. -/
theorem totals_grow_run (store : Store) (calls : List Call) :
    ((∀ t ∈ trace serve store calls, AllTotalsGrow t.pre t.post) ↔
      ∀ t ∈ trace serve store calls, ReportsTotal t.pre.db t.input.request) ∧
    ((∀ t ∈ trace serve store calls, ReportsTotal t.pre.db t.input.request) →
      ∀ before after, calls = before ++ after →
        AllTotalsGrow (exec serve store before) (exec serve store calls)) ∧
    ∀ db clock sessionId turn secs appended db' s,
      appendTranscriptTurn db clock sessionId turn secs = .ok (appended, db') →
      db.session? sessionId = some s →
      ∃ s', db'.session? sessionId = some s' ∧ TotalsGrow s s' := by
  have hiff (t : Transition Store Call SessionResult) (ht : t ∈ trace serve store calls) :
      AllTotalsGrow t.pre t.post ↔ ReportsTotal t.pre.db t.input.request := by
    obtain ⟨before, call, after, _, rfl⟩ := mem_trace ht
    exact totalsGrow_iff _ _
  refine ⟨⟨fun h t ht => (hiff t ht).mp (h t ht), fun h t ht => (hiff t ht).mpr (h t ht)⟩, ?_,
    fun _ _ _ _ _ _ _ _ => appendTranscriptTurn_totals⟩
  rintro hreports before after rfl
  rw [exec_append]
  apply exec_rel
  · intro store s hs
    exact ⟨s, store.wellFormed.session?_of_mem hs, .refl s⟩
  · exact AllTotalsGrow.trans
  · intro t ht
    have htrace : t ∈ trace serve store (before ++ after) := by
      rw [trace_append]
      exact List.mem_append_right _ ht
    exact (hiff t htrace).mpr (hreports t htrace)

/-- An interview that has run for a hundred seconds. -/
def timedInterview : List ServiceCall :=
  ([.createRecruiter 1 "Acme", .createCandidate 2 "Ada", .createAssessment 3 1 sampleRequest [] none,
    .enroll ⟨4, 5⟩ 2 3 "resume.pdf" "PENDING" none,
    .session (.initializeInterviewContext 10 4),
    .session (.persistTurn 10 [] [] (some 100))] : List ServiceRequest).map
      fun request => ⟨⟨0, 0⟩, request⟩

omit [Runtime] in
/-- A completion with an older report sets the clock of the interview back. -/
theorem totals_decrease :
    ¬ ∀ [Runtime] (store : Store), Reachable store → ∀ call : Call,
      AllTotalsGrow store (serve store call).2 := by
  intro hgrow
  let _runtime : Runtime := .ascii
  have hlate := (totalsGrow_iff _ _).mp
    (hgrow (exec service emptyStore timedInterview) ⟨timedInterview, rfl⟩
      ⟨⟨1, 1⟩, .completeSession 10 60⟩)
  have htotal : ((exec service emptyStore timedInterview).db.session? 10).map
      (·.totalElapsedSecs) = some 100 := by decide +kernel
  obtain ⟨s, hs, helapsed⟩ := Option.map_eq_some_iff.mp htotal
  have hle := hlate s hs
  rw [helapsed] at hle
  exact absurd hle (by decide)

end Totals

end IBotCoreApi
