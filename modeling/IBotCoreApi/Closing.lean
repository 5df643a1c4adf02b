import IBotCoreApi.Refinement

namespace IBotCoreApi
open Python Runs InternalInterview CandidateSessionRepository InterviewSessionRepository
  AssessmentContextRepository

/-- The requests that a termination policy is enforced in. -/
def IsPolicyRequest : SessionRequest → Prop
  | .recordDisconnect .. | .recordTabSwitch .. | .recordProctoringEvent .. => True
  | _ => False

/-- `mark_candidate_completed` for one enrollment. -/
def isCandidateClosing (candidateAssessmentId : Uuid) (call : Call) : Bool :=
  match call.request with
  | .markCandidateCompleted id => id == candidateAssessmentId
  | _ => false

/-- `complete_session` for one session. -/
def isSessionClosing (sessionId : Uuid) (call : Call) : Bool :=
  match call.request with
  | .completeSession id _ => id == sessionId
  | _ => false

/-- The session of the enrollment is `TERMINATED`. -/
def SessionTerminated (candidateAssessmentId : Uuid) (store : Store) : Prop :=
  ∃ ca s, store.db.enrollment? candidateAssessmentId = some ⟨ca, some s⟩ ∧ s.status = .terminated

variable {clock : Clock} {request : SessionRequest} {e e' : Enrollment} {s s' : InterviewSession}

/-- What a policy request can do: nothing, a recoverable drop, or the end of both rows. -/
theorem Enrollment.Step.policy (h : e.Step clock request e') (hpolicy : IsPolicyRequest request)
    (hs : e.session = some s) : ∃ s', e'.session = some s' ∧ s'.id = s.id ∧
      ((s.isActive ∧ s'.status = .terminated ∧ e'.candidate.status = .terminated) ∨
        (e'.candidate = e.candidate ∧
          (s'.status = s.status ∨ (s.isActive ∧ s'.status = .disconnected)))) := by
  cases h with
  | unchanged => exact ⟨s, hs, rfl, .inr ⟨rfl, .inl rfl⟩⟩
  | @disconnected sessionId connectionId _ _ elapsedSecs _ _ haccepts =>
    cases hs
    refine ⟨_, rfl, by simp, ?_⟩
    have hactive := acceptsDisconnect_isActive haccepts
    unfold dropped
    by_cases hthird : s.disconnectCount + 1 ≥ 3
    · refine .inl ⟨hactive, by simp [CandidateSessionRepository.disconnected, hthird], ?_⟩
      rw [if_pos (by simp [CandidateSessionRepository.disconnected, hthird])]
      rfl
    · refine .inr ⟨?_, .inr ⟨hactive, by simp [CandidateSessionRepository.disconnected, hthird]⟩⟩
      exact if_neg (by simp [CandidateSessionRepository.disconnected, hthird])
  | @tabSwitched _ _ _ _ _ _ hactive | @proctored _ _ _ _ _ _ hactive =>
    cases hs
    unfold violated
    split
    · exact ⟨_, rfl, by simp, .inl ⟨hactive, rfl, rfl⟩⟩
    · exact ⟨_, rfl, by simp, .inr ⟨rfl, .inl rfl⟩⟩
  | _ => exact hpolicy.elim

/-- What the enrollment's own row says before and after `mark_candidate_completed`. -/
def closingStatus (marked : Bool) : CandidateStatus := if marked then .completed else .inProgress

/-- The enrollment before `complete_session` arrives: running, unless a policy has ended it. -/
def Running (sessionId : Uuid) (marked : Bool) (e : Enrollment) : Prop :=
  ∃ s, e.session = some s ∧ s.id = sessionId ∧
    (s.status = .terminated ∨ ((s.status = .inProgress ∨ s.status = .disconnected) ∧
      e.candidate.status = closingStatus marked))

/-- The enrollment after it; `clean` when the session was still running. -/
def Completed (clean : Prop) (marked : Bool) (e : Enrollment) : Prop :=
  ∃ s, e.session = some s ∧ s.status = .completed ∧
    (clean → e.candidate.status = closingStatus marked)

def Terminated (_ : Bool) (e : Enrollment) : Prop :=
  ∃ s, e.session = some s ∧ s.status = .terminated

/-- A phase of the closing: policy requests stay in it, and the enrollment's closing marks it. -/
structure IsPhase (P : Bool → Enrollment → Prop) : Prop where
  policy : ∀ {marked clock request e e'}, Enrollment.Step clock request e e' →
    IsPolicyRequest request → P marked e → P marked e'
  mark : ∀ {marked e} (clock : Clock), P marked e →
    P true { e with candidate := (candidateCompleted clock).set e.candidate }

theorem running_isPhase (sessionId : Uuid) : IsPhase (Running sessionId) where
  policy hstep hpolicy h := by
    obtain ⟨s, hs, hid, h⟩ := h
    obtain ⟨s', hs', hid', ⟨_, hterminated, _⟩ | ⟨hca', hstatus | ⟨hactive, hstatus⟩⟩⟩ :=
      hstep.policy hpolicy hs
    · exact ⟨s', hs', hid'.trans hid, .inl hterminated⟩
    · refine ⟨s', hs', hid'.trans hid, ?_⟩
      rw [hstatus, hca']
      exact h
    · refine ⟨s', hs', hid'.trans hid, .inr ⟨.inr hstatus, ?_⟩⟩
      rcases h with hterminated | ⟨_, hca⟩
      · simp [InterviewSession.isActive, hterminated] at hactive
      · rw [hca', hca]
  mark clock h := by
    obtain ⟨s, hs, hid, h⟩ := h
    exact ⟨s, hs, hid, h.imp_right fun h => ⟨h.1, rfl⟩⟩

theorem completed_isPhase (clean : Prop) : IsPhase (Completed clean) where
  policy hstep hpolicy h := by
    obtain ⟨s, hs, hcompleted, h⟩ := h
    have hinactive : ¬ s.isActive := by simp [InterviewSession.isActive, hcompleted]
    obtain ⟨s', hs', _, ⟨hactive, _⟩ | ⟨hca', hstatus | ⟨hactive, _⟩⟩⟩ := hstep.policy hpolicy hs
    · exact absurd hactive hinactive
    · refine ⟨s', hs', hstatus.trans hcompleted, ?_⟩
      rw [hca']
      exact h
    · exact absurd hactive hinactive
  mark clock h := by
    obtain ⟨s, hs, hcompleted, _⟩ := h
    exact ⟨s, hs, hcompleted, fun _ => rfl⟩

theorem terminated_isPhase : IsPhase Terminated where
  policy hstep hpolicy h := by
    obtain ⟨s, hs, hterminated⟩ := h
    have hinactive : ¬ s.isActive := by simp [InterviewSession.isActive, hterminated]
    obtain ⟨s', hs', _, ⟨hactive, _⟩ | ⟨_, hstatus | ⟨hactive, _⟩⟩⟩ := hstep.policy hpolicy hs
    · exact absurd hactive hinactive
    · exact ⟨s', hs', hstatus.trans hterminated⟩
    · exact absurd hactive hinactive
  mark _ h := h

variable [Runtime] {store : Store} {id : Uuid} {P : Bool → Enrollment → Prop} {marked : Bool}

/-- A phase lasts over every run of policy requests and closings of the enrollment. -/
theorem IsPhase.exec (hP : IsPhase P) {calls : List Call}
    (hcalls : ∀ call ∈ calls, IsPolicyRequest call.request ∨ isCandidateClosing id call)
    (he : store.db.enrollment? id = some e) (h : P marked e) :
    ∃ e', (exec serve store calls).db.enrollment? id = some e' ∧
      P (marked || calls.any (isCandidateClosing id)) e' := by
  induction calls generalizing store marked e with
  | nil => exact ⟨e, he, by simpa using h⟩
  | cons call calls ih =>
    have hrest : ∀ call ∈ calls, IsPolicyRequest call.request ∨ isCandidateClosing id call :=
      fun c hc => hcalls c (List.mem_cons_of_mem call hc)
    by_cases hclosing : isCandidateClosing id call
    · -- the closing call matches the row of the enrollment
      obtain ⟨clock, request⟩ := call
      cases request <;> simp only [isCandidateClosing, Bool.false_eq_true, beq_iff_eq] at hclosing
      subst hclosing
      have hmarked : (serve store ⟨clock, .markCandidateCompleted _⟩).2.db.enrollment? _ =
          some { e with candidate := (candidateCompleted clock).set e.candidate } :=
        enrollment?_updateCandidate_of_eq he (candidateCompleted clock)
      obtain ⟨e', he', h'⟩ := ih hrest hmarked (hP.mark clock h)
      exact ⟨e', he', by simpa [isCandidateClosing] using h'⟩
    · have hpolicy := (hcalls call List.mem_cons_self).resolve_right hclosing
      obtain ⟨e', he', hstep⟩ := handle_step store.wellFormed he call
      have hnext : (serve store call).2.db.enrollment? id = some e' := he'
      obtain ⟨e'', he'', h''⟩ := ih hrest hnext (hP.policy hstep hpolicy h)
      exact ⟨e'', he'', by simpa [hclosing] using h''⟩

/-- Once the session is `TERMINATED` it stays so until `complete_session`. -/
theorem SessionTerminated.exec (h : SessionTerminated id store) {calls : List Call}
    (hcalls : ∀ call ∈ calls, IsPolicyRequest call.request ∨ isCandidateClosing id call) :
    SessionTerminated id (exec serve store calls) := by
  obtain ⟨ca, s, he, hterminated⟩ := h
  have hphase : Terminated false ⟨ca, some s⟩ := ⟨s, rfl, hterminated⟩
  obtain ⟨⟨ca', _⟩, he', s', rfl, hterminated'⟩ := terminated_isPhase.exec hcalls he hphase
  exact ⟨ca', s', he', hterminated'⟩

def PolicyEnds (candidateAssessmentId : Uuid) (store : Store) (calls : List Call) : Prop :=
  ∃ t ∈ trace serve store calls, ¬ SessionTerminated candidateAssessmentId t.pre ∧
    SessionTerminated candidateAssessmentId t.post

/-- Both rows are `COMPLETED`, or both are `TERMINATED` when a policy has ended the session. -/
def ClosingAgrees (candidateAssessmentId : Uuid) (store : Store) (calls : List Call) : Prop :=
  ∃ ca s, (exec serve store calls).db.enrollment? candidateAssessmentId = some ⟨ca, some s⟩ ∧
    ((s.status = .completed ∧ ca.status = .completed ∧
        ¬ PolicyEnds candidateAssessmentId store calls) ∨
      (s.status = .terminated ∧ ca.status = .terminated ∧
        PolicyEnds candidateAssessmentId store calls))

omit [Runtime] in
/-- The run splits at its one `complete_session`. -/
theorem exists_sessionClosing {sessionId : Uuid} {calls : List Call}
    (hone : calls.countP (isSessionClosing sessionId) = 1) :
    ∃ before call after, calls = before ++ call :: after ∧ isSessionClosing sessionId call ∧
      (∀ c ∈ before, ¬ isSessionClosing sessionId c) ∧
      ∀ c ∈ after, ¬ isSessionClosing sessionId c := by
  have hpos : 0 < calls.countP (isSessionClosing sessionId) := by omega
  obtain ⟨call, hmem, hcall⟩ := List.countP_pos_iff.mp hpos
  obtain ⟨before, after, rfl⟩ := List.append_of_mem hmem
  rw [List.countP_append, List.countP_cons_of_pos hcall] at hone
  exact ⟨before, call, after, rfl, hcall, List.countP_eq_zero.mp (by omega),
    List.countP_eq_zero.mp (by omega)⟩

/-- `complete_session` completes the session whatever it finds. -/
theorem serve_completeSession {ca : CandidateAssessment} {s : InterviewSession} {call : Call}
    (he : store.db.enrollment? id = some ⟨ca, some s⟩) (hcall : isSessionClosing s.id call) :
    ∃ s', (serve store call).2.db.enrollment? id = some ⟨ca, some s'⟩ ∧ s'.id = s.id ∧
      s'.status = .completed := by
  obtain ⟨clock, request⟩ := call
  cases request <;> simp only [isSessionClosing, Bool.false_eq_true, beq_iff_eq] at hcall
  case completeSession sessionId secs =>
    subst hcall
    exact ⟨_, enrollment?_updateSessions_of_eq he (by simp), by simp, rfl⟩

/-- Without a policy termination before `complete_session` the run has none at all. -/
theorem not_policyEnds {before after : List Call} {call : Call} {s : InterviewSession}
    {ca : CandidateAssessment}
    (hbefore : ∀ c ∈ before, IsPolicyRequest c.request ∨ isCandidateClosing id c)
    (hafter : ∀ c ∈ after, IsPolicyRequest c.request ∨ isCandidateClosing id c)
    (hopen : ¬ SessionTerminated id (exec serve store before))
    (hclosed : (serve (exec serve store before) call).2.db.enrollment? id = some ⟨ca, some s⟩)
    (hcompleted : s.status = .completed) : ¬ PolicyEnds id store (before ++ call :: after) := by
  have hnever (later : List Call)
      (hlater : ∀ c ∈ later, IsPolicyRequest c.request ∨ isCandidateClosing id c) :
      ¬ SessionTerminated id (exec serve (serve (exec serve store before) call).2 later) := by
    have hphase : Completed False false ⟨ca, some s⟩ := ⟨s, rfl, hcompleted, False.elim⟩
    obtain ⟨_, he', s', hs', hcompleted', _⟩ := (completed_isPhase False).exec hlater hclosed hphase
    rintro ⟨_, _, he'', hterminated⟩
    cases he'.symm.trans he''
    cases hs'
    simp [hcompleted'] at hterminated
  rintro ⟨t, ht, -, hend⟩
  rw [trace_append_cons] at ht
  rcases List.mem_append.mp ht with ht | ht
  · obtain ⟨prior, c, rest, rfl, rfl⟩ := mem_trace ht
    refine hopen ?_
    rw [exec_append_cons]
    exact hend.exec fun c hc => hbefore c (by simp [hc])
  rcases List.mem_cons.mp ht with rfl | ht
  · exact hnever [] (by simp) hend
  · obtain ⟨prior, c, rest, rfl, rfl⟩ := mem_trace ht
    refine hnever (prior ++ [c]) (fun c' hc' => hafter c' ?_) ?_
    · rcases List.mem_append.mp hc' with h | h
      · exact List.mem_append_left _ h
      · simp [List.mem_singleton.mp h]
    · rw [exec_snoc]
      exact hend

/-- Closing and policy termination agree exactly when `complete_session` does not find the session
`TERMINATED`. -/
theorem closing_agrees_iff (store : Store) (calls : List Call) (ca : CandidateAssessment)
    (s : InterviewSession) (he : store.db.enrollment? ca.id = some ⟨ca, some s⟩)
    (hs : s.status = .inProgress) (hca : ca.status = .inProgress)
    (hcalls : ∀ call ∈ calls, IsPolicyRequest call.request ∨ isSessionClosing s.id call ∨
      isCandidateClosing ca.id call)
    (hsession : calls.countP (isSessionClosing s.id) = 1)
    (hcandidate : calls.countP (isCandidateClosing ca.id) = 1) :
    ClosingAgrees ca.id store calls ↔
      ∀ t ∈ trace serve store calls, isSessionClosing s.id t.input →
        ¬ SessionTerminated ca.id t.pre := by
  obtain ⟨before, call, after, rfl, hcall, hbefore, hafter⟩ := exists_sessionClosing hsession
  have hadmitted (c : Call) (hc : c ∈ before ++ call :: after) (hnot : ¬ isSessionClosing s.id c) :
      IsPolicyRequest c.request ∨ isCandidateClosing ca.id c := by
    rcases hcalls c hc with h | h | h
    · exact .inl h
    · exact absurd h hnot
    · exact .inr h
  have hbefore' (c : Call) (hc : c ∈ before) := hadmitted c (by simp [hc]) (hbefore c hc)
  have hafter' (c : Call) (hc : c ∈ after) := hadmitted c (by simp [hc]) (hafter c hc)
  have hmarked : (before.any (isCandidateClosing ca.id) || after.any (isCandidateClosing ca.id)) =
      true := by
    obtain ⟨c, hc, hclosing⟩ := List.countP_pos_iff.mp (hcandidate ▸ Nat.one_pos)
    rw [← List.any_append, List.any_eq_true]
    refine ⟨c, ?_, hclosing⟩
    rcases List.mem_append.mp hc with hc | hc
    · exact List.mem_append_left _ hc
    · rcases List.mem_cons.mp hc with rfl | hc
      · simp [isSessionClosing, isCandidateClosing] at hcall hclosing
        split at hcall <;> simp_all
      · exact List.mem_append_right _ hc
  have hstart : Running s.id false ⟨ca, some s⟩ := ⟨s, rfl, rfl, .inr ⟨.inl hs, hca⟩⟩
  obtain ⟨⟨ca₁, _⟩, he₁, s₁, rfl, hid, hrunning⟩ := (running_isPhase s.id).exec hbefore' he hstart
  obtain ⟨s₂, he₂, -, hcompleted⟩ := serve_completeSession he₁ (hid ▸ hcall)
  -- the session is completed from here on; the enrollment is too if the session was running
  have hclosed : Completed (s₁.status ≠ .terminated) (false || before.any (isCandidateClosing ca.id))
      ⟨ca₁, some s₂⟩ := ⟨s₂, rfl, hcompleted, fun hopen => (hrunning.resolve_left hopen).2⟩
  obtain ⟨⟨ca₃, _⟩, he₃, s₃, rfl, hcompleted₃, hca₃⟩ :=
    (completed_isPhase _).exec hafter' he₂ hclosed
  rw [Bool.false_or, hmarked] at hca₃
  have hpre : SessionTerminated ca.id (exec serve store before) ↔ s₁.status = .terminated := by
    constructor
    · rintro ⟨_, _, he', hterminated⟩
      cases he₁.symm.trans he'
      exact hterminated
    · exact fun h => ⟨ca₁, s₁, he₁, h⟩
  have hexec : exec serve store (before ++ call :: after) =
      exec serve (serve (exec serve store before) call).2 after := exec_append_cons before after call
  constructor
  · rintro ⟨_, _, he₄, hagree⟩ t ht hclosing hterminated
    rw [hexec, he₃] at he₄
    cases he₄
    have hat : t = .of serve (exec serve store before) call := by
      rw [trace_append_cons] at ht
      rcases List.mem_append.mp ht with ht | ht
      · exact absurd hclosing (hbefore t.input (mem_of_mem_trace ht))
      rcases List.mem_cons.mp ht with ht | ht
      · exact ht
      · exact absurd hclosing (hafter t.input (mem_of_mem_trace ht))
    subst hat
    have hstore : ¬ SessionTerminated ca.id store := by
      rintro ⟨_, _, he', hterminated'⟩
      cases he.symm.trans he'
      simp [hs] at hterminated'
    obtain ⟨t, ht, hbegin⟩ := exists_begin hstore hterminated
    have hends : PolicyEnds ca.id store (before ++ call :: after) :=
      ⟨t, trace_append_cons before after call ▸ List.mem_append_left _ ht, hbegin⟩
    rcases hagree with ⟨_, _, hnot⟩ | ⟨hterminated₃, _⟩
    · exact hnot hends
    · simp [hcompleted₃] at hterminated₃
  · intro hopen
    have hopen' : ¬ SessionTerminated ca.id (exec serve store before) :=
      hopen (.of serve (exec serve store before) call) (by simp [trace_append_cons]) hcall
    refine ⟨ca₃, s₃, hexec ▸ he₃, .inl ⟨hcompleted₃, hca₃ (hpre.not.mp hopen'), ?_⟩⟩
    exact not_policyEnds hbefore' hafter' hopen' he₂ hcompleted

/-- Both closing calls with a drop between them. -/
def closingWithDrop : List Call :=
  [⟨⟨0, 0⟩, .markCandidateCompleted 4⟩,
    ⟨⟨1, 1⟩, .recordDisconnect 10 "first-connection" 4 "lost" 30⟩,
    ⟨⟨2, 2⟩, .completeSession 10 60⟩]

omit [Runtime] in
theorem closingWithDrop_admitted : ∀ call ∈ closingWithDrop, IsPolicyRequest call.request ∨
    isSessionClosing 10 call ∨ isCandidateClosing 4 call := by
  simp [closingWithDrop, IsPolicyRequest, isSessionClosing, isCandidateClosing]

omit [Runtime] in
theorem closing_agrees_sample :
    @ClosingAgrees .ascii 4 runningStore closingWithDrop ↔
      ∀ t ∈ trace (@serve .ascii) runningStore closingWithDrop, isSessionClosing 10 t.input →
        ¬ SessionTerminated 4 t.pre :=
  @closing_agrees_iff .ascii runningStore closingWithDrop sampleInterviewed sampleSession rfl rfl
    rfl closingWithDrop_admitted rfl rfl

def lastChanceStore : Store where
  db := .single ⟨1, "Acme"⟩ ⟨2, "Ada"⟩ sampleAssessment sampleInterviewed
    (some { sampleSession with disconnectCount := 2 })
  wellFormed := Database.single_wellFormed rfl rfl (by
    rintro s ⟨⟩
    rfl)

omit [Runtime] in
theorem closing_agrees_broken :
    ¬ ∀ [Runtime] (store : Store) (calls : List Call) (ca : CandidateAssessment)
      (s : InterviewSession), store.db.enrollment? ca.id = some ⟨ca, some s⟩ →
      s.status = .inProgress → ca.status = .inProgress →
      (∀ call ∈ calls, IsPolicyRequest call.request ∨ isSessionClosing s.id call ∨
        isCandidateClosing ca.id call) →
      calls.countP (isSessionClosing s.id) = 1 → calls.countP (isCandidateClosing ca.id) = 1 →
      ClosingAgrees ca.id store calls := by
  intro hclaim
  let _runtime : Runtime := .ascii
  obtain ⟨ca, s, he, hagree⟩ := hclaim lastChanceStore closingWithDrop sampleInterviewed
    { sampleSession with disconnectCount := 2 } rfl rfl rfl closingWithDrop_admitted rfl rfl
  have hstatus : ((exec serve lastChanceStore closingWithDrop).db.enrollment? 4).map
      (fun e => (e.candidate.status, e.session.map (·.status))) =
        some (.terminated, some .completed) := by decide
  have hrows : (CandidateStatus.terminated, some SessionStatus.completed) =
      (ca.status, some s.status) := by
    rw [show sampleInterviewed.id = 4 from rfl] at he
    rw [he] at hstatus
    exact (Option.some.inj hstatus).symm
  rcases hagree with ⟨_, hca, _⟩ | ⟨hs, _⟩
  · simp [hca] at hrows
  · simp [hs] at hrows

end IBotCoreApi
