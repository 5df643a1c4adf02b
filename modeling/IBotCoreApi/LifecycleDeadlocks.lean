import IBotCoreApi.LifecycleLocks

namespace IBotCoreApi
open Python Deadlocks EvaluationRepository

section Conflicts

theorem LockMode.conflicts_symm (mode mode' : LockMode) :
    mode.conflicts mode' = mode'.conflicts mode := by
  cases mode <;> cases mode' <;> rfl

theorem mem_saved {enrollment e : Uuid} {evaluated : List Uuid} :
    e ∈ saved enrollment evaluated ↔ e ∈ evaluated ∨ e = enrollment := by
  unfold saved
  split
  · rename_i hold
    exact ⟨.inl, fun h => h.elim id fun heq => heq ▸ hold⟩
  · rw [List.mem_append, List.mem_singleton]

theorem mem_rankedEnrollments {assessmentId : Uuid → Uuid} {enrollment e : Uuid}
    {order : RankingOrder} {evaluated : List Uuid} :
    e ∈ rankedEnrollments assessmentId enrollment order evaluated ↔
      (e ∈ evaluated ∨ e = enrollment) ∧ assessmentId e = assessmentId enrollment := by
  rw [rankedEnrollments, order.mem_sort, List.mem_filter, mem_saved, beq_iff_eq]

theorem mem_rankedRows {enrollments : List Uuid} {lock : LockedRow × LockMode} :
    lock ∈ rankedRows enrollments ↔ lock.2 = .forUpdate ∧ ∃ e ∈ enrollments,
      lock.1 = .interviewEvaluation e ∨ lock.1 = .candidateAssessment e := by
  obtain ⟨row, mode⟩ := lock
  simp only [rankedRows, List.mem_flatMap, List.mem_cons, Prod.mk.injEq, List.not_mem_nil,
    or_false]
  constructor
  · rintro ⟨e, he, ⟨hrow, hmode⟩ | ⟨hrow, hmode⟩⟩
    · exact ⟨hmode, e, he, .inl hrow⟩
    · exact ⟨hmode, e, he, .inr hrow⟩
  · rintro ⟨hmode, e, he, hrow | hrow⟩
    · exact ⟨e, he, .inl ⟨hrow, hmode⟩⟩
    · exact ⟨e, he, .inr ⟨hrow, hmode⟩⟩

end Conflicts

inductive LockedRow.Of (enrollment : Uuid) : LockedRow → Prop
  | candidateAssessment : Of enrollment (.candidateAssessment enrollment)
  | interviewSession : Of enrollment (.interviewSession enrollment)
  | interviewEvaluation : Of enrollment (.interviewEvaluation enrollment)

/-- Where a transaction can wait: the locks that it holds, the one that it requests, and a rank. -/
inductive Stage (assessmentId : Uuid → Uuid) (hashtext : String → ℤ) (Seen : Uuid → Prop) :
    LifecycleRequest → List (LockedRow × LockMode) → LockedRow × LockMode → ℕ → Prop
  | first (request : LifecycleRequest) (lock : LockedRow × LockMode) :
      Stage assessmentId hashtext Seen request [] lock 4
  | entering (enrollment : Uuid) :
      Stage assessmentId hashtext Seen (.enterWithInvitation enrollment)
        [(.candidateAssessment enrollment, .forUpdate)]
        (.interviewSession enrollment, .forUpdate) 0
  | terminating {request : LifecycleRequest} {enrollment : Uuid} {mode : LockMode}
      (hrequest : request.Terminates enrollment) (hmode : mode ≠ .forKeyShare) :
      Stage assessmentId hashtext Seen request [(.interviewSession enrollment, mode)]
        (.candidateAssessment enrollment, .forNoKeyUpdate) 2
  | evaluating {enrollment : Uuid} {order : RankingOrder} {held : List (LockedRow × LockMode)}
      {mode : LockMode} (hown : (.interviewEvaluation enrollment, .forUpdate) ∈ held)
      (hheld : ∀ lock ∈ held, lock.1 = .interviewEvaluation enrollment ∨
        lock.1 = .interviewSession enrollment) :
      Stage assessmentId hashtext Seen (.saveFinalEvaluation enrollment order) held
        (.interviewSession enrollment, mode) 3
  | evaluated {enrollment : Uuid} {order : RankingOrder} {held : List (LockedRow × LockMode)}
      {lock : LockedRow × LockMode}
      (hown : (.interviewEvaluation enrollment, .forUpdate) ∈ held)
      (hsession : (.interviewSession enrollment, .forNoKeyUpdate) ∈ held)
      (hheld : ∀ lock ∈ held, lock.1.Of enrollment)
      (hlock : lock.1 = .candidateAssessment enrollment ∨ ∃ key, lock.1 = .ranking key) :
      Stage assessmentId hashtext Seen (.saveFinalEvaluation enrollment order) held lock 2
  | ranking {enrollment e : Uuid} {order : RankingOrder} {held : List (LockedRow × LockMode)}
      {lock : LockedRow × LockMode}
      (hown : (.interviewEvaluation enrollment, .forUpdate) ∈ held)
      (hkey : (.ranking (rankingKey assessmentId hashtext enrollment), .forUpdate) ∈ held)
      (hheld : ∀ lock ∈ held, lock.1.Of enrollment ∨
        lock.1 = .ranking (rankingKey assessmentId hashtext enrollment) ∨
        ∃ e, assessmentId e = assessmentId enrollment ∧
          (lock.1 = .interviewEvaluation e ∨ lock.1 = .candidateAssessment e))
      (hlock : lock.1 = .interviewEvaluation e ∨ lock.1 = .candidateAssessment e)
      (hseen : Seen e ∨ e = enrollment) (hassessment : assessmentId e = assessmentId enrollment) :
      Stage assessmentId hashtext Seen (.saveFinalEvaluation enrollment order) held lock 1

section Stages

variable {assessmentId : Uuid → Uuid} {hashtext : String → ℤ} {S : List Uuid → Prop}
  {Seen : Uuid → Prop} {held : List (LockedRow × LockMode)} {lock : LockedRow × LockMode}
  {next : LockProgram}

theorem stage_enter {enrollment : Uuid}
    (h : (CandidateSessionRepository.enterLocks enrollment).Visits S held (.acquire lock next)) :
    ∃ n, Stage assessmentId hashtext Seen (.enterWithInvitation enrollment) held lock n := by
  cases h with
  | here => exact ⟨4, .first _ _⟩
  | acquire h =>
    cases h with
    | here => exact ⟨0, .entering enrollment⟩
    | acquire h => cases h

theorem stage_disconnect {enrollment : Uuid} {drop : Drop}
    (h : (CandidateSessionRepository.recordDisconnectLocks enrollment drop).Visits S held
      (.acquire lock next)) :
    ∃ n, Stage assessmentId hashtext Seen (.recordDisconnect enrollment drop) held lock n := by
  cases drop with
  | stale => cases h
  | disconnected =>
    cases h with
    | here => exact ⟨4, .first _ _⟩
    | acquire h => cases h
  | terminated =>
    cases h with
    | here => exact ⟨4, .first _ _⟩
    | acquire h =>
      cases h with
      | here => exact ⟨2, .terminating (.inl rfl) (by simp)⟩
      | acquire h => cases h

theorem stage_violation {request : LifecycleRequest} {enrollment : Uuid} {terminated : Bool}
    (hrequest : terminated = true → request.Terminates enrollment)
    (h : (InterviewSessionRepository.recordViolationLocks enrollment terminated).Visits S held
      (.acquire lock next)) :
    ∃ n, Stage assessmentId hashtext Seen request held lock n := by
  cases h with
  | here => exact ⟨4, .first _ _⟩
  | acquire h =>
    cases terminated with
    | false => cases h
    | true =>
      cases h with
      | here => exact ⟨2, .terminating (hrequest rfl) (by simp)⟩
      | acquire h => cases h

theorem stage_closeAndRank (hSeen : ∀ evaluated, S evaluated → ∀ e ∈ evaluated, Seen e)
    {enrollment : Uuid} {order : RankingOrder} (before : List (LockedRow × LockMode))
    (hown : (.interviewEvaluation enrollment, .forUpdate) ∈ before)
    (hbefore : ∀ lock ∈ before, lock.1 = .interviewEvaluation enrollment ∨
      lock.1 = .interviewSession enrollment)
    (h : (closeAndRankLocks assessmentId hashtext enrollment order).Visits S held
      (.acquire lock next)) :
    ∃ n, Stage assessmentId hashtext Seen (.saveFinalEvaluation enrollment order)
      (before ++ held) lock n := by
  have hof : ∀ lock ∈ before, lock.1.Of enrollment := by
    intro lock hlock
    rcases hbefore lock hlock with hrow | hrow
    · exact hrow ▸ .interviewEvaluation
    · exact hrow ▸ .interviewSession
  cases h with
  | here =>
    rw [List.append_nil]
    exact ⟨3, .evaluating hown hbefore⟩
  | acquire h =>
    cases h with
    | here =>
      refine ⟨2, .evaluated (List.mem_append_left _ hown) (by simp) ?_ (.inl rfl)⟩
      simp only [List.forall_mem_append, List.forall_mem_singleton]
      exact ⟨hof, .interviewSession⟩
    | acquire h =>
      cases h with
      | here =>
        refine ⟨2, .evaluated (List.mem_append_left _ hown) (by simp) ?_ (.inr ⟨_, rfl⟩)⟩
        simp only [List.forall_mem_append, List.forall_mem_cons]
        exact ⟨hof, .interviewSession, .candidateAssessment, fun _ hlock => nomatch hlock⟩
      | acquire h =>
        cases h with
        | read hs h =>
          rename_i acquired now
          rcases h.acquireAll with ⟨lock', later, hrows, hrest⟩ | ⟨_, _, hcommit⟩
          · cases hrest
            -- every ranked row belongs to an enrollment of the assessment
            have hranked : ∀ lock' ∈ acquired ++ lock :: later, ∃ e, (Seen e ∨ e = enrollment) ∧
                assessmentId e = assessmentId enrollment ∧
                (lock'.1 = .interviewEvaluation e ∨ lock'.1 = .candidateAssessment e) := by
              intro lock' hlock'
              rw [← hrows] at hlock'
              obtain ⟨_, e, he, hrow⟩ := mem_rankedRows.mp hlock'
              obtain ⟨hvisible, hassessment⟩ := mem_rankedEnrollments.mp he
              exact ⟨e, hvisible.imp_left (hSeen _ hs e), hassessment, hrow⟩
            obtain ⟨e, hseen, hassessment, hlock⟩ :=
              hranked lock (List.mem_append_right _ List.mem_cons_self)
            refine ⟨1, .ranking (List.mem_append_left _ hown) (by simp) ?_ hlock hseen hassessment⟩
            simp only [List.forall_mem_append, List.forall_mem_cons]
            refine ⟨fun lock' hlock' => .inl (hof lock' hlock'), .inl .interviewSession,
              .inl .candidateAssessment, .inr (.inl trivial), fun lock' hlock' => ?_⟩
            obtain ⟨e', _, hassessment', hrow⟩ := hranked lock' (List.mem_append_left _ hlock')
            exact .inr (.inr ⟨e', hassessment', hrow⟩)
          · cases hcommit

theorem stage_save (hSeen : ∀ evaluated, S evaluated → ∀ e ∈ evaluated, Seen e)
    {enrollment : Uuid} {order : RankingOrder}
    (h : (saveFinalEvaluationLocks assessmentId hashtext enrollment order).Visits S held
      (.acquire lock next)) :
    ∃ n, Stage assessmentId hashtext Seen (.saveFinalEvaluation enrollment order) held lock n := by
  cases h with
  | here => exact ⟨4, .first _ _⟩
  | acquire h =>
    cases h with
    | @read _ _ _ evaluated hs h =>
      dsimp only at h
      by_cases hexists : enrollment ∈ evaluated
      · rw [if_pos hexists] at h
        exact stage_closeAndRank hSeen [(.interviewEvaluation enrollment, .forUpdate)]
          List.mem_cons_self (by simp) h
      · rw [if_neg hexists] at h
        cases h with
        | here => exact ⟨3, .evaluating List.mem_cons_self (by simp)⟩
        | acquire h =>
          exact stage_closeAndRank hSeen [(.interviewEvaluation enrollment, .forUpdate),
            (.interviewSession enrollment, .forKeyShare)] List.mem_cons_self (by simp) h

/-- Every place where a transaction can wait. -/
theorem stage_of_visits (hSeen : ∀ evaluated, S evaluated → ∀ e ∈ evaluated, Seen e)
    {request : LifecycleRequest}
    (h : (request.locks assessmentId hashtext).Visits S held (.acquire lock next)) :
    ∃ n, Stage assessmentId hashtext Seen request held lock n := by
  cases request with
  | enterWithInvitation => exact stage_enter h
  | recordDisconnect => exact stage_disconnect h
  | recordTabSwitch enrollment terminated =>
    exact stage_violation (fun hterminated => hterminated ▸ .inr (.inl rfl)) h
  | recordProctoringEvent enrollment terminated =>
    exact stage_violation (fun hterminated => hterminated ▸ .inr (.inr rfl)) h
  | saveFinalEvaluation => exact stage_save hSeen h

end Stages

/-- What a set of concurrent transactions has to avoid: entering while the same enrollment is
terminated or evaluated, and evaluating two enrollments of an assessment while one of them has an
evaluation already. -/
structure Untangled {ι : Type} (assessmentId : Uuid → Uuid) (evaluated : List Uuid)
    (requests : ι → LifecycleRequest) : Prop where
  entry : ∀ i j enrollment, requests i = .enterWithInvitation enrollment →
    ¬ (requests j).Terminates enrollment ∧ ¬ (requests j).Saves enrollment
  ranking : ∀ i j enrollment enrollment', (requests i).Saves enrollment →
    (requests j).Saves enrollment' → enrollment ≠ enrollment' →
    assessmentId enrollment = assessmentId enrollment' →
      enrollment' ∉ evaluated ∧ ∀ k, k ≠ j → ¬ (requests k).Saves enrollment'

section Untangled

variable {ι : Type} [Fintype ι] [DecidableEq ι] {assessmentId : Uuid → Uuid}
  {hashtext : String → ℤ} {evaluated : List Uuid} {requests : ι → LifecycleRequest}

/-- The committed evaluations: those of the start, and those of the transactions that have ended. -/
def Committed (evaluated : List Uuid) (requests : ι → LifecycleRequest) (ended : Set ι)
    (enrollment : Uuid) : Prop :=
  enrollment ∈ evaluated ∨ ∃ k ∈ ended, (requests k).Saves enrollment

theorem saved_of_commits {request : LifecycleRequest} {effect : List Uuid → List Uuid}
    (h : (request.locks assessmentId hashtext).Commits effect) :
    effect = id ∨ ∃ enrollment, request.Saves enrollment ∧ effect = saved enrollment := by
  cases request with
  | enterWithInvitation => exact .inl h
  | recordDisconnect enrollment drop =>
    cases drop with
    | stale | disconnected | terminated => exact .inl h
  | recordTabSwitch enrollment terminated | recordProctoringEvent enrollment terminated =>
    cases terminated with
    | true | false => exact .inl h
  | saveFinalEvaluation enrollment order =>
    have hclose (h : (closeAndRankLocks assessmentId hashtext enrollment order).Commits effect) :
        effect = saved enrollment := by
      obtain ⟨now, h⟩ := h
      exact Program.commits_acquireAll.mp h
    refine .inr ⟨enrollment, ⟨order, rfl⟩, ?_⟩
    obtain ⟨now, h⟩ := h
    dsimp only at h
    split at h
    · exact hclose h
    · exact hclose h

variable (assessmentId hashtext) in
theorem lifecycle_sound (evaluated : List Uuid) (requests : ι → LifecycleRequest)
    (moves : List ι) :
    (Runs.exec (World.scheduler LockMode.conflicts)
      (World.start evaluated fun i => (requests i).locks assessmentId hashtext) moves).Sound
        LockMode.conflicts (fun i => (requests i).locks assessmentId hashtext)
        fun ended now => ∀ e ∈ now, Committed evaluated requests ended e := by
  refine World.scheduler_sound LockMode.conflicts_symm ?_ ?_ ?_ moves
  · intro ended ended' now hsub hnow e he
    exact (hnow e he).imp_right fun ⟨k, hk, hsaves⟩ => ⟨k, hsub hk, hsaves⟩
  · intro ended i held effect now hvisits hnow e he
    have hkept (e : Uuid) (he : e ∈ now) : Committed evaluated requests (insert i ended) e :=
      (hnow e he).imp_right fun ⟨k, hk, hsaves⟩ => ⟨k, Set.mem_insert_of_mem i hk, hsaves⟩
    rcases saved_of_commits hvisits.commits with rfl | ⟨enrollment, hsaves, rfl⟩
    · exact hkept e he
    · rcases mem_saved.mp he with hold | rfl
      · exact hkept e hold
      · exact .inr ⟨i, Set.mem_insert i ended, hsaves⟩
  · exact fun e he => .inl he

/-- No lock of the first list conflicts with one of the second. -/
def NoConflict (held held' : List (LockedRow × LockMode)) : Prop :=
  ∀ lock ∈ held, ∀ mode, (lock.1, mode) ∈ held' → lock.2.conflicts mode = false

theorem exclusive_lock {held held' : List (LockedRow × LockMode)} {row : LockedRow}
    (hcompatible : NoConflict held held')
    (h : (row, LockMode.forUpdate) ∈ held) (h' : (row, LockMode.forUpdate) ∈ held') : False := by
  have hconflict := hcompatible _ h _ h'
  cases hconflict

section Pair

variable {i j : ι} {held held' : List (LockedRow × LockMode)} {ended : Set ι}

omit [Fintype ι] [DecidableEq ι] in
/-- A transaction that ranks does not reach the rows of an evaluation that is being saved. -/
theorem ranking_excludes (huntangled : Untangled assessmentId evaluated requests)
    (hj : j ∉ ended) (hcompatible : NoConflict held held') {enrollment e : Uuid}
    (hi : (requests i).Saves enrollment) (hsaves : (requests j).Saves e)
    (hown : (.interviewEvaluation enrollment, .forUpdate) ∈ held)
    (hown' : (.interviewEvaluation e, .forUpdate) ∈ held')
    (hseen : Committed evaluated requests ended e ∨ e = enrollment)
    (hassessment : assessmentId e = assessmentId enrollment) : False := by
  by_cases hsame : e = enrollment
  · subst hsame
    exact exclusive_lock hcompatible hown hown'
  · obtain ⟨hunevaluated, honly⟩ := huntangled.ranking i j enrollment e hi hsaves
      (fun h => hsame h.symm) hassessment.symm
    rcases hseen.resolve_right hsame with hold | ⟨k, hk, hcommitted⟩
    · exact hunevaluated hold
    · exact honly k (fun h => hj (h ▸ hk)) hcommitted

/-- Two transactions do not rank one assessment at the same time. -/
theorem ranking_key_excludes {enrollment e enrollment' : Uuid} {lock : LockedRow × LockMode}
    (hcompatible : NoConflict held held')
    (hkey : (.ranking (rankingKey assessmentId hashtext enrollment), .forUpdate) ∈ held)
    (hkey' : (.ranking (rankingKey assessmentId hashtext enrollment'), .forUpdate) ∈ held')
    (hassessment : assessmentId e = assessmentId enrollment)
    (hlock : lock.1 = .interviewEvaluation e ∨ lock.1 = .candidateAssessment e)
    (hrow : lock.1.Of enrollment' ∨
      lock.1 = .ranking (rankingKey assessmentId hashtext enrollment') ∨
      ∃ e', assessmentId e' = assessmentId enrollment' ∧
        (lock.1 = .interviewEvaluation e' ∨ lock.1 = .candidateAssessment e')) : False := by
  have hsame : assessmentId e = assessmentId enrollment' := by
    rcases hlock with hlock | hlock
    · rw [hlock] at hrow
      rcases hrow with hrow | hrow | ⟨e', hassessment', hrow | hrow⟩
      · cases hrow
        rfl
      · cases hrow
      · cases hrow
        exact hassessment'
      · cases hrow
    · rw [hlock] at hrow
      rcases hrow with hrow | hrow | ⟨e', hassessment', hrow | hrow⟩
      · cases hrow
        rfl
      · cases hrow
      · cases hrow
      · cases hrow
        exact hassessment'
  have hkeys : rankingKey assessmentId hashtext enrollment =
      rankingKey assessmentId hashtext enrollment' := by
    rw [rankingKey, rankingKey, ← hassessment, hsame]
  exact exclusive_lock hcompatible (hkeys ▸ hkey) hkey'

variable {lock : LockedRow × LockMode} {n : ℕ} {enrollment' : Uuid}

omit [Fintype ι] [DecidableEq ι] in
theorem stage_lt_terminating (huntangled : Untangled assessmentId evaluated requests)
    (hstage : Stage assessmentId hashtext (Committed evaluated requests ended) (requests i) held
      lock n)
    (hterminates : (requests j).Terminates enrollment')
    (hrow : lock.1 = .interviewSession enrollment') : 2 < n := by
  generalize hi : requests i = request at hstage
  cases hstage with
  | first | evaluating => decide
  | entering enrollment =>
    cases hrow
    exact absurd hterminates (huntangled.entry i j _ hi).1
  | terminating => cases hrow
  | evaluated _ _ _ hlock => rcases hlock with hlock | ⟨key, hlock⟩ <;> cases hlock.symm.trans hrow
  | ranking _ _ _ hlock => rcases hlock with hlock | hlock <;> cases hlock.symm.trans hrow

omit [Fintype ι] [DecidableEq ι] in
theorem stage_lt_evaluating (huntangled : Untangled assessmentId evaluated requests)
    (hj : j ∉ ended) (hcompatible : NoConflict held held')
    (hstage : Stage assessmentId hashtext (Committed evaluated requests ended) (requests i) held
      lock n)
    (hsaves : (requests j).Saves enrollment')
    (hown' : (.interviewEvaluation enrollment', .forUpdate) ∈ held')
    (hrow : lock.1 = .interviewEvaluation enrollment' ∨
      lock.1 = .interviewSession enrollment') : 3 < n := by
  generalize hi : requests i = request at hstage
  cases hstage with
  | first => decide
  | entering enrollment =>
    obtain rfl : enrollment = enrollment' := by simpa using hrow
    exact absurd hsaves (huntangled.entry i j enrollment hi).2
  | terminating => simp at hrow
  | evaluating hown =>
    exfalso
    simp only [reduceCtorEq, LockedRow.interviewSession.injEq, false_or] at hrow
    exact exclusive_lock hcompatible (hrow ▸ hown) hown'
  | evaluated _ _ _ hlock => rcases hlock with hlock | ⟨key, hlock⟩ <;> simp [hlock] at hrow
  | @ranking enrollment e order _ _ hown _ _ hlock hseen hassessment =>
    exfalso
    obtain rfl : e = enrollment' := by
      rcases hlock with hlock | hlock
      · simpa [hlock] using hrow
      · simp [hlock] at hrow
    exact ranking_excludes huntangled hj hcompatible ⟨order, hi⟩ hsaves hown hown' hseen hassessment

omit [Fintype ι] [DecidableEq ι] in
theorem stage_lt_evaluated (huntangled : Untangled assessmentId evaluated requests)
    (hj : j ∉ ended) (hcompatible : NoConflict held held')
    (hstage : Stage assessmentId hashtext (Committed evaluated requests ended) (requests i) held
      lock n)
    (hsaves : (requests j).Saves enrollment')
    (hown' : (.interviewEvaluation enrollment', .forUpdate) ∈ held')
    (hsession' : (.interviewSession enrollment', .forNoKeyUpdate) ∈ held')
    (hrow : lock.1.Of enrollment') : 2 < n := by
  generalize hi : requests i = request at hstage
  cases hstage with
  | first | evaluating => decide
  | entering enrollment =>
    cases hrow
    exact absurd hsaves (huntangled.entry i j _ hi).2
  | @terminating _ enrollment mode' _ hshared =>
    exfalso
    cases hrow
    have hconflict := hcompatible _ List.mem_cons_self _ hsession'
    cases mode' with
    | forKeyShare => exact hshared rfl
    | forNoKeyUpdate | forUpdate => cases hconflict
  | evaluated hown _ _ hlock =>
    exfalso
    rcases hlock with hlock | ⟨key, hlock⟩
    · rw [hlock] at hrow
      cases hrow
      exact exclusive_lock hcompatible hown hown'
    · rw [hlock] at hrow
      cases hrow
  | @ranking enrollment e order _ _ hown _ _ hlock hseen hassessment =>
    exfalso
    obtain rfl : e = enrollment' := by
      rcases hlock with hlock | hlock
      · rw [hlock] at hrow
        cases hrow
        rfl
      · rw [hlock] at hrow
        cases hrow
        rfl
    exact ranking_excludes huntangled hj hcompatible ⟨order, hi⟩ hsaves hown hown' hseen hassessment

omit [Fintype ι] [DecidableEq ι] in
theorem stage_lt_ranking (huntangled : Untangled assessmentId evaluated requests)
    (hcompatible : NoConflict held held')
    (hstage : Stage assessmentId hashtext (Committed evaluated requests ended) (requests i) held
      lock n)
    (hsaves : (requests j).Saves enrollment')
    (hkey' : (.ranking (rankingKey assessmentId hashtext enrollment'), .forUpdate) ∈ held')
    (hrow : lock.1.Of enrollment' ∨
      lock.1 = .ranking (rankingKey assessmentId hashtext enrollment') ∨
      ∃ e', assessmentId e' = assessmentId enrollment' ∧
        (lock.1 = .interviewEvaluation e' ∨ lock.1 = .candidateAssessment e')) : 1 < n := by
  generalize hi : requests i = request at hstage
  cases hstage with
  | first | terminating | evaluating | evaluated => decide
  | entering enrollment =>
    rcases hrow with hrow | hrow | ⟨e, _, hrow | hrow⟩
    · cases hrow
      exact absurd hsaves (huntangled.entry i j _ hi).2
    · cases hrow
    · cases hrow
    · cases hrow
  | ranking _ hkey _ hlock _ hassessment =>
    exact (ranking_key_excludes hcompatible hkey hkey' hassessment hlock hrow).elim

omit [Fintype ι] [DecidableEq ι] in
/-- A waiting transaction has a lower rank than the transactions that wait for it. -/
theorem stage_lt (huntangled : Untangled assessmentId evaluated requests) (hj : j ∉ ended)
    {lock lock' : LockedRow × LockMode} {n m : ℕ}
    (hstage : Stage assessmentId hashtext (Committed evaluated requests ended) (requests i) held
      lock n)
    (hstage' : Stage assessmentId hashtext (Committed evaluated requests ended) (requests j) held'
      lock' m)
    (hblocked : ∃ mode, (lock.1, mode) ∈ held')
    (hcompatible : NoConflict held held') : m < n := by
  obtain ⟨mode, hmode⟩ := hblocked
  generalize hj' : requests j = request' at hstage'
  cases hstage' with
  | first => cases hmode
  | entering enrollment' =>
    -- only another entry has the rank 0, and it waits for a session
    generalize requests i = request at hstage
    cases hstage with
    | entering => simp at hmode
    | first | terminating | evaluating | evaluated | ranking => decide
  | terminating hterminates =>
    simp only [List.mem_singleton, Prod.mk.injEq] at hmode
    exact stage_lt_terminating huntangled hstage (hj' ▸ hterminates) hmode.1
  | @evaluating enrollment' order' _ _ hown' hheld' =>
    exact stage_lt_evaluating huntangled hj hcompatible hstage ⟨order', hj'⟩ hown'
      (hheld' (lock.1, mode) hmode)
  | @evaluated enrollment' order' _ _ hown' hsession' hheld' _ =>
    exact stage_lt_evaluated huntangled hj hcompatible hstage ⟨order', hj'⟩ hown' hsession'
      (hheld' (lock.1, mode) hmode)
  | @ranking enrollment' _ order' _ _ _ hkey' hheld' =>
    exact stage_lt_ranking huntangled hcompatible hstage ⟨order', hj'⟩ hkey'
      (hheld' (lock.1, mode) hmode)

end Pair

/-- Without a tangle no transactions ever wait for each other in a cycle. -/
theorem not_deadlocked (huntangled : Untangled assessmentId evaluated requests)
    (moves : List ι) :
    ¬ (Runs.exec (World.scheduler LockMode.conflicts)
      (World.start evaluated fun i => (requests i).locks assessmentId hashtext)
      moves).Deadlocked LockMode.conflicts := by
  have hsound := lifecycle_sound assessmentId hashtext evaluated requests moves
  generalize Runs.exec (World.scheduler LockMode.conflicts)
    (World.start evaluated fun i => (requests i).locks assessmentId hashtext) moves = world
    at hsound ⊢
  refine World.not_deadlocked_of_rank
    (fun i n => ∃ lock next, (world.transactions i).rest = some (.acquire lock next) ∧
      Stage assessmentId hashtext (Committed evaluated requests world.ended) (requests i)
        (world.transactions i).held lock n) ?_ ?_
  · rintro i j ⟨_, lock, next, hrest, _⟩
    obtain ⟨n, hstage⟩ := stage_of_visits (fun _ h => h) (hsound.visits i _ hrest)
    exact ⟨n, lock, next, hrest, hstage⟩
  · rintro i j n m ⟨hij, lock, next, hrest, hblocks⟩ ⟨lock', next', hrest', hstage⟩
      ⟨lock'', next'', hrest'', hstage''⟩
    cases hrest.symm.trans hrest'
    obtain ⟨mode, hmode, _⟩ := World.blocks_eq_true.mp hblocks
    refine stage_lt huntangled ?_ hstage hstage'' ⟨mode, hmode⟩ ?_
    · simp [World.ended, hrest'']
    · intro held hheld mode' hmode'
      have hfree := hsound.compatible i j hij held hheld
      rw [← Bool.not_eq_true, World.blocks_eq_true] at hfree
      exact Bool.not_eq_true _ ▸ fun hconflict => hfree ⟨mode', hmode', hconflict⟩

section Visits

variable (assessmentId hashtext) {enrollment e : Uuid} {now : List Uuid}

/-- The upsert, and then the rest of `save_final_evaluation`. -/
theorem save_visits (enrollment : Uuid) (order : RankingOrder) (now : List Uuid)
    {held : List (LockedRow × LockMode)} {rest : LockProgram}
    (h : (closeAndRankLocks assessmentId hashtext enrollment order).Visits (· = now) held rest) :
    ∃ before, (saveFinalEvaluationLocks assessmentId hashtext enrollment order).Visits (· = now)
        (before ++ held) rest ∧
      (.interviewEvaluation enrollment, .forUpdate) ∈ before ∧
      ∀ lock ∈ before, lock.1 = .interviewEvaluation enrollment ∨
        lock.1 = .interviewSession enrollment := by
  by_cases hexists : enrollment ∈ now
  · refine ⟨[(.interviewEvaluation enrollment, .forUpdate)], .acquire (.read rfl ?_), by simp,
      by simp⟩
    rw [if_pos hexists]
    exact h
  · refine ⟨[(.interviewEvaluation enrollment, .forUpdate),
      (.interviewSession enrollment, .forKeyShare)], .acquire (.read rfl ?_), by simp, by simp⟩
    rw [if_neg hexists]
    exact .acquire h

/-- A final evaluation reaches the lock of its ranking with the rows of its enrollment. -/
theorem reaches_ranking (enrollment : Uuid) (order : RankingOrder) (now : List Uuid) :
    ∃ held next, (saveFinalEvaluationLocks assessmentId hashtext enrollment order).Visits
        (· = now) held
        (.acquire (.ranking (rankingKey assessmentId hashtext enrollment), .forUpdate) next) ∧
      (.interviewEvaluation enrollment, .forUpdate) ∈ held ∧
      ∀ lock ∈ held, lock.1.Of enrollment := by
  obtain ⟨before, hvisits, hown, hbefore⟩ := save_visits assessmentId hashtext enrollment
    order now (.acquire (.acquire (.here _)))
  refine ⟨_, _, hvisits, List.mem_append_left _ hown, ?_⟩
  simp only [List.forall_mem_append, List.forall_mem_cons]
  refine ⟨fun lock hlock => ?_, .interviewSession, .candidateAssessment, fun _ h => nomatch h⟩
  rcases hbefore lock hlock with hrow | hrow
  · exact hrow ▸ .interviewEvaluation
  · exact hrow ▸ .interviewSession

theorem reaches_ranked (henrollment : e ≠ enrollment) (he : e ∈ now)
    (hassessment : assessmentId e = assessmentId enrollment) (order : RankingOrder) :
    ∃ held next, (saveFinalEvaluationLocks assessmentId hashtext enrollment order).Visits
        (· = now) held (.acquire (.interviewEvaluation e, .forUpdate) next) ∧
      (.ranking (rankingKey assessmentId hashtext enrollment), .forUpdate) ∈ held ∧
      ∀ lock ∈ held, ¬ lock.1.Of e := by
  have hranked : e ∈ rankedEnrollments assessmentId enrollment order now :=
    mem_rankedEnrollments.mpr ⟨.inl he, hassessment⟩
  obtain ⟨earlier, later, hsplit, hearlier⟩ := List.eq_append_cons_of_mem hranked
  have hrows : rankedRows (rankedEnrollments assessmentId enrollment order now) =
      rankedRows earlier ++ (.interviewEvaluation e, .forUpdate) ::
        (.candidateAssessment e, .forUpdate) :: rankedRows later := by
    rw [hsplit]
    simp [rankedRows]
  have hvisits : (refreshAssessmentRankingLocks assessmentId enrollment order).Visits (· = now)
      (rankedRows earlier)
      (.acquireAll ((.interviewEvaluation e, .forUpdate) :: (.candidateAssessment e, .forUpdate) ::
        rankedRows later) (.commit (saved enrollment))) := by
    refine .read rfl ?_
    rw [hrows]
    exact Program.visits_acquireAll _ _ _
  obtain ⟨before, hvisits, hown, hbefore⟩ := save_visits assessmentId hashtext enrollment
    order now (.acquire (.acquire (.acquire hvisits)))
  refine ⟨_, _, hvisits, by simp, ?_⟩
  simp only [List.forall_mem_append, List.forall_mem_cons]
  refine ⟨fun lock hlock hof => ?_, fun hof => ?_, fun hof => ?_, fun hof => ?_,
    fun lock hlock hof => ?_⟩
  · rcases hbefore lock hlock with hrow | hrow
    · rw [hrow] at hof
      cases hof
      exact henrollment rfl
    · rw [hrow] at hof
      cases hof
      exact henrollment rfl
  · cases hof
    exact henrollment rfl
  · cases hof
    exact henrollment rfl
  · cases hof
  · obtain ⟨_, e', he', hrow | hrow⟩ := mem_rankedRows.mp hlock
    · rw [hrow] at hof
      cases hof
      exact hearlier he'
    · rw [hrow] at hof
      cases hof
      exact hearlier he'

theorem reaches_commit (enrollment : Uuid) (order : RankingOrder) (now : List Uuid) :
    ∃ held, (saveFinalEvaluationLocks assessmentId hashtext enrollment order).Visits (· = now)
      held (.commit (saved enrollment)) := by
  have hvisits : (refreshAssessmentRankingLocks assessmentId enrollment order).Visits (· = now)
      (rankedRows (rankedEnrollments assessmentId enrollment order now))
      (.commit (saved enrollment)) := by
    refine .read rfl ?_
    have hall := Program.visits_acquireAll (S := (· = now))
      (rankedRows (rankedEnrollments assessmentId enrollment order now)) []
      (Program.commit (saved enrollment))
    rwa [List.append_nil] at hall
  obtain ⟨before, hvisits, _⟩ := save_visits assessmentId hashtext enrollment
    order now (.acquire (.acquire (.acquire hvisits)))
  exact ⟨_, hvisits⟩

/-- What ends a session locks it before the enrollment. -/
theorem session_before_enrollment {request : LifecycleRequest}
    (h : request.Terminates enrollment ∨ request.Saves enrollment) (now : List Uuid) :
    ∃ held next mode, (request.locks assessmentId hashtext).Visits (· = now) held
        (.acquire (.candidateAssessment enrollment, .forNoKeyUpdate) next) ∧
      (.interviewSession enrollment, mode) ∈ held ∧
      ∀ lock ∈ held, lock.1 ≠ .candidateAssessment enrollment := by
  rcases h with (rfl | rfl | rfl) | ⟨order, rfl⟩
  · exact ⟨_, _, .forNoKeyUpdate, .acquire (.here _), List.mem_cons_self, by simp⟩
  · exact ⟨_, _, .forUpdate, .acquire (.here _), List.mem_cons_self, by simp⟩
  · exact ⟨_, _, .forUpdate, .acquire (.here _), List.mem_cons_self, by simp⟩
  · obtain ⟨before, hvisits, _, hbefore⟩ := save_visits assessmentId hashtext enrollment
      order now (.acquire (.here _))
    refine ⟨_, _, .forNoKeyUpdate, hvisits, by simp, ?_⟩
    simp only [List.forall_mem_append, List.forall_mem_singleton]
    refine ⟨fun lock hlock => ?_, by simp⟩
    rcases hbefore lock hlock with hrow | hrow
    · simp [hrow]
    · simp [hrow]

end Visits

theorem deadlocked_of_entry {i j : ι} {enrollment : Uuid}
    (hi : requests i = .enterWithInvitation enrollment)
    (hj : (requests j).Terminates enrollment ∨ (requests j).Saves enrollment) :
    ∃ moves, (Runs.exec (World.scheduler LockMode.conflicts)
      (World.start evaluated fun i => (requests i).locks assessmentId hashtext)
      moves).Deadlocked LockMode.conflicts := by
  have hij : i ≠ j := by
    rintro rfl
    rw [hi] at hj
    rcases hj with (hj | hj | hj) | ⟨order, hj⟩
    · cases hj
    · cases hj
    · cases hj
    · cases hj
  have henter : ((requests i).locks assessmentId hashtext).Visits (· = evaluated)
      [(.candidateAssessment enrollment, .forUpdate)]
      (.acquire (.interviewSession enrollment, .forUpdate) (.commit id)) := by
    rw [hi]
    exact .acquire (.here _)
  obtain ⟨held, next, mode, hvisits, hsession, henrollment⟩ :=
    session_before_enrollment assessmentId hashtext hj evaluated
  refine World.deadlocked_of_embrace hij (fun _ => rfl) rfl rfl henter hvisits ?_
    ⟨_, hsession, ?_⟩ ⟨_, List.mem_cons_self, ?_⟩
  · intro lock hlock lock' hlock'
    rw [List.mem_singleton.mp hlock']
    simp [World.clash, henrollment lock hlock]
  · cases mode <;> simp [World.clash, LockMode.conflicts]
  · simp [World.clash, LockMode.conflicts]

/-- Two final evaluations of an assessment deadlock when one of them replaces an evaluation. -/
theorem deadlocked_of_ranking (hashtext : String → ℤ) (order order' : RankingOrder) {i j : ι}
    {enrollment e : Uuid} {world : World LockedRow LockMode (List Uuid) ι}
    (hidle : ∀ k, (world.transactions k).held = [])
    (hi : (world.transactions i).rest =
      some (saveFinalEvaluationLocks assessmentId hashtext enrollment order))
    (hj : (world.transactions j).rest =
      some (saveFinalEvaluationLocks assessmentId hashtext e order'))
    (hij : i ≠ j) (henrollment : e ≠ enrollment) (he : e ∈ world.state)
    (hassessment : assessmentId e = assessmentId enrollment) :
    ∃ moves, (Runs.exec (World.scheduler LockMode.conflicts) world moves).Deadlocked
      LockMode.conflicts := by
  obtain ⟨held, next, hvisits, hkey, hother⟩ := reaches_ranked assessmentId hashtext
    henrollment he hassessment order
  obtain ⟨held', next', hvisits', hown, hof⟩ := reaches_ranking assessmentId hashtext e
    order' world.state
  refine World.deadlocked_of_embrace hij hidle hi hj hvisits hvisits' ?_ ⟨_, hown, ?_⟩
    ⟨_, hkey, ?_⟩
  · intro lock hlock lock' hlock'
    have hrow : lock.1 ≠ lock'.1 := fun hrow => hother lock' hlock' (hrow ▸ hof lock hlock)
    simp [World.clash, hrow]
  · simp [World.clash, LockMode.conflicts]
  · simp [World.clash, LockMode.conflicts, rankingKey, hassessment]

/-- The lifecycle transactions never deadlock exactly when they are not tangled. -/
theorem lifecycle_deadlock_free_iff (assessmentId : Uuid → Uuid) (hashtext : String → ℤ)
    (evaluated : List Uuid) (requests : ι → LifecycleRequest) :
    (∀ moves, ¬ (Runs.exec (World.scheduler LockMode.conflicts)
      (World.start evaluated fun i => (requests i).locks assessmentId hashtext)
      moves).Deadlocked LockMode.conflicts) ↔ Untangled assessmentId evaluated requests := by
  constructor
  · intro hfree
    have hnone {world : World LockedRow LockMode (List Uuid) ι} (moves : List ι)
        (hworld : Runs.exec (World.scheduler LockMode.conflicts)
          (World.start evaluated fun i => (requests i).locks assessmentId hashtext) moves = world) :
        ¬ ∃ moves, (Runs.exec (World.scheduler LockMode.conflicts) world moves).Deadlocked
          LockMode.conflicts := by
      rintro ⟨moves', hdeadlocked⟩
      rw [← hworld, ← Runs.exec_append] at hdeadlocked
      exact hfree _ hdeadlocked
    refine ⟨fun i j enrollment hi => ⟨fun hj => ?_, fun hj => ?_⟩, ?_⟩
    · exact hnone [] rfl (deadlocked_of_entry hi (.inl hj))
    · exact hnone [] rfl (deadlocked_of_entry hi (.inr hj))
    · rintro i j enrollment e ⟨order, hi⟩ ⟨order', hj⟩ henrollment hassessment
      have hother {k : ι} {order : RankingOrder} (hk : requests k = .saveFinalEvaluation e order) :
          i ≠ k := by
        rintro rfl
        cases hi.symm.trans hk
        exact henrollment rfl
      have hrun (k : ι) {request : LifecycleRequest} (hk : requests k = request) :
          ((World.start evaluated fun i =>
            (requests i).locks assessmentId hashtext).transactions k).rest =
              some (request.locks assessmentId hashtext) := hk ▸ rfl
      refine ⟨fun he => ?_, fun k hkj ⟨order'', hk⟩ => ?_⟩
      · exact hnone [] rfl (deadlocked_of_ranking hashtext order order' (fun _ => rfl) (hrun i hi)
          (hrun j hj) (hother hj) henrollment.symm he hassessment.symm)
      · -- the third transaction ends first, and `e` has an evaluation then
        obtain ⟨held, hcommit⟩ := reaches_commit assessmentId hashtext e order'' evaluated
        obtain ⟨moves, hmoves⟩ := World.exec_commit LockMode.conflicts
          (fun _ => rfl) (hrun k hk) hcommit
        refine hnone moves hmoves (deadlocked_of_ranking hashtext order order' (fun a => ?_) ?_ ?_
          (hother hj) henrollment.symm (mem_saved.mpr (.inr rfl)) hassessment.symm)
        · by_cases ha : a = k
          · subst ha
            exact congrArg Transaction.held (World.set_self ..)
          · exact congrArg Transaction.held (World.set_of_ne _ _ ha)
        · exact (congrArg Transaction.rest (World.set_of_ne _ _ (hother hk))).trans (hrun i hi)
        · exact (congrArg Transaction.rest (World.set_of_ne _ _ hkj.symm)).trans (hrun j hj)
  · exact fun huntangled moves => not_deadlocked huntangled moves

end Untangled

section Sample

/-- The third drop of a connection while the candidate enters again. -/
def enteredAndDropped : Fin 2 → LifecycleRequest
  | 0 => .enterWithInvitation 7
  | 1 => .recordDisconnect 7 .terminated

/-- Two enrollments of an assessment are evaluated again. -/
def reevaluated : Fin 2 → LifecycleRequest
  | 0 => .saveFinalEvaluation 7 ⟨id, fun _ _ => .rfl⟩
  | 1 => .saveFinalEvaluation 8 ⟨id, fun _ _ => .rfl⟩

/-- Both pairs reach a deadlock. -/
theorem lifecycle_deadlocks :
    (Runs.exec (World.scheduler LockMode.conflicts)
      (World.start [] fun i => (enteredAndDropped i).locks (fun _ => 1) fun _ => 0)
      [0, 1]).Deadlocked LockMode.conflicts ∧
    (Runs.exec (World.scheduler LockMode.conflicts)
      (World.start [7, 8] fun i => (reevaluated i).locks (fun _ => 1) fun _ => 0)
      [0, 0, 0, 0, 0, 0, 0, 0, 1, 1, 1, 1]).Deadlocked LockMode.conflicts := by
  refine ⟨.of_pair (i := 0) (j := 1) ⟨by decide, _, _, rfl, ?_⟩ ⟨by decide, _, _, rfl, ?_⟩,
    .of_pair (i := 0) (j := 1) ⟨by decide, _, _, rfl, ?_⟩ ⟨by decide, _, _, rfl, ?_⟩⟩
  · decide +kernel
  · decide +kernel
  · decide +kernel
  · decide +kernel

end Sample

end IBotCoreApi
