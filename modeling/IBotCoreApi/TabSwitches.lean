import IBotCoreApi.CanonicalViolations
import IBotCoreApi.Refinement

namespace IBotCoreApi
open Python Runs Outcomes Consolidation CandidateSessionRepository InterviewSessionRepository
  InternalInterview

def tabSwitchSession : SessionRequest → Option Uuid
  | .recordTabSwitch sessionId _ _ _ _ => some sessionId
  | _ => none

theorem tabSwitchSession_eq_some {request : SessionRequest} {sessionId : Uuid}
    (h : tabSwitchSession request = some sessionId) :
    ∃ connectionId candidateAssessmentId eventId occurredAt, request =
      .recordTabSwitch sessionId connectionId candidateAssessmentId eventId occurredAt := by
  cases request with
  | recordTabSwitch sender connectionId candidateAssessmentId eventId occurredAt =>
    cases h
    exact ⟨connectionId, candidateAssessmentId, eventId, occurredAt, rfl⟩
  | _ => cases h

def tabSwitchRecorded : SessionResult → Bool
  | .ok (.tabSwitch response) => response.recorded
  | _ => false

def countedFor (sessionId : Uuid) (t : Transition Store Call SessionResult) : Bool :=
  tabSwitchSession t.input.request == some sessionId && tabSwitchRecorded t.output

/-- The call is counted: it comes from the bound connection of an active session of its
enrollment, with an id that no tab-switch record of the session knows. -/
structure CountsTabSwitch [Runtime] (s : InterviewSession) (connectionId : String)
    (candidateAssessmentId eventId : Uuid) : Prop where
  enrollment : s.candidateAssessmentId = candidateAssessmentId
  sender : sendsFrom connectionId s
  unknown : eventId.str ∉ knownIds tabSwitchViolationType s.violations

variable [Runtime] {store : Store} {s s' : InterviewSession} {sessionId : Uuid}

structure TabSwitched (clock : Clock) (eventId : Uuid) (s s' : InterviewSession) : Prop where
  active : s.isActive
  unknown : eventId.str ∉ knownIds tabSwitchViolationType s.violations
  saved : ∃ record, IsTabSwitchRecord record (tabSwitchCount s.violations + 1)
      (knownIds tabSwitchViolationType s.violations ++ [eventId.str]) ∧
    s' = savedSession clock (replaceViolationType s.violations tabSwitchViolationType record)
      (tabSwitchCount s.violations + 1 ≥ maxAllowedTabSwitches) s

/-- Everything a call of `record_tab_switch` on a stored session can do. -/
inductive TabSwitchOutcome (db : Database) (clock : Clock) (s : InterviewSession)
    (connectionId : String) (candidateAssessmentId eventId : Uuid) :
    SessionResult → Database → Prop
  | refused {reason : ApiException}
      (hwhy : TurnNumbered tabSwitchViolationType s.violations →
        s.candidateAssessmentId ≠ candidateAssessmentId) :
      TabSwitchOutcome db clock s connectionId candidateAssessmentId eventId (.error reason) db
  | ignored {response : RecordTabSwitchResponse} (hrecorded : response.recorded = false)
      (hcount : response.tabSwitchCount = tabSwitchCount s.violations)
      (hwhy : ¬ CountsTabSwitch s connectionId candidateAssessmentId eventId) :
      TabSwitchOutcome db clock s connectionId candidateAssessmentId eventId
        (.ok (.tabSwitch response)) db
  | recorded {response : RecordTabSwitchResponse} {record : Json}
      (hrecorded : response.recorded = true)
      (hcount : response.tabSwitchCount = tabSwitchCount s.violations + 1)
      (hcounts : CountsTabSwitch s connectionId candidateAssessmentId eventId)
      (hrecord : IsTabSwitchRecord record (tabSwitchCount s.violations + 1)
        (knownIds tabSwitchViolationType s.violations ++ [eventId.str])) :
      TabSwitchOutcome db clock s connectionId candidateAssessmentId eventId
        (.ok (.tabSwitch response))
        (saveViolations db clock s.id candidateAssessmentId
          (replaceViolationType s.violations tabSwitchViolationType record)
          (tabSwitchCount s.violations + 1 ≥ maxAllowedTabSwitches))

theorem recordTabSwitch_error {db : Database} {clock : Clock} {connectionId : String}
    {candidateAssessmentId eventId : Uuid} {occurredAt : String} {reason : ApiException}
    (hs : db.session? sessionId = some s) (hturns : TurnNumbered tabSwitchViolationType s.violations)
    (hrun : recordTabSwitch db clock sessionId connectionId candidateAssessmentId eventId
      occurredAt = .error reason) : s.candidateAssessmentId ≠ candidateAssessmentId := by
  obtain ⟨record, hrecord⟩ := tabSwitchViolation_ok hturns s.transcript
    (tabSwitchCount s.violations) eventId.str occurredAt
  intro hid
  unfold recordTabSwitch lockedSession at hrun
  simp only [hs, hid, hrecord, ne_eq, not_true_eq_false, if_false, bind, Except.bind, pure,
    Except.pure, ofPython, Except.mapError] at hrun
  split_ifs at hrun

theorem recordTabSwitch_outcome {db : Database} (clock : Clock) (connectionId : String)
    (candidateAssessmentId eventId : Uuid) (occurredAt : String)
    (hs : db.session? sessionId = some s) :
    TabSwitchOutcome db clock s connectionId candidateAssessmentId eventId
      (handle db ⟨clock, .recordTabSwitch sessionId connectionId candidateAssessmentId eventId
        occurredAt⟩).1
      (handle db ⟨clock, .recordTabSwitch sessionId connectionId candidateAssessmentId eventId
        occurredAt⟩).2 := by
  have hid : s.id = sessionId := Tables.lookup_key hs
  simp only [handle, respond]
  cases hrun : recordTabSwitch db clock sessionId connectionId candidateAssessmentId eventId
      occurredAt with
  | error reason => exact .refused fun hturns => recordTabSwitch_error hs hturns hrun
  | ok result =>
    obtain ⟨response, db'⟩ := result
    obtain ⟨found, hfound, hca, hcases⟩ := recordTabSwitch_cases hrun
    cases hs.symm.trans hfound
    rcases hcases with ⟨hrecorded, hcount, rfl, hwhy⟩ |
      ⟨hrecorded, hcount, hsender, hunknown, record, hrecord, rfl⟩
    · refine .ignored hrecorded hcount fun hcounts => ?_
      rcases hwhy with hsender | hknown
      · simp [hcounts.sender] at hsender
      · exact hcounts.unknown hknown
    · rw [← hid]
      exact .recorded hrecorded hcount ⟨hca, hsender, hunknown⟩ (tabSwitchViolation_record
        (tabSwitchCount_nonneg _) hunknown (Uuid.str_ne_empty _) hrecord)

namespace TabSwitchOutcome

variable {db db' : Database} {clock : Clock} {connectionId : String}
  {candidateAssessmentId eventId : Uuid} {output : SessionResult}

theorem recorded_iff
    (h : TabSwitchOutcome db clock s connectionId candidateAssessmentId eventId output db')
    (hturns : TurnNumbered tabSwitchViolationType s.violations) :
    tabSwitchRecorded output ↔ CountsTabSwitch s connectionId candidateAssessmentId eventId := by
  cases h with
  | refused hwhy =>
    apply iff_of_false
    · simp [tabSwitchRecorded]
    · exact fun hcounts => hwhy hturns hcounts.enrollment
  | ignored hrecorded hcount hwhy => exact iff_of_false (by simp [tabSwitchRecorded, hrecorded]) hwhy
  | recorded hrecorded hcount hcounts => exact iff_of_true hrecorded hcounts

theorem unchanged
    (h : TabSwitchOutcome db clock s connectionId candidateAssessmentId eventId output db')
    (hnot : tabSwitchRecorded output = false) : db' = db := by
  cases h with
  | refused | ignored => rfl
  | recorded hrecorded =>
    change _ = false at hnot
    simp [tabSwitchRecorded, hrecorded] at hnot

theorem switched
    (h : TabSwitchOutcome db clock s connectionId candidateAssessmentId eventId output db')
    (hs : db.session? s.id = some s) (hrecorded : tabSwitchRecorded output) :
    ∃ s', db'.session? s.id = some s' ∧ TabSwitched clock eventId s s' := by
  cases h with
  | refused => simp [tabSwitchRecorded] at hrecorded
  | ignored hnot => simp [tabSwitchRecorded, hnot] at hrecorded
  | recorded _ hcount hcounts hrecord =>
    refine ⟨_, session?_saveViolations_self hs candidateAssessmentId, ?_⟩
    exact ⟨(sendsFrom_iff.mp hcounts.sender).1, hcounts.unknown, _, hrecord, rfl⟩

theorem returned {response : RecordTabSwitchResponse}
    (h : TabSwitchOutcome db clock s connectionId candidateAssessmentId eventId
      (.ok (.tabSwitch response)) db') :
    response.tabSwitchCount =
      tabSwitchCount s.violations + if response.recorded then 1 else 0 := by
  cases h with
  | ignored hrecorded hcount => simp [hrecorded, hcount]
  | recorded hrecorded hcount => simp [hrecorded, hcount]

end TabSwitchOutcome

namespace TabSwitched

variable {clock : Clock} {eventId : Uuid}

theorem consolidates (h : TabSwitched clock eventId s s') :
    ∃ record, Consolidates (hasType tabSwitchViolationType) s.violations s'.violations record ∧
      IsTabSwitchRecord record (tabSwitchCount s.violations + 1)
        (knownIds tabSwitchViolationType s.violations ++ [eventId.str]) := by
  obtain ⟨record, hrecord, rfl⟩ := h.saved
  refine ⟨record, ?_, hrecord⟩
  rw [savedSession_violations]
  exact replaceViolationType_consolidates hrecord.type s.violations

theorem count (h : TabSwitched clock eventId s s') :
    tabSwitchCount s'.violations = tabSwitchCount s.violations + 1 := by
  obtain ⟨record, hconsolidates, hrecord⟩ := h.consolidates
  have hcount := tabSwitchCount_nonneg s.violations
  exact tabSwitchCount_of_record hconsolidates.only hrecord (by omega)

theorem ids (h : TabSwitched clock eventId s s') :
    knownIds tabSwitchViolationType s'.violations =
      knownIds tabSwitchViolationType s.violations ++ [eventId.str] := by
  obtain ⟨record, hconsolidates, hrecord⟩ := h.consolidates
  rw [knownIds, hconsolidates.only, hrecord.ids]

theorem turns (h : TabSwitched clock eventId s s') :
    TurnNumbered tabSwitchViolationType s'.violations := by
  obtain ⟨record, hconsolidates, hrecord⟩ := h.consolidates
  exact TurnNumbered.of_filter hconsolidates.only hrecord.turn

theorem status (h : TabSwitched clock eventId s s') :
    s'.status = if tabSwitchCount s'.violations ≥ maxAllowedTabSwitches then .terminated
      else s.status := by
  rw [h.count]
  obtain ⟨record, hrecord, rfl⟩ := h.saved
  rw [savedSession_status]
  simp

end TabSwitched

theorem serve_tabSwitch_of_ne {clock : Clock} {sender : Uuid} (hne : sender ≠ sessionId)
    (connectionId : String) (candidateAssessmentId eventId : Uuid) (occurredAt : String) :
    (serve store ⟨clock, .recordTabSwitch sender connectionId candidateAssessmentId eventId
      occurredAt⟩).2.db.session? sessionId = store.db.session? sessionId := by
  simp only [serve, handle, respond]
  cases hrun : recordTabSwitch store.db clock sender connectionId candidateAssessmentId eventId
      occurredAt with
  | error reason => rfl
  | ok result =>
    obtain ⟨response, db'⟩ := result
    obtain ⟨found, hfound, hca, hcases⟩ := recordTabSwitch_cases hrun
    rcases hcases with ⟨_, _, rfl, _⟩ | ⟨_, _, _, _, record, _, rfl⟩
    · rfl
    · exact session?_saveViolations_of_ne hne candidateAssessmentId

theorem serve_tabSwitch {call : Call} (hcall : (tabSwitchSession call.request).isSome)
    (hs : store.db.session? sessionId = some s) :
    let t := Transition.of serve store call
    ∃ s', t.post.db.session? sessionId = some s' ∧
      ((countedFor sessionId t = false ∧ s' = s) ∨
        (countedFor sessionId t = true ∧ ∃ eventId, TabSwitched call.clock eventId s s')) := by
  intro t
  obtain ⟨clock, request⟩ := call
  cases request with
  | recordTabSwitch sender connectionId candidateAssessmentId eventId occurredAt =>
    by_cases hsender : sender = sessionId
    · subst hsender
      have houtcome := recordTabSwitch_outcome clock connectionId candidateAssessmentId
        eventId occurredAt hs
      have hid : s.id = sender := Tables.lookup_key hs
      have hcounted : countedFor sender t = tabSwitchRecorded t.output := by
        simp [countedFor, t, Transition.of, tabSwitchSession]
      rw [hcounted]
      by_cases hrecorded : tabSwitchRecorded t.output
      · rw [← hid] at hs ⊢
        obtain ⟨s', hs', hswitch⟩ := houtcome.switched hs hrecorded
        exact ⟨s', hs', .inr ⟨hrecorded, eventId, hswitch⟩⟩
      · rw [Bool.not_eq_true] at hrecorded
        refine ⟨s, ?_, .inl ⟨hrecorded, rfl⟩⟩
        rw [show t.post.db = store.db from houtcome.unchanged hrecorded, hs]
    · refine ⟨s, (serve_tabSwitch_of_ne hsender _ _ _ _).trans hs, .inl ⟨?_, rfl⟩⟩
      simp [countedFor, t, Transition.of, tabSwitchSession, hsender]
  | _ => cases hcall

section Run

variable {calls : List Call} {violations : List Json}

def countedIn (sessionId : Uuid) (history : List (Transition Store Call SessionResult)) : ℕ :=
  history.countP (countedFor sessionId)

/-- The tab-switch records of the list that was stored first are consolidated in one record. -/
structure HoldsOneRecord (before after : List Json) : Prop where
  consolidated : ∃ record, Consolidates (hasType tabSwitchViolationType) before after record ∧
    after.filter (hasType tabSwitchViolationType) = [record]
  others : after.filter (!hasType tabSwitchViolationType ·) =
    before.filter (!hasType tabSwitchViolationType ·)

structure StoresCount (before : List Json) (n : ℕ) (s : InterviewSession) : Prop where
  count : tabSwitchCount s.violations = tabSwitchCount before + n
  turns : TurnNumbered tabSwitchViolationType s.violations
  unchanged : n = 0 → s.violations = before
  oneRecord : 0 < n → HoldsOneRecord before s.violations

theorem StoresCount.next {before : List Json} {n : ℕ} {clock : Clock} {eventId : Uuid}
    (h : StoresCount before n s) (hswitch : TabSwitched clock eventId s s') :
    StoresCount before (n + 1) s' where
  count := by
    rw [hswitch.count, h.count, Int.natCast_succ, add_assoc]
  turns := hswitch.turns
  unchanged := by simp
  oneRecord := by
    intro _
    obtain ⟨record, hconsolidates, _⟩ := hswitch.consolidates
    -- the first counted switch consolidates the list that was stored, the later ones the record
    have hfirst : Consolidates (hasType tabSwitchViolationType) before s'.violations record := by
      by_cases hn : n = 0
      · rw [← h.unchanged hn]
        exact hconsolidates
      · obtain ⟨record', hbefore, _⟩ := (h.oneRecord (by omega)).consolidated
        exact hbefore.trans hconsolidates
    exact ⟨⟨record, hfirst, hfirst.only⟩, hfirst.others⟩

theorem storesCount_run (hs : store.db.session? sessionId = some s)
    (hturns : TurnNumbered tabSwitchViolationType s.violations)
    (hcalls : ∀ call ∈ calls, (tabSwitchSession call.request).isSome) :
    ∃ s', (exec serve store calls).db.session? sessionId = some s' ∧
      StoresCount s.violations (countedIn sessionId (trace serve store calls)) s' := by
  have hkeep (history : List (Transition Store Call SessionResult)) (store : Store) (call : Call)
      (hcall : (tabSwitchSession call.request).isSome)
      (h : ∃ s', store.db.session? sessionId = some s' ∧
        StoresCount s.violations (countedIn sessionId history) s') :
      ∃ s', (serve store call).2.db.session? sessionId = some s' ∧
        StoresCount s.violations
          (countedIn sessionId (history ++ [Transition.of serve store call])) s' := by
    obtain ⟨s₁, hs₁, hcount⟩ := h
    obtain ⟨s₂, hs₂, ⟨hnot, rfl⟩ | ⟨hcounted, eventId, hswitch⟩⟩ := serve_tabSwitch hcall hs₁
    · refine ⟨s₂, hs₂, ?_⟩
      rw [countedIn, List.countP_append, List.countP_singleton, hnot]
      exact hcount
    · refine ⟨s₂, hs₂, ?_⟩
      rw [countedIn, List.countP_append, List.countP_singleton, hcounted]
      exact hcount.next hswitch
  exact history_invariant hkeep hcalls
    ⟨s, hs, by simp [countedIn], hturns, fun _ => rfl, by simp [countedIn]⟩

/-- What a run of tab switches keeps of a session. -/
structure Keeps (s s' : InterviewSession) : Prop where
  ids : knownIds tabSwitchViolationType s.violations ⊆ knownIds tabSwitchViolationType s'.violations
  ended : s.status = .terminated → s'.status = .terminated

def KeepsSession (sessionId : Uuid) (store store' : Store) : Prop :=
  ∀ s, store.db.session? sessionId = some s →
    ∃ s', store'.db.session? sessionId = some s' ∧ Keeps s s'

theorem keepsSession_run (hcalls : ∀ call ∈ calls, (tabSwitchSession call.request).isSome) :
    KeepsSession sessionId store (exec serve store calls) := by
  apply exec_rel
  · exact fun store s hs => ⟨s, hs, fun _ hid => hid, fun h => h⟩
  · intro a b c hab hbc s hs
    obtain ⟨s₁, hs₁, hkeeps⟩ := hab s hs
    obtain ⟨s₂, hs₂, hkeeps'⟩ := hbc s₁ hs₁
    exact ⟨s₂, hs₂, fun _ hid => hkeeps'.ids (hkeeps.ids hid),
      fun h => hkeeps'.ended (hkeeps.ended h)⟩
  · intro t ht s hs
    obtain ⟨before, call, after, rfl, rfl⟩ := mem_trace ht
    obtain ⟨s₁, hs₁, ⟨_, rfl⟩ | ⟨_, eventId, hswitch⟩⟩ :=
      serve_tabSwitch (hcalls call (by simp)) hs
    · exact ⟨s₁, hs₁, fun _ hid => hid, fun h => h⟩
    · refine ⟨s₁, hs₁, ?_, ?_⟩
      · rw [hswitch.ids]
        exact List.subset_append_left _ _
      · intro hended
        have hactive := hswitch.active
        simp [InterviewSession.isActive, hended] at hactive

theorem not_counted_of_terminated (hs : store.db.session? sessionId = some s)
    (hended : s.status = .terminated)
    (hcalls : ∀ call ∈ calls, (tabSwitchSession call.request).isSome)
    {t : Transition Store Call SessionResult} (ht : t ∈ trace serve store calls) :
    countedFor sessionId t = false := by
  obtain ⟨before, call, after, rfl, rfl⟩ := mem_trace ht
  have hbefore : ∀ c ∈ before, (tabSwitchSession c.request).isSome := fun c hc =>
    hcalls c (List.mem_append_left _ hc)
  obtain ⟨s₁, hs₁, hkeeps⟩ := keepsSession_run hbefore s hs
  obtain ⟨s₂, hs₂, ⟨hnot, _⟩ | ⟨_, eventId, hswitch⟩⟩ :=
    serve_tabSwitch (hcalls call (by simp)) hs₁
  · exact hnot
  · have hactive := hswitch.active
    simp [InterviewSession.isActive, hkeeps.ended hended] at hactive

structure CountsExactlyOnce (sessionId : Uuid) (violations : List Json) (store : Store)
    (calls : List Call) : Prop where
  stored : ∃ s, (exec serve store calls).db.session? sessionId = some s ∧
    tabSwitchCount s.violations =
      tabSwitchCount violations + countedIn sessionId (trace serve store calls) ∧
    (countedIn sessionId (trace serve store calls) = 0 → s.violations = violations) ∧
    (0 < countedIn sessionId (trace serve store calls) → HoldsOneRecord violations s.violations)
  returned : ∀ t ∈ trace serve store calls, tabSwitchSession t.input.request = some sessionId →
    ∀ response, t.output = .ok (.tabSwitch response) →
      ∃ s, t.post.db.session? sessionId = some s ∧
        response.tabSwitchCount = tabSwitchCount s.violations
  accepted : ∀ t ∈ trace serve store calls,
    ∀ connectionId candidateAssessmentId eventId occurredAt, t.input.request =
      .recordTabSwitch sessionId connectionId candidateAssessmentId eventId occurredAt →
    ∃ s s', t.pre.db.session? sessionId = some s ∧ t.post.db.session? sessionId = some s' ∧
      (countedFor sessionId t ↔ CountsTabSwitch s connectionId candidateAssessmentId eventId) ∧
      (countedFor sessionId t → eventId.str ∈ knownIds tabSwitchViolationType s'.violations)
  known : ∀ before between call after, calls = before ++ (between ++ call :: after) →
    ∀ connectionId candidateAssessmentId eventId occurredAt, call.request =
      .recordTabSwitch sessionId connectionId candidateAssessmentId eventId occurredAt →
    ∀ s, (exec serve store before).db.session? sessionId = some s →
      eventId.str ∈ knownIds tabSwitchViolationType s.violations →
      let t := Transition.of serve (exec serve store (before ++ between)) call
      countedFor sessionId t = false ∧ t.post.db = t.pre.db
  terminated : ∀ before call after, calls = before ++ call :: after →
    let t := Transition.of serve (exec serve store before) call
    countedFor sessionId t →
    ∃ s s', t.pre.db.session? sessionId = some s ∧ t.post.db.session? sessionId = some s' ∧
      (tabSwitchCount s'.violations < maxAllowedTabSwitches → s'.status = s.status) ∧
      (maxAllowedTabSwitches ≤ tabSwitchCount s'.violations → s'.status = .terminated ∧
        ∀ later ∈ trace serve t.post after, countedFor sessionId later = false)

theorem tabSwitch_outcome_of_mem_trace (hs : store.db.session? sessionId = some s)
    (hturns : TurnNumbered tabSwitchViolationType s.violations)
    (hcalls : ∀ call ∈ calls, (tabSwitchSession call.request).isSome)
    {t : Transition Store Call SessionResult} (ht : t ∈ trace serve store calls)
    {connectionId : String} {candidateAssessmentId eventId : Uuid} {occurredAt : String}
    (hrequest : t.input.request =
      .recordTabSwitch sessionId connectionId candidateAssessmentId eventId occurredAt) :
    ∃ s₁, t.pre.db.session? sessionId = some s₁ ∧
      TurnNumbered tabSwitchViolationType s₁.violations ∧
      TabSwitchOutcome t.pre.db t.input.clock s₁ connectionId candidateAssessmentId eventId
        t.output t.post.db := by
  obtain ⟨before, call, after, rfl, rfl⟩ := mem_trace ht
  have hbefore : ∀ c ∈ before, (tabSwitchSession c.request).isSome := fun c hc =>
    hcalls c (List.mem_append_left _ hc)
  obtain ⟨s₁, hs₁, hstores⟩ := storesCount_run hs hturns hbefore
  refine ⟨s₁, hs₁, hstores.turns, ?_⟩
  obtain ⟨clock, request⟩ := call
  change request = _ at hrequest
  subst hrequest
  exact recordTabSwitch_outcome _ connectionId candidateAssessmentId eventId occurredAt hs₁

omit [Runtime] in
theorem countedFor_of_request {t : Transition Store Call SessionResult} {connectionId : String}
    {candidateAssessmentId eventId : Uuid} {occurredAt : String}
    (hrequest : t.input.request =
      .recordTabSwitch sessionId connectionId candidateAssessmentId eventId occurredAt) :
    countedFor sessionId t = tabSwitchRecorded t.output := by
  simp [countedFor, hrequest, tabSwitchSession]

/-- Tab switches are counted exactly once: for every stored list whose tab-switch records have no
turn number or an integer one, and every run of `record_tab_switch` calls. -/
theorem tab_switches_counted_once (store : Store) (calls : List Call) (sessionId : Uuid)
    (s : InterviewSession) (hs : store.db.session? sessionId = some s)
    (hturns : TurnNumbered tabSwitchViolationType s.violations)
    (hcalls : ∀ call ∈ calls, (tabSwitchSession call.request).isSome) :
    CountsExactlyOnce sessionId s.violations store calls := by
  constructor
  · obtain ⟨s', hs', hstores⟩ := storesCount_run hs hturns hcalls
    exact ⟨s', hs', hstores.count, hstores.unchanged, hstores.oneRecord⟩
  · intro t ht hsession response hresponse
    obtain ⟨connectionId, candidateAssessmentId, eventId, occurredAt, hrequest⟩ :=
      tabSwitchSession_eq_some hsession
    obtain ⟨s₁, hs₁, _, houtcome⟩ := tabSwitch_outcome_of_mem_trace hs hturns hcalls ht hrequest
    have hid : s₁.id = sessionId := Tables.lookup_key hs₁
    rw [hresponse] at houtcome
    rw [houtcome.returned, ← hid]
    rw [← hid] at hs₁
    -- a recorded switch adds one to the count, any other call leaves it
    by_cases hrecorded : response.recorded
    · obtain ⟨s₂, hs₂, hswitch⟩ := houtcome.switched hs₁ hrecorded
      exact ⟨s₂, hs₂, by rw [if_pos hrecorded, hswitch.count]⟩
    · refine ⟨s₁, ?_, by rw [if_neg hrecorded, add_zero]⟩
      rw [houtcome.unchanged (by simpa [tabSwitchRecorded] using hrecorded), hs₁]
  · intro t ht connectionId candidateAssessmentId eventId occurredAt hrequest
    obtain ⟨s₁, hs₁, hturns₁, houtcome⟩ :=
      tabSwitch_outcome_of_mem_trace hs hturns hcalls ht hrequest
    have hid : s₁.id = sessionId := Tables.lookup_key hs₁
    rw [countedFor_of_request hrequest]
    by_cases hrecorded : tabSwitchRecorded t.output
    · rw [← hid] at hs₁ ⊢
      obtain ⟨s₂, hs₂, hswitch⟩ := houtcome.switched hs₁ hrecorded
      refine ⟨s₁, s₂, hs₁, hs₂, houtcome.recorded_iff hturns₁, fun _ => ?_⟩
      simp [hswitch.ids]
    · refine ⟨s₁, s₁, hs₁, ?_, houtcome.recorded_iff hturns₁, fun h => absurd h hrecorded⟩
      rw [houtcome.unchanged (by simpa using hrecorded), hs₁]
  -- a repeated event: its id is still known, however many calls came in between
  · rintro before between call after rfl connectionId candidateAssessmentId eventId occurredAt
      hrequest s₁ hs₁ hknown t
    have hbetween : ∀ c ∈ between, (tabSwitchSession c.request).isSome := fun c hc =>
      hcalls c (by simp [hc])
    obtain ⟨s₂, hs₂, hkeeps⟩ := keepsSession_run hbetween s₁ hs₁
    rw [← exec_append] at hs₂
    obtain ⟨clock, request⟩ := call
    change request = _ at hrequest
    subst hrequest
    have houtcome := recordTabSwitch_outcome clock connectionId candidateAssessmentId
      eventId occurredAt hs₂
    have hnot : tabSwitchRecorded t.output = false := by
      by_contra hrecorded
      have hid : s₂.id = sessionId := Tables.lookup_key hs₂
      rw [← hid] at hs₂
      rw [Bool.not_eq_false] at hrecorded
      obtain ⟨_, _, hswitch⟩ := houtcome.switched hs₂ hrecorded
      exact hswitch.unknown (hkeeps.ids hknown)
    exact ⟨by rw [countedFor_of_request rfl, hnot], houtcome.unchanged hnot⟩
  -- the switch that reaches the limit terminates the session, and no later call counts
  · rintro before call after rfl t hcounted
    have hbefore : ∀ c ∈ before, (tabSwitchSession c.request).isSome := fun c hc =>
      hcalls c (List.mem_append_left _ hc)
    have hafter : ∀ c ∈ after, (tabSwitchSession c.request).isSome := fun c hc =>
      hcalls c (by simp [hc])
    obtain ⟨s₁, hs₁, _⟩ := keepsSession_run hbefore s hs
    obtain ⟨s₂, hs₂, ⟨hnot, _⟩ | ⟨_, eventId, hswitch⟩⟩ := serve_tabSwitch (hcalls call (by simp)) hs₁
    · rw [hnot] at hcounted
      cases hcounted
    · refine ⟨s₁, s₂, hs₁, hs₂, fun hbelow => ?_, fun hreached => ?_⟩
      · rw [hswitch.status, if_neg (by omega)]
      · have hended : s₂.status = .terminated := by rw [hswitch.status, if_pos hreached]
        exact ⟨hended, fun later hlater => not_counted_of_terminated hs₂ hended hafter hlater⟩

/-- Two legacy tab switches, the second with a counter, among other entries. -/
def mixedViolations : List Json :=
  [.str "note",
    .dict [("violation_type", .str "tab_switch"), ("turn_number", .int 2),
      ("metadata", .dict [("event_id", .str "legacy-event")])],
    .dict [("violation_type", .str "copy_paste")],
    .dict [("violation_type", .str "tab_switch"),
      ("metadata", .dict [("tab_switch_count", .int 3)])]]

def mixedStore : Store where
  db := .single ⟨1, "Acme"⟩ ⟨2, "Ada"⟩ sampleAssessment sampleInterviewed
    (some { sampleSession with violations := mixedViolations })
  wellFormed := Database.single_wellFormed rfl rfl (by
    rintro s ⟨⟩
    rfl)

/-- Two tab switches, each reported twice, and a third one. -/
def tabSwitchCalls : List Call :=
  ([20, 20, 21, 21, 22] : List Uuid).map fun eventId =>
    ⟨⟨0, 0⟩, .recordTabSwitch 10 "first-connection" 4 eventId "2026-01-01T00:00:00+00:00"⟩

omit [Runtime] in
theorem tab_switches_counted_once_sample :
    @CountsExactlyOnce .ascii 10 mixedViolations mixedStore tabSwitchCalls :=
  @tab_switches_counted_once .ascii mixedStore tabSwitchCalls 10
    { sampleSession with violations := mixedViolations } rfl
    (by simp [TurnNumbered, mixedViolations, hasType, Json.field])
    (by simp [tabSwitchCalls, tabSwitchSession])

-- the list starts at three, so that the second counted switch ends the session
example : ((exec (@serve .ascii) mixedStore tabSwitchCalls).db.session? 10).map
    (fun s => (s.status, tabSwitchCount s.violations)) = some (.terminated, 5) := by decide

end Run

end IBotCoreApi
