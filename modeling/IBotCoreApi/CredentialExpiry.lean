import IBotCoreApi.Gates
import Mathlib.Tactic.Ring

namespace IBotCoreApi
open Python Runs InternalInterview CandidateSessionRepository InterviewSessionService Enrollment

section Terms

/-- What the expiry of a credential depends on: the duration of the interview and the end of the
window. -/
def Assessment.terms (a : Assessment) : ℤ × Time := (a.interviewDurationMins, a.windowEnd)

def Assessment.credentialExpiry (a : Assessment) (now : Time) : Time :=
  max (now + (max 1 a.interviewDurationMins + 60) * Time.minute) (a.windowEnd + Time.hour)

/-- The time when an interview that starts at a time has used up its duration. -/
def Assessment.interviewEnd (a : Assessment) (start : Time) : Time :=
  start + a.interviewDurationMins * Time.minute

variable {a a' : Assessment} {db db' : Database} {call : ServiceCall}

theorem credentialExpiry_of_terms (h : a'.terms = a.terms) (now : Time) :
    a'.credentialExpiry now = a.credentialExpiry now := by
  obtain ⟨hduration, hwindow⟩ := Prod.mk.inj h
  rw [Assessment.credentialExpiry, Assessment.credentialExpiry, hduration, hwindow]

/-- The credential outlives the interview when the interview starts less than an hour after the
entry, or ends less than an hour after the window. -/
theorem interviewEnd_lt_credentialExpiry (hduration : 1 ≤ a.interviewDurationMins)
    (entry start : Time) : a.interviewEnd start < a.credentialExpiry entry ↔
      start < entry + Time.hour ∨ a.interviewEnd start < a.windowEnd + Time.hour := by
  have hsplit : entry + (a.interviewDurationMins + 60) * Time.minute =
      entry + Time.hour + a.interviewDurationMins * Time.minute := by
    unfold Time.hour
    ring
  rw [Assessment.credentialExpiry, lt_max_iff, max_eq_right hduration, hsplit,
    Assessment.interviewEnd, add_lt_add_iff_right]

theorem newExpiry_eq {ca : CandidateAssessment} {context : LifecycleContext}
    (hcontext : lifecycleContext db ca = some context)
    (ha : db.assessment? ca.assessmentId = some a) (now : Time) :
    newExpiry context now = a.credentialExpiry now := by
  simp only [lifecycleContext, Option.bind_eq_bind, Option.bind_eq_some_iff] at hcontext
  obtain ⟨candidate, _, assessment, hassessment, hcontext⟩ := hcontext
  cases hcontext
  cases ha.symm.trans hassessment
  rfl

theorem AssessmentWrite.terms (h : AssessmentWrite db call db') {id : Uuid}
    (ha : db.assessment? id = some a) :
    ∃ a', db'.assessment? id = some a' ∧ a'.terms = a.terms := by
  have hupdate (p : Assessment → Bool) (u : AssessmentUpdate)
      (hset : (u.set a).terms = a.terms) :
      ∃ a', (db.updateAssessments p u).assessment? id = some a' ∧ a'.terms = a.terms := by
    refine ⟨u.onRow p a, by simp [ha], ?_⟩
    unfold Tables.Update.onRow
    split
    · exact hset
    · rfl
  cases h with
  | unchanged hsame =>
    refine ⟨a, ?_, rfl⟩
    rw [Database.assessment?, hsame]
    exact ha
  | inserted assessment => exact ⟨a, Tables.lookup_append_of_some ha, rfl⟩
  | activated | closed | opened => exact hupdate _ _ rfl

/-- The durations that a request for an assessment admits. -/
def Database.DurationsAdmitted (db : Database) : Prop :=
  ∀ a ∈ db.assessments, 2 ≤ a.interviewDurationMins ∧ a.interviewDurationMins ≤ 180

theorem durationsAdmitted_update (h : db.DurationsAdmitted) {p : Assessment → Bool}
    {u : AssessmentUpdate} (hset : ∀ a, (u.set a).terms = a.terms) :
    (db.updateAssessments p u).DurationsAdmitted := by
  intro a ha
  obtain ⟨row, hrow, rfl⟩ := Tables.mem_updateWhere.mp ha
  have hsame : (u.onRow p row).interviewDurationMins = row.interviewDurationMins := by
    unfold Tables.Update.onRow
    split
    · exact (Prod.mk.inj (hset row)).1
    · rfl
  rw [hsame]
  exact h row hrow

theorem transact_durationsAdmitted {α : Type} {body : Except ApiException (α × Database)}
    (h : db.DurationsAdmitted)
    (hbody : ∀ result db', body = .ok (result, db') → db'.DurationsAdmitted) :
    (transact db body).2.DurationsAdmitted := by
  match body with
  | .ok (result, db') => exact hbody result db' rfl
  | .error _ => exact h

theorem service_durationsAdmitted [Runtime] (store : Store) (call : ServiceCall)
    (h : store.db.DurationsAdmitted) : (service store call).2.db.DurationsAdmitted := by
  obtain ⟨clock, request⟩ := call
  cases request with
  | session request =>
    show ∀ a ∈ (handle store.db ⟨clock, request⟩).2.assessments, _
    rw [handle_assessments store.wellFormed]
    exact h
  | createRecruiter newId companyName =>
    refine transact_durationsAdmitted h fun recruiter db' hrun => ?_
    unfold createRecruiter at hrun
    split_ifs at hrun
    cases hrun
    exact h
  | createCandidate newId fullName =>
    refine transact_durationsAdmitted h fun candidate db' hrun => ?_
    unfold createCandidate at hrun
    split_ifs at hrun
    cases hrun
    exact h
  | renameCandidate candidateId name => exact h
  | createAssessment newId recruiterId request jdFileBytes jdFilename =>
    refine transact_durationsAdmitted h fun assessment db' hrun => ?_
    unfold AssessmentService.createAssessment AssessmentRepository.createAssessment at hrun
    split_ifs at hrun
    cases hrun
    intro a ha
    rcases List.mem_append.mp ha with ha | ha
    · exact h a ha
    · rw [List.mem_singleton.mp ha]
      exact request.duration_bounds
  | activateAssessment assessmentId jdText jdAnalysis interviewPlan =>
    show (AssessmentRepository.activateAssessment store.db clock assessmentId jdText jdAnalysis
      interviewPlan).2.DurationsAdmitted
    unfold AssessmentRepository.activateAssessment
    split
    · exact h
    · exact durationsAdmitted_update h fun _ => rfl
  | updateStatus assessmentId recruiterId newStatus =>
    refine transact_durationsAdmitted h fun assessment db' hrun => ?_
    obtain ⟨_, _, _, rfl⟩ := updateStatus_cases hrun
    exact durationsAdmitted_update h fun _ => rfl
  | closeAssessmentOnFailure | closeExpiredAssessments =>
    exact durationsAdmitted_update h fun _ => rfl
  | enroll draws candidateId assessmentId resumeFilePath resumeParseStatus resumeParsed =>
    refine transact_durationsAdmitted h fun ca db' hrun => ?_
    unfold CandidateAssessmentRepository.create at hrun
    split_ifs at hrun
    cases hrun
    exact h
  | updateResumeParsingResult | updateRecruiterDecision => exact h
  | deleteCandidateFromAssessment candidateAssessmentId recruiterId =>
    refine transact_durationsAdmitted h fun _ db' hrun => ?_
    obtain ⟨_, _, _, _, _, _, rfl⟩ := deleteCandidateFromAssessment_cases hrun
    exact h

end Terms

/-- An admitted entry issues this credential: the session of the enrollment had none, and the
expiry is the one that the entry computes. -/
structure IssuedBy (t : Transition Store ServiceCall SessionResult) (id invitationToken : Uuid)
    (a : Assessment) (issued : String × Time) : Prop where
  entry : ∃ draws response,
    t.input.request = .session (.enterWithInvitation draws invitationToken) ∧
      t.output = .ok (.bootstrap response) ∧ credential response = issued
  first : ∀ s, t.pre.db.sessionOf? id = some s → s.sessionToken.getD "" = ""
  expiry : issued.2 = a.credentialExpiry t.input.clock.utcNow

theorem IssuedBy.of_terms {t : Transition Store ServiceCall SessionResult}
    {id invitationToken : Uuid} {a a' : Assessment} {issued : String × Time}
    (h : IssuedBy t id invitationToken a issued) (hterms : a'.terms = a.terms) :
    IssuedBy t id invitationToken a' issued := by
  refine ⟨h.entry, h.first, ?_⟩
  rw [credentialExpiry_of_terms hterms]
  exact h.expiry

/-- Every credential was issued by an entry of the history. -/
def CredentialsIssued (history : List (Transition Store ServiceCall SessionResult))
    (db : Database) : Prop :=
  ∀ id e a, db.enrollment? id = some e → db.assessment? e.candidate.assessmentId = some a →
    ∀ token expiresAt, e.sessionToken = some token → e.sessionTokenExpiresAt = some expiresAt →
      ∃ t ∈ history, IssuedBy t id e.candidate.invitationToken a (token, expiresAt)

section Steps

variable {clock : Clock} {request : SessionRequest} {e e' : Enrollment} {id : Uuid}

theorem Enrollment.Step.assessmentId (h : e.Step clock request e') :
    e'.candidate.assessmentId = e.candidate.assessmentId := by
  cases h with
  | admitted =>
    unfold invited
    split <;> simp
  | disconnected =>
    unfold dropped
    split <;> simp
  | tabSwitched | proctored =>
    unfold violated
    split <;> simp
  | reconnected | timedOut | initialized | timerStarted | candidateStarted | candidateCompleted
  | evaluated => simp
  | _ => rfl

variable [Runtime] {store : Store} {history : List (Transition Store ServiceCall SessionResult)}

omit [Runtime] in
theorem CredentialsIssued.kept (h : CredentialsIssued history store.db)
    (he : store.db.enrollment? id = some e) {a : Assessment}
    (ha : store.db.assessment? e.candidate.assessmentId = some a)
    (hinvitation : e'.candidate.invitationToken = e.candidate.invitationToken) {a' : Assessment}
    (hterms : a'.terms = a.terms) (htoken : e'.sessionToken = e.sessionToken)
    (hexpiry : e'.sessionTokenExpiresAt = e.sessionTokenExpiresAt) (last) :
    ∀ token expiresAt, e'.sessionToken = some token → e'.sessionTokenExpiresAt = some expiresAt →
      ∃ t ∈ history ++ [last], IssuedBy t id e'.candidate.invitationToken a' (token, expiresAt) := by
  intro token expiresAt htoken' hexpiry'
  rw [htoken] at htoken'
  rw [hexpiry] at hexpiry'
  obtain ⟨t, ht, hissued⟩ := h id e a he ha token expiresAt htoken' hexpiry'
  rw [hinvitation]
  exact ⟨t, List.mem_append_left _ ht, hissued.of_terms hterms⟩

omit [Runtime] in
theorem newExpiry_lock {context : InvitationContext} (he : store.db.enrollment? id = some e)
    (hlock : lockInvitationContext store.db e.candidate.invitationToken = some context)
    {a : Assessment} (ha : store.db.assessment? e.candidate.assessmentId = some a) (now : Time) :
    newExpiry context.toLifecycleContext now = a.credentialExpiry now := by
  have hca : Tables.lookup (·.invitationToken) e.candidate.invitationToken
      store.db.candidateAssessments = some e.candidate :=
    Tables.lookup_of_mem store.wellFormed.invitationTokens
      (Tables.lookup_mem (enrollment?_eq_some.mp he).1)
  simp only [lockInvitationContext, hca, Option.bind_eq_bind, Option.bind_some,
    Option.bind_eq_some_iff] at hlock
  obtain ⟨lifecycle, hlifecycle, hcontext⟩ := hlock
  cases hcontext
  exact newExpiry_eq hlifecycle ha now

/-- After an entry with the invitation of an enrollment its credential is the old one or was issued
by the entry. -/
theorem service_entry_issued (clock : Clock) (draws : EntryDraws)
    (he : store.db.enrollment? id = some e) {a : Assessment}
    (ha : store.db.assessment? e.candidate.assessmentId = some a) :
    let t := Transition.of service store
      ⟨clock, .session (.enterWithInvitation draws e.candidate.invitationToken)⟩
    t.post.db.enrollment? id = some e' →
    (e'.sessionToken = e.sessionToken ∧ e'.sessionTokenExpiresAt = e.sessionTokenExpiresAt) ∨
      ∀ token expiresAt, e'.sessionToken = some token → e'.sessionTokenExpiresAt = some expiresAt →
        IssuedBy t id e.candidate.invitationToken a (token, expiresAt) := by
  intro t he'
  have houtcome := enterWithInvitation_outcome store.db clock draws e.candidate.invitationToken
  obtain ⟨context, hlock, rfl, hconsumed⟩ := lockInvitationContext_of_enrollment store.wellFormed he
  have hpost : t.post.db =
    (enterWithInvitation store.db clock draws e.candidate.invitationToken).2 := rfl
  have houtput : t.output = (enterWithInvitation store.db clock draws
    e.candidate.invitationToken).1.map .bootstrap := rfl
  have hrequest : t.input.request =
    .session (.enterWithInvitation draws e.candidate.invitationToken) := rfl
  have hnow : t.input.clock.utcNow = clock.utcNow := rfl
  have hpre : t.pre.db = store.db := rfl
  -- the result and the tables become variables, so that the outcome's cases can fix them
  generalize (enterWithInvitation store.db clock draws e.candidate.invitationToken).1 = result
    at houtcome houtput
  generalize (enterWithInvitation store.db clock draws e.candidate.invitationToken).2 = db'
    at houtcome hpost
  clear_value t
  obtain ⟨htoken, hexpiry⟩ := sessionOr_credential e draws.sessionId clock
  cases houtcome with
  | unknown hnone => simp [hlock] at hnone
  | sessionIdTaken | tokenTaken | expiryMissing =>
    rw [hpost] at he'
    cases he.symm.trans he'
    exact .inl ⟨rfl, rfl⟩
  | rejected metadata hlock' hget hreason =>
    cases hlock.symm.trans hlock'
    rw [hpost, enrollment?_rejected he hget metadata] at he'
    cases he'
    exact .inl ⟨htoken, hexpiry⟩
  | @admitted _ session opened issuedDb token expiresAt response hlock' hget hopen hissue hreturned
      hexpires hreissued =>
    cases hlock.symm.trans hlock'
    rw [hpost, enrollment?_admitted store.wellFormed he hconsumed hget hissue (some expiresAt)] at he'
    cases he'
    obtain ⟨rfl, _⟩ := enrollment?_getOrCreateSession he hget
    have hnew := newExpiry_lock he hlock ha clock.utcNow
    -- a session without a token gets the drawn one, any other keeps its own
    rcases issueCredentials_cases hissue with ⟨hempty, _, rfl, hissued, _⟩ | ⟨hfull, _, _, _⟩
    · right
      intro token' expiresAt' htoken' hexpiry'
      have hfresh : Enrollment.issued clock draws.sessionToken
          (newExpiry context.toLifecycleContext clock.utcNow) (e.sessionOr draws.sessionId clock) =
            (credentials clock draws.sessionToken
              (newExpiry context.toLifecycleContext clock.utcNow)).set
                (e.sessionOr draws.sessionId clock) := if_pos hempty
      rw [hfresh] at htoken' hexpiry'
      obtain rfl : draws.sessionToken = token' := Option.some.inj htoken'
      obtain rfl : newExpiry context.toLifecycleContext clock.utcNow = expiresAt' :=
        Option.some.inj hexpiry'
      refine ⟨⟨draws, response, hrequest, houtput, ?_⟩, ?_, ?_⟩
      · rw [credential, hreturned, hexpires, Option.some.inj hissued]
        rfl
      · intro s hs
        rw [hpre, (enrollment?_eq_some.mp he).2] at hs
        rw [sessionOr, hs] at hempty
        exact hempty
      · rw [hnow]
        exact hnew
    · left
      have hkept : Enrollment.issued clock draws.sessionToken
          (newExpiry context.toLifecycleContext clock.utcNow) (e.sessionOr draws.sessionId clock) =
            e.sessionOr draws.sessionId clock := if_neg hfull
      rw [hkept]
      exact ⟨htoken, hexpiry⟩

theorem service_credentialsIssued (call : ServiceCall) (h : CredentialsIssued history store.db) :
    CredentialsIssued (history ++ [.of service store call]) (service store call).2.db := by
  obtain ⟨clock, request⟩ := call
  intro id e' a' he' ha'
  by_cases hrequest : ∃ r, request = .session r
  · obtain ⟨request, rfl⟩ := hrequest
    obtain ⟨e, he, hstep⟩ := handle_origin store.wellFormed ⟨clock, request⟩ he'
    have ha : store.db.assessment? e.candidate.assessmentId = some a' := by
      rw [hstep.assessmentId] at ha'
      have hsame := handle_assessments store.wellFormed ⟨clock, request⟩
      rw [Database.assessment?, ← hsame]
      exact ha'
    by_cases hentry : IsEntry e.candidate.invitationToken request
    · obtain ⟨draws, rfl⟩ := hentry
      rcases service_entry_issued clock draws he ha he' with ⟨htoken, hexpiry⟩ | hissued
      · exact h.kept he ha hstep.invitationToken rfl htoken hexpiry _
      · intro token expiresAt htoken hexpiry
        rw [hstep.invitationToken]
        exact ⟨_, List.mem_append_right _ (List.mem_singleton_self _),
          hissued token expiresAt htoken hexpiry⟩
    · have hsame := hstep.sameCredential hentry
      exact h.kept he ha hstep.invitationToken rfl hsame.token hsame.expiry _
  · rcases operate_enrollmentsKept store.wellFormed (fun r heq => hrequest ⟨r, heq⟩) id e' he' with
      ⟨e, he, hsame⟩ | hnew
    · have hkeys : e'.candidate.invitationToken = e.candidate.invitationToken ∧
          e'.candidate.assessmentId = e.candidate.assessmentId := by
        rw [hsame.candidate]
        exact ⟨rfl, rfl⟩
      obtain ⟨a, ha⟩ := Option.isSome_iff_exists.mp
        (store.wellFormed.assessments _ (Tables.lookup_mem (enrollment?_eq_some.mp he).1))
      obtain ⟨a'', ha'', hterms⟩ := (service_assessmentWrite store ⟨clock, request⟩).terms ha
      rw [← hkeys.2, ha'] at ha''
      cases ha''
      refine h.kept he ha hkeys.1 hterms ?_ ?_ _
      · rw [sessionToken, sessionToken, hsame.session]
      · rw [sessionTokenExpiresAt, sessionTokenExpiresAt, hsame.session]
    · intro token expiresAt htoken
      rw [sessionToken, hnew.session] at htoken
      cases htoken

end Steps

section Runs

variable [Runtime] {db : Database}

/-- Along a run the durations are admitted and the credentials were issued by entries. -/
structure Credentials (history : List (Transition Store ServiceCall SessionResult))
    (store : Store) : Prop where
  durations : store.db.DurationsAdmitted
  issued : CredentialsIssued history store.db

theorem credentials_run (calls : List ServiceCall) :
    Credentials (trace service emptyStore calls) (exec service emptyStore calls) := by
  have hkeep (history : List (Transition Store ServiceCall SessionResult)) (store : Store)
      (call : ServiceCall) (_ : True) (h : Credentials history store) :
      Credentials (history ++ [.of service store call]) (service store call).2 :=
    ⟨service_durationsAdmitted store call h.durations, service_credentialsIssued call h.issued⟩
  refine history_invariant hkeep (fun _ _ => trivial) ⟨?_, ?_⟩
  · intro a ha
    cases ha
  · intro id e a he
    cases he

omit [Runtime] in
theorem authorize_shows {clock : Clock} {draw : Uuid} {token : String}
    {connection : CandidateConnectionContext}
    (hrun : (authorizeInterviewConnection db clock draw token).1 = .ok connection) :
    ∃ s ca, Accepts db clock.utcNow token s ca ∧ connection.candidateAssessmentId = ca.id ∧
      connection.interviewStarted = ca.interviewStartedAt.isSome ∧
      s.sessionTokenExpiresAt = some connection.sessionTokenExpiresAt := by
  have hbound (db : Database) (context : SessionContext) {connection : CandidateConnectionContext}
      (hbind : (bindConnection db clock draw context).1 = (none, some connection)) :
      connection.candidateAssessmentId = context.candidateAssessmentId ∧
        connection.interviewStarted = context.interviewStartedAt.isSome ∧
        connection.sessionTokenExpiresAt = context.sessionTokenExpiresAt.getD clock.utcNow := by
    cases hbind
    exact ⟨rfl, rfl, rfl⟩
  unfold authorizeInterviewConnection authorizeTransaction at hrun
  cases hvalid : validateActiveToken (lockSessionContextByToken db token) clock.utcNow with
  | some reason =>
    simp only [hvalid] at hrun
    cases hrun
  | none =>
    obtain ⟨context, hcontext, hexpiry, hwindow, hopen⟩ := validateActiveToken_none hvalid
    obtain ⟨s, ca, lifecycle, hs, hca, hshows, rfl⟩ := lockSessionContextByToken_some hcontext
    have haccepts : Accepts db clock.utcNow token s ca := by
      refine ⟨Tables.lookup_mem hs, Tables.lookup_key hs, hca, hexpiry, ?_, ?_⟩
      · exact hshows.inWindow.mp hwindow
      · rw [← hshows.status]
        exact hopen
    refine ⟨s, ca, haccepts, ?_⟩
    rw [hcontext] at hvalid
    simp only [hcontext, hvalid] at hrun
    -- with or without a reconnection, the connection is bound from the context of the one row
    have hbind : ∃ db', (bindConnection db' clock draw (sessionContext lifecycle s)).1 =
        (none, some connection) := by
      split_ifs at hrun
      · cases hresolve : resolveDisconnected db clock (sessionContext lifecycle s) with
        | error error =>
          simp only [hresolve] at hrun
          cases hrun
        | ok resolved =>
          obtain ⟨rejection, db'⟩ := resolved
          cases rejection with
          | some reason =>
            simp only [hresolve] at hrun
            cases hrun
          | none =>
            simp only [hresolve] at hrun
            cases hrun
            exact ⟨db', rfl⟩
      · cases hrun
        exact ⟨db, rfl⟩
    obtain ⟨db', hbind⟩ := hbind
    obtain ⟨hid, hstarted, hexpires⟩ := hbound db' _ hbind
    refine ⟨hid.trans hshows.candidateAssessmentId, ?_, ?_⟩
    · rw [hstarted, ← hshows.interviewStartedAt]
      rfl
    · cases hstored : s.sessionTokenExpiresAt with
      | none => simp [sessionContext, hstored] at hexpiry
      | some expiresAt =>
        rw [hexpires, sessionContext, hstored]
        rfl

/-- A token that is accepted before the interview has started expires after the interview, if that
starts now. -/
def CredentialOutlives (db : Database) (clock : Clock) (draw : Uuid) (token : String) : Prop :=
  ∀ connection e a, (authorizeInterviewConnection db clock draw token).1 = .ok connection →
    connection.interviewStarted = false →
    db.enrollment? connection.candidateAssessmentId = some e →
    db.assessment? e.candidate.assessmentId = some a →
    a.interviewEnd clock.utcNow < connection.sessionTokenExpiresAt

/-- What a connection shows after a run, and the entry that issued its token. -/
theorem exists_issuedBy (calls : List ServiceCall) {clock : Clock} {draw : Uuid} {token : String}
    {connection : CandidateConnectionContext}
    (hrun : (authorizeInterviewConnection (exec service emptyStore calls).db clock draw token).1 =
      .ok connection) (hwaiting : connection.interviewStarted = false) :
    ∃ e a, (exec service emptyStore calls).db.enrollment? connection.candidateAssessmentId = some e ∧
      (exec service emptyStore calls).db.assessment? e.candidate.assessmentId = some a ∧
      (2 ≤ a.interviewDurationMins ∧ a.interviewDurationMins ≤ 180) ∧ clock.utcNow < a.windowEnd ∧
      ∃ t ∈ trace service emptyStore calls, IssuedBy t connection.candidateAssessmentId
        e.candidate.invitationToken a (token, connection.sessionTokenExpiresAt) := by
  have hwellFormed := (exec service emptyStore calls).wellFormed
  obtain ⟨hdurations, hissued⟩ := credentials_run calls
  obtain ⟨s, ca, haccepts, hid, hstarted, hexpiry⟩ := authorize_shows hrun
  obtain ⟨a, ha⟩ := Option.isSome_iff_exists.mp
    (hwellFormed.assessments _ (Tables.lookup_mem haccepts.candidate))
  have hkey : s.candidateAssessmentId = connection.candidateAssessmentId :=
    (Database.id_of_candidateAssessment? haccepts.candidate).symm.trans hid.symm
  have he : (exec service emptyStore calls).db.enrollment? connection.candidateAssessmentId =
      some ⟨ca, some s⟩ := by
    rw [← hkey]
    exact enrollment?_eq_some.mpr
      ⟨haccepts.candidate, hwellFormed.sessionOf?_of_mem haccepts.session⟩
  have hwindow : clock.utcNow < a.windowEnd := by
    rw [hstarted] at hwaiting
    rcases haccepts.window a ha with hwindow | hsome
    · exact hwindow
    · rw [hwaiting] at hsome
      cases hsome
  exact ⟨_, a, he, ha, hdurations a (Tables.lookup_mem ha), hwindow,
    hissued _ _ a he ha token _ haccepts.token hexpiry⟩

/-- In every run, a token accepted before the interview has started was issued by an entry, and
outlives an interview that starts now exactly when it starts less than an hour after that entry, or
ends less than an hour after the window. -/
theorem credential_outlives_iff (calls : List ServiceCall) (clock : Clock) (draw : Uuid)
    (token : String) (connection : CandidateConnectionContext)
    (hrun : (authorizeInterviewConnection (exec service emptyStore calls).db clock draw token).1 =
      .ok connection) (hwaiting : connection.interviewStarted = false) :
    ∃ e a, (exec service emptyStore calls).db.enrollment? connection.candidateAssessmentId = some e ∧
      (exec service emptyStore calls).db.assessment? e.candidate.assessmentId = some a ∧
      (2 ≤ a.interviewDurationMins ∧ a.interviewDurationMins ≤ 180) ∧ clock.utcNow < a.windowEnd ∧
      ∃ t ∈ trace service emptyStore calls, IssuedBy t connection.candidateAssessmentId
          e.candidate.invitationToken a (token, connection.sessionTokenExpiresAt) ∧
        (a.interviewEnd clock.utcNow < connection.sessionTokenExpiresAt ↔
          clock.utcNow < t.input.clock.utcNow + Time.hour ∨
            a.interviewEnd clock.utcNow < a.windowEnd + Time.hour) := by
  obtain ⟨e, a, he, ha, hduration, hwindow, t, ht, hissued⟩ := exists_issuedBy calls hrun hwaiting
  refine ⟨e, a, he, ha, hduration, hwindow, t, ht, hissued, ?_⟩
  rw [show connection.sessionTokenExpiresAt = _ from hissued.expiry]
  exact interviewEnd_lt_credentialExpiry (by omega) _ _

/-- A three-hour interview, to be started within ten hours. -/
def longRequest : AssessmentCreateRequest :=
  { sampleRequest with
    interviewDurationMins := 180
    windowEnd := 10 * Time.hour
    duration_bounds := by decide
    window_order := by decide }

def enteredEarly : List ServiceCall :=
  ([.createRecruiter 1 "Acme", .createCandidate 2 "Ada", .createAssessment 3 1 longRequest [] none,
    .enroll ⟨4, 5⟩ 2 3 "resume.pdf" "PENDING" none,
    .session (.enterWithInvitation ⟨10, "session-token"⟩ 5)] : List ServiceRequest).map
      fun request => ⟨⟨0, 0⟩, request⟩

def hoursLater (hours : ℤ) : Clock := ⟨hours * Time.hour, hours * Time.hour⟩

def enteredStore : Store := exec (@service .ascii) emptyStore enteredEarly

def Waits (hours : ℤ) (connection : CandidateConnectionContext) : Prop :=
  (authorizeInterviewConnection enteredStore.db (hoursLater hours) 11 "session-token").1 =
    .ok connection ∧ connection.interviewStarted = false ∧
    connection.candidateAssessmentId = 4 ∧ connection.sessionTokenExpiresAt = 11 * Time.hour

omit [Runtime] in
theorem waits_of_decide (hours : ℤ)
    (h : (authorizeInterviewConnection enteredStore.db (hoursLater hours) 11
      "session-token").1.toOption.any fun connection => connection.interviewStarted == false &&
        connection.candidateAssessmentId == 4 &&
        connection.sessionTokenExpiresAt == 11 * Time.hour) :
    ∃ connection, Waits hours connection := by
  generalize hrun : (authorizeInterviewConnection enteredStore.db (hoursLater hours) 11
    "session-token").1 = result at h
  cases result with
  | error error => cases h
  | ok connection =>
    simp only [Except.toOption, Option.any_some, Bool.and_eq_true, beq_iff_eq] at h
    exact ⟨connection, hrun, h.1.1, h.1.2, h.2⟩

omit [Runtime] in
/-- A start at once is covered. -/
theorem credential_outlives_sample : ∃ connection e a, Waits 0 connection ∧
    enteredStore.db.enrollment? 4 = some e ∧
    enteredStore.db.assessment? e.candidate.assessmentId = some a ∧
    a.interviewEnd 0 < connection.sessionTokenExpiresAt := by
  let _ : Runtime := .ascii
  obtain ⟨connection, hwaits⟩ := waits_of_decide 0 (by decide +kernel)
  obtain ⟨hrun, hnotStarted, hid, _⟩ := hwaits
  obtain ⟨e, a, he, ha, _, _, t, ht, _, hiff⟩ :=
    credential_outlives_iff enteredEarly (hoursLater 0) 11 "session-token" connection hrun hnotStarted
  have hentry : t.input.clock.utcNow = 0 := by
    obtain ⟨before, call, after, hcalls, rfl⟩ := mem_trace ht
    have hcall : call ∈ enteredEarly := by simp [hcalls]
    obtain ⟨request, _, rfl⟩ := List.mem_map.mp hcall
    rfl
  rw [hid] at he
  refine ⟨connection, e, a, ⟨hrun, hnotStarted, hid, ‹_›⟩, he, ha, ?_⟩
  exact hiff.mpr (.inl (by rw [hentry]; decide))

omit [Runtime] in
/-- An interview that starts an hour before the window ends lasts an hour longer than its
credential. -/
theorem credential_expires_early :
    ¬ ∀ calls clock draw token,
      CredentialOutlives (exec (@service .ascii) emptyStore calls).db clock draw token := by
  intro hall
  let _ : Runtime := .ascii
  obtain ⟨connection, hrun, hnotStarted, hid, hexpiry⟩ :=
    waits_of_decide 9 (by decide +kernel)
  obtain ⟨e, a, he, ha, _⟩ := exists_issuedBy enteredEarly hrun hnotStarted
  have hlate := hall enteredEarly (hoursLater 9) 11 "session-token" connection e a hrun hnotStarted
    he ha
  have hlong : ((enteredStore.db.enrollment? 4).bind fun e =>
      enteredStore.db.assessment? e.candidate.assessmentId).all
        (·.interviewDurationMins == 180) := by decide +kernel
  rw [hid] at he
  rw [show enteredStore.db.enrollment? 4 = some e from he, Option.bind_some,
    show enteredStore.db.assessment? e.candidate.assessmentId = some a from ha, Option.all_some,
    beq_iff_eq] at hlong
  rw [Assessment.interviewEnd, hlong, hexpiry] at hlate
  revert hlate
  decide

end Runs

end IBotCoreApi
