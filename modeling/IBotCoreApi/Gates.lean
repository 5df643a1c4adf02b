import IBotCoreApi.AssessmentLifecycle
import IBotCoreApi.Invitation

namespace IBotCoreApi
open Python Runs InternalInterview CandidateSessionRepository InterviewSessionService Enrollment

section Invariant

variable {clock : Clock} {request : SessionRequest} {e e' : Enrollment}
  {issued : Option (String × Time)} {db db' : Database}

/-- A step keeps flag, token and expiry in agreement. -/
theorem Enrollment.Step.holds (h : e.Step clock request e')
    (hdraw : ∀ draws invitationToken, request = .enterWithInvitation draws invitationToken →
      draws.sessionToken ≠ "")
    (hold : e.Holds issued) : ∃ issued', e'.Holds issued' := by
  by_cases hentry : IsEntry e.candidate.invitationToken request
  · obtain ⟨draws, rfl⟩ := hentry
    cases h with
    | unchanged => exact ⟨issued, hold⟩
    | refused =>
      obtain ⟨htoken, hexpiry⟩ := sessionOr_credential e draws.sessionId clock
      exact ⟨issued, hold.of_same ⟨rfl, htoken, hexpiry⟩⟩
    | admitted _ _ _ expiresAt => exact ⟨_, issued_holds hold (hdraw draws _ rfl) expiresAt⟩
  · exact ⟨issued, hold.of_same (h.sameCredential hentry)⟩

def Credentialed (db : Database) : Prop :=
  ∀ id e, db.enrollment? id = some e → ∃ issued, e.Holds issued

def Enrollment.IsFresh (e : Enrollment) : Prop :=
  e.session = none ∧ e.candidate.inviteConsumed = false

theorem Enrollment.IsFresh.holds (h : e.IsFresh) : e.Holds none := by
  obtain ⟨hsession, hconsumed⟩ := h
  refine ⟨hconsumed, ?_, ?_, by simp⟩
  · rw [Enrollment.sessionToken, hsession]
    rfl
  · rw [Enrollment.sessionTokenExpiresAt, hsession]
    rfl

/-- Every enrollment after the step was there before with the same credential, or is fresh. -/
def CredentialKept (db db' : Database) : Prop :=
  ∀ id e', db'.enrollment? id = some e' →
    (∃ e, db.enrollment? id = some e ∧ SameCredential e e') ∨ e'.IsFresh

theorem CredentialKept.credentialed (h : CredentialKept db db') (hold : Credentialed db) :
    Credentialed db' := by
  intro id e' he'
  rcases h id e' he' with ⟨e, he, hsame⟩ | hfresh
  · obtain ⟨issued, hissued⟩ := hold id e he
    exact ⟨issued, hissued.of_same hsame⟩
  · exact ⟨none, hfresh.holds⟩

variable [Runtime]

theorem operate_credentialKept (h : db.WellFormed) {request : ServiceRequest}
    (hrequest : ∀ r, request ≠ .session r) :
    CredentialKept db (operate db ⟨clock, request⟩).2 := by
  intro id e' he'
  rcases operate_enrollmentsKept h hrequest id e' he' with ⟨e, he, hsame⟩ | hnew
  · refine .inl ⟨e, he, ?_, ?_, ?_⟩
    · rw [hsame.candidate]
    · rw [Enrollment.sessionToken, Enrollment.sessionToken, hsame.session]
    · rw [Enrollment.sessionTokenExpiresAt, Enrollment.sessionTokenExpiresAt, hsame.session]
  · exact .inr ⟨hnew.session, hnew.notConsumed.1⟩

def DrawsToken (call : ServiceCall) : Prop :=
  ∀ draws invitationToken, call.request = .session (.enterWithInvitation draws invitationToken) →
    draws.sessionToken ≠ ""

theorem service_credentialed (store : Store) (call : ServiceCall) (hdraw : DrawsToken call)
    (hold : Credentialed store.db) : Credentialed (service store call).2.db := by
  obtain ⟨clock, request⟩ := call
  by_cases hrequest : ∃ r, request = .session r
  · obtain ⟨r, rfl⟩ := hrequest
    intro id e' he'
    obtain ⟨e, he, hstep⟩ := handle_origin store.wellFormed ⟨clock, r⟩ he'
    obtain ⟨issued, hissued⟩ := hold id e he
    refine hstep.holds ?_ hissued
    rintro draws invitationToken rfl
    exact hdraw draws invitationToken rfl
  · exact (operate_credentialKept store.wellFormed fun r heq => hrequest ⟨r, heq⟩).credentialed hold

end Invariant

/-- A session that holds the token, unexpired, open and inside its window. -/
structure Accepts (db : Database) (now : Time) (token : String) (s : InterviewSession)
    (ca : CandidateAssessment) : Prop where
  session : s ∈ db.interviewSessions
  token : s.sessionToken = some token
  candidate : db.candidateAssessment? s.candidateAssessmentId = some ca
  unexpired : s.sessionTokenExpiresAt.all (· ≤ now) = false
  window : ∀ a, db.assessment? ca.assessmentId = some a →
    now < a.windowEnd ∨ ca.interviewStartedAt.isSome
  opened : isTerminal s.status ca.status = false

section Acceptance

variable {db : Database} {now : Time} {token : String} {s : InterviewSession}
  {ca : CandidateAssessment}

theorem windowExpired_eq_false {context : LifecycleContext} :
    windowExpired context now = false ↔
      now < context.windowEnd ∨ context.interviewStartedAt.isSome := by
  rw [windowExpired, Bool.and_eq_false_iff, decide_eq_false_iff_not, not_le]
  cases context.interviewStartedAt <;> simp

theorem CandidateSessionRepository.LifecycleContext.Shows.inWindow {context : LifecycleContext}
    (hshows : LifecycleContext.Shows db ca context) :
    windowExpired context now = false ↔ ∀ a, db.assessment? ca.assessmentId = some a →
      now < a.windowEnd ∨ ca.interviewStartedAt.isSome := by
  obtain ⟨a, ha, hwindow⟩ := hshows.windowEnd
  rw [windowExpired_eq_false, hwindow, hshows.interviewStartedAt]
  constructor
  · intro hopen a' ha'
    cases ha.symm.trans ha'
    exact hopen
  · intro hopen
    exact hopen a ha

theorem lockSessionContextByToken_of_mem (h : db.WellFormed) (hs : s ∈ db.interviewSessions)
    (htoken : s.sessionToken = some token)
    (hca : db.candidateAssessment? s.candidateAssessmentId = some ca) :
    ∃ lifecycle, LifecycleContext.Shows db ca lifecycle ∧
      lockSessionContextByToken db token = some (sessionContext lifecycle s) := by
  have hfind : Tables.lookup (·.sessionToken) (some token) db.interviewSessions = some s := by
    cases hfind : Tables.lookup (·.sessionToken) (some token) db.interviewSessions with
    | none => exact absurd htoken (Tables.key_ne_of_lookup_eq_none hfind hs)
    | some r =>
      have heq := h.eq_of_sessionToken (Tables.lookup_mem hfind) hs (Tables.lookup_key hfind) htoken
      rw [heq]
  have hmem := Tables.lookup_mem hca
  obtain ⟨candidate, hcandidate⟩ := Option.isSome_iff_exists.mp (h.candidates _ hmem)
  obtain ⟨assessment, hassessment⟩ := Option.isSome_iff_exists.mp (h.assessments _ hmem)
  obtain ⟨lifecycle, hlifecycle⟩ : ∃ lifecycle, lifecycleContext db ca = some lifecycle := by
    simp only [lifecycleContext, hcandidate, hassessment, Option.bind_eq_bind, Option.bind_some]
    exact ⟨_, rfl⟩
  refine ⟨lifecycle, lifecycleContext_shows hlifecycle, ?_⟩
  simp only [lockSessionContextByToken, hfind, hca, hlifecycle, Option.bind_eq_bind,
    Option.bind_some]
  rfl

/-- The token check lets a token pass exactly when a session accepts it. -/
theorem validateActiveToken_eq_none (h : db.WellFormed) :
    validateActiveToken (lockSessionContextByToken db token) now = none ↔
      ∃ s ca, Accepts db now token s ca := by
  constructor
  · intro hvalid
    obtain ⟨context, hcontext, hexpiry, hwindow, hopen⟩ := validateActiveToken_none hvalid
    obtain ⟨s, ca, lifecycle, hs, hca, hshows, rfl⟩ := lockSessionContextByToken_some hcontext
    have hstatus : lifecycle.candidateAssessmentStatus = ca.status := hshows.status
    exact ⟨s, ca, Tables.lookup_mem hs, Tables.lookup_key hs, hca, hexpiry,
      hshows.inWindow.mp hwindow, hstatus ▸ hopen⟩
  · rintro ⟨s, ca, haccepts⟩
    obtain ⟨lifecycle, hshows, hlock⟩ := lockSessionContextByToken_of_mem h haccepts.session
      haccepts.token haccepts.candidate
    have hwindow := hshows.inWindow.mpr haccepts.window
    have hopen := haccepts.opened
    rw [← hshows.status] at hopen
    rw [hlock]
    show (if s.sessionTokenExpiresAt.all (· ≤ now) then _ else if windowExpired lifecycle now then _
      else if isTerminal s.status lifecycle.candidateAssessmentStatus then _ else none) = none
    simp [haccepts.unexpired, hwindow, hopen]

theorem Accepts.updateSessions (h : Accepts db now token s ca) {p : InterviewSession → Bool}
    {u : SessionUpdate} (htoken : (u.set s).sessionToken = s.sessionToken)
    (hexpiry : (u.set s).sessionTokenExpiresAt = s.sessionTokenExpiresAt)
    (hopen : terminalSessionStatuses.contains s.status = false →
      terminalSessionStatuses.contains (u.set s).status = false) :
    Accepts (db.updateSessions p u) now token (u.onRow p s) ca := by
  have hmem : u.onRow p s ∈ (db.updateSessions p u).interviewSessions :=
    Tables.mem_updateWhere.mpr ⟨s, h.session, rfl⟩
  have hcandidate : (db.updateSessions p u).candidateAssessment?
      (u.onRow p s).candidateAssessmentId = some ca := by
    rw [onRow_candidateAssessmentId]
    exact h.candidate
  cases hp : p s with
  | false =>
    rw [Tables.Update.onRow_of_false hp] at hmem hcandidate ⊢
    exact ⟨hmem, h.token, hcandidate, h.unexpired, h.window, h.opened⟩
  | true =>
    rw [Tables.Update.onRow_of_true hp] at hmem hcandidate ⊢
    obtain ⟨hsession, hstatus⟩ := Bool.or_eq_false_iff.mp h.opened
    refine ⟨hmem, htoken.trans h.token, hcandidate, ?_, h.window, ?_⟩
    · rw [hexpiry]
      exact h.unexpired
    · exact Bool.or_eq_false_iff.mpr ⟨hopen hsession, hstatus⟩

theorem Accepts.updateCandidateAssessments (h : Accepts db now token s ca)
    {q : CandidateAssessment → Bool} {v : CandidateUpdate}
    (hstarted : (v.set ca).interviewStartedAt = ca.interviewStartedAt)
    (hopen : terminalCandidateStatuses.contains ca.status = false →
      terminalCandidateStatuses.contains (v.set ca).status = false) :
    Accepts (db.updateCandidateAssessments q v) now token s (v.onRow q ca) := by
  have hcandidate : (db.updateCandidateAssessments q v).candidateAssessment?
      s.candidateAssessmentId = some (v.onRow q ca) := by
    rw [Database.candidateAssessment?_updateCandidateAssessments, h.candidate, Option.map_some]
  cases hq : q ca with
  | false =>
    rw [Tables.Update.onRow_of_false hq] at hcandidate ⊢
    exact ⟨h.session, h.token, hcandidate, h.unexpired, h.window, h.opened⟩
  | true =>
    rw [Tables.Update.onRow_of_true hq] at hcandidate ⊢
    obtain ⟨hsession, hstatus⟩ := Bool.or_eq_false_iff.mp h.opened
    refine ⟨h.session, h.token, hcandidate, h.unexpired, ?_, ?_⟩
    · rw [candidate_set_assessmentId, hstarted]
      exact h.window
    · exact Bool.or_eq_false_iff.mpr ⟨hsession, hopen hstatus⟩

theorem Accepts.record (h : Accepts db now token s ca) {eventName : EventName}
    {correlationId : String} {candidateAssessmentId : Option Uuid} {metadata : Json.Entries} :
    Accepts (InterviewSessionService.record db eventName correlationId candidateAssessmentId
      metadata) now token s ca :=
  ⟨h.session, h.token, h.candidate, h.unexpired, h.window, h.opened⟩

theorem entryRejection_eq_none {context : InvitationContext} :
    entryRejection context s now = none ↔ windowExpired context.toLifecycleContext now = false ∧
      isTerminal s.status context.candidateAssessmentStatus = false ∧
      (context.inviteConsumed && s.sessionTokenExpiresAt.any (· ≤ now)) = false := by
  unfold entryRejection
  split_ifs with hwindow hterminal hexpired <;> simp_all

theorem issueCredentials_session {opened issuedDb : Database} {clock : Clock}
    {context : LifecycleContext} {drawn : String} {returned : Option String} {expiresAt : Time}
    (hissue : issueCredentials opened clock context s drawn =
      .ok (returned, some expiresAt, issuedDb)) :
    let s' := Enrollment.issued clock drawn (newExpiry context clock.utcNow) s
    s'.sessionToken = some (returned.getD "None") ∧ s'.sessionTokenExpiresAt = some expiresAt ∧
      s'.status = s.status ∧ (expiresAt = newExpiry context clock.utcNow ∨
        s.sessionToken.isSome ∧ s.sessionTokenExpiresAt = some expiresAt) := by
  unfold Enrollment.issued
  rcases issueCredentials_cases hissue with ⟨hempty, _, rfl, hexpires, _⟩ | ⟨hfull, rfl, hexpires, _⟩
  · rw [if_pos hempty]
    exact ⟨rfl, hexpires.symm, rfl, .inl (Option.some.inj hexpires)⟩
  · rw [if_neg hfull]
    cases htoken : s.sessionToken with
    | none => simp [htoken] at hfull
    | some _ => exact ⟨htoken, hexpires.symm, rfl, .inr ⟨rfl, hexpires.symm⟩⟩

theorem lt_newExpiry (context : LifecycleContext) (now : Time) : now < newExpiry context now := by
  have hduration : (0 : ℤ) < (max 1 context.interviewDurationMins + 60) * Time.minute := by
    apply mul_pos
    · have := le_max_left 1 context.interviewDurationMins
      omega
    · decide
  refine lt_of_lt_of_le ?_ (le_max_left _ _)
  exact lt_add_of_pos_right now hduration

end Acceptance

section Agreement

variable [Runtime] {db : Database} {clock : Clock} {token : String} {s : InterviewSession}
  {ca : CandidateAssessment} {draws : EntryDraws} {invitationToken : Uuid}

omit [Runtime] in
theorem invited_kept (clock : Clock) (ca : CandidateAssessment) :
    (invited clock ca).assessmentId = ca.assessmentId ∧
      (invited clock ca).interviewStartedAt = ca.interviewStartedAt ∧
      (invited clock ca).status = ca.status := by
  unfold invited
  split
  · exact ⟨rfl, rfl, rfl⟩
  · exact ⟨rfl, rfl, rfl⟩

theorem enterWithInvitation_accepts (h : db.WellFormed) (hcredentialed : Credentialed db)
    {response : CandidateSessionBootstrapResponse}
    (hrun : (enterWithInvitation db clock draws invitationToken).1 = .ok response) :
    ∃ s ca, Accepts (enterWithInvitation db clock draws invitationToken).2 clock.utcNow
      response.sessionToken s ca := by
  have hassessments : (enterWithInvitation db clock draws invitationToken).2.assessments =
      db.assessments := enterWithInvitation_assessments
  have houtcome := enterWithInvitation_outcome db clock draws invitationToken
  rw [hrun] at houtcome
  generalize (enterWithInvitation db clock draws invitationToken).2 = db' at houtcome hassessments ⊢
  cases houtcome with
  | @admitted context session opened issuedDb token expiresAt _ hlock hget hopen hissue htoken =>
    obtain ⟨row, hfound, hshows, hconsumed⟩ := lockInvitationContext_some hlock
    have hrow : db.candidateAssessment? context.candidateAssessmentId = some row := by
      rw [hshows.candidateAssessmentId]
      exact Tables.lookup_of_mem h.candidateAssessmentIds (Tables.lookup_mem hfound)
    have he : db.enrollment? context.candidateAssessmentId =
        some ⟨row, db.sessionOf? context.candidateAssessmentId⟩ :=
      enrollment?_eq_some.mpr ⟨hrow, rfl⟩
    obtain ⟨issued, hholds⟩ := hcredentialed _ _ he
    have hpost := enrollment?_admitted h he hconsumed hget hissue (some expiresAt)
    obtain ⟨hcandidate', hsession'⟩ := enrollment?_eq_some.mp hpost
    obtain ⟨rfl, _⟩ := enrollment?_getOrCreateSession he hget
    obtain ⟨hwindow, hterminal, hunexpired⟩ := entryRejection_eq_none.mp hopen
    obtain ⟨hreturned, hexpires, hkept, hexpiry⟩ := issueCredentials_session hissue
    have hkey := Database.candidateAssessmentId_of_sessionOf? hsession'
    refine ⟨_, _, Tables.lookup_mem hsession', htoken ▸ hreturned,
      (congrArg (Database.candidateAssessment? _) hkey).trans hcandidate', ?_, ?_, ?_⟩
    · rw [hexpires]
      have hlater : clock.utcNow < expiresAt := by
        rcases hexpiry with rfl | ⟨hsome, hstored⟩
        · exact lt_newExpiry _ _
        · rw [(sessionOr_credential _ _ _).1, hholds.token, Option.isSome_map] at hsome
          rw [hconsumed, hholds.consumed, hsome, hstored] at hunexpired
          simpa using hunexpired
      simpa using hlater
    · rw [Database.assessment?, hassessments]
      obtain ⟨hassessment, hstarted, _⟩ := invited_kept clock row
      rw [hassessment, hstarted]
      exact hshows.inWindow.mp hwindow
    · rw [hkept, (invited_kept clock row).2.2, ← hshows.status]
      exact hterminal

/-- The entry with the invitation of an accepted token returns the token, whatever it draws. -/
theorem enterWithInvitation_of_accepts (h : db.WellFormed) (hcredentialed : Credentialed db)
    (haccepts : Accepts db clock.utcNow token s ca) (draws : EntryDraws) :
    ∃ response, (enterWithInvitation db clock draws ca.invitationToken).1 = .ok response ∧
      response.sessionToken = token := by
  have hsessionOf := h.sessionOf?_of_mem haccepts.session
  have he : db.enrollment? s.candidateAssessmentId = some ⟨ca, some s⟩ :=
    enrollment?_eq_some.mpr ⟨haccepts.candidate, hsessionOf⟩
  obtain ⟨issued, hholds⟩ := hcredentialed _ _ he
  have hissued : issued.map Prod.fst = some token := hholds.token.symm.trans haccepts.token
  have hfull : token ≠ "" := by
    obtain ⟨c, rfl, rfl⟩ := Option.map_eq_some_iff.mp hissued
    exact hholds.nonempty c rfl
  obtain ⟨context, hlock, hid, hconsumed⟩ := lockInvitationContext_of_enrollment h he
  change lockInvitationContext db ca.invitationToken = some context at hlock
  have hget (session : InterviewSession) (opened : Database)
      (hget : db.getOrCreateSession clock draws.sessionId context.candidateAssessmentId =
        .ok (session, opened)) : session = s := by
    obtain ⟨rfl, _⟩ := enrollment?_getOrCreateSession (hid ▸ he) hget
    rfl
  -- what admits the token also admits the invitation, since both read the same rows
  have hopen : entryRejection context s clock.utcNow = none := by
    obtain ⟨row, hrow, hshows, _⟩ := lockInvitationContext_some hlock
    cases hrow.symm.trans
      (Tables.lookup_of_mem h.invitationTokens (Tables.lookup_mem haccepts.candidate))
    refine entryRejection_eq_none.mpr ⟨hshows.inWindow.mpr haccepts.window, ?_, ?_⟩
    · rw [hshows.status]
      exact haccepts.opened
    · have hunexpired := haccepts.unexpired
      cases hexpiry : s.sessionTokenExpiresAt with
      | none => simp [hexpiry] at hunexpired
      | some expiresAt => simpa [hexpiry] using fun _ => by simpa [hexpiry] using hunexpired
  have houtcome := enterWithInvitation_outcome db clock draws ca.invitationToken
  generalize (enterWithInvitation db clock draws ca.invitationToken).1 = result at houtcome ⊢
  generalize (enterWithInvitation db clock draws ca.invitationToken).2 = db' at houtcome
  cases houtcome with
  | unknown hnone => simp [hlock] at hnone
  | sessionIdTaken hlock' hnone =>
    cases hlock.symm.trans hlock'
    rw [hid, hsessionOf] at hnone
    cases hnone
  | @tokenTaken _ session opened hlock' hget' hempty =>
    cases hlock.symm.trans hlock'
    obtain rfl := hget session opened hget'
    rw [haccepts.token] at hempty
    exact absurd hempty hfull
  | @expiryMissing _ session opened hlock' hget' _ hmissing =>
    cases hlock.symm.trans hlock'
    obtain rfl := hget session opened hget'
    have hunexpired := haccepts.unexpired
    simp [hmissing] at hunexpired
  | @rejected _ session opened reason metadata hlock' hget' hreason =>
    cases hlock.symm.trans hlock'
    obtain rfl := hget session opened hget'
    rw [hopen] at hreason
    cases hreason
  | @admitted _ session opened issuedDb returned expiresAt response hlock' hget' _ hissue htoken =>
    cases hlock.symm.trans hlock'
    obtain rfl := hget session opened hget'
    refine ⟨response, rfl, ?_⟩
    -- the stored token is not empty, so no other one is issued
    rcases issueCredentials_cases hissue with ⟨hempty, _⟩ | ⟨_, hstored, _⟩
    · rw [haccepts.token] at hempty
      exact absurd hempty hfull
    · rw [htoken, hstored, haccepts.token]
      rfl

theorem getSessionContext_of_accepts (h : db.WellFormed)
    (haccepts : Accepts db clock.utcNow token s ca) :
    ∃ response, getSessionContext db clock token = .ok response ∧ response.sessionToken = token := by
  obtain ⟨lifecycle, hshows, hlock⟩ := lockSessionContextByToken_of_mem h haccepts.session
    haccepts.token haccepts.candidate
  have hvalid := (validateActiveToken_eq_none h).mpr ⟨s, ca, haccepts⟩
  have hunexpired := haccepts.unexpired
  cases hexpiry : s.sessionTokenExpiresAt with
  | none => simp [hexpiry] at hunexpired
  | some expiresAt =>
    rw [hlock] at hvalid
    simp only [getSessionContext, hlock, hvalid]
    simp only [bootstrapResponse, sessionContext, hexpiry, haccepts.token]
    exact ⟨_, rfl, rfl⟩

theorem accepts_of_getSessionContext (h : db.WellFormed)
    {response : CandidateSessionBootstrapResponse}
    (hrun : getSessionContext db clock token = .ok response) :
    ∃ s ca, Accepts db clock.utcNow token s ca := by
  rw [← validateActiveToken_eq_none h]
  unfold getSessionContext at hrun
  cases hvalid : validateActiveToken (lockSessionContextByToken db token) clock.utcNow with
  | none => rfl
  | some rejection =>
    simp only [hvalid] at hrun
    cases hrun

omit [Runtime] in
theorem accepts_of_authorize (h : db.WellFormed) {draw : Uuid}
    {response : CandidateConnectionContext}
    (hrun : (authorizeInterviewConnection db clock draw token).1 = .ok response) :
    (∃ s ca, Accepts db clock.utcNow token s ca) ∧ ∃ s ca,
      Accepts (authorizeInterviewConnection db clock draw token).2 clock.utcNow token s ca := by
  have houtcome := authorizeInterviewConnection_outcome h clock draw token
  rw [hrun] at houtcome
  generalize (authorizeInterviewConnection db clock draw token).2 = db' at houtcome ⊢
  cases houtcome with
  | @reconnected row _ _ m hs htoken hca hvalid hopen hstatus =>
    obtain ⟨s, ca, haccepts⟩ := (validateActiveToken_eq_none h).mp hvalid
    refine ⟨⟨s, ca, haccepts⟩, ?_⟩
    have hrestored := haccepts.updateSessions (p := isDisconnected row.id) (u := restored clock)
      rfl rfl fun _ => rfl
    have hcandidate := hrestored.updateCandidateAssessments
      (q := (·.id == row.candidateAssessmentId)) (v := candidateInProgress clock) rfl fun _ => rfl
    exact ⟨_, _, hcandidate.record.updateSessions rfl rfl fun hkept => hkept⟩
  | bound hs htoken hca hvalid hopen hstatus =>
    obtain ⟨s, ca, haccepts⟩ := (validateActiveToken_eq_none h).mp hvalid
    exact ⟨⟨s, ca, haccepts⟩, _, _, haccepts.updateSessions rfl rfl fun hkept => hkept⟩

/-- At a time, the entry with the invitation of a session that holds the token returns the token,
whatever it draws. -/
def EntryReturns (db : Database) (now : Time) (token : String) : Prop :=
  ∃ s ∈ db.interviewSessions, s.sessionToken = some token ∧
    ∃ ca, db.candidateAssessment? s.candidateAssessmentId = some ca ∧
      ∀ clock draws, clock.utcNow = now → ∃ response,
        (enterWithInvitation db clock draws ca.invitationToken).1 = .ok response ∧
          response.sessionToken = token

/-- The invitation gate and the token gate admit the same at a time. -/
structure GatesAgree (db : Database) (now : Time) : Prop where
  entered : ∀ clock draws invitationToken response, clock.utcNow = now →
    (enterWithInvitation db clock draws invitationToken).1 = .ok response →
    ∀ clock', clock'.utcNow = now → ∃ context,
      getSessionContext (enterWithInvitation db clock draws invitationToken).2 clock'
        response.sessionToken = .ok context ∧ context.sessionToken = response.sessionToken
  shown : ∀ clock token context, clock.utcNow = now →
    getSessionContext db clock token = .ok context → EntryReturns db now token
  authorized : ∀ clock draw token connection, clock.utcNow = now →
    (authorizeInterviewConnection db clock draw token).1 = .ok connection →
    EntryReturns db now token ∧
      EntryReturns (authorizeInterviewConnection db clock draw token).2 now token

theorem entryReturns_of_accepts (h : db.WellFormed) (hcredentialed : Credentialed db) {now : Time}
    (haccepts : ∃ s ca, Accepts db now token s ca) : EntryReturns db now token := by
  obtain ⟨s, ca, haccepts⟩ := haccepts
  refine ⟨s, haccepts.session, haccepts.token, ca, haccepts.candidate, ?_⟩
  rintro clock draws rfl
  exact enterWithInvitation_of_accepts h hcredentialed haccepts draws

theorem credentialed_gatesAgree (h : db.WellFormed) (hcredentialed : Credentialed db)
    (now : Time) : GatesAgree db now where
  entered := by
    rintro clock draws invitationToken response rfl hrun clock' hnow
    obtain ⟨s, ca, haccepts⟩ := enterWithInvitation_accepts h hcredentialed hrun
    rw [← hnow] at haccepts
    exact getSessionContext_of_accepts (enterWithInvitation_wellFormed h) haccepts
  shown := by
    rintro clock token context rfl hrun
    exact entryReturns_of_accepts h hcredentialed (accepts_of_getSessionContext h hrun)
  authorized := by
    rintro clock draw token connection rfl hrun
    obtain ⟨hbefore, hafter⟩ := accepts_of_authorize h hrun
    refine ⟨entryReturns_of_accepts h hcredentialed hbefore, ?_⟩
    refine entryReturns_of_accepts (authorizeInterviewConnection_wellFormed h draw token) ?_ hafter
    exact service_credentialed ⟨db, h⟩
      ⟨clock, .session (.authorizeInterviewConnection draw token)⟩ (by simp [DrawsToken])
      hcredentialed

/-- The invitation gate and the token gate agree after every run from fresh enrollments, at every
time. -/
theorem gates_agree (start : Store) (calls : List ServiceCall)
    (hfresh : ∀ id e, start.db.enrollment? id = some e → e.IsFresh)
    (htokens : ∀ call ∈ calls, DrawsToken call) (now : Time) :
    GatesAgree (exec service start calls).db now := by
  have hkeep (store : Store) (call : ServiceCall) (hdraw : DrawsToken call)
      (hcredentialed : Credentialed store.db) : Credentialed (service store call).2.db :=
    service_credentialed store call hdraw hcredentialed
  have hstart : Credentialed start.db := fun id e he => ⟨none, (hfresh id e he).holds⟩
  exact credentialed_gatesAgree (exec service start calls).wellFormed
    (exec_invariant hkeep htokens hstart) now

def connectedCalls : List ServiceCall :=
  [⟨⟨0, 0⟩, .session (.enterWithInvitation ⟨10, "session-token"⟩ 5)⟩,
    ⟨⟨1, 1⟩, .session (.authorizeInterviewConnection 11 "session-token")⟩]

omit [Runtime] in
theorem gates_agree_sample :
    @GatesAgree .ascii (exec (@service .ascii) sampleStore connectedCalls).db 2 := by
  let _ : Runtime := .ascii
  refine gates_agree sampleStore connectedCalls ?_ ?_ 2
  · intro id e he
    obtain ⟨hcandidate, hsession⟩ := enrollment?_eq_some.mp he
    obtain hmem := List.mem_singleton.mp (Tables.lookup_mem hcandidate)
    exact ⟨hsession.symm, by rw [hmem]; rfl⟩
  · simp [connectedCalls, DrawsToken]

end Agreement

end IBotCoreApi
