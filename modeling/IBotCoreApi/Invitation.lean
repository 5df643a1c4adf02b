import IBotCoreApi.Refinement

namespace IBotCoreApi
open Python Runs Outcomes InternalInterview CandidateSessionRepository InterviewSessionService

def IsEntry (invitationToken : Uuid) (request : SessionRequest) : Prop :=
  ∃ draws, request = .enterWithInvitation draws invitationToken

def admission (invitationToken : Uuid) (t : Transition Store Call SessionResult) :
    Option CandidateSessionBootstrapResponse :=
  match t.input.request, t.output with
  | .enterWithInvitation _ token, .ok (.bootstrap response) =>
    if token = invitationToken then some response else none
  | _, _ => none

def admissions (invitationToken : Uuid) (history : List (Transition Store Call SessionResult)) :
    List CandidateSessionBootstrapResponse :=
  history.filterMap (admission invitationToken)

def credential (response : CandidateSessionBootstrapResponse) : String × Time :=
  (response.sessionToken, response.sessionTokenExpiresAt)

def entryEvent : SessionResult → EventName
  | .ok (.bootstrap response) =>
    if response.inviteReissued then .sessionTokenReissued else .inviteLinkConsumed
  | _ => .inviteLinkRejected

def DrawTaken (db : Database) (draws : EntryDraws) : Prop :=
  (db.session? draws.sessionId).isSome ∨
    ∃ s ∈ db.interviewSessions, s.sessionToken = some draws.sessionToken

def LogsOne (db db' : Database) (eventName : EventName) : Prop :=
  ∃ event : EventLog, db'.eventLogs = db.eventLogs ++ [event] ∧ event.eventName = eventName

theorem logsOne_record {db db' : Database} (h : db'.eventLogs = db.eventLogs)
    (eventName : EventName) (correlationId : String) (candidateAssessmentId : Option Uuid)
    (metadata : Json.Entries) :
    LogsOne db (record db' eventName correlationId candidateAssessmentId metadata) eventName := by
  rw [LogsOne, ← h]
  exact ⟨_, rfl, rfl⟩

namespace Enrollment

def sessionToken (e : Enrollment) : Option String := e.session.bind (·.sessionToken)

def sessionTokenExpiresAt (e : Enrollment) : Option Time := e.session.bind (·.sessionTokenExpiresAt)

structure Holds (e : Enrollment) (issued : Option (String × Time)) : Prop where
  consumed : e.candidate.inviteConsumed = issued.isSome
  token : e.sessionToken = issued.map Prod.fst
  expiry : e.sessionTokenExpiresAt = issued.map Prod.snd
  nonempty : ∀ c, issued = some c → c.1 ≠ ""

structure SameCredential (e e' : Enrollment) : Prop where
  consumed : e'.candidate.inviteConsumed = e.candidate.inviteConsumed
  token : e'.sessionToken = e.sessionToken
  expiry : e'.sessionTokenExpiresAt = e.sessionTokenExpiresAt

theorem Holds.of_same {e e' : Enrollment} {issued : Option (String × Time)} (h : e.Holds issued)
    (hsame : SameCredential e e') : e'.Holds issued where
  consumed := hsame.consumed.trans h.consumed
  token := hsame.token.trans h.token
  expiry := hsame.expiry.trans h.expiry
  nonempty := h.nonempty

variable {clock : Clock} {request : SessionRequest} {e e' : Enrollment}

theorem sessionOr_credential (e : Enrollment) (newId : Uuid) (clock : Clock) :
    (e.sessionOr newId clock).sessionToken = e.sessionToken ∧
      (e.sessionOr newId clock).sessionTokenExpiresAt = e.sessionTokenExpiresAt := by
  unfold sessionOr sessionToken sessionTokenExpiresAt
  cases e.session <;> exact ⟨rfl, rfl⟩

theorem Step.invitationToken (h : e.Step clock request e') :
    e'.candidate.invitationToken = e.candidate.invitationToken := by
  cases h with
  | admitted =>
    unfold invited
    split <;> simp
  | disconnected =>
    unfold dropped
    split <;> simp
  | tabSwitched | proctored =>
    unfold violated
    split <;> simp
  | reconnected | timedOut | initialized | timerStarted | candidateStarted | candidateCompleted
  | evaluated => simp
  | _ => rfl

theorem bind_map_onRow {β : Type} {column : InterviewSession → Option β} {u : SessionUpdate}
    {p : InterviewSession → Bool} {o : Option InterviewSession}
    (h : ∀ s, column (u.set s) = column s) : (o.map (u.onRow p)).bind column = o.bind column := by
  cases o with
  | none => rfl
  | some s => exact Tables.Update.onRow_column h s

theorem Step.sameCredential (h : e.Step clock request e')
    (hother : ¬ IsEntry e.candidate.invitationToken request) : SameCredential e e' := by
  cases h with
  | refused _ hinvitation | admitted _ hinvitation =>
    exact absurd ⟨_, by rw [hinvitation]⟩ hother
  | disconnected =>
    unfold dropped
    split <;> exact ⟨rfl, rfl, rfl⟩
  | @initialized newId =>
    obtain ⟨htoken, hexpiry⟩ := sessionOr_credential e newId clock
    exact ⟨rfl, htoken, hexpiry⟩
  | turnPersisted hturn =>
    rw [hturn.rest]
    exact ⟨rfl, rfl, rfl⟩
  | tabSwitched | proctored =>
    unfold violated
    split <;> exact ⟨rfl, rfl, rfl⟩
  | evaluated =>
    refine ⟨?_, bind_map_onRow fun _ => rfl, bind_map_onRow fun _ => rfl⟩
    have hcolumn (ca : CandidateAssessment) : ((EvaluationRepository.candidateEvaluated
      clock).set ca).inviteConsumed = ca.inviteConsumed := rfl
    exact Tables.Update.onRow_column hcolumn e.candidate
  | _ => exact ⟨rfl, rfl, rfl⟩

theorem invited_consumed (clock : Clock) (ca : CandidateAssessment) :
    (invited clock ca).inviteConsumed = true := by
  unfold invited
  split
  · assumption
  · rfl

end Enrollment

open Enrollment

variable [Runtime] {store : Store} {id : Uuid} {e : Enrollment} {issued : Option (String × Time)}
  {clock : Clock} {draws : EntryDraws}

/-- Everything an entry with the invitation of a consistent enrollment can do. -/
inductive EntryResult (store : Store) (clock : Clock) (id : Uuid) (e : Enrollment)
    (issued : Option (String × Time)) (draws : EntryDraws) : SessionResult → Store → Prop
  | collision {post : Store} (htaken : DrawTaken store.db draws) (hpost : post.db = store.db) :
      EntryResult store clock id e issued draws (.error .integrityError) post
  | rejected {reason : ApiException} {post : Store}
      (hreason : reason = .sessionExpired ∨ reason = .sessionClosed)
      (hlogs : LogsOne store.db post.db .inviteLinkRejected)
      (hpost : post.db.enrollment? id = some ⟨e.candidate, some (e.sessionOr draws.sessionId clock)⟩) :
      EntryResult store clock id e issued draws (.error reason) post
  | admitted {response : CandidateSessionBootstrapResponse} {post : Store} {e' : Enrollment}
      (hlogs : LogsOne store.db post.db (entryEvent (.ok (.bootstrap response))))
      (hreissued : response.inviteReissued = issued.isSome)
      (hissued : ∀ c, issued = some c → c = credential response)
      (hpost : post.db.enrollment? id = some e') (hholds : e'.Holds (some (credential response))) :
      EntryResult store clock id e issued draws (.ok (.bootstrap response)) post

omit [Runtime] in
theorem eventLogs_getOrCreateSession {db db' : Database} {newId ca : Uuid} {s : InterviewSession}
    (hget : db.getOrCreateSession clock newId ca = .ok (s, db')) : db'.eventLogs = db.eventLogs := by
  rcases getOrCreateSession_cases hget with ⟨_, rfl⟩ | ⟨_, _, _, rfl⟩ <;> rfl

omit [Runtime] in
/-- Only a session that was there before can hold the drawn token. -/
theorem drawTaken_of_tokenTaken {db opened : Database} {session : InterviewSession} {ca : Uuid}
    (hget : db.getOrCreateSession clock draws.sessionId ca = .ok (session, opened))
    (htaken : tokenTaken opened session draws.sessionToken) : DrawTaken db draws := by
  obtain ⟨s, hs, hne, htoken⟩ := htaken
  refine .inr ⟨s, ?_, htoken⟩
  rcases getOrCreateSession_cases hget with ⟨_, rfl⟩ | ⟨_, _, rfl, rfl⟩
  · exact hs
  · rcases List.mem_append.mp hs with hs | hs
    · exact hs
    · exact absurd (by rw [List.mem_singleton.mp hs]) hne

omit [Runtime] in
theorem entryRejection_reason {context : InvitationContext} {session : InterviewSession}
    {now : Time} {reason : ApiException} (h : entryRejection context session now = some reason) :
    reason = .sessionExpired ∨ reason = .sessionClosed := by
  unfold entryRejection at h
  split_ifs at h <;> cases h
  · exact .inl rfl
  · exact .inr rfl
  · exact .inl rfl

omit [Runtime] in
theorem issued_holds (he : e.Holds issued) (hdraw : draws.sessionToken ≠ "") (expiresAt : Time) :
    let e' : Enrollment := ⟨invited clock e.candidate,
      some (Enrollment.issued clock draws.sessionToken expiresAt (e.sessionOr draws.sessionId clock))⟩
    e'.Holds (some (issued.getD (draws.sessionToken, expiresAt))) := by
  intro e'
  obtain ⟨htoken, hexpiry⟩ := sessionOr_credential e draws.sessionId clock
  cases issued with
  | none =>
    have hempty : (e.sessionOr draws.sessionId clock).sessionToken.getD "" = "" := by
      rw [htoken, he.token]
      rfl
    refine ⟨invited_consumed _ _, ?_, ?_, ?_⟩
    · simp [e', Enrollment.sessionToken, Enrollment.issued, hempty, credentials]
    · simp [e', Enrollment.sessionTokenExpiresAt, Enrollment.issued, hempty, credentials]
    · rintro c ⟨⟩
      exact hdraw
  | some c =>
    have hfull : (e.sessionOr draws.sessionId clock).sessionToken.getD "" ≠ "" := by
      rw [htoken, he.token]
      exact he.nonempty c rfl
    have hkept : Enrollment.issued clock draws.sessionToken expiresAt
        (e.sessionOr draws.sessionId clock) = e.sessionOr draws.sessionId clock := if_neg hfull
    refine ⟨invited_consumed _ _, ?_, ?_, he.nonempty⟩
    · change (Enrollment.issued clock draws.sessionToken expiresAt _).sessionToken = _
      rw [hkept, htoken, he.token]
      rfl
    · change (Enrollment.issued clock draws.sessionToken expiresAt _).sessionTokenExpiresAt = _
      rw [hkept, hexpiry, he.expiry]
      rfl

theorem serve_entry (clock : Clock) (he : store.db.enrollment? id = some e) (hholds : e.Holds issued)
    (hdraw : draws.sessionToken ≠ "") :
    let t := Transition.of serve store
      ⟨clock, .enterWithInvitation draws e.candidate.invitationToken⟩
    EntryResult store clock id e issued draws t.output t.post := by
  intro t
  have houtcome := enterWithInvitation_outcome store.db clock draws e.candidate.invitationToken
  obtain ⟨context, hlock, rfl, hconsumed⟩ := lockInvitationContext_of_enrollment store.wellFormed he
  have hpost : t.post.db =
    (enterWithInvitation store.db clock draws e.candidate.invitationToken).2 := rfl
  have houtput : t.output = (enterWithInvitation store.db clock draws
    e.candidate.invitationToken).1.map .bootstrap := rfl
  rw [houtput]
  generalize (enterWithInvitation store.db clock draws e.candidate.invitationToken).1 = result
    at houtcome
  generalize (enterWithInvitation store.db clock draws e.candidate.invitationToken).2 = db'
    at houtcome hpost
  cases houtcome with
  | unknown hnone => simp [hlock] at hnone
  | sessionIdTaken hlock' hnone htaken => exact .collision (.inl htaken) hpost
  | @tokenTaken _ session opened hlock' hget hempty htaken =>
    exact .collision (drawTaken_of_tokenTaken hget htaken) hpost
  -- the invariant rules this out: a stored token has its expiry
  | @expiryMissing _ session opened hlock' hget hfull hmissing =>
    cases hlock.symm.trans hlock'
    obtain ⟨rfl, _⟩ := enrollment?_getOrCreateSession he hget
    obtain ⟨htoken, hexpiry⟩ := sessionOr_credential e draws.sessionId clock
    rw [htoken, hholds.token] at hfull
    rw [hexpiry, hholds.expiry] at hmissing
    cases issued <;> simp at hfull hmissing
  | @rejected _ session opened reason metadata hlock' hget hreason =>
    cases hlock.symm.trans hlock'
    exact .rejected (entryRejection_reason hreason)
      (hpost ▸ logsOne_record (eventLogs_getOrCreateSession hget) _ _ _ _)
      (hpost ▸ enrollment?_rejected he hget metadata)
  | @admitted _ session opened issuedDb token expiresAt response hlock' hget hopen hissue htoken
      hexpiry hreissued =>
    cases hlock.symm.trans hlock'
    have hissued := enrollment?_admitted store.wellFormed he hconsumed hget hissue (some expiresAt)
    obtain ⟨rfl, _⟩ := enrollment?_getOrCreateSession he hget
    obtain ⟨hstored, hstoredExpiry⟩ := sessionOr_credential e draws.sessionId clock
    rw [hholds.token] at hstored
    rw [hholds.expiry] at hstoredExpiry
    have hlogs : LogsOne store.db (admittedDatabase issuedDb clock context
        (e.sessionOr draws.sessionId clock) (some expiresAt)) (entryEvent
          (.ok (.bootstrap response))) := by
      have hissuedLogs : issuedDb.eventLogs = store.db.eventLogs := by
        rw [← eventLogs_getOrCreateSession hget]
        rcases issueCredentials_cases hissue with ⟨_, _, _, _, rfl⟩ | ⟨_, _, _, rfl⟩ <;> rfl
      have hname : entryEvent (.ok (.bootstrap response)) =
          if context.inviteConsumed then .sessionTokenReissued else .inviteLinkConsumed := by
        rw [← hreissued]
        rfl
      rw [hname]
      apply logsOne_record
      split <;> exact hissuedLogs
    -- the credential is the issued one, or the drawn one where none was issued yet
    have hcredential : credential response = issued.getD
        (draws.sessionToken, newExpiry context.toLifecycleContext clock.utcNow) := by
      unfold credential
      rw [htoken, hexpiry]
      rcases issueCredentials_cases hissue with ⟨hempty, _, rfl, hexpires, _⟩ |
        ⟨hfull, rfl, hexpires, _⟩
      · rw [hstored] at hempty
        cases issued with
        | none =>
          cases hexpires
          rfl
        | some c => exact absurd hempty (hholds.nonempty c rfl)
      · rw [hstored] at hfull ⊢
        rw [hstoredExpiry] at hexpires
        cases issued with
        | none => simp at hfull
        | some c =>
          cases hexpires
          rfl
    refine .admitted (hpost ▸ hlogs) (by rw [hreissued, hconsumed, hholds.consumed]) ?_
      (hpost ▸ hissued) (hcredential ▸ issued_holds hholds hdraw _)
    rintro c rfl
    exact hcredential.symm

/-- The responses of the admitted entries so far: one credential, issued by the first of them. -/
structure OneIssue (responses : List CandidateSessionBootstrapResponse) : Prop where
  same : ∀ r ∈ responses, ∀ r' ∈ responses, credential r = credential r'
  first : ∀ r rest, responses = r :: rest →
    r.inviteReissued = false ∧ ∀ r' ∈ rest, r'.inviteReissued = true

def issuedBy (responses : List CandidateSessionBootstrapResponse) : Option (String × Time) :=
  responses.head?.map credential

omit [Runtime] in
theorem OneIssue.nil : OneIssue [] := ⟨by simp, by simp⟩

omit [Runtime] in
theorem OneIssue.snoc {responses : List CandidateSessionBootstrapResponse}
    {response : CandidateSessionBootstrapResponse} (h : OneIssue responses)
    (hreissued : response.inviteReissued = (issuedBy responses).isSome)
    (hissued : ∀ c, issuedBy responses = some c → c = credential response) :
    OneIssue (responses ++ [response]) ∧
      issuedBy (responses ++ [response]) = some (credential response) := by
  cases responses with
  | nil =>
    refine ⟨⟨by simp, ?_⟩, rfl⟩
    rintro r rest ⟨⟩
    exact ⟨hreissued, by simp⟩
  | cons r₀ rest₀ =>
    have hfirst : credential r₀ = credential response := hissued _ rfl
    have hall (r : CandidateSessionBootstrapResponse) (hr : r ∈ r₀ :: rest₀ ++ [response]) :
        credential r = credential response := by
      rcases List.mem_append.mp hr with hr | hr
      · exact (h.same r hr r₀ List.mem_cons_self).trans hfirst
      · rw [List.mem_singleton.mp hr]
    refine ⟨⟨fun r hr r' hr' => (hall r hr).trans (hall r' hr').symm, ?_⟩, congrArg some hfirst⟩
    rintro r rest ⟨⟩
    obtain ⟨hissue, hreissues⟩ := h.first r₀ rest₀ rfl
    refine ⟨hissue, fun r' hr' => ?_⟩
    rcases List.mem_append.mp hr' with hr' | hr'
    · exact hreissues r' hr'
    · rw [List.mem_singleton.mp hr', hreissued]
      rfl

/-- The enrollment holds the credential that its admitted entries handed out. -/
structure Consistent (id invitationToken : Uuid)
    (history : List (Transition Store Call SessionResult)) (store : Store) : Prop where
  issue : OneIssue (admissions invitationToken history)
  holds : ∃ e, store.db.enrollment? id = some e ∧ e.candidate.invitationToken = invitationToken ∧
    e.Holds (issuedBy (admissions invitationToken history))

omit [Runtime] in
theorem admissions_snoc (invitationToken : Uuid)
    (history : List (Transition Store Call SessionResult))
    (t : Transition Store Call SessionResult) : admissions invitationToken (history ++ [t]) =
      admissions invitationToken history ++ (admission invitationToken t).toList := by
  rw [admissions, List.filterMap_append, List.filterMap_cons, List.filterMap_nil]
  cases admission invitationToken t <;> rfl

omit [Runtime] in
theorem admission_of_not_entry {invitationToken : Uuid}
    {t : Transition Store Call SessionResult} (h : ¬ IsEntry invitationToken t.input.request) :
    admission invitationToken t = none := by
  unfold admission
  split
  · rename_i draws token response hrequest _
    rw [if_neg]
    rintro rfl
    exact h ⟨draws, hrequest⟩
  · rfl

omit [Runtime] in
theorem admission_of_error {invitationToken : Uuid} {t : Transition Store Call SessionResult}
    {reason : ApiException} (h : t.output = .error reason) : admission invitationToken t = none := by
  unfold admission
  split
  · rename_i houtput
    simp [h] at houtput
  · rfl

variable {history : List (Transition Store Call SessionResult)} {invitationToken : Uuid}
  {call : Call}

omit [Runtime] in
theorem Consistent.extend (h : Consistent id invitationToken history store) {post : Store}
    {t : Transition Store Call SessionResult} {e' : Enrollment}
    (hnone : admission invitationToken t = none) (he' : post.db.enrollment? id = some e')
    (hinvitation : e'.candidate.invitationToken = invitationToken)
    (hholds : e'.Holds (issuedBy (admissions invitationToken history))) :
    Consistent id invitationToken (history ++ [t]) post := by
  have hsnoc : admissions invitationToken (history ++ [t]) = admissions invitationToken history := by
    rw [admissions_snoc, hnone, Option.toList_none, List.append_nil]
  constructor
  · rw [hsnoc]
    exact h.issue
  · rw [hsnoc]
    exact ⟨e', he', hinvitation, hholds⟩

omit [Runtime] in
theorem Consistent.entry (h : Consistent id e.candidate.invitationToken history store)
    {t : Transition Store Call SessionResult} (he : store.db.enrollment? id = some e)
    (hholds : e.Holds (issuedBy (admissions e.candidate.invitationToken history)))
    (hrequest : t.input.request = .enterWithInvitation draws e.candidate.invitationToken)
    (hpost : ∃ e', t.post.db.enrollment? id = some e' ∧
      e'.candidate.invitationToken = e.candidate.invitationToken)
    (hresult : EntryResult store clock id e
      (issuedBy (admissions e.candidate.invitationToken history)) draws t.output t.post) :
    Consistent id e.candidate.invitationToken (history ++ [t]) t.post := by
  obtain ⟨pre, input, output, post⟩ := t
  obtain ⟨e', he', hinvitation⟩ := hpost
  cases hresult with
  | collision _ hsame =>
    rw [hsame] at he'
    cases he.symm.trans he'
    exact h.extend (admission_of_error rfl) (hsame ▸ he) rfl hholds
  | rejected _ _ hrejected =>
    obtain ⟨htoken, hexpiry⟩ := sessionOr_credential e draws.sessionId clock
    exact h.extend (admission_of_error rfl) hrejected rfl (hholds.of_same ⟨rfl, htoken, hexpiry⟩)
  | @admitted response _ e'' _ hreissued hissued hadmitted hholds' =>
    cases he'.symm.trans hadmitted
    have hsome : admission e.candidate.invitationToken
        ⟨pre, input, .ok (.bootstrap response), post⟩ = some response := by
      change input.request = _ at hrequest
      simp [admission, hrequest]
    have hsnoc : admissions e.candidate.invitationToken
        (history ++ [⟨pre, input, .ok (.bootstrap response), post⟩]) =
          admissions e.candidate.invitationToken history ++ [response] := by
      rw [admissions_snoc, hsome, Option.toList_some]
    obtain ⟨hissue, hcredential⟩ := h.issue.snoc hreissued hissued
    constructor
    · rw [hsnoc]
      exact hissue
    · rw [hsnoc, hcredential]
      exact ⟨e', he', hinvitation, hholds'⟩

theorem Consistent.next (h : Consistent id invitationToken history store)
    (htokens : ∀ draws, call.request = .enterWithInvitation draws invitationToken →
      draws.sessionToken ≠ "") :
    Consistent id invitationToken (history ++ [.of serve store call]) (serve store call).2 := by
  obtain ⟨e, he, rfl, hholds⟩ := h.holds
  obtain ⟨e', he', hstep⟩ := handle_step store.wellFormed he call
  have hinvitation := hstep.invitationToken
  by_cases hentry : IsEntry e.candidate.invitationToken call.request
  · obtain ⟨draws, hrequest⟩ := hentry
    have hresult := serve_entry call.clock he hholds (htokens draws hrequest)
    obtain ⟨clock, request⟩ := call
    subst hrequest
    exact h.entry he hholds rfl ⟨e', he', hinvitation⟩ hresult
  · exact h.extend (admission_of_not_entry hentry) he' hinvitation
      (hholds.of_same (hstep.sameCredential hentry))

omit [Runtime] in
theorem validateActiveToken_reason {context : Option SessionContext} {now : Time}
    {reason : ApiException} (h : validateActiveToken context now = some reason) :
    reason = .invalidSessionToken ∨ reason = .sessionExpired ∨ reason = .sessionClosed := by
  unfold validateActiveToken at h
  split at h
  · cases h
    exact .inl rfl
  · split_ifs at h <;> cases h
    · exact .inr (.inl rfl)
    · exact .inr (.inl rfl)
    · exact .inr (.inr rfl)

theorem getSessionContext_error {db : Database} {sessionToken : String} {reason : ApiException}
    (h : getSessionContext db clock sessionToken = .error reason) :
    validateActiveToken (lockSessionContextByToken db sessionToken) clock.utcNow = some reason := by
  unfold getSessionContext at h
  cases hvalid : validateActiveToken (lockSessionContextByToken db sessionToken) clock.utcNow with
  | some rejection =>
    simp only [hvalid] at h
    cases h
    rfl
  | none =>
    obtain ⟨context, hcontext, hexpiry, _⟩ := validateActiveToken_none hvalid
    simp only [hcontext] at hvalid h
    simp only [hvalid, bootstrapResponse] at h
    split at h
    · rename_i hmissing
      change context.sessionTokenExpiresAt = none at hmissing
      simp [hmissing] at hexpiry
    · cases h

theorem serve_getSessionContext_raises {call : Call} {sessionToken : String}
    (hrequest : call.request = .getSessionContext sessionToken) :
    (serve store call).1 ≠ .error .sessionTokenExpiryMissing ∧
      ∀ message, (serve store call).1 ≠ .error (.sessionBootstrapFailed message) := by
  obtain ⟨clock, request⟩ := call
  subst hrequest
  have hreason (reason : ApiException)
      (h : (getSessionContext store.db clock sessionToken).map SessionResponse.bootstrap =
        .error reason) :
      reason = .invalidSessionToken ∨ reason = .sessionExpired ∨ reason = .sessionClosed := by
    cases hresult : getSessionContext store.db clock sessionToken with
    | ok response => simp [hresult, Except.map] at h
    | error error =>
      simp only [hresult, Except.map, Except.error.injEq] at h
      exact h ▸ validateActiveToken_reason (getSessionContext_error hresult)
  constructor
  · intro herror
    rcases hreason _ herror with h | h | h <;> cases h
  · intro message herror
    rcases hreason _ herror with h | h | h <;> cases h

section Result

variable {output : SessionResult} {post : Store}

omit [Runtime]

theorem EntryResult.logged (h : EntryResult store clock id e issued draws output post) :
    LogsOne store.db post.db (entryEvent output) ∨
      (output = .error .integrityError ∧ DrawTaken store.db draws ∧ post.db = store.db) := by
  cases h with
  | collision htaken hpost => exact .inr ⟨rfl, htaken, hpost⟩
  | rejected _ hlogs => exact .inl hlogs
  | admitted hlogs => exact .inl hlogs

theorem EntryResult.kept (h : EntryResult store clock id e issued draws output post)
    (he : store.db.enrollment? id = some e) {reason : ApiException} (herror : output = .error reason) :
    ∃ e', post.db.enrollment? id = some e' ∧ e'.candidate = e.candidate ∧
      ∀ s, e.session = some s → e'.session = some s := by
  cases h with
  | collision _ hpost => exact ⟨e, hpost ▸ he, rfl, fun _ hs => hs⟩
  | rejected _ _ hpost =>
    refine ⟨_, hpost, rfl, fun s hs => ?_⟩
    simp [sessionOr, hs]
  | admitted => cases herror

theorem EntryResult.raises (h : EntryResult store clock id e issued draws output post) :
    output ≠ .error .sessionTokenExpiryMissing ∧
      ∀ message, output ≠ .error (.sessionBootstrapFailed message) := by
  cases h with
  | collision => simp
  | rejected hreason => rcases hreason with rfl | rfl <;> simp
  | admitted => simp

end Result

structure OneCredential (id invitationToken : Uuid) (store : Store) (calls : List Call) : Prop where
  consistent : ∃ e, (exec serve store calls).db.enrollment? id = some e ∧
    (e.candidate.inviteConsumed ↔ e.sessionToken.isSome) ∧
    (e.sessionToken.isSome ↔ e.sessionTokenExpiresAt.isSome)
  issue : OneIssue (admissions invitationToken (trace serve store calls))
  logged : ∀ t ∈ trace serve store calls, ∀ draws,
    t.input.request = .enterWithInvitation draws invitationToken →
    LogsOne t.pre.db t.post.db (entryEvent t.output) ∨
      (t.output = .error .integrityError ∧ DrawTaken t.pre.db draws ∧ t.post.db = t.pre.db)
  rejected : ∀ t ∈ trace serve store calls, IsEntry invitationToken t.input.request →
    ∀ reason, t.output = .error reason → ∃ e e', t.pre.db.enrollment? id = some e ∧
      t.post.db.enrollment? id = some e' ∧ e'.candidate = e.candidate ∧
      ∀ s, e.session = some s → e'.session = some s
  unraised : ∀ t ∈ trace serve store calls, (IsEntry invitationToken t.input.request ∨
      ∃ sessionToken, t.input.request = .getSessionContext sessionToken) →
    t.output ≠ .error .sessionTokenExpiryMissing ∧
      ∀ message, t.output ≠ .error (.sessionBootstrapFailed message)

theorem consistent_trace {ca : CandidateAssessment} {calls : List Call}
    (he : store.db.enrollment? ca.id = some ⟨ca, none⟩) (hfresh : ca.inviteConsumed = false)
    (htokens : ∀ call ∈ calls, ∀ draws,
      call.request = .enterWithInvitation draws ca.invitationToken → draws.sessionToken ≠ "") :
    Consistent ca.id ca.invitationToken (trace serve store calls) (exec serve store calls) := by
  have hkeep (history : List (Transition Store Call SessionResult)) (store : Store) (call : Call)
      (hcall : ∀ draws, call.request = .enterWithInvitation draws ca.invitationToken →
        draws.sessionToken ≠ "")
      (h : Consistent ca.id ca.invitationToken history store) :
      Consistent ca.id ca.invitationToken (history ++ [Transition.of serve store call])
        (serve store call).2 := h.next hcall
  refine history_invariant hkeep htokens ⟨OneIssue.nil, ⟨ca, none⟩, he, rfl, ?_⟩
  exact ⟨hfresh, rfl, rfl, by rintro c ⟨⟩⟩

/-- One credential per invitation: starting from a fresh enrollment, for every run with non-empty
generated tokens. -/
theorem one_credential_per_invitation (store : Store) (calls : List Call)
    (ca : CandidateAssessment) (he : store.db.enrollment? ca.id = some ⟨ca, none⟩)
    (hfresh : ca.inviteConsumed = false)
    (htokens : ∀ call ∈ calls, ∀ draws,
      call.request = .enterWithInvitation draws ca.invitationToken → draws.sessionToken ≠ "") :
    OneCredential ca.id ca.invitationToken store calls := by
  have hentry (t : Transition Store Call SessionResult) (ht : t ∈ trace serve store calls)
      (draws : EntryDraws)
      (hrequest : t.input.request = .enterWithInvitation draws ca.invitationToken) :
      ∃ e issued, t.pre.db.enrollment? ca.id = some e ∧
        EntryResult t.pre t.input.clock ca.id e issued draws t.output t.post := by
    obtain ⟨before, call, after, rfl, rfl⟩ := mem_trace ht
    obtain ⟨e, hpre, hinvitation, hholds⟩ := (consistent_trace he hfresh fun c hc =>
      htokens c (List.mem_append_left _ hc)).holds
    have hdraw := htokens call (by simp) draws hrequest
    obtain ⟨clock, request⟩ := call
    change request = _ at hrequest
    subst hrequest
    exact ⟨e, _, hpre, hinvitation ▸ serve_entry clock hpre hholds hdraw⟩
  have hfinal := consistent_trace he hfresh htokens
  constructor
  · obtain ⟨e, hpost, _, hholds⟩ := hfinal.holds
    refine ⟨e, hpost, ?_, ?_⟩
    · rw [hholds.consumed, hholds.token, Option.isSome_map]
    · rw [hholds.token, hholds.expiry, Option.isSome_map, Option.isSome_map]
  · exact hfinal.issue
  · intro t ht draws hrequest
    obtain ⟨e, issued, hpre, hresult⟩ := hentry t ht draws hrequest
    exact hresult.logged
  · rintro t ht ⟨draws, hrequest⟩ reason herror
    obtain ⟨e, issued, hpre, hresult⟩ := hentry t ht draws hrequest
    obtain ⟨e', hpost, hkept⟩ := hresult.kept hpre herror
    exact ⟨e, e', hpre, hpost, hkept⟩
  · rintro t ht (⟨draws, hrequest⟩ | ⟨sessionToken, hrequest⟩)
    · obtain ⟨e, issued, hpre, hresult⟩ := hentry t ht draws hrequest
      exact hresult.raises
    · obtain ⟨before, call, after, rfl, rfl⟩ := mem_trace ht
      exact serve_getSessionContext_raises hrequest

/-- Two entries, with a first connection between them. -/
def enteredTwice : List Call :=
  [⟨⟨0, 0⟩, .enterWithInvitation ⟨10, "session-token"⟩ 5⟩,
    ⟨⟨1, 1⟩, .authorizeInterviewConnection 11 "session-token"⟩,
    ⟨⟨2, 2⟩, .enterWithInvitation ⟨12, "other-token"⟩ 5⟩]

omit [Runtime] in
theorem one_credential_sample : @OneCredential .ascii 4 5 sampleStore enteredTwice :=
  @one_credential_per_invitation .ascii sampleStore enteredTwice sampleEnrollment rfl rfl
    (by simp [enteredTwice])

end IBotCoreApi
