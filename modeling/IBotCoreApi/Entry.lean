import IBotCoreApi.Store

namespace IBotCoreApi
open Python

variable {db : Database} {clock : Clock}

theorem getOrCreateSession_cases {newId ca : Uuid} {s : InterviewSession} {db' : Database}
    (hget : db.getOrCreateSession clock newId ca = .ok (s, db')) :
    (db.sessionOf? ca = some s ∧ db' = db) ∨
    (db.sessionOf? ca = none ∧ db.session? newId = none ∧ s = .fresh newId ca clock ∧
      db' = { db with interviewSessions := db.interviewSessions ++ [s] }) := by
  unfold Database.getOrCreateSession at hget
  split at hget
  · rename_i session hsession
    cases hget
    exact .inl ⟨hsession, rfl⟩
  · rename_i hnone
    split at hget
    · cases hget
    · rename_i hfree
      cases hget
      exact .inr ⟨hnone, by simpa using hfree, rfl, rfl⟩

theorem getOrCreateSession_error {newId ca : Uuid} {e : ApiException}
    (hget : db.getOrCreateSession clock newId ca = .error e) :
    e = .integrityError ∧ db.sessionOf? ca = none ∧ (db.session? newId).isSome := by
  unfold Database.getOrCreateSession at hget
  split at hget
  · cases hget
  · rename_i hnone
    split at hget
    · rename_i hused
      cases hget
      exact ⟨rfl, hnone, hused⟩
    · cases hget

namespace CandidateSessionRepository

structure LifecycleContext.Shows (db : Database) (ca : CandidateAssessment)
    (context : LifecycleContext) : Prop where
  candidateAssessmentId : context.candidateAssessmentId = ca.id
  candidateId : context.candidateId = ca.candidateId
  assessmentId : context.assessmentId = ca.assessmentId
  status : context.candidateAssessmentStatus = ca.status
  interviewStartedAt : context.interviewStartedAt = ca.interviewStartedAt
  windowEnd : ∃ a, db.assessment? ca.assessmentId = some a ∧ context.windowEnd = a.windowEnd

theorem lifecycleContext_shows {ca : CandidateAssessment} {context : LifecycleContext}
    (hcontext : lifecycleContext db ca = some context) : LifecycleContext.Shows db ca context := by
  simp only [lifecycleContext, Option.bind_eq_bind, Option.bind_eq_some_iff] at hcontext
  obtain ⟨candidate, _, assessment, hassessment, hcontext⟩ := hcontext
  cases hcontext
  exact ⟨rfl, rfl, rfl, rfl, rfl, assessment, hassessment, rfl⟩

theorem lockInvitationContext_some {invitationToken : Uuid} {context : InvitationContext}
    (hlock : lockInvitationContext db invitationToken = some context) :
    ∃ ca, Tables.lookup (·.invitationToken) invitationToken db.candidateAssessments = some ca ∧
      LifecycleContext.Shows db ca context.toLifecycleContext ∧
      context.inviteConsumed = ca.inviteConsumed := by
  simp only [lockInvitationContext, Option.bind_eq_bind, Option.bind_eq_some_iff] at hlock
  obtain ⟨ca, hca, lifecycle, hlifecycle, hcontext⟩ := hlock
  cases hcontext
  exact ⟨ca, hca, lifecycleContext_shows hlifecycle, rfl⟩

end CandidateSessionRepository

namespace InterviewSessionService

/-- The three rejections of a known invitation, in the order of the source. -/
def entryRejection (context : InvitationContext) (session : InterviewSession) (now : Time) :
    Option ApiException :=
  if windowExpired context.toLifecycleContext now then some .sessionExpired
  else if isTerminal session.status context.candidateAssessmentStatus then some .sessionClosed
  else if context.inviteConsumed && session.sessionTokenExpiresAt.any (· ≤ now) then
    some .sessionExpired
  else none

def tokenTaken (db : Database) (session : InterviewSession) (token : String) : Prop :=
  ∃ s ∈ db.interviewSessions, s.id ≠ session.id ∧ s.sessionToken = some token

theorem issueCredentials_cases {context : LifecycleContext} {session : InterviewSession}
    {drawn : String} {token : Option String} {expiresAt : Option Time} {issued : Database}
    (hissue : issueCredentials db clock context session drawn = .ok (token, expiresAt, issued)) :
    (session.sessionToken.getD "" = "" ∧ ¬ tokenTaken db session drawn ∧ token = some drawn ∧
      expiresAt = some (newExpiry context clock.utcNow) ∧
      issued = db.updateSessions (·.id == session.id)
        (CandidateSessionRepository.credentials clock drawn (newExpiry context clock.utcNow))) ∨
    (session.sessionToken.getD "" ≠ "" ∧ token = session.sessionToken ∧
      expiresAt = session.sessionTokenExpiresAt ∧ issued = db) := by
  unfold issueCredentials at hissue
  split at hissue
  · rename_i hempty
    simp only [CandidateSessionRepository.setSessionCredentials] at hissue
    split at hissue
    · cases hissue
    · rename_i hfree
      cases hissue
      refine .inl ⟨hempty, ?_, rfl, rfl, rfl⟩
      rintro ⟨s, hs, hne, htoken⟩
      exact hfree (List.any_eq_true.mpr ⟨s, hs, by simp [hne, htoken]⟩)
  · rename_i hfull
    cases hissue
    exact .inr ⟨hfull, rfl, rfl, rfl⟩

theorem issueCredentials_error {context : LifecycleContext} {session : InterviewSession}
    {drawn : String} {e : ApiException}
    (hissue : issueCredentials db clock context session drawn = .error e) :
    e = .integrityError ∧ session.sessionToken.getD "" = "" ∧ tokenTaken db session drawn := by
  unfold issueCredentials at hissue
  split at hissue
  · rename_i hempty
    simp only [CandidateSessionRepository.setSessionCredentials] at hissue
    split at hissue
    · rename_i htaken
      cases hissue
      obtain ⟨s, hs, hcond⟩ := List.any_eq_true.mp htaken
      simp only [Bool.and_eq_true, bne_iff_ne, beq_iff_eq] at hcond
      exact ⟨rfl, hempty, s, hs, hcond⟩
    · cases hissue
  · cases hissue

variable [Runtime]

/-- The rows of an admitted entry: the credentials are stored, the invitation is consumed and one
event is logged. -/
def admittedDatabase (issued : Database) (clock : Clock) (context : InvitationContext)
    (session : InterviewSession) (expiresAt : Option Time) : Database :=
  record (if context.inviteConsumed then issued
      else CandidateSessionRepository.consumeInvitation issued clock context.candidateAssessmentId)
    (if context.inviteConsumed then .sessionTokenReissued else .inviteLinkConsumed)
    session.id.str (some context.candidateAssessmentId) [
      ("session_status", .str session.status.text),
      ("session_token_expires_at", optionalIsoformat expiresAt)]

/-- Everything a call of `enter_with_invitation` can do. -/
inductive EntryOutcome (db : Database) (clock : Clock) (draws : EntryDraws)
    (invitationToken : Uuid) :
    Except ApiException CandidateSessionBootstrapResponse → Database → Prop
  | unknown
      (hlock : CandidateSessionRepository.lockInvitationContext db invitationToken = none) :
      EntryOutcome db clock draws invitationToken (.error .invalidInvitation)
        (record db .inviteLinkRejected invitationToken.str none
          [("reason", .str "invitation_not_found")])
  | sessionIdTaken {context : InvitationContext}
      (hlock : CandidateSessionRepository.lockInvitationContext db invitationToken = some context)
      (hnone : db.sessionOf? context.candidateAssessmentId = none)
      (htaken : (db.session? draws.sessionId).isSome) :
      EntryOutcome db clock draws invitationToken (.error .integrityError) db
  | tokenTaken {context : InvitationContext} {session : InterviewSession} {opened : Database}
      (hlock : CandidateSessionRepository.lockInvitationContext db invitationToken = some context)
      (hget : db.getOrCreateSession clock draws.sessionId context.candidateAssessmentId =
        .ok (session, opened))
      (hempty : session.sessionToken.getD "" = "")
      (htaken : tokenTaken opened session draws.sessionToken) :
      EntryOutcome db clock draws invitationToken (.error .integrityError) db
  | expiryMissing {context : InvitationContext} {session : InterviewSession} {opened : Database}
      (hlock : CandidateSessionRepository.lockInvitationContext db invitationToken = some context)
      (hget : db.getOrCreateSession clock draws.sessionId context.candidateAssessmentId =
        .ok (session, opened))
      (hfull : session.sessionToken.getD "" ≠ "") (hmissing : session.sessionTokenExpiresAt = none) :
      EntryOutcome db clock draws invitationToken (.error .sessionTokenExpiryMissing) db
  | rejected {context : InvitationContext} {session : InterviewSession} {opened : Database}
      {reason : ApiException} (metadata : Json.Entries)
      (hlock : CandidateSessionRepository.lockInvitationContext db invitationToken = some context)
      (hget : db.getOrCreateSession clock draws.sessionId context.candidateAssessmentId =
        .ok (session, opened))
      (hreason : entryRejection context session clock.utcNow = some reason) :
      EntryOutcome db clock draws invitationToken (.error reason)
        (record opened .inviteLinkRejected session.id.str (some context.candidateAssessmentId)
          metadata)
  | admitted {context : InvitationContext} {session : InterviewSession} {opened issued : Database}
      {token : Option String} {expiresAt : Time} {response : CandidateSessionBootstrapResponse}
      (hlock : CandidateSessionRepository.lockInvitationContext db invitationToken = some context)
      (hget : db.getOrCreateSession clock draws.sessionId context.candidateAssessmentId =
        .ok (session, opened))
      (hopen : entryRejection context session clock.utcNow = none)
      (hissue : issueCredentials opened clock context.toLifecycleContext session
        draws.sessionToken = .ok (token, some expiresAt, issued))
      (htoken : response.sessionToken = token.getD "None")
      (hexpiry : response.sessionTokenExpiresAt = expiresAt)
      (hreissued : response.inviteReissued = context.inviteConsumed) :
      EntryOutcome db clock draws invitationToken (.ok response)
        (admittedDatabase issued clock context session (some expiresAt))

/-- The admitting branch, once its transaction is committed or rolled back. -/
theorem admitEntry_outcome {draws : EntryDraws} {invitationToken : Uuid}
    {context : InvitationContext} {session : InterviewSession} {opened : Database}
    (hlock : CandidateSessionRepository.lockInvitationContext db invitationToken = some context)
    (hget : db.getOrCreateSession clock draws.sessionId context.candidateAssessmentId =
      .ok (session, opened))
    (hopen : entryRejection context session clock.utcNow = none) :
    EntryOutcome db clock draws invitationToken
      (transact db (admitEntry opened clock draws context session)).1
      (transact db (admitEntry opened clock draws context session)).2 := by
  unfold admitEntry
  cases hissue : issueCredentials opened clock context.toLifecycleContext session
      draws.sessionToken with
  | error e =>
    obtain ⟨rfl, hempty, htaken⟩ := issueCredentials_error hissue
    exact .tokenTaken hlock hget hempty htaken
  | ok issued =>
    obtain ⟨token, expiresAt, issued⟩ := issued
    cases expiresAt with
    | some expiresAt => exact .admitted hlock hget hopen hissue rfl rfl rfl
    | none =>
      rcases issueCredentials_cases hissue with ⟨_, _, _, hexpiry, _⟩ | ⟨hfull, _, hexpiry, _⟩
      · cases hexpiry
      · exact .expiryMissing hlock hget hfull hexpiry.symm

theorem enterWithInvitation_outcome (db : Database) (clock : Clock) (draws : EntryDraws)
    (invitationToken : Uuid) :
    EntryOutcome db clock draws invitationToken
      (enterWithInvitation db clock draws invitationToken).1
      (enterWithInvitation db clock draws invitationToken).2 := by
  unfold enterWithInvitation entryTransaction
  cases hlock : CandidateSessionRepository.lockInvitationContext db invitationToken with
  | none => exact .unknown hlock
  | some context =>
    simp only [CandidateSessionRepository.getOrCreateSessionForUpdate]
    cases hget : db.getOrCreateSession clock draws.sessionId context.candidateAssessmentId with
    | error e =>
      obtain ⟨rfl, hnone, htaken⟩ := getOrCreateSession_error hget
      exact .sessionIdTaken hlock hnone htaken
    | ok opened =>
      obtain ⟨session, opened⟩ := opened
      have hreason : entryRejection context session clock.utcNow =
        entryRejection context session clock.utcNow := rfl
      conv_rhs at hreason => unfold entryRejection
      simp only [bind, Except.bind, pure, Except.pure]
      split_ifs with hwindow hterminal hexpired
      · exact .rejected _ hlock hget (by simp [hreason, hwindow])
      · exact .rejected _ hlock hget (by simp [hreason, hwindow, hterminal])
      · exact .rejected _ hlock hget (by simp [hreason, hwindow, hterminal, hexpired])
      · have hopen : entryRejection context session clock.utcNow = none := by
          simp [hreason, hwindow, hterminal, hexpired]
        have houtcome := admitEntry_outcome hlock hget hopen
        cases hopened : admitEntry opened clock draws context session with
        | error e =>
          rw [hopened] at houtcome
          exact houtcome
        | ok admitted =>
          rw [hopened] at houtcome
          exact houtcome

end InterviewSessionService

end IBotCoreApi
