import IBotCoreApi.Entry
import IBotCoreApi.Lifecycle

namespace IBotCoreApi
open Python

section GetOrCreate

variable {db db' : Database} {clock : Clock} {newId ca id : Uuid} {s : InterviewSession}
  {e : Enrollment}

theorem getOrCreateSession_wellFormed (h : db.WellFormed)
    (hca : (db.candidateAssessment? ca).isSome)
    (hget : db.getOrCreateSession clock newId ca = .ok (s, db')) : db'.WellFormed := by
  rcases getOrCreateSession_cases hget with ⟨_, rfl⟩ | ⟨hnone, hfree, rfl, rfl⟩
  · exact h
  · exact h.insertSession hfree hnone rfl hca

theorem getOrCreateSession_mem (hget : db.getOrCreateSession clock newId ca = .ok (s, db')) :
    s ∈ db'.interviewSessions ∧ s.candidateAssessmentId = ca := by
  rcases getOrCreateSession_cases hget with ⟨hs, rfl⟩ | ⟨_, _, rfl, rfl⟩
  · exact ⟨Tables.lookup_mem hs, Tables.lookup_key hs⟩
  · exact ⟨by simp, rfl⟩

/-- The enrollment that `get_or_create` is about gets its session. -/
theorem enrollmentKeys_getOrCreateSession
    (hget : db.getOrCreateSession clock newId ca = .ok (s, db')) :
    db'.enrollmentKeys = db.enrollmentKeys := by
  rcases getOrCreateSession_cases hget with ⟨_, rfl⟩ | ⟨_, _, _, rfl⟩ <;> rfl

theorem enrollment?_getOrCreateSession (he : db.enrollment? ca = some e)
    (hget : db.getOrCreateSession clock newId ca = .ok (s, db')) :
    s = e.sessionOr newId clock ∧ db'.enrollment? ca = some ⟨e.candidate, some s⟩ := by
  obtain ⟨hcandidate, hsession⟩ := enrollment?_eq_some.mp he
  rcases getOrCreateSession_cases hget with ⟨hs, rfl⟩ | ⟨hnone, _, rfl, rfl⟩
  · refine ⟨?_, enrollment?_eq_some.mpr ⟨hcandidate, hs⟩⟩
    rw [Enrollment.sessionOr, ← hsession, hs, Option.getD_some]
  · refine ⟨?_, enrollment?_eq_some.mpr ⟨hcandidate, ?_⟩⟩
    · rw [Enrollment.sessionOr, ← hsession, hnone, Option.getD_none, enrollment_candidate_id he]
    · exact (Tables.lookup_append_of_none hnone).trans (by simp [Tables.lookup_singleton,
        InterviewSession.fresh])

theorem enrollment?_getOrCreateSession_of_ne (he : db.enrollment? id = some e) (hne : id ≠ ca)
    (hget : db.getOrCreateSession clock newId ca = .ok (s, db')) :
    db'.enrollment? id = some e := by
  obtain ⟨hcandidate, hsession⟩ := enrollment?_eq_some.mp he
  rcases getOrCreateSession_cases hget with ⟨_, rfl⟩ | ⟨_, _, rfl, rfl⟩
  · exact he
  · refine enrollment?_eq_some.mpr ⟨hcandidate, ?_⟩
    cases ho : e.session with
    | some s' => exact Tables.lookup_append_of_some (hsession.trans ho)
    | none =>
      refine (Tables.lookup_append_of_none (hsession.trans ho)).trans ?_
      simp [Tables.lookup_singleton, InterviewSession.fresh, Ne.symm hne]

end GetOrCreate

open CandidateSessionRepository InterviewSessionService

variable {db : Database} {clock : Clock} {id : Uuid} {e : Enrollment}

theorem lockInvitationContext_candidate (h : db.WellFormed) {invitationToken : Uuid}
    {context : InvitationContext}
    (hlock : lockInvitationContext db invitationToken = some context) :
    ∃ ca, db.candidateAssessment? context.candidateAssessmentId = some ca ∧
      ca.invitationToken = invitationToken ∧ context.candidateAssessmentStatus = ca.status ∧
      context.inviteConsumed = ca.inviteConsumed := by
  obtain ⟨ca, hca, hshows, hconsumed⟩ := lockInvitationContext_some hlock
  refine ⟨ca, ?_, Tables.lookup_key hca, hshows.status, hconsumed⟩
  rw [hshows.candidateAssessmentId]
  exact Tables.lookup_of_mem h.candidateAssessmentIds (Tables.lookup_mem hca)

theorem lockInvitationContext_of_enrollment (h : db.WellFormed) (he : db.enrollment? id = some e) :
    ∃ context, lockInvitationContext db e.candidate.invitationToken = some context ∧
      context.candidateAssessmentId = id ∧
      context.inviteConsumed = e.candidate.inviteConsumed := by
  have hmem := Tables.lookup_mem (enrollment?_eq_some.mp he).1
  have hca : Tables.lookup (·.invitationToken) e.candidate.invitationToken
      db.candidateAssessments = some e.candidate := Tables.lookup_of_mem h.invitationTokens hmem
  obtain ⟨candidate, hcandidate⟩ := Option.isSome_iff_exists.mp (h.candidates _ hmem)
  obtain ⟨assessment, hassessment⟩ := Option.isSome_iff_exists.mp (h.assessments _ hmem)
  obtain ⟨context, hlock⟩ : ∃ context,
      lockInvitationContext db e.candidate.invitationToken = some context := by
    simp only [lockInvitationContext, lifecycleContext, hca, hcandidate, hassessment,
      Option.bind_eq_bind, Option.bind_some]
    exact ⟨_, rfl⟩
  obtain ⟨ca, hfound, hshows, hconsumed⟩ := lockInvitationContext_some hlock
  rw [hca] at hfound
  cases hfound
  exact ⟨context, hlock, hshows.candidateAssessmentId.trans (enrollment_candidate_id he), hconsumed⟩

theorem issueCredentials_wellFormed (h : db.WellFormed) {context : LifecycleContext}
    {session : InterviewSession} {drawn : String} {token : Option String} {expiresAt : Option Time}
    {issued : Database} (hsession : session ∈ db.interviewSessions)
    (hissue : issueCredentials db clock context session drawn = .ok (token, expiresAt, issued)) :
    issued.WellFormed := by
  rcases issueCredentials_cases hissue with ⟨_, hfree, _, _, rfl⟩ | ⟨_, _, _, rfl⟩
  · apply h.updateSessions
    -- only the updated row has the drawn token
    have htoken {s : InterviewSession} (hs : s ∈ db.interviewSessions) {t : String}
        (ht : ((credentials clock drawn (newExpiry context clock.utcNow)).onRow
          (·.id == session.id) s).sessionToken = some t) :
        (s.id = session.id ∧ t = drawn) ∨ (s.id ≠ session.id ∧ s.sessionToken = some t) := by
      by_cases hid : s.id = session.id
      · rw [Tables.Update.onRow_of_true (by simpa using hid)] at ht
        exact .inl ⟨hid, (Option.some.inj ht).symm⟩
      · rw [Tables.Update.onRow_of_false (by simpa using hid)] at ht
        exact .inr ⟨hid, ht⟩
    intro s hs s' hs' t ht ht'
    rcases htoken hs ht with ⟨hid, hdrawn⟩ | ⟨hid, hold⟩
    · rcases htoken hs' ht' with ⟨hid', _⟩ | ⟨hid', hold'⟩
      · exact hid.trans hid'.symm
      · exact absurd ⟨s', hs', hid', hdrawn ▸ hold'⟩ hfree
    · rcases htoken hs' ht' with ⟨_, hdrawn⟩ | ⟨_, hold'⟩
      · exact absurd ⟨s, hs, hid, hdrawn ▸ hold⟩ hfree
      · exact h.sessionTokens s hs s' hs' t hold hold'
  · exact h

theorem enrollmentKeys_issueCredentials {context : LifecycleContext} {session : InterviewSession}
    {drawn : String} {token : Option String} {expiresAt : Option Time} {issued : Database}
    (hissue : issueCredentials db clock context session drawn = .ok (token, expiresAt, issued)) :
    issued.enrollmentKeys = db.enrollmentKeys := by
  rcases issueCredentials_cases hissue with ⟨_, _, _, _, rfl⟩ | ⟨_, _, _, rfl⟩
  · exact enrollmentKeys_updateSessions _ _
  · rfl

theorem enrollment?_issueCredentials (h : db.WellFormed) {context : LifecycleContext}
    {session : InterviewSession} {drawn : String} {token : Option String} {expiresAt : Option Time}
    {issued : Database} (hsession : session ∈ db.interviewSessions)
    (he : db.enrollment? id = some e)
    (hissue : issueCredentials db clock context session drawn = .ok (token, expiresAt, issued)) :
    issued.enrollment? id = some (if session.candidateAssessmentId = id then
      ⟨e.candidate, some (Enrollment.issued clock drawn (newExpiry context clock.utcNow) session)⟩
      else e) := by
  unfold Enrollment.issued
  rcases issueCredentials_cases hissue with ⟨hempty, _, _, _, rfl⟩ | ⟨hfull, _, _, rfl⟩
  · rw [enrollment?_updateSessions, he, Option.map_some, if_pos hempty]
    split
    · rename_i hid
      rw [enrollment_session_of_mem h he hsession hid, Option.map_some,
        Tables.Update.onRow_of_true (by simp)]
    · rename_i hother
      rw [map_onRow_of_not]
      intro s hs
      simpa using session_id_ne h he hs hsession hother
  · split
    · rename_i hid
      rw [he, ← enrollment_session_of_mem h he hsession hid]
    · exact he

theorem entryRejection_none_open {context : InvitationContext} {session : InterviewSession}
    {now : Time} {status : CandidateStatus} (hopen : entryRejection context session now = none)
    (hstatus : context.candidateAssessmentStatus = status) :
    isTerminal session.status status = false := by
  unfold entryRejection at hopen
  split_ifs at hopen with _ hterminal
  rw [← hstatus]
  simpa using hterminal

section Enter

variable [Runtime] {draws : EntryDraws} {invitationToken : Uuid}

theorem enterWithInvitation_wellFormed (h : db.WellFormed) :
    (enterWithInvitation db clock draws invitationToken).2.WellFormed := by
  have houtcome := enterWithInvitation_outcome db clock draws invitationToken
  generalize (enterWithInvitation db clock draws invitationToken).1 = result at houtcome
  generalize (enterWithInvitation db clock draws invitationToken).2 = db' at houtcome ⊢
  cases houtcome with
  | unknown => exact h.recordEvent _
  | sessionIdTaken | tokenTaken | expiryMissing => exact h
  | rejected metadata hlock hget hreason =>
    obtain ⟨ca, hca, _⟩ := lockInvitationContext_candidate h hlock
    exact (getOrCreateSession_wellFormed h (by simp [hca]) hget).recordEvent _
  | admitted hlock hget hopen hissue =>
    obtain ⟨ca, hca, _⟩ := lockInvitationContext_candidate h hlock
    have hopened := getOrCreateSession_wellFormed h (by simp [hca]) hget
    have hissued := issueCredentials_wellFormed hopened (getOrCreateSession_mem hget).1 hissue
    unfold admittedDatabase
    apply Database.WellFormed.recordEvent
    split
    · exact hissued
    · exact hissued.updateCandidateAssessments _ _

theorem enterWithInvitation_enrollmentKeys :
    (enterWithInvitation db clock draws invitationToken).2.enrollmentKeys = db.enrollmentKeys := by
  have houtcome := enterWithInvitation_outcome db clock draws invitationToken
  generalize (enterWithInvitation db clock draws invitationToken).1 = result at houtcome
  generalize (enterWithInvitation db clock draws invitationToken).2 = db' at houtcome ⊢
  cases houtcome with
  | unknown | sessionIdTaken | tokenTaken | expiryMissing => rfl
  | rejected metadata hlock hget hreason =>
    rw [enrollmentKeys_record, enrollmentKeys_getOrCreateSession hget]
  | @admitted context _ _ _ _ _ _ hlock hget hopen hissue =>
    have hissued := (enrollmentKeys_issueCredentials hissue).trans
      (enrollmentKeys_getOrCreateSession hget)
    rw [admittedDatabase, enrollmentKeys_record]
    split
    · exact hissued
    · rw [consumeInvitation, enrollmentKeys_updateCandidateAssessments, hissued]

omit [Runtime] in
theorem enrollment?_rejected {context : InvitationContext} {session : InterviewSession}
    {opened : Database} (he : db.enrollment? context.candidateAssessmentId = some e)
    (hget : db.getOrCreateSession clock draws.sessionId context.candidateAssessmentId =
      .ok (session, opened)) (metadata : Json.Entries) :
    (record opened .inviteLinkRejected session.id.str (some context.candidateAssessmentId)
        metadata).enrollment? context.candidateAssessmentId =
      some ⟨e.candidate, some (e.sessionOr draws.sessionId clock)⟩ := by
  obtain ⟨rfl, hopened⟩ := enrollment?_getOrCreateSession he hget
  exact hopened

omit [Runtime] in
theorem enrollment?_admitted (h : db.WellFormed) {context : InvitationContext}
    {session : InterviewSession} {opened issued : Database} {token : Option String}
    {expiresAt : Option Time} (he : db.enrollment? context.candidateAssessmentId = some e)
    (hconsumed : context.inviteConsumed = e.candidate.inviteConsumed)
    (hget : db.getOrCreateSession clock draws.sessionId context.candidateAssessmentId =
      .ok (session, opened))
    (hissue : issueCredentials opened clock context.toLifecycleContext session
      draws.sessionToken = .ok (token, expiresAt, issued)) (shown : Option Time) :
    (admittedDatabase issued clock context session shown).enrollment?
        context.candidateAssessmentId =
      some ⟨Enrollment.invited clock e.candidate, some (Enrollment.issued clock draws.sessionToken
        (newExpiry context.toLifecycleContext clock.utcNow)
        (e.sessionOr draws.sessionId clock))⟩ := by
  have hca : (db.candidateAssessment? context.candidateAssessmentId).isSome := by
    simp [(enrollment?_eq_some.mp he).1]
  have hopened := getOrCreateSession_wellFormed h hca hget
  obtain ⟨hsession, hkey⟩ := getOrCreateSession_mem hget
  obtain ⟨rfl, heopened⟩ := enrollment?_getOrCreateSession he hget
  have hissued := enrollment?_issueCredentials hopened hsession heopened hissue
  rw [if_pos hkey] at hissued
  rw [admittedDatabase, enrollment?_record, hconsumed]
  unfold Enrollment.invited
  split
  · exact hissued
  · rename_i hfresh
    rw [consumeInvitation, enrollment?_updateCandidateAssessments, hissued, Option.map_some,
      Tables.Update.onRow_of_true (by simp [hfresh, enrollment_candidate_id he])]

theorem enterWithInvitation_step (h : db.WellFormed) (he : db.enrollment? id = some e) :
    ∃ e', (enterWithInvitation db clock draws invitationToken).2.enrollment? id = some e' ∧
      e.Step clock (.enterWithInvitation draws invitationToken) e' := by
  have houtcome := enterWithInvitation_outcome db clock draws invitationToken
  generalize (enterWithInvitation db clock draws invitationToken).1 = result at houtcome
  generalize (enterWithInvitation db clock draws invitationToken).2 = db' at houtcome ⊢
  cases houtcome with
  | unknown | sessionIdTaken | tokenTaken | expiryMissing => exact ⟨e, he, .unchanged _ _⟩
  | @rejected context session opened reason metadata hlock hget hreason =>
    by_cases hid : id = context.candidateAssessmentId
    · subst hid
      obtain ⟨ca, hca, htoken, _⟩ := lockInvitationContext_candidate h hlock
      rw [(enrollment?_eq_some.mp he).1] at hca
      exact ⟨_, enrollment?_rejected he hget metadata, .refused e (Option.some.inj hca ▸ htoken)⟩
    · refine ⟨e, ?_, .unchanged _ _⟩
      rw [enrollment?_record]
      exact enrollment?_getOrCreateSession_of_ne he hid hget
  | @admitted context session opened issued token expiresAt response hlock hget hopen hissue =>
    obtain ⟨ca, hca, htoken, hstatus, hconsumed⟩ := lockInvitationContext_candidate h hlock
    by_cases hid : id = context.candidateAssessmentId
    · subst hid
      rw [(enrollment?_eq_some.mp he).1] at hca
      obtain rfl := Option.some.inj hca
      obtain ⟨rfl, _⟩ := enrollment?_getOrCreateSession he hget
      exact ⟨_, enrollment?_admitted h he hconsumed hget hissue _,
        .admitted e htoken (entryRejection_none_open hopen hstatus) _⟩
    · have hopened := getOrCreateSession_wellFormed h (by simp [hca]) hget
      obtain ⟨hsession, hkey⟩ := getOrCreateSession_mem hget
      refine ⟨e, ?_, .unchanged _ _⟩
      have heopened := enrollment?_getOrCreateSession_of_ne he hid hget
      have hissued := enrollment?_issueCredentials hopened hsession heopened hissue
      rw [if_neg (hkey.trans_ne (Ne.symm hid))] at hissued
      rw [admittedDatabase, enrollment?_record]
      split
      · exact hissued
      · rw [consumeInvitation, enrollment?_updateCandidateAssessments, hissued, Option.map_some,
          Tables.Update.onRow_of_false (by simp [enrollment_candidate_id he, hid])]

end Enter

end IBotCoreApi
