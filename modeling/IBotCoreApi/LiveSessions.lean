import IBotCoreApi.AuthSteps
import IBotCoreApi.RefreshTokens

namespace IBotCoreApi
open Python Transactions AuthRepository AuthService

namespace AuthDatabase

def liveTokens (db : AuthDatabase) (recruiterId : Uuid) : List RecruiterToken :=
  db.recruiterTokens.filter fun t => t.recruiterId == recruiterId && !t.isRevoked

def OneLive (db : AuthDatabase) : Prop := ∀ recruiterId, (db.liveTokens recruiterId).length ≤ 1

variable [AuthRuntime]

def Issued (db : AuthDatabase) (recruiterId : Uuid) (token : String) : Prop :=
  ∃ t ∈ db.recruiterTokens, t.recruiterId = recruiterId ∧ t.tokenHash = AuthRuntime.sha256 token

/-- The token is stored and unrevoked, has not expired, and belongs to an active recruiter. -/
def Refreshable (db : AuthDatabase) (now : Time) (token : String) : Prop :=
  ∃ stored recruiter, getRefreshTokenByHash db (AuthRuntime.sha256 token) = some stored ∧
    stored.isRevoked = false ∧ now ≤ stored.expiresAt ∧
    getRecruiterById db stored.recruiterId = some recruiter ∧ recruiter.isActive = true

/-- The identifier and the digest of the next token are unused. -/
def Fresh (db : AuthDatabase) (draws : TokenDraws) : Prop :=
  ∀ t ∈ db.recruiterTokens, t.id ≠ draws.tokenId ∧
    t.tokenHash ≠ AuthRuntime.sha256 draws.rawRefreshToken

end AuthDatabase

section Tokens

variable {tokens : List RecruiterToken} {p : RecruiterToken → Bool} {t : RecruiterToken}

theorem mem_revokeWhere (ht : t ∈ tokens) :
    t ∈ revokeWhere p tokens ∨ revoked.set t ∈ revokeWhere p tokens := by
  have hrow : revoked.onRow p t ∈ revokeWhere p tokens := Tables.mem_updateWhere.mpr ⟨t, ht, rfl⟩
  cases hp : p t with
  | false => exact .inl (Tables.Update.onRow_of_false hp ▸ hrow)
  | true => exact .inr (Tables.Update.onRow_of_true hp ▸ hrow)

theorem filter_revokeWhere (q : RecruiterToken → Bool) :
    (revokeWhere p tokens).filter (fun t => q t && !t.isRevoked) =
      tokens.filter fun t => (q t && !t.isRevoked) && !p t := by
  unfold revokeWhere Tables.updateWhere
  induction tokens with
  | nil => rfl
  | cons t tokens ih =>
    rw [List.map_cons, List.filter_cons, List.filter_cons, ih]
    cases hp : p t with
    | false => simp [Tables.Update.onRow, hp]
    | true => simp [Tables.Update.onRow, hp, revoked]

theorem length_filter_and_le (q r : RecruiterToken → Bool) :
    (tokens.filter fun t => q t && r t).length ≤ (tokens.filter q).length := by
  rw [← List.countP_eq_length_filter, ← List.countP_eq_length_filter]
  apply List.countP_mono_left
  intro t _ ht
  exact (Bool.and_eq_true_iff.mp ht).1

end Tokens

section Steps

variable {db : AuthDatabase} {recruiterId : Uuid}

open AuthDatabase

theorem AuthDatabase.OneLive.revoke (h : db.OneLive) (p : RecruiterToken → Bool) :
    OneLive { db with recruiterTokens := revokeWhere p db.recruiterTokens } := by
  intro recruiterId
  unfold liveTokens
  rw [filter_revokeWhere (·.recruiterId == recruiterId)]
  exact (length_filter_and_le _ _).trans (h recruiterId)

theorem AuthDatabase.OneLive.insert (h : db.OneLive) {t : RecruiterToken}
    (hnone : db.liveTokens t.recruiterId = []) :
    OneLive { db with recruiterTokens := db.recruiterTokens ++ [t] } := by
  intro recruiterId
  unfold liveTokens
  rw [List.filter_append, List.length_append]
  by_cases hid : t.recruiterId = recruiterId
  · have hold := congrArg List.length hnone
    unfold liveTokens at hold
    rw [hid] at hold
    rw [hold]
    exact (Nat.zero_add _).le.trans (List.length_filter_le _ _)
  · have hnew : [t].filter (fun t => t.recruiterId == recruiterId && !t.isRevoked) = [] := by
      simp [hid]
    rw [hnew]
    exact h recruiterId

theorem liveTokens_revoke {p : RecruiterToken → Bool}
    (hp : ∀ t ∈ db.liveTokens recruiterId, p t = true) :
    liveTokens { db with recruiterTokens := revokeWhere p db.recruiterTokens } recruiterId = [] := by
  unfold liveTokens
  rw [filter_revokeWhere (·.recruiterId == recruiterId), List.filter_eq_nil_iff]
  intro t ht hlive
  obtain ⟨hlive, hkept⟩ := Bool.and_eq_true_iff.mp hlive
  rw [hp t (List.mem_filter.mpr ⟨ht, hlive⟩)] at hkept
  cases hkept

theorem AuthDatabase.OneLive.eq_of_mem (h : db.OneLive) {t t' : RecruiterToken}
    (ht : t ∈ db.liveTokens recruiterId) (ht' : t' ∈ db.liveTokens recruiterId) : t = t' := by
  have hshort := h recruiterId
  cases hlive : db.liveTokens recruiterId with
  | nil => simp [hlive] at ht
  | cons first rest =>
    rw [hlive] at ht ht' hshort
    have hrest : rest = [] := by
      apply List.eq_nil_of_length_eq_zero
      simp only [List.length_cons] at hshort
      omega
    subst hrest
    rw [List.mem_singleton.mp ht, List.mem_singleton.mp ht']

/-- The rows of the token table stay, as they are or revoked. -/
def AuthDatabase.KeepsTokens (db db' : AuthDatabase) : Prop :=
  ∀ t ∈ db.recruiterTokens, t ∈ db'.recruiterTokens ∨ revoked.set t ∈ db'.recruiterTokens

theorem AuthDatabase.KeepsTokens.refl (db : AuthDatabase) : db.KeepsTokens db :=
  fun _ ht => .inl ht

theorem AuthDatabase.KeepsTokens.trans {db₁ db₂ db₃ : AuthDatabase} (h : db₁.KeepsTokens db₂)
    (h' : db₂.KeepsTokens db₃) : db₁.KeepsTokens db₃ := by
  intro t ht
  rcases h t ht with hkept | hrevoked
  · exact h' t hkept
  · exact .inr ((h' _ hrevoked).elim id id)

theorem AuthDatabase.KeepsTokens.lookup_revoked {db' : AuthDatabase}
    (h : db.KeepsTokens db') (hdb : db'.Keyed)
    {tokenHash : String} {t : RecruiterToken}
    (hfound : getRefreshTokenByHash db tokenHash = some t) (hrevoked : t.isRevoked = true) :
    getRefreshTokenByHash db' tokenHash = some t := by
  have hmem : t ∈ db'.recruiterTokens := by
    rcases h t (Tables.lookup_mem hfound) with hkept | hset
    · exact hkept
    · exact set_of_revoked hrevoked ▸ hset
  rw [← Tables.lookup_key hfound]
  exact Tables.lookup_of_mem hdb.tokenHashes hmem

variable [Runtime] [AuthRuntime] {system : AuthSystem} {event : AuthEvent}
  {output : Except AuthException AuthAnswer} {db' : AuthDatabase} {redis' : Redis}

/-- Every request keeps the recruiters at one live token each. -/
theorem AuthStep.oneLive (h : AuthStep system event output db' redis')
    (hone : system.db.OneLive) : db'.OneLive := by
  cases h with
  | rejected | registered | otpStored => exact hone
  | loggedIn =>
    apply (hone.revoke _).insert
    apply liveTokens_revoke
    intro t ht
    exact (Bool.and_eq_true_iff.mp (List.mem_filter.mp ht).2).1
  | @refreshed token draws client stored recruiter _ hstored hlive hrecruiter =>
    have howner := Tables.lookup_key hrecruiter
    have hhash : stored.tokenHash = AuthRuntime.sha256 token := Tables.lookup_key hstored
    have hmem : stored ∈ system.db.liveTokens recruiter.id := by
      refine List.mem_filter.mpr ⟨Tables.lookup_mem hstored, ?_⟩
      simp [howner, hlive]
    apply (hone.revoke _).insert
    apply liveTokens_revoke
    intro t ht
    -- the recruiter's live token is the one that was presented
    rw [hone.eq_of_mem ht hmem, hhash, beq_self_eq_true]
  | loggedOut => exact hone.revoke _
  | passwordReset => exact hone.revoke _

theorem AuthStep.keepsTokens (h : AuthStep system event output db' redis') :
    system.db.KeepsTokens db' := by
  intro t ht
  cases h with
  | rejected | registered | otpStored => exact .inl ht
  | loggedIn | refreshed =>
    exact (mem_revokeWhere ht).imp (List.mem_append_left _) (List.mem_append_left _)
  | loggedOut | passwordReset => exact mem_revokeWhere ht

theorem AuthStep.endsSession {answer : AuthAnswer} {email : String} {recruiter : RecruiterAccount}
    (h : AuthStep system event (.ok answer) db' redis')
    (hfound : getRecruiterByEmail system.db (Runtime.lower email) = some recruiter)
    (hcall : (∃ password draws client, event.call = .login email password draws client) ∨
      ∃ otp, event.call = .verifyOtp email otp) :
    ∃ more : List RecruiterToken, (∀ t ∈ more, t.recruiterId = recruiter.id) ∧
      db'.recruiterTokens =
        revokeWhere (·.recruiterId == recruiter.id) system.db.recruiterTokens ++ more := by
  rcases hcall with ⟨password, draws, client, hcall⟩ | ⟨otp, hcall⟩
  · cases h with
    | loggedIn hcall' hfound' =>
      cases hcall.symm.trans hcall'
      cases hfound.symm.trans hfound'
      refine ⟨_, fun t ht => ?_, rfl⟩
      rw [List.mem_singleton.mp ht]
      rfl
    | registered hcall' | refreshed hcall' | loggedOut hcall' | passwordReset hcall' =>
      cases hcall.symm.trans hcall'
    | otpStored hcall' =>
      rw [hcall] at hcall'
      cases hcall'
  · cases h with
    | passwordReset hcall' _ hfound' =>
      cases hcall.symm.trans hcall'
      cases hfound.symm.trans hfound'
      exact ⟨[], by simp, (List.append_nil _).symm⟩
    | registered hcall' | refreshed hcall' | loggedOut hcall' | loggedIn hcall' =>
      cases hcall.symm.trans hcall'
    | otpStored hcall' =>
      rw [hcall] at hcall'
      cases hcall'

end Steps

section Requests

variable [Runtime] [AuthRuntime] {system : AuthSystem} {now : Time} {redisClient : Bool}
  {token : String} {draws : TokenDraws} {client : ClientInfo}

omit [Runtime] [AuthRuntime] in
theorem transact_output (p : AuthProgram) :
    (system.transact p).1 =
      (p.execute authEngine system.db).map fun done => AuthSystem.answer done.1 := by
  unfold AuthSystem.transact
  dsimp only
  split
  · rename_i exception hrun
    simp only [hrun, Except.map]
  · rename_i result db hrun
    simp only [hrun, Except.map]

theorem refreshToken_revoked {t : RecruiterToken}
    (hfound : getRefreshTokenByHash system.db (AuthRuntime.sha256 token) = some t)
    (hrevoked : t.isRevoked = true) :
    (authService system ⟨now, redisClient, .refreshToken token draws client⟩).1 =
      .error .invalidRefreshToken := by
  change (system.transact _).1 = _
  rw [transact_output]
  unfold refreshToken
  rw [Program.execute_select, hfound]
  simp only [hrevoked, if_true]
  rfl

/-- With fresh draws a refresh succeeds exactly for a token that is stored and unrevoked, has not
expired, and belongs to an active recruiter. -/
theorem refreshToken_ok_iff (hfresh : system.db.Fresh draws) :
    (∃ answer,
        (authService system ⟨now, redisClient, .refreshToken token draws client⟩).1 = .ok answer) ↔
      system.db.Refreshable now token := by
  change (∃ answer, (system.transact _).1 = .ok answer) ↔ _
  rw [transact_output]
  constructor
  · rintro ⟨answer, hanswer⟩
    cases hrun : (refreshToken token now draws client).execute authEngine system.db with
    | error exception =>
      rw [hrun] at hanswer
      cases hanswer
    | ok done =>
      obtain ⟨stored, recruiter, hstored, hlive, hunexpired, hrecruiter, hactive, _⟩ :=
        refreshToken_execute.mp hrun
      exact ⟨stored, recruiter, hstored, hlive, hunexpired, hrecruiter, hactive⟩
  · rintro ⟨stored, recruiter, hstored, hlive, hunexpired, hrecruiter, hactive⟩
    have howner := Tables.lookup_key hrecruiter
    refine ⟨_, congrArg _ (refreshToken_execute.mpr ⟨stored, recruiter, hstored, hlive, hunexpired,
      hrecruiter, hactive, ?_, rfl, rfl⟩)⟩
    simp only [authEngine, newToken]
    rw [if_neg]
    rw [Bool.or_eq_true, not_or]
    constructor
    · rw [Bool.not_eq_true, List.any_eq_false]
      intro t ht
      obtain ⟨stored, hmem, rfl⟩ := Tables.mem_updateWhere.mp ht
      obtain ⟨hid, hhash⟩ := hfresh stored hmem
      have hkeys := Tables.Update.onRow_keeps (u := revoked)
        (p := (·.tokenHash == AuthRuntime.sha256 token)) stored
      obtain ⟨hid', hhash'⟩ := Prod.mk.inj hkeys
      simp [hid', hhash', hid, hhash]
    · have hsome : getRecruiterById system.db recruiter.id = some recruiter := howner ▸ hrecruiter
      rw [Bool.not_eq_true, Option.isNone_eq_false_iff]
      exact Option.isSome_iff_exists.mpr ⟨recruiter, hsome⟩

end Requests

section Sessions

variable [Runtime] [AuthRuntime] {start : AuthSystem} {events : List AuthEvent}

def EndsSession
    (t : Runs.Transition AuthSystem AuthEvent (Except AuthException AuthAnswer))
    (recruiterId : Uuid) : Prop :=
  (∃ answer, t.output = .ok answer) ∧ ∃ email recruiter,
    getRecruiterByEmail t.pre.db (Runtime.lower email) = some recruiter ∧
      recruiter.id = recruiterId ∧
      ((∃ password draws client, t.input.call = .login email password draws client) ∨
        ∃ otp, t.input.call = .verifyOtp email otp)

structure LiveSessions (start : AuthSystem) (events : List AuthEvent) : Prop where
  oneLive : (Runs.exec authService start events).db.OneLive
  /-- A revoked token never becomes unrevoked. -/
  revoked_stays : ∀ before after, events = before ++ after → ∀ tokenHash t,
    getRefreshTokenByHash (Runs.exec authService start before).db tokenHash = some t →
      t.isRevoked = true →
        getRefreshTokenByHash (Runs.exec authService start events).db tokenHash = some t
  refreshable : ∀ now redisClient token draws client,
    (Runs.exec authService start events).db.Fresh draws →
      ((∃ answer, (authService (Runs.exec authService start events)
          ⟨now, redisClient, .refreshToken token draws client⟩).1 = .ok answer) ↔
        (Runs.exec authService start events).db.Refreshable now token)
  /-- What was issued before a login or a password reset is refused from then on. -/
  ended : ∀ before event after, events = before ++ event :: after → ∀ recruiterId,
    EndsSession (.of authService (Runs.exec authService start before) event) recruiterId →
      ∀ token, (Runs.exec authService start before).db.Issued recruiterId token →
        ∀ now redisClient draws client, (authService (Runs.exec authService start events)
          ⟨now, redisClient, .refreshToken token draws client⟩).1 = .error .invalidRefreshToken
  /-- A login or a password reset leaves the tokens of the other recruiters as they are. -/
  others : ∀ before event after, events = before ++ event :: after → ∀ recruiterId,
    EndsSession (.of authService (Runs.exec authService start before) event) recruiterId →
      (Runs.exec authService start (before ++ [event])).db.recruiterTokens.filter
          (·.recruiterId != recruiterId) =
        (Runs.exec authService start before).db.recruiterTokens.filter
          (·.recruiterId != recruiterId)

theorem keepsTokens_exec (system : AuthSystem) (events : List AuthEvent) :
    system.db.KeepsTokens (Runs.exec authService system events).db := by
  let R (s s' : AuthSystem) : Prop := s.db.KeepsTokens s'.db
  refine Runs.exec_rel (R := R) (fun s => .refl s.db) (fun h h' => h.trans h') fun t ht => ?_
  obtain ⟨before, event, after, _, rfl⟩ := Runs.mem_trace ht
  exact (authService_step _ event).keepsTokens

theorem EndsSession.tokens {system : AuthSystem} {event : AuthEvent} {recruiterId : Uuid}
    (h : EndsSession (.of authService system event) recruiterId) :
    ∃ more : List RecruiterToken, (∀ t ∈ more, t.recruiterId = recruiterId) ∧
      (authService system event).2.db.recruiterTokens =
        revokeWhere (·.recruiterId == recruiterId) system.db.recruiterTokens ++ more := by
  obtain ⟨⟨answer, houtput⟩, email, recruiter, hfound, hid, hcall⟩ := h
  have hstep := authService_step system event
  have hok : (authService system event).1 = .ok answer := houtput
  rw [hok] at hstep
  exact hid ▸ hstep.endsSession hfound hcall

/-- One live session per recruiter, over every run of requests. -/
theorem one_live_session (start : AuthSystem) (hstart : start.db.OneLive)
    (events : List AuthEvent) : LiveSessions start events where
  oneLive := by
    let P (s : AuthSystem) : Prop := s.db.OneLive
    refine Runs.exec_preserves (P := P) (fun t ht hone => ?_) hstart
    obtain ⟨before, event, after, _, rfl⟩ := Runs.mem_trace ht
    exact (authService_step _ event).oneLive hone
  revoked_stays := by
    rintro before after rfl tokenHash t hfound hrevoked
    rw [Runs.exec_append]
    exact (keepsTokens_exec _ after).lookup_revoked (AuthSystem.keyed _) hfound hrevoked
  refreshable now redisClient token draws client hfresh := refreshToken_ok_iff hfresh
  ended := by
    rintro before event after rfl recruiterId hends token ⟨t, ht, howner, hhash⟩ now redisClient
      draws client
    obtain ⟨more, _, htokens⟩ := hends.tokens
    -- the reset or the login leaves the token revoked, and it stays so
    have hrow : revoked.set t ∈
        (authService (Runs.exec authService start before) event).2.db.recruiterTokens := by
      rw [htokens]
      refine List.mem_append_left _ (Tables.mem_updateWhere.mpr ⟨t, ht, ?_⟩)
      exact Tables.Update.onRow_of_true (by simp [howner])
    have hlookup : getRefreshTokenByHash
        (authService (Runs.exec authService start before) event).2.db (AuthRuntime.sha256 token) =
          some (revoked.set t) :=
      hhash ▸ Tables.lookup_of_mem (AuthSystem.keyed _).tokenHashes hrow
    rw [Runs.exec_append_cons]
    exact refreshToken_revoked
      ((keepsTokens_exec _ after).lookup_revoked (AuthSystem.keyed _) hlookup rfl) rfl
  others := by
    rintro before event after rfl recruiterId hends
    obtain ⟨more, hmore, htokens⟩ := hends.tokens
    have hnew : more.filter (·.recruiterId != recruiterId) = [] := by
      rw [List.filter_eq_nil_iff]
      intro t ht
      simp [hmore t ht]
    rw [Runs.exec_snoc, htokens, List.filter_append, hnew, List.append_nil]
    refine Tables.filter_updateWhere fun t _ howner => ?_
    have hexcluded : (t.recruiterId != recruiterId) = false := by simpa using howner
    exact ⟨hexcluded, hexcluded⟩

end Sessions

section Sample

def sampleSystem : AuthSystem where
  db := loggedIn
  redis _ := none
  keyed := ⟨by decide, by decide, by decide⟩

/-- A rotation of the token that was issued at the login, and then another login. -/
def sampleLogins : List AuthEvent :=
  [⟨1, true, .refreshToken "issued-at-login" ⟨11, "first-rotation", 1⟩ ⟨none, none⟩⟩,
    ⟨2, true, .login "Ada@acme.example" "secret" ⟨12, "second-login", 2⟩ ⟨none, none⟩⟩]

theorem one_live_session_sample :
    let _ : Runtime := .ascii
    let _ : AuthRuntime := sampleAuth
    LiveSessions sampleSystem sampleLogins ∧
      (Runs.exec authService sampleSystem sampleLogins).db.recruiterTokens.map (·.isRevoked) =
        [true, true, false] := by
  let _ : Runtime := .ascii
  let _ : AuthRuntime := sampleAuth
  refine ⟨one_live_session sampleSystem (fun recruiterId => ?_) sampleLogins, by decide +kernel⟩
  exact (List.length_filter_le _ _).trans_eq rfl

end Sample

end IBotCoreApi
