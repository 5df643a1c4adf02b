import IBotCoreApi.AuthSystem
import IBotCoreApi.Library.Outcomes

namespace IBotCoreApi
open Python Transactions AuthRepository AuthService

/-- `UPDATE recruiter_tokens SET is_revoked = true WHERE p`. -/
def revokeWhere (p : RecruiterToken → Bool) (tokens : List RecruiterToken) : List RecruiterToken :=
  Tables.updateWhere p revoked tokens

section Revocations

variable {db : AuthDatabase} {p q : RecruiterToken → Bool} {tokens : List RecruiterToken}

theorem set_of_revoked {t : RecruiterToken} (hrevoked : t.isRevoked = true) :
    revoked.set t = t := by
  obtain ⟨id, recruiterId, tokenHash, expiresAt, isRevoked, userAgent, ipAddress⟩ := t
  cases hrevoked
  rfl

theorem revokeWhere_congr (h : ∀ t ∈ tokens, t.isRevoked = false → p t = q t) :
    revokeWhere p tokens = revokeWhere q tokens := by
  apply List.map_congr_left
  intro t ht
  cases hrevoked : t.isRevoked with
  | false =>
    have hsame := h t ht hrevoked
    simp only [Tables.Update.onRow, hsame]
  | true => simp only [Tables.Update.onRow, set_of_revoked hrevoked, ite_self]

theorem applyAll_revoke (hashes : List String) :
    authEngine.applyAll db (hashes.map .revoke) = { db with
      recruiterTokens := revokeWhere (fun t => hashes.contains t.tokenHash) db.recruiterTokens } := by
  induction hashes generalizing db with
  | nil =>
    have hnone : revokeWhere (fun t => [].contains t.tokenHash) db.recruiterTokens =
      db.recruiterTokens := Tables.updateWhere_of_forall_not fun _ _ => rfl
    rw [hnone]
    rfl
  | cons tokenHash hashes ih =>
    rw [List.map_cons, Engine.applyAll_cons, ih]
    simp only [authEngine, revokeWhere, Tables.updateWhere, List.map_map]
    congr 1
    apply List.map_congr_left
    intro t _
    rw [Function.comp_apply]
    cases hhead : t.tokenHash == tokenHash with
    | false =>
      simp only [Tables.Update.onRow, List.contains_cons, hhead, Bool.false_eq_true, if_false,
        Bool.false_or]
    | true =>
      simp only [Tables.Update.onRow, revoked, List.contains_cons, hhead, Bool.true_or, if_true,
        ite_self]

theorem refusal_revoke (hashes : List String) :
    authEngine.refusal db (hashes.map .revoke) = none := by
  apply Engine.refusal_of_forall
  intro s w hw
  obtain ⟨tokenHash, _, rfl⟩ := List.mem_map.mp hw
  rfl

theorem revokeAllRecruiterTokens_eq (recruiterId : Uuid) :
    revokeAllRecruiterTokens recruiterId db =
      ((db.recruiterTokens.filter fun t => t.recruiterId == recruiterId && !t.isRevoked).map
        (·.tokenHash)).map .revoke := by
  rw [revokeAllRecruiterTokens, List.map_map]
  rfl

theorem applyAll_revokeAllRecruiterTokens (h : db.Keyed) (recruiterId : Uuid) :
    authEngine.applyAll db (revokeAllRecruiterTokens recruiterId db) = { db with
      recruiterTokens := revokeWhere (·.recruiterId == recruiterId) db.recruiterTokens } := by
  rw [revokeAllRecruiterTokens_eq, applyAll_revoke]
  congr 1
  apply revokeWhere_congr
  intro t ht hlive
  rw [Bool.eq_iff_iff, List.contains_iff_mem, List.mem_map]
  constructor
  · rintro ⟨t', ht', hhash⟩
    obtain ⟨hmem, howner⟩ := List.mem_filter.mp ht'
    rw [List.inj_on_of_nodup_map h.tokenHashes hmem ht hhash] at howner
    simp only [Bool.and_eq_true] at howner
    exact howner.1
  · intro howner
    exact ⟨t, List.mem_filter.mpr ⟨ht, by simpa [hlive] using howner⟩, rfl⟩

theorem refusal_revokeRefreshToken {tokenHash : String} :
    authEngine.refusal db (revokeRefreshToken tokenHash db) = none := by
  unfold revokeRefreshToken
  split
  · exact refusal_revoke [tokenHash]
  · rfl

theorem applyAll_revokeRefreshToken (tokenHash : String) :
    authEngine.applyAll db (revokeRefreshToken tokenHash db) = { db with
      recruiterTokens := revokeWhere (·.tokenHash == tokenHash) db.recruiterTokens } := by
  unfold revokeRefreshToken
  cases hfound : getRefreshTokenByHash db tokenHash with
  | some => rfl
  | none =>
    have hnone : revokeWhere (·.tokenHash == tokenHash) db.recruiterTokens = db.recruiterTokens :=
      Tables.updateWhere_of_forall_not fun t ht => by
        simpa using Tables.key_ne_of_lookup_eq_none hfound ht
    rw [hnone]
    rfl

end Revocations

section Programs

variable [Runtime] [AuthRuntime] {db db' : AuthDatabase} {result : Option TokenResponse}

/-- The row that `create_refresh_token` inserts. -/
def newToken (recruiter : RecruiterAccount) (draws : TokenDraws) (client : ClientInfo) :
    RecruiterToken where
  id := draws.tokenId
  recruiterId := recruiter.id
  tokenHash := AuthRuntime.sha256 draws.rawRefreshToken
  expiresAt := draws.issuedAt + 7 * (24 * Time.hour)
  isRevoked := false
  userAgent := client.userAgent
  ipAddress := client.ipAddress

def tokenPair (recruiter : RecruiterAccount) (draws : TokenDraws) : TokenResponse where
  accessToken := AuthRuntime.createAccessToken recruiter.id recruiter.email draws.issuedAt
    (15 * Time.minute)
  refreshToken := draws.rawRefreshToken
  expiresIn := 15 * 60

omit [Runtime] in
theorem issueTokens_execute {recruiter : RecruiterAccount} {draws : TokenDraws}
    {client : ClientInfo} :
    (issueTokens recruiter draws client).execute authEngine db = .ok (result, db') ↔
      authEngine.refuses db (.insertToken (newToken recruiter draws client)) = none ∧
        result = some (tokenPair recruiter draws) ∧ db' = { db with
          recruiterTokens := db.recruiterTokens ++ [newToken recruiter draws client] } := by
  unfold issueTokens
  rw [Program.execute_write]
  change Except.bind (authEngine.accept db (.insertToken (newToken recruiter draws client))) _ = _ ↔ _
  unfold Engine.accept
  cases authEngine.refuses db (.insertToken (newToken recruiter draws client)) with
  | some exception => simp [Except.bind]
  | none =>
    simp only [Except.bind, Program.execute, Except.ok.injEq, Prod.mk.injEq, true_and]
    exact and_congr eq_comm eq_comm

theorem login_execute (hdb : db.Keyed) {email password : String} {draws : TokenDraws}
    {client : ClientInfo}
    (h : (login email password draws client).execute authEngine db = .ok (result, db')) :
    ∃ recruiter, getRecruiterByEmail db (Runtime.lower email) = some recruiter ∧
      result = some (tokenPair recruiter draws) ∧ db' = { db with
        recruiterTokens := revokeWhere (·.recruiterId == recruiter.id) db.recruiterTokens ++
          [newToken recruiter draws client] } := by
  unfold login at h
  rw [Program.execute_select] at h
  cases hfound : getRecruiterByEmail db (Runtime.lower email) with
  | none =>
    rw [hfound] at h
    cases h
  | some recruiter =>
    rw [hfound] at h
    dsimp only at h
    split at h
    · cases h
    · split at h
      · cases h
      · have haccepted : authEngine.refusal db (revokeAllRecruiterTokens recruiter.id db) = none :=
          revokeAllRecruiterTokens_eq recruiter.id ▸ refusal_revoke _
        rw [Program.execute_statement haccepted, applyAll_revokeAllRecruiterTokens hdb,
          issueTokens_execute] at h
        exact ⟨recruiter, rfl, h.2⟩

omit [Runtime] in
/-- When `refresh_token` returns, and what it leaves. -/
theorem refreshToken_execute {token : String} {now : Time} {draws : TokenDraws}
    {client : ClientInfo} :
    (refreshToken token now draws client).execute authEngine db = .ok (result, db') ↔
      ∃ stored recruiter, getRefreshTokenByHash db (AuthRuntime.sha256 token) = some stored ∧
        stored.isRevoked = false ∧ now ≤ stored.expiresAt ∧
        getRecruiterById db stored.recruiterId = some recruiter ∧ recruiter.isActive = true ∧
        let exchanged : AuthDatabase := { db with
          recruiterTokens := revokeWhere (·.tokenHash == AuthRuntime.sha256 token)
            db.recruiterTokens }
        authEngine.refuses exchanged (.insertToken (newToken recruiter draws client)) = none ∧
          result = some (tokenPair recruiter draws) ∧ db' = { exchanged with
            recruiterTokens := exchanged.recruiterTokens ++ [newToken recruiter draws client] } := by
  unfold refreshToken
  rw [Program.execute_select]
  cases hstored : getRefreshTokenByHash db (AuthRuntime.sha256 token) with
  | none => simp [Program.execute]
  | some stored =>
    dsimp only
    cases hrevoked : stored.isRevoked with
    | true => simp [Program.execute, hrevoked]
    | false =>
      rw [if_neg Bool.false_ne_true]
      by_cases hexpired : stored.expiresAt < now
      · rw [if_pos hexpired]
        simp [Program.execute, hexpired]
      · rw [if_neg hexpired, Program.execute_select]
        cases hrecruiter : getRecruiterById db stored.recruiterId with
        | none => simp [Program.execute, hrecruiter]
        | some recruiter =>
          dsimp only
          cases hactive : recruiter.isActive with
          | false => simp [Program.execute, hrecruiter, hactive]
          | true =>
            rw [if_neg (by simp), Program.execute_statement refusal_revokeRefreshToken,
              applyAll_revokeRefreshToken, issueTokens_execute]
            simp [hrevoked, not_lt.mp hexpired, hrecruiter, hactive]

omit [Runtime] in
theorem logout_execute {token : String} :
    (logout token).execute authEngine db = .ok (none, { db with
      recruiterTokens := revokeWhere (·.tokenHash == AuthRuntime.sha256 token)
        db.recruiterTokens }) := by
  unfold logout
  rw [Program.execute_statement refusal_revokeRefreshToken, applyAll_revokeRefreshToken]
  rfl

def resetPassword (email newPasswordHash : String) (recruiterId : Uuid) (db : AuthDatabase) :
    AuthDatabase where
  recruiters := Tables.updateWhere (·.email == email) (withPassword newPasswordHash) db.recruiters
  recruiterTokens := revokeWhere (·.recruiterId == recruiterId) db.recruiterTokens

omit [AuthRuntime] in
/-- When `verify_otp` succeeds, what it leaves and what it does to Redis. -/
theorem verifyOtp_execute (hdb : db.Keyed) (email otp : String) (record : OtpRecord) :
    ((verifyOtp email otp (.stored record)).execute authEngine db = .error .invalidOtp ∧
        (verifyOtp email otp (.stored record)).emitted authEngine db = []) ∨
      ((verifyOtp email otp (.stored record)).execute authEngine db = .error .recruiterNotFound ∧
        (verifyOtp email otp (.stored record)).emitted authEngine db = []) ∨
      ∃ recruiter, record.otp = otp ∧
        getRecruiterByEmail db (Runtime.lower email) = some recruiter ∧
        (verifyOtp email otp (.stored record)).execute authEngine db = .ok (none,
          resetPassword (Runtime.lower email) record.newPasswordHash recruiter.id db) ∧
        (verifyOtp email otp (.stored record)).emitted authEngine db =
          [.deleteOtp (otpKey email), .passwordReseted recruiter.id (Runtime.lower email)] := by
  unfold verifyOtp
  by_cases hotp : record.otp = otp
  · right
    simp only [hotp, ne_eq, not_true_eq_false, if_false]
    cases hfound : getRecruiterByEmail db (Runtime.lower email) with
    | none =>
      left
      have hnone : updatePassword (Runtime.lower email) record.newPasswordHash db = [] := by
        simp [updatePassword, hfound]
      simp [Program.execute, Program.emitted, hnone, hfound, Engine.refusal]
    | some recruiter =>
      right
      have hset : updatePassword (Runtime.lower email) record.newPasswordHash db =
          [.setPassword (Runtime.lower email) record.newPasswordHash] := by
        simp [updatePassword, hfound]
      -- the tables between the two writes get a name, so that no step unfolds the first write
      obtain ⟨named, hdefinition⟩ : ∃ named, named =
        authEngine.apply db (.setPassword (Runtime.lower email) record.newPasswordHash) := ⟨_, rfl⟩
      have hkeyed : named.Keyed := hdefinition ▸ hdb.apply rfl
      obtain ⟨found, hnamed, hid⟩ : ∃ found,
          getRecruiterByEmail named (Runtime.lower email) = some found ∧
            found.id = recruiter.id := by
        have hlookup : getRecruiterByEmail named (Runtime.lower email) =
            (getRecruiterByEmail db (Runtime.lower email)).map
              ((withPassword record.newPasswordHash).onRow (·.email == Runtime.lower email)) :=
          hdefinition ▸ Tables.lookup_updateWhere (withPassword record.newPasswordHash) Prod.snd _
        have hemail : recruiter.email = Runtime.lower email := Tables.lookup_key hfound
        refine ⟨(withPassword record.newPasswordHash).set recruiter, ?_, rfl⟩
        rw [hlookup, hfound, Option.map_some]
        exact congrArg some (Tables.Update.onRow_of_true (by simp [hemail]))
      have haccepted : authEngine.refusal named
          (revokeAllRecruiterTokens recruiter.id named) = none :=
        revokeAllRecruiterTokens_eq recruiter.id ▸ refusal_revoke _
      have hupdate : authEngine.refusal db
          (updatePassword (Runtime.lower email) record.newPasswordHash db) = none := by
        rw [hset]
        rfl
      refine ⟨recruiter, trivial, rfl, ?_, ?_⟩
      · rw [Program.execute_statement hupdate, hset, if_neg (by simp [hfound]),
          Engine.applyAll_cons, Engine.applyAll_nil, ← hdefinition, Program.execute_emit,
          Program.execute_select, hnamed]
        dsimp only
        rw [hid, Program.execute_statement haccepted, applyAll_revokeAllRecruiterTokens hkeyed,
          Program.execute_emit, hdefinition]
        rfl
      · rw [Program.emitted_statement hupdate, hset, if_neg (by simp [hfound]),
          Engine.applyAll_cons, Engine.applyAll_nil, ← hdefinition, Program.emitted_emit,
          Program.emitted_select, hnamed]
        dsimp only
        rw [hid, Program.emitted_statement haccepted, Program.emitted_emit]
        rfl
  · left
    simp only [ne_eq, hotp, not_false_eq_true, if_true]
    exact ⟨rfl, rfl⟩

end Programs

section Silence

variable [Runtime] [AuthRuntime] {db : AuthDatabase} {draws : TokenDraws} {client : ClientInfo}

theorem login_emitted {email password : String} :
    (login email password draws client).emitted authEngine db = [] := by
  apply Program.Silent.emitted
  unfold login
  refine Program.silent_select fun recruiter => ?_
  cases recruiter with
  | none => trivial
  | some recruiter =>
    dsimp only
    split_ifs
    · trivial
    · trivial
    · exact fun _ _ => trivial

omit [Runtime] in
theorem refreshToken_emitted {token : String} {now : Time} :
    (refreshToken token now draws client).emitted authEngine db = [] := by
  apply Program.Silent.emitted
  unfold refreshToken
  refine Program.silent_select fun stored => ?_
  cases stored with
  | none => trivial
  | some stored =>
    dsimp only
    split_ifs
    · trivial
    · trivial
    · refine Program.silent_select fun recruiter => ?_
      cases recruiter with
      | none => trivial
      | some recruiter =>
        dsimp only
        split_ifs
        · trivial
        · exact fun _ _ => trivial

omit [Runtime] in
theorem logout_emitted {token : String} : (logout token).emitted authEngine db = [] := by
  apply Program.Silent.emitted
  exact fun _ => trivial

end Silence

def AuthCall.otpRequest : AuthCall → Option (String × OtpDraws)
  | .initiatePasswordReset email draws | .resendOtp email draws => some (email, draws)
  | _ => none

/-- What a request reads, answers and leaves.  A rejected request leaves everything as it is. -/
inductive AuthStep [Runtime] [AuthRuntime] (system : AuthSystem) (event : AuthEvent) :
    Except AuthException AuthAnswer → AuthDatabase → Redis → Prop
  | rejected {exception : AuthException}
      (hexception : exception = .otpNotDelivered → event.call.otpRequest = none) :
      AuthStep system event (.error exception) system.db system.redis
  | registered {email hashedPassword companyName : String} {newId : Uuid}
      {recruiter : RecruiterAccount}
      (hcall : event.call = .registerRecruiter email hashedPassword companyName newId)
      (hnew : ∀ r ∈ system.db.recruiters, r.id ≠ recruiter.id) :
      AuthStep system event (.ok (.recruiter recruiter))
        { system.db with recruiters := system.db.recruiters ++ [recruiter] } system.redis
  | loggedIn {email password : String} {draws : TokenDraws} {client : ClientInfo}
      {recruiter : RecruiterAccount} (hcall : event.call = .login email password draws client)
      (hfound : getRecruiterByEmail system.db (Runtime.lower email) = some recruiter) :
      AuthStep system event (.ok (.tokens (tokenPair recruiter draws)))
        { system.db with
          recruiterTokens := revokeWhere (·.recruiterId == recruiter.id)
            system.db.recruiterTokens ++ [newToken recruiter draws client] } system.redis
  | refreshed {token : String} {draws : TokenDraws} {client : ClientInfo} {stored : RecruiterToken}
      {recruiter : RecruiterAccount} (hcall : event.call = .refreshToken token draws client)
      (hstored : getRefreshTokenByHash system.db (AuthRuntime.sha256 token) = some stored)
      (hlive : stored.isRevoked = false)
      (hrecruiter : getRecruiterById system.db stored.recruiterId = some recruiter) :
      AuthStep system event (.ok (.tokens (tokenPair recruiter draws)))
        { system.db with
          recruiterTokens := revokeWhere (·.tokenHash == AuthRuntime.sha256 token)
            system.db.recruiterTokens ++ [newToken recruiter draws client] } system.redis
  | loggedOut {token : String} (hcall : event.call = .logout token) :
      AuthStep system event (.ok .done)
        { system.db with
          recruiterTokens := revokeWhere (·.tokenHash == AuthRuntime.sha256 token)
            system.db.recruiterTokens } system.redis
  | otpStored {email : String} {draws : OtpDraws} {output : Except AuthException AuthAnswer}
      {recruiter : RecruiterAccount} (hcall : event.call.otpRequest = some (email, draws))
      (hfound : getRecruiterByEmail system.db (Runtime.lower email) = some recruiter)
      (hactive : recruiter.isActive = true)
      (hresend : event.call = .resendOtp email draws →
        system.redis.get event.now (otpKey email) = none)
      (houtput : output = .ok .done ∨ output = .error .otpNotDelivered) :
      AuthStep system event output system.db
        (system.redis.setEx event.now (otpKey email) ⟨draws.otp, draws.newPasswordHash⟩
          otpTtlSeconds)
  | passwordReset {email : String} {record : OtpRecord} {recruiter : RecruiterAccount}
      (hcall : event.call = .verifyOtp email record.otp)
      (hlive : system.redis.get event.now (otpKey email) = some record)
      (hfound : getRecruiterByEmail system.db (Runtime.lower email) = some recruiter) :
      AuthStep system event (.ok .done)
        (resetPassword (Runtime.lower email) record.newPasswordHash recruiter.id system.db)
        (system.redis.delete (otpKey email))

section Steps

variable [Runtime] [AuthRuntime] {system : AuthSystem} {event : AuthEvent}

/-- A transaction that touches Redis only when it commits. -/
theorem transact_authStep {p : AuthProgram} (hcall : event.call.otpRequest = none)
    (herror : ∀ exception, p.execute authEngine system.db = .error exception →
      p.emitted authEngine system.db = [])
    (hok : ∀ result db', p.execute authEngine system.db = .ok (result, db') →
      AuthStep system event (.ok (AuthSystem.answer result)) db'
        ((p.emitted authEngine system.db).foldl AuthSystem.onRedis system.redis)) :
    AuthStep system event (system.transact p).1 (system.transact p).2.db
      (system.transact p).2.redis := by
  unfold AuthSystem.transact
  dsimp only
  split
  · rename_i exception hrun
    rw [herror exception hrun]
    exact .rejected fun _ => hcall
  · rename_i result db hrun
    exact hok result db hrun

theorem register_step {email hashedPassword companyName : String} {newId : Uuid}
    (hcall : event.call = .registerRecruiter email hashedPassword companyName newId) :
    AuthStep system event (system.register email hashedPassword companyName newId).1
      (system.register email hashedPassword companyName newId).2.db
      (system.register email hashedPassword companyName newId).2.redis := by
  unfold AuthSystem.register
  split
  · refine .rejected fun _ => ?_
    rw [hcall]
    rfl
  · rename_i recruiter db hrun
    obtain ⟨_, hid, rfl, rfl⟩ := registerRecruiter_eq_ok hrun
    refine .registered hcall fun r hr => ?_
    have hne := Tables.key_ne_of_lookup_eq_none hid hr
    exact hne

theorem sendOtp_step {email : String} {draws : OtpDraws}
    (hcall : event.call.otpRequest = some (email, draws))
    (hresend : event.call = .resendOtp email draws →
      system.redis.get event.now (otpKey email) = none) :
    AuthStep system event
      ((sendOtp email draws event.now system.db system.redis).1.map fun _ => .done) system.db
      (sendOtp email draws event.now system.db system.redis).2 := by
  unfold sendOtp
  cases hfound : getRecruiterByEmail system.db (Runtime.lower email) with
  | none => exact .rejected (by simp)
  | some recruiter =>
    dsimp only
    split
    · exact .rejected (by simp)
    · rename_i hactive
      refine .otpStored hcall hfound (by simpa using hactive) hresend ?_
      cases draws.delivered with
      | true => exact .inl rfl
      | false => exact .inr rfl

theorem initiatePasswordReset_step {email : String} {draws : OtpDraws}
    (hcall : event.call = .initiatePasswordReset email draws) :
    AuthStep system event
      ((initiatePasswordReset event.redisClient email draws event.now system.db
        system.redis).1.map fun _ => .done) system.db
      (initiatePasswordReset event.redisClient email draws event.now system.db system.redis).2 := by
  unfold initiatePasswordReset
  split
  · exact .rejected (by simp)
  · refine sendOtp_step ?_ (by simp [hcall])
    rw [hcall]
    rfl

theorem resendOtp_step {email : String} {draws : OtpDraws}
    (hcall : event.call = .resendOtp email draws) :
    AuthStep system event
      ((resendOtp event.redisClient email draws event.now system.db system.redis).1.map
        fun _ => .done) system.db
      (resendOtp event.redisClient email draws event.now system.db system.redis).2 := by
  unfold resendOtp
  split
  · exact .rejected (by simp)
  · split
    · exact .rejected (by simp)
    · rename_i hnone
      refine sendOtp_step ?_ fun _ => by simpa using hnone
      rw [hcall]
      rfl

theorem verifyOtp_step {email otp : String} (hcall : event.call = .verifyOtp email otp) :
    AuthStep system event
      (system.transact (verifyOtp email otp
        (redisAnswer event.redisClient email event.now system.redis))).1
      (system.transact (verifyOtp email otp
        (redisAnswer event.redisClient email event.now system.redis))).2.db
      (system.transact (verifyOtp email otp
        (redisAnswer event.redisClient email event.now system.redis))).2.redis := by
  have hrequest : event.call.otpRequest = none := by rw [hcall]; rfl
  unfold redisAnswer
  split
  · exact transact_authStep hrequest (fun _ _ => rfl) (fun _ _ hrun => nomatch hrun)
  · cases hget : system.redis.get event.now (otpKey email) with
    | none => exact transact_authStep hrequest (fun _ _ => rfl) (fun _ _ hrun => nomatch hrun)
    | some record =>
      rcases verifyOtp_execute system.keyed email otp record with ⟨hrun, hemitted⟩ | ⟨hrun, hemitted⟩ |
        ⟨recruiter, rfl, hfound, hrun, hemitted⟩
      · refine transact_authStep hrequest (fun _ _ => hemitted) fun _ _ hrun' => ?_
        cases hrun.symm.trans hrun'
      · refine transact_authStep hrequest (fun _ _ => hemitted) fun _ _ hrun' => ?_
        cases hrun.symm.trans hrun'
      · refine transact_authStep hrequest (fun _ hrun' => ?_) fun _ _ hrun' => ?_
        · cases hrun.symm.trans hrun'
        · cases hrun.symm.trans hrun'
          rw [hemitted]
          exact .passwordReset hcall hget hfound

/-- Every request takes one of these steps. -/
theorem authService_step (system : AuthSystem) (event : AuthEvent) :
    AuthStep system event (authService system event).1 (authService system event).2.db
      (authService system event).2.redis := by
  obtain ⟨now, redisClient, call⟩ := event
  cases call with
  | registerRecruiter => exact register_step rfl
  | login email password draws client =>
    refine transact_authStep rfl (fun _ _ => login_emitted) fun result db' hrun => ?_
    obtain ⟨recruiter, hfound, rfl, rfl⟩ := login_execute system.keyed hrun
    rw [login_emitted]
    exact .loggedIn rfl hfound
  | refreshToken token draws client =>
    refine transact_authStep rfl (fun _ _ => refreshToken_emitted) fun result db' hrun => ?_
    obtain ⟨stored, recruiter, hstored, hlive, _, hrecruiter, _, _, rfl, rfl⟩ :=
      refreshToken_execute.mp hrun
    rw [refreshToken_emitted]
    exact .refreshed rfl hstored hlive hrecruiter
  | logout token =>
    refine transact_authStep rfl (fun _ _ => logout_emitted) fun result db' hrun => ?_
    cases logout_execute.symm.trans hrun
    rw [logout_emitted]
    exact .loggedOut rfl
  | initiatePasswordReset => exact initiatePasswordReset_step rfl
  | resendOtp => exact resendOtp_step rfl
  | verifyOtp email otp => exact verifyOtp_step rfl

end Steps

end IBotCoreApi
