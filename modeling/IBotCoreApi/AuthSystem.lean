import IBotCoreApi.AuthService
import IBotCoreApi.Library.Effects
import IBotCoreApi.Library.Runs

namespace IBotCoreApi
open Python Transactions AuthRepository

structure OtpEntry where
  record : AuthService.OtpRecord
  expiresAt : Time

/-- The keys that have been set and not been deleted, live or expired. -/
abbrev Redis := String → Option OtpEntry

namespace Redis

def get (redis : Redis) (now : Time) (key : String) : Option AuthService.OtpRecord :=
  ((redis key).filter (now < ·.expiresAt)).map (·.record)

/-- `SET key value EX seconds`. -/
def setEx (redis : Redis) (now : Time) (key : String) (record : AuthService.OtpRecord)
    (seconds : ℤ) : Redis :=
  Function.update redis key (some ⟨record, now + seconds * Time.second⟩)

def delete (redis : Redis) (key : String) : Redis := Function.update redis key none

end Redis

namespace AuthService

variable [Runtime]

def otpTtlSeconds : ℤ := 60

/-- `f"otp:{normalized_email}"`. -/
def otpKey (email : String) : String := "otp:" ++ Runtime.lower email

def registerRecruiter (email hashedPassword companyName : String) (newId : Uuid)
    (db : AuthDatabase) : Except AuthException (RecruiterAccount × AuthDatabase) :=
  let normalizedEmail := Runtime.lower email
  match getRecruiterByEmail db normalizedEmail with
  | some _ => .error .emailAlreadyRegistered
  | none =>
    if (getRecruiterById db newId).isSome then .error .integrityError
    else
      let recruiter : RecruiterAccount := {
        id := newId
        companyName := companyName
        email := normalizedEmail
        hashedPassword := hashedPassword
        isActive := true }
      .ok (recruiter, { db with recruiters := db.recruiters ++ [recruiter] })

/-- What a request for a one-time password draws: `hash_password(new_password)`, the code, and
whether the mail service takes the message. -/
structure OtpDraws where
  newPasswordHash : String
  otp : String
  delivered : Bool

/-- The end of `initiate_password_reset` and of `resend_otp`.  The code is stored before its message
is sent. -/
def sendOtp (email : String) (draws : OtpDraws) (now : Time) (db : AuthDatabase) (redis : Redis) :
    Except AuthException Unit × Redis :=
  match getRecruiterByEmail db (Runtime.lower email) with
  | none => (.error .accountNotFound, redis)
  | some recruiter =>
    if !recruiter.isActive then (.error .inactiveAccountOperation, redis)
    else
      let stored := redis.setEx now (otpKey email) ⟨draws.otp, draws.newPasswordHash⟩ otpTtlSeconds
      (if draws.delivered then .ok () else .error .otpNotDelivered, stored)

def initiatePasswordReset (redisClient : Bool) (email : String) (draws : OtpDraws) (now : Time)
    (db : AuthDatabase) (redis : Redis) : Except AuthException Unit × Redis :=
  if !redisClient then (.error .passwordResetUnavailable, redis)
  else sendOtp email draws now db redis

def resendOtp (redisClient : Bool) (email : String) (draws : OtpDraws) (now : Time)
    (db : AuthDatabase) (redis : Redis) : Except AuthException Unit × Redis :=
  if !redisClient then (.error .passwordResetUnavailable, redis)
  else if (redis.get now (otpKey email)).isSome then (.error .otpStillActive, redis)
  else sendOtp email draws now db redis

/-- What `verify_otp` reads from Redis. -/
def redisAnswer (redisClient : Bool) (email : String) (now : Time) (redis : Redis) : RedisAnswer :=
  if !redisClient then .unavailable
  else
    match redis.get now (otpKey email) with
    | none => .missing
    | some record => .stored record

end AuthService

inductive AuthCall where
  | registerRecruiter (email hashedPassword companyName : String) (newId : Uuid)
  | login (email password : String) (draws : AuthService.TokenDraws)
      (client : AuthService.ClientInfo)
  | refreshToken (token : String) (draws : AuthService.TokenDraws)
      (client : AuthService.ClientInfo)
  | logout (token : String)
  | initiatePasswordReset (email : String) (draws : AuthService.OtpDraws)
  | resendOtp (email : String) (draws : AuthService.OtpDraws)
  | verifyOtp (email otp : String)

/-- A request at an instant, with or without a Redis client. -/
structure AuthEvent where
  now : Time
  redisClient : Bool
  call : AuthCall

inductive AuthAnswer where
  | recruiter (recruiter : RecruiterAccount)
  | tokens (response : TokenResponse)
  | done

theorem AuthService.registerRecruiter_eq_ok [Runtime] {db db' : AuthDatabase}
    {email hashedPassword companyName : String} {newId : Uuid} {recruiter : RecruiterAccount}
    (h : AuthService.registerRecruiter email hashedPassword companyName newId db =
      .ok (recruiter, db')) :
    getRecruiterByEmail db (Runtime.lower email) = none ∧ getRecruiterById db newId = none ∧
      recruiter = ⟨⟨newId, companyName⟩, Runtime.lower email, hashedPassword, true⟩ ∧
      db' = { db with recruiters := db.recruiters ++ [recruiter] } := by
  unfold AuthService.registerRecruiter at h
  cases hfound : getRecruiterByEmail db (Runtime.lower email) with
  | some => simp [hfound] at h
  | none =>
    cases hid : getRecruiterById db newId with
    | some => simp [hfound, hid] at h
    | none =>
      simp only [hfound, hid, Option.isSome_none, Bool.false_eq_true, if_false] at h
      cases h
      exact ⟨rfl, rfl, rfl, rfl⟩

/-- The primary keys, the unique e-mail and the unique token hash. -/
structure AuthDatabase.Keyed (db : AuthDatabase) : Prop where
  recruiterIds : (db.recruiters.map (·.id)).Nodup
  emails : (db.recruiters.map (·.email)).Nodup
  tokenHashes : (db.recruiterTokens.map (·.tokenHash)).Nodup

namespace AuthDatabase.Keyed

variable {db : AuthDatabase}

theorem insertToken (h : db.Keyed) {token : RecruiterToken}
    (hw : authEngine.refuses db (.insertToken token) = none) :
    (authEngine.apply db (.insertToken token)).Keyed where
  recruiterIds := h.recruiterIds
  emails := h.emails
  tokenHashes := by
    refine Tables.nodup_map_append h.tokenHashes ?_
    intro t ht
    have hfree : ∀ t ∈ db.recruiterTokens, t.id ≠ token.id ∧ t.tokenHash ≠ token.tokenHash := by
      simp [authEngine] at hw
      exact hw.1
    exact (hfree t ht).2

theorem apply (h : db.Keyed) {w : AuthWrite} (hw : authEngine.refuses db w = none) :
    (authEngine.apply db w).Keyed := by
  cases w with
  | revoke tokenHash =>
    refine ⟨h.recruiterIds, h.emails, ?_⟩
    have hhashes : (Tables.updateWhere (·.tokenHash == tokenHash) revoked db.recruiterTokens).map
        (·.tokenHash) = db.recruiterTokens.map (·.tokenHash) :=
      Tables.map_proj_updateWhere revoked Prod.snd db.recruiterTokens
    exact hhashes ▸ h.tokenHashes
  | insertToken token => exact h.insertToken hw
  | setPassword email hashedPassword =>
    let u := withPassword hashedPassword
    have hids : (Tables.updateWhere (·.email == email) u db.recruiters).map (·.id) =
      db.recruiters.map (·.id) := Tables.map_proj_updateWhere u Prod.fst db.recruiters
    have hemails : (Tables.updateWhere (·.email == email) u db.recruiters).map (·.email) =
      db.recruiters.map (·.email) := Tables.map_proj_updateWhere u Prod.snd db.recruiters
    exact ⟨hids ▸ h.recruiterIds, hemails ▸ h.emails, h.tokenHashes⟩

theorem registerRecruiter [Runtime] (h : db.Keyed) {email hashedPassword companyName : String}
    {newId : Uuid} {recruiter : RecruiterAccount} {db' : AuthDatabase}
    (hrun : AuthService.registerRecruiter email hashedPassword companyName newId db =
      .ok (recruiter, db')) : db'.Keyed := by
  obtain ⟨hfound, hid, rfl, rfl⟩ := AuthService.registerRecruiter_eq_ok hrun
  refine ⟨?_, ?_, h.tokenHashes⟩
  · refine Tables.nodup_map_append h.recruiterIds ?_
    intro r hr
    have hne := Tables.key_ne_of_lookup_eq_none hid hr
    exact hne
  · refine Tables.nodup_map_append h.emails ?_
    intro r hr
    exact Tables.key_ne_of_lookup_eq_none hfound hr

end AuthDatabase.Keyed

structure AuthSystem where
  db : AuthDatabase
  redis : Redis
  keyed : db.Keyed

namespace AuthSystem

variable [Runtime] [AuthRuntime]

def onRedis (redis : Redis) : AuthEffect → Redis
  | .deleteOtp redisKey => redis.delete redisKey
  | .passwordReseted _ _ => redis

def answer : Option TokenResponse → AuthAnswer
  | none => .done
  | some response => .tokens response

/-- A request in its own transaction.  What it does to Redis stays when the transaction fails. -/
def transact (system : AuthSystem) (p : AuthProgram) :
    Except AuthException AuthAnswer × AuthSystem :=
  let redis := (p.emitted authEngine system.db).foldl onRedis system.redis
  match hrun : p.execute authEngine system.db with
  | .error exception => (.error exception, { system with redis := redis })
  | .ok (result, db) => (.ok (answer result), ⟨db, redis, Program.execute_invariant
      AuthDatabase.Keyed (fun _ _ hw hs => hs.apply hw) hrun system.keyed⟩)

def register (system : AuthSystem) (email hashedPassword companyName : String) (newId : Uuid) :
    Except AuthException AuthAnswer × AuthSystem :=
  match hrun : AuthService.registerRecruiter email hashedPassword companyName newId system.db with
  | .error exception => (.error exception, system)
  | .ok (recruiter, db) =>
    (.ok (.recruiter recruiter), ⟨db, system.redis, system.keyed.registerRecruiter hrun⟩)

end AuthSystem

variable [Runtime] [AuthRuntime]

def authService : Runs.Machine AuthSystem AuthEvent (Except AuthException AuthAnswer) :=
  fun system event =>
    match event.call with
    | .registerRecruiter email hashedPassword companyName newId =>
      system.register email hashedPassword companyName newId
    | .login email password draws client =>
      system.transact (AuthService.login email password draws client)
    | .refreshToken token draws client =>
      system.transact (AuthService.refreshToken token event.now draws client)
    | .logout token => system.transact (AuthService.logout token)
    | .initiatePasswordReset email draws =>
      let (result, redis) := AuthService.initiatePasswordReset event.redisClient email draws
        event.now system.db system.redis
      (result.map fun _ => .done, { system with redis := redis })
    | .resendOtp email draws =>
      let (result, redis) := AuthService.resendOtp event.redisClient email draws event.now
        system.db system.redis
      (result.map fun _ => .done, { system with redis := redis })
    | .verifyOtp email otp =>
      system.transact (AuthService.verifyOtp email otp
        (AuthService.redisAnswer event.redisClient email event.now system.redis))

end IBotCoreApi
