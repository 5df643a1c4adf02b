import IBotCoreApi.Database
import IBotCoreApi.Library.Interleavings

namespace IBotCoreApi
open Python Transactions

/-- A row of `recruiters`, with the columns of an account. -/
structure RecruiterAccount extends Recruiter where
  email : String
  hashedPassword : String
  isActive : Bool

/-- A row of `recruiter_tokens`. -/
structure RecruiterToken where
  id : Uuid
  recruiterId : Uuid
  tokenHash : String
  expiresAt : Time
  isRevoked : Bool
  userAgent : Option String
  ipAddress : Option String

def RecruiterToken.keys (t : RecruiterToken) : Uuid × String := (t.id, t.tokenHash)

def RecruiterAccount.keys (r : RecruiterAccount) : Uuid × String := (r.id, r.email)

structure AuthDatabase where
  recruiters : List RecruiterAccount
  recruiterTokens : List RecruiterToken

inductive AuthException where
  | invalidCredentials
  | inactiveAccount
  | invalidRefreshToken
  | expiredRefreshToken
  | inactiveOrMissingRecruiter
  | passwordResetUnavailable
  | otpExpired
  | invalidOtp
  | recruiterNotFound
  | emailAlreadyRegistered
  | accountNotFound
  | inactiveAccountOperation
  | otpStillActive
  /-- The mail service failed. -/
  | otpNotDelivered
  /-- A unique or foreign-key constraint refused the statement. -/
  | integrityError
deriving DecidableEq

/-- The libraries that the service calls. -/
class AuthRuntime where
  /-- `hashlib.sha256(text.encode("utf-8")).hexdigest()`. -/
  sha256 : String → String
  /-- `password_context.verify`. -/
  verifyPassword : String → String → Bool
  /-- `create_access_token` of a recruiter's id and e-mail, at an instant, for a lifetime. -/
  createAccessToken : Uuid → String → Time → Time → String

structure TokenResponse where
  accessToken : String
  refreshToken : String
  expiresIn : ℤ

inductive AuthWrite where
  | revoke (tokenHash : String)
  | insertToken (token : RecruiterToken)
  | setPassword (email hashedPassword : String)

/-- What the service does outside its transaction. -/
inductive AuthEffect where
  | deleteOtp (redisKey : String)
  | passwordReseted (recruiterId : Uuid) (email : String)

/-- A request of the service: the token hashes it reads, and the tokens it answers with. -/
abbrev AuthProgram :=
  Program AuthDatabase AuthWrite String AuthEffect AuthException (Option TokenResponse)

namespace AuthRepository

def getRecruiterByEmail (db : AuthDatabase) (email : String) : Option RecruiterAccount :=
  Tables.lookup (·.email) email db.recruiters

def getRecruiterById (db : AuthDatabase) (recruiterId : Uuid) : Option RecruiterAccount :=
  Tables.lookup (·.id) recruiterId db.recruiters

def getRefreshTokenByHash (db : AuthDatabase) (tokenHash : String) : Option RecruiterToken :=
  Tables.lookup (·.tokenHash) tokenHash db.recruiterTokens

/-- The `SET` of both revocations. -/
def revoked : Tables.Update RecruiterToken.keys where
  set t := { t with isRevoked := true }

def withPassword (hashedPassword : String) : Tables.Update RecruiterAccount.keys where
  set r := { r with hashedPassword := hashedPassword }

/-- The row that `revoke_refresh_token` updates. -/
def revokeRefreshToken (tokenHash : String) (db : AuthDatabase) : List AuthWrite :=
  if (getRefreshTokenByHash db tokenHash).isSome then [.revoke tokenHash] else []

/-- The rows that `revoke_all_recruiter_tokens` updates. -/
def revokeAllRecruiterTokens (recruiterId : Uuid) (db : AuthDatabase) : List AuthWrite :=
  (db.recruiterTokens.filter fun t => t.recruiterId == recruiterId && !t.isRevoked).map
    fun t => .revoke t.tokenHash

/-- The row that `update_password` updates. -/
def updatePassword (email hashedPassword : String) (db : AuthDatabase) : List AuthWrite :=
  if (getRecruiterByEmail db email).isSome then [.setPassword email hashedPassword] else []

end AuthRepository

/-- The tables of the service: their updates, their constraints and their row locks. -/
def authEngine : Engine AuthDatabase AuthWrite AuthException where
  apply db
    | .revoke tokenHash => { db with
        recruiterTokens := Tables.updateWhere (·.tokenHash == tokenHash) AuthRepository.revoked
          db.recruiterTokens }
    | .insertToken token => { db with recruiterTokens := db.recruiterTokens ++ [token] }
    | .setPassword email hashedPassword => { db with
        recruiters := Tables.updateWhere (·.email == email)
          (AuthRepository.withPassword hashedPassword) db.recruiters }
  refuses db
    | .insertToken token =>
      if db.recruiterTokens.any (fun t => t.id == token.id || t.tokenHash == token.tokenHash) ||
          (AuthRepository.getRecruiterById db token.recruiterId).isNone then
        some .integrityError
      else none
    | _ => none
  conflicts
    | .revoke tokenHash, .revoke tokenHash' => tokenHash == tokenHash'
    | .insertToken token, .insertToken token' =>
      token.id == token'.id || token.tokenHash == token'.tokenHash
    | .setPassword email _, .setPassword email' _ => email == email'
    | _, _ => false

namespace AuthService

variable [Runtime] [AuthRuntime]

/-- What issuing a pair of tokens draws and reads: the id of the row, `secrets.token_urlsafe(32)`
and `datetime.now(UTC)`. -/
structure TokenDraws where
  tokenId : Uuid
  rawRefreshToken : String
  issuedAt : Time

structure ClientInfo where
  userAgent : Option String
  ipAddress : Option String

/-- The end of `login` and of `refresh_token`: a new pair of tokens. -/
def issueTokens (recruiter : RecruiterAccount) (draws : TokenDraws) (client : ClientInfo) :
    AuthProgram :=
  .write (.insertToken {
      id := draws.tokenId
      recruiterId := recruiter.id
      tokenHash := AuthRuntime.sha256 draws.rawRefreshToken
      expiresAt := draws.issuedAt + 7 * (24 * Time.hour)
      isRevoked := false
      userAgent := client.userAgent
      ipAddress := client.ipAddress }) <|
  .finish (some {
    accessToken := AuthRuntime.createAccessToken recruiter.id recruiter.email draws.issuedAt
      (15 * Time.minute)
    refreshToken := draws.rawRefreshToken
    expiresIn := 15 * 60 })

def login (email password : String) (draws : TokenDraws) (client : ClientInfo) : AuthProgram :=
  .select [] (AuthRepository.getRecruiterByEmail · (Runtime.lower email)) fun
    | none => .raise .invalidCredentials
    | some recruiter =>
      if !AuthRuntime.verifyPassword password recruiter.hashedPassword then
        .raise .invalidCredentials
      else if !recruiter.isActive then .raise .inactiveAccount
      else
        .statement [] (AuthRepository.revokeAllRecruiterTokens recruiter.id) fun _ =>
          issueTokens recruiter draws client

def refreshToken (token : String) (now : Time) (draws : TokenDraws) (client : ClientInfo) :
    AuthProgram :=
  let tokenHash := AuthRuntime.sha256 token
  .select [tokenHash] (AuthRepository.getRefreshTokenByHash · tokenHash) fun
    | none => .raise .invalidRefreshToken
    | some stored =>
      if stored.isRevoked then .raise .invalidRefreshToken
      else if stored.expiresAt < now then .raise .expiredRefreshToken
      else
        .select [] (AuthRepository.getRecruiterById · stored.recruiterId) fun
          | none => .raise .inactiveOrMissingRecruiter
          | some recruiter =>
            if !recruiter.isActive then .raise .inactiveOrMissingRecruiter
            else
              .statement [] (AuthRepository.revokeRefreshToken tokenHash) fun _ =>
                issueTokens recruiter draws client

def logout (token : String) : AuthProgram :=
  .statement [] (AuthRepository.revokeRefreshToken (AuthRuntime.sha256 token)) fun _ =>
    .finish none

/-- `{"otp": …, "new_password_hash": …}`. -/
structure OtpRecord where
  otp : String
  newPasswordHash : String

/-- What Redis answers: there is no client, no value, or the stored record. -/
inductive RedisAnswer where
  | unavailable
  | missing
  | stored (record : OtpRecord)

def verifyOtp (email otp : String) (answer : RedisAnswer) : AuthProgram :=
  let normalizedEmail := Runtime.lower email
  match answer with
  | .unavailable => .raise .passwordResetUnavailable
  | .missing => .raise .otpExpired
  | .stored record =>
    if record.otp ≠ otp then .raise .invalidOtp
    else
      .statement [] (AuthRepository.updatePassword normalizedEmail record.newPasswordHash) fun db =>
        if (AuthRepository.getRecruiterByEmail db normalizedEmail).isNone then
          .raise .recruiterNotFound
        else
          .emit (.deleteOtp ("otp:" ++ normalizedEmail)) <|
          .select [] (AuthRepository.getRecruiterByEmail · normalizedEmail) fun
            | none => .finish none
            | some recruiter =>
              .statement [] (AuthRepository.revokeAllRecruiterTokens recruiter.id) fun _ =>
                .emit (.passwordReseted recruiter.id normalizedEmail) (.finish none)

end AuthService

inductive AuthRequest where
  | login (email password : String) (draws : AuthService.TokenDraws)
      (client : AuthService.ClientInfo)
  | refreshToken (token : String) (now : Time) (draws : AuthService.TokenDraws)
      (client : AuthService.ClientInfo)
  | logout (token : String)
  | verifyOtp (email otp : String) (answer : AuthService.RedisAnswer)

def AuthRequest.program [Runtime] [AuthRuntime] : AuthRequest → AuthProgram
  | .login email password draws client => AuthService.login email password draws client
  | .refreshToken token now draws client => AuthService.refreshToken token now draws client
  | .logout token => AuthService.logout token
  | .verifyOtp email otp answer => AuthService.verifyOtp email otp answer

end IBotCoreApi
