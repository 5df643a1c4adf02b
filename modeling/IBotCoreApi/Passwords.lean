import IBotCoreApi.Library.Pydantic
import IBotCoreApi.LiveSessions

namespace IBotCoreApi
open Python Pydantic Transactions AuthRepository AuthService

/-- What the schemas of the authentication and `passlib` leave to their libraries. -/
class PasswordText where
  /-- `EmailStr`. -/
  emailStr : Validator String
  /-- `str.isupper` of one character. -/
  isUpper : Char → Bool
  /-- `str.isdigit` of one character. -/
  isDigit : Char → Bool
  /-- `\d` of a pattern. -/
  isDecimal : Char → Bool
  /-- `password_context.hash` with the salt that it draws. -/
  hashPassword : Uuid → String → String

/-- The texts that `passlib` takes: it raises for one with a NUL. -/
def hashable (password : String) : Bool := password.toList.all (· != Char.ofNat 0)

/-- A password verifies against each of its hashes. -/
class LawfulPasswords [AuthRuntime] [PasswordText] : Prop where
  verify_hash : ∀ salt password, hashable password = true →
    AuthRuntime.verifyPassword password (PasswordText.hashPassword salt password) = true

structure RecruiterRegisterRequest where
  fullName : String
  email : String
  password : String
  companyName : String

structure LoginRequest where
  email : String
  password : String

/-- The fields of `ForgotPasswordRequest` and of `ResendOTPRequest`. -/
structure NewPasswordRequest where
  email : String
  newPassword : String

structure VerifyOTPRequest where
  email : String
  otp : String

section Schemas

variable [PasswordText]

open PasswordText

def passwordStrength (v : String) : Except String String :=
  if !v.toList.any isUpper then .error "Password must contain at least one uppercase letter."
  else if !v.toList.any isDigit then .error "Password must contain at least one digit."
  else .ok v

def newPassword : Validator String := fun j =>
  (strBetween 8 128 j).bind fun v => (passwordStrength v).toOption

def RecruiterRegisterRequest.modelValidate : Validator RecruiterRegisterRequest
  | .dict d => do
    onlyKeys ["full_name", "email", "password", "company_name"] d
    return {
      fullName := ← required (strBetween 2 120) d "full_name"
      email := ← required emailStr d "email"
      password := ← required newPassword d "password"
      companyName := ← required (strBetween 2 120) d "company_name" }
  | _ => none

def LoginRequest.modelValidate : Validator LoginRequest
  | .dict d => do
    onlyKeys ["email", "password"] d
    return {
      email := ← required emailStr d "email"
      password := ← required (constrained Pydantic.str (1 ≤ ·.length)) d "password" }
  | _ => none

/-- `TokenRefreshRequest` and `LogoutRequest`. -/
def refreshTokenRequest : Validator String
  | .dict d => do
    onlyKeys ["refresh_token"] d
    required Pydantic.str d "refresh_token"
  | _ => none

def newPasswordRequest : Validator NewPasswordRequest
  | .dict d => do
    onlyKeys ["email", "new_password"] d
    return {
      email := ← required emailStr d "email"
      newPassword := ← required newPassword d "new_password" }
  | _ => none

def forgotPasswordRequest : Validator NewPasswordRequest := newPasswordRequest

def resendOtpRequest : Validator NewPasswordRequest := newPasswordRequest

def VerifyOTPRequest.modelValidate : Validator VerifyOTPRequest
  | .dict d => do
    onlyKeys ["email", "otp"] d
    return {
      email := ← required emailStr d "email"
      otp := ← required (constrained (strBetween 4 4) (·.toList.all isDecimal)) d "otp" }
  | _ => none

end Schemas

structure CodeDraws where
  salt : Uuid
  otp : String
  delivered : Bool

inductive AuthRoute where
  | registerRecruiter (salt newId : Uuid)
  | loginRecruiter (draws : TokenDraws) (client : ClientInfo)
  | refreshToken (draws : TokenDraws) (client : ClientInfo)
  | logoutRecruiter
  | forgotPassword (draws : CodeDraws)
  | verifyOtp
  | resendOtp (draws : CodeDraws)

inductive AuthPayload where
  | register (payload : RecruiterRegisterRequest) (salt newId : Uuid)
  | login (payload : LoginRequest) (draws : TokenDraws) (client : ClientInfo)
  | refresh (refreshToken : String) (draws : TokenDraws) (client : ClientInfo)
  | logout (refreshToken : String)
  | forgotPassword (payload : NewPasswordRequest) (draws : CodeDraws)
  | verifyOtp (payload : VerifyOTPRequest)
  | resendOtp (payload : NewPasswordRequest) (draws : CodeDraws)

section Api

variable [PasswordText]

def AuthRoute.payload? (body : Json) : AuthRoute → Option AuthPayload
  | .registerRecruiter salt newId =>
    (RecruiterRegisterRequest.modelValidate body).map fun payload => .register payload salt newId
  | .loginRecruiter draws client =>
    (LoginRequest.modelValidate body).map fun payload => .login payload draws client
  | .refreshToken draws client =>
    (refreshTokenRequest body).map fun refreshToken => .refresh refreshToken draws client
  | .logoutRecruiter => (refreshTokenRequest body).map .logout
  | .forgotPassword draws =>
    (forgotPasswordRequest body).map fun payload => .forgotPassword payload draws
  | .verifyOtp => (VerifyOTPRequest.modelValidate body).map .verifyOtp
  | .resendOtp draws => (resendOtpRequest body).map fun payload => .resendOtp payload draws

/-- The password that a payload gives to `passlib`. -/
def AuthPayload.password? : AuthPayload → Option String
  | .register payload _ _ => some payload.password
  | .login payload _ _ => some payload.password
  | .forgotPassword payload _ | .resendOtp payload _ => some payload.newPassword
  | _ => none

/-- The payloads that are served.  A request whose password cannot be hashed fails before it writes
anything. -/
def AuthRoute.served? (route : AuthRoute) (body : Json) : Option AuthPayload :=
  (route.payload? body).filter fun payload => payload.password?.all hashable

def CodeDraws.otpDraws (draws : CodeDraws) (newPassword : String) : OtpDraws :=
  ⟨PasswordText.hashPassword draws.salt newPassword, draws.otp, draws.delivered⟩

def AuthPayload.call : AuthPayload → AuthCall
  | .register payload salt newId =>
    .registerRecruiter payload.email (PasswordText.hashPassword salt payload.password)
      payload.companyName newId
  | .login payload draws client => .login payload.email payload.password draws client
  | .refresh refreshToken draws client => .refreshToken refreshToken draws client
  | .logout refreshToken => .logout refreshToken
  | .forgotPassword payload draws =>
    .initiatePasswordReset payload.email (draws.otpDraws payload.newPassword)
  | .verifyOtp payload => .verifyOtp payload.email payload.otp
  | .resendOtp payload draws => .resendOtp payload.email (draws.otpDraws payload.newPassword)

end Api

structure AuthHttpRequest where
  now : Time
  redisClient : Bool
  route : AuthRoute
  body : Json

section Machine

variable [Runtime] [AuthRuntime] [PasswordText]

/-- The authentication API: a body that its schema or `passlib` refuses is not served. -/
def authApi : Runs.Machine AuthSystem AuthHttpRequest (Option (Except AuthException AuthAnswer)) :=
  fun system request =>
    match request.route.served? request.body with
    | none => (none, system)
    | some payload =>
      let answered := authService system ⟨request.now, request.redisClient, payload.call⟩
      (some answered.1, answered.2)

end Machine

def emptyAuthSystem : AuthSystem where
  db := ⟨[], []⟩
  redis _ := none
  keyed := ⟨List.nodup_nil, List.nodup_nil, List.nodup_nil⟩

abbrev AuthApiStep :=
  Runs.Transition AuthSystem AuthHttpRequest (Option (Except AuthException AuthAnswer))

/-- The passwords themselves: that of each e-mail, and the one that waits under each key. -/
structure PasswordBook where
  accounts : String → Option String
  codes : String → Option String

namespace PasswordBook

variable [Runtime]

def empty : PasswordBook := ⟨fun _ => none, fun _ => none⟩

/-- A request that stores its code: a message that is not delivered does not take it back. -/
def storeCode (book : PasswordBook) (payload : NewPasswordRequest) :
    Except AuthException AuthAnswer → PasswordBook
  | .ok _ | .error .otpNotDelivered => { book with
      codes := Function.update book.codes (otpKey payload.email) (some payload.newPassword) }
  | .error _ => book

/-- A registration sets a password, and a verified code sets the one that waits for it. -/
def after (book : PasswordBook) (payload : AuthPayload) (answer : Except AuthException AuthAnswer) :
    PasswordBook :=
  match payload, answer with
  | .register payload _ _, .ok _ => { book with
      accounts :=
        Function.update book.accounts (Runtime.lower payload.email) (some payload.password) }
  | .forgotPassword payload _, answer | .resendOtp payload _, answer =>
    book.storeCode payload answer
  | .verifyOtp payload, .ok _ => {
      accounts := Function.update book.accounts (Runtime.lower payload.email)
        (book.codes (otpKey payload.email))
      codes := Function.update book.codes (otpKey payload.email) none }
  | _, _ => book

variable [PasswordText]

def next (book : PasswordBook) (t : AuthApiStep) : PasswordBook :=
  match t.input.route.served? t.input.body, t.output with
  | some payload, some answer => book.after payload answer
  | _, _ => book

def ofTrace (history : List AuthApiStep) : PasswordBook := history.foldl next empty

end PasswordBook

section Admitted

variable [PasswordText] {password : String}

/-- A password that the schema of the account takes as it is, and that has a hash. -/
structure AdmittedPassword (password : String) : Prop where
  validates : newPassword (.str password) = some password
  hashes : hashable password = true

omit [PasswordText] in
theorem strBetween_eq_some {lo hi : ℕ} {j : Json} (h : strBetween lo hi j = some password) :
    strBetween lo hi (.str password) = some password ∧ Trimmed password ∧ lo ≤ password.length := by
  cases j with
  | str s =>
    simp only [strBetween, constrained, Pydantic.str, Option.filter_eq_some_iff,
      Option.some.injEq] at h
    obtain ⟨rfl, hlength⟩ := h
    have htrimmed : trim (trim s) = trim s := trim_trimmed s
    have hbounds : lo ≤ (trim s).length ∧ (trim s).length ≤ hi := by simpa using hlength
    refine ⟨?_, htrimmed, hbounds.1⟩
    simp [strBetween, constrained, Pydantic.str, htrimmed, hbounds]
  | _ => cases h

theorem passwordStrength_eq_ok {v : String} (h : (passwordStrength v).toOption = some password) :
    v = password := by
  unfold passwordStrength at h
  split_ifs at h
  · cases h
  · cases h
  · cases h
    rfl

theorem newPassword_admitted {j : Json} (h : newPassword j = some password) :
    newPassword (.str password) = some password := by
  obtain ⟨v, hlength, hstrength⟩ := Option.bind_eq_some_iff.mp h
  obtain rfl := passwordStrength_eq_ok hstrength
  unfold newPassword
  rw [(strBetween_eq_some hlength).1]
  exact hstrength

/-- The login takes any text that is such a password once it is trimmed. -/
theorem AdmittedPassword.login (h : AdmittedPassword password) {typed : String}
    (htyped : trim typed = password) {email : Json} {e : String}
    (hemail : PasswordText.emailStr email = some e) :
    LoginRequest.modelValidate (.dict [("email", email), ("password", .str typed)]) =
      some ⟨e, password⟩ := by
  obtain ⟨v, hlength, hstrength⟩ := Option.bind_eq_some_iff.mp h.validates
  obtain rfl := passwordStrength_eq_ok hstrength
  obtain ⟨_, _, hmin⟩ := strBetween_eq_some hlength
  have hfield : constrained Pydantic.str (1 ≤ ·.length) (.str typed) = some v := by
    have hnonempty : 1 ≤ v.length := by omega
    rw [constrained, Pydantic.str, htyped, Option.filter_some, if_pos (decide_eq_true hnonempty)]
  simp [LoginRequest.modelValidate, onlyKeys, required, lookup_entry, hemail, hfield]

def AuthPayload.newPassword? : AuthPayload → Option String
  | .register payload _ _ => some payload.password
  | .forgotPassword payload _ | .resendOtp payload _ => some payload.newPassword
  | _ => none

theorem RecruiterRegisterRequest.admitted {body : Json} {payload : RecruiterRegisterRequest}
    (h : RecruiterRegisterRequest.modelValidate body = some payload) :
    newPassword (.str payload.password) = some payload.password := by
  cases body with
  | dict d =>
    simp only [RecruiterRegisterRequest.modelValidate, Option.bind_eq_bind,
      Option.bind_eq_some_iff] at h
    obtain ⟨_, _, _, _, _, _, given, hgiven, _, _, hpayload⟩ := h
    cases hpayload
    obtain ⟨j, _, hj⟩ := Option.bind_eq_some_iff.mp hgiven
    exact newPassword_admitted hj
  | _ => cases h

theorem newPasswordRequest_admitted {body : Json} {payload : NewPasswordRequest}
    (h : newPasswordRequest body = some payload) :
    newPassword (.str payload.newPassword) = some payload.newPassword := by
  cases body with
  | dict d =>
    simp only [newPasswordRequest, Option.bind_eq_bind, Option.bind_eq_some_iff] at h
    obtain ⟨_, _, _, _, given, hgiven, hpayload⟩ := h
    cases hpayload
    obtain ⟨j, _, hj⟩ := Option.bind_eq_some_iff.mp hgiven
    exact newPassword_admitted hj
  | _ => cases h

theorem payload?_admitted {route : AuthRoute} {body : Json} {payload : AuthPayload}
    (h : route.payload? body = some payload) (hpassword : payload.newPassword? = some password) :
    newPassword (.str password) = some password := by
  cases route with
  | registerRecruiter =>
    obtain ⟨request, hrequest, rfl⟩ := Option.map_eq_some_iff.mp h
    cases hpassword
    exact RecruiterRegisterRequest.admitted hrequest
  | forgotPassword | resendOtp =>
    obtain ⟨request, hrequest, rfl⟩ := Option.map_eq_some_iff.mp h
    cases hpassword
    exact newPasswordRequest_admitted hrequest
  | loginRecruiter | refreshToken | logoutRecruiter | verifyOtp =>
    obtain ⟨request, _, rfl⟩ := Option.map_eq_some_iff.mp h
    cases hpassword

theorem served?_admitted {route : AuthRoute} {body : Json} {payload : AuthPayload}
    (h : route.served? body = some payload) (hpassword : payload.newPassword? = some password) :
    AdmittedPassword password := by
  obtain ⟨hpayload, hhashable⟩ := Option.filter_eq_some_iff.mp h
  have hgiven : payload.password? = some password := by
    cases payload with
    | register | forgotPassword | resendOtp => exact hpassword
    | _ => cases hpassword
  rw [hgiven] at hhashable
  exact ⟨payload?_admitted hpayload hpassword, hhashable⟩

end Admitted

section Book

variable [Runtime] [AuthRuntime] [PasswordText]

def Hashed (password : Option String) (hash : String) : Prop :=
  ∃ p salt, password = some p ∧ AdmittedPassword p ∧ hash = PasswordText.hashPassword salt p

structure PasswordBook.Agrees (book : PasswordBook) (db : AuthDatabase) (redis : Redis) : Prop where
  accounts : ∀ r ∈ db.recruiters, Hashed (book.accounts r.email) r.hashedPassword
  codes : ∀ key entry, redis key = some entry → Hashed (book.codes key) entry.record.newPasswordHash

variable {book : PasswordBook} {db : AuthDatabase} {redis : Redis} {system : AuthSystem}
  {now : Time} {redisClient : Bool} {payload : AuthPayload}

omit [AuthRuntime] [PasswordText] in
theorem register_answered {email hashedPassword companyName : String} {newId : Uuid}
    {recruiter : RecruiterAccount}
    (h : (system.register email hashedPassword companyName newId).1 = .ok (.recruiter recruiter)) :
    ∃ db', AuthService.registerRecruiter email hashedPassword companyName newId system.db =
      .ok (recruiter, db') := by
  unfold AuthSystem.register at h
  split at h
  · cases h
  · next hrun =>
    cases h
    exact ⟨_, hrun⟩

namespace PasswordBook.Agrees

omit [Runtime] [AuthRuntime] in
theorem setAccount (h : book.Agrees db redis) {email p : String} {r : RecruiterAccount}
    {salt : Uuid} (hemail : r.email = email) (hfree : ∀ r ∈ db.recruiters, r.email ≠ email)
    (hp : AdmittedPassword p) (hhash : r.hashedPassword = PasswordText.hashPassword salt p)
    {db' : AuthDatabase} (hdb : db'.recruiters = db.recruiters ++ [r]) :
    ({ book with accounts := Function.update book.accounts email (some p) } : PasswordBook).Agrees
      db' redis where
  accounts := by
    intro r' hr'
    rw [hdb] at hr'
    rcases List.mem_append.mp hr' with hold | hnew
    · dsimp only
      rw [Function.update_of_ne (hfree r' hold)]
      exact h.accounts r' hold
    · obtain rfl := List.mem_singleton.mp hnew
      dsimp only
      rw [hemail, Function.update_self]
      exact ⟨p, salt, rfl, hp, hhash⟩
  codes := h.codes

omit [Runtime] [AuthRuntime] in
theorem setCode (h : book.Agrees db redis) {key p : String} {salt : Uuid}
    (hp : AdmittedPassword p) {entry : OtpEntry}
    (hentry : entry.record.newPasswordHash = PasswordText.hashPassword salt p) :
    ({ book with codes := Function.update book.codes key (some p) } : PasswordBook).Agrees db
      (Function.update redis key (some entry)) where
  accounts := h.accounts
  codes := by
    intro key' entry' hentry'
    by_cases hkey : key' = key
    · subst hkey
      rw [Function.update_self] at hentry'
      cases hentry'
      dsimp only
      rw [Function.update_self]
      exact ⟨p, salt, rfl, hp, hentry⟩
    · rw [Function.update_of_ne hkey] at hentry'
      dsimp only
      rw [Function.update_of_ne hkey]
      exact h.codes key' entry' hentry'

omit [Runtime] [AuthRuntime] in
theorem reset (h : book.Agrees db redis) {email key : String} {entry : OtpEntry}
    {recruiterId : Uuid} (hentry : redis key = some entry) :
    (⟨Function.update book.accounts email (book.codes key), Function.update book.codes key none⟩ :
      PasswordBook).Agrees
      (resetPassword email entry.record.newPasswordHash recruiterId db) (redis.delete key) where
  accounts := by
    intro r hr
    obtain ⟨r₀, hr₀, rfl⟩ := Tables.mem_updateWhere.mp hr
    by_cases hemail : r₀.email = email
    · rw [Tables.Update.onRow_of_true (by simp [hemail])]
      change Hashed (Function.update book.accounts email (book.codes key) r₀.email) _
      rw [hemail, Function.update_self]
      exact h.codes key entry hentry
    · rw [Tables.Update.onRow_of_false (by simp [hemail])]
      dsimp only
      rw [Function.update_of_ne hemail]
      exact h.accounts r₀ hr₀
  codes := by
    intro key' entry' hentry'
    by_cases hkey : key' = key
    · rw [hkey, Redis.delete, Function.update_self] at hentry'
      cases hentry'
    · rw [Redis.delete, Function.update_of_ne hkey] at hentry'
      dsimp only
      rw [Function.update_of_ne hkey]
      exact h.codes key' entry' hentry'

end PasswordBook.Agrees

omit [AuthRuntime] in
theorem PasswordBook.Agrees.otpStored (h : book.Agrees db redis) {request : NewPasswordRequest}
    {draws : CodeDraws} {answer : Except AuthException AuthAnswer} {ttl : ℤ}
    (hadmitted : AdmittedPassword request.newPassword)
    (hanswer : answer = .ok .done ∨ answer = .error .otpNotDelivered) :
    (book.storeCode request answer).Agrees db (redis.setEx now (otpKey request.email)
      ⟨(draws.otpDraws request.newPassword).otp,
        (draws.otpDraws request.newPassword).newPasswordHash⟩ ttl) := by
  rcases hanswer with rfl | rfl
  · exact h.setCode hadmitted rfl
  · exact h.setCode hadmitted rfl

omit [AuthRuntime] in
theorem PasswordBook.after_rejected {exception : AuthException}
    (h : exception = .otpNotDelivered → payload.call.otpRequest = none) :
    book.after payload (.error exception) = book := by
  have hcode (request : NewPasswordRequest) (hrequest : exception ≠ .otpNotDelivered) :
      book.storeCode request (.error exception) = book := by
    cases exception with
    | otpNotDelivered => exact absurd rfl hrequest
    | _ => rfl
  cases payload with
  | forgotPassword request draws | resendOtp request draws =>
    refine hcode request fun hexception => ?_
    cases h hexception
  | _ => rfl

theorem PasswordBook.Agrees.step (h : book.Agrees system.db system.redis)
    (hadmitted : ∀ p, payload.newPassword? = some p → AdmittedPassword p) :
    (book.after payload (authService system ⟨now, redisClient, payload.call⟩).1).Agrees
      (authService system ⟨now, redisClient, payload.call⟩).2.db
      (authService system ⟨now, redisClient, payload.call⟩).2.redis := by
  have hstep := authService_step system ⟨now, redisClient, payload.call⟩
  generalize hanswered : authService system ⟨now, redisClient, payload.call⟩ = answered at hstep ⊢
  obtain ⟨answer, db', redis', keyed'⟩ := answered
  dsimp only at hstep ⊢
  cases hstep with
  | rejected hexception =>
    rw [after_rejected hexception]
    exact h
  | @registered email hashedPassword companyName newId recruiter hcall hnew =>
    cases payload with
    | register request salt newId' =>
      have hregister : (system.register request.email
          (PasswordText.hashPassword salt request.password) request.companyName newId').1 =
            .ok (.recruiter recruiter) := congrArg Prod.fst hanswered
      obtain ⟨db', hrun⟩ := register_answered hregister
      obtain ⟨hfree, _, hrow, _⟩ := registerRecruiter_eq_ok hrun
      have hother : ∀ r ∈ system.db.recruiters, r.email ≠ Runtime.lower request.email :=
        fun r hr => Tables.key_ne_of_lookup_eq_none hfree hr
      exact h.setAccount (congrArg RecruiterAccount.email hrow) hother (hadmitted _ rfl)
        (congrArg RecruiterAccount.hashedPassword hrow) rfl
    | _ => cases hcall
  | loggedIn hcall | refreshed hcall | loggedOut hcall =>
    cases payload with
    | login | refresh | logout => exact ⟨h.accounts, h.codes⟩
    | _ => cases hcall
  | @otpStored email draws output recruiter hcall _ _ _ houtput =>
    cases payload with
    | forgotPassword request codeDraws | resendOtp request codeDraws =>
      cases hcall
      exact h.otpStored (hadmitted _ rfl) houtput
    | _ => cases hcall
  | @passwordReset email record recruiter hcall hlive =>
    cases payload with
    | verifyOtp request =>
      have hverify : AuthCall.verifyOtp request.email request.otp = .verifyOtp email record.otp :=
        hcall
      obtain ⟨rfl, _⟩ := AuthCall.verifyOtp.inj hverify
      obtain ⟨entry, hentry, rfl⟩ := Option.map_eq_some_iff.mp hlive
      exact h.reset (Option.filter_eq_some_iff.mp hentry).1
    | _ => cases hcall

omit [Runtime] [PasswordText] in
theorem issueTokens_not_refused (r : RecruiterAccount) (draws : TokenDraws) (client : ClientInfo)
    (db : AuthDatabase) :
    (issueTokens r draws client).execute authEngine db ≠ .error .invalidCredentials := by
  intro h
  rw [issueTokens, Program.execute_write] at h
  unfold Engine.accept at h
  split at h
  · next error hrefused =>
    cases h
    simp [authEngine] at hrefused
  · cases h

omit [PasswordText] in
theorem login_not_refused {r : RecruiterAccount} (hr : r ∈ system.db.recruiters)
    {email password : String} (hemail : Runtime.lower email = r.email)
    (hpassword : AuthRuntime.verifyPassword password r.hashedPassword = true) (draws : TokenDraws)
    (client : ClientInfo) :
    (authService system ⟨now, redisClient, .login email password draws client⟩).1 ≠
      .error .invalidCredentials := by
  have hfound : getRecruiterByEmail system.db (Runtime.lower email) = some r :=
    hemail ▸ Tables.lookup_of_mem system.keyed.emails hr
  have hexecute : (AuthService.login email password draws client).execute authEngine system.db ≠
      .error .invalidCredentials := by
    unfold AuthService.login
    rw [Program.execute_select, hfound]
    dsimp only
    rw [hpassword, Bool.not_true, if_neg Bool.false_ne_true]
    split
    · intro h
      cases h
    · have haccepted :
          authEngine.refusal system.db (revokeAllRecruiterTokens r.id system.db) = none :=
        revokeAllRecruiterTokens_eq r.id ▸ refusal_revoke _
      rw [Program.execute_statement haccepted]
      exact issueTokens_not_refused r draws client _
  intro h
  simp only [authService, AuthSystem.transact] at h
  split at h
  · next hrun =>
    cases h
    exact hexecute hrun
  · cases h

theorem PasswordBook.Agrees.next (h : book.Agrees system.db system.redis)
    (request : AuthHttpRequest) :
    (book.next (.of authApi system request)).Agrees (authApi system request).2.db
      (authApi system request).2.redis := by
  cases hpayload : request.route.served? request.body with
  | none =>
    simp only [PasswordBook.next, Runs.Transition.of, authApi, hpayload]
    exact h
  | some payload =>
    simp only [PasswordBook.next, Runs.Transition.of, authApi, hpayload]
    exact h.step fun p hp => served?_admitted hpayload hp

/-- After any run the accounts and the codes have hashes of the admitted passwords that were set
last, and a login with such a password, typed with any white space around it, is not refused for its
credentials. -/
theorem passwords_accepted [LawfulPasswords] (requests : List AuthHttpRequest) :
    let system := Runs.exec authApi emptyAuthSystem requests
    let book := PasswordBook.ofTrace (Runs.trace authApi emptyAuthSystem requests)
    book.Agrees system.db system.redis ∧
      ∀ r ∈ system.db.recruiters, ∃ password, book.accounts r.email = some password ∧
        AdmittedPassword password ∧
        ∀ now redisClient draws client email e typed, PasswordText.emailStr email = some e →
          Runtime.lower e = r.email → trim typed = password →
            ∃ answer, (authApi system ⟨now, redisClient, .loginRecruiter draws client,
                .dict [("email", email), ("password", .str typed)]⟩).1 = some answer ∧
              answer ≠ .error .invalidCredentials := by
  intro system book
  have hagrees : book.Agrees system.db system.redis := by
    refine Runs.history_preserves (P := fun history system =>
      (PasswordBook.ofTrace history).Agrees system.db system.redis) ?_ ?_
    · intro before request after _ h
      rw [Runs.trace_snoc, Runs.exec_snoc, PasswordBook.ofTrace, List.foldl_append]
      exact h.next request
    · exact ⟨fun r hr => absurd hr List.not_mem_nil, fun key entry hentry => by cases hentry⟩
  refine ⟨hagrees, ?_⟩
  intro r hr
  obtain ⟨password, salt, hbook, hadmitted, hhash⟩ := hagrees.accounts r hr
  refine ⟨password, hbook, hadmitted, ?_⟩
  intro now redisClient draws client email e typed hemail hlower htyped
  have hpayload : (AuthRoute.loginRecruiter draws client).served?
      (.dict [("email", email), ("password", .str typed)]) =
        some (.login ⟨e, password⟩ draws client) :=
    Option.filter_eq_some_iff.mpr
      ⟨congrArg (Option.map _) (hadmitted.login htyped hemail), hadmitted.hashes⟩
  have hverified : AuthRuntime.verifyPassword password r.hashedPassword = true := by
    rw [hhash]
    exact LawfulPasswords.verify_hash salt password hadmitted.hashes
  simp only [authApi, hpayload]
  exact ⟨_, rfl, login_not_refused hr hlower hverified draws client⟩

end Book

section Samples

/-- Any text as an e-mail, the characters of ASCII, and hashes that show the password. -/
@[reducible] def samplePasswords : PasswordText where
  emailStr := Pydantic.str
  isUpper c := c.isUpper
  isDigit c := c.isDigit
  isDecimal c := c.isDigit
  hashPassword _ password := "hash of " ++ password

/-- A registration, a reset that waits for its code, and the code. -/
def sampleAccount : List AuthHttpRequest :=
  [⟨1, true, .registerRecruiter 7 1, .dict [("full_name", .str "Grace Hopper"),
      ("email", .str "Grace@acme.example"), ("password", .str " Cobol1959 "),
      ("company_name", .str "Acme")]⟩,
    ⟨2, true, .forgotPassword ⟨8, "4711", true⟩, .dict [("email", .str "grace@acme.example"),
      ("new_password", .str "Flowmatic55")]⟩,
    ⟨3, true, .verifyOtp, .dict [("email", .str "grace@acme.example"), ("otp", .str "4711")]⟩]

/-- The new password is in force. -/
theorem passwords_accepted_sample :
    let _ : Runtime := .ascii
    let _ : AuthRuntime := sampleAuth
    let _ : PasswordText := samplePasswords
    (Runs.exec authApi emptyAuthSystem sampleAccount).db.recruiters.map (·.hashedPassword) =
        ["hash of Flowmatic55"] ∧
      (PasswordBook.ofTrace (Runs.trace authApi emptyAuthSystem sampleAccount)).Agrees
        (Runs.exec authApi emptyAuthSystem sampleAccount).db
        (Runs.exec authApi emptyAuthSystem sampleAccount).redis := by
  intro runtime authRuntime passwordText
  have hlawful : LawfulPasswords := ⟨fun _ _ _ => beq_self_eq_true _⟩
  exact ⟨by decide +kernel, (passwords_accepted sampleAccount).1⟩

end Samples

end IBotCoreApi
