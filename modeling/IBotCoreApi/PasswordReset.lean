import IBotCoreApi.LiveSessions

namespace IBotCoreApi
open Python Transactions AuthRepository AuthService

abbrev AuthTransition := Runs.Transition AuthSystem AuthEvent (Except AuthException AuthAnswer)

def AuthDatabase.passwordHash (db : AuthDatabase) (recruiterId : Uuid) : Option String :=
  (getRecruiterById db recruiterId).map (·.hashedPassword)

def AuthCall.resetEmail : AuthCall → Option String
  | .initiatePasswordReset email _ | .resendOtp email _ | .verifyOtp email _ => some email
  | _ => none

section Protocol

variable [Runtime]

/-- The request stores a code for the e-mail, whether or not its message is delivered. -/
def Stores (t : AuthTransition) (email : String) (record : OtpRecord) : Prop :=
  ∃ given draws, t.input.call.otpRequest = some (given, draws) ∧ Runtime.lower given = email ∧
    record = ⟨draws.otp, draws.newPasswordHash⟩ ∧
    (t.output = .ok .done ∨ t.output = .error .otpNotDelivered)

def Consumes (t : AuthTransition) (email : String) : Prop :=
  ∃ given otp, t.input.call = .verifyOtp given otp ∧ Runtime.lower given = email ∧
    t.output = .ok .done

def ChangesPassword (t : AuthTransition) (recruiter : RecruiterAccount) : Prop :=
  recruiter ∈ t.pre.db.recruiters ∧
    t.post.db.passwordHash recruiter.id ≠ t.pre.db.passwordHash recruiter.id

/-- The most recent request that stored a code for the e-mail, and no verification since. -/
def Pending (history : List AuthTransition) (u : AuthTransition) (email : String)
    (record : OtpRecord) : Prop :=
  ∃ before after, history = before ++ u :: after ∧ Stores u email record ∧
    ∀ t ∈ after, ¬ Consumes t email ∧ ∀ record', ¬ Stores t email record'

/-- No account, an inactive account, a live code on a resend, or no live code that matches. -/
inductive Refusable (t : AuthTransition) : Prop
  | account {email : String} {draws : OtpDraws}
      (hcall : t.input.call.otpRequest = some (email, draws))
      (haccount : ∀ recruiter, getRecruiterByEmail t.pre.db (Runtime.lower email) = some recruiter →
        recruiter.isActive = false)
  | liveCode {email : String} {draws : OtpDraws} (hcall : t.input.call = .resendOtp email draws)
      (hlive : (t.pre.redis.get t.input.now (otpKey email)).isSome)
  | wrongCode {email otp : String} (hcall : t.input.call = .verifyOtp email otp)
      (hwrong : ∀ record, t.pre.redis.get t.input.now (otpKey email) = some record →
        record.otp ≠ otp)

end Protocol

section Steps

variable [Runtime] [AuthRuntime] {t : AuthTransition} {email : String}

omit [AuthRuntime] in
theorem otpKey_eq_iff {given : String} : otpKey given = "otp:" ++ email ↔
    Runtime.lower given = email := by
  constructor
  · intro h
    have hchars := congrArg String.toList h
    simp only [otpKey, String.toList_append, List.append_cancel_left_eq] at hchars
    exact String.toList_inj.mp hchars
  · rintro rfl
    rfl

theorem code_step (h : AuthStep t.pre t.input t.output t.post.db t.post.redis) (email : String) :
    (∃ record, Stores t email record ∧ t.post.redis ("otp:" ++ email) =
        some ⟨record, t.input.now + otpTtlSeconds * Time.second⟩) ∨
      (Consumes t email ∧ t.post.redis ("otp:" ++ email) = none) ∨
      (t.post.redis ("otp:" ++ email) = t.pre.redis ("otp:" ++ email) ∧ ¬ Consumes t email ∧
        ∀ record, ¬ Stores t email record) := by
  obtain ⟨pre, event, output, db', redis', keyed'⟩ := t
  dsimp only at h
  cases h with
  | @rejected exception hexception =>
    refine .inr (.inr ⟨rfl, ?_, ?_⟩)
    · rintro ⟨_, _, _, _, houtput⟩
      cases houtput
    · rintro record ⟨given, draws, hcall, _, _, houtput | houtput⟩
      · cases houtput
      · cases houtput
        cases hcall.symm.trans (hexception rfl)
  | registered hcall | loggedIn hcall | refreshed hcall | loggedOut hcall =>
    refine .inr (.inr ⟨rfl, ?_, ?_⟩)
    · rintro ⟨_, _, hcall', _⟩
      cases hcall.symm.trans hcall'
    · rintro record ⟨_, _, hcall', _⟩
      simp [hcall, AuthCall.otpRequest] at hcall'
  -- the keys of two e-mails agree only if these do, so one code is written at most
  | @otpStored given draws output recruiter hcall _ _ _ houtput =>
    by_cases hemail : Runtime.lower given = email
    · refine .inl ⟨_, ⟨given, draws, hcall, hemail, rfl, houtput⟩, ?_⟩
      rw [← otpKey_eq_iff.mpr hemail]
      exact Function.update_self ..
    · refine .inr (.inr ⟨Function.update_of_ne ?_ _ _, ?_, ?_⟩)
      · intro hkey
        exact hemail (otpKey_eq_iff.mp hkey.symm)
      · rintro ⟨_, _, hcall', _⟩
        simp only at hcall'
        rw [hcall'] at hcall
        cases hcall
      · rintro record ⟨given', _, hcall', hemail', _⟩
        cases hcall.symm.trans hcall'
        exact hemail hemail'
  | @passwordReset given record recruiter hcall =>
    by_cases hemail : Runtime.lower given = email
    · refine .inr (.inl ⟨⟨given, _, hcall, hemail, rfl⟩, ?_⟩)
      rw [← otpKey_eq_iff.mpr hemail]
      exact Function.update_self ..
    · refine .inr (.inr ⟨Function.update_of_ne ?_ _ _, ?_, ?_⟩)
      · intro hkey
        exact hemail (otpKey_eq_iff.mp hkey.symm)
      · rintro ⟨given', _, hcall', hemail', _⟩
        cases hcall.symm.trans hcall'
        exact hemail hemail'
      · rintro record ⟨_, _, hcall', _⟩
        simp [hcall, AuthCall.otpRequest] at hcall'

/-- A password changes in the verification of a live code, to the hash that is stored with it. -/
theorem password_step (h : AuthStep t.pre t.input t.output t.post.db t.post.redis)
    {recruiter : RecruiterAccount} (hchange : ChangesPassword t recruiter) :
    ∃ given record, t.input.call = .verifyOtp given record.otp ∧
      Runtime.lower given = recruiter.email ∧
      t.pre.redis.get t.input.now (otpKey given) = some record ∧ t.output = .ok .done ∧
      t.post.db.passwordHash recruiter.id = some record.newPasswordHash := by
  obtain ⟨pre, event, output, db', redis', keyed'⟩ := t
  dsimp only at h
  obtain ⟨hmem, hchange⟩ := hchange
  dsimp only at hmem hchange
  have hfound : getRecruiterById pre.db recruiter.id = some recruiter :=
    Tables.lookup_of_mem pre.keyed.recruiterIds hmem
  cases h with
  | rejected | loggedIn | refreshed | loggedOut | otpStored => exact absurd rfl hchange
  | @registered _ _ _ _ added =>
    have hkept : getRecruiterById { pre.db with recruiters := pre.db.recruiters ++ [added] }
      recruiter.id = some recruiter := Tables.lookup_append_of_some hfound
    rw [AuthDatabase.passwordHash, AuthDatabase.passwordHash, hkept, hfound] at hchange
    exact absurd rfl hchange
  | @passwordReset given record reset hcall hlive =>
    have hupdated : (resetPassword (Runtime.lower given) record.newPasswordHash reset.id
        pre.db).passwordHash recruiter.id = some ((withPassword record.newPasswordHash).onRow
          (·.email == Runtime.lower given) recruiter).hashedPassword := by
      have hrow : getRecruiterById (resetPassword (Runtime.lower given) record.newPasswordHash
          reset.id pre.db) recruiter.id = (getRecruiterById pre.db recruiter.id).map
            ((withPassword record.newPasswordHash).onRow (·.email == Runtime.lower given)) :=
        Tables.lookup_updateWhere (withPassword record.newPasswordHash) Prod.fst recruiter.id
      rw [AuthDatabase.passwordHash, hrow]
      exact congrArg _ (congrArg _ hfound)
    -- the update goes by e-mail: a recruiter with another one keeps the password
    by_cases hemail : recruiter.email = Runtime.lower given
    · rw [Tables.Update.onRow_of_true (by simp [hemail])] at hupdated
      exact ⟨given, record, hcall, hemail.symm, hlive, rfl, hupdated⟩
    · rw [Tables.Update.onRow_of_false (by simp [hemail])] at hupdated
      have hold : pre.db.passwordHash recruiter.id = some recruiter.hashedPassword :=
        congrArg _ hfound
      exact absurd (hupdated.trans hold.symm) hchange

theorem rejected_step (h : AuthStep t.pre t.input t.output t.post.db t.post.redis)
    {exception : AuthException} (hrejected : t.output = .error exception)
    (hstored : exception ≠ .otpNotDelivered) : t.post = t.pre := by
  obtain ⟨pre, event, output, db', redis', keyed'⟩ := t
  dsimp only at h hrejected
  subst hrejected
  cases h with
  | rejected => rfl
  | otpStored _ _ _ _ houtput =>
    rcases houtput with houtput | houtput
    · cases houtput
    · exact absurd (Except.error.inj houtput) hstored

theorem refusable_step (h : AuthStep t.pre t.input t.output t.post.db t.post.redis)
    (hrefusable : Refusable t) :
    (∃ exception, t.output = .error exception) ∧ t.post = t.pre := by
  obtain ⟨pre, event, output, db', redis', keyed'⟩ := t
  dsimp only at h
  cases h with
  | rejected => exact ⟨⟨_, rfl⟩, rfl⟩
  | registered hcall | loggedIn hcall | refreshed hcall | loggedOut hcall =>
    exfalso
    cases hrefusable with
    | account hcall' => simp [hcall, AuthCall.otpRequest] at hcall'
    | liveCode hcall' | wrongCode hcall' => cases hcall.symm.trans hcall'
  | otpStored hcall hfound hactive hresend =>
    exfalso
    cases hrefusable with
    | account hcall' haccount =>
      cases hcall.symm.trans hcall'
      rw [haccount _ hfound] at hactive
      cases hactive
    | liveCode hcall' hlive =>
      dsimp only at hcall'
      rw [hcall'] at hcall
      cases hcall
      dsimp only at hlive
      rw [hresend hcall'] at hlive
      cases hlive
    | wrongCode hcall' =>
      dsimp only at hcall'
      rw [hcall'] at hcall
      cases hcall
  | passwordReset hcall hlive =>
    exfalso
    cases hrefusable with
    | account hcall' => simp [hcall, AuthCall.otpRequest] at hcall'
    | liveCode hcall' => cases hcall.symm.trans hcall'
    | wrongCode hcall' hwrong =>
      cases hcall.symm.trans hcall'
      exact hwrong _ hlive rfl

theorem others_step (h : AuthStep t.pre t.input t.output t.post.db t.post.redis) {given : String}
    (hgiven : t.input.call.resetEmail = some given) {recruiter : RecruiterAccount}
    (hmem : recruiter ∈ t.pre.db.recruiters) (hother : recruiter.email ≠ Runtime.lower given) :
    recruiter ∈ t.post.db.recruiters ∧
      t.post.db.recruiterTokens.filter (·.recruiterId == recruiter.id) =
        t.pre.db.recruiterTokens.filter (·.recruiterId == recruiter.id) ∧
      t.post.redis ("otp:" ++ recruiter.email) = t.pre.redis ("otp:" ++ recruiter.email) := by
  have hkey : "otp:" ++ recruiter.email ≠ otpKey given := fun hkey =>
    hother (otpKey_eq_iff.mp hkey.symm).symm
  obtain ⟨pre, event, output, db', redis', keyed'⟩ := t
  dsimp only at h hmem hgiven
  cases h with
  | rejected => exact ⟨hmem, rfl, rfl⟩
  | registered hcall | loggedIn hcall | refreshed hcall | loggedOut hcall =>
    simp [hcall, AuthCall.resetEmail] at hgiven
  | @otpStored given' draws _ _ hcall =>
    have hsame : given' = given := by
      cases hevent : event.call with
      | initiatePasswordReset | resendOtp =>
        rw [hevent] at hcall hgiven
        cases hcall
        exact Option.some.inj hgiven
      | _ =>
        rw [hevent] at hcall
        cases hcall
    subst hsame
    exact ⟨hmem, rfl, Function.update_of_ne hkey _ _⟩
  | @passwordReset given' record reset hcall _ hfound =>
    rw [hcall] at hgiven
    cases hgiven
    refine ⟨Tables.mem_updateWhere.mpr ⟨recruiter, hmem, ?_⟩, ?_, Function.update_of_ne hkey _ _⟩
    · exact Tables.Update.onRow_of_false (by simp [hother])
    -- e-mails are unique, so the tokens that the reset revokes are those of another recruiter
    · refine Tables.filter_updateWhere fun token _ howner => ?_
      have hreset : reset.email = Runtime.lower given := Tables.lookup_key hfound
      have hid : reset.id ≠ recruiter.id := by
        intro hid
        have hsame := List.inj_on_of_nodup_map pre.keyed.recruiterIds
          (Tables.lookup_mem hfound) hmem hid
        exact hother (hsame ▸ hreset)
      have hexcluded : (token.recruiterId == recruiter.id) = false := by
        rw [beq_iff_eq.mp howner]
        exact beq_false_of_ne hid
      exact ⟨hexcluded, hexcluded⟩

end Steps

section Runs

variable [Runtime] [AuthRuntime] {start : AuthSystem} {events : List AuthEvent}

structure ResetProtocol (start : AuthSystem) (events : List AuthEvent) : Prop where
  /-- A password changes when the most recent code of its e-mail, not consumed since, is presented
  within a minute, and it becomes the hash that was supplied with that code. -/
  changed : ∀ before event after, events = before ++ event :: after →
    ∀ recruiter, let t : AuthTransition := .of authService (Runs.exec authService start before) event
    ChangesPassword t recruiter →
      ∃ u given record, Pending (Runs.trace authService start before) u recruiter.email record ∧
        event.now - 60 * Time.second < u.input.now ∧
        event.call = .verifyOtp given record.otp ∧ Runtime.lower given = recruiter.email ∧
        t.post.db.passwordHash recruiter.id = some record.newPasswordHash
  /-- Between two changes of one password another code is stored. -/
  once : ∀ before event between event' after, events = before ++ event :: between ++ event' :: after →
    ∀ recruiter recruiter', recruiter'.email = recruiter.email →
      ChangesPassword (.of authService (Runs.exec authService start before) event) recruiter →
      ChangesPassword (.of authService
        (Runs.exec authService start (before ++ event :: between)) event') recruiter' →
        ∃ u ∈ Runs.trace authService (Runs.exec authService start (before ++ [event])) between,
          ∃ record, Stores u recruiter.email record
  /-- A rejected request changes no password, token or stored code. -/
  rejected : ∀ t ∈ Runs.trace authService start events, ∀ exception,
    t.output = .error exception → exception ≠ .otpNotDelivered → t.post = t.pre
  refused : ∀ t ∈ Runs.trace authService start events, Refusable t →
    (∃ exception, t.output = .error exception) ∧ t.post = t.pre
  /-- A request for one e-mail affects no other recruiter. -/
  others : ∀ t ∈ Runs.trace authService start events, ∀ given,
    t.input.call.resetEmail = some given → ∀ recruiter ∈ t.pre.db.recruiters,
      recruiter.email ≠ Runtime.lower given →
        recruiter ∈ t.post.db.recruiters ∧
        t.post.db.recruiterTokens.filter (·.recruiterId == recruiter.id) =
          t.pre.db.recruiterTokens.filter (·.recruiterId == recruiter.id) ∧
        t.post.redis ("otp:" ++ recruiter.email) = t.pre.redis ("otp:" ++ recruiter.email)

/-- Every code in Redis is the most recent one of its e-mail, with the minute that it lives. -/
def Codes (history : List AuthTransition) (system : AuthSystem) : Prop :=
  ∀ email entry, system.redis ("otp:" ++ email) = some entry →
    ∃ u, Pending history u email entry.record ∧
      entry.expiresAt = u.input.now + otpTtlSeconds * Time.second

omit [AuthRuntime] in
theorem Pending.append {history : List AuthTransition} {u t : AuthTransition} {email : String}
    {record : OtpRecord} (h : Pending history u email record)
    (ht : ¬ Consumes t email ∧ ∀ record', ¬ Stores t email record') :
    Pending (history ++ [t]) u email record := by
  obtain ⟨before, after, rfl, hstores, hafter⟩ := h
  refine ⟨before, after ++ [t], by simp, hstores, fun t' ht' => ?_⟩
  rcases List.mem_append.mp ht' with hold | hnew
  · exact hafter t' hold
  · rw [List.mem_singleton.mp hnew]
    exact ht

theorem codes_exec (hstart : ∀ key, start.redis key = none) (events : List AuthEvent) :
    Codes (Runs.trace authService start events) (Runs.exec authService start events) := by
  have hkeep (history : List (AuthTransition))
      (system : AuthSystem) (event : AuthEvent) (_ : True) (hcodes : Codes history system) :
      Codes (history ++ [.of authService system event]) (authService system event).2 := by
    intro email entry hentry
    rcases code_step (t := .of authService system event) (authService_step system event) email with
      ⟨record, hstores, hredis⟩ | ⟨_, hredis⟩ | ⟨hredis, hconsumes, hstores⟩
    · cases hredis.symm.trans hentry
      exact ⟨_, ⟨history, [], rfl, hstores, by simp⟩, rfl⟩
    · cases hredis.symm.trans hentry
    · obtain ⟨u, hpending, hexpires⟩ := hcodes email entry (hredis.symm.trans hentry)
      exact ⟨u, hpending.append ⟨hconsumes, hstores⟩, hexpires⟩
  have hnone : Codes [] start := by
    intro email entry hentry
    rw [hstart] at hentry
    cases hentry
  exact Runs.history_invariant hkeep (fun _ _ => trivial) hnone

theorem pending_of_changes (hstart : ∀ key, start.redis key = none) {event : AuthEvent}
    {recruiter : RecruiterAccount}
    (hchange : ChangesPassword (.of authService (Runs.exec authService start events) event)
      recruiter) :
    ∃ u given record, Pending (Runs.trace authService start events) u recruiter.email record ∧
      event.now - 60 * Time.second < u.input.now ∧
      event.call = .verifyOtp given record.otp ∧ Runtime.lower given = recruiter.email ∧
      (authService (Runs.exec authService start events) event).2.db.passwordHash recruiter.id =
        some record.newPasswordHash := by
  obtain ⟨given, record, hcall, hgiven, hlive, _, hpassword⟩ :=
    password_step (authService_step _ event) hchange
  change ((Runs.exec authService start events).redis.get event.now (otpKey given)) = some record
    at hlive
  obtain ⟨entry, hentry, rfl⟩ := Option.map_eq_some_iff.mp hlive
  obtain ⟨hstored, hunexpired⟩ := Option.filter_eq_some_iff.mp hentry
  rw [otpKey_eq_iff.mpr hgiven] at hstored
  obtain ⟨u, hpending, hexpires⟩ := codes_exec hstart events recruiter.email entry hstored
  refine ⟨u, given, entry.record, hpending, ?_, hcall, hgiven, hpassword⟩
  have hbefore : event.now < u.input.now + otpTtlSeconds * Time.second := by
    simpa [hexpires] using hunexpired
  exact sub_lt_iff_lt_add.mpr hbefore

/-- The reset protocol holds over every run of requests. -/
theorem password_reset_protocol (start : AuthSystem) (hstart : ∀ key, start.redis key = none)
    (events : List AuthEvent) : ResetProtocol start events where
  changed := by
    intro before event after _ recruiter t hchange
    exact pending_of_changes hstart hchange
  once := by
    intro before event between event' after _ recruiter recruiter' hsame hchange hchange'
    obtain ⟨given, _, hcall, hgiven, _, houtput, _⟩ :=
      password_step (authService_step _ event) hchange
    obtain ⟨u, _, record, ⟨earlier, later, hsplit, hstores, hlater⟩, _⟩ :=
      pending_of_changes hstart hchange'
    rw [hsame] at hstores hlater
    rw [Runs.trace_append_cons] at hsplit
    have hconsumes : Consumes (.of authService (Runs.exec authService start before) event)
      recruiter.email := ⟨given, _, hcall, hgiven, houtput⟩
    have hnotStored : ∀ record,
        ¬ Stores (.of authService (Runs.exec authService start before) event) recruiter.email
          record := by
      rintro record ⟨_, _, hcall', _⟩
      rw [hcall] at hcall'
      cases hcall'
    rw [Runs.exec_snoc]
    -- the code of the second change is stored after the first change, which consumes
    rcases List.append_eq_append_iff.mp hsplit with ⟨middle, rfl, hrest⟩ | ⟨middle, _, hrest⟩
    · cases middle with
      | nil =>
        obtain ⟨rfl, _⟩ := List.cons.inj hrest
        exact absurd hstores (hnotStored record)
      | cons first middle =>
        obtain ⟨_, hbetween⟩ := List.cons.inj hrest
        exact ⟨u, hbetween ▸ List.mem_append_right _ List.mem_cons_self, record, hstores⟩
    · cases middle with
      | nil =>
        obtain ⟨rfl, _⟩ := List.cons.inj hrest
        exact absurd hstores (hnotStored record)
      | cons first middle =>
        obtain ⟨_, hafter⟩ := List.cons.inj hrest
        exact absurd hconsumes
          (hlater _ (hafter ▸ List.mem_append_right _ List.mem_cons_self)).1
  rejected := by
    intro t ht exception hexception hstored
    obtain ⟨before, event, after, _, rfl⟩ := Runs.mem_trace ht
    exact rejected_step (authService_step _ event) hexception hstored
  refused := by
    intro t ht hrefusable
    obtain ⟨before, event, after, _, rfl⟩ := Runs.mem_trace ht
    exact refusable_step (authService_step _ event) hrefusable
  others := by
    intro t ht given hgiven recruiter hmem hother
    obtain ⟨before, event, after, _, rfl⟩ := Runs.mem_trace ht
    exact others_step (authService_step _ event) hgiven hmem hother

end Runs

section Sample

/-- A code whose message is lost, a wrong code, and the code. -/
def sampleReset : List AuthEvent :=
  [⟨1, true, .initiatePasswordReset "Ada@acme.example" ⟨"hash of changed", "4711", false⟩⟩,
    ⟨2, true, .verifyOtp "ada@acme.example" "1174"⟩,
    ⟨3, true, .verifyOtp "ada@acme.example" "4711"⟩]

theorem password_reset_protocol_sample :
    let _ : Runtime := .ascii
    let _ : AuthRuntime := sampleAuth
    ResetProtocol sampleSystem sampleReset ∧
      (Runs.exec authService sampleSystem sampleReset).db.passwordHash 1 =
        some "hash of changed" := by
  let _ : Runtime := .ascii
  let _ : AuthRuntime := sampleAuth
  exact ⟨password_reset_protocol sampleSystem (fun _ => rfl) sampleReset, by decide +kernel⟩

end Sample

end IBotCoreApi
