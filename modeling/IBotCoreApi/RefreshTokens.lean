import IBotCoreApi.AuthService

namespace IBotCoreApi
open Python Transactions AuthRepository

/-- The statement updates a row that a read of a token hash has seen. -/
def AuthWrite.touches : AuthWrite → String → Bool
  | .revoke tokenHash, key => tokenHash == key
  | _, _ => false

def AuthDatabase.revoked? (db : AuthDatabase) (tokenHash : String) : Option Bool :=
  (getRefreshTokenByHash db tokenHash).map (·.isRevoked)

section Writes

variable {db : AuthDatabase} {tokenHash : String} {w : AuthWrite}

theorem revoked?_revoke (key : String) :
    (authEngine.apply db (.revoke key)).revoked? tokenHash =
      if tokenHash = key then (db.revoked? tokenHash).map fun _ => true
      else db.revoked? tokenHash := by
  have hlookup : getRefreshTokenByHash (authEngine.apply db (.revoke key)) tokenHash =
      (getRefreshTokenByHash db tokenHash).map (revoked.onRow (·.tokenHash == key)) :=
    Tables.lookup_updateWhere revoked Prod.snd tokenHash
  rw [AuthDatabase.revoked?, AuthDatabase.revoked?, hlookup, Option.map_map]
  cases hfound : getRefreshTokenByHash db tokenHash with
  | none => simp
  | some t =>
    have hkey : t.tokenHash = tokenHash := Tables.lookup_key hfound
    by_cases hsame : tokenHash = key
    · rw [if_pos hsame, Option.map_some, Option.map_some, Option.map_some, Function.comp_apply,
        Tables.Update.onRow_of_true (by simp [hkey, hsame])]
      rfl
    · rw [if_neg hsame, Option.map_some, Option.map_some, Function.comp_apply,
        Tables.Update.onRow_of_false (by simp [hkey, hsame])]

theorem revoked?_apply {b : Bool} (h : db.revoked? tokenHash = some b) :
    (authEngine.apply db w).revoked? tokenHash = some b ∨
      (w = .revoke tokenHash ∧ (authEngine.apply db w).revoked? tokenHash = some true) := by
  cases w with
  | revoke key =>
    rw [revoked?_revoke, h]
    by_cases hsame : tokenHash = key
    · exact .inr ⟨by rw [hsame], by simp [hsame]⟩
    · exact .inl (by simp [hsame])
  | insertToken token =>
    obtain ⟨t, hfound, rfl⟩ := Option.map_eq_some_iff.mp h
    have hkept : getRefreshTokenByHash (authEngine.apply db (.insertToken token)) tokenHash =
      some t := Tables.lookup_append_of_some hfound
    exact .inl (by rw [AuthDatabase.revoked?, hkept, Option.map_some])
  | setPassword => exact .inl h

theorem isSome_revoked?_apply (h : (db.revoked? tokenHash).isSome) :
    ((authEngine.apply db w).revoked? tokenHash).isSome := by
  obtain ⟨b, hb⟩ := Option.isSome_iff_exists.mp h
  rcases revoked?_apply (w := w) hb with hkept | ⟨_, hrevoked⟩
  · simp [hkept]
  · simp [hrevoked]

theorem revoked_apply (h : db.revoked? tokenHash = some true) :
    (authEngine.apply db w).revoked? tokenHash = some true := by
  rcases revoked?_apply (w := w) h with hkept | ⟨_, hrevoked⟩
  · exact hkept
  · exact hrevoked

theorem unrevoked_apply (h : db.revoked? tokenHash = some false)
    (htouches : w.touches tokenHash = false) :
    (authEngine.apply db w).revoked? tokenHash = some false := by
  rcases revoked?_apply (w := w) h with hkept | ⟨rfl, _⟩
  · exact hkept
  · simp [AuthWrite.touches] at htouches

theorem isSome_revoked?_mono {db' : AuthDatabase}
    (h : (db.revoked? tokenHash).isSome → (db'.revoked? tokenHash).isSome)
    (hsome : ((authEngine.apply db w).revoked? tokenHash).isSome) :
    ((authEngine.apply db' w).revoked? tokenHash).isSome := by
  by_cases hdb : (db.revoked? tokenHash).isSome
  · exact isSome_revoked?_apply (h hdb)
  · cases w with
    | revoke key =>
      rw [revoked?_revoke] at hsome
      split at hsome
      · exact absurd (by simpa using hsome) hdb
      · exact absurd hsome hdb
    | insertToken token =>
      by_cases hdb' : (db'.revoked? tokenHash).isSome
      · exact isSome_revoked?_apply hdb'
      · simp only [AuthDatabase.revoked?, Option.isSome_map, Option.not_isSome_iff_eq_none]
          at hdb hdb' hsome ⊢
        have hadded : getRefreshTokenByHash (authEngine.apply db (.insertToken token)) tokenHash =
          Tables.lookup (·.tokenHash) tokenHash [token] := Tables.lookup_append_of_none hdb
        have hadded' : getRefreshTokenByHash (authEngine.apply db' (.insertToken token)) tokenHash =
          Tables.lookup (·.tokenHash) tokenHash [token] := Tables.lookup_append_of_none hdb'
        rwa [hadded', ← hadded]
    | setPassword => exact absurd hsome hdb

theorem isSome_revoked?_applyAll_mono {db' : AuthDatabase} {ws : List AuthWrite}
    (h : (db.revoked? tokenHash).isSome → (db'.revoked? tokenHash).isSome) :
    ((authEngine.applyAll db ws).revoked? tokenHash).isSome →
      ((authEngine.applyAll db' ws).revoked? tokenHash).isSome := by
  induction ws generalizing db db' with
  | nil => exact h
  | cons w ws ih => exact ih (isSome_revoked?_mono h)

end Writes

section Programs

/-- The statements of an exchange: the token is seen unrevoked, and its row is updated later. -/
inductive Exchanged (tokenHash : String) : List (Observation AuthDatabase AuthWrite String) → Prop
  | rotated {position₁ position₂ position₃ position₄ : ℕ} {view₁ view₂ view₃ view₄ : AuthDatabase}
      (hvalid : view₁.revoked? tokenHash = some false) (token : RecruiterToken) :
      Exchanged tokenHash [⟨position₁, view₁, [tokenHash], []⟩, ⟨position₂, view₂, [], []⟩,
        ⟨position₃, view₃, [], revokeRefreshToken tokenHash view₃⟩,
        ⟨position₄, view₄, [], [.insertToken token]⟩]

/-- Statements that read no token, and update only the tokens that they see. -/
def Revokes (history : List (Observation AuthDatabase AuthWrite String)) : Prop :=
  ∀ o ∈ history, o.reads = [] ∧
    ∀ key, AuthWrite.revoke key ∈ o.writes → (o.view.revoked? key).isSome

theorem mem_revokeRefreshToken {db : AuthDatabase} {tokenHash key : String}
    (h : AuthWrite.revoke key ∈ revokeRefreshToken tokenHash db) :
    key = tokenHash ∧ (db.revoked? key).isSome := by
  unfold revokeRefreshToken at h
  split at h
  · rename_i hsome
    obtain rfl := AuthWrite.revoke.inj (List.mem_singleton.mp h)
    exact ⟨rfl, by simpa [AuthDatabase.revoked?] using hsome⟩
  · cases h

theorem mem_revokeAllRecruiterTokens {db : AuthDatabase} {recruiterId : Uuid} {key : String}
    (h : AuthWrite.revoke key ∈ revokeAllRecruiterTokens recruiterId db) :
    (db.revoked? key).isSome := by
  obtain ⟨t, ht, hkey⟩ := List.mem_map.mp h
  obtain rfl := AuthWrite.revoke.inj hkey
  rw [AuthDatabase.revoked?, Option.isSome_map, Option.isSome_iff_ne_none]
  intro hnone
  exact Tables.key_ne_of_lookup_eq_none hnone (List.mem_of_mem_filter ht) rfl

variable [Runtime] [AuthRuntime]

omit [Runtime] in
theorem refreshToken_ensures (token : String) (now : Time) (draws : AuthService.TokenDraws)
    (client : AuthService.ClientInfo) :
    (AuthService.refreshToken token now draws client).Ensures
      (Exchanged (AuthRuntime.sha256 token)) [] := by
  unfold AuthService.refreshToken
  rw [Program.ensures_select]
  intro position₁ view₁
  cases hstored : getRefreshTokenByHash view₁ (AuthRuntime.sha256 token) with
  | none => trivial
  | some stored =>
    simp only
    split_ifs with hrevoked hexpired
    · trivial
    · trivial
    · rw [Program.ensures_select]
      intro position₂ view₂
      cases getRecruiterById view₂ stored.recruiterId with
      | none => trivial
      | some recruiter =>
        simp only
        split_ifs
        · trivial
        · intro position₃ view₃ position₄ view₄
          refine .rotated ?_ _
          simp only [AuthDatabase.revoked?, hstored]
          simpa using hrevoked

theorem login_ensures (email password : String) (draws : AuthService.TokenDraws)
    (client : AuthService.ClientInfo) :
    (AuthService.login email password draws client).Ensures Revokes [] := by
  unfold AuthService.login
  rw [Program.ensures_select]
  intro position₁ view₁
  cases getRecruiterByEmail view₁ (Runtime.lower email) with
  | none => trivial
  | some recruiter =>
    simp only
    split_ifs
    · trivial
    · trivial
    · intro position₂ view₂ position₃ view₃ o ho
      simp only [List.nil_append, List.cons_append, List.mem_cons, List.not_mem_nil, or_false] at ho
      rcases ho with rfl | rfl | rfl
      · exact ⟨rfl, by simp⟩
      · exact ⟨rfl, fun key hkey => mem_revokeAllRecruiterTokens hkey⟩
      · exact ⟨rfl, by simp⟩

omit [Runtime] in
theorem logout_ensures (token : String) : (AuthService.logout token).Ensures Revokes [] := by
  intro position₁ view₁ o ho
  rw [List.nil_append, List.mem_singleton] at ho
  subst ho
  exact ⟨rfl, fun key hkey => (mem_revokeRefreshToken hkey).2⟩

omit [AuthRuntime] in
theorem verifyOtp_ensures (email otp : String) (answer : AuthService.RedisAnswer) :
    (AuthService.verifyOtp email otp answer).Ensures Revokes [] := by
  have hpassword (hashed : String) (db : AuthDatabase) (key : String) :
      AuthWrite.revoke key ∉ updatePassword (Runtime.lower email) hashed db := by
    unfold updatePassword
    split <;> simp
  cases answer with
  | unavailable | missing => trivial
  | stored record =>
    simp only [AuthService.verifyOtp]
    split_ifs
    · trivial
    · rw [Program.ensures_statement]
      intro position₁ view₁
      split_ifs
      · trivial
      · intro position₂ view₂
        dsimp only
        split
        · intro o ho
          simp only [List.nil_append, List.cons_append, List.mem_cons, List.not_mem_nil,
            or_false] at ho
          rcases ho with rfl | rfl
          · exact ⟨rfl, fun key hkey => absurd hkey (hpassword _ _ key)⟩
          · exact ⟨rfl, by simp⟩
        · intro position₃ view₃ o ho
          simp only [List.nil_append, List.cons_append, List.mem_cons, List.not_mem_nil,
            or_false] at ho
          rcases ho with rfl | rfl | rfl
          · exact ⟨rfl, fun key hkey => absurd hkey (hpassword _ _ key)⟩
          · exact ⟨rfl, by simp⟩
          · exact ⟨rfl, fun key hkey => mem_revokeAllRecruiterTokens hkey⟩

end Programs

section Log

variable {ι : Type} {db : AuthDatabase} {tokenHash : String}
  {before : List (Commit AuthDatabase AuthWrite String ι)} {c : Commit AuthDatabase AuthWrite String ι}

theorem revoked_replay (h : (replay authEngine db before).revoked? tokenHash = some true)
    (later : List (Commit AuthDatabase AuthWrite String ι)) :
    (replay authEngine db (before ++ later)).revoked? tokenHash = some true := by
  rw [replay_append]
  exact authEngine.applyAll_invariant (fun db => db.revoked? tokenHash = some true)
    (fun _ _ _ => revoked_apply) h

theorem isSome_replay_of_take (position : ℕ)
    (h : ((replay authEngine db (before.take position)).revoked? tokenHash).isSome) :
    ((replay authEngine db before).revoked? tokenHash).isSome := by
  rw [← List.take_append_drop position before, replay_append]
  exact authEngine.applyAll_invariant (fun db => (db.revoked? tokenHash).isSome)
    (fun _ _ _ => isSome_revoked?_apply) h

theorem revoked_of_commit (hviews : Views authEngine db before c.history)
    (hvisible : ∀ o ∈ c.history, ∀ key, AuthWrite.revoke key ∈ o.writes →
      (o.view.revoked? key).isSome)
    (hrevoke : AuthWrite.revoke tokenHash ∈ c.writes) :
    (replay authEngine db (before ++ [c])).revoked? tokenHash = some true := by
  obtain ⟨o, ho, hw⟩ := List.mem_flatMap.mp hrevoke
  obtain ⟨earlier, later, hsplit⟩ := List.append_of_mem ho
  obtain ⟨ws, ws', hwrites⟩ := List.append_of_mem hw
  have hview := hviews.view earlier o later hsplit
  have hsome := hvisible o ho tokenHash hw
  rw [hview] at hsome
  -- the row that the statement saw is still there when it is committed
  have hbase : ((authEngine.applyAll (replay authEngine db before)
      (written earlier ++ ws)).revoked? tokenHash).isSome := by
    rw [Engine.applyAll_append]
    refine authEngine.applyAll_invariant (fun db => (db.revoked? tokenHash).isSome)
      (fun _ _ _ => isSome_revoked?_apply) ?_
    exact isSome_revoked?_applyAll_mono (isSome_replay_of_take _) hsome
  have hall : c.writes = (written earlier ++ ws) ++ AuthWrite.revoke tokenHash ::
      (ws' ++ written later) := by
    simp [Commit.writes, written, hsplit, hwrites]
  rw [replay_snoc, hall, Engine.applyAll_append, Engine.applyAll_cons]
  refine authEngine.applyAll_invariant (fun db => db.revoked? tokenHash = some true)
    (fun _ _ _ => revoked_apply) ?_
  rw [revoked?_revoke, if_pos rfl]
  obtain ⟨b, hb⟩ := Option.isSome_iff_exists.mp hbase
  rw [hb, Option.map_some]

theorem Exchanged.revokes (h : Exchanged tokenHash c.history)
    (hviews : Views authEngine db before c.history) : AuthWrite.revoke tokenHash ∈ c.writes := by
  obtain ⟨request, history⟩ := c
  cases h with
  | @rotated position₁ position₂ position₃ position₄ view₁ view₂ view₃ view₄ hvalid token =>
    have hview₁ : view₁ = replay authEngine db (before.take position₁) :=
      hviews.view [] _ _ rfl
    have hview₃ : view₃ = replay authEngine db (before.take position₃) :=
      hviews.view [_, _] _ _ rfl
    have hordered : position₁ ≤ position₃ := hviews.ordered [_, _] _ _ rfl _ List.mem_cons_self
    have hsome : (view₃.revoked? tokenHash).isSome := by
      rw [hview₃]
      refine isSome_replay_of_take position₁ ?_
      rw [List.take_take, min_eq_left hordered, ← hview₁, hvalid]
      rfl
    have htarget : revokeRefreshToken tokenHash view₃ = [.revoke tokenHash] := by
      rw [revokeRefreshToken, if_pos]
      simpa [AuthDatabase.revoked?] using hsome
    simp [Commit.writes, written, htarget]

theorem Exchanged.eq_of_revokes {key : String} (h : Exchanged tokenHash c.history)
    (hrevoke : AuthWrite.revoke key ∈ c.writes) : key = tokenHash := by
  obtain ⟨request, history⟩ := c
  cases h with
  | rotated =>
    simp only [Commit.writes, written, List.flatMap_cons, List.flatMap_nil, List.nil_append,
      List.append_nil, List.mem_append, List.mem_singleton, reduceCtorEq, or_false] at hrevoke
    exact (mem_revokeRefreshToken hrevoke).1

end Log

section SingleUse

variable {ι : Type} [AuthRuntime]

def exchanges (requests : ι → AuthRequest) (tokenHash : String)
    (c : Commit AuthDatabase AuthWrite String ι) : Bool :=
  match requests c.request with
  | .refreshToken token _ _ _ => AuthRuntime.sha256 token == tokenHash
  | _ => false

/-- The commit of a login, a logout or a password reset that revokes the token of a hash. -/
def endsSession (requests : ι → AuthRequest) (tokenHash : String)
    (c : Commit AuthDatabase AuthWrite String ι) : Prop :=
  AuthWrite.revoke tokenHash ∈ c.writes ∧
    ∀ token now draws client, requests c.request ≠ .refreshToken token now draws client

/-- Each token is exchanged at most once, and never after a login, a logout or a password reset
revoked it. -/
structure SingleUse (requests : ι → AuthRequest)
    (log : List (Commit AuthDatabase AuthWrite String ι)) : Prop where
  once : ∀ tokenHash, log.countP (exchanges requests tokenHash) ≤ 1
  unrevoked : ∀ before c after, log = before ++ c :: after → ∀ tokenHash,
    exchanges requests tokenHash c → ∀ e ∈ before, ¬ endsSession requests tokenHash e

theorem exchanges_iff {requests : ι → AuthRequest} {tokenHash : String}
    {c : Commit AuthDatabase AuthWrite String ι} : exchanges requests tokenHash c ↔
      ∃ token now draws client, requests c.request = .refreshToken token now draws client ∧
        AuthRuntime.sha256 token = tokenHash := by
  unfold exchanges
  split
  · rename_i hrequest
    simp [hrequest]
  · rename_i hother
    simp only [Bool.false_eq_true, false_iff]
    rintro ⟨token, now, draws, client, hrequest, _⟩
    exact hother token now draws client hrequest

variable [Runtime] {requests : ι → AuthRequest} {db : AuthDatabase}
  {world : World AuthDatabase AuthWrite String AuthEffect AuthException (Option TokenResponse) ι}
  {before after : List (Commit AuthDatabase AuthWrite String ι)}
  {c : Commit AuthDatabase AuthWrite String ι}

/-- Every commit is an exchange of its token, or only revokes. -/
theorem commit_cases (hsound : world.Sound authEngine db fun i => (requests i).program)
    (hlog : world.log = before ++ c :: after) :
    (∃ token now draws client, requests c.request = .refreshToken token now draws client ∧
      Exchanged (AuthRuntime.sha256 token) c.history) ∨
    ((∀ token now draws client, requests c.request ≠ .refreshToken token now draws client) ∧
      Revokes c.history) := by
  obtain ⟨⟨result, hrun⟩, _⟩ := hsound.logged before c after hlog
  generalize requests c.request = request at hrun ⊢
  cases request with
  | login email password draws client =>
    exact .inr ⟨by simp, (login_ensures email password draws client).finished hrun⟩
  | refreshToken token now draws client =>
    exact .inl ⟨token, now, draws, client, rfl,
      (refreshToken_ensures token now draws client).finished hrun⟩
  | logout token => exact .inr ⟨by simp, (logout_ensures token).finished hrun⟩
  | verifyOtp email otp answer =>
    exact .inr ⟨by simp, (verifyOtp_ensures email otp answer).finished hrun⟩

theorem revoked_of_log (hsound : world.Sound authEngine db fun i => (requests i).program)
    (hlog : world.log = before ++ c :: after) {tokenHash : String}
    (hrevoke : AuthWrite.revoke tokenHash ∈ c.writes) :
    (replay authEngine db (before ++ [c])).revoked? tokenHash = some true := by
  refine revoked_of_commit (hsound.logged before c after hlog).2 ?_ hrevoke
  rcases commit_cases hsound hlog with ⟨_, _, _, _, _, hexchanged⟩ | ⟨_, hrevokes⟩
  · intro o ho key hkey
    generalize c.history = history at hexchanged ho
    cases hexchanged with
    | rotated hvalid token =>
      simp only [List.mem_cons, List.not_mem_nil, or_false] at ho
      rcases ho with rfl | rfl | rfl | rfl
      · cases hkey
      · cases hkey
      · exact (mem_revokeRefreshToken hkey).2
      · simp at hkey
  · exact fun o ho => (hrevokes o ho).2

theorem unrevoked_before (hsound : world.Sound authEngine db fun i => (requests i).program)
    (hlog : world.log = before ++ c :: after) (hvalid : c.Valid AuthWrite.touches before)
    {tokenHash : String} (hexchange : exchanges requests tokenHash c) :
    ∀ e ∈ before, AuthWrite.revoke tokenHash ∉ e.writes := by
  intro e he hrevoke
  obtain ⟨earlier, later, rfl⟩ := List.append_of_mem he
  have hrevoked : (replay authEngine db (earlier ++ e :: later)).revoked? tokenHash =
      some true := by
    have hlog' : world.log = earlier ++ e :: (later ++ c :: after) := by simp [hlog]
    have hcommit := revoked_of_log hsound hlog' hrevoke
    have hkept := revoked_replay hcommit later
    rwa [List.append_assoc] at hkept
  obtain ⟨token, now, draws, client, hrequest, rfl⟩ := exchanges_iff.mp hexchange
  have hviews := (hsound.logged _ c after hlog).2
  rcases commit_cases hsound hlog with ⟨_, _, _, _, hrequest', hexchanged⟩ | ⟨hother, _⟩
  · rw [hrequest] at hrequest'
    cases hrequest'
    obtain ⟨request, history⟩ := c
    cases hexchanged with
    | @rotated position₁ _ _ _ view₁ _ _ _ hread =>
      have hview : view₁ = replay authEngine db ((earlier ++ e :: later).take position₁) :=
        hviews.view [] _ _ rfl
      have hstill := hvalid.still authEngine db
        (fun db => db.revoked? (AuthRuntime.sha256 token) = some false) List.mem_cons_self
        List.mem_cons_self (fun _ _ htouches hdb => unrevoked_apply hdb htouches)
        (hview ▸ hread)
      rw [hrevoked] at hstill
      cases hstill
  · exact hother token now draws client hrequest

/-- An exchange that is not valid breaks single use. -/
theorem valid_of_singleUse (hsound : world.Sound authEngine db fun i => (requests i).program)
    (hsingle : SingleUse requests world.log) (hlog : world.log = before ++ c :: after) :
    c.Valid AuthWrite.touches before := by
  intro o ho key hkey e he w hw
  have hebefore := List.mem_of_mem_drop he
  rcases commit_cases hsound hlog with ⟨token, now, draws, client, hrequest, hexchanged⟩ |
    ⟨_, hrevokes⟩
  · have hhash : key = AuthRuntime.sha256 token := by
      generalize c.history = history at hexchanged ho
      cases hexchanged with
      | rotated =>
        simp only [List.mem_cons, List.not_mem_nil, or_false] at ho
        rcases ho with rfl | rfl | rfl | rfl
        · exact List.mem_singleton.mp hkey
        · cases hkey
        · cases hkey
        · cases hkey
    subst hhash
    have hexchange : exchanges requests (AuthRuntime.sha256 token) c :=
      exchanges_iff.mpr ⟨token, now, draws, client, hrequest, rfl⟩
    rw [← Bool.not_eq_true]
    intro htouches
    have hrevoke : AuthWrite.revoke (AuthRuntime.sha256 token) ∈ e.writes := by
      cases w with
      | revoke tokenHash => simpa [AuthWrite.touches, ← beq_iff_eq.mp htouches] using hw
      | insertToken | setPassword => cases htouches
    obtain ⟨earlier, later, rfl⟩ := List.append_of_mem hebefore
    have hlog' : world.log = earlier ++ e :: (later ++ c :: after) := by simp [hlog]
    rcases commit_cases hsound hlog' with ⟨token', now', draws', client', hrequest', hexchanged'⟩ |
      ⟨hother, _⟩
    · have hexchange' : exchanges requests (AuthRuntime.sha256 token) e := by
        have hsame := hexchanged'.eq_of_revokes hrevoke
        exact exchanges_iff.mpr ⟨token', now', draws', client', hrequest', hsame.symm⟩
      have honce := hsingle.once (AuthRuntime.sha256 token)
      rw [hlog, List.countP_append, List.countP_append, List.countP_cons_of_pos hexchange',
        List.countP_cons_of_pos hexchange] at honce
      omega
    · exact hsingle.unrevoked _ c after hlog _ hexchange e hebefore ⟨hrevoke, hother⟩
  · rw [(hrevokes o ho).1] at hkey
    cases hkey

variable [DecidableEq ι] [Fintype ι]

/-- In every interleaving refresh tokens are used once exactly when no commit revokes a token
between its validation and the commit of its exchange. -/
theorem refresh_tokens_single_use (db : AuthDatabase) (requests : ι → AuthRequest)
    (moves : List (Move ι)) :
    let log := (Runs.exec (World.scheduler authEngine)
      (World.start db fun i => (requests i).program) moves).log
    SingleUse requests log ↔
      ∀ before c after, log = before ++ c :: after → c.Valid AuthWrite.touches before := by
  intro log
  have hsound : World.Sound authEngine db (fun i => (requests i).program) (Runs.exec
    (World.scheduler authEngine) (World.start db fun i => (requests i).program) moves) :=
    scheduler_sound moves
  constructor
  · intro hsingle before c after hlog
    exact valid_of_singleUse hsound hsingle hlog
  · intro hvalid
    have hbefore (before after : List (Commit AuthDatabase AuthWrite String ι))
        (c : Commit AuthDatabase AuthWrite String ι) (hlog : log = before ++ c :: after)
        (tokenHash : String) (hexchange : exchanges requests tokenHash c) :
        ∀ e ∈ before, AuthWrite.revoke tokenHash ∉ e.writes :=
      unrevoked_before hsound hlog (hvalid before c after hlog) hexchange
    constructor
    · intro tokenHash
      apply countP_le_one
      intro before c after hlog hexchange e he hexchange'
      obtain ⟨earlier, later, hsplit⟩ := List.append_of_mem he
      have hlog' : log = earlier ++ e :: (later ++ c :: after) := by simp [hlog, hsplit]
      obtain ⟨token, now, draws, client, hrequest, rfl⟩ := exchanges_iff.mp hexchange'
      rcases commit_cases hsound hlog' with ⟨_, _, _, _, hrequest', hexchanged⟩ | ⟨hother, _⟩
      · rw [hrequest] at hrequest'
        cases hrequest'
        exact hbefore before after c hlog _ hexchange e he
          (hexchanged.revokes (hsound.logged earlier e _ hlog').2)
      · exact hother token now draws client hrequest
    · intro before c after hlog tokenHash hexchange e he hends
      exact hbefore before after c hlog tokenHash hexchange e he hends.1

end SingleUse

section Race

/-- The digests of the tokens of one recruiter, and a fixed access token. -/
@[reducible] def sampleAuth : AuthRuntime where
  sha256 text :=
    if text = "issued-at-login" then
      "a1fc69a140e9cda3c73c37227191b56f3f2ef7db7f8c08cc363fb49c0695ff57"
    else if text = "first-rotation" then
      "7dbd44d13d38bc6212977a1a559cda4059be590418cb81b0b72d569c17494203"
    else "3a4e6ced88bd46b9f7dd9d58c7849e6873d22da01831d37d9878371d7aa88f32"
  verifyPassword password hashed := hashed == "hash of " ++ password
  createAccessToken _ _ _ _ := "access-token"

def loggedIn : AuthDatabase where
  recruiters := [⟨⟨1, "Acme"⟩, "ada@acme.example", "hash of secret", true⟩]
  recruiterTokens := [⟨10, 1, sampleAuth.sha256 "issued-at-login", 7 * (24 * Time.hour), false,
    none, none⟩]

def racingRequests (logout : Bool) (i : Fin 2) : AuthRequest :=
  if i = 0 then
    .refreshToken "issued-at-login" 1 ⟨11, "first-rotation", 1⟩ ⟨none, none⟩
  else if logout then .logout "issued-at-login"
  else .refreshToken "issued-at-login" 1 ⟨12, "second-rotation", 1⟩ ⟨none, none⟩

/-- The first request validates the token; then the second runs, and then the first goes on. -/
def racingMoves : List (Move (Fin 2)) :=
  .advance 0 :: List.replicate 5 (.advance 1) ++ List.replicate 4 (.advance 0)

def racingLog (logout : Bool) : List (Commit AuthDatabase AuthWrite String (Fin 2)) :=
  let _ : Runtime := .ascii
  let _ : AuthRuntime := sampleAuth
  (Runs.exec (World.scheduler authEngine)
    (World.start loggedIn fun i => (racingRequests logout i).program) racingMoves).log

/-- Two requests exchange one token, and a token is exchanged after its logout. -/
theorem refresh_tokens_race :
    ¬ @SingleUse (Fin 2) sampleAuth (racingRequests false) (racingLog false) ∧
      ¬ @SingleUse (Fin 2) sampleAuth (racingRequests true) (racingLog true) := by
  let _ : AuthRuntime := sampleAuth
  constructor
  · intro hsingle
    have honce := hsingle.once (sampleAuth.sha256 "issued-at-login")
    have htwice : (racingLog false).countP (exchanges (racingRequests false)
      (sampleAuth.sha256 "issued-at-login")) = 2 := by decide +kernel
    omega
  · intro hsingle
    have hrequests : (racingLog true).map (·.request) = [1, 0] := by decide +kernel
    have htouched : (racingLog true).all (fun e => e.writes.any
      (·.touches (sampleAuth.sha256 "issued-at-login"))) = true := by decide +kernel
    obtain ⟨e, c, hlog⟩ := List.length_eq_two.mp (by simpa using congrArg List.length hrequests)
    rw [hlog] at hrequests htouched
    obtain ⟨he, hc⟩ : e.request = 1 ∧ c.request = 0 := by simpa using hrequests
    have hrevoke : AuthWrite.revoke (sampleAuth.sha256 "issued-at-login") ∈ e.writes := by
      simp only [List.all_cons, Bool.and_eq_true, List.any_eq_true] at htouched
      obtain ⟨w, hw, hkey⟩ := htouched.1
      cases w with
      | revoke tokenHash => simpa [← beq_iff_eq.mp hkey] using hw
      | insertToken | setPassword => cases hkey
    refine hsingle.unrevoked [e] c [] hlog (sampleAuth.sha256 "issued-at-login") ?_ e
      List.mem_cons_self ⟨hrevoke, ?_⟩
    · simp [exchanges, hc, racingRequests]
    · simp [he, racingRequests]

end Race

end IBotCoreApi
