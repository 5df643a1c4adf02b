import IBotCoreApi.BulkUploads

namespace IBotCoreApi
open Python Transactions RecruiterRequests

section Loop

variable {χ δ : Type*}

/-- `register_after_commit_callback`: the list under the key of `session.info`. -/
def registerAfterCommitCallback (info : Option (List χ)) (callback : χ) : Option (List χ) :=
  some (info.getD [] ++ [callback])

/-- The callbacks that the loop invokes and the exception that ends it; `raises` tells how each
invocation ends. -/
def invokeCallbacks (raises : ℕ → Option δ) : ℕ → List χ → List χ × Option δ
  | _, [] => ([], none)
  | i, callback :: callbacks =>
    match raises i with
    | some error => ([callback], some error)
    | none =>
      let (invoked, error) := invokeCallbacks raises (i + 1) callbacks
      (callback :: invoked, error)

/-- `run_after_commit_callbacks`: the registered callbacks are popped first. -/
def runAfterCommitCallbacks (raises : ℕ → Option δ) (info : Option (List χ)) :
    (List χ × Option δ) × Option (List χ) :=
  (invokeCallbacks raises 0 (info.getD []), none)

variable {raises : ℕ → Option δ} {i : ℕ} {callbacks : List χ}

theorem invokeCallbacks_prefix (raises : ℕ → Option δ) (i : ℕ) (callbacks : List χ) :
    (invokeCallbacks raises i callbacks).1 <+: callbacks := by
  induction callbacks generalizing i with
  | nil => exact List.prefix_refl _
  | cons callback callbacks ih =>
    unfold invokeCallbacks
    cases raises i with
    | some error => exact List.prefix_append [callback] callbacks
    | none => exact List.cons_prefix_cons.mpr ⟨rfl, ih (i + 1)⟩

theorem invokeCallbacks_eq_iff : (invokeCallbacks raises i callbacks).1 = callbacks ↔
    ∀ j, j + 1 < callbacks.length → raises (i + j) = none := by
  induction callbacks generalizing i with
  | nil => simp [invokeCallbacks]
  | cons callback callbacks ih =>
    unfold invokeCallbacks
    cases hraises : raises i with
    | some error =>
      cases callbacks with
      | nil => simp
      | cons next callbacks =>
        refine iff_of_false (by simp) fun hnone => ?_
        have hfirst := hnone 0 (by simp)
        rw [Nat.add_zero, hraises] at hfirst
        cases hfirst
    | none =>
      simp only [List.cons.injEq, true_and, ih, List.length_cons, Nat.add_lt_add_iff_right]
      constructor
      · intro hnone j hj
        cases j with
        | zero => exact hraises
        | succ j =>
          rw [← Nat.add_assoc, Nat.add_right_comm]
          exact hnone j (by omega)
      · intro hnone j hj
        rw [Nat.add_right_comm, Nat.add_assoc]
        exact hnone (j + 1) (by omega)

theorem foldl_registerAfterCommitCallback (info : Option (List χ)) (callbacks : List χ) :
    (callbacks.foldl registerAfterCommitCallback info).getD [] = info.getD [] ++ callbacks := by
  induction callbacks generalizing info with
  | nil => rw [List.append_nil]; rfl
  | cons callback callbacks ih =>
    rw [List.foldl_cons, ih, registerAfterCommitCallback, Option.getD_some, List.append_assoc]
    rfl

end Loop

section Scope

variable {σ ω κ χ ε δ α : Type*}

/-- How a session scope ends: with the result of its body, or an exception of the body, the commit or
a callback. -/
inductive ScopeResult (α ε δ : Type*) where
  | returned (result : α)
  | body (error : ε)
  | commit (error : δ)
  | callback (error : δ)

/-- What a session scope leaves: the rows, the callbacks that it has invoked, and those that are
still registered. -/
structure ScopeOutcome (σ χ α ε δ : Type*) where
  result : ScopeResult α ε δ
  database : σ
  invoked : List χ
  info : Option (List χ)

/-- `async_session_scope` around the program of a request that runs alone. -/
def asyncSessionScope (engine : Engine σ ω ε) (commit : Option δ) (raises : ℕ → Option δ)
    (p : Program σ ω κ χ ε α) (s : σ) : ScopeOutcome σ χ α ε δ :=
  match p.perform engine s [] with
  | .error error => ⟨.body error, s, [], none⟩
  | .ok (result, s', registered) =>
    let info := registered.foldl registerAfterCommitCallback none
    match commit with
    | some error => ⟨.commit error, s, [], info⟩
    | none =>
      let ((invoked, raised), info) := runAfterCommitCallbacks raises info
      ⟨raised.elim (.returned result) .callback, s', invoked, info⟩

variable {engine : Engine σ ω ε} {p : Program σ ω κ χ ε α} {s s' : σ} {result : α}
  {registered : List χ}

theorem asyncSessionScope_commits (raises : ℕ → Option δ)
    (hrun : p.perform engine s [] = .ok (result, s', registered)) :
    (asyncSessionScope engine none raises p s).database = s' ∧
      (asyncSessionScope engine none raises p s).invoked =
        (invokeCallbacks raises 0 registered).1 ∧
      (asyncSessionScope engine none raises p s).info = none := by
  unfold asyncSessionScope
  rw [hrun]
  refine ⟨rfl, ?_, rfl⟩
  show (invokeCallbacks raises 0
    ((registered.foldl registerAfterCommitCallback none).getD [])).1 = _
  rw [foldl_registerAfterCommitCallback]
  rfl

variable (engine p s) in
/-- A session scope commits and invokes some of the registered callbacks, or leaves the rows alone
and invokes none. -/
theorem asyncSessionScope_cases (commit : Option δ) (raises : ℕ → Option δ) :
    ((asyncSessionScope engine commit raises p s).database = s ∧
        (asyncSessionScope engine commit raises p s).invoked = []) ∨
      ∃ result registered,
        p.perform engine s [] =
          .ok (result, (asyncSessionScope engine commit raises p s).database, registered) ∧
        (asyncSessionScope engine commit raises p s).invoked <+: registered := by
  cases hrun : p.perform engine s [] with
  | error error =>
    left
    simp only [asyncSessionScope, hrun, and_self]
  | ok committed =>
    obtain ⟨result, s', registered⟩ := committed
    cases commit with
    | some error =>
      left
      simp only [asyncSessionScope, hrun, and_self]
    | none =>
      obtain ⟨hdatabase, hinvoked, _⟩ := asyncSessionScope_commits raises hrun
      refine .inr ⟨result, registered, ?_, ?_⟩
      · rw [hdatabase]
      · rw [hinvoked]
        exact invokeCallbacks_prefix raises 0 registered

end Scope

section Uploads

theorem length_flatMap_pair {β γ : Type*} (f g : β → γ) (xs : List β) :
    (xs.flatMap fun x => [f x, g x]).length = 2 * xs.length := by
  induction xs with
  | nil => rfl
  | cons x xs ih =>
    have htwo : [f x, g x].length = 2 := rfl
    rw [List.flatMap_cons, List.length_append, ih, htwo, List.length_cons]
    omega

variable [Runtime] {clock : Clock} {recruiterId assessmentId : Uuid} {file : CsvFile}
  {filename : String} {uploadId : Uuid} {draws : ℕ → RowDraws} {db db' : RecruiterDatabase}
  {outcome : RecruiterResponse} {registered : List RecruiterEffect}

theorem bulkUploadFromCsv_registers (hkeyed : db.Keyed)
    (hrun : (bulkUploadFromCsv clock recruiterId assessmentId file filename uploadId draws).perform
      recruiterEngine db [] = .ok (outcome, db', registered)) :
    ∃ (a : Assessment) (records : List ProcessedRecord),
      db'.enrollments = db.enrollments ++ records.map (·.enrollment) ∧
      registered = records.flatMap fun record =>
        [.invitationEmail record.enrollment.id record.name record.email a
            record.enrollment.invitationToken,
          .resumeFromUrl record.enrollment.id record.enrollment.resumeFilePath] := by
  obtain ⟨a, rows, steps, last, _, _, _, hsteps, hfinish⟩ := bulkUploadFromCsv_returns hrun
  have haccount := rowSteps_account hsteps hkeyed
  rw [finishUpload_perform] at hfinish
  cases hfinish
  exact ⟨a, steps.filterMap (·.report.created), haccount.enrollments,
    (List.nil_append _).trans haccount.callbacks⟩

/-- After a commit every registered callback is invoked, once and in order, exactly when no callback
before the last one raises; in an upload these are the invitation and the resume of each new
enrollment. -/
theorem callbacks_all_run_iff {σ ω κ χ ε δ α : Type*} :
    (∀ (engine : Engine σ ω ε) (p : Program σ ω κ χ ε α) (s s' : σ) (result : α)
        (registered : List χ) (raises : ℕ → Option δ),
      p.perform engine s [] = .ok (result, s', registered) →
      let outcome := asyncSessionScope engine none raises p s
      outcome.database = s' ∧ outcome.info = none ∧ outcome.invoked <+: registered ∧
        (outcome.invoked = registered ↔ ∀ i, i + 1 < registered.length → raises i = none)) ∧
    ∀ (store : RecruiterStore) clock recruiterId assessmentId file filename uploadId draws
        (raises : ℕ → Option δ) response db' registered,
      (bulkUploadFromCsv clock recruiterId assessmentId file filename uploadId draws).perform
        recruiterEngine store.db [] = .ok (response, db', registered) →
      let outcome := asyncSessionScope recruiterEngine none raises
        (bulkUploadFromCsv clock recruiterId assessmentId file filename uploadId draws) store.db
      ∃ (a : Assessment) (records : List ProcessedRecord),
        outcome.database.enrollments = store.db.enrollments ++ records.map (·.enrollment) ∧
        (outcome.invoked = records.flatMap (fun record =>
            [.invitationEmail record.enrollment.id record.name record.email a
                record.enrollment.invitationToken,
              .resumeFromUrl record.enrollment.id record.enrollment.resumeFilePath]) ↔
          ∀ i, i + 1 < 2 * records.length → raises i = none) := by
  constructor
  · intro engine p s s' result registered raises hrun outcome
    obtain ⟨hdatabase, hinvoked, hinfo⟩ := asyncSessionScope_commits raises hrun
    rw [show outcome.invoked = _ from hinvoked, invokeCallbacks_eq_iff]
    refine ⟨hdatabase, hinfo, invokeCallbacks_prefix raises 0 registered, ?_⟩
    simp only [Nat.zero_add]
  · intro store clock recruiterId assessmentId file filename uploadId draws raises response db'
      registered hrun outcome
    obtain ⟨hdatabase, hinvoked, _⟩ := asyncSessionScope_commits raises hrun
    obtain ⟨a, records, henrollments, rfl⟩ := bulkUploadFromCsv_registers store.keyed hrun
    refine ⟨a, records, ?_, ?_⟩
    · rw [show outcome.database = _ from hdatabase]
      exact henrollments
    · rw [show outcome.invoked = _ from hinvoked, invokeCallbacks_eq_iff, length_flatMap_pair]
      simp only [Nat.zero_add]

def twoRowsFile : CsvFile :=
  .table (some ["name", "email", "resume"]) (some [
    [("name", some "Bob"), ("email", some "bob@mail.example"), ("resume", some "bob.pdf")],
    [("name", some "Eve"), ("email", some "eve@mail.example"), ("resume", some "eve.pdf")]])

def twoRowsUpload : RecruiterProgram :=
  bulkUploadFromCsv ⟨10, 10⟩ 1 10 twoRowsFile "candidates.csv" 70
    fun i => ⟨80 + i, ⟨90 + i, 100 + i⟩⟩

omit [Runtime] in
/-- When the first invitation cannot be enqueued, three callbacks of two committed enrollments are
lost. -/
theorem failed_enqueue_loses_work :
    let _ : Runtime := .ascii
    ¬ ∀ raises : ℕ → Option Unit, ∀ response db' registered,
      twoRowsUpload.perform recruiterEngine sharedStore.db [] = .ok (response, db', registered) →
        (asyncSessionScope recruiterEngine none raises twoRowsUpload sharedStore.db).invoked =
          registered := by
  intro runtime hall
  have hregistered : (twoRowsUpload.perform recruiterEngine sharedStore.db []).toOption.any
      fun committed => committed.2.2.length == 4 := by decide +kernel
  obtain ⟨committed, hsome, hlength⟩ := (Option.any_eq_true _ _).mp hregistered
  obtain ⟨response, db', registered⟩ := committed
  have hinvoked := hall (fun i => if i = 0 then some () else none) response db' registered
    (Outcomes.toOption_eq_some.mp hsome)
  have hone : (asyncSessionScope recruiterEngine none (fun i => if i = 0 then some () else none)
      twoRowsUpload sharedStore.db).invoked.length = 1 := by decide +kernel
  rw [hinvoked, beq_iff_eq.mp hlength] at hone
  cases hone

end Uploads

end IBotCoreApi
