import IBotCoreApi.Library.Effects

namespace Transactions

variable {σ ω κ χ ε α : Type*}

/-- A connection in its transaction: the rows that it sees and the effects that wait for its
commit. -/
structure Connection (σ χ : Type*) where
  database : σ
  registered : List χ
  aborted : Bool

namespace Program

variable (engine : Engine σ ω ε) (pending : ε) (faults : ℕ → Option ε)

/-- A program in a transaction.  Its statement number `k` fails if the engine refuses it or `faults k`
says so; in an aborted transaction every statement raises `pending`. -/
def attempt : Program σ ω κ χ ε α → ℕ → Connection σ χ → Except ε α × Connection σ χ
  | finish result, _, c => (.ok result, c)
  | raise error, _, c => (.error error, c)
  | statement _ writes next, k, c =>
    if c.aborted then (.error pending, c)
    else
      match (faults k).or (engine.refusal c.database (writes c.database)) with
      | some error => (.error error, { c with aborted := true })
      | none => (next c.database).attempt (k + 1)
          { c with database := engine.applyAll c.database (writes c.database) }
  | emit _ next, k, c => next.attempt k c
  | afterCommit effect next, k, c =>
    next.attempt k { c with registered := c.registered ++ [effect] }

/-- No statement that the program executes from here fails. -/
def Undisturbed : Program σ ω κ χ ε α → ℕ → σ → Prop
  | finish _, _, _ => True
  | raise _, _, _ => True
  | statement _ writes next, k, s => faults k = none ∧ engine.refusal s (writes s) = none ∧
      (next s).Undisturbed (k + 1) (engine.applyAll s (writes s))
  | emit _ next, k, s => next.Undisturbed k s
  | afterCommit _ next, k, s => next.Undisturbed k s

/-- The program raises nothing by itself. -/
def Calm : Program σ ω κ χ ε α → Prop
  | finish _ => True
  | raise _ => False
  | statement _ _ next => ∀ s, (next s).Calm
  | emit _ next => next.Calm
  | afterCommit _ next => next.Calm

variable {engine pending faults} {p : Program σ ω κ χ ε α} {k : ℕ} {s s' : σ}
  {registered registered' : List χ} {result : α}

/-- Undisturbed, a program does in the transaction what it does on its own. -/
theorem attempt_of_undisturbed (pending : ε) (h : p.Undisturbed engine faults k s)
    (hrun : p.perform engine s registered = .ok (result, s', registered')) :
    p.attempt engine pending faults k ⟨s, registered, false⟩ =
      (.ok result, ⟨s', registered', false⟩) := by
  induction p generalizing k s registered with
  | finish =>
    cases hrun
    rfl
  | raise => cases hrun
  | statement reads writes next ih =>
    obtain ⟨hfault, hrefusal, hnext⟩ := h
    unfold perform at hrun
    rw [hrefusal] at hrun
    simp only [attempt, Bool.false_eq_true, if_false, hfault, Option.none_or, hrefusal]
    exact ih s hnext hrun
  | emit effect next ih => exact ih h hrun
  | afterCommit effect next ih => exact ih h hrun

/-- The first failing statement aborts the transaction. -/
theorem attempt_of_disturbed (pending : ε) (registered : List χ)
    (h : ¬ p.Undisturbed engine faults k s) :
    ∃ error database registered', p.attempt engine pending faults k ⟨s, registered, false⟩ =
      (.error error, ⟨database, registered', true⟩) := by
  induction p generalizing k s registered with
  | finish | raise => exact absurd trivial h
  | statement reads writes next ih =>
    simp only [attempt, Bool.false_eq_true, if_false]
    cases hfails : (faults k).or (engine.refusal s (writes s)) with
    | some error => exact ⟨error, s, registered, rfl⟩
    | none =>
      obtain ⟨hfault, hrefusal⟩ := Option.or_eq_none_iff.mp hfails
      exact ih s registered fun hnext => h ⟨hfault, hrefusal, hnext⟩
  | emit effect next ih => exact ih registered h
  | afterCommit effect next ih => exact ih (registered ++ [effect]) h

theorem Undisturbed.perform (h : p.Undisturbed engine faults k s) (hcalm : p.Calm)
    (registered : List χ) : ∃ outcome, p.perform engine s registered = .ok outcome := by
  induction p generalizing k s registered with
  | finish result => exact ⟨_, rfl⟩
  | raise => exact hcalm.elim
  | statement reads writes next ih =>
    obtain ⟨_, hrefusal, hnext⟩ := h
    unfold Program.perform
    rw [hrefusal]
    exact ih s hnext (hcalm s) registered
  | emit effect next ih => exact ih h hcalm registered
  | afterCommit effect next ih => exact ih h hcalm _

theorem calm_select {β : Type*} {reads : List κ} {answer : σ → β}
    {next : β → Program σ ω κ χ ε α} (h : ∀ b, (next b).Calm) : (select reads answer next).Calm :=
  fun s => h (answer s)

theorem calm_write {w : ω} (h : p.Calm) : (write w p).Calm := fun _ => h

theorem undisturbed_of_perform {outcome : α × σ × List χ} (hfaults : ∀ k, faults k = none)
    (hrun : p.perform engine s registered = .ok outcome) : p.Undisturbed engine faults k s := by
  induction p generalizing k s registered with
  | finish | raise => trivial
  | statement reads writes next ih =>
    unfold perform at hrun
    cases hrefusal : engine.refusal s (writes s) with
    | some error =>
      rw [hrefusal] at hrun
      cases hrun
    | none =>
      rw [hrefusal] at hrun
      exact ⟨hfaults k, hrefusal, ih s hrun⟩
  | emit effect next ih => exact ih hrun
  | afterCommit effect next ih => exact ih hrun

theorem attempt_afterCommits (effects : List χ) (c : Connection σ χ) :
    (effects.foldr .afterCommit p).attempt engine pending faults k c =
      p.attempt engine pending faults k { c with registered := c.registered ++ effects } := by
  induction effects generalizing c with
  | nil => rw [List.append_nil]; rfl
  | cons effect effects ih =>
    rw [List.foldr_cons, attempt, ih, List.append_assoc]
    rfl

end Program

end Transactions
