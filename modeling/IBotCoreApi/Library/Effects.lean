import IBotCoreApi.Library.Transactions

namespace Transactions

variable {σ ω κ χ ε α : Type*}

inductive Event (χ : Type*) where
  | statement
  | effect (effect : χ)
  | commit

def Engine.accept (engine : Engine σ ω ε) (s : σ) (w : ω) : Except ε σ :=
  match engine.refuses s w with
  | some error => .error error
  | none => .ok (engine.apply s w)

theorem Engine.accept_eq_ok {engine : Engine σ ω ε} {s s' : σ} {w : ω} :
    engine.accept s w = .ok s' ↔ engine.refuses s w = none ∧ s' = engine.apply s w := by
  unfold Engine.accept
  cases engine.refuses s w with
  | none => simp [eq_comm]
  | some error => simp

theorem Engine.accept_bind_eq_ok {engine : Engine σ ω ε} {s : σ} {w : ω} {f : σ → Except ε α}
    {a : α} :
    (engine.accept s w).bind f = .ok a ↔
      engine.refuses s w = none ∧ f (engine.apply s w) = .ok a := by
  unfold Engine.accept
  cases engine.refuses s w with
  | none => simp [Except.bind]
  | some error => simp [Except.bind]

namespace Program

variable (engine : Engine σ ω ε) (kind : χ → Prop)

/-- What a request does on its own.  A refused statement ends it; the registered effects follow the
commit. -/
def trace : Program σ ω κ χ ε α → σ → List χ → List (Event χ)
  | finish _, _, registered => .commit :: registered.map .effect
  | raise _, _, _ => []
  | statement _ writes next, s, registered =>
    match engine.refusal s (writes s) with
    | some _ => []
    | none => .statement :: (next s).trace (engine.applyAll s (writes s)) registered
  | emit effect next, s, registered => .effect effect :: next.trace s registered
  | afterCommit effect next, s, registered => next.trace s (registered ++ [effect])

/-- Wherever the transaction fails before its commit, it has caused no effect of a kind. -/
def NoEarlyEffect (p : Program σ ω κ χ ε α) (s : σ) : Prop :=
  ∀ done, done <+: p.trace engine s [] → Event.commit ∉ done →
    ∀ effect, Event.effect effect ∈ done → ¬ kind effect

def Quiet : Program σ ω κ χ ε α → σ → Prop
  | finish _, _ => True
  | raise _, _ => True
  | statement _ writes next, s =>
    engine.refusal s (writes s) = none → (next s).Quiet (engine.applyAll s (writes s))
  | emit effect next, s => ¬ kind effect ∧ next.Quiet s
  | afterCommit _ next, s => next.Quiet s

/-- No effect of the kind is caused at once, whatever rows the statements see. -/
def Silent : Program σ ω κ χ ε α → Prop
  | finish _ => True
  | raise _ => True
  | statement _ _ next => ∀ s, (next s).Silent
  | emit effect next => ¬ kind effect ∧ next.Silent
  | afterCommit _ next => next.Silent

variable {engine kind} {p : Program σ ω κ χ ε α} {s : σ}

theorem forall_done_cons {event : Event χ} {events : List (Event χ)} (hevent : event ≠ .commit) :
    (∀ done, done <+: event :: events → Event.commit ∉ done →
      ∀ effect, Event.effect effect ∈ done → ¬ kind effect) ↔
    (∀ effect, event = .effect effect → ¬ kind effect) ∧
      ∀ done, done <+: events → Event.commit ∉ done →
        ∀ effect, Event.effect effect ∈ done → ¬ kind effect := by
  constructor
  · intro h
    constructor
    · rintro effect rfl
      exact h [.effect effect] (by simp) (by simp) effect List.mem_cons_self
    · intro done hdone hcommit effect heffect
      exact h (event :: done) (List.cons_prefix_cons.mpr ⟨rfl, hdone⟩)
        (by simp [hcommit, hevent.symm]) effect (List.mem_cons_of_mem event heffect)
  · rintro ⟨hhead, htail⟩ done hdone hcommit effect heffect
    rcases List.prefix_cons_iff.mp hdone with rfl | ⟨rest, rfl, hrest⟩
    · cases heffect
    · rcases List.mem_cons.mp heffect with hfirst | hlater
      · exact hhead effect hfirst.symm
      · exact htail rest hrest (fun h => hcommit (List.mem_cons_of_mem event h)) effect hlater

theorem noEarlyEffect_iff_quiet : p.NoEarlyEffect engine kind s ↔ p.Quiet engine kind s := by
  unfold NoEarlyEffect
  generalize ([] : List χ) = registered
  induction p generalizing s registered with
  | finish result =>
    refine iff_of_true ?_ trivial
    intro done hdone hcommit effect heffect
    rcases List.prefix_cons_iff.mp hdone with rfl | ⟨rest, rfl, _⟩
    · cases heffect
    · exact absurd List.mem_cons_self hcommit
  | raise error =>
    refine iff_of_true ?_ trivial
    intro done hdone _ effect heffect
    rw [List.prefix_nil.mp hdone] at heffect
    cases heffect
  | statement reads writes next ih =>
    unfold trace Quiet
    cases hrefusal : engine.refusal s (writes s) with
    | some error =>
      refine iff_of_true ?_ (by simp)
      intro done hdone _ effect heffect
      rw [List.prefix_nil.mp hdone] at heffect
      cases heffect
    | none =>
      simp only [forall_true_left]
      rw [forall_done_cons (by simp), ih s]
      simp
  | emit effect next ih =>
    unfold trace Quiet
    rw [forall_done_cons (by simp), ih]
    simp
  | afterCommit effect next ih => exact ih _

theorem Silent.quiet (h : p.Silent kind) (s : σ) : p.Quiet engine kind s := by
  induction p generalizing s with
  | finish | raise => trivial
  | statement reads writes next ih => exact fun _ => ih s (h s) _
  | emit effect next ih => exact ⟨h.1, ih h.2 s⟩
  | afterCommit effect next ih => exact ih h s

def emitted (engine : Engine σ ω ε) : Program σ ω κ χ ε α → σ → List χ
  | finish _, _ => []
  | raise _, _ => []
  | statement _ writes next, s =>
    match engine.refusal s (writes s) with
    | some _ => []
    | none => (next s).emitted engine (engine.applyAll s (writes s))
  | emit effect next, s => effect :: next.emitted engine s
  | afterCommit _ next, s => next.emitted engine s

theorem Silent.emitted (h : p.Silent fun _ => True) (s : σ) : p.emitted engine s = [] := by
  induction p generalizing s with
  | finish | raise => rfl
  | statement reads writes next ih =>
    unfold Program.emitted
    cases engine.refusal s (writes s) with
    | some error => rfl
    | none => exact ih s (h s) _
  | emit effect next ih => exact absurd trivial h.1
  | afterCommit effect next ih => exact ih h s

theorem emitted_emit {effect : χ} {next : Program σ ω κ χ ε α} :
    (emit effect next).emitted engine s = effect :: next.emitted engine s := rfl

theorem emitted_select {β : Type*} {reads : List κ} {answer : σ → β}
    {next : β → Program σ ω κ χ ε α} :
    (select reads answer next).emitted engine s = (next (answer s)).emitted engine s := rfl

theorem emitted_statement {reads : List κ} {writes : σ → List ω}
    {next : σ → Program σ ω κ χ ε α} (h : engine.refusal s (writes s) = none) :
    (statement reads writes next).emitted engine s =
      (next s).emitted engine (engine.applyAll s (writes s)) := by
  rw [emitted, h]

/-- The result, the database and the registered effects of a request that commits on its own. -/
def perform (engine : Engine σ ω ε) : Program σ ω κ χ ε α → σ → List χ → Except ε (α × σ × List χ)
  | finish result, s, registered => .ok (result, s, registered)
  | raise error, _, _ => .error error
  | statement _ writes next, s, registered =>
    match engine.refusal s (writes s) with
    | some error => .error error
    | none => (next s).perform engine (engine.applyAll s (writes s)) registered
  | emit _ next, s, registered => next.perform engine s registered
  | afterCommit effect next, s, registered => next.perform engine s (registered ++ [effect])

theorem perform_invariant (Inv : σ → Prop)
    (h : ∀ s w, engine.refuses s w = none → Inv s → Inv (engine.apply s w))
    {p : Program σ ω κ χ ε α} {s s' : σ} {result : α} {registered registered' : List χ}
    (hrun : p.perform engine s registered = .ok (result, s', registered')) (hs : Inv s) :
    Inv s' := by
  induction p generalizing s registered with
  | finish =>
    cases hrun
    exact hs
  | raise => cases hrun
  | statement reads writes next ih =>
    simp only [perform] at hrun
    split at hrun
    · cases hrun
    · next hrefusal => exact ih s hrun (engine.applyAll_accepted Inv h hrefusal hs)
  | emit _ _ ih => exact ih hrun hs
  | afterCommit _ _ ih => exact ih hrun hs

section Execute

theorem execute_select {β : Type*} {reads : List κ} {answer : σ → β}
    {next : β → Program σ ω κ χ ε α} :
    (select reads answer next).execute engine s = (next (answer s)).execute engine s := rfl

theorem execute_emit {effect : χ} {next : Program σ ω κ χ ε α} :
    (emit effect next).execute engine s = next.execute engine s := rfl

theorem execute_write {w : ω} {next : Program σ ω κ χ ε α} :
    (write w next).execute engine s = (engine.accept s w).bind (next.execute engine) := by
  have hrefusal : engine.refusal s [w] = engine.refuses s w := Option.or_none
  rw [write, execute, hrefusal, Engine.accept]
  cases engine.refuses s w with
  | none => rfl
  | some error => rfl

theorem execute_statement {reads : List κ} {writes : σ → List ω}
    {next : σ → Program σ ω κ χ ε α} (h : engine.refusal s (writes s) = none) :
    (statement reads writes next).execute engine s =
      (next s).execute engine (engine.applyAll s (writes s)) := by
  rw [execute, h]

end Execute

section Perform

variable (engine)

theorem perform_select {β : Type*} {reads : List κ} {answer : σ → β}
    {next : β → Program σ ω κ χ ε α} (s : σ) (registered : List χ) :
    (select reads answer next).perform engine s registered =
      (next (answer s)).perform engine s registered := rfl

theorem perform_write {w : ω} {next : Program σ ω κ χ ε α} (s : σ) (registered : List χ) :
    (write w next).perform engine s registered =
      (engine.accept s w).bind fun s' => next.perform engine s' registered := by
  have hrefusal : engine.refusal s [w] = engine.refuses s w := Option.or_none
  rw [write, perform, hrefusal, Engine.accept]
  cases engine.refuses s w with
  | none => rfl
  | some error => rfl

variable {engine} in
theorem perform_write_eq_ok {w : ω} {next : Program σ ω κ χ ε α} {registered : List χ}
    {outcome : α × σ × List χ} :
    (write w next).perform engine s registered = .ok outcome ↔
      engine.refuses s w = none ∧
        next.perform engine (engine.apply s w) registered = .ok outcome := by
  rw [perform_write, Engine.accept_bind_eq_ok]

theorem perform_afterCommits (effects : List χ) (p : Program σ ω κ χ ε α) (s : σ)
    (registered : List χ) :
    (effects.foldr .afterCommit p).perform engine s registered =
      p.perform engine s (registered ++ effects) := by
  induction effects generalizing registered with
  | nil => rw [List.append_nil]; rfl
  | cons effect effects ih =>
    rw [List.foldr_cons, perform, ih, List.append_assoc]
    rfl

end Perform

theorem silent_select {β : Type*} {reads : List κ} {answer : σ → β}
    {next : β → Program σ ω κ χ ε α} (h : ∀ b, (next b).Silent kind) :
    (select reads answer next).Silent kind :=
  fun s => h (answer s)

theorem silent_afterCommits {effects : List χ} (h : p.Silent kind) :
    (effects.foldr .afterCommit p).Silent kind := by
  induction effects with
  | nil => exact h
  | cons effect effects ih => exact ih

section Only

variable {W : ω → Prop} {E R : χ → Prop}

/-- Whatever rows the statements see, all writes, all effects caused at once and all registered ones
are of a kind. -/
def Only (W : ω → Prop) (E R : χ → Prop) : Program σ ω κ χ ε α → Prop
  | finish _ => True
  | raise _ => True
  | statement _ writes next => ∀ s, (∀ w ∈ writes s, W w) ∧ (next s).Only W E R
  | emit effect next => E effect ∧ next.Only W E R
  | afterCommit effect next => R effect ∧ next.Only W E R

theorem only_select {β : Type*} {reads : List κ} {answer : σ → β}
    {next : β → Program σ ω κ χ ε α} (h : ∀ b, (next b).Only W E R) :
    (select reads answer next).Only W E R :=
  fun s => ⟨by simp, h (answer s)⟩

theorem only_write {w : ω} (hw : W w) (h : p.Only W E R) : (write w p).Only W E R :=
  fun _ => ⟨List.forall_mem_singleton.mpr hw, h⟩

theorem only_afterCommits {effects : List χ} (heffects : ∀ effect ∈ effects, R effect)
    (h : p.Only W E R) : (effects.foldr .afterCommit p).Only W E R := by
  induction effects with
  | nil => exact h
  | cons effect effects ih =>
    rw [List.forall_mem_cons] at heffects
    exact ⟨heffects.1, ih heffects.2⟩

theorem Only.emitted (h : p.Only W E R) (s : σ) : ∀ effect ∈ p.emitted engine s, E effect := by
  induction p generalizing s with
  | finish | raise => simp [Program.emitted]
  | statement reads writes next ih =>
    rw [Program.emitted]
    cases engine.refusal s (writes s) with
    | some error => simp
    | none => exact ih s (h s).2 _
  | emit effect next ih => exact List.forall_mem_cons.mpr ⟨h.1, ih h.2 s⟩
  | afterCommit effect next ih => exact ih h.2 s

/-- What every accepted write of the kind preserves, and what a committed request has registered. -/
theorem Only.perform (h : p.Only W E R) (Inv : σ → Prop)
    (hstep : ∀ s w, W w → engine.refuses s w = none → Inv s → Inv (engine.apply s w))
    {s' : σ} {result : α} {registered registered' : List χ}
    (hrun : p.perform engine s registered = .ok (result, s', registered')) (hs : Inv s)
    (hregistered : ∀ effect ∈ registered, R effect) :
    Inv s' ∧ ∀ effect ∈ registered', R effect := by
  induction p generalizing s registered with
  | finish =>
    cases hrun
    exact ⟨hs, hregistered⟩
  | raise => cases hrun
  | statement reads writes next ih =>
    simp only [Program.perform] at hrun
    cases hrefusal : engine.refusal s (writes s) with
    | some error =>
      rw [hrefusal] at hrun
      cases hrun
    | none =>
      rw [hrefusal] at hrun
      exact ih s (h s).2 hrun (engine.applyAll_kind Inv hstep (h s).1 hrefusal hs) hregistered
  | emit effect next ih => exact ih h.2 hrun hs hregistered
  | afterCommit effect next ih =>
    refine ih h.2 hrun hs fun other hother => ?_
    rcases List.mem_append.mp hother with hold | hnew
    · exact hregistered other hold
    · rw [List.mem_singleton.mp hnew]
      exact h.1

end Only

end Program

end Transactions
