import IBotCoreApi.Library.Runs
import Mathlib.Data.Fintype.Basic

namespace Transactions

/-- How a database executes row writes: their effect, the constraint that refuses one, and the pairs
that two open transactions may not both hold. -/
structure Engine (σ ω ε : Type*) where
  apply : σ → ω → σ
  refuses : σ → ω → Option ε
  conflicts : ω → ω → Bool

/-- What remains of a request.  A statement names what it reads, chooses its writes by the rows it
sees, and what follows depends on the same rows. -/
inductive Program (σ ω κ χ ε α : Type*) where
  | finish (result : α)
  | raise (error : ε)
  | statement (reads : List κ) (writes : σ → List ω) (next : σ → Program σ ω κ χ ε α)
  /-- An effect outside the database, caused at once. -/
  | emit (effect : χ) (next : Program σ ω κ χ ε α)
  /-- An effect registered to run after the commit. -/
  | afterCommit (effect : χ) (next : Program σ ω κ χ ε α)

variable {σ ω κ χ ε α ι : Type*}

namespace Program

def select {β : Type*} (reads : List κ) (answer : σ → β) (next : β → Program σ ω κ χ ε α) :
    Program σ ω κ χ ε α :=
  .statement reads (fun _ => []) fun s => next (answer s)

def write (w : ω) (next : Program σ ω κ χ ε α) : Program σ ω κ χ ε α :=
  .statement [] (fun _ => [w]) fun _ => next

end Program

namespace Engine

variable (engine : Engine σ ω ε)

def applyAll (s : σ) (ws : List ω) : σ := ws.foldl engine.apply s

/-- The first refusal of a list of writes, each checked after the ones before it. -/
def refusal (s : σ) : List ω → Option ε
  | [] => none
  | w :: ws => (engine.refuses s w).or (refusal (engine.apply s w) ws)

@[simp] theorem applyAll_nil (s : σ) : engine.applyAll s [] = s := rfl

@[simp] theorem applyAll_cons (s : σ) (w : ω) (ws : List ω) :
    engine.applyAll s (w :: ws) = engine.applyAll (engine.apply s w) ws := rfl

theorem applyAll_append (s : σ) (ws ws' : List ω) :
    engine.applyAll s (ws ++ ws') = engine.applyAll (engine.applyAll s ws) ws' :=
  List.foldl_append

theorem refusal_append (s : σ) (ws ws' : List ω) :
    engine.refusal s (ws ++ ws') =
      (engine.refusal s ws).or (engine.refusal (engine.applyAll s ws) ws') := by
  induction ws generalizing s with
  | nil => rfl
  | cons w ws ih =>
    rw [List.cons_append, refusal, refusal, ih, Option.or_assoc]
    rfl

theorem refusal_of_forall {s : σ} {ws : List ω} (h : ∀ s, ∀ w ∈ ws, engine.refuses s w = none) :
    engine.refusal s ws = none := by
  induction ws generalizing s with
  | nil => rfl
  | cons w ws ih =>
    exact Option.or_eq_none_iff.mpr ⟨h s w List.mem_cons_self,
      ih fun s w' hw' => h s w' (List.mem_cons_of_mem w hw')⟩

theorem applyAll_frame {β : Type*} (f : σ → β) {ws : List ω}
    (h : ∀ s, ∀ w ∈ ws, f (engine.apply s w) = f s) (s : σ) : f (engine.applyAll s ws) = f s := by
  induction ws generalizing s with
  | nil => rfl
  | cons w ws ih =>
    rw [applyAll_cons, ih fun s w' hw' => h s w' (List.mem_cons_of_mem w hw')]
    exact h s w List.mem_cons_self

theorem applyAll_invariant (Inv : σ → Prop) {ws : List ω}
    (h : ∀ s, ∀ w ∈ ws, Inv s → Inv (engine.apply s w)) {s : σ} (hs : Inv s) :
    Inv (engine.applyAll s ws) := by
  induction ws generalizing s with
  | nil => exact hs
  | cons w ws ih =>
    exact ih (fun s w' hw' => h s w' (List.mem_cons_of_mem w hw')) (h s w List.mem_cons_self hs)

theorem applyAll_accepted (Inv : σ → Prop)
    (h : ∀ s w, engine.refuses s w = none → Inv s → Inv (engine.apply s w)) {s : σ} {ws : List ω}
    (haccepted : engine.refusal s ws = none) (hs : Inv s) : Inv (engine.applyAll s ws) := by
  induction ws generalizing s with
  | nil => exact hs
  | cons w ws ih =>
    obtain ⟨hw, hws⟩ := Option.or_eq_none_iff.mp haccepted
    exact ih hws (h s w hw hs)

theorem applyAll_kind {W : ω → Prop} (Inv : σ → Prop)
    (h : ∀ s w, W w → engine.refuses s w = none → Inv s → Inv (engine.apply s w)) {s : σ}
    {ws : List ω} (hkind : ∀ w ∈ ws, W w) (haccepted : engine.refusal s ws = none) (hs : Inv s) :
    Inv (engine.applyAll s ws) := by
  induction ws generalizing s with
  | nil => exact hs
  | cons w ws ih =>
    obtain ⟨hw, hws⟩ := Option.or_eq_none_iff.mp haccepted
    rw [List.forall_mem_cons] at hkind
    exact ih hkind.2 hws (h s w hkind.1 hw hs)

end Engine

section Alone

variable (engine : Engine σ ω ε)

namespace Program

def execute : Program σ ω κ χ ε α → σ → Except ε (α × σ)
  | finish result, s => .ok (result, s)
  | raise error, _ => .error error
  | statement _ writes next, s =>
    match engine.refusal s (writes s) with
    | some error => .error error
    | none => (next s).execute (engine.applyAll s (writes s))
  | emit _ next, s => next.execute s
  | afterCommit _ next, s => next.execute s

/-- What a request that commits on its own establishes. -/
def Establishes (Q : α → σ → Prop) : Program σ ω κ χ ε α → σ → Prop
  | finish result, s => Q result s
  | raise _, _ => True
  | statement _ writes next, s => engine.refusal s (writes s) = none →
      (next s).Establishes Q (engine.applyAll s (writes s))
  | emit _ next, s => next.Establishes Q s
  | afterCommit _ next, s => next.Establishes Q s

variable {engine}

theorem Establishes.execute {Q : α → σ → Prop} {p : Program σ ω κ χ ε α} {s s' : σ} {result : α}
    (h : p.Establishes engine Q s) (hrun : p.execute engine s = .ok (result, s')) : Q result s' := by
  induction p generalizing s with
  | finish =>
    cases hrun
    exact h
  | raise => cases hrun
  | statement reads writes next ih =>
    simp only [Program.execute] at hrun
    split at hrun
    · cases hrun
    · rename_i hrefusal
      exact ih s (h hrefusal) hrun
  | emit _ _ ih => exact ih h hrun
  | afterCommit _ _ ih => exact ih h hrun

section Rules

variable {Q : α → σ → Prop} {s : σ}

theorem establishes_select {β : Type*} {reads : List κ} {answer : σ → β}
    {next : β → Program σ ω κ χ ε α} :
    (select reads answer next).Establishes engine Q s ↔ (next (answer s)).Establishes engine Q s :=
  forall_prop_of_true rfl

theorem establishes_foldr_afterCommit {effects : List χ} {p : Program σ ω κ χ ε α} :
    (effects.foldr .afterCommit p).Establishes engine Q s ↔ p.Establishes engine Q s := by
  induction effects with
  | nil => exact Iff.rfl
  | cons _ _ ih => exact ih

theorem establishes_write {w : ω} {next : Program σ ω κ χ ε α} :
    (write w next).Establishes engine Q s ↔
      (engine.refuses s w = none → next.Establishes engine Q (engine.apply s w)) := by
  have hrefusal : engine.refusal s [w] = engine.refuses s w := Option.or_none
  rw [← hrefusal]
  exact Iff.rfl

end Rules

theorem execute_invariant (Inv : σ → Prop)
    (h : ∀ s w, engine.refuses s w = none → Inv s → Inv (engine.apply s w))
    {p : Program σ ω κ χ ε α} {s s' : σ} {result : α}
    (hrun : p.execute engine s = .ok (result, s')) (hs : Inv s) : Inv s' := by
  induction p generalizing s with
  | finish =>
    cases hrun
    exact hs
  | raise => cases hrun
  | statement reads writes next ih =>
    simp only [Program.execute] at hrun
    split at hrun
    · cases hrun
    · rename_i hrefusal
      exact ih s hrun (engine.applyAll_accepted Inv h hrefusal hs)
  | emit _ _ ih => exact ih hrun hs
  | afterCommit _ _ ih => exact ih hrun hs

end Program

end Alone

/-- One executed statement of a transaction: how many transactions had committed when it started,
the rows it saw, and what it read and wrote. -/
structure Observation (σ ω κ : Type*) where
  position : ℕ
  view : σ
  reads : List κ
  writes : List ω

def written (history : List (Observation σ ω κ)) : List ω := history.flatMap (·.writes)

/-- An open transaction.  A statement that waits keeps the rows it saw when it started. -/
structure Session (σ ω κ χ ε α : Type*) where
  program : Program σ ω κ χ ε α
  history : List (Observation σ ω κ)
  waiting : Option (ℕ × σ)

inductive Status (σ ω κ χ ε α : Type*) where
  | active (session : Session σ ω κ χ ε α)
  | committed (result : α)
  | raised (error : ε)
  | crashed

structure Commit (σ ω κ ι : Type*) where
  request : ι
  history : List (Observation σ ω κ)

structure World (σ ω κ χ ε α ι : Type*) where
  database : σ
  log : List (Commit σ ω κ ι)
  status : ι → Status σ ω κ χ ε α

/-- One step of the scheduler: a request goes on, or its connection is lost. -/
inductive Move (ι : Type*) where
  | advance (request : ι)
  | crash (request : ι)

def Status.pending : Status σ ω κ χ ε α → List ω
  | active session => written session.history
  | _ => []

section Step

variable [DecidableEq ι]

namespace World

def set (world : World σ ω κ χ ε α ι) (i : ι) (status : Status σ ω κ χ ε α) :
    World σ ω κ χ ε α ι :=
  { world with status := Function.update world.status i status }

@[simp] theorem set_status_self (world : World σ ω κ χ ε α ι) (i : ι)
    (status : Status σ ω κ χ ε α) : (world.set i status).status i = status := by
  simp [World.set]

theorem set_status_of_ne (world : World σ ω κ χ ε α ι) {i j : ι} (h : j ≠ i)
    (status : Status σ ω κ χ ε α) : (world.set i status).status j = world.status j := by
  simp [World.set, h]

variable [Fintype ι] (engine : Engine σ ω ε)

def blocked (world : World σ ω κ χ ε α ι) (i : ι) (targets : List ω) : Bool :=
  decide (∃ j, j ≠ i ∧
    (world.status j).pending.any fun held => targets.any fun w => engine.conflicts held w)

def view (world : World σ ω κ χ ε α ι) (history : List (Observation σ ω κ)) : σ :=
  engine.applyAll world.database (written history)

def advance (world : World σ ω κ χ ε α ι) (i : ι) (session : Session σ ω κ χ ε α) :
    World σ ω κ χ ε α ι :=
  match session.program with
  | .finish result =>
    { world.set i (.committed result) with
      database := world.view engine session.history
      log := world.log ++ [⟨i, session.history⟩] }
  | .raise error => world.set i (.raised error)
  | .emit _ next | .afterCommit _ next => world.set i (.active { session with program := next })
  | .statement reads writes next =>
    let (position, snapshot) :=
      session.waiting.getD (world.log.length, world.view engine session.history)
    if world.blocked engine i (writes snapshot) then
      world.set i (.active { session with waiting := some (position, snapshot) })
    else
      match engine.refusal (world.view engine session.history) (writes snapshot) with
      | some error => world.set i (.raised error)
      | none => world.set i (.active {
          program := next snapshot
          history := session.history ++ [⟨position, snapshot, reads, writes snapshot⟩]
          waiting := none })

def step (world : World σ ω κ χ ε α ι) : Move ι → World σ ω κ χ ε α ι
  | .advance i =>
    match world.status i with
    | .active session => world.advance engine i session
    | _ => world
  | .crash i =>
    match world.status i with
    | .active _ => world.set i .crashed
    | _ => world

def start (s : σ) (programs : ι → Program σ ω κ χ ε α) : World σ ω κ χ ε α ι where
  database := s
  log := []
  status i := .active ⟨programs i, [], none⟩

def scheduler : Runs.Machine (World σ ω κ χ ε α ι) (Move ι) Unit := fun world move =>
  ((), world.step engine move)

end World

end Step

end Transactions
