import IBotCoreApi.Library.Runs
import Mathlib.Data.Fintype.Basic
import Mathlib.Data.Set.Insert
import Mathlib.Logic.Function.Basic
import Mathlib.Logic.Relation

namespace Deadlocks

variable {ρ μ σ ι : Type*}

/-- What a transaction does: it acquires a resource in a mode, reads the committed state, or
commits. -/
inductive Program (ρ μ σ : Type*) where
  | acquire (lock : ρ × μ) (next : Program ρ μ σ)
  | read (next : σ → Program ρ μ σ)
  | commit (effect : σ → σ)

/-- The locks that a transaction holds and the rest of its program, `none` when it has ended. -/
structure Transaction (ρ μ σ : Type*) where
  held : List (ρ × μ)
  rest : Option (Program ρ μ σ)

structure World (ρ μ σ ι : Type*) where
  state : σ
  transactions : ι → Transaction ρ μ σ

namespace Program

/-- A program goes on to a rest and acquires a list of locks, with reads of the states in `S`. -/
inductive Visits (S : σ → Prop) :
    Program ρ μ σ → List (ρ × μ) → Program ρ μ σ → Prop
  | here (p : Program ρ μ σ) : Visits S p [] p
  | acquire {lock : ρ × μ} {next rest : Program ρ μ σ} {held : List (ρ × μ)}
      (h : Visits S next held rest) : Visits S (.acquire lock next) (lock :: held) rest
  | read {next : σ → Program ρ μ σ} {rest : Program ρ μ σ} {held : List (ρ × μ)} {s : σ}
      (hs : S s) (h : Visits S (next s) held rest) : Visits S (.read next) held rest

def acquireAll (locks : List (ρ × μ)) (next : Program ρ μ σ) : Program ρ μ σ :=
  locks.foldr .acquire next

/-- The effects with which a program can commit. -/
def Commits (effect : σ → σ) : Program ρ μ σ → Prop
  | .acquire _ next => next.Commits effect
  | .read next => ∃ s, (next s).Commits effect
  | .commit effect' => effect = effect'

variable {S S' : σ → Prop} {p q r : Program ρ μ σ} {held held' : List (ρ × μ)}

theorem Visits.commits {effect : σ → σ} (h : p.Visits S held (.commit effect)) :
    p.Commits effect := by
  generalize hrest : (Program.commit effect : Program ρ μ σ) = rest at h
  induction h with
  | here =>
    subst hrest
    rfl
  | acquire _ ih => exact ih hrest
  | read _ _ ih => exact ⟨_, ih hrest⟩

theorem commits_acquireAll {effect : σ → σ} {locks : List (ρ × μ)} {next : Program ρ μ σ} :
    (acquireAll locks next).Commits effect ↔ next.Commits effect := by
  induction locks with
  | nil => rfl
  | cons lock locks ih => exact ih

theorem Visits.mono (h : p.Visits S held q) (hS : ∀ s, S s → S' s) : p.Visits S' held q := by
  induction h with
  | here => exact .here _
  | acquire _ ih => exact .acquire ih
  | read hs _ ih => exact .read (hS _ hs) ih

theorem Visits.trans (h : p.Visits S held q) (h' : q.Visits S held' r) :
    p.Visits S (held ++ held') r := by
  induction h with
  | here => exact h'
  | acquire _ ih => exact .acquire (ih h')
  | read hs _ ih => exact .read hs (ih h')

theorem visits_acquireAll (locks later : List (ρ × μ)) (next : Program ρ μ σ) :
    (acquireAll (locks ++ later) next).Visits S locks (acquireAll later next) := by
  induction locks with
  | nil => exact .here _
  | cons lock locks ih => exact .acquire ih

theorem Visits.acquireAll {locks : List (ρ × μ)} {next rest : Program ρ μ σ}
    (h : (acquireAll locks next).Visits S held rest) :
    (∃ lock later, locks = held ++ lock :: later ∧ rest = .acquire lock (.acquireAll later next)) ∨
      ∃ held', held = locks ++ held' ∧ next.Visits S held' rest := by
  induction locks generalizing held with
  | nil => exact .inr ⟨held, rfl, h⟩
  | cons lock locks ih =>
    cases h with
    | here => exact .inl ⟨lock, locks, rfl, rfl⟩
    | acquire h =>
      rcases ih h with ⟨lock', later, rfl, rfl⟩ | ⟨held', rfl, hnext⟩
      · exact .inl ⟨lock', later, rfl, rfl⟩
      · exact .inr ⟨held', rfl, hnext⟩

end Program

namespace World

section Locks

variable [DecidableEq ρ] (conflicts : μ → μ → Bool)

def clash (lock lock' : ρ × μ) : Bool := lock.1 == lock'.1 && conflicts lock.2 lock'.2

def blocks (world : World ρ μ σ ι) (lock : ρ × μ) (j : ι) : Bool :=
  (world.transactions j).held.any (clash conflicts lock)

def Waits (world : World ρ μ σ ι) (i j : ι) : Prop :=
  i ≠ j ∧ ∃ lock next, (world.transactions i).rest = some (.acquire lock next) ∧
    world.blocks conflicts lock j = true

/-- A cycle of transactions, each waiting for a lock that the next one holds. -/
def Deadlocked (world : World ρ μ σ ι) : Prop :=
  ∃ i, Relation.TransGen (world.Waits conflicts) i i

def Compatible (world : World ρ μ σ ι) : Prop :=
  ∀ i j, i ≠ j → ∀ lock ∈ (world.transactions i).held, world.blocks conflicts lock j = false

variable {conflicts} {world : World ρ μ σ ι}

theorem blocks_eq_true {lock : ρ × μ} {j : ι} : world.blocks conflicts lock j = true ↔
    ∃ mode, (lock.1, mode) ∈ (world.transactions j).held ∧ conflicts lock.2 mode = true := by
  simp only [blocks, clash, List.any_eq_true, Bool.and_eq_true, beq_iff_eq]
  constructor
  · rintro ⟨⟨resource, mode⟩, hheld, rfl, hmode⟩
    exact ⟨mode, hheld, hmode⟩
  · rintro ⟨mode, hheld, hmode⟩
    exact ⟨_, hheld, rfl, hmode⟩

theorem Deadlocked.of_pair {i j : ι} (h : world.Waits conflicts i j)
    (h' : world.Waits conflicts j i) : world.Deadlocked conflicts :=
  ⟨i, .tail (.single h) h'⟩

/-- When waiting transactions have ranks, and each waits only for lower ones, there is no cycle. -/
theorem not_deadlocked_of_rank (rank : ι → ℕ → Prop)
    (hranked : ∀ i j, world.Waits conflicts i j → ∃ n, rank i n)
    (hlower : ∀ i j n m, world.Waits conflicts i j → rank i n → rank j m → m < n) :
    ¬ world.Deadlocked conflicts := by
  rintro ⟨i, hcycle⟩
  have hdescends (i j : ι) (h : Relation.TransGen (world.Waits conflicts) i j) :
      ∀ n m, rank i n → rank j m → m < n := by
    induction h with
    | single hwaits => exact fun n m => hlower _ _ n m hwaits
    | tail _ hlast ih =>
      intro n m hn hm
      obtain ⟨between, hbetween⟩ := hranked _ _ hlast
      exact (hlower _ _ between m hlast hbetween hm).trans (ih n between hn hbetween)
  obtain ⟨j, hfirst, _⟩ := Relation.TransGen.head'_iff.mp hcycle
  obtain ⟨n, hn⟩ := hranked i j hfirst
  exact (hdescends i i hcycle n n hn hn).false

end Locks

variable [DecidableEq ι]

def set (world : World ρ μ σ ι) (i : ι) (transaction : Transaction ρ μ σ) : World ρ μ σ ι :=
  { world with transactions := Function.update world.transactions i transaction }

@[simp] theorem set_self (world : World ρ μ σ ι) (i : ι) (transaction : Transaction ρ μ σ) :
    (world.set i transaction).transactions i = transaction := Function.update_self ..

theorem set_of_ne (world : World ρ μ σ ι) {i j : ι} (transaction : Transaction ρ μ σ)
    (h : j ≠ i) : (world.set i transaction).transactions j = world.transactions j :=
  Function.update_of_ne h ..

@[simp] theorem set_state (world : World ρ μ σ ι) (i : ι) (transaction : Transaction ρ μ σ) :
    (world.set i transaction).state = world.state := rfl

@[simp] theorem set_set (world : World ρ μ σ ι) (i : ι)
    (transaction transaction' : Transaction ρ μ σ) :
    (world.set i transaction).set i transaction' = world.set i transaction' := by
  simp only [set, Function.update_idem]

def start (state : σ) (programs : ι → Program ρ μ σ) : World ρ μ σ ι where
  state := state
  transactions i := ⟨[], some (programs i)⟩

variable [Fintype ι] [DecidableEq ρ] (conflicts : μ → μ → Bool)

/-- One transaction takes its next step, or waits. -/
def scheduler : Runs.Machine (World ρ μ σ ι) ι Unit := fun world i =>
  let transaction := world.transactions i
  match transaction.rest with
  | none => ((), world)
  | some (.acquire lock next) =>
    if ∃ j, j ≠ i ∧ world.blocks conflicts lock j = true then ((), world)
    else ((), world.set i ⟨transaction.held ++ [lock], some next⟩)
  | some (.read next) => ((), world.set i ⟨transaction.held, some (next world.state)⟩)
  | some (.commit effect) =>
    ((), { world.set i ⟨[], none⟩ with state := effect world.state })

section Steps

variable {conflicts} {world : World ρ μ σ ι} {i : ι}

variable (conflicts) in
/-- What a step does: it waits, acquires a free lock, reads or commits. -/
theorem scheduler_cases (world : World ρ μ σ ι) (i : ι) :
    (scheduler conflicts world i).2 = world ∨
      (∃ lock next, (world.transactions i).rest = some (.acquire lock next) ∧
        (∀ j, j ≠ i → world.blocks conflicts lock j = false) ∧
        (scheduler conflicts world i).2 =
          world.set i ⟨(world.transactions i).held ++ [lock], some next⟩) ∨
      (∃ next, (world.transactions i).rest = some (.read next) ∧
        (scheduler conflicts world i).2 =
          world.set i ⟨(world.transactions i).held, some (next world.state)⟩) ∨
      ∃ effect, (world.transactions i).rest = some (.commit effect) ∧
        (scheduler conflicts world i).2 =
          { world.set i ⟨[], none⟩ with state := effect world.state } := by
  cases hrest : (world.transactions i).rest with
  | none => exact .inl (by simp only [scheduler, hrest])
  | some rest =>
    cases rest with
    | acquire lock next =>
      by_cases hblocked : ∃ j, j ≠ i ∧ world.blocks conflicts lock j = true
      · exact .inl (by simp only [scheduler, hrest, if_pos hblocked])
      · refine .inr (.inl ⟨lock, next, rfl, ?_, by simp only [scheduler, hrest, if_neg hblocked]⟩)
        intro j hj
        rw [← Bool.not_eq_true]
        exact fun hblocks => hblocked ⟨j, hj, hblocks⟩
    | read next => exact .inr (.inr (.inl ⟨next, rfl, by simp only [scheduler, hrest]⟩))
    | commit effect => exact .inr (.inr (.inr ⟨effect, rfl, by simp only [scheduler, hrest]⟩))

theorem scheduler_acquire {lock : ρ × μ} {next : Program ρ μ σ}
    (hrest : (world.transactions i).rest = some (.acquire lock next))
    (hfree : ∀ j, j ≠ i → world.blocks conflicts lock j = false) :
    (scheduler conflicts world i).2 =
      world.set i ⟨(world.transactions i).held ++ [lock], some next⟩ := by
  have hunblocked : ¬ ∃ j, j ≠ i ∧ world.blocks conflicts lock j = true := by
    rintro ⟨j, hj, hblocks⟩
    rw [hfree j hj] at hblocks
    cases hblocks
  simp only [scheduler, hrest, if_neg hunblocked]

variable (conflicts world) in
theorem exec_visits {p rest : Program ρ μ σ} {held : List (ρ × μ)}
    (hvisits : p.Visits (· = world.state) held rest)
    (hp : (world.transactions i).rest = some p)
    (hfree : ∀ lock ∈ held, ∀ j, j ≠ i → world.blocks conflicts lock j = false) :
    ∃ moves, Runs.exec (scheduler conflicts) world moves =
      world.set i ⟨(world.transactions i).held ++ held, some rest⟩ := by
  generalize hstate : world.state = state at hvisits
  induction hvisits generalizing world with
  | here =>
    refine ⟨[], ?_⟩
    rw [List.append_nil, ← hp]
    exact (congrArg (World.mk world.state) (Function.update_eq_self i world.transactions)).symm
  | @acquire lock next _ held _ ih =>
    have hstep := scheduler_acquire hp (hfree lock List.mem_cons_self)
    obtain ⟨moves, hmoves⟩ := ih
      (world.set i ⟨(world.transactions i).held ++ [lock], some next⟩) (by simp)
      (fun lock' hlock' j hj => by
        simpa only [blocks, set_of_ne world _ hj] using
          hfree lock' (List.mem_cons_of_mem lock hlock') j hj) hstate
    refine ⟨i :: moves, ?_⟩
    rw [Runs.exec_cons, hstep, hmoves]
    simp
  | @read next _ held _ hs _ ih =>
    have hstep : (scheduler conflicts world i).2 =
        world.set i ⟨(world.transactions i).held, some (next world.state)⟩ := by
      simp only [scheduler, hp]
    obtain ⟨moves, hmoves⟩ := ih
      (world.set i ⟨(world.transactions i).held, some (next world.state)⟩)
      (by simp [hs, hstate])
      (fun lock' hlock' j hj => by
        simpa only [blocks, set_of_ne world _ hj] using hfree lock' hlock' j hj) hstate
    refine ⟨i :: moves, ?_⟩
    rw [Runs.exec_cons, hstep, hmoves]
    simp

variable (conflicts) in
theorem exec_commit {p : Program ρ μ σ} {held : List (ρ × μ)} {effect : σ → σ}
    (hidle : ∀ j, (world.transactions j).held = [])
    (hp : (world.transactions i).rest = some p)
    (hvisits : p.Visits (· = world.state) held (.commit effect)) :
    ∃ moves, Runs.exec (scheduler conflicts) world moves =
      { world.set i ⟨[], none⟩ with state := effect world.state } := by
  obtain ⟨moves, hmoves⟩ := exec_visits conflicts world hvisits hp
    fun lock _ j _ => by simp [blocks, hidle j]
  refine ⟨moves ++ [i], ?_⟩
  rw [Runs.exec_snoc, hmoves]
  simp only [scheduler, set_self, set_set, set_state]

/-- Two transactions that each reach a lock that the other one holds by then can deadlock. -/
theorem deadlocked_of_embrace {j : ι} (hij : i ≠ j) {p q next next' : Program ρ μ σ}
    {held held' : List (ρ × μ)} {lock lock' : ρ × μ}
    (hidle : ∀ k, (world.transactions k).held = [])
    (hp : (world.transactions i).rest = some p) (hq : (world.transactions j).rest = some q)
    (hvisits : p.Visits (· = world.state) held (.acquire lock next))
    (hvisits' : q.Visits (· = world.state) held' (.acquire lock' next'))
    (hcompatible : ∀ l ∈ held', ∀ l' ∈ held, clash conflicts l l' = false)
    (hlock : ∃ l ∈ held', clash conflicts lock l = true)
    (hlock' : ∃ l ∈ held, clash conflicts lock' l = true) :
    ∃ moves, (Runs.exec (scheduler conflicts) world moves).Deadlocked conflicts := by
  obtain ⟨moves, hmoves⟩ := exec_visits conflicts world hvisits hp
    fun lock _ j _ => by simp [blocks, hidle j]
  rw [hidle i, List.nil_append] at hmoves
  have hrest' : ((world.set i ⟨held, some (.acquire lock next)⟩).transactions j).rest = some q :=
    by rw [set_of_ne world _ hij.symm, hq]
  have hfree' : ∀ l ∈ held', ∀ k, k ≠ j →
      (world.set i ⟨held, some (.acquire lock next)⟩).blocks conflicts l k = false := by
    intro l hl k _
    by_cases hki : k = i
    · subst hki
      simpa only [blocks, set_self, List.any_eq_false, Bool.not_eq_true] using hcompatible l hl
    · simp [blocks, set_of_ne world _ hki, hidle k]
  obtain ⟨moves', hmoves'⟩ := exec_visits conflicts
    (world.set i ⟨held, some (.acquire lock next)⟩) hvisits' hrest' hfree'
  rw [set_of_ne world _ hij.symm, hidle j, List.nil_append] at hmoves'
  refine ⟨moves ++ moves', ?_⟩
  rw [Runs.exec_append, hmoves, hmoves']
  have hi : ((world.set i ⟨held, some (.acquire lock next)⟩).set j
      ⟨held', some (.acquire lock' next')⟩).transactions i = ⟨held, some (.acquire lock next)⟩ := by
    rw [set_of_ne _ _ hij, set_self]
  refine .of_pair (i := i) (j := j) ⟨hij, lock, next, by rw [hi], ?_⟩
    ⟨hij.symm, lock', next', by rw [set_self], ?_⟩
  · simpa only [blocks, set_self, List.any_eq_true] using hlock
  · simpa only [blocks, hi, List.any_eq_true] using hlock'

end Steps

section Invariants

variable {conflicts} {world : World ρ μ σ ι} {programs : ι → Program ρ μ σ}
  {S : Set ι → σ → Prop}

omit [Fintype ι] [DecidableEq ρ] [DecidableEq ι] in
def ended (world : World ρ μ σ ι) : Set ι := {i | (world.transactions i).rest = none}

variable (conflicts programs S) in
/-- Every transaction has gone through a part of its program, with reads of states in `S`. -/
structure Sound (world : World ρ μ σ ι) : Prop where
  visits : ∀ i rest, (world.transactions i).rest = some rest →
    (programs i).Visits (S world.ended) (world.transactions i).held rest
  ended : ∀ i, (world.transactions i).rest = none → (world.transactions i).held = []
  compatible : world.Compatible conflicts
  state : S world.ended world.state

omit [Fintype ι] in
theorem compatible_set (hsymm : ∀ m m', conflicts m m' = conflicts m' m)
    (h : world.Compatible conflicts) {i : ι} {transaction : Transaction ρ μ σ}
    (hfree : ∀ lock ∈ transaction.held, ∀ j, j ≠ i → world.blocks conflicts lock j = false) :
    (world.set i transaction).Compatible conflicts := by
  intro a b hab lock hlock
  by_cases ha : a = i
  · subst ha
    rw [set_self] at hlock
    simpa only [blocks, set_of_ne world _ hab.symm] using hfree lock hlock b hab.symm
  · rw [set_of_ne world _ ha] at hlock
    by_cases hb : b = i
    · subst hb
      rw [← Bool.not_eq_true, blocks_eq_true, set_self]
      rintro ⟨mode, hmode, hconflict⟩
      have hfree := hfree _ hmode a ha
      rw [← Bool.not_eq_true, blocks_eq_true] at hfree
      exact hfree ⟨lock.2, hlock, hsymm mode lock.2 ▸ hconflict⟩
    · simpa only [blocks, set_of_ne world _ hb] using h a b hab lock hlock

omit [Fintype ι] [DecidableEq ρ] in
theorem ended_set_some {i : ι} {rest rest' : Program ρ μ σ} {held : List (ρ × μ)}
    (hrest : (world.transactions i).rest = some rest) :
    (world.set i ⟨held, some rest'⟩).ended = world.ended := by
  ext j
  by_cases hj : j = i
  · subst hj
    simp [ended, hrest]
  · simp [ended, set_of_ne world _ hj]

omit [Fintype ι] [DecidableEq ρ] in
theorem ended_set_none {i : ι} {held : List (ρ × μ)} :
    (world.set i ⟨held, none⟩).ended = insert i world.ended := by
  ext j
  by_cases hj : j = i
  · subst hj
    simp [ended]
  · simp [ended, set_of_ne world _ hj, hj]

omit [Fintype ι] in
theorem Sound.set (hsymm : ∀ m m', conflicts m m' = conflicts m' m)
    (h : world.Sound conflicts programs S) {i : ι} {rest rest' : Program ρ μ σ}
    {held : List (ρ × μ)} (hrest : (world.transactions i).rest = some rest)
    (hvisits : (programs i).Visits (S world.ended) held rest')
    (hfree : ∀ lock ∈ held, ∀ j, j ≠ i → world.blocks conflicts lock j = false) :
    (world.set i ⟨held, some rest'⟩).Sound conflicts programs S where
  visits j rest'' hrest'' := by
    rw [ended_set_some hrest]
    by_cases hj : j = i
    · subst hj
      rw [set_self] at hrest'' ⊢
      obtain rfl := Option.some.inj hrest''
      exact hvisits
    · rw [set_of_ne world _ hj] at hrest'' ⊢
      exact h.visits j rest'' hrest''
  ended j hnone := by
    by_cases hj : j = i
    · subst hj
      simp at hnone
    · rw [set_of_ne world _ hj] at hnone ⊢
      exact h.ended j hnone
  compatible := compatible_set hsymm h.compatible hfree
  state := by
    rw [ended_set_some hrest]
    exact h.state

omit [Fintype ι] in
theorem Sound.commit (hsymm : ∀ m m', conflicts m m' = conflicts m' m)
    (hmono : ∀ ended ended' s, ended ⊆ ended' → S ended s → S ended' s)
    (h : world.Sound conflicts programs S) {i : ι} {state : σ}
    (hstate : S (insert i world.ended) state) :
    ({ world.set i ⟨[], none⟩ with state := state } : World ρ μ σ ι).Sound conflicts programs
      S := by
  have hended : ({ world.set i ⟨[], none⟩ with state := state } : World ρ μ σ ι).ended =
    insert i world.ended := ended_set_none
  refine ⟨fun j rest hrest => ?_, fun j hnone => ?_, ?_, hended ▸ hstate⟩
  · rw [hended]
    change ((world.set i ⟨[], none⟩).transactions j).rest = some rest at hrest
    change (programs j).Visits _ ((world.set i ⟨[], none⟩).transactions j).held rest
    by_cases hj : j = i
    · subst hj
      simp at hrest
    · rw [set_of_ne world _ hj] at hrest ⊢
      exact (h.visits j rest hrest).mono fun s hs => hmono _ _ s (Set.subset_insert i _) hs
  · change ((world.set i ⟨[], none⟩).transactions j).rest = none at hnone
    change ((world.set i ⟨[], none⟩).transactions j).held = []
    by_cases hj : j = i
    · subst hj
      rw [set_self]
    · rw [set_of_ne world _ hj] at hnone ⊢
      exact h.ended j hnone
  · exact compatible_set hsymm h.compatible fun _ hlock => nomatch hlock

/-- What a run establishes about every transaction, when commits keep `S`. -/
theorem scheduler_sound (hsymm : ∀ m m', conflicts m m' = conflicts m' m)
    (hmono : ∀ ended ended' s, ended ⊆ ended' → S ended s → S ended' s)
    (hcommit : ∀ ended i held effect s, (programs i).Visits (S ended) held (.commit effect) →
      S ended s → S (insert i ended) (effect s))
    {state : σ} (hstate : S ∅ state) (moves : List ι) :
    (Runs.exec (scheduler conflicts) (start state programs) moves).Sound conflicts programs S := by
  have hkeep (world : World ρ μ σ ι) (i : ι) (_ : True) (h : world.Sound conflicts programs S) :
      (scheduler conflicts world i).2.Sound conflicts programs S := by
    have hkept : ∀ lock ∈ (world.transactions i).held, ∀ j, j ≠ i →
        world.blocks conflicts lock j = false :=
      fun lock hlock j hj => h.compatible i j hj.symm lock hlock
    rcases scheduler_cases conflicts world i with hwaits |
      ⟨lock, next, hrest, hfree, hstep⟩ | ⟨next, hrest, hstep⟩ | ⟨effect, hrest, hstep⟩
    · rw [hwaits]
      exact h
    · rw [hstep]
      refine h.set hsymm hrest ((h.visits i _ hrest).trans (.acquire (.here next))) ?_
      intro lock' hlock'
      rcases List.mem_append.mp hlock' with hheld | hnew
      · exact hkept lock' hheld
      · rw [List.mem_singleton.mp hnew]
        exact hfree
    · rw [hstep]
      have hvisits := (h.visits i _ hrest).trans (.read h.state (.here (next world.state)))
      rw [List.append_nil] at hvisits
      exact h.set hsymm hrest hvisits hkept
    · rw [hstep]
      exact h.commit hsymm hmono (hcommit _ i _ effect _ (h.visits i _ hrest) h.state)
  have hnone : (start state programs : World ρ μ σ ι).ended = ∅ := by
    ext i
    simp [ended, start]
  have hstart : (start state programs).Sound conflicts programs S := by
    refine ⟨fun i rest hrest => ?_, fun i _ => rfl, fun i j _ lock hlock => ?_, ?_⟩
    · obtain rfl := Option.some.inj hrest
      exact .here _
    · cases hlock
    · rw [hnone]
      exact hstate
  exact Runs.exec_invariant hkeep (fun _ _ => trivial) hstart

end Invariants

end World

end Deadlocks
