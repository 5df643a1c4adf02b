import IBotCoreApi.Library.Interleavings

namespace Transactions

variable {σ ω κ χ ε α β ι : Type*}

section Guards

variable (engine : Engine σ ω ε)

/-- Only a conflicting write changes what `f` reads. -/
def Guards (f : σ → β) (w : ω) : Prop :=
  ∀ s w', engine.conflicts w w' = false → f (engine.apply s w') = f s

/-- A write determines what `f` reads from what `f` has read. -/
def Local (f : σ → β) : Prop :=
  ∀ w s s', f s = f s' → f (engine.apply s w) = f (engine.apply s' w)

variable {engine} {f : σ → β}

theorem Guards.applyAll {w : ω} (h : Guards engine f w) {ws : List ω}
    (hws : ∀ w' ∈ ws, engine.conflicts w w' = false) (s : σ) :
    f (engine.applyAll s ws) = f s :=
  engine.applyAll_frame f (fun s w' hw' => h s w' (hws w' hw')) s

theorem Local.applyAll (h : Local engine f) (ws : List ω) {s s' : σ} (hs : f s = f s') :
    f (engine.applyAll s ws) = f (engine.applyAll s' ws) := by
  induction ws generalizing s s' with
  | nil => exact hs
  | cons w ws ih => exact ih (h w s s' hs)

end Guards

inductive SerialRun (engine : Engine σ ω ε) (programs : ι → Program σ ω κ χ ε α) :
    σ → List ι → σ → Prop
  | nil (s : σ) : SerialRun engine programs s [] s
  | cons {s s' s'' : σ} {i : ι} {is : List ι} {result : α}
      (hrun : (programs i).execute engine s = .ok (result, s'))
      (hrest : SerialRun engine programs s' is s'') : SerialRun engine programs s (i :: is) s''

section Histories

variable (engine : Engine σ ω ε)

theorem applyAll_written_cons (s : σ) (o : Observation σ ω κ)
    (history : List (Observation σ ω κ)) :
    engine.applyAll s (written (o :: history)) =
      engine.applyAll (engine.applyAll s o.writes) (written history) := by
  rw [written, List.flatMap_cons, engine.applyAll_append]
  rfl

theorem refusal_of_accepts (haccepts : ∀ s w, engine.refuses s w = none) (s : σ) (ws : List ω) :
    engine.refusal s ws = none := by
  induction ws generalizing s with
  | nil => rfl
  | cons w ws ih => rw [Engine.refusal, haccepts, ih, Option.or_none]

end Histories

namespace Program

/-- The program sees the database through `f` only. -/
def ReadsThrough (f : σ → β) : Program σ ω κ χ ε α → Prop
  | finish _ | raise _ => True
  | statement _ writes next => (∀ s s', f s = f s' → writes s = writes s' ∧ next s = next s') ∧
      ∀ s, (next s).ReadsThrough f
  | emit _ next | afterCommit _ next => next.ReadsThrough f

/-- The program does nothing, or locks what it reads with its first write. -/
inductive Locked (engine : Engine σ ω ε) (f : σ → β) : Program σ ω κ χ ε α → Prop
  | finish (result : α) : Locked engine f (finish result)
  | raise (error : ε) : Locked engine f (raise error)
  | write {w : ω} {body : Program σ ω κ χ ε α} (hguards : Guards engine f w)
      (hbody : body.ReadsThrough f) : Locked engine f (write w body)

variable {engine : Engine σ ω ε} {f : σ → β}

theorem readsThrough_select {γ : Type*} {reads : List κ} {answer : σ → γ}
    {next : γ → Program σ ω κ χ ε α} (hanswer : ∀ s s', f s = f s' → answer s = answer s')
    (hnext : ∀ a, (next a).ReadsThrough f) : (select reads answer next).ReadsThrough f := by
  refine ⟨fun s s' hs => ⟨rfl, ?_⟩, fun s => hnext (answer s)⟩
  show next (answer s) = next (answer s')
  rw [hanswer s s' hs]

theorem readsThrough_write {w : ω} {next : Program σ ω κ χ ε α} (hnext : next.ReadsThrough f) :
    (write w next).ReadsThrough f :=
  ⟨fun _ _ _ => ⟨rfl, rfl⟩, fun _ => hnext⟩

/-- Statements that saw what `f` reads on a serial run from `s` make up that run. -/
theorem ReadsThrough.execute {p : Program σ ω κ χ ε α} {history : List (Observation σ ω κ)}
    {result : α} {s : σ} (haccepts : ∀ s w, engine.refuses s w = none) (h : p.ReadsThrough f)
    (hrun : p.Reaches history (.finish result))
    (hviews : ∀ before o after, history = before ++ o :: after →
      f o.view = f (engine.applyAll s (written before))) :
    p.execute engine s = .ok (result, engine.applyAll s (written history)) := by
  generalize hend : Program.finish result = q at hrun
  induction hrun generalizing s with
  | refl =>
    subst hend
    rfl
  | @statement reads writes next history q position view _ ih =>
    obtain ⟨hsame, hnext⟩ := h
    obtain ⟨hwrites, hprogram⟩ := hsame view s (hviews [] _ history rfl)
    have hrest := ih (s := engine.applyAll s (writes view)) (hnext view) (by
      intro before o after hsplit
      rw [hviews (⟨position, view, reads, writes view⟩ :: before) o after (by rw [hsplit]; rfl),
        applyAll_written_cons]) hend
    rw [applyAll_written_cons]
    simp only [Program.execute, ← hwrites, ← hprogram, refusal_of_accepts engine haccepts]
    exact hrest
  | emit _ ih => exact ih h hviews hend
  | afterCommit _ ih => exact ih h hviews hend

end Program

section Held

variable (engine : Engine σ ω ε)

/-- Since each statement of a history, no commit has written against an earlier write of it. -/
def HeldSince (log : List (Commit σ ω κ ι)) (history : List (Observation σ ω κ)) : Prop :=
  ∀ before o after, history = before ++ o :: after → ∀ w ∈ written before,
    ∀ e ∈ log.drop o.position, ∀ w' ∈ e.writes, engine.conflicts w w' = false

/-- Open transactions hold no conflicting writes, and the writes of a transaction have excluded the
conflicting ones since. -/
structure World.Guarded (world : World σ ω κ χ ε α ι) : Prop where
  exclusive : ∀ i j, i ≠ j → ∀ w ∈ (world.status i).pending, ∀ w' ∈ (world.status j).pending,
    engine.conflicts w w' = false
  held : ∀ i session, world.status i = .active session →
    HeldSince engine world.log session.history
  waiting : ∀ i session, world.status i = .active session → ∀ position view,
    session.waiting = some (position, view) → ∀ w ∈ written session.history,
      ∀ e ∈ world.log.drop position, ∀ w' ∈ e.writes, engine.conflicts w w' = false
  committed : ∀ before c after, world.log = before ++ c :: after →
    HeldSince engine before c.history

variable {engine} {s : σ} {programs : ι → Program σ ω κ χ ε α} {log : List (Commit σ ω κ ι)}
  {history : List (Observation σ ω κ)}

theorem HeldSince.nil : HeldSince engine log ([] : List (Observation σ ω κ)) := by
  intro before o after hsplit
  simp at hsplit

theorem World.start_guarded : (World.start s programs : World σ ω κ χ ε α ι).Guarded engine where
  exclusive := by
    intro i j _ w hw
    exact absurd hw List.not_mem_nil
  held := by
    rintro i session ⟨⟩
    exact .nil
  waiting := by
    rintro i session ⟨⟩ position view ⟨⟩
  committed := by
    intro before c after hsplit
    simp [World.start] at hsplit

theorem HeldSince.extend (h : HeldSince engine log history) {c : Commit σ ω κ ι}
    (hposition : ∀ o ∈ history, o.position ≤ log.length)
    (hc : ∀ w ∈ written history, ∀ w' ∈ c.writes, engine.conflicts w w' = false) :
    HeldSince engine (log ++ [c]) history := by
  intro before o after hsplit w hw e he w' hw'
  have hle := hposition o (hsplit ▸ List.mem_append_right before List.mem_cons_self)
  rw [List.drop_append_of_le_length hle] at he
  rcases List.mem_append.mp he with he | he
  · exact h before o after hsplit w hw e he w' hw'
  · rw [List.mem_singleton.mp he] at hw'
    refine hc w ?_ w' hw'
    rw [hsplit, written, List.flatMap_append]
    exact List.mem_append_left _ hw

theorem HeldSince.snoc (h : HeldSince engine log history) {o : Observation σ ω κ}
    (ho : ∀ w ∈ written history, ∀ e ∈ log.drop o.position, ∀ w' ∈ e.writes,
      engine.conflicts w w' = false) : HeldSince engine log (history ++ [o]) := by
  intro before o' after hsplit
  rcases append_cons_of_snoc hsplit with ⟨rfl, rfl⟩ | ⟨after', hhistory⟩
  · exact ho
  · exact h before o' after' hhistory

section Steps

variable [DecidableEq ι] {world : World σ ω κ χ ε α ι} {i : ι} {session : Session σ ω κ χ ε α}

theorem World.Guarded.set (h : world.Guarded engine) {status : Status σ ω κ χ ε α}
    (hexclusive : ∀ j, j ≠ i → ∀ w ∈ (world.status j).pending, ∀ w' ∈ status.pending,
      engine.conflicts w w' = false ∧ engine.conflicts w' w = false)
    (hheld : ∀ session', status = .active session' →
      HeldSince engine world.log session'.history ∧ ∀ position view,
        session'.waiting = some (position, view) → ∀ w ∈ written session'.history,
          ∀ e ∈ world.log.drop position, ∀ w' ∈ e.writes, engine.conflicts w w' = false) :
    (world.set i status).Guarded engine where
  exclusive := by
    intro j k hjk w hw w' hw'
    -- of two open requests at most one is the request that moves
    by_cases hj : j = i
    · subst hj
      rw [World.set_status_self] at hw
      rw [World.set_status_of_ne world hjk.symm] at hw'
      exact (hexclusive k hjk.symm w' hw' w hw).2
    · rw [World.set_status_of_ne world hj] at hw
      by_cases hk : k = i
      · subst hk
        rw [World.set_status_self] at hw'
        exact (hexclusive j hj w hw w' hw').1
      · rw [World.set_status_of_ne world hk] at hw'
        exact h.exclusive j k hjk w hw w' hw'
  held := by
    intro j session' hj
    by_cases hji : j = i
    · subst hji
      rw [World.set_status_self] at hj
      exact (hheld session' hj).1
    · rw [World.set_status_of_ne world hji] at hj
      exact h.held j session' hj
  waiting := by
    intro j session' hj
    by_cases hji : j = i
    · subst hji
      rw [World.set_status_self] at hj
      exact (hheld session' hj).2
    · rw [World.set_status_of_ne world hji] at hj
      exact h.waiting j session' hj
  committed := h.committed

theorem World.Guarded.release (h : world.Guarded engine) {status : Status σ ω κ χ ε α}
    (hstatus : ∀ session', status ≠ .active session') : (world.set i status).Guarded engine := by
  have hpending : status.pending = [] := by
    cases status with
    | active session' => exact absurd rfl (hstatus session')
    | _ => rfl
  refine h.set ?_ ?_
  · intro j _ w _ w' hw'
    rw [hpending] at hw'
    exact absurd hw' List.not_mem_nil
  · intro session' hsession
    exact absurd hsession (hstatus session')

theorem World.Guarded.continue (h : world.Guarded engine) (hi : world.status i = .active session)
    (program : Program σ ω κ χ ε α) :
    (world.set i (.active { session with program := program })).Guarded engine := by
  refine h.set ?_ ?_
  · intro j hj w hw w' hw'
    have hpending : w' ∈ (world.status i).pending := by
      rw [hi]
      exact hw'
    exact ⟨h.exclusive j i hj w hw w' hpending, h.exclusive i j hj.symm w' hpending w hw⟩
  · rintro session' ⟨⟩
    exact ⟨h.held i session hi, h.waiting i session hi⟩

theorem World.Guarded.commit (h : world.Guarded engine) (hsound : world.Sound engine s programs)
    (hi : world.status i = .active session) {result : α} :
    ({ world.set i (.committed result) with
      database := world.view engine session.history
      log := world.log ++ [⟨i, session.history⟩] } : World σ ω κ χ ε α ι).Guarded engine := by
  have hreleased : (world.set i (.committed result)).Guarded engine := h.release (by simp)
  -- whatever is still open held its locks beside those that the commit releases
  have hopen {j : ι} {session' : Session σ ω κ χ ε α}
      (hj : (world.set i (.committed result)).status j = .active session') :
      world.status j = .active session' ∧ ∀ w ∈ written session'.history,
        ∀ w' ∈ written session.history, engine.conflicts w w' = false := by
    have hji : j ≠ i := by
      rintro rfl
      rw [World.set_status_self] at hj
      cases hj
    rw [World.set_status_of_ne world hji] at hj
    refine ⟨hj, fun w hw w' hw' => h.exclusive j i hji w ?_ w' ?_⟩
    · rw [hj]
      exact hw
    · rw [hi]
      exact hw'
  exact {
    exclusive := hreleased.exclusive
    held := by
      intro j session' hj
      obtain ⟨hopened, hfree⟩ := hopen hj
      exact (h.held j session' hopened).extend
        (hsound.active j session' hopened).views.position hfree
    waiting := by
      intro j session' hj position view hwaiting w hw e he w' hw'
      obtain ⟨hopened, hfree⟩ := hopen hj
      have hle := ((hsound.active j session' hopened).waiting position view hwaiting).1
      simp only at he
      rw [List.drop_append_of_le_length hle] at he
      rcases List.mem_append.mp he with he | he
      · exact h.waiting j session' hopened position view hwaiting w hw e he w' hw'
      · rw [List.mem_singleton.mp he] at hw'
        exact hfree w hw w' hw'
    committed := by
      intro before c after hsplit
      rcases append_cons_of_snoc hsplit with ⟨rfl, rfl⟩ | ⟨after', hlog⟩
      · exact h.held i session hi
      · exact h.committed before c after' hlog }

variable [Fintype ι]

theorem World.Guarded.statement (h : world.Guarded engine)
    (hsymm : ∀ w w', engine.conflicts w w' = engine.conflicts w' w)
    (hi : world.status i = .active session) {reads : List κ} {writes : σ → List ω}
    {next : σ → Program σ ω κ χ ε α} (hprogram : session.program = .statement reads writes next) :
    (world.advance engine i session).Guarded engine := by
  -- since the statement started, no commit has written what the request has locked
  have hstart :
      let start := session.waiting.getD (world.log.length, world.view engine session.history)
      ∀ w ∈ written session.history, ∀ e ∈ world.log.drop start.1, ∀ w' ∈ e.writes,
        engine.conflicts w w' = false := by
    cases hwaiting : session.waiting with
    | some start => exact h.waiting i session hi start.1 start.2 hwaiting
    | none =>
      intro start w _ e he
      have hnow : start.1 = world.log.length := rfl
      rw [hnow, List.drop_length] at he
      exact absurd he List.not_mem_nil
  have hown {j : ι} (hj : j ≠ i) {w w' : ω} (hw : w ∈ (world.status j).pending)
      (hw' : w' ∈ written session.history) : engine.conflicts w w' = false := by
    refine h.exclusive j i hj w hw w' ?_
    rw [hi]
    exact hw'
  unfold World.advance
  rw [hprogram]
  simp only
  generalize session.waiting.getD (world.log.length, world.view engine session.history) = start
    at hstart
  obtain ⟨position, view⟩ := start
  simp only at hstart ⊢
  split
  · refine h.set ?_ ?_
    · intro j hj w hw w' hw'
      have hfree := hown hj hw hw'
      exact ⟨hfree, hsymm w w' ▸ hfree⟩
    · rintro session' ⟨⟩
      refine ⟨h.held i session hi, ?_⟩
      rintro _ _ ⟨⟩
      exact hstart
  · rename_i hblocked
    split
    · exact h.release (by simp)
    · refine h.set ?_ ?_
      · intro j hj w hw w' hw'
        have hfree : engine.conflicts w w' = false := by
          rw [Status.pending, written, List.flatMap_append, List.mem_append] at hw'
          rcases hw' with hw' | hw'
          · exact hown hj hw hw'
          · rw [List.flatMap_singleton] at hw'
            simp only [World.blocked, decide_eq_true_eq, not_exists, not_and, Bool.not_eq_true,
              List.any_eq_false] at hblocked
            exact hblocked j hj w hw w' hw'
        exact ⟨hfree, hsymm w w' ▸ hfree⟩
      · rintro session' ⟨⟩
        exact ⟨(h.held i session hi).snoc hstart, by simp⟩

theorem World.Guarded.step (h : world.Guarded engine) (hsound : world.Sound engine s programs)
    (hsymm : ∀ w w', engine.conflicts w w' = engine.conflicts w' w) (move : Move ι) :
    (world.step engine move).Guarded engine := by
  cases move with
  | advance i =>
    unfold World.step
    cases hi : world.status i with
    | active session =>
      simp only [hi]
      cases hprogram : session.program with
      | finish result =>
        unfold World.advance
        rw [hprogram]
        exact h.commit hsound hi
      | raise error =>
        unfold World.advance
        rw [hprogram]
        exact h.release (by simp)
      | statement reads writes next => exact h.statement hsymm hi hprogram
      | emit effect next | afterCommit effect next =>
        unfold World.advance
        rw [hprogram]
        exact h.continue hi next
    | _ => simpa only [hi] using h
  | crash i =>
    unfold World.step
    cases hi : world.status i with
    | active session =>
      simp only [hi]
      exact h.release (by simp)
    | _ => simpa only [hi] using h

/-- In every interleaving open transactions exclude each other's conflicting writes. -/
theorem scheduler_guarded (hsymm : ∀ w w', engine.conflicts w w' = engine.conflicts w' w)
    (moves : List (Move ι)) :
    (Runs.exec (World.scheduler engine) (World.start s programs) moves).Guarded engine := by
  have hkeep (world : World σ ω κ χ ε α ι) (move : Move ι) (_ : True)
      (h : world.Sound engine s programs ∧ world.Guarded engine) :
      (World.scheduler engine world move).2.Sound engine s programs ∧
        (World.scheduler engine world move).2.Guarded engine :=
    ⟨h.1.step move, h.2.step h.1 hsymm move⟩
  exact (Runs.exec_invariant hkeep (fun _ _ => trivial)
    ⟨World.start_sound, World.start_guarded⟩).2

end Steps

section Serial

/-- A transaction that locked what it reads is a serial run at the place of its commit. -/
theorem World.Sound.execute {world : World σ ω κ χ ε α ι} (hsound : world.Sound engine s programs)
    (hguarded : world.Guarded engine) (haccepts : ∀ s w, engine.refuses s w = none)
    {f : ι → σ → β} (hlocal : ∀ i, Local engine (f i))
    (hlocked : ∀ i, (programs i).Locked engine (f i)) {before after : List (Commit σ ω κ ι)}
    {c : Commit σ ω κ ι} (hlog : world.log = before ++ c :: after) :
    ∃ result, (programs c.request).execute engine (replay engine s before) =
      .ok (result, replay engine s (before ++ [c])) := by
  obtain ⟨⟨result, hrun⟩, hviews⟩ := hsound.logged before c after hlog
  have hheld := hguarded.committed before c after hlog
  refine ⟨result, ?_⟩
  rw [replay_snoc, Commit.writes]
  have hlock := hlocked c.request
  generalize programs c.request = p at hrun hlock
  generalize hhistory : c.history = history at hrun hviews hheld
  cases hlock with
  | finish =>
    cases hrun
    rfl
  | raise => cases hrun
  | @write w body hguards hbody =>
    obtain _ | ⟨position, view, hrun⟩ := hrun
    rename_i rest
    -- what is read under the lock is what the earlier commits have left
    have hrest := hbody.execute (s := engine.apply (replay engine s before) w) haccepts hrun (by
      intro before' o after' hsplit
      have hcons : (⟨position, view, [], [w]⟩ :: rest : List (Observation σ ω κ)) =
          (⟨position, view, [], [w]⟩ :: before') ++ o :: after' := by
        rw [hsplit]
        rfl
      have hfree : ∀ w' ∈ (before.drop o.position).flatMap Commit.writes,
          engine.conflicts w w' = false := by
        intro w' hw'
        obtain ⟨e, he, hw'⟩ := List.mem_flatMap.mp hw'
        exact hheld _ o after' hcons w (by simp [written]) e he w' hw'
      have hkept := hguards.applyAll hfree (replay engine s (before.take o.position))
      have hnow : f c.request (replay engine s (before.take o.position)) =
          f c.request (replay engine s before) := by
        conv_rhs => rw [← List.take_append_drop o.position before, replay_append]
        exact hkept.symm
      rw [hviews.view _ o after' hcons, applyAll_written_cons]
      exact (hlocal c.request).applyAll _ ((hlocal c.request) w _ _ hnow))
    rw [applyAll_written_cons]
    simp only [Program.write, Program.execute, refusal_of_accepts engine haccepts]
    exact hrest

/-- A transaction that holds what every commit since its statement began has locked sees every
earlier one. -/
theorem World.Sound.view_latest {world : World σ ω κ χ ε α ι} (hsound : world.Sound engine s programs)
    (hguarded : world.Guarded engine) {before after : List (Commit σ ω κ ι)} {c : Commit σ ω κ ι}
    (hlog : world.log = before ++ c :: after) {front back : List (Observation σ ω κ)}
    {o : Observation σ ω κ} (hhistory : c.history = front ++ o :: back) {w : ω}
    (hw : w ∈ written front)
    (hlocked : ∀ e ∈ before.drop o.position, ∃ w' ∈ e.writes, engine.conflicts w w' = true) :
    o.view = engine.applyAll (replay engine s before) (written front) := by
  obtain ⟨_, hviews⟩ := hsound.logged before c after hlog
  have hheld := hguarded.committed before c after hlog
  -- since the statement began, no commit can have taken the lock
  have hnone : before.drop o.position = [] := by
    rw [List.eq_nil_iff_forall_not_mem]
    intro e he
    obtain ⟨w', hw', hconflict⟩ := hlocked e he
    rw [hheld front o back hhistory w hw e he w' hw'] at hconflict
    cases hconflict
  rw [hviews.view front o back hhistory, List.take_of_length_le (List.drop_eq_nil_iff.mp hnone)]

/-- What an interleaving has committed is what its requests leave one after the other, in the order
of their commits. -/
theorem World.Sound.serializable {world : World σ ω κ χ ε α ι}
    (hsound : world.Sound engine s programs) (hguarded : world.Guarded engine)
    (haccepts : ∀ s w, engine.refuses s w = none) {f : ι → σ → β}
    (hlocal : ∀ i, Local engine (f i)) (hlocked : ∀ i, (programs i).Locked engine (f i)) :
    SerialRun engine programs s (world.log.map (·.request)) world.database := by
  have hserial (rest done : List (Commit σ ω κ ι)) (hlog : world.log = done ++ rest) :
      SerialRun engine programs (replay engine s done) (rest.map (·.request))
        (replay engine s world.log) := by
    induction rest generalizing done with
    | nil =>
      rw [hlog, List.append_nil]
      exact .nil _
    | cons c rest ih =>
      obtain ⟨result, hrun⟩ := hsound.execute hguarded haccepts hlocal hlocked hlog
      exact .cons hrun (ih (done ++ [c]) (by rw [hlog, List.append_assoc]; rfl))
  rw [hsound.database]
  exact hserial world.log [] rfl

end Serial

section Committed

variable [DecidableEq ι]

def World.Logged (world : World σ ω κ χ ε α ι) : Prop :=
  ∀ i result, world.status i = .committed result → ∃ c ∈ world.log, c.request = i

theorem World.Logged.set {world : World σ ω κ χ ε α ι} (h : world.Logged) {i : ι}
    {status : Status σ ω κ χ ε α} (hstatus : ∀ result, status ≠ .committed result) :
    (world.set i status).Logged := by
  intro j result hj
  by_cases hji : j = i
  · subst hji
    rw [World.set_status_self] at hj
    exact absurd hj (hstatus result)
  · rw [World.set_status_of_ne world hji] at hj
    exact h j result hj

variable [Fintype ι]

theorem World.Logged.advance {world : World σ ω κ χ ε α ι} (h : world.Logged) (i : ι)
    (session : Session σ ω κ χ ε α) : (world.advance engine i session).Logged := by
  unfold World.advance
  cases session.program with
  | finish result =>
    intro j result' hj
    by_cases hji : j = i
    · exact ⟨⟨i, session.history⟩, List.mem_append_right _ List.mem_cons_self, hji.symm⟩
    · have hkept := World.set_status_of_ne world hji (.committed result)
      obtain ⟨c, hc, hrequest⟩ := h j result' (hkept.symm.trans hj)
      exact ⟨c, List.mem_append_left _ hc, hrequest⟩
  | statement reads writes next =>
    dsimp only
    split
    · exact h.set (by simp)
    · split
      · exact h.set (by simp)
      · exact h.set (by simp)
  | _ => exact h.set (by simp)

theorem scheduler_logged (moves : List (Move ι)) :
    (Runs.exec (World.scheduler engine) (World.start s programs) moves).Logged := by
  have hkeep (world : World σ ω κ χ ε α ι) (move : Move ι) (_ : True) (h : world.Logged) :
      (World.scheduler engine world move).2.Logged := by
    show (world.step engine move).Logged
    unfold World.step
    cases move with
    | advance i =>
      cases hi : world.status i with
      | active session => simpa only [hi] using h.advance i session
      | _ => simpa only [hi] using h
    | crash i =>
      cases hi : world.status i with
      | active session => simpa only [hi] using h.set (by simp)
      | _ => simpa only [hi] using h
  refine Runs.exec_invariant hkeep (fun _ _ => trivial) ?_
  rintro i result ⟨⟩

end Committed

end Held

end Transactions
