import IBotCoreApi.Library.Transactions

namespace Transactions

variable {σ ω κ χ ε α ι : Type*}

namespace Program

inductive Reaches : Program σ ω κ χ ε α → List (Observation σ ω κ) → Program σ ω κ χ ε α → Prop
  | refl (p : Program σ ω κ χ ε α) : Reaches p [] p
  | statement {reads : List κ} {writes : σ → List ω} {next : σ → Program σ ω κ χ ε α}
      {history : List (Observation σ ω κ)} {q : Program σ ω κ χ ε α} (position : ℕ) (view : σ)
      (h : Reaches (next view) history q) :
      Reaches (.statement reads writes next) (⟨position, view, reads, writes view⟩ :: history) q
  | emit {effect : χ} {next q : Program σ ω κ χ ε α} {history : List (Observation σ ω κ)}
      (h : Reaches next history q) : Reaches (.emit effect next) history q
  | afterCommit {effect : χ} {next q : Program σ ω κ χ ε α} {history : List (Observation σ ω κ)}
      (h : Reaches next history q) : Reaches (.afterCommit effect next) history q

theorem Reaches.trans {p q r : Program σ ω κ χ ε α} {h h' : List (Observation σ ω κ)}
    (hp : p.Reaches h q) (hq : q.Reaches h' r) : p.Reaches (h ++ h') r := by
  induction hp with
  | refl => exact hq
  | statement position view _ ih => exact .statement position view (ih hq)
  | emit _ ih => exact .emit (ih hq)
  | afterCommit _ ih => exact .afterCommit (ih hq)

/-- What the statements of every completed run satisfy, whatever rows they see. -/
def Ensures (Q : List (Observation σ ω κ) → Prop) :
    List (Observation σ ω κ) → Program σ ω κ χ ε α → Prop
  | history, finish _ => Q history
  | _, raise _ => True
  | history, statement reads writes next => ∀ position view,
      (next view).Ensures Q (history ++ [⟨position, view, reads, writes view⟩])
  | history, emit _ next => next.Ensures Q history
  | history, afterCommit _ next => next.Ensures Q history

section Rules

variable {Q : List (Observation σ ω κ) → Prop} {history : List (Observation σ ω κ)}

theorem ensures_select {β : Type*} {reads : List κ} {answer : σ → β}
    {next : β → Program σ ω κ χ ε α} : (select reads answer next).Ensures Q history ↔
      ∀ position view, (next (answer view)).Ensures Q (history ++ [⟨position, view, reads, []⟩]) :=
  Iff.rfl

theorem ensures_write {w : ω} {next : Program σ ω κ χ ε α} :
    (write w next).Ensures Q history ↔
      ∀ position view, next.Ensures Q (history ++ [⟨position, view, [], [w]⟩]) :=
  Iff.rfl

theorem ensures_statement {reads : List κ} {writes : σ → List ω}
    {next : σ → Program σ ω κ χ ε α} : (statement reads writes next).Ensures Q history ↔
      ∀ position view,
        (next view).Ensures Q (history ++ [⟨position, view, reads, writes view⟩]) :=
  Iff.rfl

end Rules

theorem Ensures.finished {Q : List (Observation σ ω κ) → Prop} {p : Program σ ω κ χ ε α}
    {history history' : List (Observation σ ω κ)} {result : α} (h : p.Ensures Q history)
    (hrun : p.Reaches history' (.finish result)) : Q (history ++ history') := by
  generalize hend : Program.finish result = q at hrun
  induction hrun generalizing history with
  | refl =>
    subst hend
    rw [List.append_nil]
    exact h
  | statement position view _ ih =>
    have hrest := ih (h position view) hend
    rw [List.append_assoc] at hrest
    exact hrest
  | emit _ ih => exact ih h hend
  | afterCommit _ ih => exact ih h hend

end Program

def Commit.writes (c : Commit σ ω κ ι) : List ω := written c.history

theorem append_cons_of_snoc {β : Type*} {xs before after : List β} {last x : β}
    (h : xs ++ [last] = before ++ x :: after) :
    (before = xs ∧ x = last) ∨ ∃ after', xs = before ++ x :: after' := by
  rcases List.eq_nil_or_concat after with rfl | ⟨after', final, rfl⟩
  · obtain ⟨hbefore, hlast⟩ := List.append_inj' h rfl
    exact .inl ⟨hbefore.symm, (List.singleton_inj.mp hlast).symm⟩
  · rw [List.concat_eq_append, ← List.cons_append, ← List.append_assoc] at h
    exact .inr ⟨after', (List.append_inj' h rfl).1⟩

theorem countP_le_one {β : Type*} {p : β → Bool} {xs : List β}
    (h : ∀ before x after, xs = before ++ x :: after → p x → ∀ y ∈ before, ¬ p y) :
    xs.countP p ≤ 1 := by
  induction xs with
  | nil => simp
  | cons x xs ih =>
    rw [List.countP_cons]
    split
    · rename_i hx
      have hnone : xs.countP p = 0 := by
        rw [List.countP_eq_zero]
        intro y hy hpy
        obtain ⟨before, after, rfl⟩ := List.append_of_mem hy
        exact h (x :: before) y after rfl hpy x List.mem_cons_self hx
      omega
    · have hrest := ih fun before y after hsplit hy z hz =>
        h (x :: before) y after (by rw [hsplit]; rfl) hy z (List.mem_cons_of_mem x hz)
      omega

section Replay

variable (engine : Engine σ ω ε)

def replay (s : σ) (log : List (Commit σ ω κ ι)) : σ :=
  engine.applyAll s (log.flatMap Commit.writes)

theorem replay_append (s : σ) (log log' : List (Commit σ ω κ ι)) :
    replay engine s (log ++ log') = replay engine (replay engine s log) log' := by
  rw [replay, List.flatMap_append, engine.applyAll_append]
  rfl

theorem replay_snoc (s : σ) (log : List (Commit σ ω κ ι)) (c : Commit σ ω κ ι) :
    replay engine s (log ++ [c]) = engine.applyAll (replay engine s log) c.writes := by
  rw [replay_append, replay, List.flatMap_singleton]

/-- Each statement saw the rows of the commits before it, under the writes of its own transaction. -/
structure Views (s : σ) (log : List (Commit σ ω κ ι)) (history : List (Observation σ ω κ)) :
    Prop where
  position : ∀ o ∈ history, o.position ≤ log.length
  view : ∀ before o after, history = before ++ o :: after →
    o.view = engine.applyAll (replay engine s (log.take o.position)) (written before)
  ordered : ∀ before o after, history = before ++ o :: after →
    ∀ o' ∈ before, o'.position ≤ o.position

variable {engine} {s : σ} {log : List (Commit σ ω κ ι)} {history : List (Observation σ ω κ)}

theorem Views.nil : Views engine s log [] where
  position := by simp
  view := by simp
  ordered := by simp

theorem Views.extend (h : Views engine s log history) (c : Commit σ ω κ ι) :
    Views engine s (log ++ [c]) history where
  position := by
    intro o ho
    rw [List.length_append]
    exact (h.position o ho).trans (Nat.le_add_right _ _)
  view := by
    intro before o after hsplit
    have hle := h.position o (hsplit ▸ List.mem_append_right before List.mem_cons_self)
    rw [List.take_append_of_le_length hle]
    exact h.view before o after hsplit
  ordered := h.ordered

theorem Views.init {later : List (Observation σ ω κ)} (h : Views engine s log (history ++ later)) :
    Views engine s log history where
  position := by
    intro o ho
    exact h.position o (List.mem_append_left later ho)
  view := by
    intro before o after hsplit
    exact h.view before o (after ++ later) (by simp [hsplit])
  ordered := by
    intro before o after hsplit
    exact h.ordered before o (after ++ later) (by simp [hsplit])

theorem Views.snoc (h : Views engine s log history) {o : Observation σ ω κ}
    (hposition : o.position ≤ log.length)
    (hview : o.view = engine.applyAll (replay engine s (log.take o.position)) (written history))
    (hordered : ∀ o' ∈ history, o'.position ≤ o.position) : Views engine s log (history ++ [o]) := by
  constructor
  · intro o' ho'
    rcases List.mem_append.mp ho' with ho' | ho'
    · exact h.position o' ho'
    · rw [List.mem_singleton.mp ho']
      exact hposition
  · intro before o' after heq
    rcases append_cons_of_snoc heq with ⟨rfl, rfl⟩ | ⟨after', hhistory⟩
    · exact hview
    · exact h.view before o' after' hhistory
  · intro before o' after heq
    rcases append_cons_of_snoc heq with ⟨rfl, rfl⟩ | ⟨after', hhistory⟩
    · exact hordered
    · exact h.ordered before o' after' hhistory

end Replay

section Advance

variable {engine : Engine σ ω ε} [DecidableEq ι] [Fintype ι] {world : World σ ω κ χ ε α ι} {i : ι}
  {history : List (Observation σ ω κ)}

theorem World.advance_select {β : Type*} {reads : List κ} {answer : σ → β}
    {next : β → Program σ ω κ χ ε α} :
    world.advance engine i ⟨.select reads answer next, history, none⟩ =
      let view := world.view engine history
      world.set i (.active ⟨next (answer view),
        history ++ [⟨world.log.length, view, reads, []⟩], none⟩) := by
  have hfree : world.blocked engine i [] = false := by simp [World.blocked]
  simp only [World.advance, Program.select, Option.getD_none, hfree]
  rfl

theorem World.advance_writes {reads : List κ} {ws : List ω} {next : Program σ ω κ χ ε α}
    {waiting : Option (ℕ × σ)} {motive : World σ ω κ χ ε α ι → Prop}
    (hwaits : ∀ waiting', motive (world.set i
      (.active ⟨.statement reads (fun _ => ws) fun _ => next, history, waiting'⟩)))
    (hrefused : ∀ error, motive (world.set i (.raised error)))
    (hexecutes : ∀ o : Observation σ ω κ, o.writes = ws →
      engine.refusal (world.view engine history) ws = none →
      motive (world.set i (.active ⟨next, history ++ [o], none⟩))) :
    motive (world.advance engine i
      ⟨.statement reads (fun _ => ws) fun _ => next, history, waiting⟩) := by
  simp only [World.advance]
  split
  · exact hwaits _
  · cases hrefusal : engine.refusal (world.view engine history) ws with
    | some error => exact hrefused error
    | none => exact hexecutes _ rfl hrefusal

end Advance

section Sound

variable (engine : Engine σ ω ε) (s : σ)

/-- An open transaction is a partial run of its program. -/
structure Session.Sound (log : List (Commit σ ω κ ι)) (program : Program σ ω κ χ ε α)
    (session : Session σ ω κ χ ε α) : Prop where
  reaches : program.Reaches session.history session.program
  views : Views engine s log session.history
  waiting : ∀ position view, session.waiting = some (position, view) →
    position ≤ log.length ∧
      view = engine.applyAll (replay engine s (log.take position)) (written session.history) ∧
      ∀ o ∈ session.history, o.position ≤ position

/-- The log explains the committed rows, and each of its entries is a run of the program of one
request. -/
structure World.Sound (programs : ι → Program σ ω κ χ ε α) (world : World σ ω κ χ ε α ι) :
    Prop where
  database : world.database = replay engine s world.log
  active : ∀ i session, world.status i = .active session →
    session.Sound engine s world.log (programs i)
  logged : ∀ before c after, world.log = before ++ c :: after →
    (∃ result, (programs c.request).Reaches c.history (.finish result)) ∧
      Views engine s before c.history
  once : (world.log.map (·.request)).Nodup
  finished : ∀ c ∈ world.log, ∃ result, world.status c.request = .committed result

variable {engine s} {programs : ι → Program σ ω κ χ ε α}

theorem World.start_sound :
    (World.start s programs).Sound engine s programs where
  database := rfl
  active := by
    rintro i session ⟨⟩
    exact ⟨.refl _, .nil, by simp⟩
  logged := by simp [World.start]
  once := List.nodup_nil
  finished := by simp [World.start]

theorem Session.Sound.extend {log : List (Commit σ ω κ ι)} {program : Program σ ω κ χ ε α}
    {session : Session σ ω κ χ ε α} (h : session.Sound engine s log program)
    (c : Commit σ ω κ ι) : session.Sound engine s (log ++ [c]) program where
  reaches := h.reaches
  views := h.views.extend c
  waiting := by
    intro position view hwaiting
    obtain ⟨hle, hview, hordered⟩ := h.waiting position view hwaiting
    rw [List.take_append_of_le_length hle, List.length_append]
    exact ⟨hle.trans (Nat.le_add_right _ _), hview, hordered⟩

variable [DecidableEq ι] {world : World σ ω κ χ ε α ι} {i : ι} {session : Session σ ω κ χ ε α}

theorem World.Sound.set (h : world.Sound engine s programs) (hi : world.status i = .active session)
    {status : Status σ ω κ χ ε α}
    (hstatus : ∀ session', status = .active session' →
      session'.Sound engine s world.log (programs i)) :
    (world.set i status).Sound engine s programs where
  database := h.database
  active := by
    intro j session' hj
    by_cases hji : j = i
    · subst hji
      rw [World.set_status_self] at hj
      exact hstatus session' hj
    · rw [World.set_status_of_ne world hji] at hj
      exact h.active j session' hj
  logged := h.logged
  once := h.once
  finished := by
    intro c hc
    obtain ⟨result, hresult⟩ := h.finished c hc
    have hne : c.request ≠ i := by
      rintro rfl
      rw [hi] at hresult
      cases hresult
    exact ⟨result, (World.set_status_of_ne world hne status).trans hresult⟩

theorem World.Sound.commit (h : world.Sound engine s programs)
    (hi : world.status i = .active session) {result : α} (hfinish : session.program = .finish result) :
    ({ world.set i (.committed result) with
      database := world.view engine session.history
      log := world.log ++ [⟨i, session.history⟩] } : World σ ω κ χ ε α ι).Sound engine s programs where
  database := by
    rw [replay_snoc, ← h.database]
    rfl
  active := by
    intro j session' hj
    have hji : j ≠ i := by
      rintro rfl
      have hcommitted := World.set_status_self world j (.committed result)
      cases hcommitted.symm.trans hj
    have hkept := World.set_status_of_ne world hji (.committed result)
    exact (h.active j session' (hkept.symm.trans hj)).extend _
  logged := by
    intro before c after hsplit
    rcases append_cons_of_snoc hsplit with ⟨rfl, rfl⟩ | ⟨after', hlog⟩
    · have hsession := h.active i session hi
      exact ⟨⟨result, hfinish ▸ hsession.reaches⟩, hsession.views⟩
    · exact h.logged before c after' hlog
  once := by
    rw [List.map_append, List.map_singleton]
    refine List.nodup_append.mpr ⟨h.once, List.nodup_singleton _, ?_⟩
    intro j hj k hk
    obtain ⟨c, hc, rfl⟩ := List.mem_map.mp hj
    obtain ⟨result', hresult⟩ := h.finished c hc
    rw [List.mem_singleton.mp hk]
    intro heq
    simp only at heq
    rw [heq, hi] at hresult
    cases hresult
  finished := by
    intro c hc
    rcases List.mem_append.mp hc with hc | hc
    · obtain ⟨result', hresult⟩ := h.finished c hc
      have hne : c.request ≠ i := by
        rintro rfl
        rw [hi] at hresult
        cases hresult
      exact ⟨result', (World.set_status_of_ne world hne _).trans hresult⟩
    · rw [List.mem_singleton.mp hc]
      exact ⟨result, World.set_status_self world i _⟩

variable [Fintype ι]

theorem World.Sound.statement (h : world.Sound engine s programs)
    (hi : world.status i = .active session) {reads : List κ} {writes : σ → List ω}
    {next : σ → Program σ ω κ χ ε α} (hprogram : session.program = .statement reads writes next) :
    (world.advance engine i session).Sound engine s programs := by
  have hsession := h.active i session hi
  -- a waiting statement keeps the rows of its start, another one sees the latest commits
  have hsnapshot :
      let start := session.waiting.getD (world.log.length, world.view engine session.history)
      start.1 ≤ world.log.length ∧
        start.2 = engine.applyAll (replay engine s (world.log.take start.1))
          (written session.history) ∧ ∀ o ∈ session.history, o.position ≤ start.1 := by
    cases hwaiting : session.waiting with
    | some waiting => exact hsession.waiting _ _ hwaiting
    | none =>
      refine ⟨le_rfl, ?_, hsession.views.position⟩
      rw [Option.getD_none, List.take_length, ← h.database]
      rfl
  unfold World.advance
  rw [hprogram]
  simp only
  generalize session.waiting.getD (world.log.length, world.view engine session.history) = start
    at hsnapshot
  obtain ⟨position, view⟩ := start
  obtain ⟨hposition, hview, hordered⟩ := hsnapshot
  simp only
  split
  · refine h.set hi ?_
    rintro session' ⟨⟩
    refine ⟨hprogram ▸ hsession.reaches, hsession.views, ?_⟩
    rintro _ _ ⟨⟩
    exact ⟨hposition, hview, hordered⟩
  · split
    · exact h.set hi (by simp)
    · refine h.set hi ?_
      rintro session' ⟨⟩
      refine ⟨?_, hsession.views.snoc hposition hview hordered, by simp⟩
      have hreaches := hsession.reaches
      rw [hprogram] at hreaches
      exact hreaches.trans (.statement position view (.refl _))

theorem World.Sound.advance (h : world.Sound engine s programs)
    (hi : world.status i = .active session) :
    (world.advance engine i session).Sound engine s programs := by
  have hsession := h.active i session hi
  cases hprogram : session.program with
  | finish result =>
    unfold World.advance
    rw [hprogram]
    exact h.commit hi hprogram
  | raise error =>
    unfold World.advance
    rw [hprogram]
    exact h.set hi (by simp)
  | statement reads writes next => exact h.statement hi hprogram
  | emit effect next =>
    unfold World.advance
    rw [hprogram]
    refine h.set hi ?_
    rintro session' ⟨⟩
    have hreaches := hsession.reaches
    rw [hprogram] at hreaches
    have hnext := hreaches.trans (.emit (.refl next))
    rw [List.append_nil] at hnext
    exact ⟨hnext, hsession.views, hsession.waiting⟩
  | afterCommit effect next =>
    unfold World.advance
    rw [hprogram]
    refine h.set hi ?_
    rintro session' ⟨⟩
    have hreaches := hsession.reaches
    rw [hprogram] at hreaches
    have hnext := hreaches.trans (.afterCommit (.refl next))
    rw [List.append_nil] at hnext
    exact ⟨hnext, hsession.views, hsession.waiting⟩

theorem World.Sound.step (h : world.Sound engine s programs) (move : Move ι) :
    (world.step engine move).Sound engine s programs := by
  cases move with
  | advance i =>
    unfold World.step
    cases hi : world.status i with
    | active session =>
      simp only [hi]
      exact h.advance hi
    | _ => simpa only [hi] using h
  | crash i =>
    unfold World.step
    cases hi : world.status i with
    | active session =>
      simp only [hi]
      exact h.set hi (by simp)
    | _ => simpa only [hi] using h

/-- Every interleaving of the requests is sound. -/
theorem scheduler_sound (moves : List (Move ι)) :
    (Runs.exec (World.scheduler engine) (World.start s programs) moves).Sound engine s programs := by
  have hkeep (world : World σ ω κ χ ε α ι) (move : Move ι) (_ : True)
      (h : world.Sound engine s programs) :
      (World.scheduler engine world move).2.Sound engine s programs := h.step move
  exact Runs.exec_invariant hkeep (fun _ _ => trivial) World.start_sound

theorem World.log_prefix_step (world : World σ ω κ χ ε α ι) (move : Move ι) :
    world.log <+: (world.step engine move).log := by
  have hadvance (i : ι) (session : Session σ ω κ χ ε α) :
      world.log <+: (world.advance engine i session).log := by
    unfold World.advance
    cases session.program with
    | finish result => exact List.prefix_append world.log _
    | statement reads writes next =>
      dsimp only
      split
      · exact List.prefix_refl world.log
      · split
        · exact List.prefix_refl world.log
        · exact List.prefix_refl world.log
    | _ => exact List.prefix_refl world.log
  cases move with
  | advance i =>
    unfold World.step
    cases hi : world.status i with
    | active session =>
      simp only [hi]
      exact hadvance i session
    | _ => simp only [hi, List.prefix_refl]
  | crash i =>
    unfold World.step
    cases hi : world.status i with
    | active session =>
      simp only [hi]
      exact List.prefix_refl world.log
    | _ => simp only [hi, List.prefix_refl]

theorem World.log_prefix_exec (world : World σ ω κ χ ε α ι) (moves : List (Move ι)) :
    world.log <+: (Runs.exec (World.scheduler engine) world moves).log := by
  have hkeep (world' : World σ ω κ χ ε α ι) (move : Move ι) (_ : True)
      (h : world.log <+: world'.log) : world.log <+: (World.scheduler engine world' move).2.log :=
    h.trans (world'.log_prefix_step move)
  exact Runs.exec_invariant hkeep (fun _ _ => trivial) (List.prefix_refl world.log)

end Sound

section Valid

variable {touches : ω → κ → Bool} {before : List (Commit σ ω κ ι)} {c : Commit σ ω κ ι}

/-- No commit since a statement of the transaction read a key has touched that key. -/
def Commit.Valid (touches : ω → κ → Bool) (before : List (Commit σ ω κ ι)) (c : Commit σ ω κ ι) :
    Prop :=
  ∀ o ∈ c.history, ∀ k ∈ o.reads, ∀ e ∈ before.drop o.position, ∀ w ∈ e.writes, touches w k = false

/-- What a valid transaction has read still holds when it commits. -/
theorem Commit.Valid.still (h : c.Valid touches before) (engine : Engine σ ω ε) (s : σ)
    (Inv : σ → Prop) {o : Observation σ ω κ}
    (ho : o ∈ c.history) {k : κ} (hk : k ∈ o.reads)
    (hkeep : ∀ s w, touches w k = false → Inv s → Inv (engine.apply s w))
    (hread : Inv (replay engine s (before.take o.position))) : Inv (replay engine s before) := by
  rw [← List.take_append_drop o.position before, replay_append]
  refine engine.applyAll_invariant Inv ?_ hread
  intro s w hw
  obtain ⟨e, he, hwe⟩ := List.mem_flatMap.mp hw
  exact hkeep s w (h o ho k hk e he w hwe)

end Valid

end Transactions
