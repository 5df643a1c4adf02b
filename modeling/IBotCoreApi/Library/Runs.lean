import Mathlib.Data.List.Induction

namespace Runs

variable {σ ι ο : Type*}

/-- A deterministic machine: from a state, an input gives an output and the next state. -/
abbrev Machine (σ ι ο : Type*) := σ → ι → ο × σ

structure Transition (σ ι ο : Type*) where
  pre : σ
  input : ι
  output : ο
  post : σ

/-- The step that `step` takes from `s` on input `i`. -/
def Transition.of (step : Machine σ ι ο) (s : σ) (i : ι) : Transition σ ι ο :=
  ⟨s, i, (step s i).1, (step s i).2⟩

def exec (step : Machine σ ι ο) (s : σ) : List ι → σ
  | [] => s
  | i :: is => exec step (step s i).2 is

def trace (step : Machine σ ι ο) (s : σ) : List ι → List (Transition σ ι ο)
  | [] => []
  | i :: is => Transition.of step s i :: trace step (step s i).2 is

variable {step : Machine σ ι ο} {s : σ}

@[simp] theorem exec_nil : exec step s [] = s := rfl

@[simp] theorem exec_cons (i : ι) (is : List ι) :
    exec step s (i :: is) = exec step (step s i).2 is := rfl

@[simp] theorem trace_nil : trace step s [] = [] := rfl

@[simp] theorem trace_cons (i : ι) (is : List ι) :
    trace step s (i :: is) = Transition.of step s i :: trace step (step s i).2 is := rfl

theorem exec_append (is js : List ι) :
    exec step s (is ++ js) = exec step (exec step s is) js := by
  induction is generalizing s with
  | nil => rfl
  | cons i is ih => simp only [List.cons_append, exec_cons, ih]

theorem trace_append (is js : List ι) :
    trace step s (is ++ js) = trace step s is ++ trace step (exec step s is) js := by
  induction is generalizing s with
  | nil => rfl
  | cons i is ih => simp only [List.cons_append, trace_cons, exec_cons, ih]

theorem exec_snoc (is : List ι) (i : ι) :
    exec step s (is ++ [i]) = (step (exec step s is) i).2 := by
  rw [exec_append]
  rfl

theorem trace_snoc (is : List ι) (i : ι) :
    trace step s (is ++ [i]) = trace step s is ++ [Transition.of step (exec step s is) i] := by
  rw [trace_append]
  rfl

theorem exec_append_cons (is js : List ι) (i : ι) :
    exec step s (is ++ i :: js) = exec step (step (exec step s is) i).2 js :=
  exec_append is (i :: js)

theorem trace_append_cons (is js : List ι) (i : ι) :
    trace step s (is ++ i :: js) = trace step s is ++
      Transition.of step (exec step s is) i :: trace step (step (exec step s is) i).2 js :=
  trace_append is (i :: js)

theorem mem_trace {is : List ι} {t : Transition σ ι ο} (h : t ∈ trace step s is) :
    ∃ before i after, is = before ++ i :: after ∧
      t = Transition.of step (exec step s before) i := by
  induction is generalizing s with
  | nil => simp at h
  | cons i is ih =>
    rcases List.mem_cons.mp h with rfl | h
    · exact ⟨[], i, is, rfl, rfl⟩
    · obtain ⟨before, j, after, rfl, ht⟩ := ih h
      exact ⟨i :: before, j, after, rfl, ht⟩

theorem mem_of_mem_trace {is : List ι} {t : Transition σ ι ο} (h : t ∈ trace step s is) :
    t.input ∈ is := by
  obtain ⟨before, i, after, rfl, rfl⟩ := mem_trace h
  exact List.mem_append_right _ List.mem_cons_self

/-- What every step on an admitted input preserves holds at the end of a run of such inputs. -/
theorem exec_invariant {Admitted : ι → Prop} {Inv : σ → Prop}
    (hstep : ∀ s i, Admitted i → Inv s → Inv (step s i).2)
    {is : List ι} (his : ∀ i ∈ is, Admitted i) (hs : Inv s) : Inv (exec step s is) := by
  induction is generalizing s with
  | nil => exact hs
  | cons i is ih =>
    exact ih (fun j hj => his j (List.mem_cons_of_mem i hj))
      (hstep s i (his i List.mem_cons_self) hs)

/-- An invariant that relates the state to the steps executed so far. -/
theorem history_invariant {Admitted : ι → Prop} {Inv : List (Transition σ ι ο) → σ → Prop}
    (hstep : ∀ history s i, Admitted i → Inv history s →
      Inv (history ++ [Transition.of step s i]) (step s i).2)
    {is : List ι} (his : ∀ i ∈ is, Admitted i) (hs : Inv [] s) :
    Inv (trace step s is) (exec step s is) := by
  induction is using List.reverseRecOn with
  | nil => exact hs
  | append_singleton is i ih =>
    rw [trace_snoc, exec_snoc]
    exact hstep _ _ _ (his i (by simp))
      (ih fun j hj => his j (List.mem_append_left [i] hj))

theorem history_preserves {P : List (Transition σ ι ο) → σ → Prop} {is : List ι}
    (hstep : ∀ before i after, is = before ++ i :: after →
      P (trace step s before) (exec step s before) →
      P (trace step s (before ++ [i])) (exec step s (before ++ [i])))
    (hs : P [] s) : P (trace step s is) (exec step s is) := by
  induction is using List.reverseRecOn with
  | nil => exact hs
  | append_singleton is i ih =>
    refine hstep is i [] rfl (ih fun before j after hsplit => ?_)
    exact hstep before j (after ++ [i]) (by rw [hsplit, List.append_assoc, List.cons_append])

/-- A reflexive and transitive relation that holds across every executed step holds across the
run. -/
theorem exec_rel {R : σ → σ → Prop} (hrefl : ∀ s, R s s)
    (htrans : ∀ {a b c}, R a b → R b c → R a c) {is : List ι}
    (hstep : ∀ t ∈ trace step s is, R t.pre t.post) : R s (exec step s is) := by
  induction is generalizing s with
  | nil => exact hrefl s
  | cons i is ih =>
    exact htrans (hstep _ List.mem_cons_self)
      (ih fun t ht => hstep t (List.mem_cons_of_mem _ ht))

theorem exec_preserves {P : σ → Prop} {is : List ι}
    (hstep : ∀ t ∈ trace step s is, P t.pre → P t.post) (hs : P s) : P (exec step s is) :=
  exec_rel (R := fun s s' => P s → P s') (fun _ => id) (fun h h' hp => h' (h hp)) hstep hs

/-- A property that a step keeps exactly under a condition holds at the end of a run exactly when
it holds at the start and every step meets the condition. -/
theorem exec_iff {P : σ → Prop} {C : σ → ι → Prop} (hstep : ∀ s i, P (step s i).2 ↔ P s ∧ C s i)
    (is : List ι) :
    P (exec step s is) ↔
      P s ∧ ∀ before i after, is = before ++ i :: after → C (exec step s before) i := by
  induction is using List.reverseRecOn with
  | nil => simp
  | append_singleton is i ih =>
    rw [exec_snoc, hstep, ih, and_assoc]
    refine and_congr_right fun _ => ⟨fun ⟨hold, hlast⟩ before j after hsplit => ?_, fun h => ?_⟩
    · rcases List.append_eq_append_iff.mp hsplit with ⟨middle, rfl, hrest⟩ | ⟨middle, rfl, hrest⟩
      · cases middle with
        | nil =>
          obtain ⟨rfl, _⟩ := List.cons.inj hrest
          rwa [List.append_nil]
        | cons first middle => simp at hrest
      · cases middle with
        | nil =>
          obtain ⟨rfl, _⟩ := List.cons.inj hrest
          rwa [List.append_nil] at hlast
        | cons first middle =>
          obtain ⟨rfl, _⟩ := List.cons.inj hrest
          exact hold before j middle rfl
    · refine ⟨fun before j after hsplit => ?_, h is i [] rfl⟩
      exact h before j (after ++ [i]) (by rw [hsplit, List.append_assoc, List.cons_append])

/-- Where a step from a state with a property keeps it exactly under a condition, the property holds
in every state that a run reaches exactly when every step meets the condition. -/
theorem prefixes_iff {P : σ → Prop} {C : σ → ι → Prop} {is : List ι} (hs : P s)
    (hstep : ∀ before i after, is = before ++ i :: after → P (exec step s before) →
      (P (step (exec step s before) i).2 ↔ C (exec step s before) i)) :
    (∀ before, before <+: is → P (exec step s before)) ↔
      ∀ before i after, is = before ++ i :: after → C (exec step s before) i := by
  constructor
  · rintro hall before i after rfl
    refine (hstep before i after rfl (hall before (List.prefix_append before _))).mp ?_
    rw [← exec_snoc]
    exact hall (before ++ [i]) ⟨after, by simp⟩
  · intro hall before hprefix
    induction before using List.reverseRecOn with
    | nil => exact hs
    | append_singleton before i ih =>
      obtain ⟨after, hafter⟩ := hprefix
      have hsplit : is = before ++ i :: after := by simp [← hafter]
      have hbefore := ih ⟨i :: after, hsplit.symm⟩
      rw [exec_snoc]
      exact (hstep before i after hsplit hbefore).mpr (hall before i after hsplit)

/-- A property that holds at the end of a run but not at its start begins at some step. -/
theorem exists_begin {P : σ → Prop} {is : List ι} (hs : ¬ P s) (hend : P (exec step s is)) :
    ∃ t ∈ trace step s is, ¬ P t.pre ∧ P t.post := by
  induction is generalizing s with
  | nil => exact absurd hend hs
  | cons i is ih =>
    by_cases hi : P (step s i).2
    · exact ⟨_, List.mem_cons_self, hs, hi⟩
    · obtain ⟨t, ht, hbegin⟩ := ih hi hend
      exact ⟨t, List.mem_cons_of_mem _ ht, hbegin⟩

/-- A kind of step that no later step repeats happens at most once. -/
theorem countP_trace_le_one {p : Transition σ ι ο → Bool} {is : List ι}
    (honce : ∀ before i after, is = before ++ i :: after →
      p (Transition.of step (exec step s before) i) →
      ∀ t ∈ trace step (exec step s (before ++ [i])) after, ¬ p t) :
    (trace step s is).countP p ≤ 1 := by
  induction is generalizing s with
  | nil => simp
  | cons i is ih =>
    rw [trace_cons, List.countP_cons]
    split
    · rename_i hfirst
      have hnone : (trace step (step s i).2 is).countP p = 0 :=
        List.countP_eq_zero.mpr (honce [] i is rfl hfirst)
      omega
    · have hrest := ih fun before j after hsplit => honce (i :: before) j after (by simp [hsplit])
      omega

/-- Where each step of a machine is one of another machine on a view of its states, each run is one
of the other machine with the same outputs. -/
theorem exists_trace_view {τ κ : Type*} {step' : Machine τ κ ο} (view : σ → τ)
    (hstep : ∀ s i, ∃ k, step' (view s) k = ((step s i).1, view (step s i).2)) (s : σ)
    (is : List ι) :
    ∃ ks, (trace step' (view s) ks).map (fun t => (t.output, t.post)) =
      (trace step s is).map fun t => (t.output, view t.post) := by
  induction is generalizing s with
  | nil => exact ⟨[], rfl⟩
  | cons i is ih =>
    obtain ⟨k, hk⟩ := hstep s i
    obtain ⟨ks, hks⟩ := ih (step s i).2
    refine ⟨k :: ks, ?_⟩
    rw [trace_cons, trace_cons, List.map_cons, List.map_cons, Transition.of, Transition.of, hk, hks]

end Runs
