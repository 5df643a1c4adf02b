import Mathlib.Data.List.Chain
import Mathlib.Data.List.Range

namespace Attempts

variable {σ ε α : Type*}

abbrev Attempt (σ ε α : Type*) := ℕ → σ → Except (ε × σ) α

/-- What the attempts from a number on come to: the first result, or the last error. -/
def loop (attempt : Attempt σ ε α) : ℕ → ℕ → Option ε → σ → Except (Option ε) α
  | 0, _, last, _ => .error last
  | n + 1, k, _, s =>
    match attempt k s with
    | .ok a => .ok a
    | .error (e, s) => loop attempt n (k + 1) (some e) s

def made (attempt : Attempt σ ε α) : ℕ → ℕ → σ → List σ
  | 0, _, _ => []
  | n + 1, k, s =>
    s :: match attempt k s with
      | .ok _ => []
      | .error (_, s) => made attempt n (k + 1) s

/-- The state that an attempt starts from if all before it fail. -/
def stateAt (attempt : Attempt σ ε α) (k : ℕ) (s : σ) : ℕ → σ
  | 0 => s
  | i + 1 =>
    match attempt (k + i) (stateAt attempt k s i) with
    | .ok _ => stateAt attempt k s i
    | .error (_, s) => s

variable {attempt : Attempt σ ε α} {n k i : ℕ} {last : Option ε} {s s' : σ} {e : ε} {a : α}

def Fails (attempt : Attempt σ ε α) (k : ℕ) (s : σ) : Prop := ∃ e s', attempt k s = .error (e, s')

theorem not_fails_of_ok (h : attempt k s = .ok a) : ¬ Fails attempt k s := by
  rintro ⟨e, s', he⟩
  rw [h] at he
  cases he

theorem stateAt_succ_of_error (h : attempt k s = .error (e, s')) (i : ℕ) :
    stateAt attempt k s (i + 1) = stateAt attempt (k + 1) s' i := by
  induction i with
  | zero => simp [stateAt, h]
  | succ i ih =>
    rw [stateAt, ih, stateAt, show k + (i + 1) = k + 1 + i by omega]

def AllFail (attempt : Attempt σ ε α) (k : ℕ) (s : σ) (i : ℕ) : Prop :=
  ∀ j < i, Fails attempt (k + j) (stateAt attempt k s j)

theorem allFail_succ_of_error (h : attempt k s = .error (e, s')) :
    AllFail attempt k s (i + 1) ↔ AllFail attempt (k + 1) s' i := by
  constructor
  · intro hall j hj
    have hfails := hall (j + 1) (by omega)
    rwa [stateAt_succ_of_error h, show k + (j + 1) = k + 1 + j by omega] at hfails
  · rintro hall (_ | j) hj
    · exact ⟨e, s', h⟩
    · rw [stateAt_succ_of_error h, show k + (j + 1) = k + 1 + j by omega]
      exact hall j (by omega)

/-- The loop returns what the first attempt that does not fail returns. -/
theorem loop_eq_ok_iff : loop attempt n k last s = .ok a ↔
    ∃ i < n, AllFail attempt k s i ∧ attempt (k + i) (stateAt attempt k s i) = .ok a := by
  induction n generalizing k last s with
  | zero => simp [loop]
  | succ n ih =>
    rw [loop]
    cases h : attempt k s with
    | ok b =>
      constructor
      · rintro ⟨⟩
        exact ⟨0, by omega, fun j hj => absurd hj (by omega), h⟩
      · rintro ⟨i, _, hall, hok⟩
        cases i with
        | zero =>
          cases h.symm.trans hok
          rfl
        | succ i => exact absurd (hall 0 (by omega)) (not_fails_of_ok h)
    | error failure =>
      obtain ⟨e, s'⟩ := failure
      dsimp only
      rw [ih]
      constructor
      · rintro ⟨i, hi, hall, hok⟩
        refine ⟨i + 1, by omega, (allFail_succ_of_error h).mpr hall, ?_⟩
        rwa [stateAt_succ_of_error h, show k + (i + 1) = k + 1 + i by omega]
      · rintro ⟨i, hi, hall, hok⟩
        cases i with
        | zero => exact absurd ⟨e, s', h⟩ (not_fails_of_ok hok)
        | succ i =>
          rw [stateAt_succ_of_error h, show k + (i + 1) = k + 1 + i by omega] at hok
          exact ⟨i, by omega, (allFail_succ_of_error h).mp hall, hok⟩

theorem loop_eq_error_iff {last' : Option ε} : loop attempt (n + 1) k last s = .error last' ↔
    AllFail attempt k s (n + 1) ∧
      ∃ e s', attempt (k + n) (stateAt attempt k s n) = .error (e, s') ∧ last' = some e := by
  induction n generalizing k last s with
  | zero =>
    rw [loop]
    cases h : attempt k s with
    | ok b =>
      refine iff_of_false (by simp) ?_
      rintro ⟨hall, _⟩
      exact not_fails_of_ok h (hall 0 (by omega))
    | error failure =>
      obtain ⟨e, s'⟩ := failure
      have hall : AllFail attempt k s 1 :=
        (allFail_succ_of_error h).mpr fun j hj => absurd hj (by omega)
      simp [loop, hall, stateAt, h, eq_comm]
  | succ n ih =>
    rw [loop]
    cases h : attempt k s with
    | ok b =>
      refine iff_of_false (by simp) ?_
      rintro ⟨hall, _⟩
      exact not_fails_of_ok h (hall 0 (by omega))
    | error failure =>
      obtain ⟨e, s'⟩ := failure
      dsimp only
      rw [ih, allFail_succ_of_error h, stateAt_succ_of_error h,
        show k + (n + 1) = k + 1 + n by omega]

theorem length_made_le : (made attempt n k s).length ≤ n := by
  induction n generalizing k s with
  | zero => simp [made]
  | succ n ih =>
    rw [made, List.length_cons]
    split
    · simp
    · exact Nat.succ_le_succ ih

theorem getElem?_made : (made attempt n k s)[i]? = some s' ↔
    i < n ∧ AllFail attempt k s i ∧ s' = stateAt attempt k s i := by
  induction n generalizing k s i with
  | zero => simp [made]
  | succ n ih =>
    cases i with
    | zero =>
      rw [made, List.getElem?_cons_zero, Option.some.injEq]
      constructor
      · rintro rfl
        exact ⟨by omega, fun j hj => absurd hj (by omega), rfl⟩
      · rintro ⟨_, _, rfl⟩
        rfl
    | succ i =>
      rw [made, List.getElem?_cons_succ]
      cases h : attempt k s with
      | ok b =>
        refine iff_of_false (by simp) ?_
        rintro ⟨_, hall, _⟩
        exact not_fails_of_ok h (hall 0 (by omega))
      | error failure =>
        obtain ⟨e, s₁⟩ := failure
        dsimp only
        rw [ih, allFail_succ_of_error h, stateAt_succ_of_error h, Nat.add_lt_add_iff_right]

/-- What a failed attempt preserves holds of every state that an attempt starts from. -/
theorem made_invariant {P : σ → Prop} (hstep : ∀ k s e s', attempt k s = .error (e, s') → P s → P s')
    (hs : P s) : ∀ s' ∈ made attempt n k s, P s' := by
  induction n generalizing k s with
  | zero => simp [made]
  | succ n ih =>
    rw [made, List.forall_mem_cons]
    refine ⟨hs, ?_⟩
    cases h : attempt k s with
    | ok b => simp
    | error failure => exact ih (hstep k s failure.1 failure.2 h hs)

/-- A transitive relation across every failed attempt holds between any two states that attempts
start from. -/
theorem made_pairwise {R : σ → σ → Prop} (htrans : ∀ {s₁ s₂ s₃}, R s₁ s₂ → R s₂ s₃ → R s₁ s₃)
    (hstep : ∀ k s e s', attempt k s = .error (e, s') → R s s') :
    (made attempt n k s).Pairwise R := by
  induction n generalizing k s with
  | zero => exact .nil
  | succ n ih =>
    rw [made]
    cases h : attempt k s with
    | ok b => exact List.pairwise_singleton R s
    | error failure =>
      obtain ⟨e, s'⟩ := failure
      have hnext := hstep k s e s' h
      have hpair : (made attempt n (k + 1) s').Pairwise R := ih
      refine .cons ?_ hpair
      dsimp only
      cases n with
      | zero => simp [made]
      | succ n =>
        rw [made] at hpair ⊢
        rw [List.forall_mem_cons]
        refine ⟨hnext, fun s'' hs'' => ?_⟩
        exact htrans hnext ((List.pairwise_cons.mp hpair).1 s'' hs'')

end Attempts
