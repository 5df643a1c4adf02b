import Mathlib.Data.List.Nodup

namespace KeyedAppends

variable {α κ : Type*} [DecidableEq κ] (key : α → κ)

def push (xs : List α) (x : α) : List α := if key x ∈ xs.map key then xs else xs ++ [x]

/-- The entries of a list whose keys have occurred neither before it nor in it. -/
def news (seen : List κ) : List α → List α
  | [] => []
  | x :: xs => if key x ∈ seen then news seen xs else x :: news (seen ++ [key x]) xs

variable {key}

theorem push_of_mem {xs : List α} {x : α} (h : key x ∈ xs.map key) : push key xs x = xs := if_pos h

theorem push_of_not_mem {xs : List α} {x : α} (h : key x ∉ xs.map key) :
    push key xs x = xs ++ [x] :=
  if_neg h

theorem key_mem_push {xs : List α} {x : α} {k : κ} :
    k ∈ (push key xs x).map key ↔ k ∈ xs.map key ∨ k = key x := by
  unfold push
  split
  · rename_i hx
    constructor
    · exact Or.inl
    · rintro (h | rfl)
      · exact h
      · exact hx
  · simp

theorem nodup_push {xs : List α} (h : (xs.map key).Nodup) (x : α) :
    ((push key xs x).map key).Nodup := by
  unfold push
  split
  · exact h
  · rename_i hx
    rw [List.map_append, List.map_singleton]
    exact List.nodup_append.mpr ⟨h, List.nodup_singleton _, by grind⟩

theorem foldl_push (xs ys : List α) :
    ys.foldl (push key) xs = xs ++ news key (xs.map key) ys := by
  induction ys generalizing xs with
  | nil => simp [news]
  | cons y ys ih =>
    rw [List.foldl_cons, ih, news]
    by_cases hy : key y ∈ xs.map key
    · rw [push_of_mem hy, if_pos hy]
    · rw [push_of_not_mem hy, if_neg hy, List.map_append, List.map_singleton, List.append_assoc]
      rfl

theorem mem_of_mem_news {seen : List κ} {xs : List α} {x : α} (h : x ∈ news key seen xs) :
    x ∈ xs := by
  induction xs generalizing seen with
  | nil => cases h
  | cons y ys ih =>
    rw [news] at h
    split at h
    · exact List.mem_cons_of_mem y (ih h)
    · rcases List.mem_cons.mp h with rfl | h
      · exact List.mem_cons_self
      · exact List.mem_cons_of_mem y (ih h)

theorem key_mem_foldl {xs ys : List α} {k : κ} :
    k ∈ (ys.foldl (push key) xs).map key ↔ k ∈ xs.map key ∨ k ∈ ys.map key := by
  induction ys generalizing xs with
  | nil => simp
  | cons y ys ih => rw [List.foldl_cons, ih, key_mem_push, List.map_cons, List.mem_cons, or_assoc]

theorem nodup_foldl {xs : List α} (h : (xs.map key).Nodup) (ys : List α) :
    ((ys.foldl (push key) xs).map key).Nodup := by
  induction ys generalizing xs with
  | nil => exact h
  | cons y ys ih => exact ih (nodup_push h y)

theorem foldl_of_known {xs ys : List α} (h : ∀ y ∈ ys, key y ∈ xs.map key) :
    ys.foldl (push key) xs = xs := by
  induction ys with
  | nil => rfl
  | cons y ys ih =>
    rw [List.foldl_cons, push_of_mem (h y List.mem_cons_self)]
    exact ih fun y' hy' => h y' (List.mem_cons_of_mem y hy')

theorem foldl_twice (xs ys : List α) :
    ys.foldl (push key) (ys.foldl (push key) xs) = ys.foldl (push key) xs :=
  foldl_of_known fun _ hy => key_mem_foldl.mpr (.inr (List.mem_map_of_mem hy))

end KeyedAppends
