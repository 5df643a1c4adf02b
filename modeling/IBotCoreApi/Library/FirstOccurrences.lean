import Mathlib.Data.List.Induction
import Mathlib.Data.List.Nodup

namespace FirstOccurrences

variable {α : Type*} [DecidableEq α]

/-- `if v not in xs: xs.append(v)`. -/
def pushNew (xs : List α) (v : α) : List α := if v ∈ xs then xs else xs ++ [v]

/-- The distinct values of a list, in the order of their first occurrence. -/
def distinct (vs : List α) : List α := vs.foldl pushNew []

@[simp] theorem mem_pushNew {xs : List α} {v w : α} : w ∈ pushNew xs v ↔ w ∈ xs ∨ w = v := by
  unfold pushNew
  split
  · constructor
    · exact Or.inl
    · rintro (h | rfl) <;> assumption
  · simp

theorem pushNew_of_mem {xs : List α} {v : α} (h : v ∈ xs) : pushNew xs v = xs := if_pos h

theorem pushNew_of_not_mem {xs : List α} {v : α} (h : v ∉ xs) : pushNew xs v = xs ++ [v] :=
  if_neg h

theorem nodup_pushNew {xs : List α} (h : xs.Nodup) (v : α) : (pushNew xs v).Nodup := by
  unfold pushNew
  split
  · exact h
  · rename_i hv
    exact List.nodup_append.mpr ⟨h, List.nodup_singleton v, by grind⟩

theorem mem_foldl_pushNew {vs : List α} {xs : List α} {w : α} :
    w ∈ vs.foldl pushNew xs ↔ w ∈ xs ∨ w ∈ vs := by
  induction vs generalizing xs with
  | nil => simp
  | cons v vs ih => simp only [List.foldl_cons, ih, mem_pushNew, List.mem_cons, or_assoc]

theorem nodup_foldl_pushNew {vs : List α} {xs : List α} (h : xs.Nodup) :
    (vs.foldl pushNew xs).Nodup := by
  induction vs generalizing xs with
  | nil => exact h
  | cons v vs ih => exact ih (nodup_pushNew h v)

theorem foldl_pushNew_of_nodup {xs vs : List α} (h : (xs ++ vs).Nodup) :
    vs.foldl pushNew xs = xs ++ vs := by
  induction vs generalizing xs with
  | nil => simp
  | cons v vs ih =>
    have hv : v ∉ xs := by
      intro hx
      exact (List.nodup_append.mp h).2.2 v hx v List.mem_cons_self rfl
    rw [List.foldl_cons, pushNew_of_not_mem hv, ih (by simpa using h)]
    simp

@[simp] theorem distinct_nil : distinct ([] : List α) = [] := rfl

theorem distinct_snoc (vs : List α) (v : α) : distinct (vs ++ [v]) = pushNew (distinct vs) v := by
  simp [distinct]

@[simp] theorem mem_distinct {vs : List α} {w : α} : w ∈ distinct vs ↔ w ∈ vs := by
  simp [distinct, mem_foldl_pushNew]

theorem nodup_distinct (vs : List α) : (distinct vs).Nodup := nodup_foldl_pushNew List.nodup_nil

theorem pushNew_map {β : Type*} [DecidableEq β] {f : α → β} (hf : Function.Injective f)
    (xs : List α) (v : α) : pushNew (xs.map f) (f v) = (pushNew xs v).map f := by
  unfold pushNew
  by_cases h : v ∈ xs
  · simp [h, List.mem_map_of_mem h]
  · simp [h, hf.eq_iff]

theorem distinct_map {β : Type*} [DecidableEq β] {f : α → β} (hf : Function.Injective f)
    (vs : List α) : distinct (vs.map f) = (distinct vs).map f := by
  induction vs using List.reverseRecOn with
  | nil => rfl
  | append_singleton vs v ih =>
    rw [List.map_append, List.map_singleton, distinct_snoc, distinct_snoc, ih, pushNew_map hf]

theorem distinct_perm {vs ws : List α} (hperm : vs.Perm ws) : (distinct vs).Perm (distinct ws) :=
  (List.perm_ext_iff_of_nodup (nodup_distinct vs) (nodup_distinct ws)).mpr fun v => by
    rw [mem_distinct, mem_distinct, hperm.mem_iff]

end FirstOccurrences
