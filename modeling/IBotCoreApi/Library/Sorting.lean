import Mathlib.Data.List.Sort

namespace Sorting

variable {α κ : Type*} [LinearOrder κ]

/-- `sorted(xs, key=key, reverse=True)`. -/
def sortedDown (key : α → κ) (xs : List α) : List α := xs.insertionSort fun a b => key b ≤ key a

variable {key : α → κ} {xs : List α} {a b : α} {n : ℕ}

theorem sortedDown_perm (key : α → κ) (xs : List α) : (sortedDown key xs).Perm xs :=
  List.perm_insertionSort _ xs

theorem mem_sortedDown : a ∈ sortedDown key xs ↔ a ∈ xs := (sortedDown_perm key xs).mem_iff

theorem length_sortedDown : (sortedDown key xs).length = xs.length :=
  (sortedDown_perm key xs).length_eq

instance total_byKey (key : α → κ) : Std.Total fun a b : α => key b ≤ key a :=
  ⟨fun _ _ => le_total _ _⟩

instance trans_byKey (key : α → κ) : IsTrans α fun a b => key b ≤ key a :=
  ⟨fun _ _ _ hab hbc => hbc.trans hab⟩

theorem sortedDown_pairwise (key : α → κ) (xs : List α) :
    (sortedDown key xs).Pairwise fun a b => key b ≤ key a :=
  List.pairwise_insertionSort _ xs

/-- Entries keep their order unless the later one has the greater key. -/
theorem pair_sublist_sortedDown (h : List.Sublist [a, b] xs) (hkey : key b ≤ key a) :
    List.Sublist [a, b] (sortedDown key xs) :=
  List.pair_sublist_insertionSort hkey h

theorem le_of_mem_take_of_mem_drop (ha : a ∈ (sortedDown key xs).take n)
    (hb : b ∈ (sortedDown key xs).drop n) : key b ≤ key a := by
  have hsorted := sortedDown_pairwise key xs
  rw [← List.take_append_drop n (sortedDown key xs)] at hsorted
  exact (List.pairwise_append.mp hsorted).2.2 a ha b hb

/-- In a list that falls strictly, the first `n` entries are those with fewer than `n` above. -/
theorem mem_take_of_strictly_falling (h : xs.Pairwise fun a b => key b < key a) (ha : a ∈ xs) :
    a ∈ xs.take n ↔ (xs.countP fun b => key a < key b) < n := by
  induction xs generalizing n with
  | nil => cases ha
  | cons x xs ih =>
    rw [List.pairwise_cons] at h
    cases n with
    | zero => simp
    | succ n =>
      rw [List.take_succ_cons, List.mem_cons, List.countP_cons]
      rcases List.mem_cons.mp ha with rfl | hmem
      · have hnone : (xs.countP fun b => key a < key b) = 0 := by
          rw [List.countP_eq_zero]
          intro b hb
          simpa using (h.1 b hb).le
        simp [hnone]
      · have hlt := h.1 a hmem
        have hne : a ≠ x := by
          rintro rfl
          exact lt_irrefl _ hlt
        simp [hne, hlt, ih h.2 hmem]

/-- The entries kept by `sorted(…)[:n]` are those that fewer than `n` entries outrank. -/
theorem mem_take_sortedDown (hkey : Set.InjOn key {a | a ∈ xs}) (hnodup : xs.Nodup)
    (ha : a ∈ xs) : a ∈ (sortedDown key xs).take n ↔ (xs.countP fun b => key a < key b) < n := by
  have hdistinct : (sortedDown key xs).Nodup := (sortedDown_perm key xs).nodup_iff.mpr hnodup
  have hfalling : (sortedDown key xs).Pairwise fun a b => key b < key a := by
    apply ((sortedDown_pairwise key xs).and hdistinct).imp_of_mem
    rintro a b ha hb ⟨hle, hne⟩
    refine hle.lt_of_ne fun heq => hne ?_
    exact (hkey (mem_sortedDown.mp hb) (mem_sortedDown.mp ha) heq).symm
  rw [mem_take_of_strictly_falling hfalling (mem_sortedDown.mpr ha),
    (sortedDown_perm key xs).countP_eq]

/-- In a list of distinct entries, what goes before a kept entry is kept. -/
theorem mem_take_of_sublist (hnodup : xs.Nodup) (hsub : List.Sublist [a, b] xs)
    (hb : b ∈ xs.take n) : a ∈ xs.take n := by
  rw [← List.take_append_drop n xs] at hsub hnodup
  by_contra ha
  obtain ⟨front, back, hsplit, hfront, hback⟩ := List.sublist_append_iff.mp hsub
  cases front with
  | nil =>
    -- both entries are behind the cut, and `b` is in front of it too
    rw [List.nil_append] at hsplit
    have hdrop : b ∈ xs.drop n := hback.subset (hsplit ▸ by simp)
    exact List.disjoint_of_nodup_append hnodup hb hdrop
  | cons first front =>
    rw [List.cons_append, List.cons.injEq] at hsplit
    exact ha (hfront.subset (by simp [hsplit.1]))

end Sorting
