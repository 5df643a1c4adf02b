import Mathlib.Data.List.TakeWhile

namespace Consolidation

variable {α : Type*} {p : α → Bool}

/-- The list `after` is `before` with its entries of the kind `p` consolidated into `record`. -/
structure Consolidates (p : α → Bool) (before after : List α) (record : α) : Prop where
  shape : after = before.takeWhile (!p ·) ++
    record :: (before.dropWhile (!p ·)).filter (!p ·)
  marked : p record

variable {before after after' : List α} {record record' : α}

theorem not_of_mem_takeWhile {xs : List α} {a : α} (ha : a ∈ xs.takeWhile (!p ·)) :
    (!p a) = true :=
  List.mem_takeWhile_imp (p := (!p ·)) ha

namespace Consolidates

theorem only (h : Consolidates p before after record) : after.filter p = [record] := by
  have hprefix : (before.takeWhile (!p ·)).filter p = [] := by
    apply List.filter_eq_nil_iff.mpr
    intro a ha
    simpa using not_of_mem_takeWhile ha
  have hrest : ((before.dropWhile (!p ·)).filter (!p ·)).filter p = [] := by
    apply List.filter_eq_nil_iff.mpr
    intro a ha
    simpa using (List.mem_filter.mp ha).2
  rw [h.shape, List.filter_append, List.filter_cons_of_pos h.marked, hprefix, hrest,
    List.nil_append]

theorem others (h : Consolidates p before after record) :
    after.filter (!p ·) = before.filter (!p ·) := by
  have hprefix : (before.takeWhile (!p ·)).filter (!p ·) = before.takeWhile (!p ·) := by
    apply List.filter_eq_self.mpr
    intro a ha
    exact not_of_mem_takeWhile ha
  have hsplit : before.filter (!p ·) =
      before.takeWhile (!p ·) ++ (before.dropWhile (!p ·)).filter (!p ·) := by
    have hfilter := congrArg (List.filter (!p ·))
      (List.takeWhile_append_dropWhile (p := (!p ·)) (l := before))
    rw [← hfilter, List.filter_append, hprefix]
  rw [h.shape, List.filter_append, List.filter_cons_of_neg (by simp [h.marked]), hprefix, hsplit]
  simp

/-- Consolidating again replaces the record. -/
theorem trans (h : Consolidates p before after record)
    (h' : Consolidates p after after' record') : Consolidates p before after' record' := by
  have hplain : ∀ a ∈ before.takeWhile (!p ·), (!p a) = true := fun a ha =>
    not_of_mem_takeWhile ha
  refine ⟨?_, h'.marked⟩
  rw [h'.shape, h.shape, List.takeWhile_append_of_pos hplain, List.dropWhile_append_of_pos hplain]
  simp [h.marked]

end Consolidates

end Consolidation
