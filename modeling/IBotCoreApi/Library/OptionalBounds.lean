import Mathlib.Order.Bounds.Basic

namespace OptionalBounds

variable {α : Type*}

structure Picks (IsExtreme : Set α → α → Prop) (pick : α → α → α) : Prop where
  singleton : ∀ x, IsExtreme {x} x
  union : ∀ {s t x y}, IsExtreme s x → IsExtreme t y → IsExtreme (s ∪ t) (pick x y)
  unique : ∀ {s x y}, IsExtreme s x → IsExtreme s y → x = y
  not_empty : ∀ x, ¬ IsExtreme ∅ x

theorem picks_min [LinearOrder α] : Picks (IsLeast : Set α → α → Prop) min where
  singleton _ := isLeast_singleton
  union hx hy := hx.union hy
  unique := IsLeast.unique
  not_empty _ h := h.1

theorem picks_max [LinearOrder α] : Picks (IsGreatest : Set α → α → Prop) max where
  singleton _ := isGreatest_singleton
  union hx hy := hx.union hy
  unique := IsGreatest.unique
  not_empty _ h := h.1

/-- The extreme of some values, absent when there is no value. -/
def ExtremeOf (IsExtreme : Set α → α → Prop) (values : Set α) : Option α → Prop
  | none => values = ∅
  | some x => IsExtreme values x

def combine (pick : α → α → α) : Option α → Option α → Option α
  | none, y => y
  | some x, none => some x
  | some x, some y => some (pick x y)

section Extremes

variable {IsExtreme : Set α → α → Prop} {pick : α → α → α} {s t : Set α} {x y : Option α}

theorem ExtremeOf.union (h : Picks IsExtreme pick) (hx : ExtremeOf IsExtreme s x)
    (hy : ExtremeOf IsExtreme t y) : ExtremeOf IsExtreme (s ∪ t) (combine pick x y) := by
  cases x with
  | none =>
    rw [show s = ∅ from hx, Set.empty_union]
    exact hy
  | some low =>
    cases y with
    | none =>
      rw [show t = ∅ from hy, Set.union_empty]
      exact hx
    | some low' => exact h.union hx hy

theorem extremeOf_reported (h : Picks IsExtreme pick) (x : Option α) :
    ExtremeOf IsExtreme {q | x = some q} x := by
  cases x with
  | none => simp [ExtremeOf]
  | some low =>
    have hsingle : {q | some low = some q} = {low} := by
      ext q
      simp [eq_comm]
    rw [hsingle]
    exact h.singleton low

theorem ExtremeOf.unique (h : Picks IsExtreme pick) (hx : ExtremeOf IsExtreme s x)
    (hy : ExtremeOf IsExtreme s y) : x = y := by
  cases x with
  | none =>
    cases y with
    | none => rfl
    | some high =>
      rw [show s = ∅ from hx] at hy
      exact absurd hy (h.not_empty high)
  | some low =>
    cases y with
    | none =>
      rw [show s = ∅ from hy] at hx
      exact absurd hx (h.not_empty low)
    | some high => exact congrArg some (h.unique hx hy)

end Extremes

section Ordered

variable [LinearOrder α]

def Ordered (lower upper : Option α) : Prop :=
  ∀ low high, lower = some low → upper = some high → low ≤ high

/-- Each pair has one bound only, and the two bounds are the wrong way round. -/
def Crosses (lower upper lower' upper' : Option α) : Prop :=
  ∃ low high, high < low ∧
    ((lower = some low ∧ upper = none ∧ lower' = none ∧ upper' = some high) ∨
      (lower = none ∧ upper = some high ∧ lower' = some low ∧ upper' = none))

variable {lower upper lower' upper' : Option α}

/-- Two ordered pairs combine to an ordered pair unless they cross. -/
theorem ordered_combine_iff (h : Ordered lower upper) (h' : Ordered lower' upper') :
    Ordered (combine min lower lower') (combine max upper upper') ↔
      ¬ Crosses lower upper lower' upper' := by
  cases lower <;> cases upper <;> cases lower' <;> cases upper' <;>
    simp_all [Ordered, Crosses, combine]

end Ordered

end OptionalBounds
