import IBotCoreApi.Library.PyJson
import Mathlib.Algebra.Order.Ring.Rat

namespace Python

inductive PyFloat where
  | finite (q : ℚ)
  | inf (negative : Bool)
  | nan
deriving DecidableEq

namespace PyFloat

/-- `x <= bound`. -/
def le (x : PyFloat) (bound : ℚ) : Bool :=
  match x with
  | finite q => q ≤ bound
  | inf negative => negative
  | nan => false

/-- `x >= bound`. -/
def ge (x : PyFloat) (bound : ℚ) : Bool :=
  match x with
  | finite q => bound ≤ q
  | inf negative => !negative
  | nan => false

def Between (lo hi : ℚ) (x : PyFloat) : Prop := ∃ q, x = finite q ∧ lo ≤ q ∧ q ≤ hi

theorem within_iff {lo hi : ℚ} {x : PyFloat} :
    (x.ge lo = true ∧ x.le hi = true) ↔ x.Between lo hi := by
  cases x with
  | finite q => simp [ge, le, Between]
  | inf negative => cases negative <;> simp [ge, le, Between]
  | nan => simp [ge, le, Between]

end PyFloat

/-- `datetime`: the time of its own clock, and what that clock is ahead of UTC if it says so. -/
structure DateTime where
  wall : ℤ
  utcoffset : Option ℤ
deriving DecidableEq

namespace DateTime

/-- `t <= u`. -/
def le (t u : DateTime) : Except PyError Bool :=
  match t.utcoffset, u.utcoffset with
  | none, none => .ok (t.wall ≤ u.wall)
  | some offset, some offset' => .ok (t.wall - offset ≤ u.wall - offset')
  | none, some _ | some _, none => .error .typeError

/-- The instant in UTC, where a datetime without an offset is read on a clock with the given one. -/
def instant (zone : ℤ) (t : DateTime) : ℤ := t.wall - t.utcoffset.getD zone

def SameKind (t u : DateTime) : Prop := t.utcoffset.isSome = u.utcoffset.isSome

instance (t u : DateTime) : Decidable (t.SameKind u) :=
  inferInstanceAs (Decidable (_ = _))

variable {t u : DateTime} {b : Bool} {error : PyError}

/-- Two datetimes of a kind are compared as instants, on whatever clock they are read. -/
theorem le_of_sameKind (h : t.SameKind u) (zone : ℤ) :
    t.le u = .ok (t.instant zone ≤ u.instant zone) := by
  obtain ⟨wall, _ | offset⟩ := t <;> obtain ⟨wall', _ | offset'⟩ := u
  · simp [le, instant]
  · cases h
  · cases h
  · rfl

theorem le_of_not_sameKind (h : ¬ t.SameKind u) : t.le u = .error .typeError := by
  obtain ⟨wall, _ | offset⟩ := t <;> obtain ⟨wall', _ | offset'⟩ := u
  · exact absurd rfl h
  · rfl
  · rfl
  · exact absurd rfl h

theorem instant_lt_iff (h : t.SameKind u) (zone zone' : ℤ) :
    t.instant zone < u.instant zone ↔ t.instant zone' < u.instant zone' := by
  obtain ⟨wall, _ | offset⟩ := t <;> obtain ⟨wall', _ | offset'⟩ := u
  · simp [instant]
  · cases h
  · cases h
  · rfl

end DateTime

end Python
