import Mathlib.Data.Int.Notation
import Mathlib.Data.Nat.Bitwise
import Mathlib.Tactic.Linarith

namespace Python

/-- An aware UTC `datetime`: microseconds since 1970-01-01. -/
abbrev Time := ℤ

namespace Time

def second : Time := 1000000
def minute : Time := 60 * second
def hour : Time := 60 * minute

/-- Year, month and day of a day count, in the proleptic Gregorian calendar. -/
def civil (days : ℤ) : ℤ × ℤ × ℤ :=
  let z := days + 719468
  let era := z / 146097
  let doe := z % 146097
  let yoe := (doe - doe / 1460 + doe / 36524 - doe / 146096) / 365
  let doy := doe - (365 * yoe + yoe / 4 - yoe / 100)
  let mp := (5 * doy + 2) / 153
  let month := if mp < 10 then mp + 3 else mp - 9
  (yoe + era * 400 + (if month ≤ 2 then 1 else 0), month, doy - (153 * mp + 2) / 5 + 1)

/-- `n` in decimal, padded with zeros on the left. -/
def padded (width : ℕ) (n : ℤ) : String :=
  let digits := toString n.toNat
  String.ofList (List.replicate (width - digits.length) '0') ++ digits

/-- `datetime.isoformat()` of an aware UTC instant. -/
def isoformat (t : Time) : String :=
  let (year, month, day) := civil (t / (24 * hour))
  let micros := t % (24 * hour)
  let fraction := micros % second
  padded 4 year ++ "-" ++ padded 2 month ++ "-" ++ padded 2 day ++ "T" ++
    padded 2 (micros / hour) ++ ":" ++ padded 2 (micros / minute % 60) ++ ":" ++
    padded 2 (micros / second % 60) ++
    (if fraction = 0 then "" else "." ++ padded 6 fraction) ++ "+00:00"

example : isoformat 951827696000007 = "2000-02-29T12:34:56.000007+00:00" := by decide

end Time

abbrev Uuid := BitVec 128

namespace Uuid

def digits (u : Uuid) : List Char :=
  (List.range 32).map fun i => Nat.digitChar (u.toNat / 16 ^ (31 - i) % 16)

def hex (u : Uuid) : String := String.ofList u.digits

/-- `str(uuid)`: the digits in groups of 8, 4, 4, 4 and 12. -/
def str (u : Uuid) : String :=
  String.ofList (u.digits.take 8 ++ '-' :: (u.digits.drop 8).take 4 ++
    '-' :: (u.digits.drop 12).take 4 ++ '-' :: (u.digits.drop 16).take 4 ++ '-' :: u.digits.drop 20)

theorem str_ne_empty (u : Uuid) : u.str ≠ "" := by
  intro h
  have hl := congrArg String.toList h
  simp [str] at hl

theorem digitChar_injective {m n : ℕ} (hm : m < 16) (hn : n < 16)
    (h : Nat.digitChar m = Nat.digitChar n) : m = n := by
  have hall : ∀ m < 16, ∀ n < 16, Nat.digitChar m = Nat.digitChar n → m = n := by decide
  exact hall m hm n hn h

theorem digits_injective : Function.Injective digits := by
  intro u v h
  apply BitVec.eq_of_getLsbD_eq
  intro i hi
  have hdigit : u.toNat / 16 ^ (i / 4) % 16 = v.toNat / 16 ^ (i / 4) % 16 := by
    have hget := congrArg (fun l => l[31 - i / 4]?) h
    have hlt : 31 - i / 4 < 32 := by omega
    simp only [digits, List.getElem?_map, List.getElem?_range hlt, Option.map_some,
      Option.some.injEq] at hget
    rw [show 31 - (31 - i / 4) = i / 4 by omega] at hget
    exact digitChar_injective (Nat.mod_lt _ (by norm_num)) (Nat.mod_lt _ (by norm_num)) hget
  have hbit (w : Uuid) : w.getLsbD i = (w.toNat / 16 ^ (i / 4) % 16).testBit (i % 4) := by
    rw [show 16 ^ (i / 4) = 2 ^ (4 * (i / 4)) by rw [pow_mul]; norm_num,
      show (16 : ℕ) = 2 ^ 4 from rfl, Nat.testBit_mod_two_pow, Nat.testBit_div_two_pow]
    rw [BitVec.getLsbD]
    simp only [Nat.mod_lt i (show 0 < 4 by norm_num), decide_true, Bool.true_and]
    congr 1
    omega
  rw [hbit, hbit, hdigit]

theorem groups_eq (ds : List Char) :
    ds.take 8 ++ ((ds.drop 8).take 4 ++ ((ds.drop 12).take 4 ++ ((ds.drop 16).take 4 ++
      ds.drop 20))) = ds := by
  have hnext (n : ℕ) : (ds.drop n).take 4 ++ ds.drop (n + 4) = ds.drop n := by
    rw [← List.drop_drop, List.take_append_drop]
  rw [hnext 16, hnext 12, hnext 8, List.take_append_drop]

theorem str_injective : Function.Injective str := by
  intro u v h
  apply digits_injective
  have hu : u.digits.length = 32 := by simp [digits]
  have hv : v.digits.length = 32 := by simp [digits]
  have hjoin := congrArg String.toList h
  simp only [str, String.toList_ofList, List.append_assoc, List.cons_append] at hjoin
  -- the groups have the same lengths on both sides
  obtain ⟨h₁, hjoin⟩ := List.append_inj hjoin (by simp [hu, hv])
  obtain ⟨h₂, hjoin⟩ := List.append_inj (List.cons.inj hjoin).2 (by simp [hu, hv])
  obtain ⟨h₃, hjoin⟩ := List.append_inj (List.cons.inj hjoin).2 (by simp [hu, hv])
  obtain ⟨h₄, hjoin⟩ := List.append_inj (List.cons.inj hjoin).2 (by simp [hu, hv])
  rw [← groups_eq u.digits, ← groups_eq v.digits, h₁, h₂, h₃, h₄, (List.cons.inj hjoin).2]

example : str 0x123e4567e89b12d3a456426614174000 = "123e4567-e89b-12d3-a456-426614174000" := by
  decide

end Uuid

end Python
