import Mathlib.Data.Nat.Notation

namespace Base64

def digit (n : ℕ) : Char :=
  if n < 26 then Char.ofNat (65 + n)
  else if n < 52 then Char.ofNat (71 + n)
  else if n < 62 then Char.ofNat (n - 4)
  else if n = 62 then '+'
  else '/'

/-- The value of a digit, `none` for another character. -/
def value? (c : Char) : Option ℕ :=
  if 'A' ≤ c ∧ c ≤ 'Z' then some (c.toNat - 65)
  else if 'a' ≤ c ∧ c ≤ 'z' then some (c.toNat - 71)
  else if '0' ≤ c ∧ c ≤ '9' then some (c.toNat + 4)
  else if c = '+' then some 62
  else if c = '/' then some 63
  else none

/-- Three bytes are four digits; a shorter group at the end is padded. -/
def encode : List UInt8 → List Char
  | [] => []
  | [a] => [digit (a.toNat / 4), digit (a.toNat % 4 * 16), '=', '=']
  | [a, b] =>
    [digit (a.toNat / 4), digit (a.toNat % 4 * 16 + b.toNat / 16), digit (b.toNat % 16 * 4), '=']
  | a :: b :: c :: rest =>
    digit (a.toNat / 4) :: digit (a.toNat % 4 * 16 + b.toNat / 16) ::
      digit (b.toNat % 16 * 4 + c.toNat / 64) :: digit (c.toNat % 64) :: encode rest

inductive DecodeError where
  /-- A single digit is left over. -/
  | oneMoreThanAMultiple
  | incorrectPadding
deriving DecidableEq

/-- The bytes of the digits from a position within a group on: `left` holds the bits of the digit
before that no byte has taken, `pads` counts the padding since. -/
def decodeFrom : List Char → (position left pads : ℕ) → Except DecodeError (List UInt8)
  | [], position, _, _ =>
    if position = 0 then .ok []
    else if position = 1 then .error .oneMoreThanAMultiple
    else .error .incorrectPadding
  | c :: cs, position, left, pads =>
    if c = '=' then
      if position < 2 then decodeFrom cs position left pads
      else if 4 ≤ position + (pads + 1) then .ok []
      else decodeFrom cs position left (pads + 1)
    else
      match value? c with
      | none => decodeFrom cs position left pads
      | some value =>
        match position with
        | 0 => decodeFrom cs 1 value 0
        | 1 => (decodeFrom cs 2 (value % 16) 0).map (UInt8.ofNat (left * 4 + value / 16) :: ·)
        | 2 => (decodeFrom cs 3 (value % 4) 0).map (UInt8.ofNat (left * 16 + value / 4) :: ·)
        | _ => (decodeFrom cs 0 0 0).map (UInt8.ofNat (left * 64 + value) :: ·)

def decode (cs : List Char) : Except DecodeError (List UInt8) := decodeFrom cs 0 0 0

theorem value?_digit {n : ℕ} (h : n < 64) : value? (digit n) = some n := by
  have hall : ∀ n < 64, value? (digit n) = some n := by decide
  exact hall n h

theorem digit_ne_pad {n : ℕ} (h : n < 64) : digit n ≠ '=' := by
  have hall : ∀ n < 64, digit n ≠ '=' := by decide
  exact hall n h

section Digits

variable {cs : List Char} {n left pads : ℕ}

theorem decodeFrom_first (h : n < 64) :
    decodeFrom (digit n :: cs) 0 left pads = decodeFrom cs 1 n 0 := by
  simp only [decodeFrom, if_neg (digit_ne_pad h), value?_digit h]

theorem decodeFrom_second (h : n < 64) :
    decodeFrom (digit n :: cs) 1 left pads =
      (decodeFrom cs 2 (n % 16) 0).map (UInt8.ofNat (left * 4 + n / 16) :: ·) := by
  simp only [decodeFrom, if_neg (digit_ne_pad h), value?_digit h]

theorem decodeFrom_third (h : n < 64) :
    decodeFrom (digit n :: cs) 2 left pads =
      (decodeFrom cs 3 (n % 4) 0).map (UInt8.ofNat (left * 16 + n / 4) :: ·) := by
  simp only [decodeFrom, if_neg (digit_ne_pad h), value?_digit h]

theorem decodeFrom_fourth (h : n < 64) :
    decodeFrom (digit n :: cs) 3 left pads =
      (decodeFrom cs 0 0 0).map (UInt8.ofNat (left * 64 + n) :: ·) := by
  simp only [decodeFrom, if_neg (digit_ne_pad h), value?_digit h]

end Digits

/-- Every text that the encoder writes is read back. -/
theorem decode_encode (bytes : List UInt8) : decode (encode bytes) = .ok bytes := by
  unfold decode
  induction bytes using encode.induct with
  | case1 => rfl
  | case2 a =>
    have ha := a.toNat_lt
    rw [encode, decodeFrom_first (by omega), decodeFrom_second (by omega)]
    have hbyte : a.toNat / 4 * 4 + a.toNat % 4 * 16 / 16 = a.toNat := by omega
    rw [hbyte, UInt8.ofNat_toNat]
    rfl
  | case3 a b =>
    have ha := a.toNat_lt
    have hb := b.toNat_lt
    rw [encode, decodeFrom_first (by omega), decodeFrom_second (by omega),
      decodeFrom_third (by omega)]
    have hfirst : a.toNat / 4 * 4 + (a.toNat % 4 * 16 + b.toNat / 16) / 16 = a.toNat := by omega
    have hsecond : (a.toNat % 4 * 16 + b.toNat / 16) % 16 * 16 + b.toNat % 16 * 4 / 4 =
        b.toNat := by omega
    rw [hfirst, hsecond, UInt8.ofNat_toNat, UInt8.ofNat_toNat]
    rfl
  | case4 a b c rest ih =>
    have ha := a.toNat_lt
    have hb := b.toNat_lt
    have hc := c.toNat_lt
    rw [encode, decodeFrom_first (by omega), decodeFrom_second (by omega),
      decodeFrom_third (by omega), decodeFrom_fourth (by omega), ih]
    have hfirst : a.toNat / 4 * 4 + (a.toNat % 4 * 16 + b.toNat / 16) / 16 = a.toNat := by omega
    have hsecond : (a.toNat % 4 * 16 + b.toNat / 16) % 16 * 16 +
        (b.toNat % 16 * 4 + c.toNat / 64) / 4 = b.toNat := by omega
    have hthird : (b.toNat % 16 * 4 + c.toNat / 64) % 4 * 64 + c.toNat % 64 = c.toNat := by omega
    rw [hfirst, hsecond, hthird, UInt8.ofNat_toNat, UInt8.ofNat_toNat, UInt8.ofNat_toNat]
    rfl

theorem encode_ne_nil {bytes : List UInt8} (h : bytes ≠ []) : encode bytes ≠ [] := by
  cases bytes using encode.fun_cases <;> simp_all [encode]

theorem digit_ascii {n : ℕ} (h : n < 64) : (digit n).toNat < 128 := by
  have hall : ∀ n < 64, (digit n).toNat < 128 := by decide
  exact hall n h

theorem encode_ascii (bytes : List UInt8) : ∀ c ∈ encode bytes, c.toNat < 128 := by
  have hpad : '='.toNat < 128 := by decide
  induction bytes using encode.induct with
  | case1 => simp [encode]
  | case2 a =>
    have ha := a.toNat_lt
    simp only [encode, List.forall_mem_cons, List.not_mem_nil, false_imp_iff, implies_true]
    exact ⟨digit_ascii (by omega), digit_ascii (by omega), hpad, hpad, trivial⟩
  | case3 a b =>
    have ha := a.toNat_lt
    have hb := b.toNat_lt
    simp only [encode, List.forall_mem_cons, List.not_mem_nil, false_imp_iff, implies_true]
    exact ⟨digit_ascii (by omega), digit_ascii (by omega), digit_ascii (by omega), hpad, trivial⟩
  | case4 a b c rest ih =>
    have ha := a.toNat_lt
    have hb := b.toNat_lt
    have hc := c.toNat_lt
    simp only [encode, List.forall_mem_cons]
    exact ⟨digit_ascii (by omega), digit_ascii (by omega), digit_ascii (by omega),
      digit_ascii (by omega), ih⟩

-- padding within a group is skipped, as are characters that are no digits
example : (encode [77, 97], (decode "TW\nE=".toList).toOption, (decode "TWE".toList).toOption) =
    ("TWE=".toList, some [77, 97], none) := by
  decide

end Base64
