import Mathlib.Data.Rat.Defs

namespace Python

/-- What `json.loads` returns: a float is the rational that it denotes, a `dict` keeps its order. -/
inductive Json where
  | null
  | bool (b : Bool)
  | int (i : ℤ)
  | float (q : ℚ)
  | str (s : String)
  | list (xs : List Json)
  | dict (entries : List (String × Json))

/-- The parts of the interpreter that no definition here fixes. -/
class Runtime where
  /-- `repr` of a finite float. -/
  floatRepr : ℚ → String
  /-- `repr` of a string: its quotes and escapes. -/
  strRepr : String → String
  /-- `str.lower`. -/
  lower : String → String
  /-- `int(text)`, `none` for a `ValueError`. -/
  intOfStr : String → Option ℤ
  /-- `float(text)`, `none` for a `ValueError`. -/
  floatOfStr : String → Option ℚ
  /-- `float(i)` of an integer, `none` for an `OverflowError`. -/
  floatOfInt : ℤ → Option ℚ

inductive PyError where
  | typeError
  | valueError
  | overflowError
  | attributeError
deriving DecidableEq

/-- A runtime for plain ASCII texts and integral floats. -/
@[reducible] def Runtime.ascii : Runtime where
  floatRepr q := toString q.num ++ ".0"
  strRepr s := "'" ++ s ++ "'"
  lower s := String.ofList (s.toList.map Char.toLower)
  intOfStr s := s.toInt?
  floatOfStr s := s.toInt?.map fun i => (i : ℚ)
  floatOfInt i := some i

namespace Json

abbrev Entries := List (String × Json)

/-- `d.get(k)`: a missing key reads as `None`. -/
def get (d : Entries) (k : String) : Json := (d.lookup k).getD .null

/-- `v.get(k)` of a value known to be a dict. -/
def field (v : Json) (k : String) : Json :=
  match v with
  | .dict d => get d k
  | _ => .null

/-- `bool(v)`. -/
def truthy : Json → Bool
  | .null => false
  | .bool b => b
  | .int i => i != 0
  | .float q => q != 0
  | .str s => s != ""
  | .list xs => !xs.isEmpty
  | .dict d => !d.isEmpty

/-- `v or w`. -/
def orElse (v w : Json) : Json := if v.truthy then v else w

/-- `v == text`: only a string equals a string. -/
def eqStr (v : Json) (text : String) : Bool :=
  match v with
  | .str s => s == text
  | _ => false

variable [Runtime]

mutual

/-- `repr(v)`. -/
def repr : Json → String
  | .null => "None"
  | .bool b => if b then "True" else "False"
  | .int i => toString i
  | .float q => Runtime.floatRepr q
  | .str s => Runtime.strRepr s
  | .list xs => "[" ++ ", ".intercalate (reprItems xs) ++ "]"
  | .dict d => "\x7b" ++ ", ".intercalate (reprEntries d) ++ "\x7d"

def reprItems : List Json → List String
  | [] => []
  | v :: vs => v.repr :: reprItems vs

def reprEntries : List (String × Json) → List String
  | [] => []
  | (k, v) :: rest => (Runtime.strRepr k ++ ": " ++ v.repr) :: reprEntries rest

end

/-- `str(v)`: a string is itself, anything else its `repr`. -/
def pyStr : Json → String
  | .str s => s
  | v => v.repr

/-- `int(v)`: a float is truncated, a text parsed. -/
def toInt : Json → Except PyError ℤ
  | .bool b => .ok (if b then 1 else 0)
  | .int i => .ok i
  | .float q => .ok (q.num.tdiv q.den)
  | .str s => match Runtime.intOfStr s with
    | some i => .ok i
    | none => .error .valueError
  | .null | .list _ | .dict _ => .error .typeError

omit [Runtime] in
@[simp] theorem get_nil (k : String) : get [] k = .null := rfl

omit [Runtime] in
@[simp] theorem get_cons (k k' : String) (v : Json) (d : Entries) :
    get ((k', v) :: d) k = if k = k' then v else get d k := by
  by_cases h : k = k'
  · simp [get, h]
  · have hne : (k == k') = false := by simpa using h
    simp [get, List.lookup_cons, hne, h]

omit [Runtime] in
@[simp] theorem field_dict (d : Entries) (k : String) : (Json.dict d).field k = get d k := rfl

omit [Runtime] in
@[simp] theorem truthy_str (s : String) : (Json.str s).truthy = (s != "") := rfl

omit [Runtime] in
@[simp] theorem eqStr_str (s text : String) : (Json.str s).eqStr text = (s == text) := rfl

omit [Runtime] in
@[simp] theorem orElse_null (w : Json) : Json.null.orElse w = w := rfl

@[simp] theorem pyStr_str (s : String) : (Json.str s).pyStr = s := rfl

@[simp] theorem toInt_int (i : ℤ) : (Json.int i).toInt = .ok i := rfl

/-- `str(text or "")` is the text itself, the empty one included. -/
@[simp] theorem pyStr_orElse_empty (s : String) :
    ((Json.str s).orElse (.str "")).pyStr = s := by
  by_cases h : s = "" <;> simp [orElse, h]

/-- `int(i or 0)` of a stored integer. -/
@[simp] theorem toInt_orElse_zero (i : ℤ) :
    ((Json.int i).orElse (.int 0)).toInt = .ok i := by
  by_cases h : i = 0 <;> simp [orElse, truthy, h]

end Json

end Python
