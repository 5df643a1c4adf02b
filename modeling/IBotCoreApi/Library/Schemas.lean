import IBotCoreApi.Library.FirstOccurrences
import IBotCoreApi.Library.Pydantic
import Mathlib.Data.List.Forall2

namespace Pydantic
open Python FirstOccurrences

/-- The number that Python compares a boolean, an `int` or a `float` as. -/
def number? : Json → Option ℚ
  | .bool b => some (if b then 1 else 0)
  | .int i => some i
  | .float q => some q
  | .null | .str _ | .list _ | .dict _ => none

/-- `j == j'`, but a dict may have got entries. -/
inductive Kept : Json → Json → Prop where
  | null : Kept .null .null
  | number {j j' : Json} {q : ℚ} : number? j = some q → number? j' = some q → Kept j j'
  | str (s : String) : Kept (.str s) (.str s)
  | list {js js' : List Json} : List.Forall₂ Kept js js' → Kept (.list js) (.list js')
  | dict {d d' : Json.Entries} : (∀ k v, d.lookup k = some v → (d'.lookup k).isSome) →
      (∀ k v v', d.lookup k = some v → d'.lookup k = some v' → Kept v v') →
      Kept (.dict d) (.dict d')

section Kept

theorem lookup_mem {α : Type} {d : List (String × α)} {k : String} {v : α}
    (h : d.lookup k = some v) : (k, v) ∈ d := by
  obtain ⟨before, after, rfl, _⟩ := List.lookup_eq_some_iff.mp h
  exact List.mem_append_right before List.mem_cons_self

theorem lookup_of_mem {α : Type} {d : List (String × α)} (hkeys : (d.map Prod.fst).Nodup)
    {k : String} {v : α} (h : (k, v) ∈ d) : d.lookup k = some v := by
  induction d with
  | nil => cases h
  | cons entry d ih =>
    obtain ⟨hk, hkeys⟩ := List.nodup_cons.mp hkeys
    rcases List.mem_cons.mp h with rfl | h
    · exact List.lookup_cons_self
    · have hne : (k == entry.1) = false := by
        apply beq_false_of_ne
        rintro rfl
        exact hk (List.mem_map.mpr ⟨_, h, rfl⟩)
      rw [List.lookup_cons, hne]
      exact ih hkeys h

theorem Kept.refl : (j : Json) → Kept j j
  | .null => .null
  | .bool b => .number (q := if b then 1 else 0) rfl rfl
  | .int i => .number (q := i) rfl rfl
  | .float q => .number (q := q) rfl rfl
  | .str s => .str s
  | .list js => .list (List.forall₂_same.mpr fun j _ => Kept.refl j)
  | .dict d => by
    refine .dict (fun k v h => Option.isSome_of_mem h) fun k v v' h h' => ?_
    have hmem := lookup_mem h
    cases h.symm.trans h'
    exact Kept.refl v
termination_by j => sizeOf j
decreasing_by
  · have hlt := List.sizeOf_lt_of_mem ‹j ∈ js›
    simp
    omega
  · have hlt := List.sizeOf_lt_of_mem hmem
    simp at hlt ⊢
    omega

theorem kept_number_iff {j j' : Json} {q : ℚ} (h : number? j' = some q) :
    Kept j j' ↔ number? j = some q := by
  constructor
  · intro hkept
    cases hkept with
    | number hj hj' => exact hj.trans (hj'.symm.trans h)
    | _ => cases h
  · intro hj
    exact .number hj h

theorem kept_bool_iff {j : Json} {b : Bool} :
    Kept j (.bool b) ↔ number? j = some (if b then 1 else 0) := kept_number_iff rfl

theorem kept_int_iff {j : Json} {i : ℤ} : Kept j (.int i) ↔ number? j = some (i : ℚ) :=
  kept_number_iff rfl

theorem kept_float_iff {j : Json} {q : ℚ} : Kept j (.float q) ↔ number? j = some q :=
  kept_number_iff rfl

theorem kept_str_iff {j : Json} {s : String} : Kept j (.str s) ↔ j = .str s := by
  constructor
  · intro h
    cases h with
    | str => rfl
    | number _ h' => cases h'
  · rintro rfl
    exact .str s

theorem kept_list_iff {js js' : List Json} :
    Kept (.list js) (.list js') ↔ List.Forall₂ Kept js js' := by
  constructor
  · intro h
    cases h with
    | list h => exact h
    | number h _ => cases h
  · exact .list

theorem kept_dict_iff {d d' : Json.Entries} : Kept (.dict d) (.dict d') ↔
    ∀ k v, d.lookup k = some v → ∃ v', d'.lookup k = some v' ∧ Kept v v' := by
  constructor
  · intro h k v hv
    cases h with
    | dict hkeys hvalues =>
      obtain ⟨v', hv'⟩ := Option.isSome_iff_exists.mp (hkeys k v hv)
      exact ⟨v', hv', hvalues k v v' hv hv'⟩
    | number h _ => cases h
  · intro h
    refine .dict (fun k v hv => ?_) fun k v v' hv hv' => ?_
    · obtain ⟨v', hv', _⟩ := h k v hv
      exact Option.isSome_of_mem hv'
    · obtain ⟨w, hw, hkept⟩ := h k v hv
      cases hw.symm.trans hv'
      exact hkept

end Kept

/-- A schema: what it reads of a value, and which values it keeps. -/
structure Schema where
  validate : Json → Option Json
  Keeps : Json → Prop
  keeps_iff : ∀ j, (∃ j', validate j = some j' ∧ Kept j j') ↔ Keeps j

def boolOfText (s : String) : Option Bool :=
  let text := String.ofList (s.toList.map Char.toLower)
  if ["0", "f", "n", "no", "off", "false"].contains text then some false
  else if ["1", "t", "y", "on", "yes", "true"].contains text then some true
  else none

/-- `bool`: booleans, the numbers 0 and 1, and the texts above. -/
def bool : Validator Bool
  | .bool b => some b
  | .int i => if i = 0 then some false else if i = 1 then some true else none
  | .float q => if q = 0 then some false else if q = 1 then some true else none
  | .str s => boolOfText s
  | .null | .list _ | .dict _ => none

namespace Schema

def any : Schema where
  validate j := some j
  Keeps _ := True
  keeps_iff j := iff_of_true ⟨j, rfl, Kept.refl j⟩ trivial

/-- `str`: the texts without white space at their ends. -/
def str : Schema where
  validate j := (Pydantic.str j).map .str
  Keeps j := ∃ s, j = .str s ∧ Trimmed s
  keeps_iff j := by
    constructor
    · rintro ⟨j', hread, hkept⟩
      obtain ⟨s, hs, rfl⟩ := Option.map_eq_some_iff.mp hread
      exact ⟨s, kept_str_iff.mp hkept, str_format.accepted hs⟩
    · rintro ⟨s, rfl, hs⟩
      exact ⟨.str s, by rw [str_format.reads hs, Option.map_some], .str s⟩

/-- `Literal[…]` of texts. -/
def literal (choices : List String) : Schema where
  validate
    | .str s => if choices.contains s then some (.str s) else none
    | _ => none
  Keeps j := ∃ s ∈ choices, j = .str s
  keeps_iff j := by
    constructor
    · rintro ⟨j', hread, hkept⟩
      split at hread
      · rename_i s
        split at hread
        · rename_i hs
          exact ⟨s, List.contains_iff_mem.mp hs, rfl⟩
        · cases hread
      · cases hread
    · rintro ⟨s, hs, rfl⟩
      exact ⟨.str s, if_pos (List.contains_iff_mem.mpr hs), .str s⟩

/-- `bool`: the booleans and the numbers 0 and 1. -/
def bool : Schema where
  validate j := (Pydantic.bool j).map .bool
  Keeps j := number? j = some 0 ∨ number? j = some 1
  keeps_iff j := by
    simp only [Option.map_eq_some_iff, exists_exists_and_eq_and, kept_bool_iff]
    cases j with
    | bool b => cases b <;> simp [Pydantic.bool, number?]
    | int i =>
      simp only [Pydantic.bool, number?]
      split_ifs with hzero hone <;> simp_all
    | float q =>
      simp only [Pydantic.bool, number?]
      split_ifs with hzero hone <;> simp_all
    | _ => simp [number?]

variable (s : Schema)

/-- `T | None`. -/
def optional : Schema where
  validate
    | .null => some .null
    | j => s.validate j
  Keeps j := j = .null ∨ s.Keeps j
  keeps_iff j := by
    split
    · exact iff_of_true ⟨.null, rfl, .null⟩ (.inl rfl)
    · rename_i hnull
      rw [s.keeps_iff, or_iff_right hnull]

theorem length_items {α : Type} {v : Validator α} {js : List Json} {as : List α}
    (h : items v js = some as) : as.length = js.length := by
  induction js generalizing as with
  | nil =>
    cases h
    rfl
  | cons j js ih =>
    obtain ⟨a, _, h⟩ := Option.bind_eq_some_iff.mp h
    obtain ⟨rest, hrest, rfl⟩ := Option.map_eq_some_iff.mp h
    rw [List.length_cons, List.length_cons, ih hrest]

theorem items_keeps_iff {js : List Json} :
    (∃ js', items s.validate js = some js' ∧ List.Forall₂ Kept js js') ↔
      ∀ j ∈ js, s.Keeps j := by
  induction js with
  | nil => simp [items]
  | cons j js ih =>
    rw [List.forall_mem_cons, ← ih, ← s.keeps_iff]
    constructor
    · rintro ⟨js', hread, hkept⟩
      obtain ⟨j', hj, hread⟩ := Option.bind_eq_some_iff.mp hread
      obtain ⟨rest, hrest, rfl⟩ := Option.map_eq_some_iff.mp hread
      cases hkept with
      | cons hj' hrest' => exact ⟨⟨j', hj, hj'⟩, rest, hrest, hrest'⟩
    · rintro ⟨⟨j', hj, hj'⟩, rest, hrest, hrest'⟩
      refine ⟨j' :: rest, ?_, .cons hj' hrest'⟩
      rw [items, hj, hrest]
      rfl

/-- `list[T]`. -/
def list : Schema where
  validate j := (Pydantic.list s.validate j).map .list
  Keeps j := ∃ js, j = .list js ∧ ∀ item ∈ js, s.Keeps item
  keeps_iff j := by
    constructor
    · rintro ⟨_, hread, hkept⟩
      obtain ⟨js', hjs', rfl⟩ := Option.map_eq_some_iff.mp hread
      cases j with
      | list js => exact ⟨js, rfl, s.items_keeps_iff.mp ⟨js', hjs', kept_list_iff.mp hkept⟩⟩
      | _ => cases hjs'
    · rintro ⟨js, rfl, hkeeps⟩
      obtain ⟨js', hjs', hkept⟩ := s.items_keeps_iff.mpr hkeeps
      exact ⟨.list js', congrArg (Option.map Json.list) hjs', .list hkept⟩

def keys (d : Json.Entries) : List String := distinct (d.map Prod.fst)

theorem mem_keys {d : Json.Entries} {k : String} : k ∈ keys d ↔ ∃ v, d.lookup k = some v := by
  rw [keys, mem_distinct, List.mem_map, ← Option.isSome_iff_exists, List.lookup_isSome_iff]
  simp only [beq_iff_eq, @eq_comm _ k]

theorem lookup_zip {ks : List String} {js : List Json} (hks : ks.Nodup)
    (hlength : js.length = ks.length) {k : String} {j : Json} :
    (ks.zip js).reverse.lookup k = some j ↔ (k, j) ∈ ks.zip js := by
  constructor
  · intro h
    exact List.mem_reverse.mp (lookup_mem h)
  · intro h
    refine lookup_of_mem ?_ (List.mem_reverse.mpr h)
    rw [List.map_reverse, List.nodup_reverse, List.map_fst_zip hlength.ge]
    exact hks

theorem kept_zip_iff {d : Json.Entries} {js : List Json} (hlength : js.length = (keys d).length) :
    Kept (.dict d) (.dict ((keys d).zip js).reverse) ↔
      List.Forall₂ Kept ((keys d).map (Json.get d)) js := by
  have hks : (keys d).Nodup := nodup_distinct _
  rw [kept_dict_iff, List.forall₂_map_left_iff, List.forall₂_iff_zip]
  constructor
  · intro h
    refine ⟨hlength.symm, fun {k j} hmem => ?_⟩
    obtain ⟨v, hv⟩ := mem_keys.mp (List.of_mem_zip hmem).1
    obtain ⟨j', hj', hkept⟩ := h k v hv
    cases ((lookup_zip hks hlength).mpr hmem).symm.trans hj'
    rwa [Json.get, hv]
  · rintro ⟨_, h⟩ k v hv
    have hkey : k ∈ ((keys d).zip js).map Prod.fst := by
      rw [List.map_fst_zip hlength.ge]
      exact mem_keys.mpr ⟨v, hv⟩
    obtain ⟨⟨_, j⟩, hmem, rfl⟩ := List.mem_map.mp hkey
    have hkept := h hmem
    rw [Json.get, hv] at hkept
    exact ⟨j, (lookup_zip hks hlength).mpr hmem, hkept⟩

/-- `dict[str, T]`; of two keys that are trimmed to the same text the later one counts. -/
def dict : Schema where
  validate
    | .dict d => (items s.validate ((keys d).map (Json.get d))).map fun js =>
      .dict (((keys d).map trim).zip js).reverse
    | _ => none
  Keeps j := ∃ d, j = .dict d ∧ ∀ k v, d.lookup k = some v → Trimmed k ∧ s.Keeps v
  keeps_iff j := by
    constructor
    · rintro ⟨_, hread, hkept⟩
      split at hread
      · rename_i d
        obtain ⟨js, hjs, rfl⟩ := Option.map_eq_some_iff.mp hread
        have htrimmed : ∀ k ∈ keys d, Trimmed k := by
          intro k hk
          obtain ⟨v, hv⟩ := mem_keys.mp hk
          obtain ⟨v', hv', _⟩ := kept_dict_iff.mp hkept k v hv
          obtain ⟨k₀, _, rfl⟩ := List.mem_map.mp (List.of_mem_zip (List.mem_reverse.mp
            (lookup_mem hv'))).1
          exact trim_trimmed k₀
        have hlength : js.length = (keys d).length := (length_items hjs).trans (List.length_map _)
        rw [List.map_congr_left htrimmed, List.map_id'] at hkept
        refine ⟨d, rfl, fun k v hv => ⟨htrimmed k (mem_keys.mpr ⟨v, hv⟩), ?_⟩⟩
        have hkeeps := s.items_keeps_iff.mp ⟨js, hjs, (kept_zip_iff hlength).mp hkept⟩
        have hget : Json.get d k = v := by rw [Json.get, hv, Option.getD_some]
        exact hget ▸ hkeeps _ (List.mem_map_of_mem (mem_keys.mpr ⟨v, hv⟩))
      · cases hread
    · rintro ⟨d, rfl, hkeeps⟩
      have hitems : ∀ j ∈ (keys d).map (Json.get d), s.Keeps j := by
        intro j hj
        obtain ⟨k, hk, rfl⟩ := List.mem_map.mp hj
        obtain ⟨v, hv⟩ := mem_keys.mp hk
        rw [Json.get, hv]
        exact (hkeeps k v hv).2
      obtain ⟨js, hjs, hkept⟩ := s.items_keeps_iff.mpr hitems
      have htrimmed : ∀ k ∈ keys d, trim k = k := by
        intro k hk
        obtain ⟨v, hv⟩ := mem_keys.mp hk
        exact (hkeeps k v hv).1
      have hlength : js.length = (keys d).length := (length_items hjs).trans (List.length_map _)
      refine ⟨.dict ((keys d).zip js).reverse, ?_, (kept_zip_iff hlength).mpr hkept⟩
      dsimp only
      rw [hjs, Option.map_some, List.map_congr_left htrimmed, List.map_id']

section Values

theorem str_accepts (s : String) : ∃ j, str.validate (.str s) = some j := ⟨_, rfl⟩

theorem strs_accepts (xs : List String) : ∃ j, str.list.validate (dumpStrs xs) = some j := by
  have hitems : ∃ js, items str.validate (xs.map .str) = some js := by
    induction xs with
    | nil => exact ⟨[], rfl⟩
    | cons x xs ih =>
      obtain ⟨js, hjs⟩ := ih
      refine ⟨.str (trim x) :: js, ?_⟩
      rw [List.map_cons, items, hjs]
      rfl
  obtain ⟨js, hjs⟩ := hitems
  exact ⟨.list js, congrArg (Option.map Json.list) hjs⟩

@[simp] theorem str_keeps_str {s : String} : str.Keeps (.str s) ↔ Trimmed s := by
  constructor
  · rintro ⟨_, heq, hs⟩
    cases heq
    exact hs
  · exact fun hs => ⟨s, rfl, hs⟩

@[simp] theorem list_keeps_list {s : Schema} {js : List Json} :
    s.list.Keeps (.list js) ↔ ∀ j ∈ js, s.Keeps j := by
  constructor
  · rintro ⟨_, heq, hjs⟩
    cases heq
    exact hjs
  · exact fun hjs => ⟨js, rfl, hjs⟩

@[simp] theorem strs_keeps_dumpStrs {xs : List String} :
    str.list.Keeps (dumpStrs xs) ↔ ∀ x ∈ xs, Trimmed x := by
  simp [dumpStrs]

theorem optional_keeps_of_ne {s : Schema} {j : Json} (hnull : j ≠ .null) :
    s.optional.Keeps j ↔ s.Keeps j := or_iff_right hnull

@[simp] theorem optional_strs_keeps {xs : List String} :
    str.list.optional.Keeps (dumpStrs xs) ↔ ∀ x ∈ xs, Trimmed x := by
  rw [optional_keeps_of_ne (by simp [dumpStrs]), strs_keeps_dumpStrs]

@[simp] theorem optional_str_keeps {a : Option String} :
    str.optional.Keeps ((a.map Json.str).getD .null) ↔ ∀ s ∈ a, Trimmed s := by
  cases a with
  | none => simp [optional]
  | some s => simp [optional_keeps_of_ne]

end Values

/-- A field of a model: its name, its type and its default unless it is required. -/
structure Field where
  name : String
  schema : Schema
  default : Option Json

def Field.required (name : String) (s : Schema) : Field := ⟨name, s, none⟩

def Field.defaulted (name : String) (s : Schema) (default : Json) : Field := ⟨name, s, some default⟩

namespace Field

@[simp] theorem required_name (name : String) (s : Schema) : (required name s).name = name := rfl

@[simp] theorem defaulted_name (name : String) (s : Schema) (default : Json) :
    (defaulted name s default).name = name := rfl

variable (f : Field) (d : Json.Entries)

def read : Option Json :=
  match d.lookup f.name with
  | none => f.default
  | some j => f.schema.validate j

/-- The field is kept where it is set, and has a default otherwise. -/
def Keeps : Prop :=
  match d.lookup f.name with
  | none => f.default.isSome
  | some j => f.schema.Keeps j

theorem keeps_iff : (∃ j', f.read d = some j' ∧ ∀ j, d.lookup f.name = some j → Kept j j') ↔
    f.Keeps d := by
  unfold read Keeps
  cases d.lookup f.name with
  | none => simp [Option.isSome_iff_exists]
  | some j => simpa using f.schema.keeps_iff j

end Field

def readFields (d : Json.Entries) : List Field → Option Json.Entries
  | [] => some []
  | f :: fields => (f.read d).bind fun j => (readFields d fields).map ((f.name, j) :: ·)

section Fields

variable {d d' : Json.Entries} {fields : List Field}

theorem names_readFields (h : readFields d fields = some d') :
    d'.map Prod.fst = fields.map (·.name) := by
  induction fields generalizing d' with
  | nil =>
    cases h
    rfl
  | cons f fields ih =>
    obtain ⟨j, _, h⟩ := Option.bind_eq_some_iff.mp h
    obtain ⟨rest, hrest, rfl⟩ := Option.map_eq_some_iff.mp h
    rw [List.map_cons, List.map_cons, ih hrest]

theorem mem_readFields (h : readFields d fields = some d') {f : Field} (hf : f ∈ fields) :
    ∃ j, f.read d = some j ∧ (f.name, j) ∈ d' := by
  induction fields generalizing d' with
  | nil => cases hf
  | cons g fields ih =>
    obtain ⟨j, hj, h⟩ := Option.bind_eq_some_iff.mp h
    obtain ⟨rest, hrest, rfl⟩ := Option.map_eq_some_iff.mp h
    rcases List.mem_cons.mp hf with rfl | hf
    · exact ⟨j, hj, List.mem_cons_self⟩
    · obtain ⟨j', hj', hmem⟩ := ih hrest hf
      exact ⟨j', hj', List.mem_cons_of_mem _ hmem⟩

theorem exists_readFields_iff :
    (∃ d', readFields d fields = some d') ↔ ∀ f ∈ fields, ∃ j, f.read d = some j := by
  constructor
  · rintro ⟨d', h⟩ f hf
    obtain ⟨j, hj, _⟩ := mem_readFields h hf
    exact ⟨j, hj⟩
  · intro h
    induction fields with
    | nil => exact ⟨[], rfl⟩
    | cons f fields ih =>
      rw [List.forall_mem_cons] at h
      obtain ⟨j, hj⟩ := h.1
      obtain ⟨rest, hrest⟩ := ih h.2
      refine ⟨(f.name, j) :: rest, ?_⟩
      rw [readFields, hj, hrest]
      rfl

theorem lookup_readFields (hnames : (fields.map (·.name)).Nodup)
    (h : readFields d fields = some d') {f : Field} (hf : f ∈ fields) :
    d'.lookup f.name = f.read d := by
  obtain ⟨j, hj, hmem⟩ := mem_readFields h hf
  rw [hj]
  exact lookup_of_mem (names_readFields h ▸ hnames) hmem

def Agree (d d' : Json.Entries) : Prop :=
  ∀ k v v', d.lookup k = some v → d'.lookup k = some v' → Kept v v'

/-- Fields are read and kept when each of them is kept. -/
theorem readFields_keeps_iff (hnames : (fields.map (·.name)).Nodup) :
    (∃ d', readFields d fields = some d' ∧ Agree d d') ↔ ∀ f ∈ fields, f.Keeps d := by
  constructor
  · rintro ⟨d', hread, hagree⟩ f hf
    obtain ⟨j, hj, _⟩ := mem_readFields hread hf
    have hlookup := (lookup_readFields hnames hread hf).trans hj
    exact (f.keeps_iff d).mp ⟨j, hj, fun v hv => hagree f.name v j hv hlookup⟩
  · intro hkeeps
    obtain ⟨d', hread⟩ := exists_readFields_iff.mpr fun f hf => by
      obtain ⟨j, hj, _⟩ := (f.keeps_iff d).mpr (hkeeps f hf)
      exact ⟨j, hj⟩
    refine ⟨d', hread, fun k v v' hv hv' => ?_⟩
    have hname : k ∈ fields.map (·.name) := by
      rw [← names_readFields hread]
      exact List.mem_map.mpr ⟨_, lookup_mem hv', rfl⟩
    obtain ⟨f, hf, rfl⟩ := List.mem_map.mp hname
    obtain ⟨j, hj, hkept⟩ := (f.keeps_iff d).mpr (hkeeps f hf)
    cases ((lookup_readFields hnames hread hf).trans hj).symm.trans hv'
    exact hkept v hv

def Returns (fields : List Field) (saved returned : Json.Entries) : Prop :=
  ∀ f ∈ fields, ∃ v v', saved.lookup f.name = some v ∧ returned.lookup f.name = some v' ∧ Kept v v'

/-- Saved fields are read and returned when each of them is kept. -/
theorem readFields_returns_iff (hnames : (fields.map (·.name)).Nodup)
    (hsaved : ∀ f ∈ fields, ∃ v, d.lookup f.name = some v) :
    (∃ d', readFields d fields = some d' ∧ Returns fields d d') ↔ ∀ f ∈ fields, f.Keeps d := by
  rw [← readFields_keeps_iff hnames]
  refine exists_congr fun d' => and_congr_right fun hread => ?_
  constructor
  · intro hreturns k v v' hv hv'
    have hname : k ∈ fields.map (·.name) := by
      rw [← names_readFields hread]
      exact List.mem_map.mpr ⟨_, lookup_mem hv', rfl⟩
    obtain ⟨f, hf, rfl⟩ := List.mem_map.mp hname
    obtain ⟨w, w', hw, hw', hkept⟩ := hreturns f hf
    cases hw.symm.trans hv
    cases hw'.symm.trans hv'
    exact hkept
  · intro hagree f hf
    obtain ⟨v, hv⟩ := hsaved f hf
    obtain ⟨v', hv', _⟩ := mem_readFields hread hf
    have hlookup := (lookup_readFields hnames hread hf).trans hv'
    exact ⟨v, v', hv, hlookup, hagree f.name v v' hv hlookup⟩

end Fields

/-- A model with `extra="forbid"`. -/
def model (fields : List Field) (hnames : (fields.map (·.name)).Nodup) : Schema where
  validate
    | .dict d =>
      if ∀ k ∈ keys d, k ∈ fields.map (·.name) then (readFields d fields).map .dict else none
    | _ => none
  Keeps j := ∃ d, j = .dict d ∧ (∀ k ∈ keys d, k ∈ fields.map (·.name)) ∧
    ∀ f ∈ fields, f.Keeps d
  keeps_iff j := by
    constructor
    · rintro ⟨_, hread, hkept⟩
      split at hread
      · rename_i d
        split at hread
        · rename_i hknown
          obtain ⟨d', hd', rfl⟩ := Option.map_eq_some_iff.mp hread
          refine ⟨d, rfl, hknown, (readFields_keeps_iff hnames).mp ⟨d', hd', ?_⟩⟩
          intro k v v' hv hv'
          obtain ⟨w, hw, hkept⟩ := kept_dict_iff.mp hkept k v hv
          cases hw.symm.trans hv'
          exact hkept
        · cases hread
      · cases hread
    · rintro ⟨d, rfl, hknown, hkeeps⟩
      obtain ⟨d', hd', hagree⟩ := (readFields_keeps_iff hnames).mpr hkeeps
      refine ⟨.dict d', ?_, kept_dict_iff.mpr fun k v hv => ?_⟩
      · dsimp only
        rw [if_pos hknown, hd', Option.map_some]
      · have hname := hknown k (mem_keys.mpr ⟨v, hv⟩)
        rw [← names_readFields hd'] at hname
        obtain ⟨⟨_, v'⟩, hmem, rfl⟩ := List.mem_map.mp hname
        have hv' := lookup_of_mem (names_readFields hd' ▸ hnames) hmem
        exact ⟨v', hv', hagree _ v v' hv hv'⟩

variable [Runtime] [NumberText]

/-- `float`: the numbers that a float is exactly. -/
def float : Schema where
  validate j := (Pydantic.float j).map .float
  Keeps
    | .bool _ | .float _ => True
    | .int i => Runtime.floatOfInt i = some (i : ℚ)
    | .null | .str _ | .list _ | .dict _ => False
  keeps_iff j := by
    simp only [Option.map_eq_some_iff, exists_exists_and_eq_and, kept_float_iff]
    cases j <;> simp [Pydantic.float, number?, eq_comm]

theorem float_accepts (q : ℚ) : ∃ j, float.validate (.float q) = some j := ⟨_, rfl⟩

@[simp] theorem float_keeps_float {q : ℚ} : float.Keeps (.float q) := trivial

/-- `int` with a constraint: the integral numbers that satisfy it, a float only below 64 bits. -/
def intWhere (p : ℤ → Bool) : Schema where
  validate j := ((Pydantic.int j).filter p).map .int
  Keeps
    | .bool b => p (if b then 1 else 0)
    | .int i => p i
    | .float q => q.den = 1 ∧ -9223372036854775808 < q.num ∧ q.num < 9223372036854775808 ∧ p q.num
    | .null | .str _ | .list _ | .dict _ => False
  keeps_iff j := by
    simp only [Option.map_eq_some_iff, exists_exists_and_eq_and, kept_int_iff,
      Option.filter_eq_some_iff]
    cases j with
    | bool b => cases b <;> simp [Pydantic.int, number?]
    | float q =>
      simp only [Pydantic.int, number?]
      split_ifs with hint
      · have hnum : q = q.num := ((Rat.den_eq_one_iff q).mp hint.1).symm
        constructor
        · rintro ⟨i, ⟨hi, hp⟩, _⟩
          cases hi
          exact ⟨hint.1, hint.2.1, hint.2.2, hp⟩
        · rintro ⟨_, _, _, hp⟩
          exact ⟨q.num, ⟨rfl, hp⟩, congrArg some hnum⟩
      · refine iff_of_false (by simp) ?_
        rintro ⟨hden, hlo, hhi, _⟩
        exact hint ⟨hden, hlo, hhi⟩
    | _ => simp [Pydantic.int, number?]

def int : Schema := intWhere fun _ => true

omit [Runtime] in
theorem int_accepts (i : ℤ) : ∃ j, int.validate (.int i) = some j := ⟨_, rfl⟩

omit [Runtime] in
@[simp] theorem int_keeps_int {i : ℤ} : int.Keeps (.int i) := rfl

/-- `int` with `ge`. -/
def intFrom (lo : ℤ) : Schema := intWhere (lo ≤ ·)

end Schema

end Pydantic
