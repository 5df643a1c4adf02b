import IBotCoreApi.Library.PyJson
import Mathlib.Data.List.DropRight
import Mathlib.Data.List.TakeWhile

namespace Pydantic
open Python

/-- With `str_strip_whitespace=True`.  A rejection is `none`: which errors it collects is left out. -/
abbrev Validator (α : Type) := Json → Option α

/-- How texts are read as numbers, `none` for a text that is refused. -/
class NumberText where
  intOfStr : String → Option ℤ
  floatOfStr : String → Option ℚ

/-- Plain integers only. -/
@[reducible] def NumberText.ascii : NumberText where
  intOfStr s := s.toInt?
  floatOfStr s := s.toInt?.map fun i => (i : ℚ)

section Text

/-- The characters with the Unicode property `White_Space`. -/
def isWhiteSpace (c : Char) : Bool :=
  (9 ≤ c.toNat && c.toNat ≤ 13) || c.toNat == 0x20 || c.toNat == 0x85 || c.toNat == 0xA0 ||
    c.toNat == 0x1680 || (0x2000 ≤ c.toNat && c.toNat ≤ 0x200A) || c.toNat == 0x2028 ||
    c.toNat == 0x2029 || c.toNat == 0x202F || c.toNat == 0x205F || c.toNat == 0x3000

def trim (s : String) : String :=
  String.ofList ((s.toList.dropWhile isWhiteSpace).rdropWhile isWhiteSpace)

def Trimmed (s : String) : Prop := trim s = s

instance (s : String) : Decidable (Trimmed s) := inferInstanceAs (Decidable (trim s = s))

/-- What is dropped at the end uncovers nothing to drop at the front. -/
theorem dropWhile_dropEnds (p : Char → Bool) (text : List Char) :
    ((text.dropWhile p).rdropWhile p).dropWhile p = (text.dropWhile p).rdropWhile p := by
  set front := text.dropWhile p
  rw [List.dropWhile_eq_self_iff]
  intro hlen
  have hfix : front.dropWhile p = front := List.dropWhile_idempotent _ _
  rw [List.dropWhile_eq_self_iff] at hfix
  rw [(List.rdropWhile_prefix p front).getElem hlen]
  exact hfix _

theorem trim_trimmed (s : String) : Trimmed (trim s) := by
  unfold Trimmed trim
  rw [String.toList_ofList, dropWhile_dropEnds, List.rdropWhile_idempotent]

end Text

section Fields

variable {α : Type}

def required (v : Validator α) (d : Json.Entries) (name : String) : Option α :=
  (d.lookup name).bind v

theorem lookup_entry (name name' : String) (j : α) (d : List (String × α)) :
    List.lookup name ((name', j) :: d) = if name = name' then some j else d.lookup name := by
  by_cases h : name = name'
  · rw [if_pos h, h, List.lookup_cons_self]
  · rw [if_neg h, List.lookup_cons, beq_false_of_ne h]

/-- A field with a default, which is not validated itself. -/
def defaulted (v : Validator α) (default : α) (d : Json.Entries) (name : String) : Option α :=
  match d.lookup name with
  | none => some default
  | some j => v j

/-- `extra="forbid"`. -/
def onlyKeys (names : List String) (d : Json.Entries) : Option Unit :=
  if d.all fun entry => names.contains entry.1 then some () else none

def fieldsSet (names : List String) (j : Json) : ℕ :=
  match j with
  | .dict d => names.countP fun name => (d.lookup name).isSome
  | _ => 0

theorem required_eq_some {v : Validator α} {d : Json.Entries} {name : String} {a : α} :
    required v d name = some a ↔ ∃ j, d.lookup name = some j ∧ v j = some a :=
  Option.bind_eq_some_iff

end Fields

section Types

variable {α : Type}

def str : Validator String
  | .str s => some (trim s)
  | _ => none

/-- `Literal[…]` of texts, compared as they are. -/
def literal (choices : List (String × α)) : Validator α
  | .str s => choices.lookup s
  | _ => none

/-- `None`. -/
def null : Validator Unit
  | .null => some ()
  | _ => none

/-- `T | None`. -/
def optional (v : Validator α) : Validator (Option α)
  | .null => some none
  | j => (v j).map some

def items (v : Validator α) : List Json → Option (List α)
  | [] => some []
  | j :: js => (v j).bind fun a => (items v js).map (a :: ·)

/-- `list[T]`. -/
def list (v : Validator α) : Validator (List α)
  | .list js => items v js
  | _ => none

def constrained (v : Validator α) (p : α → Bool) : Validator α := fun j => (v j).filter p

def strBetween (lo hi : ℕ) : Validator String :=
  constrained str fun s => lo ≤ s.length && s.length ≤ hi

def strsBetween (lo hi : ℕ) : Validator (List String) :=
  constrained (list str) fun xs => lo ≤ xs.length && xs.length ≤ hi

def dumpStrs (xs : List String) : Json := .list (xs.map .str)

def Text (lo hi : ℕ) (s : String) : Prop := Trimmed s ∧ lo ≤ s.length ∧ s.length ≤ hi

def Texts (lo hi : ℕ) (xs : List String) : Prop :=
  (∀ s ∈ xs, Trimmed s) ∧ lo ≤ xs.length ∧ xs.length ≤ hi

/-- Keep the earlier of two results unless the later one sets more fields. -/
def moreFields (best new : α × ℕ) : α × ℕ := if best.2 < new.2 then new else best

/-- A union of models in smart mode: the choice that sets the most fields, and the first of these.
Exactness, which comes in between, is not modelled: choices that set equally many fields are taken
to be equally exact. -/
def smartUnion (choices : List (Json → Option (α × ℕ))) : Validator α := fun j =>
  match choices.filterMap (· j) with
  | [] => none
  | first :: rest => some (rest.foldl moreFields first).1

def modelChoice {β : Type} (v : Validator β) (wrap : β → α) (names : List String) (j : Json) :
    Option (α × ℕ) := (v j).map fun b => (wrap b, fieldsSet names j)

variable [Runtime] [NumberText]

/-- `float`: booleans, numbers and numeric texts. -/
def float : Validator ℚ
  | .bool b => some (if b then 1 else 0)
  | .int i => Runtime.floatOfInt i
  | .float q => some q
  | .str s => NumberText.floatOfStr s
  | .null | .list _ | .dict _ => none

/-- `int`: booleans, integers, integral floats of 64 bits and numeric texts. -/
def int : Validator ℤ
  | .bool b => some (if b then 1 else 0)
  | .int i => some i
  | .float q =>
    if q.den = 1 ∧ -9223372036854775808 < q.num ∧ q.num < 9223372036854775808 then some q.num
    else none
  | .str s => NumberText.intOfStr s
  | .null | .list _ | .dict _ => none

end Types

/-- A validator that accepts well-formed values only and reads the dump of each of them back. -/
structure Format {α : Type} (v : Validator α) (dump : α → Json) (WellFormed : α → Prop) :
    Prop where
  accepted : ∀ {j a}, v j = some a → WellFormed a
  reads : ∀ {a}, WellFormed a → v (dump a) = some a

section Formats

variable {α : Type} {v : Validator α} {dump : α → Json} {P : α → Prop}

/-- Exactly the well-formed values survive being dumped and read. -/
theorem Format.reads_iff (h : Format v dump P) {a : α} : v (dump a) = some a ↔ P a :=
  ⟨h.accepted, h.reads⟩

theorem str_format : Format str .str Trimmed where
  accepted {j a} h := by
    cases j with
    | str s =>
      rw [str, Option.some.injEq] at h
      exact h ▸ trim_trimmed s
    | _ => cases h
  reads h := congrArg some h

theorem items_accepted (haccepted : ∀ {j a}, v j = some a → P a) {js : List Json} {as : List α}
    (h : items v js = some as) : ∀ a ∈ as, P a := by
  induction js generalizing as with
  | nil =>
    cases h
    simp
  | cons j js ih =>
    obtain ⟨a, ha, h⟩ := Option.bind_eq_some_iff.mp h
    obtain ⟨rest, hrest, rfl⟩ := Option.map_eq_some_iff.mp h
    rw [List.forall_mem_cons]
    exact ⟨haccepted ha, ih hrest⟩

theorem items_reads {as : List α} (h : ∀ a ∈ as, v (dump a) = some a) :
    items v (as.map dump) = some as := by
  induction as with
  | nil => rfl
  | cons a as ih =>
    rw [List.forall_mem_cons] at h
    rw [List.map_cons, items, h.1, ih h.2]
    rfl

theorem items_reads_iff {as : List α} :
    items v (as.map dump) = some as ↔ ∀ a ∈ as, v (dump a) = some a := by
  refine ⟨fun h => ?_, items_reads⟩
  induction as with
  | nil => simp
  | cons a as ih =>
    obtain ⟨first, hfirst, h⟩ := Option.bind_eq_some_iff.mp h
    obtain ⟨rest, hrest, heq⟩ := Option.map_eq_some_iff.mp h
    rw [List.cons.injEq] at heq
    rw [List.forall_mem_cons]
    exact ⟨heq.1 ▸ hfirst, ih (heq.2 ▸ hrest)⟩

theorem Format.list (h : Format v dump P) :
    Format (list v) (fun as => .list (as.map dump)) (fun as => ∀ a ∈ as, P a) where
  accepted {j as} haccepts := by
    cases j with
    | list js => exact items_accepted h.accepted haccepts
    | _ => cases haccepts
  reads has := items_reads fun a ha => h.reads (has a ha)

theorem Format.constrained (h : Format v dump P) (p : α → Bool) :
    Format (constrained v p) dump (fun a => P a ∧ p a) where
  accepted haccepts := by
    obtain ⟨haccepts, hp⟩ := Option.filter_eq_some_iff.mp haccepts
    exact ⟨h.accepted haccepts, hp⟩
  reads ha := Option.filter_eq_some_iff.mpr ⟨h.reads ha.1, ha.2⟩

theorem Format.congr (h : Format v dump P) {Q : α → Prop} (hPQ : ∀ a, P a ↔ Q a) :
    Format v dump Q where
  accepted haccepts := (hPQ _).mp (h.accepted haccepts)
  reads ha := h.reads ((hPQ _).mpr ha)

theorem strBetween_format (lo hi : ℕ) : Format (strBetween lo hi) .str (Text lo hi) :=
  (str_format.constrained _).congr fun s => by simp [Text]

theorem strs_format : Format (list str) dumpStrs fun xs => ∀ s ∈ xs, Trimmed s :=
  str_format.list

theorem strsBetween_format (lo hi : ℕ) :
    Format (strsBetween lo hi) dumpStrs (Texts lo hi) :=
  (strs_format.constrained _).congr fun xs => by simp [Texts]

theorem Format.required (h : Format v dump P) {d : Json.Entries} {name : String} {a : α}
    (haccepts : required v d name = some a) : P a := by
  obtain ⟨j, _, hj⟩ := required_eq_some.mp haccepts
  exact h.accepted hj

theorem Format.defaulted (h : Format v dump P) {default : α} (hdefault : P default)
    {d : Json.Entries} {name : String} {a : α} (haccepts : defaulted v default d name = some a) :
    P a := by
  unfold Pydantic.defaulted at haccepts
  split at haccepts
  · cases haccepts
    exact hdefault
  · exact h.accepted haccepts

theorem Format.optional (h : Format v dump P) (hnull : ∀ a, dump a ≠ .null) :
    Format (optional v) (fun a => (a.map dump).getD .null) (fun a => ∀ b ∈ a, P b) where
  accepted {j a} haccepts := by
    intro b hb
    cases j with
    | null =>
      cases haccepts
      cases hb
    | _ =>
      obtain ⟨b', hb', rfl⟩ := Option.map_eq_some_iff.mp haccepts
      cases hb
      exact h.accepted hb'
  reads {a} ha := by
    cases a with
    | none => rfl
    | some b =>
      have hb : v (dump b) = some b := h.reads (ha b rfl)
      change Pydantic.optional v (dump b) = _
      unfold Pydantic.optional
      split
      · exact absurd ‹dump b = .null› (hnull b)
      · rw [hb, Option.map_some]

theorem smartUnion_accepted {choices : List (Json → Option (α × ℕ))} {j : Json} {a : α}
    (h : smartUnion choices j = some a) : ∃ choice ∈ choices, ∃ set, choice j = some (a, set) := by
  have hbest (first : α × ℕ) (rest : List (α × ℕ)) :
      rest.foldl moreFields first ∈ first :: rest := by
    induction rest generalizing first with
    | nil => exact List.mem_cons_self
    | cons second rest ih =>
      have hmem := ih (moreFields first second)
      rw [List.foldl_cons]
      rcases List.mem_cons.mp hmem with heq | hmem
      · rw [heq, moreFields]
        split <;> simp
      · exact List.mem_cons_of_mem first (List.mem_cons_of_mem second hmem)
  unfold smartUnion at h
  split at h
  · cases h
  · next first rest heq =>
    cases h
    obtain ⟨choice, hchoice, hj⟩ := List.mem_filterMap.mp (heq ▸ hbest first rest)
    exact ⟨choice, hchoice, _, hj⟩

theorem smartUnion_cons_none {choice : Json → Option (α × ℕ)}
    {choices : List (Json → Option (α × ℕ))} {j : Json} (h : choice j = none) :
    smartUnion (choice :: choices) j = smartUnion choices j := by
  have hskip : (choice :: choices).filterMap (· j) = choices.filterMap (· j) := by
    rw [List.filterMap_cons, h]
  unfold smartUnion
  rw [hskip]

/-- Where the other choices reject, the first one decides. -/
theorem smartUnion_cons_of_none {choice : Json → Option (α × ℕ)}
    {choices : List (Json → Option (α × ℕ))} {j : Json} (h : ∀ other ∈ choices, other j = none) :
    smartUnion (choice :: choices) j = (choice j).map Prod.fst := by
  have hrest : choices.filterMap (· j) = [] := List.filterMap_eq_nil_iff.mpr h
  unfold smartUnion
  rw [List.filterMap_cons, hrest]
  cases choice j <;> rfl

section Choices

variable {β : Type} {w : Validator β} {wrap : β → α} {names : List String} {j : Json}

theorem modelChoice_of_none (h : w j = none) : modelChoice w wrap names j = none := by
  rw [modelChoice, h, Option.map_none]

theorem modelChoice_map_fst : (modelChoice w wrap names j).map Prod.fst = (w j).map wrap := by
  rw [modelChoice, Option.map_map]
  rfl

theorem modelChoice_eq_some {a : α} {set : ℕ} (h : modelChoice w wrap names j = some (a, set)) :
    ∃ b, w j = some b ∧ a = wrap b := by
  obtain ⟨b, hb, heq⟩ := Option.map_eq_some_iff.mp h
  exact ⟨b, hb, (congrArg Prod.fst heq).symm⟩

end Choices

variable [Runtime] [NumberText]

theorem float_format : Format float .float fun _ => True where
  accepted _ := trivial
  reads _ := rfl

end Formats

end Pydantic
