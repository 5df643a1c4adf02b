import Mathlib.Data.List.Find
import Mathlib.Data.List.Nodup
import Mathlib.Data.List.Pairwise

namespace Tables

variable {α κ κ' : Type*}

/-- The `SET` of an update that keeps the keys of a row. -/
structure Update (key : α → κ) where
  set : α → α
  keeps : ∀ r, key (set r) = key r := by intro r; rfl

/-- What `UPDATE … SET u WHERE p` does to one row. -/
def Update.onRow {key : α → κ} (u : Update key) (p : α → Bool) (r : α) : α :=
  if p r then u.set r else r

/-- `UPDATE rows SET u WHERE p`. -/
def updateWhere {key : α → κ} (p : α → Bool) (u : Update key) (rows : List α) : List α :=
  rows.map (u.onRow p)

/-- `SELECT … WHERE key = k`, the first matching row. -/
def lookup [DecidableEq κ] (key : α → κ) (k : κ) (rows : List α) : Option α :=
  rows.find? fun r => key r == k

section Update

variable {key : α → κ} {p : α → Bool} {u : Update key} {rows : List α}

theorem Update.onRow_of_true {r : α} (h : p r = true) : u.onRow p r = u.set r := if_pos h

theorem Update.onRow_of_false {r : α} (h : p r = false) : u.onRow p r = r := by
  simp [Update.onRow, h]

theorem Update.onRow_keeps (r : α) : key (u.onRow p r) = key r := by
  unfold Update.onRow
  split
  · exact u.keeps r
  · rfl

theorem Update.onRow_column {β : Type*} {column : α → β} (h : ∀ r, column (u.set r) = column r)
    (r : α) : column (u.onRow p r) = column r := by
  unfold Update.onRow
  split
  · exact h r
  · rfl

theorem map_updateWhere : (updateWhere p u rows).map key = rows.map key := by
  simp only [updateWhere, List.map_map, Function.comp_def, Update.onRow_keeps]

theorem map_proj_updateWhere (u : Update key) (proj : κ → κ') (rows : List α) :
    (updateWhere p u rows).map (fun r => proj (key r)) = rows.map fun r => proj (key r) := by
  simp only [updateWhere, List.map_map, Function.comp_def, Update.onRow_keeps]

theorem mem_updateWhere {r : α} :
    r ∈ updateWhere p u rows ↔ ∃ r₀ ∈ rows, u.onRow p r₀ = r := by
  simp only [updateWhere, List.mem_map]

theorem mem_updateWhere_of_not {r : α} (hp : ∀ r, p (u.onRow p r) = p r) (h : p r = false) :
    r ∈ updateWhere p u rows ↔ r ∈ rows := by
  rw [mem_updateWhere]
  constructor
  · rintro ⟨r₀, hr₀, rfl⟩
    rw [hp] at h
    rwa [Update.onRow_of_false h]
  · intro hr
    exact ⟨r, hr, Update.onRow_of_false h⟩

theorem updateWhere_of_forall_not (h : ∀ r ∈ rows, p r = false) : updateWhere p u rows = rows := by
  unfold updateWhere
  conv_rhs => rw [← List.map_id rows]
  apply List.map_congr_left
  intro r hr
  simp [Update.onRow_of_false (h r hr)]

theorem filter_updateWhere {q : α → Bool} (h : ∀ r ∈ rows, p r → q r = false ∧ q (u.set r) = false) :
    (updateWhere p u rows).filter q = rows.filter q := by
  unfold updateWhere
  induction rows with
  | nil => rfl
  | cons r rows ih =>
    have hrest := ih fun r' hr' => h r' (List.mem_cons_of_mem r hr')
    rw [List.map_cons, List.filter_cons, List.filter_cons, hrest]
    cases hp : p r with
    | false => rw [Update.onRow_of_false hp]
    | true =>
      obtain ⟨hold, hnew⟩ := h r List.mem_cons_self hp
      rw [Update.onRow_of_true hp, hold, hnew, if_neg Bool.false_ne_true, if_neg Bool.false_ne_true]

/-- Of two updates of the same rows that the later one determines, only the later one counts. -/
theorem updateWhere_updateWhere {v w : Update key} (hp : ∀ r, p (u.set r) = p r)
    (h : ∀ r, v.set (u.set r) = w.set r) :
    updateWhere p v (updateWhere p u rows) = updateWhere p w rows := by
  simp only [updateWhere, List.map_map]
  apply List.map_congr_left
  intro r _
  cases hr : p r with
  | true => simp only [Function.comp_apply, Update.onRow, hr, hp, if_true, h]
  | false => simp only [Function.comp_apply, Update.onRow, hr, Bool.false_eq_true, if_false]

theorem lookup_updateWhere [DecidableEq κ'] (u : Update key) (proj : κ → κ') (k : κ') :
    lookup (fun r => proj (key r)) k (updateWhere p u rows) =
      (lookup (fun r => proj (key r)) k rows).map (u.onRow p) := by
  simp only [lookup, updateWhere, List.find?_map, Function.comp_def, Update.onRow_keeps]

end Update

section Lookup

variable [DecidableEq κ] {key : α → κ} {k : κ} {rows : List α}

theorem lookup_mem {r : α} (h : lookup key k rows = some r) : r ∈ rows :=
  List.mem_of_find?_eq_some h

theorem lookup_key {r : α} (h : lookup key k rows = some r) : key r = k := by
  simpa using List.find?_some h

theorem lookup_of_mem (hkey : (rows.map key).Nodup) {r : α} (hr : r ∈ rows) :
    lookup key (key r) rows = some r := by
  obtain ⟨r', h⟩ : ∃ r', lookup key (key r) rows = some r' := by
    rw [← Option.isSome_iff_exists, lookup, List.find?_isSome]
    exact ⟨r, hr, by simp⟩
  rw [h, List.inj_on_of_nodup_map hkey (lookup_mem h) hr (lookup_key h)]

theorem lookup_eq_none_iff : lookup key k rows = none ↔ k ∉ rows.map key := by
  simp [lookup, List.find?_eq_none]

theorem key_ne_of_lookup_eq_none {r : α} (h : lookup key k rows = none) (hr : r ∈ rows) :
    key r ≠ k := by
  rintro rfl
  exact lookup_eq_none_iff.mp h (List.mem_map_of_mem hr)

theorem lookup_append_of_some {r : α} {more : List α} (h : lookup key k rows = some r) :
    lookup key k (rows ++ more) = some r := by
  simp only [lookup] at h
  simp only [lookup, List.find?_append, h, Option.some_or]

theorem lookup_append_of_none {more : List α} (h : lookup key k rows = none) :
    lookup key k (rows ++ more) = lookup key k more := by
  simp only [lookup] at h
  simp only [lookup, List.find?_append, h, Option.none_or]

theorem lookup_filter {q : α → Bool} (h : ∀ r ∈ rows, key r = k → q r) :
    lookup key k (rows.filter q) = lookup key k rows := by
  simp only [lookup, List.find?_filter]
  apply List.find?_congr
  intro r hr
  by_cases hk : key r = k <;> simp [hk, h r hr]

/-- With unique keys a lookup among some rows finds the row of all rows, if it is one of them. -/
theorem lookup_filter_eq {q : α → Bool} (hkey : (rows.map key).Nodup) :
    lookup key k (rows.filter q) = (lookup key k rows).filter q := by
  cases hfound : lookup key k rows with
  | none =>
    rw [Option.filter_none, lookup_eq_none_iff]
    intro hmem
    obtain ⟨r, hr, rfl⟩ := List.mem_map.mp hmem
    exact key_ne_of_lookup_eq_none hfound (List.mem_of_mem_filter hr) rfl
  | some r =>
    have hmem := lookup_mem hfound
    have hk := lookup_key hfound
    by_cases hq : q r
    · rw [Option.filter_some, if_pos hq, ← hfound]
      refine lookup_filter fun r' hr' hk' => ?_
      rw [List.inj_on_of_nodup_map hkey hr' hmem (hk'.trans hk.symm)]
      exact hq
    · rw [Option.filter_some, if_neg hq, lookup_eq_none_iff]
      intro hmem'
      obtain ⟨r', hr', hk'⟩ := List.mem_map.mp hmem'
      obtain ⟨hr', hq'⟩ := List.mem_filter.mp hr'
      rw [List.inj_on_of_nodup_map hkey hr' hmem (hk'.trans hk.symm)] at hq'
      exact hq hq'

theorem lookup_map {f : α → α} (h : ∀ r, key (f r) = key r) :
    lookup key k (rows.map f) = (lookup key k rows).map f := by
  simp only [lookup, List.find?_map, Function.comp_def, h]

omit [DecidableEq κ] in
theorem nodup_map_append {r : α} (h : (rows.map key).Nodup) (hnew : ∀ r' ∈ rows, key r' ≠ key r) :
    ((rows ++ [r]).map key).Nodup := by
  rw [List.map_append, List.map_singleton]
  refine List.nodup_append.mpr ⟨h, List.nodup_singleton _, ?_⟩
  intro k hk k' hk' heq
  obtain ⟨r', hr', rfl⟩ := List.mem_map.mp hk
  exact hnew r' hr' (heq.trans (List.mem_singleton.mp hk'))

theorem lookup_singleton (r : α) :
    lookup key k [r] = if key r = k then some r else none := by
  simp only [lookup, List.find?_cons, List.find?_nil]
  split <;> simp_all

end Lookup

end Tables
