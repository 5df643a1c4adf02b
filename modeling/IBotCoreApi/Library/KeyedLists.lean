import IBotCoreApi.Library.FirstOccurrences
import Mathlib.Data.List.Forall2

namespace KeyedLists
open FirstOccurrences

variable {κ β : Type*}

/-- Put an entry at the place of the first one that satisfies `p`, or at the end. -/
def put (p : β → Bool) (entry : β) : List β → List β
  | [] => [entry]
  | first :: rest => if p first then entry :: rest else first :: put p entry rest

variable {R R' : κ → β → Prop} {keys : List κ} {entries : List β} {p : β → Bool} {key : κ}

theorem forall₂_mem_left (h : List.Forall₂ R keys entries) {k : κ} (hk : k ∈ keys) :
    ∃ entry ∈ entries, R k entry := by
  induction h with
  | nil => cases hk
  | @cons k' entry keys entries hentry _ ih =>
    rcases List.mem_cons.mp hk with rfl | hk
    · exact ⟨entry, List.mem_cons_self, hentry⟩
    · obtain ⟨found, hfound, hR⟩ := ih hk
      exact ⟨found, List.mem_cons_of_mem entry hfound, hR⟩

theorem forall₂_mem_right (h : List.Forall₂ R keys entries) {entry : β} (hentry : entry ∈ entries) :
    ∃ k ∈ keys, R k entry :=
  forall₂_mem_left h.flip hentry

theorem self_mem_put (p : β → Bool) (entry : β) (entries : List β) : entry ∈ put p entry entries := by
  induction entries with
  | nil => exact List.mem_singleton_self entry
  | cons first rest ih =>
    rw [put]
    split
    · exact List.mem_cons_self
    · exact List.mem_cons_of_mem first ih

theorem mem_of_mem_put {entry other : β} (h : other ∈ put p entry entries) :
    other = entry ∨ other ∈ entries := by
  induction entries with
  | nil => exact .inl (List.mem_singleton.mp h)
  | cons first rest ih =>
    rw [put] at h
    split at h
    · rcases List.mem_cons.mp h with rfl | h
      · exact .inl rfl
      · exact .inr (List.mem_cons_of_mem first h)
    · rcases List.mem_cons.mp h with rfl | h
      · exact .inr List.mem_cons_self
      · exact (ih h).imp_right (List.mem_cons_of_mem first)

/-- Only the first entry that satisfies `p` is replaced. -/
theorem mem_put_of_mem {entry other : β} (h : other ∈ entries) :
    other ∈ put p entry entries ∨ entries.find? p = some other := by
  induction entries with
  | nil => cases h
  | cons first rest ih =>
    rw [put]
    by_cases hfirst : p first
    · rw [if_pos hfirst, List.find?_cons_of_pos hfirst]
      rcases List.mem_cons.mp h with rfl | h
      · exact .inr rfl
      · exact .inl (List.mem_cons_of_mem entry h)
    · rw [if_neg hfirst, List.find?_cons_of_neg hfirst]
      rcases List.mem_cons.mp h with rfl | h
      · exact .inl List.mem_cons_self
      · exact (ih h).imp_left (List.mem_cons_of_mem first)

theorem length_put (p : β → Bool) (entry : β) (entries : List β) :
    (put p entry entries).length =
      entries.length + if entries.find? p = none then 1 else 0 := by
  induction entries with
  | nil => rfl
  | cons first rest ih =>
    rw [put]
    by_cases hfirst : p first
    · simp [hfirst]
    · rw [if_neg hfirst, List.find?_cons_of_neg hfirst, List.length_cons, List.length_cons, ih]
      omega

def Finds (R : κ → β → Prop) (p : β → Bool) (key : κ) : Prop :=
  ∀ k entry, R k entry → (p entry ↔ k = key)

theorem find?_some (h : List.Forall₂ R keys entries) (hp : Finds R p key) {entry : β}
    (hfind : entries.find? p = some entry) : R key entry ∧ key ∈ keys := by
  induction h with
  | nil => cases hfind
  | @cons k first keys entries hfirst _ ih =>
    by_cases hkey : p first
    · rw [List.find?_cons_of_pos hkey] at hfind
      cases hfind
      have hk := (hp k entry hfirst).mp hkey
      exact ⟨hk ▸ hfirst, hk ▸ List.mem_cons_self⟩
    · rw [List.find?_cons_of_neg hkey] at hfind
      obtain ⟨hR, hmem⟩ := ih hfind
      exact ⟨hR, List.mem_cons_of_mem k hmem⟩

theorem find?_none (h : List.Forall₂ R keys entries) (hp : Finds R p key)
    (hfind : entries.find? p = none) : key ∉ keys := by
  intro hmem
  obtain ⟨entry, hentry, hR⟩ := forall₂_mem_left h hmem
  exact List.find?_eq_none.mp hfind entry hentry ((hp key entry hR).mpr rfl)

theorem forall₂_find? {q : κ → Bool} (h : List.Forall₂ R keys entries)
    (hpq : ∀ k entry, R k entry → q k = p entry) :
    Option.Rel R (keys.find? q) (entries.find? p) := by
  induction h with
  | nil => exact .none
  | @cons k first keys entries hfirst _ ih =>
    rw [List.find?_cons, List.find?_cons, hpq k first hfirst]
    cases p first with
    | true => exact .some hfirst
    | false => exact ih

theorem forall₂_put [DecidableEq κ] (h : List.Forall₂ R keys entries) (hkeys : keys.Nodup)
    (hp : Finds R p key) {entry : β} (hentry : R' key entry)
    (hframe : ∀ k other, R k other → k ≠ key → R' k other) :
    List.Forall₂ R' (pushNew keys key) (put p entry entries) := by
  induction h with
  | nil => exact .cons hentry .nil
  | @cons k first keys entries hfirst hrest ih =>
    obtain ⟨hk, hnodup⟩ := List.nodup_cons.mp hkeys
    by_cases hkey : k = key
    · subst hkey
      rw [pushNew_of_mem List.mem_cons_self, put, if_pos ((hp k first hfirst).mpr rfl)]
      -- the keys are distinct, so that the rest has other keys
      have hothers : ∀ k' ∈ keys, k' ≠ k := by
        rintro k' hk' rfl
        exact hk hk'
      have hrest' := (List.forall₂_and_left keys entries).mpr ⟨hothers, hrest⟩
      exact .cons hentry (hrest'.imp fun k' other h => hframe k' other h.2 h.1)
    · have hne : ¬ p first := fun hfound => hkey ((hp k first hfirst).mp hfound)
      have hpush : pushNew (k :: keys) key = k :: pushNew keys key := by
        unfold pushNew
        by_cases hmem : key ∈ keys
        · simp [hmem]
        · simp [hmem, Ne.symm hkey]
      rw [hpush, put, if_neg hne]
      exact .cons (hframe k first hfirst hkey) (ih hnodup)

section Places

variable {α : Type*} [DecidableEq κ] {name : α → κ} {xs ys : List α}

def place (name : α → κ) (xs : List α) (x : α) : ℕ := xs.findIdx fun y => name y == name x

theorem map_place (h : (xs.map name).Nodup) : xs.map (place name xs) = List.range xs.length := by
  apply List.ext_getElem
  · simp
  · intro i hi hi'
    have hlen : i < xs.length := by simpa using hi
    rw [List.getElem_map, List.getElem_range, place, List.findIdx_eq hlen]
    refine ⟨by simp, fun j hj => ?_⟩
    have hkeys : i < (xs.map name).length := by simpa using hlen
    have hkeys' : j < (xs.map name).length := by omega
    have hne : (xs.map name)[j] ≠ (xs.map name)[i] := by
      intro heq
      have hsame := h.getElem_inj_iff.mp heq
      omega
    simpa using hne

/-- In any order, the places in a permutation of the list are all places. -/
theorem map_place_perm (h : (xs.map name).Nodup) (hperm : ys.Perm xs) :
    (xs.map (place name ys)).Perm (List.range xs.length) := by
  have hnodup : (ys.map name).Nodup := (hperm.map name).nodup_iff.mpr h
  have hplaces := hperm.symm.map (place name ys)
  rw [map_place hnodup, hperm.length_eq] at hplaces
  exact hplaces

theorem place_lt_length {x : α} (hx : x ∈ xs) : place name xs x < xs.length :=
  List.findIdx_lt_length_of_exists ⟨x, hx, beq_self_eq_true _⟩

theorem getElem?_place (h : (xs.map name).Nodup) {x : α} (hx : x ∈ xs) :
    xs[place name xs x]? = some x := by
  have hlt : place name xs x < xs.length := place_lt_length hx
  have hkey : name xs[place name xs x] = name x := by
    have hfound := List.findIdx_getElem (w := hlt)
    exact beq_iff_eq.mp hfound
  rw [List.getElem?_eq_getElem hlt]
  exact congrArg some (List.inj_on_of_nodup_map h (List.getElem_mem hlt) hx hkey)

theorem place_lt_of_not {r : α → α → Prop} (hsorted : xs.Pairwise r) (h : (xs.map name).Nodup)
    {x y : α} (hx : x ∈ xs) (hy : y ∈ xs) (hne : x ≠ y) (hnot : ¬ r y x) :
    place name xs x < place name xs y := by
  have hat := getElem?_place h hx
  have hat' := getElem?_place h hy
  by_contra hle
  rcases Nat.lt_or_eq_of_le (Nat.le_of_not_lt hle) with hlt | heq
  · obtain ⟨hlt', hget⟩ := List.getElem?_eq_some_iff.mp hat
    obtain ⟨hlt'', hget'⟩ := List.getElem?_eq_some_iff.mp hat'
    have hr := List.pairwise_iff_getElem.mp hsorted _ _ hlt'' hlt' hlt
    rw [hget, hget'] at hr
    exact hnot hr
  · rw [heq, hat] at hat'
    exact hne (Option.some.inj hat')

end Places

section Replacement

variable {α : Type*} {key : α → κ} {xs : List α} {i : ℕ} {x x' : α}

theorem map_set_of_key (hx : xs[i]? = some x) (hkey : key x' = key x) :
    (xs.set i x').map key = xs.map key := by
  obtain ⟨hlt, rfl⟩ := List.getElem?_eq_some_iff.mp hx
  rw [List.map_set, hkey, ← List.getElem_map key (h := by rwa [List.length_map]),
    List.set_getElem_self]

theorem mem_set_of_nodup (h : (xs.map key).Nodup) (hx : xs[i]? = some x) {y : α}
    (hy : y ∈ xs.set i x') : y = x' ∨ y ∈ xs ∧ key y ≠ key x := by
  obtain ⟨j, hj⟩ := List.mem_iff_getElem?.mp hy
  rw [List.getElem?_set] at hj
  split_ifs at hj with hij
  · exact .inl (Option.some.inj hj).symm
  · refine .inr ⟨List.mem_of_getElem? hj, fun hkey => hij ?_⟩
    have hlt : i < (xs.map key).length := by
      rw [List.length_map]
      exact (List.getElem?_eq_some_iff.mp hx).1
    refine (List.getElem?_inj hlt h).mp ?_
    rw [List.getElem?_map, List.getElem?_map, hx, hj, Option.map_some, Option.map_some, hkey]

end Replacement

theorem map_filterMap_sublist {α : Type*} {key : α → κ} {key' : β → κ} {f : α → Option β}
    (h : ∀ a b, f a = some b → key' b = key a) (xs : List α) :
    ((xs.filterMap f).map key').Sublist (xs.map key) := by
  induction xs with
  | nil => exact List.Sublist.refl _
  | cons x xs ih =>
    cases hx : f x with
    | none =>
      rw [List.filterMap_cons_none hx]
      exact ih.cons _
    | some y =>
      rw [List.filterMap_cons_some hx, List.map_cons, List.map_cons, h x y hx]
      exact ih.cons_cons _

end KeyedLists
