import IBotCoreApi.Library.Sorting
import Mathlib.Algebra.BigOperators.Group.List.Basic
import Mathlib.Algebra.Order.BigOperators.Group.List
import Mathlib.Algebra.Order.Floor.Ring
import Mathlib.Data.Rat.Floor
import Mathlib.Data.List.GetD
import Mathlib.Data.List.Nodup
import Mathlib.Data.Prod.Lex

namespace Apportion
open Sorting

/-- `for index in chosen: xs[index] += 1`. -/
def bump (chosen : List ℕ) (xs : List ℤ) : List ℤ :=
  chosen.foldl (fun xs index => xs.modify index (· + 1)) xs

variable {chosen : List ℕ} {xs : List ℤ}

@[simp] theorem bump_cons (index : ℕ) (chosen : List ℕ) (xs : List ℤ) :
    bump (index :: chosen) xs = bump chosen (xs.modify index (· + 1)) := rfl

@[simp] theorem length_bump : (bump chosen xs).length = xs.length := by
  induction chosen generalizing xs with
  | nil => rfl
  | cons index chosen ih => rw [bump_cons, ih, List.length_modify]

theorem getElem?_bump (chosen : List ℕ) (xs : List ℤ) (i : ℕ) :
    (bump chosen xs)[i]? = xs[i]?.map (· + (chosen.count i : ℤ)) := by
  induction chosen generalizing xs with
  | nil => simp [bump]
  | cons index chosen ih =>
    rw [bump_cons, ih, List.getElem?_modify, List.count_cons]
    by_cases hindex : index = i
    · subst hindex
      cases xs[index]? <;> simp [add_comm, add_left_comm]
    · cases xs[i]? <;> simp [hindex]

theorem getElem_bump {i : ℕ} (h : i < (bump chosen xs).length) (hlt : i < xs.length) :
    (bump chosen xs)[i] = xs[i] + (chosen.count i : ℤ) := by
  have hbump := getElem?_bump chosen xs i
  rw [List.getElem?_eq_getElem h, List.getElem?_eq_getElem hlt] at hbump
  exact Option.some.inj hbump

theorem le_of_mem_bump {x : ℤ} (h : x ∈ bump chosen xs) : ∃ y ∈ xs, y ≤ x := by
  obtain ⟨i, hi, rfl⟩ := List.mem_iff_getElem.mp h
  have hlt : i < xs.length := by simpa using hi
  refine ⟨_, List.getElem_mem hlt, ?_⟩
  rw [getElem_bump hi hlt]
  omega

theorem sum_modify {i : ℕ} (h : i < xs.length) : (xs.modify i (· + 1)).sum = xs.sum + 1 := by
  induction xs generalizing i with
  | nil => cases h
  | cons x xs ih =>
    cases i with
    | zero => simp [add_right_comm]
    | succ i =>
      rw [List.modify_succ_cons, List.sum_cons, List.sum_cons, ih (by simpa using h), add_assoc]

theorem sum_bump (hlt : ∀ i ∈ chosen, i < xs.length) :
    (bump chosen xs).sum = xs.sum + chosen.length := by
  induction chosen generalizing xs with
  | nil => simp [bump]
  | cons index chosen ih =>
    rw [bump_cons, ih (by simpa using fun i hi => hlt i (List.mem_cons_of_mem index hi)),
      sum_modify (hlt index List.mem_cons_self), List.length_cons]
    push_cast
    ring

/-- A falling list still falls after a bump that prefers, of two equal entries, the first. -/
theorem bump_pairwise (hxs : xs.Pairwise fun a b => b ≤ a) (hchosen : chosen.Nodup)
    (hties : ∀ i j, i < j → j < xs.length → xs[i]? = xs[j]? → j ∈ chosen → i ∈ chosen) :
    (bump chosen xs).Pairwise fun a b => b ≤ a := by
  rw [List.pairwise_iff_getElem]
  intro i j hi hj hij
  have hi' : i < xs.length := by simpa using hi
  have hj' : j < xs.length := by simpa using hj
  have hle : xs[j] ≤ xs[i] := List.pairwise_iff_getElem.mp hxs i j hi' hj' hij
  have honce (k : ℕ) : chosen.count k ≤ 1 := List.nodup_iff_count_le_one.mp hchosen k
  rw [getElem_bump hi hi', getElem_bump hj hj']
  rcases hle.lt_or_eq with hlt | heq
  · have := honce j
    omega
  · by_cases hmem : j ∈ chosen
    · have hfirst : i ∈ chosen := by
        apply hties i j hij hj' _ hmem
        rw [List.getElem?_eq_getElem hi', List.getElem?_eq_getElem hj', heq]
      have hcount := List.count_pos_iff.mpr hfirst
      have := honce j
      omega
    · rw [List.count_eq_zero_of_not_mem hmem]
      omega

theorem sum_floor_le (quotas : List ℚ) : ((quotas.map Int.floor).sum : ℚ) ≤ quotas.sum := by
  induction quotas with
  | nil => simp
  | cons q quotas ih =>
    simp only [List.map_cons, List.sum_cons, Int.cast_add]
    exact add_le_add (Int.floor_le q) ih

theorem sum_le_sum_floor_add (quotas : List ℚ) :
    quotas.sum ≤ (quotas.map Int.floor).sum + quotas.length := by
  induction quotas with
  | nil => simp
  | cons q quotas ih =>
    simp only [List.map_cons, List.sum_cons, Int.cast_add, List.length_cons, Nat.cast_add,
      Nat.cast_one]
    have hq := (Int.lt_floor_add_one q).le
    linarith

section LargestRemainder

variable {κ : Type*} [LinearOrder κ] {units : ℤ} {quotas : List ℚ} {tie : ℕ → κ}

/-- The positions of the quotas, the largest fraction first, equal fractions by a second key. -/
def remainderOrder (quotas : List ℚ) (tie : ℕ → κ) : List ℕ :=
  sortedDown (fun i => toLex (Int.fract (quotas.getD i 0), tie i)) (List.range quotas.length)

def largestRemainder (units : ℤ) (quotas : List ℚ) (tie : ℕ → κ) : List ℤ :=
  let floors := quotas.map Int.floor
  bump ((remainderOrder quotas tie).take (units - floors.sum).toNat) floors

@[simp] theorem length_largestRemainder :
    (largestRemainder units quotas tie).length = quotas.length := by
  simp [largestRemainder]

theorem pair_sublist_range {i j n : ℕ} (hij : i < j) (hj : j < n) :
    List.Sublist [i, j] (List.range n) := by
  have hfront : List.Sublist ([i] ++ [j]) (List.range j ++ [j]) :=
    (List.singleton_sublist.mpr (List.mem_range.mpr hij)).append (List.Sublist.refl _)
  rw [← List.range_succ] at hfront
  exact hfront.trans (List.range_sublist.mpr hj)

theorem mem_remainderOrder {i : ℕ} : i ∈ remainderOrder quotas tie ↔ i < quotas.length := by
  rw [remainderOrder, mem_sortedDown, List.mem_range]

theorem remainderOrder_nodup (quotas : List ℚ) (tie : ℕ → κ) :
    (remainderOrder quotas tie).Nodup :=
  (sortedDown_perm _ _).nodup_iff.mpr List.nodup_range

theorem floor_le_of_mem_largestRemainder {x : ℤ} (h : x ∈ largestRemainder units quotas tie) :
    ∃ q ∈ quotas, ⌊q⌋ ≤ x := by
  obtain ⟨floor, hfloor, hle⟩ := le_of_mem_bump h
  obtain ⟨q, hq, rfl⟩ := List.mem_map.mp hfloor
  exact ⟨q, hq, hle⟩

theorem sum_largestRemainder (h : quotas.sum = units) :
    (largestRemainder units quotas tie).sum = units := by
  have hlow : (quotas.map Int.floor).sum ≤ units := by
    exact_mod_cast h ▸ sum_floor_le quotas
  have hhigh : units ≤ (quotas.map Int.floor).sum + quotas.length := by
    exact_mod_cast h ▸ sum_le_sum_floor_add quotas
  have hlength : (remainderOrder quotas tie).length = quotas.length := by
    rw [remainderOrder, length_sortedDown, List.length_range]
  unfold largestRemainder
  rw [sum_bump, List.length_take, hlength]
  · omega
  · intro i hi
    rw [List.length_map]
    exact mem_remainderOrder.mp (List.mem_of_mem_take hi)

/-- Falling quotas with falling second keys get falling shares. -/
theorem largestRemainder_pairwise (hquotas : quotas.Pairwise fun a b => b ≤ a)
    (htie : ∀ i j, i < j → j < quotas.length → tie j ≤ tie i) :
    (largestRemainder units quotas tie).Pairwise fun a b => b ≤ a := by
  apply bump_pairwise
  · exact List.pairwise_map.mpr (hquotas.imp fun h => Int.floor_le_floor h)
  · exact (remainderOrder_nodup _ _).sublist (List.take_sublist _ _)
  · intro i j hij hj hfloors hchosen
    rw [List.length_map] at hj
    have hi : i < quotas.length := hij.trans hj
    apply mem_take_of_sublist (remainderOrder_nodup _ _) _ hchosen
    apply pair_sublist_sortedDown (pair_sublist_range hij hj)
    -- equal whole parts, so the fractions fall as the quotas do
    have hquota : quotas[j] ≤ quotas[i] := List.pairwise_iff_getElem.mp hquotas i j hi hj hij
    have hfloor : ⌊quotas[i]⌋ = ⌊quotas[j]⌋ := by
      simpa [List.getElem?_map, List.getElem?_eq_getElem hi, List.getElem?_eq_getElem hj]
        using hfloors
    rw [Prod.Lex.toLex_le_toLex, List.getD_eq_getElem _ _ hi, List.getD_eq_getElem _ _ hj,
      Int.fract, Int.fract, hfloor]
    rcases hquota.lt_or_eq with hlt | heq
    · exact .inl (sub_lt_sub_right hlt _)
    · exact .inr ⟨by rw [heq], htie i j hij hj⟩

def chosenPositions (units : ℤ) (quotas : List ℚ) (tie : ℕ → κ) : List ℕ :=
  (remainderOrder quotas tie).take (units - (quotas.map Int.floor).sum).toNat

theorem count_chosenPositions_le_one (units : ℤ) (quotas : List ℚ) (tie : ℕ → κ) (i : ℕ) :
    (chosenPositions units quotas tie).count i ≤ 1 :=
  List.nodup_iff_count_le_one.mp ((remainderOrder_nodup _ _).sublist (List.take_sublist _ _)) i

theorem getElem?_largestRemainder (i : ℕ) : (largestRemainder units quotas tie)[i]? =
    quotas[i]?.map fun q => ⌊q⌋ + ((chosenPositions units quotas tie).count i : ℤ) := by
  unfold largestRemainder
  rw [getElem?_bump, List.getElem?_map, Option.map_map]
  rfl

/-- A chosen position has no smaller fraction than one that is not. -/
theorem fract_le_of_chosen {i j : ℕ} (hi : i ∈ chosenPositions units quotas tie)
    (hj : j < quotas.length) (hnot : j ∉ chosenPositions units quotas tie) :
    Int.fract (quotas.getD j 0) ≤ Int.fract (quotas.getD i 0) := by
  have hdrop : j ∈ (remainderOrder quotas tie).drop (units - (quotas.map Int.floor).sum).toNat := by
    have hmem : j ∈ remainderOrder quotas tie := mem_remainderOrder.mpr hj
    rw [← List.take_append_drop (units - (quotas.map Int.floor).sum).toNat
      (remainderOrder quotas tie)] at hmem
    exact (List.mem_append.mp hmem).resolve_left hnot
  have hkey := le_of_mem_take_of_mem_drop hi hdrop
  rw [Prod.Lex.toLex_le_toLex] at hkey
  rcases hkey with hlt | ⟨heq, _⟩
  · exact hlt.le
  · exact heq.le

theorem sum_fract_map (quotas : List ℚ) :
    (quotas.map Int.fract).sum = quotas.sum - (quotas.map Int.floor).sum := by
  induction quotas with
  | nil => simp
  | cons q quotas ih =>
    rw [List.map_cons, List.map_cons, List.sum_cons, List.sum_cons, List.sum_cons, ih, Int.fract]
    push_cast
    ring

theorem sum_fract_remainderOrder (quotas : List ℚ) (tie : ℕ → κ) :
    ((remainderOrder quotas tie).map fun i => Int.fract (quotas.getD i 0)).sum =
      quotas.sum - (quotas.map Int.floor).sum := by
  have hrange : (List.range quotas.length).map (fun i => Int.fract (quotas.getD i 0)) =
      quotas.map Int.fract := by
    apply List.ext_getElem
    · simp
    · intro i hi hi'
      rw [List.length_map] at hi'
      rw [List.getElem_map, List.getElem_map, List.getElem_range, List.getD_eq_getElem _ _ hi']
  rw [remainderOrder, ((sortedDown_perm _ _).map _).sum_eq, hrange, sum_fract_map]

theorem fract_pos_of_chosen (h : quotas.sum = units) {i : ℕ}
    (hi : i ∈ chosenPositions units quotas tie) : 0 < Int.fract (quotas.getD i 0) := by
  by_contra hzero
  have hfract : Int.fract (quotas.getD i 0) = 0 := (Int.fract_nonneg _).antisymm' (not_lt.mp hzero)
  set fraction := fun i => Int.fract (quotas.getD i 0) with hfraction
  set remainder := (units - (quotas.map Int.floor).sum).toNat with hremainder
  -- the positions that are left over have no fraction either
  have hrest : (((remainderOrder quotas tie).drop remainder).map fraction).sum = 0 := by
    apply List.sum_eq_zero
    intro x hx
    obtain ⟨j, hj, rfl⟩ := List.mem_map.mp hx
    have hj' : j < quotas.length := mem_remainderOrder.mp (List.mem_of_mem_drop hj)
    have hnodup := remainderOrder_nodup quotas tie
    rw [← List.take_append_drop remainder (remainderOrder quotas tie)] at hnodup
    have hnot : j ∉ chosenPositions units quotas tie := fun hmem =>
      List.disjoint_of_nodup_append hnodup hmem hj
    have hle := fract_le_of_chosen hi hj' hnot
    rw [hfract] at hle
    exact (Int.fract_nonneg _).antisymm' hle
  -- and the chosen ones sum up to less than one for each of them
  have hchosen : ((chosenPositions units quotas tie).map fraction).sum ≤ remainder - 1 := by
    have hperm := List.perm_cons_erase hi
    have hlength : ((chosenPositions units quotas tie).erase i).length + 1 ≤ remainder := by
      rw [← List.length_cons, ← hperm.length_eq]
      exact List.length_take_le _ _
    have hle : (((chosenPositions units quotas tie).erase i).map fraction).sum ≤
        ((chosenPositions units quotas tie).erase i).length := by
      have hcard := List.sum_le_card_nsmul
        (((chosenPositions units quotas tie).erase i).map fraction) 1 fun x hx => by
          obtain ⟨j, _, rfl⟩ := List.mem_map.mp hx
          exact (Int.fract_lt_one _).le
      simpa using hcard
    have hcast : (((chosenPositions units quotas tie).erase i).length : ℚ) + 1 ≤ remainder := by
      exact_mod_cast hlength
    rw [(hperm.map fraction).sum_eq, List.map_cons, List.sum_cons, hfraction]
    simp only [hfract, zero_add]
    linarith
  have hsum := sum_fract_remainderOrder quotas tie
  rw [← List.take_append_drop remainder (remainderOrder quotas tie), List.map_append,
    List.sum_append, hrest, add_zero, h] at hsum
  have hunits : ((remainder : ℕ) : ℚ) = units - (quotas.map Int.floor).sum := by
    have hlow : (quotas.map Int.floor).sum ≤ units := by exact_mod_cast h ▸ sum_floor_le quotas
    have hnonneg : ((remainder : ℕ) : ℤ) = units - (quotas.map Int.floor).sum :=
      Int.toNat_of_nonneg (sub_nonneg.mpr hlow)
    exact_mod_cast hnonneg
  have hless : ((chosenPositions units quotas tie).map fraction).sum = remainder := hunits ▸ hsum
  linarith

/-- Quotas that sum up to whole units get less than one unit more or less than they are. -/
theorem abs_largestRemainder_sub_lt (h : quotas.sum = units) {i : ℕ} {share : ℤ} {q : ℚ}
    (hshare : (largestRemainder units quotas tie)[i]? = some share) (hq : quotas[i]? = some q) :
    |(share : ℚ) - q| < 1 := by
  rw [getElem?_largestRemainder, hq, Option.map_some, Option.some.injEq] at hshare
  subst hshare
  have hquota : quotas.getD i 0 = q := by rw [List.getD_eq_getElem?_getD, hq, Option.getD_some]
  have hfloor := Int.floor_add_fract q
  have hnonneg := Int.fract_nonneg q
  have hlt := Int.fract_lt_one q
  by_cases hi : i ∈ chosenPositions units quotas tie
  · have hone : (chosenPositions units quotas tie).count i = 1 :=
      le_antisymm (count_chosenPositions_le_one _ _ _ i) (List.count_pos_iff.mpr hi)
    have hpos : 0 < Int.fract q := hquota ▸ fract_pos_of_chosen h hi
    rw [hone, abs_lt]
    push_cast
    constructor <;> linarith
  · rw [List.count_eq_zero_of_not_mem hi, abs_lt]
    push_cast
    constructor <;> linarith

theorem largestRemainder_le_of_lt {i j : ℕ} {share share' : ℤ} {q q' : ℚ}
    (hshare : (largestRemainder units quotas tie)[i]? = some share)
    (hshare' : (largestRemainder units quotas tie)[j]? = some share')
    (hq : quotas[i]? = some q) (hq' : quotas[j]? = some q') (hlt : q' < q) : share' ≤ share := by
  rw [getElem?_largestRemainder, hq, Option.map_some, Option.some.injEq] at hshare
  rw [getElem?_largestRemainder, hq', Option.map_some, Option.some.injEq] at hshare'
  subst hshare hshare'
  have hfloor : ⌊q'⌋ ≤ ⌊q⌋ := Int.floor_le_floor hlt.le
  have honce := count_chosenPositions_le_one units quotas tie j
  by_cases hj : j ∈ chosenPositions units quotas tie
  · rcases hfloor.lt_or_eq with hless | heq
    · omega
    · -- equal whole parts, so the greater quota has the greater fraction
      have hi : i ∈ chosenPositions units quotas tie := by
        by_contra hnot
        have hle := fract_le_of_chosen hj (List.getElem?_eq_some_iff.mp hq).1 hnot
        rw [List.getD_eq_getElem?_getD, hq, Option.getD_some, List.getD_eq_getElem?_getD, hq',
          Option.getD_some, Int.fract, Int.fract, heq] at hle
        linarith
      have hcount := List.count_pos_iff.mpr hi
      omega
  · rw [List.count_eq_zero_of_not_mem hj]
    omega

end LargestRemainder

end Apportion
