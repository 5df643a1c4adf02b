import IBotCoreApi.PlanTiming
import Mathlib.Algebra.BigOperators.Ring.List

namespace IBotCoreApi
open Python Sorting Apportion

section Numbers

theorem pyInt_of_nonneg {q : ℚ} (h : 0 ≤ q) : pyInt q = ⌊q⌋ := by
  have hnum : 0 ≤ q.num := Rat.num_nonneg.mpr h
  rw [pyInt, Int.tdiv_eq_ediv_of_nonneg hnum, Rat.floor_def']

theorem pyRound_intCast (n : ℤ) : pyRound n = n := by
  have hfract : Int.fract (n : ℚ) < 1 / 2 := by
    rw [Int.fract_intCast]
    norm_num
  rw [pyRound, if_pos hfract, Int.floor_intCast]

end Numbers

/-- Whole units for `count` entries: none is lost, none is negative, and the first get the most. -/
structure FallingShares (units : ℤ) (count : ℕ) (shares : List ℤ) : Prop where
  length : shares.length = count
  sum : shares.sum = units
  nonneg : ∀ share ∈ shares, 0 ≤ share
  falling : shares.Pairwise fun a b => b ≤ a

variable {extraUnits : ℤ} {skillCount : ℕ} {weights : List ℚ}

theorem distributeEvenly_shares (hextra : 0 ≤ extraUnits) (hcount : 0 < skillCount) :
    FallingShares extraUnits skillCount (distributeEvenly extraUnits skillCount) := by
  have hmod := Int.emod_lt_of_pos extraUnits (Int.natCast_pos.mpr hcount)
  have hmod' := Int.emod_nonneg extraUnits (Int.natCast_pos.mpr hcount).ne'
  refine ⟨by simp [distributeEvenly], ?_, ?_, ?_⟩
  · unfold distributeEvenly
    rw [sum_bump, List.sum_replicate, List.length_range, nsmul_eq_mul, Int.toNat_of_nonneg hmod',
      Int.mul_ediv_add_emod]
    intro i hi
    rw [List.mem_range] at hi
    rw [List.length_replicate]
    omega
  · intro share hshare
    obtain ⟨even, heven, hle⟩ := le_of_mem_bump hshare
    rw [List.eq_of_mem_replicate heven] at hle
    exact (Int.ediv_nonneg hextra (Int.natCast_nonneg skillCount)).trans hle
  · apply bump_pairwise _ List.nodup_range
    · intro i j hij _ _ hj
      rw [List.mem_range] at hj ⊢
      exact hij.trans hj
    · exact List.pairwise_replicate.mpr (.inr le_rfl)

section ByWeight

variable {boosted : List ℚ}

theorem sum_scaled (hsum : boosted.sum ≠ 0) :
    (boosted.map fun weight => extraUnits * weight / boosted.sum).sum = extraUnits := by
  have hmap : (boosted.map fun weight => extraUnits * weight / boosted.sum) =
      boosted.map fun weight => (extraUnits / boosted.sum) * weight := by
    apply List.map_congr_left
    intro weight _
    ring
  rw [hmap, List.sum_map_mul_left, List.map_id']
  exact div_mul_cancel₀ _ hsum

/-- Truncating the quotas is the largest-remainder method. -/
theorem distributeByWeight_eq (hextra : 0 ≤ extraUnits) (hboosted : ∀ weight ∈ boosted, 0 ≤ weight) :
    distributeByWeight extraUnits boosted =
      largestRemainder extraUnits
        (boosted.map fun weight => extraUnits * weight / boosted.sum) (boosted.getD · 0) := by
  set scaled := boosted.map fun weight => extraUnits * weight / boosted.sum with hscaled
  have hnonneg : ∀ quota ∈ scaled, 0 ≤ quota := by
    intro quota hquota
    obtain ⟨weight, hweight, rfl⟩ := List.mem_map.mp hquota
    have := hboosted weight hweight
    have := List.sum_nonneg hboosted
    positivity
  have hfloors : scaled.map pyInt = scaled.map Int.floor :=
    List.map_congr_left fun quota hquota => pyInt_of_nonneg (hnonneg quota hquota)
  have hfraction (index : ℕ) : scaled.getD index 0 - ((scaled.map Int.floor).getD index 0 : ℤ) =
      Int.fract (scaled.getD index 0) := by
    have hfloor : (scaled.map Int.floor).getD index ⌊(0 : ℚ)⌋ = ⌊scaled.getD index 0⌋ :=
      List.getD_map _ _ _
    rw [Int.floor_zero] at hfloor
    rw [hfloor, Int.self_sub_floor]
  have hlength : boosted.length = scaled.length := by simp [scaled]
  simp only [distributeByWeight, largestRemainder, remainderOrder, ← hscaled, hfloors, hfraction,
    hlength]

theorem distributeByWeight_shares (hextra : 0 ≤ extraUnits)
    (hboosted : ∀ weight ∈ boosted, 0 ≤ weight) (hsum : 0 < boosted.sum)
    (hfalling : boosted.Pairwise fun a b => b ≤ a) :
    FallingShares extraUnits boosted.length (distributeByWeight extraUnits boosted) := by
  rw [distributeByWeight_eq hextra hboosted]
  refine ⟨by simp, sum_largestRemainder (sum_scaled hsum.ne'), ?_, ?_⟩
  · intro share hshare
    obtain ⟨quota, hquota, hle⟩ := floor_le_of_mem_largestRemainder hshare
    obtain ⟨weight, hweight, rfl⟩ := List.mem_map.mp hquota
    have := hboosted weight hweight
    exact (Int.floor_nonneg.mpr (by positivity)).trans hle
  · apply largestRemainder_pairwise
    · rw [List.pairwise_map]
      refine hfalling.imp fun {a b} hle => ?_
      gcongr
    · intro i j hij hj
      rw [List.length_map] at hj
      rw [List.getD_eq_getElem _ _ hj, List.getD_eq_getElem _ _ (hij.trans hj)]
      exact List.pairwise_iff_getElem.mp hfalling i j _ hj hij

end ByWeight

section Boosted

def boostedWeights (weights : List ℚ) : List ℚ := weights.map fun weight => max weight 0 ^ 2

theorem boostedWeights_nonneg : ∀ weight ∈ boostedWeights weights, 0 ≤ weight := by
  intro weight hweight
  obtain ⟨_, _, rfl⟩ := List.mem_map.mp hweight
  positivity

theorem boostedWeights_falling (h : weights.Pairwise fun a b => b ≤ a) :
    (boostedWeights weights).Pairwise fun a b => b ≤ a := by
  refine List.pairwise_map.mpr (h.imp fun {a b} hle => ?_)
  gcongr

end Boosted

/-- Minutes in whole units for `count` sections: they sum up to the budget, each of them gets at
least the minimum, and they fall. -/
structure UnitAllocation (totalUnits minUnits : ℤ) (count : ℕ) (units : List ℤ) : Prop where
  length : units.length = count
  sum : units.sum = totalUnits
  minimum : ∀ u ∈ units, minUnits ≤ u
  falling : units.Pairwise fun a b => b ≤ a

theorem FallingShares.allocation {totalUnits minUnits : ℤ} {shares : List ℤ}
    (h : FallingShares (totalUnits - minUnits * skillCount) skillCount shares) :
    UnitAllocation totalUnits minUnits skillCount (shares.map (minUnits + ·)) where
  length := by rw [List.length_map, h.length]
  sum := by
    rw [List.sum_map_add, List.map_const', List.sum_replicate, List.map_id', h.sum, h.length,
      nsmul_eq_mul]
    ring
  minimum := by
    intro u hu
    obtain ⟨share, hshare, rfl⟩ := List.mem_map.mp hu
    exact le_add_of_nonneg_right (h.nonneg share hshare)
  falling := List.pairwise_map.mpr (h.falling.imp fun hle => by gcongr)

/-- Where the budget holds the minimum depth of every section, the allocator splits the rest. -/
theorem allocateMinutesByWeight_units {totalUnits minUnits : ℤ} (hweights : weights ≠ [])
    (hfalling : weights.Pairwise fun a b => b ≤ a) (hmin : 1 ≤ minUnits)
    (hbudget : minUnits * weights.length ≤ totalUnits) :
    ∃ units, allocateMinutesByWeight (totalUnits / 10) weights (minUnits / 10) =
        units.map (fun u : ℤ => (u : ℚ) / 10) ∧
      UnitAllocation totalUnits minUnits weights.length units := by
  have hlength : weights.length ≠ 0 := by simpa using hweights
  have htotal : pyRound ((totalUnits : ℚ) / 10 * 10) = totalUnits := by
    rw [div_mul_cancel₀ _ (by norm_num), pyRound_intCast]
  have hminimum : max 1 (pyRound ((minUnits : ℚ) / 10 * 10)) = minUnits := by
    rw [div_mul_cancel₀ _ (by norm_num), pyRound_intCast, max_eq_right hmin]
  have hextra : 0 ≤ totalUnits - minUnits * weights.length := by omega
  set shares := if (boostedWeights weights).sum ≤ 0
    then distributeEvenly (totalUnits - minUnits * weights.length) weights.length
    else distributeByWeight (totalUnits - minUnits * weights.length) (boostedWeights weights)
    with hshares
  have hfair : FallingShares (totalUnits - minUnits * weights.length) weights.length shares := by
    rw [hshares]
    split
    · exact distributeEvenly_shares hextra (Nat.pos_of_ne_zero hlength)
    · next hpos =>
      have hfair := distributeByWeight_shares hextra boostedWeights_nonneg (not_le.mp hpos)
        (boostedWeights_falling hfalling)
      rwa [boostedWeights, List.length_map] at hfair
  refine ⟨shares.map (minUnits + ·), ?_, hfair.allocation⟩
  rw [List.map_map]
  simp only [allocateMinutesByWeight, hlength, if_false, htotal, hminimum, not_lt.mpr hbudget]
  rfl

section Caps

variable {d : ℤ}

theorem technicalMinutes_pos (hd : 2 ≤ d) : 0 < technicalMinutes d := by
  have hunits : 0 < technicalUnits d := by
    unfold technicalUnits
    omega
  unfold technicalMinutes
  positivity

theorem minMinutesPerSkill_units (hd : 2 ≤ d) : ∃ minUnits : ℤ,
    minMinutesPerSkill d (technicalMinutes d) = minUnits / 10 ∧ 1 ≤ minUnits ∧
      minUnits ≤ technicalUnits d := by
  unfold minMinutesPerSkill technicalUnits
  rw [if_neg (technicalMinutes_pos hd).not_ge]
  split_ifs
  · exact ⟨15, by norm_num, by omega, by omega⟩
  · exact ⟨20, by norm_num, by omega, by omega⟩
  · exact ⟨20, by norm_num, by omega, by omega⟩
  · exact ⟨25, by norm_num, by omega, by omega⟩
  · exact ⟨30, by norm_num, by omega, by omega⟩

theorem targetSkillCount_pos (hd : 2 ≤ d) : 0 < targetSkillCount d (technicalMinutes d) := by
  unfold targetSkillCount
  rw [if_neg (technicalMinutes_pos hd).not_ge]
  exact Nat.lt_of_lt_of_le Nat.one_pos (le_max_left _ _)

/-- The number of skills leaves the minimum depth to each of them. -/
theorem minUnits_mul_targetSkillCount_le {minUnits : ℤ} (hd : 2 ≤ d)
    (hminimum : minMinutesPerSkill d (technicalMinutes d) = minUnits / 10) (hmin : 1 ≤ minUnits)
    (hfits : minUnits ≤ technicalUnits d) :
    minUnits * targetSkillCount d (technicalMinutes d) ≤ technicalUnits d := by
  have hcap : targetSkillCount d (technicalMinutes d) ≤
      max 1 ⌊technicalMinutes d / (minUnits / 10)⌋.toNat := by
    unfold targetSkillCount
    rw [if_neg (technicalMinutes_pos hd).not_ge, hminimum]
    exact max_le (le_max_left _ _) (min_le_left _ _)
  have hpos : (0 : ℚ) < minUnits / 10 := by positivity
  rcases le_max_iff.mp hcap with hone | hfloor
  · have hcount : targetSkillCount d (technicalMinutes d) = 1 :=
      le_antisymm hone (targetSkillCount_pos hd)
    rw [hcount, Nat.cast_one, mul_one]
    exact hfits
  · have hnonneg : 0 ≤ ⌊technicalMinutes d / (minUnits / 10)⌋ :=
      Int.floor_nonneg.mpr (div_nonneg (technicalMinutes_pos hd).le hpos.le)
    have hquotient := Int.le_floor.mp ((Int.le_toNat hnonneg).mp hfloor)
    rw [Int.cast_natCast, le_div_iff₀ hpos, technicalMinutes] at hquotient
    have hunits : (minUnits : ℚ) * targetSkillCount d (technicalMinutes d) ≤ technicalUnits d := by
      unfold technicalMinutes
      linarith
    exact_mod_cast hunits

end Caps

section EvenShares

theorem getElem?_distributeEvenly (hcount : 0 < skillCount) (i : ℕ) :
    (distributeEvenly extraUnits skillCount)[i]? = (List.range skillCount)[i]?.map fun index : ℕ =>
      extraUnits / skillCount + if (index : ℤ) < extraUnits % skillCount then 1 else 0 := by
  have hmod := Int.emod_nonneg extraUnits (Int.natCast_pos.mpr hcount).ne'
  unfold distributeEvenly
  rw [getElem?_bump]
  by_cases hi : i < skillCount
  · have hchosen : i ∈ List.range (extraUnits % skillCount).toNat ↔
        (i : ℤ) < extraUnits % skillCount := by
      rw [List.mem_range]
      omega
    rw [List.getElem?_replicate_of_lt hi, List.getElem?_range hi, Option.map_some, Option.map_some,
      List.nodup_range.count]
    by_cases hsmall : (i : ℤ) < extraUnits % skillCount
    · rw [if_pos (hchosen.mpr hsmall), if_pos hsmall]
      rfl
    · rw [if_neg (mt hchosen.mp hsmall), if_neg hsmall]
      rfl
  · rw [List.getElem?_eq_none (by simpa using hi), List.getElem?_eq_none (by simpa using hi)]
    rfl

/-- An even share is the whole part of the exact one, or, where that is not whole, one more. -/
theorem distributeEvenly_near (hcount : 0 < skillCount) {i : ℕ} {share : ℤ}
    (hshare : (distributeEvenly extraUnits skillCount)[i]? = some share) :
    (share = extraUnits / skillCount ∨ share = extraUnits / skillCount + 1) ∧
      |(share : ℚ) - extraUnits / skillCount| < 1 := by
  rw [getElem?_distributeEvenly hcount] at hshare
  obtain ⟨index, _, hindex⟩ := Option.map_eq_some_iff.mp hshare
  have hpos : (0 : ℚ) < skillCount := by exact_mod_cast hcount
  have hmod := Int.emod_nonneg extraUnits (Int.natCast_pos.mpr hcount).ne'
  have hmod' := Int.emod_lt_of_pos extraUnits (Int.natCast_pos.mpr hcount)
  have hdivide : (extraUnits : ℚ) / skillCount =
      (extraUnits / (skillCount : ℤ) : ℤ) + (extraUnits % (skillCount : ℤ) : ℤ) / skillCount := by
    rw [div_eq_iff hpos.ne', add_mul, div_mul_cancel₀ _ hpos.ne']
    exact_mod_cast (Int.ediv_mul_add_emod extraUnits skillCount).symm
  have hlow : (0 : ℚ) ≤ (extraUnits % (skillCount : ℤ) : ℤ) / skillCount :=
    div_nonneg (by exact_mod_cast hmod) hpos.le
  have hhigh : ((extraUnits % (skillCount : ℤ) : ℤ) : ℚ) / skillCount < 1 := by
    rw [div_lt_one hpos]
    exact_mod_cast hmod'
  rw [hdivide, ← hindex]
  split_ifs with hsmall
  · have hsome : (0 : ℚ) < (extraUnits % (skillCount : ℤ) : ℤ) / skillCount :=
      div_pos (by exact_mod_cast lt_of_le_of_lt (Int.natCast_nonneg _) hsmall) hpos
    refine ⟨.inr rfl, ?_⟩
    rw [abs_lt]
    push_cast
    constructor <;> linarith
  · refine ⟨.inl (add_zero _), ?_⟩
    rw [abs_lt]
    push_cast
    constructor <;> linarith

end EvenShares

section Exact

/-- The exact share of a weight: in proportion to its square, or equal where no weight is
positive. -/
def exactShare (extraUnits : ℤ) (weights : List ℚ) (weight : ℚ) : ℚ :=
  if (boostedWeights weights).sum = 0 then extraUnits / weights.length
  else extraUnits * max weight 0 ^ 2 / (boostedWeights weights).sum

/-- The extra units of every section: its exact share up to less than one unit, and no less than a
section of smaller weight gets. -/
structure FairShares (extraUnits : ℤ) (weights : List ℚ) (shares : List ℤ) : Prop where
  length : shares.length = weights.length
  sum : shares.sum = extraUnits
  nonneg : ∀ share ∈ shares, 0 ≤ share
  near : ∀ (i : ℕ) weight share, weights[i]? = some weight → shares[i]? = some share →
    |(share : ℚ) - exactShare extraUnits weights weight| < 1
  ordered : ∀ (i j : ℕ) weight weight' share share', weights[i]? = some weight →
    weights[j]? = some weight' → shares[i]? = some share → shares[j]? = some share' →
    max weight' 0 < max weight 0 → share' ≤ share
  falling : (weights.Pairwise fun a b => b ≤ a) → shares.Pairwise fun a b => b ≤ a

theorem length_boostedWeights : (boostedWeights weights).length = weights.length :=
  List.length_map _

theorem fair_distributeEvenly (hextra : 0 ≤ extraUnits) (hweights : weights ≠ [])
    (hsum : (boostedWeights weights).sum ≤ 0) :
    FairShares extraUnits weights (distributeEvenly extraUnits weights.length) := by
  have hcount : 0 < weights.length := List.length_pos_iff.mpr hweights
  have hzero : (boostedWeights weights).sum = 0 :=
    le_antisymm hsum (List.sum_nonneg boostedWeights_nonneg)
  have hshares := distributeEvenly_shares hextra hcount
  refine ⟨hshares.length, hshares.sum, hshares.nonneg, ?_, ?_, fun _ => hshares.falling⟩
  · intro i weight share _ hshare
    rw [exactShare, if_pos hzero]
    exact (distributeEvenly_near hcount hshare).2
  · intro i j weight weight' share share' hi _ _ _ hlt
    -- a positive weight would make the sum positive
    have hmem : max weight 0 ^ 2 ∈ boostedWeights weights :=
      List.mem_map_of_mem (List.mem_of_getElem? hi)
    have hle := List.single_le_sum boostedWeights_nonneg _ hmem
    rw [hzero] at hle
    have hpos : 0 < max weight 0 := lt_of_le_of_lt (le_max_right _ _) hlt
    exact absurd hle (not_le.mpr (by positivity))

theorem fair_distributeByWeight (hextra : 0 ≤ extraUnits)
    (hsum : 0 < (boostedWeights weights).sum) :
    FairShares extraUnits weights (distributeByWeight extraUnits (boostedWeights weights)) := by
  have hquota {i : ℕ} {weight : ℚ} (hweight : weights[i]? = some weight) :
      ((boostedWeights weights).map fun weight =>
        extraUnits * weight / (boostedWeights weights).sum)[i]? =
          some (extraUnits * max weight 0 ^ 2 / (boostedWeights weights).sum) := by
    rw [List.getElem?_map, boostedWeights, List.getElem?_map, hweight]
    rfl
  rw [distributeByWeight_eq hextra boostedWeights_nonneg]
  refine ⟨by simp [length_boostedWeights], sum_largestRemainder (sum_scaled hsum.ne'), ?_, ?_, ?_,
    fun hfalling => ?_⟩
  · intro share hshare
    obtain ⟨quota, hquota, hle⟩ := floor_le_of_mem_largestRemainder hshare
    obtain ⟨weight, hweight, rfl⟩ := List.mem_map.mp hquota
    have hnonneg := boostedWeights_nonneg weight hweight
    exact (Int.floor_nonneg.mpr (by positivity)).trans hle
  · intro i weight share hweight hshare
    rw [exactShare, if_neg hsum.ne']
    exact abs_largestRemainder_sub_lt (sum_scaled hsum.ne') hshare (hquota hweight)
  · intro i j weight weight' share share' hweight hweight' hshare hshare' hlt
    rcases hextra.eq_or_lt with hzero | hpos
    · -- no unit to share
      have hnone {k : ℕ} {w : ℚ} {x : ℤ} (hw : weights[k]? = some w)
          (hx : (largestRemainder extraUnits ((boostedWeights weights).map fun weight =>
            extraUnits * weight / (boostedWeights weights).sum)
              ((boostedWeights weights).getD · 0))[k]? = some x) : x = 0 := by
        have hnear := abs_largestRemainder_sub_lt (sum_scaled hsum.ne') hx (hquota hw)
        rw [← hzero, Int.cast_zero, zero_mul, zero_div, sub_zero] at hnear
        exact Int.abs_lt_one_iff.mp (by exact_mod_cast hnear)
      rw [hnone hweight hshare, hnone hweight' hshare']
    · refine largestRemainder_le_of_lt hshare hshare' (hquota hweight) (hquota hweight') ?_
      have hextra' : (0 : ℚ) < extraUnits := by exact_mod_cast hpos
      have hsquare : max weight' 0 ^ 2 < max weight 0 ^ 2 :=
        pow_lt_pow_left₀ hlt (le_max_right _ _) two_ne_zero
      gcongr
  · have hshares := distributeByWeight_shares hextra boostedWeights_nonneg hsum
      (boostedWeights_falling hfalling)
    rw [distributeByWeight_eq hextra boostedWeights_nonneg] at hshares
    exact hshares.falling

/-- The minutes of the sections in whole units: fair shares on top of the minimum depth, or, where
the budget does not hold that for every section, shares that differ by at most one unit. -/
structure WeightedAllocation (totalUnits minUnits : ℤ) (weights : List ℚ) (units : List ℤ) :
    Prop where
  length : units.length = weights.length
  sum : units.sum = totalUnits
  nonneg : ∀ u ∈ units, 0 ≤ u
  deep : minUnits * weights.length ≤ totalUnits → ∃ shares, units = shares.map (minUnits + ·) ∧
    FairShares (totalUnits - minUnits * weights.length) weights shares
  scarce : totalUnits < minUnits * weights.length → ∀ u ∈ units, ∀ u' ∈ units, u ≤ u' + 1
  falling : (weights.Pairwise fun a b => b ≤ a) → units.Pairwise fun a b => b ≤ a

theorem FairShares.allocation {totalUnits minUnits : ℤ} {shares : List ℤ} (hmin : 0 ≤ minUnits)
    (hbudget : minUnits * weights.length ≤ totalUnits)
    (h : FairShares (totalUnits - minUnits * weights.length) weights shares) :
    WeightedAllocation totalUnits minUnits weights (shares.map (minUnits + ·)) where
  length := by rw [List.length_map, h.length]
  sum := by
    rw [List.sum_map_add, List.map_const', List.sum_replicate, List.map_id', h.sum, h.length,
      nsmul_eq_mul]
    ring
  nonneg := by
    intro u hu
    obtain ⟨share, hshare, rfl⟩ := List.mem_map.mp hu
    exact add_nonneg hmin (h.nonneg share hshare)
  deep _ := ⟨shares, rfl, h⟩
  scarce hscarce := absurd hbudget (not_le.mpr hscarce)
  falling hfalling := List.pairwise_map.mpr ((h.falling hfalling).imp fun hle => by gcongr)

theorem allocation_distributeEvenly {totalUnits minUnits : ℤ} (htotal : 0 ≤ totalUnits)
    (hweights : weights ≠ []) (hscarce : totalUnits < minUnits * weights.length) :
    WeightedAllocation totalUnits minUnits weights
      (distributeEvenly totalUnits weights.length) := by
  have hcount : 0 < weights.length := List.length_pos_iff.mpr hweights
  have hshares := distributeEvenly_shares htotal hcount
  refine ⟨hshares.length, hshares.sum, hshares.nonneg, fun hbudget => ?_, fun _ => ?_,
    fun _ => hshares.falling⟩
  · exact absurd hbudget (not_le.mpr hscarce)
  · intro u hu u' hu'
    obtain ⟨i, hi⟩ := List.mem_iff_getElem?.mp hu
    obtain ⟨j, hj⟩ := List.mem_iff_getElem?.mp hu'
    obtain ⟨heither, _⟩ := distributeEvenly_near hcount hi
    obtain ⟨heither', _⟩ := distributeEvenly_near hcount hj
    omega

/-- Every budget is allocated without loss, whatever the weights and the minimum depth. -/
theorem allocateMinutesByWeight_exact (totalUnits : ℕ) (minimum : ℚ) (hweights : weights ≠ []) :
    ∃ units, allocateMinutesByWeight (totalUnits / 10) weights minimum =
        units.map (fun u : ℤ => (u : ℚ) / 10) ∧
      WeightedAllocation totalUnits (max 1 (pyRound (minimum * 10))) weights units := by
  have hcount : weights.length ≠ 0 := by simpa using hweights
  have htotal : pyRound ((totalUnits : ℚ) / 10 * 10) = totalUnits := by
    rw [div_mul_cancel₀ _ (by norm_num)]
    exact pyRound_intCast totalUnits
  have hmin : 0 ≤ max 1 (pyRound (minimum * 10)) := zero_le_one.trans (le_max_left _ _)
  generalize hdepth : max 1 (pyRound (minimum * 10)) = minUnits at hmin
  simp only [allocateMinutesByWeight, hcount, if_false, htotal, hdepth]
  split_ifs with hscarce hsum
  · refine ⟨_, ?_, allocation_distributeEvenly (Int.natCast_nonneg totalUnits) hweights hscarce⟩
    apply List.ext_getElem?
    intro i
    rw [List.getElem?_map, List.getElem?_map,
      getElem?_distributeEvenly (List.length_pos_iff.mpr hweights), Option.map_map]
    simp only [bind_pure_comp, List.map_eq_map, List.getElem?_map, Option.map_map]
    refine congrArg (Option.map · _) (funext fun index => ?_)
    rw [Function.comp_apply, Function.comp_apply]
    push_cast
    rfl
  · have hextra : 0 ≤ (totalUnits : ℤ) - minUnits * weights.length := by omega
    refine ⟨_, ?_, (fair_distributeEvenly hextra hweights hsum).allocation hmin (by omega)⟩
    rw [List.map_map]
    rfl
  · have hextra : 0 ≤ (totalUnits : ℤ) - minUnits * weights.length := by omega
    refine ⟨_, ?_, (fair_distributeByWeight hextra (not_le.mp hsum)).allocation hmin (by omega)⟩
    rw [List.map_map]
    rfl

/-- Four minutes for three skills, one of them without weight. -/
theorem allocateMinutesByWeight_exact_sample :
    ∃ units, allocateMinutesByWeight ((40 : ℕ) / 10) [9, 5, 0] 1 =
        units.map (fun u : ℤ => (u : ℚ) / 10) ∧
      WeightedAllocation (40 : ℕ) (max 1 (pyRound (1 * 10))) [9, 5, 0] units :=
  allocateMinutesByWeight_exact 40 1 (by simp)

end Exact

end IBotCoreApi
