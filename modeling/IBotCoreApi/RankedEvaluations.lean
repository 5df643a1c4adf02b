import IBotCoreApi.Ranking
import Mathlib.Algebra.Order.Floor.Ring
import Mathlib.Data.Rat.Floor
import Mathlib.Tactic.Linarith
import Mathlib.Tactic.Ring

namespace IBotCoreApi
open Python KeyedLists EvaluationRepository

section Percentiles

variable {total rank rank' : ℤ}

theorem percentile_eq (total rank : ℤ) : percentile total rank =
    if total ≤ 1 then 100 else ⌊((total - rank) / (total - 1) * 100 + 1 / 2 : ℚ)⌋ := rfl

theorem percentile_first : percentile total 1 = 100 := by
  rw [percentile_eq]
  split_ifs with htotal
  · rfl
  · have hpos : (0 : ℚ) < total - 1 := by
      have hlt : (1 : ℚ) < total := by exact_mod_cast not_le.mp htotal
      linarith
    rw [Int.cast_one, div_self hpos.ne', one_mul, Int.floor_eq_iff]
    norm_num

theorem percentile_last (htotal : 2 ≤ total) : percentile total total = 0 := by
  rw [percentile_eq, if_neg (by omega), sub_self, zero_div, zero_mul, zero_add, Int.floor_eq_iff]
  norm_num

theorem percentile_anti (h : rank ≤ rank') : percentile total rank' ≤ percentile total rank := by
  rw [percentile_eq, percentile_eq]
  split_ifs with htotal
  · exact le_rfl
  · have hpos : (0 : ℚ) < total - 1 := by
      have hlt : (1 : ℚ) < total := by exact_mod_cast not_le.mp htotal
      linarith
    have hrank : (rank : ℚ) ≤ rank' := by exact_mod_cast h
    apply Int.floor_mono
    gcongr

theorem percentile_bounds (hlow : 1 ≤ rank) (hhigh : rank ≤ total) :
    0 ≤ percentile total rank ∧ percentile total rank ≤ 100 := by
  have hfirst : percentile total rank ≤ percentile total 1 := percentile_anti hlow
  have hlast : percentile total total ≤ percentile total rank := percentile_anti hhigh
  refine ⟨?_, percentile_first ▸ hfirst⟩
  by_cases htotal : 2 ≤ total
  · exact percentile_last htotal ▸ hlast
  · rw [percentile_eq, if_pos (by omega)]
    norm_num

theorem percentile_near (htotal : 2 ≤ total) :
    |(percentile total rank : ℚ) - 100 * (total - rank) / (total - 1)| ≤ 1 / 2 := by
  rw [percentile_eq, if_neg (by omega)]
  have hsame : (100 * (total - rank) / (total - 1) : ℚ) = (total - rank) / (total - 1) * 100 := by
    ring
  have hfloor := Int.floor_le (((total - rank) / (total - 1) * 100 + 1 / 2 : ℚ))
  have hlt := Int.lt_floor_add_one (((total - rank) / (total - 1) * 100 + 1 / 2 : ℚ))
  rw [hsame, abs_le]
  constructor <;> linarith

end Percentiles

section Order

instance total_ranksBefore : Std.Total ranksBefore := ⟨fun a b => by
  unfold ranksBefore
  rcases lt_trichotomy a.report.overallScore b.report.overallScore with hlt | heq | hlt
  · exact .inr (.inl hlt)
  · rcases le_total a.generatedAt b.generatedAt with hle | hle
    · exact .inl (.inr ⟨heq, hle⟩)
    · exact .inr (.inr ⟨heq.symm, hle⟩)
  · exact .inl (.inl hlt)⟩

instance trans_ranksBefore : IsTrans InterviewEvaluation ranksBefore := ⟨fun a b c hab hbc => by
  unfold ranksBefore at *
  rcases hab with hab | ⟨hab, htime⟩
  · rcases hbc with hbc | ⟨hbc, _⟩
    · exact .inl (hbc.trans hab)
    · exact .inl (hbc ▸ hab)
  · rcases hbc with hbc | ⟨hbc, htime'⟩
    · exact .inl (hab ▸ hbc)
    · exact .inr ⟨hab.trans hbc, htime.trans htime'⟩⟩

end Order

structure HasRank (e : InterviewEvaluation) (rank percentile : ℤ) : Prop where
  rank : e.rankInAssessment = some rank
  percentile : e.percentileInAssessment = some percentile

/-- The evaluations of an assessment are ranked by score and time, each with its percentile. -/
structure FairRanking (evaluations : List InterviewEvaluation) : Prop where
  all : RanksAll evaluations
  ranked : ∀ e ∈ evaluations, ∃ rank percentile, HasRank e rank percentile
  bounds : ∀ e ∈ evaluations, ∀ rank percentile, HasRank e rank percentile →
    1 ≤ rank ∧ rank ≤ evaluations.length ∧ 0 ≤ percentile ∧ percentile ≤ 100
  best : ∀ e ∈ evaluations, ∀ rank percentile, HasRank e rank percentile →
    rank = 1 → percentile = 100
  worst : 2 ≤ evaluations.length → ∀ e ∈ evaluations, ∀ rank percentile,
    HasRank e rank percentile → rank = evaluations.length → percentile = 0
  near : 2 ≤ evaluations.length → ∀ e ∈ evaluations, ∀ rank percentile,
    HasRank e rank percentile →
      |(percentile : ℚ) - 100 * (evaluations.length - rank) / (evaluations.length - 1)| ≤ 1 / 2
  ordered : ∀ e ∈ evaluations, ∀ e' ∈ evaluations, ∀ rank percentile rank' percentile',
    HasRank e rank percentile → HasRank e' rank' percentile' →
      (e'.report.overallScore < e.report.overallScore → rank < rank') ∧
      (e.report.overallScore = e'.report.overallScore → e.generatedAt < e'.generatedAt →
        rank < rank') ∧
      (rank = rank' → e = e') ∧ (rank ≤ rank' → percentile' ≤ percentile)

section Refresh

variable {db : Database}

theorem hasRank_ranked {total rank rank' percentile' : ℤ} {e : InterviewEvaluation}
    (h : HasRank (ranked total rank e) rank' percentile') :
    rank' = rank ∧ percentile' = percentile total rank :=
  ⟨(Option.some.inj h.rank).symm, (Option.some.inj h.percentile).symm⟩

theorem fairRanking_refresh (hids : db.EvaluationIds) (assessmentId : Uuid) :
    FairRanking ((refreshAssessmentRanking db assessmentId).evaluationsOf assessmentId) := by
  have hall := ranksAll_refresh hids assessmentId
  have hnodup := evaluationIds_evaluationsOf hids assessmentId
  rw [evaluationsOf_refresh] at hall ⊢
  set evaluations := db.evaluationsOf assessmentId
  set order := evaluations.insertionSort ranksBefore with horder
  have hperm : order.Perm evaluations := List.perm_insertionSort ranksBefore evaluations
  have hsorted : order.Pairwise ranksBefore := List.pairwise_insertionSort ranksBefore evaluations
  have hkeys : (order.map (·.id)).Nodup := (hperm.map _).nodup_iff.mpr hnodup
  have hplace {e : InterviewEvaluation} (he : e ∈ evaluations) :
      place (·.id) order e < evaluations.length :=
    hperm.length_eq ▸ place_lt_length (hperm.mem_iff.mpr he)
  refine ⟨hall, ?_, ?_, ?_, ?_, ?_, ?_⟩
  · intro e' he'
    obtain ⟨e, _, rfl⟩ := List.mem_map.mp he'
    exact ⟨_, _, rfl, rfl⟩
  · intro e' he' rank p hrank
    obtain ⟨e, he, rfl⟩ := List.mem_map.mp he'
    obtain ⟨rfl, rfl⟩ := hasRank_ranked hrank
    have hlt := hplace he
    rw [List.length_map]
    have hlow : (1 : ℤ) ≤ (place (·.id) order e + 1 : ℕ) := by omega
    have hhigh : ((place (·.id) order e + 1 : ℕ) : ℤ) ≤ evaluations.length := by omega
    exact ⟨hlow, hhigh, percentile_bounds hlow hhigh⟩
  · intro e' he' rank p hrank hfirst
    obtain ⟨e, he, rfl⟩ := List.mem_map.mp he'
    obtain ⟨rfl, rfl⟩ := hasRank_ranked hrank
    rw [hfirst]
    exact percentile_first
  · intro htwo e' he' rank p hrank hlast
    obtain ⟨e, he, rfl⟩ := List.mem_map.mp he'
    obtain ⟨rfl, rfl⟩ := hasRank_ranked hrank
    rw [List.length_map] at htwo hlast
    rw [hlast]
    exact percentile_last (by omega)
  · intro htwo e' he' rank p hrank
    obtain ⟨e, he, rfl⟩ := List.mem_map.mp he'
    obtain ⟨rfl, rfl⟩ := hasRank_ranked hrank
    rw [List.length_map] at htwo ⊢
    exact_mod_cast percentile_near (by omega)
  · intro e' he' f' hf' rank p rank' p' hrank hrank'
    obtain ⟨e, he, rfl⟩ := List.mem_map.mp he'
    obtain ⟨f, hf, rfl⟩ := List.mem_map.mp hf'
    obtain ⟨rfl, rfl⟩ := hasRank_ranked hrank
    obtain ⟨rfl, rfl⟩ := hasRank_ranked hrank'
    -- the one that may not go after the other one has the smaller place
    have hbefore (hnot : ¬ ranksBefore f e) :
        ((place (·.id) order e + 1 : ℕ) : ℤ) < (place (·.id) order f + 1 : ℕ) := by
      have hne : e ≠ f := by
        rintro rfl
        exact hnot ((total_ranksBefore.total e e).elim id id)
      have hlt := place_lt_of_not hsorted hkeys (hperm.mem_iff.mpr he) (hperm.mem_iff.mpr hf) hne
        hnot
      omega
    refine ⟨fun hscore => hbefore ?_, fun hscore htime => hbefore ?_, fun hsame => ?_,
      percentile_anti⟩
    · rintro (hlt | ⟨heq, _⟩)
      · exact lt_asymm hscore hlt
      · exact hscore.ne heq
    · rintro (hlt | ⟨_, hle⟩)
      · exact hlt.ne hscore
      · exact not_le.mpr htime hle
    · have hplaces : place (·.id) order e = place (·.id) order f := by omega
      have hat := getElem?_place hkeys (hperm.mem_iff.mpr he)
      rw [hplaces, getElem?_place hkeys (hperm.mem_iff.mpr hf)] at hat
      rw [Option.some.inj hat, hplaces]

end Refresh

end IBotCoreApi
