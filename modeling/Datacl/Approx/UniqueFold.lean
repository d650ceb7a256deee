import Datacl.Approx.UniqueSketch
import Mathlib.Data.List.GetD
import Mathlib.Tactic

/-!
# Folding the bins, and when `approx_unique` gives up

The folding loop stops at the first `m` of whose bins at most `m/100` are unused, but an estimate
is returned only if fewer than `m/100` are. Everything here is about an arbitrary array of bins.
-/

namespace Datacl

/-! ### One round of merging -/

/-- Merging in place reads every pair before it is overwritten. -/
lemma mergePairs_spec {h : Nat} (fuel jj : Nat) (maxRho : List Nat) (hjj : jj ≤ h)
    (hfuel : h ≤ jj + fuel) (hlen : h ≤ maxRho.length) :
    (mergePairs (2 * h) fuel (2 * jj) jj maxRho).1 = h ∧
      (mergePairs (2 * h) fuel (2 * jj) jj maxRho).2.length = maxRho.length ∧
      ∀ i < h, (mergePairs (2 * h) fuel (2 * jj) jj maxRho).2.getD i 0 =
        if i < jj then maxRho.getD i 0
        else max (maxRho.getD (2 * i) 0) (maxRho.getD (2 * i + 1) 0) := by
  induction fuel generalizing jj maxRho with
  | zero =>
    have heq : jj = h := by omega
    refine ⟨heq, rfl, fun i hi => ?_⟩
    rw [if_pos (by omega), mergePairs]
  | succ fuel ih =>
    by_cases hend : jj = h
    · rw [mergePairs, if_neg (by omega)]
      exact ⟨hend, rfl, fun i hi => by rw [if_pos (by omega)]⟩
    rw [mergePairs, if_pos (by omega)]
    have hmax : (if maxRho.getD (2 * jj + 1) 0 ≤ maxRho.getD (2 * jj) 0 then maxRho.getD (2 * jj) 0
        else maxRho.getD (2 * jj + 1) 0) =
        max (maxRho.getD (2 * jj) 0) (maxRho.getD (2 * jj + 1) 0) := by
      rw [Nat.max_comm, Nat.max_def]
    have hnext : 2 * jj + 2 = 2 * (jj + 1) := by ring
    rw [hmax, hnext]
    obtain ⟨h1, h2, h3⟩ := ih (jj + 1)
      (maxRho.set jj (max (maxRho.getD (2 * jj) 0) (maxRho.getD (2 * jj + 1) 0))) (by omega)
      (by omega) (by rwa [List.length_set])
    refine ⟨h1, h2.trans (List.length_set ..), fun i hi => ?_⟩
    rw [h3 i hi]
    obtain hlt | heq | hgt := lt_trichotomy i jj
    · rw [if_pos (by omega), if_pos hlt, getD_set, if_neg (by omega)]
    · rw [if_pos (by omega), if_neg (by omega), getD_set, if_pos (by omega), heq]
    · rw [if_neg (by omega), if_neg (by omega), getD_set, getD_set, if_neg (by omega),
        if_neg (by omega)]

lemma mergeBins_spec {bins : Nat × List Nat} {h : Nat} (hm : bins.1 = 2 * h)
    (hlen : bins.1 ≤ bins.2.length) :
    (mergeBins bins).1 = h ∧ (mergeBins bins).2.length = bins.2.length ∧
      ∀ i < h, (mergeBins bins).2.getD i 0 =
        max (bins.2.getD (2 * i) 0) (bins.2.getD (2 * i + 1) 0) := by
  have hspec := mergePairs_spec (2 * h) 0 bins.2 (Nat.zero_le h) (by omega) (by omega)
  rw [mergeBins, hm]
  exact ⟨hspec.1, hspec.2.1, fun i hi => by rw [hspec.2.2 i hi, if_neg (Nat.not_lt_zero i)]⟩

/-! ### Bins after some rounds of an arbitrary array -/

/-- `m` and `max_rho` after `s` rounds of merging. -/
def foldedBins (maxRho : List Nat) (s : Nat) : Nat × List Nat :=
  mergeBins^[s] (initialBins, maxRho)

/-- How many of the bins that `2^s` adjacent ones fold into are unused. -/
def unusedCount (maxRho : List Nat) (s : Nat) : Nat :=
  (List.range (2 ^ (16 - s))).countP
    (fun i => decide (∀ r < 2 ^ s, maxRho.getD (i * 2 ^ s + r) 0 = 0))

lemma foldedBins_succ (maxRho : List Nat) (s : Nat) :
    foldedBins maxRho (s + 1) = mergeBins (foldedBins maxRho s) :=
  Function.iterate_succ_apply' _ _ _

lemma take_eq_map_range {l : List Nat} {n : Nat} (h : n ≤ l.length) :
    l.take n = (List.range n).map (fun i => l.getD i 0) := by
  apply List.ext_getElem
  · simp [h]
  · intro i hi _
    have hlt : i < l.length := by
      rw [List.length_take] at hi
      omega
    rw [List.getElem_take, List.getElem_map, List.getElem_range, List.getD_eq_getElem _ _ hlt]

section Folding

variable {maxRho : List Nat} (hlen : maxRho.length = initialBins)

include hlen

/-- A folded bin is unused if and only if all bins it comes from are. -/
lemma foldedBins_spec {s : Nat} (hs : s ≤ 16) :
    (foldedBins maxRho s).1 = 2 ^ (16 - s) ∧ (foldedBins maxRho s).2.length = initialBins ∧
      ∀ i < 2 ^ (16 - s), (foldedBins maxRho s).2.getD i 0 = 0 ↔
        ∀ r < 2 ^ s, maxRho.getD (i * 2 ^ s + r) 0 = 0 := by
  induction s with
  | zero =>
    refine ⟨rfl, hlen, fun i _ => ?_⟩
    simp [foldedBins]
  | succ s ih =>
    obtain ⟨hm, hl, hbin⟩ := ih (by omega)
    have hhalf : 2 ^ (16 - s) = 2 * 2 ^ (16 - (s + 1)) := by
      rw [← pow_succ']
      congr 1
      omega
    have hle : (foldedBins maxRho s).1 ≤ (foldedBins maxRho s).2.length := by
      rw [hm, hl]
      exact Nat.pow_le_pow_right Nat.two_pos (by omega : 16 - s ≤ 16)
    obtain ⟨hm', hl', hbin'⟩ := mergeBins_spec (hm.trans hhalf) hle
    rw [foldedBins_succ]
    refine ⟨hm', hl'.trans hl, fun i hi => ?_⟩
    rw [hbin' i hi, Nat.max_eq_zero_iff, hbin (2 * i) (by omega), hbin (2 * i + 1) (by omega)]
    constructor
    · rintro ⟨hlow, hhigh⟩ r hr
      rcases Nat.lt_or_ge r (2 ^ s) with hlt | hge
      · have hzero := hlow r hlt
        rwa [show 2 * i * 2 ^ s + r = i * 2 ^ (s + 1) + r by ring] at hzero
      · have hzero := hhigh (r - 2 ^ s) (by rw [pow_succ] at hr; omega)
        rwa [show (2 * i + 1) * 2 ^ s + (r - 2 ^ s) = i * 2 ^ (s + 1) + r by
          rw [Nat.add_mul, one_mul, Nat.add_assoc, Nat.add_sub_cancel' hge]; ring] at hzero
    · intro hall
      refine ⟨fun r hr => ?_, fun r hr => ?_⟩
      · have hzero := hall r (by rw [pow_succ]; omega)
        rwa [show i * 2 ^ (s + 1) + r = 2 * i * 2 ^ s + r by ring] at hzero
      · have hzero := hall (2 ^ s + r) (by rw [pow_succ]; omega)
        rwa [show i * 2 ^ (s + 1) + (2 ^ s + r) = (2 * i + 1) * 2 ^ s + r by ring] at hzero

lemma cntZero_foldedBins {s : Nat} (hs : s ≤ 16) :
    cntZero (foldedBins maxRho s) = unusedCount maxRho s := by
  obtain ⟨hm, hl, hbin⟩ := foldedBins_spec hlen hs
  have hle : 2 ^ (16 - s) ≤ (foldedBins maxRho s).2.length := by
    rw [hl]
    exact Nat.pow_le_pow_right Nat.two_pos (by omega : 16 - s ≤ 16)
  rw [cntZero, hm, take_eq_map_range hle, List.countP_map, unusedCount]
  apply List.countP_congr
  intro i hi
  simpa using hbin i (List.mem_range.mp hi)

/-- The loop stops at the first `m` of whose bins at most `m/100` are unused, or at 128. -/
lemma mergeLoop_foldedBins (fuel : Nat) {s : Nat} (hs : s ≤ 9) (hfuel : 9 ≤ s + fuel) :
    ∃ t, s ≤ t ∧ t ≤ 9 ∧ mergeLoop fuel (foldedBins maxRho s) = foldedBins maxRho t ∧
      (∀ u, s ≤ u → u < t → 2 ^ (16 - u) / 100 < unusedCount maxRho u) ∧
      (t = 9 ∨ unusedCount maxRho t ≤ 2 ^ (16 - t) / 100) := by
  induction fuel generalizing s with
  | zero => exact ⟨s, le_rfl, hs, rfl, fun u h1 h2 => by omega, .inl (by omega)⟩
  | succ fuel ih =>
    have hsize := (foldedBins_spec hlen (by omega : s ≤ 16)).1
    have hzero := cntZero_foldedBins hlen (by omega : s ≤ 16)
    rw [mergeLoop, hsize, hzero]
    split_ifs with hcond
    · have hlt : s < 9 := by
        by_contra hge
        have hnine : s = 9 := by omega
        rw [hnine] at hcond
        exact absurd hcond.2 (by decide)
      obtain ⟨t, hst, ht, hloop, hbefore, hexit⟩ := ih (by omega : s + 1 ≤ 9) (by omega)
      rw [foldedBins_succ] at hloop
      refine ⟨t, by omega, ht, hloop, fun u h1 h2 => ?_, hexit⟩
      rcases Nat.eq_or_lt_of_le h1 with rfl | h1
      · exact hcond.1
      · exact hbefore u h1 h2
    · refine ⟨s, le_rfl, hs, rfl, fun u h1 h2 => by omega, ?_⟩
      rcases Nat.eq_or_lt_of_le hs with heq | hlt
      · exact .inl heq
      · right
        have hpow : 2 ^ (16 - 8) ≤ 2 ^ (16 - s) := Nat.pow_le_pow_right Nat.two_pos (by omega)
        by_contra hgt
        exact hcond ⟨not_le.mp hgt, by omega⟩

/-- The round at which the folding stops decides the outcome. -/
lemma finishBins_foldedBins (final : FinalComputations) :
    ∃ t ≤ 9, (finishBins final maxRho).bins = some (foldedBins maxRho t) ∧
      (foldedBins maxRho t).1 = 2 ^ (16 - t) ∧
      (∀ u < t, 2 ^ (16 - u) < 100 * unusedCount maxRho u) ∧
      (t = 9 ∨ 100 * unusedCount maxRho t ≤ 2 ^ (16 - t)) ∧
      (finishBins final maxRho).estimateIsGood =
        if unusedCount maxRho t < 2 ^ (16 - t) / 100 then 1 else -2 := by
  obtain ⟨t, -, ht, hloop, hbefore, hexit⟩ :=
    mergeLoop_foldedBins hlen initialBins (Nat.zero_le 9) (by decide)
  have hstart : mergeLoop initialBins (initialBins, maxRho) = foldedBins maxRho t := hloop
  have hsize := (foldedBins_spec hlen (by omega : t ≤ 16)).1
  have hzero := cntZero_foldedBins hlen (by omega : t ≤ 16)
  refine ⟨t, ht, ?_, hsize, fun u hu => ?_, hexit.imp_right fun h => ?_, ?_⟩
  · simp only [finishBins, hstart]
    split <;> rfl
  · have := hbefore u (Nat.zero_le u) hu
    omega
  · omega
  · simp only [finishBins, hstart, hsize, hzero]
    split <;> rfl

/-- The call gives up only at 128 bins of which more than 1% are unused, and estimates whenever
some `m` from 65536 to 256 has at most 1% of its bins unused, if and only if the first `m` from
65536 to 128 with at most 1% unused, should there be one, does not have exactly `m/100` unused. -/
theorem finishBins_gives_up_iff (final : FinalComputations) :
    (((finishBins final maxRho).estimateIsGood = -2 →
        (∃ bins, (finishBins final maxRho).bins = some bins ∧ bins.1 = 128) ∧
          128 < 100 * unusedCount maxRho 9) ∧
      ((∃ s ≤ 8, 100 * unusedCount maxRho s ≤ 2 ^ (16 - s)) →
        (finishBins final maxRho).estimateIsGood = 1)) ↔
    ∀ s ≤ 9, (∀ u < s, 2 ^ (16 - u) < 100 * unusedCount maxRho u) →
      100 * unusedCount maxRho s ≤ 2 ^ (16 - s) → unusedCount maxRho s ≠ 2 ^ (16 - s) / 100 := by
  obtain ⟨t, ht, hbins, hsize, hbefore, hexit, hgood⟩ := finishBins_foldedBins hlen final
  constructor
  · rintro ⟨hgives, hestimates⟩ s hs hfirst hle heq
    -- the folding stops at the first such `m`
    have hst : t = s := by
      rcases lt_trichotomy t s with hlt | heq | hgt
      · have := hfirst t hlt
        omega
      · exact heq
      · have := hbefore s hgt
        omega
    subst hst
    rw [if_neg (by omega)] at hgood
    rcases Nat.eq_or_lt_of_le hs with rfl | hlt
    · have := (hgives hgood).2
      omega
    · have hone := hestimates ⟨t, by omega, hle⟩
      rw [hgood] at hone
      exact absurd hone (by decide)
  · intro hne
    have hstop (hle : 100 * unusedCount maxRho t ≤ 2 ^ (16 - t)) :
        (finishBins final maxRho).estimateIsGood = 1 := by
      have := hne t ht hbefore hle
      rw [hgood, if_pos (by omega)]
    constructor
    · intro hlow
      have hgt : ¬ 100 * unusedCount maxRho t ≤ 2 ^ (16 - t) := by
        intro hle
        rw [hstop hle] at hlow
        exact absurd hlow (by decide)
      have hnine : t = 9 := hexit.resolve_right hgt
      subst hnine
      exact ⟨⟨_, hbins, hsize⟩, by omega⟩
    · rintro ⟨s, hs, hle⟩
      apply hstop
      have hts : t ≤ s := by
        by_contra hlt
        have := hbefore s (by omega)
        omega
      exact hexit.resolve_left (by omega)

end Folding

theorem finishBins_gives_up_iff_used :
    (((finishBins ⟨fun m _ => m, fun _ => 1⟩ (List.replicate initialBins 1)).estimateIsGood = -2 →
        (∃ bins, (finishBins ⟨fun m _ => m, fun _ => 1⟩ (List.replicate initialBins 1)).bins =
          some bins ∧ bins.1 = 128) ∧
          128 < 100 * unusedCount (List.replicate initialBins 1) 9) ∧
      ((∃ s ≤ 8, 100 * unusedCount (List.replicate initialBins 1) s ≤ 2 ^ (16 - s)) →
        (finishBins ⟨fun m _ => m, fun _ => 1⟩
          (List.replicate initialBins 1)).estimateIsGood = 1)) ↔
    ∀ s ≤ 9, (∀ u < s, 2 ^ (16 - u) < 100 * unusedCount (List.replicate initialBins 1) u) →
      100 * unusedCount (List.replicate initialBins 1) s ≤ 2 ^ (16 - s) →
        unusedCount (List.replicate initialBins 1) s ≠ 2 ^ (16 - s) / 100 :=
  finishBins_gives_up_iff List.length_replicate ⟨fun m _ => m, fun _ => 1⟩

/-- With exactly 655 of the 65536 bins unused the call gives up without folding once. -/
theorem finishBins_gives_up_early :
    (List.replicate 655 0 ++ List.replicate 64881 1).length = initialBins ∧
      100 * unusedCount (List.replicate 655 0 ++ List.replicate 64881 1) 0 ≤ 2 ^ 16 ∧
      (finishBins ⟨fun m _ => m, fun _ => 1⟩
        (List.replicate 655 0 ++ List.replicate 64881 1)).estimateIsGood = -2 := by
  have hlen : (List.replicate 655 0 ++ List.replicate 64881 1).length = initialBins := by
    rw [List.length_append, List.length_replicate, List.length_replicate]
    rfl
  have hcount : cntZero (initialBins, List.replicate 655 0 ++ List.replicate 64881 1) = 655 := by
    rw [cntZero, List.take_of_length_le hlen.le, List.countP_append, List.countP_replicate,
      List.countP_replicate]
    rfl
  have hunused := cntZero_foldedBins hlen (Nat.zero_le 16)
  have hfold : foldedBins (List.replicate 655 0 ++ List.replicate 64881 1) 0 =
    (initialBins, List.replicate 655 0 ++ List.replicate 64881 1) := rfl
  rw [hfold, hcount] at hunused
  refine ⟨hlen, by rw [← hunused]; decide, ?_⟩
  have hloop : mergeLoop initialBins
      (initialBins, List.replicate 655 0 ++ List.replicate 64881 1) =
      (initialBins, List.replicate 655 0 ++ List.replicate 64881 1) := by
    rw [show initialBins = 65535 + 1 from rfl, mergeLoop, if_neg]
    change ¬ (655 < cntZero (initialBins, _) ∧ _)
    rw [hcount]
    decide
  rw [finishBins]
  simp only [hloop, hcount]
  rfl

end Datacl
