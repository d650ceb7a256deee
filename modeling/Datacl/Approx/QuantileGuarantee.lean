import Datacl.Approx.QuantileBlocks
import Datacl.Approx.QuantileOutput

/-!
# The guarantee of `approx_quantile`

`determine_b_k` chooses `b` and `k` such that `b` buffers of `k` elements hold the whole input
and the collapses cost less than `eps` times its size.
-/

namespace Datacl
open RankSketch (Approx below)

/-! ### `determine_b_k` -/

/-- The bound that `determine_b_k` compares with `eps * siz`. -/
def rankBound (b : Nat) : Nat := (b - 2) * 2 ^ (b - 2) + 1

lemma growB_spec (bound : ℚ) (fuel : Nat) {b : Nat} (hb : 2 ≤ b) :
    b ≤ growB bound fuel b ∧
      (b < growB bound fuel b → (rankBound (growB bound fuel b - 1) : ℚ) < bound) := by
  induction fuel generalizing b with
  | zero => exact ⟨le_rfl, fun h => absurd h (lt_irrefl b)⟩
  | succ fuel ih =>
    rw [growB]
    split
    next hlt =>
      obtain ⟨hle, hprev⟩ := ih (b := b + 1) (by omega)
      refine ⟨by omega, fun _ => ?_⟩
      rcases Nat.eq_or_lt_of_le hle with heq | hgt
      · rw [← heq, Nat.add_sub_cancel]
        exact hlt
      · exact hprev hgt
    next => exact ⟨le_rfl, fun h => absurd h (lt_irrefl b)⟩

/-- The loop stops by its own condition: the fuel is enough. -/
lemma growB_exit (bound : ℚ) (fuel : Nat) {b : Nat} (hb : 2 ≤ b)
    (hfuel : bound ≤ ((b - 1 + fuel : ℕ) : ℚ)) : ¬ (rankBound (growB bound fuel b) : ℚ) < bound := by
  induction fuel generalizing b with
  | zero =>
    have hge : b - 1 ≤ rankBound b := by
      have hpow : 1 ≤ 2 ^ (b - 2) := Nat.one_le_two_pow
      calc b - 1 = (b - 2) * 1 + 1 := by omega
        _ ≤ (b - 2) * 2 ^ (b - 2) + 1 := by gcongr
    rw [growB, not_lt]
    exact hfuel.trans (by exact_mod_cast hge)
  | succ fuel ih =>
    rw [growB]
    split
    next =>
      refine ih (by omega) (hfuel.trans ?_)
      exact_mod_cast (by omega : b - 1 + (fuel + 1) ≤ b + 1 - 1 + fuel)
    next hge => exact hge

lemma determineB_pos (eps : ℚ) (siz : Nat) : 0 < determineB eps siz := by
  have h := (growB_spec (eps * siz) ⌈eps * siz⌉₊ (le_refl 2)).1
  rw [determineB]
  omega

/-- `b` is the last value for which the loop of `determine_b_k` goes on. -/
lemma rankBound_determineB (eps : ℚ) (siz : Nat) (h : 2 ≤ determineB eps siz) :
    (rankBound (determineB eps siz) : ℚ) < eps * siz ∧
      ¬ (rankBound (determineB eps siz + 1) : ℚ) < eps * siz := by
  have hspec := (growB_spec (eps * siz) ⌈eps * siz⌉₊ (le_refl 2)).2
  have hexit := growB_exit (eps * siz) ⌈eps * siz⌉₊ (le_refl 2) <|
    (Nat.le_ceil _).trans (by exact_mod_cast Nat.le_add_left _ 1)
  rw [determineB] at h ⊢
  refine ⟨hspec (by omega), ?_⟩
  rwa [Nat.sub_add_cancel (by omega)]

lemma determineK_eq (siz b : Nat) :
    determineK siz b = max (if siz % 2 ^ (b - 1) = 0 then siz / 2 ^ (b - 1)
      else siz / 2 ^ (b - 1) + 1) 10000 := by
  simp only [determineK]
  split_ifs <;> omega

lemma determineK_pos (siz b : Nat) : 0 < determineK siz b := by
  rw [determineK_eq]
  exact lt_max_of_lt_right (by norm_num)

/-- The whole input fits in `2^(b-1)` packets. -/
lemma le_determineK_mul (siz b : Nat) : siz ≤ determineK siz b * 2 ^ (b - 1) := by
  have hp : 0 < 2 ^ (b - 1) := Nat.two_pow_pos _
  have hdiv := Nat.div_add_mod siz (2 ^ (b - 1))
  have hmod := Nat.mod_lt siz hp
  have hk : siz ≤ (if siz % 2 ^ (b - 1) = 0 then siz / 2 ^ (b - 1)
      else siz / 2 ^ (b - 1) + 1) * 2 ^ (b - 1) := by
    split
    next hzero =>
      rw [Nat.mul_comm]
      omega
    next =>
      rw [Nat.add_mul, Nat.mul_comm (siz / _)]
      omega
  rw [determineK_eq]
  exact hk.trans (Nat.mul_le_mul_right _ (le_max_left _ _))

lemma quantileThreadsLoop_pos {b k : Nat} (hmem : (b + 1 + 10) * k ≤ maxSz) (fuel : Nat) {n : Nat}
    (hn : 0 < n) : 0 < quantileThreadsLoop b k fuel n := by
  induction fuel generalizing n with
  | zero => exact hn
  | succ fuel ih =>
    rw [quantileThreadsLoop]
    split
    next hbig =>
      apply ih
      have hne : n ≠ 1 := by
        rintro rfl
        omega
      omega
    next => exact hn

/-! ### The whole call -/

lemma emptySketch_ok (b k : Nat) : SketchOk b k (emptySketch b k) 0 where
  size := by simp [emptySketch]
  buffers buf hbuf := by
    rw [List.eq_of_mem_replicate hbuf]
    exact ⟨by simp, fun h => absurd h (lt_irrefl 0), fun h => absurd h (lt_irrefl 0)⟩
  empty := by simp [emptySketch, List.countP_replicate]
  approx := by
    have hbag : sketchBag (emptySketch b k).bufs = 0 := by simp [sketchBag, emptySketch]
    have herr : totalError (emptySketch b k).bufs = 0 := by
      simp [totalError, emptySketch, collapseError]
    rw [hbag, herr]
    exact Approx.zero

lemma emptySketch_lazy (b k : Nat) : Lazy (emptySketch b k) := by
  left
  intro buf hbuf
  rw [List.eq_of_mem_replicate hbuf]
  exact Nat.zero_le 1

/-- `y` is at rank `r` of the data `x`, up to `e`. -/
def NearRank (x : List Int) (r e : Nat) (y : Int) : Prop :=
  y ∈ x ∧ x.countP (fun a => decide (a < y)) < r ∧ r ≤ x.countP (fun a => decide (a ≤ y)) + e

lemma quantileCore_spec (numQuantiles : Nat) {b k : Nat} {x : List Int} (hb : 0 < b) (hk : 0 < k)
    (hmem : (b + 1 + 10) * k ≤ maxSz) (hfit : x.length ≤ k * 2 ^ (b - 1)) (hx : x ≠ [])
    (hmax : ∀ a ∈ x, a < intMax) :
    ∃ ys, quantileCore b k x numQuantiles = ⟨0, 1, ys⟩ ∧ ys.length = numQuantiles ∧
      ∀ j y, ys[j]? = some y →
        NearRank x (quantileRank x.length numQuantiles j) ((b - 2) * 2 ^ (b - 2)) y := by
  obtain ⟨s, last, data, hblocks, hlazy, hok, hdata, hlast⟩ := quantileBlocks_ok
    (quantileThreadsLoop_pos hmem 8 (n := 128) (by norm_num)) hb hk hfit x.length 0
    (by simpa using emptySketch_ok b k) (emptySketch_lazy b k) (by omega)
  have hcard : totalWeight s.bufs * k + last.length = x.length := by
    have := congrArg Multiset.card hdata
    rwa [Multiset.card_add, Multiset.coe_card, Multiset.coe_card, ← totalWeight_mul hok] at this
  have herr : totalError s.bufs ≤ (b - 2) * 2 ^ (b - 2) := by
    refine totalError_le hok hlazy (Nat.le_of_mul_le_mul_right ?_ hk)
    rw [Nat.mul_comm (2 ^ (b - 1))]
    omega
  have happrox : Approx (x : Multiset Int)
      (sketchBag s.bufs + (qsortAscI4 last : Multiset Int)) (totalError s.bufs) := by
    rw [Multiset.coe_eq_coe.mpr (qsortAscI4_perm last), ← hdata]
    exact hok.approx.add _
  have hsize : (sketchBag s.bufs + (qsortAscI4 last : Multiset Int)).card = x.length :=
    happrox.card.trans (Multiset.coe_card x)
  obtain ⟨ys, hout, hlen, hslots⟩ := output_spec numQuantiles rfl hok.buffers
    (qsortAscI4_sorted last) ((qsortAscI4_perm last).length_eq.trans_le hlast.le)
    (fun a ha => hmax a (happrox.mem a ha)) (hsize ▸ List.length_pos_of_ne_nil hx)
  rw [hsize] at hout hslots
  refine ⟨ys, ?_, hlen, fun j y hy => ?_⟩
  · simp only [quantileCore, hblocks, hout]
  · obtain ⟨hmem, hlt, hle⟩ := hslots j y hy
    obtain ⟨h1, h2⟩ := happrox.rank hlt hle
    rw [RankSketch.below_coe] at h1 h2
    exact ⟨happrox.mem y hmem, h1, h2.trans (Nat.add_le_add_left herr _)⟩

/-- Up to its first error exit, the call is the main loop and `Output`. -/
lemma approxQuantile_cases (x : List Int) (numQuantiles ySiz : Int) (eps : ℚ) :
    (approxQuantile x numQuantiles eps ySiz).y = [] ∨
      (0 ≤ eps ∧ 1 ≤ numQuantiles ∧ x ≠ [] ∧
        (determineB eps x.length + 1 + 10) * determineK x.length (determineB eps x.length) ≤ maxSz ∧
        approxQuantile x numQuantiles eps ySiz =
          quantileCore (determineB eps x.length) (determineK x.length (determineB eps x.length)) x
            numQuantiles.toNat) := by
  simp only [approxQuantile]
  split_ifs with hargs hbk hmem
  · exact .inl rfl
  · exact .inl rfl
  · exact .inl rfl
  · right
    push Not at hargs
    exact ⟨hargs.1, hargs.2.2.1, fun h => hargs.2.2.2.1 (by rw [h]; rfl), not_lt.mp hmem, rfl⟩

lemma quantileCore_rank {x : List Int} {numQuantiles : Int} {eps : ℚ} (hmax : ∀ a ∈ x, a < intMax)
    (heps : 0 ≤ eps) (hq : 1 ≤ numQuantiles) (hx : x ≠ [])
    (hmem : (determineB eps x.length + 1 + 10) *
      determineK x.length (determineB eps x.length) ≤ maxSz) :
    ∃ ys, quantileCore (determineB eps x.length) (determineK x.length (determineB eps x.length)) x
        numQuantiles.toNat = ⟨0, 1, ys⟩ ∧ ys.length = numQuantiles.toNat ∧
      ∀ (j : Nat) y, ys[j]? = some y →
        y ∈ x ∧
        (x.countP (fun a => decide (a < y)) : ℚ) ≤
          ⌈((j + 1) * x.length / numQuantiles : ℚ)⌉ - 1 + eps * x.length ∧
        ⌈((j + 1) * x.length / numQuantiles : ℚ)⌉ - eps * x.length ≤
          (x.countP (fun a => decide (a ≤ y)) : ℚ) := by
  obtain ⟨ys, hcore, hlen, hslots⟩ := quantileCore_spec numQuantiles.toNat
    (determineB_pos eps x.length) (determineK_pos _ _) hmem (le_determineK_mul _ _) hx hmax
  refine ⟨ys, hcore, hlen, fun j y hy => ?_⟩
  obtain ⟨hy, hlt, hle⟩ := hslots j y hy
  have hceil := quantileRank_eq_ceil x.length (by omega : 0 < numQuantiles.toNat) j
  have hcast : ((numQuantiles.toNat : ℕ) : ℚ) = (numQuantiles : ℚ) := by
    rw [← Int.cast_natCast, Int.toNat_of_nonneg (by omega)]
  rw [hcast] at hceil
  rw [← hceil]
  set r := quantileRank x.length numQuantiles.toNat j
  set b := determineB eps x.length with hb
  have hN : (0 : ℚ) ≤ eps * x.length := by positivity
  have herr : (((b - 2) * 2 ^ (b - 2) : ℕ) : ℚ) ≤ eps * x.length := by
    obtain hb1 | hb2 : b < 2 ∨ 2 ≤ b := by omega
    · have hzero : b - 2 = 0 := by omega
      rw [hzero]
      simpa using hN
    · have hbound := (rankBound_determineB eps x.length hb2).1
      rw [rankBound, Nat.cast_add, Nat.cast_one, ← hb] at hbound
      linarith
  have h1 : (x.countP (fun a => decide (a < y)) : ℚ) + 1 ≤ r := by exact_mod_cast hlt
  have h2 : (r : ℚ) ≤ x.countP (fun a => decide (a ≤ y)) + ((b - 2) * 2 ^ (b - 2) : ℕ) := by
    exact_mod_cast hle
  refine ⟨hy, ?_, ?_⟩
  · push_cast
    linarith
  · push_cast at h2 herr ⊢
    linarith

/-- Every slot written holds an element within `eps * N` ranks of its target, and a call whose
arguments pass the checks writes all of them. -/
theorem approxQuantile_guarantee (x : List Int) (numQuantiles ySiz : Int) (eps : ℚ)
    (hmax : ∀ a ∈ x, a < intMax) :
    (∀ (j : Nat) y, (approxQuantile x numQuantiles eps ySiz).y[j]? = some y →
      y ∈ x ∧
      (x.countP (fun a => decide (a < y)) : ℚ) ≤
        ⌈((j + 1) * x.length / numQuantiles : ℚ)⌉ - 1 + eps * x.length ∧
      ⌈((j + 1) * x.length / numQuantiles : ℚ)⌉ - eps * x.length ≤
        (x.countP (fun a => decide (a ≤ y)) : ℚ)) ∧
    (0 ≤ eps → eps ≤ 1 → 1 ≤ numQuantiles → numQuantiles ≤ ySiz → x ≠ [] →
      (determineB eps x.length + 1 + 10) * determineK x.length (determineB eps x.length) ≤ maxSz →
      (approxQuantile x numQuantiles eps ySiz).status = 0 ∧
        (approxQuantile x numQuantiles eps ySiz).estimateIsGood = 1 ∧
        (approxQuantile x numQuantiles eps ySiz).y.length = numQuantiles.toNat) := by
  constructor
  · intro j y hy
    rcases approxQuantile_cases x numQuantiles ySiz eps with hnil | ⟨heps, hq, hx, hmem, hcall⟩
    · simp [hnil] at hy
    · obtain ⟨ys, hcore, -, hslots⟩ := quantileCore_rank hmax heps hq hx hmem
      rw [hcall, hcore] at hy
      exact hslots j y hy
  · intro heps hone hq hy hx hmem
    have hargs : ¬ (eps < 0 ∨ 1 < eps ∨ numQuantiles < 1 ∨ x.length = 0 ∨ ySiz < numQuantiles) := by
      rintro (h | h | h | h | h)
      · linarith
      · linarith
      · omega
      · exact hx (List.eq_nil_of_length_eq_zero h)
      · omega
    have hbk : ¬ (determineB eps x.length = 0 ∨
        determineK x.length (determineB eps x.length) = 0) := by
      have := determineB_pos eps x.length
      have := determineK_pos x.length (determineB eps x.length)
      omega
    obtain ⟨ys, hcore, hlen, -⟩ := quantileCore_rank hmax heps hq hx hmem
    have hcall : approxQuantile x numQuantiles eps ySiz = ⟨0, 1, ys⟩ := by
      simp only [approxQuantile, if_neg hargs, if_neg hbk, if_neg (not_lt.mpr hmem), hcore]
    rw [hcall]
    exact ⟨rfl, rfl, hlen⟩

theorem approxQuantile_guarantee_three_elements :
    (∀ a ∈ [3, 1, 2], a < intMax) ∧
      (approxQuantile [3, 1, 2] 2 (1 / 10) 2).status = 0 ∧
      (approxQuantile [3, 1, 2] 2 (1 / 10) 2).y.length = 2 := by
  have hmax : ∀ a ∈ [3, 1, 2], a < intMax := by decide
  have hb : determineB (1 / 10) [(3 : Int), 1, 2].length = 1 := by
    have hceil : ⌈(1 / 10 : ℚ) * ([(3 : Int), 1, 2].length : ℕ)⌉₊ = 1 := by
      rw [Nat.ceil_eq_iff one_ne_zero]
      norm_num
    rw [determineB, hceil, growB, if_neg (by norm_num)]
  obtain ⟨hstatus, -, hlen⟩ := (approxQuantile_guarantee [3, 1, 2] 2 2 (1 / 10) hmax).2
    (by norm_num) (by norm_num) (by norm_num) le_rfl (by simp) (by rw [hb]; decide)
  exact ⟨hmax, hstatus, hlen⟩

end Datacl
