import Mathlib.Tactic
import Mathlib.Data.Int.Log
import Mathlib.Data.Rat.Floor

/-!
# Rounding to doubles

The value of an arithmetic operation on doubles is the exact value rounded to a significand of 53
bits, ties to even. The exponent is not bounded, so the results are those of binary64 as long as
nothing overflows or is subnormal.
-/

namespace Binary64

/-! ### The nearest integer -/

/-- The nearest integer, ties to even. -/
def roundEven (t : ℚ) : ℤ :=
  if 2 * Int.fract t < 1 then ⌊t⌋
  else if 1 < 2 * Int.fract t then ⌊t⌋ + 1
  else if ⌊t⌋ % 2 = 0 then ⌊t⌋
  else ⌊t⌋ + 1

lemma floor_le_roundEven (t : ℚ) : ⌊t⌋ ≤ roundEven t := by
  unfold roundEven
  split_ifs <;> omega

lemma roundEven_le_floor_add_one (t : ℚ) : roundEven t ≤ ⌊t⌋ + 1 := by
  unfold roundEven
  split_ifs <;> omega

lemma le_roundEven {t : ℚ} {n : ℤ} (h : n ≤ t) : n ≤ roundEven t :=
  (Int.le_floor.mpr h).trans (floor_le_roundEven t)

@[simp] lemma roundEven_intCast (n : ℤ) : roundEven n = n := by
  simp [roundEven]

lemma roundEven_mono {s t : ℚ} (h : s ≤ t) : roundEven s ≤ roundEven t := by
  rcases (Int.floor_mono h).lt_or_eq with hlt | heq
  · calc roundEven s ≤ ⌊s⌋ + 1 := roundEven_le_floor_add_one s
      _ ≤ ⌊t⌋ := hlt
      _ ≤ roundEven t := floor_le_roundEven t
  · have hfract : Int.fract s ≤ Int.fract t := by
      rw [Int.fract, Int.fract, heq]
      linarith
    unfold roundEven
    rw [heq]
    split_ifs <;> first | omega | linarith

lemma roundEven_le {t : ℚ} {n : ℤ} (h : t ≤ n) : roundEven t ≤ n := by
  have hmono := roundEven_mono h
  rwa [roundEven_intCast] at hmono

lemma abs_roundEven_sub_le (t : ℚ) : |(roundEven t : ℚ) - t| ≤ 1 / 2 := by
  have hsplit := Int.floor_add_fract t
  have hnonneg := Int.fract_nonneg t
  have hlt := Int.fract_lt_one t
  unfold roundEven
  split_ifs <;> rw [abs_le] <;> push_cast <;> constructor <;> linarith

/-! ### Rounding to 53 bits -/

/-- The unit in the last place of the binade of a positive `q`. -/
def ulp (q : ℚ) : ℚ := 2 ^ (Int.log 2 q - 52)

/-- `q` rounded to a significand of 53 bits. -/
def round (q : ℚ) : ℚ := roundEven (q / ulp q) * ulp q

lemma ulp_pos (q : ℚ) : 0 < ulp q := zpow_pos (by norm_num) _

lemma two_zpow_eq_mul_ulp (q : ℚ) : (2 : ℚ) ^ Int.log 2 q = (2 ^ 52 : ℤ) * ulp q := by
  rw [ulp, zpow_sub₀ (by norm_num)]
  push_cast
  field_simp

lemma zpow_log_le {q : ℚ} (h : 0 < q) : (2 : ℚ) ^ Int.log 2 q ≤ q := by
  have hle := Int.zpow_log_le_self Nat.one_lt_two h
  exact_mod_cast hle

lemma lt_zpow_log_add_one (q : ℚ) : q < (2 : ℚ) ^ (Int.log 2 q + 1) := by
  have hlt := Int.lt_zpow_succ_log_self Nat.one_lt_two q
  exact_mod_cast hlt

lemma zpow_log_le_round {q : ℚ} (h : 0 < q) : (2 : ℚ) ^ Int.log 2 q ≤ round q := by
  have hle := zpow_log_le h
  rw [two_zpow_eq_mul_ulp] at hle ⊢
  have hint : ((2 ^ 52 : ℤ) : ℚ) ≤ q / ulp q := (le_div_iff₀ (ulp_pos q)).mpr hle
  apply mul_le_mul_of_nonneg_right _ (ulp_pos q).le
  exact_mod_cast le_roundEven hint

lemma round_le_zpow_log_add_one (q : ℚ) : round q ≤ (2 : ℚ) ^ (Int.log 2 q + 1) := by
  have hlt := lt_zpow_log_add_one q
  have hbinade : (2 : ℚ) ^ (Int.log 2 q + 1) = (2 ^ 53 : ℤ) * ulp q := by
    rw [zpow_add_one₀ (by norm_num), two_zpow_eq_mul_ulp]
    push_cast
    ring
  rw [hbinade] at hlt ⊢
  have hint : q / ulp q ≤ ((2 ^ 53 : ℤ) : ℚ) := (div_le_iff₀ (ulp_pos q)).mpr hlt.le
  apply mul_le_mul_of_nonneg_right _ (ulp_pos q).le
  exact_mod_cast roundEven_le hint

lemma round_pos {q : ℚ} (h : 0 < q) : 0 < round q :=
  (zpow_pos (by norm_num) _).trans_le (zpow_log_le_round h)

theorem round_mono {p q : ℚ} (hp : 0 < p) (h : p ≤ q) : round p ≤ round q := by
  rcases (Int.log_mono_right hp h : Int.log 2 p ≤ Int.log 2 q).lt_or_eq with hlt | heq
  · calc round p ≤ 2 ^ (Int.log 2 p + 1) := round_le_zpow_log_add_one p
      _ ≤ 2 ^ Int.log 2 q := zpow_le_zpow_right₀ (by norm_num) hlt
      _ ≤ round q := zpow_log_le_round (hp.trans_le h)
  · have hulp : ulp p = ulp q := by rw [ulp, ulp, heq]
    rw [round, round, hulp]
    apply mul_le_mul_of_nonneg_right _ (ulp_pos q).le
    exact_mod_cast roundEven_mono (div_le_div_of_nonneg_right h (ulp_pos q).le)

lemma abs_round_sub_le (q : ℚ) : |round q - q| ≤ ulp q / 2 := by
  have hq : q = q / ulp q * ulp q := (div_mul_cancel₀ q (ulp_pos q).ne').symm
  have hdiff : round q - q = (roundEven (q / ulp q) - q / ulp q) * ulp q := by
    rw [sub_mul, ← hq, round]
  rw [hdiff, abs_mul, abs_of_pos (ulp_pos q)]
  have hhalf := mul_le_mul_of_nonneg_right (abs_roundEven_sub_le (q / ulp q)) (ulp_pos q).le
  linarith

/-! ### Integers -/

lemma round_eq_self {q : ℚ} {n : ℤ} (h : q = n * ulp q) : round q = q := by
  have hdiv : q / ulp q = n := (div_eq_iff (ulp_pos q).ne').mpr h
  rw [round, hdiv, roundEven_intCast, ← h]

lemma log_natCast_lt {n : ℕ} (hpos : 0 < n) (h : n < 2 ^ 53) : Int.log 2 (n : ℚ) < 53 := by
  rw [← Int.lt_zpow_iff_log_lt Nat.one_lt_two (by exact_mod_cast hpos)]
  exact_mod_cast h

/-- Integers of up to 53 bits are doubles. -/
lemma round_natCast {n : ℕ} (h : n < 2 ^ 53) : round n = n := by
  rcases Nat.eq_zero_or_pos n with rfl | hpos
  · apply round_eq_self (n := 0)
    simp
  · have hlog := log_natCast_lt hpos h
    obtain ⟨d, hd⟩ := Int.eq_ofNat_of_zero_le (by omega : 0 ≤ 52 - Int.log 2 (n : ℚ))
    have hulp : ulp n = ((2 : ℚ) ^ d)⁻¹ := by
      rw [ulp, ← neg_sub, hd, zpow_neg, zpow_natCast]
    apply round_eq_self (n := n * 2 ^ d)
    rw [hulp]
    push_cast
    rw [mul_assoc, mul_inv_cancel₀ (by positivity), mul_one]

/-- A quotient of integers of up to 53 bits keeps its ceiling. -/
theorem ceil_round_div {a n : ℕ} (ha : 0 < a) (hn : 0 < n) (h : a < 2 ^ 53) :
    ⌈round (a / n : ℚ)⌉ = ⌈(a / n : ℚ)⌉ := by
  have haq : (0 : ℚ) < a := by exact_mod_cast ha
  have hnq : (1 : ℚ) ≤ n := by exact_mod_cast hn
  have hq : (0 : ℚ) < a / n := by positivity
  obtain ⟨c, hc⟩ := Int.eq_ofNat_of_zero_le (Int.ceil_pos.mpr hq).le
  have hlow : (c : ℚ) - 1 < a / n := by
    have := Int.ceil_lt_add_one (a / n : ℚ)
    rw [hc] at this
    push_cast at this
    linarith
  have hhigh : (a / n : ℚ) ≤ c := by exact_mod_cast (hc ▸ Int.le_ceil (a / n : ℚ))
  rw [hc, Int.ceil_eq_iff]
  constructor
  · -- the error is below the distance `1 / n` of the quotient from the integer below it
    have hgap : ((c : ℚ) - 1) * n + 1 ≤ a := by
      have hlt : (((c : ℤ) - 1) * n : ℤ) < a := by exact_mod_cast (lt_div_iff₀ (by linarith)).mp hlow
      exact_mod_cast hlt
    have hulp : (2 ^ 52 : ℤ) * ulp (a / n) ≤ a / n := by
      rw [← two_zpow_eq_mul_ulp]
      exact zpow_log_le hq
    have hbound : ulp (a / n) * n < 2 := by
      have hmul := (le_div_iff₀ (by linarith)).mp hulp
      have hlt : (a : ℚ) < 2 ^ 53 := by exact_mod_cast h
      push_cast at hmul
      linarith
    have herr := (abs_le.mp (abs_round_sub_le (a / n : ℚ))).1
    have hquot : (a / n : ℚ) * n = a := div_mul_cancel₀ _ (by linarith)
    have hmul : ((c : ℚ) - 1) * n < round (a / n) * n := by
      have := mul_le_mul_of_nonneg_right herr (by linarith : (0 : ℚ) ≤ n)
      rw [sub_mul, hquot] at this
      linarith
    exact_mod_cast lt_of_mul_lt_mul_right hmul (by linarith)
  · have hca : c ≤ a := by
      have hle : (c : ℚ) - 1 < a := hlow.trans_le (div_le_self haq.le hnq)
      have hlt : (c : ℚ) < a + 1 := by linarith
      exact Nat.lt_succ_iff.mp (by exact_mod_cast hlt)
    have hmono := round_mono hq hhigh
    rw [round_natCast (hca.trans_lt h)] at hmono
    exact_mod_cast hmono

end Binary64
