import Mathlib.Tactic.Linarith

/-!
# Two's complement
-/

namespace CInt

/-- The value of an expression stored in a signed integer of `w` bits. -/
def wrap (w : Nat) (z : Int) : Int := z.bmod (2 ^ w)

lemma wrap_lt (w : Nat) (z : Int) : wrap (w + 1) z < 2 ^ w := by
  have h := Int.bmod_lt (x := z) (m := 2 ^ (w + 1)) (by positivity)
  push_cast at h
  rw [pow_succ] at h
  rw [wrap, pow_succ]
  omega

lemma le_wrap (w : Nat) (z : Int) : -2 ^ w ≤ wrap (w + 1) z := by
  have h := Int.le_bmod (x := z) (m := 2 ^ (w + 1)) (by positivity)
  have hdouble : (2 : Int) ^ (w + 1) = 2 ^ w * 2 := pow_succ 2 w
  push_cast at h
  rw [wrap]
  omega

lemma wrap_mul_wrap (w : Nat) (a b : Int) : wrap w (a * wrap w b) = wrap w (a * b) :=
  Int.mul_bmod_bmod

lemma wrap_wrap_mul (w : Nat) (a b : Int) : wrap w (wrap w a * b) = wrap w (a * b) :=
  Int.bmod_mul_bmod

lemma wrap_of_mem {w : Nat} {z : Int} (h0 : -2 ^ w ≤ z) (h : z < 2 ^ w) : wrap (w + 1) z = z := by
  rw [wrap, Int.bmod_eq_of_le]
  · push_cast
    rw [pow_succ]
    omega
  · push_cast
    rw [pow_succ]
    omega

lemma wrap_of_lt {w : Nat} {z : Int} (h0 : 0 ≤ z) (h : z < 2 ^ w) : wrap (w + 1) z = z := by
  apply wrap_of_mem _ h
  have hpos : (0 : Int) < 2 ^ w := by positivity
  omega

/-- What does not fit becomes smaller. -/
lemma wrap_lt_self {w : Nat} {z : Int} (h : 2 ^ w ≤ z) : wrap (w + 1) z < z :=
  (wrap_lt w z).trans_le h

/-- Half of a number that does not fit becomes smaller. -/
lemma wrap_tdiv_two_lt {w : Nat} {p : Int} (h : 2 ^ w ≤ 2 * p) :
    (wrap (w + 1) (2 * p)).tdiv 2 < p := by
  have hlt := wrap_lt_self h
  have hpos : (0 : Int) < 2 ^ w := by positivity
  rcases le_or_gt 0 (wrap (w + 1) (2 * p)) with hz | hz
  · rw [Int.tdiv_eq_ediv_of_nonneg hz]
    omega
  · have hneg : 0 ≤ (-wrap (w + 1) (2 * p)).tdiv 2 := Int.tdiv_nonneg (by omega) (by omega)
    rw [Int.neg_tdiv] at hneg
    omega

lemma wrap_of_ge {w : Nat} {z : Int} (h : 2 ^ w ≤ z) (hlt : z < 2 ^ (w + 1)) :
    wrap (w + 1) z = z - 2 ^ (w + 1) := by
  have hpos : (0 : Int) < 2 ^ w := by positivity
  have hsub : wrap (w + 1) (z - 2 ^ (w + 1)) = z - 2 ^ (w + 1) := by
    rw [pow_succ] at hlt ⊢
    exact wrap_of_mem (by omega) (by omega)
  rw [← hsub, wrap, wrap, Int.bmod_eq_bmod_iff_bmod_sub_eq_zero, Int.sub_sub_self,
    ← Int.dvd_iff_bmod_eq_zero]
  push_cast
  exact dvd_rfl

end CInt
