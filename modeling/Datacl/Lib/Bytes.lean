import Mathlib.Data.List.Basic
import Mathlib.Tactic.Ring

/-!
# Numbers in memory, least significant byte first
-/

namespace Bytes

/-- The `w` bytes that hold `n`; what does not fit is lost. -/
def put : Nat → Nat → List UInt8
  | 0, _ => []
  | w + 1, n => UInt8.ofNat n :: put w (n / 256)

/-- The number that some bytes hold. -/
def get : List UInt8 → Nat
  | [] => 0
  | b :: bs => b.toNat + 256 * get bs

/-- The same, read as a signed number of `w` bytes. -/
def getSigned (w : Nat) (bs : List UInt8) : Int := (get bs : Int).bmod (256 ^ w)

@[simp] lemma length_put (w n : Nat) : (put w n).length = w := by
  induction w generalizing n with
  | zero => rfl
  | succ w ih => rw [put, List.length_cons, ih]

lemma get_put (w n : Nat) : get (put w n) = n % 256 ^ w := by
  induction w generalizing n with
  | zero => rw [pow_zero, Nat.mod_one, put, get]
  | succ w ih =>
    have hbyte : (UInt8.ofNat n).toNat = n % 256 := UInt8.toNat_ofNat'
    rw [put, get, ih, hbyte, pow_succ', Nat.mod_mul]

lemma get_append (bs cs : List UInt8) : get (bs ++ cs) = get bs + 256 ^ bs.length * get cs := by
  induction bs with
  | nil => rw [List.nil_append, get, List.length_nil, pow_zero, one_mul, zero_add]
  | cons b bs ih =>
    rw [List.cons_append, get, get, ih, List.length_cons, pow_succ]
    ring

lemma get_replicate_zero (n : Nat) : get (List.replicate n 0) = 0 := by
  induction n with
  | zero => rfl
  | succ n ih =>
    rw [List.replicate_succ, get, ih]
    rfl

/-- A small number is read as it is. -/
lemma getSigned_of_lt {w : Nat} {bs : List UInt8} (h : 2 * get bs < 256 ^ w) :
    getSigned w bs = get bs := by
  rw [getSigned, Int.bmod_eq_of_le]
  · omega
  · omega

end Bytes
