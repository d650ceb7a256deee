import Mathlib.Data.Nat.Bitwise

/-!
# Bit fields of a word

Numbers are put next to each other into the bits of a word, each into a field of its own, and are
read back by a shift and a mask.
-/

namespace BitFields

structure Field where
  shift : Nat
  nbits : Nat
  deriving DecidableEq

/-- The two fields have no bit in common. -/
def Apart (f g : Field) : Prop := f.shift + f.nbits ≤ g.shift ∨ g.shift + g.nbits ≤ f.shift

instance (f g : Field) : Decidable (Apart f g) :=
  inferInstanceAs (Decidable (f.shift + f.nbits ≤ g.shift ∨ g.shift + g.nbits ≤ f.shift))

/-- The word with every number in its field. -/
def insertAll (w : Nat) : List (Field × Nat) → BitVec w
  | [] => 0
  | (f, x) :: l => BitVec.ofNat w x <<< f.shift ||| insertAll w l

/-- The word in which the lowest `n` bits are set. -/
def mask (w n : Nat) : BitVec w := BitVec.ofNat w (2 ^ n - 1)

variable {w : Nat} {f : Field} {x : Nat}

lemma getLsbD_mask (n i : Nat) : (mask w n).getLsbD i = (decide (i < w) && decide (i < n)) := by
  rw [mask, BitVec.getLsbD_ofNat, Nat.testBit_two_pow_sub_one]

lemma getLsbD_inside {j : Nat} (hw : f.shift + j < w) :
    (BitVec.ofNat w x <<< f.shift).getLsbD (f.shift + j) = x.testBit j := by
  have hle : ¬ f.shift + j < f.shift := by omega
  have hj : j < w := by omega
  rw [BitVec.getLsbD_shiftLeft, Nat.add_sub_cancel_left, BitVec.getLsbD_ofNat]
  simp [hw, hle, hj]

/-- A number that fits into its field touches no other bit. -/
lemma getLsbD_outside (hx : x < 2 ^ f.nbits) {i : Nat} (hi : i < f.shift ∨ f.shift + f.nbits ≤ i) :
    (BitVec.ofNat w x <<< f.shift).getLsbD i = false := by
  rw [BitVec.getLsbD_shiftLeft]
  rcases hi with hi | hi
  · simp [hi]
  · have hlt : x < 2 ^ (i - f.shift) := hx.trans_le (Nat.pow_le_pow_right (by omega) (by omega))
    rw [BitVec.getLsbD_ofNat, Nat.testBit_lt_two_pow hlt]
    simp

lemma getLsbD_insertAll_outside {l : List (Field × Nat)} {g : Field} {j : Nat}
    (hl : ∀ p ∈ l, p.2 < 2 ^ p.1.nbits ∧ Apart g p.1) (hj : j < g.nbits) :
    (insertAll w l).getLsbD (g.shift + j) = false := by
  induction l with
  | nil => simp [insertAll]
  | cons p l ih =>
    obtain ⟨⟨hx, hapart⟩, hrest⟩ := List.forall_mem_cons.mp hl
    have hout : g.shift + j < p.1.shift ∨ p.1.shift + p.1.nbits ≤ g.shift + j := by
      rcases hapart with h | h
      · exact .inl (by omega)
      · exact .inr (by omega)
    rw [insertAll, BitVec.getLsbD_or, getLsbD_outside hx hout, ih hrest, Bool.or_false]

lemma getLsbD_insertAll {l : List (Field × Nat)} (hx : ∀ p ∈ l, p.2 < 2 ^ p.1.nbits)
    (hapart : l.Pairwise fun p q => Apart p.1 q.1) {p : Field × Nat} (hp : p ∈ l) {j : Nat}
    (hj : j < p.1.nbits) (hw : p.1.shift + j < w) :
    (insertAll w l).getLsbD (p.1.shift + j) = p.2.testBit j := by
  induction l with
  | nil => cases hp
  | cons q l ih =>
    rw [List.forall_mem_cons] at hx
    rw [List.pairwise_cons] at hapart
    rw [insertAll, BitVec.getLsbD_or]
    rcases List.mem_cons.mp hp with rfl | hmem
    · rw [getLsbD_inside hw, getLsbD_insertAll_outside (fun r hr => ⟨hx.2 r hr, hapart.1 r hr⟩) hj,
        Bool.or_false]
    · have hout : p.1.shift + j < q.1.shift ∨ q.1.shift + q.1.nbits ≤ p.1.shift + j := by
        rcases hapart.1 p hmem with h | h
        · exact .inr (by omega)
        · exact .inl (by omega)
      rw [getLsbD_outside hx.1 hout, Bool.false_or, ih hx.2 hapart.2 hmem]

/-- Every number is found again in its field. -/
theorem extract_insertAll {l : List (Field × Nat)} (hx : ∀ p ∈ l, p.2 < 2 ^ p.1.nbits)
    (hapart : l.Pairwise fun p q => Apart p.1 q.1) {p : Field × Nat} (hp : p ∈ l)
    (hw : p.1.shift + p.1.nbits ≤ w) :
    (insertAll w l >>> p.1.shift) &&& mask w p.1.nbits = BitVec.ofNat w p.2 := by
  refine BitVec.eq_of_getLsbD_eq fun j hj => ?_
  rw [BitVec.getLsbD_and, BitVec.getLsbD_ushiftRight, getLsbD_mask, BitVec.getLsbD_ofNat]
  by_cases hn : j < p.1.nbits
  · rw [getLsbD_insertAll hx hapart hp hn (by omega)]
    simp [hn, hj]
  · have hlt : p.2 < 2 ^ j := (hx p hp).trans_le (Nat.pow_le_pow_right (by omega) (by omega))
    rw [Nat.testBit_lt_two_pow hlt]
    simp [hn]

end BitFields
