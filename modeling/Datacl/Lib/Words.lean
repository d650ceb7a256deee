import Mathlib.Data.List.Basic

/-!
# Bits of a byte buffer seen as 64 bit words

A word is 8 bytes, the least significant first, so that bit `i` of a buffer is the same bit whether
the buffer is read by bytes or by words.
-/

namespace Words

abbrev Byte := BitVec 8

/-- Bit `i` of a buffer. -/
def bitAt (Y : List Byte) (i : Nat) : Bool := (Y.getD (i / 8) 0).getLsbD (i % 8)

/-- The word that some bytes hold. -/
def ofBytes : List Byte → BitVec 64
  | [] => 0
  | b :: bs => b.setWidth 64 ||| (ofBytes bs <<< 8)

/-- The bytes of a word. -/
def toBytes (w : BitVec 64) : List Byte := (List.range 8).map fun k => w.extractLsb' (8 * k) 8

/-- The word `Y[k]`. -/
def load (Y : List Byte) (k : Nat) : BitVec 64 := ofBytes ((Y.drop (8 * k)).take 8)

/-- The buffer after `Y[k] = w`. -/
def store (Y : List Byte) (k : Nat) (w : BitVec 64) : List Byte :=
  Y.take (8 * k) ++ (toBytes w ++ Y.drop (8 * k + 8))

lemma getLsbD_ofBytes {bs : List Byte} {i : Nat} (hi : i < 64) :
    (ofBytes bs).getLsbD i = bitAt bs i := by
  induction bs generalizing i with
  | nil => simp [ofBytes, bitAt]
  | cons b bs ih =>
    rw [ofBytes, BitVec.getLsbD_or, BitVec.getLsbD_setWidth, BitVec.getLsbD_shiftLeft, bitAt]
    by_cases h : i < 8
    · simp [h, hi, Nat.div_eq_of_lt h, Nat.mod_eq_of_lt h]
    · obtain ⟨j, rfl⟩ : ∃ j, i = j + 8 := ⟨i - 8, by omega⟩
      rw [Nat.add_sub_cancel, ih (by omega), BitVec.getLsbD_of_ge b _ (by omega),
        Nat.add_div_right _ (by omega), Nat.add_mod_right, bitAt]
      simp [hi]

lemma bitAt_toBytes {w : BitVec 64} {i : Nat} (hi : i < 64) : bitAt (toBytes w) i = w.getLsbD i := by
  have hk : i / 8 < 8 := by omega
  have hsplit : 8 * (i / 8) + i % 8 = i := Nat.div_add_mod i 8
  rw [bitAt, toBytes, List.getD_eq_getElem?_getD, List.getElem?_map, List.getElem?_range hk,
    Option.map_some, Option.getD_some, BitVec.getLsbD_extractLsb', hsplit]
  simp [Nat.mod_lt]

lemma bitAt_load {Y : List Byte} {k i : Nat} (hi : i < 64) :
    (load Y k).getLsbD i = bitAt Y (64 * k + i) := by
  have hk : i / 8 < 8 := by omega
  have hdiv : (64 * k + i) / 8 = 8 * k + i / 8 := by omega
  have hmod : (64 * k + i) % 8 = i % 8 := by omega
  rw [load, getLsbD_ofBytes hi, bitAt, bitAt, hdiv, hmod, List.getD_eq_getElem?_getD,
    List.getElem?_take_of_lt hk, List.getElem?_drop, List.getD_eq_getElem?_getD]

@[simp] lemma length_toBytes (w : BitVec 64) : (toBytes w).length = 8 := by simp [toBytes]

lemma length_store {Y : List Byte} {k : Nat} (hk : 8 * k + 8 ≤ Y.length) (w : BitVec 64) :
    (store Y k w).length = Y.length := by
  rw [store, List.length_append, List.length_append, length_toBytes, List.length_take,
    List.length_drop]
  omega

lemma bitAt_store {Y : List Byte} {k : Nat} (hk : 8 * k + 8 ≤ Y.length) (w : BitVec 64) (i : Nat) :
    bitAt (store Y k w) i = if i / 64 = k then w.getLsbD (i % 64) else bitAt Y i := by
  have hlen : (Y.take (8 * k)).length = 8 * k := List.length_take_of_le (by omega)
  have hget : ∀ j, (store Y k w).getD j 0 = if j < 8 * k then Y.getD j 0
      else if j < 8 * k + 8 then (toBytes w).getD (j - 8 * k) 0 else Y.getD j 0 := by
    intro j
    rw [store]
    simp only [List.getD_eq_getElem?_getD]
    split_ifs with h1 h2
    · rw [List.getElem?_append_left (by omega), List.getElem?_take_of_lt h1]
    · rw [List.getElem?_append_right (by omega), hlen,
        List.getElem?_append_left (by rw [length_toBytes]; omega)]
    · rw [List.getElem?_append_right (by omega), hlen,
        List.getElem?_append_right (by rw [length_toBytes]; omega), length_toBytes,
        List.getElem?_drop]
      congr 2
      omega
  rw [bitAt, hget]
  split_ifs with h1 h2 h3 h4 h5
  · omega
  · rfl
  · have hbit := bitAt_toBytes (w := w) (i := i % 64) (Nat.mod_lt _ (by omega))
    have hdiv : i % 64 / 8 = i / 8 - 8 * k := by omega
    have hmod : i % 64 % 8 = i % 8 := by omega
    rw [← hbit, bitAt, hdiv, hmod]
  · omega
  · omega
  · rfl

end Words
