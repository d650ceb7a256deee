import Datacl.Lib.Words
import Mathlib.Tactic.IntervalCases
import Mathlib.Tactic.Ring

/-!
# The number of ones in a bit column

`f_to_s_sum_B` counts the bits up to the first word boundary by bytes, the whole words by words and
the rest by bytes again. The bits of a byte that is counted in part are cut out by a mask.
-/

namespace Datacl

open Words

/-- `__builtin_popcount`. -/
def popcount {w : Nat} (x : BitVec w) : Nat := (List.range w).countP fun i => x.getLsbD i

/-- The masks of `mask_byte_L`, for the bits at the upper end of a byte. -/
def maskL : Nat → Option Byte
  | 1 => some 0x80
  | 2 => some 0xB0
  | 3 => some 0xD0
  | 4 => some 0xF0
  | 5 => some 0xF8
  | 6 => some 0xFB
  | 7 => some 0xFD
  | _ => none

/-- The masks of `mask_byte_R`, for the bits at the lower end. -/
def maskR : Nat → Option Byte
  | 1 => some 0x01
  | 2 => some 0x03
  | 3 => some 0x07
  | 4 => some 0x0F
  | 5 => some 0x1F
  | 6 => some 0x3F
  | 7 => some 0x7F
  | _ => none

/-- The number of ones of a `char`, whose sign bit is counted by itself. -/
def charPopcount (c : Byte) : Nat :=
  if c.msb then 1 + popcount (c &&& 0x7F) else popcount c

/-- A byte that is counted as a whole, and the checks of the count. -/
def wholeByte (c : Byte) : Option Nat :=
  let n := charPopcount c
  if 8 < n then none
  else if c = 0 ∧ 0 < n then none
  else if c ≠ 0 ∧ n = 0 then none
  else some n

/-- A word, and the checks of the count. -/
def wholeWord (x : BitVec 64) : Option Nat :=
  let n := popcount x
  if x = 0 ∧ 0 < n then none
  else if x ≠ 0 ∧ n = 0 then none
  else some n

/-- Whole bytes from byte `start` on. -/
def wholeBytes (X : List Byte) (start n : Nat) : Option Nat :=
  ((List.range n).mapM fun i => wholeByte (X.getD (start + i) 0)).map List.sum

/-- The words from word `start` on. -/
def wholeWords (X : List Byte) (start n : Nat) : Option Nat :=
  ((List.range n).mapM fun i => wholeWord (load X (start + i))).map List.sum

/-- `lb2`: the first word boundary from `lb` on. -/
def wordCeil (lb : Nat) : Nat := if lb / 64 * 64 ≠ lb then lb / 64 * 64 + 64 else lb / 64 * 64

/-- The bits up to the word boundary `lb2`. The byte that is counted in part is taken to be the last
one of the word. -/
def leadingBits (X : List Byte) (lb lb2 : Nat) : Option Nat :=
  if lb < lb2 then do
    let nBytesLeft := (lb2 - lb) / 8
    let first := lb2 / 8 - nBytesLeft
    let whole ← wholeBytes X first nBytesLeft
    let nBitsLeft := lb2 - lb - nBytesLeft * 8
    if 0 < nBitsLeft then do
      let mask ← maskL nBitsLeft
      pure (whole + charPopcount (X.getD (first - 1 + nBytesLeft) 0 &&& mask))
    else pure whole
  else pure 0

/-- The bits from the word boundary `ub2` on. -/
def trailingBits (X : List Byte) (ub2 ub : Nat) : Option Nat :=
  if ub2 < ub then do
    let nBytesLeft := (ub - ub2) / 8
    let whole ← wholeBytes X (ub2 / 8) nBytesLeft
    let nBitsLeft := ub - ub2 - nBytesLeft * 8
    if 0 < nBitsLeft then do
      let mask ← maskR nBitsLeft
      let c := X.getD (ub2 / 8 + nBytesLeft) 0 &&& mask
      if c.msb then none else pure (whole + popcount c)
    else pure whole
  else pure 0

/-- `f_to_s_sum_B`, which adds to the given result. If the range lies within a word, there is no
word between `lb2` and `ub2`. -/
def fToSSumB (X : List Byte) (lb ub rslt : Nat) : Option Nat := do
  let lb2 := wordCeil lb
  let ub2 := ub / 64 * 64
  let leading ← leadingBits X lb lb2
  let words ← wholeWords X (lb2 / 64) ((ub2 - lb2) / 64)
  let trailing ← trailingBits X ub2 ub
  pure (rslt + (leading + words + trailing))

/-! ### Counting bits -/

/-- The number of ones at the positions from `lb` to `ub - 1`. -/
def countBits (X : List Byte) (lb ub : Nat) : Nat := (List.range' lb (ub - lb)).countP (bitAt X)

lemma countBits_add (X : List Byte) {lb m ub : Nat} (h : lb ≤ m) (h' : m ≤ ub) :
    countBits X lb m + countBits X m ub = countBits X lb ub := by
  obtain ⟨a, rfl⟩ := Nat.exists_eq_add_of_le h
  obtain ⟨b, rfl⟩ := Nat.exists_eq_add_of_le h'
  have hsum : lb + a + b - lb = a + b := by omega
  unfold countBits
  rw [Nat.add_sub_cancel_left, Nat.add_sub_cancel_left, hsum, ← List.range'_append_1,
    List.countP_append]

@[simp] lemma countBits_self (X : List Byte) (lb : Nat) : countBits X lb lb = 0 := by
  simp [countBits]

lemma popcount_eq_countBits (X : List Byte) {w : Nat} (x : BitVec w) (lb : Nat)
    (h : ∀ i < w, x.getLsbD i = bitAt X (lb + i)) : popcount x = countBits X lb (lb + w) := by
  unfold popcount countBits
  rw [Nat.add_sub_cancel_left, List.range'_eq_map_range, List.countP_map]
  refine List.countP_congr fun i hi => ?_
  rw [h i (List.mem_range.mp hi)]
  rfl

lemma popcount_load (X : List Byte) (k : Nat) :
    popcount (load X k) = countBits X (64 * k) (64 * k + 64) :=
  popcount_eq_countBits X _ _ fun _ hi => bitAt_load hi

lemma getLsbD_byte (X : List Byte) (k : Nat) {i : Nat} (hi : i < 8) :
    (X.getD k 0).getLsbD i = bitAt X (8 * k + i) := by
  have hdiv : (8 * k + i) / 8 = k := by omega
  have hmod : (8 * k + i) % 8 = i := by omega
  rw [bitAt, hdiv, hmod]

lemma popcount_byte (X : List Byte) (k : Nat) :
    popcount (X.getD k 0) = countBits X (8 * k) (8 * k + 8) :=
  popcount_eq_countBits X _ _ fun _ hi => getLsbD_byte X k hi

lemma charPopcount_eq : ∀ c : Byte, charPopcount c = popcount c := by decide +kernel

lemma wholeByte_eq : ∀ c : Byte, wholeByte c = some (popcount c) := by decide +kernel

lemma eq_zero_of_popcount {w : Nat} {x : BitVec w} (h : popcount x = 0) : x = 0 := by
  apply BitVec.eq_of_getLsbD_eq
  intro i hi
  have hi' := List.countP_eq_zero.mp h i (List.mem_range.mpr hi)
  rw [Bool.not_eq_true] at hi'
  rw [hi']
  simp

lemma wholeWord_eq (x : BitVec 64) : wholeWord x = some (popcount x) := by
  have hzero : popcount (0 : BitVec 64) = 0 := by simp [popcount]
  unfold wholeWord
  dsimp only
  rw [if_neg, if_neg]
  · exact fun h => h.1 (eq_zero_of_popcount h.2)
  · rintro ⟨rfl, h⟩
    omega

/-- Consecutive parts of the same size. -/
lemma sum_countBits (X : List Byte) (w start n : Nat) :
    ((List.range n).map fun i => countBits X (w * (start + i)) (w * (start + i) + w)).sum =
      countBits X (w * start) (w * (start + n)) := by
  induction n with
  | zero => simp
  | succ n ih =>
    have hnext : w * (start + (n + 1)) = w * (start + n) + w := by ring
    rw [List.range_succ, List.map_append, List.sum_append, ih, List.map_singleton, List.sum_singleton,
      hnext]
    refine countBits_add X ?_ (Nat.le_add_right _ _)
    exact Nat.mul_le_mul_left w (Nat.le_add_right start n)

lemma wholeBytes_eq (X : List Byte) (start n : Nat) :
    wholeBytes X start n = some (countBits X (8 * start) (8 * (start + n))) := by
  have hpure : (fun i => wholeByte (X.getD (start + i) 0)) = fun i =>
      (pure (countBits X (8 * (start + i)) (8 * (start + i) + 8)) : Option Nat) := by
    funext i
    rw [wholeByte_eq, popcount_byte]
    rfl
  rw [wholeBytes, hpure, List.mapM_pure, ← sum_countBits X 8 start n]
  rfl

lemma wholeWords_eq (X : List Byte) (start n : Nat) :
    wholeWords X start n = some (countBits X (64 * start) (64 * (start + n))) := by
  have hpure : (fun i => wholeWord (load X (start + i))) = fun i =>
      (pure (countBits X (64 * (start + i)) (64 * (start + i) + 64)) : Option Nat) := by
    funext i
    rw [wholeWord_eq, popcount_load]
    rfl
  rw [wholeWords, hpure, List.mapM_pure, ← sum_countBits X 64 start n]
  rfl

/-! ### The three parts -/

/-- The first byte boundary from `lb` on. -/
def byteCeil (lb : Nat) : Nat := (lb + 7) / 8 * 8

/-- What the mask leaves of the last byte of the word that `lb` is in. -/
def maskedLast (X : List Byte) (lb : Nat) : Nat :=
  popcount (X.getD (wordCeil lb / 8 - 1) 0 &&& (maskL (8 - lb % 8)).getD 0)

lemma le_wordCeil (lb : Nat) : lb ≤ wordCeil lb := by
  unfold wordCeil
  split_ifs with h <;> omega

lemma wordCeil_mod (lb : Nat) : wordCeil lb % 64 = 0 := by
  unfold wordCeil
  split_ifs with h <;> omega

lemma wordCeil_lt (lb : Nat) : wordCeil lb < lb + 64 := by
  unfold wordCeil
  split_ifs with h <;> omega

lemma maskL_eq_some {n : Nat} (h0 : 0 < n) (h : n < 8) : maskL n = some ((maskL n).getD 0) := by
  interval_cases n <;> rfl

lemma leadingBits_eq (X : List Byte) (lb : Nat) :
    leadingBits X lb (wordCeil lb) =
      some (countBits X (byteCeil lb) (wordCeil lb) + if lb % 8 = 0 then 0 else maskedLast X lb) := by
  have hle := le_wordCeil lb
  have hmod := wordCeil_mod lb
  have hlt := wordCeil_lt lb
  unfold leadingBits byteCeil
  by_cases h : lb < wordCeil lb
  · have hfirst : 8 * (wordCeil lb / 8 - (wordCeil lb - lb) / 8) = (lb + 7) / 8 * 8 := by omega
    have hlast : 8 * (wordCeil lb / 8 - (wordCeil lb - lb) / 8 + (wordCeil lb - lb) / 8) =
        wordCeil lb := by omega
    have hbyte : wordCeil lb / 8 - (wordCeil lb - lb) / 8 - 1 + (wordCeil lb - lb) / 8 =
        wordCeil lb / 8 - 1 := by omega
    rw [if_pos h]
    dsimp only
    rw [wholeBytes_eq, hfirst, hlast, Option.bind_eq_bind, Option.bind_some]
    by_cases h8 : lb % 8 = 0
    · rw [if_neg (by omega), if_pos h8]
      rfl
    · have hleft : wordCeil lb - lb - (wordCeil lb - lb) / 8 * 8 = 8 - lb % 8 := by omega
      rw [if_pos (by omega), if_neg h8, hleft, maskL_eq_some (by omega) (by omega), hbyte,
        Option.bind_eq_bind, Option.bind_some, charPopcount_eq]
      rfl
  · have heq : wordCeil lb = lb := by omega
    have hceil : (lb + 7) / 8 * 8 = lb := by omega
    rw [if_neg h, hceil, heq, countBits_self, if_pos (by omega)]
    rfl

lemma popcount_maskR {n : Nat} (h0 : 0 < n) (h : n < 8) :
    ∃ mask, maskR n = some mask ∧
      ∀ c : Byte, (c &&& mask).msb = false ∧ popcount (c &&& mask) = popcount (c.setWidth n) := by
  interval_cases n
  all_goals
    refine ⟨_, rfl, ?_⟩
    decide +kernel

lemma trailingBits_eq (X : List Byte) (ub : Nat) :
    trailingBits X (ub / 64 * 64) ub = some (countBits X (ub / 64 * 64) ub) := by
  unfold trailingBits
  by_cases h : ub / 64 * 64 < ub
  · have hstart : 8 * (ub / 64 * 64 / 8) = ub / 64 * 64 := by omega
    have hend : 8 * (ub / 64 * 64 / 8 + (ub - ub / 64 * 64) / 8) = ub / 8 * 8 := by omega
    have hbyte : ub / 64 * 64 / 8 + (ub - ub / 64 * 64) / 8 = ub / 8 := by omega
    have hleft : ub - ub / 64 * 64 - (ub - ub / 64 * 64) / 8 * 8 = ub % 8 := by omega
    rw [if_pos h]
    dsimp only
    rw [wholeBytes_eq, hstart, hend, hbyte, hleft, Option.bind_eq_bind, Option.bind_some]
    by_cases h8 : ub % 8 = 0
    · have heq : ub / 8 * 8 = ub := by omega
      rw [if_neg (by omega), heq]
      rfl
    · obtain ⟨mask, hmask, hpop⟩ := popcount_maskR (n := ub % 8) (by omega) (by omega)
      obtain ⟨hmsb, hcount⟩ := hpop (X.getD (ub / 8) 0)
      have hbits : popcount ((X.getD (ub / 8) 0).setWidth (ub % 8)) =
          countBits X (8 * (ub / 8)) (8 * (ub / 8) + ub % 8) := by
        refine popcount_eq_countBits X _ _ fun i hi => ?_
        rw [BitVec.getLsbD_setWidth, decide_eq_true hi, Bool.true_and, getLsbD_byte X _ (by omega)]
      have hsplit : 8 * (ub / 8) = ub / 8 * 8 := by omega
      have hub : ub / 8 * 8 + ub % 8 = ub := by omega
      rw [hsplit, hub] at hbits
      rw [if_pos (by omega), hmask, Option.bind_eq_bind, Option.bind_some]
      rw [hmsb, if_neg (by simp), hcount, hbits]
      exact congrArg some (countBits_add X (by omega) (by omega))
  · have heq : ub / 64 * 64 = ub := by omega
    rw [if_neg h, heq, countBits_self]
    rfl

/-! ### The whole range -/

/-- The bits counted before the first word boundary are those from `lb` on, and if that boundary
lies behind the range, the word that is counted from both sides has no ones but those in the
range. -/
def LeadingRight (X : List Byte) (lb ub : Nat) : Prop :=
  if wordCeil lb ≤ ub then lb % 8 = 0 ∨ maskedLast X lb = countBits X lb (byteCeil lb)
  else countBits X (wordCeil lb - 64) lb = 0 ∧ countBits X (byteCeil lb) (wordCeil lb) = 0 ∧
    (lb % 8 = 0 ∨ maskedLast X lb = 0)

lemma fToSSumB_eq (X : List Byte) (lb ub rslt : Nat) :
    fToSSumB X lb ub rslt =
      some (rslt + (countBits X (byteCeil lb) (wordCeil lb) +
        (if lb % 8 = 0 then 0 else maskedLast X lb) +
        countBits X (wordCeil lb) (max (wordCeil lb) (ub / 64 * 64)) +
        countBits X (ub / 64 * 64) ub)) := by
  have hmod := wordCeil_mod lb
  have hstart : 64 * (wordCeil lb / 64) = wordCeil lb := by omega
  have hend : 64 * (wordCeil lb / 64 + (ub / 64 * 64 - wordCeil lb) / 64) =
      max (wordCeil lb) (ub / 64 * 64) := by omega
  unfold fToSSumB
  dsimp only
  rw [leadingBits_eq, wholeWords_eq, trailingBits_eq, hstart, hend]
  rfl

/-- The count is right if and only if the bits in front of the first word boundary are counted
right. -/
theorem fToSSumB_eq_countBits_iff (X : List Byte) {lb ub : Nat} (h : lb ≤ ub) (rslt : Nat) :
    fToSSumB X lb ub rslt = some (rslt + countBits X lb ub) ↔ LeadingRight X lb ub := by
  have hmod := wordCeil_mod lb
  have hle := le_wordCeil lb
  have hlt := wordCeil_lt lb
  have hbyte : lb ≤ byteCeil lb ∧ byteCeil lb ≤ wordCeil lb := by
    unfold byteCeil
    omega
  rw [fToSSumB_eq, Option.some_inj, Nat.add_left_cancel_iff]
  unfold LeadingRight
  by_cases hub : wordCeil lb ≤ ub
  · have hwords := countBits_add X (show wordCeil lb ≤ ub / 64 * 64 by omega)
      (show ub / 64 * 64 ≤ ub by omega)
    have hhead := countBits_add X hbyte.1 hbyte.2
    have hall := countBits_add X hle hub
    rw [if_pos hub, max_eq_right (by omega)]
    split_ifs with h8
    · have hceil : byteCeil lb = lb := by
        unfold byteCeil
        omega
      rw [hceil, countBits_self] at hhead
      simp only [h8, true_or, iff_true, hceil]
      omega
    · simp only [h8, false_or]
      omega
  · -- the range lies within the word that ends at `wordCeil lb`
    have hlow : ub / 64 * 64 = wordCeil lb - 64 := by omega
    have hsplit := countBits_add X (show wordCeil lb - 64 ≤ lb by omega) h
    rw [if_neg hub, max_eq_left (by omega), countBits_self, hlow]
    split_ifs with h8
    · simp only [h8, true_or, and_true]
      omega
    · simp only [h8, false_or]
      omega

theorem fToSSumB_from_byte :
    fToSSumB (List.replicate 16 0x0F) 24 100 0 =
      some (0 + countBits (List.replicate 16 0x0F) 24 100) :=
  (fToSSumB_eq_countBits_iff _ (by decide) 0).mpr (.inl rfl)

/-- The last two bits of a word of ones. -/
theorem fToSSumB_last_two_bits :
    fToSSumB (List.replicate 8 0xFF) 62 64 0 = some 3 ∧
      countBits (List.replicate 8 0xFF) 62 64 = 2 := by
  decide +kernel

end Datacl
