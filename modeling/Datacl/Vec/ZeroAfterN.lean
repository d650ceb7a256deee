import Datacl.Vec.BitSum
import Mathlib.Data.List.GetD
import Mathlib.Tactic

/-!
# `zero_after_n`

The buffer is seen as words, with whatever memory follows it. The call counts set bits up to the
word at which `one_cnt` is reached and clears as many words as are left, but it clears them from the
start of the buffer; and it takes one word too many when the number of bits is a multiple of 64.
-/

namespace Datacl

/-- `assign_const_I8` -/
def assignConstI8 (val : BitVec 64) : Nat → List (BitVec 64) → List (BitVec 64)
  | 0, out => out
  | _ + 1, [] => []
  | n + 1, _ :: out => val :: assignConstI8 val n out

/-- `nY`, the number of words the call takes. -/
def wordsTaken (nR : Nat) : Nat := if nR / 64 / 64 ≠ nR then nR / 64 + 1 else nR / 64

/-- The counting loop from word `i` on: the value of `i` behind it. `none` is a read outside the
memory. -/
def countOnes (mem : List (BitVec 64)) (oneCnt : Nat) : Nat → Nat → Nat → Option Nat
  | 0, i, _ => some i
  | fuel + 1, i, cnt => do
    let w ← mem[i]?
    if oneCnt ≤ cnt + popcount w then some (i + 1)
    else countOnes mem oneCnt fuel (i + 1) (cnt + popcount w)

/-- `zero_after_n` on the words `Y[0]`, `Y[1]`, ... of the memory: the memory after the call and the
words it has read or written. `none` is an access outside the memory. -/
def zeroAfterN (mem : List (BitVec 64)) (nR oneCnt : Nat) :
    Option (List (BitVec 64) × List Nat) := do
  let nY := wordsTaken nR
  let i ← countOnes mem oneCnt nY 0 0
  if mem.length < nY - i then none
  else some (assignConstI8 0 (nY - i) mem, List.range i ++ List.range (nY - i))

/-! ### The words to keep -/

/-- The number of bits set in some words. -/
def setBits (words : List (BitVec 64)) : Nat := (words.map popcount).sum

/-- The running number of set bits has not reached `oneCnt` before word `t`. -/
def IsKept (words : List (BitVec 64)) (oneCnt t : Nat) : Prop :=
  ∀ u < t, setBits (words.take (u + 1)) < oneCnt

instance (words : List (BitVec 64)) (oneCnt : Nat) : DecidablePred (IsKept words oneCnt) :=
  fun t => inferInstanceAs (Decidable (∀ u < t, setBits (words.take (u + 1)) < oneCnt))

/-- How many words are to be kept. -/
def keptCount (words : List (BitVec 64)) (oneCnt : Nat) : Nat :=
  Nat.count (IsKept words oneCnt) words.length

lemma setBits_take_succ {words : List (BitVec 64)} {i : Nat} {w : BitVec 64}
    (h : words[i]? = some w) :
    setBits (words.take (i + 1)) = setBits (words.take i) + popcount w := by
  obtain ⟨hi, rfl⟩ := List.getElem?_eq_some_iff.mp h
  rw [setBits, setBits, List.take_add_one, List.getElem?_eq_getElem hi, Option.toList_some,
    List.map_append, List.sum_append, List.map_singleton, List.sum_singleton]

lemma IsKept.mono {words : List (BitVec 64)} {oneCnt t u : Nat} (h : IsKept words oneCnt t)
    (hut : u ≤ t) : IsKept words oneCnt u :=
  fun v hv => h v (hv.trans_le hut)

lemma isKept_succ {words : List (BitVec 64)} {oneCnt t : Nat} :
    IsKept words oneCnt (t + 1) ↔
      IsKept words oneCnt t ∧ setBits (words.take (t + 1)) < oneCnt := by
  constructor
  · intro h
    exact ⟨h.mono (Nat.le_succ t), h t (Nat.lt_succ_self t)⟩
  · rintro ⟨h, ht⟩ u hu
    rcases Nat.lt_succ_iff_lt_or_eq.mp hu with hu | rfl
    · exact h u hu
    · exact ht

section Loop

variable {mem : List (BitVec 64)} {oneCnt : Nat}

lemma countOnes_succ (fuel : Nat) {i : Nat} (hi : i < mem.length) :
    countOnes mem oneCnt (fuel + 1) i (setBits (mem.take i)) =
      if oneCnt ≤ setBits (mem.take (i + 1)) then some (i + 1)
      else countOnes mem oneCnt fuel (i + 1) (setBits (mem.take (i + 1))) := by
  have hw := List.getElem?_eq_getElem hi
  rw [countOnes, hw, Option.bind_eq_bind, Option.bind_some, setBits_take_succ hw]

/-- The loop stops behind the word at which the count is reached. -/
lemma countOnes_reached {fuel i r : Nat} (hir : i < r) (hr : r ≤ i + fuel) (hlen : r ≤ mem.length)
    (hlast : IsKept mem oneCnt (r - 1)) (hreached : ¬ IsKept mem oneCnt r) :
    countOnes mem oneCnt fuel i (setBits (mem.take i)) = some r := by
  induction fuel generalizing i with
  | zero => omega
  | succ fuel ih =>
    rw [countOnes_succ fuel (by omega)]
    split
    next hle =>
      have heq : r = i + 1 := by
        by_contra hne
        have := hlast i (by omega)
        omega
      rw [heq]
    next hnle =>
      have hne : r ≠ i + 1 := by
        rintro rfl
        exact hreached (isKept_succ.mpr ⟨hlast, not_le.mp hnle⟩)
      exact ih (by omega) (by omega)

/-- If the count is not reached the loop runs to its end. -/
lemma countOnes_not_reached {fuel i : Nat} (hlen : i + fuel ≤ mem.length)
    (hkept : IsKept mem oneCnt (i + fuel)) :
    countOnes mem oneCnt fuel i (setBits (mem.take i)) = some (i + fuel) := by
  induction fuel generalizing i with
  | zero => rfl
  | succ fuel ih =>
    have hlt := hkept i (by omega)
    have hsucc : i + 1 + fuel = i + (fuel + 1) := by omega
    rw [countOnes_succ fuel (by omega), if_neg (not_le.mpr hlt),
      ih (by omega) (by rwa [hsucc]), hsucc]

lemma le_of_countOnes {fuel i cnt r : Nat} (h : countOnes mem oneCnt fuel i cnt = some r) :
    i ≤ r := by
  induction fuel generalizing i cnt with
  | zero =>
    rw [countOnes, Option.some.injEq] at h
    exact h.le
  | succ fuel ih =>
    rw [countOnes] at h
    cases hw : mem[i]? with
    | none => simp [hw] at h
    | some w =>
      rw [hw, Option.bind_eq_bind, Option.bind_some] at h
      split at h
      next =>
        rw [Option.some.injEq] at h
        omega
      next => exact (Nat.le_succ i).trans (ih h)

/-- The loop passes every word before which the count is not reached. -/
lemma countOnes_passes {fuel i t r : Nat}
    (h : countOnes mem oneCnt fuel i (setBits (mem.take i)) = some r)
    (hkept : IsKept mem oneCnt t) (hit : i ≤ t) (ht : t < i + fuel) : t < r := by
  induction fuel generalizing i with
  | zero => omega
  | succ fuel ih =>
    rcases Nat.lt_or_ge i mem.length with hi | hi
    · rw [countOnes_succ fuel hi] at h
      rcases Nat.eq_or_lt_of_le hit with rfl | hlt
      · split at h
        next =>
          rw [Option.some.injEq] at h
          omega
        next => exact le_of_countOnes h
      · rw [if_neg (not_le.mpr (hkept i hlt))] at h
        exact ih h hlt (by omega)
    · rw [countOnes, List.getElem?_eq_none hi] at h
      exact absurd h (by simp)

end Loop

lemma wordsTaken_eq (nR : Nat) : wordsTaken nR = if nR = 0 then 0 else nR / 64 + 1 := by
  unfold wordsTaken
  split_ifs <;> omega

lemma getElem?_assignConstI8 (val : BitVec 64) (n : Nat) (mem : List (BitVec 64)) (t : Nat) :
    (assignConstI8 val n mem)[t]? = if t < n then mem[t]?.map (fun _ => val) else mem[t]? := by
  induction n generalizing mem t with
  | zero => simp [assignConstI8]
  | succ n ih =>
    cases mem with
    | nil => simp [assignConstI8]
    | cons w mem =>
      cases t with
      | zero => simp [assignConstI8]
      | succ t => simp [assignConstI8, ih]

/-! ### The number of words kept -/

section Kept

variable {words : List (BitVec 64)} {oneCnt : Nat}

lemma keptCount_le (words : List (BitVec 64)) (oneCnt : Nat) :
    keptCount words oneCnt ≤ words.length := Nat.count_le _

/-- The words to be kept are the first ones. -/
lemma isKept_iff_lt {t : Nat} (ht : t < words.length) :
    IsKept words oneCnt t ↔ t < keptCount words oneCnt := by
  constructor
  · intro h
    have hall : Nat.count (IsKept words oneCnt) (t + 1) = t + 1 :=
      Nat.count_iff_forall.mpr fun u hu => h.mono (by omega)
    have hle : Nat.count (IsKept words oneCnt) (t + 1) ≤ keptCount words oneCnt :=
      Nat.count_monotone _ ht
    omega
  · intro hlt
    by_contra hnot
    have hsplit := Nat.count_add (IsKept words oneCnt) t (words.length - t)
    have hzero : Nat.count (fun k => IsKept words oneCnt (t + k)) (words.length - t) = 0 := by
      rw [Nat.count_iff_forall_not]
      intro k _ hk
      exact hnot (hk.mono (Nat.le_add_right t k))
    have hle : Nat.count (IsKept words oneCnt) t ≤ t := Nat.count_le _
    unfold keptCount at hlt
    rw [Nat.add_sub_cancel' ht.le] at hsplit
    omega

lemma isKept_append (rest : List (BitVec 64)) {t : Nat} (ht : t ≤ words.length) :
    IsKept (words ++ rest) oneCnt t ↔ IsKept words oneCnt t := by
  apply forall₂_congr
  intro u hu
  rw [List.take_append_of_le_length (by omega)]

lemma keptCount_eq_length (h : IsKept words oneCnt words.length) :
    keptCount words oneCnt = words.length :=
  Nat.count_iff_forall.mpr fun _ ht => h.mono ht.le

/-- The words do not bring the running number to `oneCnt`: the loop runs through. -/
lemma countOnes_words_kept (rest : List (BitVec 64)) (h : IsKept words oneCnt words.length) :
    countOnes (words ++ rest) oneCnt words.length 0 0 = some words.length := by
  have hrun : countOnes (words ++ rest) oneCnt words.length 0 (setBits ((words ++ rest).take 0)) =
      some (0 + words.length) := by
    apply countOnes_not_reached
    · rw [Nat.zero_add, List.length_append]
      omega
    · rw [Nat.zero_add]
      exact (isKept_append rest le_rfl).mpr h
  rwa [Nat.zero_add] at hrun

/-- The words bring the running number to `oneCnt`: the loop stops behind the last word to keep. -/
lemma countOnes_words (rest : List (BitVec 64)) (h : ¬ IsKept words oneCnt words.length) {fuel : Nat}
    (hfuel : words.length ≤ fuel) :
    countOnes (words ++ rest) oneCnt fuel 0 0 = some (keptCount words oneCnt) ∧
      0 < keptCount words oneCnt := by
  have hzero : IsKept words oneCnt 0 := fun u hu => absurd hu (Nat.not_lt_zero u)
  have hpos : 0 < words.length := by
    by_contra hnil
    rw [Nat.eq_zero_of_not_pos hnil] at h
    exact h hzero
  have hle := keptCount_le words oneCnt
  have hkept := (isKept_iff_lt hpos).mp hzero
  have hlast : IsKept words oneCnt (keptCount words oneCnt - 1) :=
    (isKept_iff_lt (by omega)).mpr (by omega)
  have hreached : ¬ IsKept words oneCnt (keptCount words oneCnt) := by
    rcases Nat.eq_or_lt_of_le hle with heq | hlt
    · rwa [heq]
    · rw [isKept_iff_lt hlt]
      exact Nat.lt_irrefl _
  refine ⟨?_, hkept⟩
  apply countOnes_reached (i := 0) hkept (by omega)
  · rw [List.length_append]
    omega
  · exact (isKept_append rest (by omega)).mpr hlast
  · exact fun hr => hreached ((isKept_append rest hle).mp hr)

end Kept

/-! ### What the call does -/

/-- The call keeps the words up to the first one at which the running number of set bits reaches
`oneCnt`, clears the others and touches nothing behind them. -/
def Truncates (words rest : List (BitVec 64)) (nR oneCnt : Nat) : Prop :=
  ∃ mem touched, zeroAfterN (words ++ rest) nR oneCnt = some (mem, touched) ∧
    (∀ t ∈ touched, t < words.length) ∧
    ∀ t < words.length, mem[t]? = some (if IsKept words oneCnt t then words.getD t 0 else 0)

section Truncates

variable {words rest : List (BitVec 64)} {nR oneCnt : Nat}

/-- With `m` words cleared, a word that is kept and cleared, or neither, must be 0. -/
lemma assignConstI8_word (m : Nat) {t : Nat} (ht : t < words.length) :
    (assignConstI8 0 m (words ++ rest))[t]? =
        some (if IsKept words oneCnt t then words.getD t 0 else 0) ↔
      ((t < keptCount words oneCnt ↔ t < m) → words.getD t 0 = 0) := by
  rw [getElem?_assignConstI8, List.getElem?_append_left ht, List.getElem?_eq_getElem ht,
    List.getD_eq_getElem _ _ ht]
  simp only [isKept_iff_lt ht]
  by_cases hk : t < keptCount words oneCnt <;> by_cases hm : t < m <;> simp [hk, hm, eq_comm]

/-- If the loop stops behind the words to be kept, only the clearing can go wrong. -/
lemma truncates_of_count
    (hcount : countOnes (words ++ rest) oneCnt (wordsTaken nR) 0 0 = some (keptCount words oneCnt))
    (hm : wordsTaken nR - keptCount words oneCnt ≤ words.length) :
    Truncates words rest nR oneCnt ↔ ∀ t < words.length,
      (t < keptCount words oneCnt ↔ t < wordsTaken nR - keptCount words oneCnt) →
        words.getD t 0 = 0 := by
  have hrun : zeroAfterN (words ++ rest) nR oneCnt =
      some (assignConstI8 0 (wordsTaken nR - keptCount words oneCnt) (words ++ rest),
        List.range (keptCount words oneCnt) ++
          List.range (wordsTaken nR - keptCount words oneCnt)) := by
    rw [zeroAfterN, hcount, Option.bind_eq_bind, Option.bind_some, List.length_append,
      if_neg (by omega)]
  have htouched : ∀ t ∈ List.range (keptCount words oneCnt) ++
      List.range (wordsTaken nR - keptCount words oneCnt), t < words.length := by
    have hle := keptCount_le words oneCnt
    intro t ht
    rw [List.mem_append, List.mem_range, List.mem_range] at ht
    omega
  constructor
  · rintro ⟨mem, touched, h, -, hall⟩ t ht
    rw [hrun, Option.some.injEq, Prod.mk.injEq] at h
    apply (assignConstI8_word _ ht).mp
    rw [h.1]
    exact hall t ht
  · intro hall
    exact ⟨_, _, hrun, htouched, fun t ht => (assignConstI8_word _ ht).mpr (hall t ht)⟩

/-- A call that reads behind the words does not truncate. -/
lemma not_truncates_of_read (hkept : IsKept words oneCnt words.length)
    (hread : words.length < wordsTaken nR) : ¬ Truncates words rest nR oneCnt := by
  rintro ⟨mem, touched, h, htouched, -⟩
  unfold zeroAfterN at h
  cases hcount : countOnes (words ++ rest) oneCnt (wordsTaken nR) 0 0 with
  | none => simp [hcount] at h
  | some r =>
    have hr : words.length < r :=
      countOnes_passes hcount ((isKept_append rest le_rfl).mpr hkept) (Nat.zero_le _) (by omega)
    simp only [hcount, Option.bind_eq_bind, Option.bind_some, Option.ite_none_left_eq_some,
      Option.some.injEq, Prod.mk.injEq] at h
    obtain ⟨-, -, rfl⟩ := h
    have := htouched words.length (List.mem_append_left _ (List.mem_range.mpr hr))
    exact Nat.lt_irrefl _ this

lemma isKept_length (hpos : 0 < words.length) :
    IsKept words oneCnt words.length ↔ setBits words < oneCnt := by
  constructor
  · intro h
    have hlast := h (words.length - 1) (by omega)
    rwa [Nat.sub_add_cancel hpos, List.take_length] at hlast
  · intro hlt u _
    exact (((List.take_sublist _ _).map popcount).sum_le_sum (by simp)).trans_lt hlt

/-- `zero_after_n` on `nR` bits: it truncates exactly when it does not read behind the words and
when every word that it clears although it is to be kept, or leaves although it is to be cleared,
is 0 already. -/
theorem zero_after_n_truncates_iff (words rest : List (BitVec 64)) (nR oneCnt : Nat)
    (hlen : words.length = (nR + 63) / 64) :
    Truncates words rest nR oneCnt ↔
      (64 ∣ nR → nR = 0 ∨ oneCnt ≤ setBits words) ∧
      ∀ t < words.length,
        (t < keptCount words oneCnt ↔ t < nR / 64 + 1 - keptCount words oneCnt) →
          words.getD t 0 = 0 := by
  have htaken := wordsTaken_eq nR
  rcases Nat.eq_zero_or_pos nR with rfl | hpos
  · -- no word at all
    have hnil : words = [] := List.eq_nil_of_length_eq_zero (by omega)
    rw [if_pos rfl] at htaken
    have hk : keptCount words oneCnt = 0 := by rw [hnil]; rfl
    have hcount : countOnes (words ++ rest) oneCnt (wordsTaken 0) 0 0 =
        some (keptCount words oneCnt) := by
      rw [htaken, hk]
      rfl
    rw [truncates_of_count hcount (by omega)]
    simp [hnil]
  · rw [if_neg (by omega)] at htaken
    have hle := keptCount_le words oneCnt
    by_cases hkept : IsKept words oneCnt words.length
    · have hbits := (isKept_length (by omega)).mp hkept
      by_cases hdvd : 64 ∣ nR
      · constructor
        · intro h
          exact absurd h (not_truncates_of_read hkept (by omega))
        · intro h
          rcases h.1 hdvd with h | h <;> omega
      · -- every word is kept and none is left to be cleared
        have hall := keptCount_eq_length hkept
        have hcount : countOnes (words ++ rest) oneCnt (wordsTaken nR) 0 0 =
            some (keptCount words oneCnt) := by
          rw [show wordsTaken nR = words.length by omega, hall]
          exact countOnes_words_kept rest hkept
        rw [truncates_of_count hcount (by omega), htaken]
        exact ⟨fun h => ⟨fun hd => absurd hd hdvd, h⟩, fun h => h.2⟩
    · -- the loop stops in the words
      have hfuel : words.length ≤ wordsTaken nR := by omega
      obtain ⟨hcount, hk⟩ := countOnes_words rest hkept hfuel
      rw [isKept_length (by omega), not_lt] at hkept
      rw [truncates_of_count hcount (by omega), htaken]
      exact ⟨fun h => ⟨fun _ => Or.inr hkept, h⟩, fun h => h.2⟩

/-- Two words are left alone when their three bits are all to be kept. -/
theorem zero_after_n_truncates_iff_hundred : Truncates [1, 3] [] 100 3 := by
  apply (zero_after_n_truncates_iff [1, 3] [] 100 3 rfl).mpr
  decide

/-- With one bit to keep the first word is cleared and the second is left. -/
theorem zero_after_n_clears_first_word :
    zeroAfterN [1, 1] 100 1 = some ([0, 1], [0, 0]) ∧ ¬ Truncates [1, 1] [] 100 1 := by
  have hrun : zeroAfterN [1, 1] 100 1 = some ([0, 1], [0, 0]) := by decide
  refine ⟨hrun, ?_⟩
  rintro ⟨mem, touched, h, -, hall⟩
  rw [List.append_nil, hrun, Option.some.injEq, Prod.mk.injEq] at h
  have hword := hall 0 (by decide)
  rw [← h.1] at hword
  exact absurd hword (by decide)

end Truncates

end Datacl
