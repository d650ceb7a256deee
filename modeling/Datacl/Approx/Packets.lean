import Datacl.Approx.Frequent

/-!
# Packets of a block

The streaming algorithms cut their input into blocks of `NUM_THREADS` packets and sort each
packet. This file describes the packets of one block as slices of the input.
-/

namespace Datacl

lemma qsortAscI4_perm (buf : List Int) : (qsortAscI4 buf).Perm buf :=
  List.perm_insertionSort (· ≤ ·) buf

lemma qsortAscI4_sorted (buf : List Int) : (qsortAscI4 buf).Pairwise (· ≤ ·) :=
  List.pairwise_insertionSort (· ≤ ·) buf

lemma fillAll_eq (numThreads cntrSiz : Nat) (x : List Int) (currentLoc : Nat) :
    fillAll numThreads cntrSiz x currentLoc =
      (List.range numThreads).map fun tid => (x.drop (currentLoc + tid * cntrSiz)).take cntrSiz := by
  unfold fillAll
  apply List.map_congr_left
  intro tid _
  dsimp only
  split_ifs with hlb hub
  · rw [List.drop_eq_nil_of_le hlb, List.take_nil]
  · rw [List.take_of_length_le (by simp), List.take_of_length_le (by simp; omega)]
  · rw [Nat.add_sub_cancel_left]

lemma flatten_fillAll (numThreads cntrSiz : Nat) (x : List Int) (currentLoc : Nat) :
    (fillAll numThreads cntrSiz x currentLoc).flatten =
      (x.drop currentLoc).take (numThreads * cntrSiz) := by
  rw [fillAll_eq]
  induction numThreads with
  | zero => simp
  | succ n ih =>
    rw [List.range_succ, List.map_append, List.flatten_append, ih, Nat.succ_mul, List.take_add,
      List.drop_drop]
    simp

lemma sum_length_fillAll (numThreads cntrSiz : Nat) (x : List Int) (currentLoc : Nat) :
    ((fillAll numThreads cntrSiz x currentLoc).map List.length).sum =
      min (numThreads * cntrSiz) (x.length - currentLoc) := by
  rw [← List.length_flatten, flatten_fillAll, List.length_take, List.length_drop]

lemma drop_add_min {α : Type} (x : List α) (i k : Nat) :
    x.drop (i + min k (x.length - i)) = (x.drop i).drop k := by
  rw [List.drop_drop]
  rcases le_total k (x.length - i) with h | h
  · rw [min_eq_left h]
  · rw [min_eq_right h, List.drop_eq_nil_of_le (by omega), List.drop_eq_nil_of_le (by omega)]

end Datacl
