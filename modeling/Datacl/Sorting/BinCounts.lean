import Datacl.Lib.Buckets
import Datacl.Vec.Partition

/-!
# Counting and placing by bins

What the two sorts with bins share: the elements are shared out to threads that count them, the counts
become offsets, and each element is put at the offset of its bin.
-/

namespace Datacl

open Buckets

/-- `arr[bin]++` -/
def bump (arr : List Nat) (bin : Int) : Option (List Nat) :=
  if bin < 0 ∨ arr.length ≤ bin then none else some (arr.modify bin.toNat (· + 1))

/-- The elements of a thread. -/
def threadSlice (nT : Nat) (X : List Int) (tid : Nat) : List Int := blockOf X (X.length / nT) nT tid

/-- The counts of the threads, added up for each of `n` bins. -/
def sumCounts (n : Nat) (tCnt : List (List Nat)) : List Nat :=
  (List.range n).map fun i => (tCnt.map fun lCnt => lCnt.getD i 0).sum

/-- `bin_offset`, with the sum of the counts before. -/
def binOffset (prev : Nat) : List Nat → List Nat
  | [] => []
  | c :: cnt => prev :: binOffset (prev + c) cnt

/-- `Y[bin_offset[bin]] = x`, `bin_offset[bin]++`, with `Y` and `bin_offset`. -/
def placeAt (bin : Int) (x : Int) (s : List Int × List Nat) : Option (List Int × List Nat) := do
  let offsets ← bump s.2 bin
  let offset ← s.2[bin.toNat]?
  if s.1.length ≤ offset then none else some (s.1.set offset x, offsets)

lemma bump_of_neg (arr : List Nat) {bin : Int} (h : bin < 0) : bump arr bin = none := by
  rw [bump, if_pos (Or.inl h)]

/-- Counting one more element of bin `c` in any array over the bins. -/
lemma bump_range (f : Nat → Nat) {c n : Nat} (hc : c < n) :
    bump ((List.range n).map f) c =
      some ((List.range n).map (Function.update f c (f c + 1))) := by
  rw [bump, if_neg (by rw [List.length_map, List.length_range]; omega), Int.toNat_natCast,
    Option.some_inj]
  apply List.ext_getElem?
  intro b
  rw [List.getElem?_modify, List.getElem?_map, List.getElem?_map]
  by_cases hb : b < n
  · rw [List.getElem?_range hb]
    by_cases hbc : c = b
    · subst hbc
      simp
    · simp [hbc, Function.update_of_ne (Ne.symm hbc)]
  · rw [List.getElem?_eq_none (by simpa using hb)]
    simp

/-- An element goes to the offset of bin `c`. -/
lemma placeAt_range (f : Nat → Nat) {c n : Nat} (hc : c < n) {Y : List Int} (hY : f c < Y.length)
    (x : Int) :
    placeAt c x (Y, (List.range n).map f) =
      some (Y.set (f c) x, (List.range n).map (Function.update f c (f c + 1))) := by
  have hoffset : ((List.range n).map f)[c]? = some (f c) := by
    rw [List.getElem?_map, List.getElem?_range hc, Option.map_some]
  rw [placeAt, bump_range f hc, Option.bind_eq_bind, Option.bind_some, Int.toNat_natCast, hoffset,
    Option.bind_eq_bind, Option.bind_some, if_neg (Nat.not_le.mpr hY)]

/-- The threads share the elements out. -/
lemma joined_threadSlices (X : List Int) {nT : Nat} (hnT : 0 < nT) :
    joined (threadSlice nT X) nT = X := flatMap_blockOf X _ hnT

lemma mem_threadSlice {X : List Int} {x : Int} {nT : Nat} (hnT : 0 < nT) (hmem : x ∈ X) :
    ∃ tid < nT, x ∈ threadSlice nT X tid := by
  rw [← joined_threadSlices X hnT] at hmem
  exact mem_joined.mp hmem

lemma binOffset_range (f : Nat → List Int) (n : Nat) (b : Nat) :
    binOffset (start f b) ((List.range' b n).map fun b => (f b).length) =
      (List.range' b n).map (start f) := by
  induction n generalizing b with
  | zero => rfl
  | succ n ih => rw [List.range'_succ, List.map_cons, List.map_cons, binOffset, ← start_succ, ih]

end Datacl
