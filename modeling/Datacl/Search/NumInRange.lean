import Datacl.Lib.CInt
import Mathlib.Data.List.Count
import Mathlib.Data.List.Induction

/-!
# Counting in ranges: `num_in_range.c`

On an ascending column the scan for a range begins as many rows from the start as the ranges before
have counted. That is right for ranges in ascending order, and for others as long as the rows left out
are not in the range.
-/

namespace Datacl

/-- The row lies in the range `(lb, ub)`. -/
def InLimits (x : Int) (r : Int × Int) : Prop := r.1 ≤ x ∧ x ≤ r.2

instance (x : Int) (r : Int × Int) : Decidable (InLimits x r) := inferInstanceAs (Decidable (_ ∧ _))

/-- The scan for one range: rows below it are passed, a row above it ends the scan. -/
def countBin (r : Int × Int) : List Int → Nat
  | [] => 0
  | I4val :: f1 =>
    if I4val < r.1 then countBin r f1
    else if r.2 < I4val then 0
    else countBin r f1 + 1

/-- The ranges of the fast path, with `offsets[tid - 1]`. Counts and offsets are `int`s. -/
def fastCounts (f1 : List Int) : Int → List (Int × Int) → List Int
  | _, [] => []
  | prev, r :: ranges =>
    let offset := if 0 < prev then prev else 0
    let cnt := countBin r (f1.drop offset.toNat)
    CInt.wrap 32 cnt :: fastCounts f1 (CInt.wrap 32 (offset + cnt)) ranges

/-- One row of the plain path counts for the first range that it lies in. -/
def bumpFirst (I4val : Int) : List (Int × Int) → List Int → List Int
  | r :: ranges, cnt :: cnts =>
    if InLimits I4val r then CInt.wrap 32 (cnt + 1) :: cnts else cnt :: bumpFirst I4val ranges cnts
  | _, cnts => cnts

/-- The plain path. -/
def plainCounts (f1 : List Int) (ranges : List (Int × Int)) : List Int :=
  f1.foldl (fun cnts I4val => bumpFirst I4val ranges cnts) (List.replicate ranges.length 0)

/-- `num_in_range`, for a column that is marked ascending or not. -/
def numInRange (ascending : Bool) (f1 : List Int) (ranges : List (Int × Int)) : Option (List Int) :=
  if 2 ^ 31 - 1 < f1.length then none
  else if 4096 < ranges.length then none
  else some (if ascending then fastCounts f1 0 ranges else plainCounts f1 ranges)

/-- The number of rows in a range. -/
def rowsIn (f1 : List Int) (r : Int × Int) : Int := f1.countP fun x => InLimits x r

/-- No row lies in two of the ranges. -/
def DisjointRanges (ranges : List (Int × Int)) : Prop :=
  ranges.Pairwise fun r r' => ∀ x, ¬ (InLimits x r ∧ InLimits x r')

/-- The number of rows that lie in one of the ranges. -/
def rowsInAny (f1 : List Int) (ranges : List (Int × Int)) : Nat :=
  f1.countP fun x => ∃ r ∈ ranges, InLimits x r

/-- Of the first rows, as many as lie in the ranges listed before a range, none lies in the range. -/
def SkipsNoRow (f1 : List Int) (ranges : List (Int × Int)) : Prop :=
  ∀ pre r post, ranges = pre ++ r :: post → ∀ x ∈ f1.take (rowsInAny f1 pre), ¬ InLimits x r

section

variable {f1 : List Int} {ranges pre post : List (Int × Int)} {r : Int × Int} {x : Int}

/-! ### The plain path -/

lemma rowsIn_nonneg (f1 : List Int) (r : Int × Int) : 0 ≤ rowsIn f1 r := Int.natCast_nonneg _

lemma rowsIn_le (f1 : List Int) (r : Int × Int) : rowsIn f1 r ≤ f1.length := by
  have h : f1.countP (fun x => InLimits x r) ≤ f1.length := List.countP_le_length
  unfold rowsIn
  omega

lemma rowsIn_concat (f1 : List Int) (x : Int) (r : Int × Int) :
    rowsIn (f1 ++ [x]) r = rowsIn f1 r + if InLimits x r then 1 else 0 := by
  rw [rowsIn, List.countP_append, List.countP_singleton]
  by_cases h : InLimits x r <;> simp [rowsIn, h]

/-- In disjoint ranges a row counts where it lies. -/
lemma bumpFirst_eq {cnts : Int × Int → Int} (hdis : DisjointRanges ranges)
    (hcnt : ∀ r ∈ ranges, 0 ≤ cnts r ∧ cnts r + 1 < 2 ^ 31) :
    bumpFirst x ranges (ranges.map cnts) =
      ranges.map fun r => cnts r + if InLimits x r then 1 else 0 := by
  induction ranges with
  | nil => rfl
  | cons r ranges ih =>
    obtain ⟨hr, hdis⟩ := List.pairwise_cons.mp hdis
    rw [List.forall_mem_cons] at hcnt
    rw [List.map_cons, List.map_cons, bumpFirst]
    by_cases hx : InLimits x r
    · have hrest : ∀ r' ∈ ranges, cnts r' = cnts r' + if InLimits x r' then 1 else 0 := by
        intro r' hr'
        rw [if_neg fun hx' => hr r' hr' x ⟨hx, hx'⟩, add_zero]
      have hwrap : CInt.wrap 32 (cnts r + 1) = cnts r + 1 := CInt.wrap_of_lt (by omega) hcnt.1.2
      rw [if_pos hx, if_pos hx, hwrap, List.map_congr_left hrest]
    · rw [if_neg hx, if_neg hx, add_zero, ih hdis hcnt.2]

lemma plainCounts_eq (hdis : DisjointRanges ranges) (hlen : f1.length < 2 ^ 31) :
    plainCounts f1 ranges = ranges.map (rowsIn f1) := by
  induction f1 using List.reverseRecOn with
  | nil =>
    rw [plainCounts, List.foldl_nil]
    exact List.map_const'.symm
  | append_singleton f1 x ih =>
    rw [List.length_append, List.length_singleton] at hlen
    have hprev := ih (by omega)
    rw [plainCounts] at hprev
    rw [plainCounts, List.foldl_append, hprev, List.foldl_cons, List.foldl_nil, bumpFirst_eq hdis]
    · exact List.map_congr_left fun r _ => (rowsIn_concat f1 x r).symm
    · intro r _
      have hle := rowsIn_le f1 r
      exact ⟨rowsIn_nonneg f1 r, by omega⟩

/-! ### The fast path -/

/-- On an ascending column the scan counts the rows of the range. -/
lemma countBin_eq (hf1 : f1.Pairwise (· ≤ ·)) : (countBin r f1 : Int) = rowsIn f1 r := by
  induction f1 with
  | nil => rfl
  | cons v f1 ih =>
    obtain ⟨hv, hf1⟩ := List.pairwise_cons.mp hf1
    have hcons : rowsIn (v :: f1) r = rowsIn f1 r + if InLimits v r then 1 else 0 := by
      rw [rowsIn, List.countP_cons]
      by_cases h : InLimits v r <;> simp [rowsIn, h]
    rw [hcons, countBin, ← ih hf1]
    by_cases hlow : v < r.1
    · rw [if_pos hlow, if_neg fun h : InLimits v r => absurd h.1 (by omega), add_zero]
    · rw [if_neg hlow]
      by_cases hhigh : r.2 < v
      · -- no row behind this one is in the range
        have hnone : rowsIn f1 r = 0 := by
          rw [rowsIn, Int.natCast_eq_zero, List.countP_eq_zero]
          intro x hx hin
          have hle := hv x hx
          have hub := (of_decide_eq_true hin).2
          omega
        rw [if_pos hhigh, ih hf1, hnone, if_neg fun h : InLimits v r => absurd h.2 (by omega)]
        rfl
      · rw [if_neg hhigh, if_pos (show InLimits v r from ⟨by omega, by omega⟩)]
        push_cast
        rfl

/-- The rows of disjoint ranges add up. -/
lemma rowsInAny_concat (f1 : List Int) (hdis : ∀ r' ∈ pre, ∀ x, ¬ (InLimits x r' ∧ InLimits x r)) :
    (rowsInAny f1 (pre ++ [r]) : Int) = rowsInAny f1 pre + rowsIn f1 r := by
  induction f1 with
  | nil => rfl
  | cons v f1 ih =>
    simp only [rowsInAny, rowsIn, List.countP_cons] at ih ⊢
    push_cast at ih ⊢
    rw [ih]
    by_cases hv : InLimits v r
    · have hpre : ¬ ∃ r' ∈ pre, InLimits v r' := by
        rintro ⟨r', hr', hin⟩
        exact hdis r' hr' v ⟨hin, hv⟩
      have hany : ∃ r' ∈ pre ++ [r], InLimits v r' := ⟨r, List.mem_concat_self, hv⟩
      rw [if_pos (decide_eq_true hany), if_neg fun h => hpre (of_decide_eq_true h),
        if_pos (decide_eq_true hv)]
      omega
    · have hor : (∃ r' ∈ pre ++ [r], InLimits v r') ↔ ∃ r' ∈ pre, InLimits v r' := by
        simp [or_and_right, exists_or, hv]
      rw [decide_eq_decide.mpr hor, if_neg fun h => hv (of_decide_eq_true h)]
      omega

/-- A scan from `offset` on is right exactly if no row before `offset` lies in the range. -/
lemma countBin_drop_eq_iff (hf1 : f1.Pairwise (· ≤ ·)) (offset : Nat) :
    (countBin r (f1.drop offset) : Int) = rowsIn f1 r ↔ ∀ x ∈ f1.take offset, ¬ InLimits x r := by
  have hsplit : rowsIn f1 r = rowsIn (f1.take offset) r + rowsIn (f1.drop offset) r := by
    rw [rowsIn, rowsIn, rowsIn, ← Nat.cast_add, ← List.countP_append, List.take_append_drop]
  rw [countBin_eq (hf1.sublist (List.drop_sublist offset f1)), hsplit]
  constructor
  · intro h x hx hin
    have hzero : (f1.take offset).countP (fun x => InLimits x r) = 0 := by
      unfold rowsIn at h
      omega
    exact List.countP_eq_zero.mp hzero x hx (decide_eq_true hin)
  · intro h
    have hzero : (f1.take offset).countP (fun x => InLimits x r) = 0 := by
      rw [List.countP_eq_zero]
      intro x hx hin
      exact h x hx (of_decide_eq_true hin)
    unfold rowsIn
    omega

/-- The condition for the ranges behind `pre`. -/
def SkipsNoRowFrom (f1 : List Int) (pre ranges : List (Int × Int)) : Prop :=
  ∀ mid r post, ranges = mid ++ r :: post →
    ∀ x ∈ f1.take (rowsInAny f1 (pre ++ mid)), ¬ InLimits x r

lemma skipsNoRowFrom_cons :
    SkipsNoRowFrom f1 pre (r :: post) ↔
      (∀ x ∈ f1.take (rowsInAny f1 pre), ¬ InLimits x r) ∧ SkipsNoRowFrom f1 (pre ++ [r]) post := by
  constructor
  · intro h
    refine ⟨?_, ?_⟩
    · have hhead := h [] r post rfl
      rwa [List.append_nil] at hhead
    · intro mid r' post' heq
      rw [List.append_assoc, List.singleton_append]
      exact h (r :: mid) r' post' (by rw [heq, List.cons_append])
  · rintro ⟨hhead, htail⟩ mid r' post' heq
    cases mid with
    | nil =>
      rw [List.nil_append, List.cons.injEq] at heq
      rw [List.append_nil, ← heq.1]
      exact hhead
    | cons m mid =>
      rw [List.cons_append, List.cons.injEq] at heq
      obtain ⟨rfl, rfl⟩ := heq
      have hmid := htail mid r' post' rfl
      rwa [List.append_assoc, List.singleton_append] at hmid

/-- The induction is on the ranges that are left; while the counts are right, the offset is the number
of rows in the ranges before. -/
lemma fastCounts_eq_iff (hf1 : f1.Pairwise (· ≤ ·)) (hdis : DisjointRanges (pre ++ ranges))
    (hlen : f1.length < 2 ^ 31) :
    fastCounts f1 (rowsInAny f1 pre) ranges = ranges.map (rowsIn f1) ↔
      SkipsNoRowFrom f1 pre ranges := by
  induction ranges generalizing pre with
  | nil =>
    refine ⟨fun _ mid r post heq => ?_, fun _ => rfl⟩
    cases mid <;> cases heq
  | cons r ranges ih =>
    have hoff : (if 0 < (rowsInAny f1 pre : Int) then (rowsInAny f1 pre : Int) else 0) =
        rowsInAny f1 pre := by
      split_ifs <;> omega
    have hany : rowsInAny f1 pre ≤ f1.length := List.countP_le_length
    have hcnt : countBin r (f1.drop (rowsInAny f1 pre)) ≤ f1.length - rowsInAny f1 pre := by
      have hle := rowsIn_le (f1.drop (rowsInAny f1 pre)) r
      rw [← countBin_eq (hf1.sublist (List.drop_sublist _ f1)), List.length_drop] at hle
      omega
    have hwrap : CInt.wrap 32 (countBin r (f1.drop (rowsInAny f1 pre)) : Int) =
        countBin r (f1.drop (rowsInAny f1 pre)) := CInt.wrap_of_lt (by omega) (by omega)
    have hwrap' : CInt.wrap 32
          ((rowsInAny f1 pre : Int) + (countBin r (f1.drop (rowsInAny f1 pre)) : Nat)) =
        rowsInAny f1 pre + (countBin r (f1.drop (rowsInAny f1 pre)) : Nat) :=
      CInt.wrap_of_lt (by omega) (by omega)
    have hpre : ∀ r' ∈ pre, ∀ x, ¬ (InLimits x r' ∧ InLimits x r) := fun r' hr' =>
      (List.pairwise_append.mp hdis).2.2 r' hr' r List.mem_cons_self
    rw [skipsNoRowFrom_cons, ← countBin_drop_eq_iff hf1]
    simp only [fastCounts, List.map_cons, List.cons.injEq, hoff, Int.toNat_natCast, hwrap, hwrap']
    refine and_congr_right fun hhead => ?_
    rw [hhead, ← rowsInAny_concat f1 hpre]
    exact ih (by rwa [List.append_assoc, List.singleton_append])

end

end Datacl
