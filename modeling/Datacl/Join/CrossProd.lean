import Mathlib.Tactic
import Datacl.Lib.CInt

/-!
# Size of a cross product

`crossprod` pairs the values of two columns, for all rows or batch by batch. It computes the number
of pairs first, creates the two output columns with this size and then writes the pairs.
-/

namespace Datacl

/-- Which pairs of a batch are written. -/
inductive Mode where
  | complete
  | upperTriangular
  | upperTriangularMinusDiagonal
  deriving DecidableEq

/-- The mode that `str_mode` names, in any case of the letters. -/
def readMode (strMode : List Char) : Option Mode :=
  let lower := strMode.map Char.toLower
  if strMode = [] then some .complete
  else if lower = "upper_triangular_minus_diagonal".toList then some .upperTriangularMinusDiagonal
  else if lower = "upper_triangular".toList then some .upperTriangular
  else if lower = "complete".toList then some .complete
  else none

/-- The number of pairs of `x` rows as it is computed in integers of `w` bits. -/
def Mode.size (w : Nat) : Mode → Int → Int
  | .complete, x => CInt.wrap w (x * x)
  | .upperTriangular, x => (CInt.wrap w (x * CInt.wrap w (x + 1))).tdiv 2
  | .upperTriangularMinusDiagonal, x => (CInt.wrap w (CInt.wrap w (x - 1) * x)).tdiv 2

/-- The loop over the batch sizes. It adds up the sizes, which are of type `int`, and the numbers of
pairs, which are computed in `int` and added as `long long`. -/
def batchSizes (mode : Mode) : List Int → Int × Int → Option (Int × Int)
  | [], acc => some acc
  | sz :: batch, (sum, nR2) =>
    if sz ≤ 1 then none
    else batchSizes mode batch (CInt.wrap 64 (sum + sz), CInt.wrap 64 (nR2 + mode.size 32 sz))

/-- The value of `nR2`. -/
def crossprodSize (nR1 : Int) (batch : Option (List Int)) (mode : Mode) : Option Int :=
  match batch with
  | none => some (mode.size 64 nR1)
  | some batch => do
    let (sum, nR2) ← batchSizes mode batch (0, 0)
    if sum ≠ nR1 then none
    else if nR2 > CInt.wrap 64 (nR1 * nR1) then none
    else some nR2

/-- The row where the inner loop starts. -/
def Mode.start : Mode → Nat → Nat → Nat
  | .complete, lbidx, _ => lbidx
  | .upperTriangular, _, j => j
  | .upperTriangularMinusDiagonal, _, j => j + 1

/-- The rows that the two inner loops pair, in this order. -/
def groupPairs (mode : Mode) (lbidx ubidx : Nat) : List (Nat × Nat) :=
  (List.range' lbidx (ubidx - lbidx)).flatMap fun j =>
    (List.range' (mode.start lbidx j) (ubidx - mode.start lbidx j)).map fun k => (j, k)

def batchPairs (mode : Mode) : Nat → List Int → List (Nat × Nat)
  | _, [] => []
  | lbidx, sz :: batch =>
    groupPairs mode lbidx (lbidx + sz.toNat) ++ batchPairs mode (lbidx + sz.toNat) batch

/-- The rows that the loops pair. -/
def crossprodPairs (nR1 : Nat) (batch : Option (List Int)) (mode : Mode) : List (Nat × Nat) :=
  match batch with
  | none => groupPairs mode 0 nR1
  | some batch => batchPairs mode 0 batch

/-- Write the next row of the two columns, which have `nR2` rows. -/
def writePair (nR2 : Int) (out : List (Int × Int)) (p : Int × Int) : Option (List (Int × Int)) :=
  if (out.length : Int) < nR2 then some (out ++ [p]) else none

/-- `crossprod`; `none` is an error or a write outside of the columns. -/
def crossprod (f1X f2X : List Int) (batch : Option (List Int)) (strMode : List Char) :
    Option (List (Int × Int)) := do
  let mode ← readMode strMode
  let nR1 := f1X.length
  if nR1 ≤ 1 then none
  else
    let nR2 ← crossprodSize nR1 batch mode
    let out ← ((crossprodPairs nR1 batch mode).map fun (j, k) => (f1X.getD j 0, f2X.getD k 0)).foldlM
      (writePair nR2) []
    if nR2 ≠ out.length then none else some out

/-! ### The number of pairs -/

/-- The number of pairs in a batch of `n` rows. -/
def Mode.pairs : Mode → Nat → Nat
  | .complete, n => n * n
  | .upperTriangular, n => n * (n + 1) / 2
  | .upperTriangularMinusDiagonal, n => (n - 1) * n / 2

lemma two_mul_sum_rows {d : Nat} (hd : d ≤ 1) (lb n : Nat) :
    2 * ((List.range' lb n).map fun j => lb + n - (j + d)).sum + 2 * d * n = n * (n + 1) := by
  induction n generalizing lb with
  | zero => simp
  | succ n ih =>
    have hrest := ih (lb + 1)
    have hub : lb + 1 + n = lb + (n + 1) := by omega
    rw [hub] at hrest
    have hhead : lb + (n + 1) - (lb + d) = n + 1 - d := by omega
    rw [List.range'_succ, List.map_cons, List.sum_cons, hhead]
    have hle : 2 * (n + 1 - d) + 2 * d = 2 * (n + 1) := by omega
    linear_combination hrest + hle

lemma length_groupPairs (mode : Mode) (lb n : Nat) :
    (groupPairs mode lb (lb + n)).length = mode.pairs n := by
  have hcount : (groupPairs mode lb (lb + n)).length =
      ((List.range' lb n).map fun j => lb + n - mode.start lb j).sum := by
    rw [groupPairs, List.length_flatMap, Nat.add_sub_cancel_left]
    simp only [List.length_map, List.length_range']
  rw [hcount]
  cases mode with
  | complete =>
    have hrow : lb + n - lb = n := Nat.add_sub_cancel_left ..
    simp only [Mode.start, hrow, List.map_const', List.length_range', List.sum_replicate,
      smul_eq_mul, Mode.pairs]
  | upperTriangular =>
    have hsum := two_mul_sum_rows (Nat.zero_le 1) lb n
    simp only [Nat.add_zero] at hsum
    rw [Mode.pairs, ← hsum]
    simp only [Mode.start]
    omega
  | upperTriangularMinusDiagonal =>
    have hsum := two_mul_sum_rows le_rfl lb n
    simp only [Mode.start, Mode.pairs]
    cases n with
    | zero => simp
    | succ n =>
      have hprod : (n + 1) * (n + 1 + 1) = n * (n + 1) + 2 * (n + 1) := by ring
      rw [hprod] at hsum
      rw [Nat.add_sub_cancel]
      omega

lemma length_batchPairs (mode : Mode) (lb : Nat) (batch : List Int) :
    (batchPairs mode lb batch).length = (batch.map fun sz => mode.pairs sz.toNat).sum := by
  induction batch generalizing lb with
  | nil => rfl
  | cons sz batch ih =>
    rw [batchPairs, List.length_append, length_groupPairs, ih, List.map_cons, List.sum_cons]

/-! ### The computed size -/

/-- The largest number that comes up when the size for `x` rows is computed. -/
def Mode.product : Mode → Int → Int
  | .complete, x => x * x
  | .upperTriangular, x => x * (x + 1)
  | .upperTriangularMinusDiagonal, x => (x - 1) * x

/-- The largest batch whose product fits into an `int`. -/
def Mode.maxBatch : Mode → Int
  | .complete => 46340
  | .upperTriangular => 46340
  | .upperTriangularMinusDiagonal => 46341

lemma product_lt_iff (mode : Mode) {x : Int} (hx : 2 ≤ x) :
    mode.product x < 2 ^ 31 ↔ x ≤ mode.maxBatch := by
  cases mode <;> rw [Mode.product, Mode.maxBatch] <;> constructor <;> intro h <;> nlinarith

lemma pairs_complete (n : Nat) : (Mode.complete.pairs n : Int) = Mode.complete.product n := by
  rw [Mode.pairs, Mode.product, Nat.cast_mul]

lemma two_mul_pairs {mode : Mode} (hmode : mode ≠ .complete) {n : Nat} (hn : 0 < n) :
    2 * (mode.pairs n : Int) = mode.product n := by
  cases mode with
  | complete => exact absurd rfl hmode
  | upperTriangular =>
    have hdvd := Nat.two_mul_div_two_of_even (Nat.even_mul_succ_self n)
    rw [Mode.pairs, Mode.product]
    exact_mod_cast hdvd
  | upperTriangularMinusDiagonal =>
    obtain ⟨m, rfl⟩ : ∃ m, n = m + 1 := ⟨n - 1, by omega⟩
    have hdvd := Nat.two_mul_div_two_of_even (Nat.even_mul_succ_self m)
    rw [Mode.pairs, Mode.product, Nat.add_sub_cancel]
    push_cast
    rw [add_sub_cancel_right]
    exact_mod_cast hdvd

/-- What the code computes, with the intermediate overflows taken out. -/
lemma size_eq_wrap (w : Nat) (mode : Mode) (x : Int) : mode.size w x =
    if mode = .complete then CInt.wrap w (mode.product x)
    else (CInt.wrap w (mode.product x)).tdiv 2 := by
  cases mode with
  | complete => rfl
  | upperTriangular => rw [Mode.size, CInt.wrap_mul_wrap, if_neg (by decide), Mode.product]
  | upperTriangularMinusDiagonal =>
    rw [Mode.size, CInt.wrap_wrap_mul, if_neg (by decide), Mode.product]

lemma product_nonneg (mode : Mode) {x : Int} (hx : 2 ≤ x) : 0 ≤ mode.product x := by
  cases mode <;> rw [Mode.product] <;> nlinarith

lemma size_of_lt {w : Nat} (mode : Mode) {n : Nat} (hn : 2 ≤ n) (h : mode.product n < 2 ^ w) :
    mode.size (w + 1) n = mode.pairs n := by
  have hnonneg : 0 ≤ mode.product (n : Int) := product_nonneg mode (by omega)
  rw [size_eq_wrap, CInt.wrap_of_lt hnonneg h]
  split_ifs with hmode
  · rw [hmode, pairs_complete]
  · rw [← two_mul_pairs hmode (by omega), Int.mul_tdiv_cancel_left _ (by omega)]

lemma size_lt_pairs {w : Nat} (mode : Mode) {n : Nat} (hn : 2 ≤ n) (h : 2 ^ w ≤ mode.product n) :
    mode.size (w + 1) n < mode.pairs n := by
  rw [size_eq_wrap]
  split_ifs with hmode
  · subst hmode
    rw [pairs_complete]
    exact CInt.wrap_lt_self h
  · rw [← two_mul_pairs hmode (by omega)] at h ⊢
    exact CInt.wrap_tdiv_two_lt h

/-- In `int` the size is right for batches that are not too large, and too small for the others. -/
lemma size_le_pairs (mode : Mode) {n : Nat} (hn : 2 ≤ n) :
    mode.size 32 n ≤ mode.pairs n ∧ (mode.size 32 n = mode.pairs n ↔ (n : Int) ≤ mode.maxBatch) := by
  have hiff := product_lt_iff mode (x := n) (by omega)
  rcases lt_or_ge (mode.product n) (2 ^ 31) with h | h
  · have hsize := size_of_lt mode hn h
    exact ⟨hsize.le, fun _ => hiff.mp h, fun _ => hsize⟩
  · have hsize := size_lt_pairs mode hn h
    exact ⟨hsize.le, fun heq => absurd heq hsize.ne, fun hle => absurd (hiff.mpr hle) (by omega)⟩

lemma abs_size_le (mode : Mode) (x : Int) : |mode.size 32 x| ≤ 2 ^ 31 := by
  have hlo : -2 ^ 31 ≤ CInt.wrap 32 (mode.product x) := CInt.le_wrap 31 _
  have hhi : CInt.wrap 32 (mode.product x) < 2 ^ 31 := CInt.wrap_lt 31 _
  have hhalf := Int.natAbs_tdiv_le_natAbs (CInt.wrap 32 (mode.product x)) 2
  rw [size_eq_wrap, abs_le]
  split_ifs with hmode
  · exact ⟨hlo, hhi.le⟩
  · omega

lemma two_mul_length_le_sum {batch : List Int} (hsz : ∀ sz ∈ batch, 2 ≤ sz) :
    2 * (batch.length : Int) ≤ batch.sum := by
  induction batch with
  | nil => simp
  | cons sz batch ih =>
    obtain ⟨hhead, hrest⟩ := List.forall_mem_cons.mp hsz
    have := ih hrest
    rw [List.length_cons, List.sum_cons]
    push_cast
    omega

/-- The sums in `long long` do not overflow. -/
lemma batchSizes_eq (mode : Mode) {batch : List Int} (hsz : ∀ sz ∈ batch, 2 ≤ sz) {sum nR2 : Int}
    (hsum : 0 ≤ sum) (htotal : sum + batch.sum < 2 ^ 31)
    (hnR2 : |nR2| + 2 ^ 31 * batch.length ≤ 2 ^ 62) :
    batchSizes mode batch (sum, nR2) =
      some (sum + batch.sum, nR2 + (batch.map (mode.size 32)).sum) := by
  induction batch generalizing sum nR2 with
  | nil => rw [batchSizes, List.map_nil, List.sum_nil, add_zero, add_zero]
  | cons sz batch ih =>
    obtain ⟨hhead, hrest⟩ := List.forall_mem_cons.mp hsz
    rw [List.sum_cons] at htotal
    rw [List.length_cons] at hnR2
    push_cast at hnR2
    have hlen := two_mul_length_le_sum hrest
    have hsize := abs_size_le mode sz
    have hnext := abs_add_le nR2 (mode.size 32 sz)
    have hbounds := abs_le.mp (hnext.trans (show _ ≤ (2 : Int) ^ 62 by omega))
    rw [batchSizes, if_neg (by omega), CInt.wrap_of_lt (w := 63) (by omega) (by omega),
      CInt.wrap_of_mem (w := 63) (by omega) (by omega), ih hrest (by omega) (by omega) (by omega),
      List.map_cons, List.sum_cons, List.sum_cons, add_assoc, add_assoc]

lemma sum_size_le (mode : Mode) {batch : List Int} (hsz : ∀ sz ∈ batch, 2 ≤ sz) :
    (batch.map (mode.size 32)).sum ≤ ((batch.map fun sz => mode.pairs sz.toNat).sum : Nat) ∧
      ((batch.map (mode.size 32)).sum = ((batch.map fun sz => mode.pairs sz.toNat).sum : Nat) ↔
        ∀ sz ∈ batch, sz ≤ mode.maxBatch) := by
  induction batch with
  | nil => simp
  | cons sz batch ih =>
    obtain ⟨hhead, hrest⟩ := List.forall_mem_cons.mp hsz
    obtain ⟨hle, hiff⟩ := ih hrest
    have hcast : ((sz.toNat : Nat) : Int) = sz := Int.toNat_of_nonneg (by omega)
    obtain ⟨hle1, hiff1⟩ := size_le_pairs mode (n := sz.toNat) (by omega)
    rw [hcast] at hle1 hiff1
    rw [List.map_cons, List.map_cons, List.sum_cons, List.sum_cons, Nat.cast_add,
      List.forall_mem_cons, ← hiff1, ← hiff]
    omega

/-! ### Size and loops agree -/

lemma sum_pairs_le (mode : Mode) {batch : List Int} (hsz : ∀ sz ∈ batch, 2 ≤ sz) :
    (((batch.map fun sz => mode.pairs sz.toNat).sum : Nat) : Int) ≤ batch.sum * batch.sum := by
  induction batch with
  | nil => simp
  | cons sz batch ih =>
    obtain ⟨hhead, hrest⟩ := List.forall_mem_cons.mp hsz
    have hlen := two_mul_length_le_sum hrest
    have hih := ih hrest
    obtain ⟨n, rfl⟩ : ∃ n : Nat, sz = n := ⟨sz.toNat, by omega⟩
    have hpairs : (mode.pairs n : Int) ≤ n * n := by
      have htwice (hmode : mode ≠ .complete) (hn : 0 < n) : 2 * (mode.pairs n : Int) = mode.product n :=
        two_mul_pairs hmode hn
      cases mode with
      | complete => exact (pairs_complete n).le
      | upperTriangular =>
        have h := htwice (by decide) (by omega)
        rw [Mode.product] at h
        nlinarith
      | upperTriangularMinusDiagonal =>
        have h := htwice (by decide) (by omega)
        rw [Mode.product] at h
        nlinarith
    rw [List.map_cons, List.sum_cons, List.sum_cons, Int.toNat_natCast, Nat.cast_add]
    nlinarith

section

variable {nR1 : Nat} {batch : Option (List Int)}

/-- The sizes of the batches are acceptable and add up to the number of rows. -/
def BatchesOf (nR1 : Nat) (batch : List Int) : Prop := (∀ sz ∈ batch, 2 ≤ sz) ∧ batch.sum = nR1

lemma crossprodSize_eq_iff (h1 : 1 < nR1) (h31 : nR1 < 2 ^ 31) (mode : Mode)
    (hbatch : ∀ b, batch = some b → BatchesOf nR1 b) :
    crossprodSize nR1 batch mode = some ((crossprodPairs nR1 batch mode).length : Int) ↔
      ∀ b, batch = some b → ∀ sz ∈ b, sz ≤ mode.maxBatch := by
  cases batch with
  | none =>
    have hfits : mode.product nR1 < 2 ^ 63 := by
      cases mode <;> rw [Mode.product] <;> nlinarith
    have hlen := length_groupPairs mode 0 nR1
    rw [Nat.zero_add] at hlen
    rw [crossprodSize, crossprodPairs, hlen, size_of_lt mode h1 hfits]
    exact ⟨fun _ b hb => absurd hb (by simp), fun _ => rfl⟩
  | some b =>
    obtain ⟨hsz, hsum⟩ := hbatch b rfl
    have hlen := two_mul_length_le_sum hsz
    obtain ⟨hle, hiff⟩ := sum_size_le mode hsz
    have hsquare := sum_pairs_le mode hsz
    have hroom : CInt.wrap 64 ((nR1 : Int) * nR1) = nR1 * nR1 := by
      apply CInt.wrap_of_lt (w := 63) (by positivity)
      nlinarith
    rw [hsum] at hsquare
    have hrun : batchSizes mode b (0, 0) = some ((nR1 : Int), (b.map (mode.size 32)).sum) := by
      rw [batchSizes_eq mode hsz le_rfl (by omega) (by rw [abs_zero]; omega), zero_add, zero_add, hsum]
    rw [crossprodSize, hrun, crossprodPairs, length_batchPairs]
    simp only [Option.bind_eq_bind, Option.bind_some, ne_eq, not_true, if_false, hroom]
    rw [if_neg (by omega), Option.some_inj, hiff]
    constructor
    · rintro h b' hb' sz hmem
      exact h sz (Option.some_inj.mp hb' ▸ hmem)
    · intro h
      exact h b rfl

lemma foldlM_writePair {nR2 : Int} {ps : List (Int × Int)} {out : List (Int × Int)}
    (h : ((out.length + ps.length : Nat) : Int) ≤ nR2) :
    ps.foldlM (writePair nR2) out = some (out ++ ps) := by
  induction ps generalizing out with
  | nil => rw [List.foldlM_nil, List.append_nil, Option.pure_def]
  | cons p ps ih =>
    rw [List.length_cons] at h
    have hnext : (((out ++ [p]).length + ps.length : Nat) : Int) ≤ nR2 := by
      rw [List.length_append, List.length_singleton]
      omega
    rw [List.foldlM_cons, writePair, if_pos (by omega), Option.bind_eq_bind, Option.bind_some,
      ih hnext, List.append_assoc, List.singleton_append]

end

/-- The values that `crossprod` pairs. -/
def pairedValues (f1X f2X : List Int) (batch : Option (List Int)) (mode : Mode) : List (Int × Int) :=
  (crossprodPairs f1X.length batch mode).map fun (j, k) => (f1X.getD j 0, f2X.getD k 0)

/-- The computed size is the number of pairs, and these are all written, if and only if no batch is
too large for an `int`. Without batches the size is right. -/
theorem crossprod_exact_iff {f1X : List Int} (f2X : List Int) {batch : Option (List Int)}
    {strMode : List Char} {mode : Mode} (hmode : readMode strMode = some mode) (h1 : 1 < f1X.length)
    (h31 : f1X.length < 2 ^ 31) (hbatch : ∀ b, batch = some b → BatchesOf f1X.length b) :
    (crossprodSize f1X.length batch mode =
          some ((crossprodPairs f1X.length batch mode).length : Int) ∧
        crossprod f1X f2X batch strMode = some (pairedValues f1X f2X batch mode)) ↔
      ∀ b, batch = some b → ∀ sz ∈ b, sz ≤ mode.maxBatch := by
  have hiff := crossprodSize_eq_iff h1 h31 mode hbatch
  rw [← hiff]
  refine ⟨And.left, fun hsize => ⟨hsize, ?_⟩⟩
  have hlen : (pairedValues f1X f2X batch mode).length =
      (crossprodPairs f1X.length batch mode).length := List.length_map ..
  have hwrites : (pairedValues f1X f2X batch mode).foldlM
      (writePair (crossprodPairs f1X.length batch mode).length) [] =
        some (pairedValues f1X f2X batch mode) := by
    rw [foldlM_writePair (by rw [hlen, List.length_nil, Nat.zero_add]), List.nil_append]
  rw [crossprod, hmode, Option.bind_eq_bind, Option.bind_some, if_neg (by omega), hsize]
  simp only [Option.bind_eq_bind, Option.bind_some]
  rw [← pairedValues, hwrites, Option.bind_some, if_neg (by rw [hlen]; exact not_not.mpr rfl)]

theorem crossprod_exact_two_batches :
    (crossprodSize 5 (some [2, 3]) .upperTriangular =
          some ((crossprodPairs 5 (some [2, 3]) .upperTriangular).length : Int) ∧
        crossprod [1, 2, 3, 4, 5] [6, 7, 8, 9, 10] (some [2, 3]) "upper_triangular".toList =
          some (pairedValues [1, 2, 3, 4, 5] [6, 7, 8, 9, 10] (some [2, 3]) .upperTriangular)) ↔
      ∀ b, some [2, 3] = some b → ∀ sz ∈ b, sz ≤ Mode.upperTriangular.maxBatch := by
  refine @crossprod_exact_iff [1, 2, 3, 4, 5] [6, 7, 8, 9, 10] (some [2, 3])
    "upper_triangular".toList .upperTriangular (by decide) (by decide) (by decide) fun b hb => ?_
  rw [← Option.some_inj.mp hb]
  exact ⟨by decide, by decide⟩

/-- A batch of 65537 rows: the columns get 131073 rows, and there are 65537 times 65537 pairs. -/
theorem crossprod_large_batch :
    BatchesOf 65537 [65537] ∧ crossprodSize 65537 (some [65537]) .complete = some 131073 ∧
      (crossprodPairs 65537 (some [65537]) .complete).length = 4295098369 := by
  refine ⟨⟨by decide, by decide⟩, by decide, ?_⟩
  rw [crossprodPairs, length_batchPairs]
  decide

end Datacl
