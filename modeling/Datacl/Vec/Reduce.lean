import Datacl.Vec.MultScalar

/-!
# Reductions of a column by several threads

`vec_f_to_s` reduces each chunk of an integer column by itself and then the partial results.
-/

namespace Datacl

/-- The operations of `vec_f_to_s`. -/
inductive RedOp where
  | min
  | max
  | sum
  deriving DecidableEq

/-- What `f_to_s_min`, `f_to_s_max` and `f_to_s_sum` do with one row. -/
def RedOp.step : RedOp → Int → Int → Int
  | .min, rslt, x => if x < rslt then x else rslt
  | .max, rslt, x => if rslt < x then x else rslt
  | .sum, rslt, x => CInt.wrap 64 (rslt + x)

/-- The result before the first row: `SCHAR_MAX` and so on, `SCHAR_MIN` and so on, and 0. -/
def RedOp.init (t : IntType) : RedOp → Int
  | .min => t.max
  | .max => -2 ^ (t.bits - 1)
  | .sum => 0

/-- `f_to_s_min_I1` and its variants. -/
def fToS (op : RedOp) (X : List Int) (rslt : Int) : Int := X.foldl op.step rslt

/-- `nn_f_to_s_min_I1` and its variants, for the rows with their null flags: the number of values
and the result. -/
def nnFToS (op : RedOp) (rows : List (Int × Int)) (acc : Int × Int) : Int × Int :=
  rows.foldl (fun acc r => if r.2 = 0 then acc else (acc.1 + 1, op.step acc.2 r.1)) acc

/-- `nn_cnt[tid]` and the partial result of a chunk. -/
def chunkResult (t : IntType) (op : RedOp) (X : List Int) (nnX : Option (List Int))
    (blockSize nT tid : Nat) : Int × Int :=
  match nnX with
  | none =>
    let chunk := blockOf X blockSize nT tid
    (chunk.length, fToS op chunk (op.init t))
  | some nnX => nnFToS op (blockOf (X.zip nnX) blockSize nT tid) (0, op.init t)

/-- The combination of the chunks. The number of values is not cut to 64 bits, which would not
change a number of rows. -/
def combineParts (op : RedOp) (parts : List (Int × Int)) : Int × Int :=
  match op with
  | .sum => ((parts.map Prod.fst).sum, fToS .sum (parts.map Prod.snd) 0)
  | op => parts.foldl
    (fun acc p => if 0 < p.1 then (acc.1 + p.1, op.step acc.2 p.2) else acc) (0, op.init .I8)

/-- `rslt_buf`. -/
def rsltBuf (res : Int × Int) : String := toString res.2 ++ ":" ++ toString res.1

/-- `vec_f_to_s` on a column of integers. -/
def vecFToS (t : IntType) (X : List Int) (nnX : Option (List Int)) (op : RedOp) (numCores : Int) :
    Option String := do
  let (blockSize, nT) ← partition X.length 1024 numCores
  let parts ← (List.range nT.toNat).mapM fun tid =>
    let (lb, ub) := blockBounds X.length blockSize.toNat nT.toNat tid
    if ub ≤ lb then none else some (chunkResult t op X nnX blockSize.toNat nT.toNat tid)
  pure (rsltBuf (combineParts op parts))

/-! ### Chunks -/

/-- There are chunks unless the number of chunks is negative as an `int`. -/
lemma partition_cores_isSome {nR numCores : Int} (h0 : 0 < nR) (hmin : 1 ≤ numCores)
    (hmax : numCores ≤ 1024) :
    (partition nR 1024 numCores).isSome ↔ 0 ≤ CInt.wrap 32 (nR / 1024) := by
  have hq : 0 ≤ nR / 1024 := by omega
  have hle : 0 ≤ CInt.wrap 32 (nR / 1024) → CInt.wrap 32 (nR / 1024) ≤ nR / 1024 := by
    unfold CInt.wrap
    rw [Int.bmod_def]
    split_ifs <;> omega
  rw [partition, if_neg (by omega), if_neg (by omega)]
  obtain ⟨n, hn⟩ : ∃ n, numChunks nR 1024 numCores = n := ⟨_, rfl⟩
  simp only [hn]
  have hdm := Int.mul_tdiv_add_tmod nR n
  have hmul : n * nR.tdiv n = nR.tdiv n * n := Int.mul_comm ..
  have hrem0 := Int.tmod_nonneg n h0.le
  unfold numChunks at hn
  dsimp only at hn
  by_cases hneg : 0 ≤ CInt.wrap 32 (nR / 1024)
  · have hn1 : 1 ≤ n ∧ n ≤ 1024 ∧ (n = 1 ∨ n ≤ nR / 1024) := by
      have hle' := hle hneg
      split_ifs at hn <;> omega
    have hnext : CInt.wrap 32 (n + 1) = n + 1 := CInt.wrap_of_lt (by omega) (by omega)
    have hrem := Int.tmod_lt_of_pos nR (show 0 < n by omega)
    have hsmall : nR.tmod n < nR.tdiv n := by
      rcases hn1.2.2 with rfl | hq'
      · rw [Int.tmod_one, Int.tdiv_one]
        exact h0
      · have hblock : 1024 ≤ nR.tdiv n := by
          rw [Int.tdiv_eq_ediv_of_nonneg h0.le, Int.le_ediv_iff_mul_le (by omega)]
          omega
        omega
    have hmul' : nR.tdiv n * (n + 1) = nR.tdiv n * n + nR.tdiv n := by rw [Int.mul_add, Int.mul_one]
    rw [if_neg (by omega), hnext, if_neg (by omega)]
    simp [hneg]
  · have hn0 : n ≤ 0 := by split_ifs at hn <;> omega
    have hblock : nR.tdiv n ≤ 0 := Int.tdiv_nonpos_of_nonneg_of_nonpos h0.le hn0
    rw [if_pos (by omega)]
    simp [hneg]

/-- The values of the rows that are not null. -/
def nonNull (X : List Int) (nnX : Option (List Int)) : List Int :=
  match nnX with
  | none => X
  | some nnX => (X.zip nnX).filterMap fun r => if r.2 = 0 then none else some r.1

/-- The values of a chunk that are not null. -/
def chunkVals (X : List Int) (nnX : Option (List Int)) (blockSize nT tid : Nat) : List Int :=
  match nnX with
  | none => blockOf X blockSize nT tid
  | some nnX =>
    (blockOf (X.zip nnX) blockSize nT tid).filterMap fun r => if r.2 = 0 then none else some r.1

lemma flatMap_chunkVals (X : List Int) (nnX : Option (List Int)) (blockSize : Nat) {nT : Nat}
    (hn : 0 < nT) : (List.range nT).flatMap (chunkVals X nnX blockSize nT) = nonNull X nnX := by
  cases nnX with
  | none => exact flatMap_blockOf X blockSize hn
  | some nnX =>
    unfold chunkVals nonNull
    dsimp only
    rw [← List.filterMap_flatMap, flatMap_blockOf _ blockSize hn]

lemma nnFToS_eq (op : RedOp) (rows : List (Int × Int)) (acc : Int × Int) :
    nnFToS op rows acc =
      (acc.1 + (rows.filterMap fun r => if r.2 = 0 then none else some r.1).length,
        fToS op (rows.filterMap fun r => if r.2 = 0 then none else some r.1) acc.2) := by
  induction rows generalizing acc with
  | nil => simp [nnFToS, fToS]
  | cons r rows ih =>
    have hrec : nnFToS op (r :: rows) acc =
        nnFToS op rows (if r.2 = 0 then acc else (acc.1 + 1, op.step acc.2 r.1)) := rfl
    rw [hrec, ih]
    by_cases hr : r.2 = 0
    · simp [hr]
    · simp only [hr, if_false, List.filterMap_cons, List.length_cons, Nat.cast_add, Nat.cast_one,
        Prod.mk.injEq]
      exact ⟨by omega, rfl⟩

lemma chunkResult_eq (t : IntType) (op : RedOp) (X : List Int) (nnX : Option (List Int))
    (blockSize nT tid : Nat) :
    chunkResult t op X nnX blockSize nT tid =
      (((chunkVals X nnX blockSize nT tid).length : Int),
        fToS op (chunkVals X nnX blockSize nT tid) (op.init t)) := by
  cases nnX with
  | none => rfl
  | some nnX =>
    unfold chunkResult chunkVals
    dsimp only
    rw [nnFToS_eq, Int.zero_add]

/-! ### Combining the chunks -/

section

variable {t : IntType} {op : RedOp}

lemma RedOp.step_assoc (hop : op ≠ .sum) (a b c : Int) :
    op.step (op.step a b) c = op.step a (op.step b c) := by
  cases op with
  | min =>
    simp only [RedOp.step]
    split_ifs <;> omega
  | max =>
    simp only [RedOp.step]
    split_ifs <;> omega
  | sum => exact absurd rfl hop

/-- The initial value is no smaller or no greater than any value of the type. -/
lemma RedOp.step_init (hop : op ≠ .sum) {x : Int} (hx : t.InRange x) :
    op.step (op.init t) x = x := by
  cases op with
  | min =>
    have hle : x ≤ t.max := hx.2
    show (if x < t.max then x else t.max) = x
    split_ifs <;> omega
  | max =>
    have hle : -2 ^ (t.bits - 1) ≤ x := hx.1
    show (if -2 ^ (t.bits - 1) < x then x else -2 ^ (t.bits - 1)) = x
    split_ifs <;> omega
  | sum => exact absurd rfl hop

lemma fToS_step (hop : op ≠ .sum) (xs : List Int) (a b : Int) :
    fToS op xs (op.step a b) = op.step a (fToS op xs b) := by
  induction xs generalizing b with
  | nil => rfl
  | cons x xs ih =>
    show fToS op xs (op.step (op.step a b) x) = op.step a (fToS op xs (op.step b x))
    rw [RedOp.step_assoc hop, ih]

lemma fToS_append (op : RedOp) (xs ys : List Int) (r : Int) :
    fToS op (xs ++ ys) r = fToS op ys (fToS op xs r) := List.foldl_append

/-- A chunk that is not all null, combined with the result so far. -/
lemma step_fToS_init (hop : op ≠ .sum) {xs : List Int} (hxs : xs ≠ []) (ht : ∀ x ∈ xs, t.InRange x)
    (r : Int) : op.step r (fToS op xs (op.init t)) = fToS op xs r := by
  obtain ⟨x, xs, rfl⟩ := List.exists_cons_of_ne_nil hxs
  have hinit : fToS op (x :: xs) (op.init t) = fToS op xs x := by
    show fToS op xs (op.step (op.init t) x) = _
    rw [RedOp.step_init hop (ht x List.mem_cons_self)]
  rw [hinit, ← fToS_step hop]
  rfl

lemma foldl_parts (hop : op ≠ .sum) {ds : List (List Int)} (ht : ∀ d ∈ ds, ∀ x ∈ d, t.InRange x)
    (acc : Int × Int) :
    (ds.map fun d => ((d.length : Int), fToS op d (op.init t))).foldl
        (fun acc p => if 0 < p.1 then (acc.1 + p.1, op.step acc.2 p.2) else acc) acc =
      (acc.1 + ds.flatten.length, fToS op ds.flatten acc.2) := by
  induction ds generalizing acc with
  | nil => simp [fToS]
  | cons d ds ih =>
    rw [List.forall_mem_cons] at ht
    rw [List.map_cons, List.foldl_cons, ih ht.2, List.flatten_cons, fToS_append]
    by_cases hd : d = []
    · simp [hd, fToS]
    · have hlen : (0 : Int) < d.length := by
        exact_mod_cast List.length_pos_of_ne_nil hd
      rw [if_pos hlen]
      dsimp only
      rw [step_fToS_init hop hd ht.1, List.length_append]
      push_cast
      rw [Int.add_assoc]

lemma fToS_sum (xs : List Int) (r : Int) :
    fToS .sum xs (CInt.wrap 64 r) = CInt.wrap 64 (r + xs.sum) := by
  induction xs generalizing r with
  | nil => simp [fToS]
  | cons x xs ih =>
    have hrec : fToS .sum (x :: xs) (CInt.wrap 64 r) =
        fToS .sum xs (CInt.wrap 64 (CInt.wrap 64 r + x)) := rfl
    have hwrap : CInt.wrap 64 (CInt.wrap 64 r + x) = CInt.wrap 64 (r + x) := by
      simp [CInt.wrap]
    rw [hrec, hwrap, ih, List.sum_cons, Int.add_assoc]

lemma fToS_sum_zero (xs : List Int) : fToS .sum xs 0 = CInt.wrap 64 xs.sum := by
  have h := fToS_sum xs 0
  rwa [show CInt.wrap 64 0 = 0 from rfl, Int.zero_add] at h

/-- The chunks together give what the whole column gives. -/
lemma combineParts_eq {ds : List (List Int)} (ht : ∀ d ∈ ds, ∀ x ∈ d, t.InRange x) :
    combineParts op (ds.map fun d => ((d.length : Int), fToS op d (op.init t))) =
      ((ds.flatten.length : Int), fToS op ds.flatten (op.init .I8)) := by
  have hother : op ≠ .sum → combineParts op (ds.map fun d => ((d.length : Int),
      fToS op d (op.init t))) = ((ds.flatten.length : Int), fToS op ds.flatten (op.init .I8)) := by
    intro hop
    have hfold := foldl_parts hop ht (0, op.init .I8)
    rw [Int.zero_add] at hfold
    rw [← hfold]
    cases op with
    | min => rfl
    | max => rfl
    | sum => exact absurd rfl hop
  cases op with
  | min => exact hother (by simp)
  | max => exact hother (by simp)
  | sum =>
    unfold combineParts
    dsimp only
    rw [List.map_map, List.map_map]
    show ((ds.map fun d => (d.length : Int)).sum, fToS .sum (ds.map fun d => fToS .sum d 0) 0) = _
    have hlen : (ds.map fun d => (d.length : Int)).sum = (ds.flatten.length : Int) := by
      clear ht hother
      induction ds with
      | nil => rfl
      | cons d ds ih =>
        rw [List.map_cons, List.sum_cons, ih, List.flatten_cons, List.length_append, Nat.cast_add]
    have hsum : CInt.wrap 64 (ds.map fun d => CInt.wrap 64 d.sum).sum =
        CInt.wrap 64 ds.flatten.sum := by
      clear ht hother hlen
      induction ds with
      | nil => rfl
      | cons d ds ih =>
        rw [List.map_cons, List.sum_cons, List.flatten_cons, List.sum_append]
        unfold CInt.wrap at ih ⊢
        rw [Int.bmod_add_bmod, ← Int.add_bmod_bmod, ih, Int.add_bmod_bmod]
    simp only [fToS_sum_zero]
    rw [hlen, hsum, ← fToS_sum_zero ds.flatten]
    rfl

/-- The value is the result of the operation on the values. -/
def RedOp.IsResult (xs : List Int) (v : Int) : RedOp → Prop
  | .min => v ∈ xs ∧ ∀ x ∈ xs, v ≤ x
  | .max => v ∈ xs ∧ ∀ x ∈ xs, x ≤ v
  | .sum => v = xs.sum

lemma fToS_min (xs : List Int) (r : Int) : RedOp.min.IsResult (r :: xs) (fToS .min xs r) := by
  induction xs generalizing r with
  | nil => exact ⟨List.mem_singleton_self r, by simp [fToS]⟩
  | cons x xs ih =>
    obtain ⟨hmem, hle⟩ := ih (if x < r then x else r)
    rw [List.forall_mem_cons] at hle
    refine ⟨?_, ?_⟩
    · rcases List.mem_cons.mp hmem with h | h
      · show (fToS .min xs (if x < r then x else r)) ∈ _
        rw [h]
        split_ifs <;> simp
      · exact List.mem_cons_of_mem r (List.mem_cons_of_mem x h)
    · have hfirst : fToS .min xs (if x < r then x else r) ≤ if x < r then x else r := hle.1
      rw [List.forall_mem_cons, List.forall_mem_cons]
      refine ⟨hfirst.trans ?_, hfirst.trans ?_, hle.2⟩
      · split_ifs <;> omega
      · split_ifs <;> omega

lemma fToS_max (xs : List Int) (r : Int) : RedOp.max.IsResult (r :: xs) (fToS .max xs r) := by
  induction xs generalizing r with
  | nil => exact ⟨List.mem_singleton_self r, by simp [fToS]⟩
  | cons x xs ih =>
    obtain ⟨hmem, hle⟩ := ih (if r < x then x else r)
    rw [List.forall_mem_cons] at hle
    refine ⟨?_, ?_⟩
    · rcases List.mem_cons.mp hmem with h | h
      · show (fToS .max xs (if r < x then x else r)) ∈ _
        rw [h]
        split_ifs <;> simp
      · exact List.mem_cons_of_mem r (List.mem_cons_of_mem x h)
    · have hfirst : (if r < x then x else r) ≤ fToS .max xs (if r < x then x else r) := hle.1
      rw [List.forall_mem_cons, List.forall_mem_cons]
      refine ⟨le_trans ?_ hfirst, le_trans ?_ hfirst, hle.2⟩
      · split_ifs <;> omega
      · split_ifs <;> omega

lemma fToS_isResult {xs : List Int} (hxs : xs ≠ []) (ht : ∀ x ∈ xs, t.InRange x)
    (hsum : op = .sum → -2 ^ 63 ≤ xs.sum ∧ xs.sum < 2 ^ 63) :
    op.IsResult xs (fToS op xs (op.init t)) := by
  obtain ⟨x, xs, rfl⟩ := List.exists_cons_of_ne_nil hxs
  have hfirst : op ≠ .sum → fToS op (x :: xs) (op.init t) = fToS op xs x := by
    intro hop
    show fToS op xs (op.step (op.init t) x) = _
    rw [RedOp.step_init hop (ht x List.mem_cons_self)]
  cases op with
  | min =>
    rw [hfirst (by simp)]
    exact fToS_min xs x
  | max =>
    rw [hfirst (by simp)]
    exact fToS_max xs x
  | sum =>
    show fToS .sum (x :: xs) 0 = _
    rw [fToS_sum_zero]
    exact CInt.wrap_of_mem (hsum rfl).1 (hsum rfl).2

/-! ### The whole column -/

lemma mem_nonNull {X : List Int} {nnX : Option (List Int)} {x : Int} (hx : x ∈ nonNull X nnX) :
    x ∈ X := by
  cases nnX with
  | none => exact hx
  | some nnX =>
    obtain ⟨r, hr, hrx⟩ := List.mem_filterMap.mp hx
    have hmem : r.1 ∈ X := (List.of_mem_zip hr).1
    split_ifs at hrx
    rwa [← Option.some.inj hrx]

lemma inRange_I8 {x : Int} (hx : t.InRange x) : IntType.I8.InRange x := by
  obtain ⟨h1, h2⟩ := hx
  cases t
  all_goals
    simp only [IntType.InRange, IntType.max, IntType.bits] at *
    omega

lemma vecFToS_eq {X : List Int} {nnX : Option (List Int)} {numCores blockSize nT : Int}
    (ht : ∀ x ∈ X, t.InRange x) (hp : partition X.length 1024 numCores = some (blockSize, nT)) :
    vecFToS t X nnX op numCores = some (rsltBuf ((nonNull X nnX).length,
      fToS op (nonNull X nnX) (op.init .I8))) := by
  obtain ⟨-, hn, -⟩ := partition_spec hp
  have hparts : (List.range nT.toNat).mapM (fun tid =>
      if (blockBounds X.length blockSize.toNat nT.toNat tid).2 ≤
        (blockBounds X.length blockSize.toNat nT.toNat tid).1 then none
      else some (chunkResult t op X nnX blockSize.toNat nT.toNat tid)) =
      some ((List.range nT.toNat).map (chunkResult t op X nnX blockSize.toNat nT.toNat)) := by
    refine mapM_eq_some_map fun tid htid => ?_
    exact if_neg (blockBounds_spec hp (List.mem_range.mp htid)).1.not_ge
  have hds : ((List.range nT.toNat).map (chunkResult t op X nnX blockSize.toNat nT.toNat)) =
      ((List.range nT.toNat).map (chunkVals X nnX blockSize.toNat nT.toNat)).map fun d =>
        ((d.length : Int), fToS op d (op.init t)) := by
    rw [List.map_map]
    exact List.map_congr_left fun tid _ => chunkResult_eq t op X nnX _ _ tid
  have hflat : ((List.range nT.toNat).map (chunkVals X nnX blockSize.toNat nT.toNat)).flatten =
      nonNull X nnX := flatMap_chunkVals X nnX blockSize.toNat (by omega)
  have hrange : ∀ d ∈ (List.range nT.toNat).map (chunkVals X nnX blockSize.toNat nT.toNat),
      ∀ x ∈ d, t.InRange x := by
    intro d hd x hx
    have hmem : x ∈ nonNull X nnX := by
      rw [← hflat]
      exact List.mem_flatten.mpr ⟨d, hd, hx⟩
    exact ht x (mem_nonNull hmem)
  unfold vecFToS
  rw [hp]
  rw [Option.bind_eq_bind, Option.bind_some]
  dsimp only
  rw [hparts, Option.bind_eq_bind, Option.bind_some, hds, combineParts_eq hrange, hflat]
  rfl

end

/-- The result is reported unless the number of chunks is negative as an `int`, and then the call
fails. -/
theorem vecFToS_reports_iff {t : IntType} {op : RedOp} {X : List Int} {nnX : Option (List Int)}
    {numCores : Int} (ht : ∀ x ∈ X, t.InRange x) (hdef : nonNull X nnX ≠ []) (hmin : 1 ≤ numCores)
    (hmax : numCores ≤ 1024)
    (hsum : op = .sum → -2 ^ 63 ≤ (nonNull X nnX).sum ∧ (nonNull X nnX).sum < 2 ^ 63) :
    (∃ v, op.IsResult (nonNull X nnX) v ∧
        vecFToS t X nnX op numCores = some (rsltBuf ((nonNull X nnX).length, v))) ↔
      0 ≤ CInt.wrap 32 (X.length / 1024) := by
  have hX : (0 : Int) < X.length := by
    obtain ⟨x, hx⟩ := List.exists_mem_of_ne_nil _ hdef
    exact_mod_cast List.length_pos_of_mem (mem_nonNull hx)
  rw [← partition_cores_isSome hX hmin hmax]
  cases hp : partition X.length 1024 numCores with
  | none =>
    refine iff_of_false ?_ (by simp)
    rintro ⟨v, -, hv⟩
    unfold vecFToS at hv
    rw [hp] at hv
    cases hv
  | some p =>
    obtain ⟨blockSize, nT⟩ := p
    refine iff_of_true ⟨_, ?_, vecFToS_eq ht hp⟩ rfl
    exact fToS_isResult hdef (fun x hx => inRange_I8 (ht x (mem_nonNull hx))) hsum

/-- The first of three values is null. -/
theorem vecFToS_reports_two_values :
    ∃ v, RedOp.min.IsResult (nonNull [-5, 3, 7] (some [0, 1, 1])) v ∧
      vecFToS .I4 [-5, 3, 7] (some [0, 1, 1]) .min 4 =
        some (rsltBuf ((nonNull [-5, 3, 7] (some [0, 1, 1])).length, v)) :=
  (vecFToS_reports_iff (by decide) (by decide) (by decide) (by decide) (by simp)).mpr (by decide)

/-- `2 ^ 41` rows. -/
theorem vecFToS_fails_on_long_column :
    vecFToS .I1 (List.replicate (2 ^ 41) 0) none .max 8 = none := by
  unfold vecFToS
  rw [List.length_replicate]
  rfl

end Datacl
