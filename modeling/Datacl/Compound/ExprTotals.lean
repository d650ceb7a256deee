import Datacl.Compound.ExprRows

/-!
# The totals of a compound expression

`exec_comp_expr` reads the result of each block from the text of `vec_f_to_s` and combines the
results. The blocks together give what the whole column gives.
-/

namespace Datacl

/-! ### Reductions of parts -/

section

variable {t : IntType} {op : RedOp}

lemma RedOp.step_step (op : RedOp) (a b c : Int) :
    op.step (op.step a b) c = op.step a (op.step b c) := by
  cases op with
  | min => exact RedOp.step_assoc (by simp) a b c
  | max => exact RedOp.step_assoc (by simp) a b c
  | sum =>
    simp only [RedOp.step, CInt.wrap]
    rw [Int.bmod_add_bmod, Int.add_bmod_bmod, Int.add_assoc]

/-- A result and the value that the reduction begins with. -/
lemma step_fToS_self (hop : op ≠ .sum) (xs : List Int) (r : Int) :
    op.step (fToS op xs r) r = fToS op xs r := by
  have hself : op.step r r = r := by
    cases op with
    | min => exact if_neg (lt_irrefl r)
    | max => exact if_neg (lt_irrefl r)
    | sum => exact absurd rfl hop
  have hcomm : ∀ a b, op.step a b = op.step b a := by
    intro a b
    cases op with
    | min =>
      simp only [RedOp.step]
      split_ifs <;> omega
    | max =>
      simp only [RedOp.step]
      split_ifs <;> omega
    | sum => exact absurd rfl hop
  rw [hcomm, ← fToS_step hop, hself]

/-- The result of a column from the results of its parts. -/
lemma fToS_append_init (xs ys : List Int) :
    fToS op (xs ++ ys) (op.init t) =
      op.step (fToS op xs (op.init t)) (fToS op ys (op.init t)) := by
  by_cases hop : op = .sum
  · subst hop
    show fToS .sum (xs ++ ys) 0 = RedOp.step .sum (fToS .sum xs 0) (fToS .sum ys 0)
    simp only [fToS_sum_zero, RedOp.step, CInt.wrap]
    rw [Int.bmod_add_bmod, Int.add_bmod_bmod, List.sum_append]
  · rw [fToS_append, ← fToS_step hop, step_fToS_self hop]

/-- The value that the combination of the chunks begins with does not matter. -/
lemma step_init_fToS (op : RedOp) (t : IntType) (xs : List Int) :
    op.step (op.init .I8) (fToS op xs (op.init t)) = fToS op xs (op.init t) := by
  by_cases hop : op = .sum
  · subst hop
    show CInt.wrap 64 (0 + fToS .sum xs 0) = fToS .sum xs 0
    rw [Int.zero_add, fToS_sum_zero]
    exact Int.bmod_bmod
  · have hinit : op.step (op.init .I8) (op.init t) = op.init t := by
      cases t <;> cases op <;> rfl
    rw [← fToS_step hop, hinit]

lemma inRange_step {a b : Int} (ha : IntType.I8.InRange a) (hb : IntType.I8.InRange b) :
    IntType.I8.InRange (op.step a b) := by
  cases op with
  | min =>
    simp only [RedOp.step]
    split_ifs
    · exact hb
    · exact ha
  | max =>
    simp only [RedOp.step]
    split_ifs
    · exact hb
    · exact ha
  | sum => exact inRange_wrap .I8 _

lemma inRange_fToS {xs : List Int} {r : Int} (hr : IntType.I8.InRange r)
    (hxs : ∀ x ∈ xs, IntType.I8.InRange x) : IntType.I8.InRange (fToS op xs r) := by
  induction xs generalizing r with
  | nil => exact hr
  | cons x xs ih =>
    rw [List.forall_mem_cons] at hxs
    exact ih (inRange_step hr hxs.1) hxs.2

lemma inRange_init (op : RedOp) (t : IntType) : IntType.I8.InRange (op.init t) := by
  cases t <;> cases op <;> decide

/-- The combination of chunks, of which some may have no values. -/
lemma foldl_combine (op : RedOp) (t : IntType) (ds : List (List Int)) (acc : Int × Int) :
    (ds.map fun d => ((d.length : Int), fToS op d (op.init t))).foldl
        (fun acc p => if 0 < p.1 then (acc.1 + p.1, op.step acc.2 p.2) else acc) acc =
      (acc.1 + ds.flatten.length,
        if ds.flatten = [] then acc.2 else op.step acc.2 (fToS op ds.flatten (op.init t))) := by
  induction ds generalizing acc with
  | nil => simp
  | cons d ds ih =>
    rw [List.map_cons, List.foldl_cons, ih, List.flatten_cons]
    by_cases hd : d = []
    · simp [hd]
    · have hpos : (0 : Int) < d.length := by exact_mod_cast List.length_pos_of_ne_nil hd
      dsimp only
      rw [if_pos hpos, if_neg (by simp [hd] : ¬ d ++ ds.flatten = []), List.length_append]
      by_cases hrest : ds.flatten = []
      · simp [hrest]
      · rw [if_neg hrest, fToS_append_init, RedOp.step_step, Nat.cast_add, Int.add_assoc]

/-- The result of a column with values, or the greatest, the least or 0. -/
lemma combineParts_flatten (op : RedOp) (t : IntType) (ds : List (List Int)) :
    combineParts op (ds.map fun d => ((d.length : Int), fToS op d (op.init t))) =
      ((ds.flatten.length : Int),
        if ds.flatten = [] then op.init .I8 else fToS op ds.flatten (op.init t)) := by
  by_cases hop : op = .sum
  · subst hop
    have hsame : ∀ ds : List (List Int),
        combineParts .sum (ds.map fun d => ((d.length : Int), fToS .sum d 0)) =
          ((ds.flatten.length : Int), fToS .sum ds.flatten 0) := by
      intro ds
      have hlen : (ds.map fun d => (d.length : Int)).sum = (ds.flatten.length : Int) := by
        rw [List.length_flatten]
        induction ds with
        | nil => rfl
        | cons d ds ih => rw [List.map_cons, List.sum_cons, ih, List.map_cons, List.sum_cons, Nat.cast_add]
      have hsum : ∀ r, fToS .sum (ds.map fun d => fToS .sum d 0) (CInt.wrap 64 r) =
          fToS .sum ds.flatten (CInt.wrap 64 r) := by
        clear hlen
        induction ds with
        | nil => exact fun _ => rfl
        | cons d ds ih =>
          intro r
          have hfirst : RedOp.step .sum (CInt.wrap 64 r) (fToS .sum d 0) =
              CInt.wrap 64 (r + d.sum) := by
            simp only [RedOp.step, fToS_sum_zero, CInt.wrap]
            rw [Int.bmod_add_bmod, Int.add_bmod_bmod]
          rw [List.map_cons, List.flatten_cons, fToS_append, fToS_sum d, ← ih, ← hfirst]
          rfl
      unfold combineParts
      simp only [List.map_map, Function.comp_def]
      rw [hlen]
      exact congrArg _ (hsum 0)
    rw [show RedOp.init t .sum = 0 from rfl, hsame]
    split_ifs with h
    · rw [h]
      rfl
    · rfl
  · have hfold := foldl_combine op t ds (0, op.init .I8)
    rw [Int.zero_add, step_init_fToS] at hfold
    rw [← hfold]
    cases op with
    | min => rfl
    | max => rfl
    | sum => exact absurd rfl hop

/-- `vec_f_to_s` on a column whose cells may be any numbers. -/
lemma vecFToS_rsltBuf (t : IntType) (op : RedOp) {X : List Int} (nnX : Option (List Int))
    {numCores blockSize nT : Int}
    (hp : partition X.length 1024 numCores = some (blockSize, nT)) :
    vecFToS t X nnX op numCores = some (rsltBuf ((nonNull X nnX).length,
      if nonNull X nnX = [] then op.init .I8 else fToS op (nonNull X nnX) (op.init t))) := by
  obtain ⟨-, hn, -⟩ := partition_spec hp
  have hparts : (List.range nT.toNat).mapM (fun tid =>
      if (blockBounds X.length blockSize.toNat nT.toNat tid).2 ≤
        (blockBounds X.length blockSize.toNat nT.toNat tid).1 then none
      else some (chunkResult t op X nnX blockSize.toNat nT.toNat tid)) =
      some ((List.range nT.toNat).map (chunkResult t op X nnX blockSize.toNat nT.toNat)) := by
    refine mapM_eq_some_map fun tid htid => ?_
    exact if_neg (blockBounds_spec hp (List.mem_range.mp htid)).1.not_ge
  have hds : ((List.range nT.toNat).map (chunkResult t op X nnX blockSize.toNat nT.toNat)) =
      ((List.range nT.toNat).map (chunkVals X nnX blockSize.toNat nT.toNat)).map fun d =>
        ((d.length : Int), fToS op d (op.init t)) := by
    rw [List.map_map]
    exact List.map_congr_left fun tid _ => chunkResult_eq t op X nnX _ _ tid
  have hflat : ((List.range nT.toNat).map (chunkVals X nnX blockSize.toNat nT.toNat)).flatten =
      nonNull X nnX := flatMap_chunkVals X nnX blockSize.toNat (by omega)
  unfold vecFToS
  rw [hp, Option.bind_eq_bind, Option.bind_some]
  dsimp only
  rw [hparts, Option.bind_eq_bind, Option.bind_some, hds, combineParts_flatten, hflat]
  rfl

end

/-! ### Partial results -/

section

variable {t : IntType} {op : RedOp}

/-- The values in two parts. -/
lemma PartSum.addVals_append (p : PartSum) (xs ys : List Int) :
    (p.addVals t op xs).addVals t op ys = p.addVals t op (xs ++ ys) := by
  unfold PartSum.addVals
  by_cases hx : xs = []
  · simp [hx]
  · by_cases hy : ys = []
    · simp [hy]
    · rw [if_neg hy, if_neg hx, if_neg (by simp [hx]), fToS_append_init, List.length_append]
      simp only [if_true, Nat.cast_add, PartSum.mk.injEq, true_and]
      refine ⟨?_, by omega⟩
      split_ifs
      · exact RedOp.step_step ..
      · rfl

lemma nonNull_append {xs xs' nn nn' : List Int} (h : xs.length = nn.length) :
    nonNull (xs ++ xs') (some (nn ++ nn')) = nonNull xs (some nn) ++ nonNull xs' (some nn') := by
  unfold nonNull
  dsimp only
  rw [List.zip_append h, List.filterMap_append]

/-- The blocks of a column can be taken together. -/
lemma splits_addVals (t : IntType) (op : RedOp) :
    RowProgram.Splits fun p cols => PartSum.addVals t op p (colVals cols) where
  nil b cols h := by
    have hvals : colVals cols = [] := by
      match cols with
      | [] => rfl
      | [x] =>
        rw [h x (by simp)]
        rfl
      | [x, nn] =>
        rw [h x (by simp)]
        rfl
      | _ :: _ :: _ :: _ => rfl
    rw [hvals]
    exact if_pos rfl
  append b cols cols' m hlen hm := by
    rw [PartSum.addVals_append]
    congr 1
    match cols, cols' with
    | [], [] => rfl
    | [x], [x'] => rfl
    | [x, nn], [x', nn'] =>
      have h1 := hm x (by simp)
      have h2 := hm nn (by simp)
      exact (nonNull_append (by omega)).symm
    | _ :: _ :: _ :: _, _ :: _ :: _ :: _ => rfl

/-! ### The text of a result -/

lemma toList_toString (v : Int) : (toString v).toList =
    if v < 0 then '-' :: Nat.toDigits 10 v.natAbs else Nat.toDigits 10 v.natAbs := by
  cases v with
  | ofNat n =>
    rw [if_neg (by simp)]
    exact Nat.toList_repr
  | negSucc n =>
    rw [if_pos (Int.negSucc_lt_zero n)]
    show ("-" ++ Nat.repr (n + 1)).toList = _
    rw [String.toList_append, Nat.toList_repr]
    rfl

lemma isDigit_toDigits {n : Nat} {c : Char} (hc : c ∈ Nat.toDigits 10 n) : c.isDigit = true :=
  Nat.isDigit_of_mem_toDigits (by decide) (by decide) hc

/-- A number that is printed is read back. -/
lemma stoI8_toString {v : Int} (hv : IntType.I8.InRange v) : stoI8 (toString v).toList = some v := by
  obtain ⟨h1, h2⟩ := hv
  simp only [IntType.max, IntType.bits] at h1 h2
  rw [toList_toString]
  by_cases hneg : v < 0
  · have hall : (Nat.toDigits 10 v.natAbs).all Char.isDigit = true :=
      List.all_eq_true.mpr fun c hc => isDigit_toDigits hc
    have hval : ofDigits (Nat.toDigits 10 v.natAbs) = v.natAbs := by
      rw [ofDigits_eq, Nat.ofDigitChars_toDigits (by decide) (by decide)]
    rw [if_pos hneg, stoI8]
    show (if Nat.toDigits 10 v.natAbs = [] ∨ (Nat.toDigits 10 v.natAbs).all Char.isDigit = false then none
      else some (max (-2 ^ 63) (-ofDigits (Nat.toDigits 10 v.natAbs)))) = some v
    rw [if_neg (by simp [hall, Nat.toDigits_ne_nil]), hval]
    exact congrArg some (by omega)
  · rw [if_neg hneg, stoI8_toDigits (by omega)]
    exact congrArg some (by omega)

lemma toString_chars (v : Int) : ∀ c ∈ (toString v).toList, c ≠ '\n' ∧ c ≠ ':' := by
  have hdigits : ∀ c ∈ Nat.toDigits 10 v.natAbs, c ≠ '\n' ∧ c ≠ ':' := fun c hc =>
    have hne := isDigit_ne (isDigit_toDigits hc)
    ⟨hne.2.2.1, hne.2.2.2.1⟩
  rw [toList_toString]
  split_ifs
  · rw [List.forall_mem_cons]
    exact ⟨by decide, hdigits⟩
  · exact hdigits

lemma length_toString {v : Int} (hv : IntType.I8.InRange v) : (toString v).toList.length ≤ 20 := by
  obtain ⟨h1, h2⟩ := hv
  simp only [IntType.max, IntType.bits] at h1 h2
  have hle : (Nat.toDigits 10 v.natAbs).length ≤ 19 :=
    (Nat.length_toDigits_le_iff (by decide) (by decide)).mpr (by omega)
  rw [toList_toString]
  split_ifs
  · rw [List.length_cons]
    omega
  · omega

/-- The text of a result is read as the result. -/
lemma addBuf_rsltBuf (p : PartSum) {cnt : Nat} {v : Int} (hv : IntType.I8.InRange v)
    (hcnt : cnt < 2 ^ 63) :
    p.addBuf op (rsltBuf (cnt, v)) = some (if cnt = 0 then p
      else ⟨true, if p.isNumerSet then op.step p.val v else v, p.cnt + cnt⟩) := by
  have hc : IntType.I8.InRange (cnt : Int) := by
    simp only [IntType.InRange, IntType.max, IntType.bits]
    omega
  have hbuf : (rsltBuf ((cnt : Int), v)).toList =
      (toString v).toList ++ ':' :: (toString (cnt : Int)).toList := by
    rw [rsltBuf, String.toList_append, String.toList_append, List.append_assoc]
    rfl
  have hl1 := length_toString hv
  have hl2 := length_toString hc
  have hread : readNthVal (rsltBuf ((cnt : Int), v)).toList [':'] 0 1024 = some (toString v).toList ∧
      readNthVal (rsltBuf ((cnt : Int), v)).toList [':'] 1 1024 = some (toString (cnt : Int)).toList := by
    rw [hbuf]
    exact readNthVal_pair (by decide) (toString_chars v) (toString_chars (cnt : Int))
      ⟨by omega, by omega⟩ (by decide)
  unfold PartSum.addBuf
  rw [hread.1, hread.2]
  simp only [Option.bind_eq_bind, Option.bind_some, Option.pure_def]
  rw [stoI8_toString hv, stoI8_toString hc]
  simp only [Option.bind_some]
  rw [if_neg (by omega)]
  by_cases h : cnt = 0
  · rw [if_pos (by omega), if_pos h]
  · rw [if_neg (by omega), if_neg h]

end

/-! ### `f_to_s` on one block -/

/-- Every cell is a number of 64 bits. -/
def MemFits (mem : Nat → List Int) : Prop := ∀ k, ∀ x ∈ mem k, IntType.I8.InRange x

lemma readBuf_subset {mem : Nat → List Int} {lb n k : Nat} {c : List Int}
    (h : readBuf mem lb n k = some c) : c ⊆ mem k := by
  unfold readBuf RowProgram.slice at h
  split_ifs at h
  rw [← Option.some.inj h]
  exact fun x hx => List.mem_of_mem_drop (List.mem_of_mem_take hx)

lemma length_nonNull_le (X : List Int) (nnX : Option (List Int)) :
    (nonNull X nnX).length ≤ X.length := by
  cases nnX with
  | none => exact le_rfl
  | some nnX =>
    refine (List.length_filterMap_le _ _).trans ?_
    rw [List.length_zip]
    exact Nat.min_le_left _ _

lemma exists_partition_cores {X : List Int} (h0 : 0 < X.length) (hmax : X.length < 2 ^ 31)
    {numCores : Int} (hcores : 1 ≤ numCores ∧ numCores ≤ 1024) :
    ∃ p, partition X.length 1024 numCores = some p := by
  apply Option.isSome_iff_exists.mp
  rw [partition_cores_isSome (by omega) hcores.1 hcores.2, CInt.wrap_of_lt (by omega) (by omega)]
  omega

section

variable {rt : Runtime} {lb n : Nat} {s : CompState}

lemma addBuf_vecFToS (t : IntType) (op : RedOp) {X : List Int} (nnX : Option (List Int))
    (p : PartSum) (hX : ∀ x ∈ X, IntType.I8.InRange x) (h0 : 0 < X.length) (hmax : X.length < 2 ^ 31)
    (hcores : 1 ≤ rt.numCores ∧ rt.numCores ≤ 1024) :
    ((vecFToS t X nnX op rt.numCores).bind fun buf => p.addBuf op buf) =
      some (p.addVals t op (nonNull X nnX)) := by
  obtain ⟨⟨blockSize, nT⟩, hp⟩ := exists_partition_cores h0 hmax hcores
  have hle := length_nonNull_le X nnX
  rw [vecFToS_rsltBuf t op nnX hp, Option.bind_some]
  by_cases hvals : nonNull X nnX = []
  · rw [if_pos hvals, addBuf_rsltBuf p (inRange_init op .I8) (by omega), hvals, PartSum.addVals,
      if_pos rfl]
    rfl
  · have hrange : IntType.I8.InRange (fToS op (nonNull X nnX) (op.init t)) :=
      inRange_fToS (inRange_init op t) fun x hx => hX x (mem_nonNull hx)
    rw [if_neg hvals, addBuf_rsltBuf p hrange (by omega), PartSum.addVals, if_neg hvals,
      if_neg (by simpa using hvals)]

/-- `f_to_s` on one block. -/
lemma execExpr_fToS {f1 : CompFld} {op : RedOp} {envVar : String} (i : Nat)
    (hfits : MemFits s.st.mem) (hcores : 1 ≤ rt.numCores ∧ rt.numCores ≤ 1024) (h0 : 0 < n)
    (hmax : n < 2 ^ 31) :
    execExpr rt lb n s (.fToS f1 op envVar, i) =
      ((CompExpr.prog rt (.fToS f1 op envVar, i)).foldlM
        (RowProgram.execStmt isTempBuf lb n) s.st).map fun st => ⟨st, true⟩ := by
  have hprog : ∀ srcs : List Nat,
      ([RowProgram.Stmt.observe i srcs fun p cols => PartSum.addVals f1.fldtype op p (colVals cols)].foldlM
        (RowProgram.execStmt isTempBuf lb n) s.st).map (fun st => CompState.mk st true) =
      (srcs.mapM (readBuf s.st.mem lb n)).map fun cols => ⟨⟨s.st.mem, Function.update s.st.acc i
        ((s.st.acc i).addVals f1.fldtype op (colVals cols))⟩, true⟩ := by
    intro srcs
    rw [List.foldlM_cons, RowProgram.execStmt]
    simp only [List.foldlM_nil, Option.bind_eq_bind, Option.pure_def]
    show ((srcs.mapM (readBuf s.st.mem lb n)).bind _ |>.bind _).map _ = _
    cases srcs.mapM (readBuf s.st.mem lb n) <;> rfl
  rw [CompExpr.prog, hprog]
  simp only [execExpr, Option.bind_eq_bind, Option.pure_def]
  cases hread : readBuf s.st.mem lb n f1.X with
  | none => split_ifs <;> simp [hread]
  | some f1X =>
    have hlen := length_readBuf hread
    have hX : ∀ x ∈ f1X, IntType.I8.InRange x := fun x hx => hfits f1.X x (readBuf_subset hread hx)
    have hadd := fun nn => addBuf_vecFToS f1.fldtype op nn (s.st.acc i) hX
      (by omega) (by omega) hcores
    cases hnull : f1.hasNull with
    | false =>
      have hnn : readNn s.st.mem lb n f1 = some none := if_neg (by simp [hnull])
      rw [hnn, Option.bind_some, Option.bind_some, ← Option.bind_assoc, hadd none, Option.bind_some,
        if_neg Bool.false_ne_true, List.mapM_cons, hread]
      rfl
    | true =>
      have hnn : readNn s.st.mem lb n f1 = (readBuf s.st.mem lb n f1.nnX).map some :=
        if_pos hnull
      rw [hnn, Option.bind_some, if_pos rfl, List.mapM_cons, List.mapM_cons, hread]
      cases readBuf s.st.mem lb n f1.nnX with
      | none => rfl
      | some nn =>
        rw [Option.map_some, Option.bind_some, ← Option.bind_assoc, hadd (some nn), Option.bind_some]
        rfl

end

end Datacl
