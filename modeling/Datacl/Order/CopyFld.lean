import Datacl.Order.CopyField
import Datacl.Vec.BitSum
import Datacl.Vec.Reduce

/-!
# Copying the rows of a condition

`copy_fld` walks over the rows with one pointer into the column and another one into the null flags. The second one
is only moved on behind a row that is copied, so that the flags of the copy are the first ones of the column.
-/

namespace Datacl

open Words

/-! ### What is to be copied -/

/-- All rows, the rows of a range, or the rows at which a column is TRUE. -/
inductive CopySel where
  | all
  | range (lb ub : Int)
  | cond (cfldX : List Int)
  deriving DecidableEq, Repr

/-- `vec_f_to_s` for the sum of a column of type I1 or B without null values. -/
def vecFToSSum (X : List Int) (nR numCores : Int) : FldType → Option String
  | .I1 => vecFToS .I1 (X.take nR.toNat) none .sum numCores
  | .B => do
    let (blockSize, nT) ← partition nR 1024 numCores
    let parts ← (List.range nT.toNat).mapM fun tid =>
      let (lb, ub) := blockBounds nR.toNat blockSize.toNat nT.toNat tid
      if ub ≤ lb then none
      else (fToSSumB (X.map (BitVec.ofInt 8)) lb ub 0).map fun n => (((ub - lb : Nat) : Int), (n : Int))
    pure (rsltBuf (combineParts .sum parts))
  | _ => none

/-- `f_to_s` for a sum that is not recorded yet; neither type is read as a double. -/
def fToSSum (env : Env) (numCores : Int) (tblId fldId : Nat) (nR : Int) : Cmd Store (List Char) := do
  let s ← Cmd.get
  let x ← Cmd.ofOption (getData env s (s.fld fldId))
  let rsltBuf ← Cmd.ofOption (vecFToSSum x.cells nR numCores (s.fld fldId).fldtype)
  intSetMeta env (fun _ => none) tblId fldId (.stat .sum) rsltBuf.toList true
  pure rsltBuf.toList

/-- `exp_nR2` for a condition. -/
def condSum (env : Env) (numCores : Int) (tblId cfldId : Nat) (nR1 : Int) : Cmd Store Int := do
  let s ← Cmd.get
  if (s.fld cfldId).isSumNn = true then
    pure (s.fld cfldId).sumval
  else do
    let buf1 ← fToSSum env numCores tblId cfldId nR1
    let buf2 ← Cmd.ofOption (readNthVal buf1 [':'] 0 32)
    Cmd.ofOption (stoI8 buf2)

/-- The condition, with `exp_nR2`. -/
def copySel (env : Env) (numCores : Int) (t1Id : Nat) (nR1 : Int) (cfld : Name) : Cmd Store (CopySel × Int) :=
  if cfld = [] then pure (.all, nR1)
  else if ':' ∈ cfld then do
    let buf1 ← Cmd.ofOption (readNthVal cfld [':'] 0 32)
    let lb ← Cmd.ofOption (stoI8 buf1)
    let buf1 ← Cmd.ofOption (readNthVal cfld [':'] 1 32)
    let ub ← Cmd.ofOption (stoI8 buf1)
    Cmd.require (0 < ub - lb)
    pure (.range lb ub, ub - lb)
  else do
    let s ← Cmd.get
    let cfldId ← Cmd.ofOption (isFld s t1Id cfld)
    let cfldX ← Cmd.ofOption (getData env s (s.fld cfldId))
    Cmd.require ((s.fld cfldId).nnFldId < 0)
    Cmd.require ((s.fld cfldId).fldtype = .I1 ∨ (s.fld cfldId).fldtype = .B)
    let nR2 ← condSum env numCores t1Id cfldId nR1
    pure (.cond cfldX.cells, nR2)

/-! ### The copy -/

/-- The first bytes of a file that is mapped. The last page is filled up with zeros, and there is
nothing behind it. -/
def mappedBytes (cells : List Int) (n : Nat) : Option (List Int) :=
  if n ≤ (cells.length + 4095) / 4096 * 4096 then
    some ((cells ++ List.replicate (n - cells.length) 0).take n)
  else none

/-- The loop over the rows with their condition, for a column with null flags. -/
def copyLoop : List (Int × Int) → List Int → List Int × List Int
  | [], _ => ([], [])
  | (c, v) :: rows, nnX =>
    if c = 1 then (v :: (copyLoop rows nnX.tail).1, nnX.headD 0 :: (copyLoop rows nnX.tail).2)
    else copyLoop rows nnX

/-- The rows of the copy, its null flags and `is_null_val_in_op`. -/
structure CopiedRows where
  opX : List Int
  nnopX : List Int
  isNullValInOp : Bool
  deriving DecidableEq, Repr

/-- A range is not checked against the rows of the table; there is nothing outside of the file. -/
def copySelected (nR1 : Nat) (x : List Int) (nn : Option (List Int)) : CopySel → Option CopiedRows
  | .all => some ⟨x.take nR1, (nn.getD []).take nR1, nn.isSome⟩
  | .range lb ub =>
    if 0 ≤ lb ∧ ub ≤ x.length then
      some ⟨sliceRows x (lb, ub), sliceRows (nn.getD []) (lb, ub), nn.isSome⟩
    else none
  | .cond cfldX => (mappedBytes cfldX nR1).map fun bytes =>
    match nn with
    | none => ⟨(bytes.zip x).filterMap fun r => if r.1 = 1 then some r.2 else none, [], false⟩
    | some nnX =>
      let copied := copyLoop (bytes.zip x) nnX
      ⟨copied.1, copied.2, copied.2.contains 0⟩

/-- The file for the null flags of the copy. -/
def copyFldNnFile (env : Env) (nR2 : Int) : Option DataFile → Cmd Store (Option (Int × Int))
  | none => pure none
  | some _ => do
    let (ddirId, fileno) ← mkTempFile env ⟨1, List.replicate nR2.toNat 0⟩
    pure (some (ddirId, fileno))

/-- Write the null flags. -/
def writeNn (nnopX : List Int) : Option (Int × Int) → Cmd Store Unit
  | none => pure ()
  | some (ddirId, fileno) => Cmd.modify (Store.setFile ddirId fileno (some ⟨1, nnopX⟩))

/-- The nn field of the copy, unless it has no null value. -/
def copyFldNn (env : Env) (t2Id f2Id : Nat) (isNullValInOp : Bool) : Option (Int × Int) → Cmd Store Unit
  | none => pure ()
  | some (ddirId, fileno) =>
    if isNullValInOp then do
      let _ ← addAuxFld env [] t2Id [] f2Id ddirId fileno .nn { zeroFldRec with fldtype := .I1 }
    else qDelete env ddirId fileno

/-- `copy_fld`. -/
def copyFld (env : Env) (numCores : Int) (t1 f1 cfld t2 : Name) : Cmd Store Unit := do
  Cmd.require (t1 ≠ [])
  Cmd.require (f1 ≠ [])
  Cmd.require (t2 ≠ [])
  Cmd.require (t1 ≠ t2)
  let s ← Cmd.get
  let t1Id ← Cmd.ofOption (isTbl s t1)
  let nR1 := (s.tbl t1Id).nR
  let t1f1Id ← Cmd.ofOption (isFld s t1Id f1)
  let t1f1 := s.fld t1f1Id
  let x ← Cmd.ofOption (getData env s t1f1)
  let nn := if 0 ≤ t1f1.nnFldId then getData env s (s.fld t1f1.nnFldId.toNat) else none
  Cmd.require (t1f1.fldtype ∈ [FldType.I1, .I2, .I4, .I8, .F4, .F8])
  let (sel, nR2) ← copySel env numCores t1Id nR1 cfld
  let t2Id ← copyTarget env t2 nR2 (isTbl s t2)
  let (ddirId, fileno) ← mkTempFile env ⟨x.width, List.replicate nR2.toNat 0⟩
  let nnFile ← copyFldNnFile env nR2 nn
  let copied ← Cmd.ofOption (copySelected nR1.toNat x.cells (nn.map DataFile.cells) sel)
  Cmd.modify (Store.setFile ddirId fileno (some ⟨x.width, copied.opX⟩))
  writeNn copied.nnopX nnFile
  Cmd.require (copied.opX.length = nR2)
  let t2f1Id ← addFld env t2Id f1 ddirId fileno { zeroFldRec with fldtype := t1f1.fldtype }
  Cmd.modify fun s => s.setFld t2f1Id { s.fld t2f1Id with srttype := (s.fld t1f1Id).srttype }
  copyMeta t2f1Id t1f1Id
  copyFldNn env t2Id t2f1Id copied.isNullValInOp nnFile

/-! ### The selected rows -/

/-- The cells of the rows that are kept. -/
def selectRows (keep : List Bool) (cells : List Int) : List Int :=
  (keep.zip cells).filterMap fun r => if r.1 then some r.2 else none

/-- The bytes that are TRUE. -/
def trueBytes (bytes : List Int) : List Bool := bytes.map fun c => decide (c = 1)

/-- The rows at which the condition is TRUE. -/
def condRows (fldtype : FldType) (cells : List Int) (nR : Nat) : List Bool :=
  if fldtype = .B then (List.range nR).map (bitAt (cells.map (BitVec.ofInt 8))) else trueBytes cells

section

variable {bytes x flags : List Int}

lemma selectRows_cons (b : Bool) (keep : List Bool) (v : Int) (cells : List Int) :
    selectRows (b :: keep) (v :: cells) = if b then v :: selectRows keep cells else selectRows keep cells := by
  cases b <;> rfl

/-- The column of the copy holds the rows whose byte is TRUE. -/
lemma filterMap_eq_selectRows (bytes x : List Int) :
    ((bytes.zip x).filterMap fun r => if r.1 = 1 then some r.2 else none) = selectRows (trueBytes bytes) x := by
  rw [selectRows, trueBytes, List.zip_map_left, List.filterMap_map]
  simp

lemma length_selectRows {keep : List Bool} (h : x.length = keep.length) :
    (selectRows keep x).length = keep.count true := by
  induction keep generalizing x with
  | nil => simp [selectRows]
  | cons b keep ih =>
    obtain ⟨v, x, rfl⟩ := List.exists_cons_of_length_eq_add_one h
    have hrest := ih (Nat.succ.inj h)
    rw [selectRows_cons]
    cases b with
    | true => rw [if_pos rfl, List.length_cons, hrest, List.count_cons_self]
    | false => rw [if_neg Bool.false_ne_true, hrest, List.count_cons_of_ne Bool.false_ne_true]

lemma count_trueBytes (bytes : List Int) : (trueBytes bytes).count true = bytes.count 1 := by
  rw [trueBytes, List.count, List.count, List.countP_map]
  refine List.countP_congr fun c _ => ?_
  simp

/-- The flags of the copy are the first ones of the column. -/
lemma copyLoop_eq (hx : x.length = bytes.length) (hflags : bytes.count 1 ≤ flags.length) :
    copyLoop (bytes.zip x) flags = (selectRows (trueBytes bytes) x, flags.take (bytes.count 1)) := by
  induction bytes generalizing x flags with
  | nil => simp [copyLoop, selectRows, trueBytes]
  | cons c bytes ih =>
    obtain ⟨v, x, rfl⟩ := List.exists_cons_of_length_eq_add_one hx
    have hx' : x.length = bytes.length := Nat.succ.inj hx
    rw [List.zip_cons_cons, copyLoop, trueBytes, List.map_cons, selectRows_cons]
    by_cases hc : c = 1
    · subst hc
      rw [List.count_cons_self] at hflags ⊢
      cases flags with
      | nil => exact absurd hflags (by simp)
      | cons b flags =>
        have hrest := ih hx' (Nat.le_of_succ_le_succ hflags)
        rw [if_pos rfl, List.tail_cons, hrest, if_pos (decide_eq_true rfl), List.headD_cons, List.take_succ_cons]
        rfl
    · rw [List.count_cons_of_ne hc] at hflags ⊢
      rw [if_neg hc, if_neg (by simpa using hc)]
      exact ih hx' hflags

/-- The bytes of a column that fills its rows. -/
lemma mappedBytes_self (x : List Int) : mappedBytes x x.length = some x := by
  rw [mappedBytes, if_pos (by omega), Nat.sub_self, List.replicate_zero, List.append_nil, List.take_length]

lemma length_mappedBytes {n : Nat} (h : mappedBytes x n = some bytes) : bytes.length = n := by
  unfold mappedBytes at h
  split_ifs at h with hn
  rw [← Option.some.inj h, List.length_take, List.length_append, List.length_replicate]
  omega

end

/-! ### The number of rows -/

/-- Slot `c` holds the condition `cfld`, a column of 0 and 1 or of bits. What is recorded about it passes the
checks that are made when its sum is recorded. -/
structure CondField (env : Env) (numCores : Int) (s : Store) (t1Id : Nat) (cfld : Name) (c nR1 : Nat)
    (cfldX : List Int) : Prop where
  name : cfld ≠ [] ∧ ':' ∉ cfld
  tbl : (s.tbl t1Id).nR = nR1
  found : isFld s t1Id cfld = some c
  data : getData env s (s.fld c) = some ⟨1, cfldX⟩
  nn : (s.fld c).nnFldId < 0
  fldtype : (s.fld c).fldtype = .I1 ∧ cfldX.length = nR1 ∧ (∀ v ∈ cfldX, v = 0 ∨ v = 1) ∨
    (s.fld c).fldtype = .B ∧ (cfldX.length : Int) = getFileSizeB nR1
  checks : (s.fld c).fldtype = .I1 → chkTblMeta s t1Id = true ∧ chkFldMeta env s c nR1 = true
  stats : ((s.fld c).isMinNn = true → statInRange (s.fld c).fldtype (s.fld c).minval = true) ∧
    ((s.fld c).isMaxNn = true → statInRange (s.fld c).fldtype (s.fld c).maxval = true)
  cores : (partition nR1 1024 numCores).isSome = true
  rows : nR1 < 2 ^ 63

/-- The record of a field whose sum has been recorded. -/
def FldRec.recordSum (r : FldRec) (sum nR : Int) : FldRec :=
  { r with numNn := nR, sumval := sum, isSumNn := true }

/-- The store with the sum of a field. -/
def Store.recordSum (s : Store) (c : Nat) (sum nR : Int) : Store :=
  s.setFld c ((s.fld c).recordSum sum nR)

lemma sameButSums_recordSum (s : Store) (c : Nat) (sum nR : Int) :
    SameButSums s (s.recordSum c sum nR) := by
  refine ⟨Store.length_setFld .., rfl, fun i => ?_⟩
  rw [Store.recordSum, Store.fld_setFld]
  split
  · next hi =>
    rw [hi.1]
    exact ⟨_, _, _, rfl⟩
  · exact FldRec.SameButSum.refl _

lemma chkTblMeta_recordSum (c t : Nat) (sum nR : Int) :
    chkTblMeta (s.recordSum c sum nR) t = chkTblMeta s t := by
  have hsame := sameButSums_recordSum s c sum nR
  have hfldtype : ∀ i, ((s.recordSum c sum nR).fld i).fldtype = (s.fld i).fldtype := by
    intro i
    obtain ⟨_, _, _, hi⟩ := hsame.flds i
    rw [hi]
  unfold chkTblMeta
  simp only [hsame.isFld, hfldtype]
  rfl

/-- A field that passed the checks passes them with its sum. -/
lemma chkFldMeta_recordSum {c : Nat} {nR : Int} (hc : c < s.flds.length)
    (htype : (s.fld c).fldtype = .I1) (h : chkFldMeta env s c nR = true) (sum nR' : Int) :
    chkFldMeta env (s.recordSum c sum nR') c nR = true := by
  have hsame := sameButSums_recordSum s c sum nR'
  have hr : (s.recordSum c sum nR').fld c = (s.fld c).recordSum sum nR' := Store.fld_setFld_of_lt hc _
  have haux : chkAux (s.recordSum c sum nR') ((s.fld c).recordSum sum nR') = chkAux s (s.fld c) := by
    obtain ⟨_, _, _, hp⟩ := hsame.flds (s.fld c).parentId.toNat
    unfold chkAux
    dsimp only [FldRec.recordSum]
    rw [hp]
    rfl
  have hlen : chkLenOff (s.recordSum c sum nR') c ((s.fld c).recordSum sum nR') = chkLenOff s c (s.fld c) := by
    have hsv : (s.fld c).fldtype ≠ .SV := by
      rw [htype]
      exact FldType.noConfusion
    have hsv' : ((s.fld c).recordSum sum nR').fldtype ≠ .SV := hsv
    unfold chkLenOff
    rw [if_neg hsv, if_neg hsv']
    rfl
  have hfile : chkFile env (s.recordSum c sum nR') nR ((s.fld c).recordSum sum nR') =
      chkFile env s nR (s.fld c) := rfl
  have hstats : chkStats ((s.fld c).recordSum sum nR') = true := by
    have hold := (chkStats_of_chkFldMeta h).2
    unfold chkStats at hold ⊢
    dsimp only [FldRec.recordSum]
    simp only [htype, Bool.and_eq_true, Bool.true_or] at hold ⊢
    exact ⟨⟨⟨⟨trivial, hold.1.1.1.2⟩, hold.1.1.2⟩, trivial⟩, hold.2⟩
  unfold chkFldMeta at h ⊢
  rw [hr]
  dsimp only at h ⊢
  rw [haux, hlen, hfile, hstats, hsame.length]
  simp only [Bool.and_eq_true] at h ⊢
  exact ⟨⟨h.1.1, trivial⟩, h.2⟩

section

variable {numCores : Int} {t1Id c nR1 : Nat} {cfld : Name} {cfldX : List Int}

/-- The text of a sum is taken apart and recorded. -/
lemma setMinMaxSum_sum {stoF8 : List Char → Option Int} {value : List Char} {sum nR : Nat}
    (hc : c < s.flds.length) (htype : (s.fld c).fldtype = .I1) (hsum : sum < 2 ^ 63) (hnR : nR < 2 ^ 63)
    (hread : readNthVal value [':'] 0 32 = some (Nat.toDigits 10 sum) ∧
      readNthVal value [':'] 1 32 = some (Nat.toDigits 10 nR))
    (hold : chkStats (s.fld c) = true)
    (hstats : ((s.fld c).isMinNn = true → statInRange (s.fld c).fldtype (s.fld c).minval = true) ∧
      ((s.fld c).isMaxNn = true → statInRange (s.fld c).fldtype (s.fld c).maxval = true)) :
    setMinMaxSum stoF8 .sum value c s = (some (), s.recordSum c sum nR) := by
  obtain ⟨s₁, hs₁⟩ : ∃ s₁, s₁ = s.setFld c { s.fld c with numNn := (nR : Int) } := ⟨_, rfl⟩
  have hr₁ : s₁.fld c = { s.fld c with numNn := (nR : Int) } := by
    rw [hs₁]
    exact Store.fld_setFld_of_lt hc _
  have hs₂ : s₁.setFld c ((s₁.fld c).setStat sum .sum) = s.recordSum c sum nR := by
    rw [hr₁, hs₁, Store.setFld_setFld]
    rfl
  have hr₂ : (s.recordSum c sum nR).fld c = (s.fld c).recordSum sum nR := Store.fld_setFld_of_lt hc _
  have hparse : parseStat stoF8 (Nat.toDigits 10 sum) (s₁.fld c).fldtype = some (sum : Int) := by
    rw [hr₁]
    show parseStat stoF8 (Nat.toDigits 10 sum) (s.fld c).fldtype = _
    rw [htype]
    exact stoI8_toDigits hsum
  have hmin : ((s.fld c).recordSum sum nR).isMinNn = true →
      statInRange ((s.fld c).recordSum sum nR).fldtype ((s.fld c).recordSum sum nR).minval = true := hstats.1
  have hminmax : minMaxOk ((s.fld c).recordSum sum nR) = true := by
    unfold chkStats at hold
    unfold minMaxOk
    dsimp only [FldRec.recordSum]
    simp only [htype, Bool.and_eq_true, Bool.or_eq_true, Bool.not_eq_true'] at hold ⊢
    rcases hold.2 with (hmax | hmin) | hle
    · exact .inl (.inr hmax)
    · exact .inl (.inl hmin)
    · exact .inr hle
  unfold setMinMaxSum
  rw [hread.2, Cmd.ofOption_some_bind, stoI8_toDigits hnR, Cmd.ofOption_some_bind, Cmd.require_bind,
    if_pos (Int.natCast_nonneg nR), Cmd.modify_bind, hread.1, Cmd.ofOption_some_bind, Cmd.get_bind, ← hs₁,
    hparse, Cmd.ofOption_some_bind, Cmd.modify_bind, Cmd.get_bind, hs₂]
  rw [hr₂, Cmd.require_bind, if_pos hminmax, Cmd.require_bind, if_pos hmin]
  exact Cmd.require_pos hstats.2 _

/-- The text of the sum of flags. -/
lemma vecFToSSum_flags (hbits : ∀ v ∈ cfldX, v = 0 ∨ v = 1) (hcount : cfldX.count 1 < 2 ^ 63)
    (hcores : (partition cfldX.length 1024 numCores).isSome = true) :
    vecFToSSum cfldX cfldX.length numCores .I1 =
      some (rsltBuf ((cfldX.length : Int), ((cfldX.count 1 : Nat) : Int))) := by
  obtain ⟨p, hp⟩ := Option.isSome_iff_exists.mp hcores
  have hrange : ∀ v ∈ cfldX, IntType.I1.InRange v := by
    intro v hv
    rcases hbits v hv with rfl | rfl <;> decide
  show vecFToS .I1 (cfldX.take (cfldX.length : Int).toNat) none .sum numCores = _
  rw [Int.toNat_natCast, List.take_length, vecFToS_eq hrange hp, nonNull]
  show some (rsltBuf ((cfldX.length : Int), fToS .sum cfldX 0)) = _
  rw [fToS_sum_zero, sum_eq_count hbits, CInt.wrap_of_lt (Int.natCast_nonneg _) (by exact_mod_cast hcount)]

/-- The text of a sum is accepted for a field whose record passes the checks. -/
lemma intSetMeta_sum {value : List Char} {sum : Nat} (hc : c < s.flds.length) (htype : (s.fld c).fldtype = .I1)
    (htbl : (s.tbl t1Id).nR = (nR1 : Int)) (hsum : sum < 2 ^ 63) (hnR : nR1 < 2 ^ 63)
    (hread : readNthVal value [':'] 0 32 = some (Nat.toDigits 10 sum) ∧
      readNthVal value [':'] 1 32 = some (Nat.toDigits 10 nR1))
    (hchecks : chkTblMeta s t1Id = true ∧ chkFldMeta env s c nR1 = true)
    (hstats : ((s.fld c).isMinNn = true → statInRange (s.fld c).fldtype (s.fld c).minval = true) ∧
      ((s.fld c).isMaxNn = true → statInRange (s.fld c).fldtype (s.fld c).maxval = true)) :
    intSetMeta env (fun _ => none) t1Id c (.stat .sum) value true s = (some (), s.recordSum c sum nR1) := by
  have hne : value ≠ [] := by
    rintro rfl
    exact Nat.toDigits_ne_nil (Option.some.inj hread.1).symm
  have hset : setAttr (fun _ => none) (t1Id : Int).toNat (c : Int).toNat (.stat .sum) value true s =
      (some (), s.recordSum c sum nR1) :=
    setMinMaxSum_sum hc htype hsum hnR hread (chkStats_of_chkFldMeta hchecks.2).2 hstats
  have hrows : ((s.recordSum c sum nR1).tbl t1Id).nR = nR1 := htbl
  unfold intSetMeta
  rw [Cmd.require_bind, if_pos hne, Cmd.require_bind, if_pos (Int.natCast_nonneg t1Id), Cmd.require_bind,
    if_pos (.inr (Int.natCast_nonneg c)), Cmd.bind_of_eq hset]
  unfold chkAttr
  rw [Cmd.get_bind, Cmd.require_bind, Int.toNat_natCast, chkTblMeta_recordSum, if_pos hchecks.1]
  refine Cmd.require_pos (fun _ => ?_) _
  rw [Int.toNat_natCast, hrows]
  exact chkFldMeta_recordSum hc htype hchecks.2 _ _

/-- The sum of a condition of type I1 is found and recorded. -/
lemma CondField.condSum_I1 (h : CondField env numCores s t1Id cfld c nR1 cfldX)
    (htype : (s.fld c).fldtype = .I1) (hnew : (s.fld c).isSumNn = false) :
    condSum env numCores t1Id c nR1 s =
      (some ((cfldX.count 1 : Nat) : Int), s.recordSum c (cfldX.count 1 : Nat) nR1) := by
  obtain ⟨hlen, hbits⟩ : cfldX.length = nR1 ∧ ∀ v ∈ cfldX, v = 0 ∨ v = 1 := by
    rcases h.fldtype with ⟨-, h⟩ | ⟨hB, -⟩
    · exact h
    · rw [htype] at hB
      cases hB
  have hcount : cfldX.count 1 < 2 ^ 63 := by
    have hle := List.count_le_length (a := (1 : Int)) (l := cfldX)
    have hrows := h.rows
    omega
  have hread := readNthVal_toList_pair hcount h.rows
  have hsum := vecFToSSum_flags hbits hcount (by rw [hlen]; exact h.cores)
  rw [hlen] at hsum
  have hmeta := intSetMeta_sum (isFld_eq_some h.found).1 htype h.tbl hcount h.rows hread (h.checks htype) h.stats
  have hfToS : fToSSum env numCores t1Id c nR1 s =
      (some (rsltBuf ((nR1 : Int), ((cfldX.count 1 : Nat) : Int))).toList,
        s.recordSum c (cfldX.count 1 : Nat) nR1) := by
    unfold fToSSum
    rw [Cmd.get_bind, h.data, Cmd.ofOption_some_bind, htype, hsum, Cmd.ofOption_some_bind]
    exact Cmd.bind_of_eq hmeta
  unfold condSum
  rw [Cmd.get_bind, hnew, if_neg Bool.false_ne_true, Cmd.bind_of_eq hfToS]
  show (Cmd.ofOption (readNthVal (toString ((cfldX.count 1 : Nat) : Int) ++ ":" ++ toString (nR1 : Int)).toList
    [':'] 0 32) >>= _) _ = _
  rw [hread.1, Cmd.ofOption_some_bind, stoI8_toDigits hcount]
  rfl

lemma condSum_recorded (h : (s.fld c).isSumNn = true) :
    condSum env numCores t1Id c nR1 s = (some (s.fld c).sumval, s) := by
  unfold condSum
  rw [Cmd.get_bind, if_pos h]
  rfl

/-- A bit column does not pass the checks, since its type has no size. -/
lemma chkFldMeta_B {nR : Int} (h : (s.fld c).fldtype = .B) : chkFldMeta env s c nR = false := by
  have hfile : chkFile env s nR (s.fld c) = false := by
    unfold chkFile
    rw [h, getFldSz]
    simp
  unfold chkFldMeta
  dsimp only
  rw [hfile, Bool.and_false]

/-- The sum of a bit column can not be recorded. -/
lemma condSum_B (htype : (s.fld c).fldtype = .B) (hnew : (s.fld c).isSumNn = false) (nR : Int) :
    (condSum env numCores t1Id c nR s).1 = none := by
  rw [Option.eq_none_iff_forall_not_mem]
  intro sum hsum
  have hrun : condSum env numCores t1Id c nR s = (some sum, (condSum env numCores t1Id c nR s).2) :=
    Prod.ext hsum rfl
  unfold condSum fToSSum at hrun
  rw [Cmd.get_bind, hnew, if_neg Bool.false_ne_true] at hrun
  obtain ⟨_, _, hbuf, -⟩ := Cmd.bind_eq_some.mp hrun
  rw [Cmd.get_bind] at hbuf
  obtain ⟨_, -, hbuf⟩ := Cmd.ofOption_bind_eq_some.mp hbuf
  obtain ⟨_, -, hbuf⟩ := Cmd.ofOption_bind_eq_some.mp hbuf
  obtain ⟨_, s₂, hmeta, -⟩ := Cmd.bind_eq_some.mp hbuf
  unfold intSetMeta at hmeta
  obtain ⟨-, hmeta⟩ := Cmd.require_bind_eq_some.mp hmeta
  obtain ⟨-, hmeta⟩ := Cmd.require_bind_eq_some.mp hmeta
  obtain ⟨-, hmeta⟩ := Cmd.require_bind_eq_some.mp hmeta
  obtain ⟨_, s₁, hset, hchk⟩ := Cmd.bind_eq_some.mp hmeta
  obtain ⟨numNn, v, -, s₀, rfl, rfl⟩ := setMinMaxSum_eq_some hset
  unfold chkAttr at hchk
  rw [Cmd.get_bind] at hchk
  obtain ⟨-, hchk⟩ := Cmd.require_bind_eq_some.mp hchk
  have hpass := (Cmd.require_eq_some.mp hchk).1 (Int.natCast_nonneg c)
  rw [Int.toNat_natCast, chkFldMeta_B] at hpass
  · cases hpass
  · rw [Store.fld_setFld]
    split_ifs
    · rw [Store.fld_setFld]
      split_ifs
      · exact htype
      · exact htype
    · rw [Store.fld_setFld]
      split_ifs
      · exact htype
      · exact htype

end

/-! ### The files -/

/-- The file of the null flags, if there are any. -/
inductive NnWritten (env : Env) (n : Int) (nnopX : List Int) (s : Store) :
    Option DataFile → Option (Int × Int) → Prop where
  | none : NnWritten env n nnopX s none none
  | some {y : DataFile} {d : Nat} (hd : env.canEnter d = true) (h : Unowned d n ⟨1, nnopX⟩ s) :
      NnWritten env n nnopX s (some y) (some (d, n))

lemma NnWritten.mono {n : Int} {nnopX : List Int} {nn : Option DataFile} {nnFile : Option (Int × Int)}
    (h : NnWritten env n nnopX s nn nnFile) (hkeep : ∀ d f, Unowned d n f s → Unowned d n f s') :
    NnWritten env n nnopX s' nn nnFile := by
  cases h with
  | none => exact .none
  | some hd h => exact .some hd (hkeep _ _ h)

/-- The file is written to. -/
lemma Unowned.write {d n : Int} {f : DataFile} (h : Unowned d n f s) (g : DataFile) :
    Unowned d n g (s.setFile d n (some g)) :=
  ⟨if_pos ⟨rfl, rfl⟩, h.fileno⟩

lemma Unowned.writeOther {d n e m : Int} {f : DataFile} (h : Unowned d n f s) (hne : n ≠ m) (g : DataFile) :
    Unowned d n f (s.setFile e m (some g)) :=
  h.sameFlds rfl (if_neg fun heq => hne heq.2)

/-- The files of the copy are made and written. -/
lemma copyFiles_succeed {w nR2 : Nat} {nn : Option DataFile} {copied : CopiedRows} (hw : 0 < w) (hpos : 0 < nR2)
    (hfilenos : 0 < s.nextFileno ∧ ∀ i, (s.fld i).fileno < s.nextFileno)
    (hroom : (env.roomDir (w * nR2)).isSome = true) (hnnRoom : nn.isSome = true → (env.roomDir nR2).isSome = true) :
    ∃ (d : Nat) (nnFile : Option (Int × Int)) (s' : Store), (∀ rest : Int × Int → Option (Int × Int) → Cmd Store Unit,
      (mkTempFile env ⟨w, List.replicate nR2 0⟩ >>= fun p => copyFldNnFile env nR2 nn >>= fun nnFile =>
        Cmd.modify (Store.setFile p.1 p.2 (some ⟨w, copied.opX⟩)) >>= fun _ =>
          writeNn copied.nnopX nnFile >>= fun _ => rest p nnFile) s = rest (d, s.nextFileno) nnFile s') ∧
      SameRecs s s' ∧ env.canEnter d = true ∧ Unowned d s.nextFileno ⟨w, copied.opX⟩ s' ∧
      NnWritten env (s.nextFileno + 1) copied.nnopX s' nn nnFile := by
  have hsize : (⟨w, List.replicate nR2 0⟩ : DataFile).size = w * nR2 := by
    rw [DataFile.size, List.length_replicate]
  have hne : (⟨w, List.replicate nR2 0⟩ : DataFile).size ≠ 0 := by
    rw [hsize]
    exact (Nat.mul_pos hw hpos).ne'
  obtain ⟨d, hd, htemp⟩ := mkTempFile_room hne hfilenos.1.le (by rw [hsize]; exact hroom)
  have hfresh := withTemp_unowned hfilenos.2 d ⟨w, List.replicate nR2 0⟩
  have hnext : 0 ≤ s.nextFileno + 1 := by omega
  cases nn with
  | none =>
    refine ⟨d, none, _, fun rest => ?_, ?_, hd, hfresh.write _, .none⟩
    · rw [Cmd.bind_of_eq htemp]
      rfl
    · exact ⟨rfl, rfl, rfl⟩
  | some y =>
    have hsize' : (⟨1, List.replicate nR2 0⟩ : DataFile).size = nR2 := by
      rw [DataFile.size, List.length_replicate, Nat.one_mul]
    have hne' : (⟨1, List.replicate nR2 0⟩ : DataFile).size ≠ 0 := by
      rw [hsize']
      exact hpos.ne'
    obtain ⟨e, he, htemp'⟩ := mkTempFile_room (s := s.withTemp d ⟨w, List.replicate nR2 0⟩) hne' hnext
      (show (env.roomDir _).isSome = true by rw [hsize']; exact hnnRoom rfl)
    have hfresh' := withTemp_unowned (s := s.withTemp d ⟨w, List.replicate nR2 0⟩)
      (fun i => (hfilenos.2 i).trans (Int.lt_succ _)) e ⟨1, List.replicate nR2 0⟩
    have hnn : copyFldNnFile env nR2 (some y) (s.withTemp d ⟨w, List.replicate nR2 0⟩) =
        (some (some ((e : Int), s.nextFileno + 1)), (s.withTemp d ⟨w, List.replicate nR2 0⟩).withTemp e
          ⟨1, List.replicate nR2 0⟩) := by
      show (mkTempFile env ⟨1, List.replicate nR2 0⟩ >>= _) _ = _
      rw [Cmd.bind_of_eq htemp']
      rfl
    have hlt : s.nextFileno ≠ s.nextFileno + 1 := by omega
    refine ⟨d, some ((e : Int), s.nextFileno + 1), Store.setFile e (s.nextFileno + 1) (some ⟨1, copied.nnopX⟩)
      (Store.setFile d s.nextFileno (some ⟨w, copied.opX⟩) ((s.withTemp d ⟨w, List.replicate nR2 0⟩).withTemp e
        ⟨1, List.replicate nR2 0⟩)), fun rest => ?_, ?_, hd, ?_, .some he ?_⟩
    · rw [Cmd.bind_of_eq htemp, Cmd.bind_of_eq hnn]
      rfl
    · exact ⟨rfl, rfl, rfl⟩
    · have hkept : Unowned d s.nextFileno ⟨w, List.replicate nR2 0⟩
          ((s.withTemp d ⟨w, List.replicate nR2 0⟩).withTemp e ⟨1, List.replicate nR2 0⟩) :=
        hfresh.sameFlds rfl (if_neg fun heq => hlt heq.2)
      exact (hkept.write _).writeOther hlt _
    · exact (hfresh'.writeOther (Ne.symm hlt) _).write _

/-! ### The copy of the selected rows -/

/-- `copy_fld` behind the number of rows. -/
def copyRest (env : Env) (s : Store) (f1 t2 : Name) (a nR1 : Nat) (x : DataFile) (nn : Option DataFile)
    (sel : CopySel) (nR2 : Int) : Cmd Store Unit := do
  let t2Id ← copyTarget env t2 nR2 (isTbl s t2)
  let (ddirId, fileno) ← mkTempFile env ⟨x.width, List.replicate nR2.toNat 0⟩
  let nnFile ← copyFldNnFile env nR2 nn
  let copied ← Cmd.ofOption (copySelected nR1 x.cells (nn.map DataFile.cells) sel)
  Cmd.modify (Store.setFile ddirId fileno (some ⟨x.width, copied.opX⟩))
  writeNn copied.nnopX nnFile
  Cmd.require (copied.opX.length = nR2)
  let t2f1Id ← addFld env t2Id f1 ddirId fileno { zeroFldRec with fldtype := (s.fld a).fldtype }
  Cmd.modify fun s => s.setFld t2f1Id { s.fld t2f1Id with srttype := (s.fld a).srttype }
  copyMeta t2f1Id a
  copyFldNn env t2Id t2f1Id copied.isNullValInOp nnFile

/-- A copy that goes through has the number of rows that was found before, and is not empty. -/
lemma copyRest_eq_some {s₁ : Store} {f1 t2 : Name} {a nR1 : Nat} {x : DataFile} {nn : Option DataFile}
    {sel : CopySel} {nR2 : Int} (h : copyRest env s f1 t2 a nR1 x nn sel nR2 s₁ = (some (), s')) :
    ∃ copied, copySelected nR1 x.cells (nn.map DataFile.cells) sel = some copied ∧
      copied.opX.length = nR2 ∧ 0 < nR2 := by
  unfold copyRest at h
  obtain ⟨_, _, -, h⟩ := Cmd.bind_eq_some.mp h
  obtain ⟨_, _, htemp, h⟩ := Cmd.bind_eq_some.mp h
  obtain ⟨_, _, -, h⟩ := Cmd.bind_eq_some.mp h
  obtain ⟨copied, hcopied, h⟩ := Cmd.ofOption_bind_eq_some.mp h
  rw [Cmd.modify_bind] at h
  obtain ⟨_, _, -, h⟩ := Cmd.bind_eq_some.mp h
  obtain ⟨hlen, -⟩ := Cmd.require_bind_eq_some.mp h
  unfold mkTempFile at htemp
  have hsize := (Cmd.require_bind_eq_some.mp htemp).1
  rw [DataFile.size, List.length_replicate] at hsize
  have hpos : nR2.toNat ≠ 0 := fun h0 => hsize (by rw [h0, Nat.mul_zero])
  exact ⟨copied, hcopied, hlen, by omega⟩

/-- The null column of the copy. -/
lemma copyFldNn_succeeds {n : Int} {nn : Option DataFile} {nnFile : Option (Int × Int)} {nnopX : List Int}
    (hwritten : NnWritten env n nnopX s nn nnFile) {t2 f1 : Name} {t2Id nR2 j : Nat} {t : FldType} {f : DataFile}
    (h : Entered s t2 t2Id f1 nR2 t f j) (hnone : (s.fld j).nnFldId < 0) (hname : chkFldName f1 = true)
    (hn : 0 ≤ n) (hfileno : (s.fld j).fileno ≠ n) (hpos : 0 < nR2)
    (hnn : nn.isSome = true → nnopX.length = nR2 ∧ (∀ v ∈ nnopX, v = 0 ∨ v = 1) ∧
      f1.length + (auxPrefix .nn).length ≤ maxLenName ∧ 0 < s.freeSlots) :
    ∃ s', copyFldNn env t2Id j (nnopX.contains 0) nnFile s = (some (), s') ∧ Entered s' t2 t2Id f1 nR2 t f j ∧
      FlagsCopied s' j (nn.map fun _ => nnopX) := by
  cases hwritten with
  | none => exact ⟨s, rfl, h, hnone⟩
  | @some y d hd hfile =>
    obtain ⟨hlen, hbits, hroom, hslot⟩ := hnn rfl
    have hall : (∀ v ∈ nnopX, v = 1) ↔ nnopX.contains 0 = false := by
      rw [← Bool.not_eq_true, List.contains_iff_mem]
      constructor
      · intro h1 h0
        exact absurd (h1 0 h0) (by decide)
      · intro h0 v hv
        rcases hbits v hv with rfl | hv1
        · exact absurd hv h0
        · exact hv1
    rw [copyFldNn]
    cases hcontains : nnopX.contains 0 with
    | false =>
      rw [if_neg Bool.false_ne_true, qDelete_succeeds hd hn]
      refine ⟨_, rfl, h.qDelete hfileno d, ?_⟩
      rw [Option.map_some, FlagsCopied, if_pos (hall.mpr hcontains)]
      exact hnone
    | true =>
      have hsize : (⟨1, nnopX⟩ : DataFile).size ≠ 0 := by
        rw [DataFile.size, Nat.one_mul, hlen]
        exact hpos.ne'
      obtain ⟨k, s₁, hadd, hentered, hlink, hk⟩ := h.addNn hnone hname hroom hslot hd hn hfile hsize
      have hnot : ¬ ∀ v ∈ nnopX, v = 1 := by
        rw [hall, hcontains]
        exact Bool.noConfusion
      rw [if_pos rfl]
      refine ⟨s₁, Cmd.bind_of_eq hadd, hentered, ?_⟩
      rw [Option.map_some, FlagsCopied, if_neg hnot]
      exact ⟨k, hlink, by rw [hk]; rfl⟩

/-- What is given to `copy_fld`. -/
structure CopyFldArgs (env : Env) (numCores : Int) (s : Store) (t1 f1 cfld : Name) (a c nR1 : Nat) (x : DataFile)
    (nn : Option DataFile) (cfldX : List Int) : Prop where
  source : CopySource env s t1 f1 a nR1 x nn
  cond : ∃ t1Id, isTbl s t1 = some t1Id ∧ CondField env numCores s t1Id cfld c nR1 cfldX

section

variable {numCores : Int} {t1 f1 cfld t2 : Name} {a c nR1 t2Id : Nat} {x : DataFile} {nn : Option DataFile}
  {cfldX bytes : List Int}

lemma CopyFldArgs.run_eq (args : CopyFldArgs env numCores s t1 f1 cfld a c nR1 x nn cfldX) (hf1 : f1 ≠ [])
    (ht2 : t2 ≠ []) (hne : t1 ≠ t2) : ∃ t1Id, CondField env numCores s t1Id cfld c nR1 cfldX ∧
      copyFld env numCores t1 f1 cfld t2 s = (condSum env numCores t1Id c nR1 >>= fun nR2 =>
        copyRest env s f1 t2 a nR1 x nn (.cond cfldX) nR2) s := by
  obtain ⟨ht1, t1Id, htbl, hnR, hfld⟩ := args.source.tbl
  obtain ⟨t1Id', htbl', hcond⟩ := args.cond
  obtain rfl := Option.some.inj (htbl.symm.trans htbl')
  have htype : (s.fld c).fldtype = .I1 ∨ (s.fld c).fldtype = .B := hcond.fldtype.imp And.left And.left
  have hsel : ∀ rest : CopySel × Int → Cmd Store Unit, (copySel env numCores t1Id nR1 cfld >>= rest) s =
      (condSum env numCores t1Id c nR1 >>= fun nR2 => rest (.cond cfldX, nR2)) s := by
    intro rest
    have hbody : copySel env numCores t1Id nR1 cfld s =
        (condSum env numCores t1Id c nR1 >>= fun nR2 => pure (CopySel.cond cfldX, nR2)) s := by
      unfold copySel
      rw [if_neg hcond.name.1, if_neg hcond.name.2, Cmd.get_bind, hcond.found, Cmd.ofOption_some_bind, hcond.data,
        Cmd.ofOption_some_bind, Cmd.require_bind, if_pos hcond.nn, Cmd.require_bind, if_pos htype]
    rw [Cmd.bind_apply, hbody, Cmd.bind_apply, Cmd.bind_apply]
    cases condSum env numCores t1Id c nR1 s with
    | mk sum s' => cases sum <;> rfl
  refine ⟨t1Id, hcond, ?_⟩
  unfold copyFld
  rw [Cmd.require_bind, if_pos ht1, Cmd.require_bind, if_pos hf1, Cmd.require_bind, if_pos ht2,
    Cmd.require_bind, if_pos hne, Cmd.get_bind, htbl, Cmd.ofOption_some_bind]
  dsimp only
  rw [hfld, Cmd.ofOption_some_bind, args.source.column.data, Cmd.ofOption_some_bind, args.source.flags.found,
    Cmd.require_bind, if_pos args.source.fldtype, hnR, hsel]
  rfl

/-- What the loop copies. -/
lemma CopyFldArgs.copied (args : CopyFldArgs env numCores s t1 f1 cfld a c nR1 x nn cfldX)
    (hbytes : mappedBytes cfldX nR1 = some bytes) :
    copySelected nR1 x.cells (nn.map DataFile.cells) (.cond cfldX) =
      some ⟨selectRows (trueBytes bytes) x.cells, ((nn.map DataFile.cells).getD []).take (bytes.count 1),
        (((nn.map DataFile.cells).getD []).take (bytes.count 1)).contains 0⟩ := by
  have hlen := length_mappedBytes hbytes
  have hx : x.cells.length = bytes.length := args.source.column.length.trans hlen.symm
  rw [copySelected, hbytes, Option.map_some]
  cases nn with
  | none =>
    rw [filterMap_eq_selectRows]
    simp
  | some y =>
    have hflags := args.source.flags.2.2.2.1
    have hcount := List.count_le_length (a := (1 : Int)) (l := bytes)
    rw [Option.map_some]
    dsimp only
    rw [copyLoop_eq hx (by omega)]
    rfl

/-- The loop copies as many rows as there are TRUE bytes. -/
lemma CopyFldArgs.length_selected (args : CopyFldArgs env numCores s t1 f1 cfld a c nR1 x nn cfldX)
    (hbytes : mappedBytes cfldX nR1 = some bytes) :
    (selectRows (trueBytes bytes) x.cells).length = bytes.count 1 := by
  rw [length_selectRows, count_trueBytes]
  rw [trueBytes, List.length_map, length_mappedBytes hbytes, args.source.column.length]

/-- The flags that the loop copies. -/
lemma CopyFldArgs.nnRows (args : CopyFldArgs env numCores s t1 f1 cfld a c nR1 x nn cfldX)
    (hbytes : mappedBytes cfldX nR1 = some bytes) {y : DataFile} (hy : nn = some y) :
    (y.cells.take (bytes.count 1)).length = bytes.count 1 ∧
      ∀ v ∈ y.cells.take (bytes.count 1), v = 0 ∨ v = 1 := by
  subst hy
  obtain ⟨-, -, -, hlen, hbits⟩ := args.source.flags
  have hcount := List.count_le_length (a := (1 : Int)) (l := bytes)
  have hlenB := length_mappedBytes hbytes
  refine ⟨?_, fun v hv => hbits v (List.mem_of_mem_take hv)⟩
  rw [List.length_take]
  omega

/-- The copy goes through if the number of rows was found right and is not 0. -/
lemma CopyFldArgs.copyRest_succeeds (args : CopyFldArgs env numCores s t1 f1 cfld a c nR1 x nn cfldX)
    (hbytes : mappedBytes cfldX nR1 = some bytes)
    (room : CopyRoom env s t1 f1 t2 t2Id x.width (bytes.count 1) nn.isSome) (hpos : 0 < bytes.count 1)
    {s₁ : Store} (hsums : SameButSums s s₁) (htbls : s₁.tbls = s.tbls) (hnext : s₁.nextFileno = s.nextFileno) :
    ∃ s' j, copyRest env s f1 t2 a nR1 x nn (.cond cfldX) (bytes.count 1 : Nat) s₁ = (some (), s') ∧
      Entered s' t2 t2Id f1 (bytes.count 1) (s.fld a).fldtype
        ⟨x.width, selectRows (trueBytes bytes) x.cells⟩ j ∧
      FlagsCopied s' j (nn.map fun y => y.cells.take (bytes.count 1)) := by
  have hcopied := args.copied hbytes
  have hlen := args.length_selected hbytes
  have hnnRows : ∀ y, nn = some y → _ := fun y hy => args.nnRows hbytes hy
  obtain ⟨nR2, hnR2⟩ : ∃ n, n = bytes.count 1 := ⟨_, rfl⟩
  obtain ⟨opX, hopX⟩ : ∃ l, l = selectRows (trueBytes bytes) x.cells := ⟨_, rfl⟩
  obtain ⟨nnopX, hnnopX⟩ : ∃ l, l = ((nn.map DataFile.cells).getD []).take nR2 := ⟨_, rfl⟩
  rw [← hopX, ← hnR2] at hlen
  rw [← hnR2, ← hnnopX, ← hopX] at hcopied
  rw [← hnR2] at room hpos hnnRows
  rw [← hnR2, ← hopX]
  have hisTbl : isTbl s₁ t2 = isTbl s t2 := by rw [isTbl, htbls, isTbl]
  obtain ⟨tbls, htarget, htbl, hrows⟩ := copyTarget_succeeds room.names.2.1
    (show (0 : Int) < nR2 by omega) (room.target.congr htbls)
  rw [hisTbl] at htarget
  -- the files get the next two numbers
  have hfileno : ∀ i, (s₁.fld i).fileno < s₁.nextFileno := by
    intro i
    obtain ⟨_, _, _, hi⟩ := hsums.flds i
    rw [hi, hnext]
    exact room.filenos.2 i
  have hfirst : 0 < s₁.nextFileno := by
    rw [hnext]
    exact room.filenos.1
  have hnnRoom : nn.isSome = true → (env.roomDir nR2).isSome = true := fun hsome => (room.nnRoom hsome).2.1
  obtain ⟨d, nnFile, s₂, hfiles, hsame, hd, hfile, hnnFile⟩ :=
    @copyFiles_succeed env { s₁ with tbls := tbls } x.width nR2 nn ⟨opX, nnopX, nnopX.contains 0⟩
      (getFldSz_copy_pos args.source.fldtype args.source.column.width) hpos ⟨hfirst, hfileno⟩ room.file hnnRoom
  have hsums₂ := hsums.trans_same hsame.flds hsame.info
  have hready : CopyReady env s₂ t2 t2Id a f1 nR2 ⟨x.width, opX⟩ d s₁.nextFileno := by
    refine room.ready args.source hsums₂ ?_ rfl ⟨hpos, hlen⟩ ⟨hd, hfirst⟩ hfile
    rw [isTbl, Store.tbl, hsame.tbls]
    exact ⟨htbl, hrows⟩
  obtain ⟨j, s₃, hcopy, hentered, hno, hnone, hslots, hunowned⟩ := addCopy_succeeds hready
  have htype : (s₂.fld a).fldtype = (s.fld a).fldtype := by
    obtain ⟨_, _, _, ha⟩ := hsums₂.flds a
    rw [ha]
  rw [htype] at hcopy hentered
  have hnnFile : NnWritten env (s₁.nextFileno + 1) nnopX s₂ nn nnFile := hnnFile
  have hwritten : NnWritten env (s₁.nextFileno + 1) nnopX s₃ nn nnFile :=
    hnnFile.mono fun e g => hunowned e _ g (by omega) (by omega)
  have hnn : nn.isSome = true → nnopX.length = nR2 ∧ (∀ v ∈ nnopX, v = 0 ∨ v = 1) ∧
      f1.length + (auxPrefix .nn).length ≤ maxLenName ∧ 0 < s₃.freeSlots := by
    intro hsome
    obtain ⟨hfit, -, hslot⟩ := room.nnRoom hsome
    have hfree := hsums₂.freeSlots
    obtain ⟨y, hy⟩ := Option.isSome_iff_exists.mp hsome
    obtain ⟨hlenY, hbits⟩ := hnnRows y hy
    rw [hnnopX, hy]
    exact ⟨hlenY, hbits, hfit, by omega⟩
  obtain ⟨s₄, hnnRun, hentered', hflags⟩ := copyFldNn_succeeds hwritten hentered hnone room.names.1
    (show (0 : Int) ≤ s₁.nextFileno + 1 by omega) (by rw [hno]; exact (Int.lt_succ _).ne) hpos hnn
  refine ⟨s₄, j, ?_, hentered', ?_⟩
  · unfold copyRest
    rw [Cmd.bind_of_eq htarget, hcopied]
    have hrun := hfiles fun p nnFile => Cmd.require ((opX.length : Int) = nR2) >>= fun _ =>
      addFld env t2Id f1 p.1 p.2 { zeroFldRec with fldtype := (s.fld a).fldtype } >>= fun j =>
        Cmd.modify (fun s => s.setFld j { s.fld j with srttype := (s.fld a).srttype }) >>= fun _ =>
          copyMeta j a >>= fun _ => copyFldNn env t2Id j (nnopX.contains 0) nnFile
    refine hrun.trans ?_
    rw [Cmd.require_bind, if_pos (by rw [hlen])]
    exact (hcopy fun j => copyFldNn env t2Id j (nnopX.contains 0) nnFile).trans hnnRun
  · have hmap : (nn.map fun y => y.cells.take nR2) = nn.map fun _ => nnopX := by
      cases nn with
      | none => rfl
      | some y =>
        rw [hnnopX]
        rfl
    rw [hmap]
    exact hflags

lemma length_condRows (args : CopyFldArgs env numCores s t1 f1 cfld a c nR1 x nn cfldX) :
    (condRows (s.fld c).fldtype cfldX nR1).length = nR1 := by
  obtain ⟨_, -, hcond⟩ := args.cond
  rw [condRows]
  rcases hcond.fldtype with ⟨htype, hlen, -⟩ | ⟨htype, -⟩
  · rw [htype, if_neg FldType.noConfusion, trueBytes, List.length_map, hlen]
  · rw [if_pos htype, List.length_map, List.length_range]

/-- Flags of the same number are told apart by what is left of them. -/
lemma flagsCopied_iff {j : Nat} {flags flags' : List Int} (h : FlagsCopied s j (some flags))
    (hlen : flags.length = flags'.length) : FlagsCopied s j (some flags') ↔ flags = flags' := by
  constructor
  · intro h'
    unfold FlagsCopied at h h'
    dsimp only at h h'
    split_ifs at h h' with hall hall'
    · rw [List.eq_replicate_of_mem hall, List.eq_replicate_of_mem hall', hlen]
    · obtain ⟨k, hk, -⟩ := h'
      omega
    · obtain ⟨k, hk, -⟩ := h
      omega
    · obtain ⟨k, hk, hflags⟩ := h
      obtain ⟨k', hk', hflags'⟩ := h'
      obtain rfl := Int.ofNat.inj (hk.symm.trans hk')
      exact Option.some.inj (hflags.symm.trans hflags')
  · rintro rfl
    exact h

/-- When the rows at which the bytes are TRUE are those that the condition selects, and the first flags those of the
selected rows. -/
structure Aligned (keep : List Bool) (bytes x : List Int) (nn : Option (List Int)) : Prop where
  selected : 0 < bytes.count 1
  rows : selectRows (trueBytes bytes) x = selectRows keep x
  flags : ∀ nnX, nn = some nnX → nnX.take (bytes.count 1) = selectRows keep nnX

/-- The copy is the one that was asked for if and only if rows and flags are aligned. -/
lemma CopyFldArgs.copied_iff (args : CopyFldArgs env numCores s t1 f1 cfld a c nR1 x nn cfldX)
    (hbytes : mappedBytes cfldX nR1 = some bytes) (hpos : 0 < bytes.count 1) {keep : List Bool}
    (hkeep : keep.length = nR1) {j : Nat} {t : FldType}
    (hentered : Entered s' t2 t2Id f1 (bytes.count 1) t ⟨x.width, selectRows (trueBytes bytes) x.cells⟩ j)
    (hflags : FlagsCopied s' j (nn.map fun y => y.cells.take (bytes.count 1))) :
    CopiedTo s' t2 t2Id f1 t (selectRows keep x.cells) (nn.map fun y => selectRows keep y.cells) ↔
      Aligned keep bytes x.cells (nn.map DataFile.cells) := by
  have hlen := args.length_selected hbytes
  rw [hentered.copiedTo_iff hlen]
  constructor
  · rintro ⟨hrows, hflags'⟩
    refine ⟨hpos, hrows, fun nnX hnnX => ?_⟩
    obtain ⟨y, rfl, rfl⟩ := Option.map_eq_some_iff.mp hnnX
    have hlenY : y.cells.length = nR1 := args.source.flags.2.2.2.1
    refine (flagsCopied_iff hflags ?_).mp hflags'
    have hlenX := congrArg List.length hrows
    rw [hlen, length_selectRows (args.source.column.length.trans hkeep.symm)] at hlenX
    rw [length_selectRows (hlenY.trans hkeep.symm), (args.nnRows hbytes rfl).1]
    exact hlenX
  · rintro ⟨-, hrows, hall⟩
    refine ⟨hrows, ?_⟩
    cases nn with
    | none => exact hflags
    | some y =>
      rw [Option.map_some, ← hall y.cells rfl]
      exact hflags

/-- Once the number of rows has been found. -/
lemma CopyFldArgs.copyRest_iff (args : CopyFldArgs env numCores s t1 f1 cfld a c nR1 x nn cfldX)
    (room : CopyRoom env s t1 f1 t2 t2Id x.width (((mappedBytes cfldX nR1).getD []).count 1) nn.isSome)
    {s₁ : Store} (hsums : SameButSums s s₁) (htbls : s₁.tbls = s.tbls) (hnext : s₁.nextFileno = s.nextFileno)
    (sum : Int) :
    (∃ s', copyRest env s f1 t2 a nR1 x nn (.cond cfldX) sum s₁ = (some (), s') ∧
      CopiedTo s' t2 t2Id f1 (s.fld a).fldtype (selectRows (condRows (s.fld c).fldtype cfldX nR1) x.cells)
        (nn.map fun y => selectRows (condRows (s.fld c).fldtype cfldX nR1) y.cells)) ↔
      ∃ bytes, mappedBytes cfldX nR1 = some bytes ∧ sum = (bytes.count 1 : Nat) ∧
        Aligned (condRows (s.fld c).fldtype cfldX nR1) bytes x.cells (nn.map DataFile.cells) := by
  have hkeep := length_condRows args
  obtain ⟨keep, hk⟩ : ∃ keep, keep = condRows (s.fld c).fldtype cfldX nR1 := ⟨_, rfl⟩
  rw [← hk] at hkeep ⊢
  have hrun : ∀ {bytes}, mappedBytes cfldX nR1 = some bytes → 0 < bytes.count 1 → ∃ s',
      copyRest env s f1 t2 a nR1 x nn (.cond cfldX) (bytes.count 1 : Nat) s₁ = (some (), s') ∧
      (CopiedTo s' t2 t2Id f1 (s.fld a).fldtype (selectRows keep x.cells)
        (nn.map fun y => selectRows keep y.cells) ↔ Aligned keep bytes x.cells (nn.map DataFile.cells)) := by
    intro bytes hbytes hpos
    rw [hbytes] at room
    obtain ⟨s', j, hcopy, hentered, hflags⟩ := args.copyRest_succeeds hbytes room hpos hsums htbls hnext
    exact ⟨s', hcopy, args.copied_iff hbytes hpos hkeep hentered hflags⟩
  constructor
  · rintro ⟨s', hcopy, hcopied⟩
    obtain ⟨copied, hsel, hlen, hpos⟩ := copyRest_eq_some hcopy
    obtain ⟨bytes, hbytes, -⟩ := Option.map_eq_some_iff.mp hsel
    have hcount : copied.opX.length = bytes.count 1 := by
      rw [args.copied hbytes] at hsel
      rw [← Option.some.inj hsel, args.length_selected hbytes]
    rw [hcount] at hlen
    subst hlen
    obtain ⟨s'', hcopy', hiff⟩ := hrun hbytes (by exact_mod_cast hpos)
    obtain rfl := (Prod.mk.inj (hcopy.symm.trans hcopy')).2
    exact ⟨bytes, hbytes, rfl, hiff.mp hcopied⟩
  · rintro ⟨bytes, hbytes, rfl, haligned⟩
    obtain ⟨s', hcopy, hiff⟩ := hrun hbytes haligned.selected
    exact ⟨s', hcopy, hiff.mpr haligned⟩

/-- `copy_fld` copies the selected rows and their null flags if and only if the first flags of the column are those
of the selected rows, and, for bits, the bytes that are read instead of them select the same rows. -/
theorem copyFld_iff (args : CopyFldArgs env numCores s t1 f1 cfld a c nR1 x nn cfldX)
    (room : CopyRoom env s t1 f1 t2 t2Id x.width (((mappedBytes cfldX nR1).getD []).count 1) nn.isSome) :
    (∃ s', copyFld env numCores t1 f1 cfld t2 s = (some (), s') ∧
      CopiedTo s' t2 t2Id f1 (s.fld a).fldtype (selectRows (condRows (s.fld c).fldtype cfldX nR1) x.cells)
        (nn.map fun y => selectRows (condRows (s.fld c).fldtype cfldX nR1) y.cells)) ↔
      ∃ bytes, mappedBytes cfldX nR1 = some bytes ∧
        (if (s.fld c).isSumNn = true then (s.fld c).sumval = (bytes.count 1 : Nat) else (s.fld c).fldtype = .I1) ∧
        Aligned (condRows (s.fld c).fldtype cfldX nR1) bytes x.cells (nn.map DataFile.cells) := by
  obtain ⟨t1Id, hcond, hrun⟩ :=
    args.run_eq (chkFldName_ne_nil room.names.1) room.names.2.1 room.names.2.2
  rw [hrun]
  by_cases hsum : (s.fld c).isSumNn = true
  · rw [Cmd.bind_of_eq (condSum_recorded hsum)]
    simp only [if_pos hsum]
    exact args.copyRest_iff room (.of_same rfl rfl) rfl rfl _
  · have hnew : (s.fld c).isSumNn = false := Bool.eq_false_iff.mpr hsum
    simp only [if_neg hsum]
    rcases hcond.fldtype with ⟨htype, hlen, -⟩ | ⟨htype, -⟩
    · rw [Cmd.bind_of_eq (hcond.condSum_I1 htype hnew)]
      have hbytes : mappedBytes cfldX nR1 = some cfldX := by rw [← hlen, mappedBytes_self]
      rw [args.copyRest_iff room (sameButSums_recordSum ..) rfl rfl]
      refine exists_congr fun bytes => and_congr_right fun hmapped => and_congr_left fun _ => ?_
      obtain rfl := Option.some.inj (hmapped.symm.trans hbytes)
      exact iff_of_true rfl htype
    · have hfail : (condSum env numCores t1Id c nR1 s).1 = none := condSum_B htype hnew nR1
      refine iff_of_false ?_ ?_
      · rintro ⟨s', hsome, -⟩
        obtain ⟨_, _, hfound, -⟩ := Cmd.bind_eq_some.mp hsome
        rw [hfound] at hfail
        cases hfail
      · rintro ⟨_, -, hI1, -⟩
        rw [htype] at hI1
        cases hI1

end

lemma copyStore_condArgs {cond : List Int} (h : cond = [1, 1, 0] ∨ cond = [1, 0, 1]) :
    CopyFldArgs openEnv 1 (copyStore cond) ['t'] ['f'] ['c'] 0 2 3 ⟨4, [7, 8, 9]⟩ (some ⟨1, [1, 0, 1]⟩)
      cond := by
  refine ⟨copyStore_source cond, 0, rfl, ?_⟩
  rcases h with rfl | rfl
  all_goals
    exact ⟨by decide, rfl, rfl, rfl, by decide, .inl ⟨rfl, rfl, by decide⟩, fun _ => by decide, by decide, rfl,
      by decide⟩

/-- The first two rows, with their flags. -/
theorem copyFld_first_rows : ∃ s', copyFld openEnv 1 ['t'] ['f'] ['c'] ['u'] (copyStore [1, 1, 0]) = (some (), s') ∧
    CopiedTo s' ['u'] 1 ['f'] .I4 [7, 8] (some [1, 0]) :=
  (copyFld_iff (copyStore_condArgs (.inl rfl)) (copyStore_room [1, 1, 0] 2)).mpr
    ⟨[1, 1, 0], rfl, rfl, by decide, rfl, fun _ h => by rw [← Option.some.inj h]; rfl⟩

/-- The first and the last row get the flags of the first two. -/
theorem copyFld_skipped_row : CopyFldArgs openEnv 1 (copyStore [1, 0, 1]) ['t'] ['f'] ['c'] 0 2 3 ⟨4, [7, 8, 9]⟩
      (some ⟨1, [1, 0, 1]⟩) [1, 0, 1] ∧
    CopyRoom openEnv (copyStore [1, 0, 1]) ['t'] ['f'] ['u'] 1 4 2 true ∧
    ∃ s', copyFld openEnv 1 ['t'] ['f'] ['c'] ['u'] (copyStore [1, 0, 1]) = (some (), s') ∧
      ¬ CopiedTo s' ['u'] 1 ['f'] .I4 (selectRows [true, false, true] [7, 8, 9])
        (some (selectRows [true, false, true] [1, 0, 1])) := by
  have hrun : (copyFld openEnv 1 ['t'] ['f'] ['c'] ['u'] (copyStore [1, 0, 1])).1 = some () := by decide +kernel
  have hslot : isFld (copyFld openEnv 1 ['t'] ['f'] ['c'] ['u'] (copyStore [1, 0, 1])).2 1 ['f'] = some 3 := by
    decide +kernel
  have hnn : ((copyFld openEnv 1 ['t'] ['f'] ['c'] ['u'] (copyStore [1, 0, 1])).2.fld 3).nnFldId = 4 := by
    decide +kernel
  refine ⟨copyStore_condArgs (.inr rfl), copyStore_room _ 2, ?_⟩
  generalize copyFld openEnv 1 ['t'] ['f'] ['c'] ['u'] (copyStore [1, 0, 1]) = result at hrun hslot hnn ⊢
  obtain ⟨_, s'⟩ := result
  refine ⟨s', Prod.ext hrun rfl, ?_⟩
  rintro ⟨-, j, hj, -, -, hflags⟩
  obtain rfl := Option.some.inj (hslot.symm.trans hj)
  have hnone : (s'.fld 3).nnFldId < 0 := by
    rw [FlagsCopied, if_pos (by decide)] at hflags
    exact hflags
  rw [show (s'.fld 3).nnFldId = 4 from hnn] at hnone
  cases hnone

end Datacl
