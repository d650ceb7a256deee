import Datacl.Lib.Tally
import Datacl.Meta.Store
import Datacl.Vec.Partition

/-!
# Counting by foreign key

The counters `count` and `countf` in their variants with and without a condition field, serial and
parallel, and their use in `exec_comp_expr`, which treats a table block by block. The variants for
the types of the key differ in the width of the cells they read only. A counter adds fewer than
`2 ^ 32` values of an `int`, so that no total leaves its 64 bits.
-/

namespace Datacl

open Tally

/-! ### Counters -/

/-- `cnt[idx] += val`; `none` if the index is out of range. -/
def addTo (cnt : List Int) (idx val : Int) : Option (List Int) :=
  if 0 ≤ idx ∧ idx < cnt.length then some (cnt.modify idx.toNat (· + val)) else none

/-- The loop of the counters. The key is cast to an `int`. -/
def countLoop : List (Int × Int) → List Int → Option (List Int)
  | [], cnt => some cnt
  | (idx, val) :: entries, cnt =>
    match addTo cnt (CInt.wrap 32 idx) val with
    | none => none
    | some cnt => countLoop entries cnt

/-- The parallel counters: every thread counts a part of the rows from 0, and the partial results
are added to the counters. -/
def parLoop {ρ : Type} (entry : ρ → List (Int × Int)) (nT : Nat) (rows : List ρ) (cnt : List Int) :
    Option (List Int) :=
  let parts := (List.range nT).mapM fun tid =>
    countLoop ((blockOf rows (rows.length / nT) nT tid).flatMap entry) (List.replicate cnt.length 0)
  parts.map fun parts => cnt.mapIdx fun ii c => c + (parts.map fun p => p.getD ii 0).sum

/-- `count`. -/
def count (fk cnt : List Int) : Option (List Int) := countLoop (fk.map fun idx => (idx, 1)) cnt

/-- `count_nn`. -/
def countNn (fk cfld cnt : List Int) : Option (List Int) :=
  countLoop ((fk.zip cfld).flatMap fun r => if r.2 ≠ 0 then [(r.1, 1)] else []) cnt

/-- `par_count_cfld`. It takes a row if its condition is `TRUE`. -/
def parCountCfld (nT : Nat) (fk cfld cnt : List Int) : Option (List Int) :=
  parLoop (fun r => if r.2 = 1 then [(r.1, 1)] else []) nT (fk.zip cfld) cnt

/-- `par_count`. -/
def parCount (nT : Nat) (fk cnt : List Int) : Option (List Int) :=
  parLoop (fun idx => [(idx, 1)]) nT fk cnt

/-- `countf`. -/
def countf (srcFld fk cnt : List Int) : Option (List Int) := countLoop (fk.zip srcFld) cnt

/-- `countf_nn`. -/
def countfNn (srcFld fk cfld cnt : List Int) : Option (List Int) :=
  countLoop (((fk.zip srcFld).zip cfld).flatMap fun r => if r.2 ≠ 0 then [r.1] else []) cnt

/-- `par_countf_cfld`. -/
def parCountfCfld (nT : Nat) (srcFld fk cfld cnt : List Int) : Option (List Int) :=
  parLoop (fun r => if r.2 = 1 then [r.1] else []) nT ((fk.zip srcFld).zip cfld) cnt

/-- `par_countf`. -/
def parCountf (nT : Nat) (srcFld fk cnt : List Int) : Option (List Int) :=
  parLoop (fun r => [r]) nT (fk.zip srcFld) cnt

/-- The loop of `compute_nT_for_count`, with the number of cores that are left. -/
def nTLoop (srcNR dstNR : Nat) : Nat → Nat → Nat
  | 0, nT => nT
  | cores + 1, nT =>
    if dstNR * nT < 8 * (srcNR / nT) ∧ 1024 ≤ srcNR then nTLoop srcNR dstNR cores (nT + 1) else nT

/-- `compute_nT_for_count`. -/
def computeNTForCount (numCores srcNR dstNR : Nat) : Nat := nTLoop srcNR dstNR (numCores - 1) 1

/-! ### `exec_comp_expr` -/

/-- The source column read through an `int *`. -/
def readInts (fldtype : FldType) (cells : List Int) : List Int :=
  if fldtype = .I8 then cells.flatMap fun x => [CInt.wrap 32 x, CInt.wrap 32 (x / 2 ^ 32)] else cells

/-- The source column read through a `char *`. -/
def readChars (fldtype : FldType) (cells : List Int) : List Int :=
  cells.flatMap fun x =>
    (List.range (if fldtype = .I8 then 8 else 4)).map fun k => CInt.wrap 8 (x / 2 ^ (8 * k))

/-- A statement `count`, or a statement `countf` with a source column of some type. -/
structure CountStmt where
  srcType : Option FldType
  fkType : FldType
  fk : List Int
  cfld : Option (List Int)
  dstNR : Nat

/-- The number of threads, which is computed for a key of one byte and a condition field only. -/
def countNT (numCores : Nat) (fkType : FldType) (cfld : Option (List Int)) (effNR dstNR : Nat) : Nat :=
  if fkType = .I1 ∧ cfld.isSome then computeNTForCount numCores effNR dstNR else 1

/-- The case `op_count` for one block. -/
def opCount (nT : Nat) (fkType : FldType) (fk : List Int) (cfld : Option (List Int))
    (cntI8 : List Int) : Option (List Int) :=
  match cfld, fkType with
  | some cfld, .I1 => if nT = 1 then countNn fk cfld cntI8 else parCountCfld nT fk cfld cntI8
  | some cfld, .I2 => if nT = 1 then countNn fk cfld cntI8 else parCountCfld nT fk cfld cntI8
  | some cfld, .I4 => countNn fk cfld cntI8
  | some cfld, .I8 => countNn fk cfld cntI8
  | none, .I1 => if nT = 1 then count fk cntI8 else parCount nT fk cntI8
  | none, .I2 => count fk cntI8
  | none, .I4 => count fk cntI8
  | none, .I8 => count fk cntI8
  | _, _ => none

/-- The case `op_countf` for one block. The serial counter for a key of one byte and a condition field
is called with the source column in the place of the key. -/
def opCountf (nT : Nat) (srcType fkType : FldType) (src fk : List Int) (cfld : Option (List Int))
    (cntI8 : List Int) : Option (List Int) :=
  let srcFld := (readInts srcType src).take fk.length
  match cfld, fkType with
  | some cfld, .I1 =>
    if nT = 1 then countfNn srcFld ((readChars srcType src).take fk.length) cfld cntI8
    else parCountfCfld nT srcFld fk cfld cntI8
  | some cfld, .I2 => if nT = 1 then countfNn srcFld fk cfld cntI8 else parCountfCfld nT srcFld fk cfld cntI8
  | some cfld, .I4 => countfNn srcFld fk cfld cntI8
  | some cfld, .I8 => countfNn srcFld fk cfld cntI8
  | none, .I1 => if nT = 1 then countf srcFld fk cntI8 else parCountf nT srcFld fk cntI8
  | none, .I2 => countf srcFld fk cntI8
  | none, .I4 => countf srcFld fk cntI8
  | none, .I8 => countf srcFld fk cntI8
  | _, _ => none

/-- `COMP_EXPR_BLOCK_SIZE`. -/
def compExprBlockSize : Nat := 1048576

/-- The number of blocks, an `int`; `none` if it does not fit. The last block may be bigger. -/
def numCompBlocks (nR : Nat) : Option Nat :=
  if nR / compExprBlockSize < 2 ^ 31 then some (max 1 (nR / compExprBlockSize)) else none

/-- A block of the statement. Its first row is computed as an `int`: `none` if it does not fit. A
temporary field holds just the block. -/
def execBlock (numCores : Nat) (st : CountStmt) (src : List Int) (n b : Nat) (cntI8 : List Int) :
    Option (List Int) :=
  if 2 ^ 31 ≤ compExprBlockSize * b then none
  else
    let fk := blockOf st.fk compExprBlockSize n b
    let cfld := st.cfld.map fun c => blockOf c compExprBlockSize n b
    let nT := countNT numCores st.fkType cfld fk.length st.dstNR
    match st.srcType with
    | none => opCount nT st.fkType fk cfld cntI8
    | some srcType =>
      opCountf nT srcType st.fkType (blockOf src compExprBlockSize n b) fk cfld cntI8

/-- The counters that `exec_comp_expr` leaves for the statement; the first block sets them to 0. -/
def execCount (numCores : Nat) (st : CountStmt) (src : List Int) : Option (List Int) :=
  match numCompBlocks st.fk.length with
  | none => none
  | some n =>
    (List.range n).foldlM (fun cntI8 b => execBlock numCores st src n b cntI8)
      (List.replicate st.dstNR 0)

/-! ### What the counters add -/

/-- The cells are `int`s or `long long`s. -/
def CellsFit : FldType → List Int → Prop
  | .I4, cells => ∀ v ∈ cells, -2 ^ 31 ≤ v ∧ v < 2 ^ 31
  | .I8, cells => ∀ v ∈ cells, -2 ^ 63 ≤ v ∧ v < 2 ^ 63
  | _, _ => False

lemma countLoop_append (a b : List (Int × Int)) (cnt : List Int) :
    countLoop (a ++ b) cnt = (countLoop a cnt).bind (countLoop b) := by
  induction a generalizing cnt with
  | nil => rfl
  | cons e a ih =>
    rw [List.cons_append, countLoop, countLoop]
    cases addTo cnt (CInt.wrap 32 e.1) e.2 with
    | none => rfl
    | some cnt' => exact ih cnt'

/-- The entries with the keys as they are used. -/
def castKeys (entries : List (Int × Int)) : List (Int × Int) :=
  entries.map fun e => (CInt.wrap 32 e.1, e.2)

/-- All keys are in the range of the counters. -/
def KeysFit (n : Nat) (entries : List (Int × Int)) : Prop := ∀ e ∈ entries, 0 ≤ e.1 ∧ e.1 < n

/-- A counter adds the totals if all keys are in range, and else fails. -/
lemma countLoop_eq_some {entries : List (Int × Int)} {cnt cnt' : List Int} :
    countLoop entries cnt = some cnt' ↔
      KeysFit cnt.length (castKeys entries) ∧ cnt' = addTotals cnt (castKeys entries) := by
  induction entries generalizing cnt with
  | nil => simp [countLoop, castKeys, KeysFit, addTotals_nil, eq_comm]
  | cons e entries ih =>
    have hsplit : castKeys (e :: entries) = [(CInt.wrap 32 e.1, e.2)] ++ castKeys entries := rfl
    rw [countLoop, addTo, hsplit, addTotals_append]
    by_cases he : 0 ≤ CInt.wrap 32 e.1 ∧ CInt.wrap 32 e.1 < cnt.length
    · rw [if_pos he, addTotals_singleton cnt he.1]
      dsimp only
      rw [ih, List.length_modify]
      simp [KeysFit, he]
    · rw [if_neg he]
      simp [KeysFit, he]

/-- The partial results of the threads. -/
lemma mapM_countLoop {ι : Type} (f : ι → List (Int × Int)) (n : Nat) (tids : List ι)
    {parts : List (List Int)} :
    tids.mapM (fun tid => countLoop (f tid) (List.replicate n 0)) = some parts ↔
      KeysFit n (castKeys (tids.flatMap f)) ∧
        parts = tids.map fun tid => addTotals (List.replicate n 0) (castKeys (f tid)) := by
  induction tids generalizing parts with
  | nil => simp [KeysFit, castKeys, eq_comm]
  | cons tid tids ih =>
    have hkeys : KeysFit n (castKeys ((tid :: tids).flatMap f)) ↔
        KeysFit n (castKeys (f tid)) ∧ KeysFit n (castKeys (tids.flatMap f)) := by
      simp only [KeysFit, castKeys, List.flatMap_cons, List.map_append, List.forall_mem_append]
    rw [List.mapM_cons, hkeys, List.map_cons]
    constructor
    · intro h
      obtain ⟨p, hp, h⟩ := Option.bind_eq_some_iff.mp h
      obtain ⟨ps, hps, h⟩ := Option.bind_eq_some_iff.mp h
      obtain ⟨hfit, rfl⟩ := countLoop_eq_some.mp hp
      obtain ⟨hfits, rfl⟩ := ih.mp hps
      rw [List.length_replicate] at hfit
      exact ⟨⟨hfit, hfits⟩, (Option.some.inj h).symm⟩
    · rintro ⟨⟨hfit, hfits⟩, rfl⟩
      have hp : countLoop (f tid) (List.replicate n 0) = some (addTotals (List.replicate n 0)
          (castKeys (f tid))) := countLoop_eq_some.mpr ⟨by rwa [List.length_replicate], rfl⟩
      rw [hp, ih.mpr ⟨hfits, rfl⟩]
      rfl

/-- A parallel counter adds what the serial one adds. -/
lemma parLoop_eq {ρ : Type} (entry : ρ → List (Int × Int)) {nT : Nat} (hn : 0 < nT) (rows : List ρ)
    (cnt : List Int) : parLoop entry nT rows cnt = countLoop (rows.flatMap entry) cnt := by
  have hblocks : (List.range nT).flatMap (fun tid =>
      (blockOf rows (rows.length / nT) nT tid).flatMap entry) = rows.flatMap entry := by
    rw [← List.flatMap_assoc, flatMap_blockOf rows _ hn]
  have hiff : ∀ cnt', parLoop entry nT rows cnt = some cnt' ↔
      countLoop (rows.flatMap entry) cnt = some cnt' := by
    intro cnt'
    rw [parLoop, countLoop_eq_some, Option.map_eq_some_iff]
    simp only [mapM_countLoop, hblocks]
    have hsum : ∀ ii < cnt.length, (((List.range nT).map fun tid =>
        addTotals (List.replicate cnt.length 0) (castKeys
          ((blockOf rows (rows.length / nT) nT tid).flatMap entry))).map
            fun p => p.getD ii 0).sum = total (castKeys (rows.flatMap entry)) ii := by
      intro ii hii
      rw [List.map_map, ← hblocks, castKeys, List.map_flatMap, total_flatMap]
      congr 1
      apply List.map_congr_left
      intro tid _
      rw [Function.comp_apply, addTotals_replicate_zero, List.getD_eq_getElem?_getD,
        List.getElem?_map, List.getElem?_range hii]
      rfl
    have hadd : (cnt.mapIdx fun ii c => c + ((((List.range nT).map fun tid =>
        addTotals (List.replicate cnt.length 0) (castKeys
          ((blockOf rows (rows.length / nT) nT tid).flatMap entry))).map
            fun p => p.getD ii 0).sum)) = addTotals cnt (castKeys (rows.flatMap entry)) := by
      rw [addTotals]
      apply List.ext_getElem?
      intro ii
      rw [List.getElem?_mapIdx, List.getElem?_mapIdx]
      cases hcnt : cnt[ii]? with
      | none => rfl
      | some c =>
        rw [Option.map_some, Option.map_some, hsum ii (List.getElem?_eq_some_iff.mp hcnt).1]
    constructor
    · rintro ⟨parts, ⟨hfit, rfl⟩, rfl⟩
      exact ⟨hfit, hadd⟩
    · rintro ⟨hfit, rfl⟩
      exact ⟨_, ⟨hfit, rfl⟩, hadd⟩
  exact Option.ext hiff

lemma computeNTForCount_pos (numCores srcNR dstNR : Nat) : 0 < computeNTForCount numCores srcNR dstNR := by
  have hloop : ∀ cores nT, 0 < nT → 0 < nTLoop srcNR dstNR cores nT := by
    intro cores
    induction cores with
    | zero => exact fun nT hnT => hnT
    | succ cores ih =>
      intro nT hnT
      rw [nTLoop]
      split_ifs
      · exact ih (nT + 1) (Nat.succ_pos nT)
      · exact hnT
  exact hloop _ 1 Nat.one_pos

end Datacl
