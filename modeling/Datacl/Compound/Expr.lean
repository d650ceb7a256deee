import Datacl.Compound.Count
import Datacl.Lib.RowProgram
import Datacl.Text.Values
import Datacl.Vec.Reduce
import Datacl.Vec.RowOps

/-!
# Compound expressions

`chk_comp_expr` finds the fields of each statement, and `exec_comp_expr` runs all statements on a
block of rows before the next block, in buffers for the temporary fields and in the files of the
others. The statements are those on integer fields; `count` and `countf` are treated elsewhere. The
lines are taken as they are after they have been split.
-/

namespace Datacl

/-- A field of the table. -/
structure TblFld where
  name : String
  fldtype : IntType
  cells : List Int
  nn : Option (List Int)
  deriving DecidableEq

/-- A statement, with its fields given by names or found. -/
inductive CompExpr (φ : Type) where
  | f1s1opf2 (f1 : φ) (scalars : List Int) (op : OpSpec FldOp) (f2 : φ)
  | f1f2opf3 (f1 f2 : φ) (op : OpSpec FldOp) (f3 : φ)
  | f1opf2 (f1 : φ) (op : OpSpec UnOp) (f2 : φ)
  | fToS (f1 : φ) (op : RedOp) (envVar : String)

/-- The field that a statement writes. -/
def CompExpr.out {φ : Type} : CompExpr φ → Option φ
  | .f1s1opf2 _ _ _ f2 => some f2
  | .f1f2opf3 _ _ _ f3 => some f3
  | .f1opf2 _ _ f2 => some f2
  | .fToS _ _ _ => none

/-! ### `chk_comp_expr` -/

/-- The name of a temporary field ends with a single quote. -/
def isTempName (name : String) : Bool := name.toList.getLast? == some (Char.ofNat 39)

/-- A field of a statement. The index is that of a field of the table, or of the statement that
writes the field. -/
structure CompFld where
  name : String
  index : Nat
  fldtype : IntType
  hasNull : Bool

def CompFld.isTemp (f : CompFld) : Bool := isTempName f.name

/-- The buffer `X`. Its number tells fields of the table, written fields and temporary fields
apart. -/
def CompFld.X (f : CompFld) : Nat := 4 * f.index + if f.isTemp then 2 else 0

/-- The buffer `nn_X`. -/
def CompFld.nnX (f : CompFld) : Nat := f.X + 1

/-- The buffer is that of a temporary field. -/
def isTempBuf (k : Nat) : Bool := 2 ≤ k % 4

/-- The fields written by the statements so far, the last one first. -/
def written (done : List (CompExpr CompFld)) : List CompFld := (done.filterMap CompExpr.out).reverse

/-- `is_created_prior`. A name tells whether the field is temporary. -/
def isCreatedPrior (done : List (CompExpr CompFld)) (name : String) : Option CompFld :=
  (written done).find? fun f => f.name = name

/-- `is_fld` -/
def tblFld (flds : List TblFld) (name : String) : Option CompFld :=
  (flds.zipIdx.find? fun p => p.1.name = name).map fun p => ⟨name, p.2, p.1.fldtype, p.1.nn.isSome⟩

/-- `MAX_LEN_FLD_NAME` -/
def compNameFits (name : String) : Bool := name ≠ "" ∧ name.length ≤ 31

/-- `proc_fld` for a field that is read. -/
def procFldRead (flds : List TblFld) (done : List (CompExpr CompFld)) (name : String) :
    Option CompFld :=
  if compNameFits name then
    match isCreatedPrior done name with
    | some f => some f
    | none => if isTempName name then none else tblFld flds name
  else none

/-- `proc_fld` for a field that is written. -/
def procFldWrite (flds : List TblFld) (done : List (CompExpr CompFld)) (name : String)
    (fldtype : IntType) (hasNull : Bool) : Option CompFld :=
  if compNameFits name ∧ (isCreatedPrior done name).isNone then
    some ⟨name, flds.length + done.length, fldtype, hasNull⟩
  else none

/-- `is_legal_env_var` -/
def isLegalEnvVar (envVar : String) : Bool :=
  compNameFits envVar && envVar.toList.all fun c => c.isAlphanum || c == '_'

/-- `chk_comp_expr` for one line. -/
def chkStmt (flds : List TblFld) (done : List (CompExpr CompFld)) :
    CompExpr String → Option (CompExpr CompFld)
  | .f1s1opf2 f1 scalars op f2 => do
    let r1 ← procFldRead flds done f1
    if scalars = [] then none
    else
      let t ← op.op.scalarType r1.fldtype
      let w ← procFldWrite flds done f2 t r1.hasNull
      pure (.f1s1opf2 r1 scalars op w)
  | .f1f2opf3 f1 f2 op f3 => do
    let r1 ← procFldRead flds done f1
    let r2 ← procFldRead flds done f2
    let t ← op.op.pairType r1.fldtype r2.fldtype
    let w ← procFldWrite flds done f3 t (r1.hasNull || r2.hasNull)
    pure (.f1f2opf3 r1 r2 op w)
  | .f1opf2 f1 op f2 => do
    let r1 ← procFldRead flds done f1
    let t ← op.op.outType r1.fldtype
    let w ← procFldWrite flds done f2 t r1.hasNull
    pure (.f1opf2 r1 op w)
  | .fToS f1 op envVar => do
    let r1 ← procFldRead flds done f1
    if isLegalEnvVar envVar then pure (.fToS r1 op envVar) else none

/-- The lines one after another. -/
def chkStmts (flds : List TblFld) (done : List (CompExpr CompFld)) (stmts : List (CompExpr String)) :
    Option (List (CompExpr CompFld)) :=
  stmts.foldlM (fun done st => (chkStmt flds done st).map fun e => done ++ [e]) done

/-- `chk_comp_expr`, with `MAX_STATEMENTS_IN_COMP_EXPR`. -/
def chkCompExpr (flds : List TblFld) (stmts : List (CompExpr String)) :
    Option (List (CompExpr CompFld)) :=
  if stmts.length ≤ 1 ∨ 32 < stmts.length then none else chkStmts flds [] stmts

/-! ### `exec_comp_expr` -/

/-- What the run depends on besides its input: `g_num_cores`, the hash function and the random
numbers. -/
structure Runtime where
  numCores : Int
  hash : (w : Nat) → BitVec w → Nat → Int
  draws : List (BitVec 32 × BitVec 32)

/-- `is_numer_set`, `partsum_0_I8` and `partsum_1_I8`. -/
structure PartSum where
  isNumerSet : Bool
  val : Int
  cnt : Int
  deriving DecidableEq

/-- The buffers and the partial sums, and the status of the last call. -/
structure CompState where
  st : RowProgram.State Int PartSum
  ok : Bool

/-- A column of the block, from where `offset_pointers` has it. -/
def readBuf (mem : Nat → List Int) (lb n k : Nat) : Option (List Int) :=
  RowProgram.slice (mem k) (RowProgram.off isTempBuf lb k) n

def readNn (mem : Nat → List Int) (lb n : Nat) (f : CompFld) : Option (Option (List Int)) :=
  if f.hasNull then (readBuf mem lb n f.nnX).map some else some none

def writeBuf (mem : Nat → List Int) (lb k : Nat) : Option (List Int) → Option (Nat → List Int)
  | none => some mem
  | some out =>
    (RowProgram.splice (mem k) (RowProgram.off isTempBuf lb k) out).map (Function.update mem k)

/-- Store what a vector operation leaves. Its status is not looked at. -/
def storeOut (lb : Nat) (f : CompFld) (s : CompState) (out : VecOut) : Option CompState := do
  let mem ← writeBuf s.st.mem lb f.nnX out.nn
  let mem ← writeBuf mem lb f.X out.cells
  pure ⟨⟨mem, s.st.acc⟩, out.ok⟩

/-- `vec_f1opf2`, on the former content of its output. -/
def vecF1opf2Out (rt : Runtime) (t : IntType) (op : UnOp) (f1X : List Int)
    (nnF1X : Option (List Int)) (f2X : List Int) : VecOut :=
  match vecF1opf2 rt.hash t op f1X nnF1X f2X with
  | none => ⟨false, none, none⟩
  | some (out, nn) => ⟨true, nn, some out⟩

/-- The partial result of a block, read from the text of `vec_f_to_s`. -/
def PartSum.addBuf (op : RedOp) (p : PartSum) (buf : String) : Option PartSum := do
  let buf0 ← readNthVal buf.toList [':'] 0 1024
  let buf1 ← readNthVal buf.toList [':'] 1 1024
  let cnt ← stoI8 buf1
  if cnt < 0 then none
  else if cnt = 0 then pure p
  else
    let val ← stoI8 buf0
    pure ⟨true, if p.isNumerSet then op.step p.val val else val, p.cnt + cnt⟩

/-- Statement `i` on the `n` rows from row `lb` on. -/
def execExpr (rt : Runtime) (lb n : Nat) (s : CompState) : CompExpr CompFld × Nat → Option CompState
  | (.f1s1opf2 f1 scalars op f2, _) => do
    let f1X ← readBuf s.st.mem lb n f1.X
    let nnF1X ← readNn s.st.mem lb n f1
    let out ← vecF1s1opf2Op f1.fldtype scalars rt.draws op f1X nnF1X
    storeOut lb f2 s out
  | (.f1f2opf3 f1 f2 op f3, _) => do
    let f1X ← readBuf s.st.mem lb n f1.X
    let nnF1X ← readNn s.st.mem lb n f1
    let f2X ← readBuf s.st.mem lb n f2.X
    let nnF2X ← readNn s.st.mem lb n f2
    let out ← vecF1f2opf3 f1.fldtype f2.fldtype op f1X nnF1X f2X nnF2X
    storeOut lb f3 s out
  | (.f1opf2 f1 op f2, _) =>
    if op.bracketed then do
      let f1X ← readBuf s.st.mem lb n f1.X
      let nnF1X ← readNn s.st.mem lb n f1
      let f2X ← readBuf s.st.mem lb n f2.X
      storeOut lb f2 s (vecF1opf2Out rt f1.fldtype op.op f1X nnF1X f2X)
    else none
  | (.fToS f1 op _, i) => do
    let f1X ← readBuf s.st.mem lb n f1.X
    let nnF1X ← readNn s.st.mem lb n f1
    let buf ← vecFToS f1.fldtype f1X nnF1X op rt.numCores
    let p ← (s.st.acc i).addBuf op buf
    pure ⟨⟨s.st.mem, Function.update s.st.acc i p⟩, true⟩

/-- The blocks: the first row, an `int`, and the number of rows. -/
def compBlocks (nR : Nat) : Option (List (Nat × Nat)) := do
  let n ← numCompBlocks nR
  if 2 ^ 31 ≤ compExprBlockSize * (n - 1) then none
  else pure ((List.range n).map fun b => (compExprBlockSize * b,
    if b + 1 = n then nR - compExprBlockSize * b else compExprBlockSize))

def execCompExpr (rt : Runtime) (exprs : List (CompExpr CompFld)) (nR : Nat) (s : CompState) :
    Option CompState := do
  let blocks ← compBlocks nR
  blocks.foldlM (fun s b => exprs.zipIdx.foldlM (execExpr rt b.1 b.2) s) s

/-- The line printed for a statement. -/
def scalarLine (acc : Nat → PartSum) : CompExpr CompFld × Nat → Option String
  | (.fToS _ _ envVar, i) =>
    some (envVar ++ "=" ++
      if (acc i).isNumerSet then rsltBuf ((acc i).cnt, (acc i).val) else "0:0")
  | _ => none

/-- The buffers at first: the fields of the table, files of zeros for the fields to be written, and
for the temporary ones what `malloc` finds. -/
def initMem (flds : List TblFld) (nR : Nat) (garbage : Nat → List Int) (k : Nat) : List Int :=
  if isTempBuf k then garbage k
  else
    match flds[k / 4]? with
    | none => List.replicate nR 0
    | some f => if k % 4 = 0 then f.cells else f.nn.getD (List.replicate nR 0)

/-- A field in the buffers. -/
def CompFld.toFld (mem : Nat → List Int) (f : CompFld) : TblFld :=
  ⟨f.name, f.fldtype, mem f.X, if f.hasNull then some (mem f.nnX) else none⟩

/-- `compound`: the fields added to the table and the lines printed. -/
def compound (rt : Runtime) (flds : List TblFld) (nR : Nat) (garbage : Nat → List Int)
    (stmts : List (CompExpr String)) : Option (List TblFld × List String) := do
  let exprs ← chkCompExpr flds stmts
  let s ← execCompExpr rt exprs nR ⟨⟨initMem flds nR garbage, fun _ => ⟨false, 0, 0⟩⟩, true⟩
  if s.ok then
    let kept := (exprs.filterMap CompExpr.out).filter fun f => !f.isTemp
    pure (kept.map (CompFld.toFld s.st.mem), exprs.zipIdx.filterMap (scalarLine s.st.acc))
  else none

/-! ### The statements one after another -/

/-- The fields there are, the last one first, and the lines printed. -/
structure SeqState where
  flds : List TblFld
  lines : List String

def SeqState.find (s : SeqState) (name : String) : Option TblFld :=
  s.flds.find? fun f => f.name = name

/-- The field that a vector operation has made. -/
def SeqState.put (s : SeqState) (name : String) (fldtype : IntType) (out : VecOut) :
    Option SeqState := do
  let cells ← out.cells
  if out.ok then pure ⟨⟨name, fldtype, cells, out.nn⟩ :: s.flds, s.lines⟩ else none

/-- A statement on whole columns. For a column without values 0 is printed. -/
def seqStmt (rt : Runtime) (s : SeqState) : CompExpr String → Option SeqState
  | .f1s1opf2 f1 scalars op f2 => do
    let x ← s.find f1
    let t ← op.op.scalarType x.fldtype
    let out ← vecF1s1opf2Op x.fldtype scalars rt.draws op x.cells x.nn
    s.put f2 t out
  | .f1f2opf3 f1 f2 op f3 => do
    let x ← s.find f1
    let y ← s.find f2
    let t ← op.op.pairType x.fldtype y.fldtype
    let out ← vecF1f2opf3 x.fldtype y.fldtype op x.cells x.nn y.cells y.nn
    s.put f3 t out
  | .f1opf2 f1 op f2 => do
    let x ← s.find f1
    let t ← op.op.outType x.fldtype
    s.put f2 t (vecF1opf2Out rt x.fldtype op.op x.cells x.nn (List.replicate x.cells.length 0))
  | .fToS f1 op envVar => do
    let x ← s.find f1
    let buf ← vecFToS x.fldtype x.cells x.nn op rt.numCores
    let line := envVar ++ "=" ++ if (nonNull x.cells x.nn).isEmpty then "0:0" else buf
    pure ⟨s.flds, s.lines ++ [line]⟩

/-- The statements on whole columns, one after another; the temporary fields are dropped in the
end. -/
def sequential (rt : Runtime) (flds : List TblFld) (stmts : List (CompExpr String)) :
    Option (List TblFld × List String) := do
  let s ← stmts.foldlM (seqStmt rt) ⟨flds, []⟩
  let new := (s.flds.take (s.flds.length - flds.length)).reverse
  pure (new.filter fun f => !isTempName f.name, s.lines)

end Datacl
