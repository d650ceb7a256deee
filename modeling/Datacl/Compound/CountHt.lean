import Datacl.Lib.CInt
import Datacl.Lib.Probing
import Datacl.Meta.Store

/-!
# Counting by hash table: `count_ht.c`

`count_ht` marks the rows of a block and then inserts their values in a hash table. The hash function
and the size of the table are parameters; `count_ht` takes `mix_I8` and a prime. A `cnt`, which has
64 bits, is a natural number.
-/

namespace Datacl

/-- `HT_I8_TYPE`. -/
structure HtI8Rec where
  key : BitVec 64
  cnt : Nat
  deriving DecidableEq

/-- The hash table with `n_ht` and `max_count`; `sz_ht` is its length. -/
structure CountTbl where
  ht : List HtI8Rec
  nHt : Nat
  maxCount : Nat

def setupCountTbl (szHt : Nat) : CountTbl := ⟨List.replicate szHt ⟨0, 0⟩, 0, 0⟩

/-- `prime_geq(2 * MAX_DISTINCT_ENTRIES_COUNT_HT)`. -/
def countHtSize : Nat := 8388617

/-! ### One value -/

/-- Why the search through the table ends. -/
inductive CountStop where
  | keyExists
  | unoccupied
  deriving DecidableEq

/-- The body of the two search loops. -/
def countStopAt (valUI8 : BitVec 64) (rec : HtI8Rec) : Option CountStop :=
  if rec.key = valUI8 then some .keyExists else if rec.cnt = 0 then some .unoccupied else none

/-- The loop from `ht_loc` to the end and, unless it stops, the loop from the start. -/
def countProbe (mix : BitVec 64 → BitVec 32) (ht : List HtI8Rec) (valUI8 : BitVec 64) :
    Option (Nat × CountStop) :=
  let htLoc := (mix valUI8).toNat % ht.length
  (Probing.scan (countStopAt valUI8) ht (List.range' htLoc (ht.length - htLoc))).or
    (Probing.scan (countStopAt valUI8) ht (List.range htLoc))

/-- A value goes into the table; `none` if there is no space. -/
def insertVal (mix : BitVec 64 → BitVec 32) (t : CountTbl) (valUI8 : BitVec 64) : Option CountTbl :=
  match countProbe mix t.ht valUI8 with
  | none => none
  | some (posHt, .unoccupied) => some ⟨t.ht.set posHt ⟨valUI8, 1⟩, t.nHt + 1, t.maxCount⟩
  | some (posHt, .keyExists) =>
    let cnt := (t.ht.getD posHt ⟨0, 0⟩).cnt
    if cnt = 0 then
      -- a slot that nothing is in has the key 0; it is set to 1 and then counted again
      some ⟨t.ht.set posHt ⟨valUI8, 2⟩, t.nHt + 1, max t.maxCount 2⟩
    else some ⟨t.ht.set posHt ⟨valUI8, cnt + 1⟩, t.nHt, max t.maxCount (cnt + 1)⟩

/-- The second loop of a block: the rows that were inserted, and the table unless it is an error. -/
def insertRows (mix : BitVec 64 → BitVec 32) (val : Nat → BitVec 64) :
    CountTbl → List Nat → List Nat × Option CountTbl
  | t, [] => ([], some t)
  | t, i :: rows =>
    match insertVal mix t (val i) with
    | none => ([], none)
    | some t' =>
      if t'.ht.length / 2 < t'.nHt then ([i], none)
      else
        let (inserted, res) := insertRows mix val t' rows
        (i :: inserted, res)

/-! ### Blocks -/

/-- The source column, its null column and the condition field. -/
structure CountHtArgs where
  fldtype : FldType
  cells : List Int
  nnX : Option (List Int)
  cfldX : Option (List Int)

/-- The types that are cast to `valUI8`. -/
def FldType.hasVal : FldType → Bool
  | .I1 | .I2 | .I4 | .I8 => true
  | _ => false

/-- `valUI8` of a row. -/
def CountHtArgs.val (args : CountHtArgs) (i : Nat) : BitVec 64 := BitVec.ofInt 64 (args.cells.getD i 0)

/-- `block_size`. -/
def countHtBlockSize : Nat := 2 * 1048576

/-- `is_good[j]`. -/
def CountHtArgs.isGood (args : CountHtArgs) (j : Nat) : Bool :=
  (args.nnX.all fun nnX => nnX.getD j 0 ≠ 0) && args.cfldX.all fun cfldX => cfldX.getD j 0 ≠ 0

/-- The number of blocks; `none` if the product with the size of a block does not fit in an `int`. -/
def numCountHtBlocks (srcNR : Nat) : Option Nat :=
  let n := srcNR / countHtBlockSize
  if 2 ^ 31 ≤ countHtBlockSize * n then none
  else some (if countHtBlockSize * n < srcNR then n + 1 else n)

/-- The rows of a block that the first loop marks. -/
def CountHtArgs.markedRows (args : CountHtArgs) (b : Nat) : List Nat :=
  let lb := countHtBlockSize * b
  let ub := min (lb + countHtBlockSize) args.cells.length
  ((List.range (ub - lb)).filter args.isGood).map (lb + ·)

/-- A block. The first loop fails if it marks a row of another type. -/
def scanBlock (mix : BitVec 64 → BitVec 32) (args : CountHtArgs) (t : CountTbl) (b : Nat) :
    List Nat × Option CountTbl :=
  if !args.fldtype.hasVal && !(args.markedRows b).isEmpty then ([], none)
  else insertRows mix args.val t (args.markedRows b)

/-- The loop over the blocks. -/
def scanBlocks (mix : BitVec 64 → BitVec 32) (args : CountHtArgs) :
    CountTbl → List Nat → List Nat × Option CountTbl
  | t, [] => ([], some t)
  | t, b :: bs =>
    match scanBlock mix args t b with
    | (inserted, none) => (inserted, none)
    | (inserted, some t') =>
      let (inserted', res) := scanBlocks mix args t' bs
      (inserted ++ inserted', res)

/-- The rows that are inserted, in their order, and the table at the end. -/
def scanRows (szHt : Nat) (mix : BitVec 64 → BitVec 32) (args : CountHtArgs) :
    List Nat × Option CountTbl :=
  match numCountHtBlocks args.cells.length with
  | none => ([], none)
  | some n => scanBlocks mix args (setupCountTbl szHt) (List.range n)

/-! ### The output -/

/-- A value, cast to the type of the column. A `char` or a `short` is written to the source column, which
is mapped for reading. -/
def valueOut (fldtype : FldType) (key : BitVec 64) : Option Int :=
  match fldtype with
  | .I4 => some (CInt.wrap 32 key.toNat)
  | .I8 => some (CInt.wrap 64 key.toNat)
  | _ => none

/-- A count, which is an `int` if the greatest one fits. -/
def countOut (maxCount cnt : Nat) : Int :=
  if maxCount ≤ 2 ^ 31 - 1 then CInt.wrap 32 cnt else CInt.wrap 64 cnt

/-- The slots with a value. -/
def CountTbl.recs (t : CountTbl) : List HtI8Rec := t.ht.filter fun rec => rec.cnt ≠ 0

/-- `count_ht`: the fields `value` and `count` of the new table. Without values no table is made. -/
def countHt (szHt : Nat) (mix : BitVec 64 → BitVec 32) (args : CountHtArgs) :
    Option (List (Int × Int)) :=
  match scanRows szHt mix args with
  | (_, none) => none
  | (_, some t) =>
    if t.nHt = 0 then some []
    else if t.recs.length ≠ t.nHt then none
    else t.recs.mapM fun rec => (valueOut args.fldtype rec.key).map (·, countOut t.maxCount rec.cnt)

end Datacl
