import Datacl.Compound.Count

/-!
# Counting the values of a sorted column: `count_vals.c`

Four kernels merge equal neighbours: with or without a null column, and with or without a column of
counts that are added up. The kernels of the two types differ in the width of the cells only.
-/

namespace Datacl

/-! ### The kernels -/

/-- The loop of `uniq`, `uniq_alldef` and `uniq_cnt`, with `last_good_val` and its count, an `int`. -/
def uniqLoop : Int × Int → List (Int × Int) → List (Int × Int)
  | last, [] => [last]
  | last, (inval, incnt) :: rows =>
    if inval = last.1 then uniqLoop (last.1, CInt.wrap 32 (last.2 + incnt)) rows
    else last :: uniqLoop (inval, incnt) rows

/-- The first good value is consumed. -/
def uniqGood : List (Int × Int) → List (Int × Int)
  | [] => []
  | row :: rows => uniqLoop row rows

/-- The rows that are not null, with what they count for. -/
def goodRows (rows : List (Int × Int)) (nn : List Int) : List (Int × Int) :=
  ((rows.zip nn).filter fun r => r.2 ≠ 0).map Prod.fst

/-- `uniq_alldef`. -/
def uniqAlldef (inX : List Int) : List (Int × Int) := uniqGood (inX.map fun v => (v, 1))

/-- `uniq`. -/
def uniq (inX nn : List Int) : List (Int × Int) := uniqGood (goodRows (inX.map fun v => (v, 1)) nn)

/-- `uniq_cnt`. -/
def uniqCnt (inX inCnt nn : List Int) : List (Int × Int) := uniqGood (goodRows (inX.zip inCnt) nn)

/-- The loop of `uniq_cnt_alldef`, with `last_val_seen` and `counter`, a `long long`. -/
def uniqCntAlldefLoop : Int × Int → List (Int × Int) → List (Int × Int)
  | last, [] => [(last.1, CInt.wrap 32 last.2)]
  | last, (inval, incnt) :: rows =>
    if inval = last.1 then uniqCntAlldefLoop (last.1, CInt.wrap 64 (last.2 + incnt)) rows
    else (last.1, CInt.wrap 32 last.2) :: uniqCntAlldefLoop (inval, incnt) rows

/-- `uniq_cnt_alldef`. The counter starts with 1. -/
def uniqCntAlldef (inX inCnt : List Int) : List (Int × Int) :=
  match inX.zip inCnt with
  | [] => []
  | (firstVal, _) :: rows => uniqCntAlldefLoop (firstVal, 1) rows

/-! ### The order of the column -/

/-- The loop of `is_sorted_alldef`: no value is on the wrong side of the one before. -/
def inOrder (sortOrder : SortType) : Int → List Int → Bool
  | _, [] => true
  | prevVal, currVal :: iX =>
    if sortOrder = .ascending ∧ currVal < prevVal then false
    else if sortOrder = .descending ∧ prevVal < currVal then false
    else inOrder sortOrder currVal iX

/-- `is_sorted_alldef`. The loop starts as far behind the second value as that is behind the first. -/
def isSortedAlldef (iX : List Int) : SortType :=
  match iX with
  | [] => .unknown
  | firstVal :: _ =>
    match iX.findIdx? fun x => x ≠ firstVal with
    | none => .ascending
    | some i =>
      let secondVal := iX.getD i 0
      let sortOrder : SortType := if firstVal < secondVal then .ascending else .descending
      if inOrder sortOrder secondVal (iX.drop (i + i)) then sortOrder else .unsorted

/-- What `f_to_s` finds for `is_sorted`: a column with null values is not sorted, and what is recorded
is not computed again. -/
def fToSIsSorted (srttype : SortType) (cells : List Int) (hasNn : Bool) : SortType :=
  if hasNn then .unsorted
  else if srttype = .unknown then isSortedAlldef cells
  else srttype

/-! ### The command -/

/-- The source column with its null column and its recorded order, and the counts. -/
structure CountValsArgs where
  fldtype : FldType
  srttype : SortType
  cells : List Int
  nnX : Option (List Int)
  inCnt : Option (List Int)

/-- The kernel that is called. For `I8` and counts it is called only if the counts are `I8`, which they
never are. -/
def countValsKernel (args : CountValsArgs) : Option (List (Int × Int)) :=
  match args.fldtype, args.nnX, args.inCnt with
  | .I4, none, none => some (uniqAlldef args.cells)
  | .I4, none, some inCnt => some (uniqCntAlldef args.cells inCnt)
  | .I4, some nn, none => some (uniq args.cells nn)
  | .I4, some nn, some inCnt => some (uniqCnt args.cells inCnt nn)
  | .I8, none, none => some (uniqAlldef args.cells)
  | .I8, none, some _ => some []
  | .I8, some nn, none => some (uniq args.cells nn)
  | .I8, some nn, some inCnt => some (uniqCnt args.cells inCnt nn)
  | _, _, _ => none

/-- The values of two `int`s each. -/
def joinPairs : List Int → List Int
  | lo :: hi :: ints => CInt.wrap 64 (hi * 2 ^ 32 + lo % 2 ^ 32) :: joinPairs ints
  | _ => []

/-- The values from the `int`s that the compaction moves. -/
def joinInts (fldtype : FldType) (ints : List Int) : List Int :=
  if fldtype = .I8 then joinPairs ints else ints

/-- The values and counts after `wridx` entries have been kept. -/
structure Compacted where
  vals : List Int
  cnts : List Int
  wridx : Nat

/-- An entry with a positive count is moved to the front. -/
def compactStep (s : Compacted) (rdidx : Nat) : Compacted :=
  if 0 < s.cnts.getD rdidx 0 then
    ⟨s.vals.set s.wridx (s.vals.getD rdidx 0), s.cnts.set s.wridx (s.cnts.getD rdidx 0), s.wridx + 1⟩
  else s

/-- The output files after the kernel, which were 0 before, and their truncation. -/
def truncateOutput (fldtype : FldType) (srcNR : Nat) (rows : List (Int × Int)) :
    Option (List (Int × Int)) :=
  if rows.length < srcNR then
    let pad := List.replicate (srcNR - rows.length) 0
    let s := (List.range srcNR).foldl compactStep
      ⟨readInts fldtype (rows.map Prod.fst ++ pad), rows.map Prod.snd ++ pad, 0⟩
    if s.wridx ≠ rows.length then none
    else some (((joinInts fldtype s.vals).zip s.cnts).take rows.length)
  else some rows

/-- `count_vals`: the fields of the new table. Without values no table is made. -/
def countVals (args : CountValsArgs) : Option (List (Int × Int)) :=
  if fToSIsSorted args.srttype args.cells args.nnX.isSome ≠ .ascending then none
  else
    match countValsKernel args with
    | none => none
    | some [] => some []
    | some rows => truncateOutput args.fldtype args.cells.length rows

end Datacl
