import Datacl.Lib.Bytes
import Datacl.Lib.CInt
import Datacl.Lib.Looping
import Datacl.Lib.Swap
import Datacl.Search.BinSearch

/-!
# Sorting with an index: `tmpl_qsort_nofn_yesidx.c`

Quicksort with a stack of its own leaves pieces of at most five elements, and an insertion sort does the
rest. The index moves with the values in three places: in `SWAP`, in the first pass over the bytes
of an element that is inserted, and where that pass ends.

A pointer to an element is its position, and a pointer to a byte is a position and the number of the byte
in the element.
-/

namespace Datacl

open Looping

/-- An element of `pbase` in memory. -/
abbrev Cell (size : Nat) := Fin size → UInt8

/-- `srt_ordr` and `pbase`. -/
structure SortArrays (size : Nat) (ι : Type) where
  srtOrdr : List ι
  pbase : List (Cell size)

/-- The pairs of an element and its index. -/
def SortArrays.pairs {size : Nat} {ι : Type} (arr : SortArrays size ι) : List (Cell size × ι) :=
  arr.pbase.zip arr.srtOrdr

/-- `X[i] = x`, within the bounds. -/
def setItem {α : Type} (X : List α) (i : Int) (x : α) : Option (List α) :=
  if i < 0 ∨ X.length ≤ i then none else some (X.set i.toNat x)

section

variable {size : Nat} {ι : Type} (lt : Cell size → Cell size → Bool)

/-- `SWAP`, which returns from the sort if a position is out of range. -/
def swapItems (arr : SortArrays size ι) (a b : Int) : Option (SortArrays size ι) :=
  if a < 0 ∨ arr.pbase.length ≤ a then none
  else if b < 0 ∨ arr.pbase.length ≤ b then none
  else do
    let srtOrdr ← Swapping.swapAt arr.srtOrdr a.toNat b.toNat
    let pbase ← Swapping.swapAt arr.pbase a.toNat b.toNat
    some ⟨srtOrdr, pbase⟩

/-- `*a < *b`. -/
def ltAt (pbase : List (Cell size)) (a b : Int) : Option Bool := do
  let x ← itemAt pbase a
  let y ← itemAt pbase b
  some (lt x y)

/-! ### Quicksort -/

/-- `if (*a < *b) SWAP(a, b)`. -/
def swapIfLt (arr : SortArrays size ι) (a b : Int) : Option (SortArrays size ι) := do
  if ← ltAt lt arr.pbase a b then swapItems arr a b else some arr

/-- `LO`, `MID` and `HI` in order. -/
def medianOfThree (arr : SortArrays size ι) (lo mid hi : Int) : Option (SortArrays size ι) := do
  let arr ← swapIfLt lt arr mid lo
  if ← ltAt lt arr.pbase hi mid then
    let arr ← swapItems arr mid hi
    swapIfLt lt arr mid lo
  else some arr

/-- `while (test) ptr += step`. -/
def scanWhile (test : Int → Option Bool) (step : Int) : Nat → Int → Option Int
  | 0, _ => none
  | n + 1, ptr => do
    if ← test ptr then scanWhile test step n (ptr + step) else some ptr

/-- `while (*ptr < *mid) ptr += size`. -/
def scanUp (pbase : List (Cell size)) (mid ptr : Int) : Option Int :=
  scanWhile (fun ptr => ltAt lt pbase ptr mid) 1 pbase.length ptr

/-- `while (*mid < *ptr) ptr -= size`. -/
def scanDown (pbase : List (Cell size)) (mid ptr : Int) : Option Int :=
  scanWhile (fun ptr => ltAt lt pbase mid ptr) (-1) pbase.length ptr

/-- The variables while the walls collapse. -/
structure Walls (size : Nat) (ι : Type) where
  left : Int
  right : Int
  mid : Int
  arr : SortArrays size ι
  again : Bool

def collapseBody (w : Walls size ι) : Option (Walls size ι) := do
  let left ← scanUp lt w.arr.pbase w.mid w.left
  let right ← scanDown lt w.arr.pbase w.mid w.right
  if left < right then
    let arr ← swapItems w.arr left right
    let mid := if w.mid = left then right else if w.mid = right then left else w.mid
    some ⟨left + 1, right - 1, mid, arr, decide (left + 1 ≤ right - 1)⟩
  else if left = right then some ⟨left + 1, right - 1, w.mid, w.arr, false⟩
  else some ⟨left, right, w.mid, w.arr, decide (left ≤ right)⟩

/-- A partition obligation, `NULL` at the bottom of the stack. -/
abbrev StackNode := Option (Int × Int)

/-- The variables of the quicksort. -/
structure QuickState (size : Nat) (ι : Type) where
  piece : StackNode
  stack : List StackNode
  arr : SortArrays size ι

/-- `PUSH`, with `STACK_SIZE` entries. -/
def push (node : StackNode) (stack : List StackNode) : Option (List StackNode) :=
  if stack.length < 64 then some (node :: stack) else none

/-- `POP`. -/
def pop : List StackNode → Option (StackNode × List StackNode)
  | [] => none
  | node :: stack => some (node, stack)

/-- `(size_t)(hi - lo) <= max_thresh`. -/
def isSmall (size : Nat) (lo hi : Int) : Bool := decide (((hi - lo) * size) % 2 ^ 64 ≤ 4 * size)

/-- The next piece, after `[lo, hi]` has been cut into `[lo, right]` and `[left, hi]`. -/
def nextPiece (size : Nat) (lo right left hi : Int) (stack : List StackNode) :
    Option (StackNode × List StackNode) :=
  if isSmall size lo right then
    if isSmall size left hi then pop stack else some (some (left, hi), stack)
  else if isSmall size left hi then some (some (lo, right), stack)
  else if hi - left < right - lo then (push (some (lo, right)) stack).map (some (left, hi), ·)
  else (push (some (left, hi)) stack).map (some (lo, right), ·)

def quickBody (s : QuickState size ι) : Option (QuickState size ι) := do
  let (lo, hi) ← s.piece
  let mid := lo + (hi - lo) / 2
  let arr ← medianOfThree lt s.arr lo mid hi
  match loop Walls.again (collapseBody lt) arr.pbase.length ⟨lo + 1, hi - 1, mid, arr, true⟩ with
  | .done w =>
    let (piece, stack) ← nextPiece size lo w.right w.left hi s.stack
    some ⟨piece, stack, w.arr⟩
  | _ => none

/-- The quicksort, of more than `MAX_THRESH` elements. -/
def quick (arr : SortArrays size ι) : Option (SortArrays size ι) := do
  let stack ← push none []
  match loop (fun s => !s.stack.isEmpty) (quickBody lt) arr.pbase.length
      ⟨some (0, arr.pbase.length - 1), stack, arr⟩ with
  | .done s => some s.arr
  | _ => none

/-! ### Insertion sort -/

/-- The position of the smallest element so far, for `run_ptr` from 1 to `thresh`. -/
def findMin (pbase : List (Cell size)) : List Int → Int → Option Int
  | [], tmp => some tmp
  | run :: runs, tmp => do
    if ← ltAt lt pbase run tmp then findMin pbase runs run else findMin pbase runs tmp

/-- `pos`, in the type of the index. -/
def posOf (idxBits : Nat) (ptr : Int) : Int := CInt.wrap idxBits ptr

/-- `*hi = *lo` for byte `k`. -/
def moveByte (k : Fin size) (pbase : List (Cell size)) (hi lo : Int) : Option (List (Cell size)) := do
  let x ← itemAt pbase lo
  let y ← itemAt pbase hi
  setItem pbase hi (Function.update y k (x k))

/-- `srt_ordr[pos_hi] = srt_ordr[pos_lo]` in the first pass. -/
def moveOrdr (idxBits : Nat) (first : Bool) (srtOrdr : List ι) (hi lo : Int) : Option (List ι) :=
  if first then do
    let ordr ← itemAt srtOrdr (posOf idxBits lo)
    setItem srtOrdr (posOf idxBits hi) ordr
  else some srtOrdr

/-- `srt_ordr[pos] = sve_idx` in the first pass. -/
def putOrdr (idxBits : Nat) (first : Bool) (srtOrdr : List ι) (hi : Int) (sveIdx : ι) : Option (List ι) :=
  if first then setItem srtOrdr (posOf idxBits hi) sveIdx else some srtOrdr

/-- The loop of a pass: everybody moves one to the right, from `hi` down to `tmp`. In the first pass
`srt_ordr` does, too. -/
def shiftLoop (idxBits : Nat) (k : Fin size) (first : Bool) (tmp : Int) :
    Nat → Int → SortArrays size ι → Option (Int × SortArrays size ι)
  | 0, _, _ => none
  | n + 1, hi, arr =>
    if tmp ≤ hi - 1 then do
      let pbase ← moveByte k arr.pbase hi (hi - 1)
      let srtOrdr ← moveOrdr idxBits first arr.srtOrdr hi (hi - 1)
      shiftLoop idxBits k first tmp n (hi - 1) ⟨srtOrdr, pbase⟩
    else some (hi, arr)

/-- A pass of the insertion, for byte `k` of the element at `run`. -/
def insertPass (idxBits : Nat) (sveIdx : ι) (tmp run : Int) (first : Bool) (k : Fin size)
    (arr : SortArrays size ι) : Option (SortArrays size ι) := do
  let x ← itemAt arr.pbase run
  let (hi, arr) ← shiftLoop idxBits k first tmp (arr.pbase.length + 1) run arr
  let y ← itemAt arr.pbase hi
  let pbase ← setItem arr.pbase hi (Function.update y k (x k))
  let srtOrdr ← putOrdr idxBits first arr.srtOrdr hi sveIdx
  some ⟨srtOrdr, pbase⟩

/-- The passes, the first of which is for the last byte. -/
def insertPasses (idxBits : Nat) (sveIdx : ι) (tmp run : Int) :
    Bool → List (Fin size) → SortArrays size ι → Option (SortArrays size ι)
  | _, [], arr => some arr
  | first, k :: ks, arr => do
    let arr ← insertPass idxBits sveIdx tmp run first k arr
    insertPasses idxBits sveIdx tmp run false ks arr

/-- The element at `run` goes behind the last one that is not greater. -/
def insertRun (idxBits : Nat) (arr : SortArrays size ι) (run : Int) : Option (SortArrays size ι) := do
  let sveIdx ← itemAt arr.srtOrdr (posOf idxBits (run - 1 + 1))
  let tmp ← scanDown lt arr.pbase run (run - 1)
  if tmp + 1 = run then some arr
  else insertPasses idxBits sveIdx (tmp + 1) run true (List.finRange size).reverse arr

/-- The runs, from the given ones on. -/
def insertRuns (idxBits : Nat) : List Int → SortArrays size ι → Option (SortArrays size ι)
  | [], arr => some arr
  | run :: runs, arr => do
    let arr ← insertRun lt idxBits arr run
    insertRuns idxBits runs arr

/-- The insertion sort. -/
def insertion (idxBits : Nat) (arr : SortArrays size ι) : Option (SortArrays size ι) := do
  let endPtr : Nat := arr.pbase.length - 1
  let tmp ← findMin lt arr.pbase ((List.range (min endPtr 4)).map fun i : Nat => (i : Int) + 1) 0
  let arr ← if tmp ≠ 0 then swapItems arr tmp 0 else some arr
  insertRuns lt idxBits ((List.range (endPtr - 1)).map fun i : Nat => (i : Int) + 2) arr

/-- `qsort_val_idx`. -/
def qsortValIdx (idxBits : Nat) (arr : SortArrays size ι) : Option (SortArrays size ι) :=
  if arr.pbase.length = 0 then some arr
  else do
    let arr ← if 4 < arr.pbase.length then quick lt arr else some arr
    insertion lt idxBits arr

end

/-! ### The eight sorts -/

/-- `VALTYPE` and `IDXTYPE`. -/
inductive SortInt where
  | I4
  | I8

def SortInt.size : SortInt → Nat
  | .I4 => 4
  | .I8 => 8

def SortInt.bits (t : SortInt) : Nat := 8 * t.size

/-- `ORDR`. -/
inductive Ordr where
  | asc
  | dsc

/-- `ORDR2`. -/
def Ordr.lt : Ordr → Int → Int → Bool
  | .asc, x, y => decide (x < y)
  | .dsc, x, y => decide (y < x)

/-- The number in a cell. -/
def Cell.val {size : Nat} (x : Cell size) : Int := Bytes.getSigned size (List.ofFn x)

/-- `qsort_asc_val_I4_idx_I4` and the other ones. -/
def qsortOrdrValIdx {ι : Type} (ordr : Ordr) (valtype idxtype : SortInt)
    (arr : SortArrays valtype.size ι) : Option (SortArrays valtype.size ι) :=
  qsortValIdx (fun x y => ordr.lt x.val y.val) idxtype.bits arr

end Datacl
