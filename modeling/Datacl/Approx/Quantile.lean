import Datacl.Approx.Frequent

/-!
# The Munro-Paterson quantile algorithm: `approx_quantile` and its helpers

The call is modelled with `cfld = NULL`. `eps` is an exact rational and ranks are computed
exactly. Weights are naturals: they add up to the number of full packets, each of which has at
least 10000 elements, so below `10000 * 2^31` elements the `int` of the source does not overflow.
-/

namespace Datacl

/-- `INT_MAX`, the value `Output` starts its search from. -/
def intMax : Int := 0x7FFFFFFF

/-- A row of the 2d array `buffer` with its entry of `weight`; weight 0 marks a free buffer. -/
structure Buffer where
  weight : Nat
  elems : List Int
  deriving DecidableEq, Repr

/-! ### `determine_b_k` -/

/-- The loop of `determine_b_k`, with `bound = eps * siz`. -/
def growB (bound : ℚ) : Nat → Nat → Nat
  | 0, b => b
  | fuel + 1, b => if ((b - 2) * 2 ^ (b - 2) + 1 : ℕ) < bound then growB bound fuel (b + 1) else b

def determineB (eps : ℚ) (siz : Nat) : Nat := growB (eps * siz) ⌈eps * siz⌉₊ 2 - 1

/-- `k`, given `b`. -/
def determineK (siz b : Nat) : Nat :=
  let k := if siz % 2 ^ (b - 1) = 0 then siz / 2 ^ (b - 1) else siz / 2 ^ (b - 1) + 1
  if k < 10000 then 10000 else k

/-! ### `Collapse` -/

/-- `(tempBuffer, tempWeight)`: two sorted buffers merged, each element with its weight. -/
def mergeWeighted (w1 w2 : Nat) : List Int → List Int → List (Int × Nat)
  | a :: as, b :: bs =>
    if a ≤ b then (a, w1) :: mergeWeighted w1 w2 as (b :: bs)
    else (b, w2) :: mergeWeighted w1 w2 (a :: as) bs
  | a :: as, [] => (a, w1) :: mergeWeighted w1 w2 as []
  | [], b :: bs => (b, w2) :: mergeWeighted w1 w2 [] bs
  | [], [] => []
  termination_by as bs => as.length + bs.length

/-- The inner loop `while ( kk >= offSet+jj*outWeight )`; the result is the new `jj`. -/
def emitWhile (offSet outWeight kk : Nat) : Nat → Nat → Nat
  | 0, jj => jj
  | fuel + 1, jj =>
    if offSet + jj * outWeight ≤ kk then emitWhile offSet outWeight kk fuel (jj + 1) else jj

/-- The picking loop of `Collapse`: the values written to `buf1[jj]`, `buf1[jj+1]`, ... -/
def pickLoop (offSet outWeight : Nat) : List (Int × Nat) → Nat → Nat → List Int
  | [], _, _ => []
  | (v, w) :: rest, kk, jj =>
    let jj' := emitWhile offSet outWeight (kk + w) (kk + w + 1) jj
    List.replicate (jj' - jj) v ++ pickLoop offSet outWeight rest (kk + w) jj'

/-- `Collapse` of two buffers: the first receives the merged data, the second is freed. -/
def collapse (buf1 buf2 : Buffer) : Buffer × Buffer :=
  let outWeight := buf1.weight + buf2.weight
  let temp := mergeWeighted buf1.weight buf2.weight buf1.elems buf2.elems
  let picked := pickLoop (outWeight / 2) outWeight temp 0 0
  (⟨outWeight, picked ++ buf1.elems.drop picked.length⟩, ⟨0, buf2.elems⟩)

/-! ### The main loop -/

/-- `buffer`, `weight` and `no_of_empty_buffers`. -/
structure Sketch where
  bufs : List Buffer
  noOfEmptyBuffers : Nat
  deriving DecidableEq, Repr

/-- The first pair `bufidx1 < bufidx2` of used buffers with the same weight. -/
def findPair : List Buffer → Option (Nat × Nat)
  | [] => none
  | buf :: bufs =>
    match if 0 < buf.weight then bufs.findIdx? (fun c => c.weight = buf.weight) else none with
    | some j => some (0, j + 1)
    | none => (findPair bufs).map fun p => (p.1 + 1, p.2 + 1)

/-- Frees a buffer when none is empty; `none` is the error exit. -/
def makeRoom (s : Sketch) : Option Sketch :=
  if s.noOfEmptyBuffers = 0 then do
    let (i, j) ← findPair s.bufs
    let buf1 ← s.bufs[i]?
    let buf2 ← s.bufs[j]?
    let (c1, c2) := collapse buf1 buf2
    some ⟨(s.bufs.set i c1).set j c2, s.noOfEmptyBuffers + 1⟩
  else some s

/-- Copies a sorted packet into the first free buffer with `New`; `none` is the error exit. -/
def storePacket (s : Sketch) (packet : List Int) : Option Sketch := do
  let i ← s.bufs.findIdx? (fun buf => buf.weight = 0)
  some ⟨s.bufs.set i ⟨1, packet⟩, s.noOfEmptyBuffers - 1⟩

/-- Steps (2) and (3) for one full packet. -/
def addPacket (s : Sketch) (packet : List Int) : Option Sketch := do
  let s' ← makeRoom s
  storePacket s' packet

/-- Steps (1) to (3) for the packets of a block; those that are not full are passed over. -/
def addPackets (k : Nat) : Sketch → List (List Int) → Option Sketch
  | s, [] => some s
  | s, p :: ps =>
    if p.length = k then do
      let s' ← addPacket s (qsortAscI4 p)
      addPackets k s' ps
    else addPackets k s ps

/-- The incomplete last packet of a block, empty when there is none. -/
def incompletePacket (k : Nat) (packets : List (List Int)) : List Int :=
  ((packets.find? (fun p => decide (p.length ≠ 0 ∧ p.length ≠ k))).getD [])

/-- The main loop; the result holds the sketch and `lastPacket`. `none` is the error exit or a
loop that does not end. -/
def quantileBlocks (numThreads k : Nat) (x : List Int) :
    Nat → Nat → Sketch → List Int → Option (Sketch × List Int)
  | 0, currentLoc, s, lastPacket => if currentLoc < x.length then none else some (s, lastPacket)
  | fuel + 1, currentLoc, s, lastPacket =>
    if currentLoc < x.length then do
      let packets := fillAll numThreads k x currentLoc
      let lastPacket' := if (incompletePacket k packets).length = 0 then lastPacket
        else incompletePacket k packets
      let s' ← addPackets k s packets
      quantileBlocks numThreads k x fuel
        (currentLoc + ((packets.filter (fun p => decide (p.length = k))).map List.length).sum
          + lastPacket'.length) s' lastPacket'
    else some (s, lastPacket)

/-! ### `Output` -/

/-- `(long long)ceil((jj+1)*(double)siz/num_quantiles)` in exact arithmetic. -/
def quantileRank (siz numQuantiles jj : Nat) : Nat :=
  ((jj + 1) * siz + (numQuantiles - 1)) / numQuantiles

/-- The unread part of a buffer, or of the last packet, with its weight. -/
structure Cursor where
  weight : Nat
  rest : List Int
  deriving DecidableEq, Repr

/-- The search for `(min_unproc_val, min_unproc_val_loc)` over the cursors from index `ii` on. -/
def minUnproc : List Cursor → Nat → Int × Option Nat → Int × Option Nat
  | [], _, best => best
  | c :: cs, ii, best =>
    minUnproc cs (ii + 1) <|
      match c.rest with
      | [] => best
      | v :: _ => if 0 < c.weight ∧ v < best.1 then (v, some ii) else best

/-- The inner loop of `Output`: the number of slots filled once `rank` elements are processed. -/
def fillSlots (siz numQuantiles rank : Nat) : Nat → Nat → Nat
  | 0, jj => jj
  | fuel + 1, jj =>
    if quantileRank siz numQuantiles jj ≤ rank ∧ jj < numQuantiles then
      fillSlots siz numQuantiles rank fuel (jj + 1)
    else jj

/-- The main loop of `Output`: the values written to `ptr_y[jj]`, `ptr_y[jj+1]`, ... -/
def outputLoop (siz numQuantiles : Nat) : Nat → List Cursor → Nat → Nat → List Int
  | 0, _, _, _ => []
  | fuel + 1, cs, rank, jj =>
    match minUnproc cs 0 (intMax, none) with
    | (_, none) => []
    | (v, some i) =>
      match cs[i]? with
      | none => []
      | some c =>
        let rank' := rank + c.weight
        let jj' := fillSlots siz numQuantiles rank' numQuantiles jj
        List.replicate (jj' - jj) v ++
          outputLoop siz numQuantiles fuel (cs.set i ⟨c.weight, c.rest.tail⟩) rank' jj'

/-- The buffers and, after them, the last packet with weight 1. -/
def outputCursors (bufs : List Buffer) (lastPacket : List Int) : List Cursor :=
  bufs.map (fun b => ⟨b.weight, b.elems⟩) ++ [⟨1, lastPacket⟩]

/-- `Output`; `none` is its error exit. -/
def output (bufs : List Buffer) (lastPacket : List Int) (siz numQuantiles k : Nat) :
    Option (List Int) :=
  let cursors := outputCursors bufs lastPacket
  if k < lastPacket.length then none
  else some <|
    outputLoop siz numQuantiles (cursors.map (fun c => c.rest.length)).sum cursors 0 0

/-! ### The whole call -/

/-- `NUM_THREADS` is halved until the packets fit in memory. -/
def quantileThreadsLoop (b k : Nat) : Nat → Nat → Nat
  | 0, n => n
  | fuel + 1, n =>
    if maxSz < (b + n + 10) * k then quantileThreadsLoop b k fuel (n / 2) else n

/-- `status`, `*ptr_estimate_is_good` and the quantiles written to `y`. -/
structure QuantileResult where
  status : Int
  estimateIsGood : Int
  y : List Int
  deriving DecidableEq, Repr

def emptySketch (b k : Nat) : Sketch := ⟨List.replicate b ⟨0, List.replicate k 0⟩, b⟩

/-- `approx_quantile` after the input checks, for given `b` and `k`. -/
def quantileCore (b k : Nat) (x : List Int) (numQuantiles : Nat) : QuantileResult :=
  match quantileBlocks (quantileThreadsLoop b k 8 128) k x x.length 0 (emptySketch b k) [] with
  | none => ⟨-1, -1, []⟩
  | some (s, lastPacket) =>
    match output s.bufs (qsortAscI4 lastPacket) x.length numQuantiles k with
    | none => ⟨-1, -1, []⟩
    | some y => ⟨0, 1, y⟩

/-- `approx_quantile` with `cfld = NULL`. -/
def approxQuantile (x : List Int) (numQuantiles : Int) (eps : ℚ) (ySiz : Int) : QuantileResult :=
  if eps < 0 ∨ 1 < eps ∨ numQuantiles < 1 ∨ x.length = 0 ∨ ySiz < numQuantiles then ⟨-1, -1, []⟩
  else
    let b := determineB eps x.length
    let k := determineK x.length b
    if b = 0 ∨ k = 0 then ⟨-1, -1, []⟩
    else if maxSz < (b + 1 + 10) * k then ⟨0, -2, []⟩
    else quantileCore b k x numQuantiles.toNat

end Datacl
