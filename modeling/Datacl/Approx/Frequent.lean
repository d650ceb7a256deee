import Mathlib.Tactic
import Mathlib.Data.List.Sort

/-!
# The FREQUENT algorithm: `approx_frequent` and its helpers

The counter array `(cntr_id, cntr_freq)` with its `active_cntr_siz` is a list of counters, a
packet in `(id, freq)` form is one too. Frequencies are naturals: a counter never exceeds the
number of elements read, so below `2^31` elements the `int` of the source does not overflow.
Pointer arguments are taken to be non-null.
-/

namespace Datacl

/-- One used entry of the arrays `(cntr_id, cntr_freq)` or `(bf_id, bf_freq)`. -/
structure Counter where
  id : Int
  freq : Nat
  deriving DecidableEq, Repr

/-- `qsort_asc_I4`. Integers have one ascending arrangement, so any sort computes it. -/
def qsortAscI4 (buf : List Int) : List Int := buf.insertionSort (· ≤ ·)

/-- The loop of `sorted_array_to_id_freq`, entered at `buf[ii] = cur` with `temp_freq`. -/
def idFreqLoop (cur : Int) (tempFreq : Nat) : List Int → List Counter
  | [] => [⟨cur, tempFreq⟩]
  | b :: rest =>
    if cur = b then idFreqLoop b (tempFreq + 1) rest
    else ⟨cur, tempFreq⟩ :: idFreqLoop b 1 rest

/-- `sorted_array_to_id_freq`. Its callers never pass an empty packet. -/
def sortedArrayToIdFreq : List Int → List Counter
  | [] => []
  | b :: rest => idFreqLoop b 1 rest

/-- The merge loop of `update_counter`: `(temp_cntr_id, temp_cntr_freq)`. -/
def mergeCounters : List Counter → List Counter → List Counter
  | c :: cs, b :: bs =>
    if c.id < b.id then c :: mergeCounters cs (b :: bs)
    else if b.id < c.id then b :: mergeCounters (c :: cs) bs
    else ⟨b.id, b.freq + c.freq⟩ :: mergeCounters cs bs
  | c :: cs, [] => c :: mergeCounters cs []
  | [], b :: bs => b :: mergeCounters [] bs
  | [], [] => []
  termination_by cs bs => cs.length + bs.length

/-- One round of the second loop of `update_counter`: every frequency drops by one and the
counters that are still positive are moved to the front. -/
def decrementRound (cs : List Counter) : List Counter :=
  (cs.map (fun c => { c with freq := c.freq - 1 })).filter (fun c => decide (0 < c.freq))

/-- Rounds are made while more than `cntr_siz` counters are active. -/
def shrink (cntrSiz : Nat) : Nat → List Counter → List Counter
  | 0, cs => cs
  | fuel + 1, cs => if cntrSiz < cs.length then shrink cntrSiz fuel (decrementRound cs) else cs

def totalFreq (cs : List Counter) : Nat := (cs.map Counter.freq).sum

/-- `update_counter`. Every round lowers a positive total, which bounds their number. -/
def updateCounter (cntrSiz : Nat) (cntr bf : List Counter) : List Counter :=
  let temp := mergeCounters cntr bf
  shrink cntrSiz (totalFreq temp) temp

/-- Steps (2) and (3) for the packets of one block, up to the first unused one. -/
def processPackets (cntrSiz : Nat) : List Counter → List (List Int) → List Counter
  | cntr, [] => cntr
  | cntr, p :: ps =>
    if p.length = 0 then cntr
    else processPackets cntrSiz
      (updateCounter cntrSiz cntr (sortedArrayToIdFreq (qsortAscI4 p))) ps

/-- The packets of a block when every element is processed. -/
def fillAll (numThreads cntrSiz : Nat) (x : List Int) (currentLoc : Nat) : List (List Int) :=
  (List.range numThreads).map fun tid =>
    let lb := currentLoc + tid * cntrSiz
    let ub := if x.length ≤ lb + cntrSiz then x.length else lb + cntrSiz
    if x.length ≤ lb then [] else (x.drop lb).take (ub - lb)

/-- The main loop when every element is processed; `none` if it does not end. -/
def blocksAll (numThreads cntrSiz : Nat) (x : List Int) :
    Nat → Nat → List Counter → Option (List Counter)
  | 0, currentLoc, cntr => if currentLoc < x.length then none else some cntr
  | fuel + 1, currentLoc, cntr =>
    if currentLoc < x.length then
      let inputPackets := fillAll numThreads cntrSiz x currentLoc
      blocksAll numThreads cntrSiz x fuel (currentLoc + (inputPackets.map List.length).sum)
        (processPackets cntrSiz cntr inputPackets)
    else some cntr

/-- The packets of a block under a selector, with the rows that are still unread. The packet
being filled comes first, `threads` counts it and the packets not yet started. -/
def fillSelected (cntrSiz : Nat) :
    List (Int × Int) → Nat → List Int → List (List Int) × List (Int × Int)
  | rows, 0, _ => ([], rows)
  | [], threads + 1, packet => (packet :: List.replicate threads [], [])
  | (v, c) :: rows, threads + 1, packet =>
    if c = 0 then fillSelected cntrSiz rows (threads + 1) packet
    else if (packet ++ [v]).length = cntrSiz then
      let next := fillSelected cntrSiz rows threads []
      ((packet ++ [v]) :: next.1, next.2)
    else fillSelected cntrSiz rows (threads + 1) (packet ++ [v])

/-- The main loop under a selector; `none` if it does not end. -/
def blocksSelected (numThreads cntrSiz : Nat) :
    Nat → List (Int × Int) → List Counter → Option (List Counter)
  | 0, rows, cntr => if rows.length = 0 then some cntr else none
  | fuel + 1, rows, cntr =>
    if rows.length = 0 then some cntr
    else
      let block := fillSelected cntrSiz rows numThreads []
      blocksSelected numThreads cntrSiz fuel block.2 (processPackets cntrSiz cntr block.1)

def maxSz : Nat := 200 * 1048576

/-- `NUM_THREADS` is halved until the packets fit in memory. -/
def numThreadsLoop (cntrSiz : Nat) : Nat → Nat → Nat
  | 0, n => n
  | fuel + 1, n =>
    if maxSz < cntrSiz * (n + 2 + 6) then numThreadsLoop cntrSiz fuel (n / 2) else n

def numThreadsFor (cntrSiz : Nat) : Nat := numThreadsLoop cntrSiz 8 128

/-- `status`, `*ptr_estimate_is_good` and the entries written to `(y, f)`. -/
structure FrequentResult where
  status : Int
  estimateIsGood : Int
  out : List Counter
  deriving DecidableEq, Repr

/-- Rows paired with their selector. -/
def selectorRows (x cfld : List Int) : List (Int × Int) := x.zip cfld

/-- `eff_siz`, the number of elements to be considered. -/
def effSiz (x : List Int) : Option (List Int) → Nat
  | none => x.length
  | some cfld => (selectorRows x cfld).countP (fun r => r.2 ≠ 0)

/-- The elements the selector lets through, in order. -/
def selected (x : List Int) : Option (List Int) → List Int
  | none => x
  | some cfld => ((selectorRows x cfld).filter (fun r => r.2 ≠ 0)).map Prod.fst

/-- The main loop: the plain branch is also taken when the selector lets everything through. -/
def frequentCounters (cntrSiz : Nat) (x : List Int) (cfld : Option (List Int)) :
    Option (List Counter) :=
  match cfld with
  | none => blocksAll (numThreadsFor cntrSiz) cntrSiz x x.length 0 []
  | some c =>
    if effSiz x (some c) = x.length then
      blocksAll (numThreadsFor cntrSiz) cntrSiz x x.length 0 []
    else
      blocksSelected (numThreadsFor cntrSiz) cntrSiz x.length (selectorRows x c) []

/-- The source computes the number of counters in doubles as `(long long)(1/eps) + 1`, raised
to 10000. This is the same in exact arithmetic. -/
def cntrSizOf (err effSiz : Nat) : Nat := max (effSiz / err + 1) 10000

/-- `approx_frequent` with the number of counters given. `none` stands for a call that does
not return. -/
def approxFrequent (cntrSiz : Nat) (x : List Int) (cfld : Option (List Int))
    (minFreq err outSiz : Int) : Option FrequentResult :=
  let n := effSiz x cfld
  if x.length = 0 ∨ err ≤ 0 ∨ minFreq ≤ 0 ∨ minFreq - err ≤ 0 then some ⟨-1, -1, []⟩
  else if n = 0 then some ⟨-1, -1, []⟩
  else if err * 2 ^ 50 < n then some ⟨0, -2, []⟩
  else if outSiz < n / (minFreq - err) then some ⟨-1, -1, []⟩
  else if maxSz < cntrSiz * (1 + 2 + 6) then some ⟨0, -2, []⟩
  else
    (frequentCounters cntrSiz x cfld).map fun cntr =>
      ⟨0, 1, cntr.filter (fun c => decide (minFreq - err ≤ c.freq))⟩

end Datacl
