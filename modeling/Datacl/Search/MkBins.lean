import Datacl.Lib.CInt
import Datacl.Search.Blocks
import Mathlib.Data.List.Pairwise

/-!
# Binning: `mk_bins.c`

A bin takes an equal share of the items that are left, and then all that equal its last one. So the
items that are left are greater than all bins, and with one bin left it takes them all.
-/

namespace Datacl

open Looping

/-- A row of the output. -/
structure Bin where
  lb : Int
  ub : Int
  cnt : Int
  deriving DecidableEq

/-- The variables of the loop; `num_bins_created` is the number of bins. -/
structure BinState where
  idx : Int
  numItemsLeft : Int
  bins : List Bin
  closed : Bool

/-- The size of the next bin. -/
def binSize (numItemsLeft numBinsLeft : Int) : Int :=
  let size := CInt.wrap 32 (numItemsLeft.tdiv numBinsLeft)
  if size = 0 then size + 1 else size

/-- The last bin, from `items[idx]` on. -/
def closeBin (items : List Int) (s : BinState) (currval : Int) : Option BinState := do
  let ub ← itemAt items (items.length - 1)
  if s.bins.getLast?.map Bin.lb = some currval then none
  some { s with bins := s.bins ++ [⟨currval, ub, items.length - s.idx⟩], closed := true }

/-- A bin that is not the last one. -/
def openBin (items : List Int) (s : BinState) (currval stopidx1 : Int) : Option BinState := do
  let nextval ← itemAt items stopidx1
  let pos ← binSearch ((items.drop s.idx.toNat).take s.numItemsLeft.toNat) nextval .highest
  if pos < 0 then none
  let stopidx2 := pos + s.idx
  if stopidx2 < stopidx1 then none
  let cnt := stopidx2 - s.idx + 1
  let idx := CInt.wrap 32 (stopidx2 + 1)
  let numItemsLeft := s.numItemsLeft - cnt
  if numItemsLeft + idx ≠ items.length then none
  if items.length < idx then none
  some ⟨idx, numItemsLeft, s.bins ++ [⟨currval, nextval, cnt⟩], decide (idx = items.length)⟩

/-- One round of the loop. -/
def binBody (items : List Int) (numBinsWanted : Int) (s : BinState) : Option BinState := do
  if numBinsWanted ≤ s.bins.length then none
  let stopidx1 := s.idx + binSize s.numItemsLeft (numBinsWanted - s.bins.length)
  let currval ← itemAt items s.idx
  if items.length ≤ stopidx1 then closeBin items s currval else openBin items s currval stopidx1

/-- `mk_bins`: the rows of the new table. -/
def mkBins (items : List Int) (dstNR : Int) : Option (List Bin) :=
  if dstNR ≤ 1 then none
  else
    let dstNR := min dstNR items.length
    match loop (fun s => !s.closed) (binBody items (CInt.wrap 32 dstNR)) items.length
        ⟨0, items.length, [], false⟩ with
    | .done s => some s.bins
    | _ => none

/-- The value lies in the bin. -/
def Bin.Holds (b : Bin) (x : Int) : Prop := b.lb ≤ x ∧ x ≤ b.ub

instance (b : Bin) (x : Int) : Decidable (b.Holds x) := inferInstanceAs (Decidable (_ ∧ _))

/-- The bins are disjoint and not empty, in ascending order, and every item is counted in its bin. -/
structure IsBinning (items : List Int) (bins : List Bin) : Prop where
  ascending : bins.Pairwise fun b b' => b.lb < b'.lb
  nonempty : ∀ b ∈ bins, b.lb ≤ b.ub
  disjoint : bins.Pairwise fun b b' => b.ub < b'.lb
  holds : ∀ x ∈ items, ∃! b, b ∈ bins ∧ b.Holds x
  count : ∀ b ∈ bins, b.cnt = items.countP fun x => b.Holds x
  total : (bins.map Bin.cnt).sum = items.length

/-- The bin of a block. -/
def Block.bin (b : Block) : Bin := ⟨b.lbVal, b.ubVal, b.vals.length⟩

/-- All values of a block are less than all values of the blocks behind it. -/
def Separated (blocks : List Block) : Prop :=
  blocks.Pairwise fun b b' => ∀ x ∈ b.vals, ∀ y ∈ b'.vals, x < y

section

variable {items rest : List Int} {blocks : List Block} {b b' : Block} {x : Int} {wanted : Int}
  {s : BinState} {n : Nat}

/-! ### The bins of separated blocks -/

lemma Block.lbVal_le_ubVal (hb : b.vals.Pairwise (· ≤ ·)) : b.lbVal ≤ b.ubVal :=
  (b.covers_of_mem hb b.ubVal_mem).1

lemma separated_disjoint (hsep : Separated blocks) :
    (blocks.map Block.bin).Pairwise fun b b' => b.ub < b'.lb := by
  refine List.pairwise_map.mpr (hsep.imp fun {b b'} h => ?_)
  exact h b.ubVal b.ubVal_mem b'.lbVal b'.lbVal_mem

lemma bins_nonempty (hitems : (valsOf blocks).Pairwise (· ≤ ·)) :
    ∀ b ∈ blocks.map Block.bin, b.lb ≤ b.ub := by
  intro b' hb'
  obtain ⟨b, hb, rfl⟩ := List.mem_map.mp hb'
  exact Block.lbVal_le_ubVal (block_sorted hitems hb)

lemma bins_ascending (hitems : (valsOf blocks).Pairwise (· ≤ ·)) (hsep : Separated blocks) :
    (blocks.map Block.bin).Pairwise fun b b' => b.lb < b'.lb := by
  refine (separated_disjoint hsep).imp_of_mem fun {b b'} hb _ hlt => ?_
  exact lt_of_le_of_lt (bins_nonempty hitems b hb) hlt

/-- In disjoint bins a value lies in one bin at most. -/
lemma bin_unique {bins : List Bin} (hdis : bins.Pairwise fun b b' => b.ub < b'.lb) {b b' : Bin}
    (hb : b ∈ bins) (hb' : b' ∈ bins) (hx : b.Holds x) (hx' : b'.Holds x) : b = b' := by
  have hsymm : Std.Symm fun b b' : Bin => ¬ (b.Holds x ∧ b'.Holds x) :=
    ⟨fun b b' hnot h => hnot ⟨h.2, h.1⟩⟩
  have hpair : bins.Pairwise fun b b' => ¬ (b.Holds x ∧ b'.Holds x) :=
    hdis.imp fun {b b'} hlt h => absurd (le_trans h.2.1 h.1.2) (not_le.mpr hlt)
  by_contra hne
  exact hpair.forall hb hb' hne ⟨hx, hx'⟩

lemma holds_bin (hitems : (valsOf blocks).Pairwise (· ≤ ·)) (hb : b ∈ blocks) (hx : x ∈ b.vals) :
    b.bin.Holds x :=
  b.covers_of_mem (block_sorted hitems hb) hx

lemma bins_hold (hitems : (valsOf blocks).Pairwise (· ≤ ·)) (hsep : Separated blocks)
    (hx : x ∈ valsOf blocks) : ∃! b, b ∈ blocks.map Block.bin ∧ b.Holds x := by
  obtain ⟨b, hb, hxb⟩ := mem_valsOf_iff.mp hx
  refine ⟨b.bin, ⟨List.mem_map_of_mem hb, holds_bin hitems hb hxb⟩, ?_⟩
  rintro b' ⟨hb', hx'⟩
  exact bin_unique (separated_disjoint hsep) hb' (List.mem_map_of_mem hb) hx' (holds_bin hitems hb hxb)

/-- No value of the blocks around a block lies in its bin. -/
lemma bin_count (hitems : (valsOf blocks).Pairwise (· ≤ ·)) (hsep : Separated blocks) (hb : b ∈ blocks) :
    b.bin.cnt = (valsOf blocks).countP fun x => b.bin.Holds x := by
  have hall : b.vals.countP (fun x => b.bin.Holds x) = b.vals.length :=
    List.countP_eq_length.mpr fun x hx => decide_eq_true (holds_bin hitems hb hx)
  obtain ⟨pre, post, rfl⟩ := List.append_of_mem hb
  obtain ⟨-, hpost, hpre⟩ := List.pairwise_append.mp hsep
  have hbelow : (valsOf pre).countP (fun x => b.bin.Holds x) = 0 := by
    refine List.countP_eq_zero.mpr fun x hx hin => ?_
    obtain ⟨b', hb', hxb'⟩ := mem_valsOf_iff.mp hx
    have hlt := hpre b' hb' b List.mem_cons_self x hxb' b.lbVal b.lbVal_mem
    exact absurd (of_decide_eq_true hin).1 (not_le.mpr hlt)
  have habove : (valsOf post).countP (fun x => b.bin.Holds x) = 0 := by
    refine List.countP_eq_zero.mpr fun x hx hin => ?_
    obtain ⟨b', hb', hxb'⟩ := mem_valsOf_iff.mp hx
    have hlt := (List.pairwise_cons.mp hpost).1 b' hb' b.ubVal b.ubVal_mem x hxb'
    exact absurd (of_decide_eq_true hin).2 (not_le.mpr hlt)
  have hcol : valsOf (pre ++ b :: post) = valsOf pre ++ (b.vals ++ valsOf post) := valsOf_append
  rw [hcol, List.countP_append, List.countP_append, hbelow, hall, habove, Nat.zero_add, Nat.add_zero]
  rfl

lemma bins_total (blocks : List Block) :
    ((blocks.map Block.bin).map Bin.cnt).sum = (valsOf blocks).length := by
  induction blocks with
  | nil => rfl
  | cons b blocks ih =>
    have hcol : valsOf (b :: blocks) = b.vals ++ valsOf blocks := rfl
    rw [List.map_cons, List.map_cons, List.sum_cons, ih, hcol, List.length_append, Nat.cast_add]
    rfl

/-- Separated blocks of an ascending column are a binning. -/
lemma isBinning_of_separated (hitems : (valsOf blocks).Pairwise (· ≤ ·)) (hsep : Separated blocks) :
    IsBinning (valsOf blocks) (blocks.map Block.bin) where
  ascending := bins_ascending hitems hsep
  nonempty := bins_nonempty hitems
  disjoint := separated_disjoint hsep
  holds := fun _ hx => bins_hold hitems hsep hx
  count := by
    intro b' hb'
    obtain ⟨b, hb, rfl⟩ := List.mem_map.mp hb'
    exact bin_count hitems hsep hb
  total := bins_total blocks

/-! ### The loop -/

/-- The blocks of the bins, and the items that are left. -/
structure Binned (items : List Int) (blocks : List Block) (rest : List Int) : Prop where
  items_eq : items = valsOf blocks ++ rest
  separated : Separated blocks
  rest_gt : ∀ x ∈ valsOf blocks, ∀ y ∈ rest, x < y

/-- While the loop goes on there are items left, and bins to be made. -/
inductive BinInv (items : List Int) (wanted : Nat) : BinState → Prop where
  | left (blocks : List Block) (rest : List Int) (hbin : Binned items blocks rest) (hrest : rest ≠ [])
      (hlt : blocks.length < wanted) :
      BinInv items wanted ⟨(valsOf blocks).length, rest.length, blocks.map Block.bin, false⟩
  | closed (blocks : List Block) (hbin : Binned items blocks []) (hne : blocks ≠ [])
      (hle : blocks.length ≤ wanted) (idx numItemsLeft : Int) :
      BinInv items wanted ⟨idx, numItemsLeft, blocks.map Block.bin, true⟩

lemma Binned.snoc (h : Binned items blocks (b.vals ++ rest)) (hlt : ∀ x ∈ b.vals, ∀ y ∈ rest, x < y) :
    Binned items (blocks ++ [b]) rest := by
  have hcol : valsOf (blocks ++ [b]) = valsOf blocks ++ b.vals := by
    rw [valsOf_append]
    simp [valsOf]
  refine ⟨by rw [h.items_eq, hcol, List.append_assoc], ?_, ?_⟩
  · refine List.pairwise_append.mpr ⟨h.separated, List.pairwise_singleton _ _, ?_⟩
    intro b' hb' b'' hb'' x hx y hy
    rw [List.mem_singleton] at hb''
    subst hb''
    exact h.rest_gt x (mem_valsOf_iff.mpr ⟨b', hb', hx⟩) y (List.mem_append_left _ hy)
  · intro x hx y hy
    rw [hcol, List.mem_append] at hx
    obtain hx | hx := hx
    · exact h.rest_gt x hx y (List.mem_append_right _ hy)
    · exact hlt x hx y hy

/-- The share is at least one item, and all items for the last bin. -/
lemma binSize_spec {left : Nat} (numBins : Nat) (hleft : 0 < left) (hlt : left < 2 ^ 31) :
    ∃ size : Nat, binSize left numBins = size ∧ 0 < size ∧ size ≤ left ∧ (numBins = 1 → size = left) := by
  obtain ⟨share, hshare⟩ : ∃ share, share = left / numBins := ⟨_, rfl⟩
  have hle : share ≤ left := hshare ▸ Nat.div_le_self left numBins
  have hall : numBins = 1 → share = left := fun h => by rw [hshare, h, Nat.div_one]
  have hdiv : (left : Int).tdiv numBins = share := by
    rw [hshare]
    rfl
  have hwrap : CInt.wrap 32 (share : Int) = share := CInt.wrap_of_lt (by omega) (by omega)
  unfold binSize
  rw [hdiv, hwrap]
  by_cases hzero : share = 0
  · refine ⟨1, by rw [hzero]; rfl, Nat.one_pos, hleft, fun h => ?_⟩
    have hone := hall h
    omega
  · exact ⟨share, if_neg (by omega), by omega, hle, hall⟩

/-- The last bin holds what is left. -/
lemma closeBin_spec (h : Binned items blocks rest) (hrest : rest ≠ []) :
    closeBin items ⟨(valsOf blocks).length, rest.length, blocks.map Block.bin, false⟩ (rest.head hrest) =
      some ⟨(valsOf blocks).length, rest.length, (blocks ++ [Block.mk rest hrest]).map Block.bin, true⟩ := by
  have hlen : items.length = (valsOf blocks).length + rest.length := by
    rw [h.items_eq, List.length_append]
  have hpos : 0 < rest.length := List.length_pos_iff.mpr hrest
  have hlast : itemAt items (items.length - 1) = some (rest.getLast hrest) := by
    rw [show (items.length : Int) - 1 = (items.length - 1 : Nat) by omega, itemAt_natCast,
      ← List.getLast?_eq_getElem?, h.items_eq, List.getLast?_append,
      List.getLast?_eq_some_getLast hrest, Option.some_or]
  -- the bin before is below the items that are left
  have hnew : ¬ (blocks.map Block.bin).getLast?.map Bin.lb = some (rest.head hrest) := by
    intro heq
    rw [List.getLast?_map, Option.map_map] at heq
    obtain ⟨b, hb, hlb⟩ := Option.map_eq_some_iff.mp heq
    have hmem : b.lbVal ∈ valsOf blocks :=
      mem_valsOf_iff.mpr ⟨b, List.mem_of_getLast? hb, b.lbVal_mem⟩
    have hlt := h.rest_gt b.lbVal hmem (rest.head hrest) (List.head_mem hrest)
    have hlb' : b.lbVal = rest.head hrest := hlb
    omega
  have hcnt : (items.length : Int) - (valsOf blocks).length = rest.length := by omega
  simp only [closeBin, hlast, Option.bind_eq_bind, Option.bind_some, if_neg hnew, hcnt, List.map_append,
    List.map_cons, List.map_nil]
  rfl

/-- The items are cut behind the last occurrence of the value. -/
lemma binSearch_cut {X : List Int} {key : Int} (hX : X.Pairwise (· ≤ ·)) (hmem : key ∈ X) :
    ∃ front tail, X = front ++ key :: tail ∧ binSearch X key .highest = some (front.length : Int) ∧
      (∀ x ∈ front ++ [key], x ≤ key) ∧ ∀ y ∈ tail, key < y := by
  obtain ⟨p, hpos, hp, hgt⟩ := binSearch_highest hX hmem
  obtain ⟨hlt, hkey⟩ := List.getElem?_eq_some_iff.mp hp
  have hsplit : X = X.take p ++ key :: X.drop (p + 1) := by
    rw [← hkey, ← List.drop_eq_getElem_cons hlt, List.take_append_drop]
  refine ⟨X.take p, X.drop (p + 1), hsplit, ?_, ?_, hgt⟩
  · rw [hpos, List.length_take_of_le (Nat.le_of_lt hlt)]
  · intro x hx
    rw [hsplit, List.pairwise_append] at hX
    obtain hx | hx := List.mem_append.mp hx
    · exact hX.2.2 x hx key List.mem_cons_self
    · exact (List.mem_singleton.mp hx).le

/-- What `openBin` does once the binary search has stopped at the last of the items that equal `key`. -/
lemma openBin_eq (hlen : items.length < 2 ^ 31) (h : Binned items blocks rest) (hrest : rest ≠ []) {size : Nat}
    {key : Int} {front tail : List Int} {b : Block} (hb : b.vals = front ++ [key]) (hsplit : rest = b.vals ++ tail)
    (hnext : itemAt items ((valsOf blocks).length + size) = some key)
    (hpos : binSearch rest key .highest = some (front.length : Int)) (hge : size ≤ front.length) :
    openBin items ⟨(valsOf blocks).length, rest.length, blocks.map Block.bin, false⟩ (rest.head hrest)
        ((valsOf blocks).length + size) =
      some ⟨(valsOf (blocks ++ [b])).length, tail.length, (blocks ++ [b]).map Block.bin, decide (tail = [])⟩ := by
  have hdrop : items.drop (valsOf blocks).length = rest := by
    rw [h.items_eq, List.drop_left]
  have hblen : b.vals.length = front.length + 1 := by
    rw [hb, List.length_append, List.length_singleton]
  have hrlen : rest.length = front.length + 1 + tail.length := by
    rw [hsplit, List.length_append, hblen]
  have hilen : items.length = (valsOf blocks).length + rest.length := by
    rw [h.items_eq, List.length_append]
  have hvals : (valsOf (blocks ++ [b])).length = (valsOf blocks).length + (front.length + 1) := by
    rw [valsOf_append, List.length_append, ← hblen]
    simp [valsOf]
  have hbin : b.bin = ⟨rest.head hrest, key, front.length + 1⟩ := by
    have hhead : b.lbVal = rest.head hrest := by
      simp only [Block.lbVal, hsplit, List.head_append_of_ne_nil b.ne_nil]
    have hlast : b.ubVal = key := by
      simp only [Block.ubVal, hb, List.getLast_concat]
    rw [Block.bin, hhead, hlast, hblen]
    rfl
  have hcnt : (front.length : Int) + (valsOf blocks).length - (valsOf blocks).length + 1 =
      front.length + 1 := by omega
  have hidx : CInt.wrap 32 ((front.length : Int) + (valsOf blocks).length + 1) =
      (valsOf (blocks ++ [b])).length := by
    rw [hvals, show (front.length : Int) + (valsOf blocks).length + 1 =
      ((valsOf blocks).length + (front.length + 1) : Nat) by omega]
    exact CInt.wrap_of_lt (by omega) (by omega)
  have hleft : (rest.length : Int) - (front.length + 1) = tail.length := by omega
  have hend : ((valsOf (blocks ++ [b])).length : Int) = items.length ↔ tail = [] := by
    rw [← List.length_eq_zero_iff]
    omega
  have hconv : decide (((valsOf (blocks ++ [b])).length : Int) = items.length) = decide (tail = []) :=
    decide_eq_decide.mpr hend
  have hmap : (blocks ++ [b]).map Block.bin =
      blocks.map Block.bin ++ [⟨rest.head hrest, key, front.length + 1⟩] := by
    rw [List.map_append, List.map_singleton, hbin]
  simp only [openBin, hnext, Option.bind_eq_bind, Option.bind_some, Int.toNat_natCast, hdrop,
    List.take_length, hpos, hcnt, hidx, hleft, hconv, hmap]
  rw [if_neg (by omega), if_neg (by omega), if_neg (by omega), if_neg (by omega)]

/-- A bin that is not the last one ends behind the last item that equals its upper bound. -/
lemma openBin_spec (hitems : items.Pairwise (· ≤ ·)) (hlen : items.length < 2 ^ 31)
    (h : Binned items blocks rest) (hrest : rest ≠ []) {size : Nat} (hsize : size < rest.length) :
    ∃ b rest', rest = b.vals ++ rest' ∧ (∀ x ∈ b.vals, ∀ y ∈ rest', x < y) ∧
      openBin items ⟨(valsOf blocks).length, rest.length, blocks.map Block.bin, false⟩ (rest.head hrest)
          ((valsOf blocks).length + size) =
        some ⟨(valsOf (blocks ++ [b])).length, rest'.length, (blocks ++ [b]).map Block.bin,
          decide (rest' = [])⟩ := by
  have hdrop : items.drop (valsOf blocks).length = rest := by
    rw [h.items_eq, List.drop_left]
  have hrestle : rest.Pairwise (· ≤ ·) := hdrop ▸ hitems.sublist (List.drop_sublist _ items)
  obtain ⟨key, hkey⟩ : ∃ key, rest[size]? = some key := ⟨_, List.getElem?_eq_getElem hsize⟩
  have hnext : itemAt items ((valsOf blocks).length + size) = some key := by
    rw [← Nat.cast_add, itemAt_natCast, ← List.getElem?_drop, hdrop, hkey]
  obtain ⟨front, tail, hcut, hpos, hle, hgt⟩ := binSearch_cut hrestle (List.mem_of_getElem? hkey)
  have hge : size ≤ front.length := by
    by_contra hlt
    obtain ⟨k, hk⟩ : ∃ k, size - front.length = k + 1 := ⟨size - front.length - 1, by omega⟩
    rw [hcut, List.getElem?_append_right (by omega), hk, List.getElem?_cons_succ] at hkey
    exact absurd (hgt key (List.mem_of_getElem? hkey)) (lt_irrefl _)
  obtain ⟨b, hb⟩ : ∃ b : Block, b.vals = front ++ [key] := ⟨⟨front ++ [key], by simp⟩, rfl⟩
  have hsplit : rest = b.vals ++ tail := by rw [hcut, hb, List.append_assoc, List.singleton_append]
  refine ⟨b, tail, hsplit, ?_, openBin_eq hlen h hrest hb hsplit hnext hpos hge⟩
  intro x hx y hy
  exact lt_of_le_of_lt (hle x (hb ▸ hx)) (hgt y hy)

/-- The number of items that are left, as long as the loop goes on. -/
def binMeasure (s : BinState) : Nat := if s.closed then 0 else s.numItemsLeft.toNat

/-- With one bin left the share is all that is left, so the loop does not run out of bins. -/
lemma BinInv.step (hitems : items.Pairwise (· ≤ ·)) (hlen : items.length < 2 ^ 31)
    (h : BinInv items n s) (hmore : (!s.closed) = true) :
    ∃ s', binBody items n s = some s' ∧ BinInv items n s' ∧ binMeasure s' < binMeasure s := by
  cases h with
  | closed => cases hmore
  | left blocks rest hbin hrest hlt =>
    have hpos : 0 < rest.length := List.length_pos_iff.mpr hrest
    have hilen : items.length = (valsOf blocks).length + rest.length := by
      rw [hbin.items_eq, List.length_append]
    have hhead : itemAt items (valsOf blocks).length = some (rest.head hrest) := by
      rw [itemAt_natCast, hbin.items_eq, List.getElem?_append_right le_rfl, Nat.sub_self,
        ← List.head?_eq_getElem?, List.head?_eq_some_head hrest]
    obtain ⟨size, hsize, hpos', hle, hall⟩ :=
      binSize_spec (n - blocks.length) hpos (by omega)
    have hbins : ((n : Int) - (blocks.map Block.bin).length) = (n - blocks.length : Nat) := by
      rw [List.length_map]
      omega
    have hmeasure : binMeasure ⟨(valsOf blocks).length, rest.length, blocks.map Block.bin, false⟩ =
        rest.length := rfl
    have hwant : ¬ (n : Int) ≤ (blocks.map Block.bin).length := by
      rw [List.length_map]
      omega
    simp only [binBody, if_neg hwant, hbins, hsize, hhead, Option.bind_eq_bind, Option.bind_some]
    by_cases hclose : (items.length : Int) ≤ (valsOf blocks).length + size
    · refine ⟨_, by rw [if_pos hclose]; exact closeBin_spec hbin hrest, ?_, ?_⟩
      · have hbin' : Binned items (blocks ++ [Block.mk rest hrest]) [] :=
          Binned.snoc (by rwa [List.append_nil]) (by simp)
        refine .closed _ hbin' (by simp) ?_ _ _
        rw [List.length_append, List.length_singleton]
        omega
      · rw [hmeasure]
        exact hpos
    · obtain ⟨b, rest', hsplit, hsep, hrun⟩ := openBin_spec hitems hlen hbin hrest (show size < rest.length by omega)
      have hbin' : Binned items (blocks ++ [b]) rest' := (hsplit ▸ hbin).snoc hsep
      have hlast : n - blocks.length ≠ 1 := fun hone => absurd (hall hone) (by omega)
      have hcount : (blocks ++ [b]).length = blocks.length + 1 := by
        rw [List.length_append, List.length_singleton]
      have hfewer : rest'.length < rest.length := by
        have hb : 0 < b.vals.length := List.length_pos_iff.mpr b.ne_nil
        rw [hsplit, List.length_append]
        omega
      refine ⟨_, by rw [if_neg hclose]; exact hrun, ?_, ?_⟩
      · by_cases hnil : rest' = []
        · subst hnil
          exact .closed _ hbin' (by simp) (by omega) _ _
        · rw [decide_eq_false hnil]
          exact .left _ _ hbin' hnil (by omega)
      · rw [hmeasure, binMeasure]
        split_ifs
        · exact hpos
        · exact hfewer

/-- `mk_bins` makes a binning of any ascending column that is not empty. -/
theorem mkBins_isBinning (items : List Int) (dstNR : Int) (hitems : items.Pairwise (· ≤ ·))
    (hsrc : 1 ≤ items.length) (hlen : items.length < 2 ^ 31) (hdst : 1 < dstNR) :
    ∃ bins, mkBins items dstNR = some bins ∧ 1 ≤ bins.length ∧
      (bins.length : Int) ≤ min dstNR items.length ∧ IsBinning items bins := by
  obtain ⟨n, hn⟩ : ∃ n : Nat, min dstNR items.length = n := Int.eq_ofNat_of_zero_le (by omega)
  have hwrap : CInt.wrap 32 (n : Int) = n := CInt.wrap_of_lt (by omega) (by omega)
  have hbin : Binned items [] items := ⟨rfl, List.Pairwise.nil, by simp [valsOf]⟩
  have hstart : BinInv items n ⟨0, items.length, [], false⟩ :=
    .left [] items hbin (List.length_pos_iff.mp hsrc) (by rw [List.length_nil]; omega)
  have hmeasure : binMeasure ⟨0, items.length, [], false⟩ ≤ items.length := le_rfl
  obtain ⟨s, hloop, hinv, hstop⟩ :=
    loop_finishes (fun _ h hmore => BinInv.step hitems hlen h hmore) hstart hmeasure
  have hrun : mkBins items dstNR = some s.bins := by
    simp only [mkBins, if_neg (not_le.mpr hdst), hn, hwrap, hloop]
  cases hinv with
  | left => cases hstop
  | closed blocks hbin hne hle idx numItemsLeft =>
    have heq : items = valsOf blocks := by
      rw [hbin.items_eq, List.append_nil]
    refine ⟨_, hrun, ?_, ?_, ?_⟩
    · rw [List.length_map]
      exact List.length_pos_iff.mpr hne
    · rw [hn, List.length_map]
      omega
    · rw [heq] at hitems ⊢
      exact isBinning_of_separated hitems hbin.separated

/-- Two bins for the values 1, 1, 1, 2: the first one takes all ones. -/
theorem mkBins_isBinning_four :
    ∃ bins, mkBins [1, 1, 1, 2] 2 = some bins ∧ 1 ≤ bins.length ∧
      (bins.length : Int) ≤ min 2 ([1, 1, 1, 2] : List Int).length ∧ IsBinning [1, 1, 1, 2] bins :=
  mkBins_isBinning [1, 1, 1, 2] 2 (by decide) (by decide) (by decide) (by decide)

end

end Datacl
