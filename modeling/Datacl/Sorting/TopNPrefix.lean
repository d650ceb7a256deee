import Datacl.Sorting.TopNKept
import Mathlib.Data.List.Sort

/-!
# The heap of `top_n` after every row

`kk` is an `int`, and so are `2 * kk + 1` and `2 * kk + 2`: the loop is as the code has it, with checked
accesses. Up to `2 ^ 30` slots nothing overflows, and after every prefix of the rows the slots hold the
greatest values of the prefix. From there on the first row already leaves the arrays.
-/

namespace Datacl

open CInt MinHeap

/-- A read at an `int` index. -/
def slotAt (h : List Slot) (i : Int) : Option Slot := if i < 0 then none else h[i.toNat]?

/-- `sinkLoop` with the indices of the code. -/
def sinkLoopI4 : Nat → Int → List Slot → Option (List Slot)
  | 0, _, _ => none
  | fuel + 1, kk, h =>
    let left := wrap 32 (2 * kk + 1)
    let right := wrap 32 (2 * kk + 2)
    if right < h.length then
      match slotAt h kk, slotAt h left, slotAt h right with
      | some p, some l, some r =>
        if l.1 < p.1 ∧ l.1 ≤ r.1 then
          sinkLoopI4 fuel left ((h.set kk.toNat l).set left.toNat (p.1, wrap 32 p.2))
        else if r.1 < p.1 ∧ r.1 ≤ l.1 then
          sinkLoopI4 fuel right ((h.set kk.toNat r).set right.toNat (p.1, wrap 32 p.2))
        else some h
      | _, _, _ => none
    else some h

/-- One row. -/
def topNRowI4 (args : TopNArgs) (h : List Slot) (ii : Nat) : Option (List Slot) :=
  if args.uses ii then
    match args.x[ii]?, h[0]? with
    | some xi, some root => if root.1 ≤ xi then sinkLoopI4 h.length 0 (h.set 0 (xi, ii)) else some h
    | _, _ => none
  else some h

/-- The rows from the first on. -/
def topNRowsI4 (args : TopNArgs) : List Nat → List Slot → Option (List Slot)
  | [], h => some h
  | ii :: rows, h => (topNRowI4 args h ii).bind (topNRowsI4 args rows)

/-- The elements of the first `p` rows that are not skipped. -/
def TopNArgs.selectedValues (args : TopNArgs) (p : Nat) : List Int :=
  (List.range p).filterMap (fun ii => if args.uses ii then args.x[ii]? else none)

/-- The `m` largest of some values. -/
def largest (m : Nat) (l : List Int) : List Int := (l.insertionSort (· ≥ ·)).take m

/-! ### Indices that do not overflow -/

lemma slotAt_natCast (h : List Slot) (i : Nat) : slotAt h i = h[i]? := by
  rw [slotAt, if_neg (by omega), Int.toNat_natCast]

lemma sinkLoopI4_eq {fuel k : Nat} {h : List Slot} (hk : k < h.length) (hm : h.length < 2 ^ 30) :
    sinkLoopI4 fuel k h = sinkLoop fuel k h := by
  induction fuel generalizing k h with
  | zero => rfl
  | succ fuel ih =>
    have hleft : wrap 32 (2 * (k : Int) + 1) = ((2 * k + 1 : Nat) : Int) := by
      push_cast
      exact wrap_of_lt (by omega) (by omega)
    have hright : wrap 32 (2 * (k : Int) + 2) = ((2 * k + 2 : Nat) : Int) := by
      push_cast
      exact wrap_of_lt (by omega) (by omega)
    rw [sinkLoopI4, sinkLoop]
    simp only [hleft, hright, slotAt_natCast, Int.toNat_natCast, Int.ofNat_lt]
    by_cases hin : 2 * k + 2 < h.length
    · obtain ⟨p, hp⟩ : ∃ p, h[k]? = some p := ⟨_, List.getElem?_eq_getElem hk⟩
      obtain ⟨l, hl⟩ : ∃ l, h[2 * k + 1]? = some l := ⟨_, List.getElem?_eq_getElem (by omega)⟩
      obtain ⟨r, hr⟩ : ∃ r, h[2 * k + 2]? = some r := ⟨_, List.getElem?_eq_getElem hin⟩
      have hlen : ∀ (i : Nat) (s s' : Slot), ((h.set k s).set i s').length = h.length := by
        intro i s s'
        rw [List.length_set, List.length_set]
      have hdown : ∀ (i : Nat) (s s' : Slot), i < h.length →
          sinkLoopI4 fuel i ((h.set k s).set i s') = sinkLoop fuel i ((h.set k s).set i s') := by
        intro i s s' hi
        apply ih
        · rwa [hlen]
        · rwa [hlen]
      simp only [if_pos hin, hp, hl, hr, hdown (2 * k + 1) _ _ (by omega), hdown (2 * k + 2) _ _ hin]
    · rw [if_neg hin, if_neg hin]

lemma topNRowI4_eq {args : TopNArgs} {h : List Slot} (hpos : 0 < h.length) (hm : h.length < 2 ^ 30)
    (i : Nat) : topNRowI4 args h i = topNRow args h i := by
  have hsink : ∀ slot : Slot, sinkLoopI4 h.length 0 (h.set 0 slot) = sinkLoop h.length 0 (h.set 0 slot) := by
    intro slot
    apply sinkLoopI4_eq (k := 0)
    · rwa [List.length_set]
    · rwa [List.length_set]
  rw [topNRowI4, topNRow]
  split_ifs
  · cases args.x[i]? with
    | none => rfl
    | some xi =>
      cases h[0]? with
      | none => rfl
      | some root => simp only [hsink]
  · rfl

/-- With less than `2 ^ 30` slots the indices of the code are the ones that are meant. -/
lemma topNRowsI4_eq {args : TopNArgs} {h : List (Option Nat)} {t : List Slot} (hh : Holds args h t)
    (hpos : 0 < h.length) (hm : h.length < 2 ^ 30) {rows : List Nat} (hrows : ∀ i ∈ rows, i < args.x.length) :
    topNRowsI4 args rows t = topNRows args rows t := by
  induction rows generalizing h t with
  | nil => rfl
  | cons i rows ih =>
    obtain ⟨hi, hrows⟩ := List.forall_mem_cons.mp hrows
    obtain ⟨t₁, hrow, hh₁⟩ := topNRow_spec hh hpos hi
    have hlen : (if args.uses i then offer args.key h (some i) else h).length = h.length := by
      split_ifs
      · rw [length_offer]
      · rfl
    have hlt : t.length < 2 ^ 30 := by rwa [hh.length_eq]
    rw [topNRowsI4, topNRows, topNRowI4_eq (by rwa [hh.length_eq]) hlt, hrow, Option.bind_some,
      Option.bind_some]
    exact ih hh₁ (by rwa [hlen]) (by rwa [hlen]) hrows

/-! ### The rows of a prefix -/

section

variable {args : TopNArgs} {m p : Nat}

/-- The rows of the prefix that are not skipped. -/
def TopNArgs.prefixRows (args : TopNArgs) (p : Nat) : List Nat := (List.range p).filter args.uses

/-- The heap of `m` nodes after the prefix. -/
def TopNArgs.prefixHeap (args : TopNArgs) (m p : Nat) : List (Option Nat) :=
  offerAll args.key (List.replicate m none) ((args.prefixRows p).map some)

lemma selectedValues_eq (hp : p ≤ args.x.length) :
    args.selectedValues p = (args.prefixRows p).map (fun i => args.key (some i)) := by
  have hrow : ∀ i ∈ List.range p, (if args.uses i then args.x[i]? else none) =
      (Option.guard (fun j => args.uses j) i).map (fun j => args.key (some j)) := by
    intro i hi
    have hlt : i < args.x.length := (List.mem_range.mp hi).trans_le hp
    have hkey : args.x[i]? = some (args.key (some i)) := by
      simp only [TopNArgs.key, List.getElem?_eq_getElem hlt, Option.getD_some]
    rw [Option.guard, hkey]
    split_ifs
    · rfl
    · rfl
  rw [TopNArgs.selectedValues, List.filterMap_congr hrow, TopNArgs.prefixRows, ← List.filterMap_eq_filter,
    List.map_filterMap]

/-- What the heap has dropped. -/
lemma prefixHeap_spec (args : TopNArgs) (hodd : m % 2 = 1) (p : Nat) :
    ∃ outs, IsHeap args.key (args.prefixHeap m p) ∧ (args.prefixHeap m p).length = m ∧
      (outs ++ args.prefixHeap m p).Perm ((args.prefixRows p).map some ++ List.replicate m none) ∧
      ∀ a ∈ outs, ∀ b ∈ args.prefixHeap m p, args.key a ≤ args.key b :=
  offerRows_spec args hodd (args.prefixRows p)

/-- The greatest values of a list are what is left when lesser ones are dropped. -/
lemma largest_perm {outs kept all : List Int} (hperm : (outs ++ kept).Perm all)
    (hle : ∀ a ∈ outs, ∀ b ∈ kept, a ≤ b) : (largest kept.length all).Perm kept := by
  have hkept := List.perm_insertionSort (· ≥ ·) kept
  have houts := List.perm_insertionSort (· ≥ ·) outs
  have hsorted : (kept.insertionSort (· ≥ ·) ++ outs.insertionSort (· ≥ ·)).Pairwise (· ≥ ·) := by
    rw [List.pairwise_append]
    refine ⟨List.pairwise_insertionSort _ _, List.pairwise_insertionSort _ _, ?_⟩
    intro b hb a ha
    exact hle a (houts.mem_iff.mp ha) b (hkept.mem_iff.mp hb)
  have hall : all.insertionSort (· ≥ ·) = kept.insertionSort (· ≥ ·) ++ outs.insertionSort (· ≥ ·) := by
    apply List.Perm.eq_of_pairwise' (List.pairwise_insertionSort _ _) hsorted
    calc (all.insertionSort (· ≥ ·)).Perm all := List.perm_insertionSort _ _
      _ |>.Perm (outs ++ kept) := hperm.symm
      _ |>.Perm (kept ++ outs) := List.perm_append_comm
      _ |>.Perm _ := (hkept.append houts).symm
  rw [largest, hall, List.take_left' hkept.length_eq]
  exact hkept

/-- The nodes of the heap are rows of the prefix, each at most once, and empty nodes. -/
lemma mem_prefixHeap (hodd : m % 2 = 1) {r : Nat} (hr : some r ∈ args.prefixHeap m p) :
    r ∈ args.prefixRows p := by
  obtain ⟨outs, -, -, hperm, -⟩ := prefixHeap_spec args hodd p
  have hmem := hperm.mem_iff.mp (List.mem_append_right _ hr)
  rw [List.mem_append, List.mem_map] at hmem
  obtain ⟨i, hi, heq⟩ | hnone := hmem
  · rwa [← Option.some.inj heq]
  · cases List.eq_of_mem_replicate hnone

lemma nodup_prefixHeap (hodd : m % 2 = 1) : ((args.prefixHeap m p).filterMap id).Nodup := by
  obtain ⟨outs, -, -, hperm, -⟩ := prefixHeap_spec args hodd p
  have hrows := hperm.filterMap id
  rw [List.filterMap_append, List.filterMap_append, filterMap_id_map_some, filterMap_id_replicate,
    List.append_nil] at hrows
  have hnodup : (args.prefixRows p).Nodup := List.nodup_range.filter _
  exact (List.nodup_append.mp (hrows.nodup_iff.mpr hnodup)).2.1

/-- Row numbers below `2 ^ 31` survive the way through `temp`. -/
lemma Holds.slot_eq {h : List (Option Nat)} {t : List Slot} (hh : Holds args h t)
    (hrow : ∀ r, some r ∈ h → r < 2 ^ 31) : t = h.map (fun a => (args.key a, rowNo a)) := by
  have hwrap : ∀ a ∈ h, wrap 32 (rowNo a) = rowNo a := by
    intro a ha
    cases a with
    | none => exact wrap_of_mem (by rw [rowNo]; omega) (by rw [rowNo]; omega)
    | some r =>
      have hlt := hrow r ha
      exact wrap_of_lt (by rw [rowNo]; omega) (by rw [rowNo]; omega)
  apply List.ext_getElem?
  intro i
  rw [List.getElem?_map]
  by_cases hi : i < h.length
  · have hit : i < t.length := by rwa [hh.length_eq]
    rw [List.getElem?_eq_getElem hi, List.getElem?_eq_getElem hit, Option.map_some]
    obtain ⟨hval, hno⟩ := hh.stored i h[i] t[i] (List.getElem?_eq_getElem hi) (List.getElem?_eq_getElem hit)
    rw [hwrap _ (List.getElem_mem hi)] at hno
    have hno' : t[i].2 = rowNo h[i] := hno.elim id And.right
    rw [← hval, ← hno']
  · rw [List.getElem?_eq_none (not_lt.mp hi), List.getElem?_eq_none (by rw [hh.length_eq]; omega)]
    rfl

lemma isHeap_map {h : List (Option Nat)} (hheap : IsHeap args.key h) : IsHeap id (h.map args.key) := by
  intro i c a b hc ha hb
  rw [List.getElem?_map, Option.map_eq_some_iff] at ha hb
  obtain ⟨x, hx, rfl⟩ := ha
  obtain ⟨y, hy, rfl⟩ := hb
  exact hheap i c x y hc hx hy

/-- Of the row numbers the nonnegative ones are those of the nodes that are not empty. -/
lemma filter_rowNo (h : List (Option Nat)) :
    (h.map rowNo).filter (fun i => decide (0 ≤ i)) = (h.filterMap id).map (fun r : Nat => (r : Int)) := by
  induction h with
  | nil => rfl
  | cons a h ih =>
    cases a with
    | none =>
      rw [List.map_cons, List.filter_cons_of_neg (by decide), List.filterMap_cons_none rfl, ih]
    | some r =>
      have hpos : decide (0 ≤ rowNo (some r)) = true := decide_eq_true (Int.natCast_nonneg r)
      rw [List.map_cons, List.filter_cons, if_pos hpos, filterMap_id_cons_some, List.map_cons, ih]
      rfl

end

/-- The values in the heap are the greatest ones of the prefix, with `INT_MIN` for each empty node. -/
lemma prefixHeap_values {args : TopNArgs} {m p : Nat} (hodd : m % 2 = 1) (hp : p ≤ args.x.length) :
    ((args.prefixHeap m p).map args.key).Perm
      (largest m (args.selectedValues p ++ List.replicate m (-2 ^ 31))) := by
  obtain ⟨outs, -, hlen, hperm, hout⟩ := prefixHeap_spec args hodd p
  have hvals := hperm.map args.key
  rw [List.map_append, List.map_append, List.map_map, List.map_replicate] at hvals
  have hle : ∀ a ∈ outs.map args.key, ∀ b ∈ (args.prefixHeap m p).map args.key, a ≤ b := by
    intro a ha b hb
    obtain ⟨a', ha', rfl⟩ := List.mem_map.mp ha
    obtain ⟨b', hb', rfl⟩ := List.mem_map.mp hb
    exact hout a' ha' b' hb'
  have hlargest := largest_perm hvals hle
  rw [List.length_map, hlen] at hlargest
  rw [selectedValues_eq hp]
  exact hlargest.symm

/-- After every prefix the slots are a heap of the greatest values, each with its row. -/
theorem topNRowsI4_prefix (args : TopNArgs) (hsiz : args.x.length < 2 ^ 31) {m : Nat} (hodd : m % 2 = 1)
    (hm : m < 2 ^ 30) {p : Nat} (hp : p ≤ args.x.length) :
    ∃ t, topNRowsI4 args (List.range p) (List.replicate m (-2 ^ 31, -1)) = some t ∧ t.length = m ∧
      IsHeap id (t.map Prod.fst) ∧
      (t.map Prod.fst).Perm (largest m (args.selectedValues p ++ List.replicate m (-2 ^ 31))) ∧
      (∀ slot ∈ t, 0 ≤ slot.2 → args.x[slot.2.toNat]? = some slot.1) ∧
      ((t.map Prod.snd).filter (fun i => decide (0 ≤ i))).Nodup := by
  have hstart := Holds.start args m
  have hlen : (List.replicate m (none : Option Nat)).length = m := List.length_replicate
  have hrows : ∀ i ∈ List.range p, i < args.x.length := fun i hi => (List.mem_range.mp hi).trans_le hp
  obtain ⟨t, hrun, hh⟩ := topNRows_spec hstart (by omega) hrows
  have hhh : Holds args (args.prefixHeap m p) t := hh
  obtain ⟨-, hheap, hlen', -⟩ := prefixHeap_spec args hodd p
  have hinside : ∀ r, some r ∈ args.prefixHeap m p → r < args.x.length := by
    intro r hr
    exact hrows r (List.mem_of_mem_filter (mem_prefixHeap hodd hr))
  have ht := hhh.slot_eq fun r hr => (hinside r hr).trans hsiz
  have hfst : t.map Prod.fst = (args.prefixHeap m p).map args.key := by
    rw [ht, List.map_map]
    rfl
  have hsnd : t.map Prod.snd = (args.prefixHeap m p).map rowNo := by
    rw [ht, List.map_map]
    rfl
  refine ⟨t, ?_, by rw [hhh.length_eq, hlen'], ?_, ?_, ?_, ?_⟩
  · rw [topNRowsI4_eq hstart (by omega) (by omega) hrows, hrun]
  · rw [hfst]
    exact isHeap_map hheap
  · rw [hfst]
    exact prefixHeap_values hodd hp
  · intro slot hslot hno
    rw [ht, List.mem_map] at hslot
    obtain ⟨a, ha, rfl⟩ := hslot
    cases a with
    | none =>
      simp only [rowNo] at hno
      omega
    | some r =>
      simp only [rowNo, Int.toNat_natCast, TopNArgs.key]
      rw [List.getElem?_eq_getElem (hinside r ha), Option.getD_some]
  · rw [hsnd, filter_rowNo]
    exact (nodup_prefixHeap hodd).map Nat.cast_injective

/-- Three slots, the second row is skipped. -/
def topNThree : TopNArgs := ⟨[4, 9, 2, 7, 4], some [1, 0, 1, 1, 1], by decide⟩

theorem topNRowsI4_prefix_three :
    ∃ t, topNRowsI4 topNThree (List.range 4) (List.replicate 3 (-2 ^ 31, -1)) = some t ∧ t.length = 3 ∧
      IsHeap id (t.map Prod.fst) ∧
      (t.map Prod.fst).Perm (largest 3 (topNThree.selectedValues 4 ++ List.replicate 3 (-2 ^ 31))) ∧
      (∀ slot ∈ t, 0 ≤ slot.2 → topNThree.x[slot.2.toNat]? = some slot.1) ∧
      ((t.map Prod.snd).filter (fun i => decide (0 ≤ i))).Nodup :=
  topNRowsI4_prefix topNThree (by decide) (by decide) (by decide) (by decide)

/-! ### More than `2 ^ 30` slots -/

/-- A slot that was never filled. -/
def emptySlot : Slot := (-2 ^ 31, -1)

/-- The first value sinks along the left children. At the node `2 ^ 30 - 1` the number of the right child
overflows, so that the loop goes on, and the left child is not there. -/
lemma sinkLoopI4_outside {m : Nat} (hm : 2 ^ 30 < m) (hlt : m < 2 ^ 31) {d j k : Nat} (hj : j + d = 30)
    (hk : k + 1 = 2 ^ j) (fuel : Nat) {v : Int} (hv : -2 ^ 31 < v) (i : Int) :
    sinkLoopI4 fuel k ((List.replicate m emptySlot).set k (v, i)) = none := by
  induction d generalizing j k fuel i with
  | zero =>
    obtain rfl : j = 30 := hj
    cases fuel with
    | zero => rfl
    | succ fuel =>
      have hright : wrap 32 (2 * (k : Int) + 2) = -2 ^ 31 := by
        rw [wrap_of_ge (w := 31) (by omega) (by omega)]
        omega
      have hleft : wrap 32 (2 * (k : Int) + 1) = ((2 * k + 1 : Nat) : Int) := by
        push_cast
        exact wrap_of_lt (by omega) (by omega)
      have hout : ((List.replicate m emptySlot).set k (v, i))[2 * k + 1]? = none := by
        apply List.getElem?_eq_none
        rw [List.length_set, List.length_replicate]
        omega
      rw [sinkLoopI4]
      simp only [hleft, hright, slotAt_natCast, hout]
      rw [if_pos (by omega)]
      split
      next _ _ _ _ hl _ => cases hl
      next => rfl
  | succ d ih =>
    cases fuel with
    | zero => rfl
    | succ fuel =>
      have hpow : 2 * k + 2 = 2 ^ (j + 1) := by
        rw [pow_succ, ← hk]
        omega
      have hle : 2 ^ (j + 1) ≤ 2 ^ 30 := Nat.pow_le_pow_right (by omega) (by omega)
      have hleft : wrap 32 (2 * (k : Int) + 1) = ((2 * k + 1 : Nat) : Int) := by
        push_cast
        exact wrap_of_lt (by omega) (by omega)
      have hright : wrap 32 (2 * (k : Int) + 2) = ((2 * k + 2 : Nat) : Int) := by
        push_cast
        exact wrap_of_lt (by omega) (by omega)
      have hself : ((List.replicate m emptySlot).set k (v, i))[k]? = some (v, i) := by
        rw [List.getElem?_set_self (by rw [List.length_replicate]; omega)]
      have hchild : ∀ c, k < c → c < m → ((List.replicate m emptySlot).set k (v, i))[c]? = some emptySlot := by
        intro c hkc hc
        rw [List.getElem?_set_ne (by omega), List.getElem?_replicate, if_pos hc]
      have hswap : ((List.replicate m emptySlot).set k (v, i)).set k emptySlot = List.replicate m emptySlot := by
        rw [List.set_set, List.set_replicate_self]
      rw [sinkLoopI4]
      simp only [hleft, hright, slotAt_natCast, Int.toNat_natCast, hself, hchild (2 * k + 1) (by omega) (by omega),
        hchild (2 * k + 2) (by omega) (by omega), hswap]
      rw [if_pos (by rw [List.length_set, List.length_replicate]; omega), if_pos ⟨hv, le_rfl⟩]
      exact ih (j := j + 1) (by omega) (by omega) fuel _

/-- An array of more than `2 ^ 30` elements, all of them used. -/
def topNLarge : TopNArgs := ⟨List.replicate (2 ^ 30 + 2) 1, none, by intro y hy; cases hy⟩

/-- With `n = 2 ^ 30 + 1` the first row already reads outside the arrays. -/
theorem topNRowsI4_outside :
    topNLarge.x.length < 2 ^ 31 ∧ (2 ^ 30 + 1) % 2 = 1 ∧
      topNRowsI4 topNLarge (List.range 1) (List.replicate (2 ^ 30 + 1) (-2 ^ 31, -1)) = none := by
  have hlen : topNLarge.x.length = 2 ^ 30 + 2 := List.length_replicate
  have hfirst : topNLarge.x[0]? = some 1 := by
    rw [topNLarge, List.getElem?_replicate, if_pos (by omega)]
  have hroot : (List.replicate (2 ^ 30 + 1) emptySlot)[0]? = some emptySlot := by
    rw [List.getElem?_replicate, if_pos (by omega)]
  have hle : emptySlot.1 ≤ 1 := by
    rw [emptySlot]
    omega
  refine ⟨by omega, by omega, ?_⟩
  have hsink := sinkLoopI4_outside (m := 2 ^ 30 + 1) (d := 30) (j := 0) (k := 0) (by omega) (by omega) rfl rfl
    (List.replicate (2 ^ 30 + 1) emptySlot).length (v := 1) (by omega) 0
  have hrow : topNRowI4 topNLarge (List.replicate (2 ^ 30 + 1) emptySlot) 0 = none := by
    have huse : topNLarge.uses 0 = true := rfl
    rw [topNRowI4, if_pos huse]
    simp only [hfirst, hroot, if_pos hle]
    exact hsink
  rw [← emptySlot, List.range_one, topNRowsI4, hrow, Option.bind_none]

end Datacl
