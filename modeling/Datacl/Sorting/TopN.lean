import Datacl.Lib.CInt
import Datacl.Lib.MinHeap

/-!
# The greatest values: `top_n.c`

The rows are offered to a binary heap of an odd number of slots. The slots are copied in the order of
the heap, and for an even `n` the search for the slot to leave out begins with `INT_MIN`, so that it finds a
slot that was never filled, and no other one.

The heap of the code is compared with a heap of row numbers, in which nothing is stored but the rows.
-/

namespace Datacl

open MinHeap

/-- `x` and `cfld`, which is as long if it is there. -/
structure TopNArgs where
  x : List Int
  cfld : Option (List Int)
  cfld_length : ∀ y, cfld = some y → y.length = x.length

/-- The row is not skipped. -/
def TopNArgs.uses (args : TopNArgs) (ii : Nat) : Bool :=
  match args.cfld with
  | none => true
  | some cfld => decide (cfld[ii]? ≠ some 0)

/-- `temp_top_val[jj]` and `temp_idx_out[jj]`. -/
abbrev Slot := Int × Int

/-- The loop that keeps the heap. The row number goes through `temp`, which is an `int`. -/
def sinkLoop : Nat → Nat → List Slot → Option (List Slot)
  | 0, _, _ => none
  | fuel + 1, kk, h =>
    if 2 * kk + 2 < h.length then
      match h[kk]?, h[2 * kk + 1]?, h[2 * kk + 2]? with
      | some p, some l, some r =>
        if l.1 < p.1 ∧ l.1 ≤ r.1 then
          sinkLoop fuel (2 * kk + 1) ((h.set kk l).set (2 * kk + 1) (p.1, CInt.wrap 32 p.2))
        else if r.1 < p.1 ∧ r.1 ≤ l.1 then
          sinkLoop fuel (2 * kk + 2) ((h.set kk r).set (2 * kk + 2) (p.1, CInt.wrap 32 p.2))
        else some h
      | _, _, _ => none
    else some h

/-- One row. -/
def topNRow (args : TopNArgs) (h : List Slot) (ii : Nat) : Option (List Slot) :=
  if args.uses ii then
    match args.x[ii]?, h[0]? with
    | some xi, some root => if root.1 ≤ xi then sinkLoop h.length 0 (h.set 0 (xi, ii)) else some h
    | _, _ => none
  else some h

def topNRows (args : TopNArgs) : List Nat → List Slot → Option (List Slot)
  | [], h => some h
  | ii :: rows, h => (topNRow args h ii).bind (topNRows args rows)

/-- `min_val` and `min_val_loc`, for the slots from `jj` on. -/
def findMinVal : List Slot → Nat → Int × Int → Int × Int
  | [], _, found => found
  | slot :: h, jj, found => findMinVal h (jj + 1) (if slot.1 ≤ found.1 then (slot.1, jj) else found)

/-- `idx_out` and what is written of `val_out`. -/
structure TopNOut where
  idxOut : List Int
  valOut : List Int

/-- `m`. The caller has `n` at most 1024, so that `2 * kk + 2` is an `int`. -/
def heapSize (n : Nat) : Nat := if n % 2 = 0 then n + 1 else n

/-- `top_n`, with status 0. -/
def topN (args : TopNArgs) (n : Nat) : Option TopNOut :=
  if args.x.length = 0 ∨ n = 0 ∨ args.x.length - 1 < n then none
  else do
    let h ← topNRows args (List.range args.x.length) (List.replicate (heapSize n) (-2 ^ 31, -1))
    if n % 2 = 0 then
      let minValLoc := (findMinVal h 0 (-2 ^ 31, -1)).2
      if minValLoc < 0 then none
      else some ⟨(h.take minValLoc.toNat ++ h.drop (minValLoc.toNat + 1)).map Prod.snd, []⟩
    else some ⟨h.map Prod.snd, h.map Prod.fst⟩

/-! ### The heap of rows -/

/-- The value of a row; a slot that is not filled is below all rows. -/
def TopNArgs.key (args : TopNArgs) : Option Nat → Int
  | none => -2 ^ 31
  | some i => (args.x[i]?).getD 0

/-- The rows that are not skipped. -/
def TopNArgs.rows (args : TopNArgs) : List Nat := (List.range args.x.length).filter args.uses

/-- The heap of `m` nodes after all rows. -/
def TopNArgs.heap (args : TopNArgs) (m : Nat) : List (Option Nat) :=
  offerAll args.key (List.replicate m none) (args.rows.map some)

/-- What is stored for a row. -/
def rowNo : Option Nat → Int
  | none => -1
  | some i => i

section

variable {args : TopNArgs} {h : List (Option Nat)} {t : List Slot} {n k m i : Nat}

/-- The slots hold the values of the rows, and their numbers or what `temp` has left of them. -/
structure Holds (args : TopNArgs) (h : List (Option Nat)) (t : List Slot) : Prop where
  length_eq : t.length = h.length
  stored : ∀ (i : Nat) a p, h[i]? = some a → t[i]? = some p →
    p.1 = args.key a ∧ (p.2 = rowNo a ∨ 1 < h.length ∧ p.2 = CInt.wrap 32 (rowNo a))

/-- The same swap in both heaps. -/
lemma Holds.swap (hh : Holds args h t) {a b : Option Nat} {p q : Slot} {d : Nat} (hkd : k ≠ d)
    (ha : h[k]? = some a) (hb : h[d]? = some b) (hp : t[k]? = some p) (hq : t[d]? = some q) :
    Holds args ((h.set k b).set d a) ((t.set k q).set d (p.1, CInt.wrap 32 p.2)) := by
  have hk := (List.getElem?_eq_some_iff.mp ha).1
  have hd := (List.getElem?_eq_some_iff.mp hb).1
  have hlen := hh.length_eq
  refine ⟨by simp [hlen], fun i x y hx hy => ?_⟩
  rw [List.length_set, List.length_set]
  by_cases hid : i = d
  · subst hid
    rw [List.getElem?_set_self (by simpa using hd), Option.some.injEq] at hx
    rw [List.getElem?_set_self (by rw [List.length_set]; omega), Option.some.injEq] at hy
    subst hx hy
    obtain ⟨hval, hrow⟩ := hh.stored k a p ha hp
    refine ⟨hval, .inr ⟨by omega, ?_⟩⟩
    obtain hrow | ⟨-, hrow⟩ := hrow
    · rw [hrow]
    · rw [hrow]
      exact Int.bmod_bmod
  · rw [List.getElem?_set_ne (Ne.symm hid)] at hx hy
    by_cases hik : i = k
    · subst hik
      rw [List.getElem?_set_self hk, Option.some.injEq] at hx
      rw [List.getElem?_set_self (by omega), Option.some.injEq] at hy
      subst hx hy
      exact hh.stored d b q hb hq
    · rw [List.getElem?_set_ne (Ne.symm hik)] at hx hy
      exact hh.stored i x y hx hy

/-- The loop of the code sinks the row. -/
lemma sinkLoop_spec (hh : Holds args h t) (hk : k < h.length) (hn : h.length ≤ k + n) :
    ∃ t', sinkLoop n k t = some t' ∧ Holds args (siftDown args.key n k h) t' := by
  induction n generalizing k h t with
  | zero => omega
  | succ n ih =>
    have hlen := hh.length_eq
    by_cases hin : 2 * k + 2 < h.length
    · obtain ⟨a, ha⟩ : ∃ a, h[k]? = some a := ⟨_, List.getElem?_eq_getElem hk⟩
      obtain ⟨l, hl⟩ : ∃ l, h[2 * k + 1]? = some l := ⟨_, List.getElem?_eq_getElem (by omega)⟩
      obtain ⟨r, hr⟩ : ∃ r, h[2 * k + 2]? = some r := ⟨_, List.getElem?_eq_getElem hin⟩
      obtain ⟨p, hp⟩ : ∃ p, t[k]? = some p := ⟨_, List.getElem?_eq_getElem (by omega)⟩
      obtain ⟨q, hq⟩ : ∃ q, t[2 * k + 1]? = some q := ⟨_, List.getElem?_eq_getElem (by omega)⟩
      obtain ⟨s, hs⟩ : ∃ s, t[2 * k + 2]? = some s := ⟨_, List.getElem?_eq_getElem (by omega)⟩
      have hap := (hh.stored k a p ha hp).1
      have hlq := (hh.stored _ l q hl hq).1
      have hrs := (hh.stored _ r s hr hs).1
      simp only [sinkLoop, if_pos (show 2 * k + 2 < t.length by omega), hp, hq, hs, siftDown, ha, hl, hr, hap,
        hlq, hrs]
      split_ifs
      · have hswap := hh.swap (by omega) ha hl hp hq
        rw [hap] at hswap
        exact ih hswap (by simp; omega) (by simp; omega)
      · have hswap := hh.swap (by omega) ha hr hp hs
        rw [hap] at hswap
        exact ih hswap (by simp; omega) (by simp; omega)
      · exact ⟨t, rfl, hh⟩
    · have hnone : h[2 * k + 2]? = none := List.getElem?_eq_none (by omega)
      have hself : siftDown args.key (n + 1) k h = h := by
        rw [siftDown, hnone]
        split
        · cases ‹_›
        · rfl
      rw [hself]
      exact ⟨t, by rw [sinkLoop, if_neg (by omega)], hh⟩

/-- A row that is not skipped is offered. -/
lemma topNRow_spec (hh : Holds args h t) (hne : 0 < h.length) (hi : i < args.x.length) :
    ∃ t', topNRow args t i = some t' ∧
      Holds args (if args.uses i then offer args.key h (some i) else h) t' := by
  unfold topNRow
  by_cases huse : args.uses i
  · have hlen := hh.length_eq
    obtain ⟨root, hroot⟩ : ∃ a, h[0]? = some a := ⟨_, List.getElem?_eq_getElem hne⟩
    obtain ⟨p, hp⟩ : ∃ p, t[0]? = some p := ⟨_, List.getElem?_eq_getElem (by omega)⟩
    have hxi : args.x[i]? = some (args.key (some i)) := by
      rw [TopNArgs.key, List.getElem?_eq_getElem hi]
      rfl
    simp only [if_pos huse, hxi, hp, offer, hroot, (hh.stored 0 root p hroot hp).1]
    split_ifs
    · have hset : Holds args (h.set 0 (some i)) (t.set 0 (args.key (some i), (i : Int))) := by
        refine ⟨by simp [hlen], fun j x y hx hy => ?_⟩
        rw [List.length_set]
        by_cases hj : j = 0
        · subst hj
          rw [List.getElem?_set_self hne, Option.some.injEq] at hx
          rw [List.getElem?_set_self (by omega), Option.some.injEq] at hy
          subst hx hy
          exact ⟨rfl, .inl rfl⟩
        · rw [List.getElem?_set_ne (Ne.symm hj)] at hx hy
          exact hh.stored j x y hx hy
      rw [hlen]
      exact sinkLoop_spec hset (by simpa using hne) (by simp)
    · exact ⟨t, rfl, hh⟩
  · rw [if_neg huse, if_neg huse]
    exact ⟨t, rfl, hh⟩

/-- All rows. -/
lemma topNRows_spec (hh : Holds args h t) (hne : 0 < h.length) {rows : List Nat}
    (hrows : ∀ i ∈ rows, i < args.x.length) :
    ∃ t', topNRows args rows t = some t' ∧
      Holds args (offerAll args.key h ((rows.filter args.uses).map some)) t' := by
  induction rows generalizing h t with
  | nil => exact ⟨t, rfl, hh⟩
  | cons i rows ih =>
    obtain ⟨hi, hrows⟩ := List.forall_mem_cons.mp hrows
    obtain ⟨t₁, hrow, hh₁⟩ := topNRow_spec hh hne hi
    rw [List.filter_cons]
    by_cases huse : args.uses i
    · rw [if_pos huse] at hh₁ ⊢
      obtain ⟨t', hrun, hh'⟩ := ih hh₁ (by rwa [length_offer]) hrows
      exact ⟨t', by rw [topNRows, hrow, Option.bind_some, hrun], hh'⟩
    · rw [if_neg huse] at hh₁ ⊢
      obtain ⟨t', hrun, hh'⟩ := ih hh₁ hne hrows
      exact ⟨t', by rw [topNRows, hrow, Option.bind_some, hrun], hh'⟩

/-- Before the first row nothing is filled. -/
lemma Holds.start (args : TopNArgs) (m : Nat) :
    Holds args (List.replicate m none) (List.replicate m (-2 ^ 31, -1)) := by
  refine ⟨by simp, fun i a p ha hp => ?_⟩
  rw [List.eq_of_mem_replicate (List.mem_of_getElem? ha), List.eq_of_mem_replicate (List.mem_of_getElem? hp)]
  exact ⟨rfl, .inl rfl⟩

/-- The code builds the heap of the rows. -/
lemma topNRows_heap (args : TopNArgs) (hm : 0 < m) :
    ∃ t, topNRows args (List.range args.x.length) (List.replicate m (-2 ^ 31, -1)) = some t ∧
      Holds args (args.heap m) t :=
  topNRows_spec (Holds.start args m) (by simpa using hm) fun i hi => List.mem_range.mp hi

end

end Datacl
