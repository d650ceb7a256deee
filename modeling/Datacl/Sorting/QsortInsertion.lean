import Datacl.Lib.Shift
import Datacl.Sorting.QsortStack

/-!
# The insertion sort

The least element comes first, so that no element goes before it. An element is inserted byte by byte, and
after the pass for a byte this byte of every element is where it belongs.
-/

namespace Datacl

open Looping Shifting

section

variable {size : Nat} {ι β : Type} [LinearOrder β] {key : Cell size → β} {lt : Cell size → Cell size → Bool}
  {arr : SortArrays size ι} {idxBits n t r : Nat} {k : Fin size} {x y : Cell size}

/-! ### Moving bytes -/

lemma setItem_natCast {α : Type} {X : List α} {i : Nat} (hi : i < X.length) (x : α) :
    setItem X (i : Int) x = some (X.set i x) := by
  rw [setItem, if_neg (by omega), Int.toNat_natCast]

/-- The positions of the array fit in the type of the index. -/
def FitsIdx (idxBits n : Nat) : Prop := ∀ i : Nat, i < n → posOf idxBits i = i

lemma moveByte_eq {pbase : List (Cell size)} {h : Nat} (hy : pbase[h + 1]? = some y) (hx : pbase[h]? = some x) :
    moveByte k pbase ((h + 1 : Nat) : Int) (h : Nat) =
      some (pbase.set (h + 1) (Function.update y k (x k))) := by
  rw [moveByte, itemAt_natCast, itemAt_natCast, hx, hy]
  exact setItem_natCast (List.getElem?_eq_some_iff.mp hy).1 _

/-- Byte `k` of the elements from `t` to `h - 1` has moved one to the right, and in the first pass their
indexes have. -/
structure Shifted (k : Fin size) (first : Bool) (t h : Nat) (arr arr' : SortArrays size ι) : Prop where
  length_pbase : arr'.pbase.length = arr.pbase.length
  length_srtOrdr : arr'.srtOrdr.length = arr.srtOrdr.length
  outside : ∀ i, i ≤ t ∨ h < i → arr'.pbase[i]? = arr.pbase[i]?
  inside : ∀ i y x, t < i → i ≤ h → arr.pbase[i]? = some y → arr.pbase[i - 1]? = some x →
    arr'.pbase[i]? = some (Function.update y k (x k))
  ordr : ∀ i, arr'.srtOrdr[i]? =
    if first = true ∧ t < i ∧ i ≤ h then arr.srtOrdr[i - 1]? else arr.srtOrdr[i]?

lemma moveOrdr_spec {srtOrdr : List ι} (hidx : FitsIdx idxBits srtOrdr.length) (first : Bool) {g : Nat}
    (hg : g + 1 < srtOrdr.length) :
    ∃ ordr, moveOrdr idxBits first srtOrdr ((g + 1 : Nat) : Int) (g : Nat) = some ordr ∧
      ordr.length = srtOrdr.length ∧
      ∀ i, ordr[i]? = if first = true ∧ g < i ∧ i ≤ g + 1 then srtOrdr[i - 1]? else srtOrdr[i]? := by
  cases first with
  | false => exact ⟨srtOrdr, rfl, rfl, fun i => by rw [if_neg (by simp)]⟩
  | true =>
    have hread : srtOrdr[g]? = some srtOrdr[g] := List.getElem?_eq_getElem (by omega)
    refine ⟨srtOrdr.set (g + 1) srtOrdr[g], ?_, List.length_set, fun i => ?_⟩
    · rw [moveOrdr, if_pos rfl, hidx g (by omega), hidx (g + 1) hg, itemAt_natCast, hread]
      exact setItem_natCast hg _
    · by_cases hi : i = g + 1
      · rw [if_pos ⟨rfl, by omega, by omega⟩, hi, List.getElem?_set_self hg, Nat.add_sub_cancel, hread]
      · rw [if_neg (by omega), List.getElem?_set_ne (by omega)]

/-- Steps further to the left do not touch what one step has moved. -/
lemma Shifted.step {first : Bool} {g : Nat} {arr₁ arr' : SortArrays size ι} (htg : t ≤ g)
    (h : Shifted k first g (g + 1) arr arr₁) (h' : Shifted k first t g arr₁ arr') :
    Shifted k first t (g + 1) arr arr' where
  length_pbase := h'.length_pbase.trans h.length_pbase
  length_srtOrdr := h'.length_srtOrdr.trans h.length_srtOrdr
  outside := by
    intro i hi
    rw [h'.outside i (by omega), h.outside i (by omega)]
  inside := by
    intro i y x hti hih hy hx
    by_cases hlast : i = g + 1
    · rw [h'.outside i (by omega)]
      exact h.inside i y x (by omega) hih hy hx
    · exact h'.inside i y x hti (by omega) (by rw [h.outside i (by omega), hy])
        (by rw [h.outside (i - 1) (by omega), hx])
  ordr := by
    intro i
    rw [h'.ordr, h.ordr, h.ordr]
    cases first with
    | false => simp
    | true =>
      simp only [true_and]
      split_ifs <;> first | rfl | omega

/-- The loop of a pass. -/
lemma shiftLoop_spec (hidx : FitsIdx idxBits arr.pbase.length) (hlen : arr.srtOrdr.length = arr.pbase.length)
    (first : Bool) {h : Nat} (hth : t ≤ h) (hh : h < arr.pbase.length) (hn : h - t < n) :
    ∃ arr', shiftLoop idxBits k first t n h arr = some ((t : Int), arr') ∧ Shifted k first t h arr arr' := by
  induction n generalizing h arr with
  | zero => exact absurd hn (Nat.not_lt_zero _)
  | succ n ih =>
    by_cases hend : h = t
    · subst hend
      refine ⟨arr, by rw [shiftLoop, if_neg (by omega)], rfl, rfl, fun _ _ => rfl, ?_, ?_⟩
      · intro i y x hti hit
        omega
      · intro i
        rw [if_neg (by omega)]
    · obtain ⟨g, rfl⟩ : ∃ g, h = g + 1 := ⟨h - 1, by omega⟩
      obtain ⟨y, hy⟩ : ∃ y, arr.pbase[g + 1]? = some y := ⟨_, List.getElem?_eq_getElem hh⟩
      obtain ⟨x, hx⟩ : ∃ x, arr.pbase[g]? = some x := ⟨_, List.getElem?_eq_getElem (by omega)⟩
      have hpred : ((g + 1 : Nat) : Int) - 1 = (g : Nat) := by omega
      have hmove := moveByte_eq (k := k) hy hx
      obtain ⟨ordr, hordr, hordrlen, hordri⟩ :=
        moveOrdr_spec (by rwa [hlen]) first (show g + 1 < arr.srtOrdr.length by omega)
      obtain ⟨arr₁, harr₁⟩ : ∃ arr₁ : SortArrays size ι,
          arr₁ = ⟨ordr, arr.pbase.set (g + 1) (Function.update y k (x k))⟩ := ⟨_, rfl⟩
      have hone : Shifted k first g (g + 1) arr arr₁ := by
        subst harr₁
        refine ⟨List.length_set, hordrlen, fun i hi => List.getElem?_set_ne (by omega), ?_, hordri⟩
        intro i y' x' hgi hig hy' hx'
        obtain rfl : i = g + 1 := by omega
        rw [hy, Option.some.injEq] at hy'
        rw [Nat.add_sub_cancel, hx, Option.some.injEq] at hx'
        rw [List.getElem?_set_self hh, hy', hx']
      have hlen₁ : arr₁.pbase.length = arr.pbase.length := hone.length_pbase
      have hordr₁ : arr₁.srtOrdr.length = arr₁.pbase.length := by
        rw [hone.length_srtOrdr, hlen, hlen₁]
      obtain ⟨arr', hloop, hshift⟩ :=
        ih (by rwa [hlen₁]) hordr₁ (show t ≤ g by omega) (by omega) (by omega)
      refine ⟨arr', ?_, hone.step (by omega) hshift⟩
      rw [shiftLoop, hpred, if_pos (by omega)]
      simp only [hmove, hordr, Option.bind_eq_bind, Option.bind_some, ← harr₁, hloop]

/-- The bytes `ks` of every element are where they belong. -/
structure BytesMoved (ks : List (Fin size)) (t r : Nat) (pbase pbase' : List (Cell size)) : Prop where
  length_eq : pbase'.length = pbase.length
  bytes : ∀ i y x, pbase[i]? = some y → pbase[source t r i]? = some x →
    ∃ z, pbase'[i]? = some z ∧ (∀ k ∈ ks, z k = x k) ∧ ∀ k, k ∉ ks → z k = y k

lemma update_bytes (y x : Cell size) (k : Fin size) :
    (∀ j ∈ [k], Function.update y k (x k) j = x j) ∧ ∀ j, j ∉ [k] → Function.update y k (x k) j = y j := by
  constructor
  · intro j hj
    rw [List.mem_singleton.mp hj, Function.update_self]
  · intro j hj
    exact Function.update_of_ne (fun heq => hj (List.mem_singleton.mpr heq)) _ _

/-- A pass moves one byte, and the first pass moves the index. -/
lemma insertPass_spec (hidx : FitsIdx idxBits arr.pbase.length) (hlen : arr.srtOrdr.length = arr.pbase.length)
    (first : Bool) (k : Fin size) (htr : t ≤ r) (hr : r < arr.pbase.length) (sveIdx : ι) :
    ∃ arr', insertPass idxBits sveIdx t r first k arr = some arr' ∧
      BytesMoved [k] t r arr.pbase arr'.pbase ∧ arr'.srtOrdr.length = arr.srtOrdr.length ∧
      (first = false → arr'.srtOrdr = arr.srtOrdr) ∧
      (first = true → arr.srtOrdr[r]? = some sveIdx → Moved t r arr.srtOrdr arr'.srtOrdr) := by
  obtain ⟨xr, hxr⟩ : ∃ x, arr.pbase[r]? = some x := ⟨_, List.getElem?_eq_getElem hr⟩
  obtain ⟨yt, hyt⟩ : ∃ y, arr.pbase[t]? = some y := ⟨_, List.getElem?_eq_getElem (by omega)⟩
  obtain ⟨arr₁, hloop, hshift⟩ := shiftLoop_spec (k := k) hidx hlen first htr hr
    (show r - t < arr.pbase.length + 1 by omega)
  have hlen₁ : arr₁.pbase.length = arr.pbase.length := hshift.length_pbase
  have hordr₁ : arr₁.srtOrdr.length = arr.pbase.length := by rw [hshift.length_srtOrdr, hlen]
  have hyt₁ : arr₁.pbase[t]? = some yt := by rw [hshift.outside t (.inl le_rfl), hyt]
  have hset : setItem arr₁.pbase (t : Nat) (Function.update yt k (xr k)) =
      some (arr₁.pbase.set t (Function.update yt k (xr k))) := setItem_natCast (by omega) _
  have hbytes : BytesMoved [k] t r arr.pbase (arr₁.pbase.set t (Function.update yt k (xr k))) := by
    refine ⟨by rw [List.length_set, hlen₁], fun i y x hy hx => ⟨_, ?_, update_bytes y x k⟩⟩
    rcases Nat.lt_trichotomy i t with hit | rfl | hti
    · rw [source_before hit, hy, Option.some.injEq] at hx
      rw [List.getElem?_set_ne (by omega), hshift.outside i (by omega), hy, ← hx,
        Function.update_eq_self]
    · rw [source_self, hxr, Option.some.injEq] at hx
      rw [hyt, Option.some.injEq] at hy
      rw [List.getElem?_set_self (by omega), hx, hy]
    · rw [List.getElem?_set_ne (by omega)]
      by_cases hir : i ≤ r
      · rw [source_between hti hir] at hx
        exact hshift.inside i y x hti hir hy hx
      · rw [source_behind htr (by omega), hy, Option.some.injEq] at hx
        rw [hshift.outside i (by omega), hy, ← hx, Function.update_eq_self]
  cases first with
  | false =>
    have hsame : arr₁.srtOrdr = arr.srtOrdr := List.ext_getElem? fun i => by rw [hshift.ordr]; simp
    refine ⟨⟨arr₁.srtOrdr, _⟩, ?_, hbytes, hshift.length_srtOrdr, fun _ => hsame,
      fun h => absurd h Bool.false_ne_true⟩
    simp only [insertPass, itemAt_natCast, hxr, hloop, hyt₁, hset, putOrdr, Option.bind_eq_bind,
      Option.bind_some, Bool.false_eq_true, if_false]
  | true =>
    refine ⟨⟨arr₁.srtOrdr.set t sveIdx, _⟩, ?_, hbytes, by rw [List.length_set, hshift.length_srtOrdr],
      fun h => absurd h.symm Bool.false_ne_true, fun _ hsve i => ?_⟩
    · have hput : putOrdr idxBits true arr₁.srtOrdr (t : Nat) sveIdx = some (arr₁.srtOrdr.set t sveIdx) := by
        rw [putOrdr, if_pos rfl, hidx t (by omega)]
        exact setItem_natCast (by omega) _
      simp only [insertPass, itemAt_natCast, hxr, hloop, hyt₁, hset, hput, Option.bind_eq_bind,
        Option.bind_some]
    · dsimp only
      rcases Nat.lt_trichotomy i t with hit | rfl | hti
      · rw [List.getElem?_set_ne (by omega), hshift.ordr, if_neg (by omega), source_before hit]
      · rw [List.getElem?_set_self (by omega), source_self, hsve]
      · rw [List.getElem?_set_ne (by omega), hshift.ordr]
        by_cases hir : i ≤ r
        · rw [if_pos ⟨rfl, hti, hir⟩, source_between hti hir]
        · rw [if_neg (by omega), source_behind htr (by omega)]

/-- A pass for another byte. -/
lemma BytesMoved.cons {ks : List (Fin size)} {pbase pbase₁ pbase' : List (Cell size)}
    (h : BytesMoved [k] t r pbase pbase₁) (h' : BytesMoved ks t r pbase₁ pbase') (hr : r < pbase.length)
    (hk : k ∉ ks) : BytesMoved (k :: ks) t r pbase pbase' := by
  refine ⟨h'.length_eq.trans h.length_eq, fun i y x hy hx => ?_⟩
  -- the element that comes to `source t r i` in this pass
  have hlt := source_lt (t := t) hr (List.getElem?_eq_some_iff.mp hx).1
  obtain ⟨z, hz⟩ : ∃ z, pbase[source t r (source t r i)]? = some z := ⟨_, List.getElem?_eq_getElem hlt⟩
  obtain ⟨y₁, hy₁, hyin, hyout⟩ := h.bytes i y x hy hx
  obtain ⟨x₁, hx₁, -, hxout⟩ := h.bytes _ x z hx hz
  obtain ⟨z', hz', hzin, hzout⟩ := h'.bytes i y₁ x₁ hy₁ hx₁
  refine ⟨z', hz', ?_, ?_⟩
  · intro j hj
    by_cases hjks : j ∈ ks
    · rw [hzin j hjks, hxout j (fun hjk => hk (List.mem_singleton.mp hjk ▸ hjks))]
    · rw [hzout j hjks, hyin j]
      exact List.mem_singleton.mpr ((List.mem_cons.mp hj).resolve_right hjks)
  · intro j hj
    rw [List.mem_cons, not_or] at hj
    rw [hzout j hj.2, hyout j (fun hjk => hj.1 (List.mem_singleton.mp hjk))]

lemma insertPasses_later (hidx : FitsIdx idxBits arr.pbase.length)
    (hlen : arr.srtOrdr.length = arr.pbase.length) (htr : t ≤ r) (hr : r < arr.pbase.length) (sveIdx : ι)
    {ks : List (Fin size)} (hks : ks.Nodup) :
    ∃ arr', insertPasses idxBits sveIdx t r false ks arr = some arr' ∧
      BytesMoved ks t r arr.pbase arr'.pbase ∧ arr'.srtOrdr = arr.srtOrdr := by
  induction ks generalizing arr with
  | nil =>
    refine ⟨arr, rfl, ⟨rfl, fun i y x hy _ => ⟨y, hy, ?_, fun _ _ => rfl⟩⟩, rfl⟩
    intro k hk
    cases hk
  | cons k ks ih =>
    obtain ⟨hk, hks⟩ := List.nodup_cons.mp hks
    obtain ⟨arr₁, hpass, hbytes, -, hsame, -⟩ :=
      insertPass_spec hidx hlen false k htr hr sveIdx
    have hlen₁ := hbytes.length_eq
    have hordr₁ : arr₁.srtOrdr.length = arr₁.pbase.length := by rw [hsame rfl, hlen, hlen₁]
    obtain ⟨arr', hpasses, hbytes', hsame'⟩ := ih (by rwa [hlen₁]) hordr₁ (by omega) hks
    refine ⟨arr', ?_, hbytes.cons hbytes' hr hk, hsame'.trans (hsame rfl)⟩
    simp only [insertPasses, hpass, hpasses, Option.bind_eq_bind, Option.bind_some]

/-- All passes together move the elements and their indexes. -/
lemma insertPasses_spec (hsize : 0 < size) (hidx : FitsIdx idxBits arr.pbase.length)
    (hlen : arr.srtOrdr.length = arr.pbase.length) (htr : t ≤ r) (hr : r < arr.pbase.length) {sveIdx : ι}
    (hsve : arr.srtOrdr[r]? = some sveIdx) :
    ∃ arr', insertPasses idxBits sveIdx t r true (List.finRange size).reverse arr = some arr' ∧
      Moved t r arr.pbase arr'.pbase ∧ Moved t r arr.srtOrdr arr'.srtOrdr := by
  have hnodup : (List.finRange size).reverse.Nodup := List.pairwise_reverse.mpr ((List.nodup_finRange size).imp Ne.symm)
  have hall : ∀ k, k ∈ (List.finRange size).reverse := fun k => List.mem_reverse.mpr (List.mem_finRange k)
  cases hks : (List.finRange size).reverse with
  | nil =>
    have hmem := hall ⟨0, hsize⟩
    rw [hks] at hmem
    cases hmem
  | cons k ks =>
    rw [hks] at hnodup hall
    obtain ⟨hk, hks⟩ := List.nodup_cons.mp hnodup
    obtain ⟨arr₁, hpass, hbytes, hordrlen, -, hmoved⟩ :=
      insertPass_spec hidx hlen true k htr hr sveIdx
    have hlen₁ := hbytes.length_eq
    obtain ⟨arr', hpasses, hbytes', hsame⟩ := insertPasses_later (by rwa [hlen₁])
      (by rw [hordrlen, hlen, hlen₁]) htr (by omega) sveIdx hks
    refine ⟨arr', ?_, fun i => ?_, hsame ▸ hmoved rfl hsve⟩
    · simp only [insertPasses, hpass, hpasses, Option.bind_eq_bind, Option.bind_some]
    · have hcons := hbytes.cons hbytes' hr hk
      by_cases hi : i < arr.pbase.length
      · have hsrc : source t r i < arr.pbase.length := source_lt hr hi
        obtain ⟨z, hz, hbytes, -⟩ :=
          hcons.bytes i _ _ (List.getElem?_eq_getElem hi) (List.getElem?_eq_getElem hsrc)
        rw [hz, List.getElem?_eq_getElem hsrc, Option.some.injEq]
        funext j
        exact hbytes j (hall j)
      · have hi' : arr'.pbase.length ≤ i := by
          rw [hcons.length_eq]
          omega
        rw [source_behind htr (by omega), List.getElem?_eq_none hi', List.getElem?_eq_none (by omega)]

end

end Datacl
