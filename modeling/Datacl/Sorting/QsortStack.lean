import Datacl.Sorting.QsortPartition
import Mathlib.Algebra.Order.BigOperators.Group.List
import Mathlib.Tactic.Linarith

/-!
# The stack of pieces

A piece that is worked on is at most half as long as the piece it was cut from, if the other part is on the
stack, so the stack has room. At the end a cut of the array lies behind one of its first five elements:
the least element is before it.
-/

namespace Datacl

open Looping

section

variable {size : Nat} {ι β : Type} [LinearOrder β] {key : Cell size → β} {lt : Cell size → Cell size → Bool}
  {arr arr' : SortArrays size ι} {lo hi right left c : Int} {n : Nat} {p : Int × Int}
  {pieces pieces' nodes : List (Int × Int)} {w : Walls size ι}

/-! ### Small pieces -/

lemma isSmall_eq (hsize : 0 < size) (hsize' : size ≤ 8) (hle : lo ≤ hi) (hlt : hi - lo < 2 ^ 31) :
    isSmall size lo hi = decide (hi - lo ≤ 4) := by
  have hmul : (hi - lo) * size ≤ (hi - lo) * 8 := Int.mul_le_mul_of_nonneg_left (by omega) (by omega)
  have hnonneg : 0 ≤ (hi - lo) * size := Int.mul_nonneg (by omega) (by omega)
  rw [isSmall, Int.emod_eq_of_lt hnonneg (by omega), decide_eq_decide]
  exact Int.mul_le_mul_right (by omega)

/-- The pieces that are not ignored. -/
def kept (lo hi : Int) : List (Int × Int) := if hi - lo ≤ 4 then [] else [(lo, hi)]

lemma mem_kept (h : p ∈ kept lo hi) : p = (lo, hi) ∧ 4 < hi - lo := by
  unfold kept at h
  split_ifs at h with hle
  · cases h
  · exact ⟨List.mem_singleton.mp h, by omega⟩

/-! ### The depth of the stack -/

/-- Every piece is so short that the ones below it on the stack can be halved down to it. -/
def StackFits (n : Nat) : List (Int × Int) → Prop
  | [] => True
  | p :: pieces => (p.2 - p.1 + 1) * 2 ^ pieces.length ≤ n ∧ StackFits n pieces

lemma StackFits.length_lt (h : StackFits n (p :: nodes)) (hp : p.1 ≤ p.2) (hn : n < 2 ^ 31) : nodes.length < 31 := by
  by_contra hge
  have hpow : (2 : Int) ^ 31 ≤ 2 ^ nodes.length := pow_le_pow_right₀ (by decide) (by omega)
  have hmul : 1 * 2 ^ nodes.length ≤ (p.2 - p.1 + 1) * 2 ^ nodes.length :=
    Int.mul_le_mul_of_nonneg_right (by omega) (by positivity)
  have hle := h.1
  omega

/-- A shorter piece in place of the first one. -/
lemma StackFits.shorter (h : StackFits n (p :: nodes)) {q : Int × Int} (hq : q.2 - q.1 ≤ p.2 - p.1) :
    StackFits n (q :: nodes) :=
  ⟨le_trans (Int.mul_le_mul_of_nonneg_right (by omega) (by positivity)) h.1, h.2⟩

/-- Two pieces in place of the first one, the first of which is at most half as long. -/
lemma StackFits.halved (h : StackFits n (p :: nodes)) {q r : Int × Int} (hr : r.2 - r.1 ≤ p.2 - p.1)
    (hq : 2 * (q.2 - q.1 + 1) ≤ p.2 - p.1 + 1) : StackFits n (q :: r :: nodes) := by
  refine ⟨?_, h.shorter hr⟩
  have hmul : 2 * (q.2 - q.1 + 1) * 2 ^ nodes.length ≤ (p.2 - p.1 + 1) * 2 ^ nodes.length :=
    Int.mul_le_mul_of_nonneg_right hq (by positivity)
  have hpow : (q.2 - q.1 + 1) * 2 ^ (r :: nodes).length = 2 * (q.2 - q.1 + 1) * 2 ^ nodes.length := by
    rw [List.length_cons, pow_succ]
    ring
  rw [hpow]
  exact hmul.trans h.1

/-! ### The next piece -/

/-- The pieces on a stack. -/
def stackOf (nodes : List (Int × Int)) : List StackNode := nodes.map some ++ [none]

/-- What is left to do: a piece and a stack, or nothing. -/
inductive Pending (n : Nat) : StackNode → List StackNode → List (Int × Int) → Prop where
  | more (p : Int × Int) (nodes : List (Int × Int)) (hfits : StackFits n (p :: nodes)) :
      Pending n (some p) (stackOf nodes) (p :: nodes)
  | done : Pending n none [] []

lemma nextPiece_spec (hsize : 0 < size) (hsize' : size ≤ 8) (hn : n < 2 ^ 31)
    (hfits : StackFits n ((lo, hi) :: nodes)) (hright : lo ≤ right ∧ right < hi) (hleft : right < left ∧ left ≤ hi)
    (hlt : hi - lo < 2 ^ 31) :
    ∃ piece stack pieces, nextPiece size lo right left hi (stackOf nodes) = some (piece, stack) ∧
      Pending n piece stack pieces ∧ pieces.Perm (kept lo right ++ (kept left hi ++ nodes)) := by
  have hdepth := hfits.length_lt (show lo ≤ hi by omega) hn
  have hroom : (stackOf nodes).length < 64 := by
    rw [stackOf, List.length_append, List.length_map, List.length_singleton]
    omega
  have hcons : ∀ q : Int × Int, some q :: stackOf nodes = stackOf (q :: nodes) := fun q => rfl
  unfold nextPiece kept
  rw [isSmall_eq hsize hsize' hright.1 (by omega), isSmall_eq hsize hsize' hleft.2 (by omega)]
  by_cases hsmall : right - lo ≤ 4
  · by_cases hsmall' : hi - left ≤ 4
    · simp only [hsmall, hsmall', decide_true, if_true, List.nil_append]
      cases nodes with
      | nil => exact ⟨none, [], [], rfl, .done, .refl _⟩
      | cons q nodes => exact ⟨some q, stackOf nodes, q :: nodes, rfl, .more q nodes hfits.2, .refl _⟩
    · simp only [hsmall, hsmall', decide_true, decide_false, Bool.false_eq_true, if_true, if_false,
        List.nil_append, List.singleton_append]
      exact ⟨_, _, _, rfl, .more (left, hi) nodes (hfits.shorter (by dsimp only; omega)), .refl _⟩
  · by_cases hsmall' : hi - left ≤ 4
    · simp only [hsmall, hsmall', decide_true, decide_false, Bool.false_eq_true, if_true, if_false,
        List.nil_append, List.singleton_append]
      exact ⟨_, _, _, rfl, .more (lo, right) nodes (hfits.shorter (by dsimp only; omega)), .refl _⟩
    · simp only [hsmall, hsmall', decide_false, Bool.false_eq_true, if_false, List.singleton_append, push,
        if_pos hroom, Option.map_some, hcons]
      by_cases hlarger : hi - left < right - lo
      · rw [if_pos hlarger]
        exact ⟨_, _, _, rfl, .more (left, hi) ((lo, right) :: nodes)
          (hfits.halved (by dsimp only; omega) (by dsimp only; omega)), List.Perm.swap _ _ _⟩
      · rw [if_neg hlarger]
        exact ⟨_, _, _, rfl, .more (lo, right) ((left, hi) :: nodes)
          (hfits.halved (by dsimp only; omega) (by dsimp only; omega)), .refl _⟩

/-! ### The least element -/

/-- No element before `c` is greater than one from `c` on. -/
def CutAt (key : Cell size → β) (pbase : List (Cell size)) (c : Int) : Prop :=
  ∀ i j x y, i < c → c ≤ j → itemAt pbase i = some x → itemAt pbase j = some y → key x ≤ key y

/-- A cut outside of a piece stays. -/
lemma CutAt.rearranged (h : CutAt key arr.pbase c) (hre : Rearranged lo hi arr arr')
    (hout : c ≤ lo ∨ hi < c) : CutAt key arr'.pbase c := by
  intro i j x y hi hj hx hy
  obtain ⟨i', hx', hi'⟩ := hre.source i x hx
  obtain ⟨j', hy', hj'⟩ := hre.source j y hy
  exact h i' j' x y (by omega) (by omega) hx' hy'

/-- The cut inside of the first piece. -/
lemma CutPiece.cutAt (h : CutPiece key 0 hi arr w) (hcut : CutAt key arr.pbase (hi + 1)) :
    CutAt key w.arr.pbase (w.right + 1) := by
  have hbounds := h.right_bounds
  intro i j x y hic hcj hx hy
  by_cases hjh : j ≤ hi
  · exact h.le i j x y (bounds_of_itemAt hx).1 (by omega) (by omega) hjh hx hy
  · exact hcut.rearranged h.rearranged (by omega) i j x y (by omega) (by omega) hx hy

/-- There is a cut behind one of the first five elements, or the piece before the cut is still to be
sorted. The other pieces are behind it. -/
inductive MinAhead (key : Cell size → β) (pbase : List (Cell size)) (pieces : List (Int × Int)) : Prop where
  | found (c : Int) (hpos : 1 ≤ c) (hcut : CutAt key pbase c) (hle : c ≤ 5) (hbehind : ∀ p ∈ pieces, c ≤ p.1)
  | ahead (hi : Int) (rest : List (Int × Int)) (h0 : 0 ≤ hi) (hcut : CutAt key pbase (hi + 1))
      (hperm : pieces.Perm ((0, hi) :: rest)) (hbehind : ∀ p ∈ rest, hi < p.1)

lemma MinAhead.perm {pbase : List (Cell size)} (h : MinAhead key pbase pieces) (hperm : pieces'.Perm pieces) :
    MinAhead key pbase pieces' := by
  cases h with
  | found c hpos hcut hle hbehind =>
    exact .found c hpos hcut hle fun p hp => hbehind p (hperm.mem_iff.mp hp)
  | ahead hi rest h0 hcut hperm' hbehind => exact .ahead hi rest h0 hcut (hperm.trans hperm') hbehind

/-- Nothing of what is kept of a piece is before it. -/
lemma le_of_mem_kept (h : CutPiece key lo hi arr w) (hp : p ∈ kept lo w.right ++ kept w.left hi) :
    lo ≤ p.1 := by
  have hright := h.right_bounds
  have hleft := h.left_bounds
  obtain hp | hp := List.mem_append.mp hp
  · rw [(mem_kept hp).1]
  · rw [(mem_kept hp).1]
    dsimp only
    omega

/-- The piece before the cut is cut itself. -/
lemma minAhead_of_cut_first (hc : CutAt key arr.pbase (hi + 1))
    (hbehind : ∀ p ∈ nodes, hi < p.1) (hcut : CutPiece key 0 hi arr w) :
    MinAhead key w.arr.pbase (kept 0 w.right ++ kept w.left hi ++ nodes) := by
  have hright := hcut.right_bounds
  have hc' := hcut.cutAt hc
  have hbehind' : ∀ p ∈ kept w.left hi ++ nodes, w.right < p.1 := by
    intro p hp
    obtain hp | hp := List.mem_append.mp hp
    · rw [(mem_kept hp).1]
      exact hcut.left_bounds.1
    · exact hright.2.trans (hbehind p hp)
  by_cases hsmall : w.right - 0 ≤ 4
  · rw [kept, if_pos hsmall, List.nil_append]
    refine .found (w.right + 1) (by omega) hc' (by omega) fun p hp => ?_
    have hlt := hbehind' p hp
    omega
  · rw [List.append_assoc, kept, if_neg hsmall]
    exact .ahead w.right (kept w.left hi ++ nodes) hright.1 hc' (.refl _) hbehind'

/-- Another piece is cut. -/
lemma minAhead_of_cut_rest {hi' : Int} {rest : List (Int × Int)} (h0 : 0 ≤ hi')
    (hc : CutAt key arr.pbase (hi' + 1)) (hperm : ((lo, hi) :: nodes).Perm ((0, hi') :: rest))
    (hrest : (lo, hi) ∈ rest) (hbehind : ∀ p ∈ rest, hi' < p.1) (hcut : CutPiece key lo hi arr w) :
    MinAhead key w.arr.pbase (kept lo w.right ++ kept w.left hi ++ nodes) := by
  obtain ⟨rest', hrest'⟩ : ∃ rest', rest.Perm ((lo, hi) :: rest') := ⟨_, List.perm_cons_erase hrest⟩
  have hnodes : nodes.Perm ((0, hi') :: rest') := by
    have hswap : ((lo, hi) :: nodes).Perm ((lo, hi) :: (0, hi') :: rest') :=
      (hperm.trans (hrest'.cons _)).trans (.swap _ _ _)
    exact hswap.cons_inv
  have hclo := hbehind _ hrest
  refine .ahead hi' ((kept lo w.right ++ kept w.left hi) ++ rest') h0
    (hc.rearranged hcut.rearranged (.inl (by dsimp only at hclo; omega))) ?_ ?_
  · exact (hnodes.append_left _).trans List.perm_middle
  · intro p hp
    obtain hp | hp := List.mem_append.mp hp
    · exact lt_of_lt_of_le hclo (le_of_mem_kept hcut hp)
    · exact hbehind p (hrest'.mem_iff.mpr (List.mem_cons_of_mem _ hp))

lemma MinAhead.step (h : MinAhead key arr.pbase ((lo, hi) :: nodes))
    (hcut : CutPiece key lo hi arr w) :
    MinAhead key w.arr.pbase (kept lo w.right ++ (kept w.left hi ++ nodes)) := by
  rw [← List.append_assoc]
  cases h with
  | found c hpos hc hle hbehind =>
    obtain ⟨hclo, hnodes⟩ := List.forall_mem_cons.mp hbehind
    refine .found c hpos (hc.rearranged hcut.rearranged (.inl hclo)) hle fun p hp => ?_
    obtain hp | hp := List.mem_append.mp hp
    · exact hclo.trans (le_of_mem_kept hcut hp)
    · exact hnodes p hp
  | ahead hi' rest h0 hc hperm hbehind =>
    obtain heq | hrest := List.mem_cons.mp (hperm.mem_iff.mp List.mem_cons_self)
    · obtain ⟨rfl, rfl⟩ := Prod.mk.inj heq
      exact minAhead_of_cut_first hc (fun p hp => hbehind p (hperm.cons_inv.mem_iff.mp hp)) hcut
    · exact minAhead_of_cut_rest h0 hc hperm hrest hbehind hcut

/-! ### The loop -/

/-- The pieces lie in the array and are long enough to be cut. -/
def InArray (n : Nat) (pieces : List (Int × Int)) : Prop := ∀ p ∈ pieces, 0 ≤ p.1 ∧ p.1 + 4 ≤ p.2 ∧ p.2 < n

/-- The array is rearranged, and the pieces that are left are on the stack. -/
structure QuickInv (key : Cell size → β) (arr : SortArrays size ι) (s : QuickState size ι)
    (pieces : List (Int × Int)) : Prop where
  rearranged : Rearranged 0 (arr.pbase.length - 1) arr s.arr
  pending : Pending arr.pbase.length s.piece s.stack pieces
  inArray : InArray arr.pbase.length pieces
  minAhead : MinAhead key s.arr.pbase pieces

/-- The total length of the pieces. -/
def pieceMeasure (pieces : List (Int × Int)) : Nat := (pieces.map fun p => (p.2 - p.1).toNat).sum

lemma pieceMeasure_kept (lo hi : Int) : pieceMeasure (kept lo hi) ≤ (hi - lo).toNat := by
  unfold kept pieceMeasure
  split_ifs <;> simp

lemma InArray.kept_append (h : InArray n ((lo, hi) :: nodes)) (hcut : CutPiece key lo hi arr w) :
    InArray n (kept lo w.right ++ (kept w.left hi ++ nodes)) := by
  obtain ⟨hpiece, hnodes⟩ := List.forall_mem_cons.mp h
  have hright := hcut.right_bounds
  have hleft := hcut.left_bounds
  dsimp only at hpiece
  intro p hp
  rcases List.mem_append.mp hp with hp | hp
  · obtain ⟨rfl, hlong⟩ := mem_kept hp
    dsimp only
    omega
  · rcases List.mem_append.mp hp with hp | hp
    · obtain ⟨rfl, hlong⟩ := mem_kept hp
      dsimp only
      omega
    · exact hnodes p hp

lemma pieceMeasure_step (hcut : CutPiece key lo hi arr w) :
    pieceMeasure (kept lo w.right ++ (kept w.left hi ++ nodes)) < pieceMeasure ((lo, hi) :: nodes) := by
  have hright := hcut.right_bounds
  have hleft := hcut.left_bounds
  have h1 := pieceMeasure_kept lo w.right
  have h2 := pieceMeasure_kept w.left hi
  unfold pieceMeasure at h1 h2 ⊢
  rw [List.map_append, List.map_append, List.sum_append, List.sum_append, List.map_cons, List.sum_cons]
  dsimp only
  omega

/-- A piece within the array is rearranged within the array. -/
lemma Rearranged.widen {lo' hi' : Int} (h : Rearranged lo hi arr arr') (hlo : lo' ≤ lo) (hhi : hi ≤ hi') :
    Rearranged lo' hi' arr arr' where
  pairs := h.pairs
  length_pbase := h.length_pbase
  length_srtOrdr := h.length_srtOrdr
  source := by
    intro i x hx
    obtain ⟨j, hj, hij⟩ := h.source i x hx
    exact ⟨j, hj, by omega⟩

lemma QuickInv.step (hlt : Compares key lt) (hsize : 0 < size) (hsize' : size ≤ 8)
    (hlen : arr.srtOrdr.length = arr.pbase.length) (hn : arr.pbase.length < 2 ^ 31)
    {s : QuickState size ι} (h : QuickInv key arr s pieces) (hmore : (!s.stack.isEmpty) = true) :
    ∃ s' pieces', quickBody lt s = some s' ∧ QuickInv key arr s' pieces' ∧
      pieceMeasure pieces' < pieceMeasure pieces := by
  obtain ⟨piece, stack, arr₁⟩ := s
  obtain ⟨hre, hpending, hin, hmin⟩ := h
  dsimp only at hre hpending hmin hmore
  cases hpending with
  | done => cases hmore
  | more p nodes hfits =>
    obtain ⟨lo, hi⟩ := p
    obtain ⟨hlo, hlong, hhi⟩ := hin _ List.mem_cons_self
    dsimp only at hlo hlong hhi
    have hlen₁ : arr₁.pbase.length = arr.pbase.length := hre.length_pbase
    have hordr₁ : arr₁.srtOrdr.length = arr₁.pbase.length := by
      rw [hre.length_srtOrdr, hlen, hlen₁]
    obtain ⟨arr₂, x, p, y, hmedian, hre₂, hx, hp, hy, hxp, hpy⟩ := medianOfThree_spec hlt hordr₁ hlo
      (show lo < lo + (hi - lo) / 2 by omega) (show lo + (hi - lo) / 2 < hi by omega) (by omega)
    have hlen₂ : arr₂.pbase.length = arr₁.pbase.length := hre₂.length_pbase
    have hordr₂ : arr₂.srtOrdr.length = arr₂.pbase.length := by
      rw [hre₂.length_srtOrdr, hordr₁, hlen₂]
    obtain ⟨w, hloop, hcut⟩ := collapse_spec hlt hordr₂ hlo (by omega) (by omega) hx hp hy hxp hpy
    have hcut' : CutPiece key lo hi arr₁ w :=
      ⟨hre₂.trans hcut.rearranged, hcut.right_bounds, hcut.left_bounds, hcut.le⟩
    obtain ⟨piece, stack, pieces, hnext, hpending, hperm⟩ := nextPiece_spec hsize hsize' hn hfits
      hcut.right_bounds hcut.left_bounds (by omega)
    have hmem : ∀ q ∈ pieces, q ∈ kept lo w.right ++ (kept w.left hi ++ nodes) :=
      fun q hq => hperm.mem_iff.mp hq
    refine ⟨⟨piece, stack, w.arr⟩, pieces, ?_, ⟨?_, hpending, ?_, ?_⟩, ?_⟩
    · simp only [quickBody, Option.bind_eq_bind, Option.bind_some, hmedian, hloop, hnext]
    · exact hre.trans (hcut'.rearranged.widen hlo (by omega))
    · exact fun q hq => (hin.kept_append hcut') q (hmem q hq)
    · exact (hmin.step hcut').perm hperm
    · have hsum : pieceMeasure pieces = pieceMeasure (kept lo w.right ++ (kept w.left hi ++ nodes)) :=
        (hperm.map _).sum_eq
      rw [hsum]
      exact pieceMeasure_step hcut

/-- The quicksort ends, and the least element is among the first five. -/
lemma quick_spec (hlt : Compares key lt) (hsize : 0 < size) (hsize' : size ≤ 8)
    (hlen : arr.srtOrdr.length = arr.pbase.length) (hn : arr.pbase.length < 2 ^ 31)
    (hlong : 4 < arr.pbase.length) :
    ∃ arr' c, quick lt arr = some arr' ∧ Rearranged 0 (arr.pbase.length - 1) arr arr' ∧ 1 ≤ c ∧ c ≤ 5 ∧
      CutAt key arr'.pbase c := by
  have hstart : QuickInv key arr ⟨some (0, arr.pbase.length - 1), stackOf [], arr⟩
      [(0, (arr.pbase.length : Int) - 1)] := by
    refine ⟨.refl _ _ arr, .more _ [] ⟨?_, trivial⟩, ?_, ?_⟩
    · rw [List.length_nil, pow_zero]
      omega
    · intro p hp
      rw [List.mem_singleton] at hp
      subst hp
      dsimp only
      omega
    · refine .ahead (arr.pbase.length - 1) [] (by omega) ?_ (.refl _) (fun p hp => by cases hp)
      intro i j x y hi hj hx hy
      have hlt := (bounds_of_itemAt hy).2
      dsimp only at hlt
      omega
  have hmeasure : pieceMeasure [(0, (arr.pbase.length : Int) - 1)] ≤ arr.pbase.length := by
    unfold pieceMeasure
    rw [List.map_singleton, List.sum_singleton]
    dsimp only
    omega
  have hstep : ∀ pieces s, QuickInv key arr s pieces → (!s.stack.isEmpty) = true →
      ∃ s' pieces', quickBody lt s = some s' ∧ QuickInv key arr s' pieces' ∧
        pieceMeasure pieces' < pieceMeasure pieces :=
    fun _ _ h hmore => QuickInv.step hlt hsize hsize' hlen hn h hmore
  obtain ⟨s, pieces, hloop, hinv, hstop⟩ := loop_ends hstep hstart hmeasure
  obtain ⟨piece, stack, arr'⟩ := s
  obtain ⟨hre, hpending, -, hmin⟩ := hinv
  dsimp only at hpending hstop hre hmin
  have hrun : quick lt arr = some arr' := by
    have hpush : push none [] = some (stackOf []) := rfl
    simp only [quick, hpush, Option.bind_eq_bind, Option.bind_some, hloop]
  cases hpending with
  | more p nodes _ =>
    cases nodes <;> cases hstop
  | done =>
    cases hmin with
    | found c hpos hcut hle _ => exact ⟨arr', c, hrun, hre, hpos, hle, hcut⟩
    | ahead hi rest _ _ hperm _ => exact absurd hperm.length_eq (by simp)

end

end Datacl
