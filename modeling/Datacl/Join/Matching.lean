import Datacl.Join.SrtJoin
import Mathlib.Order.Basic

/-!
# What a block of the sorted join computes

Wherever the walk through the source has come to, it finds the source rows of the next link. A row
gets its value from these alone; what depends on the block is whether a missing link is noticed.
-/

namespace Datacl

/-! ### Ascending links -/

/-- Links as `srt_join` wants them. -/
def Ascending (l : List Int) : Prop := l.Pairwise (· ≤ ·)

lemma Ascending.getD_le {l : List Int} (h : Ascending l) {i j : Nat} (hij : i ≤ j)
    (hj : j < l.length) : l.getD i 0 ≤ l.getD j 0 := by
  rw [List.getD_eq_getElem?_getD, List.getD_eq_getElem?_getD, List.getElem?_eq_getElem hj,
    List.getElem?_eq_getElem (by omega), Option.getD_some, Option.getD_some]
  rcases Nat.eq_or_lt_of_le hij with rfl | hlt
  · exact le_rfl
  · exact List.pairwise_iff_getElem.mp h i j _ hj hlt

lemma getD_mem {l : List Int} {i : Nat} (hi : i < l.length) : l.getD i 0 ∈ l := by
  rw [List.getD_eq_getElem?_getD, List.getElem?_eq_getElem hi, Option.getD_some]
  exact List.getElem_mem hi

lemma exists_getD_of_mem {l : List Int} {v : Int} (h : v ∈ l) : ∃ i < l.length, l.getD i 0 = v := by
  obtain ⟨i, hi, rfl⟩ := List.getElem_of_mem h
  exact ⟨i, hi, by rw [List.getD_eq_getElem?_getD, List.getElem?_eq_getElem hi, Option.getD_some]⟩

/-- The links before position `p` are below `v`. -/
def BelowAt (l : List Int) (v : Int) (p : Nat) : Prop := ∀ j < p, j < l.length → l.getD j 0 < v

/-- `p` is the first position with a link that is not below `v`, or the end. -/
structure FirstAt (l : List Int) (v : Int) (p : Nat) : Prop where
  below : BelowAt l v p
  le : p ≤ l.length
  stop : l.length ≤ p ∨ v ≤ l.getD p 0

lemma FirstAt.mem_iff {l : List Int} {v : Int} {p : Nat} (h : FirstAt l v p) (hl : Ascending l) :
    v ∈ l ↔ p < l.length ∧ l.getD p 0 = v := by
  constructor
  · intro hv
    obtain ⟨k, hk, rfl⟩ := exists_getD_of_mem hv
    have hpk : p ≤ k := by
      by_contra hlt
      exact lt_irrefl _ (h.below k (by omega) hk)
    have hp : p < l.length := by omega
    refine ⟨hp, le_antisymm (hl.getD_le hpk hk) (h.stop.resolve_left (by omega))⟩
  · rintro ⟨hp, rfl⟩
    exact getD_mem hp

/-! ### The walk -/

lemma gallop_spec {l : List Int} {v : Int} {srcIdx : Nat} (rounds : Nat) {delta prev : Nat}
    (hdelta : 0 < delta) (hprev : srcIdx < prev) (hle : prev ≤ l.length)
    (hlow : prev = srcIdx + 1 ∨ prev < l.length ∧ l.getD prev 0 < v) {q : Nat}
    (hq : gallop l v srcIdx rounds delta prev = q) :
    srcIdx < q ∧ q ≤ l.length ∧ (q = srcIdx + 1 ∨ q < l.length ∧ l.getD q 0 < v) := by
  induction rounds generalizing delta prev with
  | zero =>
    subst hq
    exact ⟨hprev, hle, hlow⟩
  | succ rounds ih =>
    rw [gallop] at hq
    split_ifs at hq with hend hhigh
    · subst hq
      exact ⟨hprev, hle, hlow⟩
    · subst hq
      exact ⟨hprev, hle, hlow⟩
    · exact ih (by omega) (by omega) (by omega) (.inr ⟨by omega, not_le.mp hhigh⟩) hq

lemma advance_spec {l : List Int} {v : Int} (hl : Ascending l) (rounds : Nat) {p : Nat}
    (hbelow : BelowAt l v p) (hle : p ≤ l.length) (hrounds : l.length ≤ p + rounds) :
    FirstAt l v (advance l v rounds p) := by
  induction rounds generalizing p with
  | zero => exact ⟨hbelow, hle, .inl hrounds⟩
  | succ rounds ih =>
    rw [advance]
    split_ifs with hend hhigh
    · exact ⟨hbelow, hle, .inl hend⟩
    · exact ⟨hbelow, hle, .inr hhigh⟩
    · obtain ⟨q, hq⟩ : ∃ q, gallop l v p l.length 1 (p + 1) = q := ⟨_, rfl⟩
      obtain ⟨hpq, hqle, hcase⟩ :=
        gallop_spec l.length one_pos (by omega) (by omega) (.inl rfl) hq
      rw [hq]
      refine ih (fun j hj hjl => ?_) hqle (by omega)
      rcases hcase with rfl | ⟨hql, hqv⟩
      · exact (hl.getD_le (by omega) (by omega)).trans_lt (not_le.mp hhigh)
      · exact (hl.getD_le (by omega) hql).trans_lt hqv

/-- Where the walk is once a row with link `v` has been treated: nothing above `v` is passed, and
the end is reached when there is nothing above `v`. -/
structure AfterLink (l : List Int) (v : Int) (p : Nat) : Prop where
  passed : ∀ j < p, j < l.length → l.getD j 0 ≤ v
  le : p ≤ l.length
  ended : l.length ≤ p ↔ ∀ s ∈ l, s ≤ v

lemma AfterLink.belowAt {l : List Int} {u v : Int} {p : Nat} (h : AfterLink l u p) (huv : u < v) :
    BelowAt l v p := fun j hj hjl => (h.passed j hj hjl).trans_lt huv

/-- A link without a match. -/
lemma FirstAt.afterLink {l : List Int} {v : Int} {p : Nat} (h : FirstAt l v p) (hv : v ∉ l) :
    AfterLink l v p := by
  refine ⟨fun j hj hjl => (h.below j hj hjl).le, h.le, fun hend s hs => ?_, fun hall => ?_⟩
  · obtain ⟨j, hj, rfl⟩ := exists_getD_of_mem hs
    exact (h.below j (by omega) hj).le
  · by_contra hp
    have hmem := getD_mem (not_le.mp hp)
    have hge := h.stop.resolve_left hp
    exact hv (le_antisymm (hall _ hmem) hge ▸ hmem)

section Consume

variable {w : Nat} {J : JoinArgs w}

/-- The source row `j` as seen by a destination row with link `v`. -/
def stepAt (J : JoinArgs w) (v : Int) (x : BitVec w) (j : Nat) : BitVec w :=
  if J.srcLnk.getD j 0 = v then combine J j x else x

/-- The value of a row with link `v` that was initialised with `x`. -/
def rowValue (J : JoinArgs w) (v : Int) (x : BitVec w) : BitVec w :=
  (List.range J.srcLnk.length).foldl (stepAt J v) x

lemma foldl_stepAt_eq {js : List Nat} {v : Int} (h : ∀ j ∈ js, J.srcLnk.getD j 0 ≠ v) (x : BitVec w) :
    js.foldl (stepAt J v) x = x := by
  induction js with
  | nil => rfl
  | cons j js ih =>
    rw [List.forall_mem_cons] at h
    rw [List.foldl_cons, stepAt, if_neg h.1]
    exact ih h.2

lemma rowValue_of_not_mem {v : Int} (hv : v ∉ J.srcLnk) (x : BitVec w) : rowValue J v x = x := by
  refine foldl_stepAt_eq (fun j hj heq => hv ?_) x
  exact heq ▸ getD_mem (List.mem_range.mp hj)

lemma consume_spec {v : Int} (hl : Ascending J.srcLnk) (left : Nat) {p : Nat} (x : BitVec w)
    (hlen : p + left = J.srcLnk.length) (hpast : ∀ j < p, J.srcLnk.getD j 0 ≤ v)
    (hrest : ∀ j, p ≤ j → j < J.srcLnk.length → v ≤ J.srcLnk.getD j 0) :
    AfterLink J.srcLnk v (consume J v left p x).1 ∧
      (consume J v left p x).2 = (List.range' p left).foldl (stepAt J v) x := by
  induction left generalizing p x with
  | zero =>
    rw [consume]
    refine ⟨⟨fun j hj _ => hpast j hj, by omega, fun _ s hs => ?_, fun _ => by omega⟩, rfl⟩
    obtain ⟨j, hj, rfl⟩ := exists_getD_of_mem hs
    exact hpast j (by omega)
  | succ left ih =>
    rw [consume, List.range'_succ, List.foldl_cons]
    split_ifs with heq
    · rw [stepAt, if_pos heq]
      refine ih _ (by omega) (fun j hj => ?_) (fun j hj => hrest j (by omega))
      rcases Nat.lt_succ_iff_lt_or_eq.mp hj with hlt | rfl
      · exact hpast j hlt
      · exact heq.le
    · have hgt : v < J.srcLnk.getD p 0 := lt_of_le_of_ne (hrest p le_rfl (by omega)) (Ne.symm heq)
      refine ⟨⟨fun j hj _ => hpast j (by omega), by omega, fun hend => by omega, fun hall => ?_⟩, ?_⟩
      · exact absurd (hall _ (getD_mem (by omega))) (not_le.mpr hgt)
      · rw [stepAt, if_neg heq]
        refine (foldl_stepAt_eq (fun j hj => ?_) x).symm
        rw [List.mem_range'_1] at hj
        exact (hgt.trans_le (hl.getD_le (by omega) (by omega))).ne'

/-- A link with a match: `consume` collects all source rows of the link. -/
lemma consume_firstAt {v : Int} (hl : Ascending J.srcLnk) {p : Nat} (h : FirstAt J.srcLnk v p)
    (x : BitVec w) :
    AfterLink J.srcLnk v (consume J v (J.srcLnk.length - p) p x).1 ∧
      (consume J v (J.srcLnk.length - p) p x).2 = rowValue J v x := by
  have hle := h.le
  have hrest : ∀ j, p ≤ j → j < J.srcLnk.length → v ≤ J.srcLnk.getD j 0 :=
    fun j hpj hj => (h.stop.resolve_left (by omega)).trans (hl.getD_le hpj hj)
  obtain ⟨hafter, hval⟩ := consume_spec hl (J.srcLnk.length - p) x (by omega)
    (fun j hj => (h.below j hj (by omega)).le) hrest
  refine ⟨hafter, hval.trans ?_⟩
  have hbefore : (List.range' 0 p).foldl (stepAt J v) x = x := by
    refine foldl_stepAt_eq (fun j hj => ?_) x
    rw [List.mem_range'_1] at hj
    exact (h.below j (by omega) (by omega)).ne
  have hsplit : List.range J.srcLnk.length =
      List.range' 0 p ++ List.range' p (J.srcLnk.length - p) := by
    have happ : List.range' 0 p ++ List.range' (0 + p) (J.srcLnk.length - p) =
        List.range' 0 (p + (J.srcLnk.length - p)) := List.range'_append_1
    rw [List.range_eq_range', ← Nat.add_sub_cancel' hle, ← happ, Nat.zero_add, Nat.add_sub_cancel' hle]
  rw [rowValue, hsplit, List.foldl_append, hbefore]

end Consume

/-! ### The rows of a block -/

section Block

variable {w : Nat} {J : JoinArgs w} {lb ub : Nat}

/-- The link of destination row `i`. -/
def JoinArgs.link (J : JoinArgs w) (i : Nat) : Int := J.dstLnk.getD i 0

/-- A row without a match, and the operation minds. -/
def NullAt (J : JoinArgs w) (j : Nat) : Prop :=
  J.link j ∉ J.srcLnk ∧ (J.op.hasNn = true ∨ ∃ s ∈ J.srcLnk, J.link j < s)

/-- The loop over the block that begins at `lb` does not get to row `j`: the source was used up by
a smaller link. -/
def Ended (J : JoinArgs w) (lb j : Nat) : Prop :=
  J.srcLnk = [] ∨ ∃ k, lb ≤ k ∧ k < j ∧ J.link k < J.link j ∧ ∀ s ∈ J.srcLnk, s ≤ J.link k

lemma Ended.not_mem {j : Nat} (h : Ended J lb j) : J.link j ∉ J.srcLnk := by
  intro hmem
  rcases h with hnil | ⟨k, -, -, hlt, hall⟩
  · rw [hnil] at hmem
    cases hmem
  · exact absurd (hall _ hmem) (not_le.mpr hlt)

/-- The main loop at row `i`, in a block whose rows were initialised with `c`. -/
structure LoopAt (J : JoinArgs w) (lb i : Nat) (c : BitVec w) (val : Nat → BitVec w)
    (nn : Nat → Bool) (s : JoinState w) : Prop where
  val : ∀ j, s.val j = if lb ≤ j ∧ j < i then rowValue J (J.link j) c else val j
  nn : J.op.hasNn = true → ∀ j, s.nn j =
    if lb ≤ j ∧ j < i then decide (J.link j ∈ J.srcLnk) else nn j
  null : s.isAnyNull = true ↔ ∃ j, lb ≤ j ∧ j < i ∧ NullAt J j
  pos : i = lb ∧ s.srcIdx = 0 ∨ lb < i ∧ AfterLink J.srcLnk (J.link (i - 1)) s.srcIdx
  running : ∀ j, lb ≤ j → j < i → ¬ Ended J lb j

lemma LoopAt.start (val : Nat → BitVec w) (nn : Nat → Bool) (c : BitVec w) :
    LoopAt J lb lb c val nn ⟨⟨val, nn, false⟩, 0⟩ := by
  refine ⟨fun j => ?_, fun _ j => ?_, ?_, .inl ⟨rfl, rfl⟩, fun j h1 h2 => absurd h2 (by omega)⟩
  · rw [if_neg (by omega)]
  · rw [if_neg (by omega)]
  · constructor
    · intro h
      cases h
    · rintro ⟨j, h1, h2, -⟩
      omega

section Step

variable {i : Nat} {c : BitVec w} {val : Nat → BitVec w} {nn : Nat → Bool} {s : JoinState w}

/-- Going on with row `i`, whatever the branch. -/
lemma LoopAt.next (h : LoopAt J lb i c val nn s) (hi : lb ≤ i) {s' : JoinState w}
    (hval : s'.val = Function.update s.val i (rowValue J (J.link i) c))
    (hnn : J.op.hasNn = true → s'.nn = Function.update s.nn i (decide (J.link i ∈ J.srcLnk)))
    (hnull : s'.isAnyNull = true ↔ s.isAnyNull = true ∨ NullAt J i)
    (hpos : AfterLink J.srcLnk (J.link i) s'.srcIdx) (hrun : ¬ Ended J lb i) :
    LoopAt J lb (i + 1) c val nn s' := by
  refine ⟨fun j => ?_, fun hop j => ?_, ?_, .inr ⟨by omega, hpos⟩, fun j h1 h2 => ?_⟩
  · rw [hval]
    by_cases hj : j = i
    · rw [hj, Function.update_self, if_pos (by omega)]
    · rw [Function.update_of_ne hj, h.val]
      exact if_congr (by omega) rfl rfl
  · rw [hnn hop]
    by_cases hj : j = i
    · rw [hj, Function.update_self, if_pos (by omega)]
    · rw [Function.update_of_ne hj, h.nn hop]
      exact if_congr (by omega) rfl rfl
  · rw [hnull, h.null]
    constructor
    · rintro (⟨j, h1, h2, hj⟩ | hi')
      · exact ⟨j, h1, by omega, hj⟩
      · exact ⟨i, hi, by omega, hi'⟩
    · rintro ⟨j, h1, h2, hj⟩
      rcases Nat.lt_succ_iff_lt_or_eq.mp h2 with hlt | rfl
      · exact .inl ⟨j, h1, hlt, hj⟩
      · exact .inr hj
  · rcases Nat.lt_succ_iff_lt_or_eq.mp h2 with hlt | rfl
    · exact h.running j h1 hlt
    · exact hrun

lemma FirstAt.lt_iff {l : List Int} {v : Int} {p : Nat} (h : FirstAt l v p) (hv : v ∉ l) :
    p < l.length ↔ ∃ s ∈ l, v < s := by
  constructor
  · intro hp
    refine ⟨_, getD_mem hp, lt_of_le_of_ne (h.stop.resolve_left (by omega)) fun heq => hv ?_⟩
    exact heq ▸ getD_mem hp
  · rintro ⟨s, hs, hlt⟩
    by_contra hp
    obtain ⟨j, hj, rfl⟩ := exists_getD_of_mem hs
    exact lt_asymm hlt (h.below j (by omega) hj)

/-- A row with the link of the row before it. -/
lemma LoopAt.copy (h : LoopAt J lb i c val nn s) (hi : lb < i) (heq : J.link i = J.link (i - 1)) :
    LoopAt J lb (i + 1) c val nn
      ⟨⟨Function.update s.val i (s.val (i - 1)), setNn J.op s.nn i (s.nn (i - 1)), s.isAnyNull⟩,
        s.srcIdx⟩ := by
  have hprev : lb ≤ i - 1 ∧ i - 1 < i := by omega
  have hafter : AfterLink J.srcLnk (J.link (i - 1)) s.srcIdx :=
    (h.pos.resolve_left (by omega)).2
  refine h.next hi.le ?_ ?_ ?_ (heq ▸ hafter) ?_
  · rw [h.val (i - 1), if_pos hprev, heq]
  · intro hop
    dsimp only
    rw [setNn, if_pos hop, h.nn hop (i - 1), if_pos hprev, heq]
  · refine ⟨.inl, ?_⟩
    rintro (hnull | hnull)
    · exact hnull
    · rw [NullAt, heq] at hnull
      exact h.null.mpr ⟨i - 1, hprev.1, hprev.2, hnull⟩
  · rintro (hnil | ⟨k, hk1, hk2, hlt, hall⟩)
    · exact h.running (i - 1) hprev.1 hprev.2 (.inl hnil)
    · have hne : k ≠ i - 1 := by
        rintro rfl
        exact absurd hlt (heq ▸ lt_irrefl _)
      exact h.running (i - 1) hprev.1 hprev.2 (.inr ⟨k, hk1, by omega, heq ▸ hlt, hall⟩)

/-- The next link of the destination, as seen by the walk. -/
lemma LoopAt.belowAt (hd : Ascending J.dstLnk) (h : LoopAt J lb i c val nn s)
    (hid : i < J.dstLnk.length) (hnew : ¬ (lb < i ∧ J.link i = J.link (i - 1))) :
    BelowAt J.srcLnk (J.link i) s.srcIdx ∧ s.srcIdx ≤ J.srcLnk.length := by
  rcases h.pos with ⟨-, hzero⟩ | ⟨hlt, hafter⟩
  · rw [hzero]
    exact ⟨fun j hj => absurd hj (by omega), by omega⟩
  · have hle : J.link (i - 1) ≤ J.link i := hd.getD_le (by omega) hid
    exact ⟨hafter.belowAt (lt_of_le_of_ne hle fun heq => hnew ⟨hlt, heq.symm⟩), hafter.le⟩

lemma LoopAt.not_ended (hd : Ascending J.dstLnk) (h : LoopAt J lb i c val nn s)
    (hid : i < J.dstLnk.length) (hsrc : s.srcIdx < J.srcLnk.length) : ¬ Ended J lb i := by
  rintro (hnil | ⟨k, hk1, hk2, -, hall⟩)
  · rw [hnil] at hsrc
    exact absurd hsrc (by simp)
  · have hafter := (h.pos.resolve_left (by omega)).2
    have hle : J.link k ≤ J.link (i - 1) := hd.getD_le (by omega) (by omega)
    exact absurd (hafter.ended.mpr fun t ht => (hall t ht).trans hle) (by omega)

/-- When the loop is left, the source has been used up. -/
lemma LoopAt.ended (hd : Ascending J.dstLnk) (h : LoopAt J lb i c val nn s)
    (hnew : ¬ (lb < i ∧ J.link i = J.link (i - 1))) (hsrc : J.srcLnk.length ≤ s.srcIdx) {j : Nat}
    (hij : i ≤ j) (hj : j < J.dstLnk.length) : Ended J lb j := by
  rcases h.pos with ⟨-, hzero⟩ | ⟨hlt, hafter⟩
  · exact .inl (List.eq_nil_of_length_eq_zero (by omega))
  · have hle : J.link (i - 1) ≤ J.link i := hd.getD_le (by omega) (by omega)
    have hlt' : J.link (i - 1) < J.link i := lt_of_le_of_ne hle fun heq => hnew ⟨hlt, heq.symm⟩
    exact .inr ⟨i - 1, by omega, by omega, hlt'.trans_le (hd.getD_le hij hj), hafter.ended.mp hsrc⟩

lemma LoopAt.joinRow (hl : Ascending J.srcLnk) (hd : Ascending J.dstLnk)
    (h : LoopAt J lb i c val nn s) (hi : lb ≤ i) (hid : i < J.dstLnk.length) (hstart : val i = c) :
    (∃ s', joinRow J lb i s = some s' ∧ LoopAt J lb (i + 1) c val nn s') ∨
      joinRow J lb i s = none ∧ ∀ j, i ≤ j → j < J.dstLnk.length → Ended J lb j := by
  by_cases hcopy : lb < i ∧ J.link i = J.link (i - 1)
  · exact .inl ⟨_, if_pos hcopy, h.copy hcopy.1 hcopy.2⟩
  by_cases hend : J.srcLnk.length ≤ s.srcIdx
  · exact .inr ⟨(if_neg hcopy).trans (if_pos hend), fun j hij hj => h.ended hd hcopy hend hij hj⟩
  left
  obtain ⟨hbelow, hsrcle⟩ := h.belowAt hd hid hcopy
  have hfirst := advance_spec hl J.srcLnk.length hbelow hsrcle (by omega)
  have hrun := h.not_ended hd hid (not_le.mp hend)
  have hcell : s.val i = c := by rw [h.val, if_neg (by omega), hstart]
  by_cases hfound : J.link i ∈ J.srcLnk
  · obtain ⟨hafter, hvalue⟩ := consume_firstAt hl hfirst (s.val i)
    refine ⟨_, (if_neg hcopy).trans ((if_neg hend).trans (if_pos ((hfirst.mem_iff hl).mp hfound))),
      h.next hi ?_ ?_ ?_ hafter hrun⟩
    · exact congrArg (Function.update s.val i) (hvalue.trans (congrArg _ hcell))
    · intro hop
      dsimp only
      rw [setNn, if_pos hop, decide_eq_true hfound]
    · exact ⟨.inl, fun hor => hor.resolve_right fun hnull => hnull.1 hfound⟩
  · have hmiss := fun hp => hfound ((hfirst.mem_iff hl).mpr hp)
    refine ⟨_, (if_neg hcopy).trans ((if_neg hend).trans (if_neg hmiss)),
      h.next hi ?_ ?_ ?_ (hfirst.afterLink hfound) hrun⟩
    · dsimp only
      rw [rowValue_of_not_mem hfound, ← hcell, Function.update_eq_self]
    · intro hop
      dsimp only
      rw [setNn, if_pos hop, decide_eq_false hfound]
    · have hlt : advance J.srcLnk (J.dstLnk.getD i 0) J.srcLnk.length s.srcIdx < J.srcLnk.length ↔
          ∃ t ∈ J.srcLnk, J.link i < t := hfirst.lt_iff hfound
      simp only [Bool.or_eq_true, decide_eq_true_eq, NullAt, hlt, hfound, not_false_eq_true,
        true_and]
      rw [or_right_comm, or_assoc]

end Step

/-- What the main loop leaves. -/
lemma joinLoop_spec (hl : Ascending J.srcLnk) (hd : Ascending J.dstLnk) {c : BitVec w}
    {val : Nat → BitVec w} {nn : Nat → Bool} (n : Nat) {i : Nat} {s : JoinState w}
    (h : LoopAt J lb i c val nn s) (hi : lb ≤ i) (hub : i + n ≤ J.dstLnk.length)
    (hstart : ∀ j, lb ≤ j → j < i + n → val j = c)
    (hnn : J.op.hasNn = true → ∀ j, lb ≤ j → j < i + n → nn j = false) :
    ((∀ j, (joinLoop J lb n i s).val j =
        if lb ≤ j ∧ j < i + n then rowValue J (J.link j) c else val j) ∧
      (J.op.hasNn = true → ∀ j, (joinLoop J lb n i s).nn j =
        if lb ≤ j ∧ j < i + n then decide (J.link j ∈ J.srcLnk) else nn j)) ∧
      ((joinLoop J lb n i s).isAnyNull = true ↔
        ∃ j, lb ≤ j ∧ j < i + n ∧ ¬ Ended J lb j ∧ NullAt J j) := by
  induction n generalizing i s with
  | zero =>
    refine ⟨⟨h.val, h.nn⟩, h.null.trans ?_⟩
    constructor
    · rintro ⟨j, h1, h2, hj⟩
      exact ⟨j, h1, h2, h.running j h1 h2, hj⟩
    · rintro ⟨j, h1, h2, -, hj⟩
      exact ⟨j, h1, h2, hj⟩
  | succ n ih =>
    rw [joinLoop]
    rcases h.joinRow hl hd hi (by omega) (hstart i hi (by omega)) with
      ⟨s', hrow, hs'⟩ | ⟨hrow, hended⟩
    · rw [hrow]
      have hadd : i + 1 + n = i + (n + 1) := by omega
      rw [← hadd] at hub hstart hnn ⊢
      exact ih hs' (by omega) hub hstart hnn
    · rw [hrow]
      dsimp only
      -- the rows that are not reached have no match and keep what they were initialised with
      refine ⟨⟨fun j => ?_, fun hop j => ?_⟩, h.null.trans ?_⟩
      · rw [h.val]
        by_cases hlow : lb ≤ j ∧ j < i
        · rw [if_pos hlow, if_pos (by omega)]
        · rw [if_neg hlow]
          split_ifs with hj
          · rw [rowValue_of_not_mem (hended j (by omega) (by omega)).not_mem, hstart j hj.1 hj.2]
          · rfl
      · rw [h.nn hop]
        by_cases hlow : lb ≤ j ∧ j < i
        · rw [if_pos hlow, if_pos (by omega)]
        · rw [if_neg hlow]
          split_ifs with hj
          · rw [hnn hop j hj.1 hj.2, decide_eq_false (hended j (by omega) (by omega)).not_mem]
          · rfl
      · constructor
        · rintro ⟨j, h1, h2, hj⟩
          exact ⟨j, h1, by omega, h.running j h1 h2, hj⟩
        · rintro ⟨j, h1, h2, hrun, hj⟩
          refine ⟨j, h1, ?_, hj⟩
          by_contra hge
          exact hrun (hended j (by omega) (by omega))

end Block

end Datacl
