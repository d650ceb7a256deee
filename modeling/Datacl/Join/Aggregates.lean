import Datacl.Join.Overwritten

/-!
# The sorted join computes the join

What the operations with a null column leave in a row, in terms of the source rows with its link,
and that the walk through the source comes to an end.
-/

namespace Datacl

/-! ### The walk ends -/

/-- The fancy jumping; `none` if it goes on after the given number of rounds. -/
def gallopWithin (srcLnk : List Int) (v : Int) (srcIdx : Nat) : Nat → Nat → Nat → Option Nat
  | 0, _, _ => none
  | rounds + 1, delta, prevExpt =>
    let expt := srcIdx + delta
    if srcLnk.length ≤ expt then some prevExpt
    else if v ≤ srcLnk.getD expt 0 then some prevExpt
    else gallopWithin srcLnk v srcIdx rounds (2 * delta) expt

/-- The advance of the source; `none` if it, or its jumping, goes on after that many rounds. -/
def advanceWithin (srcLnk : List Int) (v : Int) (jumps : Nat) : Nat → Nat → Option Nat
  | 0, _ => none
  | rounds + 1, srcIdx =>
    if srcLnk.length ≤ srcIdx then some srcIdx
    else if v ≤ srcLnk.getD srcIdx 0 then some srcIdx
    else (gallopWithin srcLnk v srcIdx jumps 1 (srcIdx + 1)).bind
      (advanceWithin srcLnk v jumps rounds)

lemma gallopWithin_eq {l : List Int} {v : Int} {srcIdx : Nat} (rounds : Nat) {delta prev : Nat}
    (hdelta : 0 < delta) (hrounds : l.length ≤ srcIdx + delta + rounds) :
    gallopWithin l v srcIdx (rounds + 1) delta prev = some (gallop l v srcIdx rounds delta prev) := by
  induction rounds generalizing delta prev with
  | zero => rw [gallopWithin, if_pos (by omega), gallop]
  | succ rounds ih =>
    rw [gallopWithin, gallop]
    split_ifs with hend hhigh
    · rfl
    · rfl
    · exact ih (by omega) (by omega)

/-- Every round of the advance makes a step, whatever the links are. -/
lemma advanceWithin_eq {l : List Int} {v : Int} (rounds : Nat) {p : Nat} (hle : p ≤ l.length)
    (hrounds : l.length ≤ p + rounds) :
    advanceWithin l v (l.length + 1) (rounds + 1) p = some (advance l v rounds p) := by
  induction rounds generalizing p with
  | zero => rw [advanceWithin, if_pos (by omega), advance]
  | succ rounds ih =>
    rw [advanceWithin, advance]
    split_ifs with hend hhigh
    · rfl
    · rfl
    · obtain ⟨q, hq⟩ : ∃ q, gallop l v p l.length 1 (p + 1) = q := ⟨_, rfl⟩
      obtain ⟨hpq, hqle, -⟩ := gallop_spec l.length one_pos (by omega) (by omega) (.inl rfl) hq
      rw [gallopWithin_eq l.length one_pos (by omega), hq, Option.bind_some]
      exact ih hqle (by omega)

/-- The rows the advance passes have smaller links. -/
lemma lt_of_lt_advance {l : List Int} {v : Int} (hl : Ascending l) {p j : Nat} (hpj : p ≤ j)
    (hj : j < advance l v l.length p) (hjl : j < l.length) : l.getD j 0 < v := by
  by_cases hhigh : v ≤ l.getD p 0
  · have hstay : advance l v l.length p = p := by
      cases hn : l.length with
      | zero => rfl
      | succ n => rw [advance, if_neg (by omega), if_pos hhigh]
    omega
  · have hbelow : BelowAt l v p := fun i hi hil =>
      (hl.getD_le hi.le (by omega)).trans_lt (not_le.mp hhigh)
    exact (advance_spec hl l.length hbelow (by omega) (by omega)).below j hj hjl

/-! ### Aggregates -/

section

variable {w : Nat} {J : JoinArgs w}

/-- `x` is the aggregate of the values `xs`, the last of them for `reg`. Only the operations with a
null column are considered. -/
def JoinOp.Aggregates (xs : List (BitVec w)) (x : BitVec w) : JoinOp → Prop
  | .joinReg => xs.getLast? = some x
  | .joinOr => ∀ k, x.getLsbD k = xs.any fun y => y.getLsbD k
  | .joinAnd => ∀ k < w, x.getLsbD k = xs.all fun y => y.getLsbD k
  | .joinMin => x ∈ xs ∧ ∀ y ∈ xs, x.toInt ≤ y.toInt
  | .joinMax => x ∈ xs ∧ ∀ y ∈ xs, y.toInt ≤ x.toInt
  | .joinCnt | .joinSum | .joinExists | .joinMinidx | .joinMaxidx => False

/-- The values of the source rows with link `v`, in the order of the rows. -/
def sourceVals (J : JoinArgs w) (v : Int) : List (BitVec w) := (sourceRows J v).map J.srcVal

lemma sourceVals_ne_nil {v : Int} (hv : v ∈ J.srcLnk) : sourceVals J v ≠ [] := by
  obtain ⟨j, hj, rfl⟩ := exists_getD_of_mem hv
  refine List.ne_nil_of_mem (List.mem_map_of_mem (f := J.srcVal) (a := j) ?_)
  exact List.mem_filter.mpr ⟨List.mem_range.mpr hj, decide_eq_true rfl⟩

/-- A row takes in the values of its source rows one after another. -/
lemma rowValue_eq_foldl {f : BitVec w → BitVec w → BitVec w}
    (hf : ∀ j x, combine J j x = f x (J.srcVal j)) (v : Int) (x : BitVec w) :
    rowValue J v x = (sourceVals J v).foldl f x := by
  rw [sourceVals, sourceRows, List.foldl_map, List.foldl_filter, rowValue]
  congr 1
  funext y j
  simp [stepAt, hf]

lemma foldl_last (xs : List (BitVec w)) (c : BitVec w) :
    xs.foldl (fun _ y => y) c = xs.getLast?.getD c := by
  induction xs generalizing c with
  | nil => rfl
  | cons x xs ih => rw [List.foldl_cons, ih, List.getLast?_cons, Option.getD_some]

lemma getLsbD_foldl_or (xs : List (BitVec w)) (c : BitVec w) (k : Nat) :
    (xs.foldl (· ||| ·) c).getLsbD k = (c.getLsbD k || xs.any fun y => y.getLsbD k) := by
  induction xs generalizing c with
  | nil => simp
  | cons x xs ih => rw [List.foldl_cons, ih, BitVec.getLsbD_or, List.any_cons, Bool.or_assoc]

lemma getLsbD_foldl_and (xs : List (BitVec w)) (c : BitVec w) (k : Nat) :
    (xs.foldl (· &&& ·) c).getLsbD k = (c.getLsbD k && xs.all fun y => y.getLsbD k) := by
  induction xs generalizing c with
  | nil => simp
  | cons x xs ih => rw [List.foldl_cons, ih, BitVec.getLsbD_and, List.all_cons, Bool.and_assoc]

/-- The smaller one of two values, by a key. -/
def pickLess (key : BitVec w → Int) (x y : BitVec w) : BitVec w := if key y < key x then y else x

lemma foldl_pickLess (key : BitVec w → Int) (xs : List (BitVec w)) (c : BitVec w) :
    (xs.foldl (pickLess key) c = c ∨ xs.foldl (pickLess key) c ∈ xs) ∧
      ∀ y ∈ c :: xs, key (xs.foldl (pickLess key) c) ≤ key y := by
  induction xs generalizing c with
  | nil => simp
  | cons x xs ih =>
    obtain ⟨hmem, hle⟩ := ih (pickLess key c x)
    rw [List.forall_mem_cons] at hle
    rw [List.foldl_cons]
    have hpick : pickLess key c x = c ∧ key c ≤ key x ∨ pickLess key c x = x ∧ key x ≤ key c := by
      unfold pickLess
      split_ifs with hlt
      · exact .inr ⟨rfl, hlt.le⟩
      · exact .inl ⟨rfl, not_lt.mp hlt⟩
    rcases hpick with ⟨heq, hkey⟩ | ⟨heq, hkey⟩
    · rw [heq] at hmem hle ⊢
      refine ⟨hmem.imp_right (List.mem_cons_of_mem x), ?_⟩
      simp only [List.forall_mem_cons]
      exact ⟨hle.1, hle.1.trans hkey, hle.2⟩
    · rw [heq] at hmem hle ⊢
      refine ⟨.inr (List.mem_cons.mpr hmem), ?_⟩
      simp only [List.forall_mem_cons]
      exact ⟨hle.1.trans hkey, hle.1, hle.2⟩

/-- Beginning with a value that is not smaller than any other leaves the least of the values. -/
lemma foldl_pickLess_mem (key : BitVec w → Int) (hinj : Function.Injective key) {xs : List (BitVec w)}
    (hxs : xs ≠ []) {c : BitVec w} (hc : ∀ y, key y ≤ key c) :
    xs.foldl (pickLess key) c ∈ xs ∧ ∀ y ∈ xs, key (xs.foldl (pickLess key) c) ≤ key y := by
  obtain ⟨hmem, hle⟩ := foldl_pickLess key xs c
  rw [List.forall_mem_cons] at hle
  refine ⟨hmem.elim (fun heq => ?_) id, hle.2⟩
  obtain ⟨y, hy⟩ := List.exists_mem_of_ne_nil xs hxs
  have hkey : key c = key y := le_antisymm (heq ▸ hle.2 y hy) (hc y)
  rw [heq, hinj hkey]
  exact hy

lemma toInt_injective : Function.Injective (BitVec.toInt (n := w)) :=
  fun _ _ h => BitVec.toInt_inj.mp h

lemma toInt_le_intMax (y : BitVec w) : y.toInt ≤ (BitVec.intMax w).toInt := by
  have hlt := BitVec.toInt_lt (x := y)
  rw [BitVec.toInt_intMax]
  omega

/-- What a matched row of an operation with a null column gets. -/
lemma rowValue_aggregates (hop : J.op.hasNn = true) {v : Int} (hv : v ∈ J.srcLnk) :
    J.op.Aggregates (sourceVals J v) (rowValue J v (initialValue w J.op)) := by
  have hne := sourceVals_ne_nil hv
  cases hJ : J.op with
  | joinReg =>
    rw [rowValue_eq_foldl (f := fun _ y => y) (by simp [combine, hJ]), foldl_last]
    obtain ⟨x, hx⟩ := Option.ne_none_iff_exists'.mp fun h => hne (List.getLast?_eq_none_iff.mp h)
    rw [JoinOp.Aggregates, hx, Option.getD_some]
  | joinOr =>
    rw [rowValue_eq_foldl (f := (· ||| ·)) (by simp [combine, hJ])]
    intro k
    rw [getLsbD_foldl_or]
    simp [initialValue]
  | joinAnd =>
    rw [rowValue_eq_foldl (f := (· &&& ·)) (by simp [combine, hJ])]
    intro k hk
    rw [getLsbD_foldl_and]
    simp [initialValue, hk]
  | joinMin =>
    rw [rowValue_eq_foldl (f := pickLess BitVec.toInt) (by simp [combine, hJ, pickLess])]
    exact foldl_pickLess_mem _ toInt_injective hne toInt_le_intMax
  | joinMax =>
    rw [rowValue_eq_foldl (f := pickLess fun y => -y.toInt) (by simp [combine, hJ, pickLess])]
    obtain ⟨hmem, hle⟩ := foldl_pickLess_mem (fun y => -y.toInt)
      (fun x y h => toInt_injective (neg_injective h)) hne (c := BitVec.intMin w)
      fun y => neg_le_neg (BitVec.toInt_intMin_le y)
    exact ⟨hmem, fun y hy => neg_le_neg_iff.mp (hle y hy)⟩
  | joinCnt | joinSum | joinMinidx | joinMaxidx | joinExists => simp [hJ, JoinOp.hasNn] at hop

/-- The walk of `core_srt_join` ends and passes no row with the link it looks for. A row of the
block is not null exactly if its link occurs in the source, and then has the aggregate of the
source rows with this link. -/
theorem coreSrtJoin_computes_join (hop : J.op.hasNn = true) (hl : Ascending J.srcLnk)
    (hd : Ascending J.dstLnk) {lb ub : Nat} (hub : ub ≤ J.dstLnk.length)
    (val : Nat → BitVec w) (nn : Nat → Bool) :
    (∀ v p, p ≤ J.srcLnk.length →
      advanceWithin J.srcLnk v (J.srcLnk.length + 1) (J.srcLnk.length + 1) p =
          some (advance J.srcLnk v J.srcLnk.length p) ∧
        ∀ j, p ≤ j → j < advance J.srcLnk v J.srcLnk.length p → j < J.srcLnk.length →
          J.srcLnk.getD j 0 < v) ∧
    ∀ i, lb ≤ i → i < ub →
      ((coreSrtJoin J lb ub val nn).nn i = true ↔ J.link i ∈ J.srcLnk) ∧
      (J.link i ∈ J.srcLnk →
        J.op.Aggregates (sourceVals J (J.link i)) ((coreSrtJoin J lb ub val nn).val i)) := by
  constructor
  · intro v p hp
    exact ⟨advanceWithin_eq J.srcLnk.length hp (by omega),
      fun j hpj hj hjl => lt_of_lt_advance hl hpj hj hjl⟩
  · intro i h1 h2
    obtain ⟨-, hval, hnn⟩ := coreSrtJoin_hasNn hl hd hop (h1.trans h2.le) hub val nn rfl
    rw [hval, hnn, if_pos ⟨h1, h2⟩, if_pos ⟨h1, h2⟩]
    refine ⟨decide_eq_true_iff, fun hmem => ?_⟩
    rw [cellOf, if_neg fun h => h.1 hmem]
    exact rowValue_aggregates hop hmem

end

/-- The source rows have the links 1, 5, 5 and the values 9, 8, 7. -/
def minJoin : JoinArgs 32 := ⟨.joinMin, [1, 5, 5], fun j => BitVec.ofNat 32 (9 - j), [5, 6]⟩

/-- The least value of the two source rows with link 5. -/
theorem coreSrtJoin_computes_join_min :
    Ascending minJoin.srcLnk ∧ Ascending minJoin.dstLnk ∧ sourceVals minJoin 5 = [8, 7] ∧
      (coreSrtJoin minJoin 0 2 (fun _ => 0) (fun _ => false)).nn 0 = true ∧
      JoinOp.Aggregates (sourceVals minJoin 5)
        ((coreSrtJoin minJoin 0 2 (fun _ => 0) (fun _ => false)).val 0) .joinMin := by
  have hl : Ascending [1, 5, 5] := by
    unfold Ascending
    decide
  have hd : Ascending [5, 6] := by
    unfold Ascending
    decide
  have hmem : minJoin.link 0 ∈ minJoin.srcLnk := by decide
  obtain ⟨hnn, hval⟩ := (coreSrtJoin_computes_join (J := minJoin) rfl hl hd le_rfl
    (fun _ => 0) (fun _ => false)).2 0 le_rfl two_pos
  exact ⟨hl, hd, by decide, hnn.mpr hmem, hval hmem⟩

end Datacl
