import Datacl.Join.Parallel

/-!
# Whether the sorted join notices the rows without a match

The flag `is_any_null` of a block depends on the links alone. It is not raised when the loop is left
because the source has been used up.
-/

namespace Datacl

section

variable {w : Nat} {J : JoinArgs w} {lb ub : Nat}

/-! ### The flag depends on the links alone -/

lemma consume_fst {v : Int} (left p : Nat) (x y : BitVec w) :
    (consume J v left p x).1 = (consume J v left p y).1 := by
  induction left generalizing p x y with
  | zero => rfl
  | succ left ih =>
    rw [consume, consume]
    split_ifs with heq
    · exact ih (p + 1) _ _
    · rfl

/-- What the further walk depends on. -/
def JoinState.walk (s : JoinState w) : Nat × Bool := (s.srcIdx, s.isAnyNull)

lemma joinRow_walk (lb i : Nat) {s t : JoinState w} (h : s.walk = t.walk) :
    (joinRow J lb i s).map JoinState.walk = (joinRow J lb i t).map JoinState.walk := by
  obtain ⟨hsrc, hnull⟩ := Prod.mk.inj h
  unfold joinRow
  dsimp only
  rw [hsrc, hnull]
  split_ifs with hcopy hend hfound
  · rfl
  · rfl
  · refine congrArg some (Prod.ext ?_ rfl)
    exact consume_fst _ _ _ _
  · rfl

lemma joinLoop_walk (lb n i : Nat) {s t : JoinState w} (h : s.walk = t.walk) :
    (joinLoop J lb n i s).walk = (joinLoop J lb n i t).walk := by
  induction n generalizing i s t with
  | zero => exact h
  | succ n ih =>
    have hrow := joinRow_walk (J := J) lb i h
    rw [joinLoop, joinLoop]
    cases hs : joinRow J lb i s with
    | none =>
      rw [hs] at hrow
      rw [Option.map_eq_none_iff.mp hrow.symm]
      exact h
    | some s' =>
      rw [hs, Option.map_some] at hrow
      obtain ⟨t', ht, htwalk⟩ := Option.map_eq_some_iff.mp hrow.symm
      rw [ht]
      exact ih (i + 1) htwalk.symm

lemma clearNulls_isAnyNull (op : JoinOp) (out : JoinOut w) :
    (clearNulls op lb ub out).isAnyNull = out.isAnyNull := by
  unfold clearNulls
  split_ifs with hclear
  · rfl
  · rfl

lemma coreSrtJoin_isAnyNull (hl : Ascending J.srcLnk) (hd : Ascending J.dstLnk)
    (hub : ub ≤ J.dstLnk.length) (val : Nat → BitVec w) (nn : Nat → Bool) :
    (coreSrtJoin J lb ub val nn).isAnyNull = true ↔ Noticed J lb ub := by
  rw [coreSrtJoin, clearNulls_isAnyNull]
  have hwalk := joinLoop_walk (J := J) lb (ub - lb) lb
    (s := ⟨⟨setInit J.op lb ub val, if J.op.hasNn then assignConst lb ub false nn else nn, false⟩, 0⟩)
    (t := ⟨⟨fun _ => 0, fun _ => false, false⟩, 0⟩) rfl
  rw [(Prod.mk.inj hwalk).2]
  rcases Nat.lt_or_ge ub lb with hlt | hle
  · rw [Nat.sub_eq_zero_of_le hlt.le, joinLoop]
    refine ⟨fun h => absurd h Bool.false_ne_true, ?_⟩
    rintro ⟨j, h1, h2, -⟩
    omega
  · exact (joinLoop_block hl hd hle hub (fun _ _ _ => rfl) (fun _ _ _ _ => rfl) rfl).2

/-! ### Rows without a match -/

/-- If a link of the block is larger than all links of the source, another one is missing below the
largest link of the source, or there is a null column and the source is not used up by a match. -/
def NullsNoticed (J : JoinArgs w) (lb ub : Nat) : Prop :=
  (∃ j, lb ≤ j ∧ j < ub ∧ ∀ s ∈ J.srcLnk, s < J.link j) →
    Gap J lb ub ∨ J.op.hasNn = true ∧ J.srcLnk ≠ [] ∧ ¬ HasLargest J lb ub

lemma exists_unmatched_iff :
    (∃ j, lb ≤ j ∧ j < ub ∧ J.link j ∉ J.srcLnk) ↔
      Gap J lb ub ∨ ∃ j, lb ≤ j ∧ j < ub ∧ ∀ s ∈ J.srcLnk, s < J.link j := by
  constructor
  · rintro ⟨j, h1, h2, hmiss⟩
    by_cases hex : ∃ s ∈ J.srcLnk, J.link j < s
    · exact .inl ⟨j, h1, h2, hmiss, hex⟩
    · push Not at hex
      exact .inr ⟨j, h1, h2, fun s hs => lt_of_le_of_ne (hex s hs) fun heq => hmiss (heq ▸ hs)⟩
  · rintro (⟨j, h1, h2, hmiss, -⟩ | ⟨j, h1, h2, hall⟩)
    · exact ⟨j, h1, h2, hmiss⟩
    · exact ⟨j, h1, h2, fun hmem => lt_irrefl _ (hall _ hmem)⟩

lemma noticed_iff_or (hd : Ascending J.dstLnk) (hub : ub ≤ J.dstLnk.length) :
    Noticed J lb ub ↔ Gap J lb ub ∨ J.op.hasNn = true ∧ Beyond J lb ub ∧ ¬ HasLargest J lb ub := by
  cases hop : J.op.hasNn with
  | false => simp [noticed_iff_gap hop]
  | true => simp [noticed_iff hd hub hop]

/-- The flag says whether a row of the block has no match exactly if a link that is too large is
noticed. -/
theorem coreSrtJoin_isAnyNull_iff (hl : Ascending J.srcLnk) (hd : Ascending J.dstLnk)
    (hub : ub ≤ J.dstLnk.length) (val : Nat → BitVec w) (nn : Nat → Bool) :
    ((coreSrtJoin J lb ub val nn).isAnyNull = true ↔
      ∃ j, lb ≤ j ∧ j < ub ∧ J.link j ∉ J.srcLnk) ↔ NullsNoticed J lb ub := by
  rw [coreSrtJoin_isAnyNull hl hd hub, exists_unmatched_iff, noticed_iff_or hd hub]
  constructor
  · intro h hlarge
    rcases h.mpr (.inr hlarge) with hgap | ⟨hop, hbeyond, hlargest⟩
    · exact .inl hgap
    · exact .inr ⟨hop, hbeyond.1, hlargest⟩
  · intro h
    constructor
    · rintro (hgap | ⟨-, ⟨-, hlarge⟩, -⟩)
      · exact .inl hgap
      · exact .inr hlarge
    · rintro (hgap | hlarge)
      · exact .inl hgap
      · rcases h hlarge with hgap | ⟨hop, hne, hlargest⟩
        · exact .inl hgap
        · exact .inr ⟨hop, ⟨hne, hlarge⟩, hlargest⟩

end

/-- A link that is missing below the largest link of the source. -/
theorem coreSrtJoin_isAnyNull_gap :
    Ascending [1, 3] ∧ Ascending [2, 3] ∧
      ((coreSrtJoin (w := 32) ⟨.joinReg, [1, 3], fun _ => 7, [2, 3]⟩ 0 2 (fun _ => 0)
        (fun _ => false)).isAnyNull = true ↔ ∃ j, 0 ≤ j ∧ j < 2 ∧ [2, 3].getD j (0 : Int) ∉ [1, 3]) := by
  have hl : Ascending [1, 3] := by
    unfold Ascending
    decide
  have hd : Ascending [2, 3] := by
    unfold Ascending
    decide
  refine ⟨hl, hd, (coreSrtJoin_isAnyNull_iff (J := ⟨.joinReg, [1, 3], fun _ => 7, [2, 3]⟩) hl hd
    le_rfl (fun _ => 0) (fun _ => false)).mpr fun _ => .inl ?_⟩
  exact ⟨0, le_rfl, two_pos, by decide, 3, by decide, by decide⟩

/-- The source is used up by the match of the first row; the second row has no match. -/
theorem coreSrtJoin_isAnyNull_overlooked :
    ¬ ((coreSrtJoin (w := 32) ⟨.joinReg, [1], fun _ => 7, [1, 2]⟩ 0 2 (fun _ => 0)
        (fun _ => false)).isAnyNull = true ↔ ∃ j, 0 ≤ j ∧ j < 2 ∧ [1, 2].getD j (0 : Int) ∉ [1]) := by
  intro h
  have hflag := h.mpr ⟨1, by decide, by decide, by decide⟩
  exact absurd hflag (by decide +kernel)

end Datacl
