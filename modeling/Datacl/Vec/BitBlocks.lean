import Datacl.Vec.BitColumn

/-!
# When bit columns behave like byte columns

Each block treats its whole words only, and a block that does not begin with a whole word is an
error. What is left of the last word keeps what the output buffer held.
-/

namespace Datacl

open Words

/-! ### The loop over words -/

/-- Rows below `m` hold the result, the others what `opX` held. -/
structure WrittenTo (op : BitOp) (f1X f2X opX : List Byte) (m : Nat) (out : List Byte) : Prop where
  length : out.length = opX.length
  bits : ∀ i, bitAt out i = if i < m then op.onBit (bitAt f1X i) (bitAt f2X i) else bitAt opX i

section Written

variable {op : BitOp} {f1X f2X opX out : List Byte}

lemma WrittenTo.start : WrittenTo op f1X f2X opX 0 opX := ⟨rfl, fun i => by simp⟩

lemma WrittenTo.store {k : Nat} (h : WrittenTo op f1X f2X opX (64 * k) out)
    (hk : 8 * k + 8 ≤ opX.length) :
    WrittenTo op f1X f2X opX (64 * (k + 1))
      (store out k (op.onWord (load f1X k) (load f2X k))) := by
  have hk' : 8 * k + 8 ≤ out.length := by rw [h.length]; exact hk
  refine ⟨(length_store hk' _).trans h.length, fun i => ?_⟩
  rw [bitAt_store hk']
  by_cases hw : i / 64 = k
  · have hsplit : 64 * k + i % 64 = i := by omega
    have hmod : i % 64 < 64 := Nat.mod_lt _ (by omega)
    rw [if_pos hw, if_pos (by omega), getLsbD_onWord op _ _ hmod, bitAt_load hmod, bitAt_load hmod,
      hsplit]
  · rw [if_neg hw, h.bits]
    by_cases hlt : i < 64 * k
    · rw [if_pos hlt, if_pos (by omega)]
    · rw [if_neg hlt, if_neg (by omega)]

lemma WrittenTo.bwiseLoop {first nWords : Nat} (h : WrittenTo op f1X f2X opX (64 * first) out)
    (hn : 8 * (first + nWords) ≤ opX.length) :
    WrittenTo op f1X f2X opX (64 * (first + nWords)) (bwiseLoop op f1X f2X first nWords out) := by
  induction nWords with
  | zero => exact h
  | succ n ih =>
    rw [Datacl.bwiseLoop, List.range_succ, List.foldl_append]
    exact (ih (by omega)).store (by omega)

/-- A block that begins with a whole word. -/
lemma WrittenTo.bitBlock {nR bs nT tid ub : Nat} (h : WrittenTo op f1X f2X opX (tid * bs) out)
    (hbounds : blockBounds nR bs nT tid = (tid * bs, ub)) (h64 : 64 ∣ tid * bs)
    (hle : tid * bs ≤ ub) (hub : ub ≤ 8 * opX.length) :
    ∃ out', bitBlock op f1X f2X nR bs nT out tid = some out' ∧
      WrittenTo op f1X f2X opX (64 * (ub / 64)) out' := by
  rw [Datacl.bitBlock, hbounds]
  obtain ⟨first, hfirst⟩ := h64
  rw [hfirst] at h hle ⊢
  have hdiv : 64 * first / 64 = first := Nat.mul_div_cancel_left _ (by omega)
  refine ⟨_, if_neg (by omega), ?_⟩
  have hend : ub / 64 = first + (ub - 64 * first) / 64 := by omega
  rw [hdiv, hend]
  exact h.bwiseLoop (by omega)

end Written

/-! ### The blocks -/

section Blocks

variable {op : BitOp} {f1X f2X opX : List Byte} {nR : Nat}

lemma bitBlocks_before_last (op : BitOp) (f1X f2X : List Byte) {bs n : Nat}
    (hle : (n + 1) * bs ≤ nR) (hbuf : nR ≤ 8 * opX.length) {m : Nat} (hm : m ≤ n) (h64 : 64 ∣ bs ∨ m = 0) :
    ∃ out, (List.range m).foldlM (bitBlock op f1X f2X nR bs (n + 1)) opX = some out ∧
      WrittenTo op f1X f2X opX (m * bs) out := by
  induction m with
  | zero => exact ⟨opX, rfl, by simpa using WrittenTo.start⟩
  | succ m ih =>
    have hdvd : 64 ∣ bs := by simpa using h64
    obtain ⟨out, hrun, hout⟩ := ih (by omega) (.inl hdvd)
    have hbounds : blockBounds nR bs (n + 1) m = (m * bs, m * bs + bs) := by
      rw [blockBounds, if_neg (by omega)]
    have hub : m * bs + bs ≤ nR := by
      rw [← Nat.succ_mul]
      exact (Nat.mul_le_mul_right bs (by omega)).trans hle
    obtain ⟨out', hblock, hout'⟩ := hout.bitBlock hbounds (hdvd.mul_left m) (by omega) (by omega)
    refine ⟨out', ?_, ?_⟩
    · rw [List.range_succ, List.foldlM_append, hrun]
      simp [hblock]
    · rwa [← Nat.succ_mul, Nat.mul_div_cancel' (hdvd.mul_left _)] at hout'

/-- `block_size` in whole words, or a single block. -/
def WholeWords (blockSize nT : Int) : Prop := nT = 1 ∨ 64 ∣ blockSize

instance (blockSize nT : Int) : Decidable (WholeWords blockSize nT) :=
  inferInstanceAs (Decidable (_ ∨ _))

lemma vecF1f2opf3B_wholeWords (op : BitOp) (f1X f2X : List Byte) {blockSize nT : Int}
    (hp : partition nR 4096 (-1) = some (blockSize, nT)) (hw : WholeWords blockSize nT)
    (hbuf : nR ≤ 8 * opX.length) :
    ∃ out, vecF1f2opf3B nR f1X f2X op opX = some out ∧
      WrittenTo op f1X f2X opX (64 * (nR / 64)) out := by
  obtain ⟨-, hnT, hbs, hle, -⟩ := partition_spec hp
  obtain ⟨bs, rfl⟩ := Int.eq_ofNat_of_zero_le hbs.le
  obtain ⟨n, rfl⟩ : ∃ n : Nat, nT = (n + 1 : Nat) := ⟨(nT - 1).toNat, by omega⟩
  have hle' : (n + 1) * bs ≤ nR := by exact_mod_cast hle
  have h64 : 64 ∣ bs ∨ n = 0 := by
    rcases hw with hone | hdvd
    · exact .inr (by omega)
    · exact .inl (Int.natCast_dvd_natCast.mp hdvd)
  obtain ⟨out, hrun, hout⟩ := bitBlocks_before_last op f1X f2X hle' hbuf le_rfl h64
  have hdvd : 64 ∣ n * bs := by
    rcases h64 with hdvd | rfl
    · exact hdvd.mul_left n
    · rw [Nat.zero_mul]
      exact dvd_zero _
  have hbounds : blockBounds nR bs (n + 1) n = (n * bs, nR) := by rw [blockBounds, if_pos rfl]
  have hnR : n * bs ≤ nR := (Nat.mul_le_mul_right bs (by omega)).trans hle'
  obtain ⟨out', hblock, hout'⟩ := hout.bitBlock hbounds hdvd hnR hbuf
  refine ⟨out', ?_, hout'⟩
  rw [vecF1f2opf3B, hp, Option.bind_eq_bind, Option.bind_some]
  dsimp only
  rw [Int.toNat_natCast, Int.toNat_natCast, List.range_succ, List.foldlM_append, hrun]
  simp [hblock]

/-- The second block does not begin with a whole word. -/
lemma vecF1f2opf3B_not_wholeWords {blockSize nT : Int}
    (hp : partition nR 4096 (-1) = some (blockSize, nT)) (hw : ¬ WholeWords blockSize nT) :
    vecF1f2opf3B nR f1X f2X op opX = none := by
  obtain ⟨-, hnT, hbs, -⟩ := partition_spec hp
  obtain ⟨bs, rfl⟩ := Int.eq_ofNat_of_zero_le hbs.le
  rw [WholeWords, not_or] at hw
  have hlb : 1 * bs / 64 * 64 ≠ 1 * bs := by omega
  rw [vecF1f2opf3B, hp, Option.bind_eq_bind, Option.bind_some]
  exact foldlM_eq_none (a := 1) (List.mem_range.mpr (by omega)) (fun s => if_pos hlb) opX

end Blocks

/-! ### The round trip -/

lemma zipWith_eq_map_range (f : Byte → Byte → Byte) {xs ys : List Byte}
    (hlen : xs.length = ys.length) :
    List.zipWith f xs ys = (List.range xs.length).map fun i => f (xs.getD i 0) (ys.getD i 0) := by
  apply List.ext_getElem
  · simp [hlen]
  · intro i h1 h2
    have hi : i < xs.length := by simpa using h2
    simp [hi, hlen ▸ hi]

/-- Rows in whole words are right. -/
lemma onI1_eq_flagOf (op : BitOp) {f1X f2X opX out : List Byte} {m i : Nat} (h1 : IsFlags f1X)
    (h2 : IsFlags f2X) (hlen : f1X.length = f2X.length) (hi : i < f1X.length)
    (hout : WrittenTo op (packed f1X) (packed f2X) opX m out) :
    op.onI1 (f1X.getD i 0) (f2X.getD i 0) = flagOf (bitAt out i) ↔
      (m ≤ i → op.onI1 (f1X.getD i 0) (f2X.getD i 0) = flagOf (bitAt opX i)) := by
  have hflag : ∀ {X : List Byte}, IsFlags X → i < X.length → X.getD i 0 = 0 ∨ X.getD i 0 = 1 := by
    intro X hX hi
    rw [List.getD_eq_getElem?_getD, List.getElem?_eq_getElem hi, Option.getD_some]
    exact hX _ (List.getElem_mem hi)
  rw [hout.bits]
  by_cases him : i < m
  · rw [if_pos him, bitAt_packed h1 hi, bitAt_packed h2 (hlen ▸ hi)]
    exact iff_of_true (onI1_flags op (hflag h1 hi) (hflag h2 (hlen ▸ hi))) (fun h => by omega)
  · rw [if_neg him]
    exact ⟨fun h _ => h, fun h => h (by omega)⟩

theorem viaBits_eq_iff (op : BitOp) {f1X f2X opX : List Byte} (h1 : IsFlags f1X) (h2 : IsFlags f2X)
    (hlen : f1X.length = f2X.length) (hbuf : f1X.length ≤ 8 * opX.length) :
    viaBits op f1X f2X opX = some (List.zipWith op.onI1 f1X f2X) ↔
      ∃ blockSize nT, partition f1X.length 4096 (-1) = some (blockSize, nT) ∧
        WholeWords blockSize nT ∧ ∀ i < f1X.length, 64 * (f1X.length / 64) ≤ i →
          op.onI1 (f1X.getD i 0) (f2X.getD i 0) = flagOf (bitAt opX i) := by
  have hvia : viaBits op f1X f2X opX =
      (vecF1f2opf3B f1X.length (packed f1X) (packed f2X) op opX).bind fun b3 =>
        convBtoI1 b3 f1X.length := by
    rw [viaBits, convI1toB_eq, convI1toB_eq]
    rfl
  rw [hvia, zipWith_eq_map_range _ hlen]
  cases hp : partition f1X.length 4096 (-1) with
  | none =>
    rw [vecF1f2opf3B, hp]
    exact ⟨fun h => (nomatch h), fun ⟨_, _, h, _⟩ => (nomatch h)⟩
  | some p =>
    obtain ⟨blockSize, nT⟩ := p
    by_cases hw : WholeWords blockSize nT
    · obtain ⟨out, hrun, hout⟩ := vecF1f2opf3B_wholeWords op (packed f1X) (packed f2X) hp hw hbuf
      rw [hrun, Option.bind_some, convBtoI1_eq, Option.some_inj, List.map_inj_left]
      have hrow : ∀ i < f1X.length,
          (flagOf (bitAt out i) = op.onI1 (f1X.getD i 0) (f2X.getD i 0) ↔
            (64 * (f1X.length / 64) ≤ i →
              op.onI1 (f1X.getD i 0) (f2X.getD i 0) = flagOf (bitAt opX i))) :=
        fun i hi => eq_comm.trans (onI1_eq_flagOf op h1 h2 hlen hi hout)
      constructor
      · intro h
        exact ⟨_, _, rfl, hw, fun i hi => (hrow i hi).mp (h i (List.mem_range.mpr hi))⟩
      · rintro ⟨_, _, -, -, h⟩ i hi
        exact (hrow i (List.mem_range.mp hi)).mpr (h i (List.mem_range.mp hi))
    · rw [vecF1f2opf3B_not_wholeWords hp hw, Option.bind_none]
      refine ⟨fun h => (nomatch h), ?_⟩
      rintro ⟨_, _, heq, hw', -⟩
      cases heq
      exact absurd hw' hw

/-- 64 rows are one word. -/
theorem viaBits_eq_one_word :
    IsFlags (List.replicate 64 1) ∧
      viaBits .and (List.replicate 64 1) (List.replicate 64 1) (List.replicate 8 0) =
        some (List.zipWith BitOp.and.onI1 (List.replicate 64 1) (List.replicate 64 1)) := by
  have hflags : IsFlags (List.replicate 64 1) := fun x hx => .inr (List.eq_of_mem_replicate hx)
  refine ⟨hflags, (viaBits_eq_iff .and hflags hflags rfl (by decide)).mpr
    ⟨64, 1, by decide, by decide, fun i hi hle => ?_⟩⟩
  rw [List.length_replicate] at hi hle
  omega

/-- A single row is no whole word: the output file keeps the 0 it was made with. -/
theorem viaBits_one_row_lost :
    IsFlags [1] ∧ viaBits .and [1] [1] (List.replicate 1024 0) ≠
      some (List.zipWith BitOp.and.onI1 [1] [1]) := by
  constructor
  · intro x hx
    exact .inr (List.mem_singleton.mp hx)
  · decide

end Datacl
