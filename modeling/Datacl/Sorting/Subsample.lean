import Datacl.Lib.Swap
import Datacl.Vec.Partition
import Mathlib.Data.List.Nodup
import Mathlib.Data.Rat.Floor

/-!
# Subsampling: `subsample.c`

Every block permutes the row numbers of its part of `f1` and takes as many rows as its part of the
output needs. The last output block takes up the remainder, the last input block does not. Adding the
output to `t2` is not part of the model.
-/

namespace Datacl

open Swapping

/-- What can go wrong: an error is reported, or an array is read outside of its bounds. -/
inductive Fault where
  | status
  | outside
  deriving DecidableEq

/-! ### `permute` -/

/-- Rounding to a double: monotone, and exact on the integers that fit into the mantissa. -/
structure DoubleRounding (fl : ℚ → ℚ) : Prop where
  mono : Monotone fl
  exact : ∀ z : Int, 0 ≤ z → z ≤ 2 ^ 53 → fl z = z

/-- `pos` for a draw. -/
def drawPos (fl : ℚ → ℚ) (n : Nat) (dtemp : ℚ) : Nat :=
  let pos := ⌊fl (dtemp * n)⌋.toNat
  if pos = n then pos - 1 else pos

/-- The loop of `permute` on the positions below the first argument. -/
def permuteLoop {α : Type} (fl : ℚ → ℚ) (n : Nat) (draw : Nat → ℚ) : Nat → List α → Except Fault (List α)
  | 0, X => .ok X
  | k + 1, X =>
    match swapAt X (drawPos fl n (draw (n - 1 - k))) k with
    | none => .error .outside
    | some X' => permuteLoop fl n draw k X'

/-- `permute`, with the draws of `drand48_r`. -/
def permute {α : Type} (fl : ℚ → ℚ) (draw : Nat → ℚ) (X : List α) : Except Fault (List α) :=
  if X.length ≤ 1 then .error .status else permuteLoop fl X.length draw X.length X

/-! ### The command -/

/-- The first row of a block of the input and its length. -/
def inputBlock (nR1 blockSize1 tid : Nat) : Nat × Nat :=
  let lb1 := tid * blockSize1
  (lb1, min (lb1 + blockSize1) nR1 - lb1)

/-- The number of rows of a block of the output. -/
def range2 (nR2 blockSize2 nT tid : Nat) : Nat :=
  let (lb2, ub2) := blockBounds nR2 blockSize2 nT tid
  ub2 - lb2

/-- `idxs[i]` of the rows of `f1` from `lb1` on, for `i` below `n`. -/
def pickRows {α : Type} (f1 : List α) (lb1 n : Nat) (idxs : List Nat) : Except Fault (List α) :=
  (List.range n).mapM fun i =>
    match idxs[i]?.bind fun k => f1[lb1 + k]? with
    | none => .error .outside
    | some v => .ok v

/-- One block. -/
def subsampleBlock {α : Type} (fl : ℚ → ℚ) (draw : Nat → Nat → ℚ) (f1 : List α)
    (nR2 blockSize1 blockSize2 nT tid : Nat) : Except Fault (List α) :=
  let (lb1, range1) := inputBlock f1.length blockSize1 tid
  if range1 = 0 then .error .status
  else if 16 * 1048576 ≤ range1 then .error .status
  else do
    let idxs ← permute fl (draw tid) (List.range range1)
    pickRows f1 lb1 (range2 nR2 blockSize2 nT tid) idxs

/-- `subsample` of a column to `nR2` rows. Each block has draws of its own. -/
def subsample {α : Type} (fl : ℚ → ℚ) (draw : Nat → Nat → ℚ) (f1 : List α) (nR2 : Nat) :
    Except Fault (List α) :=
  if nR2 = 0 ∨ f1.length ≤ nR2 then .error .status
  else
    match partition nR2 1024 (-1) with
    | none => .error .status
    | some (blockSize2, nT) => do
      let blocks ← (List.range nT.toNat).mapM
        (subsampleBlock fl draw f1 nR2 (f1.length / nT.toNat) blockSize2.toNat nT.toNat)
      pure blocks.flatten

/-- An error is reported, or the output is a sample without replacement; no array is read outside of
its bounds. -/
def SubsampleOk {α : Type} (f1 : List α) (nR2 : Nat) : Except Fault (List α) → Prop
  | .error fault => fault = .status
  | .ok f2 => ∃ rows : List Nat, rows.Nodup ∧ rows.length = nR2 ∧
      rows.map (fun i => f1[i]?) = f2.map some

/-- The last block of the output is not longer than a block of the input. -/
def LastBlockFits (nR1 nR2 : Nat) : Prop :=
  ∀ blockSize2 nT, partition nR2 1024 (-1) = some (blockSize2, nT) →
    nR2 - (nT.toNat - 1) * blockSize2.toNat ≤ nR1 / nT.toNat

/-! ### Permuting -/

section

variable {α : Type} {fl : ℚ → ℚ} {n k : Nat} {dtemp : ℚ} {X X' : List α} {draw : Nat → ℚ}

lemma drawPos_lt (hfl : DoubleRounding fl) (hn : 0 < n) (hn53 : n ≤ 2 ^ 53)
    (h1 : dtemp < 1) : drawPos fl n dtemp < n := by
  have hle : dtemp * n ≤ (n : Int) := by
    have hcast : (0 : ℚ) ≤ n := by positivity
    push_cast
    nlinarith
  have hfln : fl (dtemp * n) ≤ (n : Int) := by
    rw [← hfl.exact n (by omega) (by exact_mod_cast hn53)]
    exact hfl.mono hle
  have hfloor : ⌊fl (dtemp * n)⌋ ≤ n := by
    have := Int.floor_le_floor hfln
    rwa [Int.floor_intCast] at this
  simp only [drawPos]
  split_ifs <;> omega

lemma permuteLoop_ok (hfl : DoubleRounding fl) (hn : X.length = n) (hn53 : n ≤ 2 ^ 53)
    (hdraw : ∀ j, 0 ≤ draw j ∧ draw j < 1) (hk : k ≤ n) :
    ∃ X', permuteLoop fl n draw k X = .ok X' ∧ X'.Perm X := by
  induction k generalizing X with
  | zero => exact ⟨X, rfl, .refl X⟩
  | succ k ih =>
    have hpos := drawPos_lt (n := n) hfl (by omega) hn53 (hdraw (n - 1 - k)).2
    subst hn
    have hswap := swapAt_eq (j := k) hpos (by omega)
    have hperm := swapAt_perm hswap
    obtain ⟨X', hloop, hX'⟩ := ih hperm.length_eq (by omega)
    rw [permuteLoop, hswap]
    exact ⟨X', hloop, hX'.trans hperm⟩

/-! ### Blocks -/

/-- Reads that all succeed. -/
lemma mapM_reads {β ε : Type} {f : β → Option α} {e : ε} {l : List β} (h : ∀ b ∈ l, (f b).isSome) :
    ∃ vals, l.mapM (fun b => match f b with | none => Except.error e | some v => .ok v) = .ok vals ∧
      vals.map some = l.map f := by
  induction l with
  | nil => exact ⟨[], rfl, rfl⟩
  | cons b l ih =>
    rw [List.forall_mem_cons] at h
    obtain ⟨v, hv⟩ := Option.isSome_iff_exists.mp h.1
    obtain ⟨vals, hvals, hmap⟩ := ih h.2
    refine ⟨v :: vals, ?_, by rw [List.map_cons, List.map_cons, hv, hmap]⟩
    rw [List.mapM_cons, hvals, hv]
    rfl

/-- The first error ends the list. -/
lemma mapM_error {β ε : Type} {f : α → Except ε β} {e : ε} {l : List α}
    (h : ∀ a ∈ l, ∀ e', f a = .error e' → e' = e) (hex : ∃ a ∈ l, f a = .error e) :
    l.mapM f = .error e := by
  induction l with
  | nil => simp at hex
  | cons a l ih =>
    rw [List.forall_mem_cons] at h
    rw [List.mapM_cons]
    cases hfa : f a with
    | error e' =>
      rw [h.1 e' hfa]
      rfl
    | ok b =>
      obtain ⟨a', ha', hfa'⟩ := hex
      rcases List.mem_cons.mp ha' with rfl | hl
      · rw [hfa] at hfa'
        cases hfa'
      · rw [ih h.2 ⟨a', hl, hfa'⟩]
        rfl

variable {f1 : List α} {lb1 range1 : Nat} {idxs : List Nat}

/-- A block that has enough rows. -/
lemma pickRows_ok (hperm : idxs.Perm (List.range range1)) (hin : lb1 + range1 ≤ f1.length)
    (hle : n ≤ range1) :
    ∃ (vals : List α) (rows : List Nat), pickRows f1 lb1 n idxs = .ok vals ∧ rows.Nodup ∧
      rows.length = n ∧ (∀ r ∈ rows, lb1 ≤ r ∧ r < lb1 + range1) ∧
      rows.map (fun i => f1[i]?) = vals.map some := by
  have hlen : idxs.length = range1 := hperm.length_eq.trans List.length_range
  have hmem : ∀ k ∈ idxs, k < range1 := fun k hk => List.mem_range.mp (hperm.subset hk)
  have hread : ∀ i ∈ List.range n, (idxs[i]?.bind fun k => f1[lb1 + k]?).isSome := by
    intro i hi
    have hi' : i < idxs.length := by
      rw [List.mem_range] at hi
      omega
    have hk := hmem idxs[i] (List.getElem_mem hi')
    rw [List.getElem?_eq_getElem hi', Option.bind_some, List.getElem?_eq_getElem (by omega)]
    rfl
  obtain ⟨vals, hvals, hmap⟩ := mapM_reads (e := Fault.outside) hread
  refine ⟨vals, (idxs.take n).map (lb1 + ·), hvals, ?_, ?_, ?_, ?_⟩
  · have hnodup : (idxs.take n).Nodup :=
      (hperm.nodup_iff.mpr List.nodup_range).sublist (List.take_sublist n idxs)
    exact List.Nodup.map (add_right_injective lb1) hnodup
  · rw [List.length_map, List.length_take]
    omega
  · intro r hr
    obtain ⟨k, hk, rfl⟩ := List.mem_map.mp hr
    have hk' := hmem k (List.mem_of_mem_take hk)
    omega
  · rw [hmap, List.map_map]
    apply List.ext_getElem?
    intro i
    by_cases hi : i < n
    · have hget : idxs[i]? = some idxs[i] := List.getElem?_eq_getElem (by omega)
      rw [List.getElem?_map, List.getElem?_map, List.getElem?_take_of_lt hi, List.getElem?_range hi, hget,
        Option.map_some, Option.map_some, hget]
      rfl
    · rw [List.getElem?_eq_none (by simp; omega), List.getElem?_eq_none (by simp; omega)]

/-- A block that has too few rows reads behind the end of `idxs`. -/
lemma pickRows_outside (hperm : idxs.Perm (List.range range1)) (hlt : range1 < n) :
    pickRows f1 lb1 n idxs = .error .outside := by
  apply mapM_error
  · intro i _ e h
    split at h
    · cases h
      rfl
    · cases h
  · refine ⟨range1, List.mem_range.mpr hlt, ?_⟩
    have hnone : idxs[range1]? = none := by
      rw [List.getElem?_eq_none_iff, hperm.length_eq, List.length_range]
    simp [hnone]

variable {nR2 blockSize1 blockSize2 nT tid : Nat} {draws : Nat → Nat → ℚ}

/-- Every input block has `block_size_1` rows. -/
lemma inputBlock_eq (hle : nT * blockSize1 ≤ f1.length) (htid : tid < nT) :
    inputBlock f1.length blockSize1 tid = (tid * blockSize1, blockSize1) := by
  have hmul : (tid + 1) * blockSize1 ≤ nT * blockSize1 := Nat.mul_le_mul_right _ htid
  rw [Nat.succ_mul] at hmul
  simp only [inputBlock, Prod.mk.injEq, true_and]
  omega

/-- The rows of `f1` that a block copies. -/
structure BlockRows (f1 : List α) (nR2 blockSize1 blockSize2 nT tid : Nat) (vals : List α)
    (rows : List Nat) : Prop where
  nodup : rows.Nodup
  length : rows.length = (blockOf (List.range nR2) blockSize2 nT tid).length
  mem : ∀ r ∈ rows, r / blockSize1 = tid
  copied : rows.map (fun i => f1[i]?) = vals.map some

lemma subsampleBlock_status (hle : nT * blockSize1 ≤ f1.length) (htid : tid < nT)
    (h : ¬ (1 < blockSize1 ∧ blockSize1 < 16 * 1048576)) :
    subsampleBlock fl draws f1 nR2 blockSize1 blockSize2 nT tid = .error .status := by
  rw [subsampleBlock, inputBlock_eq hle htid]
  dsimp only
  by_cases h0 : blockSize1 = 0
  · rw [if_pos h0]
  · rw [if_neg h0]
    by_cases h16 : 16 * 1048576 ≤ blockSize1
    · rw [if_pos h16]
    · rw [if_neg h16, permute, List.length_range, if_pos (by omega)]
      rfl

/-- A block copies rows of its own; if it needs more rows than it has, it reads behind the end of
`idxs`. -/
lemma subsampleBlock_run (hfl : DoubleRounding fl) (hdraw : ∀ j, 0 ≤ draws tid j ∧ draws tid j < 1)
    (hle : nT * blockSize1 ≤ f1.length) (htid : tid < nT)
    (hin : (blockBounds nR2 blockSize2 nT tid).2 ≤ nR2) (h1 : 1 < blockSize1)
    (h16 : blockSize1 < 16 * 1048576) :
    (blockSize1 < range2 nR2 blockSize2 nT tid ∧
        subsampleBlock fl draws f1 nR2 blockSize1 blockSize2 nT tid = .error .outside) ∨
      (range2 nR2 blockSize2 nT tid ≤ blockSize1 ∧
        ∃ vals rows, subsampleBlock fl draws f1 nR2 blockSize1 blockSize2 nT tid = .ok vals ∧
          BlockRows f1 nR2 blockSize1 blockSize2 nT tid vals rows) := by
  have hmul : (tid + 1) * blockSize1 ≤ nT * blockSize1 := Nat.mul_le_mul_right _ htid
  rw [Nat.succ_mul] at hmul
  obtain ⟨idxs, hloop, hperm⟩ := permuteLoop_ok (X := List.range blockSize1) hfl List.length_range
    (by omega) hdraw le_rfl
  have hpermute : permute fl (draws tid) (List.range blockSize1) = .ok idxs := by
    rw [permute, List.length_range, if_neg (by omega), hloop]
  have hrun : subsampleBlock fl draws f1 nR2 blockSize1 blockSize2 nT tid =
      pickRows f1 (tid * blockSize1) (range2 nR2 blockSize2 nT tid) idxs := by
    rw [subsampleBlock, inputBlock_eq hle htid]
    dsimp only
    rw [if_neg (by omega), if_neg (by omega), hpermute]
    rfl
  rw [hrun]
  rcases Nat.lt_or_ge blockSize1 (range2 nR2 blockSize2 nT tid) with hlt | hge
  · exact .inl ⟨hlt, pickRows_outside hperm hlt⟩
  · have hrows : tid * blockSize1 + blockSize1 ≤ f1.length := by omega
    obtain ⟨vals, rows, hvals, hnodup, hlen, hmem, hcopied⟩ := pickRows_ok hperm hrows hge
    refine .inr ⟨hge, vals, rows, hvals, hnodup, ?_, ?_, hcopied⟩
    · rw [hlen, blockOf, List.length_take, List.length_drop, List.length_range]
      unfold range2
      dsimp only
      omega
    · intro r hr
      have hr' := hmem r hr
      exact Nat.div_eq_of_lt_le (by omega) (by rw [Nat.succ_mul]; omega)

/-- Blocks that copy rows of their own copy different rows. -/
lemma blocks_ok {tids : List Nat} (hnodup : tids.Nodup)
    (h : ∀ tid ∈ tids, ∃ vals rows,
      subsampleBlock fl draws f1 nR2 blockSize1 blockSize2 nT tid = .ok vals ∧
        BlockRows f1 nR2 blockSize1 blockSize2 nT tid vals rows) :
    ∃ (blocks : List (List α)) (rows : List Nat),
      tids.mapM (subsampleBlock fl draws f1 nR2 blockSize1 blockSize2 nT) = .ok blocks ∧
      rows.Nodup ∧ (∀ r ∈ rows, r / blockSize1 ∈ tids) ∧
      rows.length = (tids.flatMap (blockOf (List.range nR2) blockSize2 nT)).length ∧
      rows.map (fun i => f1[i]?) = blocks.flatten.map some := by
  induction tids with
  | nil => exact ⟨[], [], rfl, List.nodup_nil, by simp, rfl, rfl⟩
  | cons tid tids ih =>
    rw [List.forall_mem_cons] at h
    obtain ⟨htid, hrest⟩ := List.nodup_cons.mp hnodup
    obtain ⟨vals, rows, hvals, hrows⟩ := h.1
    obtain ⟨blocks, rows', hblocks, hnodup', hmem', hlen', hcopied'⟩ := ih hrest h.2
    refine ⟨vals :: blocks, rows ++ rows', ?_, ?_, ?_, ?_, ?_⟩
    · rw [List.mapM_cons, hvals, hblocks]
      rfl
    · refine List.nodup_append.mpr ⟨hrows.nodup, hnodup', ?_⟩
      rintro r hr r' hr' rfl
      have hin := hmem' r hr'
      rw [hrows.mem r hr] at hin
      exact htid hin
    · intro r hr
      rcases List.mem_append.mp hr with hr | hr
      · rw [hrows.mem r hr]
        exact List.mem_cons_self
      · exact List.mem_cons_of_mem _ (hmem' r hr)
    · rw [List.length_append, hrows.length, hlen', List.flatMap_cons, List.length_append]
    · rw [List.map_append, hrows.copied, hcopied', List.flatten_cons, List.map_append]

/-! ### All blocks -/

/-- Only the last block can be longer than an input block. -/
lemma range2_le_iff (hB : blockSize2 ≤ blockSize1) (hpos : 0 < nT) :
    (∀ tid < nT, range2 nR2 blockSize2 nT tid ≤ blockSize1) ↔
      nR2 - (nT - 1) * blockSize2 ≤ blockSize1 := by
  constructor
  · intro h
    have hlast := h (nT - 1) (by omega)
    simpa only [range2, blockBounds, if_pos (show nT - 1 + 1 = nT by omega)] using hlast
  · intro h tid htid
    by_cases hlast : tid + 1 = nT
    · obtain rfl : tid = nT - 1 := by omega
      simpa only [range2, blockBounds, if_pos hlast] using h
    · simp only [range2, blockBounds, if_neg hlast]
      omega

section

variable (hfl : DoubleRounding fl) (hdraw : ∀ tid j, 0 ≤ draws tid j ∧ draws tid j < 1)
  (hle : nT * blockSize1 ≤ f1.length)
  (hin : ∀ tid < nT, (blockBounds nR2 blockSize2 nT tid).2 ≤ nR2)
include hfl hdraw hle hin

/-- A block that is too long makes the command read outside. -/
lemma blocks_outside (h1 : 1 < blockSize1) (h16 : blockSize1 < 16 * 1048576)
    (hex : ∃ tid < nT, blockSize1 < range2 nR2 blockSize2 nT tid) :
    (List.range nT).mapM (subsampleBlock fl draws f1 nR2 blockSize1 blockSize2 nT) =
      .error .outside := by
  apply mapM_error
  · intro tid htid e he
    rw [List.mem_range] at htid
    rcases subsampleBlock_run hfl (hdraw tid) hle htid (hin tid htid) h1 h16 with
      ⟨-, hrun⟩ | ⟨-, vals, rows, hrun, -⟩
    · rw [hrun] at he
      cases he
      rfl
    · rw [hrun] at he
      cases he
  · obtain ⟨tid, htid, hlong⟩ := hex
    refine ⟨tid, List.mem_range.mpr htid, ?_⟩
    rcases subsampleBlock_run hfl (hdraw tid) hle htid (hin tid htid) h1 h16 with ⟨-, hrun⟩ | ⟨hfit, -⟩
    · exact hrun
    · exact absurd hfit (not_le.mpr hlong)

/-- Blocks that fit report an error, or they copy different rows. -/
lemma blocks_fit (hpos : 0 < nT) (hfit : ∀ tid < nT, range2 nR2 blockSize2 nT tid ≤ blockSize1) :
    (List.range nT).mapM (subsampleBlock fl draws f1 nR2 blockSize1 blockSize2 nT) = .error .status ∨
      ∃ (blocks : List (List α)) (rows : List Nat),
        (List.range nT).mapM (subsampleBlock fl draws f1 nR2 blockSize1 blockSize2 nT) = .ok blocks ∧
          rows.Nodup ∧ rows.length = nR2 ∧ rows.map (fun i => f1[i]?) = blocks.flatten.map some := by
  by_cases hsize : 1 < blockSize1 ∧ blockSize1 < 16 * 1048576
  · have hruns : ∀ tid ∈ List.range nT, ∃ vals rows,
        subsampleBlock fl draws f1 nR2 blockSize1 blockSize2 nT tid = .ok vals ∧
          BlockRows f1 nR2 blockSize1 blockSize2 nT tid vals rows := by
      intro tid htid
      rw [List.mem_range] at htid
      rcases subsampleBlock_run hfl (hdraw tid) hle htid (hin tid htid) hsize.1 hsize.2 with
        ⟨hlong, -⟩ | ⟨-, hrun⟩
      · exact absurd (hfit tid htid) (not_le.mpr hlong)
      · exact hrun
    obtain ⟨blocks, rows, hblocks, hnodup, -, hlen, hcopied⟩ := blocks_ok List.nodup_range hruns
    rw [flatMap_blockOf _ _ hpos, List.length_range] at hlen
    exact .inr ⟨blocks, rows, hblocks, hnodup, hlen, hcopied⟩
  · left
    apply mapM_error
    · intro tid htid e he
      rw [subsampleBlock_status hle (List.mem_range.mp htid) hsize] at he
      cases he
      rfl
    · exact ⟨0, List.mem_range.mpr hpos, subsampleBlock_status hle hpos hsize⟩

end

end

section

variable {α : Type} {fl : ℚ → ℚ} {draw : Nat → Nat → ℚ} {f1 : List α} {nR2 N B : Nat}

lemma lastBlockFits_iff {nR1 : Nat} {blockSize2 nT : Int}
    (hp : partition nR2 1024 (-1) = some (blockSize2, nT)) :
    LastBlockFits nR1 nR2 ↔ nR2 - (nT.toNat - 1) * blockSize2.toNat ≤ nR1 / nT.toNat := by
  constructor
  · exact fun h => h blockSize2 nT hp
  · rintro h b n hbn
    rw [hp] at hbn
    cases hbn
    exact h

/-- What the division into blocks says about both tables. -/
lemma blocks_spec (hp : partition nR2 1024 (-1) = some ((B : Int), (N : Int))) (hlt : nR2 < f1.length) :
    0 < N ∧ N * (f1.length / N) ≤ f1.length ∧ B ≤ f1.length / N ∧ nR2 < N * B + B ∧
      ∀ tid < N, (blockBounds nR2 B N tid).2 ≤ nR2 := by
  obtain ⟨-, hnT, -, hfull, hrest⟩ := partition_spec hp
  have hmul : N * B ≤ nR2 := by exact_mod_cast hfull
  have hrest' : nR2 < (N + 1) * B := by exact_mod_cast hrest
  rw [Nat.succ_mul] at hrest'
  refine ⟨by omega, Nat.mul_div_le _ _, ?_, hrest', ?_⟩
  · rw [Nat.le_div_iff_mul_le (by omega), Nat.mul_comm]
    omega
  · intro tid htid
    have hb := (blockBounds_spec hp (show tid < (N : Int).toNat by rwa [Int.toNat_natCast])).2
    rwa [Int.toNat_natCast, Int.toNat_natCast] at hb

lemma subsample_of_partition (hpos : 0 < nR2) (hlt : nR2 < f1.length)
    (hp : partition nR2 1024 (-1) = some ((B : Int), (N : Int))) :
    subsample fl draw f1 nR2 =
      (((List.range N).mapM (subsampleBlock fl draw f1 nR2 (f1.length / N) B N)).map List.flatten) := by
  rw [subsample, if_neg (by omega), hp]
  dsimp only
  rw [Int.toNat_natCast, Int.toNat_natCast]
  rfl

/-- If the last block does not fit, `idxs` is read behind its end. -/
lemma subsample_outside (hfl : DoubleRounding fl)
    (hdraw : ∀ tid j, 0 ≤ draw tid j ∧ draw tid j < 1) (hpos : 0 < nR2) (hlt : nR2 < f1.length)
    (hp : partition nR2 1024 (-1) = some ((B : Int), (N : Int))) (h16 : f1.length / N < 16 * 1048576)
    (hlong : f1.length / N < nR2 - (N - 1) * B) :
    subsample fl draw f1 nR2 = .error .outside := by
  obtain ⟨hN, hle, hB, hrest, hin⟩ := blocks_spec hp hlt
  -- the remainder is smaller than a block, so a block that is too long has at least two rows
  have hB1 : 1 < f1.length / N := by
    obtain ⟨n, rfl⟩ : ∃ n, N = n + 1 := ⟨N - 1, by omega⟩
    rw [Nat.add_sub_cancel] at hlong
    rw [Nat.succ_mul] at hrest
    omega
  have hex : ∃ tid < N, f1.length / N < range2 nR2 B N tid := by
    by_contra hnone
    push Not at hnone
    exact absurd ((range2_le_iff hB hN).mp hnone) (not_le.mpr hlong)
  rw [subsample_of_partition hpos hlt hp, blocks_outside hfl hdraw hle hin hB1 h16 hex]
  rfl

end

/-- The output is a sample without replacement exactly if the last output block, which takes up the
remainder, still fits in an input block. -/
theorem subsample_ok_iff {α : Type} {fl : ℚ → ℚ} (hfl : DoubleRounding fl) {draw : Nat → Nat → ℚ}
    (hdraw : ∀ tid j, 0 ≤ draw tid j ∧ draw tid j < 1) (f1 : List α) (nR2 : Nat) (hpos : 0 < nR2)
    (hlt : nR2 < f1.length)
    (hlimit : ∀ blockSize2 nT, partition nR2 1024 (-1) = some (blockSize2, nT) →
      f1.length / nT.toNat < 16 * 1048576) :
    SubsampleOk f1 nR2 (subsample fl draw f1 nR2) ↔ LastBlockFits f1.length nR2 := by
  cases hp : partition nR2 1024 (-1) with
  | none =>
    rw [subsample, if_neg (by omega), hp]
    refine iff_of_true rfl ?_
    intro blockSize2 nT h
    rw [hp] at h
    cases h
  | some p =>
    obtain ⟨blockSize2, nT⟩ := p
    obtain ⟨-, hnT, hB2, -⟩ := partition_spec hp
    have h16 := hlimit blockSize2 nT hp
    rw [lastBlockFits_iff hp]
    obtain ⟨N, rfl⟩ := Int.eq_ofNat_of_zero_le hnT.le
    obtain ⟨B, rfl⟩ := Int.eq_ofNat_of_zero_le hB2.le
    rw [Int.toNat_natCast] at h16
    rw [Int.toNat_natCast, Int.toNat_natCast]
    constructor
    · intro hok
      by_contra hlong
      rw [subsample_outside hfl hdraw hpos hlt hp h16 (not_le.mp hlong)] at hok
      cases hok
    · intro hfit
      obtain ⟨hN, hle, hB, -, hin⟩ := blocks_spec hp hlt
      rw [subsample_of_partition hpos hlt hp]
      rcases blocks_fit hfl hdraw hle hin hN ((range2_le_iff hB hN).mpr hfit) with
        herror | ⟨blocks, rows, hblocks, hrows⟩
      · rw [herror]
        rfl
      · rw [hblocks]
        exact ⟨rows, hrows⟩

lemma doubleRounding_id : DoubleRounding id := ⟨monotone_id, fun _ _ _ => rfl⟩

theorem subsample_ok_three :
    SubsampleOk [10, 20, 30] 2 (subsample id (fun _ _ => 1 / 2) [10, 20, 30] 2) := by
  refine (subsample_ok_iff doubleRounding_id (fun _ _ => by norm_num) [10, 20, 30] 2 (by decide)
    (by decide) ?_).mpr ?_
  · exact fun _ _ _ => (Nat.div_le_self _ _).trans_lt (by decide)
  · have hp : partition (2 : Nat) 1024 (-1) = some (2, 1) := by decide
    exact (lastBlockFits_iff hp).mpr (by decide)

/-- The last of three output blocks has 1026 rows, an input block has 1025. -/
theorem not_subsample_ok :
    ¬ ∀ (fl : ℚ → ℚ), DoubleRounding fl → ∀ draw : Nat → Nat → ℚ,
      (∀ tid j, 0 ≤ draw tid j ∧ draw tid j < 1) → ∀ (f1 : List Int) (nR2 : Nat), 0 < nR2 →
      nR2 < f1.length →
      (∀ blockSize2 nT, partition nR2 1024 (-1) = some (blockSize2, nT) →
        f1.length / nT.toNat < 16 * 1048576) →
      SubsampleOk f1 nR2 (subsample fl draw f1 nR2) := by
  intro h
  have hp : partition (3074 : Nat) 1024 (-1) = some (((1024 : Nat) : Int), ((3 : Nat) : Int)) := by
    decide
  have hdraw : ∀ tid j : Nat, (0 : ℚ) ≤ (fun _ _ => 1 / 2 : Nat → Nat → ℚ) tid j ∧
      (fun _ _ => 1 / 2 : Nat → Nat → ℚ) tid j < 1 := fun _ _ => by norm_num
  obtain ⟨f1, hlen⟩ : ∃ f1 : List Int, f1.length = 3075 :=
    ⟨List.replicate 3075 0, List.length_replicate⟩
  have hlt : 3074 < f1.length := by omega
  have h16 : ∀ n, f1.length / n < 16 * 1048576 := fun n => (Nat.div_le_self _ n).trans_lt (by omega)
  have hok := h id doubleRounding_id _ hdraw f1 3074 (by norm_num) hlt fun _ nT _ => h16 nT.toNat
  rw [subsample_outside doubleRounding_id hdraw (by norm_num) hlt hp (h16 3) (by omega)] at hok
  cases hok

end Datacl
