import Datacl.Compound.CountHtTable

/-!
# The rows that `count_ht` inserts

The flags of the first block are used for every block.
-/

namespace Datacl

/-! ### Blocks -/

lemma flatMap_blockRows (n blockSize len : Nat) :
    (List.range n).flatMap (fun b =>
        List.range' (blockSize * b) (min (blockSize * b + blockSize) len - blockSize * b)) =
      List.range (min (blockSize * n) len) := by
  induction n with
  | zero => simp
  | succ n ih =>
    rw [List.range_succ, List.flatMap_append, List.flatMap_singleton, ih, Nat.mul_succ,
      List.range_eq_range', List.range_eq_range']
    by_cases hn : blockSize * n ≤ len
    · have h := List.range'_append_1 (s := 0) (m := blockSize * n)
        (n := min (blockSize * n + blockSize) len - blockSize * n)
      rw [Nat.zero_add] at h
      rw [Nat.min_eq_left hn, h, Nat.add_sub_cancel' (by omega)]
    · rw [show min (blockSize * n + blockSize) len - blockSize * n = 0 by omega,
        show min (blockSize * n) len = min (blockSize * n + blockSize) len by omega]
      simp

/-- The flags that decide about a row. -/
def CountHtArgs.marked (args : CountHtArgs) (i : Nat) : Bool := args.isGood (i % countHtBlockSize)

lemma markedRows_eq (args : CountHtArgs) (b : Nat) :
    args.markedRows b = (List.range' (countHtBlockSize * b)
      (min (countHtBlockSize * b + countHtBlockSize) args.cells.length -
        countHtBlockSize * b)).filter args.marked := by
  unfold CountHtArgs.markedRows
  dsimp only
  rw [List.range'_eq_map_range, List.filter_map]
  congr 1
  apply List.filter_congr
  intro j hj
  have hj : j < countHtBlockSize := by
    have := List.mem_range.mp hj
    omega
  rw [Function.comp_apply, CountHtArgs.marked, Nat.mul_add_mod, Nat.mod_eq_of_lt hj]

lemma flatMap_markedRows {args : CountHtArgs} {n : Nat}
    (hn : numCountHtBlocks args.cells.length = some n) :
    (List.range n).flatMap args.markedRows = (List.range args.cells.length).filter args.marked := by
  have hlen : args.cells.length ≤ countHtBlockSize * n := by
    have hpos : 0 < countHtBlockSize := by decide
    have hdiv := Nat.div_add_mod args.cells.length countHtBlockSize
    have hmod := Nat.mod_lt args.cells.length hpos
    rw [numCountHtBlocks] at hn
    split_ifs at hn with hbig hrest
    · cases hn
      rw [Nat.mul_add]
      omega
    · cases hn
      omega
  have hblocks := flatMap_blockRows n countHtBlockSize args.cells.length
  rw [Nat.min_eq_right hlen] at hblocks
  rw [← hblocks, List.filter_flatMap]
  exact congrArg (List.flatMap · (List.range n)) (funext (markedRows_eq args))

lemma numCountHtBlocks_isSome {srcNR : Nat} (h : srcNR < 2 ^ 31) :
    ∃ n, numCountHtBlocks srcNR = some n := by
  have hle := Nat.mul_div_le srcNR countHtBlockSize
  unfold numCountHtBlocks
  dsimp only
  rw [if_neg (by omega)]
  exact ⟨_, rfl⟩

lemma numCountHtBlocks_eq_none {srcNR : Nat} (h : 2 ^ 31 ≤ srcNR) : numCountHtBlocks srcNR = none := by
  have hdiv := Nat.div_add_mod srcNR countHtBlockSize
  have hmod := Nat.mod_lt srcNR (show 0 < countHtBlockSize by decide)
  have hsize : countHtBlockSize = 2097152 := rfl
  unfold numCountHtBlocks
  dsimp only
  rw [if_pos]
  rw [hsize] at hdiv hmod ⊢
  omega

/-! ### The loop over the blocks -/

section

variable {mix : BitVec 64 → BitVec 32} {args : CountHtArgs}

lemma insertRows_append (val : Nat → BitVec 64) (t : CountTbl) (a b : List Nat) :
    insertRows mix val t (a ++ b) =
      match insertRows mix val t a with
      | (inserted, none) => (inserted, none)
      | (inserted, some t') =>
        (inserted ++ (insertRows mix val t' b).1, (insertRows mix val t' b).2) := by
  induction a generalizing t with
  | nil => rfl
  | cons i a ih =>
    rw [List.cons_append, insertRows, insertRows]
    cases insertVal mix t (val i) with
    | none => rfl
    | some t' =>
      dsimp only
      split_ifs
      · rfl
      · rw [ih]
        rcases insertRows mix val t' a with ⟨inserted, _ | t₂⟩
        · rfl
        · rfl

/-- The blocks are inserted one after another. -/
lemma scanBlocks_eq (hval : args.fldtype.hasVal = true) (t : CountTbl) (bs : List Nat) :
    scanBlocks mix args t bs = insertRows mix args.val t (bs.flatMap args.markedRows) := by
  induction bs generalizing t with
  | nil => rfl
  | cons b bs ih =>
    have hblock : scanBlock mix args t b = insertRows mix args.val t (args.markedRows b) := by
      rw [scanBlock, hval, Bool.not_true, Bool.false_and, if_neg Bool.false_ne_true]
    rw [scanBlocks, List.flatMap_cons, insertRows_append, hblock]
    rcases insertRows mix args.val t (args.markedRows b) with ⟨inserted, _ | t'⟩
    · rfl
    · dsimp only
      rw [ih]

/-- Rows of another type are not inserted. -/
lemma scanBlocks_other (hval : args.fldtype.hasVal = false) (t : CountTbl) (bs : List Nat) :
    (scanBlocks mix args t bs).1 = [] := by
  induction bs generalizing t with
  | nil => rfl
  | cons b bs ih =>
    rw [scanBlocks, scanBlock, hval, Bool.not_false, Bool.true_and]
    cases hrows : args.markedRows b with
    | nil =>
      rw [List.isEmpty_nil, Bool.not_true, if_neg Bool.false_ne_true, insertRows]
      exact ih t
    | cons i rows =>
      rw [List.isEmpty_cons, Bool.not_false, if_pos rfl]

/-! ### The rows -/

/-- The rows that are marked, in their order. -/
def CountHtArgs.rows (args : CountHtArgs) (n : Nat) : List Nat := (List.range n).filter args.marked

/-- The number of distinct values of the marked rows before a row. -/
def CountHtArgs.distinctBefore (args : CountHtArgs) (n : Nat) : Nat :=
  ((args.rows n).map args.val).toFinset.card

lemma mem_rows {n i : Nat} : i ∈ args.rows n ↔ i < n ∧ args.marked i = true := by
  rw [CountHtArgs.rows, List.mem_filter, List.mem_range]

/-- A row has no more distinct values before it than a list that has all marked rows before it. -/
lemma distinctBefore_le {rows : List Nat} {i : Nat}
    (h : ∀ j < i, args.marked j = true → j ∈ rows) :
    args.distinctBefore i ≤ (rows.map args.val).toFinset.card := by
  apply Finset.card_le_card
  intro v hv
  rw [List.mem_toFinset, List.mem_map] at hv ⊢
  obtain ⟨j, hj, rfl⟩ := hv
  exact ⟨j, h j (mem_rows.mp hj).1 (mem_rows.mp hj).2, rfl⟩

lemma le_distinctBefore {rows : List Nat} {i : Nat}
    (h : ∀ j ∈ rows, j < i ∧ args.marked j = true) :
    (rows.map args.val).toFinset.card ≤ args.distinctBefore i := by
  apply Finset.card_le_card
  intro v hv
  rw [List.mem_toFinset, List.mem_map] at hv ⊢
  obtain ⟨j, hj, rfl⟩ := hv
  exact ⟨j, mem_rows.mpr (h j hj), rfl⟩

section

variable {szHt : Nat}

lemma scanRows_eq (hval : args.fldtype.hasVal = true) (hnR : args.cells.length < 2 ^ 31) :
    scanRows szHt mix args =
      insertRows mix args.val (setupCountTbl szHt) (args.rows args.cells.length) := by
  obtain ⟨n, hn⟩ := numCountHtBlocks_isSome hnR
  rw [scanRows, hn]
  dsimp only
  rw [scanBlocks_eq hval, flatMap_markedRows hn]
  rfl

/-- Where the table is full, the rows before are those with room for their values. -/
lemma mem_before_full {n half i₀ : Nat} {pre post : List Nat} (hrows : args.rows n = pre ++ i₀ :: post)
    (hle : (pre.map args.val).toFinset.card ≤ half)
    (hlt : half < ((pre ++ [i₀]).map args.val).toFinset.card) (i : Nat) :
    i ∈ pre ++ [i₀] ↔ i < n ∧ args.marked i = true ∧ args.distinctBefore i ≤ half := by
  have hmem : ∀ i, i ∈ args.rows n ↔ i ∈ pre ∨ i = i₀ ∨ i ∈ post := by
    intro i
    rw [hrows, List.mem_append, List.mem_cons]
  have hsorted : (args.rows n).Pairwise (· < ·) := List.pairwise_lt_range.filter _
  rw [hrows, List.pairwise_append, List.pairwise_cons] at hsorted
  obtain ⟨-, ⟨hpost, -⟩, hpre⟩ := hsorted
  rw [List.mem_append, List.mem_singleton]
  constructor
  · intro hi
    obtain ⟨hlt', hmarked⟩ := mem_rows.mp ((hmem i).mpr (by tauto))
    refine ⟨hlt', hmarked, (distinctBefore_le ?_).trans hle⟩
    intro j hj hjm
    -- what is before a row of `pre` or `i₀` is in `pre`
    rcases (hmem j).mp (mem_rows.mpr ⟨hj.trans hlt', hjm⟩) with hjp | rfl | hjp
    · exact hjp
    · rcases hi with hi | rfl
      · have := hpre i hi j List.mem_cons_self
        omega
      · omega
    · have hi₀ := hpost j hjp
      rcases hi with hi | rfl
      · have := hpre i hi i₀ List.mem_cons_self
        omega
      · omega
  · rintro ⟨hi, hmarked, hroom⟩
    rcases (hmem i).mp (mem_rows.mpr ⟨hi, hmarked⟩) with hip | rfl | hip
    · exact .inl hip
    · exact .inr rfl
    · exfalso
      have hge : ((pre ++ [i₀]).map args.val).toFinset.card ≤ args.distinctBefore i := by
        refine le_distinctBefore fun j hj => ?_
        have hjlt : j < i := by
          rcases List.mem_append.mp hj with hj | hj
          · exact hpre j hj i (List.mem_cons_of_mem _ hip)
          · rw [List.mem_singleton.mp hj]
            exact hpost i hip
        refine ⟨hjlt, (mem_rows.mp ((hmem j).mpr ?_)).2⟩
        rcases List.mem_append.mp hj with hj | hj
        · exact .inl hj
        · exact .inr (.inl (List.mem_singleton.mp hj))
      omega

/-- A marked row is inserted if the table was not more than half full before. -/
lemma scanRows_spec (hpos : 0 < szHt) (hnR : args.cells.length < 2 ^ 31) :
    (scanRows szHt mix args).1.Nodup ∧ ∀ i, i ∈ (scanRows szHt mix args).1 ↔
      i < args.cells.length ∧ args.fldtype.hasVal = true ∧ args.marked i = true ∧
        args.distinctBefore i ≤ szHt / 2 := by
  cases hval : args.fldtype.hasVal with
  | false =>
    obtain ⟨n, hn⟩ := numCountHtBlocks_isSome hnR
    rw [scanRows, hn]
    dsimp only
    rw [scanBlocks_other hval]
    simp
  | true =>
    have hsorted : (args.rows args.cells.length).Pairwise (· < ·) := List.pairwise_lt_range.filter _
    have hlen : (setupCountTbl szHt).ht.length = szHt := List.length_replicate
    rw [scanRows_eq hval hnR]
    rcases (grouped_setup mix szHt).insertRows_spec (by rw [hlen]; exact hpos) (Nat.zero_le _)
      args.val (args.rows args.cells.length) with
      ⟨t', hrun, hgrouped, -, hroom⟩ | ⟨pre, i₀, post, hrows, hrun, hle, hlt⟩
    · rw [hrun]
      refine ⟨hsorted.imp (fun h => Nat.ne_of_lt h), fun i => ?_⟩
      rw [hgrouped.distinct, hlen, List.nil_append] at hroom
      constructor
      · intro hi
        obtain ⟨hi, hmarked⟩ := mem_rows.mp hi
        refine ⟨hi, rfl, hmarked, (distinctBefore_le ?_).trans hroom⟩
        intro j hj hjm
        exact mem_rows.mpr ⟨hj.trans hi, hjm⟩
      · rintro ⟨hi, -, hmarked, -⟩
        exact mem_rows.mpr ⟨hi, hmarked⟩
    · rw [hrun]
      rw [hlen, List.nil_append] at hle hlt
      refine ⟨?_, fun i => ?_⟩
      · have hsl : (pre ++ [i₀]).Sublist (args.rows args.cells.length) := by
          rw [hrows]
          exact (List.Sublist.refl pre).append (List.singleton_sublist.mpr List.mem_cons_self)
        exact (hsorted.sublist hsl).imp (fun h => Nat.ne_of_lt h)
      · rw [mem_before_full hrows hle hlt, eq_self_iff_true, true_and]

end

end

/-- The rows inserted are the rows whose flags are both `TRUE`, each once. -/
def InsertsSelected (args : CountHtArgs) (inserted : List Nat) : Prop :=
  inserted.Nodup ∧ ∀ i, i ∈ inserted ↔ i < args.cells.length ∧ args.isGood i = true

/-- A row is selected if and only if the row of the first block is and the table has room for it. -/
def RowsCond (szHt : Nat) (args : CountHtArgs) : Prop :=
  ∀ i < args.cells.length, args.isGood i = true ↔
    args.fldtype.hasVal = true ∧ args.isGood (i % countHtBlockSize) = true ∧
      args.distinctBefore i ≤ szHt / 2

/-- The right rows are inserted just if their flags are those of the first block. -/
theorem scanRows_insertsSelected_iff {szHt : Nat} (hpos : 0 < szHt) (mix : BitVec 64 → BitVec 32)
    {args : CountHtArgs} (hnR : args.cells.length < 2 ^ 31) :
    InsertsSelected args (scanRows szHt mix args).1 ↔ RowsCond szHt args := by
  obtain ⟨hnodup, hmem⟩ : (scanRows szHt mix args).1.Nodup ∧ _ := scanRows_spec hpos hnR
  constructor
  · rintro ⟨-, hsel⟩ i hi
    have h := (hmem i).symm.trans (hsel i)
    constructor
    · intro hgood
      exact (h.mpr ⟨hi, hgood⟩).2
    · rintro ⟨hval, hmarked, hroom⟩
      exact (h.mp ⟨hi, hval, hmarked, hroom⟩).2
  · intro hcond
    refine ⟨hnodup, fun i => ?_⟩
    rw [hmem]
    constructor
    · rintro ⟨hi, h⟩
      exact ⟨hi, (hcond i hi).mpr h⟩
    · rintro ⟨hi, h⟩
      exact ⟨hi, (hcond i hi).mp h⟩

/-- Three rows, of which the second is null. -/
def threeValues : CountHtArgs where
  fldtype := .I4
  cells := [5, 7, 5]
  nnX := some [1, 0, 1]
  cfldX := none

/-- They are in the first block. -/
theorem scanRows_three_values :
    InsertsSelected threeValues (scanRows countHtSize (fun _ => 0) threeValues).1 :=
  (scanRows_insertsSelected_iff (by decide) (fun _ => 0) (by decide)).mpr (by unfold RowsCond; decide +kernel)

/-- One row more than a block has, which is null. -/
def nullInSecondBlock : CountHtArgs where
  fldtype := .I4
  cells := List.replicate (countHtBlockSize + 1) 5
  nnX := some (List.replicate countHtBlockSize 1 ++ [0])
  cfldX := none

/-- It is inserted. -/
theorem not_scanRows_null_in_second_block : ¬ InsertsSelected nullInSecondBlock
    (scanRows countHtSize (fun _ => 0) nullInSecondBlock).1 := by
  have hlen : nullInSecondBlock.cells.length = countHtBlockSize + 1 := List.length_replicate
  have hsize : countHtBlockSize + 1 < 2 ^ 31 := by decide
  have hpos : 0 < countHtBlockSize := by decide
  have hgood : ∀ j, nullInSecondBlock.isGood j = decide (j < countHtBlockSize) := by
    intro j
    rw [CountHtArgs.isGood, nullInSecondBlock]
    simp only [Option.all_some, Option.all_none, Bool.and_true, List.getD_eq_getElem?_getD]
    by_cases hj : j < countHtBlockSize
    · rw [List.getElem?_append_left (by simpa using hj), List.getElem?_replicate, if_pos hj]
      simp [hj]
    · rw [List.getElem?_append_right (by simpa using hj), List.length_replicate]
      cases hk : j - countHtBlockSize with
      | zero => simp [hj]
      | succ k => simp [hj]
  have hval : ∀ j < countHtBlockSize, nullInSecondBlock.val j = BitVec.ofInt 64 5 := by
    intro j hj
    rw [CountHtArgs.val, nullInSecondBlock, List.getD_eq_getElem?_getD, List.getElem?_replicate,
      if_pos (by omega), Option.getD_some]
  have hroom : nullInSecondBlock.distinctBefore countHtBlockSize ≤ countHtSize / 2 := by
    have hsub : ((nullInSecondBlock.rows countHtBlockSize).map nullInSecondBlock.val).toFinset ⊆
        {BitVec.ofInt 64 5} := by
      intro v hv
      obtain ⟨j, hj, rfl⟩ := List.mem_map.mp (List.mem_toFinset.mp hv)
      rw [Finset.mem_singleton]
      exact hval j (mem_rows.mp hj).1
    exact (Finset.card_le_card hsub).trans (by decide)
  have hmarked : nullInSecondBlock.marked countHtBlockSize = true := by
    rw [CountHtArgs.marked, Nat.mod_self, hgood]
    exact decide_eq_true hpos
  rintro ⟨-, hsel⟩
  have hspec : (scanRows countHtSize (fun _ => 0) nullInSecondBlock).1.Nodup ∧ _ :=
    scanRows_spec (by decide) (by omega)
  have hmem := hspec.2 countHtBlockSize
  have hbad := ((hsel countHtBlockSize).mp
    (hmem.mpr ⟨by omega, rfl, hmarked, hroom⟩)).2
  rw [hgood, decide_eq_true_eq] at hbad
  exact absurd hbad (lt_irrefl _)

end Datacl
