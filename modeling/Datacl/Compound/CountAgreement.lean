import Datacl.Compound.Count

/-!
# The counters of a compound expression

A row is counted if its condition is not `FALSE`. What `exec_comp_expr` adds is compared with that
row by row.
-/

namespace Datacl

open Tally

/-- The rows that count: their entries, if the condition satisfies `p`. -/
def taken (p : Int → Bool) (rows : List ((Int × Int) × Int)) : List (Int × Int) :=
  rows.flatMap fun r => if p r.2 then [r.1] else []

/-- The condition of every row; without a condition field it is `TRUE`. -/
def CountStmt.conds (st : CountStmt) : List Int := st.cfld.getD (st.fk.map fun _ => 1)

/-- What every row adds. -/
def CountStmt.vals (st : CountStmt) (src : List Int) : List Int :=
  match st.srcType with
  | none => st.fk.map fun _ => 1
  | some _ => src

/-- The rows of the table. -/
def CountStmt.rows (st : CountStmt) (src : List Int) : List ((Int × Int) × Int) :=
  (st.fk.zip (st.vals src)).zip st.conds

/-- The number, or the sum of the source values, of the selected rows with each key. -/
def countSpec (st : CountStmt) (src : List Int) : List Int :=
  (List.range st.dstNR).map fun j : Nat => total (taken (· ≠ 0) (st.rows src)) j

/-- The columns have the types and lengths they are checked for, and the keys are in range. -/
structure CountStmt.WellFormed (st : CountStmt) : Prop where
  fkType : st.fkType ∈ [FldType.I1, .I2, .I4, .I8]
  srcType : ∀ t, st.srcType = some t → t = .I4 ∨ t = .I8
  keys : ∀ x ∈ st.fk, 0 ≤ x ∧ x < st.dstNR
  conds : st.conds.length = st.fk.length

/-- A source column of the type of the statement. -/
structure CountStmt.SrcFits (st : CountStmt) (src : List Int) : Prop where
  length : src.length = st.fk.length
  range : ∀ x ∈ src, -2 ^ 63 ≤ x ∧ x < 2 ^ 63 ∧ (st.srcType = some .I4 → -2 ^ 31 ≤ x ∧ x < 2 ^ 31)

/-- The statement leaves the right counters, whatever the source column. -/
def CountsRight (numCores : Nat) (st : CountStmt) : Prop :=
  ∀ src, st.SrcFits src → execCount numCores st src = some (countSpec st src)

/-- A selected row with this key and condition in a block of `effNR` rows is counted as it should be:
the key fits in an `int`, the source column has cells of four bytes, and for a key of one byte with
a condition field the counter is parallel and finds the condition `TRUE`; for `count` it may be
serial. -/
structure RowCounted (numCores : Nat) (st : CountStmt) (effNR : Nat) (key cond : Int) : Prop where
  key : key < 2 ^ 31
  src : st.srcType ≠ some .I8
  counter : st.fkType = .I1 → st.cfld.isSome →
    computeNTForCount numCores effNR st.dstNR ≠ 1 ∧ cond = 1 ∨
      computeNTForCount numCores effNR st.dstNR = 1 ∧ st.srcType = none

/-- The first rows of all blocks fit in an `int` and every selected row is counted. -/
def CountCond (numCores : Nat) (st : CountStmt) : Prop :=
  ∃ n, numCompBlocks st.fk.length = some n ∧ n ≤ 2048 ∧
    ∀ b < n, ∀ r ∈ blockOf (st.fk.zip st.conds) compExprBlockSize n b, r.2 ≠ 0 →
      RowCounted numCores st (blockOf st.fk compExprBlockSize n b).length r.1 r.2

/-! ### Blocks -/

section

variable {α β : Type} {n b blockSize : Nat}

lemma blockOf_map (f : α → β) (xs : List α) :
    blockOf (xs.map f) blockSize n b = (blockOf xs blockSize n b).map f := by
  simp only [blockOf, List.length_map, List.map_take, List.map_drop]

lemma length_blockOf {xs : List α} {ys : List β} (h : ys.length = xs.length) :
    (blockOf ys blockSize n b).length = (blockOf xs blockSize n b).length := by
  simp only [blockOf, h, List.length_take, List.length_drop]

end

/-! ### What a block adds -/

/-- The key column that the counter of a block is given. -/
def blockKeys (nT : Nat) (st : CountStmt) (src fk : List Int) : List Int :=
  match st.srcType with
  | some t =>
    if st.fkType = .I1 ∧ st.cfld.isSome ∧ nT = 1 then (readChars t src).take fk.length else fk
  | none => fk

/-- The values that the counter of a block is given. -/
def blockVals (st : CountStmt) (src fk : List Int) : List Int :=
  match st.srcType with
  | some t => (readInts t src).take fk.length
  | none => fk.map fun _ => 1

/-- How a counter reads a condition. -/
def condTest (nT : Nat) (c : Int) : Bool := if nT = 1 then c ≠ 0 else c = 1

lemma ne_zero_of_condTest {nT : Nat} {c : Int} (h : condTest nT c = true) : c ≠ 0 := by
  unfold condTest at h
  split_ifs at h
  · exact of_decide_eq_true h
  · rw [of_decide_eq_true h]
    decide

lemma taken_zip_ones (p : Int → Bool) (fk cfld : List Int) :
    taken p ((fk.zip (fk.map fun _ => 1)).zip cfld) =
      (fk.zip cfld).flatMap fun r => if p r.2 then [(r.1, 1)] else [] := by
  induction fk generalizing cfld with
  | nil => rfl
  | cons x fk ih =>
    cases cfld with
    | nil => rfl
    | cons c cfld =>
      have ih := ih cfld
      rw [taken] at ih ⊢
      simp only [List.map_cons, List.zip_cons_cons, List.flatMap_cons, ih]

/-- Without a condition field every row is taken. -/
lemma taken_true {p : Int → Bool} (hp : p 1 = true) {xs : List (Int × Int)} {fk : List Int}
    (h : xs.length ≤ fk.length) : taken p (xs.zip (fk.map fun _ => 1)) = xs := by
  induction xs generalizing fk with
  | nil => rfl
  | cons x xs ih =>
    cases fk with
    | nil => simp at h
    | cons k fk =>
      have ih := ih (Nat.le_of_succ_le_succ h)
      rw [taken] at ih ⊢
      rw [List.map_cons, List.zip_cons_cons, List.flatMap_cons, ih, if_pos hp]
      rfl

section

variable {nT : Nat} {fkType : FldType} {cfld : Option (List Int)}

lemma opCount_eq (hpos : 0 < nT) (hnT : ¬ (fkType = .I1 ∧ cfld.isSome = true) → nT = 1)
    (hfk : fkType ∈ [FldType.I1, .I2, .I4, .I8]) (fk cnt : List Int) :
    opCount nT fkType fk cfld cnt =
      countLoop (taken (condTest nT) ((fk.zip (fk.map fun _ => 1)).zip
        (cfld.getD (fk.map fun _ => 1)))) cnt := by
  simp only [List.mem_cons, List.not_mem_nil, or_false] at hfk
  cases cfld with
  | none =>
    obtain rfl := hnT (by simp)
    have htaken : taken (condTest 1) ((fk.zip (fk.map fun _ => 1)).zip (fk.map fun _ => 1)) =
        fk.map fun idx => (idx, 1) := by
      rw [taken_true rfl (by simp)]
      simpa using List.zip_map' (f := id) (g := fun _ => (1 : Int)) (l := fk)
    rw [Option.getD_none, htaken]
    rcases hfk with rfl | rfl | rfl | rfl <;> rfl
  | some c =>
    rw [Option.getD_some, taken_zip_ones]
    have hserial : countNn fk c cnt = countLoop ((fk.zip c).flatMap fun r =>
        if condTest 1 r.2 then [(r.1, 1)] else []) cnt := by
      simp [countNn, condTest]
    by_cases h1 : nT = 1
    · subst h1
      rcases hfk with rfl | rfl | rfl | rfl <;> exact hserial
    · -- only `I1` is counted in parallel
      obtain ⟨rfl, -⟩ := not_not.mp (mt hnT h1)
      have hpar : opCount nT .I1 fk (some c) cnt = parCountCfld nT fk c cnt := if_neg h1
      rw [hpar, parCountCfld, parLoop_eq _ hpos]
      simp [condTest, h1]

lemma opCountf_eq (hpos : 0 < nT) (hnT : ¬ (fkType = .I1 ∧ cfld.isSome = true) → nT = 1)
    (hfk : fkType ∈ [FldType.I1, .I2, .I4, .I8]) (srcType : FldType) (src fk cnt : List Int) :
    opCountf nT srcType fkType src fk cfld cnt =
      countLoop (taken (condTest nT)
        (((if fkType = .I1 ∧ cfld.isSome = true ∧ nT = 1 then (readChars srcType src).take fk.length
          else fk).zip ((readInts srcType src).take fk.length)).zip
            (cfld.getD (fk.map fun _ => 1)))) cnt := by
  simp only [List.mem_cons, List.not_mem_nil, or_false] at hfk
  cases cfld with
  | none =>
    obtain rfl := hnT (by simp)
    rw [if_neg (by simp), Option.getD_none, taken_true rfl (by simp)]
    rcases hfk with rfl | rfl | rfl | rfl <;> rfl
  | some c =>
    rw [Option.getD_some]
    have hserial : ∀ keys, countfNn ((readInts srcType src).take fk.length) keys c cnt =
        countLoop (taken (condTest 1)
          ((keys.zip ((readInts srcType src).take fk.length)).zip c)) cnt := by
      intro keys
      simp [countfNn, taken, condTest]
    by_cases h1 : nT = 1
    · subst h1
      rcases hfk with rfl | rfl | rfl | rfl <;> exact hserial _
    · obtain ⟨rfl, -⟩ := not_not.mp (mt hnT h1)
      have hpar : opCountf nT srcType .I1 src fk (some c) cnt =
          parCountfCfld nT ((readInts srcType src).take fk.length) fk c cnt := if_neg h1
      rw [hpar, parCountfCfld, parLoop_eq _ hpos, if_neg fun h => h1 h.2.2]
      simp [taken, condTest, h1]

end

section

variable (numCores : Nat) (st : CountStmt) (src : List Int) (n b : Nat)

/-- The number of threads of a block. -/
def blockNT : Nat :=
  countNT numCores st.fkType st.cfld (blockOf st.fk compExprBlockSize n b).length st.dstNR

/-- The entries that a block adds. -/
def blockEntries : List (Int × Int) :=
  let fk := blockOf st.fk compExprBlockSize n b
  let srcB := blockOf src compExprBlockSize n b
  let nT := blockNT numCores st n b
  taken (condTest nT) (((blockKeys nT st srcB fk).zip (blockVals st srcB fk)).zip
    (blockOf st.conds compExprBlockSize n b))

end

section

variable {numCores : Nat} {st : CountStmt} {src : List Int} {n b : Nat}

lemma blockNT_pos : 0 < blockNT numCores st n b := by
  unfold blockNT countNT
  split_ifs
  · exact computeNTForCount_pos _ _ _
  · exact Nat.one_pos

lemma blockNT_of_serial (h : ¬ (st.fkType = .I1 ∧ st.cfld.isSome = true)) :
    blockNT numCores st n b = 1 := if_neg h

lemma blockNT_of_cfld (hfk : st.fkType = .I1) (hcfld : st.cfld.isSome = true) :
    blockNT numCores st n b =
      computeNTForCount numCores (blockOf st.fk compExprBlockSize n b).length st.dstNR :=
  if_pos ⟨hfk, hcfld⟩

/-- A block adds its entries. -/
lemma execBlock_eq (hwf : st.WellFormed) (hb : compExprBlockSize * b < 2 ^ 31) (cnt : List Int) :
    execBlock numCores st src n b cnt = countLoop (blockEntries numCores st src n b) cnt := by
  have hconds : (st.cfld.map fun c => blockOf c compExprBlockSize n b).getD
      ((blockOf st.fk compExprBlockSize n b).map fun _ => 1) =
        blockOf st.conds compExprBlockSize n b := by
    rw [CountStmt.conds]
    cases st.cfld with
    | none => rw [Option.map_none, Option.getD_none, Option.getD_none, blockOf_map]
    | some c => rw [Option.map_some, Option.getD_some, Option.getD_some]
  have hnT : countNT numCores st.fkType (st.cfld.map fun c => blockOf c compExprBlockSize n b)
      (blockOf st.fk compExprBlockSize n b).length st.dstNR = blockNT numCores st n b := by
    rw [blockNT, countNT, countNT, Option.isSome_map]
  have hserial : ¬ (st.fkType = .I1 ∧
      (st.cfld.map fun c => blockOf c compExprBlockSize n b).isSome = true) →
        blockNT numCores st n b = 1 := by
    rw [Option.isSome_map]
    exact blockNT_of_serial
  rw [execBlock, if_neg (Nat.not_le.mpr hb)]
  dsimp only
  rw [hnT, blockEntries]
  cases hsrc : st.srcType with
  | none =>
    rw [blockKeys, blockVals, hsrc]
    dsimp only
    rw [opCount_eq blockNT_pos hserial hwf.fkType, hconds]
  | some t =>
    rw [blockKeys, blockVals, hsrc]
    dsimp only
    rw [opCountf_eq blockNT_pos hserial hwf.fkType, hconds, Option.isSome_map]

/-- The blocks add their entries one after another. -/
lemma foldlM_countLoop {f : List Int → Nat → Option (List Int)} {E : Nat → List (Int × Int)}
    {l : List Nat} (h : ∀ b ∈ l, ∀ cnt, f cnt b = countLoop (E b) cnt) (cnt : List Int) :
    l.foldlM f cnt = countLoop (l.flatMap E) cnt := by
  induction l generalizing cnt with
  | nil => rfl
  | cons b l ih =>
    rw [List.foldlM_cons, h b List.mem_cons_self, List.flatMap_cons, countLoop_append]
    cases countLoop (E b) cnt with
    | none => rfl
    | some cnt' => exact ih (fun b' hb' => h b' (List.mem_cons_of_mem b hb')) cnt'

/-- If the blocks fit, the statement adds the entries of all blocks. -/
lemma execCount_eq (hwf : st.WellFormed) (hn : numCompBlocks st.fk.length = some n) (hle : n ≤ 2048) :
    execCount numCores st src =
      countLoop ((List.range n).flatMap (blockEntries numCores st src n)) (List.replicate st.dstNR 0) := by
  rw [execCount, hn]
  apply foldlM_countLoop
  intro b hb cnt
  have hlt := List.mem_range.mp hb
  apply execBlock_eq hwf
  rw [compExprBlockSize]
  omega

/-- A statement that leaves counters has blocks that fit. -/
lemma blocks_of_execCount {cnt : List Int} (h : execCount numCores st src = some cnt) :
    ∃ n, numCompBlocks st.fk.length = some n ∧ n ≤ 2048 := by
  rw [execCount] at h
  cases hn : numCompBlocks st.fk.length with
  | none =>
    rw [hn] at h
    cases h
  | some n =>
    refine ⟨n, rfl, ?_⟩
    by_contra hlt
    rw [hn] at h
    dsimp only at h
    have hnone : ∀ cnt, execBlock numCores st src n 2048 cnt = none := by
      intro cnt
      rw [execBlock, if_pos (by rw [compExprBlockSize]; omega)]
    rw [foldlM_eq_none (List.mem_range.mpr (not_le.mp hlt)) hnone] at h
    cases h

/-! ### Rows -/

lemma mem_zip_of_mem_zip_zip {α β γ : Type} {xs : List α} {ys : List β} {zs : List γ}
    {r : (α × β) × γ} (h : r ∈ (xs.zip ys).zip zs) : (r.1.1, r.2) ∈ xs.zip zs := by
  induction xs generalizing ys zs with
  | nil => simp at h
  | cons x xs ih =>
    cases ys with
    | nil => simp at h
    | cons y ys =>
      cases zs with
      | nil => simp at h
      | cons z zs =>
        rw [List.zip_cons_cons, List.zip_cons_cons] at h
        rw [List.zip_cons_cons]
        rcases List.mem_cons.mp h with rfl | h
        · exact List.mem_cons_self
        · exact List.mem_cons_of_mem _ (ih h)

lemma exists_mem_zip_zip {α β γ : Type} {xs : List α} {ys : List β} {zs : List γ} {x : α} {z : γ}
    (hlen : ys.length = xs.length) (h : (x, z) ∈ xs.zip zs) : ∃ y, ((x, y), z) ∈ (xs.zip ys).zip zs := by
  induction xs generalizing ys zs with
  | nil => simp at h
  | cons x' xs ih =>
    cases ys with
    | nil => simp at hlen
    | cons y ys =>
      cases zs with
      | nil => simp at h
      | cons z' zs =>
        rw [List.zip_cons_cons] at h
        rw [List.zip_cons_cons, List.zip_cons_cons]
        rcases List.mem_cons.mp h with heq | h
        · obtain ⟨rfl, rfl⟩ := Prod.ext_iff.mp heq
          exact ⟨y, List.mem_cons_self⟩
        · obtain ⟨y', hy'⟩ := ih (Nat.succ.inj hlen) h
          exact ⟨y', List.mem_cons_of_mem _ hy'⟩

lemma length_vals (hsrc : st.SrcFits src) : (st.vals src).length = st.fk.length := by
  rw [CountStmt.vals]
  cases st.srcType with
  | none => exact List.length_map _
  | some t => exact hsrc.length

lemma blockOf_rows (hwf : st.WellFormed) (hsrc : st.SrcFits src) :
    blockOf (st.rows src) compExprBlockSize n b =
      ((blockOf st.fk compExprBlockSize n b).zip (blockOf (st.vals src) compExprBlockSize n b)).zip
        (blockOf st.conds compExprBlockSize n b) := by
  have hzip : (st.fk.zip (st.vals src)).length = st.fk.length := by
    rw [List.length_zip, length_vals hsrc, Nat.min_self]
  rw [CountStmt.rows, blockOf_zip (hwf.conds.trans hzip.symm), blockOf_zip (length_vals hsrc)]

/-- The selected rows of the blocks are those of the table. -/
lemma flatMap_taken_blocks (p : Int → Bool) (rows : List ((Int × Int) × Int)) (hn : 0 < n) :
    (List.range n).flatMap (fun b => taken p (blockOf rows compExprBlockSize n b)) = taken p rows := by
  unfold taken
  rw [← List.flatMap_assoc, flatMap_blockOf rows compExprBlockSize hn]

lemma numCompBlocks_pos (h : numCompBlocks st.fk.length = some n) : 0 < n := by
  unfold numCompBlocks at h
  split_ifs at h
  obtain rfl := Option.some.inj h
  exact Nat.lt_of_lt_of_le Nat.one_pos (Nat.le_max_left 1 _)

lemma mem_taken {p : Int → Bool} {rows : List ((Int × Int) × Int)} {e : Int × Int} :
    e ∈ taken p rows ↔ ∃ c, (e, c) ∈ rows ∧ p c = true := by
  unfold taken
  rw [List.mem_flatMap]
  constructor
  · rintro ⟨r, hr, he⟩
    split_ifs at he with hp
    · obtain rfl := List.mem_singleton.mp he
      exact ⟨r.2, hr, hp⟩
    · cases he
  · rintro ⟨c, hc, hp⟩
    exact ⟨(e, c), hc, by rw [if_pos hp]; exact List.mem_singleton_self e⟩

lemma taken_congr {p q : Int → Bool} {rows : List ((Int × Int) × Int)}
    (h : ∀ r ∈ rows, p r.2 = q r.2) : taken p rows = taken q rows :=
  List.flatMap_congr fun r hr => by rw [h r hr]

lemma taken_eq_nil {p : Int → Bool} {xs : List (Int × Int)} {cs : List Int}
    (h : ∀ c ∈ cs, p c = false) : taken p (xs.zip cs) = [] := by
  rw [List.eq_nil_iff_forall_not_mem]
  intro e he
  obtain ⟨c, hc, hp⟩ := mem_taken.mp he
  rw [h c (List.of_mem_zip hc).2] at hp
  cases hp

/-- A source column of four bytes is read as it is. -/
lemma blockVals_eq (hsrc : st.SrcFits src) (h8 : st.srcType ≠ some .I8) :
    blockVals st (blockOf src compExprBlockSize n b) (blockOf st.fk compExprBlockSize n b) =
      blockOf (st.vals src) compExprBlockSize n b := by
  rw [blockVals, CountStmt.vals]
  cases ht : st.srcType with
  | none => exact (blockOf_map _ _).symm
  | some t =>
    have ht8 : t ≠ .I8 := fun h => h8 (by rw [ht, h])
    dsimp only
    rw [readInts, if_neg ht8, List.take_of_length_le (length_blockOf hsrc.length).le]

/-- A block whose selected rows are counted adds their entries. -/
lemma blockEntries_eq (hwf : st.WellFormed) (hsrc : st.SrcFits src)
    (hrows : ∀ r ∈ blockOf (st.fk.zip st.conds) compExprBlockSize n b, r.2 ≠ 0 →
      RowCounted numCores st (blockOf st.fk compExprBlockSize n b).length r.1 r.2) :
    blockEntries numCores st src n b =
      taken (· ≠ 0) (blockOf (st.rows src) compExprBlockSize n b) := by
  rw [blockEntries, blockOf_rows hwf hsrc]
  by_cases hsel : ∃ c ∈ blockOf st.conds compExprBlockSize n b, c ≠ 0
  · rw [blockOf_zip hwf.conds] at hrows
    have hsnd : ((blockOf st.fk compExprBlockSize n b).zip
        (blockOf st.conds compExprBlockSize n b)).map Prod.snd =
          blockOf st.conds compExprBlockSize n b :=
      List.map_snd_zip (length_blockOf hwf.conds).le
    obtain ⟨c, hc, hc0⟩ := hsel
    rw [← hsnd] at hc
    obtain ⟨r, hr, rfl⟩ := List.mem_map.mp hc
    have hcounted := hrows r hr hc0
    have hkeys : blockKeys (blockNT numCores st n b) st (blockOf src compExprBlockSize n b)
        (blockOf st.fk compExprBlockSize n b) = blockOf st.fk compExprBlockSize n b := by
      rw [blockKeys]
      cases ht : st.srcType with
      | none => rfl
      | some t =>
        apply if_neg
        rintro ⟨hfk, hcfld, h1⟩
        rw [blockNT_of_cfld hfk hcfld] at h1
        rcases hcounted.counter hfk hcfld with ⟨hne, -⟩ | ⟨-, hnone⟩
        · exact hne h1
        · rw [ht] at hnone
          cases hnone
    rw [hkeys, blockVals_eq hsrc hcounted.src]
    apply taken_congr
    intro r' hr'
    by_cases h1 : blockNT numCores st n b = 1
    · rw [h1, condTest, if_pos rfl]
    · rw [condTest, if_neg h1]
      have hpar : st.fkType = .I1 ∧ st.cfld.isSome = true := by
        by_contra hno
        exact h1 (blockNT_of_serial hno)
      by_cases h0 : r'.2 = 0
      · simp [h0]
      · have hone : r'.2 = 1 := by
          rw [blockNT_of_cfld hpar.1 hpar.2] at h1
          rcases (hrows _ (mem_zip_of_mem_zip_zip hr') h0).counter hpar.1 hpar.2 with
            ⟨-, hone⟩ | ⟨heq, -⟩
          · exact hone
          · exact absurd heq h1
        simp [hone]
  · have hzero : ∀ c ∈ blockOf st.conds compExprBlockSize n b, c = 0 := by
      intro c hc
      by_contra h0
      exact hsel ⟨c, hc, h0⟩
    rw [taken_eq_nil, taken_eq_nil]
    · intro c hc
      simp [hzero c hc]
    · intro c hc
      by_contra hne
      exact ne_zero_of_condTest (by simpa using hne) (hzero c hc)

/-! ### The condition is enough -/

lemma key_mem_of_taken {p : Int → Bool} {e : Int × Int} (h : e ∈ taken p (st.rows src)) :
    e.1 ∈ st.fk := by
  obtain ⟨c, hc, -⟩ := mem_taken.mp h
  exact (List.of_mem_zip (List.of_mem_zip hc).1).1

lemma wrap_of_key {key : Int} (h0 : 0 ≤ key) (h : key < 2 ^ 31) : CInt.wrap 32 key = key :=
  CInt.wrap_of_lt h0 h

lemma castKeys_eq {entries : List (Int × Int)} (h : ∀ e ∈ entries, 0 ≤ e.1 ∧ e.1 < 2 ^ 31) :
    castKeys entries = entries := by
  unfold castKeys
  rw [List.map_congr_left (g := id), List.map_id]
  intro e he
  rw [wrap_of_key (h e he).1 (h e he).2]
  rfl

lemma countsRight_of_cond (hwf : st.WellFormed) (h : CountCond numCores st) :
    CountsRight numCores st := by
  intro src hsrc
  obtain ⟨n, hn, hle, hrows⟩ := h
  have hpos := numCompBlocks_pos hn
  have hentries : (List.range n).flatMap (blockEntries numCores st src n) =
      taken (· ≠ 0) (st.rows src) := by
    rw [← flatMap_taken_blocks _ _ hpos]
    apply List.flatMap_congr
    intro b hb
    exact blockEntries_eq hwf hsrc (hrows b (List.mem_range.mp hb))
  have hsmall : ∀ e ∈ taken (· ≠ 0) (st.rows src), 0 ≤ e.1 ∧ e.1 < 2 ^ 31 := by
    intro e he
    refine ⟨(hwf.keys e.1 (key_mem_of_taken he)).1, ?_⟩
    obtain ⟨c, hc, hc0⟩ := mem_taken.mp he
    have hrow := mem_zip_of_mem_zip_zip hc
    rw [← flatMap_blockOf (st.fk.zip st.conds) compExprBlockSize hpos] at hrow
    obtain ⟨b, hb, hrow⟩ := List.mem_flatMap.mp hrow
    exact (hrows b (List.mem_range.mp hb) _ hrow (of_decide_eq_true hc0)).key
  rw [execCount_eq hwf hn hle, hentries, countLoop_eq_some, castKeys_eq hsmall, List.length_replicate,
    addTotals_replicate_zero]
  exact ⟨fun e he => hwf.keys e.1 (key_mem_of_taken he), rfl⟩

end

end Datacl
