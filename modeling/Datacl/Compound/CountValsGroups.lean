import Datacl.Compound.CountVals

/-!
# The groups of `count_vals`

On a sorted column the kernels give every value once, with its total. The compaction moves nothing.
-/

namespace Datacl

open Tally

/-- The distinct values in ascending order, each with its total. -/
structure IsGroups (entries rows : List (Int × Int)) : Prop where
  ascending : (rows.map Prod.fst).Pairwise (· < ·)
  values : ∀ v, v ∈ rows.map Prod.fst ↔ v ∈ entries.map Prod.fst
  counts : ∀ r ∈ rows, r.2 = total entries r.1

/-! ### The kernels -/

/-- The counts are positive, and the totals fit in an `int`. -/
structure SmallTotals (entries : List (Int × Int)) : Prop where
  pos : ∀ e ∈ entries, 0 < e.2
  lt : ∀ v, total entries v < 2 ^ 31

section

variable {k a b : Int} {g r : Int × Int} {rows : List (Int × Int)}

lemma SmallTotals.tail (h : SmallTotals (r :: rows)) : SmallTotals rows := by
  have hpos := List.forall_mem_cons.mp h.pos
  refine ⟨hpos.2, fun v => ?_⟩
  have hlt := h.lt v
  rw [total_cons] at hlt
  have hr : 0 ≤ if r.1 = v then r.2 else 0 := by
    split_ifs
    · exact hpos.1.le
    · exact le_rfl
  omega

/-- The first count fits in an `int`. -/
lemma SmallTotals.head_lt (h : SmallTotals (r :: rows)) : 0 < r.2 ∧ r.2 < 2 ^ 31 := by
  have hlt := h.lt r.1
  have hrest := total_nonneg (fun e he => (h.tail.pos e he).le) r.1
  rw [total_cons, if_pos rfl] at hlt
  exact ⟨h.pos r List.mem_cons_self, by omega⟩

lemma SmallTotals.merge (h : SmallTotals ((k, a) :: (k, b) :: rows)) :
    SmallTotals ((k, a + b) :: rows) := by
  have hpos := h.pos
  simp only [List.forall_mem_cons] at hpos
  refine ⟨List.forall_mem_cons.mpr ⟨Int.add_pos hpos.1 hpos.2.1, hpos.2.2⟩, fun v => ?_⟩
  rw [total_merge]
  exact h.lt v

/-- A row with the value of the group joins it. -/
lemma uniqLoop_merge (h : SmallTotals ((k, a) :: (k, b) :: rows)) :
    uniqLoop (k, a) ((k, b) :: rows) = uniqLoop (k, a + b) rows := by
  obtain ⟨hpos, hlt⟩ := h.merge.head_lt
  have hwrap : CInt.wrap 32 (a + b) = a + b := CInt.wrap_of_lt hpos.le hlt
  rw [uniqLoop, if_pos rfl, hwrap]

/-- As long as the totals are small, the width of the counter does not matter. -/
lemma uniqCntAlldefLoop_eq (h : SmallTotals (g :: rows)) :
    uniqCntAlldefLoop g rows = uniqLoop g rows := by
  induction rows generalizing g with
  | nil =>
    obtain ⟨hpos, hlt⟩ := h.head_lt
    rw [uniqCntAlldefLoop, uniqLoop, CInt.wrap_of_lt hpos.le hlt]
  | cons r rows ih =>
    obtain ⟨k, a⟩ := g
    obtain ⟨v, b⟩ := r
    obtain ⟨hpos, hlt⟩ := h.head_lt
    by_cases hv : v = k
    · subst hv
      obtain ⟨hpos', hlt'⟩ := h.merge.head_lt
      have hwrap : CInt.wrap 64 (a + b) = a + b := CInt.wrap_of_lt hpos'.le (by omega)
      rw [uniqCntAlldefLoop, if_pos rfl, hwrap, uniqLoop_merge h]
      exact ih h.merge
    · rw [uniqCntAlldefLoop, uniqLoop, if_neg hv, if_neg hv, CInt.wrap_of_lt hpos.le hlt, ih h.tail]

lemma uniqLoop_pos (h : SmallTotals (g :: rows)) : ∀ r ∈ uniqLoop g rows, 0 < r.2 := by
  induction rows generalizing g with
  | nil => exact h.pos
  | cons r rows ih =>
    obtain ⟨k, a⟩ := g
    obtain ⟨v, b⟩ := r
    by_cases hv : v = k
    · subst hv
      rw [uniqLoop_merge h]
      exact ih h.merge
    · rw [uniqLoop, if_neg hv]
      exact List.forall_mem_cons.mpr ⟨h.head_lt.1, ih h.tail⟩

/-- Sorted rows are grouped. -/
lemma uniqLoop_isGroups (h : SmallTotals (g :: rows))
    (hsorted : ((g :: rows).map Prod.fst).Pairwise (· ≤ ·)) :
    IsGroups (g :: rows) (uniqLoop g rows) := by
  induction rows generalizing g with
  | nil =>
    refine ⟨List.pairwise_singleton _ _, fun v => Iff.rfl, ?_⟩
    intro r hr
    rw [uniqLoop, List.mem_singleton] at hr
    rw [hr, total_cons, total_nil, if_pos rfl, add_zero]
  | cons r rows ih =>
    obtain ⟨k, a⟩ := g
    obtain ⟨v, b⟩ := r
    have hcons := List.pairwise_cons.mp hsorted
    by_cases hv : v = k
    · subst hv
      rw [uniqLoop_merge h]
      obtain ⟨hasc, hvals, hcounts⟩ := ih h.merge hcons.2
      refine ⟨hasc, fun w => ?_, fun r hr => ?_⟩
      · rw [hvals]
        simp
      · rw [hcounts r hr, total_merge]
    · rw [uniqLoop, if_neg hv]
      obtain ⟨hasc, hvals, hcounts⟩ := ih h.tail hcons.2
      -- all later values are greater
      have hlater : ∀ w ∈ ((v, b) :: rows).map Prod.fst, k < w := by
        intro w hw
        have hkv : k ≤ v := hcons.1 v List.mem_cons_self
        have hvw : v ≤ w := by
          rcases List.mem_cons.mp hw with rfl | hw
          · exact le_rfl
          · exact (List.pairwise_cons.mp hcons.2).1 w hw
        have hne : k ≠ v := fun heq => hv heq.symm
        omega
      refine ⟨?_, fun w => ?_, ?_⟩
      · rw [List.map_cons, List.pairwise_cons]
        exact ⟨fun w hw => hlater w ((hvals w).mp hw), hasc⟩
      · rw [List.map_cons, List.mem_cons, hvals, List.map_cons (a := (k, a)), List.mem_cons]
      · refine List.forall_mem_cons.mpr ⟨?_, fun r hr => ?_⟩
        · rw [total_cons, if_pos rfl, total_eq_zero, add_zero]
          intro e he
          exact (hlater e.1 (List.mem_map_of_mem he)).ne'
        · have hk := hlater r.1 ((hvals r.1).mp (List.mem_map_of_mem hr))
          rw [hcounts r hr, total_cons (k, a), if_neg hk.ne, zero_add]

lemma uniqGood_isGroups (h : SmallTotals rows) (hsorted : (rows.map Prod.fst).Pairwise (· ≤ ·)) :
    IsGroups rows (uniqGood rows) := by
  cases rows with
  | nil => exact ⟨List.Pairwise.nil, fun _ => Iff.rfl, by simp [uniqGood]⟩
  | cons r rows => exact uniqLoop_isGroups h hsorted

end

/-! ### The compaction -/

/-- A positive entry is moved to where it is. -/
lemma foldl_compactStep {vals cnts : List Int} {n : Nat} (hpos : ∀ i < n, 0 < cnts.getD i 0)
    (hzero : ∀ i, n ≤ i → cnts.getD i 0 = 0) (m : Nat) :
    (List.range m).foldl compactStep ⟨vals, cnts, 0⟩ = ⟨vals, cnts, min m n⟩ := by
  have hset : ∀ (xs : List Int) (i : Nat), xs.set i (xs.getD i 0) = xs := by
    intro xs i
    apply List.ext_getElem?
    intro j
    rw [List.getElem?_set]
    split_ifs with hij hlt
    · rw [← hij, List.getD_eq_getElem?_getD, List.getElem?_eq_getElem hlt, Option.getD_some]
    · rw [← hij, List.getElem?_eq_none (Nat.le_of_not_lt hlt)]
    · rfl
  induction m with
  | zero => simp
  | succ m ih =>
    rw [List.range_succ, List.foldl_append, ih, List.foldl_cons, List.foldl_nil, compactStep]
    dsimp only
    by_cases hm : m < n
    · rw [if_pos (hpos m hm), Nat.min_eq_left hm.le, Nat.min_eq_left hm, hset, hset]
    · rw [if_neg (by rw [hzero m (not_lt.mp hm)]; exact lt_irrefl 0), Nat.min_eq_right (not_lt.mp hm),
        Nat.min_eq_right (by omega)]

/-- The halves of a value make the value. -/
lemma joinPairs_readInts {vals : List Int} (h : ∀ v ∈ vals, -2 ^ 63 ≤ v ∧ v < 2 ^ 63) :
    joinPairs (readInts .I8 vals) = vals := by
  induction vals with
  | nil => rfl
  | cons x vals ih =>
    rw [List.forall_mem_cons] at h
    have hread : readInts .I8 (x :: vals) =
        CInt.wrap 32 x :: CInt.wrap 32 (x / 2 ^ 32) :: readInts .I8 vals := rfl
    have hhi : CInt.wrap 32 (x / 2 ^ 32) = x / 2 ^ 32 := CInt.wrap_of_mem (by omega) (by omega)
    have hlo : CInt.wrap 32 x % 2 ^ 32 = x % 2 ^ 32 := Int.bmod_emod
    have hdm := Int.mul_ediv_add_emod x (2 ^ 32)
    rw [hread, joinPairs, ih h.2, hhi, hlo, Int.mul_comm, hdm]
    exact congrArg (· :: vals) (CInt.wrap_of_mem h.1.1 h.1.2)

lemma joinInts_readInts {fldtype : FldType} {vals : List Int} (h : CellsFit fldtype vals) :
    joinInts fldtype (readInts fldtype vals) = vals := by
  cases fldtype with
  | I4 => rfl
  | I8 => exact joinPairs_readInts h
  | _ => exact absurd h id

/-- The output is what the kernel has written. -/
lemma truncateOutput_eq {fldtype : FldType} {srcNR : Nat} {rows : List (Int × Int)}
    (hfit : ∀ pad, CellsFit fldtype (rows.map Prod.fst ++ List.replicate pad 0))
    (hpos : ∀ r ∈ rows, 0 < r.2) : truncateOutput fldtype srcNR rows = some rows := by
  unfold truncateOutput
  split_ifs with hlt
  · obtain ⟨pad, hpad⟩ : ∃ pad, srcNR - rows.length = pad := ⟨_, rfl⟩
    have hcnt : ∀ i < rows.length, 0 < (rows.map Prod.snd ++ List.replicate pad 0).getD i 0 := by
      intro i hi
      rw [List.getD_eq_getElem?_getD, List.getElem?_append_left (by simpa using hi),
        List.getElem?_map, List.getElem?_eq_getElem hi]
      exact hpos _ (List.getElem_mem hi)
    have hzero : ∀ i, rows.length ≤ i → (rows.map Prod.snd ++ List.replicate pad (0 : Int)).getD i 0 = 0 := by
      intro i hi
      rw [List.getD_eq_getElem?_getD, List.getElem?_append_right (by simpa using hi),
        List.getElem?_replicate]
      split_ifs <;> rfl
    dsimp only
    rw [hpad, foldl_compactStep hcnt hzero, Nat.min_eq_right hlt.le, if_neg (not_not.mpr rfl),
      joinInts_readInts (hfit pad), List.zip_append (by simp), List.take_left' (by simp),
      ← List.unzip_fst, ← List.unzip_snd, List.zip_unzip]
  · rfl

/-! ### The order of the column -/

lemma inOrder_ascending {prev : Int} {iX : List Int} (h : (prev :: iX).Pairwise (· ≤ ·)) :
    inOrder .ascending prev iX = true := by
  induction iX generalizing prev with
  | nil => rfl
  | cons curr iX ih =>
    obtain ⟨hprev, htail⟩ := List.pairwise_cons.mp h
    have hle := hprev curr List.mem_cons_self
    rw [inOrder, if_neg (by omega), if_neg (by simp), ih htail]

lemma isSortedAlldef_ascending {iX : List Int} (hne : iX ≠ []) (h : iX.Pairwise (· ≤ ·)) :
    isSortedAlldef iX = .ascending := by
  obtain ⟨first, rest, rfl⟩ := List.exists_cons_of_ne_nil hne
  rw [isSortedAlldef]
  cases hi : (first :: rest).findIdx? fun x => x ≠ first with
  | none => rfl
  | some i =>
    obtain ⟨hlt, hval, -⟩ := List.findIdx?_eq_some_iff_getElem.mp hi
    have hget : (first :: rest).getD i 0 = (first :: rest)[i] := by
      rw [List.getD_eq_getElem?_getD, List.getElem?_eq_getElem hlt, Option.getD_some]
    have hne' : (first :: rest)[i] ≠ first := of_decide_eq_true hval
    have hi0 : i ≠ 0 := by
      rintro rfl
      exact hne' rfl
    have hfirst : first < (first :: rest)[i] := by
      have hle : first ≤ (first :: rest)[i] :=
        List.pairwise_iff_getElem.mp h 0 i (by simp) hlt (by omega)
      omega
    have hdrop : (first :: rest)[i] :: (first :: rest).drop (i + 1) = (first :: rest).drop i :=
      (List.drop_eq_getElem_cons hlt).symm
    have hsub : ((first :: rest)[i] :: (first :: rest).drop (i + i)).Sublist (first :: rest) := by
      have hrest : (first :: rest).drop (i + i) = ((first :: rest).drop (i + 1)).drop (i - 1) := by
        rw [List.drop_drop]
        congr 1
        omega
      rw [hrest]
      exact ((List.drop_sublist _ _).cons_cons _).trans (hdrop ▸ List.drop_sublist i _)
    dsimp only
    rw [hget, if_pos hfirst, inOrder_ascending (h.sublist hsub)]
    rfl

/-! ### The command -/

/-- The rows with what they count for. -/
def CountValsArgs.rows (args : CountValsArgs) : List (Int × Int) :=
  match args.inCnt with
  | none => args.cells.map fun v => (v, 1)
  | some inCnt => args.cells.zip inCnt

/-- The rows that are not null. -/
def CountValsArgs.selected (args : CountValsArgs) : List (Int × Int) :=
  match args.nnX with
  | none => args.rows
  | some nn => goodRows args.rows nn

/-- A column of `int`s or `long long`s whose values, but for the nulls, ascend, and positive counts. -/
structure CountValsArgs.WellFormed (args : CountValsArgs) : Prop where
  cells : CellsFit args.fldtype args.cells
  rows : args.cells ≠ []
  sorted : (args.selected.map Prod.fst).Pairwise (· ≤ ·)
  nnX : ∀ nn ∈ args.nnX, nn.length = args.cells.length
  inCnt : ∀ inCnt ∈ args.inCnt, inCnt.length = args.cells.length ∧ ∀ c ∈ inCnt, 0 < c
  totals : ∀ v, total args.selected v < 2 ^ 31

/-- The kernels for a null column give what the others give if no row is null. -/
def KernelsAgree (args : CountValsArgs) : Prop :=
  ∀ nn : List Int, nn.length = args.cells.length → (∀ c ∈ nn, c ≠ 0) →
    uniq args.cells nn = uniqAlldef args.cells ∧
      ∀ inCnt ∈ args.inCnt, uniqCnt args.cells inCnt nn = uniqCntAlldef args.cells inCnt

/-- The output is right and the kernels agree. -/
structure CountsVals (args : CountValsArgs) : Prop where
  output : ∃ rows, countVals args = some rows ∧ IsGroups args.selected rows
  kernels : KernelsAgree args

/-- There is no null column, the column is not recorded as anything else than ascending, and counts
are for `int`s and start with 1. -/
structure CountValsCond (args : CountValsArgs) : Prop where
  noNulls : args.nnX = none
  order : args.srttype = .unknown ∨ args.srttype = .ascending
  counts : ∀ inCnt ∈ args.inCnt, args.fldtype = .I4 ∧ inCnt.head? = some 1

section

variable {args : CountValsArgs}

lemma goodRows_of_good {rows : List (Int × Int)} {nn : List Int} (hlen : nn.length = rows.length)
    (hgood : ∀ c ∈ nn, c ≠ 0) : goodRows rows nn = rows := by
  have hall : ((rows.zip nn).filter fun r => r.2 ≠ 0) = rows.zip nn :=
    List.filter_eq_self.mpr fun r hr => decide_eq_true (hgood r.2 (List.of_mem_zip hr).2)
  rw [goodRows, hall, List.map_fst_zip hlen.ge]

lemma fToSIsSorted_iff (hne : args.cells ≠ []) (hsorted : args.cells.Pairwise (· ≤ ·)) :
    fToSIsSorted args.srttype args.cells false = .ascending ↔
      args.srttype = .unknown ∨ args.srttype = .ascending := by
  rw [fToSIsSorted, if_neg Bool.false_ne_true]
  by_cases hunknown : args.srttype = .unknown
  · rw [if_pos hunknown, isSortedAlldef_ascending hne hsorted]
    exact iff_of_true rfl (.inl hunknown)
  · rw [if_neg hunknown]
    exact ⟨.inr, fun h => h.resolve_left hunknown⟩

lemma CountValsArgs.WellFormed.small (h : args.WellFormed) (hnn : args.nnX = none) :
    SmallTotals args.rows := by
  have hsel : args.selected = args.rows := by rw [CountValsArgs.selected, hnn]
  refine ⟨?_, hsel ▸ h.totals⟩
  unfold CountValsArgs.rows
  cases hcnt : args.inCnt with
  | none =>
    intro e he
    obtain ⟨v, -, rfl⟩ := List.mem_map.mp he
    exact Int.one_pos
  | some inCnt =>
    intro e he
    exact (h.inCnt inCnt hcnt).2 e.2 (List.of_mem_zip he).2

lemma CountValsArgs.WellFormed.sorted_rows (h : args.WellFormed) (hnn : args.nnX = none) :
    (args.rows.map Prod.fst).Pairwise (· ≤ ·) := by
  have hsorted := h.sorted
  rwa [CountValsArgs.selected, hnn] at hsorted

lemma CountValsArgs.WellFormed.map_fst_rows (h : args.WellFormed) :
    args.rows.map Prod.fst = args.cells := by
  unfold CountValsArgs.rows
  cases hcnt : args.inCnt with
  | none =>
    rw [List.map_map]
    exact List.map_id _
  | some inCnt => exact List.map_fst_zip (h.inCnt inCnt hcnt).1.ge

lemma CellsFit.type {fldtype : FldType} {cells : List Int} (h : CellsFit fldtype cells) :
    fldtype = .I4 ∨ fldtype = .I8 := by
  cases fldtype with
  | I4 => exact .inl rfl
  | I8 => exact .inr rfl
  | _ => exact absurd h id

lemma CellsFit.append_zeros {fldtype : FldType} {cells vals : List Int} (h : CellsFit fldtype cells)
    (hsub : ∀ v ∈ vals, v ∈ cells) (pad : Nat) : CellsFit fldtype (vals ++ List.replicate pad 0) := by
  have hcases : ∀ v ∈ vals ++ List.replicate pad (0 : Int), v ∈ cells ∨ v = 0 := by
    intro v hv
    rcases List.mem_append.mp hv with hv | hv
    · exact .inl (hsub v hv)
    · exact .inr (List.eq_of_mem_replicate hv)
  cases fldtype with
  | I4 =>
    intro v hv
    rcases hcases v hv with hv | rfl
    · exact h v hv
    · decide
  | I8 =>
    intro v hv
    rcases hcases v hv with hv | rfl
    · exact h v hv
    · decide
  | _ => exact absurd h id

/-- Without nulls and with its order the column is counted. -/
lemma countVals_eq (h : args.WellFormed) (hnn : args.nnX = none)
    (horder : args.srttype = .unknown ∨ args.srttype = .ascending) {rows : List (Int × Int)}
    (hkernel : countValsKernel args = some rows) (hsub : ∀ v ∈ rows.map Prod.fst, v ∈ args.cells)
    (hpos : ∀ r ∈ rows, 0 < r.2) : countVals args = some rows := by
  have hsorted := h.sorted_rows hnn
  rw [h.map_fst_rows] at hsorted
  have hasc := (fToSIsSorted_iff h.rows hsorted).mpr horder
  unfold countVals
  rw [hnn, Option.isSome_none, hasc, if_neg (not_not.mpr rfl), hkernel]
  cases rows with
  | nil => rfl
  | cons r rows => exact truncateOutput_eq (h.cells.append_zeros hsub) hpos

/-- Another column is refused. -/
lemma countVals_eq_none (h : args.WellFormed)
    (hbad : ¬ (args.nnX = none ∧ (args.srttype = .unknown ∨ args.srttype = .ascending))) :
    countVals args = none := by
  unfold countVals
  rw [if_pos]
  intro hasc
  cases hnn : args.nnX with
  | some nn =>
    rw [hnn] at hasc
    exact absurd hasc (by simp [fToSIsSorted])
  | none =>
    have hsorted := h.sorted_rows hnn
    rw [h.map_fst_rows] at hsorted
    rw [hnn, Option.isSome_none, fToSIsSorted_iff h.rows hsorted] at hasc
    exact hbad ⟨hnn, hasc⟩

/-- Without counts the output is right. -/
lemma output_of_no_counts (h : args.WellFormed) (hnn : args.nnX = none)
    (horder : args.srttype = .unknown ∨ args.srttype = .ascending) (hcnt : args.inCnt = none) :
    ∃ rows, countVals args = some rows ∧ IsGroups args.selected rows := by
  have hsel : args.selected = args.rows := by rw [CountValsArgs.selected, hnn]
  have hrows : args.rows = args.cells.map fun v => (v, 1) := by rw [CountValsArgs.rows, hcnt]
  have hgroups := uniqGood_isGroups (h.small hnn) (h.sorted_rows hnn)
  have hkernel : countValsKernel args = some (uniqGood args.rows) := by
    unfold countValsKernel
    rw [hnn, hcnt, hrows]
    rcases h.cells.type with hty | hty
    · rw [hty]
      rfl
    · rw [hty]
      rfl
  refine ⟨_, countVals_eq h hnn horder hkernel ?_ ?_, hsel ▸ hgroups⟩
  · intro v hv
    rw [← h.map_fst_rows]
    exact (hgroups.values v).mp hv
  · intro r hr
    cases hr0 : args.rows with
    | nil =>
      rw [hr0] at hr
      cases hr
    | cons r0 rows =>
      rw [hr0] at hr
      exact uniqLoop_pos (hr0 ▸ h.small hnn) r hr

/-- The kernel for counts counts the first row once. -/
lemma output_counts_iff (h : args.WellFormed) (hnn : args.nnX = none)
    (horder : args.srttype = .unknown ∨ args.srttype = .ascending) {inCnt : List Int}
    (hcnt : args.inCnt = some inCnt) :
    (∃ rows, countVals args = some rows ∧ IsGroups args.selected rows) ↔
      args.fldtype = .I4 ∧ inCnt.head? = some 1 := by
  have hsel : args.selected = args.rows := by rw [CountValsArgs.selected, hnn]
  have hrows : args.rows = args.cells.zip inCnt := by rw [CountValsArgs.rows, hcnt]
  obtain ⟨x, xs, hx⟩ := List.exists_cons_of_ne_nil h.rows
  obtain ⟨hlen, -⟩ := h.inCnt inCnt hcnt
  obtain ⟨c, cs, rfl⟩ : ∃ c cs, inCnt = c :: cs := by
    cases inCnt with
    | nil =>
      rw [hx] at hlen
      cases hlen
    | cons c cs => exact ⟨c, cs, rfl⟩
  have hfst := h.map_fst_rows
  rw [hrows, hx, List.zip_cons_cons, List.map_cons] at hfst
  have hsmall := h.small hnn
  have hsorted := h.sorted_rows hnn
  rw [hrows, hx, List.zip_cons_cons] at hsmall hsorted
  by_cases hty : args.fldtype = .I4
  · -- the kernel gives the groups of the rows with the count 1 in the first row
    have hsmall' : SmallTotals ((x, 1) :: xs.zip cs) := by
      refine ⟨List.forall_mem_cons.mpr ⟨Int.one_pos, hsmall.tail.pos⟩, fun v => ?_⟩
      have hlt := hsmall.lt v
      have hc := hsmall.head_lt.1
      rw [total_cons] at hlt ⊢
      split_ifs at hlt ⊢ <;> omega
    have hgroups := uniqLoop_isGroups hsmall' hsorted
    have hkernel : countValsKernel args = some (uniqLoop (x, 1) (xs.zip cs)) := by
      unfold countValsKernel
      rw [hnn, hcnt, hty, ← uniqCntAlldefLoop_eq hsmall', hx]
      rfl
    have hout := countVals_eq h hnn horder hkernel (by
      intro v hv
      rw [hx, ← hfst]
      exact (hgroups.values v).mp hv) (uniqLoop_pos hsmall')
    rw [hout, hsel, hrows, hx, List.zip_cons_cons]
    constructor
    · rintro ⟨rows, hrows', hexact⟩
      obtain rfl := Option.some.inj hrows'
      refine ⟨hty, ?_⟩
      obtain ⟨r, hr, hrx⟩ := List.mem_map.mp ((hgroups.values x).mpr List.mem_cons_self)
      have hcount := (hgroups.counts r hr).symm.trans (hexact.counts r hr)
      rw [hrx, total_cons, total_cons, if_pos rfl, if_pos rfl] at hcount
      rw [List.head?_cons, Option.some.injEq]
      dsimp only at hcount
      omega
    · rintro ⟨-, hhead⟩
      obtain rfl := Option.some.inj hhead
      exact ⟨_, rfl, hgroups⟩
  · refine iff_of_false ?_ fun hcond => hty hcond.1
    have hkernel : countValsKernel args = some [] := by
      unfold countValsKernel
      rw [hnn, hcnt, h.cells.type.resolve_left hty]
    have hout := countVals_eq h hnn horder hkernel (by simp) (by simp)
    rw [hout]
    rintro ⟨rows, hrows', hexact⟩
    obtain rfl := Option.some.inj hrows'
    have hmem := (hexact.values x).mpr (by
      rw [hsel, hrows, hx, List.zip_cons_cons]
      exact List.mem_cons_self)
    cases hmem

/-- The kernels agree if the counts start with 1. -/
lemma kernelsAgree (h : args.WellFormed) (hnn : args.nnX = none)
    (hone : ∀ inCnt ∈ args.inCnt, inCnt.head? = some 1) : KernelsAgree args := by
  intro nn hlen hgood
  have hsmall := h.small hnn
  constructor
  · rw [uniq, goodRows_of_good (by simpa using hlen) hgood, uniqAlldef]
  · intro inCnt hcnt
    obtain ⟨hlen', -⟩ := h.inCnt inCnt hcnt
    rw [uniqCnt, goodRows_of_good (by simpa [hlen'] using hlen) hgood, uniqCntAlldef]
    have hhead := hone inCnt hcnt
    rw [CountValsArgs.rows, hcnt] at hsmall
    cases hzip : args.cells.zip inCnt with
    | nil => rfl
    | cons r rows =>
      have hr : r.2 = 1 := by
        cases hcells : args.cells with
        | nil =>
          rw [hcells] at hzip
          cases hzip
        | cons x xs =>
          cases inCnt with
          | nil => cases hhead
          | cons c cs =>
            rw [hcells, List.zip_cons_cons] at hzip
            obtain rfl := (List.cons.inj hzip).1
            exact Option.some.inj hhead
      obtain ⟨x, c⟩ := r
      dsimp only at hr hsmall ⊢
      rw [hzip, hr] at hsmall
      rw [uniqGood, hr, uniqCntAlldefLoop_eq hsmall]

end

/-- The groups are right for a column without a null column that is known as ascending, unless there
are counts for `long long`s or counts that do not start with 1. -/
theorem countVals_iff {args : CountValsArgs} (h : args.WellFormed) :
    CountsVals args ↔ CountValsCond args := by
  constructor
  · rintro ⟨hout, -⟩
    have hgood : args.nnX = none ∧ (args.srttype = .unknown ∨ args.srttype = .ascending) := by
      by_contra hbad
      obtain ⟨rows, hrows, -⟩ := hout
      rw [countVals_eq_none h hbad] at hrows
      cases hrows
    exact ⟨hgood.1, hgood.2, fun inCnt hcnt => (output_counts_iff h hgood.1 hgood.2 hcnt).mp hout⟩
  · rintro ⟨hnn, horder, hcounts⟩
    refine ⟨?_, kernelsAgree h hnn fun inCnt hcnt => (hcounts inCnt hcnt).2⟩
    cases hcnt : args.inCnt with
    | none => exact output_of_no_counts h hnn horder hcnt
    | some inCnt => exact (output_counts_iff h hnn horder hcnt).mpr (hcounts inCnt hcnt)

/-- Three `long long`s without counts. -/
def threeLongs : CountValsArgs where
  fldtype := .I8
  srttype := .unknown
  cells := [-2, 5, 5]
  nnX := none
  inCnt := none

theorem countVals_three_longs : CountsVals threeLongs := by
  refine (countVals_iff ⟨?_, by decide, by decide, ?_, ?_, ?_⟩).mpr ⟨rfl, .inl rfl, ?_⟩
  · unfold CellsFit threeLongs
    decide
  · rintro nn ⟨⟩
  · rintro inCnt ⟨⟩
  · intro v
    have hle := total_le (by decide) (show ∀ e ∈ threeLongs.selected, e.2 = 1 by decide) v
    have hlen : (threeLongs.selected.length : Int) = 3 := rfl
    omega
  · rintro inCnt ⟨⟩

/-- A value that counts for two. -/
def oneCountedTwice : CountValsArgs where
  fldtype := .I4
  srttype := .unknown
  cells := [7]
  nnX := none
  inCnt := some [2]

/-- The count of the first row is lost. -/
theorem not_countVals_counted_twice : ¬ CountsVals oneCountedTwice := by
  rintro ⟨⟨rows, hrows, hgroups⟩, -⟩
  have hout : countVals oneCountedTwice = some [(7, 1)] := by decide
  obtain rfl := Option.some.inj (hout.symm.trans hrows)
  have hcount := hgroups.counts (7, 1) List.mem_cons_self
  revert hcount
  decide

end Datacl
