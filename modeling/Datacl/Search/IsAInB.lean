import Datacl.Meta.Store
import Datacl.Search.BinSearch
import Datacl.Vec.Partition
import Mathlib.Data.List.Forall2

/-!
# Membership: `is_a_in_b.c` and `tmpl_core_is_a_in_b.c`

The rows of `f1` are looked up in `f2` block by block. A block remembers the value of the row before, but
`prev_pos` is never set, so every value within the limits is searched.
-/

namespace Datacl

/-- A field and its `nn` field, which has as many rows. -/
structure NnFld where
  fldtype : FldType
  vals : List Int
  nn : Option (List Bool)
  nn_length : ∀ bits, nn = some bits → bits.length = vals.length

/-- The values, and whether they are defined. -/
def NnFld.rows (f : NnFld) : List (Int × Bool) :=
  f.vals.zip (f.nn.getD (List.replicate f.vals.length true))

/-- The row is not null. -/
def NnFld.NotNull (f : NnFld) (i : Nat) : Prop := ∀ bits, f.nn = some bits → bits[i]? = some true

/-- The arguments. Either `cfld` is to be made, or `dst_f1` from a field of `t2`, and its `nn` field. -/
structure IsAInBArgs where
  f1 : NnFld
  f2 : NnFld
  srttype : SortType
  srcF2 : Option NnFld
  src_length : ∀ src, srcF2 = some src → src.vals.length = f2.vals.length

/-- What a block remembers of the row before. -/
structure PrevRow where
  defined : Bool
  f1Val : Int
  pos : Int

/-- The position of a value of `f1`. -/
def findPos (f2 : List Int) (minval maxval : Int) (prev : PrevRow) (f1Val : Int) : Option Int :=
  if f1Val < minval ∨ maxval < f1Val then some (-1)
  else if prev.defined ∧ f1Val = prev.f1Val then
    if 0 ≤ prev.pos then some prev.pos else binSearch f2 f1Val .dontcare
  else binSearch f2 f1Val .dontcare

/-- `nn_src_f2_val`, and `src_f2_val` if there is a `dst_f1`. -/
def fetchSrc (srcF2 : Option NnFld) (pos : Int) : Option (Bool × Option Int) :=
  match srcF2 with
  | none => some (decide (0 ≤ pos), none)
  | some src =>
    if 0 ≤ pos then do
      let val ← itemAt src.vals pos
      let nn ← match src.nn with
        | some bits => itemAt bits pos
        | none => some true
      some (nn, some val)
    else some (false, some 0)

/-- One row: its flag, and its value of `dst_f1`. -/
def isAInBRow (args : IsAInBArgs) (minval maxval : Int) (prev : PrevRow) (row : Int × Bool) :
    Option (PrevRow × Bool × Option Int) :=
  if row.2 = false then some (prev, false, args.srcF2.map fun _ => 0)
  else do
    let pos ← findPos args.f2.vals minval maxval prev row.1
    let (nn, dst) ← fetchSrc args.srcF2 pos
    some ({ prev with defined := true, f1Val := row.1 }, if 0 ≤ pos then nn else false, dst)

/-- The rows of a block. -/
def isAInBRows (args : IsAInBArgs) (minval maxval : Int) :
    PrevRow → List (Int × Bool) → Option (List (Bool × Option Int))
  | _, [] => some []
  | prev, row :: rows => do
    let (prev', out) ← isAInBRow args minval maxval prev row
    let outs ← isAInBRows args minval maxval prev' rows
    some (out :: outs)

/-- All blocks. -/
def isAInBBlocks (args : IsAInBArgs) (blockSize nT : Nat) : Option (List (Bool × Option Int)) := do
  let minval ← args.f2.vals.head?
  let maxval ← args.f2.vals.getLast?
  -- `prev_f1_val` is not read before it is set
  let blocks ← (List.range nT).mapM fun tid =>
    isAInBRows args minval maxval ⟨false, 0, -1⟩ (blockOf args.f1.rows blockSize nT tid)
  some blocks.flatten

/-- `is_a_in_b`: the flags and the values of `dst_f1`. -/
def isAInB (args : IsAInBArgs) : Option (List (Bool × Option Int)) :=
  if args.f1.vals = [] ∨ args.f2.vals = [] then none
  else if args.srttype ≠ .ascending then none
  else if args.f1.fldtype ≠ args.f2.fldtype then none
  else if args.f2.nn.isSome then none
  else if args.srcF2.any fun src => src.fldtype ≠ args.f1.fldtype then none
  else if args.f2.fldtype ≠ .I4 ∧ args.f2.fldtype ≠ .I8 then none
  else
    match partition args.f1.vals.length 1024 (-1) with
    | none => none
    | some (blockSize, nT) => isAInBBlocks args blockSize.toNat nT.toNat

/-! ### `core_is_a_in_b` -/

/-- The linear scan; `sum` is an `int`. -/
def linearFlag (f2 : List Int) (f1Val : Int) : Bool :=
  decide (0 < f2.foldl (fun sum x => CInt.wrap 32 (sum + if x = f1Val then 1 else 0)) 0)

/-- The binary search. -/
def searchFlag (f2 : List Int) (f1Val : Int) : Option Bool :=
  (binSearch f2 f1Val .dontcare).map fun pos => decide (0 ≤ pos)

/-- One row. The flag of a value outside of `minval` and `maxval` is set twice, and the second time by
the scan or the search. -/
def coreRow (f2 : List Int) (row : Int × Bool) : Option Bool :=
  if row.2 = false then some false
  else if f2.length < 16 then some (linearFlag f2 row.1)
  else searchFlag f2 row.1

/-- `core_is_a_in_b`. -/
def coreIsAInB (nT blockSize : Nat) (f1 : NnFld) (f2 : List Int) : Option (List Bool) := do
  let blocks ← (List.range nT).mapM fun tid => (blockOf f1.rows blockSize nT tid).mapM (coreRow f2)
  some blocks.flatten

/-! ### What the rows should be -/

/-- A flag, and a value that comes from where the flag does. -/
structure LookedUp (args : IsAInBArgs) (notNull : Prop) (f1Val : Int) (out : Bool × Option Int) : Prop where
  absent : ¬ (notNull ∧ f1Val ∈ args.f2.vals) → out = (false, args.srcF2.map fun _ => 0)
  present : notNull → f1Val ∈ args.f2.vals →
    ∃ p, args.f2.vals[p]? = some f1Val ∧
      (out.1 = true ↔ ∀ src, args.srcF2 = some src → src.NotNull p) ∧
      out.2 = args.srcF2.bind fun src => src.vals[p]?

/-- What the code checks, and that `f2` is as ascending as it is marked. -/
structure IsAInBArgs.Accepted (args : IsAInBArgs) : Prop where
  f1_ne_nil : args.f1.vals ≠ []
  f2_ne_nil : args.f2.vals ≠ []
  srttype_eq : args.srttype = .ascending
  ascending : args.f2.vals.Pairwise (· ≤ ·)
  fldtype_eq : args.f1.fldtype = args.f2.fldtype
  f2_nn : args.f2.nn = none
  src_fldtype : ∀ src, args.srcF2 = some src → src.fldtype = args.f1.fldtype
  fldtype_int : args.f2.fldtype = .I4 ∨ args.f2.fldtype = .I8

section

variable {args : IsAInBArgs} {f2 : List Int} {minval maxval f1Val : Int} {prev : PrevRow} {pos : Int}
  {p : Nat} {row : Int × Bool}

/-! ### Rows and blocks -/

lemma NnFld.length_nn (f : NnFld) : (f.nn.getD (List.replicate f.vals.length true)).length = f.vals.length := by
  cases hnn : f.nn with
  | none => rw [Option.getD_none, List.length_replicate]
  | some bits => rw [Option.getD_some, f.nn_length bits hnn]

lemma NnFld.length_rows (f : NnFld) : f.rows.length = f.vals.length := by
  rw [NnFld.rows, List.length_zip, NnFld.length_nn, Nat.min_self]

/-- A row of a field is its value, and whether it is not null. -/
lemma NnFld.rows_getElem? (f : NnFld) {i : Nat} (hrow : f.rows[i]? = some row) :
    f.vals[i]? = some row.1 ∧ (row.2 = true ↔ f.NotNull i) := by
  rw [NnFld.rows, List.getElem?_zip_eq_some] at hrow
  refine ⟨hrow.1, ?_⟩
  unfold NnFld.NotNull
  cases hnn : f.nn with
  | none =>
    rw [hnn, Option.getD_none] at hrow
    have htrue := List.eq_of_mem_replicate (List.mem_of_getElem? hrow.2)
    simp [htrue]
  | some bits =>
    rw [hnn, Option.getD_some] at hrow
    simp [hrow.2]

/-- What holds of the rows of any block holds of the rows of the column. -/
lemma forall₂_blocks {α β : Type} {R : α → β → Prop} {run : List α → Option (List β)}
    (hrun : ∀ rows, ∃ outs, run rows = some outs ∧ List.Forall₂ R rows outs) (col : List α)
    (blockSize : Nat) {nT : Nat} (hn : 0 < nT) :
    ∃ blocks, ((List.range nT).mapM fun tid => run (blockOf col blockSize nT tid)) = some blocks ∧
      List.Forall₂ R col blocks.flatten := by
  have hblocks : ∀ tids : List Nat,
      ∃ blocks, (tids.mapM fun tid => run (blockOf col blockSize nT tid)) = some blocks ∧
        List.Forall₂ R (tids.flatMap (blockOf col blockSize nT)) blocks.flatten := by
    intro tids
    induction tids with
    | nil => exact ⟨[], rfl, .nil⟩
    | cons tid tids ih =>
      obtain ⟨blocks, hblocks, hR⟩ := ih
      obtain ⟨outs, houts, hR'⟩ := hrun (blockOf col blockSize nT tid)
      refine ⟨outs :: blocks, ?_, ?_⟩
      · rw [List.mapM_cons, houts, hblocks]
        rfl
      · rw [List.flatMap_cons, List.flatten_cons]
        exact List.rel_append hR' hR
  obtain ⟨blocks, hrun', hR⟩ := hblocks (List.range nT)
  rw [flatMap_blockOf col blockSize hn] at hR
  exact ⟨blocks, hrun', hR⟩

/-! ### One row -/

/-- As `prev_pos` is never set, the value is searched or out of the limits. -/
lemma findPos_spec (hf2 : f2.Pairwise (· ≤ ·)) (hmin : f2.head? = some minval)
    (hmax : f2.getLast? = some maxval) (hprev : prev.pos = -1) (f1Val : Int) :
    ∃ pos, findPos f2 minval maxval prev f1Val = some pos ∧ FoundAt f2 f1Val pos := by
  have hne : f2 ≠ [] := by
    rintro rfl
    cases hmin
  unfold findPos
  by_cases hout : f1Val < minval ∨ maxval < f1Val
  · refine ⟨-1, if_pos hout, .inl ⟨rfl, fun hmem => ?_⟩⟩
    obtain ⟨i, hi⟩ := List.mem_iff_getElem?.mp hmem
    have hlt := (List.getElem?_eq_some_iff.mp hi).1
    rw [List.head?_eq_getElem?] at hmin
    rw [List.getLast?_eq_getElem?] at hmax
    have hge := le_of_getElem? hf2 hmin hi (Nat.zero_le i)
    have hle := le_of_getElem? hf2 hi hmax (by omega)
    omega
  · rw [if_neg hout, if_neg (show ¬ 0 ≤ prev.pos by omega), ite_self]
    exact binSearch_dontcare f1Val hf2 hne

/-- Each source row can be read. -/
lemma fetchSrc_spec (hlt : p < args.f2.vals.length) :
    ∃ nn, fetchSrc args.srcF2 p = some (nn, args.srcF2.bind fun src => src.vals[p]?) ∧
      (nn = true ↔ ∀ src, args.srcF2 = some src → src.NotNull p) := by
  cases hsrc : args.srcF2 with
  | none =>
    refine ⟨true, ?_, by simp⟩
    rw [fetchSrc, decide_eq_true (Int.natCast_nonneg p)]
    rfl
  | some src =>
    have hlen : p < src.vals.length := by rwa [args.src_length src hsrc]
    simp only [fetchSrc, if_pos (Int.natCast_nonneg p), itemAt_natCast, Option.bind_some,
      List.getElem?_eq_getElem hlen, Option.bind_eq_bind, Option.some.injEq, forall_eq', NnFld.NotNull]
    cases hnn : src.nn with
    | none => exact ⟨true, rfl, by simp⟩
    | some bits =>
      have hbits : p < bits.length := by rwa [src.nn_length bits hnn]
      refine ⟨bits[p], ?_, by simp [hbits]⟩
      simp only [List.getElem?_eq_getElem hbits, Option.bind_some]

lemma isAInBRow_spec (h : args.Accepted) (hmin : args.f2.vals.head? = some minval)
    (hmax : args.f2.vals.getLast? = some maxval) (hprev : prev.pos = -1) (row : Int × Bool) :
    ∃ prev' out, isAInBRow args minval maxval prev row = some (prev', out) ∧ prev'.pos = -1 ∧
      LookedUp args (row.2 = true) row.1 out := by
  unfold isAInBRow
  cases hnn : row.2 with
  | false =>
    refine ⟨prev, (false, args.srcF2.map fun _ => 0), by rw [if_pos rfl], hprev, fun _ => rfl, ?_⟩
    intro htrue
    cases htrue
  | true =>
    obtain ⟨pos, hpos, hfound⟩ := findPos_spec h.ascending hmin hmax hprev row.1
    simp only [reduceCtorEq, if_false, hpos, Option.bind_eq_bind, Option.bind_some]
    obtain ⟨rfl, hnot⟩ | ⟨p, rfl, hp⟩ := hfound
    · have hfetch : ∃ nn, fetchSrc args.srcF2 (-1) = some (nn, args.srcF2.map fun _ => 0) := by
        cases args.srcF2 with
        | none => exact ⟨false, rfl⟩
        | some src => exact ⟨false, rfl⟩
      obtain ⟨nn, hnn'⟩ := hfetch
      refine ⟨⟨true, row.1, prev.pos⟩, (false, args.srcF2.map fun _ => 0), ?_, hprev, fun _ => rfl, ?_⟩
      · rw [hnn']
        rfl
      · exact fun _ hmem => absurd hmem hnot
    · obtain ⟨nn, hfetch, hiff⟩ := fetchSrc_spec (List.getElem?_eq_some_iff.mp hp).1
      refine ⟨⟨true, row.1, prev.pos⟩, (nn, args.srcF2.bind fun src => src.vals[p]?), ?_, hprev, ?_, ?_⟩
      · rw [hfetch, Option.bind_some, if_pos (Int.natCast_nonneg p)]
      · exact fun hnot => absurd ⟨trivial, List.mem_of_getElem? hp⟩ hnot
      · exact fun _ _ => ⟨p, hp, hiff, rfl⟩

/-- The rows of a block; the induction keeps `prev_pos`. -/
lemma isAInBRows_spec (h : args.Accepted) (hmin : args.f2.vals.head? = some minval)
    (hmax : args.f2.vals.getLast? = some maxval) (hprev : prev.pos = -1) (rows : List (Int × Bool)) :
    ∃ outs, isAInBRows args minval maxval prev rows = some outs ∧
      List.Forall₂ (fun row out => LookedUp args (row.2 = true) row.1 out) rows outs := by
  induction rows generalizing prev with
  | nil => exact ⟨[], rfl, .nil⟩
  | cons row rows ih =>
    obtain ⟨prev', out, hrow, hprev', hright⟩ := isAInBRow_spec h hmin hmax hprev row
    obtain ⟨outs, houts, hrights⟩ := ih hprev'
    refine ⟨out :: outs, ?_, .cons hright hrights⟩
    simp only [isAInBRows, hrow, houts, Option.bind_eq_bind, Option.bind_some]

/-- `List.Forall₂` on the rows of a field, by index. -/
lemma lookedUp_of_forall₂ {outs : List (Bool × Option Int)}
    (hright : List.Forall₂ (fun row out => LookedUp args (row.2 = true) row.1 out) args.f1.rows outs) :
    outs.length = args.f1.vals.length ∧
      ∀ i f1Val out, args.f1.vals[i]? = some f1Val → outs[i]? = some out →
        LookedUp args (args.f1.NotNull i) f1Val out := by
  refine ⟨by rw [← hright.length_eq, NnFld.length_rows], ?_⟩
  intro i f1Val out hval hout
  obtain ⟨hi, -⟩ := List.getElem?_eq_some_iff.mp hval
  rw [← NnFld.length_rows] at hi
  obtain ⟨hval', hnn⟩ := args.f1.rows_getElem? (List.getElem?_eq_getElem hi)
  obtain ⟨hi', hout'⟩ := List.getElem?_eq_some_iff.mp hout
  have hrow := hright.get hi hi'
  rw [List.get_eq_getElem, List.get_eq_getElem, propext hnn] at hrow
  rw [hval, Option.some.injEq] at hval'
  simpa only [← hval', hout'] using hrow

lemma isAInBBlocks_spec (h : args.Accepted) (blockSize : Nat) {nT : Nat} (hn : 0 < nT) :
    ∃ outs, isAInBBlocks args blockSize nT = some outs ∧ outs.length = args.f1.vals.length ∧
      ∀ i f1Val out, args.f1.vals[i]? = some f1Val → outs[i]? = some out →
        LookedUp args (args.f1.NotNull i) f1Val out := by
  have hmin := List.head?_eq_some_head h.f2_ne_nil
  have hmax := List.getLast?_eq_some_getLast h.f2_ne_nil
  have hrun : ∀ rows, ∃ outs, isAInBRows args _ _ ⟨false, 0, -1⟩ rows = some outs ∧
      List.Forall₂ (fun row out => LookedUp args (row.2 = true) row.1 out) rows outs :=
    fun rows => isAInBRows_spec h hmin hmax rfl rows
  obtain ⟨blocks, hblocks, hright⟩ := forall₂_blocks hrun args.f1.rows blockSize hn
  refine ⟨blocks.flatten, ?_, lookedUp_of_forall₂ hright⟩
  simp only [isAInBBlocks, hmin, hmax, hblocks, Option.bind_eq_bind, Option.bind_some]

/-- Accepted arguments are run in the blocks of `partition`. -/
lemma isAInB_eq (h : args.Accepted) {blockSize nT : Int}
    (hp : partition args.f1.vals.length 1024 (-1) = some (blockSize, nT)) :
    isAInB args = isAInBBlocks args blockSize.toNat nT.toNat := by
  have hne : ¬ (args.f1.vals = [] ∨ args.f2.vals = []) := not_or.mpr ⟨h.f1_ne_nil, h.f2_ne_nil⟩
  have hsrc : ¬ (args.srcF2.any fun src => src.fldtype ≠ args.f1.fldtype) = true := by
    cases hs : args.srcF2 with
    | none => simp
    | some src => simp [h.src_fldtype src hs]
  have htype : ¬ (args.f2.fldtype ≠ .I4 ∧ args.f2.fldtype ≠ .I8) := by
    rw [not_and_or, not_not, not_not]
    exact h.fldtype_int
  rw [isAInB, if_neg hne, if_neg (not_not.mpr h.srttype_eq), if_neg (not_not.mpr h.fldtype_eq),
    if_neg (by rw [h.f2_nn]; decide), if_neg hsrc, if_neg htype, hp]

/-! ### The core -/

/-- The sum counts the occurrences of the value. -/
lemma linearFlag_eq (hlen : f2.length < 2 ^ 31) : linearFlag f2 f1Val = decide (f1Val ∈ f2) := by
  have hsum : ∀ (l : List Int) (sum : Int), 0 ≤ sum → sum + l.length < 2 ^ 31 →
      l.foldl (fun sum x => CInt.wrap 32 (sum + if x = f1Val then 1 else 0)) sum = sum + l.count f1Val := by
    intro l
    induction l with
    | nil => intro sum _ _; rw [List.foldl_nil, List.count_nil]; omega
    | cons x l ih =>
      intro sum hsum hlt
      rw [List.length_cons] at hlt
      rw [List.foldl_cons, List.count_cons, beq_eq_decide]
      by_cases hx : x = f1Val
      · rw [if_pos hx, CInt.wrap_of_lt (by omega) (by omega), ih (sum + 1) (by omega) (by omega),
          decide_eq_true hx, if_pos rfl]
        omega
      · rw [if_neg hx, CInt.wrap_of_lt (by omega) (by omega), ih (sum + 0) (by omega) (by omega),
          decide_eq_false hx, if_neg Bool.false_ne_true]
        omega
  rw [linearFlag, hsum f2 0 le_rfl (by omega), decide_eq_decide, zero_add, Int.natCast_pos]
  exact List.count_pos_iff

lemma searchFlag_eq (hf2 : f2.Pairwise (· ≤ ·)) (hne : f2 ≠ []) :
    searchFlag f2 f1Val = some (decide (f1Val ∈ f2)) := by
  obtain ⟨pos, hpos, hfound⟩ := binSearch_dontcare f1Val hf2 hne
  rw [searchFlag, hpos, Option.map_some, Option.some.injEq, decide_eq_decide]
  obtain ⟨rfl, hnot⟩ | ⟨p, rfl, hp⟩ := hfound
  · simp [hnot]
  · simp [List.mem_of_getElem? hp]

lemma coreRow_eq (hf2 : f2.Pairwise (· ≤ ·)) (row : Int × Bool) :
    coreRow f2 row = some (decide (row.2 = true ∧ row.1 ∈ f2)) := by
  unfold coreRow
  cases row.2 with
  | false => simp
  | true =>
    rw [if_neg (by decide)]
    by_cases hsmall : f2.length < 16
    · rw [if_pos hsmall, linearFlag_eq (by omega)]
      simp
    · have hne : f2 ≠ [] := by
        rintro rfl
        exact hsmall (by decide)
      rw [if_neg hsmall, searchFlag_eq hf2 hne]
      simp

lemma coreIsAInB_spec (f1 : NnFld) (hf2 : f2.Pairwise (· ≤ ·)) (blockSize : Nat) {nT : Nat} (hn : 0 < nT) :
    ∃ flags, coreIsAInB nT blockSize f1 f2 = some flags ∧ flags.length = f1.vals.length ∧
      ∀ i f1Val flag, f1.vals[i]? = some f1Val → flags[i]? = some flag →
        (flag = true ↔ f1.NotNull i ∧ f1Val ∈ f2) := by
  have hrun : ∀ rows : List (Int × Bool), ∃ flags, rows.mapM (coreRow f2) = some flags ∧
      List.Forall₂ (fun row flag => flag = decide (row.2 = true ∧ row.1 ∈ f2)) rows flags := by
    intro rows
    induction rows with
    | nil => exact ⟨[], rfl, .nil⟩
    | cons row rows ih =>
      obtain ⟨flags, hflags, hright⟩ := ih
      refine ⟨_ :: flags, ?_, .cons rfl hright⟩
      rw [List.mapM_cons, coreRow_eq hf2, hflags]
      rfl
  obtain ⟨blocks, hblocks, hright⟩ := forall₂_blocks hrun f1.rows blockSize hn
  refine ⟨blocks.flatten, ?_, ?_, ?_⟩
  · simp only [coreIsAInB, hblocks, Option.bind_eq_bind, Option.bind_some]
  · rw [← hright.length_eq, NnFld.length_rows]
  · intro i f1Val flag hval hflag
    obtain ⟨hi, -⟩ := List.getElem?_eq_some_iff.mp hval
    rw [← NnFld.length_rows] at hi
    obtain ⟨hval', hnn⟩ := f1.rows_getElem? (List.getElem?_eq_getElem hi)
    obtain ⟨hi', hflag'⟩ := List.getElem?_eq_some_iff.mp hflag
    have hrow := hright.get hi hi'
    rw [List.get_eq_getElem, List.get_eq_getElem, hflag'] at hrow
    rw [hval, Option.some.injEq] at hval'
    rw [hrow, decide_eq_true_iff, ← hval', hnn]

/-- In any blocks `is_a_in_b` looks every row up, and so does its core, with the scan or the search. -/
theorem isAInB_right (args : IsAInBArgs) (h : args.Accepted) :
    (∀ blockSize nT, 0 < nT → ∃ outs, isAInBBlocks args blockSize nT = some outs ∧
        outs.length = args.f1.vals.length ∧
        ∀ i f1Val out, args.f1.vals[i]? = some f1Val → outs[i]? = some out →
          LookedUp args (args.f1.NotNull i) f1Val out) ∧
      (∀ blockSize nT, partition args.f1.vals.length 1024 (-1) = some (blockSize, nT) →
        0 < nT.toNat ∧ isAInB args = isAInBBlocks args blockSize.toNat nT.toNat) ∧
      (∀ (f1 : NnFld) (f2 : List Int), f2.Pairwise (· ≤ ·) → ∀ blockSize nT, 0 < nT →
        ∃ flags, coreIsAInB nT blockSize f1 f2 = some flags ∧ flags.length = f1.vals.length ∧
          ∀ i f1Val flag, f1.vals[i]? = some f1Val → flags[i]? = some flag →
            (flag = true ↔ f1.NotNull i ∧ f1Val ∈ f2)) ∧
      (∀ f2 : List Int, f2.Pairwise (· ≤ ·) → f2 ≠ [] → f2.length < 2 ^ 31 →
        ∀ f1Val, searchFlag f2 f1Val = some (linearFlag f2 f1Val)) := by
  refine ⟨fun blockSize nT hn => isAInBBlocks_spec h blockSize hn, ?_, ?_, ?_⟩
  · intro blockSize nT hp
    have hpos := (partition_spec hp).2.1
    exact ⟨by omega, isAInB_eq h hp⟩
  · exact fun f1 f2 hf2 blockSize nT hn => coreIsAInB_spec f1 hf2 blockSize hn
  · intro f2 hf2 hne hlen f1Val
    rw [searchFlag_eq hf2 hne, linearFlag_eq hlen]

/-- The values 5, 3 and null in 3, 3, 7; the value copied for 3 is 30 or 31. -/
def threeLookups : IsAInBArgs where
  f1 := ⟨.I4, [5, 3, 3], some [true, true, false], by intro bits h; cases h; rfl⟩
  f2 := ⟨.I4, [3, 3, 7], none, by intro bits h; cases h⟩
  srttype := .ascending
  srcF2 := some ⟨.I4, [30, 31, 70], none, by intro bits h; cases h⟩
  src_length := by intro src h; cases h; rfl

lemma threeLookups_accepted : threeLookups.Accepted where
  f1_ne_nil := by decide
  f2_ne_nil := by decide
  srttype_eq := rfl
  ascending := by decide
  fldtype_eq := rfl
  f2_nn := rfl
  src_fldtype := by
    intro src h
    cases h
    rfl
  fldtype_int := .inl rfl

theorem isAInB_right_three :
    ∃ outs, isAInBBlocks threeLookups 1024 1 = some outs ∧ outs.length = 3 ∧
      ∀ i f1Val out, threeLookups.f1.vals[i]? = some f1Val → outs[i]? = some out →
        LookedUp threeLookups (threeLookups.f1.NotNull i) f1Val out :=
  (isAInB_right threeLookups threeLookups_accepted).1 1024 1 (by decide)

end

end Datacl
