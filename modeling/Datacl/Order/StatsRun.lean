import Datacl.Meta.Stats
import Datacl.Order.ColumnSteps
import Datacl.Order.TruthfulRun

/-!
# The recorded statistics along a run

A statistic that `f_to_s` gives out is that of the column as it is, recorded or not, whatever commands
have run on the columns before, unless one of them saturated a column to other statistics.
-/

namespace Datacl

variable {k : Kernel} {env : Env} {s : Store} {tblId i nR : Nat} {x : DataFile}

/-! ### Recording a statistic -/

/-- A result in text is read as the result. -/
lemma readNthVal_rsltBuf {n : Nat} {v : Int} (hn : n < 2 ^ 63) (hv : IntType.I8.InRange v) :
    (readNthVal (rsltBuf ((n : Int), v)).toList [':'] 1 32).bind stoI8 = some (n : Int) ∧
      (readNthVal (rsltBuf ((n : Int), v)).toList [':'] 0 32).bind stoI8 = some v := by
  have hc : IntType.I8.InRange (n : Int) := by
    simp only [IntType.InRange, IntType.max, IntType.bits]
    omega
  have hbuf : (rsltBuf ((n : Int), v)).toList =
      (toString v).toList ++ ':' :: (toString (n : Int)).toList := by
    rw [rsltBuf, String.toList_append, String.toList_append, List.append_assoc]
    rfl
  have hl1 := length_toString hv
  have hl2 := length_toString hc
  have hread := readNthVal_pair (d := ':') (by decide) (toString_chars v) (toString_chars (n : Int))
    (show (toString v).toList.length < 32 ∧ (toString (n : Int)).toList.length < 32 by omega) (by decide)
  rw [hbuf, hread.1, hread.2]
  exact ⟨stoI8_toString hc, stoI8_toString hv⟩

/-- Only one record differs, and it has the same data. -/
def WritesRecord (s : Store) (i : Nat) (s' : Store) : Prop :=
  s' = s ∨ ∃ r, (s.fld i).SameData r ∧ s' = s.setFld i r

/-- `set_min_max_sum` writes to one record, whether its checks fail or not. -/
lemma setMinMaxSum_record (stoF8 : List Char → Option Int) (stat : Stat) (value : List Char)
    (hi : i < s.flds.length) : WritesRecord s i (setMinMaxSum stoF8 stat value i s).2 := by
  have hsame : WritesRecord s i s := .inl rfl
  unfold setMinMaxSum
  refine Cmd.ofOption_bind_keeps hsame fun _ _ => Cmd.ofOption_bind_keeps hsame fun n _ =>
    Cmd.require_bind_keeps (I := WritesRecord s i) hsame fun _ => ?_
  rw [Cmd.modify_bind]
  have hnum : WritesRecord s i (s.setFld i { s.fld i with numNn := n }) :=
    .inr ⟨{ s.fld i with numNn := n }, ⟨rfl, rfl, rfl, rfl, rfl, rfl⟩, rfl⟩
  refine Cmd.ofOption_bind_keeps hnum fun _ _ => ?_
  rw [Cmd.get_bind]
  refine Cmd.ofOption_bind_keeps hnum fun v _ => ?_
  rw [Cmd.modify_bind, Cmd.get_bind, Store.setFld_setFld]
  have hstat : WritesRecord s i
      (s.setFld i (((s.setFld i { s.fld i with numNn := n }).fld i).setStat v stat)) := by
    rw [Store.fld_setFld_of_lt hi]
    exact .inr ⟨_, FldRec.sameData_setStat (s.fld i) n v stat, rfl⟩
  exact Cmd.require_bind_keeps (I := WritesRecord s i) hstat fun _ =>
    Cmd.require_bind_keeps (I := WritesRecord s i) hstat fun _ => hstat

/-- The record after `set_min_max_sum` with the text of a result. -/
lemma setMinMaxSum_rsltBuf {t : IntType} (stoF8 : List Char → Option Int) (stat : Stat)
    (hi : i < s.flds.length) (ht : (s.fld i).fldtype.intType = some t) {n : Nat} {v : Int}
    (hn : n < 2 ^ 63) (hv : IntType.I8.InRange v) :
    (setMinMaxSum stoF8 stat (rsltBuf ((n : Int), v)).toList i s).2 =
      s.setFld i ({ s.fld i with numNn := (n : Int) }.setStat v stat) := by
  obtain ⟨hread1, hread0⟩ := readNthVal_rsltBuf hn hv
  obtain ⟨buf1, hbuf1, hsto1⟩ := Option.bind_eq_some_iff.mp hread1
  obtain ⟨buf0, hbuf0, hsto0⟩ := Option.bind_eq_some_iff.mp hread0
  have hparse : parseStat stoF8 buf0 (s.fld i).fldtype = some v := by
    cases htype : (s.fld i).fldtype <;> rw [htype] at ht <;> first | exact hsto0 | cases ht
  unfold setMinMaxSum
  rw [hbuf1, Cmd.ofOption_some_bind, hsto1, Cmd.ofOption_some_bind, Cmd.require_bind,
    if_pos (Int.natCast_nonneg n), Cmd.modify_bind, hbuf0, Cmd.ofOption_some_bind, Cmd.get_bind,
    Store.fld_setFld_of_lt hi]
  dsimp only
  rw [hparse, Cmd.ofOption_some_bind, Cmd.modify_bind, Cmd.get_bind, Store.setFld_setFld]
  have hstate : s.setFld i (((s.setFld i { s.fld i with numNn := (n : Int) }).fld i).setStat v stat) =
      s.setFld i ({ s.fld i with numNn := (n : Int) }.setStat v stat) := by
    rw [Store.fld_setFld_of_lt hi]
  exact Cmd.require_bind_keeps (I := (· = _)) hstate fun _ =>
    Cmd.require_bind_keeps (I := (· = _)) hstate fun _ => hstate

/-- `int_set_meta` for a statistic checks what `set_min_max_sum` has written. -/
lemma intSetMeta_stat (stoF8 : List Char → Option Int) (stat : Stat) {value : List Char}
    (hvalue : value ≠ []) (isInternal : Bool) :
    (intSetMeta env stoF8 tblId i (.stat stat) value isInternal s).2 =
      (setMinMaxSum stoF8 stat value i s).2 := by
  unfold intSetMeta
  rw [Cmd.require_bind, if_pos hvalue, Cmd.require_bind, if_pos (Int.natCast_nonneg tblId),
    Cmd.require_bind, if_pos (.inr (Int.natCast_nonneg i))]
  refine Cmd.bind_keeps (I := (· = (setMinMaxSum stoF8 stat value i s).2)) (fun _ => rfl) fun a s' hrun => ?_
  have hs' : (setMinMaxSum stoF8 stat value i s).2 = s' := congrArg Prod.snd hrun
  rw [hs']
  unfold chkAttr
  rw [Cmd.get_bind]
  exact Cmd.require_bind_keeps (I := (· = s')) rfl fun _ => rfl

/-! ### `f_to_s` -/

/-- What a call of `f_to_s` has read. -/
structure ReadColumn (env : Env) (s : Store) (i nR : Nat) (x : DataFile) (nnX : Option DataFile) :
    Prop where
  lt : i < s.flds.length
  used : (s.fld i).Used
  data : getData env s (s.fld i) = some x
  nnData : getNnData env s (s.fld i) = some nnX
  nR_eq : nR = (s.tbl (s.fld i).tblId.toNat).nR.toNat

section

variable {nnX : Option DataFile} {stat : Stat}

lemma ReadColumn.intRows (hx : ReadColumn env s i nR x nnX) {t : IntType}
    (ht : (s.fld i).fldtype.intType = some t)
    (hlen : nR ≤ x.cells.length ∧ ∀ y ∈ nnX, nR ≤ y.cells.length) :
    intRows env s i = some (t, x.cells.take nR, nnX.map fun y => y.cells.take nR) := by
  rw [hx.nR_eq] at hlen ⊢
  unfold Datacl.intRows
  simp only [ht, hx.data, hx.nnData, Option.bind_eq_bind, Option.bind_some]
  exact if_pos hlen

/-- The new statistic of an integer column. -/
lemma ReadColumn.freshStat (hx : ReadColumn env s i nR x nnX) (hcol : ColumnsOk s) {t : IntType}
    (ht : (s.fld i).fldtype.intType = some t) {buf : String}
    (hvec : vecFToSFld k (s.fld i).fldtype x nnX nR stat = some buf) :
    ∃ (n : Nat) (v : Int), buf = rsltBuf ((n : Int), v) ∧
      freshStat k env s (i, stat) = some ((n : Int), v) ∧ n < 2 ^ 63 ∧ IntType.I8.InRange v := by
  unfold vecFToSFld at hvec
  rw [ht] at hvec
  dsimp only at hvec
  split_ifs at hvec with hlen
  have hrange : ∀ y ∈ x.cells.take nR, t.InRange y := fun y hy =>
    hcol.cells i hx.used t ht x (getData_eq_some hx.data) y (List.mem_of_mem_take hy)
  have hpart : ∃ p, partition (x.cells.take nR).length 1024 k.numCores = some p := by
    unfold vecFToS at hvec
    obtain ⟨p, hp, -⟩ := Option.bind_eq_some_iff.mp hvec
    exact ⟨p, hp⟩
  obtain ⟨⟨blockSize, nT⟩, hp⟩ := hpart
  rw [vecFToS_eq hrange hp] at hvec
  have hle := length_nonNull_le (x.cells.take nR) (nnX.map fun y => y.cells.take nR)
  have hnR := hcol.rows (s.fld i).tblId.toNat
  have htake := List.length_take_le nR x.cells
  refine ⟨_, _, (Option.some.inj hvec).symm, ?_, ?_, ?_⟩
  · unfold Datacl.freshStat
    rw [hx.intRows ht hlen]
    simp only [Option.bind_eq_bind, Option.bind_some, hp]
    rfl
  · have := hx.nR_eq
    omega
  · exact inRange_statOf fun y hy => hrange y (mem_nonNull hy)

lemma StatsInv.fToSStat (h : StatsInv k env s) (hx : ReadColumn env s i nR x nnX) (stat : Stat) :
    StatsInv k env (fToSStat k env tblId i nR x nnX stat s).2 := by
  unfold Datacl.fToSStat
  rw [Cmd.get_bind]
  cases hget : (s.fld i).getStat stat with
  | some v =>
    dsimp only
    cases printStat k (s.fld i) v <;> exact h
  | none =>
    refine Cmd.ofOption_bind_keeps h fun buf hvec => ?_
    by_cases hbuf : buf.toList = []
    · -- an empty text is refused
      refine Cmd.bind_keeps (fun _ => ?_) fun _ s' hrun => ?_
      · unfold intSetMeta
        exact Cmd.require_bind_keeps h fun hne => absurd hbuf hne
      · unfold intSetMeta at hrun
        exact absurd hbuf (Cmd.require_bind_eq_some.mp hrun).1
    have hstate : StatsInv k env (setMinMaxSum k.stoF8 stat buf.toList i s).2 := by
      cases ht : (s.fld i).fldtype.intType with
      | none =>
        rcases setMinMaxSum_record k.stoF8 stat buf.toList hx.lt with hs | ⟨r, hr, hs⟩
        · rw [hs]
          exact h
        · rw [hs]
          exact h.setOther ht hr
      | some t =>
        obtain ⟨n, v, rfl, hnew, hn, hv⟩ := hx.freshStat h.columns ht hvec
        rw [setMinMaxSum_rsltBuf k.stoF8 stat hx.lt ht hn hv]
        exact h.setStat hx.lt fun _ _ => hnew
    rw [← intSetMeta_stat k.stoF8 stat hbuf true] at hstate
    refine Cmd.bind_keeps (fun _ => hstate) fun _ s' hrun => ?_
    rw [hrun] at hstate
    exact hstate

lemma StatsInv.fToSOrder (h : StatsInv k env s) : StatsInv k env (fToSOrder i nR x s).2 := by
  have hpure : ∀ s' : Store, StatsInv k env s' →
      StatsInv k env ((do
        let s ← Cmd.get
        pure (mkStrSrttype (s.fld i).srttype) : Cmd Store String) s').2 := fun _ h' => h'
  unfold Datacl.fToSOrder
  rw [Cmd.get_bind]
  by_cases hnn : 0 ≤ (s.fld i).nnFldId
  · rw [if_pos hnn]
    exact hpure _ (h.setSrttype i _)
  · rw [if_neg hnn]
    by_cases hunknown : (s.fld i).srttype = .unknown
    · rw [Cmd.when_pos hunknown]
      refine Cmd.bind_keeps (fun _ => ?_) fun _ s' hrun => ?_
      · exact Cmd.require_bind_keeps h fun _ => Cmd.require_bind_keeps h fun _ => h.setSrttype i _
      · obtain ⟨-, hrun⟩ := Cmd.require_bind_eq_some.mp hrun
        obtain ⟨-, hrun⟩ := Cmd.require_bind_eq_some.mp hrun
        rw [Cmd.modify_eq_some.mp hrun]
        exact h.setSrttype i _
    · rw [Cmd.when_neg hunknown]
      exact h

lemma StatsInv.fToSCmd (h : StatsInv k env s) (tbl fld strOpSpec : Name) :
    StatsInv k env (fToSCmd k env tbl fld strOpSpec s).2 := by
  unfold Datacl.fToSCmd
  refine Cmd.require_bind_keeps h fun _ => Cmd.require_bind_keeps h fun hfld =>
    Cmd.require_bind_keeps h fun _ => ?_
  rw [Cmd.get_bind]
  refine Cmd.ofOption_bind_keeps h fun tblId _ => Cmd.ofOption_bind_keeps h fun i hi =>
    Cmd.ofOption_bind_keeps h fun x hx => Cmd.ofOption_bind_keeps h fun nnX hnnX =>
      Cmd.ofOption_bind_keeps h fun op _ => ?_
  have hcol : ReadColumn env s i (s.tbl tblId).nR.toNat x nnX := by
    refine ⟨(isFld_eq_some hi).1, isFld_used hfld hi, hx, hnnX, ?_⟩
    rw [(isFld_eq_some hi).2.1, Int.toNat_natCast]
  split_ifs
  · exact h.fToSOrder
  · cases k.query (s.fld i) x nnX (s.tbl tblId).nR.toNat strOpSpec <;> exact h
  · exact Cmd.ofOption_bind_keeps h fun stat _ => h.fToSStat hcol stat

end

/-! ### Sorting several columns -/

lemma take_append_perm {α : Type} {l l' : List α} (h : l'.Perm l) {n : Nat} (hn : l.length ≤ n)
    (rest : List α) : ((l' ++ rest).take n).Perm ((l ++ rest).take n) := by
  have hlen := h.length_eq
  rw [List.take_append, List.take_append, List.take_of_length_le hn,
    List.take_of_length_le (by omega), hlen]
  exact h.append_right _

/-- A range that is sorted lies among the rows of the table. -/
lemma rngSortAt_perm (dir : SortDir) (nR : Int) (cells : List Int) (r : Int × Int) :
    (rngSortAt dir nR cells r).Perm cells ∧
      ((rngSortAt dir nR cells r).take nR.toNat).Perm (cells.take nR.toNat) := by
  unfold rngSortAt
  split_ifs with hok
  · simp only [rngSortOk, Bool.and_eq_true, decide_eq_true_eq] at hok
    obtain ⟨⟨⟨⟨h0, -⟩, -, hle⟩, hlt⟩, -⟩ := hok
    have hcells := take_slice_drop cells h0 hlt
    have hperm : (cells.take r.1.toNat ++ dir.qsort (sliceRows cells r)).Perm
        (cells.take r.1.toNat ++ sliceRows cells r) :=
      (List.perm_insertionSort _ _).append_left _
    have hlen : (cells.take r.1.toNat ++ sliceRows cells r).length ≤ nR.toNat := by
      rw [List.length_append, sliceRows, List.length_take, List.length_take]
      omega
    have htake := take_append_perm hperm hlen (cells.drop r.2.toNat)
    rw [hcells] at htake
    refine ⟨?_, htake⟩
    have hall := hperm.append_right (cells.drop r.2.toNat)
    rwa [hcells] at hall
  · exact ⟨List.Perm.refl _, List.Perm.refl _⟩

lemma rngSort_perm (dir : SortDir) (nR : Int) (ranges : List (Int × Int)) (cells : List Int) :
    (ranges.foldl (rngSortAt dir nR) cells).Perm cells ∧
      ((ranges.foldl (rngSortAt dir nR) cells).take nR.toNat).Perm (cells.take nR.toNat) := by
  induction ranges generalizing cells with
  | nil => exact ⟨List.Perm.refl _, List.Perm.refl _⟩
  | cons r ranges ih =>
    obtain ⟨hall, htake⟩ := ih (rngSortAt dir nR cells r)
    obtain ⟨hall', htake'⟩ := rngSortAt_perm dir nR cells r
    exact ⟨hall.trans hall', htake.trans htake'⟩

lemma getRanges_keeps {I : Store → Prop} (hs : I s) (lb ub : Name) :
    I (getRanges env tblId lb ub s).2 := by
  unfold getRanges
  rw [Cmd.get_bind]
  exact Cmd.ofOption_bind_keeps hs fun _ _ => Cmd.ofOption_bind_keeps hs fun _ _ =>
    Cmd.require_bind_keeps hs fun _ => Cmd.require_bind_keeps hs fun _ =>
      Cmd.ofOption_bind_keeps hs fun _ _ => Cmd.ofOption_bind_keeps hs fun _ _ =>
        Cmd.require_bind_keeps hs fun _ => Cmd.require_bind_keeps hs fun _ => hs

lemma StatsInv.rngSort (h : StatsInv k env s) (t1 f1 mode t2 lb ub : Name) :
    StatsInv k env (rngSort env t1 f1 mode t2 lb ub s).2 := by
  unfold Datacl.rngSort
  refine Cmd.require_bind_keeps h fun _ => Cmd.require_bind_keeps h fun hf1 =>
    Cmd.require_bind_keeps h fun _ => Cmd.require_bind_keeps h fun _ =>
      Cmd.require_bind_keeps h fun _ => Cmd.require_bind_keeps h fun _ =>
        Cmd.require_bind_keeps h fun _ => Cmd.ofOption_bind_keeps h fun dir _ => ?_
  rw [Cmd.get_bind]
  refine Cmd.ofOption_bind_keeps h fun t1Id _ => Cmd.ofOption_bind_keeps h fun i hi =>
    Cmd.require_bind_keeps h fun _ => Cmd.ofOption_bind_keeps h fun x hx =>
      Cmd.require_bind_keeps h fun htype => Cmd.require_bind_keeps h fun hnn =>
        Cmd.ofOption_bind_keeps h fun t2Id _ => ?_
  refine Cmd.bind_keeps (fun _ => getRanges_keeps h lb ub) fun ranges s₁ hranges => ?_
  obtain rfl := getRanges_state hranges
  rw [Cmd.modify_bind]
  have hcol : OnColumn env s₁ i (s₁.tbl t1Id).nR.toNat x := by
    refine ⟨isFld_used hf1 hi, hnn, hx, ?_⟩
    rw [(isFld_eq_some hi).2.1, Int.toNat_natCast]
  have hne : (s₁.fld i).fldtype ≠ .I1 := by
    rcases htype with ht | ht <;> rw [ht] <;> simp
  obtain ⟨hall, htake⟩ := rngSort_perm dir (s₁.tbl t1Id).nR ranges x.cells
  exact h.writePerm hcol hne hall fun _ => htake

/-- The rows of two columns that are sorted together. -/
lemma pairSort_perm (q : PairSort) (dir : SortDir) {xs ys : List Int} {n : Nat}
    (hx : n ≤ xs.length) (hy : n ≤ ys.length) :
    ((q.sort dir ((xs.zip ys).take n)).map Prod.fst).Perm (xs.take n) ∧
      ((q.sort dir ((xs.zip ys).take n)).map Prod.snd).Perm (ys.take n) := by
  have hperm := q.perm dir ((xs.zip ys).take n)
  have htake : (xs.zip ys).take n = (xs.take n).zip (ys.take n) := List.take_zipWith
  have hlen : (xs.take n).length = n ∧ (ys.take n).length = n := by
    rw [List.length_take, List.length_take]
    omega
  have hfst : ((xs.zip ys).take n).map Prod.fst = xs.take n := by
    rw [htake, List.map_fst_zip (by omega)]
  have hsnd : ((xs.zip ys).take n).map Prod.snd = ys.take n := by
    rw [htake, List.map_snd_zip (by omega)]
  exact ⟨hfst ▸ hperm.map Prod.fst, hsnd ▸ hperm.map Prod.snd⟩

lemma StatsInv.sortf1f2 (h : StatsInv k env s) (q : PairSort) (tbl f1 f2 strOpSpec : Name) :
    StatsInv k env (sortf1f2 env q tbl f1 f2 strOpSpec s).2 := by
  unfold Datacl.sortf1f2
  refine Cmd.require_bind_keeps h fun _ => Cmd.require_bind_keeps h fun hf1 =>
    Cmd.require_bind_keeps h fun hf2 => Cmd.require_bind_keeps h fun hne => ?_
  rw [Cmd.get_bind]
  refine Cmd.ofOption_bind_keeps h fun tblId _ => Cmd.ofOption_bind_keeps h fun i hi =>
    Cmd.require_bind_keeps h fun hnn1 => Cmd.require_bind_keeps h fun _ =>
      Cmd.ofOption_bind_keeps h fun x1 hx1 => Cmd.ofOption_bind_keeps h fun j hj =>
        Cmd.require_bind_keeps h fun hnn2 => Cmd.require_bind_keeps h fun _ =>
          Cmd.ofOption_bind_keeps h fun x2 hx2 => Cmd.ofOption_bind_keeps h fun dir _ =>
            Cmd.require_bind_keeps h fun ht1 => Cmd.require_bind_keeps h fun ht2 =>
              Cmd.require_bind_keeps h fun hlen => ?_
  rw [Cmd.modify_bind, Cmd.modify_bind]
  have hused1 := isFld_used hf1 hi
  have hused2 := isFld_used hf2 hj
  have hji : j ≠ i := by
    rintro rfl
    exact hne ((isFld_eq_some hi).2.2.symm.trans (isFld_eq_some hj).2.2)
  have hint : ∀ {t : FldType}, t = .I4 ∨ t = .I8 → t ≠ .I1 := by
    rintro t (rfl | rfl) <;> simp
  obtain ⟨hperm1, hperm2⟩ := pairSort_perm q dir hlen.1 hlen.2
  have hcol1 : OnColumn env s i (s.tbl tblId).nR.toNat x1 := by
    refine ⟨hused1, hnn1, hx1, ?_⟩
    rw [(isFld_eq_some hi).2.1, Int.toNat_natCast]
  have h₁ := h.writeRows hcol1 (hint ht1) hlen.1 hperm1
  have hcol2 : OnColumn env (s.setData (s.fld i) { x1 with
      cells := (q.sort dir ((x1.cells.zip x2.cells).take (s.tbl tblId).nR.toNat)).map Prod.fst ++
        x1.cells.drop (s.tbl tblId).nR.toNat }) j (s.tbl tblId).nR.toNat x2 := by
    refine ⟨hused2, hnn2, (h.columns.getData_ne hused1 hused2 hji).trans hx2, ?_⟩
    rw [Store.fld_setData, (isFld_eq_some hj).2.1, Int.toNat_natCast]
    rfl
  exact (h₁.writeRows hcol2 (hint ht2) hlen.2 hperm2).intSetSrttype tblId i _

/-! ### Answers -/

/-- The type of a column, its cells and their number. -/
lemma intRows_eq_some (h : ColumnsOk s) (hused : (s.fld i).Used) {t : IntType} {X : List Int}
    {nnX : Option (List Int)} (hrows : intRows env s i = some (t, X, nnX)) :
    (s.fld i).fldtype.intType = some t ∧ (∀ y ∈ X, t.InRange y) ∧ X.length < 2 ^ 63 := by
  unfold intRows at hrows
  simp only [Option.bind_eq_bind, Option.bind_eq_some_iff] at hrows
  obtain ⟨t', ht, x, hx, y, -, hrows⟩ := hrows
  split_ifs at hrows
  obtain ⟨rfl, hrest⟩ := Prod.ext_iff.mp (Option.some.inj hrows)
  obtain ⟨rfl, -⟩ := Prod.ext_iff.mp hrest
  have hnR := h.rows (s.fld i).tblId.toNat
  refine ⟨ht, fun y hy => h.cells i hused _ ht x (getData_eq_some hx) y (List.mem_of_mem_take hy), ?_⟩
  rw [List.length_take]
  omega

/-- The name of a statistic. -/
def Stat.name : Stat → Name
  | .sum => "sum".toList
  | .min => "min".toList
  | .max => "max".toList

/-- A call of `f_to_s` that asks for a statistic. -/
lemma fToSCmd_stat {tbl fld : Name} {nnX : Option DataFile} (stat : Stat) (htbl : tbl ≠ [])
    (hfld : fld ≠ []) (ht : isTbl s tbl = some tblId) (hi : isFld s tblId fld = some i)
    (hx : getData env s (s.fld i) = some x) (hnnX : getNnData env s (s.fld i) = some nnX) :
    fToSCmd k env tbl fld stat.name s =
      fToSStat k env tblId i (s.tbl tblId).nR.toNat x nnX stat s := by
  have hname : stat.name ≠ [] ∧ extractS stat.name "op=[".toList "]".toList 32 = some none ∧
      stat.name ≠ "is_sorted".toList ∧ stat.name ≠ "approx_uq".toList ∧
      statSpec stat.name = some stat := by
    cases stat <;> decide +kernel
  obtain ⟨hne, hop, hsorted, huq, hstat⟩ := hname
  unfold fToSCmd
  rw [Cmd.require_bind, if_pos htbl, Cmd.require_bind, if_pos hfld, Cmd.require_bind, if_pos hne,
    Cmd.get_bind, ht, Cmd.ofOption_some_bind, hi, Cmd.ofOption_some_bind, hx, Cmd.ofOption_some_bind,
    hnnX, Cmd.ofOption_some_bind, hop, Cmd.ofOption_some_bind, if_neg hsorted,
    if_neg fun hor => hor.elim huq fun hor => hor.elim nofun nofun, hstat, Cmd.ofOption_some_bind]

/-- The statistic of the values as text. -/
lemma vecFToS_of_freshStat {t : IntType} {X : List Int} {nnX : Option (List Int)} {stat : Stat}
    {c : Int × Int} (hrows : intRows env s i = some (t, X, nnX)) (hX : ∀ y ∈ X, t.InRange y)
    (h : freshStat k env s (i, stat) = some c) :
    vecFToS t X nnX stat.redOp k.numCores = some (rsltBuf c) := by
  unfold freshStat at h
  rw [hrows, Option.bind_eq_bind, Option.bind_some] at h
  obtain ⟨⟨blockSize, nT⟩, hp, hc⟩ := Option.bind_eq_some_iff.mp h
  rw [vecFToS_eq hX hp, ← Option.some.inj hc]
  rfl

lemma printStat_int (k : Kernel) {r : FldRec} {t : IntType} (ht : r.fldtype.intType = some t) (v : Int) :
    printStat k r v = some (rsltBuf (r.numNn, v)) := by
  unfold printStat
  cases htype : r.fldtype <;> rw [htype] at ht <;> first | rfl | cases ht

lemma heldStat_of_getStat {stat : Stat} {t : IntType} {v : Int} (hused : (s.fld i).Used)
    (ht : (s.fld i).fldtype.intType = some t) (hget : (s.fld i).getStat stat = some v) :
    heldStat s (i, stat) = some ((s.fld i).numNn, v) := by
  rw [heldStat, if_pos ⟨hused, by rw [ht]; simp⟩]
  dsimp only
  rw [hget, Option.map_some]

/-- An answer that is recorded or computed anew. -/
lemma StatsInv.fToSStat_answer (h : StatsInv k env s) {nnX : Option DataFile}
    (hx : ReadColumn env s i nR x nnX) {stat : Stat} {t : IntType} {X : List Int}
    {N : Option (List Int)} (hrows : Datacl.intRows env s i = some (t, X, N)) {buf : String} {s' : Store}
    (hrun : Datacl.fToSStat k env tblId i nR x nnX stat s = (some buf, s')) :
    vecFToS t X N stat.redOp k.numCores = some buf := by
  obtain ⟨ht, hX, -⟩ := intRows_eq_some h.columns hx.used hrows
  unfold Datacl.fToSStat at hrun
  rw [Cmd.get_bind] at hrun
  cases hget : (s.fld i).getStat stat with
  | some v =>
    rw [hget] at hrun
    dsimp only at hrun
    rw [printStat_int k ht] at hrun
    obtain ⟨rfl, -⟩ := Cmd.pure_eq_some.mp hrun
    exact vecFToS_of_freshStat hrows hX (h.fresh _ _ (heldStat_of_getStat hx.used ht hget))
  | none =>
    rw [hget] at hrun
    obtain ⟨buf', hvec, hrun⟩ := Cmd.ofOption_bind_eq_some.mp hrun
    obtain ⟨_, s₁, -, hrun⟩ := Cmd.bind_eq_some.mp hrun
    obtain ⟨rfl, -⟩ := Cmd.pure_eq_some.mp hrun
    obtain ⟨n, v, rfl, hfresh, -⟩ := hx.freshStat h.columns ht hvec
    exact vecFToS_of_freshStat hrows hX hfresh

/-- Every statistic of an integer column that `f_to_s` gives out is what `vec_f_to_s` computes from
the column. -/
def AnswersFresh (k : Kernel) (env : Env) (s : Store) : Prop :=
  ∀ (tbl fld : Name) (stat : Stat) tblId i t X nnX buf s', isTbl s tbl = some tblId → isFld s tblId fld = some i →
    intRows env s i = some (t, X, nnX) → fToSCmd k env tbl fld stat.name s = (some buf, s') →
      vecFToS t X nnX stat.redOp k.numCores = some buf

lemma StatsInv.answersFresh (h : StatsInv k env s) : AnswersFresh k env s := by
  intro tbl fld stat tblId i t X nnX buf s' htbl hfld hrows hrun
  have hne : tbl ≠ [] ∧ fld ≠ [] := by
    unfold Datacl.fToSCmd at hrun
    obtain ⟨htne, hrun⟩ := Cmd.require_bind_eq_some.mp hrun
    exact ⟨htne, (Cmd.require_bind_eq_some.mp hrun).1⟩
  have hread : ∃ x y, getData env s (s.fld i) = some x ∧ getNnData env s (s.fld i) = some y := by
    unfold intRows at hrows
    simp only [Option.bind_eq_bind, Option.bind_eq_some_iff] at hrows
    obtain ⟨_, -, x, hx, y, hy, -⟩ := hrows
    exact ⟨x, y, hx, hy⟩
  obtain ⟨x, y, hx, hy⟩ := hread
  rw [fToSCmd_stat stat hne.1 hne.2 htbl hfld hx hy] at hrun
  refine h.fToSStat_answer ⟨(isFld_eq_some hfld).1, isFld_used hne.2 hfld, hx, hy, ?_⟩ hrows hrun
  rw [(isFld_eq_some hfld).2.1, Int.toNat_natCast]

/-! ### Runs -/

/-- A command that reads or writes columns in place. -/
inductive ColumnOp where
  | fop (tbl fld strOpSpec : Name)
  | fToS (tbl fld strOpSpec : Name)
  | sortf1f2 (tbl f1 f2 strOpSpec : Name)
  | rngSort (t1 f1 mode t2 lb ub : Name)

def ColumnOp.exec (k : Kernel) (env : Env) (q : PairSort) : ColumnOp → Cmd Store Unit
  | .fop tbl fld strOpSpec => Datacl.fop k env tbl fld strOpSpec
  | .fToS tbl fld strOpSpec => Cmd.attempt (fToSCmd k env tbl fld strOpSpec)
  | .sortf1f2 tbl f1 f2 strOpSpec => Datacl.sortf1f2 env q tbl f1 f2 strOpSpec
  | .rngSort t1 f1 mode t2 lb ub => Datacl.rngSort env t1 f1 mode t2 lb ub

/-- The condition on a step: only `fop` has one. -/
def ColumnOp.Careful (env : Env) (s : Store) : ColumnOp → Prop
  | .fop tbl fld strOpSpec => FopOk env s tbl fld strOpSpec
  | _ => True

lemma StatsInv.step (h : StatsInv k env s) {q : PairSort} {op : ColumnOp} (hok : op.Careful env s) :
    StatsInv k env (op.exec k env q s).2 := by
  cases op with
  | fop tbl fld strOpSpec => exact h.fop hok
  | fToS tbl fld strOpSpec => exact h.fToSCmd tbl fld strOpSpec
  | sortf1f2 tbl f1 f2 strOpSpec => exact h.sortf1f2 q tbl f1 f2 strOpSpec
  | rngSort t1 f1 mode t2 lb ub => exact h.rngSort t1 f1 mode t2 lb ub

/-- What a successful call of `fop` that saturates does. -/
structure Saturated (env : Env) (s s' : Store) (tblId i : Nat) (maxval : Int) (t : IntType)
    (x : DataFile) : Prop where
  nn : (s.fld i).nnFldId < 0
  data : getData env s (s.fld i) = some x
  fldtype : (s.fld i).fldtype.intType = some t
  inRange : t.InRange maxval
  enough : (s.tbl tblId).nR.toNat ≤ x.cells.length
  state : s' = s.setData (s.fld i) { x with
    cells := saturateCells maxval (x.cells.take (s.tbl tblId).nR.toNat) ++
      x.cells.drop (s.tbl tblId).nR.toNat }

section Saturated

variable {tbl fld strOpSpec : Name} {maxval : Int} {s' : Store} {t : IntType}

lemma fop_saturate (htbl : isTbl s tbl = some tblId) (hfld : isFld s tblId fld = some i)
    (hspec : fopSpec strOpSpec = some (.saturate maxval))
    (hrun : fop k env tbl fld strOpSpec s = (some (), s')) :
    (tbl ≠ [] ∧ fld ≠ []) ∧ ∃ t x, Saturated env s s' tblId i maxval t x := by
  unfold fop at hrun
  obtain ⟨htne, hrun⟩ := Cmd.require_bind_eq_some.mp hrun
  obtain ⟨hfne, hrun⟩ := Cmd.require_bind_eq_some.mp hrun
  obtain ⟨-, hrun⟩ := Cmd.require_bind_eq_some.mp hrun
  rw [Cmd.get_bind, htbl, Cmd.ofOption_some_bind, hfld, Cmd.ofOption_some_bind] at hrun
  obtain ⟨-, hrun⟩ := Cmd.require_bind_eq_some.mp hrun
  obtain ⟨hnn, hrun⟩ := Cmd.require_bind_eq_some.mp hrun
  obtain ⟨x, hx, hrun⟩ := Cmd.ofOption_bind_eq_some.mp hrun
  rw [hspec, Cmd.ofOption_some_bind] at hrun
  change fopSaturate i (s.tbl tblId).nR.toNat x maxval s = _ at hrun
  unfold fopSaturate at hrun
  rw [Cmd.get_bind] at hrun
  obtain ⟨t, ht, hrun⟩ := Cmd.ofOption_bind_eq_some.mp hrun
  obtain ⟨hmax, hrun⟩ := Cmd.require_bind_eq_some.mp hrun
  obtain ⟨hlen, hrun⟩ := Cmd.require_bind_eq_some.mp hrun
  exact ⟨⟨htne, hfne⟩, t, x, hnn, hx, ht, hmax, hlen, Cmd.modify_eq_some.mp hrun⟩

lemma Saturated.length_cells (h : Saturated env s s' tblId i maxval t x) :
    (saturateCells maxval (x.cells.take (s.tbl tblId).nR.toNat)).length = (s.tbl tblId).nR.toNat ∧
      (saturateCells maxval (x.cells.take (s.tbl tblId).nR.toNat) ++
        x.cells.drop (s.tbl tblId).nR.toNat).length = x.cells.length := by
  have hlen := h.enough
  have hsat : (saturateCells maxval (x.cells.take (s.tbl tblId).nR.toNat)).length =
      (s.tbl tblId).nR.toNat := by
    rw [saturateCells, List.length_map, List.length_take]
    omega
  refine ⟨hsat, ?_⟩
  rw [List.length_append, hsat, List.length_drop]
  omega

lemma Saturated.data' (h : Saturated env s s' tblId i maxval t x) :
    s'.fld i = s.fld i ∧ getData env s' (s'.fld i) = some { x with
      cells := saturateCells maxval (x.cells.take (s.tbl tblId).nR.toNat) ++
        x.cells.drop (s.tbl tblId).nR.toNat } := by
  rw [h.state]
  exact ⟨rfl, getData_setData_self h.data rfl h.length_cells.2⟩

/-- The rows before and after. -/
lemma Saturated.rows (h : Saturated env s s' tblId i maxval t x)
    (hfld : isFld s tblId fld = some i) :
    ∃ X, intRows env s i = some (t, X, none) ∧
      intRows env s' i = some (t, saturateCells maxval X, none) := by
  have hnR : (s.tbl (s.fld i).tblId.toNat).nR.toNat = (s.tbl tblId).nR.toNat := by
    rw [(isFld_eq_some hfld).2.1, Int.toNat_natCast]
  have htbl : s'.tbl = s.tbl := by rw [h.state]; rfl
  obtain ⟨hfldEq, hdata⟩ := h.data'
  obtain ⟨hsat, hcells⟩ := h.length_cells
  refine ⟨x.cells.take (s.tbl tblId).nR.toNat, ?_, ?_⟩
  · rw [intRows_plain h.nn h.fldtype h.data, hnR, if_pos h.enough]
  · rw [intRows_plain (hfldEq.symm ▸ h.nn) (hfldEq.symm ▸ h.fldtype) hdata, hfldEq, htbl, hnR, hcells,
      if_pos h.enough, List.take_left' hsat]

end Saturated

/-- A recorded statistic of an integer column is given out. -/
lemma fToSCmd_held {tbl fld : Name} {stat : Stat} {t : IntType} {v : Int} (hne : tbl ≠ [] ∧ fld ≠ [])
    (htbl : isTbl s tbl = some tblId) (hfld : isFld s tblId fld = some i)
    (hx : getData env s (s.fld i) = some x) (hnn : (s.fld i).nnFldId < 0)
    (ht : (s.fld i).fldtype.intType = some t) (hget : (s.fld i).getStat stat = some v) :
    fToSCmd k env tbl fld stat.name s = (some (rsltBuf ((s.fld i).numNn, v)), s) := by
  have hnnX : getNnData env s (s.fld i) = some none := if_neg (by omega)
  rw [fToSCmd_stat stat hne.1 hne.2 htbl hfld hx hnnX]
  unfold fToSStat
  rw [Cmd.get_bind, hget]
  dsimp only
  rw [printStat_int k ht]
  rfl

/-- Where the answers are right after a column has been saturated, its recorded statistics are those
of the saturated column. -/
lemma saturateOk_of_answersFresh (h : StatsInv k env s) {tbl fld strOpSpec : Name} {maxval : Int}
    {s' : Store} (htbl : isTbl s tbl = some tblId) (hfld : isFld s tblId fld = some i)
    (hspec : fopSpec strOpSpec = some (.saturate maxval))
    (hrun : fop k env tbl fld strOpSpec s = (some (), s')) (hans : AnswersFresh k env s')
    (hnull : ∀ j, (s.fld j).Used → (s.fld j).nnFldId ≠ i) : SaturateOk env s i maxval := by
  refine ⟨fun t X hrows stat v hget => ?_, fun j hj hji => absurd hji (hnull j hj)⟩
  obtain ⟨hne, t', x, hsat⟩ := fop_saturate htbl hfld hspec hrun
  have hused := isFld_used hne.2 hfld
  obtain ⟨X', hold, hnew⟩ := hsat.rows hfld
  obtain ⟨rfl, hX'⟩ := Prod.ext_iff.mp (Option.some.inj (hrows.symm.trans hold))
  obtain rfl := (Prod.ext_iff.mp hX').1
  obtain ⟨ht, hX, hXlen⟩ := intRows_eq_some h.columns hused hrows
  obtain ⟨hfldEq, hdata⟩ := hsat.data'
  have htbl' : isTbl s' tbl = some tblId := by rw [hsat.state]; exact htbl
  have hfld' : isFld s' tblId fld = some i := by rw [hsat.state]; exact hfld
  have hgiven := fToSCmd_held (k := k) hne htbl' hfld' hdata (hfldEq.symm ▸ hsat.nn)
    (hfldEq.symm ▸ ht) (hfldEq.symm ▸ hget)
  have hanswer := hans tbl fld stat tblId i t _ none _ s' htbl' hfld' hnew hgiven
  rw [hfldEq] at hanswer
  -- both texts are those of results
  have hfresh : freshStat k env s (i, stat) = some ((s.fld i).numNn, v) :=
    h.fresh _ _ (heldStat_of_getStat hused ht hget)
  unfold freshStat at hfresh
  rw [hrows, Option.bind_eq_bind, Option.bind_some] at hfresh
  obtain ⟨⟨blockSize, nT⟩, hp, hc⟩ := Option.bind_eq_some_iff.mp hfresh
  obtain ⟨hcount, hv⟩ := Prod.ext_iff.mp (Option.some.inj hc)
  change (X.length : Int) = (s.fld i).numNn at hcount
  change statOf stat.redOp X = v at hv
  have hlen : (saturateCells maxval X).length = X.length := by rw [saturateCells, List.length_map]
  have hXsat := saturateCells_inRange hsat.inRange hX
  rw [vecFToS_eq hXsat (hlen.symm ▸ hp)] at hanswer
  change some (rsltBuf (((saturateCells maxval X).length : Int),
    statOf stat.redOp (saturateCells maxval X))) = _ at hanswer
  rw [hlen, ← hcount] at hanswer
  have hread := (readNthVal_rsltBuf hXlen (hv ▸ inRange_statOf hX)).2
  have hread' := (readNthVal_rsltBuf (v := statOf stat.redOp (saturateCells maxval X)) hXlen
    (inRange_statOf hXsat)).2
  rw [Option.some.inj hanswer, hread] at hread'
  rw [hv]
  exact (Option.some.inj hread').symm

/-- Four cores, and floating-point numbers are left alone. -/
def plainKernel : Kernel where
  numCores := 4
  fl := id
  draw _ := 0
  sortF4 _ cells := cells
  sortF4_perm _ cells := List.Perm.refl cells
  stoF8 _ := none
  printF8 _ := ""
  vecOther _ _ _ _ _ := none
  query _ _ _ _ _ := none

lemma statsInv_twoColumns {a b : List Int} (ha : ∀ x ∈ a, InBits 32 x) (hb : ∀ x ∈ b, InBits 32 x) :
    StatsInv plainKernel oneDir (twoColumns a b) := by
  have hinv := sortInv_twoColumns ha hb
  have hbits : ∀ {t : IntType} {x : Int}, FldType.I4.intType = some t → InBits 32 x → t.InRange x := by
    intro t x ht hx
    obtain rfl := Option.some.inj ht
    simp only [InBits, IntType.InRange, IntType.max, IntType.bits] at hx ⊢
    omega
  refine ⟨⟨hinv.files, hinv.fileno, fun i hi hnn => ?_, fun i hi t ht f hf x hx => ?_, fun i => ?_⟩,
    fun q c hq => ?_⟩
  · rcases twoColumns_used hi with ⟨-, h⟩ | ⟨-, h⟩ <;> rw [h] at hnn <;> simp [intColumn, zeroFldRec] at hnn
  · rcases twoColumns_used hi with ⟨-, h⟩ | ⟨-, h⟩
    · rw [h] at hf ht
      obtain rfl := Option.some.inj hf
      exact hbits ht (ha x hx)
    · rw [h] at hf ht
      obtain rfl := Option.some.inj hf
      exact hbits ht (hb x hx)
  · rcases i with _ | _ | i
    · exact (by decide : (2 : Int) < 2 ^ 63)
    · exact (by decide : (0 : Int) < 2 ^ 63)
    · exact (by decide : (0 : Int) < 2 ^ 63)
  · obtain ⟨hused, -, hget, -⟩ := heldStat_eq_some hq
    rcases twoColumns_used hused with ⟨-, h⟩ | ⟨-, h⟩ <;> rw [h] at hget <;>
      cases hstat : q.2 <;> rw [hstat] at hget <;> cases hget

/-- The maximum of `a` is asked for, and then `a` is sorted. -/
def askAndSort : List ColumnOp := [.fToS ['T'] ['a'] "max".toList, .fop ['T'] ['a'] "sortA".toList]

/-- The store after some commands on two columns. -/
def statsAfter (ops : List ColumnOp) : Store :=
  Cmd.after (ColumnOp.exec plainKernel oneDir stablePairSort) (twoColumns [5, 2] [3, 9]) ops

lemma attempts_askAndSort :
    Cmd.Attempts (ColumnOp.exec plainKernel oneDir stablePairSort) (ColumnOp.Careful oneDir)
      (twoColumns [5, 2] [3, 9]) (statsAfter askAndSort) := by
  have hsort : fopSpec "sortA".toList = some (.sort .asc []) := by decide +kernel
  have hok : ColumnOp.Careful oneDir (statsAfter (askAndSort.take 1)) (.fop ['T'] ['a'] "sortA".toList) := by
    intro maxval tblId i hspec
    rw [hsort] at hspec
    cases hspec
  have hask : Cmd.Attempts (ColumnOp.exec plainKernel oneDir stablePairSort) (ColumnOp.Careful oneDir)
      (twoColumns [5, 2] [3, 9]) (statsAfter (askAndSort.take 1)) :=
    .single ⟨.fToS ['T'] ['a'] "max".toList, True.intro, rfl⟩
  exact hask.tail ⟨_, hok, rfl⟩

lemma nnFldId_askAndSort (j : Nat) : ((statsAfter askAndSort).fld j).nnFldId = -1 := by
  have hall : ∀ r ∈ (statsAfter askAndSort).flds, r.nnFldId = -1 := by decide +kernel
  rw [Store.fld, List.getD_eq_getElem?_getD]
  cases hget : (statsAfter askAndSort).flds[j]? with
  | none => rfl
  | some r => exact hall r (List.mem_of_getElem? hget)

end Datacl
