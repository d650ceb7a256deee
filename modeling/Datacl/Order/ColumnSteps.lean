import Datacl.Order.ColumnStats

/-!
# The recorded statistics and the commands

What each command on a column leaves of the recorded statistics, whether it succeeds or not. Only a
column that is saturated has other values than before.
-/

namespace Datacl

variable {k : Kernel} {env : Env} {s : Store} {tblId i nR : Nat} {x : DataFile}

/-! ### Records and files -/

/-- The recorded order does not matter to the statistics. -/
lemma StatsInv.setSrttype (h : StatsInv k env s) (i : Nat) (t : SortType) :
    StatsInv k env (s.setFld i { s.fld i with srttype := t }) := by
  have hfld : ∀ j, (s.fld j).SameData ((s.setFld i { s.fld i with srttype := t }).fld j) :=
    sameData_setFld ⟨rfl, rfl, rfl, rfl, rfl, rfl⟩
  refine h.congr (h.columns.congr rfl rfl rfl hfld) rfl (fun j => ?_) fun j _ => rfl
  rw [Store.fld_setFld]
  split_ifs with hj
  · rw [hj.1]
  · rfl

lemma StatsInv.intSetSrttype (h : StatsInv k env s) (tblId i : Nat) (t : SortType) :
    StatsInv k env (intSetSrttype env tblId i t s).2 := by
  unfold Datacl.intSetSrttype
  rw [Cmd.modify_bind, Cmd.get_bind]
  exact Cmd.require_bind_keeps (h.setSrttype i t) fun _ => h.setSrttype i t

/-- Writing a file that no field has. -/
lemma StatsInv.setFile (h : StatsInv k env s) {d n : Int}
    (hfree : ∀ j, (s.fld j).Used → ¬ ((s.fld j).ddirId = d ∧ (s.fld j).fileno = n))
    (f : Option DataFile) : StatsInv k env (s.setFile d n f) := by
  have hcol : ColumnsOk (s.setFile d n f) := by
    refine ⟨h.columns.files, h.columns.fileno, h.columns.nn, fun j hj t ht g hg => ?_, h.columns.rows⟩
    rw [Store.fld_setFile] at hj ht hg
    rw [Store.disk_setFile, if_neg (hfree j hj)] at hg
    exact h.columns.cells j hj t ht g hg
  refine h.congr hcol rfl (fun _ => rfl) fun j hj => ?_
  unfold getData qMmap
  rw [Store.disk_setFile, if_neg (hfree j hj)]

/-- A new file belongs to no field. -/
lemma StatsInv.mkTempFile (h : StatsInv k env s) (f : DataFile) :
    StatsInv k env (mkTempFile env f s).2 := by
  have hnext : StatsInv k env { s with nextFileno := s.nextFileno + 1 } := by
    refine h.congr ⟨h.columns.files, fun j hj => ?_, h.columns.nn, h.columns.cells, h.columns.rows⟩
      rfl (fun _ => rfl) fun _ _ => rfl
    exact Int.lt_add_one_of_le (h.columns.fileno j hj).le
  unfold Datacl.mkTempFile
  refine Cmd.require_bind_keeps h fun _ => Cmd.ofOption_bind_keeps h fun d _ =>
    Cmd.require_bind_keeps h fun _ => ?_
  rw [Cmd.get_bind, Cmd.modify_bind]
  refine Cmd.require_bind_keeps hnext fun _ => ?_
  exact hnext.setFile (fun j hj hsame => (h.columns.fileno j hj).ne hsame.2) _

/-! ### Writing rows -/

/-- The column that a command works on. -/
structure OnColumn (env : Env) (s : Store) (i nR : Nat) (x : DataFile) : Prop where
  used : (s.fld i).Used
  nn : (s.fld i).nnFldId < 0
  data : getData env s (s.fld i) = some x
  nR_eq : nR = (s.tbl (s.fld i).tblId.toNat).nR.toNat

lemma OnColumn.cells (hx : OnColumn env s i nR x) (hcol : ColumnsOk s) {t : IntType}
    (ht : (s.fld i).fldtype.intType = some t) : ∀ y ∈ x.cells, t.InRange y :=
  hcol.cells i hx.used t ht x (getData_eq_some hx.data)

/-- A column that is no null column and whose values are the same as before, in another order. -/
lemma StatsInv.writePerm (h : StatsInv k env s) (hx : OnColumn env s i nR x) (htype : (s.fld i).fldtype ≠ .I1)
    {cells : List Int} (hperm : cells.Perm x.cells)
    (hrows : (s.fld i).fldtype.intType ≠ none → (cells.take nR).Perm (x.cells.take nR)) :
    StatsInv k env (s.setData (s.fld i) { x with cells := cells }) := by
  refine h.setData hx.used hx.nn hx.data rfl hperm.length_eq ?_ ?_ ?_
  · exact fun t ht y hy => hx.cells h.columns ht y (hperm.mem_iff.mp hy)
  · intro stat v hint _
    rw [← hx.nR_eq]
    exact statOf_perm (hrows hint)
  · intro j hj hji
    have hnn := (h.columns.nn j hj (by omega)).2
    rw [hji] at hnn
    exact absurd hnn htype

lemma writeRows_apply (rows : List Int) :
    (writeRows i nR x rows s).2 = s.setData (s.fld i) { x with cells := rows ++ x.cells.drop nR } := rfl

/-- The rows in another order. -/
lemma StatsInv.writeRows (h : StatsInv k env s) (hx : OnColumn env s i nR x)
    (htype : (s.fld i).fldtype ≠ .I1) {rows : List Int} (hlen : nR ≤ x.cells.length)
    (hperm : rows.Perm (x.cells.take nR)) :
    StatsInv k env (s.setData (s.fld i) { x with cells := rows ++ x.cells.drop nR }) := by
  have hlenRows : rows.length = nR := by
    rw [hperm.length_eq, List.length_take]
    omega
  refine h.writePerm hx htype ?_ fun _ => ?_
  · exact (hperm.append_right _).trans (List.Perm.of_eq (List.take_append_drop nR x.cells))
  · rw [List.take_left' hlenRows]
    exact hperm

/-! ### `fop` -/

lemma sortCells_perm {dir : SortDir} {cells rows : List Int} {t : FldType}
    (h : sortCells k dir cells t = some rows) : rows.Perm cells ∧ t ≠ .I1 := by
  cases t with
  | I4 =>
    obtain rfl := Option.some.inj h
    exact ⟨List.perm_insertionSort _ _, by simp⟩
  | I8 =>
    obtain rfl := Option.some.inj h
    exact ⟨List.perm_insertionSort _ _, by simp⟩
  | F4 =>
    obtain rfl := Option.some.inj h
    exact ⟨k.sortF4_perm dir cells, by simp⟩
  | _ => cases h

lemma permuteLoop_perm {α : Type} {fl : ℚ → ℚ} {n : Nat} {draw : Nat → ℚ} {j : Nat} {X Y : List α}
    (h : permuteLoop fl n draw j X = .ok Y) : Y.Perm X := by
  induction j generalizing X with
  | zero =>
    obtain rfl := Except.ok.inj h
    exact List.Perm.refl _
  | succ j ih =>
    rw [permuteLoop] at h
    split at h
    · cases h
    · next X' hswap => exact (ih h).trans (Swapping.swapAt_perm hswap)

lemma permute_perm {α : Type} {fl : ℚ → ℚ} {draw : Nat → ℚ} {X Y : List α}
    (h : permute fl draw X = .ok Y) : Y.Perm X := by
  unfold permute at h
  split_ifs at h
  exact permuteLoop_perm h

lemma length_assignConstI8 (val : BitVec 64) (n : Nat) (out : List (BitVec 64)) :
    (assignConstI8 val n out).length = out.length := by
  induction n generalizing out with
  | zero => rfl
  | succ n ih =>
    cases out with
    | nil => rfl
    | cons _ out => rw [assignConstI8, List.length_cons, ih, List.length_cons]

lemma length_zeroAfterCells {m oneCnt : Nat} {cells rows : List Int}
    (h : zeroAfterCells m oneCnt cells = some rows) : rows.length = cells.length := by
  obtain ⟨⟨mem, words⟩, hzero, rfl⟩ := Option.map_eq_some_iff.mp h
  unfold zeroAfterN at hzero
  obtain ⟨j, -, hzero⟩ := Option.bind_eq_some_iff.mp hzero
  split_ifs at hzero
  obtain rfl := (Prod.ext_iff.mp (Option.some.inj hzero)).1
  rw [List.length_map, length_assignConstI8, List.length_map]

lemma StatsInv.fopSort (h : StatsInv k env s) (hx : OnColumn env s i nR x) (dir : SortDir)
    (distribution : Name) : StatsInv k env (fopSort k env tblId i nR x dir distribution s).2 := by
  unfold Datacl.fopSort
  rw [Cmd.get_bind]
  by_cases hpar : dir = .asc ∧ decideOnParallelism distribution (s.fld i).fldtype nR = true
  · rw [if_pos hpar]
    refine Cmd.bind_keeps (fun _ => h.mkTempFile _) fun a s' hrun => ?_
    have hfile := h.mkTempFile ⟨fldBits (s.fld i).fldtype / 8, List.replicate nR 0⟩
    rw [hrun] at hfile
    exact hfile
  · rw [if_neg hpar]
    refine Cmd.require_bind_keeps h fun hlen => Cmd.ofOption_bind_keeps h fun rows hrows => ?_
    obtain ⟨hperm, htype⟩ := sortCells_perm hrows
    rw [Datacl.writeRows, Cmd.modify_bind]
    exact (h.writeRows hx htype hlen hperm).intSetSrttype tblId i _

lemma StatsInv.fopPermute (h : StatsInv k env s) (hx : OnColumn env s i nR x) :
    StatsInv k env (fopPermute k env tblId i nR x s).2 := by
  unfold Datacl.fopPermute
  rw [Cmd.get_bind]
  dsimp only
  refine Cmd.require_bind_keeps h fun htype => Cmd.require_bind_keeps h fun hlen => ?_
  have hne : (s.fld i).fldtype ≠ .I1 := by
    rcases htype with ht | ht <;> rw [ht] <;> simp
  cases hrows : permute k.fl k.draw (x.cells.take nR) with
  | error e =>
    cases e with
    | outside => exact h
    | status => exact h.intSetSrttype tblId i _
  | ok rows =>
    dsimp only
    rw [Datacl.writeRows, Cmd.modify_bind]
    exact (h.writeRows hx hne hlen (permute_perm hrows)).intSetSrttype tblId i _

lemma StatsInv.fopZeroAfterN (h : StatsInv k env s) (hx : OnColumn env s i nR x) (n oneCnt : Int) :
    StatsInv k env (fopZeroAfterN i n x oneCnt s).2 := by
  unfold Datacl.fopZeroAfterN
  rw [Cmd.get_bind]
  refine Cmd.require_bind_keeps h fun htype => Cmd.require_bind_keeps h fun _ =>
    Cmd.ofOption_bind_keeps h fun words hwords => ?_
  have hint : (s.fld i).fldtype.intType = none := by rw [htype]; rfl
  rw [writeRows_apply, List.drop_length, List.append_nil]
  refine h.setData hx.used hx.nn hx.data rfl (length_zeroAfterCells hwords) ?_ ?_ ?_
  · intro t ht
    rw [hint] at ht
    cases ht
  · exact fun _ _ hne => absurd hint hne
  · intro j hj hji
    have hnn := (h.columns.nn j hj (by omega)).2
    rw [hji, Int.toNat_natCast, htype] at hnn
    cases hnn

/-- The recorded statistics of the column are those of the saturated column too, and if it is a null
column then no flag changes or nothing is recorded. -/
structure SaturateOk (env : Env) (s : Store) (i : Nat) (maxval : Int) : Prop where
  self : ∀ t X, intRows env s i = some (t, X, none) → ∀ stat v, (s.fld i).getStat stat = some v →
    statOf stat.redOp (saturateCells maxval X) = statOf stat.redOp X
  parent : ∀ j, (s.fld j).Used → (s.fld j).nnFldId = i →
    (∀ stat, (s.fld j).getStat stat = none) ∨ 1 ≤ maxval

lemma forall₂_saturateCells {maxval : Int} (h : 1 ≤ maxval) (cells : List Int) :
    List.Forall₂ SameFlag cells (saturateCells maxval cells) := by
  unfold saturateCells
  rw [List.forall₂_map_right_iff, List.forall₂_same]
  intro y _
  unfold SameFlag
  split_ifs <;> omega

lemma saturateCells_inRange {t : IntType} {maxval : Int} (hmax : t.InRange maxval) {cells : List Int}
    (h : ∀ y ∈ cells, t.InRange y) : ∀ y ∈ saturateCells maxval cells, t.InRange y := by
  intro y hy
  obtain ⟨z, hz, rfl⟩ := List.mem_map.mp hy
  split_ifs
  · exact hmax
  · exact h z hz

lemma StatsInv.fopSaturate (h : StatsInv k env s) (hx : OnColumn env s i nR x) {maxval : Int}
    (hok : SaturateOk env s i maxval) : StatsInv k env (fopSaturate i nR x maxval s).2 := by
  unfold Datacl.fopSaturate
  rw [Cmd.get_bind]
  refine Cmd.ofOption_bind_keeps h fun t ht => Cmd.require_bind_keeps h fun hmax =>
    Cmd.require_bind_keeps h fun hlen => ?_
  have hcells := hx.cells h.columns ht
  have hlenSat : (saturateCells maxval (x.cells.take nR)).length = nR := by
    rw [saturateCells, List.length_map, List.length_take]
    omega
  rw [writeRows_apply]
  refine h.setData hx.used hx.nn hx.data rfl ?_ ?_ ?_ ?_
  · rw [List.length_append, hlenSat, List.length_drop]
    omega
  · intro t' ht' y hy
    obtain rfl := Option.some.inj (ht.symm.trans ht')
    rcases List.mem_append.mp hy with hy | hy
    · exact saturateCells_inRange hmax (fun z hz => hcells z (List.mem_of_mem_take hz)) y hy
    · exact hcells y (List.mem_of_mem_drop hy)
  · intro stat v _ hget
    have hrows := intRows_plain hx.nn ht hx.data
    rw [← hx.nR_eq, if_pos hlen] at hrows
    rw [← hx.nR_eq, List.take_left' hlenSat]
    exact hok.self t _ hrows stat v hget
  · intro j hj hji
    refine (hok.parent j hj hji).imp_right fun hpos => ?_
    nth_rewrite 1 [← List.take_append_drop nR x.cells]
    refine List.rel_append (forall₂_saturateCells hpos _) ?_
    exact List.forall₂_same.mpr fun y _ => Iff.rfl

/-- What a call of `fop` has to meet. -/
def FopOk (env : Env) (s : Store) (tbl fld strOpSpec : Name) : Prop :=
  ∀ maxval tblId i, fopSpec strOpSpec = some (.saturate maxval) → isTbl s tbl = some tblId →
    isFld s tblId fld = some i → SaturateOk env s i maxval

lemma StatsInv.fop (h : StatsInv k env s) {tbl fld strOpSpec : Name}
    (hok : FopOk env s tbl fld strOpSpec) : StatsInv k env (fop k env tbl fld strOpSpec s).2 := by
  unfold Datacl.fop
  refine Cmd.require_bind_keeps h fun _ => Cmd.require_bind_keeps h fun hfld =>
    Cmd.require_bind_keeps h fun _ => ?_
  rw [Cmd.get_bind]
  refine Cmd.ofOption_bind_keeps h fun tblId htbl => Cmd.ofOption_bind_keeps h fun i hi =>
    Cmd.require_bind_keeps h fun _ => Cmd.require_bind_keeps h fun hnn =>
      Cmd.ofOption_bind_keeps h fun x hx => Cmd.ofOption_bind_keeps h fun spec hspec => ?_
  have hcol : OnColumn env s i (s.tbl tblId).nR.toNat x := by
    refine ⟨isFld_used hfld hi, hnn, hx, ?_⟩
    rw [(isFld_eq_some hi).2.1, Int.toNat_natCast]
  cases spec with
  | sort dir distribution => exact h.fopSort hcol dir distribution
  | permute => exact h.fopPermute hcol
  | zeroAfterN oneCnt => exact h.fopZeroAfterN hcol _ oneCnt
  | saturate maxval => exact h.fopSaturate hcol (hok maxval tblId i hspec htbl hi)

/-! ### `f_to_s` -/

/-- A record of another type. -/
lemma StatsInv.setOther (h : StatsInv k env s) (hint : (s.fld i).fldtype.intType = none) {r : FldRec}
    (hr : (s.fld i).SameData r) : StatsInv k env (s.setFld i r) := by
  have hfld := sameData_setFld hr
  refine ⟨h.columns.congr rfl rfl rfl hfld, h.fresh.step fun q c hq => .inr ?_⟩
  obtain ⟨hused, htype, hget, hnum⟩ := heldStat_eq_some hq
  rw [(hfld q.1).used] at hused
  rw [(hfld q.1).fldtype] at htype
  have hqi : q.1 ≠ i := fun heq => htype (heq ▸ hint)
  rw [Store.fld_setFld_of_ne hqi] at hget hnum
  refine ⟨?_, freshStat_congr (intRows_congr h.columns hused rfl hfld fun _ _ _ => rfl)⟩
  show heldStat s q = some c
  rw [heldStat, if_pos ⟨hused, htype⟩, hget, Option.map_some, ← hnum]

/-- A statistic of a column is recorded with the number of its values. -/
lemma StatsInv.setStat (h : StatsInv k env s) (hi : i < s.flds.length) {stat : Stat} {n v : Int}
    (hnew : (s.fld i).Used → (s.fld i).fldtype.intType ≠ none →
      freshStat k env s (i, stat) = some (n, v)) :
    StatsInv k env (s.setFld i ({ s.fld i with numNn := n }.setStat v stat)) := by
  have hdata := FldRec.sameData_setStat (s.fld i) n v stat
  have hfld := sameData_setFld hdata
  refine ⟨h.columns.congr rfl rfl rfl hfld, h.fresh.step fun q c hq => ?_⟩
  obtain ⟨hused, htype, hget, hnum⟩ := heldStat_eq_some hq
  rw [(hfld q.1).used] at hused
  rw [(hfld q.1).fldtype] at htype
  have hsame : freshStat k env (s.setFld i ({ s.fld i with numNn := n }.setStat v stat)) q =
      freshStat k env s q :=
    freshStat_congr (intRows_congr h.columns hused rfl hfld fun _ _ _ => rfl)
  by_cases hqi : q.1 = i
  · left
    show freshStat k env _ q = some c
    rw [hsame]
    obtain ⟨q1, q2⟩ := q
    obtain ⟨c1, c2⟩ := c
    dsimp only at hqi hget hnum hused htype
    subst hqi
    rw [Store.fld_setFld_of_lt hi] at hget hnum
    have hnew := hnew hused htype
    have hnumNn : (({ s.fld q1 with numNn := n } : FldRec).setStat v stat).numNn = n := by
      cases stat <;> rfl
    rw [hnumNn] at hnum
    subst hnum
    by_cases hstat : q2 = stat
    · subst hstat
      have hv : (({ s.fld q1 with numNn := c1 } : FldRec).setStat v q2).getStat q2 = some v := by
        cases q2 <;> rfl
      rw [hv] at hget
      rw [hnew, Option.some.inj hget]
    · have hother : (({ s.fld q1 with numNn := c1 } : FldRec).setStat v stat).getStat q2 =
          (s.fld q1).getStat q2 := by
        cases stat <;> cases q2 <;> first | rfl | exact absurd rfl hstat
      rw [hother] at hget
      have hheld : heldStat s (q1, q2) = some ((s.fld q1).numNn, c2) := by
        rw [heldStat, if_pos ⟨hused, htype⟩]
        dsimp only
        rw [hget, Option.map_some]
      have hold : freshStat k env s (q1, q2) = some ((s.fld q1).numNn, c2) := h.fresh _ _ hheld
      -- both statistics count the same values
      have hcount : c1 = (s.fld q1).numNn := by
        unfold freshStat at hold hnew
        obtain ⟨r, hr, hrest⟩ := Option.bind_eq_some_iff.mp hold
        obtain ⟨r', hr', hrest'⟩ := Option.bind_eq_some_iff.mp hnew
        obtain rfl := Option.some.inj (hr.symm.trans hr')
        obtain ⟨p, -, hp⟩ := Option.bind_eq_some_iff.mp hrest
        obtain ⟨p', -, hp'⟩ := Option.bind_eq_some_iff.mp hrest'
        exact (Prod.ext_iff.mp (Option.some.inj hp')).1.symm.trans
          (Prod.ext_iff.mp (Option.some.inj hp)).1
      rw [hold, hcount]
  · right
    refine ⟨?_, hsame⟩
    rw [Store.fld_setFld_of_ne hqi] at hget hnum
    show heldStat s q = some c
    rw [heldStat, if_pos ⟨hused, htype⟩, hget, Option.map_some, ← hnum]

end Datacl
