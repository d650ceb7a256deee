import Datacl.Compound.ExprTotals
import Datacl.Lib.Cached
import Datacl.Order.Fop
import Datacl.Order.TruthfulSort

/-!
# The recorded statistics and the columns

The minimum, the maximum and the sum that the record of an integer field holds are to be those of its
column. The columns are files of their own, so that writing one leaves the others alone.
-/

namespace Datacl

/-- The statistic of some values. -/
def statOf (op : RedOp) (X : List Int) : Int := fToS op X (op.init .I8)

/-- The rows of an integer column, with the rows of its null column if it has one. -/
def intRows (env : Env) (s : Store) (i : Nat) : Option (IntType × List Int × Option (List Int)) := do
  let r := s.fld i
  let nR := (s.tbl r.tblId.toNat).nR.toNat
  let t ← r.fldtype.intType
  let x ← getData env s r
  let nnX ← getNnData env s r
  if nR ≤ x.cells.length ∧ ∀ y ∈ nnX, nR ≤ y.cells.length then
    some (t, x.cells.take nR, nnX.map fun y => y.cells.take nR)
  else none

/-- The number of values of a field and their statistic, computed now. -/
def freshStat (k : Kernel) (env : Env) (s : Store) (q : Nat × Stat) : Option (Int × Int) := do
  let (_, X, nnX) ← intRows env s q.1
  let _ ← partition X.length 1024 k.numCores
  pure (((nonNull X nnX).length : Int), statOf q.2.redOp (nonNull X nnX))

/-- The same from the record. -/
def heldStat (s : Store) (q : Nat × Stat) : Option (Int × Int) :=
  if (s.fld q.1).Used ∧ (s.fld q.1).fldtype.intType ≠ none then
    ((s.fld q.1).getStat q.2).map fun v => ((s.fld q.1).numNn, v)
  else none

/-- The statistics of the integer columns. -/
def statCache (k : Kernel) (env : Env) : Cached Store (Nat × Stat) (Int × Int) :=
  ⟨freshStat k env, heldStat⟩

/-- The columns of a store: files of their own with cells of the types, null columns of type `I1` and
numbers of rows of 64 bits. -/
structure ColumnsOk (s : Store) : Prop where
  files : ∀ i j, (s.fld i).Used → (s.fld j).Used → (s.fld i).ddirId = (s.fld j).ddirId →
    (s.fld i).fileno = (s.fld j).fileno → i = j
  fileno : ∀ i, (s.fld i).Used → (s.fld i).fileno < s.nextFileno
  nn : ∀ i, (s.fld i).Used → 0 ≤ (s.fld i).nnFldId →
    (s.fld (s.fld i).nnFldId.toNat).Used ∧ (s.fld (s.fld i).nnFldId.toNat).fldtype = .I1
  cells : ∀ i, (s.fld i).Used → ∀ t, (s.fld i).fldtype.intType = some t →
    ∀ f, s.disk (s.fld i).ddirId (s.fld i).fileno = some f → ∀ x ∈ f.cells, t.InRange x
  rows : ∀ i, (s.tbl i).nR < 2 ^ 63

/-- The columns are in order and the statistics are right. -/
structure StatsInv (k : Kernel) (env : Env) (s : Store) : Prop where
  columns : ColumnsOk s
  fresh : (statCache k env).Fresh s

/-! ### Statistics of the same values -/

section

variable {t : IntType} {op : RedOp} {X Y : List Int}

lemma RedOp.step_right_comm (op : RedOp) (r a b : Int) :
    op.step (op.step r a) b = op.step (op.step r b) a := by
  cases op with
  | min =>
    simp only [RedOp.step]
    split_ifs <;> omega
  | max =>
    simp only [RedOp.step]
    split_ifs <;> omega
  | sum =>
    simp only [RedOp.step, CInt.wrap, Int.bmod_add_bmod]
    congr 1
    omega

/-- The order of the values does not matter. -/
lemma statOf_perm (h : X.Perm Y) : statOf op X = statOf op Y :=
  h.foldl_eq' (fun a _ b _ r => op.step_right_comm r a b) _

lemma inRange_statOf (h : ∀ x ∈ X, t.InRange x) : IntType.I8.InRange (statOf op X) :=
  inRange_fToS (inRange_init op .I8) fun x hx => inRange_I8 (h x hx)

end

/-! ### What the columns are read from -/

/-- The two records have the same table, type, files and name. -/
structure FldRec.SameData (r r' : FldRec) : Prop where
  tblId : r'.tblId = r.tblId
  ddirId : r'.ddirId = r.ddirId
  fileno : r'.fileno = r.fileno
  nnFldId : r'.nnFldId = r.nnFldId
  fldtype : r'.fldtype = r.fldtype
  name : r'.name = r.name

lemma FldRec.SameData.refl (r : FldRec) : r.SameData r := ⟨rfl, rfl, rfl, rfl, rfl, rfl⟩

lemma FldRec.SameData.used {r r' : FldRec} (h : r.SameData r') : r'.Used ↔ r.Used := by
  rw [FldRec.Used, h.name, FldRec.Used]

lemma FldRec.sameData_setStat (r : FldRec) (n v : Int) (stat : Stat) :
    r.SameData ({ r with numNn := n }.setStat v stat) := by
  cases stat <;> exact ⟨rfl, rfl, rfl, rfl, rfl, rfl⟩

section

variable {k : Kernel} {env : Env} {s s' : Store} {i j : Nat}

lemma sameData_setFld {r : FldRec} (h : (s.fld i).SameData r) (j : Nat) :
    (s.fld j).SameData ((s.setFld i r).fld j) := by
  rw [Store.fld_setFld]
  split_ifs with hj
  · rw [hj.1]
    exact h
  · exact FldRec.SameData.refl _

lemma getData_congr {r r' : FldRec} (h : r.SameData r') : getData env s r' = getData env s r := by
  rw [getData, h.ddirId, h.fileno, getData]

/-- A column is read from the record, the table and the files of the field and its null field. -/
lemma intRows_congr (hcol : ColumnsOk s) (hi : (s.fld i).Used) (htbls : s'.tbls = s.tbls)
    (hfld : ∀ j, (s.fld j).SameData (s'.fld j))
    (hdata : ∀ j, (s.fld j).Used → (j = i ∨ (0 ≤ (s.fld i).nnFldId ∧ j = (s.fld i).nnFldId.toNat)) →
      getData env s' (s.fld j) = getData env s (s.fld j)) :
    intRows env s' i = intRows env s i := by
  have htbl : (s'.tbl (s'.fld i).tblId.toNat).nR = (s.tbl (s.fld i).tblId.toNat).nR := by
    rw [Store.tbl, htbls, (hfld i).tblId, Store.tbl]
  have hget : getData env s' (s'.fld i) = getData env s (s.fld i) := by
    rw [getData_congr (hfld i), hdata i hi (.inl rfl)]
  have hnn : getNnData env s' (s'.fld i) = getNnData env s (s.fld i) := by
    unfold getNnData
    rw [(hfld i).nnFldId]
    split_ifs with h
    · rw [getData_congr (hfld _), hdata _ (hcol.nn i hi h).1 (.inr ⟨h, rfl⟩)]
    · rfl
  unfold intRows
  simp only [htbl, (hfld i).fldtype, hget, hnn]

lemma ColumnsOk.congr (h : ColumnsOk s) (htbls : s'.tbls = s.tbls) (hdisk : s'.disk = s.disk)
    (hnext : s'.nextFileno = s.nextFileno) (hfld : ∀ j, (s.fld j).SameData (s'.fld j)) :
    ColumnsOk s' := by
  constructor
  · intro i j hi hj hd hn
    rw [(hfld i).ddirId, (hfld j).ddirId] at hd
    rw [(hfld i).fileno, (hfld j).fileno] at hn
    exact h.files i j ((hfld i).used.mp hi) ((hfld j).used.mp hj) hd hn
  · intro i hi
    rw [(hfld i).fileno, hnext]
    exact h.fileno i ((hfld i).used.mp hi)
  · intro i hi hnn
    rw [(hfld i).nnFldId] at hnn ⊢
    obtain ⟨hused, htype⟩ := h.nn i ((hfld i).used.mp hi) hnn
    exact ⟨(hfld _).used.mpr hused, (hfld _).fldtype.trans htype⟩
  · intro i hi t ht f hf
    rw [(hfld i).fldtype] at ht
    rw [hdisk, (hfld i).ddirId, (hfld i).fileno] at hf
    exact h.cells i ((hfld i).used.mp hi) t ht f hf
  · intro i
    rw [Store.tbl, htbls]
    exact h.rows i

lemma freshStat_congr {q : Nat × Stat} (h : intRows env s' q.1 = intRows env s q.1) :
    freshStat k env s' q = freshStat k env s q := by
  unfold freshStat
  rw [h]

lemma heldStat_eq_some {q : Nat × Stat} {c : Int × Int} (h : heldStat s q = some c) :
    (s.fld q.1).Used ∧ (s.fld q.1).fldtype.intType ≠ none ∧ (s.fld q.1).getStat q.2 = some c.2 ∧
      c.1 = (s.fld q.1).numNn := by
  unfold heldStat at h
  split_ifs at h with hused
  obtain ⟨v, hv, rfl⟩ := Option.map_eq_some_iff.mp h
  exact ⟨hused.1, hused.2, hv, rfl⟩

/-- A change that leaves the tables, the records but for the orders, and the files of the fields. -/
lemma StatsInv.congr (h : StatsInv k env s) (hcol : ColumnsOk s') (htbls : s'.tbls = s.tbls)
    (hflds : ∀ j, { s'.fld j with srttype := .unknown } = { s.fld j with srttype := .unknown })
    (hdata : ∀ j, (s.fld j).Used → getData env s' (s.fld j) = getData env s (s.fld j)) :
    StatsInv k env s' := by
  have hfld : ∀ j, (s.fld j).SameData (s'.fld j) := by
    intro j
    have hj := hflds j
    simp only [FldRec.mk.injEq] at hj
    obtain ⟨h1, h2, -, h4, -, -, -, -, h8, -, h10, h11, -⟩ := hj
    exact ⟨h1, h2, h11, h4, h8, h10⟩
  have hstat : ∀ j stat, (s'.fld j).getStat stat = (s.fld j).getStat stat ∧
      (s'.fld j).numNn = (s.fld j).numNn := by
    intro j stat
    have hsame := congrArg (fun r : FldRec => (r.getStat stat, r.numNn)) (hflds j)
    have hdrop : ∀ r : FldRec, ({ r with srttype := .unknown } : FldRec).getStat stat = r.getStat stat := by
      intro r
      cases stat <;> rfl
    simp only [hdrop, Prod.mk.injEq] at hsame
    exact hsame
  refine ⟨hcol, h.fresh.step fun q c hq => .inr ?_⟩
  obtain ⟨hused, htype, hget, hnum⟩ := heldStat_eq_some hq
  have hused' := (hfld q.1).used.mp hused
  refine ⟨?_, freshStat_congr (intRows_congr h.columns hused' htbls hfld fun j hj _ => hdata j hj)⟩
  show heldStat s q = some c
  rw [heldStat, if_pos ⟨hused', (hfld q.1).fldtype ▸ htype⟩, ← (hstat q.1 q.2).1, hget,
    Option.map_some, ← (hstat q.1 q.2).2, ← hnum]

end

/-! ### Writing a column -/

/-- The two cells are both 0 or neither is. -/
def SameFlag (a b : Int) : Prop := a = 0 ↔ b = 0

lemma nonNull_sameFlag {X N N' : List Int} (h : List.Forall₂ SameFlag N N') :
    nonNull X (some N) = nonNull X (some N') := by
  unfold nonNull
  dsimp only
  induction h generalizing X with
  | nil => rfl
  | @cons a b N N' hab _ ih =>
    cases X with
    | nil => rfl
    | cons x X =>
      rw [List.zip_cons_cons, List.zip_cons_cons, List.filterMap_cons, List.filterMap_cons, ih]
      have hiff : a = 0 ↔ b = 0 := hab
      simp only [hiff]

section

variable {k : Kernel} {env : Env} {s : Store} {i : Nat} {x f : DataFile}

lemma getData_setData_ne {r r' : FldRec} (h : ¬ (r'.ddirId = r.ddirId ∧ r'.fileno = r.fileno)) :
    getData env (s.setData r f) r' = getData env s r' := by
  unfold getData qMmap
  rw [Store.disk_setData, if_neg h]

lemma getData_setData_self {r : FldRec} (hx : getData env s r = some x) (hw : f.width = x.width)
    (hl : f.cells.length = x.cells.length) : getData env (s.setData r f) r = some f := by
  have hfile : (s.setData r f).disk r.ddirId r.fileno = some f := by
    rw [Store.disk_setData, if_pos ⟨rfl, rfl⟩]
  unfold getData qMmap at hx ⊢
  rw [hfile]
  split_ifs at hx ⊢ with hdir
  have hsize : x.size ≠ 0 := by simpa using (Option.filter_eq_some_iff.mp hx).2
  rw [DataFile.size, ← hw, ← hl, ← DataFile.size] at hsize
  simp [Option.filter, hsize]

lemma ColumnsOk.setData (h : ColumnsOk s) (hi : (s.fld i).Used)
    (hrange : ∀ t, (s.fld i).fldtype.intType = some t → ∀ y ∈ f.cells, t.InRange y) :
    ColumnsOk (s.setData (s.fld i) f) := by
  refine ⟨h.files, h.fileno, h.nn, fun j hj t ht g hg => ?_, h.rows⟩
  rw [Store.fld_setData] at hj ht hg
  rw [Store.disk_setData] at hg
  split_ifs at hg with hsame
  · obtain rfl := Option.some.inj hg
    obtain rfl := h.files j i hj hi hsame.1 hsame.2
    exact hrange t ht
  · exact h.cells j hj t ht g hg

lemma ColumnsOk.getData_ne (h : ColumnsOk s) (hi : (s.fld i).Used) {j : Nat} (hj : (s.fld j).Used)
    (hji : j ≠ i) : getData env (s.setData (s.fld i) f) (s.fld j) = getData env s (s.fld j) :=
  getData_setData_ne fun hsame => hji (h.files j i hj hi hsame.1 hsame.2)

/-- The rows of a column without null values. -/
lemma intRows_plain {t : IntType} (hnn : (s.fld i).nnFldId < 0)
    (ht : (s.fld i).fldtype.intType = some t) (hx : getData env s (s.fld i) = some x) :
    intRows env s i =
      if (s.tbl (s.fld i).tblId.toNat).nR.toNat ≤ x.cells.length then
        some (t, x.cells.take (s.tbl (s.fld i).tblId.toNat).nR.toNat, none)
      else none := by
  have hnnData : getNnData env s (s.fld i) = some none := if_neg (by omega)
  unfold intRows
  simp only [ht, hx, hnnData, Option.bind_eq_bind, Option.bind_some, Option.map_none,
    Option.not_mem_none, IsEmpty.forall_iff, implies_true, and_true]

/-- The rows of a column with a null column. -/
lemma intRows_nn {t : IntType} {nnX : DataFile} (hnn : 0 ≤ (s.fld i).nnFldId)
    (ht : (s.fld i).fldtype.intType = some t) (hx : getData env s (s.fld i) = some x)
    (hnnX : getData env s (s.fld (s.fld i).nnFldId.toNat) = some nnX) :
    intRows env s i =
      if (s.tbl (s.fld i).tblId.toNat).nR.toNat ≤ x.cells.length ∧
          (s.tbl (s.fld i).tblId.toNat).nR.toNat ≤ nnX.cells.length then
        some (t, x.cells.take (s.tbl (s.fld i).tblId.toNat).nR.toNat,
          some (nnX.cells.take (s.tbl (s.fld i).tblId.toNat).nR.toNat))
      else none := by
  have hnnData : getNnData env s (s.fld i) = some (some nnX) := by
    rw [getNnData, if_pos hnn, hnnX, Option.map_some]
  unfold intRows
  simp only [ht, hx, hnnData, Option.bind_eq_bind, Option.bind_some, Option.map_some,
    Option.mem_some_iff, forall_eq']

/-- The value of a statistic before and after a column has been written. -/
lemma StatsInv.setData (h : StatsInv k env s) (hi : (s.fld i).Used) (hnn : (s.fld i).nnFldId < 0)
    (hx : getData env s (s.fld i) = some x) (hw : f.width = x.width)
    (hl : f.cells.length = x.cells.length)
    (hrange : ∀ t, (s.fld i).fldtype.intType = some t → ∀ y ∈ f.cells, t.InRange y)
    (hself : ∀ stat v, (s.fld i).fldtype.intType ≠ none → (s.fld i).getStat stat = some v →
      statOf stat.redOp (f.cells.take (s.tbl (s.fld i).tblId.toNat).nR.toNat) =
        statOf stat.redOp (x.cells.take (s.tbl (s.fld i).tblId.toNat).nR.toNat))
    (hparent : ∀ j, (s.fld j).Used → (s.fld j).nnFldId = i →
      (∀ stat, (s.fld j).getStat stat = none) ∨ List.Forall₂ SameFlag x.cells f.cells) :
    StatsInv k env (s.setData (s.fld i) f) := by
  refine ⟨h.columns.setData hi hrange, h.fresh.step fun q c hq => ?_⟩
  have hold : freshStat k env s q = some c := h.fresh q c hq
  obtain ⟨hused, htype, hget, -⟩ := heldStat_eq_some hq
  rw [Store.fld_setData] at hused htype hget
  left
  show freshStat k env (s.setData (s.fld i) f) q = some c
  by_cases hqi : q.1 = i
  · -- the column itself
    rw [hqi] at htype hget
    obtain ⟨t, ht⟩ := Option.ne_none_iff_exists'.mp htype
    unfold freshStat at hold ⊢
    rw [hqi] at hold ⊢
    rw [intRows_plain hnn ht hx] at hold
    rw [intRows_plain (s := s.setData (s.fld i) f) hnn ht (getData_setData_self hx hw hl)]
    have htbl : (s.setData (s.fld i) f).tbl = s.tbl := rfl
    simp only [Store.fld_setData, hl, htbl] at hold ⊢
    split_ifs at hold ⊢ with hlen
    · simp only [Option.bind_eq_bind, Option.bind_some, nonNull, List.length_take, hl] at hold ⊢
      rw [← hself q.2 c.2 htype hget] at hold
      exact hold
    · exact hold
  · have hgetq : getData env (s.setData (s.fld i) f) (s.fld q.1) = getData env s (s.fld q.1) :=
      h.columns.getData_ne hi hused hqi
    by_cases hpar : 0 ≤ (s.fld q.1).nnFldId ∧ (s.fld q.1).nnFldId.toNat = i
    · -- a column whose null column is written
      have hflags := (hparent q.1 hused (by omega)).resolve_left fun hnone => by
        rw [hnone q.2] at hget
        cases hget
      obtain ⟨t, ht⟩ := Option.ne_none_iff_exists'.mp htype
      unfold freshStat at hold ⊢
      cases hy : getData env s (s.fld q.1) with
      | none =>
        have hnone : intRows env s q.1 = none := by
          unfold intRows
          simp [ht, hy]
        rw [hnone] at hold
        cases hold
      | some y =>
        rw [intRows_nn hpar.1 ht hy (by rw [hpar.2]; exact hx)] at hold
        rw [intRows_nn (s := s.setData (s.fld i) f) hpar.1 ht (hgetq.trans hy)
          (by rw [Store.fld_setData, Store.fld_setData, hpar.2]; exact getData_setData_self hx hw hl)]
        simp only [Store.fld_setData, hl] at hold ⊢
        have htbl : (s.setData (s.fld i) f).tbl = s.tbl := rfl
        rw [htbl]
        split_ifs at hold ⊢ with hlen
        · simp only [Option.bind_eq_bind, Option.bind_some] at hold ⊢
          rw [← nonNull_sameFlag (List.forall₂_take _ hflags)]
          exact hold
        · exact hold
    · -- any other column
      have hrows : intRows env (s.setData (s.fld i) f) q.1 = intRows env s q.1 := by
        refine intRows_congr h.columns hused rfl (fun j => FldRec.SameData.refl _) ?_
        rintro j hj (rfl | ⟨hle, rfl⟩)
        · exact hgetq
        · exact h.columns.getData_ne hi hj fun heq => hpar ⟨hle, heq⟩
      exact (freshStat_congr hrows).trans hold

end

end Datacl
