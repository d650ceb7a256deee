import Datacl.Compound.Expr

/-!
# A compound expression treats every row by itself

A statement that the vector operations carry out computes its columns row by row, so that
`exec_comp_expr` is a run of a program on rows.
-/

namespace Datacl

open RowProgram (execStmt)

/-! ### Statements as programs on rows -/

/-- The row of a null column that is copied. -/
def copyRow (args : List Int) : Option Int := some (args.getD 0 0)

/-- The row of the null column of two fields. -/
def andRow (args : List Int) : Option Int := some (cmpFlag (args.getD 0 0 ≠ 0 ∧ args.getD 1 0 ≠ 0))

/-- The values of a column, with or without its null column. -/
def colVals : List (List Int) → List Int
  | [f1X] => nonNull f1X none
  | [f1X, nnF1X] => nonNull f1X (some nnF1X)
  | _ => []

/-- The partial result with that of more values. -/
def PartSum.addVals (t : IntType) (op : RedOp) (p : PartSum) (vals : List Int) : PartSum :=
  if vals = [] then p
  else
    let val := fToS op vals (op.init t)
    ⟨true, if p.isNumerSet then op.step p.val val else val, p.cnt + vals.length⟩

/-- The null columns that a statement reads, and the row of the one that it writes. -/
def nnPart (fs : List CompFld) (f : CompFld) : List (RowProgram.Stmt Int PartSum) :=
  match (fs.filter CompFld.hasNull).map CompFld.nnX with
  | [] => []
  | [k] => [.assign [k] f.nnX copyRow]
  | ks => [.assign ks f.nnX andRow]

/-- The program of statement `i`. -/
def CompExpr.prog (rt : Runtime) : CompExpr CompFld × Nat → List (RowProgram.Stmt Int PartSum)
  | (.f1s1opf2 f1 scalars op f2, _) =>
    nnPart [f1] f2 ++ [.assign [f1.X] f2.X fun args =>
      (breakIntoScalars f1.fldtype scalars rt.draws).bind fun sc =>
        op.op.scalarRow f1.fldtype sc (args.getD 0 0)]
  | (.f1f2opf3 f1 f2 op f3, _) =>
    nnPart [f1, f2] f3 ++ [.assign [f1.X, f2.X] f3.X fun args =>
      op.op.row f1.fldtype (args.getD 0 0) (args.getD 1 0)]
  | (.f1opf2 f1 op f2, _) =>
    nnPart [f1] f2 ++ [.assign [f1.X] f2.X fun args =>
      some (op.op.row rt.hash f1.fldtype (args.getD 0 0))]
  | (.fToS f1 op _, i) =>
    [.observe i (if f1.hasNull then [f1.X, f1.nnX] else [f1.X]) fun p cols =>
      p.addVals f1.fldtype op (colVals cols)]

/-- The vector operations carry the statement out: the operator stands where they look for it and is
there for the type. Many scalars, for which random numbers are drawn in every block, and the two
operations that read the first rows for every block are left out. -/
def CompExpr.Supported (rt : Runtime) : CompExpr CompFld → Prop
  | .f1s1opf2 f1 scalars op _ => ¬ op.bracketed ∧ scalars.length ≤ optNumScalars ∧
    ∃ sc, breakIntoScalars f1.fldtype scalars rt.draws = some sc ∧
      op.op.acceptsScalar f1.fldtype sc.numScalars
  | .f1f2opf3 f1 f2 op _ => ¬ op.bracketed ∧ f1.fldtype = f2.fldtype ∧ op.op.acceptsPair f1.fldtype
  | .f1opf2 f1 op _ => op.bracketed ∧ op.op.Accepts f1.fldtype ∧
    ∀ lb, op.op.firstRow f1.fldtype lb = lb
  | .fToS _ _ _ => True

/-! ### Rows of one and of two columns -/

lemma mapM_range_getD {γ : Type} (c : List Int) (f : Int → Option γ) :
    (List.range c.length).mapM (fun r => f (c.getD r default)) = c.mapM f := by
  have hc : c = (List.range c.length).map fun r => c.getD r default := by
    refine List.ext_getElem (by simp) fun i h1 h2 => ?_
    rw [List.getElem_map, List.getElem_range, List.getD_eq_getElem _ _ h1]
  conv_rhs => rw [hc, List.mapM_map]
  rfl

lemma rowsOf_one {row : List Int → Option Int} {c : List Int} {n : Nat} (hc : c.length = n) :
    RowProgram.rowsOf row [c] n = c.mapM fun a => row [a] := by
  rw [← hc]
  exact mapM_range_getD c fun a => row [a]

lemma rowsOf_two {row : List Int → Option Int} {c d : List Int} {n : Nat} (hc : c.length = n)
    (hd : d.length = n) : RowProgram.rowsOf row [c, d] n = (c.zip d).mapM fun p => row [p.1, p.2] := by
  have hzip : (c.zip d) = (List.range n).map fun r => (c.getD r default, d.getD r default) := by
    refine List.ext_getElem (by simp [hc, hd]) fun i h1 h2 => ?_
    rw [List.getElem_map, List.getElem_range, List.getElem_zip, List.getD_eq_getElem,
      List.getD_eq_getElem]
  rw [hzip, List.mapM_map]
  rfl

lemma rowsOf_copy {c : List Int} {n : Nat} (hc : c.length = n) : RowProgram.rowsOf copyRow [c] n = some c := by
  rw [rowsOf_one hc]
  exact RowProgram.mapM_eq_some_iff.mpr rfl

lemma rowsOf_and {c d : List Int} {n : Nat} (hc : c.length = n) (hd : d.length = n) :
    RowProgram.rowsOf andRow [c, d] n = some ((c.zip d).map fun p => cmpFlag (p.1 ≠ 0 ∧ p.2 ≠ 0)) := by
  rw [rowsOf_two hc hd, RowProgram.mapM_eq_some_iff, List.map_map]
  rfl

/-! ### One statement on one block -/

section

variable {rt : Runtime} {lb n : Nat} {s : CompState} {f : CompFld} {fs : List CompFld}
  {srcs : List Nat} {row : List Int → Option Int}

/-- What `nnPart` writes. -/
def nnOut (mem : Nat → List Int) (lb n : Nat) (fs : List CompFld) : Option (Option (List Int)) :=
  match (fs.filter CompFld.hasNull).map CompFld.nnX with
  | [] => some none
  | [k] => (([k].mapM (readBuf mem lb n)).bind fun nns => RowProgram.rowsOf copyRow nns n).map some
  | ks => ((ks.mapM (readBuf mem lb n)).bind fun nns => RowProgram.rowsOf andRow nns n).map some

/-- A statement: its columns are read, its rows are computed and the results are stored. -/
def vecStep (lb n : Nat) (s : CompState) (fs : List CompFld) (srcs : List Nat)
    (row : List Int → Option Int) (f : CompFld) : Option CompState := do
  let cols ← srcs.mapM (readBuf s.st.mem lb n)
  let nn ← nnOut s.st.mem lb n fs
  let out ← RowProgram.rowsOf row cols n
  storeOut lb f s ⟨true, nn, some out⟩

lemma execStmt_assign (st : RowProgram.State Int PartSum) (srcs : List Nat) (k : Nat)
    (row : List Int → Option Int) :
    execStmt isTempBuf lb n st (.assign srcs k row) =
      (srcs.mapM (readBuf st.mem lb n)).bind fun cols => (RowProgram.rowsOf row cols n).bind fun out =>
        (writeBuf st.mem lb k (some out)).map fun mem => ⟨mem, st.acc⟩ := by
  unfold execStmt
  simp only [Option.bind_eq_bind, Option.pure_def, writeBuf, Option.map_map]
  congr 1
  funext cols
  congr 1
  funext out
  cases RowProgram.splice (st.mem k) (RowProgram.off isTempBuf lb k) out <;> rfl

lemma mapM_readBuf_writeBuf {mem mem' : Nat → List Int} {k : Nat} {out : Option (List Int)}
    (h : writeBuf mem lb k out = some mem') (hk : k ∉ srcs) :
    srcs.mapM (readBuf mem' lb n) = srcs.mapM (readBuf mem lb n) := by
  have hsame : ∀ k' ∈ srcs, readBuf mem' lb n k' = readBuf mem lb n k' := by
    intro k' hk'
    have hne : k' ≠ k := by
      rintro rfl
      exact hk hk'
    cases out with
    | none => rw [Option.some.inj h]
    | some out =>
      obtain ⟨xs, -, rfl⟩ := Option.map_eq_some_iff.mp h
      rw [readBuf, readBuf, Function.update_of_ne hne]
  clear h hk
  induction srcs with
  | nil => rfl
  | cons k' srcs ih =>
    rw [List.mapM_cons, List.mapM_cons, hsame k' List.mem_cons_self,
      ih fun k hk => hsame k (List.mem_cons_of_mem k' hk)]

/-- A null column first, and then the cells. -/
lemma foldlM_assign_assign (hk : f.nnX ∉ srcs) (ks : List Nat) (nnRow : List Int → Option Int) :
    ([.assign ks f.nnX nnRow, .assign srcs f.X row].foldlM (execStmt isTempBuf lb n) s.st).map
        (fun st => CompState.mk st true) =
      (srcs.mapM (readBuf s.st.mem lb n)).bind fun cols =>
        (((ks.mapM (readBuf s.st.mem lb n)).bind fun nns => RowProgram.rowsOf nnRow nns n).map some).bind
          fun nn => (RowProgram.rowsOf row cols n).bind fun out => storeOut lb f s ⟨true, nn, some out⟩ := by
  simp only [List.foldlM_cons, List.foldlM_nil, execStmt_assign, Option.bind_eq_bind,
    Option.pure_def]
  cases ks.mapM (readBuf s.st.mem lb n) with
  | none => cases srcs.mapM (readBuf s.st.mem lb n) <;> rfl
  | some nns =>
    rw [Option.bind_some, Option.bind_some]
    cases RowProgram.rowsOf nnRow nns n with
    | none => cases srcs.mapM (readBuf s.st.mem lb n) <;> rfl
    | some nn =>
      rw [Option.bind_some, Option.map_some]
      simp only [Option.bind_some]
      cases hnn : writeBuf s.st.mem lb f.nnX (some nn) with
      | none =>
        cases srcs.mapM (readBuf s.st.mem lb n) with
        | none => rfl
        | some cols =>
          rw [Option.bind_some]
          cases RowProgram.rowsOf row cols n with
          | none => rfl
          | some out =>
            rw [Option.bind_some, storeOut]
            dsimp only
            rw [hnn]
            rfl
      | some mem =>
        rw [Option.map_some, Option.bind_some, mapM_readBuf_writeBuf hnn hk]
        cases srcs.mapM (readBuf s.st.mem lb n) with
        | none => rfl
        | some cols =>
          rw [Option.bind_some, Option.bind_some]
          cases RowProgram.rowsOf row cols n with
          | none => rfl
          | some out =>
            rw [Option.bind_some, Option.bind_some, storeOut]
            dsimp only
            rw [hnn, Option.bind_eq_bind, Option.bind_some]
            cases writeBuf mem lb f.X (some out) <;> rfl

lemma vecStep_eq (hk : f.nnX ∉ srcs) :
    vecStep lb n s fs srcs row f =
      ((nnPart fs f ++ [RowProgram.Stmt.assign srcs f.X row]).foldlM (execStmt isTempBuf lb n) s.st).map
        fun st => ⟨st, true⟩ := by
  unfold vecStep nnPart nnOut
  simp only [Option.bind_eq_bind]
  split
  · rw [List.nil_append, List.foldlM_cons, execStmt_assign]
    simp only [List.foldlM_nil, Option.bind_some, Option.bind_eq_bind]
    cases srcs.mapM (readBuf s.st.mem lb n) with
    | none => rfl
    | some cols =>
      rw [Option.bind_some, Option.bind_some]
      cases RowProgram.rowsOf row cols n with
      | none => rfl
      | some out =>
        rw [Option.bind_some, Option.bind_some, storeOut]
        dsimp only
        cases hw : writeBuf s.st.mem lb f.X (some out) with
        | none =>
          simp only [writeBuf, Option.bind_eq_bind, Option.bind_some] at hw ⊢
          rw [hw]
          rfl
        | some mem =>
          simp only [writeBuf, Option.bind_eq_bind, Option.bind_some] at hw ⊢
          rw [hw]
          rfl
  · exact (foldlM_assign_assign hk _ _).symm
  · exact (foldlM_assign_assign hk _ _).symm

end

lemma length_readBuf {mem : Nat → List Int} {lb n k : Nat} {c : List Int}
    (h : readBuf mem lb n k = some c) : c.length = n := by
  unfold readBuf RowProgram.slice at h
  split_ifs at h with hle
  rw [← Option.some.inj h, List.length_take, List.length_drop]
  omega

section

variable {rt : Runtime} {lb n : Nat} {s : CompState} {mem : Nat → List Int}

lemma nnOut_one (f : CompFld) : nnOut mem lb n [f] = readNn mem lb n f := by
  cases hnull : f.hasNull with
  | false =>
    have hfs : ([f].filter CompFld.hasNull).map CompFld.nnX = [] := by simp [hnull]
    rw [nnOut, hfs, readNn, hnull]
    rfl
  | true =>
    have hfs : ([f].filter CompFld.hasNull).map CompFld.nnX = [f.nnX] := by simp [hnull]
    rw [nnOut, hfs, readNn, hnull]
    dsimp only
    rw [if_pos rfl, List.mapM_cons, List.mapM_nil]
    cases hread : readBuf mem lb n f.nnX with
    | none => rfl
    | some nn => exact congrArg (Option.map some) (rowsOf_copy (length_readBuf hread))

lemma nnOut_two (f1 f2 : CompFld) :
    nnOut mem lb n [f1, f2] =
      (readNn mem lb n f1).bind fun nn1 => (readNn mem lb n f2).map fun nn2 => pairNn nn1 nn2 := by
  cases h1 : f1.hasNull with
  | false =>
    have hfs : [f1, f2].filter CompFld.hasNull = [f2].filter CompFld.hasNull := by simp [h1]
    have hone : nnOut mem lb n [f1, f2] = nnOut mem lb n [f2] := by rw [nnOut, hfs, nnOut]
    have hnone : readNn mem lb n f1 = some none := if_neg (by simp [h1])
    rw [hone, nnOut_one, hnone, Option.bind_some]
    cases readNn mem lb n f2 with
    | none => rfl
    | some nn2 => cases nn2 <;> rfl
  | true =>
    cases h2 : f2.hasNull with
    | false =>
      have hfs : [f1, f2].filter CompFld.hasNull = [f1].filter CompFld.hasNull := by simp [h1, h2]
      have hone : nnOut mem lb n [f1, f2] = nnOut mem lb n [f1] := by rw [nnOut, hfs, nnOut]
      have hnone : readNn mem lb n f2 = some none := if_neg (by simp [h2])
      rw [hone, nnOut_one, hnone]
      cases readNn mem lb n f1 with
      | none => rfl
      | some nn1 => cases nn1 <;> rfl
    | true =>
      have hfs : ([f1, f2].filter CompFld.hasNull).map CompFld.nnX = [f1.nnX, f2.nnX] := by
        simp [h1, h2]
      rw [nnOut, hfs, readNn, readNn, h1, h2]
      dsimp only
      rw [if_pos rfl, if_pos rfl, List.mapM_cons, List.mapM_cons, List.mapM_nil]
      cases hread1 : readBuf mem lb n f1.nnX with
      | none => rfl
      | some nn1 =>
        cases hread2 : readBuf mem lb n f2.nnX with
        | none => rfl
        | some nn2 =>
          exact congrArg (Option.map some) (rowsOf_and (length_readBuf hread1) (length_readBuf hread2))

lemma nnX_ne_X (f g : CompFld) : f.nnX ≠ g.X := by
  unfold CompFld.nnX CompFld.X
  split_ifs <;> omega

/-- `f1s1opf2` on one block. -/
lemma execExpr_f1s1opf2 {f1 f2 : CompFld} {scalars : List Int} {op : OpSpec FldOp} (i : Nat)
    (h : CompExpr.Supported rt (.f1s1opf2 f1 scalars op f2)) (h0 : 0 < n) (hmax : n < 2 ^ 31) :
    execExpr rt lb n s (.f1s1opf2 f1 scalars op f2, i) =
      ((CompExpr.prog rt (.f1s1opf2 f1 scalars op f2, i)).foldlM (execStmt isTempBuf lb n) s.st).map
        fun st => ⟨st, true⟩ := by
  obtain ⟨hbare, -, sc, hsc, hacc⟩ := h
  rw [CompExpr.prog, ← vecStep_eq (by simp [nnX_ne_X]), vecStep, nnOut_one]
  simp only [execExpr, List.mapM_cons, List.mapM_nil, Option.bind_eq_bind]
  cases hread : readBuf s.st.mem lb n f1.X with
  | none => rfl
  | some f1X =>
    have hlen := length_readBuf hread
    cases readNn s.st.mem lb n f1 with
    | none => rfl
    | some nn =>
      simp only [Option.bind_some, Option.pure_def]
      rw [vecF1s1opf2Op_eq hsc ⟨hacc, hbare⟩ nn (by omega) (by omega), rowsOf_one hlen, hsc]
      simp only [Option.bind_some, List.getD_cons_zero]
      cases f1X.mapM (op.op.scalarRow f1.fldtype sc) <;> rfl

/-- `f1f2opf3` on one block. -/
lemma execExpr_f1f2opf3 {f1 f2 f3 : CompFld} {op : OpSpec FldOp} (i : Nat)
    (h : CompExpr.Supported rt (.f1f2opf3 f1 f2 op f3)) (h0 : 0 < n) (hmax : n < 2 ^ 31) :
    execExpr rt lb n s (.f1f2opf3 f1 f2 op f3, i) =
      ((CompExpr.prog rt (.f1f2opf3 f1 f2 op f3, i)).foldlM (execStmt isTempBuf lb n) s.st).map
        fun st => ⟨st, true⟩ := by
  obtain ⟨hbare, htype, hacc⟩ := h
  rw [CompExpr.prog, ← vecStep_eq (by simp [nnX_ne_X]), vecStep, nnOut_two]
  simp only [execExpr, List.mapM_cons, List.mapM_nil, Option.bind_eq_bind]
  cases hread1 : readBuf s.st.mem lb n f1.X with
  | none => rfl
  | some f1X =>
    cases hread2 : readBuf s.st.mem lb n f2.X with
    | none => cases readNn s.st.mem lb n f1 <;> rfl
    | some f2X =>
      have hlen1 := length_readBuf hread1
      have hlen2 := length_readBuf hread2
      cases readNn s.st.mem lb n f1 with
      | none => rfl
      | some nn1 =>
        cases readNn s.st.mem lb n f2 with
        | none => rfl
        | some nn2 =>
          simp only [Option.bind_some, Option.pure_def, Option.map_some]
          rw [← htype, vecF1f2opf3_eq ⟨hacc, hbare⟩ f2X nn1 nn2 (by omega) (by omega), rowsOf_two hlen1 hlen2]
          simp only [List.getD_cons_zero, List.getD_cons_succ]
          cases (f1X.zip f2X).mapM (fun p => op.op.row f1.fldtype p.1 p.2) <;> rfl

lemma vecF1opf2_eq_map {hash : (w : Nat) → BitVec w → Nat → Int} {t : IntType} {op : UnOp}
    {f1X f2X : List Int} (nn : Option (List Int)) (hlen : f2X.length = f1X.length)
    (hacc : op.Accepts t = true) (hfirst : ∀ lb, op.firstRow t lb = lb) (h0 : 0 < f1X.length)
    (hmax : f1X.length < 2 ^ 31) :
    vecF1opf2 hash t op f1X nn f2X = some (f1X.map (fun x => op.row hash t x), nn) := by
  obtain ⟨⟨blockSize, nT⟩, hp⟩ := exists_partition h0 hmax (show (2 : Int) ≤ 1024 by decide)
  rw [vecF1opf2_eq_iff hlen hacc hp]
  intro tid htid j hj
  have hub := (blockBounds_spec hp htid).2
  have hcount : ∀ nX : Nat, nX < 2 ^ 31 → op.count nX = nX := by
    intro nX hnX
    have hwrap : (CInt.wrap 32 nX).toNat = nX := by
      rw [CInt.wrap_of_lt (by omega) (by omega)]
      exact Int.toNat_natCast nX
    cases op
    case hash | bitcount => rfl
    all_goals exact hwrap
  unfold UnOp.RowRight
  generalize blockBounds f1X.length blockSize.toNat nT.toNat tid = bounds at hub hj
  obtain ⟨b, e⟩ := bounds
  dsimp only at hub hj ⊢
  rw [hcount _ (by omega), if_pos hj, hfirst]

/-- The output is where it is read as well. -/
lemma storeOut_eq_none {f : CompFld} {nn : Option (List Int)} {out : List Int} {ok : Bool}
    (hread : readBuf s.st.mem lb n f.X = none) (hlen : out.length = n) :
    storeOut lb f s ⟨ok, nn, some out⟩ = none := by
  unfold storeOut
  cases hnn : writeBuf s.st.mem lb f.nnX nn with
  | none => rfl
  | some mem' =>
    have hsame : [f.X].mapM (readBuf mem' lb n) = [f.X].mapM (readBuf s.st.mem lb n) :=
      mapM_readBuf_writeBuf hnn (by simp [nnX_ne_X])
    have hread' : readBuf mem' lb n f.X = none := by
      rw [List.mapM_cons, List.mapM_cons, hread] at hsame
      cases h : readBuf mem' lb n f.X with
      | none => rfl
      | some c =>
        rw [h] at hsame
        cases hsame
    have hlong : ¬ RowProgram.off isTempBuf lb f.X + out.length ≤ (mem' f.X).length := by
      intro hle
      rw [readBuf, RowProgram.slice_of_le (by omega)] at hread'
      cases hread'
    have hwrite : writeBuf mem' lb f.X (some out) = none := by
      rw [writeBuf, RowProgram.splice, if_neg hlong]
      rfl
    simp only [Option.bind_eq_bind, Option.bind_some]
    rw [hwrite]
    rfl

/-- `f1opf2` on one block. -/
lemma execExpr_f1opf2 {f1 f2 : CompFld} {op : OpSpec UnOp} (i : Nat)
    (h : CompExpr.Supported rt (.f1opf2 f1 op f2)) (h0 : 0 < n) (hmax : n < 2 ^ 31) :
    execExpr rt lb n s (.f1opf2 f1 op f2, i) =
      ((CompExpr.prog rt (.f1opf2 f1 op f2, i)).foldlM (execStmt isTempBuf lb n) s.st).map
        fun st => ⟨st, true⟩ := by
  obtain ⟨hspec, hacc, hfirst⟩ := h
  rw [CompExpr.prog, ← vecStep_eq (by simp [nnX_ne_X]), vecStep, nnOut_one]
  simp only [execExpr, hspec, if_true, List.mapM_cons, List.mapM_nil, Option.bind_eq_bind]
  cases hread : readBuf s.st.mem lb n f1.X with
  | none => rfl
  | some f1X =>
    have hlen := length_readBuf hread
    cases readNn s.st.mem lb n f1 with
    | none => rfl
    | some nn =>
      have hrows : RowProgram.rowsOf (fun args => some (op.op.row rt.hash f1.fldtype (args.getD 0 0))) [f1X] n =
          some (f1X.map fun x => op.op.row rt.hash f1.fldtype x) := by
        rw [rowsOf_one hlen, RowProgram.mapM_eq_some_iff, List.map_map]
        rfl
      simp only [Option.bind_some, Option.pure_def]
      rw [hrows, Option.bind_some]
      cases hread2 : readBuf s.st.mem lb n f2.X with
      | none => exact (storeOut_eq_none hread2 (by simpa using hlen)).symm
      | some f2X =>
        have hlen2 := length_readBuf hread2
        rw [Option.bind_some, vecF1opf2Out, vecF1opf2_eq_map nn (by omega) hacc hfirst (by omega)
          (by omega)]

end

end Datacl
