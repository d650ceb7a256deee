import Datacl.Compound.ExprSequential

/-!
# The status of a compound expression

`exec_comp_expr` does not look at the status of a vector operation, which the next statement
overwrites. The field of a statement that could not be carried out is there all the same.
-/

namespace Datacl

/-- The vector operation of a statement succeeds on any rows. -/
def CompExpr.CarriedOut (rt : Runtime) : CompExpr CompFld → Bool
  | .f1s1opf2 f1 scalars op _ => !op.bracketed &&
    (breakIntoScalars f1.fldtype scalars rt.draws).any fun sc =>
      op.op.acceptsScalar f1.fldtype sc.numScalars
  | .f1f2opf3 f1 f2 op _ => !op.bracketed && decide (f1.fldtype = f2.fldtype) &&
    op.op.acceptsPair f1.fldtype
  | .f1opf2 f1 op _ => op.op.Accepts f1.fldtype
  | .fToS _ _ _ => true

section

variable {rt : Runtime} {lb n : Nat} {s s' : CompState}

/-! ### One statement -/

lemma writeBuf_of_ne {mem mem' : Nat → List Int} {k k' : Nat} {out : Option (List Int)}
    (h : writeBuf mem lb k out = some mem') (hk : k' ≠ k) : mem' k' = mem k' := by
  cases out with
  | none => rw [Option.some.inj h]
  | some out =>
    obtain ⟨xs, -, rfl⟩ := Option.map_eq_some_iff.mp h
    exact Function.update_of_ne hk ..

/-- What is stored for a field. -/
lemma of_storeOut {f : CompFld} {out : VecOut} (h : storeOut lb f s out = some s') :
    s'.ok = out.ok ∧ (out.cells = none → s'.st.mem f.X = s.st.mem f.X) ∧
      ∀ k, k ≠ f.X → k ≠ f.nnX → s'.st.mem k = s.st.mem k := by
  obtain ⟨mem₁, h₁, h⟩ := Option.bind_eq_some_iff.mp h
  obtain ⟨mem₂, h₂, h⟩ := Option.bind_eq_some_iff.mp h
  rw [← Option.some.inj h]
  refine ⟨rfl, fun hnone => ?_, fun k hX hnnX => ?_⟩
  · rw [hnone] at h₂
    obtain rfl := Option.some.inj h₂
    exact writeBuf_of_ne h₁ (nnX_ne_X f f).symm
  · exact (writeBuf_of_ne h₂ hX).trans (writeBuf_of_ne h₁ hnnX)

/-- What a statement on a block leaves: it writes the buffers of its field only, none of the cells if
it is not carried out, and its status is that of the state. -/
structure ExprDone (rt : Runtime) (e : CompExpr CompFld) (s s' : CompState) : Prop where
  ok : s'.ok = e.CarriedOut rt
  kept : e.CarriedOut rt = false → ∀ f ∈ e.out, s'.st.mem f.X = s.st.mem f.X
  frame : ∀ k, (∀ f ∈ e.out, k ≠ f.X ∧ k ≠ f.nnX) → s'.st.mem k = s.st.mem k

lemma exprDone_of_storeOut {e : CompExpr CompFld} {f : CompFld} (hout : e.out = some f) {out : VecOut}
    (hok : out.ok = e.CarriedOut rt) (hcells : out.ok = false → out.cells = none)
    (h : storeOut lb f s out = some s') : ExprDone rt e s s' := by
  obtain ⟨h1, h2, h3⟩ := of_storeOut h
  refine ⟨h1.trans hok, fun hfalse g hg => ?_, fun k hk => ?_⟩
  · obtain rfl : f = g := Option.some.inj (hout.symm.trans hg)
    exact h2 (hcells (hok.trans hfalse))
  · obtain ⟨hX, hnnX⟩ := hk f hout
    exact h3 k hX hnnX

/-- The status of `vec_f1s1opf2`. -/
lemma of_vecF1s1opf2Op {t : IntType} {scalars : List Int} {draws : List (BitVec 32 × BitVec 32)}
    {op : OpSpec FldOp} {f1X : List Int} {nnF1X : Option (List Int)} {out : VecOut}
    (h0 : 0 < f1X.length) (hmax : f1X.length < 2 ^ 31)
    (h : vecF1s1opf2Op t scalars draws op f1X nnF1X = some out) :
    out.ok = (!op.bracketed && (breakIntoScalars t scalars draws).any fun sc =>
      op.op.acceptsScalar t sc.numScalars) ∧ (out.ok = false → out.cells = none) := by
  obtain ⟨⟨blockSize, nT⟩, hp⟩ := exists_partition h0 hmax (show (2 : Int) ≤ 8192 by decide)
  unfold vecF1s1opf2Op at h
  rw [hp] at h
  cases hsc : breakIntoScalars t scalars draws with
  | none =>
    rw [hsc] at h
    obtain rfl := Option.some.inj h
    exact ⟨by simp, fun _ => rfl⟩
  | some sc =>
    rw [hsc] at h
    dsimp only at h
    split_ifs at h with hacc
    · obtain ⟨cells, -, rfl⟩ := Option.map_eq_some_iff.mp h
      exact ⟨by simpa using hacc.symm, fun hfalse => by cases hfalse⟩
    · obtain rfl := Option.some.inj h
      refine ⟨?_, fun _ => rfl⟩
      rw [not_and_or, not_not, Bool.not_eq_true] at hacc
      rcases hacc with hacc | hacc <;> simp [hacc]

/-- The status of `vec_f1f2opf3`. -/
lemma of_vecF1f2opf3 {t1 t2 : IntType} {op : OpSpec FldOp} {f1X f2X : List Int}
    {nnF1X nnF2X : Option (List Int)} {out : VecOut} (h0 : 0 < f1X.length)
    (hmax : f1X.length < 2 ^ 31) (h : vecF1f2opf3 t1 t2 op f1X nnF1X f2X nnF2X = some out) :
    out.ok = (!op.bracketed && decide (t1 = t2) && op.op.acceptsPair t1) ∧
      (out.ok = false → out.cells = none) := by
  obtain ⟨⟨blockSize, nT⟩, hp⟩ := exists_partition h0 hmax (show (2 : Int) ≤ 4096 by decide)
  unfold vecF1f2opf3 at h
  rw [hp] at h
  dsimp only at h
  by_cases ht : t1 = t2
  · rw [if_neg (not_not.mpr ht)] at h
    split_ifs at h with hacc
    · obtain ⟨cells, -, rfl⟩ := Option.map_eq_some_iff.mp h
      exact ⟨by simpa [ht] using hacc.symm, fun hfalse => by cases hfalse⟩
    · obtain rfl := Option.some.inj h
      refine ⟨?_, fun _ => rfl⟩
      rw [not_and_or, not_not, Bool.not_eq_true] at hacc
      rcases hacc with hacc | hacc <;> simp [hacc]
  · rw [if_pos ht] at h
    obtain rfl := Option.some.inj h
    exact ⟨by simp [ht], fun _ => rfl⟩

/-- The status of `vec_f1opf2`. -/
lemma status_vecF1opf2Out (rt : Runtime) (t : IntType) (op : UnOp) {f1X : List Int}
    (nn : Option (List Int)) (f2X : List Int) (hlen : f1X.length = n) (h0 : 0 < n)
    (hmax : n < 2 ^ 31) :
    (vecF1opf2Out rt t op f1X nn f2X).ok = op.Accepts t ∧
      ((vecF1opf2Out rt t op f1X nn f2X).ok = false →
        (vecF1opf2Out rt t op f1X nn f2X).cells = none) := by
  subst hlen
  obtain ⟨⟨blockSize, nT⟩, hp⟩ := exists_partition h0 hmax (show (2 : Int) ≤ 1024 by decide)
  unfold vecF1opf2Out vecF1opf2
  rw [hp]
  cases hacc : op.Accepts t with
  | false => exact ⟨rfl, fun _ => rfl⟩
  | true => exact ⟨rfl, fun hfalse => by cases hfalse⟩

/-- A statement that comes to its end. -/
lemma execExpr_done {e : CompExpr CompFld} {i : Nat} (h0 : 0 < n) (hmax : n < 2 ^ 31)
    (h : execExpr rt lb n s (e, i) = some s') : ExprDone rt e s s' := by
  cases e with
  | f1s1opf2 f1 scalars op f2 =>
    obtain ⟨f1X, hf1X, h⟩ := Option.bind_eq_some_iff.mp h
    obtain ⟨nn, -, h⟩ := Option.bind_eq_some_iff.mp h
    obtain ⟨out, hout, h⟩ := Option.bind_eq_some_iff.mp h
    have hlen := length_readBuf hf1X
    obtain ⟨hok, hcells⟩ := of_vecF1s1opf2Op (by omega) (by omega) hout
    exact exprDone_of_storeOut rfl hok hcells h
  | f1f2opf3 f1 f2 op f3 =>
    obtain ⟨f1X, hf1X, h⟩ := Option.bind_eq_some_iff.mp h
    obtain ⟨nn1, -, h⟩ := Option.bind_eq_some_iff.mp h
    obtain ⟨f2X, -, h⟩ := Option.bind_eq_some_iff.mp h
    obtain ⟨nn2, -, h⟩ := Option.bind_eq_some_iff.mp h
    obtain ⟨out, hout, h⟩ := Option.bind_eq_some_iff.mp h
    have hlen := length_readBuf hf1X
    obtain ⟨hok, hcells⟩ := of_vecF1f2opf3 (by omega) (by omega) hout
    exact exprDone_of_storeOut rfl hok hcells h
  | f1opf2 f1 op f2 =>
    simp only [execExpr] at h
    split_ifs at h
    obtain ⟨f1X, hf1X, h⟩ := Option.bind_eq_some_iff.mp h
    obtain ⟨nn, -, h⟩ := Option.bind_eq_some_iff.mp h
    obtain ⟨f2X, -, h⟩ := Option.bind_eq_some_iff.mp h
    obtain ⟨hok, hcells⟩ := status_vecF1opf2Out rt f1.fldtype op.op nn f2X (length_readBuf hf1X) h0 hmax
    exact exprDone_of_storeOut rfl hok hcells h
  | fToS f1 op envVar =>
    obtain ⟨f1X, -, h⟩ := Option.bind_eq_some_iff.mp h
    obtain ⟨nn, -, h⟩ := Option.bind_eq_some_iff.mp h
    obtain ⟨buf, -, h⟩ := Option.bind_eq_some_iff.mp h
    obtain ⟨p, -, h⟩ := Option.bind_eq_some_iff.mp h
    rw [← Option.some.inj h]
    exact ⟨rfl, fun hfalse => (by cases hfalse), fun k _ => rfl⟩

/-! ### A block and the run -/

lemma isTempBuf_of_isTemp {f : CompFld} (h : f.isTemp = false) : isTempBuf f.X = false :=
  (isTempBuf_X f).trans h

/-- The statements have fields of their own: statement `i` writes the field `i`. -/
lemma index_of_chkStmts {flds : List TblFld} {done exprs : List (CompExpr CompFld)}
    {stmts : List (CompExpr String)} (hchk : chkStmts flds done stmts = some exprs)
    (h : ∀ p ∈ done.zipIdx, ∀ f ∈ p.1.out, f.index = flds.length + p.2) :
    ∀ p ∈ exprs.zipIdx, ∀ f ∈ p.1.out, f.index = flds.length + p.2 := by
  induction stmts generalizing done with
  | nil =>
    obtain rfl := Option.some.inj hchk
    exact h
  | cons stm stmts ih =>
    obtain ⟨done', hstm, hrest⟩ := Option.bind_eq_some_iff.mp hchk
    obtain ⟨e, he, rfl⟩ := Option.map_eq_some_iff.mp hstm
    refine ih hrest fun p hp f hf => ?_
    rw [List.zipIdx_append, List.mem_append] at hp
    rcases hp with hp | hp
    · exact h p hp f hf
    · obtain rfl : p = (e, done.length) := by simpa using hp
      exact (linked_of_chkStmt he).index f hf

variable {exprs : List (CompExpr CompFld × Nat)} {j : Nat} {e : CompExpr CompFld}
  {f : CompFld} {B : Nat}

/-- The cells of a field whose statement is not carried out stay as they are in a block. -/
lemma kept_block (hindex : ∀ p ∈ exprs, ∀ g ∈ p.1.out, g.index = B + p.2) (hf : e.out = some f)
    (hj : f.index = B + j) (huniq : ∀ p ∈ exprs, p.2 = j → p.1 = e)
    (hfail : e.CarriedOut rt = false) (h0 : 0 < n) (hmax : n < 2 ^ 31)
    (h : exprs.foldlM (execExpr rt lb n) s = some s') : s'.st.mem f.X = s.st.mem f.X := by
  induction exprs generalizing s with
  | nil => rw [Option.some.inj h]
  | cons p exprs ih =>
    obtain ⟨s₁, hs₁, h⟩ := Option.bind_eq_some_iff.mp h
    rw [List.forall_mem_cons] at hindex huniq
    rw [ih hindex.2 huniq.2 h]
    obtain ⟨e', i⟩ := p
    have hdone := execExpr_done h0 hmax hs₁
    by_cases hi : i = j
    · obtain rfl : e' = e := huniq.1 hi
      exact hdone.kept hfail f hf
    · refine hdone.frame _ fun g hg => ?_
      have hg := hindex.1 g hg
      have hne : ∀ k, k / 4 = g.index → f.X ≠ k := by
        rintro k hk rfl
        rw [X_div] at hk
        omega
      exact ⟨hne _ (X_div g), hne _ (nnX_div g)⟩

/-- The status after a block is that of the last statement. -/
lemma ok_block (h0 : 0 < n) (hmax : n < 2 ^ 31) {i : Nat}
    (h : (exprs ++ [(e, i)]).foldlM (execExpr rt lb n) s = some s') : s'.ok = e.CarriedOut rt := by
  rw [List.foldlM_append] at h
  obtain ⟨s₁, -, h⟩ := Option.bind_eq_some_iff.mp h
  obtain ⟨s₂, hs₂, h⟩ := Option.bind_eq_some_iff.mp h
  rw [← Option.some.inj h]
  exact (execExpr_done h0 hmax hs₂).ok

end

section

variable {rt : Runtime} {flds : List TblFld} {nR : Nat} {garbage : Nat → List Int}
  {stmts : List (CompExpr String)} {exprs : List (CompExpr CompFld)} {s s' : CompState}

/-- What every block keeps is kept by all of them. -/
lemma kept_blocks {P : CompState → Prop} {blocks : List (Nat × Nat)}
    (hstep : ∀ b ∈ blocks, ∀ s s' : CompState, P s →
      exprs.zipIdx.foldlM (execExpr rt b.1 b.2) s = some s' → P s') (hs : P s)
    (h : blocks.foldlM (fun s b => exprs.zipIdx.foldlM (execExpr rt b.1 b.2) s) s = some s') :
    P s' := by
  induction blocks generalizing s with
  | nil =>
    rw [← Option.some.inj h]
    exact hs
  | cons b blocks ih =>
    obtain ⟨s₁, hs₁, h⟩ := Option.bind_eq_some_iff.mp h
    rw [List.forall_mem_cons] at hstep
    exact ih hstep.2 (hstep.1 s s₁ hs hs₁) h

/-- What the last block brings about. -/
lemma last_block {P : CompState → Prop} {blocks : List (Nat × Nat)} (hne : blocks ≠ [])
    (hstep : ∀ b ∈ blocks, ∀ s s' : CompState,
      exprs.zipIdx.foldlM (execExpr rt b.1 b.2) s = some s' → P s')
    (h : blocks.foldlM (fun s b => exprs.zipIdx.foldlM (execExpr rt b.1 b.2) s) s = some s') :
    P s' := by
  cases blocks with
  | nil => exact absurd rfl hne
  | cons b blocks =>
    obtain ⟨s₁, hs₁, h⟩ := Option.bind_eq_some_iff.mp h
    rw [List.forall_mem_cons] at hstep
    exact kept_blocks (fun b hb s s' _ hrun => hstep.2 b hb s s' hrun) (hstep.1 s s₁ hs₁) h

/-- The file of a field that has not been written is all zeros. -/
lemma initMem_new {f : CompFld} (hindex : flds.length ≤ f.index) (htemp : f.isTemp = false) :
    initMem flds nR garbage f.X = List.replicate nR 0 := by
  rw [initMem, isTempBuf_of_isTemp htemp, X_div, List.getElem?_eq_none hindex]
  rfl

end

/-- The operation of the first statement is in brackets. -/
def refusedStmts : List (CompExpr String) :=
  [.f1s1opf2 "a" [1] ⟨.add, true⟩ "b", .f1s1opf2 "a" [1] ⟨.add, false⟩ "c"]

def refusedExprs : List (CompExpr CompFld) :=
  [.f1s1opf2 ⟨"a", 0, .I4, false⟩ [1] ⟨.add, true⟩ ⟨"b", 1, .I4, false⟩,
    .f1s1opf2 ⟨"a", 0, .I4, false⟩ [1] ⟨.add, false⟩ ⟨"c", 2, .I4, false⟩]

end Datacl
